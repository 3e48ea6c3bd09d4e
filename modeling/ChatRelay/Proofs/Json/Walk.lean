import ChatRelay.Json.Skip
/-!
# Scanning in pieces

`Skip.walk` scans a part of a text and gives the state behind it, from which the
scan continues as if it had not been interrupted. Inside a bracket the scan
neither ends nor succeeds: a text that ends before its outermost bracket is
closed is rejected, wherever it ends.
-/

namespace ChatRelay.Json.Skip

/-- The state behind a part of a text, if the scan does not end in it. -/
def walk (s : State) : Bytes → Option State
  | [] => some s
  | b :: rest =>
    match step s b with
    | .more s => walk s rest
    | _ => none

@[simp] theorem walk_nil (s : State) : walk s [] = some s := rfl

theorem walk_cons {s s' : State} {b : UInt8} (hstep : step s b = .more s')
    (rest : Bytes) :
    walk s (b :: rest) = walk s' rest := by
  simp [walk, hstep]

theorem walk_append (s : State) (text more : Bytes) :
    walk s (text ++ more) = (walk s text).bind fun s' => walk s' more := by
  induction text generalizing s with
  | nil => rfl
  | cons b rest ih =>
      cases hstep : step s b with
      | more s' => rw [List.cons_append, walk_cons hstep, walk_cons hstep, ih]
      | last => simp [walk, hstep]
      | past => simp [walk, hstep]
      | wrong cause => simp [walk, hstep]
      | refused cause => simp [walk, hstep]

/-- The scan continues from the state behind a part of the text. -/
theorem run_append_of_walk {s s' : State} {text : Bytes}
    (hwalk : walk s text = some s') (count : Nat) (more : Bytes) :
    run s count (text ++ more) = run s' (count + text.length) more := by
  induction text generalizing s count with
  | nil =>
      obtain rfl : s = s' := by simpa using hwalk
      simp
  | cons b rest ih =>
      cases hstep : step s b with
      | more s₁ =>
          rw [walk_cons hstep] at hwalk
          rw [List.cons_append, run, hstep]
          simp only [List.length_cons]
          rw [ih hwalk, Nat.add_assoc, Nat.add_comm 1]
      | last => simp [walk, hstep] at hwalk
      | past => simp [walk, hstep] at hwalk
      | wrong cause => simp [walk, hstep] at hwalk
      | refused cause => simp [walk, hstep] at hwalk

theorem ended_more_stack {stack : List Bracket} {s : State}
    (h : ended stack = .more s) :
    s.stack ≠ [] := by
  cases stack with
  | nil => simp [ended] at h
  | cons bracket stack =>
      simp only [ended, Step.more.injEq] at h
      simp [← h]

theorem opening_more_stack {stack : List Bracket} {b : UInt8} {s : State}
    (hstack : stack ≠ []) (h : opening stack b = .more s) : s.stack ≠ [] := by
  unfold opening at h
  repeat' split at h
  all_goals first
    | (simp only [Step.more.injEq] at h; simp [← h, hstack])
    | simp at h

theorem numberEnd_more_stack {stack : List Bracket} {b : UInt8} {s : State}
    (h : numberEnd stack b = .more s) : s.stack ≠ [] := by
  cases stack with
  | nil => simp [numberEnd] at h
  | cons bracket stack =>
      simp only [numberEnd, following] at h
      split at h
      · simp only [Step.more.injEq] at h
        simp [← h]
      · split at h
        · exact ended_more_stack h
        · split at h
          · cases bracket <;> simp only [Step.more.injEq] at h <;> simp [← h]
          · simp at h

theorem needDigit_more_stack {mode : Mode} {stack : List Bracket} {b : UInt8}
    {s : State} (hstack : stack ≠ []) (h : needDigit mode stack b = .more s) :
    s.stack ≠ [] := by
  unfold needDigit at h
  split at h
  · simp only [Step.more.injEq] at h
    simpa [← h] using hstack
  · simp at h

/-- The scan leaves its outermost bracket only by its end. -/
theorem step_more_stack {s s' : State} {b : UInt8} (hstack : s.stack ≠ [])
    (h : step s b = .more s') : s'.stack ≠ [] := by
  have hkept {mode : Mode} (hstep : Step.more ⟨mode, s.stack⟩ = .more s') :
      s'.stack ≠ [] := by
    simp only [Step.more.injEq] at hstep
    simpa [← hstep] using hstack
  -- every branch of a step keeps the brackets, opens one, closes one or fails
  revert h
  fun_cases step s b
  all_goals intro h
  all_goals first
    | exact hkept h
    | exact ended_more_stack h
    | exact opening_more_stack hstack h
    | exact numberEnd_more_stack h
    | exact needDigit_more_stack hstack h
    | simp at h

/-- A text that ends inside a bracket is truncated. -/
theorem finish_of_stack {s : State} (hstack : s.stack ≠ []) :
    ∃ cause, finish s = some cause := by
  obtain ⟨mode, stack⟩ := s
  cases stack with
  | nil => exact absurd rfl hstack
  | cons bracket stack => cases mode <;> simp [finish]

/-- A proper prefix of a text that is accepted inside a bracket is rejected. -/
theorem run_prefix_error {s : State} (hstack : s.stack ≠ []) {count n : Nat}
    {part missing behind : Bytes}
    (h : run s count (part ++ missing) = .ok (n, behind))
    (hpart : count + part.length < n) :
    ∃ fault, run s count part = .error fault := by
  induction part generalizing s count with
  | nil =>
      obtain ⟨cause, hfinish⟩ := finish_of_stack hstack
      exact ⟨.here cause [], by simp [run, hfinish]⟩
  | cons b rest ih =>
      simp only [List.length_cons] at hpart
      cases hstep : step s b with
      | more s' =>
          rw [List.cons_append, run, hstep] at h
          rw [run, hstep]
          exact ih (step_more_stack hstack hstep) h (by omega)
      | last =>
          simp only [List.cons_append, run, hstep, Except.ok.injEq,
            Prod.mk.injEq] at h
          omega
      | past =>
          simp only [List.cons_append, run, hstep, Except.ok.injEq,
            Prod.mk.injEq] at h
          omega
      | wrong cause => simp [run, hstep] at h
      | refused cause => simp [run, hstep] at h

end ChatRelay.Json.Skip
