import ChatRelay.Proofs.Json.GrammarWalk
/-!
# Scanning inside more brackets

The scanner takes the same steps over a value by itself and over a value inside
brackets; where it would stop, it continues behind the value.
-/

namespace ChatRelay.Json

open Grammar Skip

variable {s t u : State} {stack : List Bracket} {text behind rest : Bytes}

/-- The scanner gets from state `s` in front of `text` to `t` in front of
`rest`. -/
def Leads (s : State) (text : Bytes) (t : State) (rest : Bytes) : Prop :=
  ∃ part, text = part ++ rest ∧ walk s part = some t

theorem Leads.refl (s : State) (text : Bytes) : Leads s text s text :=
  ⟨[], rfl, rfl⟩

theorem Leads.trans (h : Leads s text t behind) (h' : Leads t behind u rest) :
    Leads s text u rest := by
  obtain ⟨part, rfl, hwalk⟩ := h
  obtain ⟨part', rfl, hwalk'⟩ := h'
  exact ⟨part ++ part', (List.append_assoc _ _ _).symm, walk_trans hwalk hwalk'⟩

theorem Leads.step {b : UInt8} (hstep : Skip.step s b = .more t)
    (h : Leads t text u rest) :
    Leads s (b :: text) u rest := by
  obtain ⟨part, rfl, hwalk⟩ := h
  exact ⟨b :: part, rfl, walk_step hstep hwalk⟩

theorem Leads.of_blank {gap : Bytes} (hgap : Blanks gap)
    (hstay : ∀ b, isBlank b = true → Skip.step s b = .more s)
    (h : Leads s text t rest) :
    Leads s (gap ++ text) t rest :=
  .trans ⟨gap, rfl, walk_stay fun b hb => hstay b (hgap b hb)⟩ h

/-- The scanner state with more open brackets around it. -/
def Skip.State.within (s : State) (stack : List Bracket) : State :=
  ⟨s.mode, s.stack ++ stack⟩

/-- The result of a byte with more open brackets around it. -/
def Skip.Step.within (stack : List Bracket) : Step → Step
  | .more s => .more (s.within stack)
  | .last => .more ⟨.behind, stack⟩
  | step => step

/-- A bracket was opened, in front of its first item or key. -/
def Skip.State.Placed (s : State) : Prop :=
  s.mode = .firstItem ∨ s.mode = .firstKey → s.stack ≠ []

theorem ended_within (hstack : stack ≠ []) (inner : List Bracket) :
    ended (inner ++ stack) = (ended inner).within stack := by
  cases inner with
  | nil => exact ended_of_ne_nil hstack
  | cons bracket inner => rfl

theorem opening_within (inner : List Bracket) (b : UInt8) :
    opening (inner ++ stack) b = (opening inner b).within stack := by
  simp only [opening, apply_ite (Step.within stack)]
  rfl

theorem numberEnd_within (hstack : stack ≠ []) {inner : List Bracket}
    (hinner : inner ≠ []) (b : UInt8) :
    numberEnd (inner ++ stack) b = (numberEnd inner b).within stack := by
  cases inner with
  | nil => exact absurd rfl hinner
  | cons bracket inner =>
      have hclosed : closed (bracket :: (inner ++ stack)) =
          (closed (bracket :: inner)).within stack :=
        ended_within hstack inner
      simp only [List.cons_append, numberEnd, following, hclosed,
        apply_ite (Step.within stack)]
      cases bracket <;> rfl

theorem needDigit_within (mode : Mode) (inner : List Bracket) (b : UInt8) :
    needDigit mode (inner ++ stack) b =
      (needDigit mode inner b).within stack := by
  unfold needDigit
  split <;> rfl

theorem closed_within (hstack : stack ≠ []) {inner : List Bracket}
    (hinner : inner ≠ []) :
    closed (inner ++ stack) = (closed inner).within stack := by
  cases inner with
  | nil => exact absurd rfl hinner
  | cons bracket inner => exact ended_within hstack inner

/-- More brackets do not change the step of a byte inside a value. -/
theorem step_within (hstack : stack ≠ []) (hs : s.Placed) {b : UInt8}
    (hpast : step s b ≠ .past) :
    step (s.within stack) b = (step s b).within stack := by
  obtain ⟨mode, inner⟩ := s
  have hnumber (h : numberEnd inner b ≠ .past) :
      numberEnd (inner ++ stack) b = (numberEnd inner b).within stack := by
    cases inner with
    | nil => exact absurd rfl h
    | cons bracket inner =>
      exact numberEnd_within hstack (List.cons_ne_nil _ _) b
  have hended := ended_within hstack inner
  have hopening := @opening_within stack inner b
  have hneed (mode : Mode) := @needDigit_within stack mode inner b
  cases mode with
  | value => exact hopening
  | firstItem =>
      have hclosed := closed_within hstack (hs (.inl rfl))
      grind [step, State.within, Step.within]
  | firstKey =>
      have hclosed := closed_within hstack (hs (.inr rfl))
      grind [step, State.within, Step.within]
  | behind => exact hnumber hpast
  | point => exact hneed _
  | sign => exact hneed _
  | word left => cases left <;> grind [step, State.within, Step.within]
  | _ => grind [step, State.within, Step.within]

theorem opening_placed {b : UInt8} {inner : List Bracket}
    (h : opening inner b = .more t) :
    t.Placed := by
  unfold opening at h
  repeat' split at h
  all_goals first
    | contradiction
    | (obtain rfl := Step.more.inj h; simp [State.Placed])

theorem ended_placed {inner : List Bracket} (h : ended inner = .more t) :
    t.Placed := by
  cases inner with
  | nil => contradiction
  | cons bracket inner =>
      obtain rfl := Step.more.inj h
      simp [State.Placed]

theorem numberEnd_placed {b : UInt8} {inner : List Bracket}
    (h : numberEnd inner b = .more t) :
    t.Placed := by
  cases inner with
  | nil => contradiction
  | cons bracket inner =>
      simp only [numberEnd, following] at h
      split at h
      · obtain rfl := Step.more.inj h
        simp [State.Placed]
      split at h
      · exact ended_placed h
      split at h
      · cases bracket <;> obtain rfl := Step.more.inj h <;> simp [State.Placed]
      · contradiction

theorem needDigit_placed {mode : Mode}
    (hmode : mode ≠ .firstItem ∧ mode ≠ .firstKey) {b : UInt8}
    {inner : List Bracket} (h : needDigit mode inner b = .more t) :
    t.Placed := by
  unfold needDigit at h
  split at h
  · obtain rfl := Step.more.inj h
    simp [State.Placed, hmode]
  · contradiction

theorem step_placed (hs : s.Placed) {b : UInt8} (h : step s b = .more t) :
    t.Placed := by
  revert h
  fun_cases step s b
  all_goals intro h
  all_goals first
    | exact ended_placed h
    | exact opening_placed h
    | exact numberEnd_placed h
    | exact needDigit_placed (by simp) h
    | (obtain rfl := Step.more.inj h; first | exact hs | simp [State.Placed])
    | contradiction

/-- A state outside all brackets in which a value may have ended. -/
def Skip.State.Done (s : State) : Prop :=
  s.stack = [] ∧ (s.mode = .behind ∨ IsNumber s.mode ∨ s.mode = .word [])

theorem Skip.State.Done.within (hs : s.Done) (stack : List Bracket) :
    Behind stack (s.within stack) := by
  obtain ⟨mode, inner⟩ := s
  obtain ⟨rfl, rfl | hnumber | rfl⟩ := hs
  · exact behind_behind stack
  · exact behind_number hnumber stack
  · exact ⟨⟨rfl, rfl, rfl⟩, fun _ _ => rfl⟩

theorem ended_ne_past (inner : List Bracket) : ended inner ≠ .past := by
  cases inner <;> simp [ended]

theorem opening_ne_past (inner : List Bracket) (b : UInt8) :
    opening inner b ≠ .past := by
  rcases opening_more_or_wrong inner b
    with ⟨t, ht⟩ | ⟨cause, hcause⟩ <;> simp [*]

theorem needDigit_ne_past (mode : Mode) (inner : List Bracket) (b : UInt8) :
    needDigit mode inner b ≠ .past := by
  unfold needDigit
  split <;> simp

theorem numberEnd_past {inner : List Bracket} {b : UInt8}
    (h : numberEnd inner b = .past) :
    inner = [] := by
  cases inner with
  | nil => rfl
  | cons bracket inner =>
      simp only [numberEnd, following] at h
      split at h
      · contradiction
      split at h
      · exact absurd h (ended_ne_past _)
      split at h
      · cases bracket <;> contradiction
      · contradiction

theorem done_of_past {b : UInt8} (h : step s b = .past) : s.Done := by
  revert h
  fun_cases step s b
  all_goals intro h
  all_goals first
    | exact ⟨numberEnd_past h, by simp [IsNumber, IsWhole, *]⟩
    | exact absurd h (ended_ne_past _)
    | exact absurd h (opening_ne_past _ _)
    | exact absurd h (needDigit_ne_past _ _ _)
    | contradiction

theorem done_of_finish (h : finish s = none) : s.Done := by
  obtain ⟨mode, inner⟩ := s
  cases inner with
  | cons bracket inner =>
      obtain ⟨cause, hcause⟩ :=
        finish_of_stack (s := ⟨mode, bracket :: inner⟩) (List.cons_ne_nil _ _)
      rw [hcause] at h
      contradiction
  | nil => cases mode <;> simp_all [finish, State.Done, IsNumber, IsWhole]

/-- A text that is accepted outside all brackets leads behind a value inside
some. -/
theorem run_leads (hstack : stack ≠ []) (hs : s.Placed) {count n : Nat}
    (h : run s count text = .ok (n, rest)) :
    ∃ t, Behind stack t ∧ Leads (s.within stack) text t rest := by
  induction text generalizing s count with
  | nil =>
      rw [run] at h
      split at h
      · next hfinish =>
          obtain ⟨-, rfl⟩ := Prod.mk.inj (Except.ok.inj h)
          exact ⟨_, (done_of_finish hfinish).within stack, .refl _ _⟩
      · contradiction
  | cons b text ih =>
      rw [run] at h
      have hwithin := step_within hstack hs (b := b)
      split at h
      · next s' hstep =>
          obtain ⟨t, hbehind, hleads⟩ := ih (step_placed hs hstep) h
          refine ⟨t, hbehind, hleads.step ?_⟩
          rw [hwithin (by rw [hstep]; simp), hstep]
          rfl
      · next hstep =>
          obtain ⟨-, rfl⟩ := Prod.mk.inj (Except.ok.inj h)
          refine ⟨_, behind_behind stack, .step ?_ (.refl _ _)⟩
          rw [hwithin (by rw [hstep]; simp), hstep]
          rfl
      · next hstep =>
          obtain ⟨-, rfl⟩ := Prod.mk.inj (Except.ok.inj h)
          exact ⟨_, (done_of_past hstep).within stack, .refl _ _⟩
      · contradiction
      · contradiction

end ChatRelay.Json
