import ChatRelay.Proofs.Json.WrittenTokens
/-!
# Scanning written values

The scanner accepts the written form of every value, which contains no line
feed. A written object ends the scan by its closing bracket, and every proper
prefix of it is rejected.
-/

namespace ChatRelay.Json.Skip

/-- Behind a value inside brackets, in front of a comma or a closing byte. -/
structure Rests (stack : List Bracket) (s : State) : Prop where
  comma : step s 0x2C = numberEnd stack 0x2C
  listEnd : step s 0x5D = numberEnd stack 0x5D
  objectEnd : step s 0x7D = numberEnd stack 0x7D

theorem rests_behind (stack : List Bracket) : Rests stack ⟨.behind, stack⟩ :=
  ⟨rfl, rfl, rfl⟩

theorem rests_number {mode : Mode} (hmode : IsNumber mode)
    (stack : List Bracket) :
    Rests stack ⟨mode, stack⟩ := by
  rcases hmode with (rfl | rfl) | rfl | rfl <;> exact ⟨rfl, rfl, rfl⟩

theorem ended_of_ne_nil {stack : List Bracket} (hstack : stack ≠ []) :
    ended stack = .more ⟨.behind, stack⟩ := by
  cases stack with
  | nil => exact absurd rfl hstack
  | cons bracket stack => rfl

/-- A literal, given by its first byte and the others. -/
theorem passes_word {stack : List Bracket} (hstack : stack ≠ []) {s : State}
    {first : UInt8} {text : Bytes}
    (hs : step s first = .more ⟨.word text, stack⟩) (htext : text ≠ [])
    (hfeed : 0x0A ∉ first :: text) : Passes s
    (first :: text) ⟨.behind, stack⟩ := by
  simp only [List.mem_cons, not_or] at hfeed
  refine .cons hs (Ne.symm hfeed.1) ?_
  have hrest := hfeed.2
  clear hs hfeed
  induction text with
  | nil => exact absurd rfl htext
  | cons b text ih =>
      simp only [List.mem_cons, not_or] at hrest
      by_cases hlast : text = []
      · subst hlast
        refine .cons ?_ (Ne.symm hrest.1) (.nil _)
        simp [step, ended_of_ne_nil hstack]
      · refine .cons ?_ (Ne.symm hrest.1) (ih hlast hrest.2)
        simp [step, hlast]

/-- The closing byte of a bracket inside another. -/
theorem step_closed {stack : List Bracket} (hstack : stack ≠ [])
    (bracket : Bracket) {b : UInt8} (hb : b = bracket.closing) :
    numberEnd (bracket :: stack) b = .more ⟨.behind, stack⟩ := by
  have hblank : isBlank bracket.closing = false := by cases bracket <;> rfl
  simp [numberEnd, following, hb, hblank, closed, ended_of_ne_nil hstack]

mutual

/-- A written value leads from before it to behind it. -/
theorem passes_write (v : Value) {s : State} {stack : List Bracket}
    (hs : Opens s stack) (hstack : stack ≠ []) :
    ∃ s', Rests stack s' ∧ Passes s (Utf8.encode v.write) s' := by
  cases v with
  | null =>
      refine ⟨_, rests_behind stack, ?_⟩
      exact passes_word hstack (hs 0x6E (by decide) (by decide))
        (by decide) (by decide)
  | bool b =>
      refine ⟨_, rests_behind stack, ?_⟩
      cases b with
      | true =>
        exact passes_word hstack (hs 0x74 (by decide) (by decide))
          (by decide) (by decide)
      | false =>
        exact passes_word hstack (hs 0x66 (by decide) (by decide))
          (by decide) (by decide)
  | number n =>
      cases n with
      | int i =>
          obtain ⟨mode, hmode, h⟩ := passes_writeInt hs i
          exact ⟨_, rests_number hmode stack, h⟩
      | real x =>
          obtain ⟨mode, hmode, h⟩ := passes_writeReal hs x
          exact ⟨_, rests_number hmode stack, h⟩
  | string text =>
      refine ⟨_, rests_behind stack, passes_writeString false stack ?_ ?_ text⟩
      · exact hs 0x22 (by decide) (by decide)
      · simpa [step] using ended_of_ne_nil hstack
  | array items =>
      refine ⟨_, rests_behind stack, ?_⟩
      have hopen : step s 0x5B = .more ⟨.firstItem, .list :: stack⟩ :=
        hs 0x5B (by decide) (by decide)
      rw [Value.write, List.cons_append, encode_ascii (by decide),
        Utf8.encode_append]
      refine .cons hopen (by decide) ?_
      cases items with
      | nil =>
          refine .cons ?_ (by decide) (.nil _)
          simpa [step, closed] using ended_of_ne_nil hstack
      | cons v items =>
          obtain ⟨s', hrests, h⟩ :=
            passes_writeItems (v :: items) (List.cons_ne_nil _ _)
              (opens_firstItem (.list :: stack))
          refine h.append (.cons ?_ (by decide) (.nil _))
          exact hrests.listEnd.trans (step_closed hstack .list rfl)
  | object members =>
      refine ⟨_, rests_behind stack, ?_⟩
      have hopen : step s 0x7B = .more ⟨.firstKey, .object :: stack⟩ :=
        hs 0x7B (by decide) (by decide)
      rw [Value.write, List.cons_append, encode_ascii (by decide),
        Utf8.encode_append]
      refine .cons hopen (by decide) ?_
      cases members with
      | nil =>
          refine .cons ?_ (by decide) (.nil _)
          simpa [step, closed] using ended_of_ne_nil hstack
      | cons m members =>
          obtain ⟨s', hrests, h⟩ :=
            passes_writeMembers (m :: members) (List.cons_ne_nil _ _)
              (s := ⟨.firstKey, .object :: stack⟩) rfl
          refine h.append (.cons ?_ (by decide) (.nil _))
          exact hrests.objectEnd.trans (step_closed hstack .object rfl)

theorem passes_writeItems (items : List Value) (hne : items ≠ []) {s : State}
    {stack : List Bracket} (hs : Opens s (.list :: stack)) :
    ∃ s', Rests (.list :: stack) s' ∧
      Passes s (Utf8.encode (writeItems items)) s' := by
  match items with
  | [] => exact absurd rfl hne
  | [v] => exact passes_write v hs (List.cons_ne_nil _ _)
  | v :: w :: items =>
      obtain ⟨s₁, hrests, h⟩ := passes_write v hs (List.cons_ne_nil _ _)
      obtain ⟨s', hrests', h'⟩ :=
        passes_writeItems (w :: items) (List.cons_ne_nil _ _)
          (opens_value (.list :: stack))
      refine ⟨s', hrests', ?_⟩
      rw [writeItems, Utf8.encode_append, encode_ascii (by decide)]
      · exact h.append (.cons (hrests.comma.trans rfl) (by decide) h')
      · simp

theorem passes_writeMembers (members : List (String × Value))
    (hne : members ≠ []) {s : State} {stack : List Bracket}
    (hs : step s 0x22 = .more ⟨.string true, .object :: stack⟩) :
    ∃ s', Rests (.object :: stack) s' ∧
      Passes s (Utf8.encode (writeMembers members)) s' := by
  have hmember (key : String) (v : Value) {s₁ : State}
      (h : Passes ⟨.value, .object :: stack⟩ (Utf8.encode v.write) s₁) :
      Passes s (Utf8.encode (writeString key ++ ':' :: v.write)) s₁ := by
    have hkey :
        Passes s (Utf8.encode (writeString key)) ⟨.colon, .object :: stack⟩ :=
      passes_writeString true (.object :: stack) hs rfl key
    rw [Utf8.encode_append, encode_ascii (by decide)]
    exact hkey.append
      (.cons (t := ⟨.value, .object :: stack⟩) rfl (by decide) h)
  match members with
  | [] => exact absurd rfl hne
  | [(key, v)] =>
      obtain ⟨s', hrests, h⟩ := passes_write v (opens_value (.object :: stack))
        (List.cons_ne_nil _ _)
      exact ⟨s', hrests, hmember key v h⟩
  | (key, v) :: m :: members =>
      obtain ⟨s₁, hrests, h⟩ := passes_write v (opens_value (.object :: stack))
        (List.cons_ne_nil _ _)
      obtain ⟨s', hrests', h'⟩ :=
        passes_writeMembers (m :: members) (List.cons_ne_nil _ _)
          (s := ⟨.key, .object :: stack⟩) rfl
      refine ⟨s', hrests', ?_⟩
      rw [writeMembers, Utf8.encode_append, encode_ascii (by decide)]
      · exact (hmember key v h).append
          (.cons (hrests.comma.trans rfl) (by decide) h')
      · simp

end

theorem bytes_object (members : List (String × Value)) :
    ∃ tail, (Value.object members).bytes = 0x7B :: tail :=
  ⟨_, encode_ascii (by decide) _⟩

/-- The scan ends with a written object, which contains no line feed. -/
theorem run_bytes_object (members : List (String × Value)) :
    0x0A ∉ (Value.object members).bytes ∧
      ∀ rest, run .start 0 ((Value.object members).bytes ++ rest) =
        .ok ((Value.object members).bytes.length, rest) := by
  obtain ⟨s', hend, h⟩ : ∃ s', step s' 0x7D = .last ∧
      Passes .start (Utf8.encode ('\x7b' :: writeMembers members)) s' := by
    cases members with
    | nil => exact ⟨⟨.firstKey, [.object]⟩, rfl, .cons rfl (by decide) (.nil _)⟩
    | cons m members =>
        obtain ⟨s', hrests, h⟩ :=
          passes_writeMembers (m :: members) (List.cons_ne_nil _ _)
            (s := ⟨.firstKey, [.object]⟩) rfl
        refine ⟨s', hrests.objectEnd.trans rfl, ?_⟩
        rw [encode_ascii (by decide)]
        exact .cons (t := ⟨.firstKey, [.object]⟩) rfl (by decide) h
  have hwrite : (Value.object members).bytes =
      Utf8.encode ('\x7b' :: writeMembers members) ++ [0x7D] := by
    rw [Value.bytes, Value.write, Utf8.encode_append]
    rfl
  constructor
  · rw [hwrite]
    simp only [List.mem_append, not_or]
    exact ⟨h.oneLine, by decide⟩
  · intro rest
    rw [hwrite, List.append_assoc, run_append_of_walk h.walks]
    simp [run, hend]

/-- A proper prefix of a written object is rejected. -/
theorem run_part_of_object (members : List (String × Value))
    {part missing : Bytes} (hpart : part ≠ []) (hmissing : missing ≠ [])
    (hsplit : (Value.object members).bytes = part ++ missing) :
    ∃ fault, run .start 0 part = .error fault := by
  have hrun := (run_bytes_object members).2 []
  obtain ⟨tail, htail⟩ := bytes_object members
  rw [List.append_nil, hsplit] at hrun
  rw [htail] at hsplit
  cases part with
  | nil => exact absurd rfl hpart
  | cons b part =>
      obtain ⟨rfl, -⟩ := List.cons.inj hsplit
      -- the bracket is open behind the first byte
      change run ⟨.firstKey, [.object]⟩ 1 (part ++ missing) = _ at hrun
      change ∃ fault, run ⟨.firstKey, [.object]⟩ 1 part = .error fault
      refine run_prefix_error (List.cons_ne_nil _ _) hrun ?_
      have := List.length_pos_iff.mpr hmissing
      simp only [List.cons_append, List.length_cons, List.length_append]
      omega

end ChatRelay.Json.Skip
