import ChatRelay.Proofs.Json.Grammar
import ChatRelay.Proofs.Json.Written
/-!
# Scanning the grammar

The scanner accepts every value of the grammar, in any layout. It scans a
self-delimiting value to its last byte and no further, and a part of such a
value leaves it inside the value.
-/

namespace ChatRelay.Json.Skip

open Grammar

variable {s t u : State} {stack : List Bracket} {text more : Bytes}

theorem walk_trans (h : walk s text = some t) (hmore : walk t more = some u) :
    walk s (text ++ more) = some u := by
  rw [walk_append, h, Option.bind_some, hmore]

theorem walk_step {b : UInt8} (hstep : step s b = .more t)
    (h : walk t text = some u) :
    walk s (b :: text) = some u := (walk_cons hstep text).trans h

/-- Bytes each of which keeps the state. -/
theorem walk_stay (h : ∀ b ∈ text, step s b = .more s) :
    walk s text = some s := by
  induction text with
  | nil => rfl
  | cons b text ih =>
      apply walk_step (h b List.mem_cons_self)
      apply ih
      intro c hc
      exact h c (List.mem_cons_of_mem b hc)

theorem walk_digits {mode : Mode}
    (hmode : mode = .whole ∨ mode = .fraction ∨ mode = .power)
    (htext : Digits text) : walk ⟨mode, stack⟩ text = some ⟨mode, stack⟩ := by
  apply walk_stay
  intro b hb
  rcases hmode with rfl | rfl | rfl <;> simp [step, htext b hb]

/-- One or more digits. -/
theorem walk_needed {mode inner : Mode}
    (hneed : ∀ b, isDigit b = true →
      step ⟨mode, stack⟩ b = .more ⟨inner, stack⟩)
    (hinner : inner = .whole ∨ inner = .fraction ∨ inner = .power)
    (htext : Digits text) (hne : text ≠ []) :
    walk ⟨mode, stack⟩ text = some ⟨inner, stack⟩ := by
  cases text with
  | nil => exact absurd rfl hne
  | cons b text =>
      apply walk_step (hneed b (htext b List.mem_cons_self))
      apply walk_digits hinner
      intro c hc
      exact htext c (List.mem_cons_of_mem b hc)

theorem walk_whole (hs : StartsNumber s stack) (h : Whole text) :
    ∃ mode, IsWhole mode ∧ walk s text = some ⟨mode, stack⟩ := by
  cases h with
  | zero => exact ⟨.zero, .inl rfl, walk_step hs.zero rfl⟩
  | digits hfirst hzero hrest =>
      exact ⟨.whole, .inr rfl, walk_step (hs.digit _ hfirst hzero)
        (walk_digits (.inl rfl) hrest)⟩

theorem walk_fraction (stack : List Bracket) {mode : Mode}
    (hmode : IsWhole mode) (h : Fraction text) :
    ∃ mode', (IsWhole mode' ∨ mode' = .fraction) ∧
      walk ⟨mode, stack⟩ text = some ⟨mode', stack⟩ := by
  cases h with
  | none => exact ⟨mode, .inl hmode, rfl⟩
  | digits h hne =>
      refine ⟨.fraction, .inr rfl, walk_step (t := ⟨.point, stack⟩) ?_ ?_⟩
      · rcases hmode with rfl | rfl <;> rfl
      · refine walk_needed (fun b hb => ?_) (.inr (.inl rfl)) h hne
        simp [step, needDigit, hb]

theorem walk_exponent (stack : List Bracket) {mode : Mode}
    (hmode : IsWhole mode ∨ mode = .fraction) (h : Exponent text) :
    ∃ mode', IsNumber mode' ∧
      walk ⟨mode, stack⟩ text = some ⟨mode', stack⟩ := by
  cases h with
  | none =>
      refine ⟨mode, ?_, rfl⟩
      rcases hmode with hwhole | hfraction
      · exact .inl hwhole
      · exact .inr (.inl hfraction)
  | @digits letter sign digits hletter hsign h hne =>
      have hpower {inner : Mode} (hneed : ∀ b, isDigit b = true →
          step ⟨inner, stack⟩ b = .more ⟨.power, stack⟩) :
          walk ⟨inner, stack⟩ digits = some ⟨.power, stack⟩ :=
        walk_needed hneed (.inr (.inr rfl)) h hne
      refine
        ⟨.power, .inr (.inr rfl), walk_step (t := ⟨.exponent, stack⟩) ?_ ?_⟩
      · rcases hmode with (rfl | rfl) | rfl <;> rcases hletter
          with rfl | rfl <;> rfl
      · rcases hsign with rfl | hsign
        · refine hpower fun b hb => ?_
          have hplus : b ≠ 0x2B := by
            rintro rfl
            exact absurd hb (by decide)
          have hminus : b ≠ 0x2D := by
            rintro rfl
            exact absurd hb (by decide)
          simp [step, needDigit, hb, hplus, hminus]
        · have hmore : walk ⟨.sign, stack⟩ digits = some ⟨.power, stack⟩ := by
            refine hpower fun b hb => ?_
            simp [step, needDigit, hb]
          rcases hsign with rfl | rfl
          · exact walk_step rfl hmore
          · exact walk_step rfl hmore

theorem walk_number (hs : Opens s stack) (h : Numeral text) :
    ∃ mode, IsNumber mode ∧ walk s text = some ⟨mode, stack⟩ := by
  cases h with
  | @mk sign whole fraction exponent hsign hwhole hfraction hexponent =>
      have hrest {s' : State} (hs' : StartsNumber s' stack) : ∃ mode,
          IsNumber mode ∧
          walk s' (whole ++ (fraction ++ exponent)) = some ⟨mode, stack⟩ := by
        obtain ⟨mode₁, hmode₁, h₁⟩ := walk_whole hs' hwhole
        obtain ⟨mode₂, hmode₂, h₂⟩ := walk_fraction stack hmode₁ hfraction
        obtain ⟨mode₃, hmode₃, h₃⟩ := walk_exponent stack hmode₂ hexponent
        exact ⟨mode₃, hmode₃, walk_trans h₁ (walk_trans h₂ h₃)⟩
      rcases hsign with rfl | rfl
      · exact hrest hs.startsNumber
      · obtain ⟨mode, hmode, h⟩ := hrest (startsNumber_minus stack)
        exact ⟨mode, hmode, walk_step (hs 0x2D (by decide) (by decide)) h⟩

theorem walk_mark {isKey : Bool} (h : Mark text) :
    walk ⟨.string isKey, stack⟩ text = some ⟨.string isKey, stack⟩ := by
  cases h with
  | plain hquote hslash hprint =>
      have hcontrol : ¬ _ < (0x20 : UInt8) := UInt8.not_lt.mpr hprint
      exact walk_step (by simp [step, hquote, hslash, hcontrol]) rfl
  | @escape b h =>
      have hu : b ≠ 0x75 := by
        rintro rfl
        exact absurd h (by decide)
      exact walk_step (t := ⟨.escape isKey, stack⟩)
        rfl (walk_step (by simp [step, hu, h]) rfl)
  | hex ha hb hc hd =>
      refine walk_step (t := ⟨.escape isKey, stack⟩) rfl ?_
      refine walk_step (t := ⟨.hex isKey 4 true, stack⟩) rfl ?_
      refine walk_step (t := ⟨.hex isKey 3 true, stack⟩) (by simp [step, ha]) ?_
      refine walk_step (t := ⟨.hex isKey 2 true, stack⟩) (by simp [step, hb]) ?_
      refine walk_step (t := ⟨.hex isKey 1 true, stack⟩) (by simp [step, hc]) ?_
      exact walk_step (by simp [step, hd]) rfl

theorem walk_marks {isKey : Bool} (h : Marks text) :
    walk ⟨.string isKey, stack⟩ text = some ⟨.string isKey, stack⟩ := by
  induction h with
  | nil => rfl
  | cons hmark _ ih => exact walk_trans (walk_mark hmark) ih

/-- A string leads from where it may start to the state behind its closing
quote. -/
theorem walk_string {isKey : Bool}
    (hopen : step s 0x22 = .more ⟨.string isKey, stack⟩)
    (hclose : step ⟨.string isKey, stack⟩ 0x22 = .more t) (h : IsString text) :
    walk s text = some t := by
  obtain ⟨hmarks⟩ := h
  exact walk_step hopen (walk_trans (walk_marks hmarks) (walk_step hclose rfl))

/-- A state in which a value may start, with blanks before it. -/
structure Starts (s : State) (stack : List Bracket) : Prop where
  opens : Opens s stack
  blank : ∀ b, isBlank b = true → step s b = .more s

theorem starts_value (stack : List Bracket) : Starts ⟨.value, stack⟩ stack := by
  refine ⟨opens_value stack, fun b hb => ?_⟩
  simp [step, opening, hb]

theorem starts_firstItem (stack : List Bracket) :
    Starts ⟨.firstItem, stack⟩ stack := by
  refine ⟨opens_firstItem stack, fun b hb => ?_⟩
  have hclosing : b ≠ 0x5D := by
    rintro rfl
    exact absurd hb (by decide)
  simp [step, hb, hclosing]

/-- A state in which a key may start, with blanks before it. -/
structure StartsKey (s : State) (stack : List Bracket) : Prop where
  opens : step s 0x22 = .more ⟨.string true, stack⟩
  blank : ∀ b, isBlank b = true → step s b = .more s

theorem startsKey_firstKey (stack : List Bracket) :
    StartsKey ⟨.firstKey, stack⟩ stack := by
  refine ⟨rfl, fun b hb => ?_⟩
  have hclosing : b ≠ 0x7D := by
    rintro rfl
    exact absurd hb (by decide)
  simp [step, hb, hclosing]

theorem startsKey_key (stack : List Bracket) :
    StartsKey ⟨.key, stack⟩ stack := by
  refine ⟨rfl, fun b hb => ?_⟩
  simp [step, hb]

/-- Behind a value inside brackets: the next byte also ends the value. -/
structure Behind (stack : List Bracket) (s : State) : Prop where
  rests : Rests stack s
  blank : ∀ b, isBlank b = true → step s b = numberEnd stack b

theorem behind_behind (stack : List Bracket) : Behind stack ⟨.behind, stack⟩ :=
  ⟨rests_behind stack, fun _ _ => rfl⟩

theorem behind_number {mode : Mode} (hmode : IsNumber mode)
    (stack : List Bracket) :
    Behind stack ⟨mode, stack⟩ := by
  refine ⟨rests_number hmode stack, fun b hb => ?_⟩
  have hne (k : UInt8) (hk : isBlank k = false) : b ≠ k := by
    rintro rfl
    rw [hk] at hb
    contradiction
  have hdigit : isDigit b = false := by
    simp only [isBlank, Bool.or_eq_true, decide_eq_true_eq] at hb
    rcases hb with ((rfl | rfl) | rfl) | rfl <;> rfl
  rcases hmode with (rfl | rfl) | rfl | rfl <;>
    simp [step, hdigit, hne 0x2E (by decide), hne 0x65 (by decide),
      hne 0x45 (by decide)]

theorem Behind.walk_blanks (hstack : stack ≠ []) (hs : Behind stack s)
    (h : Blanks text) :
    ∃ t, Behind stack t ∧ walk s text = some t := by
  cases text with
  | nil => exact ⟨s, hs, rfl⟩
  | cons b text =>
      have hblank := h b List.mem_cons_self
      have hstep (b : UInt8) (hb : isBlank b = true) :
          numberEnd stack b = .more ⟨.behind, stack⟩ := by
        cases stack with
        | nil => exact absurd rfl hstack
        | cons bracket stack => simp [numberEnd, following, hb]
      refine ⟨_, behind_behind stack,
        walk_step ((hs.blank b hblank).trans (hstep b hblank)) ?_⟩
      apply walk_stay
      intro c hc
      exact hstep c (h c (List.mem_cons_of_mem b hc))

theorem walk_word (hstack : stack ≠ []) (hs : Opens s stack) (h : Word text) :
    walk s text = some ⟨.behind, stack⟩ := by
  cases h with
  | null =>
      exact (passes_word hstack (hs 0x6E (by decide) (by decide)) (by decide)
        (by decide)).walks
  | true =>
      exact (passes_word hstack (hs 0x74 (by decide) (by decide)) (by decide)
        (by decide)).walks
  | false =>
      exact (passes_word hstack (hs 0x66 (by decide) (by decide)) (by decide)
        (by decide)).walks

mutual

/-- A value inside brackets leads from before it to behind it. -/
theorem walk_value {s : State} {stack : List Bracket} (hstack : stack ≠ [])
    (hs : Opens s stack) {text : Bytes} (h : IsValue text) :
    ∃ t, Behind stack t ∧ walk s text = some t := by
  match h with
  | .word h => exact ⟨_, behind_behind stack, walk_word hstack hs h⟩
  | .number h =>
      obtain ⟨mode, hmode, h⟩ := walk_number hs h
      exact ⟨_, behind_number hmode stack, h⟩
  | .string h =>
      refine ⟨_, behind_behind stack,
        walk_string (hs 0x22 (by decide) (by decide)) ?_ h⟩
      simpa [step] using ended_of_ne_nil hstack
  | .list h =>
      obtain ⟨front, t, heq, hwalk, hclose⟩ :=
        walk_list (hs 0x5B (by decide) (by decide)) h
      refine ⟨_, behind_behind stack, ?_⟩
      rw [heq]
      exact walk_trans hwalk
        (walk_step (hclose.trans (step_closed hstack .list rfl)) rfl)
  | .object h =>
      obtain ⟨front, t, heq, hwalk, hclose⟩ :=
        walk_object (hs 0x7B (by decide) (by decide)) h
      refine ⟨_, behind_behind stack, ?_⟩
      rw [heq]
      exact walk_trans hwalk
        (walk_step (hclose.trans (step_closed hstack .object rfl)) rfl)

/-- A list leads to its closing byte. -/
theorem walk_list {s : State} {stack : List Bracket}
    (hopen : step s 0x5B = .more ⟨.firstItem, .list :: stack⟩) {text : Bytes}
    (h : IsList text) :
    ∃ front t, text = 0x5B :: front ++ [0x5D] ∧
      walk s (0x5B :: front) = some t ∧
      step t 0x5D = numberEnd (.list :: stack) 0x5D := by
  match h with
  | @IsList.empty gap hgap =>
      refine ⟨gap, ⟨.firstItem, .list :: stack⟩, rfl,
        walk_step hopen (walk_stay fun b hb => ?_), ?_⟩
      · exact (starts_firstItem _).blank b (hgap b hb)
      · simp [step, numberEnd, following, isBlank, Bracket.closing]
  | @IsList.items items h =>
      obtain ⟨t, hbehind, hwalk⟩ :=
        walk_items (starts_firstItem (.list :: stack)) h
      exact ⟨items, t, rfl, walk_step hopen hwalk, hbehind.rests.listEnd⟩

theorem walk_object {s : State} {stack : List Bracket}
    (hopen : step s 0x7B = .more ⟨.firstKey, .object :: stack⟩) {text : Bytes}
    (h : IsObject text) :
    ∃ front t, text = 0x7B :: front ++ [0x7D] ∧
      walk s (0x7B :: front) = some t ∧
      step t 0x7D = numberEnd (.object :: stack) 0x7D := by
  match h with
  | @IsObject.empty gap hgap =>
      refine ⟨gap, ⟨.firstKey, .object :: stack⟩, rfl,
        walk_step hopen (walk_stay fun b hb => ?_), ?_⟩
      · exact (startsKey_firstKey _).blank b (hgap b hb)
      · simp [step, numberEnd, following, isBlank, Bracket.closing]
  | @IsObject.entries entries h =>
      obtain ⟨t, hbehind, hwalk⟩ :=
        walk_entries (startsKey_firstKey (.object :: stack)) h
      exact ⟨entries, t, rfl, walk_step hopen hwalk, hbehind.rests.objectEnd⟩

theorem walk_item {s : State} {stack : List Bracket} (hstack : stack ≠ [])
    (hs : Starts s stack) {text : Bytes} (h : Item text) :
    ∃ t, Behind stack t ∧ walk s text = some t := by
  match h with
  | .mk hbefore h hafter =>
      obtain ⟨t, hbehind, hwalk⟩ := walk_value hstack hs.opens h
      obtain ⟨u, hbehind', hwalk'⟩ := hbehind.walk_blanks hstack hafter
      refine ⟨u, hbehind', walk_trans (walk_stay fun b hb => ?_)
        (walk_trans hwalk hwalk')⟩
      exact hs.blank b (hbefore b hb)

theorem walk_items {s : State} {stack : List Bracket}
    (hs : Starts s (.list :: stack)) {text : Bytes} (h : Items text) :
    ∃ t, Behind (.list :: stack) t ∧ walk s text = some t := by
  match h with
  | .last h => exact walk_item (List.cons_ne_nil _ _) hs h
  | .more h hmore =>
      obtain ⟨t, hbehind, hwalk⟩ := walk_item (List.cons_ne_nil _ _) hs h
      obtain ⟨u, hbehind', hwalk'⟩ :=
        walk_items (starts_value (.list :: stack)) hmore
      exact ⟨u, hbehind',
        walk_trans hwalk (walk_step (hbehind.rests.comma.trans rfl) hwalk')⟩

theorem walk_entry {s : State} {stack : List Bracket}
    (hs : StartsKey s (.object :: stack)) {text : Bytes} (h : Entry text) :
    ∃ t, Behind (.object :: stack) t ∧ walk s text = some t := by
  match h with
  | .mk hbefore hkey hafter h =>
      have hblank : ∀ b, isBlank b = true →
          step ⟨.colon, .object :: stack⟩ b =
            .more ⟨.colon, .object :: stack⟩ := by
        intro b hb
        simp [step, hb]
      obtain ⟨t, hbehind, hwalk⟩ :=
        walk_item (List.cons_ne_nil _ _) (starts_value (.object :: stack)) h
      refine ⟨t, hbehind,
        walk_trans (walk_stay fun b hb => hs.blank b (hbefore b hb)) ?_⟩
      refine walk_trans (walk_string hs.opens rfl hkey) ?_
      exact walk_trans (walk_stay fun b hb => hblank b (hafter b hb))
        (walk_step rfl hwalk)

theorem walk_entries {s : State} {stack : List Bracket}
    (hs : StartsKey s (.object :: stack)) {text : Bytes} (h : Entries text) :
    ∃ t, Behind (.object :: stack) t ∧ walk s text = some t := by
  match h with
  | .last h => exact walk_entry hs h
  | .more h hmore =>
      obtain ⟨t, hbehind, hwalk⟩ := walk_entry hs h
      obtain ⟨u, hbehind', hwalk'⟩ :=
        walk_entries (startsKey_key (.object :: stack)) hmore
      exact ⟨u, hbehind',
        walk_trans hwalk (walk_step (hbehind.rests.comma.trans rfl) hwalk')⟩

end

/-- Behind the first byte of a self-delimiting value and before its last. -/
def Inside (s : State) : Prop :=
  s.stack ≠ [] ∨ s.mode = .string false ∨ s.mode = .escape false ∨
    ∃ left right, s.mode = .hex false left right

theorem Inside.step {b : UInt8} (hs : Inside s) (h : step s b = .more t) :
    Inside t := by
  rcases hs with hstack | hmode
  · exact .inl (step_more_stack hstack h)
  -- outside all brackets, in a string that is no key
  obtain ⟨mode, stack⟩ := s
  cases stack with
  | cons bracket stack => exact .inl (step_more_stack (List.cons_ne_nil _ _) h)
  | nil =>
      right
      rcases hmode with rfl | rfl | ⟨left, right, rfl⟩
      · simp only [Skip.step, Bool.false_eq_true, ↓reduceIte, ended] at h
        split at h
        · simp at h
        split at h
        · simp only [Step.more.injEq] at h
          simp [← h]
        split at h
        · simp at h
        · simp only [Step.more.injEq] at h
          simp [← h]
      · simp only [Skip.step] at h
        split at h
        · simp only [Step.more.injEq] at h
          simp [← h]
        split at h
        · simp only [Step.more.injEq] at h
          simp [← h]
        · simp at h
      · simp only [Skip.step] at h
        split at h
        · simp only [Step.more.injEq] at h
          simp [← h]
        split at h
        · simp only [Step.more.injEq] at h
          simp [← h]
        · simp at h

theorem Inside.walk (hs : Inside s) (h : walk s text = some t) : Inside t := by
  induction text generalizing s with
  | nil =>
      obtain rfl : s = t := by simpa using h
      exact hs
  | cons b text ih =>
      cases hstep : Skip.step s b with
      | more s' =>
        exact ih (hs.step hstep) ((walk_cons hstep text).symm.trans h)
      | last => simp [Skip.walk, hstep] at h
      | past => simp [Skip.walk, hstep] at h
      | wrong cause => simp [Skip.walk, hstep] at h
      | refused cause => simp [Skip.walk, hstep] at h

/-- Inside a number that has to continue with a digit. -/
def State.needsDigit (s : State) : Bool :=
  s.mode matches .minus | .point | .exponent | .sign

/-- A text ends inside a number that has to continue with a digit. -/
def needsDigit (text : Bytes) : Bool := (walk .start text).any State.needsDigit

/-- A text that ends inside a value is truncated, unless it ends where only a
digit can follow. -/
theorem Inside.finish (hs : Inside s) :
    ∃ cause, finish s = some cause ∧ cause.isEnd = !s.needsDigit := by
  obtain ⟨mode, stack⟩ := s
  have hnumber (hstack : stack ≠ []) :
      ∃ cause, stack.head?.map Bracket.ending = some cause ∧
        cause.isEnd = true := by
    cases stack with
    | nil => exact absurd rfl hstack
    | cons bracket stack => cases bracket <;> exact ⟨_, rfl, rfl⟩
  rcases hs with hstack | rfl | rfl | ⟨left, right, rfl⟩
  · cases mode with
    | behind => exact hnumber hstack
    | zero => exact hnumber hstack
    | whole => exact hnumber hstack
    | fraction => exact hnumber hstack
    | power => exact hnumber hstack
    | _ => exact ⟨_, rfl, rfl⟩
  · exact ⟨_, rfl, rfl⟩
  · exact ⟨_, rfl, rfl⟩
  · exact ⟨_, rfl, rfl⟩

/-- The first bytes of self-delimiting values. -/
def Encloses (first : UInt8) : Prop :=
  first = 0x22 ∨ first = 0x5B ∨ first = 0x7B

theorem Encloses.inside {first : UInt8} (h : Encloses first) :
    ∃ s, step .start first = .more s ∧ Inside s := by
  rcases h with rfl | rfl | rfl
  · exact ⟨_, rfl, .inr (.inl rfl)⟩
  · exact ⟨_, rfl, .inl (List.cons_ne_nil _ _)⟩
  · exact ⟨_, rfl, .inl (List.cons_ne_nil _ _)⟩

theorem closed_split (h : Closed text) :
    ∃ first front last s, text = first :: front ++ [last] ∧ Encloses first ∧
      walk .start (first :: front) = some s ∧ step s last = .last := by
  rcases h.shape with hobject | hlist | hstring
  · obtain ⟨front, s, heq, hwalk, hclose⟩ :=
      @walk_object .start [] rfl _ hobject
    exact ⟨_, front, _, s, heq, .inr (.inr rfl), hwalk, hclose⟩
  · obtain ⟨front, s, heq, hwalk, hclose⟩ := @walk_list .start [] rfl _ hlist
    exact ⟨_, front, _, s, heq, .inr (.inl rfl), hwalk, hclose⟩
  · obtain ⟨hmarks⟩ := hstring
    exact ⟨_, _, _, _, rfl, .inl rfl, walk_step rfl (walk_marks hmarks), rfl⟩

/-- The scan of a self-delimiting value stops at its end, whatever follows. -/
theorem run_closed (h : Closed text) (more : Bytes) :
    run .start 0 (text ++ more) = .ok (text.length, more) := by
  obtain ⟨first, front, last, s, rfl, -, hwalk, hlast⟩ := closed_split h
  rw [List.append_assoc, run_append_of_walk hwalk]
  simp [run, hlast]

/-- A part of a self-delimiting value leads inside it. -/
theorem walk_part {part missing : Bytes} (h : Closed (part ++ missing))
    (hpart : part ≠ []) (hmissing : missing ≠ []) :
    ∃ first rest s, part = first :: rest ∧ Encloses first ∧
      walk .start part = some s ∧
      Inside s := by
  obtain ⟨first, front, last, t, heq, hfirst, hwalk, -⟩ := closed_split h
  -- the part ends before the last byte
  obtain ⟨more, hfront⟩ : part <+: first :: front := by
    apply List.prefix_of_prefix_length_le (List.prefix_append part missing)
    · rw [heq]
      exact List.prefix_append _ _
    · have hlength := congrArg List.length heq
      have := List.length_pos_iff.mpr hmissing
      simp only [List.length_append, List.length_cons, List.length_nil]
        at hlength ⊢
      omega
  cases part with
  | nil => exact absurd rfl hpart
  | cons b rest =>
      obtain ⟨rfl, -⟩ := List.cons.inj hfront
      obtain ⟨s₀, hstep, hinside⟩ := hfirst.inside
      rw [← hfront, walk_append] at hwalk
      obtain ⟨s, hs, -⟩ := Option.bind_eq_some_iff.mp hwalk
      exact ⟨b, rest, s, rfl, hfirst, hs,
        hinside.walk ((walk_cons hstep rest).symm.trans hs)⟩

/-- The result of scanning a part of such a value. -/
theorem run_part {part missing : Bytes} (h : Closed (part ++ missing))
    (hpart : part ≠ []) (hmissing : missing ≠ []) :
    ∃ fault, run .start 0 part = .error fault ∧
      fault.cause.isEnd = !needsDigit part := by
  obtain ⟨first, rest, s, -, -, hwalk, hinside⟩ := walk_part h hpart hmissing
  obtain ⟨cause, hfinish, hend⟩ := hinside.finish
  refine ⟨.here cause [], ?_, ?_⟩
  · have hrun := run_append_of_walk hwalk 0 []
    rw [List.append_nil] at hrun
    rw [hrun, run, hfinish]
  · rw [needsDigit, hwalk]
    exact hend

end ChatRelay.Json.Skip
