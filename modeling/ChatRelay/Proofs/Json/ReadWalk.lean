import ChatRelay.Proofs.Json.TokenWalk
/-!
# Values that are read can be scanned

A reader checks more than the scanner does. So wherever a reader succeeds, the
scanner accepts the same bytes: this holds for tokens, for values of any depth,
and for values that are skipped.
-/

namespace ChatRelay.Json

open Grammar Skip

variable {s t u : State} {stack : List Bracket} {text behind rest : Bytes}

/-- From every state in which a value may start inside brackets, the scanner
gets behind the bytes that were read. -/
def Walked (text rest : Bytes) : Prop :=
  ∀ s stack, stack ≠ [] → Skip.Starts s stack → ∃ t,
    Behind stack t ∧ Leads s text t rest

/-- All bytes that this reader accepts can be scanned. -/
def Sound {α : Type} (read : Reader α) : Prop :=
  ∀ text a rest, read text = .ok (a, rest) → Walked text rest

/-- Blanks may stand in front. -/
theorem walked_of_opens {gap : Bytes} (hgap : Blanks gap)
    (h : ∀ s stack, stack ≠ [] → Opens s stack → ∃ t,
      Behind stack t ∧ Leads s text t rest) :
    Walked (gap ++ text) rest := by
  intro s stack hstack hs
  obtain ⟨t, hbehind, hleads⟩ := h s stack hstack hs.opens
  exact ⟨t, hbehind, hleads.of_blank hgap hs.blank⟩

theorem Walked.of_blanks {gap : Bytes} (hgap : Blanks gap)
    (h : Walked text rest) :
    Walked (gap ++ text) rest := by
  intro s stack hstack hs
  obtain ⟨t, hbehind, hleads⟩ := h s stack hstack hs
  exact ⟨t, hbehind, hleads.of_blank hgap hs.blank⟩

theorem walked_of_value {gap value : Bytes} (hgap : Blanks gap)
    (hvalue : IsValue value) :
    Walked (gap ++ (value ++ rest)) rest := by
  refine walked_of_opens hgap fun s stack hstack hs => ?_
  obtain ⟨t, hbehind, hwalk⟩ := walk_value hstack hs hvalue
  exact ⟨t, hbehind, value, rfl, hwalk⟩

theorem walked_of_string {gap : Bytes} (hgap : Blanks gap) {str : String}
    (h : readString text = .ok (str, rest)) :
    Walked (gap ++ 0x22 :: text) rest := by
  refine walked_of_opens hgap fun s stack hstack hs => ?_
  have hopen : step s 0x22 = .more ⟨.string false, stack⟩ :=
    hs 0x22 (by decide) (by decide)
  have hclose : step ⟨.string false, stack⟩ 0x22 = .more ⟨.behind, stack⟩ := by
    simpa [step] using ended_of_ne_nil hstack
  exact ⟨_, behind_behind stack,
    ((readString_leads false stack h).trans (.step hclose (.refl _ _))).step
      hopen⟩

theorem walked_of_list {gap : Bytes} (hgap : Blanks gap)
    (h : ∀ stack, ∃ t,
      Leads ⟨.firstItem, .list :: stack⟩ text t (0x5D :: rest) ∧
      step t 0x5D = numberEnd (.list :: stack) 0x5D) :
        Walked (gap ++ 0x5B :: text) rest := by
  refine walked_of_opens hgap fun s stack hstack hs => ?_
  obtain ⟨t, hleads, hclose⟩ := h stack
  have hopen : step s 0x5B = .more ⟨.firstItem, .list :: stack⟩ :=
    hs 0x5B (by decide) (by decide)
  exact ⟨_, behind_behind stack,
    (hleads.trans (.step (hclose.trans (step_closed hstack .list rfl))
      (.refl _ _))).step hopen⟩

theorem walked_of_object {gap : Bytes} (hgap : Blanks gap)
    (h : ∀ stack, ∃ t,
      Leads ⟨.firstKey, .object :: stack⟩ text t (0x7D :: rest) ∧
      step t 0x7D = numberEnd (.object :: stack) 0x7D) :
        Walked (gap ++ 0x7B :: text) rest := by
  refine walked_of_opens hgap fun s stack hstack hs => ?_
  obtain ⟨t, hleads, hclose⟩ := h stack
  have hopen : step s 0x7B = .more ⟨.firstKey, .object :: stack⟩ :=
    hs 0x7B (by decide) (by decide)
  exact ⟨_, behind_behind stack,
    (hleads.trans (.step (hclose.trans (step_closed hstack .object rfl))
      (.refl _ _))).step hopen⟩

/-- The scanner is in a list whose reader looks for the next item. -/
inductive AtItem (stack : List Bracket) : Bool → State → Prop
  | first : AtItem stack true ⟨.firstItem, .list :: stack⟩
  | later {s : State} (h : Behind (.list :: stack) s) : AtItem stack false s

/-- The scanner is in an object whose reader looks for the next key. -/
inductive AtKey (stack : List Bracket) : Bool → State → Prop
  | first : AtKey stack true ⟨.firstKey, .object :: stack⟩
  | later {s : State} (h : Behind (.object :: stack) s) : AtKey stack false s

namespace AtItem

variable {first : Bool}

theorem blanks (hs : AtItem stack first s) {gap : Bytes} (hgap : Blanks gap)
    (text : Bytes) :
    ∃ t, AtItem stack first t ∧ Leads s (gap ++ text) t text := by
  cases hs with
  | first =>
    exact ⟨_, .first, .of_blank hgap (starts_firstItem _).blank (.refl _ _)⟩
  | later hs =>
      obtain ⟨t, hbehind, hwalk⟩ := hs.walk_blanks (List.cons_ne_nil _ _) hgap
      exact ⟨t, .later hbehind, gap, rfl, hwalk⟩

theorem closes (hs : AtItem stack first s) :
    step s 0x5D = numberEnd (.list :: stack) 0x5D := by
  cases hs with
  | first => simp [step, numberEnd, following, isBlank, Bracket.closing]
  | later hs => exact hs.rests.listEnd

theorem close (hs : AtItem stack first s) (h : closeList text = .ok rest) :
    ∃ t, Leads s text t (0x5D :: rest) ∧
      step t 0x5D = numberEnd (.list :: stack) 0x5D := by
  unfold closeList at h
  split at h
  · contradiction
  · next b behind hskip =>
      obtain ⟨-, gap, hgap, rfl⟩ := skipBlanks_found hskip
      obtain ⟨t, ht, hleads⟩ := hs.blanks hgap (b :: behind)
      split at h
      · next hb =>
          obtain rfl := hb
          obtain rfl := Except.ok.inj h
          exact ⟨t, hleads, ht.closes⟩
      split at h
      · split at h <;> contradiction
      · contradiction

theorem next (hs : AtItem stack first s)
    (h : nextItem first text = .ok (some rest)) :
    ∃ t, Skip.Starts t (.list :: stack) ∧ Leads s text t rest := by
  unfold nextItem at h
  split at h
  · contradiction
  · next b behind hskip =>
      obtain ⟨-, gap, hgap, rfl⟩ := skipBlanks_found hskip
      obtain ⟨t, ht, hleads⟩ := hs.blanks hgap (b :: behind)
      split at h
      · simp at h
      cases ht with
      | first =>
          obtain rfl : b :: behind = rest := by simpa using h
          exact ⟨_, starts_firstItem _, hleads⟩
      | later ht =>
          simp only [Bool.false_eq_true, if_false] at h
          split at h
          · next hcomma =>
              obtain rfl := hcomma
              split at h
              · contradiction
              · next c behind' hskip' =>
                  obtain ⟨-, gap', hgap', rfl⟩ := skipBlanks_found hskip'
                  split at h
                  · contradiction
                  · obtain rfl : c :: behind' = rest := by simpa using h
                    refine ⟨_, starts_value _,
                      hleads.trans (.step (ht.rests.comma.trans rfl) ?_)⟩
                    exact .of_blank hgap' (starts_value _).blank (.refl _ _)
          · contradiction

end AtItem

namespace AtKey

variable {first : Bool}

theorem blanks (hs : AtKey stack first s) {gap : Bytes} (hgap : Blanks gap)
    (text : Bytes) :
    ∃ t, AtKey stack first t ∧ Leads s (gap ++ text) t text := by
  cases hs with
  | first =>
    exact ⟨_, .first, .of_blank hgap (startsKey_firstKey _).blank (.refl _ _)⟩
  | later hs =>
      obtain ⟨t, hbehind, hwalk⟩ := hs.walk_blanks (List.cons_ne_nil _ _) hgap
      exact ⟨t, .later hbehind, gap, rfl, hwalk⟩

theorem closes (hs : AtKey stack first s) :
    step s 0x7D = numberEnd (.object :: stack) 0x7D := by
  cases hs with
  | first => simp [step, numberEnd, following, isBlank, Bracket.closing]
  | later hs => exact hs.rests.objectEnd

theorem close (hs : AtKey stack first s) (h : closeObject text = .ok rest) :
    ∃ t, Leads s text t (0x7D :: rest) ∧
      step t 0x7D = numberEnd (.object :: stack) 0x7D := by
  unfold closeObject at h
  split at h
  · contradiction
  · next b behind hskip =>
      obtain ⟨-, gap, hgap, rfl⟩ := skipBlanks_found hskip
      obtain ⟨t, ht, hleads⟩ := hs.blanks hgap (b :: behind)
      split at h
      · next hb =>
          obtain rfl := hb
          obtain rfl := Except.ok.inj h
          exact ⟨t, hleads, ht.closes⟩
      split at h <;> contradiction

/-- The next key, behind its opening quote. -/
theorem next (hs : AtKey stack first s)
    (h : nextKey first text = .ok (some rest)) :
    Leads s text ⟨.string true, .object :: stack⟩ rest := by
  unfold nextKey at h
  split at h
  · contradiction
  · next b behind hskip =>
      obtain ⟨-, gap, hgap, rfl⟩ := skipBlanks_found hskip
      obtain ⟨t, ht, hleads⟩ := hs.blanks hgap (b :: behind)
      split at h
      · simp at h
      cases ht with
      | first =>
          simp only [if_true] at h
          split at h
          · next hquote =>
              obtain rfl := hquote
              obtain rfl : behind = rest := by simpa using h
              exact hleads.trans (.step rfl (.refl _ _))
          · contradiction
      | later ht =>
          simp only [Bool.false_eq_true, if_false] at h
          split at h
          · next hcomma =>
              obtain rfl := hcomma
              split at h
              · contradiction
              · next c behind' hskip' =>
                  obtain ⟨-, gap', hgap', rfl⟩ := skipBlanks_found hskip'
                  split at h
                  · next hquote =>
                      obtain rfl := hquote
                      obtain rfl : behind' = rest := by simpa using h
                      refine hleads.trans (.step (t := ⟨.key, .object :: stack⟩)
                        (ht.rests.comma.trans rfl) ?_)
                      exact .of_blank hgap' (startsKey_key _).blank
                        (.step rfl (.refl _ _))
                  split at h <;> contradiction
          · contradiction

end AtKey

theorem readColon_leads (stack : List Bracket) (h : readColon text = .ok rest) :
    Leads ⟨.colon, stack⟩ text ⟨.value, stack⟩ rest := by
  unfold readColon at h
  split at h
  · contradiction
  · next b behind hskip =>
      obtain ⟨-, gap, hgap, rfl⟩ := skipBlanks_found hskip
      split at h
      · next hcolon =>
          obtain rfl := hcolon
          obtain rfl := Except.ok.inj h
          refine .of_blank hgap (fun b hb => ?_) (.step rfl (.refl _ _))
          simp [step, hb]
      · contradiction

/-- A key behind its opening quote, the colon and a value. -/
theorem entry_leads (stack : List Bracket) {key : String} {text' text'' : Bytes}
    (hkey : readString text = .ok (key, text'))
    (hcolon : readColon text' = .ok text'') (hvalue : Walked text'' rest) :
    ∃ t, AtKey stack false t ∧
      Leads ⟨.string true, .object :: stack⟩ text t rest := by
  obtain ⟨t, hbehind, hleads⟩ :=
    hvalue ⟨.value, .object :: stack⟩ _ (List.cons_ne_nil _ _)
      (starts_value _)
  refine
    ⟨t, .later hbehind, (readString_leads true _ hkey).trans (.step rfl ?_)⟩
  exact (readColon_leads _ hcolon).trans hleads

theorem readItems_leads {item : Reader Value} (hitem : Sound item) {bound : Nat}
    {read items : List Value}
    (h : readItems item bound read text = .ok (items, rest))
    (hs : AtItem stack read.isEmpty s) :
    ∃ first t, AtItem stack first t ∧ Leads s text t rest := by
  induction bound generalizing read text s with
  | zero =>
      obtain ⟨-, rfl⟩ := Prod.mk.inj (Except.ok.inj h)
      exact ⟨_, s, hs, .refl _ _⟩
  | succ bound ih =>
      rw [readItems] at h
      split at h
      · contradiction
      · obtain ⟨-, rfl⟩ := Prod.mk.inj (Except.ok.inj h)
        exact ⟨_, s, hs, .refl _ _⟩
      · next text' hnext =>
          split at h
          · contradiction
          · next v rest' hv =>
              obtain ⟨t, hstarts, hleads⟩ := hs.next hnext
              obtain ⟨u, hbehind, hleads'⟩ :=
                hitem _ _ _ hv t _ (List.cons_ne_nil _ _) hstarts
              obtain ⟨first, t', ht', hmore⟩ := ih h (.later hbehind)
              exact ⟨first, t', ht', hleads.trans (hleads'.trans hmore)⟩

theorem readMembers_leads {item : Reader Value} (hitem : Sound item)
    {bound : Nat} {first : Bool} {read members : Members}
    (h : readMembers item bound first read text = .ok (members, rest))
    (hs : AtKey stack first s) :
    ∃ first t, AtKey stack first t ∧ Leads s text t rest := by
  induction bound generalizing first read text s with
  | zero =>
      obtain ⟨-, rfl⟩ := Prod.mk.inj (Except.ok.inj h)
      exact ⟨_, s, hs, .refl _ _⟩
  | succ bound ih =>
      rw [readMembers] at h
      split at h
      · contradiction
      · obtain ⟨-, rfl⟩ := Prod.mk.inj (Except.ok.inj h)
        exact ⟨_, s, hs, .refl _ _⟩
      · next text' hnext =>
          split at h
          · contradiction
          · next key behind hkey =>
              split at h
              · contradiction
              · next v behind' hv =>
                  obtain ⟨colon, hcolon, hv⟩ := ok_of_bind hv
                  obtain ⟨t, ht, hleads⟩ :=
                    entry_leads stack hkey hcolon (hitem _ _ _ hv)
                  obtain ⟨first, t', ht', hmore⟩ := ih h ht
                  exact
                    ⟨first, t', ht', (hs.next hnext).trans (hleads.trans hmore)⟩

theorem sound_readOnlyString (expected : String) :
    Sound (readOnlyString expected) := by
  intro text str rest h
  obtain ⟨⟨b, behind⟩, hb, hread⟩ := ok_of_bind h
  obtain ⟨-, gap, hgap, rfl⟩ := skipBlanks_found (toValue_ok hb)
  simp only at hread
  split at hread
  · next hquote =>
      obtain rfl := hquote
      exact walked_of_string hgap hread
  · contradiction

theorem readObject_leads {item : Reader Value} (hitem : Sound item)
    {bound : Nat} {embedded : Option Embedded} {v : Value}
    (h : readObject bound embedded item text = .ok (v, rest))
    (stack : List Bracket) :
    ∃ t, Leads ⟨.firstKey, .object :: stack⟩ text t (0x7D :: rest) ∧
      step t 0x7D = numberEnd (.object :: stack) 0x7D := by
  obtain ⟨found, hfound, h⟩ := ok_of_bind h
  cases found with
  | none =>
      obtain ⟨_, hclose, h⟩ := ok_of_bind h
      obtain ⟨-, rfl⟩ := Prod.mk.inj (Except.ok.inj h)
      exact AtKey.first.close hclose
  | some text' =>
      have hnext := (@AtKey.first stack).next hfound
      obtain ⟨⟨key, behind⟩, hkey, h⟩ := ok_of_bind h
      simp only at h
      split at h
      -- the value is given as text
      · obtain ⟨⟨w, behind'⟩, hw, h⟩ := ok_of_bind h
        obtain ⟨_, hclose, h⟩ := ok_of_bind h
        obtain ⟨-, rfl⟩ := Prod.mk.inj (Except.ok.inj h)
        obtain ⟨colon, hcolon, hw⟩ := ok_of_bind hw
        obtain ⟨⟨str, _⟩, hstr, hw⟩ := ok_of_bind hw
        simp only at hw
        split at hw
        · obtain ⟨-, rfl⟩ := Prod.mk.inj (Except.ok.inj hw)
          obtain ⟨t, ht, hleads⟩ :=
            entry_leads stack hkey hcolon (sound_readOnlyString _ _ _ _ hstr)
          obtain ⟨u, hmore, hu⟩ := ht.close hclose
          exact ⟨u, hnext.trans (hleads.trans hmore), hu⟩
        · contradiction
      · obtain ⟨⟨w, behind'⟩, hw, h⟩ := ok_of_bind h
        obtain ⟨⟨members, behind''⟩, hmembers, h⟩ := ok_of_bind h
        obtain ⟨_, hclose, h⟩ := ok_of_bind h
        obtain ⟨-, rfl⟩ := Prod.mk.inj (Except.ok.inj h)
        obtain ⟨colon, hcolon, hw⟩ := ok_of_bind hw
        obtain ⟨t, ht, hleads⟩ := entry_leads stack hkey hcolon (hitem _ _ _ hw)
        obtain ⟨_, u, hu, hmore⟩ := readMembers_leads hitem hmembers ht
        obtain ⟨w, hlast, hw⟩ := hu.close hclose
        exact ⟨w, hnext.trans (hleads.trans (hmore.trans hlast)), hw⟩

theorem readList_leads {item : Reader Value} (hitem : Sound item) {bound : Nat}
    {v : Value} (h : readList bound item text = .ok (v, rest))
    (stack : List Bracket) :
    ∃ t, Leads ⟨.firstItem, .list :: stack⟩ text t (0x5D :: rest) ∧
      step t 0x5D = numberEnd (.list :: stack) 0x5D := by
  obtain ⟨⟨items, behind⟩, hitems, h⟩ := ok_of_bind h
  obtain ⟨_, hclose, h⟩ := ok_of_bind h
  obtain ⟨-, rfl⟩ := Prod.mk.inj (Except.ok.inj h)
  obtain ⟨_, t, ht, hleads⟩ := readItems_leads hitem hitems .first
  obtain ⟨u, hmore, hu⟩ := ht.close hclose
  exact ⟨u, hleads.trans hmore, hu⟩

theorem sound_readWith {bound : Nat} {embedded : Option Embedded}
    {item? : Option (Reader Value)} (hitem : ∀ item ∈ item?, Sound item) :
    Sound (readWith bound embedded item?) := by
  intro text v rest h
  obtain ⟨⟨b, behind⟩, hb, hread⟩ := ok_of_bind h
  clear h
  obtain ⟨-, gap, hgap, rfl⟩ := skipBlanks_found (toValue_ok hb)
  have hword {word : Bytes} {u : Value} (hvalue : IsValue (b :: word))
      (hv : (readWord word behind >>= fun a => .ok (u, a.2)) = .ok (v, rest)) :
      Walked (gap ++ b :: behind) rest := by
    obtain ⟨⟨_, behind'⟩, hfound, hv⟩ := ok_of_bind hv
    obtain ⟨-, rfl⟩ := Prod.mk.inj (Except.ok.inj hv)
    rw [readWord_ok hfound]
    exact walked_of_value hgap hvalue
  have hnumber {sign text : Bytes} {negative : Bool}
      (hsign : sign = [] ∨ sign = [0x2D]) (htext : b :: behind = sign ++ text)
      (hv : (readNumber negative text >>=
        fun a => .ok (Value.number a.1, a.2)) = .ok (v, rest)) :
      Walked (gap ++ b :: behind) rest := by
    obtain ⟨⟨n, behind'⟩, hfound, hv⟩ := ok_of_bind hv
    obtain ⟨-, rfl⟩ := Prod.mk.inj (Except.ok.inj hv)
    obtain ⟨numeral, hnumeral, hsplit⟩ := readNumber_numeral hsign hfound
    rw [htext, hsplit]
    exact walked_of_value hgap (.number hnumeral)
  simp only at hread
  split at hread
  · next hnull => exact hword (hnull ▸ .word .null) hread
  split at hread
  · next htrue => exact hword (htrue ▸ .word .true) hread
  split at hread
  · next hfalse => exact hword (hfalse ▸ .word .false) hread
  split at hread
  · next hminus => exact hnumber (.inr rfl) (hminus ▸ rfl) hread
  split at hread
  · exact hnumber (.inl rfl) rfl hread
  split at hread
  · next hquote =>
      obtain rfl := hquote
      obtain ⟨⟨str, behind'⟩, hfound, hread⟩ := ok_of_bind hread
      obtain ⟨-, rfl⟩ := Prod.mk.inj (Except.ok.inj hread)
      exact walked_of_string hgap hfound
  split at hread
  · next hopen =>
      obtain rfl := hopen
      split at hread
      · contradiction
      · next item =>
          exact walked_of_list hgap (readList_leads (hitem item rfl) hread)
  split at hread
  · next hopen =>
      obtain rfl := hopen
      split at hread
      · contradiction
      · next item =>
          exact walked_of_object hgap (readObject_leads (hitem item rfl) hread)
  · contradiction

theorem sound_readValue (bound : Nat) (embedded : Option Embedded)
    (depth : Nat) :
    Sound (readValue bound embedded depth) := by
  induction depth with
  | zero => exact sound_readWith (by simp)
  | succ depth ih =>
      refine sound_readWith fun item hitem => ?_
      obtain rfl := Option.some.inj hitem
      exact ih

/-- A skipped value starts wherever a value may. -/
theorem sound_skipValue : Sound skipValue := by
  intro text a rest h s stack hstack hs
  cases hrun : run .start 0 text with
  | error fault => simp [skipValue, hrun, Except.map] at h
  | ok walked =>
      obtain ⟨n, behind⟩ := walked
      obtain rfl : behind = rest := by
        simpa [skipValue, hrun, Except.map] using h
      clear h
      generalize 0 = count at hrun
      induction text generalizing count with
      | nil => contradiction
      | cons b text ih =>
          rw [run] at hrun
          have hfirst : step .start b = opening [] b := rfl
          by_cases hblank : isBlank b = true
          · have hstay : step .start b = .more .start :=
              (starts_value []).blank b hblank
            rw [hstay] at hrun
            obtain ⟨t, hbehind, hleads⟩ := ih _ hrun
            exact ⟨t, hbehind, hleads.step (hs.blank b hblank)⟩
          · have hopen : b ≠ 0x5D := by
              rintro rfl
              contradiction
            have hstep : step s b = (opening [] b).within stack :=
              (hs.opens b (by simpa using hblank) hopen).trans
                (opening_within [] b)
            rcases opening_more_or_wrong [] b with ⟨s', hs'⟩ | ⟨cause, hcause⟩
            · rw [hfirst, hs'] at hrun
              rw [hs'] at hstep
              obtain ⟨t, hbehind, hleads⟩ :=
                run_leads hstack (opening_placed hs') hrun
              exact ⟨t, hbehind, hleads.step hstep⟩
            · rw [hfirst, hcause] at hrun
              contradiction

end ChatRelay.Json
