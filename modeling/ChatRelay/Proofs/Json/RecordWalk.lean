import ChatRelay.Proofs.Json.ReadWalk
/-!
# Records can be scanned

A text from which a record is read is one list or object with blanks around it,
whatever the skipped members contain, and the scanner gets to its end.
-/

namespace ChatRelay.Json

open Grammar Skip

variable {s t u : State} {stack : List Bracket} {text behind rest : Bytes}

theorem sound_readText : Sound readText := sound_readOnlyString _

theorem sound_readOptional {α : Type} {read : Reader α} (hread : Sound read) :
    Sound (readOptional read) := by
  intro text v rest h
  obtain ⟨⟨b, behind⟩, hb, h'⟩ := ok_of_bind h
  clear h
  obtain ⟨-, gap, hgap, rfl⟩ := skipBlanks_found (toValue_ok hb)
  simp only at h'
  split at h'
  · next hnull =>
      obtain rfl := hnull
      obtain ⟨⟨_, behind'⟩, hword, h'⟩ := ok_of_bind h'
      obtain ⟨-, rfl⟩ := Prod.mk.inj (Except.ok.inj h')
      rw [readWord_ok hword]
      exact walked_of_value hgap (.word .null)
  · obtain ⟨⟨a, behind'⟩, ha, h'⟩ := ok_of_bind h'
    obtain ⟨-, rfl⟩ := Prod.mk.inj (Except.ok.inj h')
    exact (hread _ _ _ ha).of_blanks hgap

theorem sound_readAny (limits : Limits) : Sound (readAny limits) :=
  sound_readValue _ _ _

theorem sound_readMap (limits : Limits) : Sound (readMap limits) := by
  intro text members rest h
  obtain ⟨⟨b, behind⟩, hb, h'⟩ := ok_of_bind h
  clear h
  obtain ⟨-, gap, hgap, rfl⟩ := skipBlanks_found (toValue_ok hb)
  simp only at h'
  split at h'
  · next hopen =>
      obtain rfl := hopen
      split at h'
      · contradiction
      · refine walked_of_object hgap fun stack => ?_
        obtain ⟨⟨found, behind'⟩, hfound, h'⟩ := ok_of_bind h'
        obtain ⟨_, hclose, h'⟩ := ok_of_bind h'
        obtain ⟨-, rfl⟩ := Prod.mk.inj (Except.ok.inj h')
        obtain ⟨_, t, ht, hleads⟩ :=
          readMembers_leads (sound_readValue _ _ _) hfound .first
        obtain ⟨u, hlast, hu⟩ := ht.close hclose
        exact ⟨u, hleads.trans hlast, hu⟩
  · contradiction

/-- All bytes that the reader of a field accepts can be scanned. -/
def Field.Sound {σ : Type} (field : Field σ) : Prop :=
  ∀ limits text set rest, field.read limits text = .ok (.ok set, rest) →
    Walked text rest

theorem Field.Sound.of {σ α : Type} {name : String} {isSet : σ → Bool}
    {read : Limits → Reader α} {set : α → σ → σ}
    (h : ∀ limits, Json.Sound (read limits)) :
    (Field.of name isSet read set).Sound := by
  intro limits text set' rest hread
  cases hfound : read limits text with
  | error fault => simp [Field.of, hfound, Except.map] at hread
  | ok found =>
      obtain rfl : found.2 = rest :=
        (by simpa [Field.of, hfound, Except.map] using hread : _ ∧ _).2
      exact h limits text found.1 found.2 hfound

namespace Shape

variable {σ α : Type} {shape : Shape σ α} {limits : Limits}

theorem readMembers_leads (hfields : ∀ field ∈ shape.fields, field.Sound)
    {bound : Nat} {first : Bool} {gathered gathered' : σ}
    (h : shape.readMembers limits bound first gathered text =
      .ok (.ok gathered', rest))
    (hs : AtKey stack first s) :
    ∃ first t, AtKey stack first t ∧ Leads s text t rest := by
  induction bound generalizing first gathered text s with
  | zero =>
      obtain ⟨-, rfl⟩ := Prod.mk.inj (Except.ok.inj h)
      exact ⟨_, s, hs, .refl _ _⟩
  | succ bound ih =>
      obtain ⟨found, hnext, h⟩ := ok_of_bind h
      cases found with
      | none =>
          obtain ⟨-, rfl⟩ := Prod.mk.inj (Except.ok.inj h)
          exact ⟨_, s, hs, .refl _ _⟩
      | some text' =>
          obtain ⟨⟨key, behind⟩, hkey, h⟩ := ok_of_bind h
          have hmore {text'' behind' : Bytes} {gathered : σ}
              (hcolon : readColon behind = .ok text'')
              (hvalue : Walked text'' behind')
              (h : shape.readMembers limits bound false gathered behind' =
                .ok (.ok gathered', rest)) :
              ∃ first t, AtKey stack first t ∧ Leads s text t rest := by
            obtain ⟨t, ht, hleads⟩ := entry_leads stack hkey hcolon hvalue
            obtain ⟨first, u, hu, hmore⟩ := ih h ht
            exact ⟨first, u, hu, (hs.next hnext).trans (hleads.trans hmore)⟩
          simp only at h
          split at h
          -- a member that is skipped
          · obtain ⟨text'', hcolon, h⟩ := ok_of_bind h
            obtain ⟨⟨_, behind'⟩, hskip, h⟩ := ok_of_bind h
            exact hmore hcolon (sound_skipValue _ _ _ hskip) h
          · next field hfield =>
              split at h
              · simp [pure, Except.pure] at h
              · obtain ⟨text'', hcolon, h⟩ := ok_of_bind h
                obtain ⟨⟨judged, behind'⟩, hread, h⟩ := ok_of_bind h
                cases judged with
                | error cause => simp [pure, Except.pure] at h
                | ok set =>
                    have hsound :=
                      hfields field (List.mem_of_find?_eq_some hfield)
                    exact hmore hcolon (hsound _ _ _ _ hread) h

theorem readItems_leads {fields : List (Field σ)}
    (hfields : ∀ field ∈ fields, field.Sound) {first : Bool}
    {gathered gathered' : σ}
    (h : readItems limits fields first gathered text =
      .ok (.ok gathered', rest))
    (hs : AtItem stack first s) :
    ∃ first t, AtItem stack first t ∧ Leads s text t rest := by
  induction fields generalizing first gathered text s with
  | nil =>
      obtain ⟨-, rfl⟩ := Prod.mk.inj (Except.ok.inj h)
      exact ⟨_, s, hs, .refl _ _⟩
  | cons field fields ih =>
      obtain ⟨found, hnext, h⟩ := ok_of_bind h
      cases found with
      | none =>
          obtain ⟨-, rfl⟩ := Prod.mk.inj (Except.ok.inj h)
          exact ⟨_, s, hs, .refl _ _⟩
      | some text' =>
          obtain ⟨⟨judged, behind⟩, hread, h⟩ := ok_of_bind h
          cases judged with
          | error cause => simp [pure, Except.pure] at h
          | ok set =>
              obtain ⟨t, hstarts, hleads⟩ := hs.next hnext
              obtain ⟨u, hbehind, hleads'⟩ :=
                hfields field List.mem_cons_self _ _ _ _ hread t _
                  (List.cons_ne_nil _ _) hstarts
              obtain ⟨first, w, hw, hmore⟩ :=
                ih (fun f hf => hfields f (List.mem_cons_of_mem _ hf)) h
                  (.later hbehind)
              exact ⟨first, w, hw, hleads.trans (hleads'.trans hmore)⟩

end Shape

/-- A text starts with a list or an object that the scanner accepts, whatever
follows the text. -/
def Bracketed (text rest : Bytes) : Prop :=
  (∃ first behind, skipBlanks text = first :: behind ∧
    (first = 0x5B ∨ first = 0x7B)) ∧
    ∀ more, ∃ n, run .start 0 (text ++ more) = .ok (n, rest ++ more)

theorem bracketed_of_leads {gap : Bytes} (hgap : Blanks gap)
    {first last : UInt8} (hfirst : first = 0x5B ∨ first = 0x7B)
    (hopen : step .start first = .more s)
    (hleads : Leads s text t (last :: rest)) (hlast : step t last = .last) :
    Bracketed (gap ++ first :: text) rest := by
  constructor
  · refine ⟨first, text, ?_, hfirst⟩
    induction gap with
    | nil => rcases hfirst with rfl | rfl <;> rfl
    | cons b gap ih =>
        rw [List.cons_append, skipBlanks, if_pos (hgap b List.mem_cons_self)]
        exact ih fun c hc => hgap c (List.mem_cons_of_mem b hc)
  · intro more
    obtain ⟨part, hpart, hwalk⟩ :=
      (Leads.step hopen hleads).of_blank hgap (starts_value []).blank
    refine ⟨0 + part.length + 1, ?_⟩
    have hrun := run_append_of_walk hwalk 0 (last :: rest ++ more)
    rw [hpart, List.append_assoc]
    refine hrun.trans ?_
    simp only [List.cons_append, run, hlast]

theorem Shape.read_bracketed {σ α : Type} {shape : Shape σ α} {limits : Limits}
    (hfields : ∀ field ∈ shape.fields, field.Sound) {a : α}
    (h : shape.read limits text = .ok (a, rest)) : Bracketed text rest := by
  obtain ⟨⟨b, behind⟩, hb, h'⟩ := ok_of_bind h
  clear h
  obtain ⟨-, gap, hgap, rfl⟩ := skipBlanks_found (toValue_ok hb)
  simp only at h'
  split at h'
  -- an object
  · next hopen =>
      obtain rfl := hopen
      split at h'
      · contradiction
      · obtain ⟨⟨judged, behind'⟩, hread, h'⟩ := ok_of_bind h'
        simp only at h'
        split at h'
        · next c hc =>
            obtain ⟨gathered, rfl, -⟩ := ok_of_bind hc
            obtain ⟨_, hclose, h'⟩ := ok_of_bind h'
            obtain ⟨-, rfl⟩ := Prod.mk.inj (Except.ok.inj h')
            obtain ⟨_, t, ht, hleads⟩ :=
              readMembers_leads hfields hread (@AtKey.first [])
            obtain ⟨u, hlast, hu⟩ := ht.close hclose
            exact bracketed_of_leads hgap (.inr rfl) rfl (hleads.trans hlast) hu
        · contradiction
  split at h'
  -- a list
  · next hopen =>
      obtain rfl := hopen
      split at h'
      · contradiction
      · obtain ⟨⟨judged, behind'⟩, hread, h'⟩ := ok_of_bind h'
        simp only at h'
        split at h'
        · next c hc =>
            obtain ⟨gathered, rfl, -⟩ := ok_of_bind hc
            obtain ⟨_, hclose, h'⟩ := ok_of_bind h'
            obtain ⟨-, rfl⟩ := Prod.mk.inj (Except.ok.inj h')
            obtain ⟨_, t, ht, hleads⟩ :=
              readItems_leads hfields hread (@AtItem.first [])
            obtain ⟨u, hlast, hu⟩ := ht.close hclose
            exact bracketed_of_leads hgap (.inl rfl) rfl (hleads.trans hlast) hu
        · contradiction
  · contradiction

/-- A text that holds a record is one list or object with blanks around it. -/
theorem Shape.parse_bracketed {σ α : Type} {shape : Shape σ α}
    (hfields : ∀ field ∈ shape.fields, field.Sound) {a : α}
    (h : shape.parse text = .ok a) :
    ∃ gap, Blanks gap ∧ Bracketed text gap := by
  rw [parse, readAll] at h
  split at h
  · contradiction
  · next found rest hread =>
      split at h
      · contradiction
      · next hend =>
          obtain ⟨gap, hgap, hrest⟩ := skipBlanks_gap rest
          have hnone : skipBlanks rest = [] := by
            unfold readEnd at hend
            split at hend
            · next hskip => exact hskip
            · contradiction
          rw [hnone, List.append_nil] at hrest
          exact ⟨rest, hrest ▸ hgap, read_bracketed hfields hread⟩

end ChatRelay.Json
