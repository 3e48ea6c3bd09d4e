import ChatRelay.Json.Record
import ChatRelay.Proofs.Json.Values
/-!
# Values that are read

Every value that is read from a text lists the keys of its objects in order, and
none of its objects has the reserved key alone.
-/

namespace ChatRelay.Json

/-- The form of the values that a reader returns. -/
structure Value.Proper (v : Value) : Prop where
  sorted : v.Sorted
  notMarked : ¬ v.Marked

/-- If a sequence of two steps succeeds, both do. -/
theorem ok_of_bind {ε α β : Type} {result : Except ε α} {next : α → Except ε β}
    {b : β} (h : result >>= next = .ok b) :
    ∃ a, result = .ok a ∧ next a = .ok b := by
  cases result with
  | error e => contradiction
  | ok a => exact ⟨a, rfl, h⟩

theorem ok_of_mapError {ε ε' α : Type} {f : ε → ε'} {result : Except ε α}
    {a : α} (h : result.mapError f = .ok a) : result = .ok a := by
  cases result with
  | error e => contradiction
  | ok b => rw [Except.ok.inj h]

theorem ok_of_map {ε α β : Type} {f : α → β} {result : Except ε α} {b : β}
    (h : result.map f = .ok b) : ∃ a, result = .ok a ∧ f a = b := by
  cases result with
  | error e => contradiction
  | ok a => exact ⟨a, rfl, Except.ok.inj h⟩

/-- The value is the result of reading some bytes. -/
def Yields (read : Reader Value) (v : Value) : Prop :=
  ∃ text rest, read text = .ok (v, rest)

section

variable {item : Reader Value} {bound : Nat} {text rest : Bytes}

theorem readItems_finds {read items : List Value}
    (h : readItems item bound read text = .ok (items, rest)) :
    ∃ more, items = read.reverse ++ more ∧ ∀ v ∈ more, Yields item v := by
  induction bound generalizing read text with
  | zero =>
      obtain ⟨rfl, -⟩ := Prod.mk.inj (Except.ok.inj h)
      exact ⟨[], by simp⟩
  | succ bound ih =>
      rw [readItems] at h
      split at h
      · contradiction
      · obtain ⟨rfl, -⟩ := Prod.mk.inj (Except.ok.inj h)
        exact ⟨[], by simp⟩
      · split at h
        · contradiction
        · next v rest' hv =>
            obtain ⟨more, rfl, hmore⟩ := ih h
            refine ⟨v :: more, by simp, ?_⟩
            exact List.forall_mem_cons.mpr ⟨⟨_, rest', hv⟩, hmore⟩

theorem readMembers_finds {first : Bool} {read members : Members}
    (h : readMembers item bound first read text = .ok (members, rest)) :
    ∃ more, members = read.assign more ∧ ∀ m ∈ more, Yields item m.2 := by
  induction bound generalizing first read text with
  | zero =>
      obtain ⟨rfl, -⟩ := Prod.mk.inj (Except.ok.inj h)
      exact ⟨[], rfl, by simp⟩
  | succ bound ih =>
      rw [readMembers] at h
      split at h
      · contradiction
      · obtain ⟨rfl, -⟩ := Prod.mk.inj (Except.ok.inj h)
        exact ⟨[], rfl, by simp⟩
      · split at h
        · contradiction
        · next key rest' _ =>
            split at h
            · contradiction
            · next v rest'' hv =>
                obtain ⟨more, rfl, hmore⟩ := ih h
                refine
                  ⟨(key, v) :: more, rfl, List.forall_mem_cons.mpr ⟨?_, hmore⟩⟩
                obtain ⟨text', -, hv⟩ := ok_of_bind hv
                exact ⟨text', rest'', hv⟩

/-- Behind the opening bracket of an object: it ends, its value is given as
text, or members are read of which the first does not have the reserved key. -/
theorem readObject_cases {embedded : Embedded} {v : Value}
    (h : readObject bound (some embedded) item text = .ok (v, rest)) :
    v = .object [] ∨ (∃ s, embedded s = .ok v) ∨
      ∃ key w more, key ≠ reservedKey ∧
        v = .object (Members.assign [(key, w)] more) ∧
        Yields item w ∧ ∀ m ∈ more, Yields item m.2 := by
  obtain ⟨found, _, h⟩ := ok_of_bind h
  cases found with
  | none =>
      obtain ⟨_, _, h⟩ := ok_of_bind h
      obtain ⟨rfl, -⟩ := Prod.mk.inj (Except.ok.inj h)
      exact .inl rfl
  | some text' =>
      obtain ⟨⟨key, rest'⟩, _, h⟩ := ok_of_bind h
      by_cases hkey : key = reservedKey
      · simp only [hkey, decide_true] at h
        obtain ⟨⟨w, behind⟩, hw, h⟩ := ok_of_bind h
        obtain ⟨_, _, h⟩ := ok_of_bind h
        obtain ⟨rfl, -⟩ := Prod.mk.inj (Except.ok.inj h)
        obtain ⟨_, _, hw⟩ := ok_of_bind hw
        obtain ⟨⟨s, _⟩, _, hw⟩ := ok_of_bind hw
        cases hs : embedded s with
        | error e =>
            simp only [hs] at hw
            contradiction
        | ok u =>
            simp only [hs] at hw
            obtain ⟨rfl, -⟩ := Prod.mk.inj (Except.ok.inj hw)
            exact .inr (.inl ⟨s, hs⟩)
      · simp only [hkey, decide_false] at h
        obtain ⟨⟨w, behind⟩, hw, h⟩ := ok_of_bind h
        obtain ⟨⟨members, _⟩, hmembers, h⟩ := ok_of_bind h
        obtain ⟨_, _, h⟩ := ok_of_bind h
        obtain ⟨rfl, -⟩ := Prod.mk.inj (Except.ok.inj h)
        obtain ⟨more, rfl, hmore⟩ := readMembers_finds hmembers
        obtain ⟨text'', _, hw⟩ := ok_of_bind hw
        exact .inr (.inr ⟨key, w, more, hkey, rfl, ⟨text'', behind, hw⟩, hmore⟩)

/-- A value has no bracket, or it is read behind its opening bracket. -/
theorem readWith_cases {embedded : Option Embedded}
    {item? : Option (Reader Value)} {v : Value}
    (h : readWith bound embedded item? text = .ok (v, rest)) :
    v.depth = 0 ∨ ∃ item ∈ item?, ∃ text',
      readList bound item text' = .ok (v, rest) ∨
      readObject bound embedded item text' = .ok (v, rest) := by
  have hscalar {α : Type} {result : Except Fault (α × Bytes)} (f : α → Value)
      (hf : ∀ a, (f a).depth = 0)
      (hv : (result >>= fun a => .ok (f a.1, a.2)) = .ok (v, rest)) :
        v.depth = 0 := by
    obtain ⟨a, _, hv⟩ := ok_of_bind hv
    obtain ⟨rfl, -⟩ := Prod.mk.inj (Except.ok.inj hv)
    exact hf a.1
  obtain ⟨⟨b, text'⟩, _, h⟩ := ok_of_bind h
  simp only at h
  split at h
  · exact .inl (hscalar (fun _ => .null) (fun _ => rfl) h)
  split at h
  · exact .inl (hscalar (fun _ => .bool true) (fun _ => rfl) h)
  split at h
  · exact .inl (hscalar (fun _ => .bool false) (fun _ => rfl) h)
  split at h
  · exact .inl (hscalar .number (fun _ => rfl) h)
  split at h
  · exact .inl (hscalar .number (fun _ => rfl) h)
  split at h
  · exact .inl (hscalar .string (fun _ => rfl) h)
  split at h
  · split at h
    · contradiction
    · exact .inr ⟨_, rfl, text', .inl h⟩
  split at h
  · split at h
    · contradiction
    · exact .inr ⟨_, rfl, text', .inr h⟩
  · contradiction

end

theorem proper_object {members : Members} (hordered : members.Ordered)
    (hmembers : ∀ m ∈ members, m.2.Proper)
    (hfirst : ∀ v, members ≠ [(reservedKey, v)]) :
    (Value.object members).Proper where
  sorted := all_object.mpr ⟨hordered, fun m hm => (hmembers m hm).sorted⟩
  notMarked := by
    rintro ⟨v, hv⟩
    exact hfirst v (Value.object.inj hv)

theorem proper_array {items : List Value} (hitems : ∀ v ∈ items, v.Proper) :
    (Value.array items).Proper where
  sorted := all_array.mpr fun v hv => (hitems v hv).sorted
  notMarked := by
    rintro ⟨v, hv⟩
    contradiction

theorem proper_of_scalar {v : Value} (hscalar : v.depth = 0) : v.Proper where
  sorted := by
    cases v with
    | array items => contradiction
    | object members => contradiction
    | _ => exact trivial
  notMarked := by
    rintro ⟨w, rfl⟩
    contradiction

/-- Members that were read, the first of which does not have the reserved
key. -/
theorem proper_assign {key : String} {w : Value} {more : Members}
    (hkey : key ≠ reservedKey) (hw : w.Proper)
    (hmore : ∀ m ∈ more, m.2.Proper) :
    (Value.object (Members.assign [(key, w)] more)).Proper := by
  refine proper_object ((Members.Ordered.singleton _).assign more)
    (fun m hm => ?_) fun v hv => ?_
  · rcases Members.mem_assign hm with hm | hm
    · rw [List.mem_singleton.mp hm]
      exact hw
    · exact hmore m hm
  · have hget : ((Members.assign [(key, w)] more).get? key).isSome :=
      Members.get?_isSome_assign (by simp [Members.get?])
    rw [hv] at hget
    simp [Members.get?, Ne.symm hkey] at hget

theorem readWith_proper {bound : Nat} {embedded : Embedded}
    {item? : Option (Reader Value)}
    (hembedded : ∀ s v, embedded s = .ok v → v.Proper)
    (hitem : ∀ item ∈ item?, ∀ v, Yields item v → v.Proper) {text rest : Bytes}
    {v : Value}
    (h : readWith bound (some embedded) item? text = .ok (v, rest)) :
    v.Proper := by
  rcases readWith_cases h with hscalar | ⟨item, hmem, text', h | h⟩
  · exact proper_of_scalar hscalar
  · obtain ⟨⟨items, _⟩, hitems, h⟩ := ok_of_bind h
    obtain ⟨_, _, h⟩ := ok_of_bind h
    obtain ⟨rfl, -⟩ := Prod.mk.inj (Except.ok.inj h)
    obtain ⟨more, rfl, hmore⟩ := readItems_finds hitems
    exact proper_array fun v hv => hitem item hmem v (hmore v hv)
  · rcases readObject_cases h
      with rfl | ⟨s, hs⟩ | ⟨key, w, more, hkey, rfl, hw, hmore⟩
    · exact proper_object .nil (by simp) (by simp)
    · exact hembedded s v hs
    · exact proper_assign hkey (hitem item hmem w hw)
        fun m hm => hitem item hmem m.2 (hmore m hm)

theorem readValue_proper {bound : Nat} {embedded : Embedded}
    (hembedded : ∀ s v, embedded s = .ok v → v.Proper) (depth : Nat) {v : Value}
    (h : Yields (readValue bound (some embedded) depth) v) : v.Proper := by
  induction depth generalizing v with
  | zero =>
      obtain ⟨text, rest, h⟩ := h
      exact readWith_proper hembedded (by simp) h
  | succ depth ih =>
      obtain ⟨text, rest, h⟩ := h
      refine readWith_proper hembedded (fun item hitem w hw => ?_) h
      obtain rfl := Option.some.inj hitem
      exact ih hw

/-- Texts inside texts, at every level. -/
theorem parseWithin_proper {levels : Nat} {text : Bytes} {v : Value}
    (h : parseWithin levels text = .ok v) : v.Proper := by
  induction levels generalizing text v with
  | zero => contradiction
  | succ levels ih =>
      rw [parseWithin, readAll] at h
      split at h
      · contradiction
      · next w rest hw =>
          split at h
          · contradiction
          · obtain rfl := Except.ok.inj h
            exact readValue_proper (fun s v hv => ih hv) depthLimit
              ⟨text, rest, hw⟩

theorem embeddedIn_proper {text : Bytes} {s : String} {v : Value}
    (h : embeddedIn text s = .ok v) : v.Proper := parseWithin_proper h

/-- The keys of a map that was read are in order. -/
theorem readMap_sorted {limits : Limits}
    (hembedded : ∀ s v, limits.embedded s = .ok v → v.Proper)
    {text rest : Bytes} {members : Members}
    (h : readMap limits text = .ok (members, rest)) :
    (Value.object members).Sorted := by
  obtain ⟨⟨b, text'⟩, _, h⟩ := ok_of_bind h
  simp only at h
  split at h
  · split at h
    · contradiction
    · next inner hinner =>
        have hsame : inner.embedded = limits.embedded := by
          unfold Limits.inner? at hinner
          split at hinner
          · contradiction
          · rw [← Option.some.inj hinner]
        obtain ⟨⟨found, _⟩, hfound, h⟩ := ok_of_bind h
        obtain ⟨_, _, h⟩ := ok_of_bind h
        obtain ⟨rfl, -⟩ := Prod.mk.inj (Except.ok.inj h)
        obtain ⟨more, rfl, hmore⟩ := readMembers_finds hfound
        refine all_object.mpr ⟨Members.Ordered.nil.assign more, fun m hm => ?_⟩
        rcases Members.mem_assign hm with hm | hm
        · contradiction
        · exact (readValue_proper (hsame ▸ hembedded) inner.depth
            (hmore m hm)).sorted
  · contradiction

end ChatRelay.Json
