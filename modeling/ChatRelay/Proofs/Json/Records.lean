import ChatRelay.Proofs.Json.ReadWritten
/-!
# Reading records

A property that every field preserves holds of the whole record, whether it is
read from an object or from a list. A record that was written as an object is
read field by field.
-/

namespace ChatRelay.Json.Shape

variable {σ α : Type} {shape : Shape σ α} {limits : Limits} {keeps : σ → Prop}

/-- Reading the field preserves the property. -/
def Keeps (keeps : σ → Prop) (limits : Limits) (field : Field σ) : Prop :=
  ∀ text set rest, field.read limits text = .ok (.ok set, rest) → ∀ s, keeps s →
    keeps (set s)

theorem readMembers_keeps
    (hfields : ∀ field ∈ shape.fields, Keeps keeps limits field) {bound : Nat}
    {first : Bool} {s s' : σ} {text rest : Bytes}
    (h : shape.readMembers limits bound first s text = .ok (.ok s', rest))
    (hs : keeps s) :
    keeps s' := by
  induction bound generalizing first s text with
  | zero =>
      obtain ⟨rfl, -⟩ : s = s' ∧ text = rest := by simpa [readMembers] using h
      exact hs
  | succ bound ih =>
      obtain ⟨found, _, h⟩ := ok_of_bind h
      cases found with
      | none =>
          obtain ⟨rfl, -⟩ : s = s' ∧ text = rest := by
            simpa using Prod.mk.inj (Except.ok.inj h)
          exact hs
      | some text' =>
          obtain ⟨⟨key, _⟩, _, h⟩ := ok_of_bind h
          simp only at h
          split at h
          · obtain ⟨_, _, h⟩ := ok_of_bind h
            obtain ⟨_, _, h⟩ := ok_of_bind h
            exact ih h hs
          · next field hfield =>
              split at h
              · simp [pure, Except.pure] at h
              · obtain ⟨_, _, h⟩ := ok_of_bind h
                obtain ⟨⟨judged, _⟩, hread, h⟩ := ok_of_bind h
                cases judged with
                | error cause => simp [pure, Except.pure] at h
                | ok set =>
                    exact ih h (hfields field (List.mem_of_find?_eq_some hfield)
                      _ _ _ hread s hs)

theorem readItems_keeps {fields : List (Field σ)}
    (hfields : ∀ field ∈ fields, Keeps keeps limits field) {first : Bool}
    {s s' : σ} {text rest : Bytes}
    (h : readItems limits fields first s text = .ok (.ok s', rest))
    (hs : keeps s) : keeps s' := by
  induction fields generalizing first s text with
  | nil =>
      obtain ⟨rfl, -⟩ : s = s' ∧ text = rest := by simpa [readItems] using h
      exact hs
  | cons field fields ih =>
      obtain ⟨found, _, h⟩ := ok_of_bind h
      cases found with
      | none =>
          obtain ⟨rfl, -⟩ : s = s' ∧ text = rest := by
            simpa using Prod.mk.inj (Except.ok.inj h)
          exact hs
      | some text' =>
          obtain ⟨⟨judged, _⟩, hread, h⟩ := ok_of_bind h
          cases judged with
          | error cause => simp [pure, Except.pure] at h
          | ok set =>
              exact ih (fun f hf => hfields f (List.mem_cons_of_mem _ hf)) h
                (hfields field List.mem_cons_self _ _ _ hread s hs)

/-- The record is built from the fields that were read. -/
theorem read_keeps
    (hfields : ∀ inner ∈ limits.inner?, ∀ field ∈ shape.fields,
      Keeps keeps inner field)
    (hstart : keeps shape.start) {text rest : Bytes} {a : α}
    (h : shape.read limits text = .ok (a, rest)) :
    ∃ s, keeps s ∧ shape.finish s = .ok a := by
  obtain ⟨⟨b, text'⟩, _, h⟩ := ok_of_bind h
  simp only at h
  split at h
  -- an object
  · split at h
    · contradiction
    · next inner hinner =>
        obtain ⟨⟨judged, rest'⟩, hread, h⟩ := ok_of_bind h
        simp only at h
        split at h
        · next c hc =>
            obtain ⟨s, rfl, hs⟩ := ok_of_bind hc
            obtain ⟨_, _, h⟩ := ok_of_bind h
            obtain ⟨rfl, -⟩ := Prod.mk.inj (Except.ok.inj h)
            exact ⟨s, readMembers_keeps (hfields inner hinner) hread hstart,
              ok_of_mapError hs⟩
        · contradiction
  split at h
  -- a list
  · split at h
    · contradiction
    · next inner hinner =>
        obtain ⟨⟨judged, rest'⟩, hread, h⟩ := ok_of_bind h
        simp only at h
        split at h
        · next c hc =>
            obtain ⟨s, rfl, hs⟩ := ok_of_bind hc
            obtain ⟨_, _, h⟩ := ok_of_bind h
            obtain ⟨rfl, -⟩ := Prod.mk.inj (Except.ok.inj h)
            exact ⟨s, readItems_keeps (hfields inner hinner) hread hstart,
              ok_of_mapError hs⟩
        · contradiction
  · contradiction

theorem keeps_of {β : Type} {name : String} {isSet : σ → Bool}
    {read : Limits → Reader β} {set : β → σ → σ}
    (h : ∀ text b rest, read limits text = .ok (b, rest) → ∀ s, keeps s →
      keeps (set b s)) :
    Keeps keeps limits (.of name isSet read set) := by
  intro text set' rest hread s hs
  cases hb : read limits text with
  | error fault => simp [Field.of, hb, Except.map] at hread
  | ok found =>
      obtain ⟨rfl, -⟩ : set found.1 = set' ∧ found.2 = rest := by
        simpa [Field.of, hb, Except.map] using hread
      exact h text found.1 found.2 hb s hs

theorem parse_keeps {text : Bytes}
    (hfields : ∀ inner : Limits, (∀ s v, inner.embedded s = .ok v → v.Proper) →
      ∀ field ∈ shape.fields, Keeps keeps inner field)
    (hstart : keeps shape.start) {a : α} (h : shape.parse text = .ok a) :
    ∃ s, keeps s ∧ shape.finish s = .ok a := by
  rw [parse, readAll] at h
  split at h
  · contradiction
  · next b rest hb =>
      split at h
      · contradiction
      · obtain rfl := Except.ok.inj h
        refine read_keeps (fun inner hinner => hfields inner fun s v hv => ?_)
          hstart hb
        rw [← Option.some.inj hinner] at hv
        exact embeddedIn_proper hv

/-- In front of a written member of a known name, its value is read. -/
theorem readMembers_judged {name : String} {field : Field σ}
    (hfind : shape.fields.find? (fun f => f.name = name) = some field) {s : σ}
    (hfree : field.isSet s = false) (bound : Nat) (first : Bool) (v : Value)
    (members : Members) (rest : Bytes) :
    shape.readMembers limits (bound + 1) first s
        (membersText first ((name, v) :: members) ++ 0x7D :: rest) =
      (field.read limits
        (Utf8.encode v.write ++ (membersText false members ++ 0x7D :: rest)) >>=
        fun
          | (.ok set, rest) => shape.readMembers limits bound false (set s) rest
          | (.error cause, rest) => .ok (.error cause, rest)) := by
  have hcolon (text : Bytes) : readColon (0x3A :: text) = .ok text := rfl
  rw [readMembers, nextKey_membersText]
  simp only [bind, Except.bind, readString_stringTail, hfind, hfree, hcolon,
    Bool.false_eq_true, ↓reduceIte]
  cases field.read limits
    (Utf8.encode v.write ++ (membersText false members ++ 0x7D :: rest)) with
  | error fault => rfl
  | ok found => obtain ⟨_ | set, rest⟩ := found <;> rfl

theorem readMembers_field {β : Type} {name : String} {isSet : σ → Bool}
    {read : Limits → Reader β} {set : β → σ → σ}
    (hfind : shape.fields.find? (fun f => f.name = name) =
      some (.of name isSet read set))
    {s : σ} (hfree : isSet s = false) (bound : Nat) (first : Bool) (v : Value)
    (members : Members) (rest : Bytes) :
    shape.readMembers limits (bound + 1) first s
        (membersText first ((name, v) :: members) ++ 0x7D :: rest) =
      (read limits
        (Utf8.encode v.write ++ (membersText false members ++ 0x7D :: rest)) >>=
        fun (b, rest) => shape.readMembers limits bound false
          (set b s) rest) := by
  rw [readMembers_judged hfind hfree]
  dsimp only [Field.of]
  cases read limits
    (Utf8.encode v.write ++ (membersText false members ++ 0x7D :: rest)) with
  | error fault => rfl
  | ok found => rfl

/-- A field whose value is read back. -/
theorem readMembers_known {β : Type} {name : String} {isSet : σ → Bool}
    {read : Limits → Reader β} {set : β → σ → σ}
    (hfind : shape.fields.find? (fun f => f.name = name) =
      some (.of name isSet read set))
    {s : σ} (hfree : isSet s = false) {bound : Nat} {first : Bool} {v : Value}
    {members : Members} {rest : Bytes} {b : β}
    (hread : read limits
      (Utf8.encode v.write ++ (membersText false members ++ 0x7D :: rest)) =
      .ok (b, membersText false members ++ 0x7D :: rest)) :
    shape.readMembers limits (bound + 1) first s
        (membersText first ((name, v) :: members) ++ 0x7D :: rest) =
      shape.readMembers limits bound false (set b s)
        (membersText false members ++ 0x7D :: rest) := by
  rw [readMembers_field hfind hfree, hread]
  rfl

theorem readMembers_end (bound : Nat) (first : Bool) (s : σ) (rest : Bytes) :
    shape.readMembers limits bound first s
      (membersText first [] ++ 0x7D :: rest) = .ok (.ok s, 0x7D :: rest) := by
  cases bound with
  | zero => rfl
  | succ bound => rfl

/-- The result behind the members of an object: the record, or the error. -/
def conclude (shape : Shape σ α) (gathered : Judged σ × Bytes) :
    Except Fault (α × Bytes) :=
  match gathered.1.bind shape.finishObject with
  | .ok a => do return (a, ← closeObject gathered.2)
  | .error cause => .error (.here cause (behindObject gathered.2))

theorem read_object {inner : Limits} (hinner : limits.inner? = some inner)
    (text : Bytes) :
    shape.read limits (0x7B :: text) =
      (shape.readMembers inner inner.bound true shape.start text >>=
        shape.conclude) := by
  have hopen : toValue (0x7B :: text) = .ok (0x7B, text) :=
    toValue_cons rfl text
  simp only [read, hopen, bind, Except.bind, hinner, ↓reduceIte]
  rfl

theorem parse_iff {text : Bytes} {a : α} {good : Prop}
    (h : Reads (shape.read (.ofText text) text) a [] good) :
    shape.parse text = .ok a ↔ good := by
  constructor
  · intro hparse
    rw [parse, readAll] at hparse
    split at hparse
    · contradiction
    · next b rest hb =>
        obtain ⟨rfl, hgood⟩ := h.only b rest hb
        exact hgood (Except.ok.inj hparse)
  · intro hgood
    rw [parse, readAll, h.finds hgood]
    rfl

end ChatRelay.Json.Shape

namespace ChatRelay.Json

open Skip (isBlank_of_isDigit ne_of_isDigit)

theorem readOnlyString_write (expected s : String) (rest : Bytes) :
    readOnlyString expected (Utf8.encode (Value.string s).write ++ rest) =
      .ok (s, rest) := by
  have hread (text : Bytes) :
      readOnlyString expected (0x22 :: text) = readString text :=
    rfl
  rw [Value.write, encode_writeString, List.cons_append, hread,
    readString_stringTail]

theorem readText_write (s : String) (rest : Bytes) :
    readText (Utf8.encode (Value.string s).write ++ rest) = .ok (s, rest) :=
  readOnlyString_write _ s rest

/-- A written value is not null. -/
theorem readOptional_cons {α : Type} (read : Reader α) {b : UInt8}
    (hblank : isBlank b = false) (hnull : b ≠ 0x6E) (text : Bytes) :
    readOptional read (b :: text) =
      (read (b :: text) >>= fun (a, rest) => .ok (some a, rest)) := by
  rw [readOptional, toValue_cons hblank]
  simp only [bind, Except.bind, hnull, ↓reduceIte]
  rfl

theorem readOptional_some {α : Type} {read : Reader α} {text rest : Bytes}
    {a : α} (h : readOptional read text = .ok (some a, rest)) :
    ∃ text', read text' = .ok (a, rest) := by
  obtain ⟨⟨b, text'⟩, _, h⟩ := ok_of_bind h
  simp only at h
  split at h
  · obtain ⟨_, _, h⟩ := ok_of_bind h
    simp [pure, Except.pure] at h
  · obtain ⟨⟨a', rest'⟩, hread, h⟩ := ok_of_bind h
    obtain ⟨rfl, rfl⟩ : a' = a ∧ rest' = rest := by
      simpa [pure, Except.pure] using h
    exact ⟨_, hread⟩

theorem readOptional_text (s : String) (rest : Bytes) :
    readOptional readText (Utf8.encode (Value.string s).write ++ rest) =
      .ok (some s, rest) := by
  have hread := readText_write s rest
  rw [Value.write, encode_writeString, List.cons_append] at hread ⊢
  rw [readOptional_cons readText (by decide) (by decide), hread]
  rfl

theorem readInteger_write (expected : String) {least greatest i : Int}
    (hleast : least ≤ i) (hgreatest : i ≤ greatest)
    (hrange : Number.inRange i = true) {rest : Bytes} (hrest : Stops rest) :
    readInteger expected least greatest
      (Utf8.encode (Value.number (.int i)).write ++ rest) = .ok (i, rest) := by
  obtain ⟨b, text, hwrite, hread⟩ := readNumber_write (n := .int i) hrange hrest
  rw [Value.write, hwrite, List.cons_append]
  rcases hread with ⟨rfl, hread⟩ | ⟨hdigit, hread⟩
  · rw [readInteger, toValue_cons (by decide)]
    simp [bind, Except.bind, hread, hleast, hgreatest, pure, Except.pure]
  · have hminus : b ≠ 0x2D := ne_of_isDigit hdigit (by decide)
    rw [readInteger, toValue_cons (isBlank_of_isDigit hdigit)]
    simp [bind, Except.bind, hread, hleast, hgreatest, hminus, hdigit, pure,
      Except.pure]

/-- A written object is read as a map. -/
theorem reads_map (limits : Limits) {inner : Limits}
    (hinner : limits.inner? = some inner)
    (hembedded : ∀ s w, inner.embedded s = .ok w → ¬ w.Marked)
    {members : Members} (hwhole : ∀ m ∈ members, m.2.Whole)
    (hsorted : ∀ m ∈ members, m.2.Sorted) (hkeys : members.keys.Nodup)
    (hbound : (Utf8.encode (Value.object members).write).length ≤ inner.bound)
    (rest : Bytes) :
    Reads (readMap limits (Utf8.encode (Value.object members).write ++ rest))
      (Members.assign [] members) rest
      (∀ m ∈ members, m.2.Plain ∧ m.2.depth ≤ inner.depth) := by
  obtain ⟨hlength, hparts⟩ := length_le_membersText members true
  rw [encode_object] at hbound ⊢
  rw [List.length_cons, List.length_append] at hbound
  have hfits : (membersText true members).length ≤ inner.bound := by omega
  have hmembers := reads_members (fun v => v.Plain ∧ v.depth ≤ inner.depth)
    (fun m hm rest hrest => reads_value hembedded inner.depth (hwhole m hm)
      (hsorted m hm) (Nat.le_trans (hparts m hm) hfits) hrest)
    hkeys (Nat.le_trans hlength hfits) true [] rest
  have hread (text : Bytes) : readMap limits (0x7B :: text) =
      (readMembers (readValue inner.bound (some inner.embedded) inner.depth)
        inner.bound true []
        text >>= fun found => do return (found.1, ← closeObject found.2)) := by
    simp only [readMap, toValue_cons (show isBlank 0x7B = false from rfl), bind,
      Except.bind, hinner]
    rfl
  rw [List.cons_append, List.append_assoc, List.singleton_append, hread]
  exact hmembers.bind (f := id) (fun _ => rfl) fun _ h => h

section

variable {σ α : Type} {shape : Shape σ α} {members header : Members}

/-- A record with one map among its fields is as deep as its map. -/
theorem depth_record
    (hothers : ∀ m ∈ members, m.2 = .object header ∨ m.2.depth = 0)
    {name : String} (hname : (name, .object header) ∈ members) {n : Nat} :
    (Value.object members).depth ≤ n + 2 ↔ ∀ m ∈ header, m.2.depth ≤ n := by
  have hmap : (Value.object header).depth ≤ n + 1 ↔ ∀ m ∈ header,
      m.2.depth ≤ n :=
    depth_object
  rw [depth_object, ← hmap]
  constructor
  · exact fun h => h _ hname
  · intro h m hm
    rcases hothers m hm with heq | hscalar
    · rwa [heq]
    · exact hscalar ▸ Nat.zero_le _

/-- A written record, one of whose fields may nest: the fields before that one
are read back, and so are those behind it. -/
theorem parse_part {β : Type} {part : Value} {read : Limits → Reader β} {b : β}
    {good : Prop} {behind : Bytes}
    {onward : Limits → Nat → β × Bytes → Except Fault (Judged σ × Bytes)}
    {gathered : β → σ} {record : β → α} {name : String}
    (hname : (name, part) ∈ members)
    (hpart : ∀ bound embedded, (∀ s w, embedded s = .ok w → ¬ w.Marked) →
      (Utf8.encode part.write).length ≤ bound →
        Reads (read ⟨bound, 126, embedded⟩ (Utf8.encode part.write ++ behind)) b
          behind good)
    (hfields : ∀ limits n,
      shape.readMembers limits (n + members.length) true shape.start
        (membersText true members ++ [0x7D]) =
      (read limits (Utf8.encode part.write ++ behind) >>= onward limits n))
    (honward : ∀ limits n found,
      onward limits n (found, behind) = .ok (.ok (gathered found), [0x7D]))
    (hfinish : ∀ found,
      shape.finishObject (gathered found) = .ok (record found))
    (hrecord : ∀ found found', record found = record found' → found = found') :
    shape.parse (Value.object members).bytes = .ok (record b) ↔ good := by
  have htext : (Value.object members).bytes =
      0x7B :: (membersText true members ++ [0x7D]) :=
    encode_object members
  obtain ⟨hlength, hparts⟩ := length_le_membersText members true
  have hfits : (membersText true members).length ≤
      (Value.object members).bytes.length := by
    rw [htext, List.length_cons, List.length_append]
    omega
  obtain ⟨n, hn⟩ : ∃ n,
      (Value.object members).bytes.length = n + members.length :=
    ⟨(Value.object members).bytes.length - members.length, by omega⟩
  have hreads :=
    hpart (Value.object members).bytes.length
      (embeddedIn (Value.object members).bytes)
      (fun s w hw => (embeddedIn_proper hw).notMarked)
        (Nat.le_trans (hparts _ hname) hfits)
  have hopen (limits inner : Limits) (hinner : limits.inner? = some inner)
      (hbound : inner.bound = n + members.length) :
      shape.read limits (Value.object members).bytes =
        (read inner (Utf8.encode part.write ++ behind) >>= fun found =>
          onward inner n found >>= shape.conclude) := by
    rw [htext, Shape.read_object hinner, hbound, hfields, bind_assoc]
  refine Shape.parse_iff ?_
  rw [hopen _ _ rfl hn]
  refine hreads.bind (fun found => ?_) fun found => hrecord found _
  rw [honward]
  simp only [bind, Except.bind, Shape.conclude, hfinish]
  rfl

/-- A written record with one map among its fields. -/
theorem parse_record {behind : Bytes}
    {onward : Limits → Nat → Members × Bytes → Except Fault (Judged σ × Bytes)}
    {gathered : Members → σ} {record : Members → α}
    (hothers : ∀ m ∈ members, m.2 = .object header ∨ m.2.depth = 0)
    {name : String} (hname : (name, .object header) ∈ members)
    (hwhole : ∀ m ∈ header, m.2.Whole) (hsorted : ∀ m ∈ header, m.2.Sorted)
    (hkeys : header.keys.Nodup)
    (hfields : ∀ limits n,
      shape.readMembers limits (n + members.length) true shape.start
        (membersText true members ++ [0x7D]) =
      (readMap limits (Utf8.encode (Value.object header).write ++ behind) >>=
        onward limits n))
    (honward : ∀ limits n found,
      onward limits n (found, behind) = .ok (.ok (gathered found), [0x7D]))
    (hfinish : ∀ found,
      shape.finishObject (gathered found) = .ok (record found))
    (hrecord : ∀ found found', record found = record found' → found = found') :
    shape.parse (Value.object members).bytes =
      .ok (record (Members.assign [] header)) ↔
      (∀ m ∈ header, m.2.Plain) ∧
      (Value.object members).depth ≤ depthLimit := by
  have hpart (bound : Nat) (embedded : Embedded)
      (hembedded : ∀ s w, embedded s = .ok w → ¬ w.Marked)
      (hbound : (Utf8.encode (Value.object header).write).length ≤ bound) :
      Reads (readMap ⟨bound, 126, embedded⟩
        (Utf8.encode (Value.object header).write ++ behind))
        (Members.assign [] header) behind
          (∀ m ∈ header, m.2.Plain ∧ m.2.depth ≤ 125) :=
    reads_map ⟨bound, 126, embedded⟩ rfl hembedded hwhole hsorted hkeys
      hbound behind
  rw [parse_part hname hpart hfields honward hfinish hrecord, depthLimit,
    depth_record hothers hname]
  exact forall₂_and

end

end ChatRelay.Json
