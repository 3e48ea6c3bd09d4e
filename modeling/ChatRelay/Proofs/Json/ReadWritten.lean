import Mathlib.Logic.Basic
import ChatRelay.Proofs.Json.Findings
/-!
# Reading written values

A reader in front of a written value either fails or reads exactly this value.
It returns the value itself if and only if the nesting limit is kept and no
object has the reserved key as its first: that key would make the rest of its
object a text to be parsed.
-/

namespace ChatRelay.Json

open Skip (encode_ascii isBlank_of_isDigit ne_of_isDigit)

/-- A result of reading where `a` was written in front of `rest`: a reader that
succeeds stops at `rest`, and it returns `a` if and only if `good`. -/
structure Reads {α : Type} (result : Except Fault (α × Bytes)) (a : α)
    (rest : Bytes) (good : Prop) : Prop where
  finds : good → result = .ok (a, rest)
  only : ∀ b behind, result = .ok (b, behind) → behind = rest ∧ (b = a → good)

namespace Reads

variable {α β : Type} {result : Except Fault (α × Bytes)} {a : α} {rest : Bytes}
  {good good' : Prop}

theorem of_ok (hgood : good) (h : result = .ok (a, rest)) :
    Reads result a rest good where
  finds _ := h
  only b behind hb := by
    obtain ⟨-, rfl⟩ := Prod.mk.inj (Except.ok.inj (h.symm.trans hb))
    exact ⟨rfl, fun _ => hgood⟩

theorem of_error {fault : Fault} (hgood : ¬ good) (h : result = .error fault) :
    Reads result a rest good where
  finds hg := absurd hg hgood
  only b behind hb := by
    rw [h] at hb
    contradiction

theorem congr (h : Reads result a rest good) (hgood : good ↔ good') :
    Reads result a rest good' where
  finds hg := h.finds (hgood.mpr hg)
  only b behind hb :=
  (h.only b behind hb).imp_right fun hfound hba => hgood.mp (hfound hba)

/-- The continuation depends only on the result. -/
theorem bind (h : Reads result a rest good) {f : α → β}
    {next : α × Bytes → Except Fault (β × Bytes)} {behind : Bytes}
    (hnext : ∀ b, next (b, rest) = .ok (f b, behind))
    (hf : ∀ b, f b = f a → b = a) :
    Reads (result >>= next) (f a) behind good where
  finds hgood := by
    rw [h.finds hgood]
    exact hnext a
  only b behind' hb := by
    cases hresult : result with
    | error fault =>
        rw [hresult] at hb
        contradiction
    | ok found =>
        obtain ⟨c, rest'⟩ := found
        obtain ⟨rfl, hc⟩ := h.only c rest' hresult
        rw [hresult] at hb
        obtain ⟨rfl, rfl⟩ :=
          Prod.mk.inj (Except.ok.inj ((hnext c).symm.trans hb))
        exact ⟨rfl, fun heq => hc (hf c heq)⟩

end Reads

/-- The separator in front of an item or a member. -/
def separator (first : Bool) : Bytes := if first then [] else [0x2C]

def itemsText : (first : Bool) → List Value → Bytes
  | _, [] => []
  | first, v :: items =>
    separator first ++ (Utf8.encode v.write ++ itemsText false items)

def membersText : (first : Bool) → Members → Bytes
  | _, [] => []
  | first, (key, v) :: members =>
    separator first ++
      0x22 :: (stringTail key ++ 0x3A :: (Utf8.encode v.write ++
      membersText false members))

theorem encode_writeItems (items : List Value) :
    Utf8.encode (writeItems items) = itemsText true items := by
  induction items with
  | nil => rfl
  | cons v items ih =>
      cases items with
      | nil => simp [writeItems, itemsText, separator]
      | cons w items =>
          rw [writeItems, Utf8.encode_append, encode_ascii (by decide), ih]
          · rfl
          · simp

theorem encode_writeMember (key : String) (v : Value) :
    Utf8.encode (writeString key ++ ':' :: v.write) =
      0x22 :: (stringTail key ++ 0x3A :: Utf8.encode v.write) := by
  rw [Utf8.encode_append, encode_writeString, encode_ascii (by decide)]
  rfl

theorem encode_writeMembers (members : Members) :
    Utf8.encode (writeMembers members) = membersText true members := by
  induction members with
  | nil => rfl
  | cons m members ih =>
      obtain ⟨key, v⟩ := m
      cases members with
      | nil =>
          rw [writeMembers, encode_writeMember]
          simp [membersText, separator]
      | cons m members =>
          rw [writeMembers, Utf8.encode_append, encode_writeMember,
            encode_ascii (by decide), ih]
          · simp [membersText, separator]
          · simp

theorem encode_array (items : List Value) :
    Utf8.encode (Value.array items).write =
      0x5B :: (itemsText true items ++ [0x5D]) := by
  rw [Value.write, List.cons_append, encode_ascii (by decide),
    Utf8.encode_append, encode_writeItems]
  rfl

theorem encode_object (members : Members) :
    Utf8.encode (Value.object members).write =
      0x7B :: (membersText true members ++ [0x7D]) := by
  rw [Value.write, List.cons_append, encode_ascii (by decide),
    Utf8.encode_append, encode_writeMembers]
  rfl

/-- The start of a value. The value is a string if the bytes start with a
quote. -/
structure Starts (v : Value) (b : UInt8) : Prop where
  notBlank : isBlank b = false
  notEnd : b ≠ 0x5D
  quote : b = 0x22 → ∃ s, v = .string s

theorem encode_write_cons {v : Value} (hwhole : v.Whole) :
    ∃ b text, Utf8.encode v.write = b :: text ∧ Starts v b := by
  have hother {w : Value} {b : UInt8} (hblank : isBlank b = false)
      (hend : b ≠ 0x5D)
      (hquote : b ≠ 0x22) : Starts w b :=
    ⟨hblank, hend, fun h => absurd h hquote⟩
  cases v with
  | null =>
    exact ⟨0x6E, nullTail, rfl, hother (by decide) (by decide) (by decide)⟩
  | bool b =>
      cases b with
      | true =>
        exact ⟨0x74, trueTail, rfl, hother (by decide) (by decide) (by decide)⟩
      | false =>
        exact ⟨0x66, falseTail, rfl, hother (by decide) (by decide) (by decide)⟩
  | number n =>
      obtain ⟨b, text, hwrite, hread⟩ := readNumber_write hwhole stops_nil
      refine ⟨b, text, hwrite, ?_⟩
      rcases hread with ⟨rfl, -⟩ | ⟨hdigit, -⟩
      · exact hother (by decide) (by decide) (by decide)
      · exact hother (isBlank_of_isDigit hdigit)
          (ne_of_isDigit hdigit (by decide)) (ne_of_isDigit hdigit (by decide))
  | string s =>
    exact ⟨0x22, stringTail s, encode_writeString s, by decide, by decide,
      fun _ => ⟨s, rfl⟩⟩
  | array items =>
      exact ⟨0x5B, _, encode_array items, hother (by decide) (by decide)
        (by decide)⟩
  | object members =>
      exact ⟨0x7B, _, encode_object members, hother (by decide) (by decide)
        (by decide)⟩

theorem length_le_itemsText {items : List Value} (hwhole : ∀ v ∈ items, v.Whole)
    (first : Bool) :
    items.length ≤ (itemsText first items).length ∧
      ∀ v ∈ items,
        (Utf8.encode v.write).length ≤ (itemsText first items).length := by
  induction items generalizing first with
  | nil => simp
  | cons v items ih =>
      obtain ⟨hlength, hparts⟩ :=
        ih (fun w hw => hwhole w (List.mem_cons_of_mem _ hw)) false
      obtain ⟨b, text, htext, -⟩ :=
        encode_write_cons (hwhole v List.mem_cons_self)
      have hsplit :
          (itemsText first (v :: items)).length = (separator first).length +
          ((Utf8.encode v.write).length + (itemsText false items).length) := by
        simp [itemsText]
      have hpos : 0 < (Utf8.encode v.write).length := by simp [htext]
      constructor
      · rw [List.length_cons]
        omega
      · refine List.forall_mem_cons.mpr ⟨by omega, fun w hw => ?_⟩
        have := hparts w hw
        omega

theorem length_le_membersText (members : Members) (first : Bool) :
    members.length ≤ (membersText first members).length ∧
      ∀ m ∈ members, (Utf8.encode m.2.write).length ≤
        (membersText first members).length := by
  induction members generalizing first with
  | nil => simp
  | cons m members ih =>
      obtain ⟨hlength, hparts⟩ := ih false
      have hsplit :
          (Utf8.encode m.2.write).length + (membersText false members).length <
          (membersText first (m :: members)).length := by
        simp only [membersText, List.length_append, List.length_cons]
        omega
      constructor
      · rw [List.length_cons]
        omega
      · refine List.forall_mem_cons.mpr ⟨by omega, fun w hw => ?_⟩
        have := hparts w hw
        omega

theorem skipBlanks_cons {b : UInt8} (hb : isBlank b = false) (rest : Bytes) :
    skipBlanks (b :: rest) = b :: rest := by
  simp [skipBlanks, hb]

theorem toValue_cons {b : UInt8} (hb : isBlank b = false) (rest : Bytes) :
    toValue (b :: rest) = .ok (b, rest) := by
  rw [toValue, skipBlanks_cons hb]

/-- In front of a written item. -/
theorem nextItem_itemsText {v : Value} (hwhole : v.Whole) (first : Bool)
    (items : List Value) (rest : Bytes) :
    nextItem first (itemsText first (v :: items) ++ 0x5D :: rest) =
      .ok (some
        (Utf8.encode v.write ++ (itemsText false items ++ 0x5D :: rest))) := by
  obtain ⟨b, text, htext, hstarts⟩ := encode_write_cons hwhole
  have hskip (rest : Bytes) : skipBlanks (b :: rest) = b :: rest :=
    skipBlanks_cons hstarts.notBlank rest
  rw [itemsText, List.append_assoc, htext, List.append_assoc, List.cons_append]
  cases first with
  | true => simp [nextItem, separator, hskip, hstarts.notEnd]
  | false =>
      have hcomma (rest : Bytes) : skipBlanks (0x2C :: rest) = 0x2C :: rest :=
        skipBlanks_cons rfl rest
      simp [nextItem, separator, hcomma, hskip, hstarts.notEnd]

theorem stops_itemsText (items : List Value) (rest : Bytes) :
    Stops (itemsText false items ++ 0x5D :: rest) := by
  cases items with
  | nil => exact stops_listEnd rest
  | cons v items => exact stops_comma _

section

variable {item : Reader Value} {good : Value → Prop}

/-- Written items, behind others that were read. -/
theorem reads_items {items : List Value}
    (hitem : ∀ v ∈ items, ∀ rest, Stops rest →
      Reads (item (Utf8.encode v.write ++ rest)) v rest (good v))
    (hwhole : ∀ v ∈ items, v.Whole) {bound : Nat}
    (hbound : items.length ≤ bound) (read : List Value) (rest : Bytes) :
    Reads
      (readItems item bound read (itemsText read.isEmpty items ++ 0x5D :: rest))
      (read.reverse ++ items) (0x5D :: rest) (∀ v ∈ items, good v) := by
  induction items generalizing bound read with
  | nil =>
      refine .of_ok (by simp) ?_
      rw [List.append_nil, itemsText, List.nil_append]
      cases bound with
      | zero => rfl
      | succ bound => rfl
  | cons v items ih =>
      obtain ⟨bound, rfl⟩ : ∃ n, bound = n + 1 :=
        ⟨bound - 1, by simp only [List.length_cons] at hbound; omega⟩
      have hv := hitem v List.mem_cons_self _ (stops_itemsText items rest)
      have hrest (w : Value) :=
        ih (fun u hu => hitem u (List.mem_cons_of_mem _ hu))
          (fun u hu => hwhole u (List.mem_cons_of_mem _ hu))
            (Nat.le_of_succ_le_succ hbound)
          (w :: read)
      have hnext :=
        nextItem_itemsText (hwhole v List.mem_cons_self) read.isEmpty items rest
      constructor
      · intro hgood
        obtain ⟨hgood, hmore⟩ := List.forall_mem_cons.mp hgood
        rw [readItems, hnext]
        simp only [hv.finds hgood]
        simpa using (hrest v).finds hmore
      · intro found behind hfound
        rw [readItems, hnext] at hfound
        simp only at hfound
        split at hfound
        · contradiction
        · next w rest' hw =>
            obtain ⟨rfl, hgood⟩ := hv.only w rest' hw
            obtain ⟨rfl, hmore⟩ := (hrest w).only found behind hfound
            refine ⟨rfl, ?_⟩
            rintro rfl
            -- the item that was found first is the one that was written first
            obtain ⟨more, hsplit, -⟩ := readItems_finds hfound
            obtain ⟨rfl, -⟩ : w = v ∧ more = items := by simpa using hsplit.symm
            exact List.forall_mem_cons.mpr ⟨hgood rfl, hmore (by simp)⟩

theorem reads_list {items : List Value}
    (hitem : ∀ v ∈ items, ∀ rest, Stops rest →
      Reads (item (Utf8.encode v.write ++ rest)) v rest (good v))
    (hwhole : ∀ v ∈ items, v.Whole) {bound : Nat}
    (hbound : items.length ≤ bound) (rest : Bytes) :
    Reads (readList bound item (itemsText true items ++ 0x5D :: rest))
      (.array items) rest (∀ v ∈ items, good v) := by
  have hitems := reads_items hitem hwhole hbound [] rest
  exact hitems.bind (f := Value.array) (fun _ => rfl)
    fun _ h => Value.array.inj h

end

/-- In front of a written member. -/
theorem nextKey_membersText (first : Bool) (key : String) (v : Value)
    (members : Members) (rest : Bytes) :
    nextKey first (membersText first ((key, v) :: members) ++ 0x7D :: rest) =
      .ok (some (stringTail key ++
        0x3A :: (Utf8.encode v.write ++
          (membersText false members ++ 0x7D :: rest)))) := by
  have hkey (text : Bytes) : nextKey first (separator first ++ 0x22 :: text) =
      .ok (some text) := by
    cases first with
    | true => rfl
    | false => rfl
  rw [membersText, List.append_assoc, List.cons_append, hkey, List.append_assoc,
    List.cons_append, List.append_assoc]

theorem stops_membersText (members : Members) (rest : Bytes) :
    Stops (membersText false members ++ 0x7D :: rest) := by
  cases members with
  | nil => exact stops_objectEnd rest
  | cons m members => exact stops_comma _

section

variable {item : Reader Value} {good : Value → Prop}

theorem readMembers_cons (item : Reader Value) (bound : Nat) (first : Bool)
    (read : Members) (key : String) (v : Value) (members : Members)
    (rest : Bytes) :
    readMembers item (bound + 1) first read
        (membersText first ((key, v) :: members) ++ 0x7D :: rest) =
      match item (Utf8.encode v.write ++
        (membersText false members ++ 0x7D :: rest)) with
      | .error fault => .error fault
      | .ok (w, rest) => readMembers item bound false
        (read.insert key w) rest := by
  rw [readMembers, nextKey_membersText]
  simp only [readString_stringTail]
  rfl

/-- The values of other keys are kept. -/
theorem readMembers_others {members : Members}
    (hitem : ∀ m ∈ members, ∀ rest, Stops rest →
      Reads (item (Utf8.encode m.2.write ++ rest)) m.2 rest (good m.2))
    {bound : Nat} {first : Bool} {read found : Members} {rest behind : Bytes}
    (h : readMembers item bound first read (membersText first members ++
      0x7D :: rest) =
      .ok (found, behind)) {key : String} (hkey : key ∉ members.keys) :
    found.get? key = read.get? key := by
  induction members generalizing bound first read with
  | nil =>
      cases bound with
      | zero =>
          obtain ⟨rfl, -⟩ := Prod.mk.inj (Except.ok.inj h)
          rfl
      | succ bound =>
          obtain ⟨rfl, -⟩ := Prod.mk.inj (Except.ok.inj h)
          rfl
  | cons m members ih =>
      obtain ⟨k, v⟩ := m
      cases bound with
      | zero =>
          obtain ⟨rfl, -⟩ := Prod.mk.inj (Except.ok.inj h)
          rfl
      | succ bound =>
          rw [readMembers_cons] at h
          split at h
          · contradiction
          · next w rest' hw =>
              have hv :=
                hitem (k, v) List.mem_cons_self _
                  (stops_membersText members rest)
              obtain ⟨rfl, -⟩ := hv.only w rest' hw
              simp only [Members.keys, List.map_cons, List.mem_cons, not_or]
                at hkey
              rw [ih (fun m hm => hitem m (List.mem_cons_of_mem _ hm)) h hkey.2,
                Members.get?_insert, if_neg (Ne.symm hkey.1)]

/-- Written members with keys of their own, behind others that were read. -/
theorem reads_members (good : Value → Prop) {members : Members}
    (hitem : ∀ m ∈ members, ∀ rest, Stops rest →
      Reads (item (Utf8.encode m.2.write ++ rest)) m.2 rest (good m.2))
    (hkeys : members.keys.Nodup) {bound : Nat} (hbound : members.length ≤ bound)
    (first : Bool) (read : Members) (rest : Bytes) :
    Reads (readMembers item bound first read
      (membersText first members ++ 0x7D :: rest))
      (read.assign members) (0x7D :: rest) (∀ m ∈ members, good m.2) := by
  induction members generalizing bound first read with
  | nil =>
      refine .of_ok (by simp) ?_
      cases bound with
      | zero => rfl
      | succ bound => rfl
  | cons m members ih =>
      obtain ⟨key, v⟩ := m
      obtain ⟨bound, rfl⟩ : ∃ n, bound = n + 1 :=
        ⟨bound - 1, by simp only [List.length_cons] at hbound; omega⟩
      obtain ⟨hkey, hkeys⟩ := List.nodup_cons.mp hkeys
      have hv :=
        hitem (key, v) List.mem_cons_self _ (stops_membersText members rest)
      have hmembers := fun m hm => hitem m (List.mem_cons_of_mem (key, v) hm)
      have hrest (w : Value) :=
        ih hmembers hkeys (Nat.le_of_succ_le_succ hbound) false
          (read.insert key w)
      rw [readMembers_cons]
      constructor
      · intro hgood
        obtain ⟨hgood, hmore⟩ := List.forall_mem_cons.mp hgood
        rw [hv.finds hgood]
        exact (hrest v).finds hmore
      · intro found behind hfound
        split at hfound
        · contradiction
        · next w rest' hw =>
            obtain ⟨rfl, hgood⟩ := hv.only w rest' hw
            obtain ⟨rfl, hmore⟩ := (hrest w).only found behind hfound
            refine ⟨rfl, ?_⟩
            rintro rfl
            -- the key keeps the value that was found for it
            have hget : (Members.assign read ((key, v) :: members)).get? key =
                (read.insert key w).get? key :=
              readMembers_others hmembers hfound hkey
            have hassign :
                (Members.assign read ((key, v) :: members)).get? key =
                (read.insert key v).get? key := Members.get?_assign hkey
            obtain rfl : w = v := by
              simpa [Members.get?_insert] using hget.symm.trans hassign
            exact List.forall_mem_cons.mpr ⟨hgood rfl, hmore rfl⟩

end

/-- Behind the opening bracket of a written object whose first key is not the
reserved one. -/
theorem readObject_of_ne {members : Members}
    (hfirst : members.head?.map Prod.fst ≠ some reservedKey) (bound : Nat)
    (embedded : Option Embedded) (item : Reader Value) (rest : Bytes) :
    readObject bound embedded item (membersText true members ++ 0x7D :: rest) =
      (readMembers item (bound + 1) true []
        (membersText true members ++ 0x7D :: rest) >>=
        fun (members, rest) =>
          do return (.object members, ← closeObject rest)) := by
  cases members with
  | nil => rfl
  | cons m members =>
      obtain ⟨key, v⟩ := m
      have hne : decide (key = reservedKey) = false := by simpa using hfirst
      rw [readMembers_cons, readObject, nextKey_membersText]
      have hvalue (text : Bytes) :
          readMemberValue item (0x3A :: text) = item text :=
        rfl
      simp only [bind, Except.bind, readString_stringTail, hne, hvalue]
      cases item (Utf8.encode v.write ++
          (membersText false members ++ 0x7D :: rest)) with
      | error fault => rfl
      | ok found => rfl

/-- Behind the opening bracket of a written object whose first key is the
reserved one: reading fails unless its only member is a string, and then returns
the value of that text. -/
theorem readObject_of_reserved {embedded : Embedded} {item : Reader Value}
    {bound : Nat} {v w : Value} {members : Members} {rest behind : Bytes}
    (hwhole : v.Whole) (h : readObject bound (some embedded) item
      (membersText true ((reservedKey, v) :: members) ++ 0x7D :: rest) =
        .ok (w, behind)) :
    members = [] ∧ behind = rest ∧ ∃ s, embedded s = .ok w := by
  obtain ⟨b, text, htext, hstarts⟩ := encode_write_cons hwhole
  rw [readObject, nextKey_membersText] at h
  simp only [bind, Except.bind, readString_stringTail, decide_true] at h
  have hcolon (text : Bytes) : readColon (0x3A :: text) = .ok text := rfl
  rw [readEmbedded, hcolon, htext] at h
  simp only [bind, Except.bind, readOnlyString, List.cons_append,
    toValue_cons hstarts.notBlank] at h
  by_cases hquote : b = 0x22
  · obtain ⟨s, rfl⟩ := hstarts.quote hquote
    rw [Value.write, encode_writeString] at htext
    obtain ⟨-, rfl⟩ := List.cons.inj htext
    simp only [hquote, ↓reduceIte, readString_stringTail] at h
    cases hs : embedded s with
    | error e =>
        rw [hs] at h
        contradiction
    | ok u =>
        rw [hs] at h
        cases members with
        | nil =>
            obtain ⟨rfl, rfl⟩ := Prod.mk.inj (Except.ok.inj h)
            exact ⟨rfl, rfl, s, hs⟩
        | cons m members => contradiction
  · simp only [hquote, ↓reduceIte] at h
    contradiction

theorem readWith_string (bound : Nat) (embedded : Option Embedded)
    (item : Option (Reader Value)) (s : String) (rest : Bytes) :
    readWith bound embedded item (Utf8.encode (writeString s) ++ rest) =
      .ok (.string s, rest) := by
  rw [encode_writeString, List.cons_append, readWith, toValue_cons rfl]
  simp [bind, Except.bind, isDigit, readString_stringTail, pure, Except.pure]

theorem readWith_number (bound : Nat) (embedded : Option Embedded)
    (item : Option (Reader Value)) {n : Number} (hwhole : n.isWhole = true)
    {rest : Bytes} (hrest : Stops rest) :
    readWith bound embedded item (Utf8.encode n.write ++ rest) =
      .ok (.number n, rest) := by
  obtain ⟨b, text, hwrite, hread⟩ := readNumber_write hwhole hrest
  rw [hwrite, List.cons_append]
  rcases hread with ⟨rfl, hread⟩ | ⟨hdigit, hread⟩
  · have hminus : readWith bound embedded item (0x2D :: (text ++ rest)) =
        (readNumber true (text ++ rest) >>=
          fun found => .ok (.number found.1, found.2)) :=
      rfl
    rw [hminus, hread]
    rfl
  · have hne (c : UInt8) (hc : isDigit c = false) : b ≠ c :=
      ne_of_isDigit hdigit hc
    rw [readWith, toValue_cons (isBlank_of_isDigit hdigit)]
    simp only [bind, Except.bind, hne 0x6E (by decide), hne 0x74 (by decide),
      hne 0x66 (by decide), hne 0x2D (by decide), hdigit, ↓reduceIte, hread]
    rfl

theorem readValue_list (bound : Nat) (embedded : Option Embedded) (depth : Nat)
    (text : Bytes) :
    readValue bound embedded (depth + 1) (0x5B :: text) =
      readList bound (readValue bound embedded depth) text := rfl

theorem readValue_object (bound : Nat) (embedded : Option Embedded)
    (depth : Nat) (text : Bytes) :
    readValue bound embedded (depth + 1) (0x7B :: text) =
      readObject bound embedded (readValue bound embedded depth) text := rfl

/-- A value without brackets is read for any number of brackets that may still
be opened. -/
theorem readWith_scalar (bound : Nat) (embedded : Option Embedded)
    (item : Option (Reader Value)) {v : Value} (hscalar : v.depth = 0)
    (hwhole : v.Whole) {rest : Bytes} (hrest : Stops rest) :
    readWith bound embedded item (Utf8.encode v.write ++ rest) =
      .ok (v, rest) := by
  cases v with
  | null =>
      have htext : Utf8.encode Value.null.write = 0x6E :: nullTail := rfl
      rw [htext]
      rfl
  | bool b =>
      cases b with
      | true =>
          have htext : Utf8.encode (Value.bool true).write = 0x74 :: trueTail :=
            rfl
          rw [htext]
          rfl
      | false =>
          have htext :
              Utf8.encode (Value.bool false).write = 0x66 :: falseTail :=
            rfl
          rw [htext]
          rfl
  | number n =>
      rw [Value.write]
      exact readWith_number bound embedded item hwhole hrest
  | string s =>
      rw [Value.write]
      exact readWith_string bound embedded item s rest
  | array items => contradiction
  | object members => contradiction

theorem plain_of_scalar {v : Value} (hscalar : v.depth = 0) : v.Plain := by
  cases v with
  | array items => contradiction
  | object members => contradiction
  | _ => exact trivial

theorem reads_object (good : Value → Prop) {embedded : Embedded}
    (hembedded : ∀ s w, embedded s = .ok w → ¬ w.Marked) {item : Reader Value}
    {members : Members} (hitem : ∀ m ∈ members, ∀ rest, Stops rest →
      Reads (item (Utf8.encode m.2.write ++ rest)) m.2 rest (good m.2))
    (hwhole : ∀ m ∈ members, m.2.Whole) (hordered : members.Ordered)
    {bound : Nat} (hbound : members.length ≤ bound) (rest : Bytes) :
    Reads (readObject bound (some embedded) item
      (membersText true members ++ 0x7D :: rest)) (.object members) rest
      (members.head?.map Prod.fst ≠ some reservedKey ∧ ∀ m ∈ members,
        good m.2) := by
  by_cases hfirst : members.head?.map Prod.fst = some reservedKey
  · cases members with
    | nil => contradiction
    | cons m members =>
        obtain ⟨key, v⟩ := m
        obtain rfl : key = reservedKey := Option.some.inj hfirst
        refine ⟨fun hgood => absurd hfirst hgood.1, fun w behind hw => ?_⟩
        obtain ⟨rfl, rfl, s, hs⟩ :=
          readObject_of_reserved (hwhole _ List.mem_cons_self) hw
        refine ⟨rfl, ?_⟩
        rintro rfl
        exact absurd ⟨v, rfl⟩ (hembedded s _ hs)
  · have hmembers :=
      reads_members good hitem hordered.nodup (Nat.le_succ_of_le hbound)
        true [] rest
    have hassign : Members.assign [] members = members :=
      Members.Ordered.assign_eq hordered
    rw [hassign] at hmembers
    rw [readObject_of_ne hfirst]
    refine (hmembers.bind (f := Value.object) (fun _ => rfl)
      fun _ h => Value.object.inj h).congr ?_
    exact (and_iff_right hfirst).symm

/-- A written value, by induction on the number of brackets that may still be
opened: the items and members of a value are read with one less. -/
theorem reads_value {embedded : Embedded}
    (hembedded : ∀ s w, embedded s = .ok w → ¬ w.Marked) {bound : Nat}
    (depth : Nat) {v : Value} (hwhole : v.Whole) (hsorted : v.Sorted)
    (hbound : (Utf8.encode v.write).length ≤ bound) {rest : Bytes}
    (hrest : Stops rest) :
    Reads (readValue bound (some embedded) depth (Utf8.encode v.write ++ rest))
      v rest (v.Plain ∧ v.depth ≤ depth) := by
  induction depth generalizing v rest with
  | zero =>
      by_cases hscalar : v.depth = 0
      · exact .of_ok ⟨plain_of_scalar hscalar, Nat.le_of_eq hscalar⟩
          (readWith_scalar _ _ _ hscalar hwhole hrest)
      · have hdeep : ¬ (v.Plain ∧ v.depth ≤ 0) :=
          fun h => hscalar (Nat.le_zero.mp h.2)
        cases v with
        | array items =>
            rw [encode_array]
            exact .of_error hdeep rfl
        | object members =>
            rw [encode_object]
            exact .of_error hdeep rfl
        | _ => exact absurd rfl hscalar
  | succ depth ih =>
      by_cases hscalar : v.depth = 0
      · exact .of_ok
          ⟨plain_of_scalar hscalar, Nat.le_of_lt (hscalar ▸ depth.succ_pos)⟩
          (readWith_scalar _ _ _ hscalar hwhole hrest)
      cases v with
      | array items =>
          have hwhole' := all_array.mp hwhole
          have hsorted' := all_array.mp hsorted
          obtain ⟨hlength, hparts⟩ := length_le_itemsText hwhole' true
          rw [encode_array] at hbound ⊢
          rw [List.length_cons, List.length_append] at hbound
          have hfits : (itemsText true items).length ≤ bound := by omega
          have hlist :=
            reads_list (fun v hv rest hrest => ih (hwhole' v hv) (hsorted' v hv)
              (Nat.le_trans (hparts v hv) hfits) hrest) hwhole'
                (Nat.le_trans hlength hfits) rest
          rw [List.cons_append, List.append_assoc, List.singleton_append,
            readValue_list]
          refine hlist.congr ?_
          rw [depth_array, Value.Plain, all_array]
          exact forall₂_and
      | object members =>
          have hwhole' := (all_object.mp hwhole).2
          obtain ⟨hordered, hsorted'⟩ := all_object.mp hsorted
          obtain ⟨hlength, hparts⟩ := length_le_membersText members true
          rw [encode_object] at hbound ⊢
          rw [List.length_cons, List.length_append] at hbound
          have hfits : (membersText true members).length ≤ bound := by omega
          have hobject :=
            reads_object (fun v => v.Plain ∧ v.depth ≤ depth) hembedded
              (fun m hm rest hrest => ih (hwhole' m hm) (hsorted' m hm)
                (Nat.le_trans (hparts m hm) hfits) hrest)
              hwhole' hordered (Nat.le_trans hlength hfits) rest
          rw [List.cons_append, List.append_assoc, List.singleton_append,
            readValue_object]
          refine hobject.congr ?_
          rw [depth_object, Value.Plain, all_object, and_assoc]
          exact and_congr_right' forall₂_and
      | _ => exact absurd rfl hscalar

end ChatRelay.Json
