import ChatRelay.Proofs.Json.Records
import ChatRelay.Wire.Response
/-!
# Round trips of responses

The length header of a written response is that of its body, is the last one and
replaces any other. The response is read with this header among the others if
and only if the nesting limit is kept and no object in them has the reserved key
as its first, and then it is written the same again.
-/

namespace ChatRelay.Response

open Json (Members Reads Value Limits membersText readMap)
open Json.Shape (readMembers_end readMembers_field readMembers_known)

def lengthValue (r : Response) : Value :=
  .number (.int (Utf8.ofString r.body).length)

/-- The response with its length among its headers, as it is read. -/
def measured (r : Response) : Response :=
  { r with header := r.header.insert lengthKey r.lengthValue, upgrade := none }

/-- The fields of a response on the wire. -/
def members (r : Response) : Members :=
  [("status", .string r.status), ("status_code", .number (.int r.code)),
    ("header", .object r.wireHeader), ("body", .string r.body)]

theorem wireHeader_eq (r : Response) :
    r.wireHeader =
      r.header.erase lengthKey ++ [(lengthKey, r.lengthValue)] := by
  rw [wireHeader, lengthValue, contentLength, Utf8.length_ofString]

theorem not_mem_erase (key : String) (header : Members) :
    key ∉ (header.erase key).keys := by
  simp [Members.keys, Members.erase]

/-- A response that was read is written as it was. -/
theorem bytes_measured (r : Response) : r.measured.bytes = r.bytes := by
  have hheader : r.measured.wireHeader = r.wireHeader := by
    rw [wireHeader_eq, wireHeader_eq, measured, Members.erase_insert]
    rfl
  rw [bytes, bytes, toValue, toValue, hheader]
  rfl

theorem assign_wireHeader (r : Response) (hordered : r.header.Ordered) :
    Members.assign [] r.wireHeader =
      r.header.insert lengthKey r.lengthValue := by
  have hothers :
      Members.assign [] (r.header.erase lengthKey) = r.header.erase lengthKey :=
    Members.Ordered.assign_eq (hordered.erase lengthKey)
  rw [wireHeader_eq, ← hordered.insert_erase, Members.assign, List.foldl_append]
  exact congrArg (Members.insert lengthKey r.lengthValue) hothers

theorem nodup_wireHeader (r : Response) (hordered : r.header.Ordered) :
    r.wireHeader.keys.Nodup := by
  have hothers := (hordered.erase lengthKey).nodup
  rw [wireHeader_eq, Members.keys, List.map_append]
  refine List.nodup_append.mpr ⟨hothers, by simp, fun key hkey key' hkey' => ?_⟩
  rw [List.mem_singleton.mp hkey']
  rintro rfl
  exact not_mem_erase _ _ hkey

theorem readMembers_bytes (r : Response) (hcode : r.code ≤ 65535)
    (limits : Limits) (n : Nat) (rest : Bytes) :
    shape.readMembers limits (n + 4) true {}
      (membersText true r.members ++ 0x7D :: rest) =
      (readMap limits (Utf8.encode (Value.object r.wireHeader).write ++
          (membersText false [("body", .string r.body)] ++ 0x7D :: rest)) >>=
            fun (header, rest) =>
        shape.readMembers limits (n + 1) false
          ⟨r.status, some r.code, some header, none⟩ rest) := by
  have hstatus (more : Members) : shape.readMembers limits (n + 4) true {}
        (membersText true (("status", .string r.status) :: more) ++
          0x7D :: rest) =
      shape.readMembers limits (n + 3) false ⟨r.status, none, none, none⟩
        (membersText false more ++ 0x7D :: rest) :=
    (readMembers_known rfl rfl (Json.readText_write _ _)).trans rfl
  have hrange : Json.Number.inRange r.code = true := by
    have hlimits : Text.minLong = -9223372036854775808 ∧
        Text.maxNatural = 18446744073709551615 :=
      ⟨rfl, rfl⟩
    simp only [Json.Number.inRange, decide_eq_true_eq]
    omega
  have hcode (more : Members) :
      shape.readMembers limits (n + 3) false ⟨r.status, none, none, none⟩
        (membersText false (("status_code", .number (.int r.code)) :: more) ++
          0x7D :: rest) =
      shape.readMembers limits (n + 2) false ⟨r.status, some r.code, none, none⟩
        (membersText false more ++ 0x7D :: rest) :=
    (readMembers_known
      rfl rfl (Json.readInteger_write "u16" (by omega) (by omega) hrange
      (Json.stops_membersText more rest))).trans rfl
  rw [members, hstatus, hcode, readMembers_field rfl rfl]

/-- The body follows the header and ends the response. -/
theorem readBody (r : Response) (limits : Limits) (n : Nat) (header : Members) :
    shape.readMembers limits (n + 1) false
        ⟨r.status, some r.code, some header, none⟩
        (membersText false [("body", .string r.body)] ++ [0x7D]) =
      .ok (.ok ⟨r.status, some r.code, some header, r.body⟩, [0x7D]) :=
  (readMembers_known rfl rfl (Json.readText_write _ _)).trans
    (readMembers_end ..)

theorem forall_wireHeader {r : Response} {holds : Value → Prop}
    (hlength : holds r.lengthValue) :
    (∀ m ∈ r.wireHeader, holds m.2) ↔ ∀ m ∈ r.header.erase lengthKey,
      holds m.2 := by
  simp [wireHeader_eq, or_imp, forall_and, hlength]

/-- The result is the response with its length, since the headers are sorted
again. -/
theorem decode_bytes (r : Response) (hcode : r.code ≤ 65535)
    (hlength : Json.Number.inRange (Utf8.ofString r.body).length = true)
    (hsorted : (Value.object r.header).Sorted)
    (hwhole : ∀ m ∈ r.header.erase lengthKey, m.2.Whole) :
    decode r.bytes = .ok r.measured ↔
      (∀ m ∈ r.header.erase lengthKey, m.2.Plain) ∧
      r.toValue.depth ≤ Json.depthLimit := by
  obtain ⟨hordered, hsorted⟩ := Json.all_object.mp hsorted
  have hothers : ∀ m ∈ r.members, m.2 = .object r.wireHeader ∨
      m.2.depth = 0 := by
    simp [members, Value.depth]
  have hname : ("header", Value.object r.wireHeader) ∈ r.members := by
    simp [members]
  have hwhole' : ∀ m ∈ r.wireHeader, m.2.Whole :=
    (forall_wireHeader hlength).mpr hwhole
  have hsorted' : ∀ m ∈ r.wireHeader, m.2.Sorted :=
    (forall_wireHeader trivial).mpr
      fun m hm => hsorted m (List.mem_filter.mp hm).1
  have hparse :=
    Json.parse_record hothers hname hwhole' hsorted'
      (nodup_wireHeader r hordered)
      (fun limits n => readMembers_bytes r hcode limits n [])
      (fun limits n header => readBody r limits n header)
      (fun header => rfl) fun _ _ h => congrArg Response.header h
  rw [assign_wireHeader r hordered, forall_wireHeader trivial] at hparse
  exact hparse

/-- A written response has one length header, behind its others, with the number
of bytes of its body. It is read with that header in place of its own if and
only if no object in the others has the reserved key as its first and the
nesting limit is kept, and the result is written the same again. The code has 16
bits, the length 64, the keys ascend and the numbers in the other headers are
integers. -/
theorem returns_with_length (r : Response) :
    lengthKey ∉ (r.header.erase lengthKey).keys ∧
    r.bytes = (Value.object
      [("status", .string r.status), ("status_code", .number (.int r.code)),
        ("header", .object (r.header.erase lengthKey ++
        [(lengthKey, .number (.int (Utf8.ofString r.body).length))])),
      ("body", .string r.body)]).bytes ∧
    (r.code ≤ 65535 → Json.Number.inRange (Utf8.ofString r.body).length = true →
      (Value.object r.header).Sorted →
        (∀ m ∈ r.header.erase lengthKey, m.2.Whole) →
        (decode r.bytes = .ok r.measured ↔
          (∀ m ∈ r.header.erase lengthKey, m.2.Plain) ∧
          r.toValue.depth ≤ Json.depthLimit)) ∧
    r.measured.bytes = r.bytes := by
  refine ⟨not_mem_erase lengthKey r.header, ?_, decode_bytes r,
    bytes_measured r⟩
  rw [bytes, toValue, wireHeader_eq]
  rfl

/-- A response with a length header of its own that is no number, and a body of
characters of several bytes. -/
def sample : Response where
  code := 401
  status := "é\n"
  header :=
    [(lengthKey, .string "?"),
      ("a", .array [.null, .number (.int (-5)), .object []])]
  body := "é\"\x01"
  upgrade := some .echo

theorem sample_returns_with_length :
    sample.code ≤ 65535 ∧
      Json.Number.inRange (Utf8.ofString sample.body).length = true ∧
      (Value.object sample.header).Sorted ∧
      (∀ m ∈ sample.header.erase lengthKey, m.2.Whole) ∧
      decode sample.bytes = .ok sample.measured := by
  have hlength :
      Json.Number.inRange (Utf8.ofString sample.body).length = true := by
    decide +kernel
  have hsorted : (Value.object sample.header).Sorted := by decide +kernel
  have hwhole : ∀ m ∈ sample.header.erase lengthKey, m.2.Whole := by
    decide +kernel
  have hplain : ∀ m ∈ sample.header.erase lengthKey, m.2.Plain := by
    decide +kernel
  have hdepth : sample.toValue.depth ≤ Json.depthLimit := by decide +kernel
  exact ⟨by decide, hlength, hsorted, hwhole,
    ((returns_with_length sample).2.2.1 (by decide) hlength hsorted hwhole).mpr
      ⟨hplain, hdepth⟩⟩

/-- A response whose header holds an object with the reserved key. -/
def marked : Response where
  status := "fine"
  header := [("k", .object [(Json.reservedKey, .number (.int 1))])]

theorem marked_is_unreadable :
    (Value.object marked.header).Sorted ∧ (Value.object marked.header).Whole ∧
      marked.toValue.depth ≤ Json.depthLimit ∧
      (decode marked.bytes).isOk = false := by
  refine ⟨?_, ?_, ?_, ?_⟩
  · decide +kernel
  · decide +kernel
  · decide +kernel
  · decide +kernel

end ChatRelay.Response
