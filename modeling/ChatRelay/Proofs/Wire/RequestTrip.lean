import ChatRelay.Proofs.Json.Records
import ChatRelay.Wire.Request
/-!
# Round trips of requests

A written request is read as the same request, for all texts and all integers in
its headers, if and only if the nesting limit is kept and no object in its
headers has the reserved key as its first.
-/

namespace ChatRelay.Request

open Json (Members Reads Value Limits membersText readMap)
open Json.Shape (keeps_of readMembers_end readMembers_field readMembers_known)

/-- The fields of a request on the wire. -/
def members (r : Request) : Members :=
  [("method", .string r.method), ("url", .string r.url),
    ("proto", .string r.proto.name), ("header", .object r.header),
      ("body", .string r.body)]

theorem ofName_name (p : Proto) : Proto.ofName p.name = p := by
  cases p <;> decide

/-- The header is read as a map. -/
theorem readHeader_write (limits : Limits) (header : Members) (rest : Bytes) :
    Json.readOptional (readMap limits)
      (Utf8.encode (Value.object header).write ++ rest) =
      (readMap limits (Utf8.encode (Value.object header).write ++ rest) >>=
        fun (found, rest) =>
        .ok (some found, rest)) := by
  rw [Json.encode_object, List.cons_append]
  exact Json.readOptional_cons _ (by decide) (by decide) _

/-- All fields but the header are read back. -/
theorem readMembers_bytes (r : Request) (limits : Limits) (n : Nat)
    (rest : Bytes) :
    shape.readMembers limits (n + 5) true {}
      (membersText true r.members ++ 0x7D :: rest) =
      (readMap limits (Utf8.encode (Value.object r.header).write ++
          (membersText false [("body", .string r.body)] ++ 0x7D :: rest)) >>=
            fun (header, rest) =>
        shape.readMembers limits (n + 1) false
          ⟨r.method, r.url, some r.proto.name, some header, none⟩ rest) := by
  have hmethod (more : Members) : shape.readMembers limits (n + 5) true {}
        (membersText true (("method", .string r.method) :: more) ++
          0x7D :: rest) =
      shape.readMembers limits (n + 4) false ⟨r.method, none, none, none, none⟩
        (membersText false more ++ 0x7D :: rest) :=
    (readMembers_known rfl rfl (Json.readText_write _ _)).trans rfl
  have hurl (more : Members) :
      shape.readMembers limits (n + 4) false ⟨r.method, none, none, none, none⟩
        (membersText false (("url", .string r.url) :: more) ++ 0x7D :: rest) =
      shape.readMembers limits (n + 3) false ⟨r.method, r.url, none, none, none⟩
        (membersText false more ++ 0x7D :: rest) :=
    (readMembers_known rfl rfl (Json.readText_write _ _)).trans rfl
  have hproto (more : Members) :
      shape.readMembers limits (n + 3) false ⟨r.method, r.url, none, none, none⟩
        (membersText false (("proto", .string r.proto.name) :: more) ++
          0x7D :: rest) =
      shape.readMembers limits (n + 2) false
        ⟨r.method, r.url, some r.proto.name, none, none⟩
        (membersText false more ++ 0x7D :: rest) :=
    (readMembers_known rfl rfl (Json.readOptional_text _ _)).trans rfl
  rw [members, hmethod, hurl, hproto, readMembers_field rfl rfl,
    readHeader_write]
  cases readMap limits (Utf8.encode (Value.object r.header).write ++
    (membersText false [("body", .string r.body)] ++ 0x7D :: rest)) with
  | error fault => rfl
  | ok found => rfl

/-- The body follows the header and ends the request. -/
theorem readBody (r : Request) (limits : Limits) (n : Nat) (header : Members) :
    shape.readMembers limits (n + 1) false
        ⟨r.method, r.url, some r.proto.name, some header, none⟩
        (membersText false [("body", .string r.body)] ++ [0x7D]) =
      .ok (.ok ⟨r.method, r.url, some r.proto.name, some header, some r.body⟩,
        [0x7D]) :=
  (readMembers_known rfl rfl (Json.readOptional_text _ _)).trans
    (readMembers_end ..)

theorem finish_bytes (r : Request) (header : Members) :
    shape.finishObject
      ⟨r.method, r.url, some r.proto.name, some header, some r.body⟩ =
      .ok { r with header } := by
  have hfinish :
      shape.finishObject
        ⟨r.method, r.url, some r.proto.name, some header, some r.body⟩ =
        .ok { r with header, proto := .ofName r.proto.name } := rfl
  rw [hfinish, ofName_name]

theorem parse_bytes (r : Request) (hsorted : (Value.object r.header).Sorted)
    (hwhole : (Value.object r.header).Whole) :
    shape.parse r.bytes = .ok r ↔
      (∀ m ∈ r.header, m.2.Plain) ∧ r.toValue.depth ≤ Json.depthLimit := by
  obtain ⟨hordered, hsorted⟩ := Json.all_object.mp hsorted
  obtain ⟨-, hwhole⟩ := Json.all_object.mp hwhole
  have hothers : ∀ m ∈ r.members, m.2 = .object r.header ∨ m.2.depth = 0 := by
    simp [members, Value.depth]
  have hname : ("header", Value.object r.header) ∈ r.members := by
    simp [members]
  have hparse := Json.parse_record hothers hname hwhole hsorted hordered.nodup
    (fun limits n => readMembers_bytes r limits n [])
    (fun limits n header => readBody r limits n header)
    (finish_bytes r) fun _ _ h => congrArg Request.header h
  rwa [show Members.assign [] r.header = r.header
    from Members.Ordered.assign_eq hordered] at hparse

theorem decode_bytes (r : Request) (hmethod : r.method ≠ "")
    (hsorted : (Value.object r.header).Sorted)
    (hwhole : (Value.object r.header).Whole) :
    decode r.bytes = .ok r ↔
      (∀ m ∈ r.header, m.2.Plain) ∧ r.toValue.depth ≤ Json.depthLimit := by
  rw [← parse_bytes r hsorted hwhole, decode]
  constructor
  · intro h
    split at h
    · exact nomatch h
    · next r' hr' =>
        rw [hr']
        split at h
        · exact nomatch h
        · exact congrArg _ (Except.ok.inj h)
  · intro h
    rw [h]
    exact if_neg hmethod

/-- The header that was read, if any, is in the order of its keys. -/
def HeaderSorted (s : Fields) : Prop :=
  ∀ header, s.header = some (some header) → (Value.object header).Sorted

theorem fields_keep (limits : Limits)
    (hembedded : ∀ s v, limits.embedded s = .ok v → v.Proper) :
    ∀ field ∈ shape.fields, Json.Shape.Keeps HeaderSorted limits field := by
  simp only [shape, List.forall_mem_cons, List.not_mem_nil, false_implies,
    implies_true, and_true]
  refine ⟨keeps_of ?_, keeps_of ?_, keeps_of ?_, keeps_of ?_, keeps_of ?_⟩
  · exact fun _ _ _ _ s hs => hs
  · exact fun _ _ _ _ s hs => hs
  · exact fun _ _ _ _ s hs => hs
  · intro text found rest hread s hs header hheader
    obtain rfl : found = some header := Option.some.inj hheader
    obtain ⟨text', hmap⟩ := Json.readOptional_some hread
    exact Json.readMap_sorted hembedded hmap
  · exact fun _ _ _ _ s hs => hs

theorem decoded {frame : Bytes} {r : Request} (h : decode frame = .ok r) :
    r.method ≠ "" ∧ (Value.object r.header).Sorted := by
  unfold decode at h
  split at h
  · contradiction
  · next r' hparse =>
      split at h
      · contradiction
      · next hmethod =>
          obtain rfl := Except.ok.inj h
          refine ⟨hmethod, ?_⟩
          obtain ⟨s, hs, hfinish⟩ := Json.Shape.parse_keeps fields_keep
            (fun _ hheader => nomatch hheader) hparse
          obtain ⟨_, _, hfinish⟩ := Json.ok_of_bind hfinish
          obtain ⟨_, _, hfinish⟩ := Json.ok_of_bind hfinish
          obtain rfl := Except.ok.inj hfinish
          rcases hheader : s.header with _ | _ | header
          · exact Value.sorted_nil
          · exact Value.sorted_nil
          · exact hs header hheader

/-- A written request is read as the same request if and only if no object in
its headers has the reserved key as its first and the nesting limit is kept.
This holds of every request with a method whose keys ascend, and of every
request that was read from a frame, where the numbers are integers. -/
theorem comes_back_iff (r : Request)
    (hr : (r.method ≠ "" ∧ (Value.object r.header).Sorted) ∨ ∃ frame,
      decode frame = .ok r)
    (hwhole : (Value.object r.header).Whole) :
    decode r.bytes = .ok r ↔
      (∀ m ∈ r.header, m.2.Plain) ∧ r.toValue.depth ≤ Json.depthLimit := by
  rcases hr with ⟨hmethod, hsorted⟩ | ⟨frame, hdecode⟩
  · exact decode_bytes r hmethod hsorted hwhole
  · obtain ⟨hmethod, hsorted⟩ := decoded hdecode
    exact decode_bytes r hmethod hsorted hwhole

/-- A request with headers of every kind, and texts that have to be escaped. -/
def sample : Request where
  method := "GET"
  url := "/é?\"\n"
  proto := .streaming
  header :=
    [("a", .array [.null, .bool true, .number (.int (-5)), .object []]),
      ("b", .string "\\")]
  body := "\x01"

theorem sample_comes_back :
    sample.method ≠ "" ∧ (Value.object sample.header).Sorted ∧
      (Value.object sample.header).Whole ∧ decode sample.bytes = .ok sample ∧
      (decode sample.bytes = .ok sample ↔
        (∀ m ∈ sample.header, m.2.Plain) ∧
        sample.toValue.depth ≤ Json.depthLimit) := by
  have hmethod : sample.method ≠ "" := by decide
  have hsorted : (Value.object sample.header).Sorted := by decide +kernel
  have hwhole : (Value.object sample.header).Whole := by decide +kernel
  have hplain : ∀ m ∈ sample.header, m.2.Plain := by decide +kernel
  have hdepth : sample.toValue.depth ≤ Json.depthLimit := by decide +kernel
  have hdecode : decode sample.bytes = .ok sample :=
    (comes_back_iff sample (.inl ⟨hmethod, hsorted⟩) hwhole).mpr
      ⟨hplain, hdepth⟩
  refine ⟨hmethod, hsorted, hwhole, hdecode, ?_⟩
  exact comes_back_iff sample (.inr ⟨sample.bytes, hdecode⟩) hwhole

/-- A request whose header holds an object with the reserved key. -/
def marked : Request where
  method := "GET"
  url := "/"
  header := [("k", .object [(Json.reservedKey, .number (.int 1))])]

theorem marked_is_refused :
    marked.method ≠ "" ∧ (Value.object marked.header).Sorted ∧
      (Value.object marked.header).Whole ∧
      marked.toValue.depth ≤ Json.depthLimit ∧
      (decode marked.bytes).isOk = false := by
  refine ⟨by decide, ?_, ?_, ?_, ?_⟩
  · decide +kernel
  · decide +kernel
  · decide +kernel
  · decide +kernel

end ChatRelay.Request
