import Mathlib.Data.List.Basic
import ChatRelay.Chat.Event
import ChatRelay.Proofs.Json.Records
/-!
# Round trips of events

A written envelope is read back as the same envelope, and the event in it as the
same event. A frame of a client may leave out fields or write them in another
form; the event read from it has one written form, which is stable under further
relays.
-/

namespace ChatRelay

open Json (Judged Value)

/-- The range of `i64`. -/
def IsLong (i : Int) : Prop := Text.minLong ≤ i ∧ i ≤ Text.maxLong

instance : DecidablePred IsLong := fun i =>
  inferInstanceAs (Decidable (Text.minLong ≤ i ∧ i ≤ Text.maxLong))

theorem IsLong.zero : IsLong 0 := by decide

theorem IsLong.inRange {i : Int} (h : IsLong i) :
    Json.Number.inRange i = true := by
  have hlimits : Text.maxLong = 9223372036854775807 ∧
      Text.maxNatural = 18446744073709551615 :=
    ⟨rfl, rfl⟩
  obtain ⟨hleast, hgreatest⟩ := h
  exact decide_eq_true ⟨hleast, by omega⟩

namespace Message

/-- The sender and the times of a message are in the range of `i64`. -/
structure Ranged (m : Message) : Prop where
  sender : IsLong m.sender
  createdAt : IsLong m.createdAt
  updatedAt : IsLong m.updatedAt

/-- The same for the fields read so far. -/
structure Fields.Ranged (s : Fields) : Prop where
  sender : ∀ i ∈ s.sender, IsLong i
  createdAt : ∀ i ∈ s.createdAt, IsLong i
  updatedAt : ∀ i ∈ s.updatedAt, IsLong i

theorem longOf_number {i : Int} (h : IsLong i) :
    longOf (.number (.int i)) = .ok i :=
  if_pos h

theorem isLong_of_longOf {v : Value} {i : Int} (h : longOf v = .ok i) :
    IsLong i := by
  unfold longOf integerOf at h
  split at h
  · split at h
    · next hlong =>
        obtain rfl := Except.ok.inj h
        exact hlong
    · contradiction
  · contradiction

theorem kindOf_number (kind : MessageKind) :
    kindOf (.number (.int kind.number)) = .ok kind := by
  cases kind <;> rfl

theorem Fields.Ranged.set {s s' : Fields} (hs : s.Ranged) {name : String}
    {v : Value} (h : s.set name v = .ok s') : s'.Ranged := by
  have hlong {i : Int} (hi : longOf v = .ok i) : ∀ j ∈ some i, IsLong j := by
    rintro j ⟨⟩
    exact isLong_of_longOf hi
  unfold Fields.set at h
  split at h
  · obtain ⟨x, -, rfl⟩ := Json.ok_of_map h
    exact ⟨hs.sender, hs.createdAt, hs.updatedAt⟩
  split at h
  · obtain ⟨x, hx, rfl⟩ := Json.ok_of_map h
    exact ⟨hlong hx, hs.createdAt, hs.updatedAt⟩
  split at h
  · obtain ⟨x, -, rfl⟩ := Json.ok_of_map h
    exact ⟨hs.sender, hs.createdAt, hs.updatedAt⟩
  split at h
  · obtain ⟨x, -, rfl⟩ := Json.ok_of_map h
    exact ⟨hs.sender, hs.createdAt, hs.updatedAt⟩
  split at h
  · obtain ⟨x, hx, rfl⟩ := Json.ok_of_map h
    exact ⟨hs.sender, hlong hx, hs.updatedAt⟩
  split at h
  · obtain ⟨x, hx, rfl⟩ := Json.ok_of_map h
    exact ⟨hs.sender, hs.createdAt, hlong hx⟩
  · obtain rfl := Except.ok.inj h
    exact hs

theorem Fields.Ranged.setAll {s s' : Fields} (hs : s.Ranged)
    {values : List (String × Value)} (h : s.setAll values = .ok s') :
    s'.Ranged := by
  induction values generalizing s with
  | nil =>
      obtain rfl := Except.ok.inj h
      exact hs
  | cons m values ih =>
      obtain ⟨next, hnext, hrest⟩ := Json.ok_of_bind h
      exact ih (hs.set hnext) hrest

/-- The default time is the epoch. -/
theorem Fields.Ranged.finish {s : Fields} (hs : s.Ranged) {m : Message}
    (h : s.finish = .ok m) :
    m.Ranged := by
  have hrequired {α : Type} {name : String} {found : Option α} {a : α}
      (h : Json.required name found = .ok a) : found = some a := by
    cases found with
    | none => contradiction
    | some b => exact congrArg some (Except.ok.inj h)
  have htime {found : Option Int} (h : ∀ i ∈ found, IsLong i) :
      IsLong (found.getD 0) := by
    cases found with
    | none => exact IsLong.zero
    | some i => exact h i rfl
  obtain ⟨sender, hsender, h⟩ := Json.ok_of_bind h
  obtain ⟨kind, -, h⟩ := Json.ok_of_bind h
  obtain ⟨text, -, h⟩ := Json.ok_of_bind h
  obtain rfl := Except.ok.inj h
  exact ⟨hs.sender sender (hrequired hsender), htime hs.createdAt,
    htime hs.updatedAt⟩

theorem ranged_of_ofValue {v : Value} {m : Message} (h : ofValue v = .ok m) :
    m.Ranged := by
  have hstart : Fields.Ranged {} := ⟨nofun, nofun, nofun⟩
  unfold ofValue at h
  split at h
  -- an object
  · obtain ⟨s, hs, h⟩ := Json.ok_of_bind h
    exact (hstart.setAll hs).finish (Json.ok_of_mapError h)
  -- a list
  · obtain ⟨s, hs, h⟩ := Json.ok_of_bind h
    obtain ⟨m', hm', h⟩ := Json.ok_of_bind h
    have hranged := (hstart.setAll hs).finish (Json.ok_of_mapError hm')
    dsimp only at h
    split at h
    · contradiction
    · obtain rfl := Except.ok.inj h
      exact hranged
  · contradiction

/-- A message is read back from its own payload, in which the fields are found
by name. -/
theorem ofValue_payload {m : Message} (hm : m.Ranged) :
    ofValue (.object m.payload) = .ok m := by
  have hset : Fields.setAll {} m.payload =
      .ok ⟨some m.id, some m.sender, some m.kind, some m.text,
      some m.createdAt, some m.updatedAt⟩ := by
    simp [payload, Fields.setAll, Fields.set, textOf, longOf_number,
      kindOf_number, hm.sender, hm.createdAt, hm.updatedAt, Except.map,
        Except.bind]
  rw [ofValue, hset]
  rfl

theorem payload_whole {m : Message} (hm : m.Ranged) :
    (Value.object m.payload).Whole := by
  have hkind : IsLong m.kind.number := by
    cases m.kind <;> decide
  refine Json.all_object.mpr ⟨trivial, ?_⟩
  simp [payload, Value.All, Json.Number.isWhole, hm.sender.inRange,
    hm.createdAt.inRange, hm.updatedAt.inRange, hkind.inRange]

theorem payload_sorted (m : Message) : (Value.object m.payload).Sorted := by
  have hkeys : ["created_at", "id", "message", "message_kind", "sender_id",
      "updated_at"].Pairwise (· < ·) := by decide
  refine Json.all_object.mpr
    ⟨List.pairwise_map.mp (show m.payload.keys.Pairwise _ from hkeys), ?_⟩
  simp [payload, Value.All]

theorem payload_plain (m : Message) : (Value.object m.payload).Plain := by
  refine Json.all_object.mpr ⟨?_, ?_⟩
  · simp [payload, Json.reservedKey]
  · simp [payload, Value.All]

end Message

namespace Envelope

open Json.Shape (readMembers_end readMembers_known)

/-- Both fields are read back if the payload is. -/
theorem readMembers_bytes (e : Envelope) (limits : Json.Limits) (n : Nat) :
    shape.readMembers limits (n + 2) true {} (Json.membersText true
        [("type", .string e.type), ("payload", e.payload)] ++ [0x7D]) =
      (Json.readAny limits (Utf8.encode e.payload.write ++ [0x7D]) >>=
        fun (payload, rest) =>
        shape.readMembers limits n false ⟨some e.type, some payload⟩ rest) := by
  have htype (more : Json.Members) : shape.readMembers limits (n + 2) true {}
        (Json.membersText true (("type", .string e.type) :: more) ++
          0x7D :: []) =
      shape.readMembers limits (n + 1) false ⟨some e.type, none⟩
        (Json.membersText false more ++ 0x7D :: []) :=
    (readMembers_known rfl rfl (Json.readText_write _ _)).trans rfl
  rw [htype, Json.Shape.readMembers_field rfl rfl]
  rfl

/-- A written envelope is read back if and only if no object in its payload has
the reserved key as its first and the nesting limit is kept. -/
theorem decode_bytes (e : Envelope) (hwhole : e.payload.Whole)
    (hsorted : e.payload.Sorted) :
    decode e.toValue.bytes = .ok e ↔
      e.payload.Plain ∧ e.toValue.depth ≤ Json.depthLimit := by
  have hname : ("payload", e.payload) ∈
      [("type", Value.string e.type), ("payload", e.payload)] := by simp
  have hend (limits : Json.Limits) (n : Nat) (payload : Value) :
      shape.readMembers limits n false ⟨some e.type, some payload⟩ [0x7D] =
        .ok (.ok ⟨some e.type, some payload⟩, [0x7D]) :=
        readMembers_end n false _ []
  have hparse : shape.parse e.toValue.bytes = .ok e ↔
      e.payload.Plain ∧ e.payload.depth ≤ 126 :=
    Json.parse_part hname
      (fun bound embedded hembedded hbound => Json.reads_value hembedded 126
        hwhole hsorted hbound (Json.stops_objectEnd []))
      (readMembers_bytes e) hend (fun payload => rfl)
        fun _ _ => congrArg payload
  have hdepth : e.toValue.depth ≤ Json.depthLimit ↔ e.payload.depth ≤ 126 := by
    rw [toValue, Json.depthLimit, Json.depth_object]
    simp [Value.depth]
  rw [hdepth, ← hparse, decode]
  cases shape.parse e.toValue.bytes with
  | error fault => simp [Except.mapError]
  | ok found => simp [Except.mapError]

end Envelope

namespace Event

variable {e : Event}

/-- A message that was read from a frame is ranged. -/
theorem ranged_of_decode {frame : Bytes} (h : decode frame = .ok e) :
    e.message.Ranged := by
  obtain ⟨envelope, -, h⟩ := Json.ok_of_bind h
  obtain ⟨kind, -, h⟩ := Json.ok_of_bind h
  cases kind with
  | newMessage =>
      dsimp only at h
      split at h
      · next m hm =>
          obtain rfl := Except.ok.inj h
          exact Message.ranged_of_ofValue hm
      · contradiction

theorem ofEnvelope_envelope (h : e.message.Ranged) :
    ofEnvelope e.envelope = .ok e := by
  cases e with
  | newMessage m =>
      have hkind : (newMessage m).envelope.kind = .ok .newMessage := by
        rw [Envelope.kind]
        rfl
      have hpayload : Message.ofValue (newMessage m).envelope.payload = .ok m :=
        Message.ofValue_payload h
      simp only [ofEnvelope, hkind, hpayload, bind, Except.bind]
      rfl

theorem decode_envelope (h : e.message.Ranged) :
    Envelope.decode e.bytes = .ok e.envelope := by
  cases e with
  | newMessage m =>
      refine (Envelope.decode_bytes _ (Message.payload_whole h)
        (Message.payload_sorted m)).mpr ⟨Message.payload_plain m, ?_⟩
      have hdepth : (newMessage m).envelope.toValue.depth = 2 := rfl
      rw [hdepth]
      decide

theorem decode_bytes (h : e.message.Ranged) : decode e.bytes = .ok e := by
  rw [decode, decode_envelope h]
  exact ofEnvelope_envelope h

/-- The frame that is written for the event in a frame. -/
def passOn (frame : Bytes) : Except EventError Bytes := (decode frame).map bytes

/-- The frame after any number of relays. -/
def passOnTimes : Nat → Bytes → Except EventError Bytes
  | 0, frame => .ok frame
  | n + 1, frame => (passOn frame).bind (passOnTimes n)

theorem passOnTimes_bytes (h : e.message.Ranged) (n : Nat) :
    passOnTimes n e.bytes = .ok e.bytes := by
  induction n with
  | zero => rfl
  | succ n ih =>
      rw [passOnTimes, passOn, decode_bytes h]
      exact ih

/-- The frame of every ranged event is read as its envelope, and that as the
same event. A frame that holds an event, in any form, is after one or more
relays the frame written for this event, which is read as the event again. -/
theorem passed_on_unchanged :
    (∀ m : Message, m.Ranged →
      Envelope.decode (newMessage m).bytes = .ok (newMessage m).envelope ∧
      ofEnvelope (newMessage m).envelope = .ok (newMessage m)) ∧
    ∀ frame e, decode frame = .ok e →
      ofEnvelope e.envelope = .ok e ∧ decode e.bytes = .ok e ∧
      ∀ n, passOnTimes (n + 1) frame = .ok e.bytes := by
  refine ⟨fun m hm => ⟨decode_envelope hm, ofEnvelope_envelope hm⟩,
    fun frame e h => ?_⟩
  have hranged := ranged_of_decode h
  refine ⟨ofEnvelope_envelope hranged, decode_bytes hranged, fun n => ?_⟩
  rw [passOnTimes, passOn, h]
  exact passOnTimes_bytes hranged n

/-- A message with the least sender and texts that have to be escaped. -/
def sampleMessage : Message where
  id := "\"\\"
  sender := Text.minLong
  kind := .addingUser
  text := "é\n\x01"
  createdAt := Text.maxLong
  updatedAt := -1

/-- A frame whose payload has only some of the fields and an unknown one. -/
def sampleFrame : Bytes :=
  Utf8.ofString ("[\"NewMessageEvent\",\n    " ++
    "\x7b\"message\":\"a\\u0062\"," ++
    "\"more\":[1],\"message_kind\":2,\"sender_id\":7\x7d]")

theorem sample_passed_on :
    sampleMessage.Ranged ∧
      Envelope.decode (newMessage sampleMessage).bytes =
        .ok (newMessage sampleMessage).envelope ∧
      ofEnvelope (newMessage sampleMessage).envelope =
        .ok (newMessage sampleMessage) ∧
      decode sampleFrame = .ok (newMessage ⟨"", 7, .userText, "ab", 0, 0⟩) ∧
      ∀ n, passOnTimes (n + 1) sampleFrame =
        .ok (newMessage ⟨"", 7, .userText, "ab", 0, 0⟩).bytes := by
  have hranged : sampleMessage.Ranged := ⟨by decide, by decide, by decide⟩
  have hdecode :
      decode sampleFrame = .ok (newMessage ⟨"", 7, .userText, "ab", 0, 0⟩) := by
    decide +kernel
  obtain ⟨hevents, hframes⟩ := passed_on_unchanged
  obtain ⟨henvelope, hevent⟩ := hevents sampleMessage hranged
  exact ⟨hranged, henvelope, hevent, hdecode,
    (hframes sampleFrame _ hdecode).2.2⟩

end Event
end ChatRelay
