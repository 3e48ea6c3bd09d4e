import ChatRelay.Chat.Session
import ChatRelay.Proofs.Store.Identifiers
/-!
# The length of an envelope

The envelope of a stored message has a fixed part. Beyond it, the length depends
on the text, on the user's number and twice on the time.
-/

namespace ChatRelay

namespace Uuid

/-- An identifier is written in quotes without escapes. -/
theorem length_bytes_text (u : Uuid) :
    (Json.Value.string u.text).bytes.length = 38 := by
  have hcheck : characters.all
      (fun c => (Utf8.encode (Json.escapeChar c)).length == 1) = true := by
    decide
  have hone : ∀ c ∈ characters, (Utf8.encode (Json.escapeChar c)).length = 1 :=
    fun c hc => beq_iff_eq.mp (List.all_eq_true.mp hcheck c hc)
  have hall (text : List Char) (h : ∀ c ∈ text, c ∈ characters) :
      (Utf8.encode (text.flatMap Json.escapeChar)).length = text.length := by
    induction text with
    | nil => rfl
    | cons c text ih =>
        rw [List.flatMap_cons, Utf8.encode_append, List.length_append,
          hone c (h c List.mem_cons_self),
            ih fun d hd => h d (List.mem_cons_of_mem c hd),
          List.length_cons, Nat.add_comm]
  rw [Json.Value.bytes, Json.Value.write, Json.writeString, List.cons_append,
    ← List.singleton_append, Utf8.encode_append, Utf8.encode_append,
      List.length_append, List.length_append,
    hall _ fun _ => mem_text, length_text]
  rfl

end Uuid

namespace Event

theorem bytes_newMessage (m : Message) :
    (newMessage m).bytes =
      Utf8.encode "\x7b\"type\":\"NewMessageEvent\",\"payload\":".toList ++
      Utf8.encode "\x7b\"created_at\":".toList ++
      (Json.Value.number (.int m.createdAt)).bytes ++
        Utf8.encode ",\"id\":".toList ++
      (Json.Value.string m.id).bytes ++ Utf8.encode ",\"message\":".toList ++
      (Json.Value.string m.text).bytes ++
        Utf8.encode ",\"message_kind\":".toList ++
      (Json.Value.number (.int m.kind.number)).bytes ++
        Utf8.encode ",\"sender_id\":".toList ++
      (Json.Value.number (.int m.sender)).bytes ++
        Utf8.encode ",\"updated_at\":".toList ++
      (Json.Value.number (.int m.updatedAt)).bytes ++
        Utf8.encode "\x7d\x7d".toList := by
  simp only [bytes, envelope, Envelope.toValue, Json.Value.bytes,
    Json.Value.write, Json.writeMembers, Message.payload, ← Utf8.encode_append]
  simp [Json.writeString, Json.escapeChar, EventKind.name]

theorem length_kind (kind : MessageKind) :
    (Json.Value.number (.int kind.number)).bytes.length = 1 := by
  cases kind <;> decide +kernel

theorem length_bytes (m : Message) :
    (newMessage m).bytes.length =
      113 + (Json.Value.string m.id).bytes.length +
        (Json.Value.string m.text).bytes.length +
        (Json.Value.number (.int m.sender)).bytes.length +
        (Json.Value.number (.int m.createdAt)).bytes.length +
        (Json.Value.number (.int m.updatedAt)).bytes.length := by
  have hfixed :
      (["\x7b\"type\":\"NewMessageEvent\",\"payload\":", "\x7b\"created_at\":",
        ",\"id\":", ",\"message\":", ",\"message_kind\":", ",\"sender_id\":",
        ",\"updated_at\":", "\x7d\x7d"].map fun text : String =>
          (Utf8.encode text.toList).length) =
      [36, 14, 6, 11, 16, 13, 14, 2] := by decide +kernel
  simp only [List.map_cons, List.map_nil, List.cons.injEq, and_true] at hfixed
  obtain ⟨h₁, h₂, h₃, h₄, h₅, h₆, h₇, h₈⟩ := hfixed
  simp only [bytes_newMessage, List.length_append, length_kind, h₁, h₂, h₃,
    h₄, h₅, h₆, h₇, h₈]
  omega

end Event

namespace Session

/-- The length of the envelope that is published for a stored message. -/
def envelopeLength (user millis : Int) (text : String) : Nat :=
  151 + (Json.Value.string text).bytes.length +
    (Json.Value.number (.int user)).bytes.length +
    2 * (Json.Value.number (.int millis)).bytes.length

theorem length_persist {user : Int} {now : Time} {event kept : Event}
    {room : Room} (h : (persist user now event room).1 = some kept) :
    kept.bytes.length =
      envelopeLength user (room.unixMillis now) event.message.text := by
  unfold persist at h
  simp only at h
  split at h
  · next id room' hkeep =>
      obtain rfl := Option.some.inj h
      rw [Event.length_bytes, Uuid.length_bytes_text, envelopeLength, stamp]
      simp only
      omega
  · simp at h

end Session

end ChatRelay
