import ChatRelay.Proofs.Frame.Feed
import ChatRelay.Proofs.Json.Written
import ChatRelay.Proofs.Text.Encoding
import ChatRelay.Chat.Event
import ChatRelay.Wire.Request
import ChatRelay.Wire.Response
/-!
# Transport of frames

The frames that one end of a connection writes are decoded at the other end, for
all cuts of the stream. A frame may be a request, a response, an event or a line
that is no JSON.
-/

namespace ChatRelay.Frame

/-- A text that the decoder returns whole and at once: it waits on every part of
the text, and consumes only the line feed behind it. -/
structure Sendable (limit : Nat) (text : Bytes) : Prop where
  starts : ∃ b rest, text = b :: rest ∧ isSeparator b = false
  held : ∀ part missing, text = part ++ missing → part ≠ [] → missing ≠ [] →
    decode limit part = (.wait, part)
  alone : decode limit text = (.frame text, []) ∨
    decode limit text = (.wait, text)
  ended : ∀ rest, ∃ left,
    decode limit (text ++ 0x0A :: rest) = (.frame text, left) ∧
    (left = 0x0A :: rest ∨ left = rest)

section Stream

variable {limit : Nat}

/-- Bytes that are decoded as these texts once they are complete: blanks, then
the texts. -/
def Ahead (texts : List Bytes) (bytes : Bytes) : Prop :=
  ∃ blanks, (∀ b ∈ blanks, isSeparator b = true) ∧ bytes = blanks ++ lines texts

theorem ahead_lines (texts : List Bytes) : Ahead texts (lines texts) :=
  ⟨[], by simp, rfl⟩

theorem ahead_feed_lines (texts : List Bytes) :
    Ahead texts (0x0A :: lines texts) := by
  refine ⟨[0x0A], fun b hb => ?_, rfl⟩
  rw [List.mem_singleton.mp hb]
  rfl

/-- A stream that begins with a line is cut inside its text or behind its
end. -/
theorem cut_line {part rest text more : Bytes} {b : UInt8}
    (h : part ++ rest = text ++ b :: more) :
    (∃ missing, text = part ++ missing ∧ rest = missing ++ b :: more) ∨
      ∃ behind, part = text ++ b :: behind ∧ more = behind ++ rest := by
  rcases List.append_eq_append_iff.mp h
    with ⟨missing, htext, hrest⟩ | ⟨behind, hpart, hmore⟩
  · exact .inl ⟨missing, htext, hrest⟩
  · cases behind with
    | nil =>
      exact .inl ⟨[], by simpa using hpart.symm, by simpa using hmore.symm⟩
    | cons c behind =>
        obtain ⟨rfl, htail⟩ := List.cons.inj hmore
        exact .inr ⟨behind, hpart, htail⟩

theorem drain_separators {blanks : Bytes}
    (hblanks : ∀ b ∈ blanks, isSeparator b = true) :
    drain limit blanks = ⟨[], none, []⟩ :=
  drain_wait (decode_separators hblanks limit)

/-- A part of a text stays in the buffer; the whole may be decoded at once. -/
theorem drain_part {text part missing : Bytes} (htext : Sendable limit text)
    (hsplit : text = part ++ missing) :
    drain limit part = ⟨[], none, part⟩ ∨
      missing = [] ∧ drain limit part = ⟨[text], none, []⟩ := by
  by_cases hpart : part = []
  · subst hpart
    exact .inl (drain_separators (by simp))
  · by_cases hmissing : missing = []
    · rw [hmissing, List.append_nil] at hsplit
      subst hsplit
      rcases htext.alone with hframe | hwait
      · refine .inr ⟨hmissing, ?_⟩
        rw [drain_frame hframe, drain_separators (by simp)]
      · exact .inl (drain_wait hwait)
    · exact .inl (drain_wait (htext.held part missing hsplit hpart hmissing))

theorem drain_append {blanks : Bytes}
    (hblanks : ∀ b ∈ blanks, isSeparator b = true) (text : Bytes) :
    drain limit (blanks ++ text) = drain limit text := by
  have hdecode := decode_append hblanks limit text
  cases h : decode limit text with
  | mk outcome left =>
      rw [h] at hdecode
      cases outcome with
      | frame frame => rw [drain_frame h, drain_frame hdecode]
      | wait => rw [drain_wait h, drain_wait hdecode]
      | fault error => rw [drain_fault h, drain_fault hdecode]

/-- Draining a part of a stream gives the complete texts, and the rest of the
stream is still ahead. -/
theorem drain_ahead {texts : List Bytes}
    (htexts : ∀ text ∈ texts, Sendable limit text) {buffer rest : Bytes}
    (h : Ahead texts (buffer ++ rest)) :
    ∃ done later left, texts = done ++ later ∧
      drain limit buffer = ⟨done, none, left⟩ ∧
      Ahead later (left ++ rest) := by
  induction texts generalizing buffer with
  | nil =>
      obtain ⟨blanks, hblanks, heq⟩ := h
      rw [lines_nil, List.append_nil] at heq
      subst heq
      refine ⟨[], [], [], rfl, drain_separators fun b hb => ?_, rest,
        fun b hb => ?_, ?_⟩
      · exact hblanks b (List.mem_append_left rest hb)
      · exact hblanks b (List.mem_append_right buffer hb)
      · simp [lines_nil]
  | cons text texts ih =>
      obtain ⟨blanks, hblanks, heq⟩ := h
      have htext := htexts text List.mem_cons_self
      have hmore := fun t ht => htexts t (List.mem_cons_of_mem text ht)
      rcases List.append_eq_append_iff.mp heq
        with ⟨gap, rfl, rfl⟩ | ⟨part, rfl, hpart⟩
      · -- the buffer ends in the blanks in front
        refine ⟨[], text :: texts, [], rfl, drain_separators fun b hb => ?_,
          gap, fun b hb => ?_, rfl⟩
        · exact hblanks b (List.mem_append_left gap hb)
        · exact hblanks b (List.mem_append_right buffer hb)
      rw [drain_append hblanks]
      rw [lines_cons] at hpart
      rcases cut_line hpart.symm
        with ⟨missing, hsplit, rfl⟩ | ⟨behind, rfl, hbehind⟩
      · -- the buffer ends in the text or right behind it
        rcases drain_part htext hsplit with hdrain | ⟨rfl, hdrain⟩
        · refine ⟨[], text :: texts, part, rfl, hdrain, ?_⟩
          rw [← List.append_assoc, ← hsplit, ← lines_cons]
          exact ahead_lines _
        · exact ⟨[text], texts, [], rfl, hdrain, ahead_feed_lines texts⟩
      · -- the line is complete, and the buffer goes on behind it
        obtain ⟨left, hframe, hleft⟩ := htext.ended behind
        have hahead : Ahead texts (left ++ rest) := by
          rcases hleft with rfl | rfl
          · rw [List.cons_append, ← hbehind]
            exact ahead_feed_lines texts
          · rw [← hbehind]
            exact ahead_lines texts
        obtain ⟨done, later, left', rfl, hdrain, hlater⟩ := ih hmore hahead
        refine ⟨text :: done, later, left', rfl, ?_, hlater⟩
        rw [drain_frame hframe, hdrain]

/-- If the decoder waits and the stream has ended, no text is ahead and no byte
is left. -/
theorem nothing_ahead {texts : List Bytes}
    (htexts : ∀ text ∈ texts, Sendable limit text) {buffer : Bytes}
    (hwait : decode limit buffer = (.wait, buffer)) (h : Ahead texts buffer) :
    texts = [] ∧ buffer = [] := by
  obtain ⟨blanks, hblanks, rfl⟩ := h
  cases texts with
  | nil =>
      rw [lines_nil, List.append_nil] at hwait ⊢
      rw [decode_separators hblanks] at hwait
      exact ⟨rfl, (Prod.mk.inj hwait).2.symm⟩
  | cons text texts =>
      obtain ⟨left, hframe, -⟩ :=
        (htexts text List.mem_cons_self).ended (lines texts)
      rw [decode_append hblanks, lines_cons, hframe] at hwait
      simp at hwait

theorem feed_ahead {texts : List Bytes}
    (htexts : ∀ text ∈ texts, Sendable limit text) {buffer : Bytes}
    {pieces : List Bytes} (hwait : decode limit buffer = (.wait, buffer))
    (h : Ahead texts (buffer ++ pieces.flatten)) :
    feed limit buffer pieces = ⟨texts, [], []⟩ := by
  induction pieces generalizing texts buffer with
  | nil =>
      rw [List.flatten_nil, List.append_nil] at h
      obtain ⟨rfl, rfl⟩ := nothing_ahead htexts hwait h
      rfl
  | cons piece pieces ih =>
      rw [List.flatten_cons, ← List.append_assoc] at h
      obtain ⟨done, later, left, rfl, hdrain, hlater⟩ := drain_ahead htexts h
      have hleft : decode limit left = (.wait, left) := by
        have herror : (drain limit (buffer ++ piece)).error = none := by
          rw [hdrain]
        have hwaits := decode_drain_left herror
        rwa [hdrain] at hwaits
      have hmore :=
        ih (fun t ht => htexts t (List.mem_append_right done ht)) hleft hlater
      simp only [feed, hdrain, hmore, Option.toList_none, List.nil_append]

/-- Exactly the texts of a stream are decoded, for all cuts. -/
theorem feed_lines {texts : List Bytes}
    (htexts : ∀ text ∈ texts, Sendable limit text) {pieces : List Bytes}
    (h : pieces.flatten = lines texts) :
    feed limit [] pieces = ⟨texts, [], []⟩ :=
  feed_ahead htexts (decode_separators (by simp) limit) (h ▸ ahead_lines texts)

end Stream

section Sent

variable {limit : Nat} {b : UInt8} {rest : Bytes}

theorem decode_value {length : Nat} (hb : isSeparator b = false)
    (hhead : head b rest = .value length) (hfit : length ≤ limit) :
    decode limit (b :: rest) =
      (.frame ((b :: rest).take length), (b :: rest).drop length) := by
  simp only [decode, skipSeparators_of_first hb, hhead,
    if_neg (Nat.not_lt.mpr hfit)]

theorem takeWhile_line {line : Bytes} (hline : 0x0A ∉ line) (behind : Bytes) :
    (line ++ behind).takeWhile (· ≠ 0x0A) =
      line ++ behind.takeWhile (· ≠ 0x0A) := by
  apply List.takeWhile_append_of_pos
  intro c hc
  simpa using fun h : c = 0x0A => hline (h ▸ hc)

/-- The decoder waits on a text of one line that is no complete value. -/
theorem decode_line (hb : isSeparator b = false) (hline : 0x0A ∉ b :: rest)
    (hfit : (b :: rest).length ≤ limit)
    (hhead : head b rest = .unfinished ∨ head b rest = .unstructured) :
    decode limit (b :: rest) = (.wait, b :: rest) := by
  have hwhole := takeWhile_line hline []
  rw [List.append_nil, List.takeWhile_nil, List.append_nil] at hwhole
  rcases hhead with hhead | hhead
  · simp only [decode, skipSeparators_of_first hb, hhead,
      if_neg (Nat.not_lt.mpr hfit)]
  · simp only [decode, skipSeparators_of_first hb, hhead, hwhole,
      if_neg (Nat.not_lt.mpr hfit), List.drop_length]

/-- A complete line with which no value starts is a frame. -/
theorem decode_complete_line {line : Bytes} (hb : isSeparator b = false)
    (hline : 0x0A ∉ b :: line) (hfit : (b :: line).length ≤ limit)
    (hhead : head b (line ++ 0x0A :: rest) = .unstructured) :
    decode limit (b :: line ++ 0x0A :: rest) = (.frame (b :: line), rest) := by
  have hwhole := takeWhile_line hline (0x0A :: rest)
  rw [List.takeWhile_cons_of_neg (by decide), List.append_nil] at hwhole
  rw [List.cons_append] at hwhole ⊢
  simp only [decode, skipSeparators_of_first hb, hhead, hwhole,
    if_neg (Nat.not_lt.mpr hfit)]
  rw [← List.cons_append, List.drop_left]

theorem head_of_error {fault : Json.Fault}
    (h : Json.Skip.run .start 0 (b :: rest) = .error fault) :
    head b rest = .unfinished ∨ head b rest = .unstructured := by
  rw [head, h]
  by_cases hend : fault.cause.isEnd
  · exact .inl (if_pos hend)
  · exact .inr (if_neg hend)

theorem head_of_brace {length : Nat} {behind : Bytes}
    (h : Json.Skip.run .start 0 (0x7B :: rest) = .ok (length, behind))
    (htext : Utf8.isText ((0x7B :: rest).take length) = true) :
    head 0x7B rest = .value length := by
  rw [head, h]
  have hends : endsBefore 0x7B behind = true := by
    cases behind <;> rfl
  simp only [hends, htext, Bool.and_self, if_true]

/-- An object within the limit can be sent. -/
theorem sendable_object (members : List (String × Json.Value))
    (hfit : (Json.Value.object members).bytes.length ≤ limit) :
    Sendable limit (Json.Value.object members).bytes := by
  obtain ⟨hline, hrun⟩ := Json.Skip.run_bytes_object members
  have hpart := @Json.Skip.run_part_of_object members
  have htext : Utf8.isText (Json.Value.object members).bytes = true :=
    Utf8.isText_encode _
  obtain ⟨tail, hwritten⟩ := Json.Skip.bytes_object members
  rw [hwritten] at hfit hline hrun hpart htext ⊢
  have hbrace : isSeparator 0x7B = false := by decide
  have hframe (behind : Bytes) :
      decode limit (0x7B :: tail ++ behind) =
        (.frame (0x7B :: tail), behind) := by
    have hhead : head 0x7B (tail ++ behind) = .value (0x7B :: tail).length :=
      head_of_brace (hrun behind) (by rwa [← List.cons_append, List.take_left])
    rw [List.cons_append, decode_value hbrace hhead hfit, ← List.cons_append,
      List.take_left, List.drop_left]
  constructor
  · exact ⟨0x7B, tail, rfl, hbrace⟩
  · intro part missing hsplit hnone hsome
    obtain ⟨fault, hfault⟩ := hpart hnone hsome hsplit
    cases part with
    | nil => exact absurd rfl hnone
    | cons b part =>
        have hfront : b :: part <+: 0x7B :: tail := ⟨missing, hsplit.symm⟩
        obtain ⟨rfl, -⟩ := List.cons.inj hsplit
        exact decode_line hbrace (fun h => hline (hfront.subset h))
          (Nat.le_trans hfront.length_le hfit) (head_of_error hfault)
  · exact .inl (by simpa using hframe [])
  · exact fun behind => ⟨0x0A :: behind, hframe _, .inl rfl⟩

/-- The bytes with which a value starts. -/
def startsValue (b : UInt8) : Bool :=
  endsItself b || b = 0x2D || Json.isDigit b || b = 0x66 || b = 0x6E || b = 0x74

theorem head_of_strange (hb : isSeparator b = false)
    (hvalue : startsValue b = false) :
    head b rest = .unstructured := by
  have hstep : Json.Skip.step .start b = .wrong .expectedValue := by
    have hzero : b ≠ 0x30 := fun h => absurd (h ▸ hvalue) (by decide)
    simp only [isSeparator, startsValue, endsItself, Bool.or_eq_false_iff,
      decide_eq_false_iff_not] at hb hvalue
    simp only [Json.Skip.step, Json.Skip.State.start, Json.Skip.opening,
      Json.isBlank]
    simp_all
  simp only [head, Json.Skip.run, hstep]
  rfl

/-- A line within the limit with which no value starts can be sent. -/
theorem sendable_line (hb : isSeparator b = false)
    (hvalue : startsValue b = false) (hline : 0x0A ∉ b :: rest)
    (hfit : (b :: rest).length ≤ limit) :
    Sendable limit (b :: rest) := by
  have hwait {part : Bytes} (hpart : b :: part <+: b :: rest) :
      decode limit (b :: part) = (.wait, b :: part) :=
    decode_line hb (fun h => hline (hpart.subset h))
      (Nat.le_trans hpart.length_le hfit) (.inr (head_of_strange hb hvalue))
  constructor
  · exact ⟨b, rest, rfl, hb⟩
  · intro part missing hsplit hnone hsome
    cases part with
    | nil => exact absurd rfl hnone
    | cons c part =>
        obtain ⟨rfl, rfl⟩ := List.cons.inj hsplit
        exact hwait (List.prefix_append (b :: part) missing)
  · exact .inr (hwait (List.prefix_refl _))
  · exact fun behind => ⟨behind,
      decode_complete_line hb hline hfit (head_of_strange hb hvalue), .inr rfl⟩

end Sent

/-- A line that is no JSON: its first byte starts no value. -/
structure NonJsonLine where
  first : UInt8
  rest : Bytes
  notBlank : isSeparator first = false
  notValue : startsValue first = false
  oneLine : 0x0A ∉ first :: rest

/-- A frame that one end sends to the other. -/
inductive Item where
  | request (r : Request)
  | response (r : Response)
  | event (e : Event)
  | strange (line : NonJsonLine)

def Item.bytes : Item → Bytes
  | request r => r.bytes
  | response r => r.bytes
  | event e => e.bytes
  | strange line => line.first :: line.rest

theorem Item.sendable {limit : Nat} (item : Item)
    (hfit : item.bytes.length ≤ limit) :
    Sendable limit item.bytes := by
  cases item with
  | request r => exact sendable_object _ hfit
  | response r => exact sendable_object _ hfit
  | event e => exact sendable_object _ hfit
  | strange line =>
    exact sendable_line line.notBlank line.notValue line.oneLine hfit

/-- Items within the limit are written to one stream. For every cut of the
stream the other end decodes exactly these items, in order, without an error and
with nothing left. -/
theorem items_arrive {limit : Nat} (items : List Item)
    (hfit : ∀ item ∈ items, item.bytes.length ≤ limit) :
    ∃ stream, writeAll limit (items.map Item.bytes) = .ok stream ∧
      ∀ pieces : List Bytes, pieces.flatten = stream →
        feed limit [] pieces = ⟨items.map Item.bytes, [], []⟩ := by
  refine ⟨lines (items.map Item.bytes), writeAll_eq_lines ?_,
    fun pieces h => feed_lines ?_ h⟩
  · intro text htext
    obtain ⟨item, hitem, rfl⟩ := List.mem_map.mp htext
    exact hfit item hitem
  · intro text htext
    obtain ⟨item, hitem, rfl⟩ := List.mem_map.mp htext
    exact item.sendable (hfit item hitem)

/-- A request, a line that is no JSON, and an event. -/
def sampleItems : List Item := [
  .request
    { method := "GET", url := "/a", header := [("id", .number (.int (-3)))] },
  .strange ⟨0x3F, [0x20, 0x48, 0x69], by decide, by decide, by decide⟩,
  .event (.newMessage ⟨"7", 1, .userText, "a\n\"é\"", 0, 0⟩)]

theorem sampleItems_arrive :
    (∀ item ∈ sampleItems, item.bytes.length ≤ 150) ∧
      ∃ stream, writeAll 150 (sampleItems.map Item.bytes) = .ok stream ∧
        ∀ pieces : List Bytes, pieces.flatten = stream →
          feed 150 [] pieces = ⟨sampleItems.map Item.bytes, [], []⟩ := by
  have hfit : ∀ item ∈ sampleItems, item.bytes.length ≤ 150 := by decide +kernel
  exact ⟨hfit, items_arrive sampleItems hfit⟩

end ChatRelay.Frame
