import ChatRelay.Proofs.Frame.Cuts
import ChatRelay.Proofs.Json.RecordWalk
/-!
# Lines that are no JSON

A line is returned as a frame if no value is found at the front of the buffer,
and the caller has to reject it. All such lines are rejected whose bytes are
valid UTF-8. A line with other bytes is rejected as well, unless it is otherwise
a whole list or object and all invalid bytes are in values that the reader
skips.
-/

namespace ChatRelay.Frame

open Json.Grammar Json.Skip

variable {limit : Nat} {buffer frame left gap rest : Bytes} {first : UInt8}

/-- A frame is returned although no value was found at the front of the buffer:
as a line, or as the rest of the stream. -/
structure UnstructuredFrame (limit : Nat) (buffer frame : Bytes) : Prop where
  given : (∃ left, decode limit buffer = (.frame frame, left)) ∨
    ∃ left, decodeEnd limit buffer = (.frame frame, left)
  unstructured : ∃ first rest, skipSeparators buffer = first :: rest ∧
    head first rest = .unstructured

/-- Neither a request nor an envelope is read from the frame. -/
structure Refused (frame : Bytes) : Prop where
  request : ∃ e, Request.decode frame = .error (.invalidJson e)
  envelope : ∃ e, Envelope.decode frame = .error (.payload e)

/-- A line that is not blank and is within the limit. -/
structure Line (limit : Nat) (frame : Bytes) : Prop where
  starts : ∃ first rest, frame = first :: rest ∧ isSeparator first = false
  oneLine : 0x0A ∉ frame
  fits : frame.length ≤ limit

theorem request_fields_sound : ∀ field ∈ Request.shape.fields, field.Sound := by
  simp only [Request.shape, List.forall_mem_cons, List.not_mem_nil,
    false_implies, implies_true, and_true]
  refine ⟨.of fun _ => Json.sound_readText, .of fun _ => Json.sound_readText,
    .of fun _ => Json.sound_readOptional Json.sound_readText,
    .of fun l => Json.sound_readOptional (Json.sound_readMap l),
    .of fun _ => Json.sound_readOptional Json.sound_readText⟩

theorem envelope_fields_sound :
    ∀ field ∈ Envelope.shape.fields, field.Sound := by
  simp only [Envelope.shape, List.forall_mem_cons, List.not_mem_nil,
    false_implies, implies_true, and_true]
  exact ⟨.of fun _ => Json.sound_readText, .of Json.sound_readAny⟩

/-- A frame that is not rejected is one list or object with blanks around it. -/
theorem bracketed_of_accepted (h : ¬ Refused frame) :
    ∃ gap, Blanks gap ∧ Json.Bracketed frame gap := by
  cases hrequest : Request.shape.parse frame with
  | ok r => exact Json.Shape.parse_bracketed request_fields_sound hrequest
  | error e =>
      cases henvelope : Envelope.shape.parse frame with
      | ok r => exact Json.Shape.parse_bracketed envelope_fields_sound henvelope
      | error e' =>
          refine absurd ⟨⟨e, ?_⟩, ⟨e', ?_⟩⟩ h
          · simp only [Request.decode, hrequest]
          · simp only [Envelope.decode, henvelope, Except.mapError]

theorem ascii_of_blanks (h : Blanks gap) : Utf8.Ascii gap := by
  intro b hb
  have hblank := h b hb
  simp only [Json.isBlank, Bool.or_eq_true, decide_eq_true_eq] at hblank
  rcases hblank with ((rfl | rfl) | rfl) | rfl <;> decide

theorem isBlank_of_isSeparator {b : UInt8} (hb : isSeparator b = false) :
    Json.isBlank b = false := by
  simp only [isSeparator, Bool.or_eq_false_iff] at hb
  simp only [Json.isBlank, hb, Bool.or_self]

/-- At the front of a buffer such a list or object is found if and only if its
bytes are valid UTF-8. -/
theorem head_bracketed (hfirst : isSeparator first = false) (hgap : Blanks gap)
    (h : Json.Bracketed (first :: rest) gap) (more : Bytes) :
    head first (rest ++ more) = .unstructured ↔
      Utf8.isText (first :: rest) = false := by
  obtain ⟨⟨opening, behind, hskip, hopening⟩, hruns⟩ := h
  have hencloses : Encloses first := by
    rw [Json.skipBlanks, if_neg (by simp [isBlank_of_isSeparator hfirst])]
      at hskip
    obtain ⟨rfl, -⟩ := List.cons.inj hskip
    exact .inr hopening
  obtain ⟨n, hrun⟩ := hruns more
  -- the value is what stands in front of the blanks
  have hsplit : first :: rest = (first :: rest ++ more).take n ++ gap := by
    obtain ⟨-, hdrop, -⟩ := run_count hrun
    rw [Nat.sub_zero] at hdrop
    apply @List.append_cancel_right _ _ more
    rw [List.append_assoc, hdrop, List.take_append_drop]
  have htext :=
    Utf8.isText_append (ascii_of_blanks hgap) ((first :: rest ++ more).take n)
  rw [← hsplit] at htext
  rw [List.cons_append] at hrun htext
  rw [head, hrun]
  simp only [endsBefore_of_encloses hencloses, htext, Bool.true_and]
  cases Utf8.isText ((first :: (rest ++ more)).take n) <;> simp

/-- A line that is returned unstructured is at the front of the buffer. -/
theorem decode_unstructured (hskip : skipSeparators buffer = first :: rest)
    (hhead : head first rest = .unstructured) :
    (∀ left, decode limit buffer = (.frame frame, left) →
      Line limit frame ∧ ∃ more, first :: rest = frame ++ more) ∧
    ∀ left, decode limit buffer = (.wait, left) →
      left = first :: rest ∧ Line limit left := by
  have hfirst := skipSeparators_cons hskip
  have hfeed : first ≠ 0x0A := by
    rintro rfl
    exact absurd hfirst (by decide)
  have hsplit := line_split (first :: rest)
  have hstart : (first :: rest).takeWhile (· ≠ 0x0A) =
      first :: rest.takeWhile (· ≠ 0x0A) :=
    List.takeWhile_cons_of_pos (by simpa using hfeed)
  have hline (hfit : ¬ limit < ((first :: rest).takeWhile (· ≠ 0x0A)).length) :
      Line limit ((first :: rest).takeWhile (· ≠ 0x0A)) :=
    ⟨⟨first, _, hstart, hfirst⟩, not_mem_line _, Nat.not_lt.mp hfit⟩
  constructor
  · intro left h
    simp only [decode, hskip, hhead] at h
    split at h
    · simp at h
    · next hfit =>
        split at h
        · simp at h
        · obtain ⟨hframe, -⟩ := Prod.mk.inj h
          obtain rfl := Decoded.frame.inj hframe
          exact ⟨hline hfit, _, hsplit.symm⟩
  · intro left h
    simp only [decode, hskip, hhead] at h
    split at h
    · simp at h
    · next hfit =>
        split at h
        · next hend =>
            obtain ⟨-, rfl⟩ := Prod.mk.inj h
            rw [hend, List.append_nil] at hsplit
            exact ⟨rfl, hsplit ▸ hline hfit⟩
        · simp at h

/-- An unstructured frame is a line, and no value starts with it in front of the
bytes that follow. -/
theorem UnstructuredFrame.line (h : UnstructuredFrame limit buffer frame) :
    Line limit frame ∧ ∃ first rest more, frame = first :: rest ∧
      head first (rest ++ more) = .unstructured := by
  obtain ⟨hgiven, first, rest, hskip, hhead⟩ := h
  have hfront : Line limit frame ∧ ∃ more, first :: rest = frame ++ more := by
    rcases hgiven with ⟨left, h⟩ | ⟨left, h⟩
    · exact (decode_unstructured hskip hhead).1 left h
    · unfold decodeEnd at h
      split at h
      · next first' rest' hwait =>
          obtain ⟨hleft, hline⟩ :=
            (@decode_unstructured _ _ frame _ _ hskip hhead).2 _ hwait
          obtain ⟨rfl, rfl⟩ := List.cons.inj hleft
          simp only [hhead] at h
          obtain ⟨hframe, -⟩ := Prod.mk.inj h
          obtain rfl := Decoded.frame.inj hframe
          exact ⟨hline, [], (List.append_nil _).symm⟩
      · simp at h
      · exact (decode_unstructured hskip hhead).1 left h
  obtain ⟨hline, more, hmore⟩ := hfront
  obtain ⟨first', rest', rfl, -⟩ := hline.starts
  obtain ⟨rfl, rfl⟩ := List.cons.inj hmore
  exact ⟨hline, first, rest', more, rfl, hhead⟩

/-- For a line that is a list or an object by the grammar, only the encoding
decides. -/
theorem unstructuredFrame_iff (hgap : Blanks gap)
    (h : Json.Bracketed frame gap) :
    (∃ buffer, UnstructuredFrame limit buffer frame) ↔
      Line limit frame ∧ Utf8.isText frame = false := by
  constructor
  · rintro ⟨buffer, hup⟩
    obtain ⟨hline, first, rest, more, rfl, hhead⟩ := hup.line
    obtain ⟨_, _, hcons, hfirst⟩ := hline.starts
    obtain ⟨rfl, -⟩ := List.cons.inj hcons
    exact ⟨hline, (head_bracketed hfirst hgap h more).mp hhead⟩
  · rintro ⟨hline, htext⟩
    obtain ⟨first, rest, rfl, hfirst⟩ := hline.starts
    have hhead := (head_bracketed hfirst hgap h [0x0A]).mpr htext
    refine ⟨first :: rest ++ [0x0A], .inl ⟨[], ?_⟩, first,
      rest ++ [0x0A], ?_, hhead⟩
    · exact decode_complete_line hfirst hline.oneLine hline.fits hhead
    · exact skipSeparators_of_first hfirst _

/-- A line that is returned because no value is found is rejected, as a request
and as an envelope, if its bytes are valid UTF-8. A line that is not rejected
holds one whole list or object, and no value is found in it if and only if its
bytes are not valid UTF-8. -/
theorem unstructured_refused (limit : Nat) (frame : Bytes) :
    (∀ buffer, UnstructuredFrame limit buffer frame → Utf8.isText frame = true →
      Refused frame) ∧
    (¬ Refused frame → (∃ gap, Blanks gap ∧ Json.Bracketed frame gap) ∧
      ((∃ buffer, UnstructuredFrame limit buffer frame) ↔
        Line limit frame ∧ Utf8.isText frame = false)) := by
  have haccepted (h : ¬ Refused frame) :
      (∃ gap, Blanks gap ∧ Json.Bracketed frame gap) ∧
      ((∃ buffer, UnstructuredFrame limit buffer frame) ↔
        Line limit frame ∧ Utf8.isText frame = false) := by
    obtain ⟨gap, hgap, hbracketed⟩ := bracketed_of_accepted h
    exact ⟨⟨gap, hgap, hbracketed⟩, unstructuredFrame_iff hgap hbracketed⟩
  refine ⟨fun buffer hup htext => ?_, haccepted⟩
  by_cases hrefused : Refused frame
  · exact hrefused
  · obtain ⟨-, hnone⟩ := (haccepted hrefused).2.mp ⟨buffer, hup⟩
    rw [htext] at hnone
    contradiction

theorem ne_error_of_isSome {ε α : Type} {result : Except ε α}
    (h : result.toOption.isSome = true) (e : ε) : result ≠ .error e := by
  rintro rfl
  contradiction

/-- A request with an unknown member that is not valid UTF-8. -/
def sampleRequestLine : Bytes :=
  Utf8.ofString "\x7b\"method\":\"GET\",\"url\":\"/\",\"x\":\"" ++
    0xFF :: Utf8.ofString "\"\x7d"

/-- An event with such a member. -/
def sampleEventLine : Bytes :=
  Utf8.ofString "\x7b\"type\":\"NewMessageEvent\",\"x\":\"" ++
    0xFF :: Utf8.ofString "\"\x7d"

theorem sampleRequestLine_unstructured :
    (∃ buffer, UnstructuredFrame 40 buffer sampleRequestLine) ∧
    ¬ Refused sampleRequestLine := by
  have haccepted : ¬ Refused sampleRequestLine := by
    rintro ⟨⟨e, he⟩, -⟩
    exact ne_error_of_isSome (by decide +kernel) _ he
  refine ⟨((unstructured_refused 40 sampleRequestLine).2 haccepted).2.mpr
    ⟨?_, by decide +kernel⟩, haccepted⟩
  exact ⟨⟨_, _, rfl, rfl⟩, by decide +kernel, by decide +kernel⟩

/-- A line that is no value is read as a request, and another one as an
event. -/
theorem unstructured_lines_are_read :
    (¬ ∀ limit buffer frame, UnstructuredFrame limit buffer frame →
      ∃ e, Request.decode frame = .error (.invalidJson e)) ∧
    ¬ ∀ limit buffer frame, UnstructuredFrame limit buffer frame →
      ∃ e, Envelope.decode frame = .error (.payload e) := by
  constructor
  · intro h
    obtain ⟨e, he⟩ := h 40 (sampleRequestLine ++ [0x0A]) sampleRequestLine
      ⟨.inl ⟨[], by decide +kernel⟩, _, _, rfl, by decide +kernel⟩
    exact ne_error_of_isSome (by decide +kernel) _ he
  · intro h
    obtain ⟨e, he⟩ := h 40 (sampleEventLine ++ [0x0A]) sampleEventLine
      ⟨.inl ⟨[], by decide +kernel⟩, _, _, rfl, by decide +kernel⟩
    exact ne_error_of_isSome (by decide +kernel) _ he

end ChatRelay.Frame
