import ChatRelay.Proofs.Frame.Unstructured
/-!
# The final line feed

A stream may end without a line feed. If it is read to its end without an error,
one more line feed changes neither that nor any of the frames: a value that
ended with the stream ends in front of the line feed, and a line that was
returned because nothing followed is a complete line.
-/

namespace ChatRelay

namespace Json.Skip

variable {s : State} {count : Nat} {text : Bytes}

/-- Where a value may end with the text it ends in front of a line feed. -/
theorem step_feed_of_finish (h : finish s = none) : step s 0x0A = .past := by
  obtain ⟨mode, stack⟩ := s
  cases stack with
  | nil =>
      cases mode with
      | behind | zero | whole | fraction | power => rfl
      | _ => simp [finish] at h
  | cons bracket stack => cases mode <;> simp [finish] at h

/-- If the end of the text is invalid, though not a truncation, so is a line
feed. -/
theorem step_feed_of_wrong {cause : Cause} (h : finish s = some cause)
    (hcause : cause.isEnd = false) : step s 0x0A = .wrong .invalidNumber := by
  obtain ⟨mode, stack⟩ := s
  have hnumber : stack.head?.map Bracket.ending ≠ some cause := by
    rintro hending
    obtain ⟨bracket, -, rfl⟩ := Option.map_eq_some_iff.mp hending
    cases bracket <;> simp [Bracket.ending, Cause.isEnd] at hcause
  cases mode with
  | minus | point | exponent | sign => rfl
  | behind | zero | whole | fraction | power => exact absurd h hnumber
  | _ =>
      obtain rfl := Option.some.inj h
      contradiction

theorem run_feed {n : Nat} {behind : Bytes}
    (h : run s count text = .ok (n, behind)) :
    run s count (text ++ [0x0A]) = .ok (n, behind ++ [0x0A]) := by
  induction text generalizing s count with
  | nil =>
      simp only [run] at h
      split at h
      · next hfinish =>
          obtain ⟨rfl, rfl⟩ := Prod.mk.inj (Except.ok.inj h)
          simp only [List.nil_append, run, step_feed_of_finish hfinish]
      · simp at h
  | cons b rest ih =>
      simp only [run, List.cons_append] at h ⊢
      split at h
      · exact ih h
      · obtain ⟨rfl, rfl⟩ := Prod.mk.inj (Except.ok.inj h)
        rfl
      · obtain ⟨rfl, rfl⟩ := Prod.mk.inj (Except.ok.inj h)
        rfl
      · simp at h
      · simp at h

/-- A text that starts no value starts none with a line feed either. -/
theorem run_feed_error {fault : Fault} (h : run s count text = .error fault)
    (hcause : fault.cause.isEnd = false) :
    ∃ fault', run s count (text ++ [0x0A]) = .error fault' ∧
      fault'.cause.isEnd = false := by
  induction text generalizing s count with
  | nil =>
      simp only [run] at h
      split at h
      · simp at h
      · next cause hfinish =>
          obtain rfl := Except.error.inj h
          refine ⟨.here .invalidNumber [], ?_, rfl⟩
          simp only [List.nil_append, run, step_feed_of_wrong hfinish hcause]
  | cons b rest ih =>
      simp only [run, List.cons_append] at h ⊢
      split at h
      · exact ih h
      · simp at h
      · simp at h
      · obtain rfl := Except.error.inj h
        exact ⟨_, rfl, hcause⟩
      · obtain rfl := Except.error.inj h
        exact ⟨_, rfl, hcause⟩

end Json.Skip

namespace Frame

section Look

variable {limit : Nat} {buffer : Bytes} {first : UInt8} {rest : Bytes}

theorem endsBefore_feed {behind : Bytes} :
    endsBefore first (behind ++ [0x0A]) = endsBefore first behind := by
  cases behind with
  | nil => simp [endsBefore, isDelimiter, Json.isBlank]
  | cons b behind => rfl

/-- A line feed at the end changes no scan, unless a value is truncated
there. -/
theorem head_feed {found : Head} (h : head first rest = found)
    (hfound : found ≠ .unfinished) :
    head first (rest ++ [0x0A]) = found := by
  subst h
  unfold head at hfound ⊢
  cases hrun : Json.Skip.run .start 0 (first :: rest) with
  | error fault =>
      rw [hrun] at hfound
      have hcause : fault.cause.isEnd = false := by
        cases hend : fault.cause.isEnd with
        | false => rfl
        | true => simp [hend] at hfound
      obtain ⟨fault', hrun', hcause'⟩ := Json.Skip.run_feed_error hrun hcause
      rw [List.cons_append] at hrun'
      simp [hrun', hcause, hcause']
  | ok walked =>
      obtain ⟨n, behind⟩ := walked
      have hrun' := Json.Skip.run_feed hrun
      have hn : n ≤ (first :: rest).length := by
        obtain ⟨-, -, hlength⟩ := Json.Skip.run_count hrun
        omega
      rw [List.cons_append] at hrun'
      rw [hrun']
      simp only [endsBefore_feed, ← List.cons_append,
        List.take_append_of_le_length hn]

/-- A value is within the text. -/
theorem head_value_le {n : Nat} (h : head first rest = .value n) :
    n ≤ (first :: rest).length := by
  unfold head at h
  split at h
  · split at h <;> simp at h
  · next hrun =>
      obtain ⟨-, -, hlength⟩ := Json.Skip.run_count hrun
      split at h
      · obtain rfl := Head.value.inj h
        omega
      · simp at h

/-- A decoded line ends with a line feed, behind which decoding continues. -/
theorem decode_line_split (hfirst : isSeparator first = false)
    (hhead : head first rest = .unstructured) {frame left : Bytes}
    (h : decode limit (first :: rest) = (.frame frame, left)) :
    ∃ line, frame = first :: line ∧ rest = line ++ 0x0A :: left := by
  have hfeed : first ≠ 0x0A := by
    rintro rfl
    exact absurd hfirst (by decide)
  have hstart : (first :: rest).takeWhile (· ≠ 0x0A) =
      first :: rest.takeWhile (· ≠ 0x0A) :=
    List.takeWhile_cons_of_pos (by simpa using hfeed)
  have hsplit := line_split (first :: rest)
  simp only [decode, skipSeparators_of_first hfirst, hhead] at h
  split at h
  · simp at h
  · split at h
    · simp at h
    · next b behind hbehind =>
        obtain ⟨hframe, rfl⟩ := Prod.mk.inj h
        obtain rfl := Decoded.frame.inj hframe
        obtain rfl := line_end hbehind
        rw [hbehind, hstart, List.cons_append] at hsplit
        exact ⟨_, hstart, (List.cons.inj hsplit).2.symm⟩

/-- A frame is found in front of the line feed as well. -/
theorem decode_first_feed (hfirst : isSeparator first = false)
    {frame left : Bytes}
    (h : decode limit (first :: rest) = (.frame frame, left)) :
    decode limit (first :: (rest ++ [0x0A])) =
      (.frame frame, left ++ [0x0A]) := by
  cases hhead : head first rest with
  | value n =>
      have hhead' := head_feed hhead (by simp)
      have hn := head_value_le hhead
      simp only [decode, skipSeparators_of_first hfirst, hhead] at h
      split at h
      · simp at h
      · next hfit =>
          rw [decode_value hfirst hhead' (Nat.not_lt.mp hfit),
            ← List.cons_append, List.take_append_of_le_length hn,
              List.drop_append_of_le_length hn]
          obtain ⟨hframe, rfl⟩ := Prod.mk.inj h
          rw [hframe]
  | unfinished =>
      simp only [decode, skipSeparators_of_first hfirst, hhead] at h
      split at h <;> simp at h
  | unstructured =>
      -- the line ended before, so the line feed does not end it
      obtain ⟨line, rfl, rfl⟩ := decode_line_split hfirst hhead h
      have hup :=
        ((decode_unstructured (skipSeparators_of_first hfirst _) hhead).1 left
          h).1
      have hhead' := head_feed hhead (by simp)
      rw [List.append_assoc, List.cons_append] at hhead' ⊢
      exact decode_complete_line hfirst hup.oneLine hup.fits hhead'

theorem decode_feed {frame left : Bytes}
    (h : decode limit buffer = (.frame frame, left)) :
    decode limit (buffer ++ [0x0A]) = (.frame frame, left ++ [0x0A]) := by
  obtain ⟨gap, hgap, hbuffer⟩ := skipSeparators_gap buffer
  rw [hbuffer, decode_append hgap] at h
  rw [hbuffer, List.append_assoc, decode_append hgap]
  cases hskip : skipSeparators buffer with
  | nil => simp [hskip, decode_separators] at h
  | cons first rest =>
      rw [hskip] at h
      exact decode_first_feed (skipSeparators_cons hskip) h

end Look

section Stream

variable {limit : Nat}

theorem drainEnd_nil (limit : Nat) : drainEnd limit [] = ⟨[], none, []⟩ :=
  (loop_drainEnd limit []).unique (.wait rfl)

/-- At the end of the stream nothing is left, or a line, or a truncated
value. -/
theorem drainEnd_waiting {left : Bytes}
    (h : decode limit left = (.wait, left)) :
    left = [] ∧ drainEnd limit left = ⟨[], none, []⟩ ∨
      (∃ first rest, left = first :: rest ∧ head first rest = .unstructured) ∧
        drainEnd limit left = ⟨[left], none, []⟩ ∨
      drainEnd limit left = ⟨[], some .truncated, left⟩ := by
  cases left with
  | nil => exact .inl ⟨rfl, drainEnd_nil limit⟩
  | cons first rest =>
      right
      by_cases hhead : head first rest = .unstructured
      · refine .inl ⟨⟨first, rest, rfl, hhead⟩, ?_⟩
        have hframe :
            decodeEnd limit (first :: rest) = (.frame (first :: rest), []) := by
          simp only [decodeEnd, h, hhead]
        exact (loop_drainEnd limit _).unique (.frame hframe (.wait rfl))
      · have hfault : decodeEnd limit (first :: rest) =
            (.fault .truncated, first :: rest) := by
          simp only [decodeEnd, h]
        exact .inr ((loop_drainEnd limit _).unique (.fault hfault))

/-- What is returned at the end of the stream is also returned when a line feed
follows. -/
theorem drain_waiting_feed {left : Bytes}
    (h : decode limit left = (.wait, left))
    (hend : (drainEnd limit left).error = none) :
    drain limit (left ++ [0x0A]) =
      ⟨(drainEnd limit left).frames, none, []⟩ := by
  rcases drainEnd_waiting h
    with ⟨rfl, hall⟩ | ⟨⟨first, rest, rfl, hhead⟩, hall⟩ | hall
  · rw [hall]
    exact drain_separators blank_feed
  · have hskip := (decode_wait_left h).symm
    have hfirst := skipSeparators_cons hskip
    obtain ⟨-, hline⟩ := (@decode_unstructured _ _ [] _ _ hskip hhead).2 _ h
    have hframe :
        decode limit (first :: rest ++ [0x0A]) = (.frame (first :: rest), []) :=
      decode_complete_line hfirst hline.oneLine hline.fits
        (head_feed hhead (by simp))
    rw [hall, drain_frame hframe, drain_wait rfl]
  · rw [hall] at hend
    simp at hend

/-- A text that is read to its end is read the same way with a line feed behind
it, and then nothing is left. -/
theorem drain_feed {buffer : Bytes} (h : (drain limit buffer).error = none)
    (hend : (drainEnd limit (drain limit buffer).left).error = none) :
    drain limit (buffer ++ [0x0A]) =
      ⟨(drain limit buffer).frames ++
        (drainEnd limit (drain limit buffer).left).frames, none, []⟩ := by
  fun_induction drain limit buffer with
  | case1 buffer frame left hdecode _ more ih =>
      -- the line feed stays behind whatever is left
      rw [drain_frame (decode_feed hdecode), ih h hend, List.cons_append]
  | case2 buffer left hdecode =>
      obtain ⟨gap, hgap, hbuffer⟩ := skipSeparators_gap buffer
      rw [← decode_wait_left hdecode] at hbuffer
      rw [hbuffer, List.append_assoc, drain_append hgap, List.nil_append]
      exact drain_waiting_feed (decode_of_wait hdecode) hend
  | case3 buffer error left hdecode => simp at h

/-- Decoding a stream in pieces to its end. -/
def readAll (limit : Nat) (pieces : List Bytes) : Fed :=
  let fed := feed limit [] pieces
  let last := drainEnd limit fed.left
  ⟨fed.frames ++ last.frames, fed.errors ++ last.error.toList, last.left⟩

/-- The pieces before the last, then the last piece and the end. -/
theorem readAll_append (limit : Nat) (pieces : List Bytes) (last : Bytes) :
    readAll limit (pieces ++ [last]) =
      let fed := feed limit [] pieces
      let next := drain limit (fed.left ++ last)
      let final := drainEnd limit next.left
      ⟨fed.frames ++ next.frames ++ final.frames,
        fed.errors ++ next.error.toList ++ final.error.toList, final.left⟩ := by
  simp only [readAll, feed_append, feed, List.append_nil]

/-- A stream that is read to its end without an error, in any pieces, gives the
same frames and no error with one more line feed, whether that arrives with the
last piece or by itself; and then no byte is left. -/
theorem final_line_feed_optional (limit : Nat) (pieces : List Bytes)
    (last : Bytes) (h : (readAll limit (pieces ++ [last])).errors = []) :
    readAll limit (pieces ++ [last ++ [0x0A]]) =
        ⟨(readAll limit (pieces ++ [last])).frames, [], []⟩ ∧
      readAll limit (pieces ++ [last, [0x0A]]) =
        ⟨(readAll limit (pieces ++ [last])).frames, [], []⟩ := by
  rw [readAll_append limit pieces last] at h ⊢
  simp only [List.append_eq_nil_iff, Option.toList_eq_nil_iff] at h ⊢
  obtain ⟨⟨hfed, hnext⟩, hend⟩ := h
  -- in both cases all frames were decoded before the end
  constructor
  · have hline := drain_feed hnext hend
    rw [List.append_assoc] at hline
    simp [readAll_append, hline, drainEnd_nil, hfed]
  · have hline := drain_waiting_feed (decode_drain_left hnext) hend
    rw [List.append_cons, readAll_append, feed_append]
    simp [feed, hline, drainEnd_nil, hfed, hnext]

/-- A list, a line, and a sign on a line without an end. -/
def sampleUnended : Bytes := Utf8.ofString "[1] x\n-"

/-- The sign is decoded as a line at the end of the stream, and so it is in
front of a line feed. -/
theorem sampleUnended_read :
    (readAll 3 ([] ++ [sampleUnended])).errors = [] ∧
      readAll 3 [sampleUnended ++ [0x0A]] =
        ⟨[Utf8.ofString "[1]", Utf8.ofString "x", Utf8.ofString "-"],
          [], []⟩ := by
  have herrors : (readAll 3 ([] ++ [sampleUnended])).errors = [] := by
    decide +kernel
  have hframes : (readAll 3 ([] ++ [sampleUnended])).frames =
      [Utf8.ofString "[1]", Utf8.ofString "x", Utf8.ofString "-"] := by
    decide +kernel
  refine ⟨herrors, ?_⟩
  rw [← hframes]
  exact (final_line_feed_optional 3 [] sampleUnended herrors).1

end Stream
end Frame
end ChatRelay
