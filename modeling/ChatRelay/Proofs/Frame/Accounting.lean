import Mathlib.Data.List.TakeWhile
import ChatRelay.Proofs.Frame.Feed
/-!
# Accounting for every byte

At any time, the input of a decoder consists of the frames that it returned, the
separators around them and the bytes in its buffer. Every frame is non-empty and
within the limit, decoding until no frame is found terminates, and an error
consumes separators only, so it is returned again.
-/

namespace ChatRelay.Frame

/-- Bytes that separate frames. -/
def Blank (bytes : Bytes) : Prop := ∀ b ∈ bytes, isSeparator b = true

theorem blank_nil : Blank [] := fun _ h => absurd h List.not_mem_nil

theorem Blank.append {bytes more : Bytes} (hbytes : Blank bytes)
    (hmore : Blank more) :
    Blank (bytes ++ more) := by
  intro b hb
  rcases List.mem_append.mp hb with h | h
  · exact hbytes b h
  · exact hmore b h

theorem blank_feed : Blank [0x0A] := by
  intro b hb
  rw [List.mem_singleton.mp hb]
  rfl

/-- The skipped bytes are separators. -/
theorem skipSeparators_gap (buffer : Bytes) :
    ∃ gap, Blank gap ∧ buffer = gap ++ skipSeparators buffer := by
  induction buffer with
  | nil => exact ⟨[], blank_nil, rfl⟩
  | cons b rest ih =>
      by_cases hb : isSeparator b = true
      · obtain ⟨gap, hgap, hrest⟩ := ih
        refine ⟨b :: gap, ?_, ?_⟩
        · intro c hc
          rcases List.mem_cons.mp hc with rfl | hc
          · exact hb
          · exact hgap c hc
        · rw [skipSeparators, if_pos hb, List.cons_append, ← hrest]
      · refine ⟨[], blank_nil, ?_⟩
        rw [skipSeparators, if_neg hb, List.nil_append]

/-- The effect of one call on a buffer: it takes a frame with the separators
around it, or only the separators in front. -/
inductive Extraction (limit : Nat) (buffer : Bytes) : Decoded × Bytes → Prop
  | frame {gap frame ending left : Bytes} (hgap : Blank gap)
      (hending : Blank ending)
      (hbuffer : buffer = gap ++ frame ++ (ending ++ left))
      (hpos : 1 ≤ frame.length) (hfit : frame.length ≤ limit) :
    Extraction limit buffer (.frame frame, left)
  | wait (hfit : (skipSeparators buffer).length ≤ limit) :
      Extraction limit buffer (.wait, skipSeparators buffer)
  | fault (error : FrameError) :
    Extraction limit buffer (.fault error, skipSeparators buffer)

theorem Extraction.wait_fit {limit : Nat} {buffer left : Bytes}
    {result : Decoded × Bytes} (h : Extraction limit buffer result)
    (hresult : result = (.wait, left)) :
    (skipSeparators buffer).length ≤ limit := by
  cases h with
  | wait hfit => exact hfit
  | frame => simp at hresult
  | fault => simp at hresult

/-- A line and the bytes behind it. -/
theorem line_split (text : Bytes) :
    text.takeWhile (· ≠ 0x0A) ++ text.drop (text.takeWhile (· ≠ 0x0A)).length =
      text := by
  obtain ⟨behind, htext⟩ : text.takeWhile (· ≠ 0x0A) <+: text :=
    List.takeWhile_prefix _
  generalize text.takeWhile (· ≠ 0x0A) = line at htext ⊢
  rw [← htext, List.drop_left]

theorem not_mem_line (text : Bytes) : 0x0A ∉ text.takeWhile (· ≠ 0x0A) := by
  intro hmem
  simpa using List.mem_takeWhile_imp hmem

theorem line_end {text behind : Bytes} {b : UInt8}
    (h : text.drop (text.takeWhile (· ≠ 0x0A)).length = b :: behind) :
    b = 0x0A := by
  induction text with
  | nil => simp at h
  | cons c text ih =>
      by_cases hc : c = 0x0A
      · rw [List.takeWhile_cons_of_neg (by simpa using hc)] at h
        obtain ⟨rfl, -⟩ := List.cons.inj h
        exact hc
      · rw [List.takeWhile_cons_of_pos (by simpa using hc), List.length_cons,
          List.drop_succ_cons] at h
        exact ih h

theorem look_decode (limit : Nat) (buffer : Bytes) :
    Extraction limit buffer (decode limit buffer) := by
  obtain ⟨gap, hgap, hbuffer⟩ := skipSeparators_gap buffer
  unfold decode
  split
  · next hskip =>
      rw [← hskip]
      exact .wait (by simp [hskip])
  · next first rest hskip =>
      have hfault (error : FrameError) :
          Extraction limit buffer (.fault error, first :: rest) :=
        hskip ▸ .fault error
      have hwait (hfit : (first :: rest).length ≤ limit) :
          Extraction limit buffer (.wait, first :: rest) :=
        hskip ▸ .wait (hskip.symm ▸ hfit)
      rw [hskip] at hbuffer
      simp only
      split
      · next length hhead =>
          split
          · exact hfault _
          · next hfit =>
              refine .frame hgap blank_nil ?_ ?_ ?_
              · rw [List.nil_append, List.append_assoc, List.take_append_drop]
                exact hbuffer
              · have hpos := head_value_pos hhead
                simp only [List.length_take, List.length_cons]
                omega
              · simp only [List.length_take]
                omega
      · split
        · exact hfault _
        · next hfit => exact hwait (by omega)
      · have hfirst : first ≠ 0x0A := by
          rintro rfl
          exact absurd (skipSeparators_cons hskip) (by decide)
        have hline := line_split (first :: rest)
        split
        · exact hfault _
        · next hfit =>
            split
            · next hend =>
                rw [hend, List.append_nil] at hline
                exact hwait (by rw [← hline]; omega)
            · next b behind hbehind =>
                obtain rfl := line_end hbehind
                rw [hbehind] at hline
                refine .frame hgap blank_feed ?_ ?_ (by omega)
                · rw [List.append_assoc, List.singleton_append, hline]
                  exact hbuffer
                · rw [List.takeWhile_cons_of_pos (by simpa using hfirst),
                    List.length_cons]
                  omega

theorem look_decodeEnd (limit : Nat) (buffer : Bytes) :
    Extraction limit buffer (decodeEnd limit buffer) := by
  have hlook := look_decode limit buffer
  unfold decodeEnd
  split
  · next first rest hdecode =>
      obtain ⟨gap, hgap, hbuffer⟩ := skipSeparators_gap buffer
      have hfit := hlook.wait_fit hdecode
      rw [← decode_wait_left hdecode] at hbuffer hfit
      split
      · refine .frame hgap blank_nil ?_ (by simp) hfit
        rw [List.append_nil, List.append_nil]
        exact hbuffer
      · exact decode_wait_left hdecode ▸ .fault .truncated
  · next hdecode => rwa [hdecode] at hlook
  · exact hlook

/-- A decoding function whose result depends only on the buffer behind its
separators. -/
structure Extractor (limit : Nat) (call : Bytes → Decoded × Bytes) : Prop where
  look : ∀ buffer, Extraction limit buffer (call buffer)
  congr : ∀ {buffer buffer' : Bytes},
    skipSeparators buffer = skipSeparators buffer' →
    call buffer = call buffer'

theorem looks_decode (limit : Nat) : Extractor limit (decode limit) :=
  ⟨look_decode limit, decode_congr⟩

theorem looks_decodeEnd (limit : Nat) : Extractor limit (decodeEnd limit) := by
  refine ⟨look_decodeEnd limit, fun h => ?_⟩
  unfold decodeEnd
  rw [decode_congr h]

section Call

variable {limit : Nat} {call : Bytes → Decoded × Bytes} {buffer left : Bytes}

/-- An error consumes separators only. -/
theorem Extractor.fault_gap (h : Extractor limit call) {error : FrameError}
    (hcall : call buffer = (.fault error, left)) :
    ∃ gap, Blank gap ∧ buffer = gap ++ left := by
  have hlook := h.look buffer
  rw [hcall] at hlook
  cases hlook with
  | fault => exact skipSeparators_gap buffer

/-- An error is returned again. -/
theorem Extractor.fault_again (h : Extractor limit call) {error : FrameError}
    (hcall : call buffer = (.fault error, left)) :
    call left = (.fault error, left) := by
  have hlook := h.look buffer
  rw [hcall] at hlook
  cases hlook with
  | fault =>
      rw [← hcall]
      exact h.congr (skipSeparators_idem buffer)

end Call

/-- Calls until no frame is found: one for each frame and a last one. -/
inductive Loop (call : Bytes → Decoded × Bytes) : Bytes → Drained → Prop
  | wait {buffer left : Bytes} (h : call buffer = (.wait, left)) :
    Loop call buffer ⟨[], none, left⟩
  | fault {buffer left : Bytes} {error : FrameError}
      (h : call buffer = (.fault error, left)) :
      Loop call buffer ⟨[], some error, left⟩
  | frame {buffer left frame : Bytes} {more : Drained}
      (h : call buffer = (.frame frame, left))
      (hmore : Loop call left more) :
    Loop call buffer { more with frames := frame :: more.frames }

theorem loop_drain (limit : Nat) (buffer : Bytes) :
    Loop (decode limit) buffer (drain limit buffer) := by
  fun_induction drain limit buffer with
  | case1 buffer frame left hdecode _ more ih => exact .frame hdecode ih
  | case2 buffer left hdecode => exact .wait hdecode
  | case3 buffer error left hdecode => exact .fault hdecode

theorem loop_drainEnd (limit : Nat) (buffer : Bytes) :
    Loop (decodeEnd limit) buffer (drainEnd limit buffer) := by
  fun_induction drainEnd limit buffer with
  | case1 buffer frame left hdecode _ more ih => exact .frame hdecode ih
  | case2 buffer left hdecode => exact .wait hdecode
  | case3 buffer error left hdecode => exact .fault hdecode

/-- The outcome is unique. -/
theorem Loop.unique {call : Bytes → Decoded × Bytes} {buffer : Bytes}
    {result result' : Drained} (h : Loop call buffer result)
    (h' : Loop call buffer result') : result = result' := by
  induction h generalizing result' with
  | wait hwait => cases h' <;> simp_all
  | fault hfault => cases h' <;> simp_all
  | frame hframe _ ih =>
      cases h' with
      | wait hwait => simp [hframe] at hwait
      | fault hfault => simp [hframe] at hfault
      | frame hframe' hmore' =>
          rw [hframe] at hframe'
          simp only [Prod.mk.injEq, Decoded.frame.injEq] at hframe'
          obtain ⟨rfl, rfl⟩ := hframe'
          rw [ih hmore']

/-- There are no more frames than bytes. -/
theorem Loop.length_le {limit : Nat} {call : Bytes → Decoded × Bytes}
    (hcall : Extractor limit call) {buffer : Bytes} {result : Drained}
    (h : Loop call buffer result) :
    result.frames.length ≤ buffer.length := by
  induction h with
  | wait => simp
  | fault => simp
  | @frame buffer left frame more hframe _ ih =>
      have hlook := hcall.look buffer
      rw [hframe] at hlook
      cases hlook with
      | frame _ _ hbuffer hpos =>
          rw [hbuffer]
          simp only [List.length_cons, List.length_append] at hpos ih ⊢
          omega

/-- The input of a decoder, its frames, and its buffer. -/
structure Reading where
  came : Bytes := []
  frames : List Bytes := []
  buffer : Bytes := []
  deriving DecidableEq

inductive Move where
  /-- Bytes are appended to the buffer. -/
  | bytes (piece : Bytes)
  | look
  /-- A frame is decoded at the end of the input. -/
  | lookEnd

namespace Reading

/-- Record the result of a call. -/
def take (r : Reading) : Decoded × Bytes → Reading
  | (.frame frame, left) =>
    { r with frames := r.frames ++ [frame], buffer := left }
  | (_, left) => { r with buffer := left }

def move (limit : Nat) (r : Reading) : Move → Reading
  | .bytes piece =>
    { r with came := r.came ++ piece, buffer := r.buffer ++ piece }
  | .look => r.take (decode limit r.buffer)
  | .lookEnd => r.take (decodeEnd limit r.buffer)

def run (limit : Nat) (r : Reading) (moves : List Move) : Reading :=
  moves.foldl (move limit) r

end Reading

/-- The bytes of frames, each with its separators in front. -/
def spread (parts : List (Bytes × Bytes)) : Bytes :=
  parts.flatMap fun part => part.1 ++ part.2

/-- The input is the frames with separators between and around them, followed by
the buffer. -/
structure Reading.Accounted (limit : Nat) (r : Reading) : Prop where
  came : ∃ parts gap, parts.map Prod.snd = r.frames ∧
    (∀ part ∈ parts, Blank part.1) ∧
    Blank gap ∧ r.came = spread parts ++ gap ++ r.buffer
  sized : ∀ frame ∈ r.frames, 1 ≤ frame.length ∧ frame.length ≤ limit

namespace Reading

variable {limit : Nat} {r : Reading}

theorem Accounted.skip (h : r.Accounted limit) :
    Accounted limit { r with buffer := skipSeparators r.buffer } := by
  obtain ⟨parts, gap, hframes, hblank, hgap, hcame⟩ := h.came
  obtain ⟨more, hmore, hbuffer⟩ := skipSeparators_gap r.buffer
  refine ⟨⟨parts, gap ++ more, hframes, hblank, hgap.append hmore, ?_⟩, h.sized⟩
  rw [List.append_assoc, List.append_assoc, ← hbuffer, ← List.append_assoc]
  exact hcame

theorem Accounted.take (h : r.Accounted limit) {result : Decoded × Bytes}
    (hlook : Extraction limit r.buffer result) :
    (r.take result).Accounted limit := by
  cases hlook with
  | wait => exact h.skip
  | fault => exact h.skip
  | @frame front frame ending left hfront hending hbuffer hpos hfit =>
      obtain ⟨parts, gap, hframes, hblank, hgap, hcame⟩ := h.came
      refine
        ⟨⟨parts ++ [(gap ++ front, frame)], ending, ?_, ?_, hending, ?_⟩, ?_⟩
      · rw [List.map_append, hframes]
        rfl
      · intro part hpart
        rcases List.mem_append.mp hpart with hold | hnew
        · exact hblank part hold
        · rw [List.mem_singleton.mp hnew]
          exact hgap.append hfront
      · change r.came = _
        rw [hcame, hbuffer]
        simp [spread, Reading.take]
      · intro text htext
        rcases List.mem_append.mp htext with hold | hnew
        · exact h.sized text hold
        · rw [List.mem_singleton.mp hnew]
          exact ⟨hpos, hfit⟩

theorem Accounted.move (h : r.Accounted limit) (m : Move) :
    (r.move limit m).Accounted limit := by
  cases m with
  | bytes piece =>
      obtain ⟨parts, gap, hframes, hblank, hgap, hcame⟩ := h.came
      refine ⟨⟨parts, gap, hframes, hblank, hgap, ?_⟩, h.sized⟩
      change r.came ++ piece = _
      rw [hcame, List.append_assoc]
      rfl
  | look => exact h.take (look_decode limit r.buffer)
  | lookEnd => exact h.take (look_decodeEnd limit r.buffer)

theorem Accounted.run (h : r.Accounted limit) (moves : List Move) :
    (r.run limit moves).Accounted limit := by
  induction moves generalizing r with
  | nil => exact h
  | cons m moves ih => exact ih (h.move m)

theorem accounted_start (limit : Nat) : Accounted limit {} :=
  ⟨⟨[], [], rfl, by simp, blank_nil, rfl⟩, by simp⟩

theorem run_append (r : Reading) (moves more : List Move) :
    r.run limit (moves ++ more) = (r.run limit moves).run limit more :=
  List.foldl_append

/-- A loop consists of one call for each frame and one more. -/
theorem run_loop {call : Bytes → Decoded × Bytes} {m : Move}
    (hmove : ∀ r : Reading, r.move limit m = r.take (call r.buffer))
    {result : Drained} (h : Loop call r.buffer result) :
    r.run limit (List.replicate (result.frames.length + 1) m) =
      ⟨r.came, r.frames ++ result.frames, result.left⟩ := by
  generalize hbuffer : r.buffer = buffer at h
  induction h generalizing r with
  | wait hwait =>
      change r.move limit m = _
      rw [hmove, hbuffer, hwait, List.append_nil]
      rfl
  | fault hfault =>
      change r.move limit m = _
      rw [hmove, hbuffer, hfault, List.append_nil]
      rfl
  | @frame buffer left frame more hframe _ ih =>
      change (r.move limit m).run limit
        (List.replicate (more.frames.length + 1) m) = _
      rw [hmove, hbuffer, hframe, ih rfl]
      simp [Reading.take]

end Reading

/-- The reads of a stream: after each piece, frames are decoded until none is
found; after the last, the rest is decoded as the end of the input. -/
def schedule (limit : Nat) (buffer : Bytes) : List Bytes → List Move
  | [] => List.replicate ((drainEnd limit buffer).frames.length + 1) .lookEnd
  | piece :: pieces =>
    let first := drain limit (buffer ++ piece)
    .bytes piece :: List.replicate (first.frames.length + 1) .look ++
      schedule limit first.left pieces

theorem run_schedule (limit : Nat) (r : Reading) (pieces : List Bytes) :
    let fed := feed limit r.buffer pieces
    let last := drainEnd limit fed.left
    r.run limit (schedule limit r.buffer pieces) =
      ⟨r.came ++ pieces.flatten, r.frames ++ (fed.frames ++ last.frames),
        last.left⟩ := by
  induction pieces generalizing r with
  | nil =>
      rw [schedule, Reading.run_loop (fun _ => rfl)
        (loop_drainEnd limit r.buffer)]
      simp [feed]
  | cons piece pieces ih =>
      have hlook :=
        Reading.run_loop (m := .look) (r := r.move limit (.bytes piece))
          (fun _ => rfl) (loop_drain limit (r.buffer ++ piece))
      have hmore :=
        ih ⟨r.came ++ piece,
          r.frames ++ (drain limit (r.buffer ++ piece)).frames,
            (drain limit (r.buffer ++ piece)).left⟩
      rw [schedule, List.cons_append]
      change (r.move limit (.bytes piece)).run limit _ = _
      rw [Reading.run_append, hlook]
      refine hmore.trans ?_
      simp [feed]

/-- For every use of a decoder, the input is accounted for by the frames, the
separators and the buffer, and every frame has at least one byte and at most
`limit`. This covers reading a stream in pieces to its end. Each decoding loop
terminates after no more frames than there were bytes. An error consumes
separators only and is returned again for the same buffer. -/
theorem bytes_accounted (limit : Nat) :
    (∀ moves, (Reading.run limit {} moves).Accounted limit) ∧
    (∀ pieces, Reading.run limit {} (schedule limit [] pieces) =
      let fed := feed limit [] pieces
      let last := drainEnd limit fed.left
      ⟨pieces.flatten, fed.frames ++ last.frames, last.left⟩) ∧
    (∀ buffer,
      Loop (decode limit) buffer (drain limit buffer) ∧
      (drain limit buffer).frames.length ≤ buffer.length ∧
      Loop (decodeEnd limit) buffer (drainEnd limit buffer) ∧
      (drainEnd limit buffer).frames.length ≤ buffer.length) ∧
    ∀ call, call = decode limit ∨ call = decodeEnd limit →
      ∀ buffer error left, call buffer = (.fault error, left) →
        (∃ gap, Blank gap ∧ buffer = gap ++ left) ∧
        call left = (.fault error, left) := by
  refine ⟨fun moves => (Reading.accounted_start limit).run moves,
    fun pieces => ?_, fun buffer => ?_,
      fun call hcall buffer error left hfault => ?_⟩
  · simpa using run_schedule limit {} pieces
  · exact ⟨loop_drain limit buffer, (loop_drain limit buffer).length_le
      (looks_decode limit), loop_drainEnd limit buffer,
        (loop_drainEnd limit buffer).length_le (looks_decodeEnd limit)⟩
  · have hlooks : Extractor limit call := by
      rcases hcall with rfl | rfl
      · exact looks_decode limit
      · exact looks_decodeEnd limit
    exact ⟨hlooks.fault_gap hfault, hlooks.fault_again hfault⟩

/-- A value, a line in two pieces, a number, a line that is too long and the
start of a list. -/
def sampleMoves : List Move := [
  .bytes (Utf8.ofString " \x7b\"a\":1\x7d\n x"), .look, .look,
  .bytes (Utf8.ofString "y\n12 \"123456789\""), .look, .look, .look, .look]

theorem sampleMoves_accounted :
    let last := Reading.run 8 {} sampleMoves
    let long := Utf8.ofString "\"123456789\""
    last.frames = [Utf8.ofString "\x7b\"a\":1\x7d", Utf8.ofString "xy",
      Utf8.ofString "12"] ∧
      last.buffer = long ∧ last.Accounted 8 ∧
      decode 8 (0x20 :: long) = (.fault (.tooLarge 11 8), long) ∧
      decode 8 long = (.fault (.tooLarge 11 8), long) := by
  have hframes : (Reading.run 8 {} sampleMoves).frames =
      [Utf8.ofString "\x7b\"a\":1\x7d", Utf8.ofString "xy",
        Utf8.ofString "12"] := by
    decide +kernel
  have hbuffer : (Reading.run 8 {} sampleMoves).buffer =
      Utf8.ofString "\"123456789\"" := by
    decide +kernel
  have hfault : decode 8 (0x20 :: Utf8.ofString "\"123456789\"") =
      (.fault (.tooLarge 11 8), Utf8.ofString "\"123456789\"") := by
    decide +kernel
  obtain ⟨haccounted, -, -, hagain⟩ := bytes_accounted 8
  exact ⟨hframes, hbuffer, haccounted sampleMoves, hfault,
    (hagain (decode 8) (.inl rfl) _ _ _ hfault).2⟩

end ChatRelay.Frame
