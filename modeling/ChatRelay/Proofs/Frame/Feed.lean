import ChatRelay.Frame.Codec
/-!
# Feeding a stream in pieces

A stream arrives in pieces of any length, and after each piece frames are
decoded until none is found. A text that is sent with a line feed is decoded as
that text, for all cuts of the stream, if the decoder waits on every part of it
and returns the whole of it.
-/

namespace ChatRelay.Frame

/-- The result of a stream: its frames, its errors, and the bytes left in the
buffer. -/
structure Fed where
  frames : List Bytes
  errors : List FrameError
  left : Bytes
  deriving DecidableEq, Repr

/-- Decode frames after each piece of a stream, starting with a buffer. -/
def feed (limit : Nat) (buffer : Bytes) : List Bytes → Fed
  | [] => ⟨[], [], buffer⟩
  | piece :: pieces =>
    let first := drain limit (buffer ++ piece)
    let more := feed limit first.left pieces
    ⟨first.frames ++ more.frames, first.error.toList ++ more.errors, more.left⟩

theorem feed_append {limit : Nat} (buffer : Bytes) (pieces more : List Bytes) :
    feed limit buffer (pieces ++ more) =
      let fed := feed limit buffer pieces
      let next := feed limit fed.left more
      ⟨fed.frames ++ next.frames, fed.errors ++ next.errors, next.left⟩ := by
  induction pieces generalizing buffer with
  | nil => rfl
  | cons piece pieces ih =>
      rw [List.cons_append]
      simp only [feed, ih, List.append_assoc]

/-- The bytes of frames as they are written. -/
def writeAll (limit : Nat) : List Bytes → Except FrameError Bytes
  | [] => .ok []
  | text :: texts => do
    let line ← encode limit text
    let more ← writeAll limit texts
    return line ++ more

/-- Texts, each followed by a line feed. -/
def lines (texts : List Bytes) : Bytes :=
  texts.flatMap fun text => text ++ [0x0A]

theorem lines_nil : lines [] = [] := rfl

theorem lines_cons (text : Bytes) (texts : List Bytes) :
    lines (text :: texts) = text ++ 0x0A :: lines texts := by
  simp [lines]

theorem lines_singleton (text : Bytes) : lines [text] = text ++ [0x0A] :=
  lines_cons text []

theorem lines_append (texts more : List Bytes) :
    lines (texts ++ more) = lines texts ++ lines more :=
  List.flatMap_append

theorem writeAll_eq_lines {limit : Nat} {texts : List Bytes}
    (hfit : ∀ text ∈ texts, text.length ≤ limit) :
    writeAll limit texts = .ok (lines texts) := by
  induction texts with
  | nil => rfl
  | cons text texts ih =>
      have htext : encode limit text = .ok (text ++ [0x0A]) :=
        if_neg (Nat.not_lt.mpr (hfit text List.mem_cons_self))
      rw [writeAll, htext, ih fun t ht => hfit t (List.mem_cons_of_mem text ht),
        lines_cons]
      simp [bind, Except.bind, pure, Except.pure]

/-- The complete lines of a stream behind the start of a line. -/
def linesBehind (line : Bytes) : Bytes → List Bytes
  | [] => []
  | b :: rest =>
    if b = 0x0A then line :: linesBehind [] rest
    else linesBehind (line ++ [b]) rest

/-- The complete lines of a stream. -/
def wholeLines (bytes : Bytes) : List Bytes := linesBehind [] bytes

theorem linesBehind_text {text : Bytes} (htext : 0x0A ∉ text)
    (line rest : Bytes) :
    linesBehind line (text ++ rest) = linesBehind (line ++ text) rest := by
  induction text generalizing line with
  | nil => rw [List.nil_append, List.append_nil]
  | cons b text ih =>
      have hb : b ≠ 0x0A := fun hb => htext (hb ▸ List.mem_cons_self)
      rw [List.cons_append, linesBehind, if_neg hb,
        ih (fun hmem => htext (List.mem_cons_of_mem b hmem)), List.append_assoc,
        List.singleton_append]

theorem wholeLines_text {text : Bytes} (htext : 0x0A ∉ text) :
    wholeLines text = [] := by
  have hall := linesBehind_text htext [] []
  rwa [List.append_nil] at hall

theorem wholeLines_line {text : Bytes} (htext : 0x0A ∉ text) (rest : Bytes) :
    wholeLines (text ++ 0x0A :: rest) = text :: wholeLines rest := by
  rw [wholeLines, linesBehind_text htext, List.nil_append, linesBehind,
    if_pos rfl, wholeLines]

/-- The complete lines are the first of the lines that are sent. -/
theorem wholeLines_prefix {texts : List Bytes}
    (htexts : ∀ text ∈ texts, 0x0A ∉ text) {part : Bytes}
    (hpart : part <+: lines texts) : wholeLines part <+: texts := by
  induction texts generalizing part with
  | nil =>
      obtain rfl : part = [] := List.prefix_nil.mp hpart
      exact List.nil_prefix
  | cons text texts ih =>
      have htext := htexts text List.mem_cons_self
      obtain ⟨rest, hrest⟩ := hpart
      rw [lines_cons] at hrest
      rcases List.append_eq_append_iff.mp hrest
        with ⟨missing, rfl, -⟩ | ⟨behind, rfl, hbehind⟩
      · rw [wholeLines_text
          fun hmem => htext (List.mem_append_left missing hmem)]
        exact List.nil_prefix
      · cases behind with
        | nil =>
            rw [List.append_nil, wholeLines_text htext]
            exact List.nil_prefix
        | cons b behind =>
            obtain ⟨rfl, hmore⟩ := List.cons.inj hbehind
            rw [wholeLines_line htext]
            apply (List.prefix_append_right_inj [text]).mpr
            apply ih fun t ht => htexts t (List.mem_cons_of_mem text ht)
            exact ⟨rest, hmore.symm⟩

/-- Lines that were sent with their line feeds are complete. -/
theorem prefix_wholeLines {texts : List Bytes}
    (htexts : ∀ text ∈ texts, 0x0A ∉ text) {bytes : Bytes}
    (hbytes : lines texts <+: bytes) : texts <+: wholeLines bytes := by
  obtain ⟨rest, rfl⟩ := hbytes
  induction texts with
  | nil => exact List.nil_prefix
  | cons text texts ih =>
      rw [lines_cons, List.append_assoc, List.cons_append,
        wholeLines_line (htexts text List.mem_cons_self)]
      apply (List.prefix_append_right_inj [text]).mpr
      exact ih fun t ht => htexts t (List.mem_cons_of_mem text ht)

theorem wholeLines_lines {texts : List Bytes}
    (htexts : ∀ text ∈ texts, 0x0A ∉ text) :
    wholeLines (lines texts) = texts := by
  have hpart := wholeLines_prefix htexts (List.prefix_refl (lines texts))
  have hall := prefix_wholeLines htexts (List.prefix_refl (lines texts))
  exact hpart.eq_of_length (Nat.le_antisymm hpart.length_le hall.length_le)

theorem skipSeparators_append {blanks : Bytes}
    (hblanks : ∀ b ∈ blanks, isSeparator b = true) (text : Bytes) :
    skipSeparators (blanks ++ text) = skipSeparators text := by
  induction blanks with
  | nil => rfl
  | cons b blanks ih =>
      rw [List.cons_append, skipSeparators,
        if_pos (hblanks b List.mem_cons_self)]
      exact ih fun c hc => hblanks c (List.mem_cons_of_mem b hc)

theorem skipSeparators_of_first {b : UInt8} (hb : isSeparator b = false)
    (rest : Bytes) :
    skipSeparators (b :: rest) = b :: rest := by
  simp [skipSeparators, hb]

theorem skipSeparators_idem (buffer : Bytes) :
    skipSeparators (skipSeparators buffer) = skipSeparators buffer := by
  cases h : skipSeparators buffer with
  | nil => rfl
  | cons b rest => exact skipSeparators_of_first (skipSeparators_cons h) rest

/-- Decoding a buffer starts behind its separators. -/
theorem decode_congr {limit : Nat} {buffer buffer' : Bytes}
    (h : skipSeparators buffer = skipSeparators buffer') :
    decode limit buffer = decode limit buffer' := by
  simp only [decode, h]

theorem decode_append {blanks : Bytes}
    (hblanks : ∀ b ∈ blanks, isSeparator b = true) (limit : Nat)
    (text : Bytes) : decode limit (blanks ++ text) = decode limit text :=
  decode_congr (skipSeparators_append hblanks text)

theorem decode_separators {blanks : Bytes}
    (hblanks : ∀ b ∈ blanks, isSeparator b = true) (limit : Nat) :
    decode limit blanks = (.wait, []) := by
  have h := decode_append hblanks limit []
  rw [List.append_nil] at h
  exact h

/-- A decoder that waits leaves the buffer behind its separators. -/
theorem decode_wait_left {limit : Nat} {buffer left : Bytes}
    (h : decode limit buffer = (.wait, left)) :
    left = skipSeparators buffer := by
  unfold decode at h
  split at h
  · next hskip =>
      rw [hskip]
      simpa using h.symm
  · next first rest hskip =>
      simp only at h
      rw [hskip]
      split at h
      · split at h <;> simp at h
      · split at h
        · simp at h
        · simpa using h.symm
      · split at h
        · simp at h
        · split at h
          · simpa using h.symm
          · simp at h

/-- A decoder that waits on a buffer waits on it again. -/
theorem decode_of_wait {limit : Nat} {buffer left : Bytes}
    (h : decode limit buffer = (.wait, left)) :
    decode limit left = (.wait, left) := by
  rw [← h, decode_wait_left h]
  exact decode_congr (skipSeparators_idem buffer)

theorem drain_frame {limit : Nat} {buffer frame left : Bytes}
    (h : decode limit buffer = (.frame frame, left)) :
    drain limit buffer =
      ⟨frame :: (drain limit left).frames, (drain limit left).error,
        (drain limit left).left⟩ := by
  rw [drain]
  split
  · next heq =>
      rw [h] at heq
      simp only [Prod.mk.injEq, Decoded.frame.injEq] at heq
      obtain ⟨rfl, rfl⟩ := heq
      rfl
  · next heq => simp [h] at heq
  · next heq => simp [h] at heq

theorem drain_wait {limit : Nat} {buffer left : Bytes}
    (h : decode limit buffer = (.wait, left)) :
    drain limit buffer = ⟨[], none, left⟩ := by
  rw [drain]
  split
  · next heq => simp [h] at heq
  · next heq =>
      rw [h] at heq
      simp only [Prod.mk.injEq, true_and] at heq
      rw [heq]
  · next heq => simp [h] at heq

theorem drain_fault {limit : Nat} {buffer left : Bytes} {error : FrameError}
    (h : decode limit buffer = (.fault error, left)) :
    drain limit buffer = ⟨[], some error, left⟩ := by
  rw [drain]
  split
  · next heq => simp [h] at heq
  · next heq => simp [h] at heq
  · next heq =>
      rw [h] at heq
      simp only [Prod.mk.injEq, Decoded.fault.injEq] at heq
      obtain ⟨rfl, rfl⟩ := heq
      rfl

/-- Draining without an error ends where the decoder waits. -/
theorem decode_drain_left {limit : Nat} {buffer : Bytes}
    (h : (drain limit buffer).error = none) :
    decode limit (drain limit buffer).left =
      (.wait, (drain limit buffer).left) := by
  fun_induction drain limit buffer with
  | case1 buffer frame left hdecode _ more ih => exact ih h
  | case2 buffer left hdecode => exact decode_of_wait hdecode
  | case3 buffer error left hdecode => simp at h

end ChatRelay.Frame
