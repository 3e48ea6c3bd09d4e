import ChatRelay.Proofs.Frame.Accounting
import ChatRelay.Proofs.Frame.Transport
import ChatRelay.Proofs.Json.GrammarWalk
/-!
# Cuts inside values

A stream of objects, lists and strings in any layout, with blanks between them,
is decoded as these values if it arrives at once. It is also if it arrives in
pieces, with one exception: a piece must not end in a number where only a digit
can follow, behind a line feed of the same value. There the decoder falls back
to lines. At the end of a stream the same positions decide whether a truncated
value is reported as truncated or returned as a frame.
-/

namespace ChatRelay.Frame

open Json.Grammar Json.Skip

theorem isSeparator_of_encloses {first : UInt8} (h : Encloses first) :
    isSeparator first = false := by
  rcases h with rfl | rfl | rfl <;> rfl

theorem endsBefore_of_encloses {first : UInt8} (h : Encloses first)
    (behind : Bytes) :
    endsBefore first behind = true := by
  cases behind with
  | nil => rfl
  | cons b behind => rcases h with rfl | rfl | rfl <;> rfl

/-- JSON whitespace separates frames. -/
theorem blank_of_blanks {gap : Bytes} (h : Blanks gap) : Blank gap := by
  intro b hb
  have hblank := h b hb
  simp only [Json.isBlank, Bool.or_eq_true, decide_eq_true_eq] at hblank
  rcases hblank with ((rfl | rfl) | rfl) | rfl <;> rfl

section Value

variable {limit : Nat} {text part missing : Bytes}

/-- A closed value is decoded whatever follows it. -/
theorem decode_closed (h : Closed text) (hfit : text.length ≤ limit)
    (more : Bytes) :
    decode limit (text ++ more) = (.frame text, more) := by
  have hrun := run_closed h more
  have htext := h.isText
  obtain ⟨first, front, last, -, heq, hfirst, -, -⟩ := closed_split h
  obtain ⟨rest, rfl⟩ : ∃ rest, text = first :: rest := ⟨front ++ [last], heq⟩
  have hhead : head first (rest ++ more) = .value (first :: rest).length := by
    rw [List.cons_append] at hrun
    rw [head, hrun, ← List.cons_append]
    simp only [endsBefore_of_encloses hfirst, List.take_left, htext,
      Bool.and_self, if_true]
  rw [List.cons_append, decode_value (isSeparator_of_encloses hfirst) hhead
    hfit, ← List.cons_append, List.take_left, List.drop_left]

/-- A number is cut where only a digit can follow, and a line has ended before
it. -/
def Torn (part : Bytes) : Prop := needsDigit part = true ∧ 0x0A ∈ part

/-- The first scan over a part of a value. -/
theorem head_part (h : Closed (part ++ missing)) (hpart : part ≠ [])
    (hmissing : missing ≠ []) :
    ∃ first rest, part = first :: rest ∧ isSeparator first = false ∧
      head first rest =
        if needsDigit part then .unstructured else .unfinished := by
  obtain ⟨fault, hrun, hend⟩ := run_part h hpart hmissing
  obtain ⟨first, rest, s, rfl, hfirst, -, -⟩ := walk_part h hpart hmissing
  refine ⟨first, rest, rfl, isSeparator_of_encloses hfirst, ?_⟩
  rw [head, hrun]
  simp only [hend]
  cases needsDigit (first :: rest) <;> rfl

/-- The decoder waits for the rest of a value unless it is torn. -/
theorem decode_part (h : Closed (part ++ missing)) (hpart : part ≠ [])
    (hmissing : missing ≠ []) (hfit : (part ++ missing).length ≤ limit)
    (hwhole : ¬ Torn part) :
    decode limit part = (.wait, part) := by
  obtain ⟨first, rest, rfl, hfirst, hhead⟩ := head_part h hpart hmissing
  have hlength : (first :: rest).length ≤ limit := by
    rw [List.length_append] at hfit
    omega
  by_cases hdigit : needsDigit (first :: rest) = true
  · rw [if_pos hdigit] at hhead
    have hline : 0x0A ∉ first :: rest := fun hfeed => hwhole ⟨hdigit, hfeed⟩
    exact decode_line hfirst hline hlength (.inr hhead)
  · rw [if_neg hdigit] at hhead
    simp only [decode, skipSeparators_of_first hfirst, hhead,
      if_neg (Nat.not_lt.mpr hlength)]

/-- A torn value is decoded as lines, of which the first is returned. -/
theorem decode_torn (h : Closed (part ++ missing)) (hpart : part ≠ [])
    (hmissing : missing ≠ []) (hfit : (part ++ missing).length ≤ limit)
    (htorn : Torn part) :
    ∃ line left, decode limit part = (.frame line, left) ∧
      line.length < part.length := by
  obtain ⟨first, rest, rfl, hfirst, hhead⟩ := head_part h hpart hmissing
  rw [if_pos htorn.1] at hhead
  rw [List.length_append] at hfit
  generalize hline : (first :: rest).takeWhile (· ≠ 0x0A) = line
  have hsplit := line_split (first :: rest)
  rw [hline] at hsplit
  have hfeed : 0x0A ∉ line := hline ▸ not_mem_line (first :: rest)
  cases hbehind : (first :: rest).drop line.length with
  | nil =>
      rw [hbehind, List.append_nil] at hsplit
      exact absurd (hsplit ▸ htorn.2) hfeed
  | cons b behind =>
      have hlength := congrArg List.length hsplit
      rw [hbehind, List.length_append, List.length_cons] at hlength
      refine ⟨line, behind, ?_, by omega⟩
      have hlimit : ¬ limit < line.length := by omega
      simp only [decode, skipSeparators_of_first hfirst, hhead, hline,
        if_neg hlimit, hbehind]

end Value

/-- A value with the blanks in front of it. -/
structure Spaced (limit : Nat) (part : Bytes × Bytes) : Prop where
  gap : Blanks part.1
  closed : Closed part.2
  fits : part.2.length ≤ limit

/-- A stream that is cut behind `text` is cut inside a value, behind the part
`text`. -/
def CutsInside (parts : List (Bytes × Bytes)) (text part : Bytes) : Prop :=
  ∃ done gap missing later, parts = done ++ (gap, part ++ missing) :: later ∧
    text = spread done ++ gap ++ part ∧ part ≠ [] ∧ missing ≠ []

theorem spread_cons (part : Bytes × Bytes) (parts : List (Bytes × Bytes)) :
    spread (part :: parts) = part.1 ++ (part.2 ++ spread parts) := by
  simp [spread]

theorem CutsInside.cons {parts : List (Bytes × Bytes)} {text part : Bytes}
    (first : Bytes × Bytes) (h : CutsInside parts text part) :
    CutsInside (first :: parts) (first.1 ++ (first.2 ++ text)) part := by
  obtain ⟨done, gap, missing, later, rfl, rfl, hpart, hmissing⟩ := h
  refine ⟨first :: done, gap, missing, later, rfl, ?_, hpart, hmissing⟩
  simp [spread_cons]

/-- A cut is in the blanks between values or inside a value. -/
theorem cut_cases {parts : List (Bytes × Bytes)} {last text rest : Bytes}
    (hparts : ∀ part ∈ parts, Blanks part.1) (hlast : Blanks last)
    (h : text ++ rest = spread parts ++ last) :
    (∃ done gap later, parts = done ++ later ∧ Blanks gap ∧
      text = spread done ++ gap) ∨
      ∃ part, CutsInside parts text part := by
  induction parts generalizing text with
  | nil =>
      refine .inl ⟨[], text, [], rfl, fun b hb => hlast b ?_, rfl⟩
      have hstream : text ++ rest = last := h
      rw [← hstream]
      exact List.mem_append_left rest hb
  | cons first parts ih =>
      rw [spread_cons, List.append_assoc, List.append_assoc] at h
      have hgap := hparts first List.mem_cons_self
      rcases List.append_eq_append_iff.mp h
        with ⟨more, hmore, -⟩ | ⟨behind, rfl, hbehind⟩
      · -- the cut lies in front of the first value
        refine .inl ⟨[], text, first :: parts, rfl, fun b hb => hgap b ?_, rfl⟩
        rw [hmore]
        exact List.mem_append_left more hb
      rcases List.append_eq_append_iff.mp hbehind.symm with
        ⟨missing, hvalue, -⟩ | ⟨further, rfl, hfurther⟩
      · by_cases hnone : behind = []
        · refine .inl ⟨[], first.1, first :: parts, rfl, hgap, ?_⟩
          simp [hnone, spread]
        by_cases hwhole : missing = []
        · refine .inl ⟨[first], [], parts, rfl,
            fun b hb => absurd hb List.not_mem_nil, ?_⟩
          simp [spread, hvalue, hwhole]
        · refine .inr
            ⟨behind, [], first.1, missing, parts, ?_, rfl, hnone, hwhole⟩
          rw [List.nil_append, ← hvalue]
      · -- the cut lies behind the first value
        rcases ih
          (fun part hpart => hparts part (List.mem_cons_of_mem first hpart))
          hfurther.symm with ⟨done, gap, later, rfl, hblank, rfl⟩ | ⟨part, hcut⟩
        · refine .inl ⟨first :: done, gap, later, rfl, hblank, ?_⟩
          simp [spread_cons]
        · exact .inr ⟨part, hcut.cons first⟩

/-- The result of draining, with frames in front. -/
def Drained.after (frames : List Bytes) (d : Drained) : Drained :=
  { d with frames := frames ++ d.frames }

section Stream

variable {limit : Nat} {parts : List (Bytes × Bytes)}

/-- Complete values are decoded in order, then the bytes behind them. -/
theorem drain_spread {done : List (Bytes × Bytes)}
    (hdone : ∀ part ∈ done, Spaced limit part) {gap : Bytes} (hgap : Blanks gap)
    (more : Bytes) :
    drain limit (spread done ++ gap ++ more) =
      (drain limit more).after (done.map Prod.snd) := by
  induction done with
  | nil => exact drain_append (blank_of_blanks hgap) more
  | cons first done ih =>
      have hfirst := hdone first List.mem_cons_self
      have hmore :=
        ih fun part hpart => hdone part (List.mem_cons_of_mem first hpart)
      rw [spread_cons, List.append_assoc, List.append_assoc, List.append_assoc,
        drain_append (blank_of_blanks hfirst.gap),
        drain_frame (decode_closed hfirst.closed hfirst.fits _),
          ← List.append_assoc, hmore]
      rfl

/-- The input so far gave these frames and left these bytes, on which the
decoder waits, and decoding continues as if the input had not been cut there. -/
structure Paused (limit : Nat) (text : Bytes) (frames : List Bytes)
    (held : Bytes) : Prop where
  waits : drain limit held = ⟨[], none, held⟩
  resumes : ∀ more,
    drain limit (text ++ more) = (drain limit (held ++ more)).after frames

theorem paused_start (limit : Nat) : Paused limit [] [] [] :=
  ⟨drain_wait rfl, fun _ => rfl⟩

theorem Paused.drained {text held : Bytes} {frames : List Bytes}
    (h : Paused limit text frames held) :
    drain limit text = ⟨frames, none, held⟩ := by
  have hdrain := h.resumes []
  rw [List.append_nil, List.append_nil, h.waits] at hdrain
  rw [hdrain, Drained.after, List.append_nil]

/-- The decoder pauses at a cut that does not tear a value. -/
theorem paused_of_cut (hparts : ∀ part ∈ parts, Spaced limit part)
    {last text rest : Bytes} (hlast : Blanks last)
    (h : text ++ rest = spread parts ++ last)
    (hwhole : ∀ part, CutsInside parts text part → ¬ Torn part) :
    ∃ frames held, Paused limit text frames held := by
  rcases cut_cases (fun part hpart => (hparts part hpart).gap) hlast h with
    ⟨done, gap, later, rfl, hgap, rfl⟩ | ⟨part, hcut⟩
  · refine ⟨done.map Prod.snd, [], drain_wait rfl, fun more => ?_⟩
    exact drain_spread (fun part hpart =>
      hparts part (List.mem_append_left later hpart)) hgap more
  · have htorn := hwhole part hcut
    obtain ⟨done, gap, missing, later, rfl, rfl, hpart, hmissing⟩ := hcut
    have hvalue :=
      hparts (gap, part ++ missing)
        (List.mem_append_right done List.mem_cons_self)
    refine ⟨done.map Prod.snd, part, ?_, fun more => ?_⟩
    · exact drain_wait
        (decode_part hvalue.closed hpart hmissing hvalue.fits htorn)
    · rw [List.append_assoc]
      exact drain_spread
        (fun part hpart => hparts part (List.mem_append_left _ hpart))
        hvalue.gap _

/-- From one pause to the next. -/
theorem Paused.next {text piece held held' : Bytes}
    {frames frames' : List Bytes} (h : Paused limit text frames held)
    (h' : Paused limit (text ++ piece) frames' held') :
    ∃ new, drain limit (held ++ piece) = ⟨new, none, held'⟩ ∧
      frames' = frames ++ new := by
  have hdrain := (h.resumes piece).symm.trans h'.drained
  simp only [Drained.after, Drained.mk.injEq] at hdrain
  obtain ⟨hframes, herror, hleft⟩ := hdrain
  refine ⟨_, ?_, hframes.symm⟩
  rw [← herror, ← hleft]

/-- A stream in pieces with a pause behind each gives the same result as in one
piece. -/
theorem feed_paused {pieces : List Bytes} {text held : Bytes}
    {frames : List Bytes} (h : Paused limit text frames held)
    (hcuts : ∀ before after, pieces = before ++ after →
      ∃ frames held, Paused limit (text ++ before.flatten) frames held) :
    ∃ new left, feed limit held pieces = ⟨new, [], left⟩ ∧
      drain limit (text ++ pieces.flatten) = ⟨frames ++ new, none, left⟩ := by
  induction pieces generalizing text held frames with
  | nil =>
      refine ⟨[], held, rfl, ?_⟩
      rw [List.flatten_nil, List.append_nil, List.append_nil]
      exact h.drained
  | cons piece pieces ih =>
      obtain ⟨frames', held', h'⟩ := hcuts [piece] pieces rfl
      rw [List.flatten_singleton] at h'
      obtain ⟨first, hfirst, rfl⟩ := h.next h'
      obtain ⟨new, left, hfeed, hdrain⟩ := ih h' fun before after heq => by
        have hcut :=
          hcuts (piece :: before) after (by rw [heq, List.cons_append])
        rwa [List.flatten_cons, ← List.append_assoc] at hcut
      refine ⟨first ++ new, left, ?_, ?_⟩
      · simp only [feed, hfirst, hfeed, Option.toList_none, List.nil_append]
      · rw [List.flatten_cons, ← List.append_assoc, hdrain, List.append_assoc]

/-- Where a value is torn, a part of it is returned instead of the value. -/
theorem drain_torn (hparts : ∀ part ∈ parts, Spaced limit part)
    {text part : Bytes} (hcut : CutsInside parts text part)
    (htorn : Torn part) :
    ∃ frames line more, (drain limit text).frames = frames ++ line :: more ∧
      ∀ rest, parts.map Prod.snd ≠ frames ++ line :: rest := by
  obtain ⟨done, gap, missing, later, rfl, rfl, hpart, hmissing⟩ := hcut
  have hvalue :=
    hparts (gap, part ++ missing)
      (List.mem_append_right done List.mem_cons_self)
  obtain ⟨line, left, hdecode, hshort⟩ :=
    decode_torn hvalue.closed hpart hmissing hvalue.fits htorn
  refine ⟨done.map Prod.snd, line, (drain limit left).frames, ?_,
    fun rest heq => ?_⟩
  · rw [drain_spread
      (fun part hpart => hparts part (List.mem_append_left _ hpart)) hvalue.gap,
        drain_frame hdecode]
    rfl
  · rw [List.map_append, List.map_cons, List.append_cancel_left_eq] at heq
    obtain ⟨rfl, -⟩ := List.cons.inj heq
    rw [List.length_append] at hshort
    omega

theorem feed_torn (hparts : ∀ part ∈ parts, Spaced limit part) {last : Bytes}
    (hlast : Blanks last) {pieces : List Bytes} {text held : Bytes}
    {frames : List Bytes} (h : Paused limit text frames held)
    (hstream : text ++ pieces.flatten = spread parts ++ last)
    (hwhole : ∀ part, CutsInside parts text part → ¬ Torn part)
    {before after : List Bytes} (hsplit : pieces = before ++ after)
    {part : Bytes} (hcut : CutsInside parts (text ++ before.flatten) part)
    (htorn : Torn part) :
    frames ++ (feed limit held pieces).frames ≠ parts.map Prod.snd := by
  induction before generalizing pieces text held frames with
  | nil =>
      rw [List.flatten_nil, List.append_nil] at hcut
      exact absurd htorn (hwhole part hcut)
  | cons piece before ih =>
      rw [List.cons_append] at hsplit
      subst hsplit
      rw [List.flatten_cons, ← List.append_assoc] at hstream hcut
      -- the first of the cuts that tear a value decides
      by_cases hfirst : ∃ part,
        CutsInside parts (text ++ piece) part ∧ Torn part
      · obtain ⟨part, hcut, htorn⟩ := hfirst
        obtain ⟨done, line, more, hdrain, hvalues⟩ :=
          drain_torn hparts hcut htorn
        rw [h.resumes piece] at hdrain
        change frames ++ (drain limit (held ++ piece)).frames = _ at hdrain
        simp only [feed]
        rw [← List.append_assoc, hdrain, List.append_assoc, List.cons_append]
        exact fun heq => hvalues _ heq.symm
      · have hwhole' : ∀ part, CutsInside parts (text ++ piece) part →
            ¬ Torn part :=
          fun part hcut htorn => hfirst ⟨part, hcut, htorn⟩
        obtain ⟨frames', held', h'⟩ :=
          paused_of_cut hparts hlast hstream hwhole'
        obtain ⟨new, hnew, rfl⟩ := h.next h'
        have hmore := ih h' hstream hwhole' rfl hcut
        simp only [feed, hnew]
        rwa [← List.append_assoc]

/-- A piece ends where it tears a value. -/
def Tears (parts : List (Bytes × Bytes)) (pieces : List Bytes) : Prop :=
  ∃ before after part, pieces = before ++ after ∧
    CutsInside parts before.flatten part ∧ Torn part

/-- A stream of objects, lists and strings that arrives at once is decoded as
these values, and so is the stream in pieces unless a piece ends in a number
where only a digit can follow, behind a line feed of the same value: then it
never is. -/
theorem values_arrive_unless_torn (hparts : ∀ part ∈ parts, Spaced limit part)
    {last : Bytes} (hlast : Blanks last) {pieces : List Bytes}
    (hstream : pieces.flatten = spread parts ++ last) :
    drain limit pieces.flatten = ⟨parts.map Prod.snd, none, []⟩ ∧
      (¬ Tears parts pieces →
        feed limit [] pieces = ⟨parts.map Prod.snd, [], []⟩) ∧
      (Tears parts pieces →
        (feed limit [] pieces).frames ≠ parts.map Prod.snd) := by
  have hdrain :
      drain limit pieces.flatten = ⟨parts.map Prod.snd, none, []⟩ := by
    have hall := drain_spread hparts hlast []
    rw [List.append_nil, drain_wait (decode_separators blank_nil limit)] at hall
    rw [hstream, hall, Drained.after, List.append_nil]
  refine ⟨hdrain, fun hwhole => ?_, fun htears => ?_⟩
  · have hcuts : ∀ before after, pieces = before ++ after →
        ∃ frames held, Paused limit ([] ++ before.flatten) frames held := by
      intro before after hsplit
      have hfront : before.flatten ++ after.flatten = spread parts ++ last := by
        rw [← List.flatten_append, ← hsplit, hstream]
      apply paused_of_cut hparts hlast hfront
      intro part hcut htorn
      exact hwhole ⟨before, after, part, hsplit, hcut, htorn⟩
    obtain ⟨new, left, hfeed, hsame⟩ := feed_paused (paused_start limit) hcuts
    rw [List.nil_append, List.nil_append, hdrain] at hsame
    obtain ⟨rfl, -, rfl⟩ := Drained.mk.inj hsame
    exact hfeed
  · obtain ⟨before, after, part, hsplit, hcut, htorn⟩ := htears
    have hnone : ∀ part, CutsInside parts [] part → ¬ Torn part := by
      rintro part ⟨done, gap, missing, later, -, htext, hpart, -⟩
      exact absurd (List.append_eq_nil_iff.mp htext.symm).2 hpart
    exact feed_torn hparts hlast (paused_start limit) hstream hnone
      hsplit hcut htorn

theorem sampleNumber_isValue : IsValue [0x2D, 0x31] := by
  apply IsValue.number
  apply @Numeral.mk [0x2D] [0x31] [] [] (.inr rfl) _ .none .none
  exact .digits (by decide) (by decide) (by simp [Digits])

/-- A list of one number on its own line, and a string. -/
def sampleSpaced : List (Bytes × Bytes) :=
  [([], [0x5B, 0x0A, 0x2D, 0x31, 0x5D]), ([0x20], [0x22, 0x61, 0x22])]

theorem sampleSpaced_spaced : ∀ part ∈ sampleSpaced, Spaced 5 part := by
  have hlist : IsList [0x5B, 0x0A, 0x2D, 0x31, 0x5D] := by
    apply @IsList.items [0x0A, 0x2D, 0x31]
    apply Items.last
    apply @Item.mk [0x0A] [0x2D, 0x31] []
    · simp [Blanks, Json.isBlank]
    · exact sampleNumber_isValue
    · simp [Blanks]
  have hstring : IsString [0x22, 0x61, 0x22] := by
    apply @IsString.mk [0x61]
    exact @Marks.cons [0x61] []
      (.plain (by decide) (by decide) (by decide)) .nil
  intro part hpart
  simp only [sampleSpaced, List.mem_cons, List.not_mem_nil, or_false] at hpart
  rcases hpart with rfl | rfl
  · exact ⟨by simp [Blanks], ⟨.inr (.inl hlist), by decide⟩, by decide⟩
  · exact ⟨by simp [Blanks, Json.isBlank],
      ⟨.inr (.inr hstring), by decide⟩, by decide⟩

theorem sampleSpaced_whole :
    ¬ Tears sampleSpaced
      [[0x5B, 0x0A], [0x2D, 0x31, 0x5D, 0x20, 0x22, 0x61, 0x22]] := by
  rintro ⟨before, after, part, hsplit,
    ⟨done, gap, missing, later, hparts, htext, -, -⟩, hdigit, hline⟩
  -- a line feed stands in the first value alone
  obtain rfl : done = [] := by
    cases done with
    | nil => rfl
    | cons first done =>
        have hmem : (gap, part ++ missing) ∈
            [(([0x20], [0x22, 0x61, 0x22]) : Bytes × Bytes)] := by
          rw [(List.cons.inj hparts).2]
          simp
        simp only [List.mem_singleton, Prod.mk.injEq] at hmem
        have hfeed : (0x0A : UInt8) ∈ [0x22, 0x61, 0x22] :=
          hmem.2 ▸ List.mem_append_left missing hline
        exact absurd hfeed (by decide)
  obtain ⟨rfl, -⟩ := Prod.mk.inj (List.cons.inj hparts).1
  rw [show part = before.flatten from htext.symm] at hdigit hline
  match before with
  | [] => exact absurd hline (by decide)
  | [first] =>
      obtain ⟨rfl, -⟩ := List.cons.inj hsplit
      exact absurd hdigit (by decide)
  | first :: second :: more =>
      simp only [List.cons_append, List.cons.injEq, List.nil_eq,
        List.append_eq_nil_iff] at hsplit
      obtain ⟨rfl, rfl, rfl, -⟩ := hsplit
      exact absurd hdigit (by decide)

theorem sampleSpaced_torn :
    Tears sampleSpaced
      [[0x5B, 0x0A, 0x2D], [0x31, 0x5D, 0x20, 0x22, 0x61, 0x22]] := by
  refine ⟨[[0x5B, 0x0A, 0x2D]], _, [0x5B, 0x0A, 0x2D], rfl, ?_,
    by decide, by decide⟩
  exact ⟨[], [], [0x31, 0x5D], [([0x20], [0x22, 0x61, 0x22])], rfl, rfl,
    by simp, by simp⟩

/-- Cut in front of the number the list is decoded, and cut behind its sign it
is not. -/
theorem sampleSpaced_arrive :
    feed 5 [] [[0x5B, 0x0A], [0x2D, 0x31, 0x5D, 0x20, 0x22, 0x61, 0x22]] =
        ⟨sampleSpaced.map Prod.snd, [], []⟩ ∧
      (feed 5 []
        [[0x5B, 0x0A, 0x2D], [0x31, 0x5D, 0x20, 0x22, 0x61, 0x22]]).frames ≠
        sampleSpaced.map Prod.snd := by
  have hlast : Blanks [] := by simp [Blanks]
  constructor
  · exact (values_arrive_unless_torn sampleSpaced_spaced hlast rfl).2.1
      sampleSpaced_whole
  · exact (values_arrive_unless_torn sampleSpaced_spaced hlast rfl).2.2
      sampleSpaced_torn

/-- A list of one number is decoded as three lines. -/
theorem torn_list_is_lines :
    ¬ ∀ limit parts last pieces, (∀ part ∈ parts, Spaced limit part) →
      Blanks last →
      pieces.flatten = spread parts ++ last →
      feed limit [] pieces = ⟨parts.map Prod.snd, [], []⟩ := by
  intro h
  have hfeed :=
    h 5 sampleSpaced []
      [[0x5B, 0x0A, 0x2D], [0x31, 0x5D, 0x20, 0x22, 0x61, 0x22]]
      sampleSpaced_spaced (by simp [Blanks]) rfl
  exact absurd hfeed (by decide +kernel)

end Stream

section CutShort

variable {limit : Nat} {part missing : Bytes}

/-- At the end of the stream a part of a value is truncated, or else it is
decoded as a line. -/
theorem decodeEnd_part (h : Closed (part ++ missing)) (hpart : part ≠ [])
    (hmissing : missing ≠ []) (hwait : decode limit part = (.wait, part)) :
    decodeEnd limit part =
      if needsDigit part then (.frame part, [])
        else (.fault .truncated, part) := by
  obtain ⟨first, rest, rfl, -, hhead⟩ := head_part h hpart hmissing
  unfold decodeEnd
  rw [hwait]
  simp only [hhead]
  cases needsDigit (first :: rest) <;> rfl

theorem drainEnd_part (h : Closed (part ++ missing)) (hpart : part ≠ [])
    (hmissing : missing ≠ []) (hwait : decode limit part = (.wait, part)) :
    drainEnd limit part =
      if needsDigit part then ⟨[part], none, []⟩
        else ⟨[], some .truncated, part⟩ := by
  have hend := decodeEnd_part h hpart hmissing hwait
  apply (loop_drainEnd limit part).unique
  by_cases hdigit : needsDigit part = true
  · rw [if_pos hdigit] at hend ⊢
    exact .frame hend (.wait rfl)
  · rw [if_neg hdigit] at hend ⊢
    exact .fault hend

/-- The decoder waits on all pieces together. -/
theorem feed_waiting {pieces : List Bytes} {held : Bytes}
    (h : ∀ before after, pieces = before ++ after →
      drain limit (held ++ before.flatten) =
        ⟨[], none, held ++ before.flatten⟩) :
    feed limit held pieces = ⟨[], [], held ++ pieces.flatten⟩ := by
  induction pieces generalizing held with
  | nil => rw [List.flatten_nil, List.append_nil, feed]
  | cons piece pieces ih =>
      have hfirst := h [piece] pieces rfl
      rw [List.flatten_singleton] at hfirst
      have hmore := @ih (held ++ piece) fun before after hsplit => by
        have hnext :=
          h (piece :: before) after (by rw [hsplit, List.cons_append])
        rwa [List.flatten_cons, ← List.append_assoc] at hnext
      simp only [feed, hfirst, hmore, Option.toList_none, List.append_nil,
        List.flatten_cons, List.append_assoc]

/-- A connection that ends inside a value of one line gave no frame before,
however the stream was cut. The end is then reported as truncation, unless it is
in a number where only a digit can follow: there the part is returned as a
frame. -/
theorem cut_value_reported (h : Closed (part ++ missing))
    (hfit : (part ++ missing).length ≤ limit) (hline : 0x0A ∉ part ++ missing)
    (hpart : part ≠ []) (hmissing : missing ≠ []) {pieces : List Bytes}
    (hpieces : pieces.flatten = part) :
    feed limit [] pieces = ⟨[], [], part⟩ ∧
      drainEnd limit part =
        if needsDigit part then ⟨[part], none, []⟩
          else ⟨[], some .truncated, part⟩ := by
  have hwhole {front : Bytes} (hfront : front <+: part) : ¬ Torn front := by
    intro htorn
    exact hline (List.mem_append_left missing (hfront.subset htorn.2))
  constructor
  · rw [← hpieces]
    apply feed_waiting
    intro before after hsplit
    rw [List.nil_append]
    by_cases hnone : before.flatten = []
    · rw [hnone]
      exact drain_wait rfl
    have hpart' : part = before.flatten ++ after.flatten := by
      rw [← hpieces, hsplit, List.flatten_append]
    have htorn := hwhole ⟨after.flatten, hpart'.symm⟩
    rw [hpart', List.append_assoc] at h hfit
    refine drain_wait (decode_part h hnone (fun hnil => hmissing ?_) hfit htorn)
    exact (List.append_eq_nil_iff.mp hnil).2
  · exact drainEnd_part h hpart hmissing
      (decode_part h hpart hmissing hfit (hwhole (List.prefix_refl part)))

theorem sampleList_isList : IsList [0x5B, 0x2D, 0x31, 0x5D] := by
  apply @IsList.items [0x2D, 0x31]
  apply Items.last
  exact @Item.mk [] [0x2D, 0x31] [] (by simp [Blanks]) sampleNumber_isValue
    (by simp [Blanks])

theorem sampleList_closed : Closed [0x5B, 0x2D, 0x31, 0x5D] :=
  ⟨.inr (.inl sampleList_isList), by decide⟩

/-- The list is reported as truncated behind its number, and not behind its
sign. -/
theorem sampleList_reported :
    feed 4 [] [[0x5B], [0x2D, 0x31]] = ⟨[], [], [0x5B, 0x2D, 0x31]⟩ ∧
      drainEnd 4 [0x5B, 0x2D, 0x31] =
        ⟨[], some .truncated, [0x5B, 0x2D, 0x31]⟩ ∧
      drainEnd 4 [0x5B, 0x2D] = ⟨[[0x5B, 0x2D]], none, []⟩ := by
  obtain ⟨hfeed, hend⟩ :=
    @cut_value_reported 4 [0x5B, 0x2D, 0x31] [0x5D] sampleList_closed
      (by decide) (by decide) (by decide) (by decide) [[0x5B], [0x2D, 0x31]] rfl
  obtain ⟨-, hsign⟩ :=
    @cut_value_reported 4 [0x5B, 0x2D] [0x31, 0x5D] sampleList_closed
      (by decide) (by decide) (by decide) (by decide) [[0x5B, 0x2D]] rfl
  exact ⟨hfeed, hend, hsign⟩

/-- The first half of a list of one number is returned as a frame. -/
theorem half_list_is_frame :
    ¬ ∀ limit part missing pieces, IsObject (part ++ missing) ∨
      IsList (part ++ missing) →
      Utf8.isText (part ++ missing) = true → (part ++ missing).length ≤ limit →
      0x0A ∉ part ++ missing → part ≠ [] → missing ≠ [] →
      pieces.flatten = part →
      let fed := feed limit [] pieces
      fed.frames = [] ∧ fed.errors = [] ∧
        (drainEnd limit fed.left).frames = [] ∧
        (drainEnd limit fed.left).error = some .truncated := by
  intro h
  have hend :=
    h 4 [0x5B, 0x2D] [0x31, 0x5D] [[0x5B, 0x2D]]
      (.inr sampleList_isList) (by decide)
      (by decide) (by decide) (by decide) (by decide) rfl
  exact absurd hend (by decide +kernel)

end CutShort

end ChatRelay.Frame
