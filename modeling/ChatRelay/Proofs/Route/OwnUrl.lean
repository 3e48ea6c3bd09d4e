import ChatRelay.Proofs.Route.Layering
/-!
# Routes by their own url

A route is found by the url text that it was registered with, whatever other
routes there are. The text of a wildcard has brackets, which no literal segment
has at the same places: where the route has a wildcard, no literal branch
matches, and where it has a literal segment, that branch is preferred.
-/

namespace ChatRelay

namespace Route

/-- The text by which a trimmed url segment is looked up. -/
def lookUpText (text : List Char) : String :=
  if text.isEmpty then emptySegment else String.ofList text

theorem urlSegments_eq (url : String) :
    urlSegments url = (rawSegments url).map lookUpText :=
  rfl

/-- The trimmed texts of the url segments at the wildcards of a pattern. -/
def wildTexts (url : String) : List String :=
  ((rawSegments url).filter fun text => (Segment.ofText text).isWildcard).map
    String.ofList

/-- A segment is a wildcard, which begins with a bracket, or the literal of its
text. -/
theorem ofText_cases (text : List Char) :
    (∃ rest name, text = '\x7b' :: rest ∧
      Segment.ofText text = .wildcard name) ∨
      Segment.ofText text = .literal (lookUpText text) := by
  cases text with
  | nil => exact .inr rfl
  | cons first rest =>
      rw [Segment.ofText]
      split
      · next h =>
          left
          obtain ⟨rfl, -⟩ := h
          split
          · exact ⟨rest, _, rfl, rfl⟩
          · exact ⟨rest, _, rfl, rfl⟩
      · exact .inr rfl

theorem lookUpText_cons (first : Char) (rest : List Char) :
    lookUpText (first :: rest) = String.ofList (first :: rest) := rfl

/-- Only a wildcard is looked up by the text of a wildcard. -/
theorem eq_of_lookUpText_eq {rest other : List Char}
    (h : lookUpText other = lookUpText ('\x7b' :: rest)) :
    other = '\x7b' :: rest := by
  rw [lookUpText_cons] at h
  cases other with
  | nil =>
      have hslash : String.ofList ['/'] = String.ofList ('\x7b' :: rest) := h
      obtain ⟨hfirst, -⟩ := List.cons.inj (String.ofList_injective hslash)
      exact absurd hfirst (by decide)
  | cons first tail =>
      rw [lookUpText_cons] at h
      exact String.ofList_injective h

theorem takes_own (text : List Char) :
    (Segment.ofText text).Takes (lookUpText text) := by
  obtain ⟨rest, name, rfl, hname⟩ | hliteral := ofText_cases text
  · rw [hname]
    trivial
  · rw [hliteral]
    rfl

theorem fits_own (texts : List (List Char)) :
    Fits (texts.map Segment.ofText) (texts.map lookUpText) := by
  induction texts with
  | nil => exact .nil
  | cons text texts ih => exact .cons (takes_own text) ih

/-- The wildcards of a pattern capture their own texts. -/
theorem captured_own (texts : List (List Char)) :
    captured (texts.map Segment.ofText) (texts.map lookUpText) =
      (texts.filter fun text => (Segment.ofText text).isWildcard).map
        String.ofList := by
  induction texts with
  | nil => rfl
  | cons text texts ih =>
      obtain ⟨rest, name, rfl, hname⟩ | hliteral := ofText_cases text
      · rw [List.map_cons, List.map_cons, hname, captured, ih,
          List.filter_cons_of_pos (by rw [hname]; rfl), List.map_cons,
            lookUpText_cons]
      · rw [List.map_cons, List.map_cons, hliteral, captured, ih,
          List.filter_cons_of_neg (by rw [hliteral]; exact Bool.false_ne_true)]

/-- A pattern that fits the own texts of another has its shape, or a wildcard
where the other has its first differing literal. -/
theorem shape_or_precedes_own {texts others : List (List Char)}
    (h : Fits (others.map Segment.ofText) (texts.map lookUpText)) :
    shape (others.map Segment.ofText) = shape (texts.map Segment.ofText) ∨
      Precedes (texts.map Segment.ofText) (others.map Segment.ofText) := by
  induction texts generalizing others with
  | nil =>
      have hnone : others = [] := by simpa [Fits] using h
      exact .inl (by rw [hnone])
  | cons text texts ih =>
      cases others with
      | nil => simp [Fits] at h
      | cons other others =>
          obtain ⟨htakes, hrest⟩ := List.forall₂_cons.mp h
          have hsame (heq : (Segment.ofText other).literal? =
              (Segment.ofText text).literal?)
              (hwild : (Segment.ofText text).isWildcard =
                (Segment.ofText other).isWildcard) :
              shape ((other :: others).map Segment.ofText) =
                  shape ((text :: texts).map Segment.ofText) ∨
                Precedes ((text :: texts).map Segment.ofText)
                  ((other :: others).map Segment.ofText) := by
            rcases ih hrest with hshape | hprecedes
            · exact .inl (by rw [List.map_cons, List.map_cons, shape_cons,
                shape_cons, heq, hshape])
            · exact .inr (precedes_cons hwild hprecedes)
          obtain ⟨rest, name, rfl, hname⟩ | hliteral := ofText_cases text
          · obtain ⟨rest', name', rfl, hname'⟩ | hliteral' := ofText_cases other
            · exact hsame (by rw [hname, hname']; rfl)
                (by rw [hname, hname']; rfl)
            · -- a literal at the position of a wildcard would have its text,
              -- and be that wildcard
              rw [hliteral'] at htakes
              obtain rfl := eq_of_lookUpText_eq htakes
              exact hsame rfl rfl
          · obtain ⟨rest', name', rfl, hname'⟩ | hliteral' := ofText_cases other
            · rw [List.map_cons, List.map_cons, hliteral, hname']
              exact .inr (precedes_here _ _ _ _)
            · rw [hliteral'] at htakes
              have hseg : Segment.ofText other = Segment.ofText text := by
                rw [hliteral, hliteral']
                exact congrArg Segment.literal htakes
              exact hsame (by rw [hseg]) (by rw [hseg])

end Route

namespace Mux

open Route

variable {ρ : Type}

theorem eq_of_parse {method url : String} {pattern : Pattern}
    (h : Pattern.parse method url = .ok pattern) :
    pattern = ⟨method, url, (rawSegments url).map Segment.ofText⟩ ∧
    method ≠ "" ∧ url ≠ "" := by
  unfold Pattern.parse at h
  split at h
  · exact nomatch h
  · next hnames =>
      cases h
      exact ⟨rfl, fun h => hnames (.inl h), fun h => hnames (.inr h)⟩

/-- The registered routes have the patterns of their own texts. -/
theorem segments_of_mem {acts : List (Act ρ)} {route : Pattern × ρ}
    (h : route ∈ (build acts).routes) :
    route.1.segments = (rawSegments route.1.url).map Segment.ofText := by
  induction acts using List.reverseRecOn with
  | nil => exact absurd h List.not_mem_nil
  | append_singleton acts act ih =>
      rw [build_concat] at h
      cases act with
      | layer l => exact ih h
      | register method url service =>
          by_cases hok :
            ((build acts).mux.register method url service).1 = .ok ()
          · obtain ⟨pattern, hparse, hroutes⟩ := act_accepted hok
            rw [hroutes] at h
            rcases List.mem_append.mp h with hold | hnew
            · exact ih hold
            · obtain rfl := List.mem_singleton.mp hnew
              obtain ⟨rfl, -, -⟩ := eq_of_parse hparse
              rfl
          · exact ih (act_refused hok ▸ h)

/-- A registered route is the chosen one for its own url. -/
theorem chosen_own {acts : List (Act ρ)} {route : Pattern × ρ}
    (h : route ∈ (build acts).routes) :
    Chosen (build acts).routes route.1.method
      (urlSegments route.1.url) route := by
  have hsegments := segments_of_mem h
  refine ⟨h, rfl, ?_, fun other hother hmethod hfits => ?_⟩
  · rw [hsegments, urlSegments_eq]
    exact fits_own _
  · rw [segments_of_mem hother, urlSegments_eq] at hfits
    rcases shape_or_precedes_own hfits with hshape | hprecedes
    · left
      rw [← hsegments, ← segments_of_mem hother] at hshape
      have hlists := (build_sound acts).lists
      have hget := (hlists _ _ other).mpr ⟨hother, hmethod, hshape⟩
      rw [(hlists _ _ route).mpr ⟨h, rfl, rfl⟩] at hget
      exact (Option.some.inj hget).symm
    · right
      rw [hsegments, segments_of_mem hother]
      exact hprecedes

/-- Whatever is registered before and later, a registered route is found by the
method and url that it was registered with: its pattern, its service inside the
layers of that time, and for each of its wildcards the trimmed text of that
segment itself. -/
theorem found_by_own_url {acts earlier later : List (Act ρ)}
    {method url : String} {service : ρ}
    (hacts : acts = earlier ++ .register method url service :: later)
    (hok : ((build earlier).mux.register method url service).1 = .ok ()) :
    ∃ pattern, Pattern.parse method url = .ok pattern ∧
      (build acts).mux.table.find? method url =
        some ⟨pattern, wrapped earlier service, wildTexts url⟩ := by
  have hregistered : Registered acts ⟨method, url, []⟩ earlier service :=
    ⟨⟨later, hacts⟩, hok⟩
  obtain ⟨pattern, hparse, hmem⟩ := hregistered.mem_routes
  obtain ⟨rfl, hmethod, hurl⟩ := eq_of_parse hparse
  have hlists := (build_sound acts).lists
  have hown := chosen_own hmem
  have hsome :=
    (find?_isSome hlists method url).mpr
      ⟨hmethod, hurl, _, hmem, rfl, hown.fits⟩
  obtain ⟨found, hfound⟩ := Option.isSome_iff_exists.mp hsome
  obtain ⟨hchosen, htaken⟩ := find?_chosen hlists hfound
  obtain ⟨hpattern, hvalue⟩ := Prod.mk.inj (hown.unique hchosen)
  refine ⟨_, hparse, hfound.trans ?_⟩
  have htexts : found.taken = wildTexts url := by
    rw [htaken, hpattern, urlSegments_eq]
    exact captured_own _
  rw [← hpattern, ← hvalue, ← htexts]

/-- A layer and a route without wildcards. -/
def sampleBefore : List (Act Nat) := [.layer (· + 10), .register "GET" "/b/x" 1]

/-- A layer and routes that fit the same urls. -/
def sampleAfter : List (Act Nat) :=
  [.layer (· + 100), .register "GET" "/\x7bq\x7d/\x7b \x7d" 3,
    .register "GET" "/\x7bq\x7d//x" 4]

/-- A url with redundant blanks and slashes, and a wildcard with brackets in its
name. -/
def sampleOddUrl : String := " //\x7ba\x7d\x7bb\x7d / x/"

theorem sampleOddUrl_found :
    let acts := sampleBefore ++ .register "GET" sampleOddUrl 2 :: sampleAfter
    ((build sampleBefore).mux.register "GET" sampleOddUrl 2).1 = .ok () ∧
      ((build acts).mux.table.find? "GET" sampleOddUrl).map (fun found =>
        (found.pattern.segments, found.value, found.taken)) =
          some ([.wildcard "a\x7d\x7bb", .literal "x"], 12,
            ["\x7ba\x7d\x7bb\x7d"]) := by
  intro acts
  have hok : ((build sampleBefore).mux.register "GET" sampleOddUrl 2).1 =
      .ok () := by
    decide +kernel
  obtain ⟨pattern, hparse, hfound⟩ :=
    found_by_own_url (rfl : acts = sampleBefore ++ .register "GET" sampleOddUrl
      2 :: sampleAfter) hok
  obtain ⟨rfl, -, -⟩ := eq_of_parse hparse
  refine ⟨hok, ?_⟩
  rw [hfound]
  decide +kernel

end Mux

end ChatRelay
