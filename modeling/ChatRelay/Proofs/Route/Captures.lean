import ChatRelay.Proofs.Json.Members
import ChatRelay.Proofs.Route.Layering
/-!
# Captures by name

The captures of a route are read by name in two ways. A single parameter is that
of the first wildcard of the name; the map of all parameters has that of the
last. So the two agree about a name if and only if the url has the same segment
in both positions, and about all names of a pattern that uses none of them
twice.
-/

namespace ChatRelay

namespace Json.Members

/-- The last of several assignments to a key holds, and without any the value
from before. -/
theorem get?_assign_eq (members assignments : Members) (key : String) :
    (members.assign assignments).get? key =
      ((assignments.reverse.find? fun m => m.1 = key).map Prod.snd).or
        (members.get? key) := by
  induction assignments generalizing members with
  | nil => rfl
  | cons m assignments ih =>
      have hmore : (members.assign (m :: assignments)).get? key =
          ((members.insert m.1 m.2).assign assignments).get? key := rfl
      rw [hmore, ih, get?_insert, List.reverse_cons, List.find?_append]
      cases assignments.reverse.find? fun m => m.1 = key with
      | some later => rfl
      | none =>
          by_cases hkey : m.1 = key
          · simp [hkey]
          · simp [hkey]

theorem has_iff (members : Members) (key : String) :
    members.has key = true ↔ (members.get? key).isSome := by
  simp [has, get?]

end Json.Members

namespace Route

variable {segments : List Segment} {url : List String} {name : String} {i : Nat}

/-- The position of the first wildcard of a name. -/
structure FirstWild (segments : List Segment) (name : String)
    (i : Nat) : Prop where
  here : segments[i]? = some (.wildcard name)
  before : ∀ j < i, segments[j]? ≠ some (.wildcard name)

/-- The position of the last wildcard of a name. -/
structure LastWild (segments : List Segment) (name : String)
    (i : Nat) : Prop where
  here : segments[i]? = some (.wildcard name)
  behind : ∀ j > i, segments[j]? ≠ some (.wildcard name)

/-- The wildcards among some segments, each with the segment of the url at its
position. -/
def bound (segments : List Segment) (url : List String) :
    List (String × String) :=
  (segments.zip url).filterMap fun p => p.1.name?.map fun name => (name, p.2)

theorem bound_wildcard (name s : String) (segments : List Segment)
    (url : List String) :
    bound (.wildcard name :: segments) (s :: url) =
      (name, s) :: bound segments url :=
  rfl

/-- Names and captures in two lists are paired in order. -/
theorem zip_captured (h : Fits segments url) :
    (segments.filterMap Segment.name?).zip (captured segments url) =
      bound segments url := by
  induction h with
  | nil => rfl
  | @cons segment s segments url htakes hfits ih =>
      cases segment with
      | literal text => exact ih
      | wildcard name => exact congrArg ((name, s) :: ·) ih

theorem mem_bound {p : String × String} (h : p ∈ bound segments url) :
    ∃ i : Nat, segments[i]? = some (.wildcard p.1) := by
  obtain ⟨⟨segment, s⟩, hpair, hname⟩ := List.mem_filterMap.mp h
  obtain ⟨i, hi⟩ := List.mem_iff_getElem?.mp (List.of_mem_zip hpair).1
  refine ⟨i, hi.trans ?_⟩
  cases segment with
  | literal text => exact nomatch hname
  | wildcard name =>
      obtain rfl := Option.some.inj hname
      rfl

theorem Fits.getElem? (h : Fits segments url) {segment : Segment}
    (hi : segments[i]? = some segment) : ∃ s, url[i]? = some s := by
  obtain ⟨hlt, -⟩ := List.getElem?_eq_some_iff.mp hi
  exact ⟨_, List.getElem?_eq_getElem (h.length_eq ▸ hlt)⟩

/-- A search finds the first wildcard of a name. -/
theorem find?_bound (h : Fits segments url)
    (hfirst : FirstWild segments name i) :
    (bound segments url).find? (fun p => p.1 = name) = url[i]?.map fun s =>
      (name, s) := by
  induction h generalizing i with
  | nil => exact nomatch hfirst.here
  | @cons segment s segments url htakes hfits ih =>
      cases i with
      | zero =>
          obtain rfl : segment = .wildcard name := Option.some.inj hfirst.here
          rw [bound_wildcard]
          exact List.find?_cons_of_pos (by simp)
      | succ i =>
          have hrest :=
            ih ⟨hfirst.here,
              fun j hj => hfirst.before (j + 1) (Nat.succ_lt_succ hj)⟩
          cases segment with
          | literal text => exact hrest
          | wildcard other =>
              have hother : other ≠ name := by
                rintro rfl
                exact hfirst.before 0 i.succ_pos rfl
              rw [bound_wildcard,
                List.find?_cons_of_neg (by simpa using hother)]
              exact hrest

/-- A search from the end finds the last wildcard of a name. -/
theorem find?_reverse_bound (h : Fits segments url)
    (hlast : LastWild segments name i) :
    (bound segments url).reverse.find? (fun p => p.1 = name) =
      url[i]?.map fun s => (name, s) := by
  induction h generalizing i with
  | nil => exact nomatch hlast.here
  | @cons segment s segments url htakes hfits ih =>
      cases i with
      | zero =>
          obtain rfl : segment = .wildcard name := Option.some.inj hlast.here
          have hnone : (bound segments url).reverse.find?
              (fun p => p.1 = name) = none := by
            refine List.find?_eq_none.mpr fun p hp hname => ?_
            obtain ⟨j, hj⟩ := mem_bound (List.mem_reverse.mp hp)
            rw [of_decide_eq_true hname] at hj
            exact hlast.behind (j + 1) j.succ_pos hj
          rw [bound_wildcard, List.reverse_cons, List.find?_append, hnone,
            Option.none_or]
          exact List.find?_cons_of_pos (by simp)
      | succ i =>
          have hrest :=
            ih ⟨hlast.here,
              fun j hj => hlast.behind (j + 1) (Nat.succ_lt_succ hj)⟩
          cases segment with
          | literal text => exact hrest
          | wildcard other =>
              obtain ⟨last, hurl⟩ := Fits.getElem? hfits (i := i) hlast.here
              rw [bound_wildcard, List.reverse_cons, List.find?_append, hrest,
                List.getElem?_cons_succ, hurl]
              rfl

theorem mem_wildcards_iff {pattern : Pattern} :
    name ∈ pattern.wildcards ↔ .wildcard name ∈ pattern.segments := by
  rw [Pattern.wildcards, List.mem_filterMap]
  constructor
  · rintro ⟨segment, hsegment, hname⟩
    cases segment with
    | literal text => exact nomatch hname
    | wildcard other =>
        obtain rfl := Option.some.inj hname
        exact hsegment
  · exact fun h => ⟨_, h, rfl⟩

theorem exists_firstWild (h : Segment.wildcard name ∈ segments) :
    ∃ i, FirstWild segments name i := by
  induction segments with
  | nil => exact absurd h List.not_mem_nil
  | cons segment segments ih =>
      by_cases hhere : segment = .wildcard name
      · exact
          ⟨0, congrArg some hhere, fun j hj => absurd hj (Nat.not_lt_zero j)⟩
      · obtain ⟨i, hfirst⟩ :=
          ih ((List.mem_cons.mp h).resolve_left (Ne.symm hhere))
        refine ⟨i + 1, hfirst.here, fun j hj => ?_⟩
        cases j with
        | zero => exact fun hsame => hhere (Option.some.inj hsame)
        | succ j => exact hfirst.before j (Nat.lt_of_succ_lt_succ hj)

theorem exists_lastWild (h : Segment.wildcard name ∈ segments) :
    ∃ i, LastWild segments name i := by
  induction segments with
  | nil => exact absurd h List.not_mem_nil
  | cons segment segments ih =>
      by_cases hlater : Segment.wildcard name ∈ segments
      · obtain ⟨i, hlast⟩ := ih hlater
        refine ⟨i + 1, hlast.here, fun j hj => ?_⟩
        cases j with
        | zero => exact absurd hj (Nat.not_lt_zero _)
        | succ j => exact hlast.behind j (Nat.lt_of_succ_lt_succ hj)
      · obtain rfl : .wildcard name = segment :=
          (List.mem_cons.mp h).resolve_right hlater
        refine ⟨0, rfl, fun j hj hsame => hlater ?_⟩
        cases j with
        | zero => exact absurd hj (Nat.not_lt_zero _)
        | succ j => exact List.mem_of_getElem? hsame

/-- If no name is used twice the first wildcard of a name is the last. -/
theorem FirstWild.eq_last {pattern : Pattern} {last : Nat}
    (hnames : pattern.wildcards.Nodup)
    (hfirst : FirstWild pattern.segments name i)
    (hlast : LastWild pattern.segments name last) :
    i = last := by
  rcases Nat.lt_trichotomy i last with hlt | heq | hlt
  · obtain ⟨hin, hget⟩ := List.getElem?_eq_some_iff.mp hfirst.here
    obtain ⟨hin', hget'⟩ := List.getElem?_eq_some_iff.mp hlast.here
    have hapart :=
      List.pairwise_iff_getElem.mp (List.pairwise_filterMap.mp hnames) i
        last hin hin' hlt
    rw [hget, hget'] at hapart
    exact absurd rfl (hapart name rfl name rfl)
  · exact heq
  · exact absurd hlast.here (hfirst.before last hlt)

end Route

namespace Call

open Route

variable {call : Call} {segments : List Segment} {url : List String}
    {name : String} {i : Nat}

theorem params_get? (call : Call) (name : String) :
    call.params.get? name =
      ((call.named.reverse.find? fun p => p.1 = name).map Prod.snd).map
        Json.Value.string := by
  have hassign : call.params =
      Json.Members.assign []
        (call.named.map fun p => (p.1, Json.Value.string p.2)) :=
    rfl
  rw [hassign, Json.Members.get?_assign_eq, ← List.map_reverse, List.find?_map,
    Option.map_map, Option.map_map]
  exact Option.or_none

theorem param_first (hnamed : call.named = bound segments url)
    (hfits : Fits segments url) (hfirst : FirstWild segments name i) :
    url[i]? = some (call.param name) := by
  obtain ⟨s, hs⟩ := hfits.getElem? hfirst.here
  rw [param, hnamed, find?_bound hfits hfirst, hs]
  rfl

theorem params_last (hnamed : call.named = bound segments url)
    (hfits : Fits segments url) (hlast : LastWild segments name i) :
    call.params.get? name = url[i]?.map Json.Value.string := by
  rw [params_get?, hnamed, find?_reverse_bound hfits hlast, Option.map_map,
    Option.map_map]
  rfl

theorem absent (hnamed : call.named = bound segments url)
    (hname : Segment.wildcard name ∉ segments) :
    call.param name = "" ∧ call.params.get? name = none := by
  have hother : ∀ p ∈ bound segments url, ¬ decide (p.1 = name) = true := by
    intro p hp hsame
    obtain ⟨i, hi⟩ := mem_bound hp
    rw [of_decide_eq_true hsame] at hi
    exact hname (List.mem_of_getElem? hi)
  constructor
  · rw [param, hnamed, List.find?_eq_none.mpr hother]
    rfl
  · have hreversed :=
      List.find?_eq_none.mpr fun p hp => hother p (List.mem_reverse.mp hp)
    rw [params_get?, hnamed, hreversed]
    rfl

end Call

namespace Pass

variable {σ : Type}

/-- Layers keep the wildcards and their captures. -/
theorem named_inward (now : Time) (stack : List (Pass σ)) (call : Call)
    (s : σ) :
    (inward now stack call s).call.named = call.named := by
  obtain ⟨hpattern, htaken⟩ := inward_keeps now stack call s
  rw [Call.named, hpattern, htaken, Call.named]

end Pass

namespace Mux

open Route

variable {σ : Type}

/-- For a handler behind any layers, the map of all parameters has an entry for
a name if and only if the pattern has a wildcard of the name. The parameter of
that name alone is the segment of the url at the first such wildcard, and the
entry in the map is the one at the last. The two agree if and only if these
segments are equal, which is so where no name is used twice. Any other name has
no parameter. -/
theorem captures_by_name (acts : List (Act (Service σ))) (request : Request)
    (found : Table.Match (Service σ))
    (h : (build acts).mux.route? request = some found) (now : Time)
    (context : Context) (s : σ) (stack : List (Pass σ)) :
    let call : Call :=
      { request, context, pattern := some found.pattern, taken := found.taken }
    let seen := (Pass.inward now stack call s).call
    let url := urlSegments request.url
    (build acts).mux.call now context request s =
      some (found.value now call s) ∧
    (∀ name, seen.params.has name = true ↔ name ∈ found.pattern.wildcards) ∧
    (∀ name, name ∉ found.pattern.wildcards → seen.param name = "") ∧
    (∀ name ∈ found.pattern.wildcards, ∃ first last,
      FirstWild found.pattern.segments name first ∧
      LastWild found.pattern.segments name last ∧
      url[first]? = some (seen.param name) ∧
      seen.params.get? name = url[last]?.map Json.Value.string ∧
      (seen.params.get? name = some (.string (seen.param name)) ↔
        url[last]? = url[first]?)) ∧
    (found.pattern.wildcards.Nodup → ∀ name ∈ found.pattern.wildcards,
      seen.params.get? name = some (.string (seen.param name))) := by
  intro call seen url
  obtain ⟨hchosen, htaken⟩ := find?_chosen (build_sound acts).lists h
  have hfits : Fits found.pattern.segments url := hchosen.fits
  have hnamed : seen.named = bound found.pattern.segments url := by
    have hcall : call.named = found.pattern.wildcards.zip found.taken := rfl
    rw [Pass.named_inward, hcall, htaken]
    exact zip_captured hfits
  have hplaces (name : String) (hname : name ∈ found.pattern.wildcards) :
      ∃ first last, FirstWild found.pattern.segments name first ∧
        LastWild found.pattern.segments name last ∧
        url[first]? = some (seen.param name) ∧
        seen.params.get? name = url[last]?.map Json.Value.string := by
    obtain ⟨first, hfirst⟩ := exists_firstWild (mem_wildcards_iff.mp hname)
    obtain ⟨last, hlast⟩ := exists_lastWild (mem_wildcards_iff.mp hname)
    exact ⟨first, last, hfirst, hlast, Call.param_first hnamed hfits hfirst,
      Call.params_last hnamed hfits hlast⟩
  refine ⟨by rw [Mux.call, h, Option.map_some], fun name => ?_,
    fun name hname => ?_, fun name hname => ?_, fun hnodup name hname => ?_⟩
  · rw [Json.Members.has_iff]
    constructor
    · intro hsome
      by_contra hname
      rw [(Call.absent hnamed fun h => hname (mem_wildcards_iff.mpr h)).2]
        at hsome
      exact Bool.false_ne_true hsome
    · intro hname
      obtain ⟨first, last, hfirst, hlast, hparam, hparams⟩ := hplaces name hname
      obtain ⟨s, hs⟩ := hfits.getElem? hlast.here
      rw [hparams, hs]
      rfl
  · exact (Call.absent hnamed fun h => hname (mem_wildcards_iff.mpr h)).1
  · obtain ⟨first, last, hfirst, hlast, hparam, hparams⟩ := hplaces name hname
    refine ⟨first, last, hfirst, hlast, hparam, hparams, ?_⟩
    rw [hparams, hparam]
    obtain ⟨s, hs⟩ := hfits.getElem? hlast.here
    simp [hs]
  · obtain ⟨first, last, hfirst, hlast, hparam, hparams⟩ := hplaces name hname
    rw [hparams, ← hfirst.eq_last hnodup hlast, hparam]
    rfl

def idle : Service Nat := fun _ _ s => (.never, s)

/-- A route that uses one name twice, and a longer one whose wildcards have no
names. -/
def sampleNamed : List (Act (Service Nat)) :=
  [.register "GET" "/{a}/{b}/{a}" idle,
    .register "GET" "/\x7b\x7d/\x7b\x7d/2/x" idle]

/-- Behind a layer that numbers calls, both ways of reading agree about the name
that is used once, and not about the one that is used twice. -/
theorem sampleNamed_by_name :
    let request : Request := { method := "GET", url := "/1/2/3" }
    ∃ found, (build sampleNamed).mux.route? request = some found ∧
      let call : Call :=
        { request, pattern := some found.pattern, taken := found.taken }
      let seen := (Pass.inward 0 [.requestId fun n => (n, n + 1)] call 7).call
      found.pattern.wildcards = ["a", "b", "a"] ∧
        seen.context.requestId = some 7 ∧
        (∀ name, seen.params.has name = true ↔ name ∈ ["a", "b", "a"]) ∧
        seen.params.get? "b" = some (.string (seen.param "b")) ∧
        seen.params.get? "a" ≠ some (.string (seen.param "a")) := by
  intro request
  have hsome : ((build sampleNamed).mux.route? request).isSome := by
    decide +kernel
  have hpattern :
      ((build sampleNamed).mux.route? request).map Table.Match.pattern =
      some ⟨"GET", "/{a}/{b}/{a}",
        [.wildcard "a", .wildcard "b", .wildcard "a"]⟩ := by
    decide +kernel
  have hurl : urlSegments "/1/2/3" = ["1", "2", "3"] := by decide +kernel
  obtain ⟨⟨pattern, value, taken⟩, hfound⟩ := Option.isSome_iff_exists.mp hsome
  rw [hfound] at hpattern
  obtain rfl : pattern = _ := Option.some.inj hpattern
  obtain ⟨-, hhas, -, hplaces, -⟩ :=
    captures_by_name sampleNamed request _ hfound 0 {} 7
      [.requestId fun n => (n, n + 1)]
  refine ⟨_, hfound, rfl, rfl, hhas, ?_, ?_⟩
  · obtain ⟨first, last, hfirst, hlast, -, -, hsame⟩ :=
      hplaces "b" (show "b" ∈ ["a", "b", "a"] by decide)
    have honly (i : Nat)
        (hi : [Segment.wildcard "a", .wildcard "b", .wildcard "a"][i]? =
        some (.wildcard "b")) : i = 1 := by
      obtain ⟨hlt, -⟩ := List.getElem?_eq_some_iff.mp hi
      have hthree : i < 3 := hlt
      obtain rfl | rfl | rfl : i = 0 ∨ i = 1 ∨ i = 2 := by omega
      · exact absurd hi (by decide)
      · rfl
      · exact absurd hi (by decide)
    rw [honly first hfirst.here, honly last hlast.here] at hsame
    exact hsame.mpr rfl
  · obtain ⟨first, last, hfirst, hlast, -, -, hsame⟩ :=
      hplaces "a" (show "a" ∈ ["a", "b", "a"] by decide)
    have hstart : first = 0 := by
      by_contra hne
      exact hfirst.before 0 (Nat.pos_of_ne_zero hne) rfl
    have hend : last = 2 := by
      obtain ⟨hlt, -⟩ := List.getElem?_eq_some_iff.mp hlast.here
      have hthree : last < 3 := hlt
      by_contra hne
      exact hlast.behind 2 (by omega) rfl
    rw [hstart, hend, hurl] at hsame
    exact fun hagree => absurd (hsame.mp hagree) (by decide)

/-- Two wildcards of one name capture different segments, of which a single
parameter is the first and the entry in the map the second. -/
theorem last_of_two_is_kept :
    let request : Request := { method := "GET", url := "/1/2" }
    ∃ found, (build [.register "GET" "/{a}/{a}" idle]).mux.route? request =
      some found ∧
      "a" ∈ found.pattern.wildcards ∧
      let call : Call :=
        { request, pattern := some found.pattern, taken := found.taken }
      call.param "a" = "1" ∧ call.params.get? "a" = some (.string "2") := by
  intro request
  have hsome : ((build [.register "GET" "/{a}/{a}" idle]).mux.route?
      request).isSome := by
    decide +kernel
  have hroute :
      ((build [.register "GET" "/{a}/{a}" idle]).mux.route? request).map
      (fun found => (found.pattern, found.taken)) =
        some (⟨"GET", "/{a}/{a}", [.wildcard "a", .wildcard "a"]⟩,
          ["1", "2"]) := by
    decide +kernel
  obtain ⟨⟨pattern, value, taken⟩, hfound⟩ := Option.isSome_iff_exists.mp hsome
  rw [hfound] at hroute
  obtain ⟨rfl, rfl⟩ := Prod.mk.inj (Option.some.inj hroute)
  exact ⟨_, hfound, show "a" ∈ ["a", "a"] by decide, rfl, rfl⟩

end Mux
end ChatRelay
