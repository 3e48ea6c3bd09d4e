import Mathlib.Data.List.Forall2
import ChatRelay.Proofs.Route.Branches
/-!
# A routing table as a list of routes

A look-up in a table gives the result of a scan of all registered routes: the
one that fits and has a literal segment where another fitting one has its first
differing wildcard.
-/

namespace ChatRelay.Route

/-- Whether a segment of a pattern matches a segment of a url. -/
def Segment.Takes : Segment → String → Prop
  | literal text, s => text = s
  | wildcard _, _ => True

/-- The pattern has as many segments as the url, each of which matches the one
at its position. -/
def Fits (segments : List Segment) (url : List String) : Prop :=
  List.Forall₂ Segment.Takes segments url

/-- The segments of a url at the positions of wildcards, from left to right. -/
def captured : List Segment → List String → List String
  | .wildcard _ :: segments, s :: url => s :: captured segments url
  | .literal _ :: segments, _ :: url => captured segments url
  | _, _ => []

/-- At the first position where one of two patterns has a literal segment and
the other a wildcard, the literal is that of the first pattern. -/
def Precedes (first second : List Segment) : Prop :=
  ∃ i : Nat, (∃ text name, first[i]? = some (.literal text) ∧
    second[i]? = some (.wildcard name)) ∧
    ∀ j < i, (first[j]?).map Segment.isWildcard =
      (second[j]?).map Segment.isWildcard

theorem precedes_here (text name : String) (first second : List Segment) :
    Precedes (.literal text :: first) (.wildcard name :: second) :=
  ⟨0, ⟨text, name, rfl, rfl⟩, fun j hj => absurd hj (Nat.not_lt_zero j)⟩

theorem precedes_cons {s t : Segment} (hst : s.isWildcard = t.isWildcard)
    {first second : List Segment} (h : Precedes first second) :
    Precedes (s :: first) (t :: second) := by
  obtain ⟨i, hi, hbefore⟩ := h
  refine ⟨i + 1, hi, fun j hj => ?_⟩
  cases j with
  | zero => exact congrArg some hst
  | succ j => exact hbefore j (Nat.lt_of_succ_lt_succ hj)

/-- Precedence is asymmetric. -/
theorem precedes_asymm {first second : List Segment}
    (h : Precedes first second) :
    ¬ Precedes second first := by
  obtain ⟨i, ⟨text, name, hfirst, hsecond⟩, hbefore⟩ := h
  rintro ⟨k, ⟨text', name', hsecond', hfirst'⟩, hbefore'⟩
  rcases Nat.lt_trichotomy i k with hik | rfl | hki
  · have := hbefore' i hik
    simp [hfirst, hsecond, Segment.isWildcard, Segment.name?] at this
  · simp [hfirst] at hfirst'
  · have := hbefore k hki
    simp [hfirst', hsecond', Segment.isWildcard, Segment.name?] at this

section Tree

variable {α : Type}

theorem find_eq_none {tree : Tree α} {url : List String}
    (h : tree.find url = none) {segments : List Segment}
    (hfits : Fits segments url) : tree.get? segments = none := by
  induction hfits generalizing tree with
  | nil => simpa [Tree.find, Tree.get?] using h
  | @cons s u segments url htakes hfits ih =>
      rw [Tree.find_cons tree u url ""] at h
      cases hliteral : (tree.branch (.literal u)).find url with
      | some found => simp [hliteral] at h
      | none =>
          simp only [hliteral, Option.map_eq_none_iff] at h
          cases s with
          | literal text =>
              obtain rfl : text = u := htakes
              exact ih hliteral
          | wildcard name =>
              exact ih h

/-- The preferred pattern in a tree for a url, and its captures. -/
structure Best (tree : Tree α) (url : List String) (segments : List Segment)
    (taken : List String) : Prop where
  fits : Fits segments url
  taken_eq : taken = captured segments url
  first : ∀ others, Fits others url → (tree.get? others).isSome →
    shape others = shape segments ∨ Precedes segments others

namespace Best

variable {tree : Tree α} {u : String} {url taken : List String}
    {segments : List Segment}

theorem literal (h : Best (tree.branch (.literal u)) url segments taken) :
    Best tree (u :: url) (.literal u :: segments) taken := by
  refine ⟨.cons rfl h.fits, h.taken_eq, fun others hothers hsome => ?_⟩
  cases hothers with
  | @cons s _ others _ htakes hothers =>
      cases s with
      | literal text =>
          obtain rfl : text = u := htakes
          rcases h.first others hothers hsome with hshape | hprecedes
          · exact .inl (congrArg (some text :: ·) hshape)
          · exact .inr (precedes_cons rfl hprecedes)
      | wildcard name => exact .inr (precedes_here u name segments others)

/-- The wildcard branch is preferred where the literal branch has no match. -/
theorem wildcard (name : String)
    (hnone : (tree.branch (.literal u)).find url = none)
    (h : Best (tree.branch (.wildcard name)) url segments taken) :
    Best tree (u :: url) (.wildcard name :: segments) (u :: taken) := by
  refine ⟨.cons trivial h.fits, congrArg (u :: ·) h.taken_eq,
    fun others hothers hsome => ?_⟩
  cases hothers with
  | @cons s _ others _ htakes hothers =>
      cases s with
      | literal text =>
          obtain rfl : text = u := htakes
          rw [Tree.get?, find_eq_none hnone hothers] at hsome
          simp at hsome
      | wildcard name' =>
          rcases h.first others hothers hsome with hshape | hprecedes
          · exact .inl (congrArg (none :: ·) hshape)
          · exact .inr (precedes_cons (s := .wildcard name)
              (t := .wildcard name') rfl hprecedes)

end Best

/-- A look-up finds the preferred segments, up to their shape. -/
theorem find_eq_some {tree : Tree α} {url taken : List String} {a : α}
    (h : tree.find url = some (a, taken)) :
    ∃ found, tree.get? found = some a ∧
      ∀ segments, shape segments = shape found →
        Best tree url segments taken := by
  -- along the url, from tree to branch
  induction url generalizing tree taken with
  | nil =>
      simp only [Tree.find, Option.map_eq_some_iff, Prod.mk.injEq] at h
      obtain ⟨_, hleaf, rfl, rfl⟩ := h
      refine ⟨[], hleaf, fun segments hshape => ?_⟩
      obtain rfl : segments = [] := by simpa [shape] using hshape
      refine ⟨.nil, rfl, fun others hothers _ => .inl ?_⟩
      cases hothers
      rfl
  | cons u url ih =>
      rw [Tree.find_cons tree u url ""] at h
      cases hliteral : (tree.branch (.literal u)).find url with
      | some result =>
          simp only [hliteral, Option.some.injEq] at h
          subst h
          obtain ⟨found, hget, hbest⟩ := ih hliteral
          refine ⟨.literal u :: found, hget, fun segments hshape => ?_⟩
          obtain ⟨s, rest, rfl, hs, hrest⟩ := List.map_eq_cons_iff.mp hshape
          obtain rfl := literal?_eq_some hs
          exact (hbest rest hrest).literal
      | none =>
          simp only [hliteral, Option.map_eq_some_iff, Prod.mk.injEq,
            Prod.exists] at h
          obtain ⟨_, taken', hwild, rfl, rfl⟩ := h
          obtain ⟨found, hget, hbest⟩ := ih hwild
          refine ⟨.wildcard "" :: found, hget, fun segments hshape => ?_⟩
          obtain ⟨s, rest, rfl, hs, hrest⟩ := List.map_eq_cons_iff.mp hshape
          obtain ⟨name, rfl⟩ := literal?_eq_none hs
          exact (hbest rest hrest).wildcard name hliteral

end Tree

section Table

variable {α : Type} {table : Table α} {routes : List (Pattern × α)}

/-- A table that holds exactly these routes. -/
def Lists (table : Table α) (routes : List (Pattern × α)) : Prop :=
  ∀ method segments route, (table.root method).get? segments = some route ↔
    route ∈ routes ∧ route.1.method = method ∧
    shape route.1.segments = shape segments

/-- A table and the routes that it accepted. -/
structure Registry (α : Type) where
  table : Table α := {}
  routes : List (Pattern × α) := []

namespace Registry

/-- Offer a route to a table, which may refuse it. -/
def offer (registry : Registry α) (route : Pattern × α) : Registry α :=
  match registry.table.insert route.1 route.2 with
  | .ok table => ⟨table, registry.routes ++ [route]⟩
  | .error _ => registry

def ofOffers (offers : List (Pattern × α)) : Registry α := offers.foldl offer {}

end Registry

theorem root_insert {pattern : Pattern} {a : α} {table' : Table α}
    (h : table.insert pattern a = .ok table') :
    (table.root pattern.method).get? pattern.segments = none ∧
      ∀ method, table'.root method =
        if pattern.method = method then
          (table.root pattern.method).insert (pattern, a) pattern.segments
        else table.root method := by
  unfold Table.insert at h
  cases hget : (table.root pattern.method).get? pattern.segments with
  | some other => simp [hget] at h
  | none =>
      simp only [hget, Except.ok.injEq] at h
      subst h
      refine ⟨rfl, fun method => ?_⟩
      simp only [Table.root, Tree.find?_putBranch]
      split <;> rfl

theorem lists_insert {route : Pattern × α} {table' : Table α}
    (hlists : Lists table routes)
    (h : table.insert route.1 route.2 = .ok table') : Lists table'
    (routes ++ [route]) := by
  obtain ⟨hfree, hroot⟩ := root_insert h
  intro method segments other
  by_cases hsame : route.1.method = method ∧
  shape route.1.segments = shape segments
  · obtain ⟨rfl, hshape⟩ := hsame
    rw [hroot, if_pos rfl, Tree.get?_insert, if_pos hshape]
    constructor
    · rintro ⟨⟩
      exact ⟨List.mem_append_right routes (List.mem_singleton_self _),
        rfl, hshape⟩
    · rintro ⟨hother, hmethod, hshape'⟩
      rcases List.mem_append.mp hother with hold | hnew
      · -- an old route in this place would have stood in the way
        have :=
          (hlists _ route.1.segments other).mpr
            ⟨hold, hmethod, hshape'.trans hshape.symm⟩
        rw [hfree] at this
        simp at this
      · rw [List.mem_singleton.mp hnew]
  · -- nothing changes for another method or another shape
    have hget : (table'.root method).get? segments =
        (table.root method).get? segments := by
      rw [hroot]
      split
      · next hmethod =>
          subst hmethod
          rw [Tree.get?_insert, if_neg fun hshape => hsame ⟨rfl, hshape⟩]
      · rfl
    rw [hget, hlists]
    constructor
    · exact fun ⟨hold, hother⟩ => ⟨List.mem_append_left [route] hold, hother⟩
    · rintro ⟨hother, hmethod, hshape⟩
      rcases List.mem_append.mp hother with hold | hnew
      · exact ⟨hold, hmethod, hshape⟩
      · rw [List.mem_singleton.mp hnew] at hmethod hshape
        exact absurd ⟨hmethod, hshape⟩ hsame

theorem lists_offer {registry : Registry α}
    (h : Lists registry.table registry.routes) (route : Pattern × α) :
    Lists (registry.offer route).table (registry.offer route).routes := by
  unfold Registry.offer
  split
  · next table hinsert => exact lists_insert h hinsert
  · exact h

theorem lists_ofOffers (offers : List (Pattern × α)) :
    Lists (Registry.ofOffers offers).table
      (Registry.ofOffers offers).routes := by
  suffices hrun : ∀ registry : Registry α,
      Lists registry.table registry.routes →
      Lists (offers.foldl Registry.offer registry).table
        (offers.foldl Registry.offer registry).routes by
    refine hrun {} fun method segments route => ?_
    simp [Table.root, Tree.get?_empty]
  induction offers with
  | nil => exact fun registry h => h
  | cons route offers ih =>
    exact fun registry h => ih (registry.offer route) (lists_offer h route)

/-- The result of a scan: of the routes that fit, the one that precedes all
others. -/
structure Chosen (routes : List (Pattern × α)) (method : String)
    (url : List String) (route : Pattern × α) : Prop where
  mem : route ∈ routes
  method_eq : route.1.method = method
  fits : Fits route.1.segments url
  first : ∀ other ∈ routes, other.1.method = method →
    Fits other.1.segments url →
    other = route ∨ Precedes route.1.segments other.1.segments

theorem Chosen.unique {method : String} {url : List String}
    {route route' : Pattern × α} (h : Chosen routes method url route)
    (h' : Chosen routes method url route') :
    route' = route := by
  rcases h.first route' h'.mem h'.method_eq h'.fits with heq | hprecedes
  · exact heq
  · rcases h'.first route h.mem h.method_eq h.fits with heq | hprecedes'
    · exact heq.symm
    · exact absurd hprecedes' (precedes_asymm hprecedes)

theorem Chosen.congr {routes' : List (Pattern × α)} {method : String}
    {url : List String} {route : Pattern × α}
    (h : Chosen routes' method url route)
    (hsame : ∀ route, route ∈ routes' ↔ route ∈ routes) :
    Chosen routes method url route :=
  ⟨(hsame route).mp h.mem, h.method_eq, h.fits,
    fun other hother => h.first other ((hsame other).mpr hother)⟩

theorem find?_chosen (hlists : Lists table routes) {method url : String}
    {found : Table.Match α} (h : table.find? method url = some found) :
    Chosen routes method (urlSegments url) (found.pattern, found.value) ∧
      found.taken = captured found.pattern.segments (urlSegments url) := by
  unfold Table.find? at h
  split at h
  · simp at h
  · obtain ⟨⟨⟨pattern, value⟩, taken⟩, hfind, rfl⟩ :=
      Option.map_eq_some_iff.mp h
    obtain ⟨segments, hget, hbest⟩ := find_eq_some hfind
    obtain ⟨hmem, hmethod, hshape⟩ := (hlists _ _ _).mp hget
    have hbest := hbest _ hshape
    refine ⟨⟨hmem, hmethod, hbest.fits, fun other hother hmethod' hfits => ?_⟩,
      hbest.taken_eq⟩
    have hother' :=
      (hlists method other.1.segments other).mpr ⟨hother, hmethod', rfl⟩
    rcases hbest.first _ hfits (by simp [hother']) with hsame | hprecedes
    · left
      have hroute := (hlists method other.1.segments (pattern, value)).mpr
        ⟨hmem, hmethod, hsame.symm⟩
      exact Option.some.inj (hother'.symm.trans hroute)
    · exact .inr hprecedes

theorem find?_isSome (hlists : Lists table routes) (method url : String) :
    (table.find? method url).isSome ↔ method ≠ "" ∧ url ≠ "" ∧
      ∃ route ∈ routes, route.1.method = method ∧
        Fits route.1.segments (urlSegments url) := by
  constructor
  · intro h
    obtain ⟨found, hfound⟩ := Option.isSome_iff_exists.mp h
    have hchosen := (find?_chosen hlists hfound).1
    unfold Table.find? at h
    split at h
    · simp at h
    · next hnames =>
        exact ⟨fun h => hnames (.inl h), fun h => hnames (.inr h), _,
          hchosen.mem, hchosen.method_eq, hchosen.fits⟩
  · rintro ⟨hmethod, hurl, route, hroute, hmethod', hfits⟩
    have hget :=
      (hlists method route.1.segments route).mpr ⟨hroute, hmethod', rfl⟩
    rw [Table.find?, if_neg (by simp [hmethod, hurl]), Option.isSome_map]
    cases hfind : (table.root method).find (urlSegments url) with
    | some found => rfl
    | none => simp [find_eq_none hfind hfits] at hget

theorem find?_congr {table' : Table α} {routes' : List (Pattern × α)}
    (hlists : Lists table routes) (hlists' : Lists table' routes')
    (hsame : ∀ route, route ∈ routes' ↔ route ∈ routes) (method url : String) :
    table'.find? method url = table.find? method url := by
  have hsome : (table'.find? method url).isSome ↔
      (table.find? method url).isSome := by
    simp only [find?_isSome hlists, find?_isSome hlists', hsame]
  cases h : table.find? method url with
  | none => simpa [h] using hsome
  | some found =>
      rw [h] at hsome
      obtain ⟨found', h'⟩ := Option.isSome_iff_exists.mp (hsome.mpr rfl)
      obtain ⟨hchosen, htaken⟩ := find?_chosen hlists h
      obtain ⟨hchosen', htaken'⟩ := find?_chosen hlists' h'
      obtain ⟨pattern, value, taken⟩ := found
      obtain ⟨pattern', value', taken'⟩ := found'
      obtain ⟨rfl, rfl⟩ := Prod.mk.inj (hchosen.unique (hchosen'.congr hsame))
      have htakens : taken' = taken := htaken'.trans htaken.symm
      rw [h', htakens]

/-- A look-up agrees with a scan of the accepted routes: it finds one if and
only if one fits, it finds the only one that precedes all others that fit, with
its captures, and only the set of accepted routes matters, not their order. -/
theorem find?_scan (offers : List (Pattern × α)) (method url : String) :
    let registry := Registry.ofOffers offers
    ((registry.table.find? method url).isSome ↔ method ≠ "" ∧ url ≠ "" ∧
      ∃ route ∈ registry.routes,
        route.1.method = method ∧ Fits route.1.segments (urlSegments url)) ∧
    (∀ found, registry.table.find? method url = some found →
      Chosen registry.routes method (urlSegments url)
        (found.pattern, found.value) ∧
      (∀ route, Chosen registry.routes method (urlSegments url) route →
        route = (found.pattern, found.value)) ∧
      found.taken = captured found.pattern.segments (urlSegments url)) ∧
    ∀ others, (∀ route, route ∈ (Registry.ofOffers others).routes ↔
      route ∈ registry.routes) →
      (Registry.ofOffers others).table.find? method url =
        registry.table.find? method url := by
  have hlists := lists_ofOffers offers
  refine ⟨find?_isSome hlists method url, fun found hfound => ?_,
    fun others hsame => ?_⟩
  · obtain ⟨hchosen, htaken⟩ := find?_chosen hlists hfound
    exact ⟨hchosen, fun route hroute => hchosen.unique hroute, htaken⟩
  · exact find?_congr hlists (lists_ofOffers others) hsame method url

end Table

/-- Routes with literals and wildcards at the same positions, of which the
fourth is refused. -/
def sampleOffers : List (Pattern × Nat) := [
  (⟨"GET", "/a/v/x", [.literal "a", .wildcard "v", .literal "x"]⟩, 1),
  (⟨"GET", "/w/b/y", [.wildcard "w", .literal "b", .literal "y"]⟩, 2),
  (⟨"GET", "/a/b/z", [.literal "a", .literal "b", .literal "z"]⟩, 3),
  (⟨"GET", "/a/u/x", [.literal "a", .wildcard "u", .literal "x"]⟩, 4)]

theorem sampleOffers_scan :
    (Registry.ofOffers sampleOffers).routes = sampleOffers.take 3 ∧
      (∀ route,
        route ∈ (Registry.ofOffers (sampleOffers.take 3).reverse).routes ↔
        route ∈ (Registry.ofOffers sampleOffers).routes) ∧
      (Registry.ofOffers (sampleOffers.take 3).reverse).table.find?
        "GET" "/a/b/y" =
        (Registry.ofOffers sampleOffers).table.find? "GET" "/a/b/y" := by
  have htook :
      (Registry.ofOffers sampleOffers).routes = sampleOffers.take 3 := by
    decide +kernel
  have hsame : ∀ route,
      route ∈ (Registry.ofOffers (sampleOffers.take 3).reverse).routes ↔
      route ∈ (Registry.ofOffers sampleOffers).routes := by
    have hreversed : (Registry.ofOffers (sampleOffers.take 3).reverse).routes =
        (sampleOffers.take 3).reverse := by decide +kernel
    intro route
    rw [htook, hreversed, List.mem_reverse]
  exact ⟨htook, hsame, (find?_scan sampleOffers "GET" "/a/b/y").2.2 _ hsame⟩

end ChatRelay.Route
