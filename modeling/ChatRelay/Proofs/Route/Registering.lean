import ChatRelay.Route.Mux
import ChatRelay.Proofs.Route.Scan
/-!
# Registering routes

A route is refused if and only if its pattern is empty or another route of its
shape was registered before. In place, the branches for a new route are created
before the check that its place is free; where it is not, all of them exist
already, so nothing changes.
-/

namespace ChatRelay.Route

namespace Tree

variable {α : Type}

/-- Register a value in place: the branches are created first, and a value at
their end is kept. The result also says whether there was none. -/
def place (tree : Tree α) (a : α) : List Segment → Bool × Tree α
  | [] =>
    match tree with
    | node leaf literals wild =>
      (leaf.isNone, node (some (leaf.getD a)) literals wild)
  | s :: rest =>
    let (free, branch) := (tree.branch s).place a rest
    (free, tree.setBranch s branch)

theorem place_of_free {tree : Tree α} {segments : List Segment} (a : α)
    (h : tree.get? segments = none) :
    tree.place a segments = (true, tree.insert a segments) := by
  induction segments generalizing tree with
  | nil =>
      obtain ⟨leaf, literals, wild⟩ := tree
      obtain rfl : leaf = none := h
      rfl
  | cons s segments ih => rw [place, ih h, insert]

theorem putBranch_same {text : String} {b : Tree α}
    {branches : List (String × Tree α)}
    (h : (branches.find? fun b => b.1 = text).map Prod.snd = some b) :
    putBranch text b branches = branches := by
  induction branches with
  | nil => simp at h
  | cons first branches ih =>
      obtain ⟨t, old⟩ := first
      by_cases ht : t = text
      · obtain rfl : old = b := by simpa [ht] using h
        simp [putBranch, ht]
      · rw [List.find?_cons_of_neg (by simpa using ht)] at h
        simp [putBranch, ht, ih h]

/-- A value that is registered behind a branch is found behind it. -/
theorem setBranch_branch {tree : Tree α} {s : Segment} {segments : List Segment}
    (h : (tree.branch s).get? segments ≠ none) :
    tree.setBranch s (tree.branch s) = tree := by
  obtain ⟨leaf, literals, wild⟩ := tree
  cases s with
  | literal text =>
      cases hbranch : (node leaf literals wild).literal? text with
      | none =>
          simp only [branch, hbranch, Option.getD_none] at h
          exact absurd (get?_empty segments) h
      | some b =>
          simp only [setBranch, branch, hbranch, Option.getD_some]
          rw [putBranch_same hbranch]
  | wildcard name =>
      cases wild with
      | none => exact absurd (get?_empty segments) h
      | some b => rfl

/-- Where a value is registered already, no branch is created. -/
theorem place_of_taken {tree : Tree α} {segments : List Segment} {b : α} (a : α)
    (h : tree.get? segments = some b) :
    tree.place a segments = (false, tree) := by
  induction segments generalizing tree with
  | nil =>
      obtain ⟨leaf, literals, wild⟩ := tree
      obtain rfl : leaf = some b := h
      rfl
  | cons s segments ih =>
      have hbranch : (tree.branch s).get? segments = some b := h
      have hthere : (tree.branch s).get? segments ≠ none := by simp [hbranch]
      rw [place, ih hbranch]
      exact congrArg (Prod.mk false) (setBranch_branch hthere)

theorem size_empty : (empty : Tree α).size = 0 := rfl

theorem sizeLiterals_putBranch (text : String) (new : Tree α)
    (branches : List (String × Tree α)) :
    sizeLiterals (putBranch text new branches) +
        (((branches.find? fun b => b.1 = text).map Prod.snd).getD empty).size =
      sizeLiterals branches + new.size := by
  induction branches with
  | nil => simp [putBranch, sizeLiterals, size_empty]
  | cons first branches ih =>
      obtain ⟨t, old⟩ := first
      by_cases ht : t = text
      · simp only [putBranch, ht, ↓reduceIte, sizeLiterals, decide_true,
          List.find?_cons_of_pos, Option.map_some, Option.getD_some]
        omega
      · rw [List.find?_cons_of_neg (by simpa using ht)]
        simp only [putBranch, ht, ↓reduceIte, sizeLiterals]
        omega

/-- The size after a branch is replaced. -/
theorem size_setBranch (tree : Tree α) (s : Segment) (new : Tree α) :
    (tree.setBranch s new).size + (tree.branch s).size =
      tree.size + new.size := by
  obtain ⟨leaf, literals, wild⟩ := tree
  cases s with
  | literal text =>
      have := sizeLiterals_putBranch text new literals
      simp only [setBranch, branch, literal?, size]
      omega
  | wildcard name =>
      cases wild with
      | none =>
          simp only [setBranch, branch, wild?, size, sizeWild,
            Option.getD_none, size_empty]
          omega
      | some old =>
          simp only [setBranch, branch, wild?, size, sizeWild, Option.getD_some]
          omega

theorem size_insert {tree : Tree α} {segments : List Segment} (a : α)
    (h : tree.get? segments = none) :
    (tree.insert a segments).size = tree.size + 1 := by
  induction segments generalizing tree with
  | nil =>
      obtain ⟨leaf, literals, wild⟩ := tree
      obtain rfl : leaf = none := h
      simp only [insert, size, Option.isSome_some, Option.isSome_none,
        Bool.false_eq_true, ↓reduceIte]
      omega
  | cons s segments ih =>
      have hbranch := @ih (tree.branch s) h
      have := size_setBranch tree s ((tree.branch s).insert a segments)
      rw [insert]
      omega

end Tree

namespace Table

variable {α : Type}

/-- Register a value in place, with success or failure. -/
def place (table : Table α) (pattern : Pattern) (a : α) :
    Except RegistrationError Unit × Table α :=
  let (free, root) :=
    (table.root pattern.method).place (pattern, a) pattern.segments
  (if free then
    .ok () else .error (.alreadyRegistered pattern.method pattern.url),
      ⟨Tree.putBranch pattern.method root table.roots⟩)

/-- In-place registration is registration where that succeeds, and changes
nothing otherwise. -/
theorem place_eq (table : Table α) (pattern : Pattern) (a : α) :
    table.place pattern a =
      match table.insert pattern a with
      | .ok table' => (.ok (), table')
      | .error e => (.error e, table) := by
  cases hget : (table.root pattern.method).get? pattern.segments with
  | none =>
    simp only [place, insert, hget, Tree.place_of_free _ hget, ↓reduceIte]
  | some other =>
      have hroots : Tree.putBranch pattern.method (table.root pattern.method)
          table.roots = table.roots := by
        unfold root at hget ⊢
        cases hfind :
          (table.roots.find? fun r => r.1 = pattern.method).map Prod.snd with
        | none => simp [hfind, Tree.get?_empty] at hget
        | some root => exact Tree.putBranch_same hfind
      simp only [place, insert, hget, Tree.place_of_taken _ hget, hroots,
        Bool.false_eq_true, ↓reduceIte]

theorem size_insert {table table' : Table α} {pattern : Pattern} {a : α}
    (h : table.insert pattern a = .ok table') :
    table'.size = table.size + 1 := by
  obtain ⟨hfree, -⟩ := root_insert h
  simp only [insert, hfree, Except.ok.injEq] at h
  subst h
  have hroot := Tree.sizeLiterals_putBranch pattern.method
    ((table.root pattern.method).insert (pattern, a) pattern.segments)
      table.roots
  have hsize := Tree.size_insert (pattern, a) hfree
  unfold root at hroot hsize
  simp only [size, root]
  omega

end Table
end ChatRelay.Route

namespace ChatRelay.Mux

open Route

variable {ρ : Type}

/-- Register a service in place, with success or failure. -/
def register (mux : Mux ρ) (method url : String) (service : ρ) :
    Except RegistrationError Unit × Mux ρ :=
  match Pattern.parse method url with
  | .error e => (.error e, mux)
  | .ok pattern =>
    let (answer, table) := mux.table.place pattern (mux.wrap service)
    (answer, { mux with table })

theorem register_eq (mux : Mux ρ) (method url : String) (service : ρ) :
    mux.register method url service =
      match mux.handle method url service with
      | .ok mux' => (.ok (), mux')
      | .error e => (.error e, mux) := by
  unfold register handle
  cases Pattern.parse method url with
  | error e => rfl
  | ok pattern =>
      simp only [Table.place_eq, bind, Except.bind]
      cases mux.table.insert pattern (mux.wrap service) with
      | error e => rfl
      | ok table => rfl

/-- An action on a router before it is used. -/
inductive Act (ρ : Type) where
  | layer (l : ρ → ρ)
  | register (method url : String) (service : ρ)

/-- A router and the routes that it accepted, in order, each with its service
inside the layers of that time. -/
structure Built (ρ : Type) where
  mux : Mux ρ := {}
  routes : List (Pattern × ρ) := []

/-- Add a layer or try to register a service. -/
def Built.act (built : Built ρ) : Act ρ → Built ρ
  | .layer l => { built with mux := built.mux.layer l }
  | .register method url service =>
    match built.mux.register method url service, Pattern.parse method url with
    | (.ok (), mux), .ok pattern =>
      ⟨mux, built.routes ++ [(pattern, built.mux.wrap service)]⟩
    | (_, mux), _ => { built with mux }

/-- The router after a sequence of actions. -/
def build (acts : List (Act ρ)) : Built ρ := acts.foldl Built.act {}

/-- The same method, and segments that differ at most in the names of
wildcards. -/
def SameRoute (p q : Pattern) : Prop :=
  p.method = q.method ∧ shape p.segments = shape q.segments

/-- The possible outcomes of an attempt to register a service with a router that
accepted some routes. -/
inductive Attempt (mux : Mux ρ) (routes : List (Pattern × ρ))
    (method url : String) (service : ρ) :
    Except RegistrationError Unit → Mux ρ → Prop
  | empty (hempty : method = "" ∨ url = "")
      (hparse : Pattern.parse method url = .error .emptyPattern) :
      Attempt mux routes method url service (.error .emptyPattern) mux
  | taken {pattern : Pattern} {route : Pattern × ρ}
      (hempty : ¬ (method = "" ∨ url = ""))
      (hparse : Pattern.parse method url = .ok pattern)
      (hroute : route ∈ routes) (halike : SameRoute route.1 pattern) :
      Attempt mux routes method url service
        (.error (.alreadyRegistered method url)) mux
  | added {pattern : Pattern} {table : Table ρ}
      (hempty : ¬ (method = "" ∨ url = ""))
      (hparse : Pattern.parse method url = .ok pattern)
      (hfree : ∀ route ∈ routes, ¬ SameRoute route.1 pattern)
      (hinsert : mux.table.insert pattern (mux.wrap service) = .ok table) :
      Attempt mux routes method url service (.ok ()) { mux with table }

theorem attempt_register {mux : Mux ρ} {routes : List (Pattern × ρ)}
    (hlists : Lists mux.table routes) (method url : String) (service : ρ) :
    Attempt mux routes method url service (mux.register method url service).1
      (mux.register method url service).2 := by
  by_cases hempty : method = "" ∨ url = ""
  · have hparse : Pattern.parse method url = .error .emptyPattern :=
      if_pos hempty
    simp only [register, hparse]
    exact .empty hempty hparse
  · have hparse : Pattern.parse method url =
        .ok ⟨method, url, (rawSegments url).map Segment.ofText⟩ := if_neg hempty
    simp only [register, hparse, Table.place_eq, Table.insert]
    cases hget :
      (mux.table.root method).get? ((rawSegments url).map Segment.ofText) with
    | some route =>
        obtain ⟨hroute, hmethod, hshape⟩ := (hlists _ _ _).mp hget
        exact .taken hempty hparse hroute ⟨hmethod, hshape⟩
    | none =>
        refine .added hempty hparse (fun route hroute halike => ?_)
          (by simp [Table.insert, hget])
        have := (hlists _ _ route).mpr ⟨hroute, halike.1, halike.2⟩
        rw [hget] at this
        contradiction

namespace Attempt

variable {mux after : Mux ρ} {routes : List (Pattern × ρ)} {method url : String}
    {service : ρ}
  {answer : Except RegistrationError Unit}

theorem empty_iff (h : Attempt mux routes method url service answer after) :
    answer = .error .emptyPattern ↔ method = "" ∨ url = "" := by
  cases h with
  | empty hempty hparse => simpa using hempty
  | taken hempty hparse hroute halike => simpa using hempty
  | added hempty hparse hfree hinsert => simpa using hempty

theorem taken_iff (h : Attempt mux routes method url service answer after)
    (m u : String) :
    answer = .error (.alreadyRegistered m u) ↔ m = method ∧ u = url ∧
      ∃ pattern, Pattern.parse method url = .ok pattern ∧
        ∃ route ∈ routes, SameRoute route.1 pattern := by
  cases h with
  | empty hempty hparse => simp [hparse]
  | taken hempty hparse hroute halike =>
      simp only [Except.error.injEq, RegistrationError.alreadyRegistered.injEq]
      constructor
      · rintro ⟨rfl, rfl⟩
        exact ⟨rfl, rfl, _, hparse, _, hroute, halike⟩
      · rintro ⟨rfl, rfl, -⟩
        exact ⟨rfl, rfl⟩
  | added hempty hparse hfree hinsert =>
      simp only [reduceCtorEq, false_iff]
      rintro ⟨-, -, pattern, hparse', route, hroute, halike⟩
      obtain rfl := Except.ok.inj (hparse.symm.trans hparse')
      exact hfree route hroute halike

theorem unchanged (h : Attempt mux routes method url service answer after)
    (hfailed : answer ≠ .ok ()) : after = mux := by
  cases h with
  | empty hempty hparse => rfl
  | taken hempty hparse hroute halike => rfl
  | added hempty hparse hfree hinsert => exact absurd rfl hfailed

end Attempt

/-- The accepted routes are the ones that are looked up and counted. -/
structure Built.Sound (built : Built ρ) : Prop where
  lists : Lists built.mux.table built.routes
  size : built.mux.size = built.routes.length

theorem Built.Sound.act {built : Built ρ} (h : built.Sound) (act : Act ρ) :
    (built.act act).Sound := by
  cases act with
  | layer l => exact ⟨h.lists, h.size⟩
  | register method url service =>
      have hattempt := attempt_register h.lists method url service
      simp only [Built.act]
      revert hattempt
      generalize built.mux.register method url service = result
      obtain ⟨answer, mux⟩ := result
      intro hattempt
      cases hattempt with
      | empty hempty hparse => exact ⟨h.lists, h.size⟩
      | taken hempty hparse hroute halike => exact ⟨h.lists, h.size⟩
      | added hempty hparse hfree hinsert =>
          simp only [hparse]
          refine ⟨lists_insert h.lists hinsert, ?_⟩
          have hsize := h.size
          have hmore := Table.size_insert hinsert
          simp only [Mux.size, List.length_append, List.length_singleton]
            at hsize ⊢
          omega

theorem build_sound (acts : List (Act ρ)) : (build acts).Sound := by
  suffices hrun : ∀ built : Built ρ, built.Sound →
      (acts.foldl Built.act built).Sound by
    refine hrun {} ⟨fun method segments route => ?_, rfl⟩
    simp [Table.root, Tree.get?_empty]
  induction acts with
  | nil => exact fun built h => h
  | cons act acts ih => exact fun built h => ih (built.act act) (h.act act)

/-- After any actions on a router, an attempt to register a service fails with
"empty pattern" if and only if the method or the url is empty, and with "already
registered" if and only if a route was accepted that has the same method and, up
to the names of wildcards, the same segments. A failed attempt changes no
look-up and no count, and the number of routes is that of the accepted ones. -/
theorem register_refused_iff (acts : List (Act ρ)) (method url : String)
    (service : ρ) :
    let built := build acts
    let answer := (built.mux.register method url service).1
    let after := (built.mux.register method url service).2
    (answer = .error .emptyPattern ↔ method = "" ∨ url = "") ∧
    (∀ m u, answer = .error (.alreadyRegistered m u) ↔ m = method ∧ u = url ∧
      ∃ pattern, Pattern.parse method url = .ok pattern ∧
        ∃ route ∈ built.routes, SameRoute route.1 pattern) ∧
    (answer ≠ .ok () →
      (∀ m u, after.table.find? m u = built.mux.table.find? m u) ∧
        after.size = built.mux.size) ∧
    (built.mux.handle method url service).map (fun _ => ()) = answer ∧
    built.mux.size = built.routes.length := by
  intro built answer after
  have hsound : built.Sound := build_sound acts
  have hattempt :
      Attempt built.mux built.routes method url service answer after :=
    attempt_register hsound.lists method url service
  refine ⟨hattempt.empty_iff, hattempt.taken_iff, fun hfailed => ?_, ?_,
    hsound.size⟩
  · rw [hattempt.unchanged hfailed]
    exact ⟨fun m u => rfl, rfl⟩
  · simp only [answer, register_eq]
    cases built.mux.handle method url service with
    | ok mux => rfl
    | error e => rfl

/-- Two routes and a layer, and a pattern without a method. -/
def sampleActs : List (Act Nat) := [
  .register "GET" "/a/\x7bx\x7d" 1, .layer (· + 10), .register "GET" "/a/b" 2,
  .register "" "/a" 3]

/-- The names of wildcards, redundant slashes and blanks do not distinguish
routes. -/
theorem sampleActs_register_refused :
    let mux := (build sampleActs).mux
    let result := mux.register "GET" "a/ \x7by\x7d // " 4
    result.1 = .error (.alreadyRegistered "GET" "a/ \x7by\x7d // ") ∧
      mux.size = 2 ∧
      (∀ m u, result.2.table.find? m u = mux.table.find? m u) ∧
      result.2.size = mux.size := by
  intro mux result
  have hanswer :
      result.1 = .error (.alreadyRegistered "GET" "a/ \x7by\x7d // ") := by
    decide +kernel
  have hfailed : result.1 ≠ .ok () := by simp [hanswer]
  exact ⟨hanswer, by decide +kernel,
    (register_refused_iff sampleActs "GET" "a/ \x7by\x7d // " 4).2.2.1 hfailed⟩

end ChatRelay.Mux
