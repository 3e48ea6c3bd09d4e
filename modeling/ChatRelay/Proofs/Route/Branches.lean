import ChatRelay.Route.Tree
/-!
# Branches of a routing tree

The value that is registered for some segments depends on their shape only: on
the literal texts and the positions of the wildcards. Registering a value
changes the value of one shape.
-/

namespace ChatRelay.Route

/-- The text of a literal segment. -/
def Segment.literal? : Segment → Option String
  | literal text => some text
  | wildcard _ => none

theorem literal?_eq_some {s : Segment} {text : String}
    (h : s.literal? = some text) :
    s = .literal text := by
  cases s with
  | literal t => exact congrArg Segment.literal (Option.some.inj h)
  | wildcard _ => simp [Segment.literal?] at h

theorem literal?_eq_none {s : Segment} (h : s.literal? = none) :
    ∃ name, s = .wildcard name := by
  cases s with
  | literal t => simp [Segment.literal?] at h
  | wildcard name => exact ⟨name, rfl⟩

/-- The segments of a pattern without the names of its wildcards. -/
def shape (segments : List Segment) : List (Option String) :=
  segments.map Segment.literal?

theorem shape_cons (s : Segment) (segments : List Segment) :
    shape (s :: segments) = s.literal? :: shape segments := rfl

namespace Tree

variable {α : Type}

theorem find?_putBranch (text t : String) (new : Tree α)
    (branches : List (String × Tree α)) :
    ((putBranch text new branches).find? fun b => b.1 = t).map Prod.snd =
      if text = t then some new else (branches.find? fun b => b.1 = t).map
        Prod.snd := by
  induction branches with
  | nil =>
      by_cases h : text = t
      · simp [putBranch, h]
      · simp [putBranch, h]
  | cons b branches ih =>
      obtain ⟨t', old⟩ := b
      by_cases hput : t' = text
      · subst hput
        by_cases h : t' = t
        · simp [putBranch, h]
        · simp [putBranch, h]
      · by_cases h : t' = t
        · subst h
          simp [putBranch, hput, Ne.symm hput]
        · simpa [putBranch, hput, h] using ih

theorem branch_empty (s : Segment) : (empty : Tree α).branch s = empty := by
  cases s <;> rfl

theorem branch_congr {s s' : Segment} (h : s.literal? = s'.literal?)
    (tree : Tree α) :
    tree.branch s = tree.branch s' := by
  cases s <;> cases s' <;> simp_all [Segment.literal?, branch]

theorem branch_setBranch (tree : Tree α) (s s' : Segment) (new : Tree α) :
    (tree.setBranch s new).branch s' =
      if s.literal? = s'.literal? then new else tree.branch s' := by
  obtain ⟨leaf, literals, wild⟩ := tree
  cases s with
  | literal text =>
      cases s' with
      | literal t =>
          simp only [setBranch, branch, Tree.literal?, find?_putBranch,
            Segment.literal?, Option.some.injEq]
          split <;> rfl
      | wildcard _ => simp [setBranch, branch, wild?, Segment.literal?]
  | wildcard _ =>
      cases s' with
      | literal t => simp [setBranch, branch, Tree.literal?, Segment.literal?]
      | wildcard _ => simp [setBranch, branch, wild?, Segment.literal?]

theorem leaf_setBranch (tree : Tree α) (s : Segment) (new : Tree α) :
    (tree.setBranch s new).leaf = tree.leaf := by
  obtain ⟨leaf, literals, wild⟩ := tree
  cases s <;> rfl

theorem get?_empty (segments : List Segment) :
    (empty : Tree α).get? segments = none := by
  induction segments with
  | nil => rfl
  | cons s segments ih => rw [get?, branch_empty, ih]

/-- A value is registered for one shape, and the values of other shapes are
kept. -/
theorem get?_insert (tree : Tree α) (a : α)
    (segments segments' : List Segment) :
    (tree.insert a segments).get? segments' =
      if shape segments = shape segments' then
        some a else tree.get? segments' := by
  induction segments generalizing tree segments' with
  | nil =>
      obtain ⟨leaf, literals, wild⟩ := tree
      cases segments' with
      | nil => rfl
      | cons s' segments' =>
          have hbranch : (node (some a) literals wild).branch s' =
              (node leaf literals wild).branch s' := by
            cases s' <;> rfl
          simp [insert, get?, hbranch, shape]
  | cons s segments ih =>
      cases segments' with
      | nil => simp [insert, get?, leaf_setBranch, shape]
      | cons s' segments' =>
          simp only [insert, get?, branch_setBranch, shape_cons,
            List.cons.injEq]
          by_cases hs : s.literal? = s'.literal?
          · simp only [hs, if_true, true_and, ih, branch_congr hs tree]
          · simp only [hs, if_false, false_and]

theorem find_empty (url : List String) : (empty : Tree α).find url = none := by
  cases url <;> rfl

/-- A look-up prefers the literal branch to the wildcard. -/
theorem find_cons (tree : Tree α) (s : String) (rest : List String)
    (name : String) :
    tree.find (s :: rest) =
      match (tree.branch (.literal s)).find rest with
      | some found => some found
      | none => ((tree.branch (.wildcard name)).find rest).map fun (a, taken) =>
        (a, s :: taken) := by
  have hopt (branch? : Option (Tree α)) :
      (branch?.bind fun t => t.find rest) = (branch?.getD empty).find rest := by
    cases branch? with
    | none => exact (find_empty rest).symm
    | some t => rfl
  rw [find, hopt, hopt]
  rfl

end Tree

end ChatRelay.Route
