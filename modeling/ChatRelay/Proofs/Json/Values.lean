import ChatRelay.Json.Reader
import ChatRelay.Proofs.Json.Members
import ChatRelay.Proofs.Json.ReadTokens
/-!
# Properties of all parts of a value

A property of all numbers and objects in a value, and the nesting depth of a
value. A list or an object has such a property if its parts have it, and its
depth is one more than the greatest depth of its parts.
-/

namespace ChatRelay.Json

mutual

/-- A property of all numbers in the value and of the members of all objects in
it. -/
def Value.All (number : Number → Prop) (object : Members → Prop) : Value → Prop
  | .number n => number n
  | .array items => allItems number object items
  | .object members => object members ∧ allMembers number object members
  | _ => True

@[inherit_doc Value.All]
def allItems (number : Number → Prop) (object : Members → Prop) :
    List Value → Prop
  | [] => True
  | v :: items => v.All number object ∧ allItems number object items

@[inherit_doc Value.All]
def allMembers (number : Number → Prop) (object : Members → Prop) :
    List (String × Value) → Prop
  | [] => True
  | (_, v) :: members => v.All number object ∧ allMembers number object members

end

mutual

/-- The nesting depth. -/
def Value.depth : Value → Nat
  | .array items => itemsDepth items + 1
  | .object members => membersDepth members + 1
  | _ => 0

def itemsDepth : List Value → Nat
  | [] => 0
  | v :: items => max v.depth (itemsDepth items)

def membersDepth : List (String × Value) → Nat
  | [] => 0
  | (_, v) :: members => max v.depth (membersDepth members)

end

mutual

/-- The decision procedure for `Value.All`. -/
def Value.decideAll (number : Number → Prop) (object : Members → Prop)
    [DecidablePred number] [DecidablePred object] :
    (v : Value) → Decidable (v.All number object)
  | .null => .isTrue trivial
  | .bool _ => .isTrue trivial
  | .number n => inferInstanceAs (Decidable (number n))
  | .string _ => .isTrue trivial
  | .array items => decideItems number object items
  | .object members =>
    @instDecidableAnd _ _ inferInstance (decideMembers number object members)

@[inherit_doc Value.decideAll]
def decideItems (number : Number → Prop) (object : Members → Prop)
    [DecidablePred number] [DecidablePred object] :
    (items : List Value) → Decidable (allItems number object items)
  | [] => .isTrue trivial
  | v :: items =>
    @instDecidableAnd _ _ (v.decideAll number object)
      (decideItems number object items)

@[inherit_doc Value.decideAll]
def decideMembers (number : Number → Prop) (object : Members → Prop)
    [DecidablePred number] [DecidablePred object] :
    (members : List (String × Value)) →
    Decidable (allMembers number object members)
  | [] => .isTrue trivial
  | (_, v) :: members =>
    @instDecidableAnd _ _ (v.decideAll number object)
      (decideMembers number object members)

end

section

variable {number : Number → Prop} {object : Members → Prop} {items : List Value}
  {members : Members}

theorem allItems_iff :
    allItems number object items ↔ ∀ v ∈ items, v.All number object := by
  induction items with
  | nil => simp [allItems]
  | cons v items ih => simp [allItems, ih]

theorem allMembers_iff :
    allMembers number object members ↔ ∀ m ∈ members,
      m.2.All number object := by
  induction members with
  | nil => simp [allMembers]
  | cons m members ih => simp [allMembers, ih]

theorem all_array :
    (Value.array items).All number object ↔ ∀ v ∈ items,
      v.All number object := by
  rw [Value.All, allItems_iff]

theorem all_object :
    (Value.object members).All number object ↔
      object members ∧ ∀ m ∈ members, m.2.All number object := by
  rw [Value.All, allMembers_iff]

theorem itemsDepth_le {n : Nat} :
    itemsDepth items ≤ n ↔ ∀ v ∈ items, v.depth ≤ n := by
  induction items with
  | nil => simp [itemsDepth]
  | cons v items ih => rw [itemsDepth, Nat.max_le, ih, List.forall_mem_cons]

theorem membersDepth_le {n : Nat} :
    membersDepth members ≤ n ↔ ∀ m ∈ members, m.2.depth ≤ n := by
  induction members with
  | nil => simp [membersDepth]
  | cons m members ih => rw [membersDepth, Nat.max_le, ih, List.forall_mem_cons]

theorem depth_array {n : Nat} :
    (Value.array items).depth ≤ n + 1 ↔ ∀ v ∈ items, v.depth ≤ n := by
  rw [Value.depth, Nat.add_le_add_iff_right, itemsDepth_le]

theorem depth_object {n : Nat} :
    (Value.object members).depth ≤ n + 1 ↔ ∀ m ∈ members, m.2.depth ≤ n := by
  rw [Value.depth, Nat.add_le_add_iff_right, membersDepth_le]

end

namespace Value

/-- All numbers are 64-bit integers. -/
def Whole : Value → Prop := All (fun n => n.isWhole = true) fun _ => True

/-- The keys of all objects ascend. -/
def Sorted : Value → Prop := All (fun _ => True) Members.Ordered

theorem sorted_nil : (object []).Sorted := ⟨List.Pairwise.nil, trivial⟩

/-- No object has the reserved key as its first. -/
def Plain : Value → Prop :=
  All (fun _ => True) fun members => members.head?.map Prod.fst ≠
    some reservedKey

instance : DecidablePred Whole := decideAll _ _

instance : DecidablePred Sorted := decideAll _ _

instance : DecidablePred Plain := decideAll _ _

/-- An object with the reserved key alone. Reading it gives another value. -/
def Marked (v : Value) : Prop := ∃ w, v = .object [(reservedKey, w)]

end Value
end ChatRelay.Json
