import Mathlib.Data.List.Nodup
import ChatRelay.Toml.Document
/-!
# Keys of a document

The lines of a document give values to keys, open tables and reopen them, and no
key is listed twice. So the value of a key is the one that is listed for it
anywhere.
-/

namespace ChatRelay.Toml

namespace Members

variable {members members' : Members} {key : String} {node : Node}

/-- No key is listed twice. -/
def DistinctKeys (members : Members) : Prop := (members.map Prod.fst).Nodup

theorem apart_cons {m : String × Node} :
    DistinctKeys (m :: members) ↔ m.1 ∉ members.map Prod.fst ∧
      DistinctKeys members :=
  List.nodup_cons

theorem lookup_eq_none_iff :
    members.lookup key = none ↔ key ∉ members.map Prod.fst := by
  rw [List.lookup_eq_none_iff]
  simp only [List.mem_map, not_exists, not_and, bne_iff_ne, ne_eq]
  exact ⟨fun h m hm heq => h m hm heq.symm, fun h m hm heq => h m hm heq.symm⟩

/-- Inserting a value keeps the values of the other keys. -/
theorem mem_put {key' : String}
    (h : key' ∈ (put key node members).map Prod.fst) :
    key' = key ∨ key' ∈ members.map Prod.fst := by
  induction members with
  | nil => exact .inl (List.mem_singleton.mp h)
  | cons m members ih =>
      obtain ⟨k, n⟩ := m
      rw [put] at h
      split at h
      · exact .inr h
      · rcases List.mem_cons.mp h with h | h
        · exact .inr (h ▸ List.mem_cons_self)
        · exact (ih h).imp_right (List.mem_cons_of_mem _)

namespace DistinctKeys

theorem nil : DistinctKeys [] := List.nodup_nil

theorem put (h : DistinctKeys members) (key : String) (node : Node) :
    DistinctKeys (Members.put key node members) := by
  induction members with
  | nil => exact List.nodup_singleton key
  | cons m members ih =>
      obtain ⟨k, n⟩ := m
      obtain ⟨hfirst, hrest⟩ := apart_cons.mp h
      rw [Members.put]
      split
      · exact apart_cons.mpr ⟨hfirst, hrest⟩
      · next hne =>
          refine apart_cons.mpr ⟨fun hmem => ?_, ih hrest⟩
          rcases mem_put hmem with heq | hmem
          · exact hne heq
          · exact hfirst hmem

/-- A new key may be appended. -/
theorem append (h : DistinctKeys members) (hkey : members.lookup key = none) :
    DistinctKeys (members ++ [(key, node)]) := by
  rw [DistinctKeys, List.map_append]
  refine List.Nodup.append h (List.nodup_singleton key) fun k hk hlast => ?_
  rw [List.mem_singleton.mp hlast] at hk
  exact lookup_eq_none_iff.mp hkey hk

theorem assign (h : DistinctKeys members) {keys : List String}
    (hassign : members.assign node keys = some members') :
    DistinctKeys members' := by
  cases keys with
  | nil => contradiction
  | cons key rest =>
      cases rest with
      | nil =>
          rw [Members.assign] at hassign
          split at hassign
          · contradiction
          · next hnew =>
              obtain rfl := Option.some.inj hassign
              exact h.append (Option.not_isSome_iff_eq_none.mp hnew)
      | cons key' rest =>
          have hput (inner? : Option Members) (origin : Origin) (hassign : (do
              let inner ← inner?
              return Members.put key
                (.table origin (← inner.assign node (key' :: rest))) members) =
                some members') : DistinctKeys members' := by
            obtain ⟨inner, -, hassign⟩ := Option.bind_eq_some_iff.mp hassign
            obtain ⟨changed, -, hassign⟩ := Option.bind_eq_some_iff.mp hassign
            obtain rfl := Option.some.inj hassign
            exact h.put _ _
          rw [Members.assign] at hassign
          · split at hassign
            · exact hput (some []) _ hassign
            · exact hput (some _) _ hassign
            · split at hassign
              · exact hput (some _) _ hassign
              · exact hput none _ hassign
            · exact hput none _ hassign
          · simp

theorem openTable (h : DistinctKeys members) {keys : List String}
    (hopen : members.openTable keys = some members') :
    DistinctKeys members' := by
  cases keys with
  | nil => contradiction
  | cons key rest =>
      cases rest with
      | nil =>
          rw [Members.openTable] at hopen
          split at hopen
          · next hnew =>
              obtain rfl := Option.some.inj hopen
              exact h.append hnew
          · obtain rfl := Option.some.inj hopen
            exact h.put _ _
          · contradiction
      | cons key' rest =>
          rw [Members.openTable] at hopen
          · split at hopen
            · next hnew =>
                obtain ⟨inner, -, hput⟩ := Option.bind_eq_some_iff.mp hopen
                obtain rfl := Option.some.inj hput
                exact h.append hnew
            · contradiction
            · obtain ⟨inner, -, hput⟩ := Option.bind_eq_some_iff.mp hopen
              obtain rfl := Option.some.inj hput
              exact h.put _ _
            · contradiction
          · simp

theorem within (h : DistinctKeys members) {f : Members → Option Members}
    (hf : ∀ members members', DistinctKeys members → f members = some members' →
      DistinctKeys members')
    {keys : List String} (hwithin : members.within f keys = some members') :
    DistinctKeys members' := by
  cases keys with
  | nil => exact hf members members' h hwithin
  | cons key rest =>
      rw [Members.within] at hwithin
      split at hwithin
      · obtain ⟨inner, -, hput⟩ := Option.bind_eq_some_iff.mp hwithin
        obtain rfl := Option.some.inj hput
        exact h.put _ _
      · contradiction

end DistinctKeys

end Members

/-- Every line keeps the keys distinct. -/
theorem lines_apart {bound : Nat} {within : List String}
    {read members : Members} {input : List Char} (hread : read.DistinctKeys)
    (h : lines bound within read input = some members) :
    members.DistinctKeys := by
  induction bound generalizing within read input with
  | zero => contradiction
  | succ bound ih =>
      rw [lines] at h
      split at h
      · obtain rfl := Option.some.inj h
        exact hread
      -- a comment
      · obtain ⟨rest, -, h⟩ := Option.bind_eq_some_iff.mp h
        exact ih hread h
      -- a header
      · obtain ⟨⟨keys, rest⟩, -, h⟩ := Option.bind_eq_some_iff.mp h
        obtain ⟨opened, hopen, h⟩ := Option.bind_eq_some_iff.mp h
        exact ih (hread.openTable hopen) h
      · split at h
        -- an empty line
        · exact ih hread h
        -- a key with its value
        · obtain ⟨⟨keys, rest⟩, -, h⟩ := Option.bind_eq_some_iff.mp h
          dsimp only at h
          split at h
          · obtain ⟨⟨node, rest⟩, -, h⟩ := Option.bind_eq_some_iff.mp h
            obtain ⟨changed, hchanged, h⟩ := Option.bind_eq_some_iff.mp h
            obtain ⟨rest', -, h⟩ := Option.bind_eq_some_iff.mp h
            exact ih (hread.within (fun _ _ hapart => hapart.assign) hchanged) h
          · contradiction

theorem parse?_apart {document : String} {members : Members}
    (h : parse? document = some members) : members.DistinctKeys :=
  lines_apart .nil h

end ChatRelay.Toml
