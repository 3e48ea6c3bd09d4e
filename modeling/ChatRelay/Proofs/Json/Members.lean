import ChatRelay.Json.Value
/-!
# The members of an object

The members of an object are in ascending order of their keys. Inserting a key
keeps this order and the values of all other keys, and members that are inserted
in order are appended.
-/

namespace ChatRelay.Json.Members

/-- The keys ascend strictly. -/
def Ordered (members : Members) : Prop :=
  members.Pairwise fun m m' => m.1 < m'.1

instance : DecidablePred Ordered := fun members =>
  inferInstanceAs (Decidable (List.Pairwise (fun m m' => m.1 < m'.1) members))

/-- Members are inserted one after another. -/
def assign (members assignments : Members) : Members :=
  assignments.foldl (fun members m => members.insert m.1 m.2) members

variable {members : Members} {key : String} {value : Value}

theorem lt_of_not_lt {k k' : String} (hne : k ≠ k') (h : ¬ k < k') : k' < k :=
  Std.lt_of_le_of_ne (String.not_lt.mp h) hne.symm

theorem mem_insert {m : String × Value} (h : m ∈ members.insert key value) :
    m = (key, value) ∨ m ∈ members := by
  induction members with
  | nil => exact .inl (List.mem_singleton.mp h)
  | cons first members ih =>
      obtain ⟨k, v⟩ := first
      rw [Members.insert] at h
      split at h
      · rcases List.mem_cons.mp h with h | h
        · exact .inl h
        · exact .inr (List.mem_cons_of_mem _ h)
      split at h
      · exact List.mem_cons.mp h
      · rcases List.mem_cons.mp h with h | h
        · exact .inr (h ▸ List.mem_cons_self)
        · exact (ih h).imp_right (List.mem_cons_of_mem _)

theorem get?_insert (key' : String) :
    (members.insert key value).get? key' =
      if key = key' then some value else members.get? key' := by
  induction members with
  | nil =>
      by_cases hsame : key = key'
      · simp [Members.insert, get?, hsame]
      · simp [Members.insert, get?, hsame]
  | cons first members ih =>
      obtain ⟨k, v⟩ := first
      by_cases hk : key = k
      · subst hk
        by_cases hsame : key = key'
        · simp [Members.insert, get?, hsame]
        · simp [Members.insert, get?, hsame]
      by_cases hlt : key < k
      · by_cases hsame : key = key'
        · subst hsame
          simp [Members.insert, get?, hk, hlt]
        · simp [Members.insert, get?, hk, hlt, hsame]
      · by_cases hsame : k = key'
        · subst hsame
          simp [Members.insert, get?, hk, hlt]
        · simpa [Members.insert, get?, hk, hlt, hsame] using ih

/-- A key greater than all others is inserted at the end. -/
theorem insert_last (h : ∀ m ∈ members, m.1 < key) :
    members.insert key value = members ++ [(key, value)] := by
  induction members with
  | nil => rfl
  | cons first members ih =>
      obtain ⟨k, v⟩ := first
      have hk : k < key := h _ List.mem_cons_self
      have hne : key ≠ k := by
        rintro rfl
        exact String.lt_irrefl _ hk
      rw [Members.insert, if_neg hne, if_neg (String.lt_asymm hk),
        ih fun m hm => h m (List.mem_cons_of_mem _ hm), List.cons_append]

/-- A key less than all others is inserted at the start. -/
theorem insert_first (h : ∀ m ∈ members, key < m.1) :
    members.insert key value = (key, value) :: members := by
  cases members with
  | nil => rfl
  | cons first members =>
      obtain ⟨k, v⟩ := first
      have hk : key < k := h _ List.mem_cons_self
      have hne : key ≠ k := by
        rintro rfl
        exact String.lt_irrefl _ hk
      rw [Members.insert, if_neg hne, if_pos hk]

namespace Ordered

theorem nil : Ordered [] := List.Pairwise.nil

theorem singleton (m : String × Value) : Ordered [m] :=
  List.pairwise_singleton _ m

theorem insert (h : Ordered members) (key : String) (value : Value) :
    Ordered (Members.insert key value members) := by
  induction members with
  | nil => exact singleton _
  | cons first members ih =>
      obtain ⟨k, v⟩ := first
      obtain ⟨hfirst, hrest⟩ := List.pairwise_cons.mp h
      rw [Members.insert]
      split
      · next hk =>
          subst hk
          exact List.pairwise_cons.mpr ⟨hfirst, hrest⟩
      split
      · next hlt =>
          refine List.pairwise_cons.mpr ⟨fun m hm => ?_, h⟩
          rcases List.mem_cons.mp hm with rfl | hm
          · exact hlt
          · exact String.lt_trans hlt (hfirst m hm)
      · next hk hlt =>
          refine List.pairwise_cons.mpr ⟨fun m hm => ?_, ih hrest⟩
          rcases mem_insert hm with rfl | hm
          · exact lt_of_not_lt hk hlt
          · exact hfirst m hm

theorem nodup (h : Ordered members) : members.keys.Nodup := by
  refine List.pairwise_map.mpr (h.imp fun {m m'} hlt => ?_)
  intro heq
  exact String.lt_irrefl m'.1 (heq ▸ hlt)

theorem erase (h : Ordered members) (key : String) :
    Ordered (Members.erase key members) :=
  List.Pairwise.sublist List.filter_sublist h

/-- Members that are inserted in order are appended. -/
theorem assign_eq {more : Members} (h : Ordered (members ++ more)) :
    members.assign more = members ++ more := by
  induction more generalizing members with
  | nil => simp [assign]
  | cons m more ih =>
      have hbefore : ∀ m' ∈ members, m'.1 < m.1 := fun m' hm' =>
        (List.pairwise_append.mp h).2.2 m' hm' m List.mem_cons_self
      have hsplit : members ++ m :: more = members.insert m.1 m.2 ++ more := by
        rw [insert_last hbefore, List.append_assoc, List.singleton_append]
      rw [hsplit] at h ⊢
      exact ih h

/-- Inserting a key replaces its value. -/
theorem insert_erase (h : Ordered members) (key : String) (value : Value) :
    Members.insert key value (Members.erase key members) =
      Members.insert key value members := by
  induction members with
  | nil => rfl
  | cons first members ih =>
      obtain ⟨k, v⟩ := first
      obtain ⟨hfirst, hrest⟩ := List.pairwise_cons.mp h
      have habsent (hbefore : ∀ m ∈ members, key < m.1) :
          Members.erase key members = members := by
        refine List.filter_eq_self.mpr fun m hm => ?_
        have hne : m.1 ≠ key := by
          intro heq
          exact String.lt_irrefl key (heq ▸ hbefore m hm)
        simpa using hne
      by_cases hk : k = key
      · subst hk
        have herase : Members.erase k ((k, v) :: members) = members := by
          rw [Members.erase, List.filter_cons_of_neg (by simp)]
          exact habsent hfirst
        rw [herase, insert_first hfirst, Members.insert, if_pos rfl]
      · have herase : Members.erase key ((k, v) :: members) =
            (k, v) :: Members.erase key members := by
          rw [Members.erase, List.filter_cons_of_pos (by simpa using hk)]
          rfl
        rw [herase, Members.insert, Members.insert, if_neg (Ne.symm hk),
          if_neg (Ne.symm hk), ih hrest]
        split
        · next hlt => rw [habsent fun m hm => String.lt_trans hlt (hfirst m hm)]
        · rfl

end Ordered

theorem erase_insert (key : String) (value : Value) (members : Members) :
    (members.insert key value).erase key = members.erase key := by
  induction members with
  | nil => simp [Members.insert, erase]
  | cons first members ih =>
      obtain ⟨k, v⟩ := first
      by_cases hk : key = k
      · subst hk
        simp [Members.insert, erase]
      by_cases hlt : key < k
      · simp [Members.insert, erase, hk, hlt]
      · have hne : k ≠ key := Ne.symm hk
        simpa [Members.insert, erase, hk, hlt, hne] using ih

/-- The values of other keys are kept. -/
theorem get?_assign {more : Members} (hkey : key ∉ more.keys) :
    (members.assign more).get? key = members.get? key := by
  induction more generalizing members with
  | nil => rfl
  | cons m more ih =>
      simp only [keys, List.map_cons, List.mem_cons, not_or] at hkey
      have hmore : (assign (members.insert m.1 m.2) more).get? key =
          (members.insert m.1 m.2).get? key := ih hkey.2
      rw [get?_insert, if_neg (Ne.symm hkey.1)] at hmore
      exact hmore

theorem mem_assign {more : Members} {m : String × Value}
    (h : m ∈ members.assign more) :
    m ∈ members ∨ m ∈ more := by
  induction more generalizing members with
  | nil => exact .inl h
  | cons first more ih =>
      have hmore : m ∈ assign (members.insert first.1 first.2) more := h
      rcases ih hmore with h | h
      · rcases mem_insert h with rfl | h
        · exact .inr List.mem_cons_self
        · exact .inl h
      · exact .inr (List.mem_cons_of_mem _ h)

theorem Ordered.assign (h : Ordered members) (more : Members) :
    Ordered (members.assign more) := by
  induction more generalizing members with
  | nil => exact h
  | cons m more ih => exact ih (h.insert m.1 m.2)

theorem get?_isSome_assign {more : Members} (h : (members.get? key).isSome) :
    ((members.assign more).get? key).isSome := by
  induction more generalizing members with
  | nil => exact h
  | cons m more ih =>
      have hinsert : ((members.insert m.1 m.2).get? key).isSome := by
        rw [get?_insert]
        split
        · rfl
        · exact h
      exact ih hinsert

end ChatRelay.Json.Members
