import ChatRelay.Store.Tables
/-!
# The message history

The messages of a store are ordered by descending creation time and, for equal
times, by descending order of insertion. A page is an initial segment of the
part of this order before the given time.
-/

namespace ChatRelay

section Sorting

variable {α : Type} {le : α → α → Bool}

/-- A list splits in at most one way into an initial part that satisfies a
property and a rest that does not. -/
theorem cut_unique {p : α → Bool} {first second first' second' : List α}
    (h : first ++ second = first' ++ second')
    (hfirst : ∀ a ∈ first, p a = false) (hsecond : ∀ a ∈ second, p a = true)
    (hfirst' : ∀ a ∈ first', p a = false)
    (hsecond' : ∀ a ∈ second', p a = true) :
    first = first' ∧ second = second' := by
  have hleft : first = first' := by
    have := congrArg (List.filter fun a => !p a) h
    simpa +contextual
      [List.filter_eq_self.mpr, List.filter_eq_nil_iff.mpr, hfirst, hsecond,
        hfirst', hsecond'] using this
  subst hleft
  exact ⟨rfl, List.append_cancel_left h⟩

/-- Filtering commutes with stable sorting. -/
theorem filter_mergeSort
    (htrans : ∀ a b c, le a b = true → le b c = true → le a c = true)
    (htotal : ∀ a b, (le a b || le b a) = true) (p : α → Bool) (as : List α) :
    (as.mergeSort le).filter p = (as.filter p).mergeSort le := by
  induction as with
  | nil => simp
  | cons a as ih =>
      obtain ⟨before, behind, hsorted, hrest, hbefore⟩ :=
        List.mergeSort_cons htrans htotal a as
      rw [hrest, List.filter_append] at ih
      rw [hsorted, List.filter_append]
      cases hp : p a with
      | false => simp [hp, ih]
      | true =>
          obtain ⟨before', behind', hsorted', hrest', hbefore'⟩ :=
            List.mergeSort_cons htrans htotal a (as.filter p)
          -- what stands behind `a` in a sorted list is not before it
          have hbehind (front back rest : List α)
              (h : (a :: rest).mergeSort le = front ++ a :: back) :
              ∀ b ∈ back, le a b = true := by
            have hpairs := List.pairwise_mergeSort htrans htotal (a :: rest)
            rw [h] at hpairs
            exact (List.pairwise_cons.mp (List.pairwise_append.mp hpairs).2.1).1
          obtain ⟨hfront, hback⟩ := cut_unique (p := le a) (ih.trans hrest')
            (fun b hb => by simpa using hbefore b (List.mem_filter.mp hb).1)
            (fun b hb => hbehind _ _ _ hsorted b (List.mem_filter.mp hb).1)
            (fun b hb => by simpa using hbefore' b hb)
            (hbehind _ _ _ hsorted')
          rw [List.filter_cons_of_pos hp, List.filter_cons_of_pos hp, hsorted',
            hfront, hback]

/-- Stability of sorting: if two elements are equivalent, their order in the
sorted list is the original one. -/
theorem pairwise_mergeSort_stable
    (htrans : ∀ a b c, le a b = true → le b c = true → le a c = true)
    (htotal : ∀ a b, (le a b || le b a) = true) {R : α → α → Prop} {as : List α}
    (h : as.Pairwise R) :
    (as.mergeSort le).Pairwise fun a b => le a b = true ∧
      (le b a = true → R a b) := by
  induction as with
  | nil => simp
  | cons a as ih =>
      obtain ⟨hfirst, hrest⟩ := List.pairwise_cons.mp h
      obtain ⟨before, behind, hsorted, hcut, hbefore⟩ :=
        List.mergeSort_cons htrans htotal a as
      have hle := List.pairwise_mergeSort htrans htotal (a :: as)
      have hkept := ih hrest
      rw [hsorted] at hle ⊢
      rw [hcut] at hkept
      simp only [List.pairwise_append, List.pairwise_cons, List.mem_cons,
        forall_eq_or_imp] at hle hkept ⊢
      refine ⟨hkept.1,
        ⟨fun b hb => ⟨hle.2.1.1 b hb, fun _ => hfirst b ?_⟩, hkept.2.1⟩,
          fun b hb => ⟨⟨(hle.2.2 b hb).1, fun hab => ?_⟩, hkept.2.2 b hb⟩⟩
      · have hmem : b ∈ as.mergeSort le :=
          hcut ▸ List.mem_append_right before hb
        exact List.mem_mergeSort.mp hmem
      · -- what was put before `a` is less than it
        exact absurd hab (by simpa using hbefore b hb)

end Sorting

/-- The list is sorted by descending creation time. -/
def NewestFirst (messages : List Message) : Prop :=
  messages.Pairwise fun a b => b.createdAt ≤ a.createdAt

theorem NewestFirst.sublist {messages chosen : List Message}
    (h : NewestFirst messages) (hchosen : chosen.Sublist messages) :
    NewestFirst chosen :=
  List.Pairwise.sublist hchosen h

/-- A sorted list without messages newer than a time splits into the messages of
this time and the older ones. -/
theorem NewestFirst.split {messages : List Message} (h : NewestFirst messages)
    {time : Int} (htime : ∀ m ∈ messages, m.createdAt ≤ time) :
    messages = (messages.filter fun m => m.createdAt = time) ++
      messages.filter fun m => m.createdAt < time := by
  induction messages with
  | nil => rfl
  | cons m messages ih =>
      obtain ⟨hm, hmessages⟩ := List.pairwise_cons.mp h
      by_cases hsame : m.createdAt = time
      · have hrest :=
          ih hmessages fun m' hm' => htime m' (List.mem_cons_of_mem m hm')
        rw [List.filter_cons_of_pos (by simp [hsame]),
          List.filter_cons_of_neg (by simp [hsame]), List.cons_append, ← hrest]
      · -- all that follow are older as well
        have holder : ∀ m' ∈ m :: messages, m'.createdAt < time := by
          intro m' hm'
          have hfirst := htime m List.mem_cons_self
          rcases List.mem_cons.mp hm' with rfl | hm'
          · omega
          · have := hm m' hm'
            omega
        rw [List.filter_eq_nil_iff.mpr
          (by simpa using fun m' hm' => Int.ne_of_lt (holder m' hm')),
            List.filter_eq_self.mpr (by simpa using holder), List.nil_append]

namespace Store

/-- All messages in the order of the history. -/
def history (store : Store) : List Message :=
  store.messages.reverse.mergeSort fun a b => b.createdAt ≤ a.createdAt

/-- The messages created before a time, in the order of the history. -/
def older (store : Store) (before : Int) : List Message :=
  store.history.filter fun m => m.createdAt < before

theorem newestFirst_history (store : Store) : NewestFirst store.history := by
  have h :=
    @List.pairwise_mergeSort Message (fun a b => b.createdAt ≤ a.createdAt)
      (by simp only [decide_eq_true_eq]; omega)
      (by simp only [Bool.or_eq_true, decide_eq_true_eq]; omega)
        store.messages.reverse
  simpa [NewestFirst, history] using h

theorem history_perm (store : Store) : store.history.Perm store.messages :=
  (List.mergeSort_perm _ _).trans (List.reverse_perm _)

theorem newestFirst_older (store : Store) (before : Int) :
    NewestFirst (store.older before) :=
  (newestFirst_history store).sublist List.filter_sublist

theorem older_perm (store : Store) (before : Int) :
    (store.older before).Perm
      (store.messages.filter fun m => m.createdAt < before) :=
  (history_perm store).filter _

theorem mem_older {store : Store} {before : Int} {m : Message} :
    m ∈ store.older before ↔ m ∈ store.messages ∧ m.createdAt < before := by
  simp [(older_perm store before).mem_iff]

theorem older_filter {store : Store} {before time : Int}
    (htime : time ≤ before) :
    ((store.older before).filter fun m => m.createdAt < time) =
      store.older time := by
  rw [older, List.filter_filter, older]
  congr 1
  funext m
  simp only [Bool.and_eq_decide, decide_eq_true_eq, decide_eq_decide]
  omega

/-- A page is an initial segment of the older messages. -/
theorem messagesBefore_eq (store : Store) (before : Int) (limit : Nat) :
    store.messagesBefore before limit = (store.older before).take limit := by
  rw [messagesBefore, older, history, filter_mergeSort]
  · simp only [decide_eq_true_eq]
    omega
  · simp only [Bool.or_eq_true, decide_eq_true_eq]
    omega

/-- A limit of at least the number of messages has no effect. -/
theorem messagesBefore_of_length_le {store : Store} {limit : Nat}
    (hall : store.messages.length ≤ limit) (before : Int) :
    store.messagesBefore before limit = store.older before := by
  rw [messagesBefore_eq]
  refine List.take_of_length_le (Nat.le_trans ?_ hall)
  rw [(older_perm store before).length_eq]
  exact List.length_filter_le _ _

/-- Messages inserted in order of their times are returned in reverse order. -/
theorem messagesBefore_of_inOrder {store : Store}
    (h : store.messages.Pairwise fun a b => a.createdAt ≤ b.createdAt)
    (before : Int) (limit : Nat) :
    store.messagesBefore before limit =
      (store.messages.reverse.filter fun m => m.createdAt < before).take
        limit := by
  have hhistory : store.history = store.messages.reverse := by
    refine List.mergeSort_of_pairwise ?_
    rw [List.pairwise_reverse]
    simpa using h
  rw [messagesBefore_eq, older, hhistory]

end Store
end ChatRelay
