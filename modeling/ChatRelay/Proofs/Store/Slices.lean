import Mathlib.Data.List.Perm.Basic
import ChatRelay.Proofs.Store.History
/-!
# The contents of a page

Messages are created one after the other with arbitrary times. A page is an
initial segment of the unique arrangement of the messages by descending time and
descending order of insertion. Identifiers given by callers have no effect on
the store.
-/

namespace ChatRelay

/-- The order of messages with their insertion numbers: newer messages come
first, and for equal times the one inserted later. -/
def Ahead (a b : Message × Nat) : Prop :=
  b.1.createdAt < a.1.createdAt ∨ a.1.createdAt = b.1.createdAt ∧ b.2 < a.2

theorem Ahead.asymm {a b : Message × Nat} (hab : Ahead a b) (hba : Ahead b a) :
    False := by
  unfold Ahead at hab hba
  omega

/-- The messages created before a time, sorted by `Ahead`. -/
structure Arranged (kept : List Message) (before : Int)
    (shown : List (Message × Nat)) : Prop where
  same : shown.Perm (kept.zipIdx.filter fun m => m.1.createdAt < before)
  order : shown.Pairwise Ahead

namespace Arranged

variable {kept : List Message} {before : Int}
    {shown other : List (Message × Nat)}

/-- The arrangement is unique. -/
theorem unique (h : Arranged kept before shown)
    (hother : Arranged kept before other) :
    other = shown :=
  (hother.same.trans h.same.symm).eq_of_pairwise
    (fun _ _ _ _ hab hba => (hab.asymm hba).elim) hother.order h.order

theorem length_eq (h : Arranged kept before shown) :
    shown.length = kept.countP fun m => m.createdAt < before := by
  have hplaces :
      (kept.zipIdx.map Prod.fst).countP (fun m => m.createdAt < before) =
      kept.zipIdx.countP fun m => m.1.createdAt < before := List.countP_map
  rw [h.same.length_eq, ← List.countP_eq_length_filter, ← hplaces,
    List.zipIdx_map_fst]

end Arranged

/-- Positions in a list are increasing. -/
theorem pairwise_zipIdx {α : Type} (as : List α) :
    as.zipIdx.Pairwise fun a b => a.2 < b.2 := by
  have h := List.pairwise_lt_range' (s := 0) (n := as.length)
  rw [← List.zipIdx_map_snd 0 as, List.pairwise_map] at h
  exact h

namespace Store

/-- The comparison of messages by time, ignoring insertion numbers. -/
def asNew (a b : Message × Nat) : Bool := b.1.createdAt ≤ a.1.createdAt

theorem asNew_trans (a b c : Message × Nat) (hab : asNew a b = true)
    (hbc : asNew b c = true) :
    asNew a c = true := by
  simp only [asNew, decide_eq_true_eq] at hab hbc ⊢
  omega

theorem asNew_total (a b : Message × Nat) :
    (asNew a b || asNew b a) = true := by
  simp only [asNew, Bool.or_eq_true, decide_eq_true_eq]
  omega

/-- The arrangement of the messages created before a time. -/
def arrange (kept : List Message) (before : Int) : List (Message × Nat) :=
  (kept.zipIdx.reverse.filter fun m => m.1.createdAt < before).mergeSort asNew

theorem arranged_arrange (kept : List Message) (before : Int) :
    Arranged kept before (arrange kept before) where
  same := (List.mergeSort_perm _ _).trans ((List.reverse_perm _).filter _)
  order := by
    have hplaces :
        (kept.zipIdx.reverse.filter fun m => m.1.createdAt < before).Pairwise
        fun a b => b.2 < a.2 :=
      (List.pairwise_reverse.mpr (pairwise_zipIdx kept)).filter _
    refine (pairwise_mergeSort_stable asNew_trans asNew_total hplaces).imp
      fun {a b} h => ?_
    obtain ⟨hnew, htie⟩ := h
    simp only [asNew, decide_eq_true_eq] at hnew htie
    rcases Int.lt_or_eq_of_le hnew with hnewer | hsame
    · exact .inl hnewer
    · exact .inr ⟨hsame.symm, htie (Int.le_of_eq hsame.symm)⟩

/-- A page is an initial segment of the arrangement without insertion
numbers. -/
theorem messagesBefore_eq_arrange (store : Store) (before : Int) (limit : Nat) :
    store.messagesBefore before limit =
      ((arrange store.messages before).map Prod.fst).take limit := by
  have hfound :
      (store.messages.zipIdx.reverse.filter fun m => m.1.createdAt < before).map
      Prod.fst = store.messages.reverse.filter fun m => m.createdAt <
        before := by
    conv_rhs => rw [← List.zipIdx_map_fst 0 store.messages, ← List.map_reverse,
      List.filter_map]
    rfl
  have hsorted :=
    List.map_mergeSort (s := fun a b => decide (b.createdAt ≤ a.createdAt))
      (l := store.messages.zipIdx.reverse.filter fun m =>
        m.1.createdAt < before)
      (r := asNew) (f := Prod.fst) fun a _ b _ => rfl
  rw [messagesBefore, arrange, hsorted, hfound]

/-- A call that creates a message: the message given by the caller, and the
fresh identifier. -/
structure Create where
  id : Uuid
  given : Message

/-- The stored message, with the fresh identifier. -/
def Create.kept (c : Create) : Message := { c.given with id := c.id.text }

/-- The same call with a different identifier given by the caller. -/
def Create.naming (c : Create) (id : String) : Create :=
  { c with given := { c.given with id } }

@[simp] theorem Create.kept_naming (c : Create) (id : String) :
    (c.naming id).kept = c.kept :=
  rfl

def keepAll (store : Store) (creates : List Create) : Store :=
  creates.foldl (fun store c => store.addMessage c.id c.given) store

theorem addMessage_naming (store : Store) (c : Create) (id : String) :
    store.addMessage (c.naming id).id (c.naming id).given =
      store.addMessage c.id c.given :=
  rfl

theorem messages_keepAll (store : Store) (creates : List Create) :
    (store.keepAll creates).messages =
      store.messages ++ creates.map Create.kept := by
  induction creates generalizing store with
  | nil => simp [keepAll]
  | cons c creates ih =>
      have hrest := ih (store.addMessage c.id c.given)
      simpa [keepAll, addMessage, Create.kept] using hrest

/-- Identifiers given by callers have no effect on the store. -/
theorem keepAll_naming (store : Store) (creates : List Create)
    (ids : Nat → String) :
    store.keepAll (creates.mapIdx fun i c => c.naming (ids i)) =
      store.keepAll creates := by
  induction creates generalizing store ids with
  | nil => rfl
  | cons c creates ih =>
      rw [List.mapIdx_cons]
      simp only [keepAll, List.foldl_cons, addMessage_naming]
      exact ih (store.addMessage c.id c.given) fun i => ids (i + 1)

/-- For messages created in any order and with any times: the messages before a
time have a unique arrangement with the newest first and, for equal times, the
one inserted last first, and a page is its initial segment of the length of the
limit, or all of it if it is shorter. The messages have the contents given by
the callers and the fresh identifiers, and the identifiers given by callers have
no effect on the store. -/
theorem page_eq_newest_slice (store : Store) (creates : List Create)
    (before : Int) (limit : Nat) :
    let kept := store.messages ++ creates.map Create.kept
    let page := (store.keepAll creates).messagesBefore before limit
    let size := min limit (kept.countP fun m => m.createdAt < before)
    (∃ shown, Arranged kept before shown ∧
      (∀ other, Arranged kept before other → other = shown) ∧
      page = (shown.map Prod.fst).take size) ∧
    page.length = size ∧
    ∀ ids : Nat → String,
      store.keepAll (creates.mapIdx fun i c => c.naming (ids i)) =
        store.keepAll creates := by
  intro kept page size
  have harranged := arranged_arrange kept before
  have hlength : ((arrange kept before).map Prod.fst).length =
      kept.countP fun m => m.createdAt < before := by
    rw [List.length_map, harranged.length_eq]
  have hpage : page = ((arrange kept before).map Prod.fst).take size := by
    rw [show size =
      min limit ((arrange kept before).map Prod.fst).length by rw [hlength],
        ← List.take_eq_take_min]
    simp only [page, kept, messagesBefore_eq_arrange, messages_keepAll]
  refine ⟨⟨_, harranged, fun _ hother => harranged.unique hother, hpage⟩, ?_,
    keepAll_naming store creates⟩
  rw [hpage, List.length_take, hlength]
  omega

end Store
end ChatRelay
