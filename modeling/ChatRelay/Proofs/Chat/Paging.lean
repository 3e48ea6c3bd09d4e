import Mathlib.Data.List.Forall2
import ChatRelay.Chat.Api
import ChatRelay.Proofs.Store.History
/-!
# Paging through the history

A client that wants all messages before a time asks for a page, then for the
messages before the last one of that page, and so on until it receives a page
without messages. This terminates and returns no message twice. The messages
that are never returned are those that share the time of a page's last message
and do not fit on that page: the next page starts before that time.
-/

namespace ChatRelay.Chat

/-- A page has status "no more messages" if and only if it is empty. -/
theorem page_status (messages : List Message) :
    (page messages).status = noMoreMessages ↔ messages = [] := by
  cases messages with
  | nil => simp [page, Response.withJson, Response.ok]
  | cons m messages =>
      have hreason : Status.reason Status.ok ≠ noMoreMessages := by decide
      simpa [page, Response.withJson, Response.ofCode] using hreason

theorem page_code (messages : List Message) :
    (page messages).code = Status.ok := by
  cases messages with
  | nil => rfl
  | cons m messages => rfl

/-- The pages that a client receives until one is empty: it asks for the
messages before a time, then for those before the last message of each page. -/
inductive Browses (store : Store) (limit : Nat) :
    Int → List (List Message) → Prop
  | done {before : Int}
      (hpage : (page (store.messagesBefore before limit)).status =
        noMoreMessages) :
      Browses store limit before []
  | more {before : Int} {last : Message} {pages : List (List Message)}
      (hpage : (page (store.messagesBefore before limit)).status ≠
        noMoreMessages)
      (hlast : (store.messagesBefore before limit).getLast? = some last)
      (hrest : Browses store limit last.createdAt pages) :
      Browses store limit before (store.messagesBefore before limit :: pages)

/-- All messages with the time of the page's last one are on the page. -/
def Whole (store : Store) (shown : List Message) : Prop :=
  ∀ last, shown.getLast? = some last →
    shown.countP (fun m => m.createdAt = last.createdAt) =
      store.messages.countP fun m => m.createdAt = last.createdAt

/-- The messages with the time of the page's last one that do not fit on the
page. -/
structure Gap (store : Store) (shown omitted : List Message) : Prop where
  tied : ∀ m ∈ omitted, ∃ last, shown.getLast? = some last ∧
    m.createdAt = last.createdAt
  empty_iff : omitted = [] ↔ Whole store shown

variable {store : Store} {limit : Nat} {before : Int} {last : Message}
  {pages pages' gaps : List (List Message)}

theorem Browses.unique (h : Browses store limit before pages)
    (h' : Browses store limit before pages') : pages = pages' := by
  induction h generalizing pages' with
  | done hpage =>
      cases h' with
      | done _ => rfl
      | more hpage' _ _ => exact absurd hpage hpage'
  | more hpage hlast _ ih =>
      cases h' with
      | done hpage' => exact absurd hpage' hpage
      | more _ hlast' hrest' =>
          obtain rfl := Option.some.inj (hlast.symm.trans hlast')
          rw [ih hrest']

/-- The messages that all pages of a run leave out. -/
def omitted (store : Store) (before : Int) (limit : Nat) (last : Message) :
    List Message :=
  ((store.older before).drop limit).filter fun m => m.createdAt = last.createdAt

/-- The last message of a page is older than the requested time. -/
theorem last_lt
    (hlast : (store.messagesBefore before limit).getLast? = some last) :
    last.createdAt < before := by
  rw [Store.messagesBefore_eq] at hlast
  exact
    (Store.mem_older.mp (List.mem_of_mem_take (List.mem_of_getLast? hlast))).2

theorem last_le {shown : List Message} (h : NewestFirst shown)
    (hlast : shown.getLast? = some last) :
    ∀ m ∈ shown, last.createdAt ≤ m.createdAt := by
  obtain ⟨front, rfl⟩ := List.getLast?_eq_some_iff.mp hlast
  intro m hm
  rcases List.mem_append.mp hm with hm | hm
  · exact (List.pairwise_append.mp h).2.2 m hm last List.mem_cons_self
  · obtain rfl := List.mem_singleton.mp hm
    exact Int.le_refl _

/-- The messages before a time are the page, those that do not fit on it, and
those before the page's last message. -/
theorem older_eq
    (hlast : (store.messagesBefore before limit).getLast? = some last) :
    store.older before = store.messagesBefore before limit ++
      (omitted store before limit last ++ store.older last.createdAt) := by
  have hlt := last_lt hlast
  rw [Store.messagesBefore_eq] at hlast ⊢
  have horder := Store.newestFirst_older store before
  have hshown := last_le (horder.sublist (List.take_sublist limit _)) hlast
  have hrest : ∀ m ∈ (store.older before).drop limit,
      m.createdAt ≤ last.createdAt := by
    rw [← List.take_append_drop limit (store.older before)] at horder
    intro m hm
    exact (List.pairwise_append.mp horder).2.2 last
      (List.mem_of_getLast? hlast) m hm
  -- nothing on the page is older than its last message
  have hnext : ((store.older before).drop limit).filter
      (fun m => m.createdAt < last.createdAt) = store.older last.createdAt := by
    have hfilter := @Store.older_filter store _ _ (Int.le_of_lt hlt)
    rw [← List.take_append_drop limit (store.older before), List.filter_append,
      List.filter_eq_nil_iff.mpr (by simpa using hshown), List.nil_append]
        at hfilter
    exact hfilter
  have hsplit := (horder.sublist (List.drop_sublist limit _)).split hrest
  rw [hnext] at hsplit
  rw [omitted, ← hsplit, List.take_append_drop]

/-- The number of messages of one time does not depend on the later bound. -/
theorem countP_older {time : Int} (htime : time < before) :
    (store.older before).countP (fun m => m.createdAt = time) =
      store.messages.countP fun m => m.createdAt = time := by
  rw [(Store.older_perm store before).countP_eq, List.countP_filter]
  congr 1
  funext m
  simp only [Bool.and_eq_decide, decide_eq_true_eq, decide_eq_decide]
  omega

theorem gap_omitted
    (hlast : (store.messagesBefore before limit).getLast? = some last) :
    Gap store (store.messagesBefore before limit)
      (omitted store before limit last) where
  tied m hm := ⟨last, hlast, by simpa using (List.mem_filter.mp hm).2⟩
  empty_iff := by
    have hall : (omitted store before limit last).countP (fun m => m.createdAt =
        last.createdAt) = (omitted store before limit last).length :=
      List.countP_eq_length.mpr fun m hm => (List.mem_filter.mp hm).2
    have hnone : (store.older last.createdAt).countP (fun m => m.createdAt =
        last.createdAt) = 0 :=
      List.countP_eq_zero.mpr fun m hm => by
        have := (Store.mem_older.mp hm).2
        simpa using Int.ne_of_lt this
    have hcount := @countP_older store _ _ (last_lt hlast)
    rw [older_eq hlast, List.countP_append, List.countP_append, hall, hnone]
      at hcount
    rw [← List.length_eq_zero_iff]
    constructor
    · intro hlength last' hlast'
      obtain rfl := Option.some.inj (hlast.symm.trans hlast')
      omega
    · intro hwhole
      have := hwhole last hlast
      omega

/-- The run of pages terminates; the pages, each with what does not fit on it,
are all the requested messages in order. -/
theorem browses (store : Store) {limit : Nat} (hlimit : 1 ≤ limit)
    (before : Int) :
    ∃ pages gaps, Browses store limit before pages ∧
      List.Forall₂ (Gap store) pages gaps ∧
      (List.zipWith (· ++ ·) pages gaps).flatten = store.older before := by
  -- the messages that are left get fewer with each page
  induction hleft : (store.older before).length
    using Nat.strongRecOn generalizing before with
  | ind left ih =>
      subst hleft
      cases hlast : (store.messagesBefore before limit).getLast? with
      | none =>
          have hnil : store.messagesBefore before limit = [] :=
            List.getLast?_eq_none_iff.mp hlast
          have holder : store.older before = [] := by
            rw [Store.messagesBefore_eq, List.take_eq_nil_iff] at hnil
            exact hnil.resolve_left (by omega)
          exact ⟨[], [], .done ((page_status _).mpr hnil), .nil, holder.symm⟩
      | some last =>
          have heq := older_eq hlast
          have hne : store.messagesBefore before limit ≠ [] := by
            intro hnil
            simp [hnil] at hlast
          have hshorter : (store.older last.createdAt).length <
              (store.older before).length := by
            have := List.length_pos_iff.mpr hne
            rw [heq, List.length_append, List.length_append]
            omega
          obtain ⟨pages, gaps, hbrowses, hgaps, hall⟩ :=
            ih _ hshorter last.createdAt rfl
          refine
            ⟨_, _ :: gaps, .more (mt (page_status _).mp hne) hlast hbrowses,
              .cons (gap_omitted hlast) hgaps, ?_⟩
          rw [List.zipWith_cons_cons, List.flatten_cons, hall, heq,
            List.append_assoc]

theorem flatten_zipWith_perm {pages gaps : List (List Message)}
    (h : List.Forall₂ (Gap store) pages gaps) :
    (List.zipWith (· ++ ·) pages gaps).flatten.Perm
      (pages.flatten ++ gaps.flatten) := by
  induction h with
  | nil => exact .refl _
  | @cons shown gap pages gaps _ _ ih =>
      simp only [List.zipWith_cons_cons, List.flatten_cons, List.append_assoc]
      refine .append_left shown ((ih.append_left gap).trans ?_)
      rw [← List.append_assoc, ← List.append_assoc]
      exact List.perm_append_comm.append_right gaps.flatten

theorem flatten_sublist {pages gaps : List (List Message)}
    (h : List.Forall₂ (Gap store) pages gaps) :
    pages.flatten.Sublist (List.zipWith (· ++ ·) pages gaps).flatten := by
  induction h with
  | nil => exact .slnil
  | cons _ _ ih =>
      simp only [List.zipWith_cons_cons, List.flatten_cons]
      exact (List.sublist_append_left _ _).append ih

theorem flatten_gaps_eq_nil {pages gaps : List (List Message)}
    (h : List.Forall₂ (Gap store) pages gaps) :
    gaps.flatten = [] ↔ ∀ shown ∈ pages, Whole store shown := by
  induction h with
  | nil => simp
  | cons hgap _ ih => simp [hgap.empty_iff, ih]

/-- Paging through the history terminates and returns the messages newest first,
none twice. A message that is left out has the time of the last message of some
page on which it did not fit; so every requested message is returned exactly
once if and only if each page has room for all messages of the time it ends
at. -/
theorem pages_visit_once (store : Store) (before : Int) {limit : Nat}
    (hlimit : 1 ≤ limit) :
    ∃ pages gaps,
      (∀ others, Browses store limit before others ↔ others = pages) ∧
      NewestFirst pages.flatten ∧
      List.Forall₂ (Gap store) pages gaps ∧
      (pages.flatten ++ gaps.flatten).Perm
        (store.messages.filter fun m => m.createdAt < before) ∧
      (pages.flatten.Perm
        (store.messages.filter fun m => m.createdAt < before) ↔
        ∀ shown ∈ pages, Whole store shown) := by
  obtain ⟨pages, gaps, hbrowses, hgaps, hall⟩ := browses store hlimit before
  have hseen := flatten_sublist hgaps
  have hperm := (flatten_zipWith_perm hgaps).symm
  rw [hall] at hseen hperm
  have hwanted := hperm.trans (Store.older_perm store before)
  refine ⟨pages, gaps,
    fun others => ⟨fun h => h.unique hbrowses, fun h => h ▸ hbrowses⟩,
      (Store.newestFirst_older store before).sublist hseen, hgaps, hwanted, ?_⟩
  rw [← flatten_gaps_eq_nil hgaps]
  constructor
  · intro hpages
    have hlength := hwanted.length_eq.trans hpages.length_eq.symm
    rw [List.length_append] at hlength
    exact List.length_eq_zero_iff.mp (by omega)
  · intro hnone
    rwa [hnone, List.append_nil] at hwanted

def messageAt (text : String) (time : Int) : Message where
  id := text
  sender := 1
  kind := .userText
  text := text
  createdAt := time
  updatedAt := time

/-- A history in which two messages have the same time. -/
def sampleHistory : Store where
  messages :=
    [messageAt "a" 10, messageAt "b" 20, messageAt "c" 20, messageAt "d" 30]

/-- Pages of three end between two times. -/
theorem sampleHistory_pages_visit_once :
    1 ≤ 3 ∧
      Browses sampleHistory 3 40
        [[messageAt "d" 30, messageAt "c" 20, messageAt "b" 20],
          [messageAt "a" 10]] ∧
      [[messageAt "d" 30, messageAt "c" 20, messageAt "b" 20],
        [messageAt "a" 10]].flatten.Perm
        (sampleHistory.messages.filter fun m => m.createdAt < 40) := by
  have hpage := @Store.messagesBefore_of_inOrder sampleHistory (by decide)
  have hfirst : sampleHistory.messagesBefore 40 3 =
      [messageAt "d" 30, messageAt "c" 20, messageAt "b" 20] := hpage 40 3
  have hsecond : sampleHistory.messagesBefore 20 3 = [messageAt "a" 10] :=
    hpage 20 3
  have hthird : sampleHistory.messagesBefore 10 3 = [] := hpage 10 3
  have hbrowses : Browses sampleHistory 3 40
      [[messageAt "d" 30, messageAt "c" 20, messageAt "b" 20],
        [messageAt "a" 10]] := by
    rw [← hfirst, ← hsecond]
    have hmiddle :
        Browses sampleHistory 3 20 [sampleHistory.messagesBefore 20 3] := by
      refine .more (by simp [page_status, hsecond]) (by rw [hsecond]; rfl) ?_
      exact .done ((page_status _).mpr hthird)
    exact .more (by simp [page_status, hfirst]) (by rw [hfirst]; rfl) hmiddle
  obtain ⟨pages, gaps, hunique, -, -, -, hperm⟩ :=
    pages_visit_once sampleHistory 40 (show 1 ≤ 3 by decide)
  obtain rfl := (hunique _).mp hbrowses
  refine ⟨by decide, hbrowses, hperm.mpr ?_⟩
  intro shown hshown last hlast
  simp only [List.mem_cons, List.not_mem_nil, or_false] at hshown
  rcases hshown with rfl | rfl
  · obtain rfl : messageAt "b" 20 = last := Option.some.inj hlast
    decide +kernel
  · obtain rfl : messageAt "a" 10 = last := Option.some.inj hlast
    decide +kernel

/-- Two messages of the same time. -/
def tiedHistory : Store where
  messages := [messageAt "a" 10, messageAt "b" 10]

/-- With pages of one message, the first of two messages of the same time is
never returned. -/
theorem tied_message_is_omitted :
    1 ≤ 1 ∧ Browses tiedHistory 1 20 [[messageAt "b" 10]] ∧
      ∀ pages, Browses tiedHistory 1 20 pages →
        ¬ pages.flatten.Perm
          (tiedHistory.messages.filter fun m => m.createdAt < 20) := by
  have hpage := @Store.messagesBefore_of_inOrder tiedHistory (by decide)
  have hfirst : tiedHistory.messagesBefore 20 1 = [messageAt "b" 10] :=
    hpage 20 1
  have hsecond : tiedHistory.messagesBefore 10 1 = [] := hpage 10 1
  have hbrowses : Browses tiedHistory 1 20 [[messageAt "b" 10]] := by
    rw [← hfirst]
    refine .more (by simp [page_status, hfirst]) (by rw [hfirst]; rfl) ?_
    exact .done ((page_status _).mpr hsecond)
  refine ⟨by decide, hbrowses, fun pages hpages => ?_⟩
  obtain rfl := hpages.unique hbrowses
  intro hperm
  exact absurd hperm.length_eq (by decide)

end ChatRelay.Chat
