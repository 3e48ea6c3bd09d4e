import Mathlib.Data.List.Nodup
import ChatRelay.Store.Tables
/-!
# Accounts and the login index

Users are numbered by position, and the login index maps logins to these
numbers. Adding an account with a free login preserves this.
-/

namespace ChatRelay.Store

/-- The user of the next account. -/
def nextUser (store : Store) (login : String) (colour : Colour) : User :=
  { id := (store.accounts.length + 1 : Nat), login, name := login, colour }

/-- The store with an additional account. -/
def withAccount (store : Store) (a : Account) : Store :=
  { store with
    accounts := store.accounts ++ [a]
    logins := (a.user.login, a.user.id) :: store.logins }

theorem addAccount_eq (store : Store) (login : String) (secret : Secret)
    (colour : Colour) :
    store.addAccount login secret colour =
      if store.isTaken login then .error .alreadyExists
      else if Text.maxLong < (store.nextUser login colour).id then
        .error (.internal "user ids exhausted")
      else .ok (store.nextUser login colour,
        store.withAccount ⟨store.nextUser login colour, secret⟩) := rfl

/-- The consistency of the tables: users are numbered from one in the order of
accounts, the index maps exactly the logins of the accounts to their user
numbers, and logins are unique. -/
structure Consistent (store : Store) : Prop where
  numbered : ∀ (i : Nat) (a : Account), store.accounts[i]? = some a →
    a.user.id = (i + 1 : Nat)
  indexed : ∀ (login : String) (id : Int), store.logins.lookup login = some id ↔
    ∃ a ∈ store.accounts, a.user.login = login ∧ a.user.id = id
  distinct : (store.accounts.map fun a => a.user.login).Nodup

theorem consistent_empty (lifetime : Nat) : Consistent { lifetime } := by
  constructor
  · intro i a ha
    simp at ha
  · intro login id
    simp
  · exact List.nodup_nil

variable {store : Store}

theorem Consistent.congr {store' : Store} (h : store.Consistent)
    (haccounts : store'.accounts = store.accounts)
    (hlogins : store'.logins = store.logins) :
    store'.Consistent := by
  constructor
  · rw [haccounts]
    exact h.numbered
  · rw [haccounts, hlogins]
    exact h.indexed
  · rw [haccounts]
    exact h.distinct

theorem Consistent.account?_eq_some (h : store.Consistent) {id : Int}
    {a : Account} :
    store.account? id = some a ↔ a ∈ store.accounts ∧ a.user.id = id := by
  unfold account?
  constructor
  · intro ha
    split at ha
    · next hid =>
        have hnumber := h.numbered _ a ha
        exact ⟨List.mem_of_getElem? ha, by omega⟩
    · cases ha
  · rintro ⟨hmem, rfl⟩
    obtain ⟨i, hi⟩ := List.getElem?_of_mem hmem
    have hnumber := h.numbered i a hi
    rw [if_pos (by omega), hnumber]
    exact hi

theorem Consistent.eq_of_login (h : store.Consistent) {a b : Account}
    (ha : a ∈ store.accounts) (hb : b ∈ store.accounts)
    (hlogin : a.user.login = b.user.login) : a = b :=
  List.inj_on_of_nodup_map h.distinct ha hb hlogin

/-- The lookup of a login finds its account. -/
theorem Consistent.accountOf?_eq_some (h : store.Consistent) {login : String}
    {a : Account} :
    store.accountOf? login = some a ↔
      a ∈ store.accounts ∧ a.user.login = login := by
  unfold accountOf?
  rw [Option.bind_eq_some_iff]
  constructor
  · rintro ⟨id, hid, ha⟩
    obtain ⟨b, hb, hlogin, hnumber⟩ := (h.indexed login id).mp hid
    have hsame := h.account?_eq_some.mpr ⟨hb, hnumber⟩
    obtain rfl : a = b := Option.some.inj (ha.symm.trans hsame)
    exact ⟨hb, hlogin⟩
  · rintro ⟨ha, hlogin⟩
    exact ⟨a.user.id, (h.indexed login _).mpr ⟨a, ha, hlogin, rfl⟩,
      h.account?_eq_some.mpr ⟨ha, rfl⟩⟩

theorem Consistent.isTaken_iff (h : store.Consistent) {login : String} :
    store.isTaken login = true ↔ ∃ a ∈ store.accounts,
      a.user.login = login := by
  unfold isTaken
  rw [Option.isSome_iff_exists]
  constructor
  · rintro ⟨id, hid⟩
    obtain ⟨a, ha, hlogin, -⟩ := (h.indexed login id).mp hid
    exact ⟨a, ha, hlogin⟩
  · rintro ⟨a, ha, hlogin⟩
    exact ⟨a.user.id, (h.indexed login _).mpr ⟨a, ha, hlogin, rfl⟩⟩

theorem isTaken_withAccount (a : Account) (login : String) :
    (store.withAccount a).isTaken login = true ↔
      a.user.login = login ∨ store.isTaken login = true := by
  unfold isTaken withAccount
  by_cases hlogin : login = a.user.login
  · subst hlogin
    simp
  · rw [List.lookup_cons, beq_eq_false_iff_ne.mpr hlogin]
    exact (or_iff_right (Ne.symm hlogin)).symm

/-- Adding an account with a free login and the next number preserves
consistency. -/
theorem Consistent.withAccount (h : store.Consistent) {a : Account}
    (hfree : store.isTaken a.user.login = false)
    (hnumber : a.user.id = (store.accounts.length + 1 : Nat)) :
    (store.withAccount a).Consistent := by
  have hnew : ∀ b ∈ store.accounts, b.user.login ≠ a.user.login := by
    intro b hb hlogin
    rw [h.isTaken_iff.mpr ⟨b, hb, hlogin⟩] at hfree
    cases hfree
  constructor
  · intro i b hb
    rcases Nat.lt_or_ge i store.accounts.length with hi | hi
    · rw [Store.withAccount, List.getElem?_append_left hi] at hb
      exact h.numbered i b hb
    · rw [Store.withAccount, List.getElem?_append_right hi,
        List.getElem?_singleton] at hb
      split at hb
      · next hlast =>
          obtain rfl := Option.some.inj hb
          rw [hnumber]
          omega
      · cases hb
  · intro login id
    simp only [Store.withAccount, List.mem_append, List.mem_singleton]
    by_cases hlogin : login = a.user.login
    · subst hlogin
      rw [List.lookup_cons_self, Option.some.injEq]
      constructor
      · rintro rfl
        exact ⟨a, .inr rfl, rfl, rfl⟩
      · rintro ⟨b, hb | rfl, hsame, hid⟩
        · exact absurd hsame (hnew b hb)
        · exact hid
    · rw [List.lookup_cons, beq_eq_false_iff_ne.mpr hlogin]
      apply (h.indexed login id).trans
      constructor
      · rintro ⟨b, hb, hfound⟩
        exact ⟨b, .inl hb, hfound⟩
      · rintro ⟨b, hb | rfl, hsame, hid⟩
        · exact ⟨b, hb, hsame, hid⟩
        · exact absurd hsame.symm hlogin
  · rw [Store.withAccount, List.map_append, List.nodup_append]
    refine ⟨h.distinct, List.nodup_singleton _, ?_⟩
    intro login hold login' hlast
    obtain ⟨b, hb, rfl⟩ := List.mem_map.mp hold
    obtain rfl := List.mem_singleton.mp hlast
    exact hnew b hb

end ChatRelay.Store
