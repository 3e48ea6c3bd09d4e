import Mathlib.Logic.Relation
import ChatRelay.Proofs.Store.Index
/-!
# Concurrent sign ups and sign ins

Arbitrarily many calls share a store. A call releases the store between its
steps, a sign up while it hashes the password and a sign in while it verifies
the password. So each call consists of three steps, which interleave with the
steps of other calls.
-/

namespace ChatRelay

/-- The external inputs of a step. -/
structure StepInput where
  salt : BitVec 128
  colour : Colour
  id : Uuid
  now : Nat

/-- The stages of a sign up. -/
inductive SignUpStage where
  | started
  | free
  | hashed (secret : Secret)
  | done (result : Except StoreError User)

/-- The stages of a sign in. -/
inductive SignInStage where
  | started
  | found (account : Account)
  | checked (user : User)
  | done (result : Except StoreError (Token × User))

/-- One step of a sign up, and the resulting store. -/
def SignUpStage.step (h : Hashing) (given : Credentials) (d : StepInput)
    (store : Store) : SignUpStage → SignUpStage × Store
  | .started =>
    (if store.isTaken given.login then .done (.error .alreadyExists)
      else .free, store)
  | .free =>
    match h.secret d.salt given.password with
    | .ok secret => (.hashed secret, store)
    | .error e => (.done (.error e), store)
  | .hashed secret =>
    match store.addAccount given.login secret d.colour with
    | .ok (user, store) => (.done (.ok user), store)
    | .error e => (.done (.error e), store)
  | .done result => (.done result, store)

/-- One step of a sign in, and the resulting store. -/
def SignInStage.step (h : Hashing) (given : Credentials) (d : StepInput)
    (store : Store) : SignInStage → SignInStage × Store
  | .started =>
    match store.lookUp given.login with
    | .ok account => (.found account, store)
    | .error e => (.done (.error e), store)
  | .found account =>
    match h.check account given.password with
    | .ok user => (.checked user, store)
    | .error e => (.done (.error e), store)
  | .checked user =>
    let token : Token := ⟨d.id, user.id⟩
    (.done (.ok (token, user)), store.issue d.now token)
  | .done result => (.done result, store)

/-- A sign up that is not interleaved with other calls is `Store.signUp`. -/
theorem SignUpStage.undisturbed (h : Hashing) (given : Credentials)
    (d : StepInput) (store : Store) :
    let next := fun s : SignUpStage × Store => s.1.step h given d s.2
    next (next (next (.started, store))) =
      match store.signUp h given d.salt d.colour with
      | .ok (user, store') => (.done (.ok user), store')
      | .error e => (.done (.error e), store) := by
  intro next
  cases htaken : store.isTaken given.login with
  | true => simp [next, step, Store.signUp, htaken]
  | false =>
      cases hsecret : h.secret d.salt given.password with
      | error e =>
        simp [next, step, Store.signUp, htaken, hsecret, bind, Except.bind]
      | ok secret =>
          cases hadd : store.addAccount given.login secret d.colour with
          | error e =>
            simp [next, step, Store.signUp, htaken, hsecret, hadd, bind,
              Except.bind]
          | ok made =>
            simp [next, step, Store.signUp, htaken, hsecret, hadd, bind,
              Except.bind]

/-- A sign in that is not interleaved with other calls is `Store.signIn`. -/
theorem SignInStage.undisturbed (h : Hashing) (given : Credentials)
    (d : StepInput) (store : Store) :
    let next := fun s : SignInStage × Store => s.1.step h given d s.2
    next (next (next (.started, store))) =
      match store.signIn h d.now given d.id with
      | .ok (token, user, store') => (.done (.ok (token, user)), store')
      | .error e => (.done (.error e), store) := by
  intro next
  cases hfound : store.lookUp given.login with
  | error e =>
    simp [next, step, Store.signIn, Store.authenticate, hfound, bind,
      Except.bind]
  | ok account =>
      cases hcheck : h.check account given.password with
      | error e =>
          simp [next, step, Store.signIn, Store.authenticate, hfound, hcheck,
            bind, Except.bind]
      | ok user =>
          simp [next, step, Store.signIn, Store.authenticate, hfound, hcheck,
            bind, Except.bind, pure, Except.pure]

/-- A step of a sign up that changes the store creates an account. -/
theorem SignUpStage.step_store (h : Hashing) (given : Credentials)
    (d : StepInput) (store : Store) (stage : SignUpStage) :
    (stage.step h given d store).2 = store ∨
      ∃ user, (stage.step h given d store).1 = .done (.ok user) := by
  cases stage with
  | started => exact .inl rfl
  | free =>
      left
      simp only [step]
      split
      · rfl
      · rfl
  | hashed secret =>
      simp only [step]
      split
      · next user store' _ => exact .inr ⟨user, rfl⟩
      · exact .inl rfl
  | done result => exact .inl rfl

theorem SignInStage.step_tables (h : Hashing) (given : Credentials)
    (d : StepInput) (store : Store) (stage : SignInStage) :
    (stage.step h given d store).2.accounts = store.accounts ∧
      (stage.step h given d store).2.logins = store.logins := by
  cases stage with
  | started =>
      simp only [step]
      split
      · exact ⟨rfl, rfl⟩
      · exact ⟨rfl, rfl⟩
  | found account =>
      simp only [step]
      split
      · exact ⟨rfl, rfl⟩
      · exact ⟨rfl, rfl⟩
  | checked user => exact ⟨rfl, rfl⟩
  | done result => exact ⟨rfl, rfl⟩

/-- A call with its credentials and its stage. -/
inductive PendingCall where
  | signUp (given : Credentials) (stage : SignUpStage)
  | signIn (given : Credentials) (stage : SignInStage)

namespace PendingCall

/-- One step of a call, and the resulting store. -/
def step (h : Hashing) (d : StepInput) (store : Store) :
    PendingCall → PendingCall × Store
  | signUp given stage =>
    (signUp given (stage.step h given d store).1,
      (stage.step h given d store).2)
  | signIn given stage =>
    (signIn given (stage.step h given d store).1,
      (stage.step h given d store).2)

/-- A call before its first step. -/
inductive IsNew : PendingCall → Prop
  | signUp (given : Credentials) : IsNew (.signUp given .started)
  | signIn (given : Credentials) : IsNew (.signIn given .started)

inductive IsDone : PendingCall → Prop
  | signUp (given : Credentials) (result : Except StoreError User) :
      IsDone (.signUp given (.done result))
  | signIn (given : Credentials) (result : Except StoreError (Token × User)) :
      IsDone (.signIn given (.done result))

/-- The credentials and the user of a successful sign up. -/
def created? : PendingCall → Option (Credentials × User)
  | signUp given (.done (.ok user)) => some (given, user)
  | _ => none

end PendingCall

/-- A store and the calls in order of arrival. -/
structure AccountCalls where
  store : Store
  calls : List PendingCall := []

namespace AccountCalls

/-- One step of the call with a given number. -/
def advance (h : Hashing) (r : AccountCalls) (i : Nat) (e : PendingCall)
    (d : StepInput) : AccountCalls :=
  ⟨(e.step h d r.store).2, r.calls.set i (e.step h d r.store).1⟩

/-- A call arrives, or a call takes a step. -/
inductive Step (h : Hashing) : AccountCalls → AccountCalls → Prop
  | arrive {r : AccountCalls} {e : PendingCall} (hnew : e.IsNew) :
      Step h r { r with calls := r.calls ++ [e] }
  | advance {r : AccountCalls} {i : Nat} {e : PendingCall}
      (hi : r.calls[i]? = some e) (d : StepInput) :
      Step h r (r.advance h i e d)

/-- Finitely many steps. -/
abbrev Steps (h : Hashing) : AccountCalls → AccountCalls → Prop :=
  Relation.ReflTransGen (Step h)

/-- The call with a given number is a successful sign up. -/
def SignedUp (r : AccountCalls) (i : Nat) (given : Credentials)
    (user : User) : Prop :=
  r.calls[i]? = some (.signUp given (.done (.ok user)))

end AccountCalls

namespace PendingCall

variable {h : Hashing} {store store' : Store} {e e' : PendingCall}

theorem created?_eq_some {given : Credentials} {user : User} :
    e.created? = some (given, user) ↔ e = .signUp given (.done (.ok user)) := by
  constructor
  · intro hmade
    unfold created? at hmade
    split at hmade
    · cases hmade
      rfl
    · cases hmade
  · rintro rfl
    rfl

/-- The secret of a call is a hash of its password, and the login of a rejected
sign up is taken. -/
def WellFormed (h : Hashing) (store : Store) : PendingCall → Prop
  | signUp given (.hashed secret) =>
    ∃ salt, h.hash salt given.password = .ok secret
  | signUp given (.done (.error .alreadyExists)) =>
    store.isTaken given.login = true
  | _ => True

theorem WellFormed.mono (hfair : e.WellFormed h store)
    (htaken : ∀ login, store.isTaken login = true →
      store'.isTaken login = true) :
    e.WellFormed h store' := by
  unfold WellFormed at hfair ⊢
  split
  · exact hfair
  · exact htaken _ hfair
  · trivial

/-- A step that creates no account preserves accounts and logins. -/
structure Quiet (h : Hashing) (store : Store) (e e' : PendingCall)
    (store' : Store) : Prop where
  accounts : store'.accounts = store.accounts
  logins : store'.logins = store.logins
  made : e'.created? = e.created?
  wellFormed : e.WellFormed h store → e'.WellFormed h store'

/-- A step preserves the accounts or creates one for a free login. -/
theorem step_cases (h : Hashing) (d : StepInput) (store : Store)
    (e : PendingCall) :
    Quiet h store e (e.step h d store).1 (e.step h d store).2 ∨
      ∃ given secret, e = .signUp given (.hashed secret) ∧
        store.isTaken given.login = false ∧
        e.step h d store =
          (.signUp given (.done (.ok (store.nextUser given.login d.colour))),
            store.withAccount
              ⟨store.nextUser given.login d.colour, secret⟩) := by
  cases e with
  | signIn given stage =>
      obtain ⟨haccounts, hlogins⟩ := stage.step_tables h given d store
      exact .inl ⟨haccounts, hlogins, rfl, fun _ => trivial⟩
  | signUp given stage =>
      cases stage with
      | started =>
          left
          cases htaken : store.isTaken given.login with
          | true =>
              simp only [step, SignUpStage.step, htaken, if_true]
              exact ⟨rfl, rfl, rfl, fun _ => htaken⟩
          | false =>
              simp only [step, SignUpStage.step, htaken,
                Bool.false_eq_true, if_false]
              exact ⟨rfl, rfl, rfl, fun _ => trivial⟩
      | free =>
          left
          cases hhash : h.hash d.salt given.password with
          | ok secret =>
              simp only [step, SignUpStage.step, Hashing.secret, hhash,
                Except.mapError]
              exact ⟨rfl, rfl, rfl, fun _ => ⟨d.salt, hhash⟩⟩
          | error why =>
              simp only [step, SignUpStage.step, Hashing.secret, hhash,
                Except.mapError]
              exact ⟨rfl, rfl, rfl, fun _ => trivial⟩
      | hashed secret =>
          cases htaken : store.isTaken given.login with
          | true =>
              left
              simp only [step, SignUpStage.step, Store.addAccount_eq,
                htaken, if_true]
              exact ⟨rfl, rfl, rfl, fun _ => htaken⟩
          | false =>
              by_cases hlast :
                Text.maxLong < (store.nextUser given.login d.colour).id
              · left
                simp only [step, SignUpStage.step, Store.addAccount_eq, htaken,
                  Bool.false_eq_true, if_false, hlast, if_true]
                exact ⟨rfl, rfl, rfl, fun _ => trivial⟩
              · right
                refine ⟨given, secret, rfl, htaken, ?_⟩
                simp only [step, SignUpStage.step, Store.addAccount_eq, htaken,
                  Bool.false_eq_true, if_false, hlast]
      | done result => exact .inl ⟨rfl, rfl, rfl, id⟩

/-- A call has a result after three steps, for arbitrary stores in between. -/
theorem isDone_of_three (hnew : e.IsNew) (d₁ d₂ d₃ : StepInput)
    (s₁ s₂ s₃ : Store) :
    (((e.step h d₁ s₁).1.step h d₂ s₂).1.step h d₃ s₃).1.IsDone := by
  cases hnew with
  | signUp given =>
      cases htaken : s₁.isTaken given.login with
      | true =>
          simp only [step, SignUpStage.step, htaken, if_true]
          exact .signUp _ _
      | false =>
          cases hsecret : h.secret d₂.salt given.password with
          | error why =>
              simp only [step, SignUpStage.step, htaken, Bool.false_eq_true,
                if_false, hsecret]
              exact .signUp _ _
          | ok secret =>
              simp only [step, SignUpStage.step, htaken, Bool.false_eq_true,
                if_false, hsecret]
              split
              · exact .signUp _ _
              · exact .signUp _ _
  | signIn given =>
      cases hfound : s₁.lookUp given.login with
      | error why =>
          simp only [step, SignInStage.step, hfound]
          exact .signIn _ _
      | ok account =>
          cases hcheck : h.check account given.password with
          | error why =>
              simp only [step, SignInStage.step, hfound, hcheck]
              exact .signIn _ _
          | ok user =>
              simp only [step, SignInStage.step, hfound, hcheck]
              exact .signIn _ _

end PendingCall

namespace AccountCalls

variable {h : Hashing} {r r' : AccountCalls}

theorem signedUp_iff {i : Nat} {given : Credentials} {user : User} :
    r.SignedUp i given user ↔
      r.calls[i]?.bind PendingCall.created? = some (given, user) := by
  unfold SignedUp
  rw [Option.bind_eq_some_iff]
  constructor
  · intro hi
    exact ⟨_, hi, rfl⟩
  · rintro ⟨e, hi, hmade⟩
    rw [hi, PendingCall.created?_eq_some.mp hmade]

/-- The successful sign ups depend only on the accounts created by the calls. -/
theorem signedUp_congr {j : Nat} {given : Credentials} {user : User}
    (hmade : r'.calls[j]?.bind PendingCall.created? =
      r.calls[j]?.bind PendingCall.created?) :
    r'.SignedUp j given user ↔ r.SignedUp j given user := by
  rw [signedUp_iff, signedUp_iff, hmade]

theorem signedUp_arrive {e : PendingCall} (hnew : e.IsNew) {j : Nat}
    {given : Credentials} {user : User} :
    SignedUp { r with calls := r.calls ++ [e] } j given user ↔
      r.SignedUp j given user := by
  apply signedUp_congr
  rw [List.getElem?_append]
  split
  · rfl
  · next hj =>
      have hmade : e.created? = none := by cases hnew <;> rfl
      rw [List.getElem?_singleton, List.getElem?_eq_none (Nat.le_of_not_lt hj)]
      split
      · exact hmade
      · rfl

theorem created?_set {calls : List PendingCall} {i : Nat} {e e' : PendingCall}
    (hi : calls[i]? = some e) (hmade : e'.created? = e.created?) (j : Nat) :
    (calls.set i e')[j]?.bind PendingCall.created? =
      calls[j]?.bind PendingCall.created? := by
  rw [List.getElem?_set]
  split
  · next hij =>
      subst hij
      rw [if_pos (List.getElem?_eq_some_iff.mp hi).1, hi]
      exact hmade
  · rfl

/-- The invariant: the tables are consistent, each successful sign up has its
account with a hash of its password, each account was created by a sign up, and
logins are unique. -/
structure Sound (h : Hashing) (r : AccountCalls) : Prop where
  consistent : r.store.Consistent
  wellFormed : ∀ e ∈ r.calls, e.WellFormed h r.store
  kept : ∀ i given user, r.SignedUp i given user → user.login = given.login ∧
    ∃ a ∈ r.store.accounts, a.user = user ∧ ∃ salt,
      h.hash salt given.password = .ok a.secret
  made : ∀ a ∈ r.store.accounts, ∃ i given, r.SignedUp i given a.user
  once : ∀ i j given given' user user', r.SignedUp i given user →
    r.SignedUp j given' user' →
    given.login = given'.login → i = j

theorem sound_empty (h : Hashing) (lifetime : Nat) :
    Sound h ⟨{ lifetime }, []⟩ := by
  constructor
  · exact Store.consistent_empty lifetime
  · simp
  · simp [SignedUp]
  · simp
  · simp [SignedUp]

/-- A step that creates no account preserves the invariant. -/
theorem Sound.quiet (hr : r.Sound h)
    (haccounts : r'.store.accounts = r.store.accounts)
    (hlogins : r'.store.logins = r.store.logins)
    (hmade : ∀ j given user, r'.SignedUp j given user ↔ r.SignedUp j given user)
    (hfair : ∀ e ∈ r'.calls, e.WellFormed h r'.store) : r'.Sound h := by
  constructor
  · exact hr.consistent.congr haccounts hlogins
  · exact hfair
  · intro i given user hi
    rw [haccounts]
    exact hr.kept i given user ((hmade i given user).mp hi)
  · intro a ha
    rw [haccounts] at ha
    obtain ⟨i, given, hi⟩ := hr.made a ha
    exact ⟨i, given, (hmade i given a.user).mpr hi⟩
  · intro i j given given' user user' hi hj
    exact hr.once i j given given' user user' ((hmade i given user).mp hi)
      ((hmade j given' user').mp hj)

theorem isTaken_congr {store store' : Store}
    (hlogins : store'.logins = store.logins) (login : String) :
    store'.isTaken login = store.isTaken login := by
  unfold Store.isTaken
  rw [hlogins]

theorem Sound.arrive (hr : r.Sound h) {e : PendingCall} (hnew : e.IsNew) :
    Sound h { r with calls := r.calls ++ [e] } := by
  apply hr.quiet
  · rfl
  · rfl
  · intro j given user
    exact signedUp_arrive hnew
  · intro e' he'
    rcases List.mem_append.mp he' with hold | hlast
    · exact hr.wellFormed e' hold
    · obtain rfl := List.mem_singleton.mp hlast
      cases hnew <;> trivial

/-- A step that creates an account for a free login preserves the invariant. -/
theorem Sound.join (hr : r.Sound h) {i : Nat} {given : Credentials}
    {secret : Secret} (hi : r.calls[i]? = some (.signUp given (.hashed secret)))
    (hfree : r.store.isTaken given.login = false) (colour : Colour) :
    Sound h ⟨r.store.withAccount ⟨r.store.nextUser given.login colour, secret⟩,
      r.calls.set i (.signUp given
        (.done (.ok (r.store.nextUser given.login colour))))⟩ := by
  obtain ⟨hlt, hei⟩ := List.getElem?_eq_some_iff.mp hi
  obtain ⟨salt, hsalt⟩ : ∃ salt, h.hash salt given.password = .ok secret :=
    hr.wellFormed _ (List.mem_of_getElem? hi)
  -- the users signed up so far: those from before, and the one of this call
  have hsigned : ∀ j other user,
      SignedUp
        ⟨r.store.withAccount ⟨r.store.nextUser given.login colour, secret⟩,
          r.calls.set i
          (.signUp given (.done (.ok (r.store.nextUser given.login colour))))⟩
        j other user ↔
      (j = i ∧ other = given ∧ user = r.store.nextUser given.login colour) ∨
        r.SignedUp j other user := by
    intro j other user
    simp only [SignedUp, List.getElem?_set, hlt, if_true]
    by_cases hij : i = j
    · subst hij
      simp [hi, eq_comm]
    · simp [hij, Ne.symm hij]
  have hother : ∀ j other user, r.SignedUp j other user →
      other.login ≠ given.login := by
    intro j other user hj hlogin
    obtain ⟨huser, a, ha, rfl, -⟩ := hr.kept j other user hj
    rw [hr.consistent.isTaken_iff.mpr ⟨a, ha, huser.trans hlogin⟩] at hfree
    cases hfree
  constructor
  · exact hr.consistent.withAccount hfree rfl
  · intro e he
    rcases List.mem_or_eq_of_mem_set he with hold | rfl
    · apply (hr.wellFormed e hold).mono
      intro login htaken
      exact (Store.isTaken_withAccount _ login).mpr (.inr htaken)
    · trivial
  · intro j other user hj
    rcases (hsigned j other user).mp hj with ⟨rfl, rfl, rfl⟩ | hold
    · exact ⟨rfl, _, List.mem_append_right _ (List.mem_singleton_self _), rfl,
        salt, hsalt⟩
    · obtain ⟨hlogin, a, ha, hkept⟩ := hr.kept j other user hold
      exact ⟨hlogin, a, List.mem_append_left _ ha, hkept⟩
  · intro a ha
    rcases List.mem_append.mp ha with hold | hnew
    · obtain ⟨j, other, hj⟩ := hr.made a hold
      exact ⟨j, other, (hsigned j other a.user).mpr (.inr hj)⟩
    · obtain rfl := List.mem_singleton.mp hnew
      exact ⟨i, given, (hsigned i given _).mpr (.inl ⟨rfl, rfl, rfl⟩)⟩
  · intro j k other other' user user' hj hk hlogin
    rcases (hsigned j other user).mp hj with ⟨rfl, rfl, rfl⟩ | hold
    · rcases (hsigned k other' user').mp hk with ⟨rfl, -, -⟩ | hold'
      · rfl
      · exact absurd hlogin.symm (hother k other' user' hold')
    · rcases (hsigned k other' user').mp hk with ⟨rfl, rfl, rfl⟩ | hold'
      · exact absurd hlogin (hother j other user hold)
      · exact hr.once j k other other' user user' hold hold' hlogin

theorem Step.sound (hstep : Step h r r') (hr : r.Sound h) : r'.Sound h := by
  cases hstep with
  | arrive hnew => exact hr.arrive hnew
  | @advance i e hi d =>
      unfold AccountCalls.advance
      rcases PendingCall.step_cases h d r.store e
        with hquiet | ⟨given, secret, rfl, hfree, hstep⟩
      · apply hr.quiet hquiet.accounts hquiet.logins
        · intro j given user
          exact signedUp_congr (created?_set hi hquiet.made j)
        · intro e' he'
          rcases List.mem_or_eq_of_mem_set he' with hold | rfl
          · apply (hr.wellFormed e' hold).mono
            intro login htaken
            rwa [isTaken_congr hquiet.logins]
          · exact hquiet.wellFormed (hr.wellFormed e (List.mem_of_getElem? hi))
      · rw [hstep]
        exact hr.join hi hfree d.colour

theorem Steps.sound (hsteps : Steps h r r') (hr : r.Sound h) : r'.Sound h := by
  induction hsteps with
  | refl => exact hr
  | tail _ hstep ih => exact hstep.sound ih

end AccountCalls

/-- A sign in whose result is determined by the account it looked up. -/
def SignInStage.LeadsTo (h : Hashing) (given : Credentials)
    (verdict : Except StoreError User) : SignInStage → Prop
  | .started => False
  | .found account => h.check account given.password = verdict
  | .checked user => .ok user = verdict
  | .done result => result.map Prod.snd = verdict

theorem SignInStage.leadsTo_lookup (h : Hashing) (given : Credentials)
    (d : StepInput) (store : Store) :
    (SignInStage.started.step h given d store).1.LeadsTo h given
      (store.authenticate h given) := by
  unfold step Store.authenticate
  cases store.lookUp given.login with
  | ok account => rfl
  | error e => rfl

theorem SignInStage.LeadsTo.step {h : Hashing} {given : Credentials}
    {verdict : Except StoreError User} {stage : SignInStage}
    (hstage : stage.LeadsTo h given verdict) (d : StepInput) (store : Store) :
    (stage.step h given d store).1.LeadsTo h given verdict := by
  cases stage with
  | started => exact hstage.elim
  | found account =>
      cases hcheck : h.check account given.password with
      | ok user =>
          simp only [SignInStage.step, hcheck]
          exact hcheck.symm.trans hstage
      | error e =>
          simp only [SignInStage.step, hcheck]
          exact hcheck.symm.trans hstage
  | checked user => exact hstage
  | done result => exact hstage

namespace AccountCalls

variable {h : Hashing} {r r' : AccountCalls}

/-- The call with a given number is a sign in with a determined result. -/
def Determined (h : Hashing) (r : AccountCalls) (i : Nat) (given : Credentials)
    (verdict : Except StoreError User) : Prop :=
  ∃ stage, r.calls[i]? = some (.signIn given stage) ∧
    stage.LeadsTo h given verdict

variable {i : Nat} {given : Credentials} {verdict : Except StoreError User}

theorem Step.determined (hstep : Step h r r')
    (hi : r.Determined h i given verdict) :
    r'.Determined h i given verdict := by
  obtain ⟨stage, hstage, hfollows⟩ := hi
  have hlt := (List.getElem?_eq_some_iff.mp hstage).1
  cases hstep with
  | arrive hnew =>
    exact ⟨stage, (List.getElem?_append_left hlt).trans hstage, hfollows⟩
  | @advance j e hj d =>
      unfold AccountCalls.advance Determined
      by_cases hji : j = i
      · subst hji
        obtain rfl := Option.some.inj (hj.symm.trans hstage)
        exact ⟨_, List.getElem?_set_self hlt, hfollows.step d r.store⟩
      · exact ⟨stage, (List.getElem?_set_ne hji).trans hstage, hfollows⟩

theorem Steps.determined (hsteps : Steps h r r')
    (hi : r.Determined h i given verdict) :
    r'.Determined h i given verdict := by
  induction hsteps with
  | refl => exact hi
  | tail _ hstep ih => exact hstep.determined ih

theorem determined_lookup (hi : r.calls[i]? = some (.signIn given .started))
    (d : StepInput) :
    (r.advance h i (.signIn given .started) d).Determined h i given
      (r.store.authenticate h given) :=
  ⟨_, List.getElem?_set_self (List.getElem?_eq_some_iff.mp hi).1,
    SignInStage.leadsTo_lookup h given d r.store⟩

/-- Two successful sign ups with one login are the same call. -/
theorem Sound.only (hr : r.Sound h) {i j : Nat} {given given' : Credentials}
    {user user' : User} (hi : r.SignedUp i given user)
    (hj : r.SignedUp j given' user') (hlogin : given.login = given'.login) :
    given = given' ∧ user = user' := by
  obtain rfl := hr.once i j given given' user user' hi hj hlogin
  cases hi.symm.trans hj
  exact ⟨rfl, rfl⟩

/-- The result of a sign in, in terms of the successful sign ups. -/
inductive Outcome (r : AccountCalls) (given : Credentials) :
    Except StoreError User → Prop
  | welcome {i : Nat} {user : User} (hi : r.SignedUp i given user) :
    Outcome r given (.ok user)
  | wrong {i : Nat} {other : Credentials} {user : User}
      (hi : r.SignedUp i other user)
      (hlogin : other.login = given.login)
      (hpassword : other.password ≠ given.password) :
      Outcome r given (.error .invalidPassword)
  | nobody (hnobody : ∀ i other user, r.SignedUp i other user →
      other.login ≠ given.login) :
      Outcome r given (.error (.notFound "user"))

theorem Sound.outcome_unique (hr : r.Sound h)
    {verdict' : Except StoreError User} (hone : r.Outcome given verdict)
    (hother : r.Outcome given verdict') : verdict = verdict' := by
  cases hone with
  | welcome hi =>
      cases hother with
      | welcome hj => rw [(hr.only hi hj rfl).2]
      | wrong hj hlogin hpassword =>
          obtain ⟨rfl, -⟩ := hr.only hj hi hlogin
          exact absurd rfl hpassword
      | nobody hnobody => exact absurd rfl (hnobody _ _ _ hi)
  | wrong hi hlogin hpassword =>
      cases hother with
      | welcome hj =>
          obtain ⟨rfl, -⟩ := hr.only hi hj hlogin
          exact absurd rfl hpassword
      | wrong _ _ _ => rfl
      | nobody hnobody => exact absurd hlogin (hnobody _ _ _ hi)
  | nobody hnobody =>
      cases hother with
      | welcome hj => exact absurd rfl (hnobody _ _ _ hj)
      | wrong hj hlogin _ => exact absurd hlogin (hnobody _ _ _ hj)
      | nobody _ => rfl

/-- The result determined by a lookup is given by the preceding sign ups. -/
theorem Sound.outcome_authenticate (hr : r.Sound h) (hh : h.Sound)
    (given : Credentials) :
    r.Outcome given (r.store.authenticate h given) := by
  unfold Store.authenticate Store.lookUp
  cases hfound : r.store.accountOf? given.login with
  | none =>
      apply Outcome.nobody
      intro i other user hi hlogin
      obtain ⟨huser, a, ha, rfl, -⟩ := hr.kept i other user hi
      rw [hr.consistent.accountOf?_eq_some.mpr ⟨ha, huser.trans hlogin⟩]
        at hfound
      cases hfound
  | some a =>
      obtain ⟨ha, hlogin⟩ := hr.consistent.accountOf?_eq_some.mp hfound
      obtain ⟨i, other, hi⟩ := hr.made a ha
      obtain ⟨huser, b, hb, hsame, salt, hsalt⟩ := hr.kept i other a.user hi
      obtain rfl := hr.consistent.eq_of_login hb ha (congrArg User.login hsame)
      have hother : other.login = given.login := huser.symm.trans hlogin
      have haccepts := hh salt other.password given.password b.secret hsalt
      by_cases hpassword : other.password = given.password
      · obtain rfl : other = given := Credentials.ext hother hpassword
        rw [decide_eq_true rfl] at haccepts
        simp only [Option.elim, bind, Except.bind, Hashing.check, haccepts]
        exact .welcome hi
      · rw [decide_eq_false hpassword] at haccepts
        simp only [Option.elim, bind, Except.bind, Hashing.check, haccepts]
        exact .wrong hi hother hpassword

theorem Sound.authenticate_iff (hr : r.Sound h) (hh : h.Sound) :
    r.store.authenticate h given = verdict ↔ r.Outcome given verdict := by
  constructor
  · rintro rfl
    exact hr.outcome_authenticate hh given
  · intro hanswer
    exact hr.outcome_unique (hr.outcome_authenticate hh given) hanswer

/-- A determined result characterises the preceding sign ups. -/
theorem Sound.result_iff (hr : r.Sound h) (hh : h.Sound)
    {result : Except StoreError (Token × User)}
    (hresult : result.map Prod.snd = r.store.authenticate h given) :
    (∀ user, (∃ token, result = .ok (token, user)) ↔ ∃ i,
      r.SignedUp i given user) ∧
    (result = .error .invalidPassword ↔
      ∃ i other user, r.SignedUp i other user ∧ other.login = given.login ∧
        other.password ≠ given.password) ∧
    (result = .error (.notFound "user") ↔
      ∀ i other user, r.SignedUp i other user → other.login ≠ given.login) := by
  have hok : ∀ user, (∃ token, result = .ok (token, user)) ↔
      result.map Prod.snd = .ok user := by
    intro user
    cases result with
    | ok signed => simp [Except.map, Prod.ext_iff]
    | error e => simp [Except.map]
  have herror : ∀ e, result = .error e ↔ result.map Prod.snd = .error e := by
    intro e
    cases result with
    | ok signed => simp [Except.map]
    | error e' => simp [Except.map]
  refine ⟨?_, ?_, ?_⟩
  · intro user
    rw [hok, hresult, hr.authenticate_iff hh]
    constructor
    · intro hanswer
      cases hanswer with
      | welcome hi => exact ⟨_, hi⟩
    · rintro ⟨i, hi⟩
      exact .welcome hi
  · rw [herror, hresult, hr.authenticate_iff hh]
    constructor
    · intro hanswer
      cases hanswer with
      | wrong hi hlogin hpassword => exact ⟨_, _, _, hi, hlogin, hpassword⟩
    · rintro ⟨i, other, user, hi, hlogin, hpassword⟩
      exact .wrong hi hlogin hpassword
  · rw [herror, hresult, hr.authenticate_iff hh]
    constructor
    · intro hanswer
      cases hanswer with
      | nobody hnobody => exact hnobody
    · intro hnobody
      exact .nobody hnobody

/-- A sign up that is rejected because its login is taken preserves the
store. -/
theorem Sound.refused (hr : r.Sound h) {stage : SignUpStage} {d : StepInput}
    (hi : r.calls[i]? = some (.signUp given stage))
    (hrefused : (stage.step h given d r.store).1 =
      .done (.error .alreadyExists)) :
    (stage.step h given d r.store).2 = r.store ∧ ∃ a ∈ r.store.accounts,
      a.user.login = given.login := by
  have hstore : (stage.step h given d r.store).2 = r.store := by
    rcases stage.step_store h given d r.store with hsame | ⟨user, hdone⟩
    · exact hsame
    · rw [hrefused] at hdone
      cases hdone
  have hafter := (Step.advance hi d).sound hr
  have hfair := hafter.wellFormed _ (List.mem_of_getElem?
    (List.getElem?_set_self (List.getElem?_eq_some_iff.mp hi).1))
  simp only [PendingCall.step, hrefused, advance, hstore] at hfair
  exact ⟨hstore, hr.consistent.isTaken_iff.mp hfair⟩

/-- For every interleaving of sign ups and sign ins: the tables are consistent
and contain exactly the users of successful sign ups, of which there is at most
one per login. A step of a sign up changes the store only by creating its
account, and a sign up is rejected only if its login is taken. The result of a
sign in is its user, a wrong password or an unknown user, as determined by the
sign ups that succeeded before its lookup. Every call has a result after three
steps. -/
theorem tables_follow_sign_ups (hh : h.Sound) {lifetime : Nat}
    (hrun : Steps h ⟨{ lifetime }, []⟩ r) :
    r.store.Consistent ∧
    (∀ user, user ∈ r.store.users ↔
      ∃ i given, r.SignedUp i given user ∧ user.login = given.login) ∧
    (∀ i j given given' user user', r.SignedUp i given user →
      r.SignedUp j given' user' →
      given.login = given'.login → i = j) ∧
    (∀ (i : Nat) (given : Credentials) (stage : SignUpStage) (d : StepInput),
      r.calls[i]? = some (.signUp given stage) →
      ((stage.step h given d r.store).2 = r.store ∨
        ∃ user, (stage.step h given d r.store).1 = .done (.ok user)) ∧
      ((stage.step h given d r.store).1 = .done (.error .alreadyExists) →
        (stage.step h given d r.store).2 = r.store ∧
          ∃ a ∈ r.store.accounts, a.user.login = given.login)) ∧
    (∀ (i : Nat) (given : Credentials) (d : StepInput) (r' : AccountCalls)
        (result : Except StoreError (Token × User)),
      r.calls[i]? = some (.signIn given .started) →
      Steps h (r.advance h i (.signIn given .started) d) r' →
      r'.calls[i]? = some (.signIn given (.done result)) →
      (∀ user, (∃ token, result = .ok (token, user)) ↔ ∃ j,
        r.SignedUp j given user) ∧
      (result = .error .invalidPassword ↔
        ∃ j other user, r.SignedUp j other user ∧ other.login = given.login ∧
          other.password ≠ given.password) ∧
      (result = .error (.notFound "user") ↔
        ∀ j other user, r.SignedUp j other user → other.login ≠ given.login)) ∧
    ∀ (e : PendingCall) (d₁ d₂ d₃ : StepInput) (s₁ s₂ s₃ : Store), e.IsNew →
      (((e.step h d₁ s₁).1.step h d₂ s₂).1.step h d₃ s₃).1.IsDone := by
  have hr := Steps.sound hrun (sound_empty h lifetime)
  refine ⟨hr.consistent, ?_, hr.once, ?_, ?_, ?_⟩
  · intro user
    constructor
    · intro huser
      obtain ⟨a, ha, rfl⟩ := List.mem_map.mp huser
      obtain ⟨i, given, hi⟩ := hr.made a ha
      exact ⟨i, given, hi, (hr.kept i given a.user hi).1⟩
    · rintro ⟨i, given, hi, -⟩
      obtain ⟨-, a, ha, rfl, -⟩ := hr.kept i given user hi
      exact List.mem_map_of_mem ha
  · intro i given stage d hi
    exact ⟨stage.step_store h given d r.store, hr.refused hi⟩
  · intro i given d r' result hi hsteps hdone
    obtain ⟨stage, hstage, hfollows⟩ :=
      Steps.determined hsteps (determined_lookup hi d)
    rw [hdone] at hstage
    cases hstage
    exact hr.result_iff hh hfollows
  · intro e d₁ d₂ d₃ s₁ s₂ s₃ hnew
    exact e.isDone_of_three hnew d₁ d₂ d₃ s₁ s₂ s₃

/-- The moves of a scheduler. -/
inductive Move where
  | signUp (given : Credentials)
  | signIn (given : Credentials)
  | goOn (i : Nat) (d : StepInput)

/-- Perform a move if it is possible. -/
def perform (h : Hashing) (r : AccountCalls) : Move → AccountCalls
  | .signUp given => { r with calls := r.calls ++ [.signUp given .started] }
  | .signIn given => { r with calls := r.calls ++ [.signIn given .started] }
  | .goOn i d =>
    match r.calls[i]? with
    | some e => r.advance h i e d
    | none => r

theorem perform_steps (h : Hashing) (r : AccountCalls) (move : Move) :
    Steps h r (r.perform h move) := by
  cases move with
  | signUp given => exact .single (.arrive (.signUp given))
  | signIn given => exact .single (.arrive (.signIn given))
  | goOn i d =>
      simp only [perform]
      split
      · next e hi => exact .single (.advance hi d)
      · exact .refl

theorem schedule_steps (h : Hashing) (r : AccountCalls) (moves : List Move) :
    Steps h r (moves.foldl (perform h) r) := by
  induction moves generalizing r with
  | nil => exact .refl
  | cons move moves ih =>
    exact (perform_steps h r move).trans (ih (r.perform h move))

/-- The external inputs in the sample. -/
def sampleInput : StepInput := ⟨7, ⟨1, 2, 3⟩, .nil, 5⟩

/-- Two sign ups with one login both find it free. The second one creates its
account, and a sign in arrives in between. -/
def sampleMoves : List Move :=
  [.signUp ⟨"ann", "one"⟩, .signUp ⟨"ann", "two"⟩, .goOn 0 sampleInput,
    .goOn 1 sampleInput, .goOn 0 sampleInput, .goOn 1 sampleInput,
      .signIn ⟨"ann", "one"⟩, .goOn 1 sampleInput]

/-- The first sign up is rejected, and the sign in fails with a wrong
password. -/
theorem sampleMoves_tables_follow_sign_ups :
    let r := sampleMoves.foldl (perform .plain) ⟨{}, []⟩
    let r' := [.goOn 2 sampleInput, .goOn 0 sampleInput].foldl (perform .plain)
      (r.advance .plain 2 (.signIn ⟨"ann", "one"⟩ .started) sampleInput)
    r.store.users = [⟨1, "ann", "ann", ⟨1, 2, 3⟩⟩] ∧ r.store.Consistent ∧
      r'.calls[0]? =
        some (.signUp ⟨"ann", "one"⟩ (.done (.error .alreadyExists))) ∧
      r'.calls[2]? =
        some (.signIn ⟨"ann", "one"⟩ (.done (.error .invalidPassword))) ∧
      ∃ j other user, r.SignedUp j other user ∧ other.login = "ann" ∧
        other.password ≠ "one" := by
  intro r r'
  have hfollow := tables_follow_sign_ups Hashing.plain_sound
    (schedule_steps .plain ⟨{}, []⟩ sampleMoves)
  have hresult : r'.calls[2]? =
      some (.signIn ⟨"ann", "one"⟩ (.done (.error .invalidPassword))) := rfl
  refine ⟨rfl, hfollow.1, rfl, hresult, ?_⟩
  have hcalled := hfollow.2.2.2.2.1 2 ⟨"ann", "one"⟩ sampleInput r' _ rfl
    (schedule_steps .plain _ _) hresult
  exact hcalled.2.1.mp rfl

end AccountCalls
end ChatRelay
