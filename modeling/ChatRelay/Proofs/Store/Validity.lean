import Mathlib.Data.List.Induction
import ChatRelay.Proofs.Store.Index
/-!
# The validity of tokens

A token is removed from the store when a sign in removes the expired tokens,
when it is found to be expired, and when it is presented for a different user.
Nevertheless its validity is determined by the history of calls: it was issued,
has not expired, and was not presented for a different user since.
-/

namespace ChatRelay

namespace Store

/-- Token identifiers are unique. -/
def Keyed (store : Store) : Prop := (store.tokens.map fun t => t.token.id).Nodup

variable {store : Store} {token other : Token} {now expires : Nat}

theorem keyed_empty (lifetime : Nat) : Keyed { lifetime } := List.nodup_nil

theorem Keyed.issued?_eq_some (h : store.Keyed) {id : Uuid} {t : Issued} :
    store.issued? id = some t ↔ t ∈ store.tokens ∧ t.token.id = id := by
  unfold issued?
  constructor
  · intro hfound
    exact ⟨List.mem_of_find?_eq_some hfound,
      by simpa using List.find?_some hfound⟩
  · rintro ⟨hmem, rfl⟩
    cases hfound : store.tokens.find? fun t' => t'.token.id = t.token.id with
    | none =>
        rw [List.find?_eq_none] at hfound
        simpa using hfound t hmem
    | some t' =>
        have hid : t'.token.id = t.token.id := by
          simpa using List.find?_some hfound
        rw [List.inj_on_of_nodup_map h
          (List.mem_of_find?_eq_some hfound) hmem hid]

theorem Keyed.filter (h : store.Keyed) (p : Issued → Bool) :
    ((store.tokens.filter p).map fun t => t.token.id).Nodup :=
  List.Nodup.sublist (List.filter_sublist.map _) h

theorem Keyed.issue (h : store.Keyed) (now : Nat) (token : Token) :
    (store.issue now token).Keyed := by
  unfold Keyed Store.issue
  rw [List.map_append, List.nodup_append]
  refine ⟨h.filter _, List.nodup_singleton _, ?_⟩
  intro id hid id' hnew
  obtain ⟨t, ht, rfl⟩ := List.mem_map.mp hid
  obtain rfl := List.mem_singleton.mp hnew
  exact (of_decide_eq_true (List.mem_filter.mp ht).2).2

theorem mem_issue (new : Token) :
    ⟨token, expires⟩ ∈ (store.issue now new).tokens ↔
      (⟨token, expires⟩ ∈ store.tokens ∧ now < expires ∧ token.id ≠ new.id) ∨
        token = new ∧ expires = now + store.lifetime := by
  simp [issue]

theorem Keyed.validate (h : store.Keyed) (now : Nat) (token : Token) :
    (store.validate now token).2.Keyed := by
  unfold Store.validate
  split
  · exact h
  · split
    · exact h.filter _
    · exact h

theorem validate_lifetime (store : Store) (now : Nat) (token : Token) :
    (store.validate now token).2.lifetime = store.lifetime := by
  unfold validate
  split
  · rfl
  · split <;> rfl

/-- A token is valid if it is in the table and has not expired. -/
theorem Keyed.validate_ok_iff (h : store.Keyed) :
    (store.validate now token).1 = .ok () ↔
      ∃ expires, ⟨token, expires⟩ ∈ store.tokens ∧ now < expires := by
  unfold Store.validate
  constructor
  · intro hok
    split at hok
    · cases hok
    · next t hfound =>
        split at hok
        · cases hok
        · next hgood =>
            rw [not_or, Nat.not_le, not_not] at hgood
            refine ⟨t.expires, ?_, hgood.1⟩
            rw [← hgood.2]
            exact (h.issued?_eq_some.mp hfound).1
  · rintro ⟨expires, hmem, hlive⟩
    rw [h.issued?_eq_some.mpr ⟨hmem, rfl⟩]
    simp [Nat.not_le.mpr hlive]

/-- Validating a valid token preserves the store. -/
theorem validate_of_ok (h : (store.validate now token).1 = .ok ()) :
    store.validate now token = (.ok (), store) := by
  unfold validate at h ⊢
  split at h
  · contradiction
  · split at h
    · contradiction
    · next hgood => exact if_neg hgood

theorem validate_ok_or_invalid (store : Store) (now : Nat) (token : Token) :
    (store.validate now token).1 = .ok () ∨
      (store.validate now token).1 = .error .invalidToken := by
  unfold validate
  split
  · exact .inr rfl
  · split
    · exact .inr rfl
    · exact .inl rfl

/-- A token that has not expired is removed only if its identifier is presented
with a different user. -/
theorem Keyed.mem_validate (h : store.Keyed) (hlive : now < expires) :
    ⟨token, expires⟩ ∈ (store.validate now other).2.tokens ↔
      ⟨token, expires⟩ ∈ store.tokens ∧
      (other.id = token.id → other = token) := by
  unfold Store.validate
  cases hfound : store.issued? other.id with
  | none =>
      constructor
      · intro hmem
        refine ⟨hmem, ?_⟩
        intro hid
        rw [h.issued?_eq_some.mpr ⟨hmem, hid.symm⟩] at hfound
        cases hfound
      · exact And.left
  | some t =>
      obtain ⟨ht, hid⟩ := h.issued?_eq_some.mp hfound
      -- a token of this number in the tables is the one that was found
      have hsame : ⟨token, expires⟩ ∈ store.tokens → other.id = token.id →
          t = ⟨token, expires⟩ := by
        intro hmem htoken
        rw [h.issued?_eq_some.mpr ⟨hmem, htoken.symm⟩] at hfound
        exact (Option.some.inj hfound).symm
      by_cases hbad : t.expires ≤ now ∨ t.token ≠ other
      · simp only [if_pos hbad, revoke, List.mem_filter, decide_eq_true_eq]
        constructor
        · rintro ⟨hmem, hother⟩
          exact ⟨hmem, fun htoken => absurd htoken.symm hother⟩
        · rintro ⟨hmem, hpresented⟩
          refine ⟨hmem, ?_⟩
          intro htoken
          obtain rfl := hsame hmem htoken.symm
          rcases hbad with hover | hwrong
          · exact absurd hlive (Nat.not_lt.mpr hover)
          · exact hwrong (hpresented htoken.symm).symm
      · simp only [if_neg hbad]
        rw [not_or, not_not] at hbad
        constructor
        · intro hmem
          refine ⟨hmem, ?_⟩
          intro htoken
          obtain rfl := hsame hmem htoken
          exact hbad.2.symm
        · exact And.left

theorem addAccount_tokens {login : String} {secret : Secret} {colour : Colour}
    {user : User} {store' : Store}
    (h : store.addAccount login secret colour = .ok (user, store')) :
    store'.tokens = store.tokens ∧ store'.lifetime = store.lifetime := by
  rw [addAccount_eq] at h
  split at h
  · cases h
  · split at h
    · cases h
    · cases h
      exact ⟨rfl, rfl⟩

theorem signUp_tokens {h : Hashing} {given : Credentials} {salt : BitVec 128}
    {colour : Colour} {user : User} {store' : Store}
    (hsigned : store.signUp h given salt colour = .ok (user, store')) :
    store'.tokens = store.tokens ∧ store'.lifetime = store.lifetime := by
  unfold signUp at hsigned
  split at hsigned
  · cases hsigned
  · cases hsecret : h.secret salt given.password with
    | error e =>
        rw [hsecret] at hsigned
        cases hsigned
    | ok secret =>
        rw [hsecret] at hsigned
        exact addAccount_tokens hsigned

theorem signIn_eq_ok {h : Hashing} {given : Credentials} {id : Uuid}
    {user : User} {store' : Store} :
    store.signIn h now given id = .ok (token, user, store') ↔
      store.authenticate h given = .ok user ∧ token = ⟨id, user.id⟩ ∧
        store' = store.issue now token := by
  unfold signIn
  cases store.authenticate h given with
  | error e => simp [bind, Except.bind]
  | ok found =>
      constructor
      · intro hsigned
        cases hsigned
        exact ⟨rfl, rfl, rfl⟩
      · rintro ⟨hfound, rfl, rfl⟩
        cases hfound
        rfl

end Store

/-- A store and the current time. -/
structure TokenTable where
  store : Store
  now : Nat

namespace TokenTable

/-- A call, or the passing of time. -/
inductive Act where
  | signUp (given : Credentials) (salt : BitVec 128) (colour : Colour)
  | signIn (given : Credentials) (id : Uuid)
  | validate (token : Token)
  | wait (ms : Nat)

def act (h : Hashing) (s : TokenTable) : Act → TokenTable
  | .signUp given salt colour =>
    match s.store.signUp h given salt colour with
    | .ok (_, store) => { s with store }
    | .error _ => s
  | .signIn given id =>
    match s.store.signIn h s.now given id with
    | .ok (_, _, store) => { s with store }
    | .error _ => s
  | .validate token => { s with store := (s.store.validate s.now token).2 }
  | .wait ms => { s with now := s.now + ms }

def run (h : Hashing) (s : TokenTable) (acts : List Act) : TokenTable :=
  acts.foldl (act h) s

theorem run_concat (h : Hashing) (s : TokenTable) (acts : List Act) (x : Act) :
    s.run h (acts ++ [x]) = (s.run h acts).act h x := by
  rw [run, List.foldl_append]
  rfl

/-- The token issued by an operation. -/
def issues? (h : Hashing) (s : TokenTable) : Act → Option Token
  | .signIn given id =>
    match s.store.signIn h s.now given id with
    | .ok (token, _, _) => some token
    | .error _ => none
  | _ => none

/-- The tokens issued by the operations of a run. -/
def issued (h : Hashing) (s : TokenTable) : List Act → List Token
  | [] => []
  | x :: acts => (s.issues? h x).toList ++ issued h (s.act h x) acts

theorem issued_concat (h : Hashing) (s : TokenTable) (acts : List Act)
    (x : Act) :
    s.issued h (acts ++ [x]) =
      s.issued h acts ++ ((s.run h acts).issues? h x).toList := by
  induction acts generalizing s with
  | nil => simp [issued, run]
  | cons y acts ih =>
      rw [List.cons_append, issued, issued, ih, List.append_assoc]
      rfl

/-- The operation presents the identifier of the token with a different user. -/
def Act.Contests (token : Token) : Act → Prop
  | .validate other => other.id = token.id ∧ other ≠ token
  | _ => False

variable {h : Hashing} {s : TokenTable} {token : Token} {expires : Nat}

theorem issues?_eq_some {x : Act} :
    s.issues? h x = some token ↔ ∃ given id user store, x = .signIn given id ∧
      s.store.signIn h s.now given id = .ok (token, user, store) := by
  constructor
  · intro hissues
    unfold issues? at hissues
    split at hissues
    · next given id =>
        split at hissues
        · next token' user store hsigned =>
            cases hissues
            exact ⟨given, id, user, store, rfl, hsigned⟩
        · cases hissues
    · cases hissues
  · rintro ⟨given, id, user, store, rfl, hsigned⟩
    simp only [issues?, hsigned]

/-- An operation that preserves the tokens. -/
structure Quiet (h : Hashing) (s : TokenTable) (x : Act) : Prop where
  issues : s.issues? h x = none
  doubts : ∀ token, ¬x.Contests token
  tokens : (s.act h x).store.tokens = s.store.tokens
  lifetime : (s.act h x).store.lifetime = s.store.lifetime
  now : s.now ≤ (s.act h x).now

theorem quiet_of_act {x : Act} {store : Store} {now : Nat}
    (hissues : s.issues? h x = none) (hdoubts : ∀ token, ¬x.Contests token)
    (hact : s.act h x = ⟨store, now⟩) (htokens : store.tokens = s.store.tokens)
    (hlifetime : store.lifetime = s.store.lifetime) (hnow : s.now ≤ now) :
    Quiet h s x := by
  constructor
  · exact hissues
  · exact hdoubts
  · rw [hact, htokens]
  · rw [hact, hlifetime]
  · rwa [hact]

/-- The possible effects of an operation on the tokens. -/
theorem act_cases (h : Hashing) (s : TokenTable) (x : Act) :
    Quiet h s x ∨
      (∃ new, s.issues? h x = some new ∧ (∀ token, ¬x.Contests token) ∧
        s.act h x = ⟨s.store.issue s.now new, s.now⟩) ∨
      ∃ other, x = .validate other := by
  cases x with
  | signUp given salt colour =>
      left
      cases hsigned : s.store.signUp h given salt colour with
      | error e =>
          have hact : s.act h (.signUp given salt colour) = s := by
            simp only [act, hsigned]
          exact quiet_of_act rfl (fun _ => id) hact rfl rfl (Nat.le_refl _)
      | ok signed =>
          have hact :
              s.act h (.signUp given salt colour) = ⟨signed.2, s.now⟩ := by
            simp only [act, hsigned]
          obtain ⟨htokens, hlifetime⟩ := Store.signUp_tokens hsigned
          exact quiet_of_act rfl (fun _ => id) hact htokens hlifetime
            (Nat.le_refl _)
  | signIn given id =>
      cases hsigned : s.store.signIn h s.now given id with
      | error e =>
          left
          have hissues : s.issues? h (.signIn given id) = none := by
            simp only [issues?, hsigned]
          have hact : s.act h (.signIn given id) = s := by
            simp only [act, hsigned]
          exact quiet_of_act hissues (fun _ hdoubts => hdoubts) hact
            rfl rfl (Nat.le_refl _)
      | ok signed =>
          right
          left
          obtain ⟨new, user, store⟩ := signed
          obtain ⟨-, -, rfl⟩ := Store.signIn_eq_ok.mp hsigned
          refine ⟨new, ?_, fun _ hdoubts => hdoubts, ?_⟩
          · simp only [issues?, hsigned]
          · simp only [act, hsigned]
  | validate other => exact .inr (.inr ⟨other, rfl⟩)
  | wait ms =>
    exact .inl
      (quiet_of_act rfl (fun _ => id) rfl rfl rfl (Nat.le_add_right _ _))

theorem keyed_act (hkeyed : s.store.Keyed) (x : Act) :
    (s.act h x).store.Keyed := by
  rcases act_cases h s x with hquiet | ⟨new, -, -, hact⟩ | ⟨other, rfl⟩
  · unfold Store.Keyed
    rw [hquiet.tokens]
    exact hkeyed
  · rw [hact]
    exact hkeyed.issue s.now new
  · exact hkeyed.validate s.now other

theorem lifetime_act (x : Act) :
    (s.act h x).store.lifetime = s.store.lifetime := by
  rcases act_cases h s x with hquiet | ⟨new, -, -, hact⟩ | ⟨other, rfl⟩
  · exact hquiet.lifetime
  · rw [hact]
    rfl
  · exact Store.validate_lifetime s.store s.now other

theorem now_act (x : Act) : s.now ≤ (s.act h x).now := by
  rcases act_cases h s x with hquiet | ⟨new, -, -, hact⟩ | ⟨other, rfl⟩
  · exact hquiet.now
  · exact Nat.le_of_eq (congrArg TokenTable.now hact).symm
  · exact Nat.le_refl _

/-- A token that has not expired is removed only if it is contested or its
identifier is issued again, and is added only by the sign in that issues it. -/
theorem held_act (hkeyed : s.store.Keyed) (hlive : s.now < expires) (x : Act) :
    ⟨token, expires⟩ ∈ (s.act h x).store.tokens ↔
      (⟨token, expires⟩ ∈ s.store.tokens ∧ ¬x.Contests token ∧
        ∀ other, s.issues? h x = some other → other.id ≠ token.id) ∨
      s.issues? h x = some token ∧ expires = s.now + s.store.lifetime := by
  rcases act_cases h s x
    with hquiet | ⟨new, hissues, hdoubts, hact⟩ | ⟨other, rfl⟩
  · simp [hquiet.tokens, hquiet.issues, hquiet.doubts]
  · rw [hact, Store.mem_issue, hissues]
    simp [hlive, hdoubts, eq_comm]
  · rw [act, hkeyed.mem_validate hlive]
    simp [issues?, Act.Contests]

variable {acts : List Act}

theorem keyed_run (hkeyed : s.store.Keyed) (acts : List Act) :
    (s.run h acts).store.Keyed := by
  induction acts generalizing s with
  | nil => exact hkeyed
  | cons x acts ih => exact ih (keyed_act hkeyed x)

theorem lifetime_run (acts : List Act) :
    (s.run h acts).store.lifetime = s.store.lifetime := by
  induction acts generalizing s with
  | nil => rfl
  | cons x acts ih => exact ih.trans (lifetime_act x)

/-- A sign in of the run issued the token with the given expiry, and no later
operation contested it. -/
def Granted (h : Hashing) (s : TokenTable) (acts : List Act) (token : Token)
    (expires : Nat) : Prop :=
  ∃ before given id user store between,
    acts = before ++ .signIn given id :: between ∧
    (s.run h before).store.signIn h (s.run h before).now given id =
      .ok (token, user, store) ∧
    expires = (s.run h before).now + s.store.lifetime ∧
    ∀ x ∈ between, ¬x.Contests token

theorem not_granted_nil : ¬Granted h s [] token expires := by
  rintro ⟨before, given, id, user, store, between, hacts, -⟩
  exact List.append_ne_nil_of_right_ne_nil _ (List.cons_ne_nil _ _) hacts.symm

/-- A token is granted after an additional operation if it was granted before
and is not contested by the operation, or if the operation issues it. -/
theorem granted_concat {x : Act} :
    Granted h s (acts ++ [x]) token expires ↔
      (Granted h s acts token expires ∧ ¬x.Contests token) ∨
        (s.run h acts).issues? h x = some token ∧
          expires = (s.run h acts).now + s.store.lifetime := by
  constructor
  · rintro ⟨before, given, id, user, store, between, hacts, hsigned,
      hexpires, hsince⟩
    rcases List.eq_nil_or_concat between with rfl | ⟨between, y, rfl⟩
    · obtain ⟨rfl, hx⟩ := List.append_inj' hacts rfl
      cases hx
      exact .inr
        ⟨issues?_eq_some.mpr ⟨given, id, user, store, rfl, hsigned⟩, hexpires⟩
    · rw [List.concat_eq_append, ← List.cons_append, ← List.append_assoc]
        at hacts
      obtain ⟨rfl, hx⟩ := List.append_inj' hacts rfl
      cases hx
      rw [List.concat_eq_append, List.forall_mem_append,
        List.forall_mem_singleton] at hsince
      exact .inl ⟨⟨before, given, id, user, store, between, rfl, hsigned,
        hexpires, hsince.1⟩, hsince.2⟩
  · rintro (⟨⟨before, given, id, user, store, between, rfl, hsigned, hexpires,
      hsince⟩, hx⟩ | ⟨hissues, hexpires⟩)
    · refine ⟨before, given, id, user, store, between ++ [x], ?_, hsigned,
        hexpires, ?_⟩
      · rw [List.append_assoc, List.cons_append]
      · rw [List.forall_mem_append, List.forall_mem_singleton]
        exact ⟨hsince, hx⟩
    · obtain ⟨given, id, user, store, rfl, hsigned⟩ :=
        issues?_eq_some.mp hissues
      exact ⟨acts, given, id, user, store, [], rfl, hsigned, hexpires, by simp⟩

theorem Granted.mem_issued (hgranted : Granted h s acts token expires) :
    token ∈ s.issued h acts := by
  induction acts using List.reverseRecOn with
  | nil => exact (not_granted_nil hgranted).elim
  | append_singleton acts x ih =>
      rw [issued_concat, List.mem_append]
      rcases granted_concat.mp hgranted with ⟨hbefore, -⟩ | ⟨hissues, -⟩
      · exact .inl (ih hbefore)
      · exact .inr (Option.mem_toList.mpr hissues)

/-- A token that has not expired is in the table if and only if the run granted
it. -/
theorem held_iff_granted (hempty : s.store.tokens = [])
    (hdistinct : ((s.issued h acts).map Token.id).Nodup)
    (hlive : (s.run h acts).now < expires) :
    ⟨token, expires⟩ ∈ (s.run h acts).store.tokens ↔
      Granted h s acts token expires := by
  have hkeyed : s.store.Keyed := by
    unfold Store.Keyed
    rw [hempty]
    exact List.nodup_nil
  induction acts using List.reverseRecOn with
  | nil =>
      apply iff_of_false _ not_granted_nil
      rw [run, List.foldl_nil, hempty]
      exact List.not_mem_nil
  | append_singleton acts x ih =>
      rw [run_concat] at hlive ⊢
      rw [issued_concat, List.map_append, List.nodup_append] at hdistinct
      have hbefore := Nat.lt_of_le_of_lt (now_act x) hlive
      have hheld : ⟨token, expires⟩ ∈ (s.run h acts).store.tokens ↔
          Granted h s acts token expires := ih hdistinct.1 hbefore
      rw [held_act (keyed_run hkeyed acts) hbefore, hheld, granted_concat,
        lifetime_run]
      -- the number of a token that was granted is not given to another one
      apply or_congr_left
      constructor
      · rintro ⟨hgranted, hdoubts, -⟩
        exact ⟨hgranted, hdoubts⟩
      · rintro ⟨hgranted, hdoubts⟩
        refine ⟨hgranted, hdoubts, ?_⟩
        intro other hissues hid
        exact hdistinct.2.2 token.id
          (List.mem_map_of_mem hgranted.mem_issued) other.id
          (List.mem_map_of_mem (Option.mem_toList.mpr hissues)) hid.symm

theorem not_contests_iff {between : List Act} :
    (∀ x ∈ between, ¬x.Contests token) ↔
      ∀ other, .validate other ∈ between → other.id = token.id →
        other.user = token.user := by
  constructor
  · intro hsince other hother hid
    by_contra huser
    exact hsince _ hother ⟨hid, fun hsame => huser (congrArg Token.user hsame)⟩
  · intro hsince x hx hdoubts
    cases x with
    | validate other =>
        obtain ⟨hid, hother⟩ := hdoubts
        have huser := hsince other hx hid
        cases other
        cases token
        cases hid
        cases huser
        exact hother rfl
    | signUp given salt colour => exact hdoubts
    | signIn given id => exact hdoubts
    | wait ms => exact hdoubts

/-- After any run that issues distinct identifiers: a token is valid if and only
if a sign in of its user issued it, it has not expired, and its identifier was
not presented with a different user since. An operation that neither contests
the token nor issues its identifier does not change its validity at any later
time. -/
theorem valid_iff_granted {lifetime start : Nat}
    (hdistinct : ((issued h ⟨{ lifetime }, start⟩ acts).map Token.id).Nodup)
    (token : Token) :
    let after := run h ⟨{ lifetime }, start⟩
    let s := after acts
    ((s.store.validate s.now token).1 = .ok () ↔
      ∃ before given id user store between,
        acts = before ++ .signIn given id :: between ∧
        (after before).store.signIn h (after before).now given id =
          .ok (token, user, store) ∧
        token.user = user.id ∧ s.now < (after before).now + lifetime ∧
        ∀ other, .validate other ∈ between → other.id = token.id →
          other.user = token.user) ∧
    ((s.store.validate s.now token).1 = .ok () ∨
      (s.store.validate s.now token).1 = .error .invalidToken) ∧
    ∀ x, ¬x.Contests token →
      (∀ other, s.issues? h x = some other → other.id ≠ token.id) →
      ∀ later, s.now ≤ later →
        ((s.act h x).store.validate later token).1 =
          (s.store.validate later token).1 := by
  intro after s
  have hkeyed : s.store.Keyed := keyed_run (Store.keyed_empty lifetime) acts
  refine ⟨?_, Store.validate_ok_or_invalid _ _ _, ?_⟩
  · rw [hkeyed.validate_ok_iff]
    constructor
    · rintro ⟨expires, hheld, hlive⟩
      obtain ⟨before, given, id, user, store, between, hacts, hsigned,
          rfl, hsince⟩ :=
        (held_iff_granted rfl hdistinct hlive).mp hheld
      refine ⟨before, given, id, user, store, between, hacts, hsigned, ?_,
        hlive, not_contests_iff.mp hsince⟩
      rw [(Store.signIn_eq_ok.mp hsigned).2.1]
    · rintro ⟨before, given, id, user, store, between, hacts, hsigned, -,
        hlive, hsince⟩
      exact ⟨_, (held_iff_granted rfl hdistinct hlive).mpr
        ⟨before, given, id, user, store, between, hacts, hsigned, rfl,
          not_contests_iff.mpr hsince⟩, hlive⟩
  · intro x hdoubts hissues later hlater
    have hok : ((s.act h x).store.validate later token).1 = .ok () ↔
        (s.store.validate later token).1 = .ok () := by
      rw [(keyed_act hkeyed x).validate_ok_iff, hkeyed.validate_ok_iff]
      apply exists_congr
      intro expires
      apply and_congr_left
      intro hlive
      rw [held_act hkeyed (Nat.lt_of_le_of_lt hlater hlive)]
      constructor
      · rintro (⟨hheld, -⟩ | ⟨hnew, -⟩)
        · exact hheld
        · exact absurd rfl (hissues token hnew)
      · intro hheld
        exact .inl ⟨hheld, hdoubts, hissues⟩
    rcases Store.validate_ok_or_invalid s.store later token with hgood | hbad
    · rw [hgood, hok]
      exact hgood
    · rcases Store.validate_ok_or_invalid (s.act h x).store later token
        with hgood' | hbad'
      · rw [hok.mp hgood'] at hbad
        cases hbad
      · rw [hbad, hbad']

/-- Two users sign in at different times, and the token of the second is
presented for a third user. -/
def sampleActs : List Act :=
  [.signUp ⟨"ann", "one"⟩ 0 default, .signUp ⟨"bob", "two"⟩ 0 default,
    .signIn ⟨"ann", "one"⟩ ⟨1⟩, .wait 4, .signIn ⟨"bob", "two"⟩ ⟨2⟩,
      .validate ⟨⟨2⟩, 3⟩, .wait 5]

theorem sampleActs_valid_iff_granted :
    let after := run .plain ⟨{ lifetime := 10 }, 0⟩
    let s := after sampleActs
    ((issued .plain ⟨{ lifetime := 10 }, 0⟩ sampleActs).map Token.id).Nodup ∧
      (s.store.validate s.now ⟨⟨2⟩, 2⟩).1 = .error .invalidToken ∧
      ∃ before given id user store between,
        sampleActs = before ++ .signIn given id :: between ∧
        (after before).store.signIn .plain (after before).now given id =
          .ok (⟨⟨1⟩, 1⟩, user, store) ∧
        1 = user.id ∧ s.now < (after before).now + 10 ∧
        ∀ other, .validate other ∈ between → other.id = ⟨1⟩ →
          other.user = 1 := by
  intro after s
  have hdistinct : ((issued .plain ⟨{ lifetime := 10 }, 0⟩ sampleActs).map
      Token.id).Nodup := by
    decide
  exact ⟨hdistinct, rfl, (valid_iff_granted hdistinct ⟨⟨1⟩, 1⟩).1.mp rfl⟩

end TokenTable
end ChatRelay
