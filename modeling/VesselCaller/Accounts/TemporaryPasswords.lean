import VesselCaller.Accounts.Origins

/-!
# The first sign-in of a provisioned member

An administrator provisions a member with a temporary password.  While the account
awaits its first password change, a login with that password only yields a short-lived
token; spending the token sets the chosen password and opens the first session.  An
administrator may draw another temporary password before that, which supersedes
everything the earlier one opened.

The claims about this protocol are claims about histories: they start at the request
that provisioned the account and speak about every order of requests after it.

## Main definitions

* `Restricted` — an account that awaits its first change;
* `IssuedAgainst`, `Bound` — a token completes only the credential it was issued against;
* `completions`, `CompletedOnce` — how often the first change has been completed.
-/

namespace VesselCaller.Accounts

open Lib

variable {sha : Measurements.Sha256} {t t' : Tenant} {s s' : AccountScope} {ctx : Ctx}
  {r : Request} {a : VesselCaller.Response} {id : Id}

/-! ## What requests offer, spend and set -/

/-- The password a request offers to sign in with. -/
def offeredPassword : Request → Option String
  | .auth _ op => op.offers
  | _ => none

/-- The key of the MFA challenge a request draws. -/
def drawnChallenge : Request → Option Id
  | .auth ctx _ => some (ctx.uuid 11)
  | _ => none

/-- The account whose unused token of a kind the raw token is. -/
def tokenOwner (s : AccountScope) (raw : String) (kind : TokenKind) : Option Id :=
  (s.tokens.find? fun t => t.tokenHash = tokenHash raw && t.kind = kind && t.unused).map
    ActionToken.userId

/-- The account whose temporary password a request replaces. -/
def completes (s : AccountScope) : Request → Option Id
  | .auth _ (.completeTemporaryPassword raw _) => tokenOwner s raw .temporaryPasswordChange
  | _ => none

/-- The account whose password a request sets, and the password. -/
def setsPassword (s : AccountScope) : Request → Option (Id × String)
  | .users _ _ (.regenerate userId raw) => some (userId, raw)
  | .auth _ (.completeTemporaryPassword raw password) =>
      (tokenOwner s raw .temporaryPasswordChange).map fun userId => (userId, password.raw)
  | .auth _ (.resetPassword raw password) =>
      (tokenOwner s raw .resetPassword).map fun userId => (userId, password.raw)
  | .auth _ (.changePassword session _ password _) =>
      (Table.get session s.sessions).map fun k => (k.userId, password.raw)
  | _ => none

theorem tokenOwner_of_mem (h : AccountTables s) {raw : String} {token : ActionToken}
    (mem : token ∈ s.tokens) (hash : token.tokenHash = tokenHash raw)
    (unused : token.usedAt = none) : tokenOwner s raw token.kind = some token.userId := by
  have hsome : ∃ token', s.tokens.find? (fun t => t.tokenHash = tokenHash raw &&
      t.kind = token.kind && t.unused) = some token' := by
    refine Option.isSome_iff_exists.mp (List.find?_isSome.mpr ⟨token, mem, ?_⟩)
    simp [hash, ActionToken.unused, unused]
  obtain ⟨token', hfind⟩ := hsome
  have hprops := List.find?_some hfind
  simp only [Bool.and_eq_true, decide_eq_true_eq] at hprops
  have heq : token' = token :=
    List.inj_on_of_nodup_map h.hashes (List.mem_of_find?_eq_some hfind) mem
      (hprops.1.1.trans hash.symm)
  rw [tokenOwner, hfind, heq]
  rfl

theorem Completed.completes {s₁ : AccountScope} {raw chosen : String} {token : ActionToken}
    {u : User} (h : AccountTables s) (hc : Completed ctx s s₁ raw chosen token u) :
    tokenOwner s raw .temporaryPasswordChange = some u.id := by
  rw [← hc.owner, ← hc.kind]
  exact tokenOwner_of_mem h hc.mem hc.hash hc.unused

theorem makePassword_check (salt : ℕ) (raw p : String) :
    (makePassword salt raw).check p = false ↔ raw ≠ p :=
  decide_eq_false_iff_not

/-- A password that is not the account's becomes it only by a request that sets it. -/
theorem UserStep.password {u u' : User} {p : String} (hstep : UserStep r s u u')
    (h : AccountTables s) (hother : u.password.check p = false)
    (hset : setsPassword s r ≠ some (u.id, p)) : u'.password.check p = false := by
  cases hstep with
  | same row => exact row ▸ hother
  | rewritten hrewrite =>
      cases hrewrite with
      | patched _ _ _ _ row => rw [row]; exact hother
      | removed _ _ _ row => rw [row]; exact hother
      | profile _ row => rw [row]; exact hother
      | mfa _ _ _ row => rw [row]; exact hother
  | emailRequested _ _ row => rw [row]; exact hother
  | regenerated actor ctx raw request _ row =>
      rw [row]
      -- A password that is set is the one the request sets, and that is another.
      refine (makePassword_check _ _ _).mpr fun heq => hset ?_
      rw [request, ← heq]
      rfl
  | emailChanged _ _ row => rw [row]; exact hother
  | emailVerified _ _ _ _ _ _ _ _ row => rw [row]; exact hother
  | signedIn _ row => rw [row]; exact hother
  | completed ctx raw password request token s₁ hc _ row =>
      rw [row]
      refine (makePassword_check _ _ _).mpr fun heq => hset ?_
      rw [request, ← heq, setsPassword, hc.completes h]
      rfl
  | passwordReset ctx raw password request token s₁ hc _ row =>
      have hnew : (makePassword (ctx.uuid 20) password.raw).check p = false := by
        refine (makePassword_check _ _ _).mpr fun heq => hset ?_
        have howner := tokenOwner_of_mem h hc.mem hc.hash hc.unused
        rw [hc.kind] at howner
        rw [request, ← heq, setsPassword, howner, hc.owner]
        rfl
      obtain rfl | ⟨_, rfl⟩ := row
      · exact hnew
      · exact hnew
  | passwordChanged ctx session _ password _ request _ k mem own row =>
      rw [row]
      refine (makePassword_check _ _ _).mpr fun heq => hset ?_
      have hget : Table.get session s.sessions = some k :=
        own.1 ▸ Table.get_of_mem h.sessions mem
      rw [request, ← heq, setsPassword, hget, Option.map_some, own.2]

/-- An account that has chosen its password never awaits a password change again. -/
theorem UserStep.settled {u u' : User} (hstep : UserStep r s u u')
    (h : u.passwordChangeRequired = false) : u'.passwordChangeRequired = false := by
  cases hstep with
  | same row => exact row ▸ h
  | rewritten hrewrite =>
      cases hrewrite with
      | patched _ _ _ _ row => rw [row]; exact h
      | removed _ _ _ row => rw [row]; exact h
      | profile _ row => rw [row]; exact h
      | mfa _ _ _ row => rw [row]; exact h
  | emailRequested _ _ row => rw [row]; exact h
  | regenerated _ _ _ _ pending _ =>
      rw [h] at pending
      exact absurd pending Bool.false_ne_true
  | emailChanged _ _ row => rw [row]; exact h
  | emailVerified _ _ _ _ _ _ _ _ row => rw [row]; exact h
  | signedIn _ row => rw [row]; exact h
  | completed _ _ _ _ _ _ _ _ row => rw [row]; rfl
  | passwordReset _ _ _ _ _ _ _ _ row =>
      obtain rfl | ⟨_, rfl⟩ := row
      · exact h
      · exact h
  | passwordChanged _ _ _ _ _ _ _ _ _ _ row => rw [row]; exact h

theorem User.isActive_settled {u : User} {o : Organization} (h : u.isActive o = true) :
    u.passwordChangeRequired = false := by
  simp only [User.isActive, Bool.and_eq_true, Bool.not_eq_true'] at h
  exact h.1.2

/-! ## Nothing opens while the account awaits its password -/

/-- The account has neither a session nor a challenge. -/
def NoSignIn (id : Id) (s : AccountScope) : Prop :=
  (∀ k ∈ s.sessions, k.userId ≠ id) ∧ (∀ c ∈ s.challenges, c.userId ≠ id)

/-- The account exists, and has neither a session nor a challenge while it awaits its
first password change. -/
structure Restricted (id : Id) (s : AccountScope) : Prop where
  tables : AccountTables s
  user : ∃ u, Table.get id s.users = some u ∧ (u.passwordChangeRequired = true → NoSignIn id s)

theorem Restricted.step (h : Restricted id s) (hstep : AccountStep r a s s') :
    Restricted id s' := by
  refine ⟨h.tables.step hstep, ?_⟩
  obtain ⟨u, hu, hnone⟩ := h.user
  obtain ⟨u', hu', huser⟩ := hstep.user hu
  refine ⟨u', hu', fun hpending' => ?_⟩
  have hpending : u.passwordChangeRequired = true := by
    by_contra hsettled
    rw [huser.settled (Bool.not_eq_true _ ▸ hsettled)] at hpending'
    exact Bool.false_ne_true hpending'
  obtain ⟨hsessions, hchallenges⟩ := hnone hpending
  -- A sign-in of the account would find it settled, before the request or after it.
  have hactive : ∀ {w : User}, Table.get w.id s.users = some w →
      w.isActive s.organization = true → w.id ≠ id := by
    rintro w hw hwactive rfl
    rw [hu] at hw
    rw [Option.some.inj hw, User.isActive_settled hwactive] at hpending
    exact Bool.false_ne_true hpending
  have hchosen : ∀ {w : User},
      (Table.get w.id s'.users).map User.passwordChangeRequired = some false → w.id ≠ id := by
    rintro w hw rfl
    rw [hu', Option.map_some, hpending'] at hw
    simp at hw
  refine ⟨fun k hk => ?_, fun c hc => ?_⟩
  · cases hstep.session hk with
    | kept k₀ mem _ user _ => exact user ▸ hsessions k₀ mem
    | login _ _ _ _ _ w found active _ _ user => exact user ▸ hactive found active
    | completed _ _ _ _ _ w _ _ settled user => exact user ▸ hchosen settled
    | mfa _ _ _ _ _ _ _ _ w _ row active _ user => exact user ▸ hactive row active
    | changed _ _ _ _ _ _ w found active _ _ _ _ _ user => exact user ▸ hactive found active
  · cases hstep.challenge hc with
    | kept c₀ mem _ user _ _ _ => exact user ▸ hchallenges c₀ mem
    | login _ _ _ _ _ w found active _ _ _ user => exact user ▸ hactive found active
    | completed _ _ _ _ _ w _ _ settled _ user => exact user ▸ hchosen settled

theorem Restricted.run (h : Restricted id t.toAccountScope) (rs : List Request) :
    Restricted id (run (Tenant.handle sha) t rs).toAccountScope := by
  refine run_invariant (P := fun t : Tenant => Restricted id t.toAccountScope) ?_ rs h
  intro t₁ r t₂ a h₁ hr
  exact h₁.step (handle_accounts hr)

/-! ## What a completion spends -/

/-- The token was drawn for a login of the history that proved the temporary password the
account had then, and carries that credential. -/
def IssuedAgainst (sha : Measurements.Sha256) (t : Tenant) (id : Id) (past : List Request)
    (token : ActionToken) (credential : PasswordHash) : Prop :=
  ∃ before login after password u, past = before ++ login :: after ∧
    (∃ t' a, (run (Tenant.handle sha) t before).handle sha login = .ok (t', a)) ∧
    offeredPassword login = some password ∧
    (drawnToken login).map tokenHash = some token.tokenHash ∧
    Table.get id (run (Tenant.handle sha) t before).users = some u ∧
    u.passwordChangeRequired = true ∧ u.password.check password = true ∧ u.password = credential

theorem IssuedAgainst.concat {past : List Request} {token : ActionToken}
    {credential : PasswordHash} (h : IssuedAgainst sha t id past token credential)
    (r : Request) : IssuedAgainst sha t id (past ++ [r]) token credential := by
  obtain ⟨before, login, after, password, u, rfl, hrest⟩ := h
  exact ⟨before, login, after ++ [r], password, u, by simp, hrest⟩

/-- Every open password-change token of the account was issued against the credential it
carries. -/
structure Bound (sha : Measurements.Sha256) (t : Tenant) (id : Id) (past : List Request)
    (s : AccountScope) : Prop where
  tables : AccountTables s
  tokens : ∀ token ∈ s.tokens, token.userId = id → token.kind = .temporaryPasswordChange →
    token.usedAt = none → ∃ credential, token.metadata.credentialVersion = some credential ∧
      IssuedAgainst sha t id past token credential

theorem TemporaryProven.pending {u : User} {password : String}
    (h : TemporaryProven ctx s u password) : u.passwordChangeRequired = true := by
  have havailable := h.available
  simp only [temporaryIdentityAvailable, Bool.and_eq_true] at havailable
  exact havailable.1.2

theorem Completed.pending {s₁ : AccountScope} {raw chosen : String} {token : ActionToken}
    {u : User} (h : Completed ctx s s₁ raw chosen token u) : u.passwordChangeRequired = true := by
  have havailable := h.available
  simp only [temporaryIdentityAvailable, Bool.and_eq_true] at havailable
  exact havailable.1.2

theorem Issuance.kind_ne {u : User} {token : ActionToken} (h : Issuance u token) :
    token.kind ≠ .temporaryPasswordChange := by
  cases h with
  | reset kind _ _ => rw [kind]; decide
  | verification kind _ _ => rw [kind]; decide

theorem Bound.step {past : List Request} {t₁ : Tenant}
    (h : Bound sha t id past (run (Tenant.handle sha) t past).toAccountScope)
    (hr : (run (Tenant.handle sha) t past).handle sha r = .ok (t₁, a)) :
    Bound sha t id (past ++ [r]) t₁.toAccountScope := by
  have hstep := handle_accounts hr
  refine ⟨h.tables.step hstep, fun token htoken howner hkind hunused => ?_⟩
  cases hstep.token htoken with
  | kept token₀ mem hash user kind same =>
      obtain rfl := same hunused
      obtain ⟨credential, hcredential, hissued⟩ := h.tokens token mem howner hkind hunused
      exact ⟨credential, hcredential, hissued.concat r⟩
  | issued _ _ _ _ _ _ hissuance => exact absurd hkind hissuance.kind_ne
  | emailRequested _ _ _ _ _ _ _ _ _ hverify _ => rw [hkind] at hverify; cases hverify
  | temporary ctx op request password raw offers draws hash u hproven owner _ metadata =>
      refine ⟨u.password, by rw [metadata], past, r, [], password, u, rfl, ⟨t₁, a, hr⟩, ?_, ?_, ?_,
        hproven.pending, hproven.proven, rfl⟩
      · rw [request]
        exact offers
      · rw [request, drawnToken, draws, hash]
        rfl
      · rw [← howner, owner]
        exact Table.get_of_mem h.tables.users hproven.found

theorem Bound.run (h : Bound sha t id [] t.toAccountScope) (past : List Request) :
    Bound sha t id past (run (Tenant.handle sha) t past).toAccountScope := by
  refine run_history (P := fun past (t' : Tenant) => Bound sha t id past t'.toAccountScope) h
    ?_ ?_ past
  · intro past r e hpast _
    refine ⟨hpast.tables, fun token htoken howner hkind hunused => ?_⟩
    obtain ⟨credential, hcredential, hissued⟩ := hpast.tokens token htoken howner hkind hunused
    exact ⟨credential, hcredential, hissued.concat r⟩
  · intro past r t₁ a hpast hr
    exact hpast.step hr

/-! ## One completion -/

/-- The request is accepted and replaces the account's temporary password. -/
def completesFor (sha : Measurements.Sha256) (id : Id) (t : Tenant) (r : Request) : Bool :=
  (t.handle sha r).isOk && completes t.toAccountScope r = some id

/-- How many requests of the run replace the account's temporary password. -/
def completions (sha : Measurements.Sha256) (id : Id) (t : Tenant) (rs : List Request) : ℕ :=
  countAlong (Tenant.handle sha) (completesFor sha id) t rs

/-- What an accepted completion found. -/
theorem completed_of_accepted (h : AccountTables t.toAccountScope)
    (hcompletes : completes t.toAccountScope r = some id) (hr : t.handle sha r = .ok (t', a)) :
    ∃ ctx raw password token u s₁ response,
      r = .auth ctx (.completeTemporaryPassword raw password) ∧ u.id = id ∧
      Completed ctx t.toAccountScope s₁ raw password.raw token u ∧
      Opened ctx s₁ t'.toAccountScope (u.withChosenPassword ctx password.raw) response := by
  unfold completes at hcompletes
  split at hcompletes
  · rename_i ctx raw password
    simp only [Tenant.handle, AuthOp.handle, completeFirstSignIn, bind_eq_ok, pure_eq_ok,
      Prod.exists, Prod.mk.injEq] at hr
    obtain ⟨scope, response, ⟨s₁, u', hservice, hopen⟩, rfl, _⟩ := hr
    obtain ⟨token, u, hc, rfl⟩ := completeTemporaryPassword_eq_ok hservice
    have hid : u.id = id := by
      rw [hc.completes h] at hcompletes
      exact Option.some.inj hcompletes
    refine ⟨ctx, raw, password, token, u, s₁, response, rfl, hid, hc, openSession_eq_ok ?_ hopen⟩
    rw [hc.scope]
    exact Table.get_put_self (a := u.withChosenPassword ctx password.raw) hc.found
  · cases hcompletes

/-- At most one completion, and none while the account awaits its password. -/
structure CompletedOnce (id : Id) (n : ℕ) (s : AccountScope) : Prop where
  tables : AccountTables s
  user : ∃ u, Table.get id s.users = some u ∧ n + u.passwordChangeRequired.toNat ≤ 1

theorem CompletedOnce.step {n : ℕ} (h : CompletedOnce id n t.toAccountScope)
    (hr : t.handle sha r = .ok (t', a)) :
    CompletedOnce id (n + (completesFor sha id t r).toNat) t'.toAccountScope := by
  have hstep := handle_accounts hr
  obtain ⟨u, hu, hn⟩ := h.user
  obtain ⟨u', hu', huser⟩ := hstep.user hu
  refine ⟨h.tables.step hstep, u', hu', ?_⟩
  cases hcompletes : completesFor sha id t r with
  | false =>
      cases hpending : u.passwordChangeRequired with
      | false =>
          rw [huser.settled hpending]
          rw [hpending] at hn
          exact hn
      | true =>
          rw [hpending] at hn
          have := u'.passwordChangeRequired.toNat_le
          simp only [Bool.toNat_true, Bool.toNat_false] at hn ⊢
          omega
  | true =>
      simp only [completesFor, Bool.and_eq_true, decide_eq_true_eq] at hcompletes
      obtain ⟨_, _, _, _, w, s₁, _, _, hid, hc, ho⟩ :=
        completed_of_accepted h.tables hcompletes.2 hr
      subst hid
      have hw : u = w := by
        rw [hc.found] at hu
        exact (Option.some.inj hu).symm
      have hsettled := hc.settled ho
      rw [hu', Option.map_some, Option.some.injEq] at hsettled
      rw [hw, hc.pending] at hn
      rw [hsettled]
      exact hn

theorem CompletedOnce.run (h : CompletedOnce id 0 t.toAccountScope) (rs : List Request) :
    CompletedOnce id (completions sha id t rs) (run (Tenant.handle sha) t rs).toAccountScope := by
  refine run_history (P := fun past (t' : Tenant) =>
    CompletedOnce id (completions sha id t past) t'.toAccountScope) h ?_ ?_ rs
  · intro past r e hpast hr
    have hnot : completesFor sha id (Lib.run (Tenant.handle sha) t past) r = false := by
      rw [completesFor, hr]
      rfl
    rw [completions, countAlong_concat, hnot]
    exact hpast
  · intro past r t₁ a hpast hr
    rw [completions, countAlong_concat]
    exact hpast.step hr

end VesselCaller.Accounts
