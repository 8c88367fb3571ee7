import VesselCaller.Frame
import VesselCaller.Accounts.Inversion

/-!
# What a request can do to the accounts

The inversion of `Tenant.handle` as far as users, action tokens, MFA challenges and
sessions are concerned: `AccountStep` lists what an accepted request did to them, with
everything the view checked, and `handle_accounts` says that there is nothing else.
Every invariant of the accounts is a case analysis over `AccountStep`.

## Main definitions

* `AccountStep` — what an accepted request did to the accounts, one constructor for each kind
  of request;
* `PasswordReset`, `PasswordChanged` — the two ways a password is replaced;
* `handle_accounts` — every accepted request is one of these steps.
-/

namespace VesselCaller.Accounts

open Lib

/-- The password a login offers. -/
def AuthOp.offers : AuthOp → Option String
  | .login _ password _ _ _ => some password
  | .lateLogin _ _ password _ _ => some password
  | _ => none

/-- The raw token a sign-in or self-service request draws. -/
def AuthOp.draws : AuthOp → Option String
  | .resendVerification _ raw _ => some raw
  | .login _ _ raw _ _ => some raw
  | .lateLogin _ _ _ raw _ => some raw
  | .forgotPassword _ raw _ => some raw
  | .putProfile _ data => some data.token
  | _ => none

/-- The raw token a request draws. -/
def drawnToken : Request → Option String
  | .users _ _ (.dispatchReset _ raw) => some raw
  | .auth _ op => op.draws
  | _ => none

/-- How an administrator or the member itself rewrites a user, tokens and challenges apart. -/
inductive Rewrite (r : Request) (s : AccountScope) (u u' : User) : Prop where
  | patched (actor : Id) (ctx : Ctx) (data : UserPatch)
      (request : r = .users actor ctx (.patchUser u.id data)) (row : u' = u.patched data)
      (valid : ∀ status, data.status = some status → status = .active ∨ status = .suspended)
      (guarded : lastAdmin s u = true → data.role.getD u.role = .admin ∧
        data.status.getD u.status = .active)
  | removed (actor : Id) (ctx : Ctx) (request : r = .users actor ctx (.removeUser u.id))
      (row : u' = u.removed ctx) (guarded : lastAdmin s u = false)
  | profile (name : String) (row : u' = { u with name := name })
  | mfa (secret : String) (enabledAt graceEndsAt : Option Instant)
      (row : u' = { u with
        mfaSecret := secret, mfaEnabledAt := enabledAt, mfaGraceEndsAt := graceEndsAt })

/-- A new member: provisioned with a temporary password, or with a proven address. -/
inductive NewMember (r : Request) (u : User) : Prop where
  | provisioned (actor : Id) (ctx : Ctx) (data : ProvisionInput)
      (request : r = .users actor ctx (.provision data)) (row : u = provisionedUser ctx data)
  | verified (ctx : Ctx) (name email : String) (role : Role) (password : PasswordHash)
      (verifiedAt : Instant) (row : u = verifiedMember ctx name email role password verifiedAt)

/-- Why a token was issued to a user. -/
inductive Issuance (u : User) (token : ActionToken) : Prop where
  | reset (kind : token.kind = .resetPassword) (metadata : token.metadata = {})
      (settled : u.passwordChangeRequired = false)
  | verification (kind : token.kind = .verifyEmail) (metadata : token.metadata = {})
      (unverified : u.emailVerifiedAt = none)

/-- The user once a temporary password was drawn for it again. -/
def User.withTemporaryPassword (u : User) (ctx : Ctx) (raw : String) : User :=
  { u with
    password := makePassword (ctx.uuid 20) raw
    temporaryPasswordExpiresAt := some (ctx.now + temporaryPasswordLife) }

/-- The scope once a temporary password was drawn for the user again. -/
def AccountScope.withTemporary (s : AccountScope) (ctx : Ctx) (u : User) (raw : String) :
    AccountScope :=
  let s := useTokens (putUser s (u.withTemporaryPassword ctx raw)) ctx u.id fun _ => true
  let s := { s with challenges := s.challenges.map fun c =>
    if c.userId = u.id ∧ c.usedAt = none then { c with usedAt := some ctx.now } else c }
  revokeSessions s ctx u.id none

/-- The user with another password. -/
def User.withPassword (u : User) (ctx : Ctx) (raw : String) : User :=
  { u with password := makePassword (ctx.uuid 20) raw }

/-- What an accepted request did to the accounts. -/
inductive AccountStep (r : Request) (a : VesselCaller.Response) (s s' : AccountScope) : Prop where
  | idle (same : SameAccounts s s')
  | revoked (sessions : List UserSession) (h : Revokes s.sessions sessions)
      (same : SameAccounts { s with sessions := sessions } s')
  | rewritten (u u' : User) (found : Table.get u.id s.users = some u) (h : Rewrite r s u u')
      (sessions : List UserSession) (revokes : Revokes s.sessions sessions)
      (same : SameAccounts { putUser s u' with sessions := sessions } s')
  | added (u : User) (fresh : u.id ∉ Table.keys s.users) (h : NewMember r u)
      (same : SameAccounts { s with users := s.users ++ [u] } s')
  | issued (u : User) (mem : u ∈ s.users) (ctx : Ctx) (raw : String)
      (draws : drawnToken r = some raw) (token : ActionToken) (new : NewToken ctx s raw token)
      (owner : token.userId = u.id) (h : Issuance u token) (same : SameAccounts (s.withToken token) s')
  | emailRequested (session : Id) (ctx : Ctx) (data : ProfileInput)
      (request : r = .auth ctx (.putProfile session data)) (u : User)
      (found : Table.get u.id s.users = some u) (active : u.isActive s.organization = true)
      (name email : String) (named : email ≠ "") (token : ActionToken)
      (new : NewToken ctx s data.token token) (owner : token.userId = u.id)
      (kind : token.kind = .verifyEmail) (metadata : token.metadata = { pendingEmail := email })
      (same : SameAccounts
        (putUser (s.withToken token) { u with name := name, pendingEmail := email }) s')
  | regenerated (actor : Id) (ctx : Ctx) (u : User) (raw : String)
      (request : r = .users actor ctx (.regenerate u.id raw))
      (found : Table.get u.id s.users = some u) (pending : u.passwordChangeRequired = true)
      (same : SameAccounts (s.withTemporary ctx u raw) s')
  | emailChanged (ctx : Ctx) (raw : String) (reserved : Bool)
      (request : r = .auth ctx (.verifyEmail raw reserved)) (token : ActionToken) (u : User)
      (s₁ : AccountScope) (h : Consumed ctx s s₁ raw .verifyEmail token u)
      (named : token.metadata.pendingEmail ≠ "")
      (same : SameAccounts (putUser s₁ (u.withEmail ctx token.metadata.pendingEmail)) s')
  | emailVerified (ctx : Ctx) (raw : String) (reserved : Bool)
      (request : r = .auth ctx (.verifyEmail raw reserved)) (token : ActionToken) (u : User)
      (s₁ : AccountScope) (h : Consumed ctx s s₁ raw .verifyEmail token u)
      (unnamed : token.metadata.pendingEmail = "")
      (same : SameAccounts (putUser s₁ (u.verified ctx)) s')
  | temporaryProven (ctx : Ctx) (op : AuthOp) (request : r = .auth ctx op) (password raw : String)
      (offers : op.offers = some password) (draws : op.draws = some raw) (u : User)
      (h : TemporaryProven ctx s u password) (token : ActionToken) (new : NewToken ctx s raw token)
      (owner : token.userId = u.id) (kind : token.kind = .temporaryPasswordChange)
      (metadata : token.metadata = { credentialVersion := some u.password })
      (sessions : List UserSession) (revokes : Revokes s.sessions sessions)
      (same : SameAccounts { s.withToken token with sessions := sessions } s')
  | signedIn (ctx : Ctx) (op : AuthOp) (request : r = .auth ctx op) (password : String)
      (offers : op.offers = some password) (u : User) (proven : u.password.check password = true)
      (a' : Response) (response : a = .accounts a') (h : Opened ctx s s' u a')
  | completed (ctx : Ctx) (raw : String) (password : NewPassword)
      (request : r = .auth ctx (.completeTemporaryPassword raw password)) (token : ActionToken)
      (u : User) (s₁ : AccountScope) (h : Completed ctx s s₁ raw password.raw token u)
      (a' : Response) (response : a = .accounts a')
      (opened : Opened ctx s₁ s' (u.withChosenPassword ctx password.raw) a')
  | attempted (ctx : Ctx) (attempt : MfaAttempt) (request : r = .auth ctx (.verifyMfa attempt))
      (c c' : MFAChallenge) (mem : c ∈ s.challenges) (row : c'.id = c.id ∧ c'.userId = c.userId ∧
        c'.expiresAt = c.expiresAt ∧ c'.attempts = c.attempts + 1) (unused : c.usedAt = none)
      (same : SameAccounts { s with challenges := Table.put c' s.challenges } s')
  | mfaPassed (ctx : Ctx) (attempt : MfaAttempt) (request : r = .auth ctx (.verifyMfa attempt))
      (c : MFAChallenge) (found : Table.get attempt.challenge s.challenges = some c)
      (unused : c.usedAt = none) (timely : ctx.now < c.expiresAt) (budget : c.attempts < 5)
      (u : User) (owner : c.userId = u.id) (c' : MFAChallenge)
      (row : c' = { c with attempts := c.attempts + 1, usedAt := some ctx.now })
      (h : SessionStarted ctx { s with challenges := Table.put c' s.challenges } s' u)
  | passwordReset (ctx : Ctx) (raw : String) (password : NewPassword)
      (request : r = .auth ctx (.resetPassword raw password)) (token : ActionToken) (u u' : User)
      (s₁ : AccountScope) (h : Consumed ctx s s₁ raw .resetPassword token u)
      (settled : u.passwordChangeRequired = false)
      (row : u' = u.withPassword ctx password.raw ∨
        s.organization.kind = .platform ∧ u' = { u.withPassword ctx password.raw with
          status := .active, emailVerifiedAt := some ctx.now, mfaGraceEndsAt := some ctx.now })
      (same : SameAccounts (revokeSessions (putUser s₁ u') ctx u.id none) s')
  | passwordChanged (ctx : Ctx) (session : Id) (currentPassword : String) (password : NewPassword)
      (recentMfa : Bool)
      (request : r = .auth ctx (.changePassword session currentPassword password recentMfa))
      (u : User) (found : Table.get u.id s.users = some u)
      (active : u.isActive s.organization = true) (k : UserSession) (mem : k ∈ s.sessions)
      (own : k.sessionKey = session ∧ k.userId = u.id ∧ k.usable ctx.now = true)
      (fresh : ctx.uuid 12 ∉ Table.keys s.sessions) (k' : UserSession)
      (row : k'.sessionKey = ctx.uuid 12 ∧ k'.userId = u.id)
      (same : SameAccounts { putUser s (u.withPassword ctx password.raw) with
        sessions := ((revokeSessions s ctx u.id (some session)).sessions.filter fun k =>
          !(k.sessionKey = session && k.userId = u.id)) ++ [k'] } s')

variable {sha : Measurements.Sha256} {t t' : Tenant} {s s' : AccountScope} {ctx : Ctx} {actor : Id}

/-! ## Administration -/

/-- `UserDetailView.patch`. -/
theorem patchUser_step {userId : Id} {data : UserPatch} {u' : User} {a : VesselCaller.Response}
    (h : patchUser s ctx actor userId data = .ok (s', u')) :
    AccountStep (.users actor ctx (.patchUser userId data)) a s s' := by
  simp only [patchUser, UserPatch.validate, bind_eq_ok, raiseIf_eq_ok, pure_eq_ok,
    Prod.mk.injEq] at h
  obtain ⟨_, ⟨_, _, hstatus⟩, u, hu, _, _, _, hguard, rfl, _⟩ := h
  obtain ⟨found, rfl⟩ := getUser_eq_ok hu
  refine .rewritten u (u.patched data) found (.patched actor ctx data rfl rfl ?_ ?_) _ ?_
    ⟨?_, ?_, ?_, ?_, ?_, rfl, ?_⟩
  · intro status hdata
    exact or_iff_not_imp_left.mpr (by simpa [hdata] using hstatus)
  · intro hlast
    by_contra hlosing
    refine hguard ⟨hlast, ?_⟩
    by_contra hkept
    rw [not_or, not_not, not_not] at hkept
    exact hlosing hkept
  · show Revokes _ (AccountScope.sessions (if _ then _ else _))
    split
    · exact revokeSessions_revokes (putUser s (u.patched data)) ctx u.id none
    · exact .refl _
  all_goals
    show _ = _
    simp only [AccountScope.bumpRevision]
    split <;> rfl

/-- `UserDetailView.delete`. -/
theorem removeUser_step {userId : Id} {a : VesselCaller.Response}
    (h : removeUser s ctx actor userId = .ok s') :
    AccountStep (.users actor ctx (.removeUser userId)) a s s' := by
  simp only [removeUser, bind_eq_ok, raiseIf_eq_ok, pure_eq_ok, Bool.not_eq_true] at h
  obtain ⟨u, hu, _, _, _, hguard, _, _, rfl⟩ := h
  obtain ⟨found, rfl⟩ := getUser_eq_ok hu
  exact .rewritten u (u.removed ctx) found (.removed actor ctx rfl rfl hguard) _
    (revokeSessions_revokes (putUser s (u.removed ctx)) ctx u.id none)
    ⟨rfl, rfl, rfl, rfl, rfl, rfl, rfl⟩

/-- A provisioned member is a new row, and nothing else of the accounts changes. -/
theorem provisionTemporaryUser_eq_ok {data : ProvisionInput} {u : User}
    (h : provisionTemporaryUser s ctx actor data = .ok (s', u)) :
    ctx.uuid 0 ∉ Table.keys s.users ∧
      SameAccounts { s with users := s.users ++ [provisionedUser ctx data] } s' := by
  simp only [provisionTemporaryUser, bind_eq_ok, raiseIf_eq_ok, pure_eq_ok, Prod.mk.injEq] at h
  obtain ⟨_, _, _, _, _, _, _, _, s₁, hs₁, rfl, _⟩ := h
  obtain ⟨fresh, _, rfl⟩ := insertUser_eq_ok hs₁
  exact ⟨fresh, ⟨rfl, rfl, rfl, rfl, rfl, rfl, rfl⟩⟩

/-- `ProvisionUserView.post`. -/
theorem provisionTemporaryUser_step {data : ProvisionInput} {u : User}
    {a : VesselCaller.Response} (h : provisionTemporaryUser s ctx actor data = .ok (s', u)) :
    AccountStep (.users actor ctx (.provision data)) a s s' := by
  obtain ⟨fresh, same⟩ := provisionTemporaryUser_eq_ok h
  exact .added _ fresh (.provisioned actor ctx data rfl rfl) same

/-- A temporary password is regenerated only while it has to be changed. -/
theorem regenerateTemporaryPassword_eq_ok {userId : Id} {raw : String} {u' : User}
    (h : regenerateTemporaryPassword s ctx actor userId raw = .ok (s', u')) :
    ∃ u, u.id = userId ∧ Table.get u.id s.users = some u ∧ u.passwordChangeRequired = true ∧
      SameAccounts (s.withTemporary ctx u raw) s' := by
  simp only [regenerateTemporaryPassword, bind_eq_ok, raiseIf_eq_ok, pure_eq_ok, Prod.mk.injEq,
    not_or, Bool.not_eq_false] at h
  obtain ⟨_, _, u, hu, _, _, _, ⟨_, _, hpending⟩, rfl, _⟩ := h
  obtain ⟨found, hid⟩ := getUser_eq_ok hu
  exact ⟨u, hid, found, hpending, ⟨rfl, rfl, rfl, rfl, rfl, rfl, rfl⟩⟩

/-- A regenerated temporary password. -/
theorem regenerateTemporaryPassword_step {userId : Id} {raw : String} {u' : User}
    {a : VesselCaller.Response}
    (h : regenerateTemporaryPassword s ctx actor userId raw = .ok (s', u')) :
    AccountStep (.users actor ctx (.regenerate userId raw)) a s s' := by
  obtain ⟨u, rfl, found, pending, same⟩ := regenerateTemporaryPassword_eq_ok h
  exact .regenerated actor ctx u raw rfl found pending same

/-- An administrator has a reset link sent. -/
theorem dispatchPasswordReset_step {userId : Id} {raw : String} {a : VesselCaller.Response}
    (h : dispatchPasswordReset s ctx userId raw = .ok s') :
    AccountStep (.users actor ctx (.dispatchReset userId raw)) a s s' := by
  simp only [dispatchPasswordReset, bind_eq_ok, raiseIf_eq_ok, orRaise_eq_ok, pure_eq_ok,
    Prod.exists] at h
  obtain ⟨_, _, u, hu, s₁, token, htoken, rfl⟩ := h
  obtain ⟨found, hmember⟩ := Option.filter_eq_some_iff.mp hu
  simp only [Bool.and_eq_true, Bool.not_eq_true'] at hmember
  obtain ⟨hnew, howner, hkind, hmetadata, rfl⟩ := issueActionToken_eq_ok htoken
  exact .issued u (Table.mem_of_get found).1 ctx raw rfl token hnew howner
    (.reset hkind hmetadata hmember.2) (.refl _)

/-- An administrator takes the second factor away. -/
theorem resetMfa_step {userId : Id} {u' : User} {r : Request} {a : VesselCaller.Response}
    (h : resetMfa s ctx actor userId = .ok (s', u')) : AccountStep r a s s' := by
  simp only [resetMfa, bind_eq_ok, raiseIf_eq_ok, pure_eq_ok, Prod.mk.injEq] at h
  obtain ⟨u, hu, _, _, rfl, _⟩ := h
  obtain ⟨found, rfl⟩ := getUser_eq_ok hu
  exact .rewritten u (u.withoutMfa ctx) found (.mfa "" none _ rfl) _
    (revokeSessions_revokes (putUser s (u.withoutMfa ctx)) ctx u.id none)
    ⟨rfl, rfl, rfl, rfl, rfl, rfl, rfl⟩

/-- A join request is approved or declined. -/
theorem reviewJoinRequest_step {requestId : Id} {approve : Option Role} {reserved : Bool}
    {request : OrganizationJoinRequest} {r : Request} {a : VesselCaller.Response}
    (h : reviewJoinRequest s ctx actor requestId approve reserved = .ok (s', request)) :
    AccountStep r a s s' := by
  simp only [reviewJoinRequest, bind_eq_ok, orRaise_eq_ok] at h
  obtain ⟨_, _, request, _, h⟩ := h
  split at h
  · simp only [bind_eq_ok, raiseIf_eq_ok, pure_eq_ok, Prod.mk.injEq] at h
    obtain ⟨_, _, rfl, _⟩ := h
    exact .idle (.refl _)
  · split at h
    · simp only [pure_eq_ok, Prod.mk.injEq] at h
      exact .idle (h.1 ▸ .refl _)
    · simp only [bind_eq_ok, orRaise_eq_ok] at h
      obtain ⟨verifiedAt, _, h⟩ := h
      split at h
      · simp only [bind_eq_ok, raiseIf_eq_ok, orRaise_eq_ok, pure_eq_ok, Prod.mk.injEq] at h
        obtain ⟨_, _, password, _, s₁, hs₁, rfl, _⟩ := h
        obtain ⟨fresh, _, rfl⟩ := insertUser_eq_ok hs₁
        exact .added _ fresh (.verified ctx _ _ _ _ _ rfl) ⟨rfl, rfl, rfl, rfl, rfl, rfl, rfl⟩
      · simp only [pure_eq_ok, Prod.mk.injEq] at h
        obtain ⟨rfl, _⟩ := h
        exact .idle ⟨rfl, rfl, rfl, rfl, rfl, rfl, rfl⟩

/-- **Every administration request is an account step.** -/
theorem userOp_step {op : UserOp} {response : Response} {a : VesselCaller.Response}
    (h : op.handle s ctx actor = .ok (s', response)) :
    AccountStep (.users actor ctx op) a s s' := by
  cases op with
  | patchUser userId data =>
      simp only [UserOp.handle, bind_eq_ok, pure_eq_ok, Prod.exists, Prod.mk.injEq] at h
      obtain ⟨_, _, hop, rfl, _⟩ := h
      exact patchUser_step hop
  | removeUser userId =>
      simp only [UserOp.handle, bind_eq_ok, pure_eq_ok, Prod.mk.injEq] at h
      obtain ⟨_, hop, rfl, _⟩ := h
      exact removeUser_step hop
  | provision data =>
      simp only [UserOp.handle, bind_eq_ok, pure_eq_ok, Prod.exists, Prod.mk.injEq] at h
      obtain ⟨_, _, hop, rfl, _⟩ := h
      exact provisionTemporaryUser_step hop
  | regenerate userId raw =>
      simp only [UserOp.handle, bind_eq_ok, pure_eq_ok, Prod.exists, Prod.mk.injEq] at h
      obtain ⟨_, _, hop, rfl, _⟩ := h
      exact regenerateTemporaryPassword_step hop
  | dispatchReset userId raw =>
      simp only [UserOp.handle, bind_eq_ok, pure_eq_ok, Prod.mk.injEq] at h
      obtain ⟨_, hop, rfl, _⟩ := h
      exact dispatchPasswordReset_step hop
  | resetMfa userId =>
      simp only [UserOp.handle, bind_eq_ok, pure_eq_ok, Prod.exists, Prod.mk.injEq] at h
      obtain ⟨_, _, hop, rfl, _⟩ := h
      exact resetMfa_step hop
  | invite name email role reserved raw =>
      simp only [UserOp.handle, createInvitation, insertInvitation, bind_eq_ok, pure_eq_ok,
        Prod.exists, Prod.mk.injEq] at h
      obtain ⟨_, _, ⟨_, _, _, _, _, ⟨_, _, _, _, rfl⟩, rfl, _⟩, rfl, _⟩ := h
      exact .idle ⟨rfl, rfl, rfl, rfl, rfl, rfl, rfl⟩
  | resendInvitation invitationId reserved raw =>
      simp only [UserOp.handle, resendInvitation, bind_eq_ok, pure_eq_ok, Prod.exists,
        Prod.mk.injEq] at h
      obtain ⟨_, _, ⟨_, _, _, _, _, _, rfl, _⟩, rfl, _⟩ := h
      exact .idle ⟨rfl, rfl, rfl, rfl, rfl, rfl, rfl⟩
  | revokeInvitation invitationId =>
      simp only [UserOp.handle, revokeInvitation, bind_eq_ok, pure_eq_ok, Prod.mk.injEq] at h
      obtain ⟨_, ⟨_, _, rfl⟩, rfl, _⟩ := h
      exact .idle ⟨rfl, rfl, rfl, rfl, rfl, rfl, rfl⟩
  | createSignupLink expiresInDays raw =>
      simp only [UserOp.handle, createSignupLink, bind_eq_ok, pure_eq_ok, Prod.exists,
        Prod.mk.injEq] at h
      obtain ⟨_, _, ⟨_, _, _, _, _, _, _, _, rfl, _⟩, rfl, _⟩ := h
      exact .idle ⟨rfl, rfl, rfl, rfl, rfl, rfl, rfl⟩
  | revokeSignupLink linkId =>
      simp only [UserOp.handle, revokeSignupLink, bind_eq_ok, pure_eq_ok, Prod.mk.injEq] at h
      obtain ⟨_, ⟨link, _, hlink⟩, rfl, _⟩ := h
      split at hlink
      · exact .idle (pure_eq_ok.mp hlink ▸ .refl _)
      · obtain rfl := pure_eq_ok.mp hlink
        exact .idle ⟨rfl, rfl, rfl, rfl, rfl, rfl, rfl⟩
  | reviewJoinRequest requestId approve reserved =>
      simp only [UserOp.handle, bind_eq_ok, Prod.exists] at h
      obtain ⟨_, _, hop, h⟩ := h
      split at h <;>
        · obtain ⟨rfl, _⟩ := Prod.mk.inj (pure_eq_ok.mp h)
          exact reviewJoinRequest_step hop

/-! ## Sign-in and self-service -/

/-- `VerifyEmailView.post`. -/
theorem verifyEmail_step {raw : String} {reserved : Bool} {response : Response}
    {a : VesselCaller.Response} (h : verifyEmail s ctx raw reserved = .ok (s', response)) :
    AccountStep (.auth ctx (.verifyEmail raw reserved)) a s s' := by
  simp only [verifyEmail, bind_eq_ok, orRaise_eq_ok, Prod.exists] at h
  obtain ⟨s₁, used, u, hconsumed, h⟩ := h
  obtain ⟨token, hconsumed, hmetadata⟩ := consumeActionToken_eq_some hconsumed
  rw [hmetadata] at h
  split at h
  · rename_i hnamed
    simp only [bind_eq_ok, raiseIf_eq_ok, pure_eq_ok, Prod.mk.injEq] at h
    obtain ⟨_, _, rfl, _⟩ := h
    exact .emailChanged ctx raw reserved rfl token u s₁ hconsumed hnamed (.refl _)
  · rename_i hunnamed
    simp only [pure_eq_ok, Prod.mk.injEq] at h
    obtain ⟨rfl, _⟩ := h
    exact .emailVerified ctx raw reserved rfl token u s₁ hconsumed (not_not.mp hunnamed)
      ⟨rfl, rfl, rfl, rfl, rfl, rfl, rfl⟩

/-- `ResendVerificationView.post`. -/
theorem resendVerification_step {email raw : String} {throttled : Bool} {response : Response}
    {a : VesselCaller.Response}
    (h : resendVerification s ctx email raw throttled = .ok (s', response)) :
    AccountStep (.auth ctx (.resendVerification email raw throttled)) a s s' := by
  unfold resendVerification at h
  split at h
  · simp only [pure_eq_ok, Prod.mk.injEq] at h
    exact .idle (h.1 ▸ .refl _)
  · split at h
    · simp only [pure_eq_ok, Prod.mk.injEq] at h
      exact .idle (h.1 ▸ .refl _)
    · rename_i u hu
      simp only [bind_eq_ok, pure_eq_ok, Prod.exists, Prod.mk.injEq] at h
      obtain ⟨s₁, token, htoken, rfl, _⟩ := h
      obtain ⟨hnew, howner, hkind, hmetadata, rfl⟩ := issueActionToken_eq_ok htoken
      have hfind := List.find?_some hu
      simp only [Bool.and_eq_true, Option.isNone_iff_eq_none] at hfind
      exact .issued u (List.mem_of_find?_eq_some hu) ctx raw rfl token hnew howner
        (.verification hkind hmetadata hfind.1.1.1.2) (.refl _)

/-- `ForgotPasswordView.post`. -/
theorem forgotPassword_step {email raw : String} {throttled : Bool} {response : Response}
    {a : VesselCaller.Response} (h : forgotPassword s ctx email raw throttled = .ok (s', response)) :
    AccountStep (.auth ctx (.forgotPassword email raw throttled)) a s s' := by
  unfold forgotPassword at h
  split at h
  · simp only [pure_eq_ok, Prod.mk.injEq] at h
    exact .idle (h.1 ▸ .refl _)
  · split at h
    · simp only [pure_eq_ok, Prod.mk.injEq] at h
      exact .idle (h.1 ▸ .refl _)
    · rename_i u hu
      simp only [bind_eq_ok, pure_eq_ok, Prod.exists, Prod.mk.injEq] at h
      obtain ⟨s₁, token, htoken, rfl, _⟩ := h
      obtain ⟨hnew, howner, hkind, hmetadata, rfl⟩ := issueActionToken_eq_ok htoken
      have hfind := List.find?_some hu
      simp only [Bool.and_eq_true, Bool.not_eq_true'] at hfind
      exact .issued u (List.mem_of_find?_eq_some hu) ctx raw rfl token hnew howner
        (.reset hkind hmetadata hfind.1.1.1.2) (.refl _)

/-- A login, from the account it has looked up, is an account step. -/
theorem continueLogin_step {op : AuthOp} {selected : User} {email password raw : String}
    {current : Option Id} {response : Response} (hoffers : op.offers = some password)
    (hdraws : op.draws = some raw)
    (h : continueLogin s ctx selected email password raw current = .ok (s', response)) :
    AccountStep (.auth ctx op) (.accounts response) s s' := by
  simp only [continueLogin, bind_eq_ok] at h
  obtain ⟨challenge, hchallenge, h⟩ := h
  cases challenge with
  | some challenge =>
      obtain ⟨s₁, token⟩ := challenge
      simp only [pure_eq_ok, Prod.mk.injEq] at h
      obtain ⟨rfl, _⟩ := h
      obtain ⟨u, hproven, hnew, howner, hkind, hmetadata, rfl⟩ :=
        temporaryPasswordChallenge_eq_ok hchallenge
      exact .temporaryProven ctx op rfl password raw hoffers hdraws u hproven token hnew howner
        hkind hmetadata _ (endCurrentSession_revokes (s.withToken token) ctx current)
        ⟨rfl, rfl, rfl, rfl, rfl, rfl, rfl⟩
  | none =>
      simp only [bind_eq_ok, raiseIf_eq_ok, orRaise_eq_ok, not_or, Bool.not_eq_false] at h
      obtain ⟨_, _, u, hu, _, ⟨hproven, _⟩, h⟩ := h
      obtain ⟨found, _, _⟩ := lockActiveAccount_eq_some hu
      exact .signedIn ctx op rfl password hoffers u hproven response rfl
        (openSession_eq_ok found h)

/-- The temporary password is replaced by a chosen one. -/
theorem completeFirstSignIn_step {raw : String} {password : NewPassword} {response : Response}
    (h : completeFirstSignIn s ctx raw password = .ok (s', response)) :
    AccountStep (.auth ctx (.completeTemporaryPassword raw password)) (.accounts response) s s' := by
  simp only [completeFirstSignIn, bind_eq_ok, Prod.exists] at h
  obtain ⟨s₁, u', hservice, h⟩ := h
  obtain ⟨token, u, hcompleted, rfl⟩ := completeTemporaryPassword_eq_ok hservice
  refine .completed ctx raw password rfl token u s₁ hcompleted response rfl
    (openSession_eq_ok ?_ h)
  rw [hcompleted.scope]
  exact Table.get_put_self (a := u.withChosenPassword ctx password.raw) hcompleted.found

/-- What a verification comes to: a session, or a spent attempt. -/
theorem judgeMfaAttempt_cases {c : MFAChallenge} {u : User} {attempt : MfaAttempt}
    {verdict : Except ApiError Response} (found : Table.get u.id s.users = some u)
    (h : judgeMfaAttempt s ctx c u attempt = .ok (s', verdict)) :
    let used := { c with usedAt := some ctx.now }
    (∃ a, verdict = .ok a ∧
      ∃ codes, SessionStarted ctx { s with
        recoveryCodes := codes, challenges := Table.put used s.challenges } s' u) ∨
    (∃ e, verdict = .error e ∧ (SameAccounts s s' ∨
      SameAccounts { s with challenges := Table.put used s.challenges } s')) := by
  unfold judgeMfaAttempt at h
  dsimp only at h
  split at h
  · simp only [pure_eq_ok, Prod.mk.injEq] at h
    exact .inr ⟨_, h.2.symm, .inl (h.1 ▸ .refl _)⟩
  · split at h
    · simp only [pure_eq_ok, Prod.mk.injEq] at h
      exact .inr ⟨_, h.2.symm, .inl (h.1 ▸ .refl _)⟩
    · rename_i s₁ hs₁
      -- Whichever factor was right, at most a recovery code was spent on it.
      obtain ⟨codes, rfl⟩ : ∃ codes, s₁ = { s with recoveryCodes := codes } := by
        split at hs₁
        · exact ⟨s.recoveryCodes, (Option.some.inj hs₁).symm⟩
        · unfold useRecoveryCode at hs₁
          dsimp only at hs₁
          split at hs₁
          · exact ⟨_, (Option.some.inj hs₁).symm⟩
          · simp at hs₁
      split at h
      · rename_i s₂ hstart
        simp only [pure_eq_ok, Prod.mk.injEq] at h
        obtain ⟨rfl, rfl⟩ := h
        exact .inl ⟨_, rfl, codes, startSession_eq_ok found hstart⟩
      · split at h
        · simp only [pure_eq_ok, Prod.mk.injEq] at h
          obtain ⟨rfl, rfl⟩ := h
          exact .inr ⟨_, rfl, .inr ⟨rfl, rfl, rfl, rfl, rfl, rfl, rfl⟩⟩
        · simp at h

/-- `MFAVerifyView.post`, whatever is thought of the code. -/
theorem verifyMfa_step {attempt : MfaAttempt} {response : Response} {a : VesselCaller.Response}
    (h : verifyMfa s ctx attempt = .ok (s', response)) :
    AccountStep (.auth ctx (.verifyMfa attempt)) a s s' := by
  simp only [verifyMfa, bind_eq_ok, raiseIf_eq_ok, orRaise_eq_ok, not_or, not_le,
    Prod.exists] at h
  obtain ⟨_, _, c, hc, _, _, _, ⟨htimely, hbudget⟩, _, _, u, hu, s₁, verdict, hjudge, h⟩ := h
  obtain ⟨hget, hunused⟩ := Option.filter_eq_some_iff.mp hc
  rw [Option.isNone_iff_eq_none] at hunused
  have hid : u.id = c.userId := (Table.mem_of_get hu).2
  obtain ⟨a', rfl, codes, hstarted⟩ | ⟨e, rfl, hsame⟩ :=
    judgeMfaAttempt_cases (u := u) (by rw [hid]; exact hu) hjudge
  · simp only [pure_eq_ok, Prod.mk.injEq] at h
    obtain ⟨rfl, _⟩ := h
    refine .mfaPassed ctx attempt rfl c hget hunused htimely hbudget u hid.symm _ rfl
      ⟨hstarted.found, hstarted.active, hstarted.approved, hstarted.fresh, ?_⟩
    have hput := Table.put_put (a := { c with attempts := c.attempts + 1, usedAt := some ctx.now })
      (b := { c with attempts := c.attempts + 1 }) rfl s.challenges
    exact ⟨hstarted.same.kind, hstarted.same.access, hstarted.same.users, hstarted.same.tokens,
      hstarted.same.challenges.trans hput, hstarted.same.sessions, hstarted.same.platformGrants⟩
  · simp only [bind_eq_ok, raiseIf_eq_ok, pure_eq_ok, Prod.mk.injEq] at h
    obtain ⟨_, _, rfl, _⟩ := h
    have hmem := (Table.mem_of_get hget).1
    obtain hsame | hsame := hsame
    · exact .attempted ctx attempt rfl c { c with attempts := c.attempts + 1 } hmem
        ⟨rfl, rfl, rfl, rfl⟩ hunused hsame
    · have hput := Table.put_put (a := { c with attempts := c.attempts + 1, usedAt := some ctx.now })
        (b := { c with attempts := c.attempts + 1 }) rfl s.challenges
      exact .attempted ctx attempt rfl c
        { c with attempts := c.attempts + 1, usedAt := some ctx.now } hmem ⟨rfl, rfl, rfl, rfl⟩
        hunused ⟨hsame.kind, hsame.access, hsame.users, hsame.tokens, hsame.challenges.trans hput,
          hsame.sessions, hsame.platformGrants⟩

/-- The password of the account `u` was reset with a token. -/
structure PasswordReset (ctx : Ctx) (s s' : AccountScope) (raw chosen : String) (u : User) :
    Prop where
  consumed : ∃ token s₁, Consumed ctx s s₁ raw .resetPassword token u ∧ ∃ u',
    (u' = u.withPassword ctx chosen ∨
      s.organization.kind = .platform ∧ u' = { u.withPassword ctx chosen with
        status := .active, emailVerifiedAt := some ctx.now, mfaGraceEndsAt := some ctx.now }) ∧
    SameAccounts (revokeSessions (putUser s₁ u') ctx u.id none) s'
  settled : u.passwordChangeRequired = false

/-- A password is reset by a token that is used up, and every session of the account ends. -/
theorem resetPassword_eq_ok {raw : String} {password : NewPassword} {response : Response}
    (h : resetPassword s ctx raw password = .ok (s', response)) :
    ∃ u, PasswordReset ctx s s' raw password.raw u := by
  simp only [resetPassword, bind_eq_ok, raiseIf_eq_ok, orRaise_eq_ok, pure_eq_ok, Prod.exists,
    Prod.mk.injEq, Bool.not_eq_true] at h
  obtain ⟨_, _, s₁, used, u, hconsumed, _, hsettled, _, hplatform, rfl, _⟩ := h
  obtain ⟨token, hconsumed, _⟩ := consumeActionToken_eq_some hconsumed
  by_cases hsetup : used.metadata.platformSetup = true
  · have hkind : s₁.organization.kind = .platform := by
      by_contra hkind
      exact hplatform ⟨hsetup, .inl hkind⟩
    rw [hconsumed.scope] at hkind
    simp only [hsetup, if_true]
    exact ⟨u, ⟨token, s₁, hconsumed, _, .inr ⟨hkind, rfl⟩, .refl _⟩, hsettled⟩
  · simp only [hsetup]
    exact ⟨u, ⟨token, s₁, hconsumed, _, .inl rfl, .refl _⟩, hsettled⟩

/-- `ResetPasswordView.post`. -/
theorem resetPassword_step {raw : String} {password : NewPassword} {response : Response}
    {a : VesselCaller.Response} (h : resetPassword s ctx raw password = .ok (s', response)) :
    AccountStep (.auth ctx (.resetPassword raw password)) a s s' := by
  obtain ⟨u, ⟨token, s₁, hconsumed, u', row, same⟩, settled⟩ := resetPassword_eq_ok h
  exact .passwordReset ctx raw password rfl token u u' s₁ hconsumed settled row same

/-- The account `u` changed its password from the session `session`. -/
structure PasswordChanged (ctx : Ctx) (s s' : AccountScope) (session : Id) (chosen : String)
    (u : User) : Prop where
  found : Table.get u.id s.users = some u
  active : u.isActive s.organization = true
  own : ∃ k ∈ s.sessions, k.sessionKey = session ∧ k.userId = u.id ∧ k.usable ctx.now = true
  fresh : ctx.uuid 12 ∉ Table.keys s.sessions
  same : ∃ k' : UserSession, (k'.sessionKey = ctx.uuid 12 ∧ k'.userId = u.id) ∧
    SameAccounts { putUser s (u.withPassword ctx chosen) with
      sessions := ((revokeSessions s ctx u.id (some session)).sessions.filter fun k =>
        !(k.sessionKey = session && k.userId = u.id)) ++ [k'] } s'

/-- A password is changed by its owner, and every session of the account but the own ends. -/
theorem changePassword_eq_ok {session : Id} {currentPassword : String} {password : NewPassword}
    {recentMfa : Bool} {response : Response}
    (h : changePassword s ctx session currentPassword password recentMfa = .ok (s', response)) :
    ∃ u, PasswordChanged ctx s s' session password.raw u := by
  simp only [changePassword, changePasswordOf, rotateCurrentSession, bind_eq_ok, raiseIf_eq_ok,
    pure_eq_ok, Prod.mk.injEq] at h
  obtain ⟨u, hu, _, _, _, _, _, _, _, ⟨_, hfresh, rfl⟩, rfl, _⟩ := h
  obtain ⟨found, hactive, hown⟩ := authenticate_eq_ok hu
  have hkeys := (revokeSessions_revokes s ctx u.id (some session)).keys
  exact ⟨u, found, hactive, hown, hkeys ▸ hfresh, _, ⟨rfl, rfl⟩,
    ⟨rfl, rfl, rfl, rfl, rfl, rfl, rfl⟩⟩

/-- `ChangePasswordView.post`. -/
theorem changePassword_step {session : Id} {currentPassword : String} {password : NewPassword}
    {recentMfa : Bool} {response : Response} {a : VesselCaller.Response}
    (h : changePassword s ctx session currentPassword password recentMfa = .ok (s', response)) :
    AccountStep (.auth ctx (.changePassword session currentPassword password recentMfa)) a s s' := by
  obtain ⟨u, found, active, ⟨k, mem, own⟩, fresh, k', row, same⟩ := changePassword_eq_ok h
  exact .passwordChanged ctx session currentPassword password recentMfa rfl u found active k mem
    own fresh k' row same

/-- `ProfileView.put`. -/
theorem putProfile_step {session : Id} {data : ProfileInput} {response : Response}
    {a : VesselCaller.Response} (h : putProfile s ctx session data = .ok (s', response)) :
    AccountStep (.auth ctx (.putProfile session data)) a s s' := by
  simp only [putProfile, putProfileOf, bind_eq_ok, raiseIf_eq_ok] at h
  obtain ⟨u, hu, _, _, _, _, h⟩ := h
  obtain ⟨found, hactive, _⟩ := authenticate_eq_ok hu
  split at h
  · simp only [pure_eq_ok, Prod.mk.injEq] at h
    obtain ⟨rfl, _⟩ := h
    exact .rewritten u _ found (.profile _ rfl) s.sessions (.refl _)
      ⟨rfl, rfl, rfl, rfl, rfl, rfl, rfl⟩
  · rename_i email hemail
    simp only [bind_eq_ok, raiseIf_eq_ok, pure_eq_ok, Prod.exists, Prod.mk.injEq] at h
    obtain ⟨_, _, _, _, s₁, token, htoken, rfl, _⟩ := h
    obtain ⟨hnew, howner, hkind, hmetadata, rfl⟩ := issueActionToken_eq_ok htoken
    have hnamed : email ≠ "" := by
      obtain ⟨_, hguard⟩ := Option.filter_eq_some_iff.mp hemail
      simp only [Bool.and_eq_true, decide_eq_true_eq] at hguard
      exact hguard.1
    exact .emailRequested session ctx data rfl u found hactive (data.name.getD u.name) email hnamed
      token hnew howner hkind hmetadata (.refl _)

/-- A member that rewrites its own second factor. -/
theorem ownMfa_step {session : Id} {u u' : User} {r : Request} {a : VesselCaller.Response}
    {secret : String} {enabledAt graceEndsAt : Option Instant} {codes : List MFARecoveryCode}
    (hu : authenticate s ctx.now session = .ok u)
    (row : u' = { u with
      mfaSecret := secret, mfaEnabledAt := enabledAt, mfaGraceEndsAt := graceEndsAt })
    (hs : s' = revokeSessions { putUser s u' with recoveryCodes := codes } ctx u.id
      (some session)) : AccountStep r a s s' := by
  obtain ⟨found, _⟩ := authenticate_eq_ok hu
  subst hs
  exact .rewritten u u' found (.mfa secret enabledAt graceEndsAt row) _
    (revokeSessions_revokes (putUser s u') ctx u.id (some session))
    ⟨rfl, rfl, rfl, rfl, rfl, rfl, rfl⟩

/-- **Every sign-in or self-service request is an account step.** -/
theorem authOp_step {op : AuthOp} {response : Response}
    (h : op.handle s ctx = .ok (s', response)) :
    AccountStep (.auth ctx op) (.accounts response) s s' := by
  cases op with
  | verifyEmail raw reserved => exact verifyEmail_step h
  | resendVerification email raw throttled => exact resendVerification_step h
  | login email password raw current throttled =>
      simp only [AuthOp.handle, login, bind_eq_ok] at h
      obtain ⟨_, _, selected, _, _, _, h⟩ := h
      exact continueLogin_step rfl rfl h
  | lateLogin selected email password raw current => exact continueLogin_step rfl rfl h
  | completeTemporaryPassword raw password => exact completeFirstSignIn_step h
  | verifyMfa attempt => exact verifyMfa_step h
  | forgotPassword email raw throttled => exact forgotPassword_step h
  | resetPassword raw password => exact resetPassword_step h
  | acceptInvitation raw name password reserved =>
      simp only [AuthOp.handle, acceptInvitation, bind_eq_ok, pure_eq_ok, Prod.mk.injEq] at h
      obtain ⟨_, ⟨_, _, _, _, invitation, _, _, _, _, _, s₁, hs₁, rfl⟩, rfl, _⟩ := h
      obtain ⟨fresh, _, rfl⟩ := insertUser_eq_ok hs₁
      exact .added _ fresh (.verified ctx _ _ _ _ _ rfl) ⟨rfl, rfl, rfl, rfl, rfl, rfl, rfl⟩
  | submitJoinRequest raw name email reserved verification =>
      simp only [AuthOp.handle, submitJoinRequest, bind_eq_ok, pure_eq_ok, Prod.exists,
        Prod.mk.injEq] at h
      obtain ⟨_, _, ⟨_, _, _, _, h⟩, rfl, _⟩ := h
      split at h
      · exact .idle ((Prod.mk.inj (pure_eq_ok.mp h)).1 ▸ .refl _)
      · split at h
        · obtain ⟨rfl, _⟩ := Prod.mk.inj (pure_eq_ok.mp h)
          exact .idle ⟨rfl, rfl, rfl, rfl, rfl, rfl, rfl⟩
        · simp only [bind_eq_ok, pure_eq_ok, Prod.mk.injEq] at h
          obtain ⟨_, _, _, _, rfl, _⟩ := h
          exact .idle ⟨rfl, rfl, rfl, rfl, rfl, rfl, rfl⟩
  | verifyJoinRequest raw password =>
      simp only [AuthOp.handle, verifyJoinRequest, bind_eq_ok, pure_eq_ok, Prod.mk.injEq] at h
      obtain ⟨_, ⟨_, _, _, _, _, _, _, _, _, _, rfl⟩, rfl, _⟩ := h
      exact .idle ⟨rfl, rfl, rfl, rfl, rfl, rfl, rfl⟩
  | changePassword session currentPassword password recentMfa => exact changePassword_step h
  | putProfile session data => exact putProfile_step h
  | confirmMfa session secret valid codes =>
      simp only [AuthOp.handle, confirmMfa, confirmMfaOf, bind_eq_ok, pure_eq_ok, Prod.mk.injEq] at h
      obtain ⟨u, hu, _, _, rfl, _⟩ := h
      exact ownMfa_step hu rfl rfl
  | regenerateRecoveryCodes session valid recentMfa codes =>
      simp only [AuthOp.handle, regenerateRecoveryCodes, regenerateRecoveryCodesOf, bind_eq_ok,
        pure_eq_ok, Prod.mk.injEq] at h
      obtain ⟨_, _, _, _, _, _, rfl, _⟩ := h
      exact .idle ⟨rfl, rfl, rfl, rfl, rfl, rfl, rfl⟩
  | disableMfa session totp password =>
      simp only [AuthOp.handle, disableMfa, disableMfaOf, bind_eq_ok, pure_eq_ok, Prod.mk.injEq] at h
      obtain ⟨u, hu, _, _, _, _, _, _, rfl, _⟩ := h
      exact ownMfa_step hu rfl rfl
  | logout session =>
      simp only [AuthOp.handle, bind_eq_ok, pure_eq_ok, Prod.mk.injEq] at h
      obtain ⟨_, _, rfl, _⟩ := h
      exact .revoked _ (endCurrentSession_revokes s ctx (some session))
        ⟨rfl, rfl, rfl, rfl, rfl, rfl, rfl⟩
  | revokeSession session other =>
      simp only [AuthOp.handle, bind_eq_ok, pure_eq_ok, Prod.mk.injEq] at h
      obtain ⟨_, _, _, _, rfl, _⟩ := h
      exact .revoked _ (endCurrentSession_revokes s ctx (some other))
        ⟨rfl, rfl, rfl, rfl, rfl, rfl, rfl⟩
  | signOutEverywhere session =>
      simp only [AuthOp.handle, bind_eq_ok, pure_eq_ok, Prod.mk.injEq] at h
      obtain ⟨u, _, rfl, _⟩ := h
      exact .revoked _ ((revokeSessions_revokes s ctx u.id none).trans
        (endCurrentSession_revokes _ ctx (some session))) ⟨rfl, rfl, rfl, rfl, rfl, rfl, rfl⟩

/-! ## All requests -/

/-- What an organization says of itself leaves the accounts. -/
theorem organizations_sameAccounts {op : Organizations.Op} {response : Organizations.Response}
    (h : op.handle t = .ok (t', response)) :
    SameAccounts t.toAccountScope t'.toAccountScope := by
  cases op with
  | putOrganization data =>
      simp only [Organizations.Op.handle, Organizations.putOrganization, bind_eq_ok, pure_eq_ok,
        Prod.mk.injEq] at h
      obtain ⟨_, ⟨_, _, _, _, rfl⟩, rfl, _⟩ := h
      exact ⟨rfl, rfl, rfl, rfl, rfl, rfl, rfl⟩
  | putLogo data =>
      simp only [Organizations.Op.handle, Organizations.putLogo, bind_eq_ok, pure_eq_ok,
        Prod.mk.injEq] at h
      obtain ⟨_, ⟨_, _, _, _, rfl⟩, rfl, _⟩ := h
      exact ⟨rfl, rfl, rfl, rfl, rfl, rfl, rfl⟩
  | deleteLogo =>
      simp only [Organizations.Op.handle, pure_eq_ok, Prod.mk.injEq] at h
      exact h.1 ▸ ⟨rfl, rfl, rfl, rfl, rfl, rfl, rfl⟩
  | putSettings data =>
      simp only [Organizations.Op.handle, Organizations.putSettings, bind_eq_ok, pure_eq_ok,
        Prod.mk.injEq] at h
      obtain ⟨_, ⟨_, _, rfl⟩, rfl, _⟩ := h
      exact ⟨rfl, rfl, rfl, rfl, rfl, rfl, rfl⟩

/-- Requests of the other parts of the program leave the accounts. -/
theorem sameAccounts_ofSameScope (h : SameScope t t') :
    SameAccounts t.toAccountScope t'.toAccountScope := by
  have hkind := congrArg Organization.kind h.organization
  have haccess := congrArg Organization.accessStatus h.organization
  rw [h.tables]
  exact ⟨hkind, haccess, rfl, rfl, rfl, rfl, rfl⟩

/-- **Every accepted request is an account step.** -/
theorem handle_accounts {r : Request} {a : VesselCaller.Response}
    (h : t.handle sha r = .ok (t', a)) :
    AccountStep r a t.toAccountScope t'.toAccountScope := by
  cases r with
  | users actor ctx op =>
      simp only [Tenant.handle, bind_eq_ok, pure_eq_ok, Prod.exists, Prod.mk.injEq] at h
      obtain ⟨_, _, _, _, hop, rfl, _⟩ := h
      exact userOp_step hop
  | auth ctx op =>
      simp only [Tenant.handle, bind_eq_ok, pure_eq_ok, Prod.exists, Prod.mk.injEq] at h
      obtain ⟨_, _, hop, rfl, rfl⟩ := h
      exact authOp_step hop
  | organizations actor ctx op =>
      simp only [Tenant.handle, bind_eq_ok, pure_eq_ok, Prod.exists, Prod.mk.injEq] at h
      obtain ⟨_, _, _, _, hop, rfl, _⟩ := h
      exact .idle (organizations_sameAccounts hop)
  | measurements actor ctx op =>
      simp only [Tenant.handle, bind_eq_ok, pure_eq_ok, Prod.exists, Prod.mk.injEq] at h
      obtain ⟨_, _, _, _, hop, rfl, _⟩ := h
      exact .idle (sameAccounts_ofSameScope (measurements_sameScope hop))
  | portal ctx op =>
      simp only [Tenant.handle, bind_eq_ok, pure_eq_ok, Prod.exists, Prod.mk.injEq] at h
      obtain ⟨_, _, hop, rfl, _⟩ := h
      exact .idle (sameAccounts_ofSameScope (portal_frame hop).1.toSameScope)
  | operations actor ctx op =>
      simp only [Tenant.handle, bind_eq_ok, pure_eq_ok, Prod.exists, Prod.mk.injEq] at h
      obtain ⟨_, _, _, _, hop, rfl, _⟩ := h
      exact .idle (sameAccounts_ofSameScope (operations_frame hop).1)
  | billing actor ctx op =>
      simp only [Tenant.handle, bind_eq_ok, pure_eq_ok, Prod.exists, Prod.mk.injEq] at h
      obtain ⟨_, _, _, _, hop, rfl, _⟩ := h
      exact .idle (sameAccounts_ofSameScope (billing_frame hop).1.1)

end VesselCaller.Accounts
