import VesselCaller.Accounts.Join

/-!
# Sign-in and self-service

`api.auth_views` over one account scope: what anonymous visitors and signed-in members
do about their own accounts, and the requests of the account endpoints as a whole.

A login without an organization hint looks at the accounts of every organization with
that address.  The model takes up the request where it has chosen the account of this
organization; a request that chooses another one does not touch this scope.

## Main definitions

* `openSession` — where every way of signing in ends: a session, or the challenge of a second
  factor;
* `login`, `verifyMfa`, `resetPassword`, `changePassword`, `putProfile` — the views;
* `UserOp`, `AuthOp` — the requests of the account endpoints, each with its handler.
-/

namespace VesselCaller.Accounts

open Lib

/-! ## Payloads -/

inductive Response where
  | user (data : UserData) (rev : ℕ)
  | revision (rev : ℕ)
  | temporaryPassword (data : UserData) (rev : ℕ) (password : String)
  | member (data : UserData)
  | invitation (data : Invitation)
  | link (data : OrganizationSignupLink) (rev : ℕ)
  | joinApproved (data : JoinRequestData) (user : Option UserData) (rev : ℕ)
  | joinRejected (data : JoinRequestData) (rev : ℕ)
  /-- An answer that says the same whatever happened. -/
  | accepted (detail : String)
  | noContent
  | verified (approvalPending : Bool)
  | passwordChange (token : String) (expiresAt : Instant)
  | mfaRequired (challenge : Id)
  | session (data : UserData)
  | profile (data : UserData) (verificationRequired : Bool)
  /-- An error answered after its bookkeeping was committed. -/
  | failed (error : ApiError)
  deriving DecidableEq, Repr

/-- A session that has been neither revoked nor outlived. -/
def UserSession.usable (k : UserSession) (now : Instant) : Bool :=
  k.revokedAt.isNone && decide (now < k.absoluteExpiresAt)

/-- `ManagedSessionMiddleware` and `IsActiveAccount`: the active account whose session the
request carries. -/
def authenticate (s : AccountScope) (now : Instant) (session : Id) : Result User := do
  let managed ← orRaise ((Table.get session s.sessions).filter fun k => k.usable now)
    (.permissionDenied "Authentication credentials were not provided.")
  orRaise (lockActiveAccount s managed.userId)
    (.permissionDenied "Authentication credentials were not provided.")

/-- `_require_recent_platform_mfa`. -/
def requireRecentPlatformMfa (s : AccountScope) (recentMfa : Bool) : Result Unit :=
  raiseIf (s.organization.kind = .platform ∧ recentMfa = false)
    (.permissionDenied "Recent multi-factor verification is required")

/-! ## Proving an address -/

/-- The account once its new address is proven. -/
def User.withEmail (u : User) (ctx : Ctx) (email : String) : User :=
  { u with email := email, pendingEmail := "", emailVerifiedAt := some ctx.now }

/-- The account once its first address is proven. -/
def User.verified (u : User) (ctx : Ctx) : User :=
  { u with status := .active, emailVerifiedAt := some ctx.now }

/-- `VerifyEmailView.post`. -/
def verifyEmail (s : AccountScope) (ctx : Ctx) (raw : String) (reserved : Bool) :
    Result (AccountScope × Response) := do
  let (s, token, user) ← orRaise (consumeActionToken s ctx raw .verifyEmail true)
    (.validation "token" "This verification link is invalid or expired")
  let response := Response.verified (s.organization.accessStatus = .pendingApproval)
  if token.metadata.pendingEmail ≠ "" then do
    let pending := token.metadata.pendingEmail
    raiseIf (accountEmailUnavailable s pending (some user.id) reserved = true)
      (.validation "token" "That email address is no longer available")
    return (putUser s (user.withEmail ctx pending), response)
  else
    let s := putUser s (user.verified ctx)
    return ({ s with organization := { s.organization with registered := true } }.bumpRevision,
      response)

/-- `ResendVerificationView.post`. -/
def resendVerification (s : AccountScope) (ctx : Ctx) (email raw : String) (throttled : Bool) :
    Result (AccountScope × Response) := do
  let response := Response.accepted "If the account is pending, a new link has been sent"
  if throttled then return (s, response)
  else
    match s.users.find? fun u => u.email = email && u.emailVerifiedAt.isNone &&
        s.organization.opensTokens true && !u.isStaff && !u.isSuperuser with
    | none => return (s, response)
    | some user => do
        let (s, _) ← issueActionToken s ctx user.id .verifyEmail 24 raw {} true
        return (s, response)

/-! ## Signing in -/

/-- `EmailBackend._platform_login_allowed`. -/
def platformLoginAllowed (s : AccountScope) (u : User) (now : Instant) : Bool :=
  s.organization.kind ≠ .platform || u.isStaff || u.isSuperuser || activePlatformGrant s u now

/-- `EmailBackend.password_proven_accounts` for a product login, within the scope. -/
def passwordProven (s : AccountScope) (u : User) (now : Instant) (password : String) : Bool :=
  let normal := u.isActive s.organization && platformLoginAllowed s u now
  let temporary := temporaryIdentityAvailable s.organization u now
  (normal || temporary) && !u.isStaff && !u.isSuperuser &&
    (temporary || u.loginIdentityApproved s.organization) && u.password.check password

/-- A second factor if the account has one, a session otherwise. -/
def openSession (s : AccountScope) (ctx : Ctx) (user : User) (inactive : ApiError) :
    Result (AccountScope × Response) := do
  if user.mfaEnabled then
    let (s, challenge) ← startMfaChallenge s ctx user inactive
    return (s, .mfaRequired challenge.id)
  else
    let s ← startSession s ctx user inactive
    return (s, .session (userData s ctx.now { user with lastLogin := some ctx.now }))

/-- `LoginView.post` from the account on that the look-up has selected.  The look-up takes
no lock, so the row it read may be out of date by now. -/
def continueLogin (s : AccountScope) (ctx : Ctx) (selected : User) (email password raw : String)
    (current : Option Id) : Result (AccountScope × Response) := do
  let invalid := ApiError.unauthorized "Invalid email or password"
  match ← temporaryPasswordChallenge s ctx email password raw with
  | some (s, token) =>
      return (endCurrentSession s ctx current, .passwordChange raw token.expiresAt)
  | none => do
      raiseIf (selected.passwordChangeRequired = true) invalid
      let user ← orRaise (lockActiveAccount s selected.id) invalid
      raiseIf (user.password.check password = false ∨ user.isStaff = true ∨
        user.isSuperuser = true ∨ user.loginIdentityApproved s.organization = false) invalid
      openSession s ctx user invalid

/-- `LoginView.post`. -/
def login (s : AccountScope) (ctx : Ctx) (email password raw : String) (current : Option Id)
    (throttled : Bool) : Result (AccountScope × Response) := do
  let invalid := ApiError.unauthorized "Invalid email or password"
  raiseIf (throttled = true) (.unauthorized "Too many attempts. Try again later")
  let selected ← orRaise (s.users.find? fun u => u.email = email) invalid
  raiseIf (passwordProven s selected ctx.now password = false) invalid
  continueLogin s ctx selected email password raw current

/-- `CompleteTemporaryPasswordView.post`. -/
def completeFirstSignIn (s : AccountScope) (ctx : Ctx) (raw : String) (password : NewPassword) :
    Result (AccountScope × Response) := do
  let (s, user) ← completeTemporaryPassword s ctx raw password
  openSession s ctx user (.server "InactiveAccountError")

/-- A request to `MFAVerifyView`.  `totp` is what the TOTP check answers, `throttled` and
`blocked` what the failure counters of the cache say, and `customerSession` whether the
browser carries a customer's session. -/
structure MfaAttempt where
  challenge : Id
  code : String
  totp : Bool
  throttled : Bool
  blocked : Bool
  customerSession : Bool
  deriving DecidableEq, Repr

/-- What a verification comes to once the attempt has been counted. -/
def judgeMfaAttempt (s : AccountScope) (ctx : Ctx) (challenge : MFAChallenge) (user : User)
    (attempt : MfaAttempt) : Result (AccountScope × Except ApiError Response) :=
  let expired := ApiError.unauthorized "Invalid or expired MFA challenge"
  if user.isActive s.organization = false then pure (s, .error expired)
  else
    match if verifyTotp user attempt.totp then some s
        else useRecoveryCode s ctx user.id attempt.code with
    | none => pure (s, .error (.unauthorized "Invalid authentication code"))
    | some s =>
        let used := { challenge with usedAt := some ctx.now }
        let s := { s with challenges := Table.put used s.challenges }
        match startSession s ctx user expired with
        | .ok s =>
            pure (s, .ok (.session (userData s ctx.now { user with lastLogin := some ctx.now })))
        | .error e => if e = expired then pure (s, .error e) else .error e

/-- `MFAVerifyView.post`: a failed verification still counts the attempt, unless the
request runs in a customer's transaction, which rolls it back. -/
def verifyMfa (s : AccountScope) (ctx : Ctx) (attempt : MfaAttempt) :
    Result (AccountScope × Response) := do
  let expired := ApiError.unauthorized "Invalid or expired MFA challenge"
  raiseIf (attempt.throttled = true) (.unauthorized "Too many attempts. Try again later")
  let challenge ← orRaise ((Table.get attempt.challenge s.challenges).filter fun c =>
    c.usedAt.isNone) expired
  raiseIf (s.organization.accessStatus ≠ .active) expired
  raiseIf (challenge.expiresAt ≤ ctx.now ∨ 5 ≤ challenge.attempts) expired
  raiseIf (attempt.blocked = true) expired
  let challenge := { challenge with attempts := challenge.attempts + 1 }
  let s := { s with challenges := Table.put challenge s.challenges }
  let user ← orRaise (Table.get challenge.userId s.users) (.server "User.DoesNotExist")
  match ← judgeMfaAttempt s ctx challenge user attempt with
  | (s, .ok response) => return (s, response)
  | (s, .error e) => do
      raiseIf (attempt.customerSession = true) e
      return (s, .failed e)

/-! ## Passwords -/

/-- `ForgotPasswordView.post`. -/
def forgotPassword (s : AccountScope) (ctx : Ctx) (email raw : String) (throttled : Bool) :
    Result (AccountScope × Response) := do
  let response := Response.accepted "If the account exists, reset instructions have been sent"
  if throttled then return (s, response)
  else
    match s.users.find? fun u => u.email = email && u.status = .active &&
        !u.passwordChangeRequired && s.organization.isAccessActive && !u.isStaff &&
        !u.isSuperuser with
    | none => return (s, response)
    | some user => do
        let (s, _) ← issueActionToken s ctx user.id .resetPassword 1 raw {} false
        return (s, response)

/-- `ResetPasswordView.post`. -/
def resetPassword (s : AccountScope) (ctx : Ctx) (raw : String) (password : NewPassword) :
    Result (AccountScope × Response) := do
  password.validate
  let invalid := ApiError.validation "token" "This reset link is invalid or expired"
  let (s, token, user) ← orRaise (consumeActionToken s ctx raw .resetPassword false) invalid
  raiseIf (user.passwordChangeRequired = true) invalid
  raiseIf (token.metadata.platformSetup = true ∧ (s.organization.kind ≠ .platform ∨
      user.isStaff = true ∨ user.isSuperuser = true ∨ activePlatformGrant s user ctx.now = false))
    invalid
  let user := { user with password := makePassword (ctx.uuid 20) password.raw }
  let user := if token.metadata.platformSetup then
      { user with
        status := .active
        emailVerifiedAt := some ctx.now
        mfaGraceEndsAt := some ctx.now }
    else user
  return (revokeSessions (putUser s user) ctx user.id none, .accepted "Password reset")

/-- `rotate_current_session`: the session goes on under a new key. -/
def rotateCurrentSession (s : AccountScope) (ctx : Ctx) (userId current : Id) :
    Result AccountScope := do
  raiseIf (ctx.uuid 12 ∈ Table.keys s.sessions) (.integrity "accounts_usersession_pkey")
  let old := s.sessions.find? fun session =>
    session.sessionKey = current && session.userId = userId
  let session : UserSession := {
    sessionKey := ctx.uuid 12
    userId := userId
    absoluteExpiresAt := (old.map UserSession.absoluteExpiresAt).getD (ctx.now + sessionAbsoluteAge)
    revokedAt := none }
  return { s with sessions := (s.sessions.filter fun session =>
    !(session.sessionKey = current && session.userId = userId)) ++ [session] }

/-- `ChangePasswordView.post` for the account it has locked. -/
def changePasswordOf (s : AccountScope) (ctx : Ctx) (user : User) (session : Id)
    (currentPassword : String) (password : NewPassword) (recentMfa : Bool) :
    Result (AccountScope × Response) := do
  password.validate
  requireRecentPlatformMfa s recentMfa
  raiseIf (user.password.check currentPassword = false)
    (.validation "currentPassword" "Current password is incorrect")
  let user := { user with password := makePassword (ctx.uuid 20) password.raw }
  let s := revokeSessions (putUser s user) ctx user.id (some session)
  let s ← rotateCurrentSession s ctx user.id session
  return (s, .accepted "Password changed")

/-- `ChangePasswordView.post`. -/
def changePassword (s : AccountScope) (ctx : Ctx) (session : Id) (currentPassword : String)
    (password : NewPassword) (recentMfa : Bool) : Result (AccountScope × Response) := do
  let user ← authenticate s ctx.now session
  changePasswordOf s ctx user session currentPassword password recentMfa

/-! ## The own profile -/

/-- A `ProfilePatchSerializer` body, and what an email change draws. -/
structure ProfileInput where
  name : Option String := none
  email : Option String := none
  currentPassword : String := ""
  reserved : Bool := false
  recentMfa : Bool := true
  token : String := ""
  deriving DecidableEq, Repr

/-- The address a profile update asks for, if it is a new one. -/
def ProfileInput.newEmail (d : ProfileInput) (u : User) : Option String :=
  d.email.filter fun email => email ≠ "" && email ≠ u.email

/-- `ProfileView.put` for the account it has locked. -/
def putProfileOf (s : AccountScope) (ctx : Ctx) (user : User) (data : ProfileInput) :
    Result (AccountScope × Response) := do
  raiseIf (data.name.all (charField 255 false) = false) (.validation "name" "Invalid value.")
  requireRecentPlatformMfa s data.recentMfa
  let user := { user with name := data.name.getD user.name }
  match data.newEmail user with
  | none =>
      let s := putUser s user
      return (s, .profile (userData s ctx.now user) false)
  | some email => do
      raiseIf (user.password.check data.currentPassword = false)
        (.validation "currentPassword" "Current password is required to change your email")
      raiseIf (accountEmailUnavailable s email (some user.id) data.reserved = true)
        (.validation "email" "That email address is already in use")
      let user := { user with pendingEmail := email }
      let (s, _) ← issueActionToken s ctx user.id .verifyEmail 24 data.token
        { pendingEmail := email } false
      let s := putUser s user
      return (s, .profile (userData s ctx.now user) true)

/-- `ProfileView.put`. -/
def putProfile (s : AccountScope) (ctx : Ctx) (session : Id) (data : ProfileInput) :
    Result (AccountScope × Response) := do
  let user ← authenticate s ctx.now session
  putProfileOf s ctx user data

/-! ## Multi-factor authentication -/

/-- `MFAConfirmView.post` for the account it has locked.  `secret` is the secret of a fresh
setup in the browser's session, empty if there is none, and `valid` what the TOTP check
answers. -/
def confirmMfaOf (s : AccountScope) (ctx : Ctx) (user : User) (session : Id) (secret : String)
    (valid : Bool) (codes : List PasswordHash) : Result (AccountScope × Response) := do
  raiseIf (secret = "" ∨ valid = false) (.validation "code" "Invalid authentication code")
  let user := { user with mfaSecret := secret, mfaEnabledAt := some ctx.now }
  let s := generateRecoveryCodes (putUser s user) user.id codes
  return (revokeSessions s ctx user.id (some session), .accepted "Recovery codes")

/-- `MFAConfirmView.post`. -/
def confirmMfa (s : AccountScope) (ctx : Ctx) (session : Id) (secret : String) (valid : Bool)
    (codes : List PasswordHash) : Result (AccountScope × Response) := do
  let user ← authenticate s ctx.now session
  confirmMfaOf s ctx user session secret valid codes

/-- `MFARecoveryCodesView.post` for the account it has locked. -/
def regenerateRecoveryCodesOf (s : AccountScope) (user : User) (valid recentMfa : Bool)
    (codes : List PasswordHash) : Result (AccountScope × Response) := do
  requireRecentPlatformMfa s recentMfa
  raiseIf (verifyTotp user valid = false) (.validation "code" "Invalid authentication code")
  return (generateRecoveryCodes s user.id codes, .accepted "Recovery codes")

/-- `MFARecoveryCodesView.post`. -/
def regenerateRecoveryCodes (s : AccountScope) (ctx : Ctx) (session : Id)
    (valid recentMfa : Bool) (codes : List PasswordHash) : Result (AccountScope × Response) := do
  let user ← authenticate s ctx.now session
  regenerateRecoveryCodesOf s user valid recentMfa codes

/-- `MFADisableView.delete` for the account it has locked. -/
def disableMfaOf (s : AccountScope) (ctx : Ctx) (user : User) (session : Id) (totp : Bool)
    (password : String) : Result (AccountScope × Response) := do
  raiseIf (s.organization.kind = .platform)
    (.validation "mfa" "Platform multi-factor authentication requires operator recovery")
  raiseIf (user.mfaEnabled = false)
    (.validation "mfa" "Multi-factor authentication is not enabled")
  raiseIf (verifyTotp user totp = false ∧ user.password.check password = false)
    (.validation "code" "Password or authentication code is required")
  let user := user.withoutMfa ctx
  let s := generateRecoveryCodes (putUser s user) user.id []
  return (revokeSessions s ctx user.id (some session), .noContent)

/-- `MFADisableView.delete`. -/
def disableMfa (s : AccountScope) (ctx : Ctx) (session : Id) (totp : Bool) (password : String) :
    Result (AccountScope × Response) := do
  let user ← authenticate s ctx.now session
  disableMfaOf s ctx user session totp password

/-! ## Requests -/

/-- What administrators ask for; every operation needs `users.manage`. -/
inductive UserOp where
  | patchUser (user : Id) (data : UserPatch)
  | removeUser (user : Id)
  | provision (data : ProvisionInput)
  | regenerate (user : Id) (temporaryPassword : String)
  | dispatchReset (user : Id) (raw : String)
  | resetMfa (user : Id)
  | invite (name email : String) (role : Role) (reserved : Bool) (raw : String)
  | resendInvitation (invitation : Id) (reserved : Bool) (raw : String)
  | revokeInvitation (invitation : Id)
  | createSignupLink (expiresInDays : ℕ) (raw : String)
  | revokeSignupLink (link : Id)
  | reviewJoinRequest (request : Id) (approve : Option Role) (reserved : Bool)

/-- The handler of an authorized administration request. -/
def UserOp.handle (s : AccountScope) (ctx : Ctx) (actor : Id) :
    UserOp → Result (AccountScope × Response)
  | .patchUser userId data => do
      let (s, user) ← Accounts.patchUser s ctx actor userId data
      return (s, .user (userData s ctx.now user) s.organization.revision)
  | .removeUser userId => do
      let s ← Accounts.removeUser s ctx actor userId
      return (s, .revision s.organization.revision)
  | .provision data => do
      let (s, user) ← provisionTemporaryUser s ctx actor data
      return (s, .temporaryPassword (userData s ctx.now user) s.organization.revision
        data.temporaryPassword)
  | .regenerate userId temporaryPassword => do
      let (s, user) ← regenerateTemporaryPassword s ctx actor userId temporaryPassword
      return (s, .temporaryPassword (userData s ctx.now user) s.organization.revision
        temporaryPassword)
  | .dispatchReset userId raw => do
      let s ← dispatchPasswordReset s ctx userId raw
      return (s, .accepted "Password reset email sent")
  | .resetMfa userId => do
      let (s, user) ← Accounts.resetMfa s ctx actor userId
      return (s, .member (userData s ctx.now user))
  | .invite name email role reserved raw => do
      let (s, invitation) ← createInvitation s ctx actor name email role reserved raw
      return (s, .invitation invitation)
  | .resendInvitation invitationId reserved raw => do
      let (s, invitation) ← Accounts.resendInvitation s ctx invitationId reserved raw
      return (s, .invitation invitation)
  | .revokeInvitation invitationId => do
      let s ← Accounts.revokeInvitation s ctx invitationId
      return (s, .noContent)
  | .createSignupLink expiresInDays raw => do
      let (s, link) ← Accounts.createSignupLink s ctx actor expiresInDays raw
      return (s, .link link s.organization.revision)
  | .revokeSignupLink linkId => do
      let s ← Accounts.revokeSignupLink s ctx linkId
      return (s, .noContent)
  | .reviewJoinRequest requestId approve reserved => do
      let (s, request) ← Accounts.reviewJoinRequest s ctx actor requestId approve reserved
      let data := joinRequestData s ctx.now request
      if approve.isSome then
        return (s, .joinApproved data ((approvedUser s request).map (userData s ctx.now))
          s.organization.revision)
      else return (s, .joinRejected data s.organization.revision)

/-- What anonymous visitors and signed-in members ask for. -/
inductive AuthOp where
  | verifyEmail (raw : String) (reserved : Bool)
  | resendVerification (email raw : String) (throttled : Bool)
  | login (email password raw : String) (current : Option Id) (throttled : Bool)
  /-- A login whose look-up ran before requests that were served in between. -/
  | lateLogin (selected : User) (email password raw : String) (current : Option Id)
  | completeTemporaryPassword (raw : String) (password : NewPassword)
  | verifyMfa (attempt : MfaAttempt)
  | forgotPassword (email raw : String) (throttled : Bool)
  | resetPassword (raw : String) (password : NewPassword)
  | acceptInvitation (raw : String) (name : Option String) (password : NewPassword)
      (reserved : Bool)
  | submitJoinRequest (raw name email : String) (reserved : Bool) (verification : String)
  | verifyJoinRequest (raw : String) (password : NewPassword)
  | changePassword (session : Id) (currentPassword : String) (password : NewPassword)
      (recentMfa : Bool)
  | putProfile (session : Id) (data : ProfileInput)
  | confirmMfa (session : Id) (secret : String) (valid : Bool) (codes : List PasswordHash)
  | regenerateRecoveryCodes (session : Id) (valid recentMfa : Bool) (codes : List PasswordHash)
  | disableMfa (session : Id) (totp : Bool) (password : String)
  | logout (session : Id)
  | revokeSession (session other : Id)
  | signOutEverywhere (session : Id)

/-- The handler of a sign-in or self-service request. -/
def AuthOp.handle (s : AccountScope) (ctx : Ctx) : AuthOp → Result (AccountScope × Response)
  | .verifyEmail raw reserved => Accounts.verifyEmail s ctx raw reserved
  | .resendVerification email raw throttled =>
      Accounts.resendVerification s ctx email raw throttled
  | .login email password raw current throttled =>
      Accounts.login s ctx email password raw current throttled
  | .lateLogin selected email password raw current =>
      continueLogin s ctx selected email password raw current
  | .completeTemporaryPassword raw password => completeFirstSignIn s ctx raw password
  | .verifyMfa attempt => Accounts.verifyMfa s ctx attempt
  | .forgotPassword email raw throttled => Accounts.forgotPassword s ctx email raw throttled
  | .resetPassword raw password => Accounts.resetPassword s ctx raw password
  | .acceptInvitation raw name password reserved => do
      let s ← Accounts.acceptInvitation s ctx raw name password reserved
      return (s, .accepted "Invitation accepted")
  | .submitJoinRequest raw name email reserved verification => do
      let (s, _) ← Accounts.submitJoinRequest s ctx raw name email reserved verification
      return (s, .accepted
        "Check your email to verify your request. Access requires administrator approval.")
  | .verifyJoinRequest raw password => do
      let s ← Accounts.verifyJoinRequest s ctx raw password
      return (s, .accepted "Email verified. Your request is awaiting administrator approval.")
  | .changePassword session currentPassword password recentMfa =>
      Accounts.changePassword s ctx session currentPassword password recentMfa
  | .putProfile session data => Accounts.putProfile s ctx session data
  | .confirmMfa session secret valid codes => Accounts.confirmMfa s ctx session secret valid codes
  | .regenerateRecoveryCodes session valid recentMfa codes =>
      Accounts.regenerateRecoveryCodes s ctx session valid recentMfa codes
  | .disableMfa session totp password => Accounts.disableMfa s ctx session totp password
  | .logout session => do
      let _ ← authenticate s ctx.now session
      return (endCurrentSession s ctx (some session), .noContent)
  | .revokeSession session other => do
      let user ← authenticate s ctx.now session
      raiseIf (s.sessions.any (fun k =>
        k.sessionKey = other && k.userId = user.id && k.revokedAt.isNone) = false) (.notFound "")
      return (endCurrentSession s ctx (some other), .noContent)
  | .signOutEverywhere session => do
      let user ← authenticate s ctx.now session
      return (endCurrentSession (revokeSessions s ctx user.id none) ctx (some session), .noContent)

end VesselCaller.Accounts
