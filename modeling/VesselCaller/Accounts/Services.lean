import VesselCaller.Accounts.Model

/-!
# Account services

`accounts.security`, `accounts.services` and `accounts.temporary_passwords` over one
account scope: action tokens, sessions, MFA challenges and the first sign-in of a
member that an administrator provisioned.

What the services draw at random comes with the request: primary keys and salts with
its context, raw tokens and temporary passwords as arguments.  What the password
validators and the TOTP check of third-party packages answer comes with the request
as well.  Addresses are compared after `strip().lower()`, which is how they are
stored; an address argument is meant to be in that form already.

## Main definitions

* `issueActionToken`, `consumeActionToken` — action tokens;
* `startSession`, `startMfaChallenge`, `revokeSessions` — sessions and challenges;
* `temporaryPasswordChallenge`, `completeTemporaryPassword` — the first sign-in.
-/

namespace VesselCaller.Accounts

open Lib

/-- `token_hash`. -/
def tokenHash (raw : String) : String := raw

/-- A password a request chooses, and whether Django's validators accept it. -/
structure NewPassword where
  raw : String
  strong : Bool
  deriving DecidableEq, Repr

/-- A `PasswordField`. -/
def NewPassword.validate (p : NewPassword) : Result Unit :=
  raiseIf (p.strong = false) (.validation "password" "This password is too weak.")

/-- `set_password` under a fresh salt. -/
def makePassword (salt : ℕ) (raw : String) : PasswordHash := ⟨salt, raw⟩

/-- `check_password`. -/
def PasswordHash.check (h : PasswordHash) (raw : String) : Bool := h.raw = raw

/-- `account_email_unavailable`: within the organization, or reserved by an identity
outside of it (`reserved`). -/
def accountEmailUnavailable (s : AccountScope) (email : String) (exclude : Option Id)
    (reserved : Bool) : Bool :=
  reserved || s.users.any fun u => u.email = email && some u.id ≠ exclude

/-- Insert a user under the table's constraints. -/
def insertUser (s : AccountScope) (user : User) : Result AccountScope := do
  raiseIf (user.id ∈ Table.keys s.users) (.integrity "accounts_user_pkey")
  raiseIf (user.email ∈ s.users.map User.email) (.integrity "accounts_user_org_email_ci_unique")
  return { s with users := s.users ++ [user] }

/-- Write a user back. -/
def putUser (s : AccountScope) (user : User) : AccountScope :=
  { s with users := Table.put user s.users }

/-- `bump_revision`. -/
def AccountScope.bumpRevision (s : AccountScope) : AccountScope :=
  { s with organization := { s.organization with revision := s.organization.revision + 1 } }

/-! ## Action tokens -/

/-- The access states in which tokens are issued and consumed. -/
def Organization.opensTokens (o : Organization) (allowPendingApproval : Bool) : Bool :=
  o.accessStatus = .active || (allowPendingApproval && o.accessStatus = .pendingApproval)

/-- A token that has not been used. -/
def ActionToken.unused (t : ActionToken) : Bool := t.usedAt.isNone

/-- Insert a token under the table's constraints. -/
def insertToken (s : AccountScope) (token : ActionToken) : Result AccountScope := do
  raiseIf (token.id ∈ Table.keys s.tokens) (.integrity "accounts_actiontoken_pkey")
  raiseIf (token.tokenHash ∈ s.tokens.map ActionToken.tokenHash)
    (.integrity "accounts_actiontoken_token_hash_key")
  return { s with tokens := s.tokens ++ [token] }

/-- The unused tokens of a user and a kind, deleted. -/
def dropTokens (s : AccountScope) (userId : Id) (kind : TokenKind) : AccountScope :=
  { s with tokens := s.tokens.filter fun t => !(t.userId = userId && t.kind = kind && t.unused) }

/-- `issue_action_token`.  Every caller has checked the organization before, so
`InactiveActionTarget` is never raised in a serialized run. -/
def issueActionToken (s : AccountScope) (ctx : Ctx) (userId : Id) (kind : TokenKind) (hours : ℕ)
    (raw : String) (metadata : TokenMetadata) (allowPendingApproval : Bool) :
    Result (AccountScope × ActionToken) := do
  raiseIf (s.organization.opensTokens allowPendingApproval = false)
    (.server "InactiveActionTarget")
  let token : ActionToken := {
    id := ctx.uuid 10
    userId := userId
    kind := kind
    tokenHash := tokenHash raw
    metadata := metadata
    expiresAt := ctx.now + hours * 3600
    usedAt := none }
  let s ← insertToken (dropTokens s userId kind) token
  return (s, token)

/-- `consume_action_token`. -/
def consumeActionToken (s : AccountScope) (ctx : Ctx) (raw : String) (kind : TokenKind)
    (allowPendingApproval : Bool) : Option (AccountScope × ActionToken × User) := do
  let token ← s.tokens.find? fun t => t.tokenHash = tokenHash raw && t.kind = kind && t.unused
  let user ← Table.get token.userId s.users
  if s.organization.opensTokens allowPendingApproval && decide (ctx.now < token.expiresAt) &&
      !user.isStaff && !user.isSuperuser then
    let token := { token with usedAt := some ctx.now }
    return ({ s with tokens := Table.put token s.tokens }, token, user)
  else none

/-! ## Sessions and challenges -/

/-- `revoke_sessions`, sparing the session `keep`. -/
def revokeSessions (s : AccountScope) (ctx : Ctx) (userId : Id) (keep : Option Id) : AccountScope :=
  { s with sessions := s.sessions.map fun session =>
      if session.userId = userId ∧ session.revokedAt = none ∧ some session.sessionKey ≠ keep then
        { session with revokedAt := some ctx.now }
      else session }

/-- `end_current_session` of the browser. -/
def endCurrentSession (s : AccountScope) (ctx : Ctx) (current : Option Id) : AccountScope :=
  { s with sessions := s.sessions.map fun session =>
      if some session.sessionKey = current then { session with revokedAt := some ctx.now }
      else session }

/-- `SESSION_ABSOLUTE_AGE`. -/
def sessionAbsoluteAge : ℕ := 30 * 86400

/-- `lock_active_account`. -/
def lockActiveAccount (s : AccountScope) (userId : Id) : Option User :=
  (Table.get userId s.users).filter fun u => u.isActive s.organization

/-- `start_session`: the caller turns `InactiveAccountError` into `inactive`.  Django's
`login` stamps `last_login`. -/
def startSession (s : AccountScope) (ctx : Ctx) (user : User) (inactive : ApiError) :
    Result AccountScope := do
  raiseIf (user.isActive s.organization = false ∨ user.loginIdentityApproved s.organization = false)
    inactive
  raiseIf (ctx.uuid 12 ∈ Table.keys s.sessions) (.integrity "accounts_usersession_pkey")
  let session : UserSession := {
    sessionKey := ctx.uuid 12
    userId := user.id
    absoluteExpiresAt := ctx.now + sessionAbsoluteAge
    revokedAt := none }
  return { putUser s { user with lastLogin := some ctx.now } with
    sessions := s.sessions ++ [session] }

/-- `start_mfa_challenge`. -/
def startMfaChallenge (s : AccountScope) (ctx : Ctx) (user : User) (inactive : ApiError) :
    Result (AccountScope × MFAChallenge) := do
  raiseIf (user.isActive s.organization = false ∨
      user.loginIdentityApproved s.organization = false ∨ user.mfaEnabled = false) inactive
  let rest := s.challenges.filter fun c => !(c.userId = user.id && c.usedAt.isNone)
  raiseIf (ctx.uuid 11 ∈ Table.keys rest) (.integrity "accounts_mfachallenge_pkey")
  let challenge : MFAChallenge := {
    id := ctx.uuid 11
    userId := user.id
    expiresAt := ctx.now + 300
    attempts := 0
    usedAt := none }
  return ({ s with challenges := rest ++ [challenge] }, challenge)

/-- `generate_recovery_codes`. -/
def generateRecoveryCodes (s : AccountScope) (userId : Id) (codes : List PasswordHash) :
    AccountScope :=
  { s with recoveryCodes := (s.recoveryCodes.filter fun c => c.userId ≠ userId) ++
      codes.map fun c => ⟨userId, c, none⟩ }

/-- `verify_totp`: without a secret no code is right; `valid` is what the TOTP check answers. -/
def verifyTotp (u : User) (valid : Bool) : Bool := u.mfaSecret ≠ "" && valid

/-- `use_recovery_code`: the first unused code of the user that matches. -/
def useRecoveryCode (s : AccountScope) (ctx : Ctx) (userId : Id) (raw : String) :
    Option AccountScope :=
  let matching := fun (c : MFARecoveryCode) =>
    c.userId = userId && c.usedAt.isNone && c.code.check raw.toUpper
  match s.recoveryCodes.findIdx? matching with
  | some i => some { s with recoveryCodes :=
      s.recoveryCodes.modify i fun c => { c with usedAt := some ctx.now } }
  | none => none

/-! ## Temporary passwords -/

/-- `TEMPORARY_PASSWORD_DAYS`, in seconds. -/
def temporaryPasswordLife : ℕ := 7 * 86400

/-- `PASSWORD_CHANGE_MINUTES`, in seconds. -/
def passwordChangeLife : ℕ := 5 * 60

/-- `CHANGE_ERROR`. -/
def changeError : ApiError :=
  .validation "token" "This password-change request is invalid or expired. Sign in again."

/-- `_temporary_identity_available`. -/
def temporaryIdentityAvailable (o : Organization) (u : User) (now : Instant) : Bool :=
  u.status = .active && o.kind = .customer && o.isAccessActive && !u.isStaff && !u.isSuperuser &&
    u.adminProvisionedAt.isSome && u.passwordChangeRequired &&
    u.temporaryPasswordExpiresAt.any (now < ·)

/-- `temporary_password_challenge`: the one account of the organization with the address
that awaits its first password. -/
def temporaryPasswordChallenge (s : AccountScope) (ctx : Ctx) (email password : String)
    (raw : String) : Result (Option (AccountScope × ActionToken)) :=
  match s.users.find? fun u => u.email = email && u.passwordChangeRequired with
  | none => pure none
  | some user =>
      match user.temporaryPasswordExpiresAt with
      | none => pure none
      | some expiry =>
          if temporaryIdentityAvailable s.organization user ctx.now &&
              user.password.check password then do
            let token : ActionToken := {
              id := ctx.uuid 10
              userId := user.id
              kind := .temporaryPasswordChange
              tokenHash := tokenHash raw
              metadata := { credentialVersion := some user.password }
              expiresAt := min (ctx.now + passwordChangeLife) expiry
              usedAt := none }
            let s ← insertToken (dropTokens s user.id .temporaryPasswordChange) token
            return some (s, token)
          else pure none

/-- The account once its temporary password has been replaced. -/
def User.withChosenPassword (u : User) (ctx : Ctx) (raw : String) : User :=
  { u with
    password := makePassword (ctx.uuid 20) raw
    passwordChangeRequired := false
    temporaryPasswordExpiresAt := none
    mfaGraceEndsAt :=
      if (u.role = .admin ∨ u.role = .finance) ∧ u.mfaEnabled = false then some (ctx.now + mfaGrace)
      else u.mfaGraceEndsAt }

/-- Mark every unused token of a user that `which` selects as used. -/
def useTokens (s : AccountScope) (ctx : Ctx) (userId : Id) (which : ActionToken → Bool) :
    AccountScope :=
  { s with tokens := s.tokens.map fun t =>
      if t.userId = userId ∧ t.unused = true ∧ which t = true then
        { t with usedAt := some ctx.now }
      else t }

/-- `complete_temporary_password`. -/
def completeTemporaryPassword (s : AccountScope) (ctx : Ctx) (raw : String)
    (password : NewPassword) : Result (AccountScope × User) := do
  let challenge ← orRaise
    (s.tokens.find? fun t =>
      t.tokenHash = tokenHash raw && t.kind = .temporaryPasswordChange && t.unused) changeError
  raiseIf (s.organization.kind ≠ .customer ∨ s.organization.accessStatus ≠ .active) changeError
  let user ← orRaise (Table.get challenge.userId s.users) changeError
  raiseIf (challenge.expiresAt ≤ ctx.now ∨
      temporaryIdentityAvailable s.organization user ctx.now = false ∨
      challenge.metadata.credentialVersion ≠ some user.password) changeError
  password.validate
  raiseIf (user.password.check password.raw = true)
    (.validation "password" "Choose a password different from the temporary password")
  let user := user.withChosenPassword ctx password.raw
  -- The challenge itself is one of the unused tokens of its kind.
  let s := useTokens (putUser s user) ctx user.id fun t => t.kind = .temporaryPasswordChange
  return (revokeSessions s ctx user.id none, user)

end VesselCaller.Accounts
