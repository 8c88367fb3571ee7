import VesselCaller.Accounts.Services

/-!
# User administration

`api.user_views`: what an administrator does to the members of the organization and to
its invitations; and `accounts.organization_join` with its views: sign-up links and
the review of the requests they bring in.

## Main definitions

* `patchUser`, `removeUser`, `resetMfa` — the member, with the guard `lastAdmin`;
* `provisionTemporaryUser`, `regenerateTemporaryPassword` — temporary passwords;
* `createInvitation`, `acceptInvitation` — invitations.
-/

namespace VesselCaller.Accounts

open Lib

/-- The administrator that acts must still be one under the lifecycle lock. -/
def requireAdmin (s : AccountScope) (actor : Id) (missing : ApiError) : Result User := do
  raiseIf (s.organization.kind ≠ .customer ∨ s.organization.accessStatus ≠ .active) missing
  let admin ← orRaise (Table.get actor s.users) (.server "User.DoesNotExist")
  raiseIf (admin.isActive s.organization = false ∨ admin.role ≠ .admin ∨ admin.isStaff = true ∨
      admin.isSuperuser = true)
    (.permissionDenied "An active organization Admin must add this user")
  return admin

def getUser (s : AccountScope) (userId : Id) : Result User :=
  orRaise (Table.get userId s.users) (.notFound "User not found")

/-- The grace period a new role with sensitive permissions starts with. -/
def graceFor (role : Role) (now : Instant) : Option Instant :=
  if role = .admin ∨ role = .finance then some (now + mfaGrace) else none

/-! ## Members -/

/-- A `UserPatchSerializer` body. -/
structure UserPatch where
  name : Option String := none
  role : Option Role := none
  status : Option UserStatus := none
  deriving DecidableEq, Repr

def UserPatch.validate (d : UserPatch) : Result Unit := do
  raiseIf (d.name.all (charField 255 false) = false) (.validation "name" "Invalid value.")
  raiseIf (d.status.all (fun s => s = .active || s = .suspended) = false)
    (.validation "status" "Invalid value.")

/-- The member with the patch applied. -/
def User.patched (u : User) (d : UserPatch) : User :=
  { u with
    name := d.name.getD u.name
    role := d.role.getD u.role
    status := d.status.getD u.status }

/-- An administrator that can sign in. -/
def User.usableAdmin (u : User) : Bool :=
  u.role = .admin && u.status = .active && !u.passwordChangeRequired

/-- Whether the organization would be left without a usable administrator. -/
def lastAdmin (s : AccountScope) (member : User) : Bool :=
  member.usableAdmin && (s.users.filter User.usableAdmin).length ≤ 1

/-- `UserDetailView.patch`. -/
def patchUser (s : AccountScope) (ctx : Ctx) (actor userId : Id) (data : UserPatch) :
    Result (AccountScope × User) := do
  data.validate
  let member ← getUser s userId
  raiseIf (member.id = actor ∧
      (data.role.any (· ≠ member.role) = true ∨ data.status.any (· ≠ member.status) = true))
    (.validation "" "You cannot change your own role or status")
  raiseIf (lastAdmin s member = true ∧
      (data.role.getD member.role ≠ .admin ∨ data.status.getD member.status ≠ .active))
    (.validation "" "The organization must keep at least one active Admin")
  let patched := member.patched data
  let s := putUser s patched
  let s := if patched.role ≠ member.role ∨ patched.status ≠ member.status then
    revokeSessions s ctx userId none else s
  return (s.bumpRevision, patched)

/-- The address that replaces a removed member's. -/
def removedEmail (userId : Id) : String := "removed+" ++ toString userId ++ "@invalid.local"

/-- The member once removed. -/
def User.removed (u : User) (ctx : Ctx) : User :=
  { u with
    status := .removed
    removedAt := some ctx.now
    email := removedEmail u.id
    pendingEmail := "" }

/-- `UserDetailView.delete`. -/
def removeUser (s : AccountScope) (ctx : Ctx) (actor userId : Id) : Result AccountScope := do
  let member ← getUser s userId
  raiseIf (member.id = actor) (.validation "" "You cannot remove your own account")
  raiseIf (lastAdmin s member = true)
    (.validation "" "The organization must keep at least one active Admin")
  raiseIf (s.users.any (fun u => u.id ≠ member.id && u.email = removedEmail member.id) = true)
    (.integrity "accounts_user_org_email_ci_unique")
  return (revokeSessions (putUser s (member.removed ctx)) ctx userId none).bumpRevision

/-- A `TemporaryPasswordCreateSerializer` body, and what provisioning draws. -/
structure ProvisionInput where
  name : String
  email : String
  role : Role
  replacePendingInvitation : Bool := false
  reserved : Bool := false
  temporaryPassword : String
  deriving DecidableEq, Repr

/-- A pending invitation of an address. -/
def Invitation.pendingFor (i : Invitation) (email : String) : Bool :=
  i.email = email && i.status = .pending

/-- The pending invitations of an address, revoked. -/
def revokeInvitations (s : AccountScope) (ctx : Ctx) (email : String) : AccountScope :=
  { s with invitations := s.invitations.map fun i =>
      if i.pendingFor email then { i with status := .revoked, revokedAt := some ctx.now } else i }

/-- A join request that waits for its requester or for an administrator. -/
def OrganizationJoinRequest.isOpen (r : OrganizationJoinRequest) : Bool :=
  r.status = .unverified || r.status = .pending

/-- The member `provision_temporary_user` creates. -/
def provisionedUser (ctx : Ctx) (data : ProvisionInput) : User where
  id := ctx.uuid 0
  name := data.name
  email := data.email
  pendingEmail := ""
  role := data.role
  status := .active
  emailVerifiedAt := none
  adminProvisionedAt := some ctx.now
  passwordChangeRequired := true
  temporaryPasswordExpiresAt := some (ctx.now + temporaryPasswordLife)
  password := makePassword (ctx.uuid 20) data.temporaryPassword
  mfaSecret := ""
  mfaEnabledAt := none
  mfaGraceEndsAt := none
  isStaff := false
  isSuperuser := false
  lastLogin := none
  createdAt := ctx.now
  removedAt := none

/-- `provision_temporary_user`, with the revision the view bumps. -/
def provisionTemporaryUser (s : AccountScope) (ctx : Ctx) (actor : Id) (data : ProvisionInput) :
    Result (AccountScope × User) := do
  raiseIf (charField 255 false data.name = false) (.validation "name" "Invalid value.")
  let _admin ← requireAdmin s actor (.validation "" "This organization cannot add users")
  raiseIf (accountEmailUnavailable s data.email none data.reserved = true ∨
      s.joinRequests.any (fun r => r.email = data.email && r.isOpen) = true)
    (.validation "email" "A user or pending invitation with this email already exists")
  raiseIf (data.replacePendingInvitation = false ∧
      s.invitations.any (fun i => i.pendingFor data.email && decide (ctx.now < i.expiresAt)) = true)
    (.conflict "An email invitation is pending. Replace it with a temporary-password user to continue.")
  let user := provisionedUser ctx data
  let s ← insertUser s user
  return ((revokeInvitations s ctx data.email).bumpRevision, user)

/-- `regenerate_temporary_password`, with the revision the view bumps. -/
def regenerateTemporaryPassword (s : AccountScope) (ctx : Ctx) (actor userId : Id)
    (temporaryPassword : String) : Result (AccountScope × User) := do
  let admin ← requireAdmin s actor (.notFound "User not found")
  let user ← getUser s userId
  raiseIf (user.id = admin.id ∨ user.isStaff = true ∨ user.isSuperuser = true)
    (.permissionDenied "This user cannot receive a temporary password")
  raiseIf (user.status ≠ .active ∨ user.adminProvisionedAt = none ∨
      user.passwordChangeRequired = false)
    (.validation ""
      "Only users awaiting their first password change can receive a new temporary password")
  let user := { user with
    password := makePassword (ctx.uuid 20) temporaryPassword
    temporaryPasswordExpiresAt := some (ctx.now + temporaryPasswordLife) }
  let s := useTokens (putUser s user) ctx user.id fun _ => true
  let s := { s with challenges := s.challenges.map fun c =>
    if c.userId = user.id ∧ c.usedAt = none then { c with usedAt := some ctx.now } else c }
  return ((revokeSessions s ctx user.id none).bumpRevision, user)

/-- `UserPasswordResetDispatchView.post`. -/
def dispatchPasswordReset (s : AccountScope) (ctx : Ctx) (userId : Id) (raw : String) :
    Result AccountScope := do
  raiseIf (s.organization.accessStatus ≠ .active) (.notFound "User not found")
  let member ← orRaise ((Table.get userId s.users).filter fun u =>
    u.status = .active && !u.passwordChangeRequired) (.notFound "User not found")
  let (s, _) ← issueActionToken s ctx member.id .resetPassword 1 raw {} false
  return s

/-- The member without multi-factor authentication, in a new grace period. -/
def User.withoutMfa (u : User) (ctx : Ctx) : User :=
  { u with mfaSecret := "", mfaEnabledAt := none, mfaGraceEndsAt := some (ctx.now + mfaGrace) }

/-- `UserMFAResetView.post`. -/
def resetMfa (s : AccountScope) (ctx : Ctx) (actor userId : Id) :
    Result (AccountScope × User) := do
  let member ← getUser s userId
  raiseIf (member.id = actor) (.validation "" "Use your Security settings to change your own MFA")
  let member := member.withoutMfa ctx
  let s := generateRecoveryCodes (putUser s member) member.id []
  return (revokeSessions s ctx member.id none, member)

/-! ## Invitations -/

/-- The life of an invitation. -/
def invitationLife : ℕ := 7 * 86400

/-- Insert an invitation under the table's constraints. -/
def insertInvitation (s : AccountScope) (invitation : Invitation) : Result AccountScope := do
  raiseIf (invitation.id ∈ Table.keys s.invitations) (.integrity "accounts_invitation_pkey")
  raiseIf (invitation.tokenHash ∈ s.invitations.map Invitation.tokenHash)
    (.integrity "accounts_invitation_token_hash_key")
  return { s with invitations := invitation :: s.invitations }

/-- `InvitationsView.post`. -/
def createInvitation (s : AccountScope) (ctx : Ctx) (actor : Id) (name email : String)
    (role : Role) (reserved : Bool) (raw : String) : Result (AccountScope × Invitation) := do
  raiseIf (charField 255 false name = false) (.validation "name" "Invalid value.")
  raiseIf (s.organization.accessStatus ≠ .active)
    (.validation "" "This organization cannot receive invitations")
  let invitation : Invitation := {
    id := ctx.uuid 1
    name := name
    email := email
    role := role
    tokenHash := tokenHash raw
    deliverable := !accountEmailUnavailable s email none reserved
    status := .pending
    invitedBy := actor
    expiresAt := ctx.now + invitationLife
    acceptedAt := none
    revokedAt := none }
  let s ← insertInvitation (revokeInvitations s ctx email) invitation
  return (s.bumpRevision, invitation)

/-- The pending invitation with a key. -/
def pendingInvitation (s : AccountScope) (invitationId : Id) : Result Invitation :=
  orRaise ((Table.get invitationId s.invitations).filter fun i => i.status = .pending)
    (.notFound "Invitation not found")

/-- `InvitationResendView.post`. -/
def resendInvitation (s : AccountScope) (ctx : Ctx) (invitationId : Id) (reserved : Bool)
    (raw : String) : Result (AccountScope × Invitation) := do
  raiseIf (s.organization.accessStatus ≠ .active) (.notFound "Invitation not found")
  let invitation ← pendingInvitation s invitationId
  raiseIf (s.invitations.any (fun i => i.id ≠ invitation.id && i.tokenHash = tokenHash raw) = true)
    (.integrity "accounts_invitation_token_hash_key")
  let invitation := { invitation with
    tokenHash := tokenHash raw
    expiresAt := ctx.now + invitationLife
    deliverable := !accountEmailUnavailable s invitation.email none reserved }
  return ({ s with invitations := Table.put invitation s.invitations }, invitation)

/-- `InvitationDetailView.delete`. -/
def revokeInvitation (s : AccountScope) (ctx : Ctx) (invitationId : Id) : Result AccountScope := do
  let invitation ← pendingInvitation s invitationId
  let invitation := { invitation with status := .revoked, revokedAt := some ctx.now }
  return { s with invitations := Table.put invitation s.invitations }

/-- A member whose address is proven, as an accepted invitation or an approved join
request creates it. -/
def verifiedMember (ctx : Ctx) (name email : String) (role : Role) (password : PasswordHash)
    (verifiedAt : Instant) : User where
  id := ctx.uuid 0
  name := name
  email := email
  pendingEmail := ""
  role := role
  status := .active
  emailVerifiedAt := some verifiedAt
  adminProvisionedAt := none
  passwordChangeRequired := false
  temporaryPasswordExpiresAt := none
  password := password
  mfaSecret := ""
  mfaEnabledAt := none
  mfaGraceEndsAt := graceFor role ctx.now
  isStaff := false
  isSuperuser := false
  lastLogin := none
  createdAt := ctx.now
  removedAt := none

/-- `InvitationAcceptView.post`. -/
def acceptInvitation (s : AccountScope) (ctx : Ctx) (raw : String) (name : Option String)
    (password : NewPassword) (reserved : Bool) : Result AccountScope := do
  password.validate
  raiseIf (name.all (charField 255 false) = false) (.validation "name" "Invalid value.")
  let invalid := ApiError.validation "token" "This invitation is invalid or expired"
  let invitation ← orRaise (s.invitations.find? fun i =>
    i.tokenHash = tokenHash raw && i.status = .pending) invalid
  raiseIf (s.organization.accessStatus ≠ .active ∨ invitation.expiresAt ≤ ctx.now) invalid
  raiseIf (accountEmailUnavailable s invitation.email none reserved = true)
    (.validation "email" "A user with this email already exists")
  let user := verifiedMember ctx (name.getD invitation.name) invitation.email invitation.role
    (makePassword (ctx.uuid 20) password.raw) ctx.now
  let s ← insertUser s user
  let invitation := { invitation with status := .accepted, acceptedAt := some ctx.now }
  return { s with
    organization := { s.organization with
      registered := s.organization.registered || decide (invitation.role = Role.admin) }
    invitations := Table.put invitation s.invitations }.bumpRevision

end VesselCaller.Accounts
