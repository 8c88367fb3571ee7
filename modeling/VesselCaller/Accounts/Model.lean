import VesselCaller.Core

/-!
# Accounts: the rows of one organization's account scope

An email address is not a global principal: an account belongs to one
organization, and everything the account flows read or write about it lives in
that organization's *account scope* — the organization row, its users, and their
action tokens, MFA challenges, sessions and platform grants.  `AccountScope` is
that scope.

Secrets are symbolic.  A stored password hash records the salt and the password
it was made from, a token hash the raw token; two of them are equal exactly when
they were made from the same data.

## Main definitions

* `AccountScope` — the rows of one organization's accounts;
* `User.isActive`, `User.loginIdentityApproved` — who may sign in;
* `Permission`, `Role.permissions`, `requirePermission` — what a role may do.
-/

namespace VesselCaller.Accounts

open Lib

inductive OrganizationKind where
  | customer
  | platform
  deriving DecidableEq, Repr

inductive AccessStatus where
  | pendingApproval
  | active
  | suspended
  deriving DecidableEq, Repr

structure Organization where
  id : Id
  kind : OrganizationKind
  accessStatus : AccessStatus
  registered : Bool
  name : String
  rcNumber : String
  email : String
  phone : String
  address : String
  primaryPort : String
  ports : List String
  logoObjectKey : String
  revision : ℕ
  deriving DecidableEq, Repr

/-- `Organization.is_access_active`. -/
def Organization.isAccessActive (o : Organization) : Bool := o.accessStatus = .active

inductive Role where
  | admin
  | operations
  | finance
  | viewer
  deriving DecidableEq, Repr

inductive UserStatus where
  | invited
  | active
  | suspended
  | removed
  deriving DecidableEq, Repr

/-- A salted password hash. -/
structure PasswordHash where
  salt : ℕ
  raw : String
  deriving DecidableEq, Repr

structure User where
  id : Id
  name : String
  email : String
  pendingEmail : String
  role : Role
  status : UserStatus
  emailVerifiedAt : Option Instant
  adminProvisionedAt : Option Instant
  passwordChangeRequired : Bool
  temporaryPasswordExpiresAt : Option Instant
  password : PasswordHash
  mfaSecret : String
  mfaEnabledAt : Option Instant
  mfaGraceEndsAt : Option Instant
  isStaff : Bool
  isSuperuser : Bool
  lastLogin : Option Instant
  createdAt : Instant
  removedAt : Option Instant
  deriving DecidableEq, Repr

instance : Keyed User Id := ⟨User.id⟩

inductive TokenKind where
  | verifyEmail
  | resetPassword
  | changeEmail
  | temporaryPasswordChange
  deriving DecidableEq, Repr

/-- The metadata an action token carries: the keys `pendingEmail`, `platformSetup`
and `credentialVersion`. -/
structure TokenMetadata where
  pendingEmail : String := ""
  platformSetup : Bool := false
  credentialVersion : Option PasswordHash := none
  deriving DecidableEq, Repr

structure ActionToken where
  id : Id
  userId : Id
  kind : TokenKind
  tokenHash : String
  metadata : TokenMetadata
  expiresAt : Instant
  usedAt : Option Instant
  deriving DecidableEq, Repr

instance : Keyed ActionToken Id := ⟨ActionToken.id⟩

structure MFAChallenge where
  id : Id
  userId : Id
  expiresAt : Instant
  attempts : ℕ
  usedAt : Option Instant
  deriving DecidableEq, Repr

instance : Keyed MFAChallenge Id := ⟨MFAChallenge.id⟩

structure UserSession where
  sessionKey : Id
  userId : Id
  absoluteExpiresAt : Instant
  revokedAt : Option Instant
  deriving DecidableEq, Repr

instance : Keyed UserSession Id := ⟨UserSession.sessionKey⟩

structure PlatformAccessGrant where
  userId : Id
  expiresAt : Option Instant
  revokedAt : Option Instant
  deriving DecidableEq, Repr

structure MFARecoveryCode where
  userId : Id
  code : PasswordHash
  usedAt : Option Instant
  deriving DecidableEq, Repr

inductive InvitationStatus where
  | pending
  | accepted
  | revoked
  | expired
  deriving DecidableEq, Repr

structure Invitation where
  id : Id
  name : String
  email : String
  role : Role
  tokenHash : String
  deliverable : Bool
  status : InvitationStatus
  invitedBy : Id
  expiresAt : Instant
  acceptedAt : Option Instant
  revokedAt : Option Instant
  deriving DecidableEq, Repr

instance : Keyed Invitation Id := ⟨Invitation.id⟩

structure OrganizationSignupLink where
  id : Id
  tokenHash : String
  createdBy : Id
  expiresAt : Instant
  revokedAt : Option Instant
  deriving DecidableEq, Repr

instance : Keyed OrganizationSignupLink Id := ⟨OrganizationSignupLink.id⟩

inductive JoinStatus where
  | unverified
  | pending
  | approved
  | rejected
  | expired
  deriving DecidableEq, Repr

structure OrganizationJoinRequest where
  id : Id
  signupLink : Id
  name : String
  email : String
  passwordHash : Option PasswordHash
  verificationTokenHash : Option String
  verificationExpiresAt : Instant
  emailVerifiedAt : Option Instant
  status : JoinStatus
  role : Option Role
  reviewedBy : Option Id
  reviewedAt : Option Instant
  user : Option Id
  deriving DecidableEq, Repr

instance : Keyed OrganizationJoinRequest Id := ⟨OrganizationJoinRequest.id⟩

/-- Everything the account flows keep about one organization. -/
structure AccountScope where
  organization : Organization
  users : List User
  tokens : List ActionToken
  challenges : List MFAChallenge
  sessions : List UserSession
  platformGrants : List PlatformAccessGrant
  recoveryCodes : List MFARecoveryCode
  invitations : List Invitation
  signupLinks : List OrganizationSignupLink
  joinRequests : List OrganizationJoinRequest

/-- `User.is_active`. -/
def User.isActive (u : User) (o : Organization) : Bool :=
  u.status = .active && !u.passwordChangeRequired && o.isAccessActive

/-- `User.login_identity_approved`. -/
def User.loginIdentityApproved (u : User) (o : Organization) : Bool :=
  u.emailVerifiedAt.isSome ||
    (u.adminProvisionedAt.isSome && o.kind = .customer && !u.isStaff && !u.isSuperuser)

/-- `User.mfa_enabled`. -/
def User.mfaEnabled (u : User) : Bool := u.mfaEnabledAt.isSome && u.mfaSecret ≠ ""

/-- `active_platform_grant(user) is not None`. -/
def activePlatformGrant (s : AccountScope) (u : User) (now : Instant) : Bool :=
  s.platformGrants.any fun g =>
    g.userId = u.id && g.revokedAt.isNone && g.expiresAt.all (now < ·)

/-- `User.mfa_enrollment_required`. -/
def mfaEnrollmentRequired (s : AccountScope) (u : User) (now : Instant) : Bool :=
  let platformAccess := s.organization.kind = .platform && activePlatformGrant s u now
  (platformAccess || u.role = .admin || u.role = .finance) && !u.mfaEnabled &&
    (platformAccess || u.mfaGraceEndsAt.any (· ≤ now))

/-- `MFA_GRACE_DAYS`, in seconds. -/
def mfaGrace : ℕ := 7 * 86400

/-! ## Authorization -/

inductive Permission where
  | organizationView | organizationManage
  | usersView | usersManage
  | auditView | auditExport
  | callsView | callsManage
  | measurementsView | measurementsManage | measurementsApprove | measurementsBill
  | inspectionsView | inspectionsManage
  | invoicesView | invoicesManage | invoicesPay
  | settingsView | settingsManage
  | analyticsView | documentsView | evidenceManage
  deriving DecidableEq, Repr

/-- `ROLE_PERMISSIONS`. -/
def Role.permissions : Role → List Permission
  | .viewer => [.organizationView, .callsView, .measurementsView, .inspectionsView,
      .invoicesView, .settingsView, .analyticsView, .documentsView]
  | .operations => [.organizationView, .callsView, .measurementsView, .callsManage,
      .measurementsManage, .inspectionsView, .inspectionsManage, .invoicesView,
      .settingsView, .analyticsView, .documentsView, .evidenceManage]
  | .finance => [.organizationView, .callsView, .measurementsView, .inspectionsView,
      .invoicesView, .invoicesManage, .measurementsBill, .invoicesPay, .settingsView,
      .analyticsView, .documentsView]
  | .admin => [.organizationView, .organizationManage, .usersView, .usersManage,
      .auditView, .measurementsApprove, .auditExport, .callsView, .measurementsView,
      .callsManage, .measurementsManage, .inspectionsView, .inspectionsManage,
      .invoicesView, .invoicesManage, .measurementsBill, .invoicesPay, .settingsView,
      .settingsManage, .analyticsView, .documentsView, .evidenceManage]

/-- `_lock_active_customer_identity`: the active customer organization, then its
active request actor. -/
def lockActiveCustomerIdentity (s : AccountScope) (actor : Id) : Result User := do
  raiseIf (s.organization.kind ≠ .customer ∨ s.organization.accessStatus ≠ .active)
    (ApiError.permissionDenied "You do not have permission to perform this action.")
  let user ← orRaise (Table.get actor s.users)
    (ApiError.permissionDenied "You do not have permission to perform this action.")
  raiseIf (user.status ≠ .active ∨ ¬user.isActive s.organization)
    (ApiError.permissionDenied "You do not have permission to perform this action.")
  return user

/-- `HasVesselPermission.has_permission`. -/
def requirePermission (s : AccountScope) (now : Instant) (actor : Id) (permission : Permission) :
    Result User := do
  let user ← lockActiveCustomerIdentity s actor
  raiseIf (mfaEnrollmentRequired s user now ∨ permission ∉ user.role.permissions)
    (ApiError.permissionDenied "You do not have permission to perform this action.")
  return user

/-! ## Payloads -/

/-- `actor_data`: the account, or the agency that reported through its link. -/
inductive ActorRef where
  | user (id : Id)
  | agency (participantId : Id)
  deriving DecidableEq, Repr

structure ActorData where
  id : ActorRef
  name : String
  deriving DecidableEq, Repr

def actorData (users : List User) (id : Id) : ActorData :=
  ⟨.user id, ((Table.get id users).map User.name).getD ""⟩

/-- `user_data`. -/
structure UserData where
  id : Id
  name : String
  email : String
  pendingEmail : String
  role : Role
  status : UserStatus
  active : Bool
  emailVerified : Bool
  adminProvisioned : Bool
  passwordChangeRequired : Bool
  temporaryPasswordExpiresAt : Option Instant
  mfaEnabled : Bool
  mfaGraceEndsAt : Option Instant
  mfaEnrollmentRequired : Bool
  lastLogin : Option Instant
  createdAt : Instant
  deriving DecidableEq, Repr

def userData (s : AccountScope) (now : Instant) (u : User) : UserData where
  id := u.id
  name := u.name
  email := u.email
  pendingEmail := u.pendingEmail
  role := u.role
  status := u.status
  active := u.isActive s.organization
  emailVerified := u.emailVerifiedAt.isSome
  adminProvisioned := u.adminProvisionedAt.isSome
  passwordChangeRequired := u.passwordChangeRequired
  temporaryPasswordExpiresAt := u.temporaryPasswordExpiresAt
  mfaEnabled := u.mfaEnabled
  mfaGraceEndsAt := u.mfaGraceEndsAt
  mfaEnrollmentRequired := mfaEnrollmentRequired s u now
  lastLogin := u.lastLogin
  createdAt := u.createdAt

/-- `organization_data`, without the revision and the members. -/
structure OrganizationData where
  id : Id
  registered : Bool
  name : String
  rcNumber : String
  email : String
  phone : String
  address : String
  primaryPort : String
  ports : List String
  logo : Option String
  deriving DecidableEq, Repr

def organizationData (o : Organization) : OrganizationData where
  id := o.id
  registered := o.registered
  name := o.name
  rcNumber := o.rcNumber
  email := o.email
  phone := o.phone
  address := o.address
  primaryPort := o.primaryPort
  ports := o.ports
  logo := if o.logoObjectKey = "" then none else some o.logoObjectKey

end VesselCaller.Accounts
