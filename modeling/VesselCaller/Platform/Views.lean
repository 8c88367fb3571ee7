import VesselCaller.Accounts.InFlight
import VesselCaller.System

/-!
# System administration of one customer organization

`api.system_admin_views` with the lifecycle services of `organizations`: what a System
Administrator does to a customer organization, its administrators and the invitations of
new ones.  Each endpoint locks the organization row, as the requests of its members do.

A deployment may switch these endpoints off altogether, and the caller must hold a platform
grant and a recent second factor; the model takes up the requests that get past both.

## Main definitions

* `suspend`, `reactivate`, `approve` — the lifecycle of an organization;
* `inviteAdmin`, `resetAdminPassword`, `resetAdminMfa` — its administrators;
* `SystemOrganizationData` — what an administrator of the system is shown.
-/

namespace VesselCaller.Platform

open Lib Accounts

/-! ## Payloads -/

/-- `system_organization_data`, without the timestamps and the texts of lifecycle changes. -/
structure SystemOrganizationData where
  id : Id
  name : String
  status : AccessStatus
  registered : Bool
  primaryPort : String
  userCount : ℕ
  activeUserCount : ℕ
  adminCount : ℕ
  pendingInvitationCount : ℕ
  rcNumber : String
  email : String
  phone : String
  address : String
  ports : List String
  revision : ℕ
  deriving DecidableEq, Repr

/-- An administrator `_system_organization_counts` counts. -/
def countsAsAdmin (u : User) : Bool :=
  u.role = .admin && u.status = .active && !u.passwordChangeRequired && u.emailVerifiedAt.isSome &&
    !u.isStaff && !u.isSuperuser

/-- A pending invitation of an administrator. -/
def pendingAdminInvitation (i : Invitation) : Bool := i.status = .pending && i.role = .admin

def systemOrganizationData (s : AccountScope) : SystemOrganizationData where
  id := s.organization.id
  name := s.organization.name
  status := s.organization.accessStatus
  registered := s.organization.registered
  primaryPort := s.organization.primaryPort
  userCount := s.users.length
  activeUserCount := s.users.countP fun u => u.status = .active && !u.passwordChangeRequired
  adminCount := s.users.countP countsAsAdmin
  pendingInvitationCount := s.invitations.countP pendingAdminInvitation
  rcNumber := s.organization.rcNumber
  email := s.organization.email
  phone := s.organization.phone
  address := s.organization.address
  ports := s.organization.ports
  revision := s.organization.revision

/-! ## The lifecycle -/

/-- A `SystemOrganizationLifecycleSerializer` body. -/
structure LifecycleInput where
  reason : String
  revision : ℕ
  deriving DecidableEq, Repr

/-- The `reason` field of the system endpoints. -/
def validReason (reason : String) : Result Unit :=
  raiseIf (reason.length < 3 ∨ 1000 < reason.length) (.validation "reason" "Invalid value.")

/-- `lock_customer_organization`. -/
def lockCustomerOrganization (s : AccountScope) : Result Unit :=
  raiseIf (s.organization.kind ≠ .customer) (.notFound "Organization not found")

/-- The compare-and-set on the revision the administrator has seen. -/
def requireRevision (s : AccountScope) (revision : ℕ) : Result Unit :=
  raiseIf (s.organization.revision ≠ revision)
    (.conflict "The organization changed. Refresh and try again")

/-- The organization in another access state, one revision later. -/
def withAccessStatus (s : AccountScope) (status : AccessStatus) : AccountScope :=
  { s with organization := { s.organization with accessStatus := status } }.bumpRevision

/-- `revoke_organization_sessions`. -/
def revokeOrganizationSessions (s : AccountScope) (ctx : Ctx) : AccountScope :=
  { s with sessions := s.sessions.map fun k =>
      if k.revokedAt = none then { k with revokedAt := some ctx.now } else k }

/-- The scope once its organization is suspended: the sessions are revoked, and the unused
tokens, the open challenges, the recovery codes and the pending invitations are gone. -/
def suspendedScope (s : AccountScope) (ctx : Ctx) : AccountScope :=
  { revokeOrganizationSessions (withAccessStatus s .suspended) ctx with
    tokens := s.tokens.filter fun t => t.usedAt.isSome
    challenges := s.challenges.filter fun c => c.usedAt.isSome
    recoveryCodes := []
    invitations := s.invitations.map fun i =>
      if i.status = .pending then { i with status := .revoked, revokedAt := some ctx.now } else i }

/-- `suspend_customer_organization`. -/
def suspendCustomerOrganization (s : AccountScope) (ctx : Ctx) : Result AccountScope := do
  raiseIf (s.organization.kind ≠ .customer)
    (.validation "" "Only customer organizations can be suspended")
  if s.organization.accessStatus = .suspended then return s
  else do
    raiseIf (s.organization.accessStatus ≠ .active)
      (.validation "" "Only active customer organizations can be suspended")
    return suspendedScope s ctx

/-- `reactivate_customer_organization`. -/
def reactivateCustomerOrganization (s : AccountScope) : Result AccountScope := do
  raiseIf (s.organization.kind ≠ .customer)
    (.validation "" "Only customer organizations can be reactivated")
  if s.organization.accessStatus = .active then return s
  else do
    raiseIf (s.organization.accessStatus ≠ .suspended)
      (.validation "" "Only suspended customer organizations can be reactivated")
    return withAccessStatus s .active

/-- `approve_customer_organization`. -/
def approveCustomerOrganization (s : AccountScope) : Result AccountScope := do
  raiseIf (s.organization.kind ≠ .customer)
    (.validation "" "Only customer organizations can be approved")
  raiseIf (s.organization.accessStatus ≠ .pendingApproval)
    (.validation "" "Only organizations pending approval can be approved")
  raiseIf (s.organization.registered = false ∨ s.users.any (fun u =>
      u.role = .admin && u.status = .active && u.emailVerifiedAt.isSome && !u.isStaff &&
        !u.isSuperuser) = false)
    (.validation "" "Email verification must be completed before organization approval")
  return withAccessStatus s .active

/-- `SystemOrganizationSuspendView.post`. -/
def suspend (s : AccountScope) (ctx : Ctx) (data : LifecycleInput) : Result AccountScope := do
  validReason data.reason
  lockCustomerOrganization s
  if s.organization.accessStatus = .suspended then return s
  else do
    requireRevision s data.revision
    suspendCustomerOrganization s ctx

/-- `SystemOrganizationReactivateView.post`. -/
def reactivate (s : AccountScope) (data : LifecycleInput) : Result AccountScope := do
  validReason data.reason
  lockCustomerOrganization s
  if s.organization.accessStatus = .active then return s
  else do
    requireRevision s data.revision
    reactivateCustomerOrganization s

/-- `SystemOrganizationApproveView.post`. -/
def approve (s : AccountScope) (data : LifecycleInput) : Result AccountScope := do
  validReason data.reason
  lockCustomerOrganization s
  requireRevision s data.revision
  approveCustomerOrganization s

/-! ## Administrators -/

/-- The life of an administrator's invitation. -/
def adminInvitationLife : ℕ := 24 * 3600

/-- `create_admin_invitation`. -/
def createAdminInvitation (s : AccountScope) (ctx : Ctx) (actor : Id) (name email : String)
    (reserved : Bool) (raw : String) : Result (AccountScope × Invitation) := do
  raiseIf (accountEmailUnavailable s email none reserved = true ∨
      s.invitations.any (fun i => i.pendingFor email) = true)
    (.validation "email" "An invitation could not be created for this email")
  let invitation : Invitation := {
    id := ctx.uuid 1
    name := name
    email := email
    role := .admin
    tokenHash := tokenHash raw
    deliverable := true
    status := .pending
    invitedBy := actor
    expiresAt := ctx.now + adminInvitationLife
    acceptedAt := none
    revokedAt := none }
  let s ← insertInvitation s invitation
  return (s.bumpRevision, invitation)

/-- `SystemOrganizationInvitationsView.post`. -/
def inviteAdmin (s : AccountScope) (ctx : Ctx) (actor : Id) (name email : String)
    (reserved : Bool) (raw : String) : Result (AccountScope × Invitation) := do
  raiseIf (charField 255 false name = false) (.validation "name" "Invalid value.")
  lockCustomerOrganization s
  raiseIf (s.organization.accessStatus ≠ .active)
    (.validation "" "Only active organizations can receive invitations")
  createAdminInvitation s ctx actor name email reserved raw

/-- The pending invitation of an administrator with a key. -/
def adminInvitation (s : AccountScope) (invitationId : Id) : Result Invitation :=
  orRaise ((Table.get invitationId s.invitations).filter pendingAdminInvitation)
    (.notFound "Invitation not found")

/-- `SystemOrganizationInvitationResendView.post`. -/
def resendAdminInvitation (s : AccountScope) (ctx : Ctx) (invitationId : Id) (raw : String) :
    Result (AccountScope × Invitation) := do
  lockCustomerOrganization s
  raiseIf (s.organization.accessStatus ≠ .active)
    (.validation "" "Only active organizations can receive invitations")
  let invitation ← adminInvitation s invitationId
  raiseIf (s.invitations.any (fun i => i.id ≠ invitation.id && i.tokenHash = tokenHash raw) = true)
    (.integrity "accounts_invitation_token_hash_key")
  let invitation := { invitation with
    tokenHash := tokenHash raw
    expiresAt := ctx.now + adminInvitationLife }
  return ({ s with invitations := Table.put invitation s.invitations }.bumpRevision, invitation)

/-- `SystemOrganizationInvitationDetailView.delete`. -/
def revokeAdminInvitation (s : AccountScope) (ctx : Ctx) (invitationId : Id) :
    Result (AccountScope × Invitation) := do
  lockCustomerOrganization s
  let invitation ← adminInvitation s invitationId
  let invitation := { invitation with status := .revoked, revokedAt := some ctx.now }
  return ({ s with invitations := Table.put invitation s.invitations }.bumpRevision, invitation)

/-- The active administrator a recovery action is about. -/
def activeAdmin (s : AccountScope) (userId : Id) (eligible : User → Bool) : Result User :=
  orRaise ((Table.get userId s.users).filter fun u =>
    u.role = .admin && u.status = .active && eligible u)
    (.notFound "Active organization Admin not found")

/-- `SystemOrganizationUserPasswordResetView.post`. -/
def resetAdminPassword (s : AccountScope) (ctx : Ctx) (userId : Id) (reason raw : String) :
    Result AccountScope := do
  validReason reason
  lockCustomerOrganization s
  raiseIf (s.organization.accessStatus ≠ .active)
    (.validation "" "Only active organizations can receive recovery actions")
  let member ← activeAdmin s userId fun u => !u.passwordChangeRequired
  let (s, _) ← issueActionToken s ctx member.id .resetPassword 1 raw {} false
  return s.bumpRevision

/-- `SystemOrganizationUserMFAResetView.post`.  Unlike the reset by a colleague it deletes the
challenges of the member as well. -/
def resetAdminMfa (s : AccountScope) (ctx : Ctx) (userId : Id) (reason : String) :
    Result (AccountScope × User) := do
  validReason reason
  lockCustomerOrganization s
  raiseIf (s.organization.accessStatus ≠ .active)
    (.validation "" "Only active organizations can receive recovery actions")
  let member ← activeAdmin s userId fun _ => true
  let member := member.withoutMfa ctx
  let s := generateRecoveryCodes (putUser s member) member.id []
  let s := { s with challenges := s.challenges.filter fun c =>
    !(c.userId = member.id && c.usedAt.isNone) }
  return ((revokeSessions s ctx member.id none).bumpRevision, member)

/-! ## Requests -/

inductive SystemOp where
  | suspend (data : LifecycleInput)
  | reactivate (data : LifecycleInput)
  | approve (data : LifecycleInput)
  | inviteAdmin (name email : String) (reserved : Bool) (raw : String)
  | resendAdminInvitation (invitation : Id) (raw : String)
  | revokeAdminInvitation (invitation : Id)
  | resetAdminPassword (user : Id) (reason raw : String)
  | resetAdminMfa (user : Id) (reason : String)
  deriving DecidableEq, Repr

inductive SystemResponse where
  | organization (data : SystemOrganizationData) (rev : ℕ)
  | invitation (data : Invitation) (rev : ℕ)
  | sent (detail : String) (rev : ℕ)
  | user (data : UserData) (rev : ℕ)
  deriving DecidableEq, Repr

/-- The handler of an authorized system administration request. -/
def SystemOp.handle (s : AccountScope) (ctx : Ctx) (actor : Id) :
    SystemOp → Result (AccountScope × SystemResponse)
  | .suspend data => do
      let s ← Platform.suspend s ctx data
      return (s, .organization (systemOrganizationData s) s.organization.revision)
  | .reactivate data => do
      let s ← Platform.reactivate s data
      return (s, .organization (systemOrganizationData s) s.organization.revision)
  | .approve data => do
      let s ← Platform.approve s data
      return (s, .organization (systemOrganizationData s) s.organization.revision)
  | .inviteAdmin name email reserved raw => do
      let (s, invitation) ← Platform.inviteAdmin s ctx actor name email reserved raw
      return (s, .invitation invitation s.organization.revision)
  | .resendAdminInvitation invitationId raw => do
      let (s, invitation) ← Platform.resendAdminInvitation s ctx invitationId raw
      return (s, .invitation invitation s.organization.revision)
  | .revokeAdminInvitation invitationId => do
      let (s, invitation) ← Platform.revokeAdminInvitation s ctx invitationId
      return (s, .invitation invitation s.organization.revision)
  | .resetAdminPassword userId reason raw => do
      let s ← Platform.resetAdminPassword s ctx userId reason raw
      return (s, .sent "Password reset email sent" s.organization.revision)
  | .resetAdminMfa userId reason => do
      let (s, user) ← Platform.resetAdminMfa s ctx userId reason
      return (s, .user (userData s ctx.now user) s.organization.revision)

/-- What can happen to one customer organization. -/
inductive Event where
  | request (r : Request)
  | inFlight (ctx : Ctx) (op : InFlightOp)
  | system (actor : Id) (ctx : Ctx) (op : SystemOp)

inductive Answer where
  | request (a : Response)
  | inFlight (a : Accounts.Response)
  | system (a : SystemResponse)

/-- One event. -/
def handle (sha : Measurements.Sha256) (t : Tenant) : Event → Result (Tenant × Answer)
  | .request r => do
      let (t, a) ← t.handle sha r
      return (t, .request a)
  | .inFlight ctx op => do
      let (scope, a) ← op.handle t.toAccountScope ctx
      return ({ t with toAccountScope := scope }, .inFlight a)
  | .system actor ctx op => do
      let (scope, a) ← op.handle t.toAccountScope ctx actor
      return ({ t with toAccountScope := scope }, .system a)

end VesselCaller.Platform
