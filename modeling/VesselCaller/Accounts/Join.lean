import VesselCaller.Accounts.Users

/-!
# Joining through a shared link

`accounts.organization_join` with its views.  An administrator hands out a sign-up
link; whoever follows it requests membership, proves the address and chooses a
password; an administrator approves or rejects.  There is no account before approval.

## Main definitions

* `createSignupLink`, `revokeSignupLink` — the links of an administrator;
* `submitJoinRequest`, `verifyJoinRequest`, `reviewJoinRequest` — the three stations of a
  request;
* `approvedUser` — the account an approval makes.
-/

namespace VesselCaller.Accounts

open Lib

/-- `INVALID_LINK` and `INVALID_VERIFICATION`. -/
def invalidLink : ApiError :=
  .validation "token" "This sign-up link is invalid, expired or revoked"

def invalidVerification : ApiError :=
  .validation "token" "This verification link is invalid or expired"

/-- `OrganizationSignupLink.active`. -/
def OrganizationSignupLink.active (l : OrganizationSignupLink) (now : Instant) : Bool :=
  l.revokedAt.isNone && decide (now < l.expiresAt)

/-- `_active_organization` and the role check of the services. -/
def requireJoinAdmin (s : AccountScope) (actor : Id) (detail : String) : Result Unit := do
  raiseIf (s.organization.kind ≠ .customer ∨ s.organization.accessStatus ≠ .active)
    (.validation "" "This sign-up link is invalid, expired or revoked")
  let admin ← orRaise (Table.get actor s.users) (.server "User.DoesNotExist")
  raiseIf (admin.role ≠ .admin ∨ admin.isActive s.organization = false) (.validation "" detail)

/-- `create_signup_link`, with the revision the view bumps. -/
def createSignupLink (s : AccountScope) (ctx : Ctx) (actor : Id) (expiresInDays : ℕ)
    (raw : String) : Result (AccountScope × OrganizationSignupLink) := do
  raiseIf (expiresInDays ∉ [1, 7, 14, 30]) (.validation "expiresInDays" "Invalid value.")
  requireJoinAdmin s actor "Only an active organization Admin can create a sign-up link"
  let revoked := s.signupLinks.map fun l =>
    if l.revokedAt = none then { l with revokedAt := some ctx.now } else l
  raiseIf (ctx.uuid 0 ∈ Table.keys revoked) (.integrity "accounts_organizationsignuplink_pkey")
  raiseIf (tokenHash raw ∈ revoked.map OrganizationSignupLink.tokenHash)
    (.integrity "accounts_organizationsignuplink_token_hash_key")
  let link : OrganizationSignupLink := {
    id := ctx.uuid 0
    tokenHash := tokenHash raw
    createdBy := actor
    expiresAt := ctx.now + expiresInDays * 86400
    revokedAt := none }
  return ({ s with signupLinks := link :: revoked }.bumpRevision, link)

/-- `OrganizationSignupLinkDetailView.delete`: revoking a revoked link changes nothing. -/
def revokeSignupLink (s : AccountScope) (ctx : Ctx) (linkId : Id) : Result AccountScope := do
  let link ← orRaise (Table.get linkId s.signupLinks) (.notFound "Sign-up link not found")
  if link.revokedAt.isSome then return s
  else
    let link := { link with revokedAt := some ctx.now }
    return { s with signupLinks := Table.put link s.signupLinks }.bumpRevision

/-- `_locked_link`. -/
def lockedLink (s : AccountScope) (ctx : Ctx) (raw : String) :
    Result OrganizationSignupLink := do
  let link ← orRaise (s.signupLinks.find? fun l => l.tokenHash = tokenHash raw) invalidLink
  raiseIf (s.organization.kind ≠ .customer ∨ s.organization.accessStatus ≠ .active) invalidLink
  raiseIf (link.active ctx.now = false) invalidLink
  return link

/-- The stale unverified requests of an address, expired. -/
def expireJoinRequests (s : AccountScope) (ctx : Ctx) (email : String) : AccountScope :=
  { s with joinRequests := s.joinRequests.map fun r =>
      if r.email = email ∧ r.status = .unverified ∧ (r.verificationExpiresAt ≤ ctx.now ∨
          (Table.get r.signupLink s.signupLinks).any (fun l => !l.active ctx.now) = true) then
        { r with status := .expired, passwordHash := none, verificationTokenHash := none }
      else r }

/-- `submit_join_request`.  `none` is the answer that reveals nothing: the address has
an account or an open request. -/
def submitJoinRequest (s : AccountScope) (ctx : Ctx) (raw name email : String) (reserved : Bool)
    (verification : String) : Result (AccountScope × Option OrganizationJoinRequest) := do
  raiseIf (charField 255 false name = false) (.validation "name" "Invalid value.")
  let link ← lockedLink s ctx raw
  if accountEmailUnavailable s email none reserved then return (s, none)
  else do
    let s := expireJoinRequests s ctx email
    if s.joinRequests.any (fun r => r.email = email && r.isOpen) then return (s, none)
    else do
      raiseIf (ctx.uuid 0 ∈ Table.keys s.joinRequests)
        (.integrity "accounts_organizationjoinrequest_pkey")
      raiseIf (some (tokenHash verification) ∈
          s.joinRequests.map OrganizationJoinRequest.verificationTokenHash)
        (.integrity "accounts_organizationjoinrequest_verification_token_hash_key")
      let request : OrganizationJoinRequest := {
        id := ctx.uuid 0
        signupLink := link.id
        name := name
        email := email
        passwordHash := none
        verificationTokenHash := some (tokenHash verification)
        verificationExpiresAt := min link.expiresAt (ctx.now + 86400)
        emailVerifiedAt := none
        status := .unverified
        role := none
        reviewedBy := none
        reviewedAt := none
        user := none }
      return ({ s with joinRequests := request :: s.joinRequests }, some request)

/-- `verify_join_request`. -/
def verifyJoinRequest (s : AccountScope) (ctx : Ctx) (raw : String) (password : NewPassword) :
    Result AccountScope := do
  password.validate
  let request ← orRaise (s.joinRequests.find? fun r =>
    r.verificationTokenHash = some (tokenHash raw) && r.status = .unverified) invalidVerification
  raiseIf (s.organization.kind ≠ .customer ∨ s.organization.accessStatus ≠ .active)
    invalidVerification
  let link ← orRaise (Table.get request.signupLink s.signupLinks)
    (.server "OrganizationSignupLink.DoesNotExist")
  raiseIf (link.active ctx.now = false ∨ request.verificationExpiresAt ≤ ctx.now)
    invalidVerification
  let request := { request with
    status := .pending
    emailVerifiedAt := some ctx.now
    passwordHash := some (makePassword (ctx.uuid 20) password.raw)
    verificationTokenHash := none }
  return { s with joinRequests := Table.put request s.joinRequests }

/-- The request once an administrator decided on it. -/
def OrganizationJoinRequest.reviewed (r : OrganizationJoinRequest) (ctx : Ctx) (actor : Id) :
    OrganizationJoinRequest :=
  { r with
    reviewedBy := some actor
    reviewedAt := some ctx.now
    passwordHash := none
    verificationTokenHash := none }

/-- `review_join_request`, with the revision the view bumps if anything changed: `approve`
is the role to approve with, or none to reject. -/
def reviewJoinRequest (s : AccountScope) (ctx : Ctx) (actor requestId : Id)
    (approve : Option Role) (reserved : Bool) :
    Result (AccountScope × OrganizationJoinRequest) := do
  requireJoinAdmin s actor "Only an active organization Admin can review join requests"
  let request ← orRaise (Table.get requestId s.joinRequests) (.notFound "Join request not found")
  if approve.isSome && request.status = .approved then do
    raiseIf (request.role ≠ approve)
      (.validation "" "This request was already approved with a different role")
    return (s, request)
  else if approve.isNone && request.status = .rejected then return (s, request)
  else do
    let verifiedAt ← orRaise (request.emailVerifiedAt.filter fun _ => request.status = .pending)
      (.validation "" "Only a verified request awaiting review can be reviewed")
    match approve with
    | some role => do
        raiseIf (accountEmailUnavailable s request.email none reserved = true)
          (.validation "" "An account already uses this email. Review existing users instead.")
        let password ← orRaise request.passwordHash
          (.server "accounts_join_password_verification_state")
        let user := verifiedMember ctx request.name request.email role password verifiedAt
        let s ← insertUser s user
        let request := { request.reviewed ctx actor with
          status := .approved, role := some role, user := some user.id }
        return ({ s with joinRequests := Table.put request s.joinRequests }.bumpRevision,
          request)
    | none =>
        let request := { request.reviewed ctx actor with status := .rejected }
        return ({ s with joinRequests := Table.put request s.joinRequests }.bumpRevision,
          request)

/-- `join_request_data`. -/
structure JoinRequestData where
  id : Id
  name : String
  email : String
  status : JoinStatus
  emailVerifiedAt : Option Instant
  reviewedAt : Option Instant
  role : Option Role
  deriving DecidableEq, Repr

/-- `join_request_data`: a stale unverified request is shown as expired. -/
def joinRequestData (s : AccountScope) (now : Instant) (r : OrganizationJoinRequest) :
    JoinRequestData where
  id := r.id
  name := r.name
  email := r.email
  status :=
    if r.status = .unverified ∧ (r.verificationExpiresAt ≤ now ∨
        (Table.get r.signupLink s.signupLinks).any (fun l => !l.active now) = true) then
      .expired
    else r.status
  emailVerifiedAt := r.emailVerifiedAt
  reviewedAt := r.reviewedAt
  role := r.role

/-- The account an approved request led to. -/
def approvedUser (s : AccountScope) (r : OrganizationJoinRequest) : Option User :=
  r.user.bind fun userId => Table.get userId s.users

end VesselCaller.Accounts
