import VesselCaller.Measurements.Services

/-!
# The agency portal

`measurements.portal`: a staff member invites an agency with a bearer link; the
agency exchanges the link's token for a browser session and, through it, submits
one return.  Raw secrets are never stored: a link holds the digest of its token, a
session the digest of the browser's nonce.  Tokens and nonces are random texts and
arrive with the request.

## Main definitions

* `createAgencyLink`, `revokeAgencyLink` — the staff's side;
* `portalExchange`, `contextData`, `portalSubmission` — the agency's side;
* `portalFingerprint` — the digest of what the holder of a link was shown.
-/

namespace VesselCaller.Measurements

open Lib Accounts Billing Operations

variable (sha : Sha256)

/-- `fingerprint`: what a link's holder was shown of the plan. -/
def portalFingerprint (t : Tenant) (plan : MeasurementPlan) : Digest :=
  let context := t.planContext plan
  sha.portal {
    id := context.id
    callId := context.callId
    vesselName := context.vesselName
    callReference := context.callReference
    title := context.title
    location := context.location
    scheduledAt := context.scheduledAt
    lines := plan.lines
    participants := plan.allParticipants }

/-- `assert_open`. -/
def assertOpen (t : Tenant) (plan : MeasurementPlan) : Result Unit :=
  raiseIf (plan.status = .cancelled ∨
      (Table.get plan.vesselCallId t.calls).any (fun c => c.status = .cancelled) = true ∨
      plan.latestReconciliation.any (fun r => r.status = .final) = true)
    (.conflict "This voyage is no longer open for agency readings")

/-- `link_data`. -/
structure LinkData where
  id : Id
  participantId : Id
  expiresAt : Instant
  revokedAt : Option Instant
  submittedAt : Option Instant
  deriving DecidableEq, Repr

def linkData (plan : MeasurementPlan) (link : AgencyLink) : LinkData where
  id := link.id
  participantId := link.participantId
  expiresAt := link.expiresAt
  revokedAt := link.revokedAt
  submittedAt := (link.submissionId.bind (Table.get · plan.submissions)).map
    Submission.recordedAt

/-- `CreateAgencyLinkView.post` on a plan: the participant's earlier links are
revoked.  Neither the version nor the revision advances. -/
def createAgencyLink (t : Tenant) (ctx : Ctx) (plan : MeasurementPlan) (participantId : Id)
    (expiryDays : ℕ) (token : String) : Result (MeasurementPlan × AgencyLink) := do
  assertOpen t plan
  let participant ← participantFor plan participantId
  raiseIf (plan.submissionsOf participant.id ≠ [])
    (.conflict "This agency already submitted a reading; staff can record a revision")
  let links := plan.links.map fun l =>
    if l.participantId = participant.id ∧ l.revokedAt = none then
      { l with revokedAt := some ctx.now }
    else l
  insertKey "measurements_agencylink_pkey" (ctx.uuid 0)
    (t.plans.flatMap fun p => Table.keys p.links)
  raiseIf (sha.text token ∈ t.plans.flatMap fun p => p.links.map AgencyLink.tokenDigest)
    (.integrity "measurements_agencylink_token_digest_key")
  let link : AgencyLink := {
    id := ctx.uuid 0
    participantId := participant.id
    tokenDigest := sha.text token
    inputFingerprint := portalFingerprint sha t plan
    expiresAt := ctx.now + expiryDays * 86400
    revokedAt := none
    submissionId := none
    requestId := ""
    requestDigest := .hex "" }
  return ({ plan with links := links ++ [link] }, link)

/-- `RevokeAgencyLinkView.post` on a plan. -/
def revokeAgencyLink (ctx : Ctx) (plan : MeasurementPlan) (linkId : Id) :
    Result MeasurementPlan := do
  let link ← orRaise (Table.get linkId plan.links) (.notFound "Agency link not found")
  if link.revokedAt.isSome then return plan
  else return { plan with links := Table.put { link with revokedAt := some ctx.now } plan.links }

/-- The plan that holds a link, and the link. -/
def findLink (plans : List MeasurementPlan) (linkId : Id) : Option (MeasurementPlan × AgencyLink) :=
  plans.findSome? fun p => (Table.get linkId p.links).map fun l => (p, l)

/-- `locked_link`. -/
def lockedLink (t : Tenant) (now : Instant) (linkId : Option Id) :
    Result (MeasurementPlan × AgencyLink) := do
  let found ← orRaise (linkId.bind (findLink t.plans))
    (.notFound "This agency link is unavailable. Ask the coordinator for a new link.")
  raiseIf (t.organization.kind ≠ .customer ∨ t.organization.accessStatus ≠ .active)
    (.notFound "This agency link is unavailable. Ask the coordinator for a new link.")
  raiseIf (found.2.revokedAt.isSome = true ∨ found.2.expiresAt ≤ now)
    (.notFound
      "This agency link has expired or was revoked. Ask the coordinator for a new link.")
  return found

/-- `get_context`: the session the signed cookie and the context key name. -/
def getContext (t : Tenant) (now : Instant) (contextId : Id) (browserNonce : String) :
    Result (MeasurementPlan × AgencyLink) := do
  let context ← orRaise
    (if browserNonce = "" then none
      else t.portalSessions.find? fun s =>
        s.id = contextId && s.browserDigest = sha.text browserNonce && now < s.expiresAt)
    (.notFound "Reopen your agency link to start a secure session.")
  lockedLink t now (some context.linkId)

/-- `report_data`: an agency sees the notes and particulars of its own return only. -/
structure ReportData where
  id : Id
  participantId : Id
  agencyName : String
  agencyRole : String
  submittedAt : Instant
  lines : List (Id × Option (Decimal 3) × LineStatus × Option String)
  particulars : Option (String × Instant × String × String)
  deriving DecidableEq, Repr

def reportData (plan : MeasurementPlan) (own : Bool) (s : Submission) : ReportData :=
  let participant := Table.get s.participantId plan.participants
  { id := s.id
    participantId := s.participantId
    agencyName := (participant.map Participant.name).getD ""
    agencyRole := (participant.map Participant.role).getD ""
    submittedAt := s.recordedAt
    lines := s.lines.map fun l =>
      (l.lineId, l.quantity, l.status, if own then some l.note else none)
    particulars :=
      if own then some (s.representative, s.observedAt, s.sourceReference, s.notes) else none }

/-- `context_data`: an agency sees its peers' returns only after its own, and never
the manifest baseline of a line. -/
structure ContextData where
  contextId : Id
  inputFingerprint : Digest
  agency : Option (Id × String × String × String)
  voyage : String × String × String × String × Instant
  lines : List CargoLine
  ownReport : Option ReportData
  completedPeers : List ReportData
  deriving DecidableEq, Repr

def contextData (t : Tenant) (contextId : Id) (plan : MeasurementPlan) (link : AgencyLink) :
    ContextData :=
  let own := link.submissionId.bind (Table.get · plan.submissions)
  let context := t.planContext plan
  { contextId := contextId
    inputFingerprint := portalFingerprint sha t plan
    agency := (Table.get link.participantId plan.participants).map fun p =>
      (p.id, p.name, p.role, p.representative)
    voyage := (context.vesselName, context.callReference, context.title, context.location,
      context.scheduledAt)
    lines := plan.lines.map fun l => { l with manifestQuantity := none, baselineReference := "" }
    ownReport := own.map (reportData plan true)
    completedPeers := if own.isSome then
        ((latestSubmissions plan).filter fun s => s.participantId ≠ link.participantId).map
          (reportData plan false)
      else [] }

/-- `PortalExchangeView.post`.  The browser keeps its nonce, or is given the fresh
one. -/
def portalExchange (t : Tenant) (ctx : Ctx) (token browserNonce freshNonce : String) :
    Result (Tenant × Id) := do
  field "token" (40 ≤ token.length && token.length ≤ 128)
  let linkId := (t.plans.flatMap MeasurementPlan.links).find? fun l => l.tokenDigest = sha.text token
  let (plan, link) ← lockedLink t ctx.now (linkId.map AgencyLink.id)
  if link.submissionId.isNone then do
    assertOpen t plan
    raiseIf (portalFingerprint sha t plan ≠ link.inputFingerprint)
      (.conflict "This voyage changed. Ask the coordinator for a new agency link.")
  insertKey "measurements_agencyportalsession_pkey" (ctx.uuid 0) (Table.keys t.portalSessions)
  let session : PortalSession := {
    id := ctx.uuid 0
    linkId := link.id
    browserDigest := sha.text (if browserNonce = "" then freshNonce else browserNonce)
    expiresAt := link.expiresAt }
  return ({ t with portalSessions := t.portalSessions ++ [session] }, session.id)

/-- The staff submission a portal body stands for: the server's own version of the
plan, the link's participant, no reason and no evidence. -/
def GuestSubmission.toInput (data : GuestSubmission) (plan : MeasurementPlan)
    (link : AgencyLink) : SubmissionInput where
  version := plan.version
  evidenceIds := []
  participantId := link.participantId
  observedAt := data.observedAt
  sourceReference := data.sourceReference
  notes := data.notes
  reason := ""
  lines := data.lines
  representative := some data.representative

/-- The first submission of a link: the return, and the link that now names it. -/
def guestSubmission (t : Tenant) (ctx : Ctx) (plan : MeasurementPlan) (link : AgencyLink)
    (data : GuestSubmission) : Result (MeasurementPlan × AgencyLink) := do
  assertOpen t plan
  raiseIf (data.inputFingerprint ≠ link.inputFingerprint ∨
      portalFingerprint sha t plan ≠ link.inputFingerprint)
    (.conflict "This voyage changed. Ask the coordinator for a new agency link.")
  raiseIf (plan.submissionsOf link.participantId ≠ [])
    (.conflict "A reading is already recorded for this agency")
  let plan ← createSubmission t ctx none plan (data.toInput plan link)
  let link := { link with
    submissionId := ((sortBy Submission.revision
      (plan.submissionsOf link.participantId)).getLast?).map Submission.id
    requestId := data.requestId
    requestDigest := sha.body data }
  return ({ plan with links := Table.put link plan.links }, link)

/-- `PortalSubmissionView.post`: a repeated request gets the recorded return, a
different one is refused. -/
def portalSubmission (t : Tenant) (ctx : Ctx) (browserNonce : String) (data : GuestSubmission) :
    Result (Tenant × ContextData) := do
  data.validate
  let (plan, link) ← getContext sha t ctx.now data.contextId browserNonce
  if link.submissionId.isSome then do
    raiseIf (link.requestId ≠ data.requestId ∨ link.requestDigest ≠ sha.body data)
      (.conflict "This agency already submitted. Ask the coordinator to record a correction.")
    return (t, contextData sha t data.contextId plan link)
  else do
    let (plan, link) ← guestSubmission sha t ctx plan link data
    let t := t.changed plan
    return (t, contextData sha t data.contextId plan.advance link)

end VesselCaller.Measurements
