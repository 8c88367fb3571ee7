import VesselCaller.Measurements.Views
import VesselCaller.Operations.Views
import VesselCaller.Billing.Views
import VesselCaller.Organizations.Views
import VesselCaller.Accounts.Auth
import VesselCaller.Lib.Service

/-!
# The backend of one organization, as a request service

`Request` is what reaches the backend and `Tenant.handle` what it does: authorize
the actor under the organization lock, then run the endpoint.  A request that is
refused anywhere leaves no trace, because `TenantLifecycleAPIView.dispatch` rolls a
handled error back; so the runs of the backend are the runs of `Lib.run` over this
handler.

`Tenant.Initial` is an organization as registration leaves it.

## Main definitions

* `Request`, `Response`, `Tenant.handle` — the service every run is a run of;
* `Tenant.authorize` — the check before every staff request;
* `Tenant.Initial` — a newly registered organization.
-/

namespace VesselCaller

open Lib Accounts Billing Operations Measurements

inductive Request where
  | measurements (actor : Id) (ctx : Ctx) (op : Measurements.Op)
  | portal (ctx : Ctx) (op : PortalOp)
  | operations (actor : Id) (ctx : Ctx) (op : Operations.Op)
  | billing (actor : Id) (ctx : Ctx) (op : Billing.Op)
  | organizations (actor : Id) (ctx : Ctx) (op : Organizations.Op)
  | users (actor : Id) (ctx : Ctx) (op : UserOp)
  | auth (ctx : Ctx) (op : AuthOp)

inductive Response where
  | measurements (r : Measurements.Response)
  | operations (r : Operations.Response)
  | billing (r : Billing.Response)
  | organizations (r : Organizations.Response)
  | accounts (r : Accounts.Response)

/-- Authorize the actor, as `HasVesselPermission` does. -/
def Tenant.authorize (t : Tenant) (ctx : Ctx) (actor : Id) (permission : Permission) :
    Result User :=
  requirePermission t.toAccountScope ctx.now actor permission

/-- One request to the backend. -/
def Tenant.handle (sha : Sha256) (t : Tenant) : Request → Result (Tenant × Response)
  | .measurements actor ctx op => do
      let _ ← t.authorize ctx actor op.permission
      let (t, response) ← op.handle sha t ctx actor
      return (t, .measurements response)
  | .portal ctx op => do
      let (t, response) ← op.handle sha t ctx
      return (t, .measurements response)
  | .operations actor ctx op => do
      let _ ← t.authorize ctx actor op.permission
      let (t, response) ← op.handle t ctx
      return (t, .operations response)
  | .billing actor ctx op => do
      let _ ← t.authorize ctx actor op.permission
      let (t, response) ← op.handle t ctx actor
      return (t, .billing response)
  | .organizations actor ctx op => do
      let _ ← t.authorize ctx actor op.permission
      let (t, response) ← op.handle t
      return (t, .organizations response)
  | .users actor ctx op => do
      let _ ← t.authorize ctx actor .usersManage
      let (scope, response) ← op.handle t.toAccountScope ctx actor
      return ({ t with toAccountScope := scope }, .accounts response)
  | .auth ctx op => do
      let (scope, response) ← op.handle t.toAccountScope ctx
      return ({ t with toAccountScope := scope }, .accounts response)

/-- An organization as registration leaves it: the default workflow steps are
provisioned, the settings are valid, and nothing has been recorded yet. -/
structure Tenant.Initial (t : Tenant) : Prop where
  steps : ∃ ctx, ensureDefaultSteps ctx [] = .ok t.steps
  settings : Organizations.settingsValid t.settings = true
  sequences : t.sequences = []
  calls : t.calls = []
  inspections : t.inspections = []
  invoices : t.invoices = []
  plans : t.plans = []
  portalSessions : t.portalSessions = []

/-! ## A port with one measured call

A concrete history on which the hypotheses of the theorems below can be met: two
administrators, one call, one plan that is measured, approved by the second
administrator, assessed and invoiced. -/

namespace Sample

/-- The context of the `n`-th request. -/
def ctx (n : ℕ) : Ctx where
  now := 1767225600 + n
  utcOffset := 3600
  uuid := fun k => 10000 * n + k

/-- A hash that never collides. -/
def sha : Sha256 where
  source := .source
  portal := .portal
  body := .body
  text := id

def admin (id : Id) (name : String) : User where
  id := id
  name := name
  email := name
  pendingEmail := ""
  role := .admin
  status := .active
  emailVerifiedAt := some 1767000000
  adminProvisionedAt := none
  passwordChangeRequired := false
  temporaryPasswordExpiresAt := none
  password := ⟨id, "correct horse battery"⟩
  mfaSecret := ""
  mfaEnabledAt := none
  mfaGraceEndsAt := none
  isStaff := false
  isSuperuser := false
  lastLogin := none
  createdAt := 1767000000
  removedAt := none

def organization : Organization where
  id := 1
  kind := .customer
  accessStatus := .active
  registered := true
  name := "Port Agency"
  rcNumber := "RC-1"
  email := "office@port.example"
  phone := ""
  address := ""
  primaryPort := "Apapa"
  ports := ["Apapa"]
  logoObjectKey := ""
  revision := 1

/-- The organization as registration leaves it. -/
def tenant : Tenant where
  organization := organization
  users := [admin 1 "ada", admin 2 "bola"]
  tokens := []
  challenges := []
  sessions := []
  platformGrants := []
  recoveryCodes := []
  invitations := []
  signupLinks := []
  joinRequests := []
  settings := {
    commissionRate := 500
    exchangeRate := 15000000
    governmentLiquidRate := 3000
    privateLiquidRate := 4000
    internationalLiquidRate := 5000
    dryDuesRate := 2000
    portName := "Apapa"
    terminals := [] }
  steps := defaultWorkflowSteps.zipIdx.map fun d => defaultStep (1000 + d.2) d.1
  sequences := []
  calls := []
  inspections := []
  invoices := []
  agencies := []
  plans := []
  portalSessions := []

theorem initial : tenant.Initial where
  steps := ⟨ctx 0, by decide +kernel⟩
  settings := by decide +kernel
  sequences := rfl
  calls := rfl
  inspections := rfl
  invoices := rfl
  plans := rfl
  portalSessions := rfl

/-- The call 10000, of a thousand net tons. -/
def registered : Request := .operations 1 (ctx 1) (.createCall
  { vesselName := some "MV Lagos", reference := some "ROT-1", nrt := some 1000000 })

/-- The call is inspected for dry cargo, completed and billed at once. -/
def inspected : List Request := [
  registered,
  .operations 1 (ctx 2) (.createInspection
    { callId := some 10000, cargoType := some .dry, completed := true } "")]

/-- The call is inspected for liquid cargo without a classified jetty. -/
def unrated : List Request := [
  registered,
  .operations 1 (ctx 2) (.createInspection
    { callId := some 10000, cargoType := some .liquid, completed := true } "")]

/-- The call is cancelled while the inspection 20000 of it is a draft. -/
def abandoned : List Request := [
  registered,
  .operations 1 (ctx 2) (.createInspection
    { callId := some 10000, cargoType := some .dry } ""),
  .operations 1 (ctx 3) (.cancelCall 10000 "Vessel diverted" none)]

/-- The plan 20000 of the call with its participant 20100 and its line 20200. -/
def planned : List Request := [
  registered,
  .measurements 1 (ctx 2) (.createPlan {
    callId := 10000
    title := "Discharge survey"
    scheduledAt := 1767300000
    method := "Ullage"
    stage := "Discharge"
    scope := "All tanks"
    leadSurveyor := "ada"
    participants := [{ agencyId := none, name := "Terminal", role := "Receiver" }]
    lines := [{
      description := "Gas oil"
      category := "Liquid"
      direction := "Import"
      unit := .tonnes
      basis := "Metric tonnes"
      manifestQuantity := some 1000000
      baselineReference := "BL-1" }] })]

/-- A return of 1,200 tonnes against the manifest's 1,000, and the proposal to
reconcile on it. -/
def proposed : List Request := planned ++ [
  .measurements 1 (ctx 3) (.submit 20000 {
    version := 1
    participantId := 20100
    observedAt := 1767310000
    sourceReference := "LOG-1"
    lines := [⟨20200, .reported, some 1200000, ""⟩] }),
  .measurements 1 (ctx 4) (.addEvidence 20000 {
    fileName := "signed.pdf"
    contentType := "application/pdf"
    size := 1024
    checksum := "sha256:0123456789abcdef0123456789abcdef0123456789abcdef0123456789abcdef"
    source := some 20000
    destination := "evidence/signed.pdf"
    storage := none }),
  .measurements 1 (ctx 5) (.propose 20000 {
    version := 2
    reason := "Agreed at the terminal"
    lines := [⟨20200, 1200000, "Ullage survey"⟩] })]

/-- The proposal is followed by the cancellation of the plan. -/
def withdrawn : List Request := proposed ++ [
  .measurements 1 (ctx 6) (.patchPlan 20000
    { version := 3, cancelled := true, reason := some "Vessel diverted" })]

/-- The terminal agrees and the second administrator finalizes. -/
def finalized : List Request := proposed ++ [
  .measurements 1 (ctx 6) (.approve 20000 50000 {
    version := 3
    evidenceIds := [40000]
    participantId := 20100
    decision := .agreed
    representative := "Terminal manager"
    reference := "ACK-1" }),
  .measurements 2 (ctx 7) (.finalize 20000 50000 4)]

/-- The disparity of 200 tonnes is charged at 2.50 a tonne. -/
def assessed : List Request := finalized ++ [
  .measurements 1 (ctx 8) (.assess 20000 {
    version := 5
    reconciliationId := 50000
    payer := "Terminal"
    currency := "USD"
    policy := .manifestDisparity
    tariffReference := "Tariff 2026"
    reason := "Disparity"
    openingChargesReference := "None"
    lines := [{
      lineId := 20200
      rate := ⟨false, 25000⟩
      tolerance := ⟨false, 0⟩
      toleranceMode := .threshold
      openingBilledAmount := ⟨false, 0⟩ }] })]

def issue : Request := .measurements 1 (ctx 9) (.issue 20000 80000 6)

/-- The assessment is invoiced: the invoice is 90001. -/
def invoiced : List Request := assessed ++ [issue]

/-- A part payment is recorded, repeated under its key, reversed, and then the whole
balance is paid. -/
def paid : List Request := invoiced ++ [
  .billing 1 (ctx 10) (.createPayment 90001
    { amount := some 20000, paidOn := 20458, method := "Transfer", reference := "TRF-1" } "first"),
  .billing 1 (ctx 11) (.createPayment 90001
    { amount := some 20000, paidOn := 20458, method := "Transfer", reference := "TRF-1" } "first"),
  .billing 1 (ctx 12) (.reversePayment 100000 "Wrong account"),
  .billing 1 (ctx 13) (.createPayment 90001
    { paidOn := 20459, method := "Transfer", reference := "TRF-2" } "second")]

/-- The plan 20000 for two participants, 20100 and 20101, whose links 30000 and 40000 are
exchanged for the sessions 50000 and 60000. -/
def linked : List Request := [
  registered,
  .measurements 1 (ctx 2) (.createPlan {
    callId := 10000
    title := "Discharge survey"
    scheduledAt := 1767300000
    method := "Ullage"
    stage := "Discharge"
    scope := "All tanks"
    leadSurveyor := "ada"
    participants := [
      { agencyId := none, name := "Terminal", role := "Receiver" },
      { agencyId := none, name := "Surveyor", role := "Independent" }]
    lines := [{
      description := "Gas oil"
      category := "Liquid"
      direction := "Import"
      unit := .tonnes
      basis := "Metric tonnes"
      manifestQuantity := some 1000000
      baselineReference := "BL-1" }] }),
  .measurements 1 (ctx 3) (.createLink 20000 20100 7 "terminal-terminal-terminal-terminal-token"),
  .measurements 1 (ctx 4) (.createLink 20000 20101 7 "surveyor-surveyor-surveyor-surveyor-token"),
  .portal (ctx 5) (.exchange "terminal-terminal-terminal-terminal-token" "" "terminal-browser"),
  .portal (ctx 6) (.exchange "surveyor-surveyor-surveyor-surveyor-token" "" "surveyor-browser")]

/-- The member 10000 is provisioned with a temporary password. -/
def provision : Request := .users 1 (ctx 1) (.provision {
  name := "Chidi"
  email := "chidi"
  role := .viewer
  temporaryPassword := "kQ4vFirstaA7!" })

/-- It signs in with that password. -/
def firstLogin : Request := .auth (ctx 2) (.login "chidi" "kQ4vFirstaA7!" "token-1" none false)

/-- The administrator draws another temporary password. -/
def regenerate : Request := .users 1 (ctx 3) (.regenerate 10000 "Zt9wSecondaA7!")

/-- The member signs in with the new password and chooses the first one. -/
def chosenAgain : List Request := [
  .auth (ctx 4) (.login "chidi" "Zt9wSecondaA7!" "token-2" none false),
  .auth (ctx 5) (.completeTemporaryPassword "token-2" ⟨"kQ4vFirstaA7!", true⟩)]

/-- The administrator 1 signs in, enrolls a second factor and forgets the password. -/
def enrolled : List Request := [
  .auth (ctx 1) (.login "ada" "correct horse battery" "" none false),
  .auth (ctx 2) (.confirmMfa 10012 "JBSWY3DPEHPK3PXP" true []),
  .auth (ctx 3) (.forgotPassword "ada" "reset-1" false)]

/-- A login that proves the password, and is answered with the challenge 40011. -/
def oldLogin : Request :=
  .auth (ctx 4) (.login "ada" "correct horse battery" "" none false)

def reset : Request := .auth (ctx 5) (.resetPassword "reset-1" ⟨"staple tugboat 99", true⟩)

/-- A right code for a challenge, in the `n`-th request. -/
def verify (n challenge : ℕ) : Request := .auth (ctx n) (.verifyMfa
  { challenge := challenge, code := "492039", totp := true, throttled := false,
    blocked := false, customerSession := false })

end Sample

end VesselCaller
