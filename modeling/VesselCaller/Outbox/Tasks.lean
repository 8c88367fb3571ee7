import VesselCaller.Platform.Views
import VesselCaller.Lib.Locks

/-!
# The e-mail outbox

`accounts.services.queue_email` and `accounts.tasks`: an e-mail is a row of the outbox, written
with the change it tells of.  Workers deliver the rows.  One and the same row may be in the hands
of several of them, by its first publication, by the periodic sweep, by a retry or because the
broker delivers a message again.

A worker takes the lock of the organization, then that of the row, and calls the provider while
it holds both; the lifecycle of an organization takes the lock of the organization as well.  The
model follows each worker from one lock to the next, so any two of them may overlap.

## Main definitions

* `EmailOutbox`, `queueEmail` — the row, and how it is written;
* `Worker`, `Phase`, `State` — the workers, and the rows they have locked;
* `Move`, `handle` — everything that can happen, a worker's crash among it.
-/

namespace VesselCaller.Outbox

open Lib Accounts

/-! ## Rows -/

inductive OutboxStatus where
  | pending
  | sending
  | sent
  | failed
  deriving DecidableEq, Repr

/-- The stored context: encrypted, as rows from before the encryption have it, or redacted. -/
inductive OutboxContext where
  | ciphertext (text : String)
  | plain (json : String)
  | redacted
  deriving DecidableEq, Repr

structure EmailOutbox where
  id : Id
  organization : Option Id
  allowSuspendedOrganization : Bool
  allowPendingApprovalOrganization : Bool
  toEmail : String
  template : String
  subject : String
  context : OutboxContext
  idempotencyKey : String
  status : OutboxStatus
  attempts : ℕ
  providerId : String
  lastError : String
  sentAt : Option Instant
  createdAt : Instant
  updatedAt : Instant
  deriving DecidableEq, Repr

instance : Keyed EmailOutbox Id := ⟨EmailOutbox.id⟩

instance : Keyed Organization Id := ⟨Organization.id⟩

/-- The arguments of `queue_email`; the context comes encrypted. -/
structure EmailRequest where
  toEmail : String
  subject : String
  template : String
  ciphertext : String
  idempotencyKey : String
  organization : Option Id
  allowSuspendedOrganization : Bool
  allowPendingApprovalOrganization : Bool
  deriving DecidableEq, Repr

/-- The row `queue_email` creates. -/
def EmailRequest.row (r : EmailRequest) (ctx : Ctx) : EmailOutbox where
  id := ctx.uuid 0
  organization := r.organization
  allowSuspendedOrganization := r.allowSuspendedOrganization
  allowPendingApprovalOrganization := r.allowPendingApprovalOrganization
  toEmail := r.toEmail
  template := r.template
  subject := r.subject
  context := .ciphertext r.ciphertext
  idempotencyKey := r.idempotencyKey
  status := .pending
  attempts := 0
  providerId := ""
  lastError := ""
  sentAt := none
  createdAt := ctx.now
  updatedAt := ctx.now

/-- `queue_email`, with the row it creates, if it creates one.  The unique index makes the look
and the insertion one step. -/
def queueEmail (outbox : List EmailOutbox) (ctx : Ctx) (r : EmailRequest) :
    Result (Option EmailOutbox) := do
  raiseIf (r.organization = none)
    (.server "Transactional application email requires an organization scope")
  raiseIf (r.allowPendingApprovalOrganization = true ∧ r.template ≠ "verify_email")
    (.server "Only email-verification delivery may bypass pending approval")
  raiseIf (r.allowPendingApprovalOrganization = true ∧ r.allowSuspendedOrganization = true)
    (.server "An email cannot bypass both pending approval and suspension")
  if r.idempotencyKey ∈ outbox.map EmailOutbox.idempotencyKey then return none
  else do
    raiseIf (ctx.uuid 0 ∈ Table.keys outbox) (.integrity "accounts_emailoutbox_pkey")
    return some (r.row ctx)

/-! ## Deliveries -/

/-- The access states in which a row is delivered. -/
def mayDeliver (organization : Organization) (outbox : EmailOutbox) : Bool :=
  let pendingApprovalAllowed := organization.accessStatus = .pendingApproval &&
    outbox.allowPendingApprovalOrganization && outbox.template = "verify_email"
  let suspendedAllowed :=
    organization.accessStatus = .suspended && outbox.allowSuspendedOrganization
  organization.isAccessActive || (pendingApprovalAllowed || suspendedAllowed)

/-- The row with its delivery suppressed. -/
def EmailOutbox.suppress (outbox : EmailOutbox) (now : Instant) (reason : String) : EmailOutbox :=
  { outbox with status := .failed, lastError := reason, updatedAt := now }

/-- The row as the worker sends it. -/
def EmailOutbox.send (outbox : EmailOutbox) (now : Instant) : EmailOutbox :=
  { outbox with status := .sending, attempts := outbox.attempts + 1, updatedAt := now }

/-- The row after an exception. -/
def EmailOutbox.fail (outbox : EmailOutbox) (now : Instant) (error : String) : EmailOutbox :=
  { outbox with status := .failed, lastError := (error.take 2000).toString, updatedAt := now }

/-- The row once the provider has taken the message. -/
def EmailOutbox.complete (outbox : EmailOutbox) (now : Instant) (providerId : String) :
    EmailOutbox :=
  { outbox with
    status := .sent
    providerId := providerId
    sentAt := some now
    lastError := ""
    context := .redacted
    updatedAt := now }

/-- A call of the provider. -/
structure ProviderCall where
  outbox : Id
  toEmail : String
  subject : String
  template : String
  context : String
  idempotencyKey : String
  deriving DecidableEq, Repr

/-- The context that is delivered; `decrypt_secret` gives nothing where it fails. -/
def deliveryContext (decryptSecret : String → String) : OutboxContext → Option String
  | .ciphertext text => if decryptSecret text = "" then none else some (decryptSecret text)
  | .plain json => some json
  | .redacted => some "\x7b\"redacted\": true\x7d"

/-! ## The lifecycle of an organization -/

/-- The lifecycle services; whether the organization has a verified administrator is looked up
in the same transaction. -/
inductive Lifecycle where
  | approve (verifiedAdmin : Bool)
  | suspend
  | reactivate
  deriving DecidableEq, Repr

/-- The organization in another access state. -/
def withStatus (o : Organization) (status : AccessStatus) : Organization :=
  { o with accessStatus := status, revision := o.revision + 1 }

/-- What a lifecycle service writes to the row of the organization. -/
def Lifecycle.apply (o : Organization) : Lifecycle → Result Organization
  | .approve verifiedAdmin => do
      raiseIf (o.kind ≠ .customer)
        (.validation "" "Only customer organizations can be approved")
      raiseIf (o.accessStatus ≠ .pendingApproval)
        (.validation "" "Only organizations pending approval can be approved")
      raiseIf (o.registered = false ∨ verifiedAdmin = false)
        (.validation "" "Email verification must be completed before organization approval")
      return withStatus o .active
  | .suspend => do
      raiseIf (o.kind ≠ .customer)
        (.validation "" "Only customer organizations can be suspended")
      if o.accessStatus = .suspended then return o
      else do
        raiseIf (o.accessStatus ≠ .active)
          (.validation "" "Only active customer organizations can be suspended")
        return withStatus o .suspended
  | .reactivate => do
      raiseIf (o.kind ≠ .customer)
        (.validation "" "Only customer organizations can be reactivated")
      if o.accessStatus = .active then return o
      else do
        raiseIf (o.accessStatus ≠ .suspended)
          (.validation "" "Only suspended customer organizations can be reactivated")
        return withStatus o .active

/-! ## Workers -/

abbrev Worker := ℕ

/-- A row that is locked for update. -/
inductive Row where
  | organization (id : Id)
  | outbox (id : Id)
  deriving DecidableEq, Repr

/-- Where a worker is.  What it has read and what it has written and not yet committed is its
own. -/
inductive Phase where
  | idle
  | candidate (outboxId : Id) (organizationId : Option Id)
  | located (outboxId : Id) (organization : Option Organization)
  | sending (organization : Organization) (outbox : EmailOutbox)
  | recording (outbox : EmailOutbox)
  | change (op : Lifecycle) (organizationId : Id)
  | changing (organization : Organization)
  deriving DecidableEq, Repr

structure State where
  organizations : List Organization
  outbox : List EmailOutbox
  /-- The rows that have been published. -/
  messages : List Id
  locks : Locks Row Worker
  workers : Worker → Phase

/-- Why nothing happens: the worker waits for a lock, or has nothing to do. -/
inductive Blocked where
  | waiting
  | idle
  | refused (error : ApiError)
  deriving DecidableEq, Repr

/-- The worker goes on to another phase. -/
def State.enter (s : State) (w : Worker) (phase : Phase) : State :=
  { s with workers := Function.update s.workers w phase }

/-- The transaction of the worker ends. -/
def State.finish (s : State) (w : Worker) : State :=
  { s with locks := s.locks.release w }.enter w .idle

/-- The worker locks a row that nobody holds. -/
def State.lock (s : State) (w : Worker) (row : Row) : Except Blocked State := do
  raiseIf (s.locks row ≠ none) .waiting
  return { s with locks := s.locks.acquire row w }

/-- The rows that are not settled and that a sweep publishes again. -/
def pendingOutbox (outbox : List EmailOutbox) (now : Instant) : List Id :=
  let due := outbox.filter fun row =>
    row.status = .pending || (row.status = .sending && row.updatedAt + 600 < now)
  ((due.insertionSort fun a b =>
    a.createdAt < b.createdAt ∨ (a.createdAt = b.createdAt ∧ a.id ≤ b.id)).map
      EmailOutbox.id).take 100

section

variable (decryptSecret : String → String)

/-- The call of the provider and the row that is to be saved after it.  The provider is not
called when the context cannot be decrypted. -/
def deliver (outbox : EmailOutbox) (now : Instant) (answer : Except String String) :
    Option ProviderCall × EmailOutbox :=
  match deliveryContext decryptSecret outbox.context with
  | none => (none, outbox.fail now "Email outbox context could not be decrypted")
  | some context =>
      let call : ProviderCall := {
        outbox := outbox.id
        toEmail := outbox.toEmail
        subject := outbox.subject
        template := outbox.template
        context := context
        idempotencyKey := outbox.idempotencyKey }
      match answer with
      | .error error => (some call, outbox.fail now error)
      | .ok providerId => (some call, outbox.complete now providerId)

/-- `deliver_outbox_email` once both locks are held: the row as it is read under the lock is
settled, suppressed or sent. -/
def State.decide (s : State) (w : Worker) (now : Instant) (organization : Option Organization)
    (outbox : EmailOutbox) : State :=
  if outbox.status = .sent then s.finish w
  else match organization with
    | none =>
        if outbox.status = .failed then s.finish w
        else { s with outbox := Table.put (outbox.suppress now
          "Delivery suppressed because organization scope is missing") s.outbox }.finish w
    | some organization =>
        if mayDeliver organization outbox then
          s.enter w (.sending organization (outbox.send now))
        else { s with outbox := Table.put (outbox.suppress now
          "Delivery suppressed because organization access is not active") s.outbox }.finish w

/-- The next action of a worker: the lock it waits for, the call of the provider, or the commit
after it. -/
def State.advance (s : State) (w : Worker) (now : Instant) (answer : Except String String) :
    Phase → Except Blocked (State × Option ProviderCall)
  | .idle => .error .idle
  | .candidate outboxId none => return (s.enter w (.located outboxId none), none)
  | .candidate outboxId (some organizationId) => do
      let s ← s.lock w (.organization organizationId)
      match Table.get organizationId s.organizations with
      | none => return (s.finish w, none)
      | some organization => return (s.enter w (.located outboxId (some organization)), none)
  | .located outboxId organization => do
      let s ← s.lock w (.outbox outboxId)
      match Table.get outboxId s.outbox with
      | none => return (s.finish w, none)
      | some outbox => return (s.decide w now organization outbox, none)
  | .sending _ outbox =>
      let (call, outbox) := deliver decryptSecret outbox now answer
      return (s.enter w (.recording outbox), call)
  | .recording outbox =>
      return ({ s with outbox := Table.put outbox s.outbox }.finish w, none)
  | .change op organizationId => do
      let s ← s.lock w (.organization organizationId)
      match Table.get organizationId s.organizations with
      | none => return (s.finish w, none)
      | some organization =>
          match op.apply organization with
          | .error _ => return (s.finish w, none)
          | .ok organization => return (s.enter w (.changing organization), none)
  | .changing organization =>
      return ({ s with organizations := Table.put organization s.organizations }.finish w, none)

/-- What may happen next.  A publication may fail, and a message may be delivered more than once,
as a retry does; a worker may crash anywhere but between the call of the provider and the commit after it. -/
inductive Move where
  | queue (ctx : Ctx) (request : EmailRequest) (published : Bool)
  | dispatch (now : Instant) (published : ℕ)
  | receive (w : Worker) (outboxId : Id)
  | lifecycle (w : Worker) (op : Lifecycle) (organizationId : Id)
  | advance (w : Worker) (now : Instant) (answer : Except String String)
  | crash (w : Worker)

/-- One move, with the call of the provider it makes. -/
def handle (s : State) : Move → Except Blocked (State × Option ProviderCall)
  | .queue ctx request published =>
      match queueEmail s.outbox ctx request with
      | .error error => .error (.refused error)
      | .ok none => return (s, none)
      | .ok (some row) =>
          let messages := if published then row.id :: s.messages else s.messages
          return ({ s with outbox := row :: s.outbox, messages := messages }, none)
  | .dispatch now published =>
      return ({ s with
        messages := (pendingOutbox s.outbox now).take published ++ s.messages }, none)
  | .receive w outboxId => do
      raiseIf (s.workers w ≠ .idle ∨ outboxId ∉ s.messages) .idle
      match Table.get outboxId s.outbox with
      | none => return (s, none)
      | some outbox => return (s.enter w (.candidate outboxId outbox.organization), none)
  | .lifecycle w op organizationId => do
      raiseIf (s.workers w ≠ .idle) .idle
      return (s.enter w (.change op organizationId), none)
  | .advance w now answer => s.advance decryptSecret w now answer (s.workers w)
  | .crash w =>
      match s.workers w with
      | .recording _ => .error .idle
      | _ => return (s.finish w, none)

end

end VesselCaller.Outbox
