import VesselCaller.Core
import VesselCaller.Lib.Keyed
import VesselCaller.Lib.Service

/-!
# The session of a tab

`auth/AuthContext.tsx` over `lib/authSessionEpoch.ts` and the request queue of `lib/api.ts`: how
one tab hydrates and refreshes its session, signs in, verifies a second factor and signs out.

All of these are asynchronous.  Requests that may change the session cookie go through one queue
and are performed one at a time; a sign-in does not enter it before the last sign-out has been
answered.  A completion handler runs some time after its request has settled, and compares three
counters with those it has taken down when it started.  The model takes the tab from one such
moment to the next, in any order the queue allows, with the events of other tabs in between.

## Main definitions

* `Tab` — the counters, the view and the calls that are under way;
* `Tab.issue`, `Tab.await`, `Tab.settle` — a call starts, waits for the queue, and is answered;
* `Event`, `handle` — everything that can happen to a tab.
-/

namespace VesselCaller.Auth

open Lib

/-! ## Sessions -/

/-- An `AuthSession`, with the user and the organization by their ids. -/
structure AuthSession where
  user : Id
  org : Option Id
  permissions : List String
  platformAccess : Option (List String)
  deriving DecidableEq, Repr

structure TemporaryPasswordChallenge where
  passwordChangeToken : String
  passwordChangeExpiresAt : String
  deriving DecidableEq, Repr

inductive Status where
  | loading
  | authenticated
  | anonymous
  | unavailable
  deriving DecidableEq, Repr

/-- What the provider holds for the application to see, with the identity of the session it has
applied last. -/
structure View where
  status : Status
  user : Option Id
  org : Option Id
  platformAccess : Option (List String)
  permissions : List String
  authError : Option String
  sessionExpired : Bool
  passwordChangeChallenge : Option TemporaryPasswordChallenge
  identity : Option Id
  deriving DecidableEq, Repr

/-- The counters a request takes down when it starts. -/
structure AuthRequest where
  generation : ℕ
  sessionEpoch : ℕ
  identityIntent : ℕ
  deriving DecidableEq, Repr

/-- Who asks `/me`. -/
inductive MeCaller where
  | hydrate
  | refresh
  | retry
  | reconcile
  deriving DecidableEq, Repr

/-- The identity operations. -/
inductive IdentityOperation where
  | login
  | verifyMfa
  | completeTemporaryPassword (challenge : TemporaryPasswordChallenge)
  deriving DecidableEq, Repr

inductive Call where
  | me (caller : MeCaller) (request : AuthRequest)
  | identity (op : IdentityOperation) (request : AuthRequest) (localIdentityOperation : ℕ)
  | logout
  deriving DecidableEq, Repr

/-- Where a call is: behind the last sign-out, in the queue, at the server, or settled, with its
handler still to run. -/
inductive Stage where
  | waiting
  | queued
  | performing
  | settled
  deriving DecidableEq, Repr

structure Flight where
  id : ℕ
  call : Call
  stage : Stage
  /-- The sign-out that must be answered first. -/
  barrier : Option ℕ
  deriving DecidableEq, Repr

instance : Keyed Flight ℕ := ⟨Flight.id⟩

structure Tab where
  authSessionEpoch : ℕ
  authGeneration : ℕ
  identityIntent : ℕ
  localIdentityOperation : ℕ
  logoutBarrier : Option ℕ
  externalAuthTransitions : List String
  view : View
  /-- The calls in the queue; the first of them is the one that is performed. -/
  queue : List ℕ
  flights : List Flight
  nextFlight : ℕ
  deriving DecidableEq, Repr

/-! ## Counters -/

def Tab.advanceAuthSessionEpoch (t : Tab) : Tab :=
  { t with authSessionEpoch := t.authSessionEpoch + 1 }

/-- What a request takes down now. -/
def Tab.request (t : Tab) : AuthRequest where
  generation := t.authGeneration
  sessionEpoch := t.authSessionEpoch
  identityIntent := t.identityIntent

/-- `beginAuthRequest`; the request is the `request` of the tab that comes out. -/
def Tab.beginAuthRequest (t : Tab) : Tab := { t with authGeneration := t.authGeneration + 1 }

/-- `beginIdentityRequest`. -/
def Tab.beginIdentityRequest (t : Tab) : Tab :=
  { t with
    identityIntent := t.identityIntent + 1
    localIdentityOperation := t.localIdentityOperation + 1 }.advanceAuthSessionEpoch.beginAuthRequest

/-- `rebaseIdentityRequest`, where the operation is still the newest one. -/
def Tab.rebaseIdentityRequest (t : Tab) : Tab := t.advanceAuthSessionEpoch.beginAuthRequest

def Tab.isCurrentAuthRequest (t : Tab) (request : AuthRequest) : Bool := t.request = request

def Tab.isCurrentSessionEpoch (t : Tab) (request : AuthRequest) : Bool :=
  t.authSessionEpoch = request.sessionEpoch && t.identityIntent = request.identityIntent

/-! ## The state of the session -/

/-- The view of a tab nobody is signed in to. -/
def View.cleared (expired : Bool) : View where
  status := .anonymous
  user := none
  org := none
  platformAccess := none
  permissions := []
  authError := none
  sessionExpired := expired
  passwordChangeChallenge := none
  identity := none

def Tab.clearSessionState (t : Tab) (expired : Bool) : Tab :=
  { t with
    authGeneration := t.authGeneration + 1
    identityIntent := t.identityIntent + 1
    view := .cleared expired }

/-- `clearSession`; whether other tabs hear of it makes no difference here. -/
def Tab.clearSession (t : Tab) (expired : Bool) : Tab :=
  t.advanceAuthSessionEpoch.clearSessionState expired

def Tab.applySession (t : Tab) (session : AuthSession) : Tab :=
  { t with view := {
      status := .authenticated
      user := some session.user
      org := session.org
      platformAccess := session.platformAccess
      permissions := (session.permissions ++ session.platformAccess.getD []).dedup
      authError := none
      sessionExpired := false
      passwordChangeChallenge := none
      identity := some session.user } }

/-- `commitSession`. -/
def Tab.commitSession (t : Tab) (session : AuthSession) (request : AuthRequest) : Tab :=
  if t.isCurrentAuthRequest request then t.advanceAuthSessionEpoch.applySession session else t

/-- `settleIdentityAttemptWithoutSession`. -/
def Tab.settleIdentityAttemptWithoutSession (t : Tab) (generation : ℕ) : Tab :=
  if t.authGeneration ≠ generation ∨ t.view.identity ≠ none then t
  else { t with view := { t.view with status := .anonymous } }

def unreachable : String :=
  "We could not reach the secure session service. Check your connection and try again."

/-! ## Calls -/

/-- A call that goes to the queue. -/
def Tab.issue (t : Tab) (call : Call) : Tab :=
  { t with
    queue := t.queue ++ [t.nextFlight]
    flights := ⟨t.nextFlight, call, .queued, none⟩ :: t.flights
    nextFlight := t.nextFlight + 1 }

/-- A call that waits for the last sign-out. -/
def Tab.await (t : Tab) (call : Call) : Tab :=
  { t with
    flights := ⟨t.nextFlight, call, .waiting, t.logoutBarrier⟩ :: t.flights
    nextFlight := t.nextFlight + 1 }

/-- The call ends. -/
def Tab.drop (t : Tab) (id : ℕ) : Tab :=
  { t with flights := t.flights.filter fun f => f.id ≠ id }

/-- The call is at another stage. -/
def Tab.move (t : Tab) (f : Flight) (call : Call) (stage : Stage) : Tab :=
  { t with flights := Table.put { f with call := call, stage := stage } t.flights }

/-- What a caller of `/me` does before it asks. -/
def Tab.startMe (t : Tab) (caller : MeCaller) : Tab :=
  let t := t.beginAuthRequest
  let t := if caller = .retry then
      { t with view := { t.view with status := .loading, authError := none } }
    else t
  t.issue (.me caller t.request)

/-- A temporary password is completed only while its challenge is held. -/
def Tab.mayStart (t : Tab) : IdentityOperation → Bool
  | .completeTemporaryPassword challenge => t.view.passwordChangeChallenge = some challenge
  | _ => true

/-- What an identity operation does before it waits. -/
def Tab.startIdentity (t : Tab) (op : IdentityOperation) : Tab :=
  let t := if op = .login then { t with view := { t.view with passwordChangeChallenge := none } }
    else t
  let t := t.beginIdentityRequest
  t.await (.identity op t.request t.localIdentityOperation)

/-- `logout`; the sign-out becomes the barrier of what comes after it. -/
def Tab.startLogout (t : Tab) : Tab :=
  let t := { t with localIdentityOperation := t.localIdentityOperation + 1 }.clearSession false
  { t.await .logout with logoutBarrier := some t.nextFlight }

/-- The call goes on once its barrier has been answered.  An identity operation that is not the
newest one ends; the newest one takes the counters down again. -/
def Tab.resume (t : Tab) (f : Flight) : Tab :=
  match f.call with
  | .identity op _ localIdentityOperation =>
      if localIdentityOperation ≠ t.localIdentityOperation then t.drop f.id
      else
        let t := t.rebaseIdentityRequest
        match op with
        | .completeTemporaryPassword challenge =>
            if t.view.passwordChangeChallenge ≠ some challenge then t.drop f.id
            else { t.move f (.identity op t.request localIdentityOperation) .queued with
              queue := t.queue ++ [f.id] }
        | _ => { t.move f (.identity op t.request localIdentityOperation) .queued with
            queue := t.queue ++ [f.id] }
  | call => { t.move f call .queued with queue := t.queue ++ [f.id] }

/-- The call is performed: `/me` takes the epoch down again, and a transition of the identity is
published. -/
def Tab.perform (t : Tab) (f : Flight) : Tab :=
  match f.call with
  | .me caller request =>
      t.move f (.me caller { request with sessionEpoch := t.authSessionEpoch }) .performing
  | call => t.advanceAuthSessionEpoch.move f call .performing

/-- The call gives up before it is performed. -/
def Tab.abandon (t : Tab) (f : Flight) : Tab :=
  { t with queue := t.queue.tail }.move f f.call .settled

/-- The response is there, or will not come; the end of a transition is published. -/
def Tab.settle (t : Tab) (f : Flight) : Tab :=
  let t := { t with queue := t.queue.tail }
  match f.call with
  | .me _ _ => t.move f f.call .settled
  | call => t.advanceAuthSessionEpoch.move f call .settled

/-! ## Completions -/

/-- What a caller of `/me` is answered. -/
inductive MeAnswer where
  | session (session : AuthSession)
  | anonymous
  | failure
  deriving DecidableEq, Repr

/-- What an identity operation is answered. -/
inductive IdentityAnswer where
  | session (session : AuthSession)
  | mfaRequired
  | passwordChangeRequired (challenge : TemporaryPasswordChallenge)
  | organizationSelectionRequired
  | failure
  deriving DecidableEq, Repr

/-- The completion of `refreshSession`, `retrySession`, `reconcileExternalSession` and of the
hydration. -/
def Tab.completeMe (t : Tab) (caller : MeCaller) (request : AuthRequest) : MeAnswer → Tab
  | .session session => t.commitSession session request
  | .anonymous =>
      if t.isCurrentSessionEpoch request then t.clearSession (caller = .refresh) else t
  | .failure =>
      if t.isCurrentAuthRequest request then
        match caller with
        | .refresh => t
        | .retry => { t with view := { t.view with
            user := none
            org := none
            platformAccess := none
            permissions := []
            status := .unavailable
            authError := some unreachable } }
        | _ => { t with view := { t.view with
            status := .unavailable
            authError := some unreachable } }
      else t

/-- `commitIdentitySession`, or the question whose session it is now. -/
def Tab.commitIdentitySession (t : Tab) (session : AuthSession) (generation : ℕ) : Tab :=
  if t.authGeneration = generation then t.applySession session else t.startMe .reconcile

/-- The completion of an identity operation, where the server may answer it so. -/
def Tab.completeIdentity (t : Tab) (op : IdentityOperation) (generation : ℕ)
    (answer : IdentityAnswer) : Option Tab :=
  match op, answer with
  | _, .failure => some (t.settleIdentityAttemptWithoutSession generation)
  | .login, .passwordChangeRequired challenge =>
      if t.authGeneration ≠ generation then
        some (t.settleIdentityAttemptWithoutSession generation)
      else
        let t := t.clearSessionState false
        some { t with view := { t.view with passwordChangeChallenge := some challenge } }
  | .login, .organizationSelectionRequired =>
      if t.authGeneration ≠ generation then
        some (t.settleIdentityAttemptWithoutSession generation)
      else some (t.clearSessionState false)
  | .login, .mfaRequired => some (t.settleIdentityAttemptWithoutSession generation)
  | .login, .session session => some (t.commitIdentitySession session generation)
  | .verifyMfa, .session session => some (t.commitIdentitySession session generation)
  | .completeTemporaryPassword _, .mfaRequired =>
      if t.authGeneration ≠ generation then some (t.startMe .reconcile)
      else
        let t := { t with view := { t.view with passwordChangeChallenge := none } }
        some (t.settleIdentityAttemptWithoutSession generation)
  | .completeTemporaryPassword _, .session session =>
      some (t.commitIdentitySession session generation)
  | _, _ => none

/-! ## Events -/

/-- An event of another tab. -/
inductive BoundaryEvent where
  | boundary
  | start (transitionId : String)
  | settled (transitionId : String)
  deriving DecidableEq, Repr

/-- The listener of the boundary: what is bound to an identity goes before the server is asked,
which waits until every transition has settled. -/
def Tab.receive (t : Tab) (e : BoundaryEvent) : Tab :=
  let t := t.advanceAuthSessionEpoch.clearSessionState false
  let t := { t with view := { t.view with status := .loading } }
  match e with
  | .start transitionId =>
      { t with externalAuthTransitions :=
          transitionId :: t.externalAuthTransitions.filter (· ≠ transitionId) }
  | .settled transitionId =>
      let t := { t with externalAuthTransitions :=
        t.externalAuthTransitions.filter (· ≠ transitionId) }
      if t.externalAuthTransitions ≠ [] then t else t.startMe .reconcile
  | .boundary => { t with externalAuthTransitions := [] }.startMe .reconcile

inductive Event where
  | me (caller : MeCaller)
  | identity (op : IdentityOperation)
  | logout
  | boundary (e : BoundaryEvent)
  | watchdog (transitionId : String)
  | expired
  | resume (flight : ℕ)
  | perform (flight : ℕ)
  | abandon (flight : ℕ)
  | settle (flight : ℕ)
  | meAnswered (flight : ℕ) (answer : MeAnswer)
  | identityAnswered (flight : ℕ) (answer : IdentityAnswer)
  | logoutAnswered (flight : ℕ)
  deriving DecidableEq, Repr

/-- The call with this number, at this stage. -/
def Tab.flightAt (t : Tab) (id : ℕ) (stage : Stage) : Except Unit Flight :=
  orRaise ((Table.get id t.flights).filter fun f => f.stage = stage) ()

/-- One event. -/
def handle (t : Tab) : Event → Except Unit (Tab × Unit)
  | .me caller => return (t.startMe caller, ())
  | .identity op => do
      raiseIf (t.mayStart op = false) ()
      return (t.startIdentity op, ())
  | .logout => return (t.startLogout, ())
  | .boundary e => return (t.receive e, ())
  | .watchdog transitionId => do
      raiseIf (transitionId ∉ t.externalAuthTransitions) ()
      let t := { t with externalAuthTransitions :=
        t.externalAuthTransitions.filter (· ≠ transitionId) }
      return (if t.externalAuthTransitions ≠ [] then t else t.startMe .reconcile, ())
  | .expired => return (t.clearSession true, ())
  | .resume id => do
      let f ← t.flightAt id .waiting
      raiseIf (f.barrier.any (· ∈ Table.keys t.flights) = true) ()
      return (t.resume f, ())
  | .perform id => do
      let f ← t.flightAt id .queued
      raiseIf (t.queue.head? ≠ some id) ()
      return (t.perform f, ())
  | .abandon id => do
      let f ← t.flightAt id .queued
      raiseIf (t.queue.head? ≠ some id) ()
      return (t.abandon f, ())
  | .settle id => do
      let f ← t.flightAt id .performing
      return (t.settle f, ())
  | .meAnswered id answer => do
      let f ← t.flightAt id .settled
      match f.call with
      | .me caller request => return ((t.drop id).completeMe caller request answer, ())
      | _ => .error ()
  | .identityAnswered id answer => do
      let f ← t.flightAt id .settled
      match f.call with
      | .identity op request _ => do
          let t ← orRaise ((t.drop id).completeIdentity op request.generation answer) ()
          return (t, ())
      | _ => .error ()
  | .logoutAnswered id => do
      let f ← t.flightAt id .settled
      match f.call with
      | .logout => return (t.drop id, ())
      | _ => .error ()

end VesselCaller.Auth
