import VesselCaller.Platform.Serializers

/-!
# Idempotent system mutations

`api.platform_idempotency` wraps every system mutation.  Under the lock of the one platform
organization it reserves a record for the actor and the key of the request, runs the view,
and completes the record with the response, all in one transaction; so the wrapped requests
are served one after another, and one that raises anywhere leaves nothing behind.  Between
two of them other transactions may change the platform's accounts and the organizations.

The wrapper does not know what it wraps: a view is any function on the rest of the database,
the `world`, that raises or answers.

## Main definitions

* `idempotentSystemMutation` — the wrapper;
* `CanonicalRequest` — what of a request the digest is made from;
* `Attempt`, `executes` — an attempt, and whether it runs the view;
* `Executed` — the attempt was executed in the run, with this response.
-/

namespace VesselCaller.Platform

open Lib Accounts

/-! ## Records -/

/-- A status code an `HttpResponse` accepts. -/
abbrev HttpStatus := { n : ℕ // 100 ≤ n ∧ n ≤ 599 }

inductive MutationStatus where
  | pending
  | completed
  deriving DecidableEq, Repr

/-- A `PlatformMutationRequest`; `D` is the type of the hashes. -/
structure PlatformMutationRequest (D : Type) where
  actor : Id
  key : String
  action : String
  requestHash : D
  status : MutationStatus
  responseStatus : Option HttpStatus
  responseBody : Option Data
  deriving DecidableEq, Repr

instance (D : Type) : Keyed (PlatformMutationRequest D) (Id × String) := ⟨fun m => (m.actor, m.key)⟩

/-- The database as the wrapper sees it. -/
structure PlatformState (W D : Type) where
  accounts : AccountScope
  mutations : List (PlatformMutationRequest D)
  world : W

/-! ## Requests -/

/-- A request to a system endpoint: its session, the `Idempotency-Key` header after `strip()`,
and what the view reads. -/
structure SystemRequest where
  user : Id
  mfaVerifiedAt : Option Instant
  idempotencyKey : String
  method : String
  path : String
  organizationId : Id
  body : Body
  deriving DecidableEq, Repr

structure HttpResponse where
  status : HttpStatus
  data : Data
  deriving DecidableEq, Repr

/-- A view, and the action it is wrapped with. -/
structure Endpoint (W : Type) where
  action : String
  func : W → Ctx → User → SystemRequest → Result (W × HttpResponse)

/-- What `_request_hash` hashes the JSON text of. -/
structure CanonicalRequest where
  action : String
  method : String
  path : String
  body : Data
  deriving DecidableEq, Repr

def canonicalRequest (action : String) (request : SystemRequest) : CanonicalRequest :=
  ⟨action, request.method, request.path, request.body.dumped⟩

/-- `IDEMPOTENCY_KEY`. -/
def validIdempotencyKey (key : String) : Bool :=
  8 ≤ key.length && key.length ≤ 128 &&
    key.toList.all fun c => c.isAlphanum || c = '.' || c = '_' || c = ':' || c = '-'

/-- `SYSTEM_ADMIN_MFA_STEP_UP_SECONDS`. -/
def stepUpSeconds : ℕ := 900

/-- The System Administrator of the platform organization behind the session. -/
def operationalActor (s : AccountScope) (now : Instant) (userId : Id) : Option User :=
  (Table.get userId s.users).filter fun u =>
    s.organization.kind = .platform && s.organization.isAccessActive && u.status = .active &&
      u.emailVerifiedAt.isSome && !u.isStaff && !u.isSuperuser && u.mfaEnabled &&
      activePlatformGrant s u now

/-- What the wrapper checks before it looks at the records. -/
def admitActor (s : AccountScope) (ctx : Ctx) (request : SystemRequest) : Result User := do
  raiseIf (validIdempotencyKey request.idempotencyKey = false) (.validation "idempotencyKey"
    "Provide an opaque Idempotency-Key of 8 to 128 safe characters")
  let actor ← orRaise (operationalActor s ctx.now request.user)
    (.permissionDenied "System administrator access is required")
  raiseIf (request.mfaVerifiedAt.any (fun verified =>
      verified ≤ ctx.now && ctx.now - verified ≤ stepUpSeconds) = false)
    (.permissionDenied "Recent multi-factor verification is required")
  return actor

/-! ## The wrapper -/

section

variable {W D : Type} [DecidableEq D] (sha : CanonicalRequest → D)

/-- `get_or_create` of the record. -/
def PlatformState.reserve (s : PlatformState W D) (fresh : PlatformMutationRequest D) :
    PlatformState W D × PlatformMutationRequest D :=
  match Table.get (key fresh) s.mutations with
  | some mutation => (s, mutation)
  | none => ({ s with mutations := fresh :: s.mutations }, fresh)

/-- The record a request reserves. -/
def reservation (action : String) (actor : Id) (request : SystemRequest) :
    PlatformMutationRequest D where
  actor := actor
  key := request.idempotencyKey
  action := action
  requestHash := sha (canonicalRequest action request)
  status := .pending
  responseStatus := none
  responseBody := none

/-- The record once the view has answered. -/
def PlatformMutationRequest.complete (m : PlatformMutationRequest D) (response : HttpResponse) :
    PlatformMutationRequest D :=
  { m with
    status := .completed
    responseStatus := some response.status
    responseBody := some response.data }

/-- The response of a completed record. -/
def PlatformMutationRequest.replay (m : PlatformMutationRequest D) : HttpResponse where
  status := m.responseStatus.getD ⟨200, by decide⟩
  data := m.responseBody.getD .null

/-- What else may be raised inside the transaction: before the record is there, and between
the view's answer and the commit. -/
structure Faults where
  reserving : Option ApiError
  completing : Option ApiError
  deriving DecidableEq, Repr

/-- A request to a wrapped view. -/
structure Attempt (W : Type) where
  endpoint : Endpoint W
  ctx : Ctx
  request : SystemRequest
  faults : Faults

/-- `idempotent_system_mutation`.  The views answer with JSON values, which the round trip
through `json` leaves as they are. -/
def idempotentSystemMutation (s : PlatformState W D) (a : Attempt W) :
    Result (PlatformState W D × HttpResponse) := do
  let actor ← admitActor s.accounts a.ctx a.request
  raiseSome a.faults.reserving
  let fresh := reservation sha a.endpoint.action actor.id a.request
  let (s, mutation) := s.reserve fresh
  raiseIf (mutation.action ≠ a.endpoint.action ∨ mutation.requestHash ≠ fresh.requestHash)
    (.conflict "That Idempotency-Key was already used for another request")
  if mutation.status = .completed then return (s, mutation.replay)
  else do
    let (world, response) ← a.endpoint.func s.world a.ctx actor a.request
    raiseSome a.faults.completing
    return ({ s with
      world := world
      mutations := Table.put (mutation.complete response) s.mutations }, response)

/-- `SystemOrganizationDetailView.patch` on the scope of the organization. -/
def updateEndpoint (lib : Library) : Endpoint AccountScope where
  action := "system.organization.update"
  func s _ _ request := do
    let s ← updateOrganization lib s request.organizationId request.body
    return (s, ⟨⟨200, by decide⟩, .dict [
      ("organization", (systemOrganizationData s).data),
      ("rev", .int s.organization.revision)]⟩)

/-- A system mutation, or transactions of others. -/
inductive MutationEvent (W : Type) where
  | attempt (a : Attempt W)
  | elsewhere (accounts : AccountScope) (world : W)

/-- One event. -/
def handleMutation (s : PlatformState W D) :
    MutationEvent W → Result (PlatformState W D × Option HttpResponse)
  | .attempt a => do
      let (s, response) ← idempotentSystemMutation sha s a
      return (s, some response)
  | .elsewhere accounts world => pure ({ s with accounts := accounts, world := world }, none)

/-! ## What a run promises -/

/-- What a mutation is identified by. -/
def Attempt.id (a : Attempt W) : Id × String := (a.request.user, a.request.idempotencyKey)

def Attempt.canonical (a : Attempt W) : CanonicalRequest :=
  canonicalRequest a.endpoint.action a.request

/-- The attempt gets as far as the records. -/
def Attempt.admitted (a : Attempt W) (s : PlatformState W D) : Bool :=
  (admitActor s.accounts a.ctx a.request).isOk && a.faults.reserving.isNone

/-- The view is run for `id`, and what it does is committed. -/
def executes (id : Id × String) (s : PlatformState W D) : MutationEvent W → Bool
  | .attempt a => a.id = id && (handleMutation sha s (.attempt a)).isOk &&
      (Table.get id s.mutations).all fun m => m.status ≠ .completed
  | .elsewhere _ _ => false

/-- The attempt was executed in the run, with this response. -/
def Executed (s₀ : PlatformState W D) (past : List (MutationEvent W)) (a : Attempt W)
    (response : HttpResponse) : Prop :=
  ∃ before after s', past = before ++ .attempt a :: after ∧
    executes sha a.id (run (handleMutation sha) s₀ before) (.attempt a) = true ∧
    handleMutation sha (run (handleMutation sha) s₀ before) (.attempt a) = .ok (s', some response)

/-- A request for the same. -/
structure Attempt.Same (a₀ a : Attempt W) : Prop where
  action : a₀.endpoint.action = a.endpoint.action
  method : a₀.request.method = a.request.method
  path : a₀.request.path = a.request.path
  body : a₀.request.body = a.request.body

/-- A request with another action, path or body. -/
def Attempt.Other (a₀ a : Attempt W) : Prop :=
  a₀.endpoint.action ≠ a.endpoint.action ∨ a₀.request.path ≠ a.request.path ∨
    a₀.request.body ≠ a.request.body

/-- Another body, of which the same text is hashed. -/
def Attempt.Collides (a₀ a : Attempt W) : Prop :=
  a₀.canonical = a.canonical ∧ a₀.request.body ≠ a.request.body

/-- What the wrapper does for an attempt under a new key. -/
def Attempt.performed (a : Attempt W) (s : PlatformState W D) :
    Result (PlatformState W D × Option HttpResponse) := do
  let actor ← admitActor s.accounts a.ctx a.request
  raiseSome a.faults.reserving
  let (world, response) ← a.endpoint.func s.world a.ctx actor a.request
  raiseSome a.faults.completing
  let mutation := (reservation sha a.endpoint.action actor.id a.request).complete response
  return ({ s with world := world, mutations := mutation :: s.mutations }, some response)

/-- What is promised about an attempt in the state `t`, in which others were `executed`. -/
structure IdempotentAt (executed : Attempt W → HttpResponse → Prop) (t : PlatformState W D)
    (a : Attempt W) : Prop where
  idle : executes sha a.id t (.attempt a) = false → serve (handleMutation sha) t (.attempt a) = t
  replayed : ∀ a₀ response, executed a₀ response → a₀.id = a.id → a₀.Same a →
    a.admitted t = true → handleMutation sha t (.attempt a) = .ok (t, some response)
  refused : ∀ a₀ response, executed a₀ response → a₀.id = a.id → a₀.Other a →
    (handleMutation sha t (.attempt a)).isOk = false
  afresh : (∀ a₀ response, executed a₀ response → a₀.id ≠ a.id) →
    Table.get a.id t.mutations = none ∧ handleMutation sha t (.attempt a) = a.performed sha t

/-- The effects under every key are applied at most once, and every attempt of the run is
executed, replayed or refused as it should be. -/
structure IdempotentRun (s₀ : PlatformState W D) (es : List (MutationEvent W)) : Prop where
  once : ∀ id, countAlong (handleMutation sha) (executes sha id) s₀ es ≤ 1
  each : ∀ past a later, es = past ++ .attempt a :: later →
    IdempotentAt sha (Executed sha s₀ past) (run (handleMutation sha) s₀ past) a

end

/-! ## Records of executed attempts -/

section

variable {W D : Type} {sha : CanonicalRequest → D} {s : PlatformState W D} {a : Attempt W}
  {response : HttpResponse}

/-- The record the attempt leaves when it is executed. -/
def Attempt.record (sha : CanonicalRequest → D) (a : Attempt W) (response : HttpResponse) :
    PlatformMutationRequest D :=
  (reservation sha a.endpoint.action a.request.user a.request).complete response

/-- The attempt has been executed with this response. -/
def Recorded (sha : CanonicalRequest → D) (s : PlatformState W D) (a : Attempt W)
    (response : HttpResponse) : Prop :=
  Table.get a.id s.mutations = some (a.record sha response)

/-- Every record is that of an attempt that has been executed. -/
def Settled (sha : CanonicalRequest → D) (s : PlatformState W D) : Prop :=
  ∀ id, Table.get id s.mutations = none ∨
    ∃ (a : Attempt W) (response : HttpResponse), a.id = id ∧ Recorded sha s a response

/-- The state once the attempt is executed. -/
def executedState (sha : CanonicalRequest → D) (s : PlatformState W D) (a : Attempt W) (world : W)
    (response : HttpResponse) : PlatformState W D :=
  { s with world := world, mutations := a.record sha response :: s.mutations }

theorem recorded_executedState (s : PlatformState W D) (a : Attempt W) (world : W)
    (response : HttpResponse) : Recorded sha (executedState sha s a world response) a response :=
  List.find?_cons_of_pos (decide_eq_true rfl)

theorem get_executedState_of_ne {id : Id × String} {world : W} (h : a.id ≠ id) :
    Table.get id (executedState sha s a world response).mutations = Table.get id s.mutations :=
  List.find?_cons_of_neg fun hkey => h (of_decide_eq_true hkey)

theorem get_of_recorded {id : Id × String} (h : Recorded sha s a response) (hid : a.id = id) :
    Table.get id s.mutations = some (a.record sha response) :=
  hid ▸ h

theorem Settled.nil {s : PlatformState W D} (h : s.mutations = []) : Settled sha s := by
  intro id
  rw [h]
  exact .inl rfl

end

/-! ## One attempt -/

theorem operationalActor_id {t : AccountScope} {now : Instant} {userId : Id} {actor : User}
    (h : operationalActor t now userId = some actor) : actor.id = userId := by
  obtain ⟨hfound, _⟩ := Option.filter_eq_some_iff.mp h
  exact (Table.mem_of_get hfound).2

theorem admit_id {s : AccountScope} {ctx : Ctx} {request : SystemRequest} {actor : User}
    (h : admitActor s ctx request = .ok actor) : actor.id = request.user := by
  simp only [admitActor, bind_eq_ok, orRaise_eq_ok, pure_eq_ok] at h
  obtain ⟨_, _, found, hactor, _, _, rfl⟩ := h
  exact operationalActor_id hactor

section

variable {W D : Type} [DecidableEq D] {sha : CanonicalRequest → D} {s s' : PlatformState W D}
  {a a₀ : Attempt W} {response response₀ : HttpResponse}

/-- **An attempt under the key of an executed one** is compared with the record of it. -/
theorem handleMutation_recorded (h : Recorded sha s a₀ response₀) (hid : a₀.id = a.id) :
    handleMutation sha s (.attempt a) = (do
      let _ ← admitActor s.accounts a.ctx a.request
      raiseSome a.faults.reserving
      raiseIf (a₀.endpoint.action ≠ a.endpoint.action ∨ sha a₀.canonical ≠ sha a.canonical)
        (.conflict "That Idempotency-Key was already used for another request")
      return (s, some response₀)) := by
  simp only [handleMutation, idempotentSystemMutation]
  cases hadmit : admitActor s.accounts a.ctx a.request with
  | error e => rfl
  | ok actor =>
      have hkey : key (reservation sha a.endpoint.action actor.id a.request) = a.id := by
        rw [admit_id hadmit]
        rfl
      have hreserve : s.reserve (reservation sha a.endpoint.action actor.id a.request) =
          (s, a₀.record sha response₀) := by
        rw [Recorded, hid] at h
        rw [PlatformState.reserve, hkey, h]
      cases hfault : a.faults.reserving with
      | some e => rfl
      | none =>
          simp only [ok_bind, raiseSome, hreserve]
          have hguard : (a₀.record sha response₀).action ≠ a.endpoint.action ∨
              (a₀.record sha response₀).requestHash ≠
                (reservation sha a.endpoint.action actor.id a.request).requestHash ↔
              a₀.endpoint.action ≠ a.endpoint.action ∨ sha a₀.canonical ≠ sha a.canonical := Iff.rfl
          by_cases hother : a₀.endpoint.action ≠ a.endpoint.action ∨
              sha a₀.canonical ≠ sha a.canonical
          · rw [raiseIf_of_pos (hguard.mpr hother), raiseIf_of_pos hother]
            rfl
          · rw [raiseIf_of_not (mt hguard.mp hother), raiseIf_of_not hother]
            rfl

/-- **An attempt under a new key** is executed, and leaves its record. -/
theorem handleMutation_fresh (h : Table.get a.id s.mutations = none) :
    handleMutation sha s (.attempt a) = a.performed sha s := by
  simp only [handleMutation, idempotentSystemMutation, Attempt.performed]
  cases hadmit : admitActor s.accounts a.ctx a.request with
  | error e => rfl
  | ok actor =>
      cases hfault : a.faults.reserving with
      | some e => rfl
      | none =>
          have hkey : key (reservation sha a.endpoint.action actor.id a.request) = a.id := by
            rw [admit_id hadmit]
            rfl
          have hreserve : s.reserve (reservation sha a.endpoint.action actor.id a.request) =
              ({ s with mutations := reservation sha a.endpoint.action actor.id a.request ::
                s.mutations }, reservation sha a.endpoint.action actor.id a.request) := by
            rw [PlatformState.reserve, hkey, h]
          have hguard : ¬((reservation sha a.endpoint.action actor.id a.request).action ≠
              a.endpoint.action ∨
              (reservation sha a.endpoint.action actor.id a.request).requestHash ≠
                (reservation sha a.endpoint.action actor.id a.request).requestHash) := by
            rintro (haction | hhash)
            · exact haction rfl
            · exact hhash rfl
          have hnew : ∀ m ∈ s.mutations, key m ≠ a.id := fun m hm hid =>
            Table.get_eq_none_iff.mp h (Table.mem_keys.mpr ⟨m, hm, hid⟩)
          have hput (response : HttpResponse) :
              Table.put ((reservation sha a.endpoint.action actor.id a.request).complete response)
                (reservation sha a.endpoint.action actor.id a.request :: s.mutations) =
              (reservation sha a.endpoint.action actor.id a.request).complete response ::
                s.mutations :=
            Table.put_cons_self rfl (hkey ▸ hnew)
          simp only [ok_bind, raiseSome, hreserve, raiseIf_of_not hguard, hput]
          cases hfunc : a.endpoint.func s.world a.ctx actor a.request with
          | error e => rfl
          | ok answer => cases a.faults.completing <;> rfl

omit [DecidableEq D] in
theorem performed_eq_ok {answer : Option HttpResponse}
    (h : a.performed sha s = .ok (s', answer)) :
    ∃ world response, answer = some response ∧ s' = executedState sha s a world response := by
  simp only [Attempt.performed, bind_eq_ok, pure_eq_ok, Prod.exists, Prod.mk.injEq] at h
  obtain ⟨actor, hadmit, _, _, world, response, _, _, _, rfl, rfl⟩ := h
  refine ⟨world, response, rfl, ?_⟩
  rw [executedState, Attempt.record, admit_id hadmit]

/-- **What an attempt that is not refused does**: it is a replay, or the first one under its key
to be executed. -/
theorem handleMutation_eq_ok (hs : Settled sha s) {answer : Option HttpResponse}
    (h : handleMutation sha s (.attempt a) = .ok (s', answer)) :
    (s' = s ∧ ∃ a₀ response₀, a₀.id = a.id ∧ Recorded sha s a₀ response₀ ∧
      a₀.endpoint.action = a.endpoint.action ∧ sha a₀.canonical = sha a.canonical ∧
      answer = some response₀) ∨
    (Table.get a.id s.mutations = none ∧ ∃ world response, answer = some response ∧
      s' = executedState sha s a world response) := by
  obtain hnone | ⟨a₀, response₀, hid, hrecorded⟩ := hs a.id
  · rw [handleMutation_fresh hnone] at h
    exact .inr ⟨hnone, performed_eq_ok h⟩
  · rw [handleMutation_recorded hrecorded hid] at h
    simp only [bind_eq_ok, raiseIf_eq_ok, pure_eq_ok, Prod.mk.injEq, not_or, not_not] at h
    obtain ⟨_, _, _, _, _, ⟨haction, hhash⟩, rfl, rfl⟩ := h
    exact .inl ⟨rfl, a₀, response₀, hid, hrecorded, haction, hhash, rfl⟩

namespace Settled

variable {e : MutationEvent W} {answer : Option HttpResponse}

theorem step (hs : Settled sha s) (h : handleMutation sha s e = .ok (s', answer)) :
    Settled sha s' := by
  cases e with
  | elsewhere accounts world =>
      obtain ⟨rfl, _⟩ := Prod.mk.inj (pure_eq_ok.mp h)
      exact hs
  | attempt a =>
      obtain ⟨rfl, _⟩ | ⟨_, world, response, _, rfl⟩ := handleMutation_eq_ok hs h
      · exact hs
      · intro id
        by_cases hid : a.id = id
        · exact .inr ⟨a, response, hid, recorded_executedState s a world response⟩
        · rw [get_executedState_of_ne hid]
          obtain hnone | ⟨a₀, response₀, hid₀, hrecorded⟩ := hs id
          · exact .inl hnone
          · refine .inr ⟨a₀, response₀, hid₀, ?_⟩
            rw [Recorded, hid₀, get_executedState_of_ne hid]
            exact get_of_recorded hrecorded hid₀

/-- A record stays as it is. -/
theorem get_step (hs : Settled sha s) {id : Id × String} {m : PlatformMutationRequest D}
    (hm : Table.get id s.mutations = some m) (h : handleMutation sha s e = .ok (s', answer)) :
    Table.get id s'.mutations = some m := by
  cases e with
  | elsewhere accounts world =>
      obtain ⟨rfl, _⟩ := Prod.mk.inj (pure_eq_ok.mp h)
      exact hm
  | attempt a =>
      obtain ⟨rfl, _⟩ | ⟨hnone, world, response, _, rfl⟩ := handleMutation_eq_ok hs h
      · exact hm
      · rw [get_executedState_of_ne]
        · exact hm
        · rintro rfl
          rw [hnone] at hm
          cases hm

theorem run (hs : Settled sha s) (es : List (MutationEvent W)) :
    Settled sha (run (handleMutation sha) s es) :=
  run_invariant step es hs

theorem get_run (hs : Settled sha s) {id : Id × String} {m : PlatformMutationRequest D}
    (hm : Table.get id s.mutations = some m) (es : List (MutationEvent W)) :
    Table.get id (Lib.run (handleMutation sha) s es).mutations = some m := by
  have hstep : ∀ {s₁ : PlatformState W D} {e : MutationEvent W} {s₂ : PlatformState W D} {answer},
      Settled sha s₁ ∧ Table.get id s₁.mutations = some m →
        handleMutation sha s₁ e = .ok (s₂, answer) →
          Settled sha s₂ ∧ Table.get id s₂.mutations = some m := by
    rintro s₁ e s₂ answer ⟨hs₁, hm₁⟩ h
    exact ⟨hs₁.step h, hs₁.get_step hm₁ h⟩
  exact (run_invariant hstep es ⟨hs, hm⟩).2

/-- Only an attempt under a new key is executed. -/
theorem get_of_executes (hs : Settled sha s) {id : Id × String}
    (h : executes sha id s (.attempt a) = true) : a.id = id ∧ Table.get id s.mutations = none := by
  simp only [executes, Bool.and_eq_true, decide_eq_true_eq] at h
  obtain ⟨⟨hid, _⟩, hall⟩ := h
  refine ⟨hid, ?_⟩
  obtain hnone | ⟨a₀, response₀, hid₀, hrecorded⟩ := hs id
  · exact hnone
  · rw [get_of_recorded hrecorded hid₀] at hall
    simp [Attempt.record, PlatformMutationRequest.complete] at hall

/-- What is accepted and not executed changes nothing. -/
theorem serve_of_not_executes (hs : Settled sha s)
    (h : executes sha a.id s (.attempt a) = false) :
    serve (handleMutation sha) s (.attempt a) = s := by
  obtain hserve | ⟨s', answer, hok, hserve⟩ := serve_cases (handleMutation sha) s (.attempt a)
  · exact hserve
  · rw [hserve]
    obtain ⟨rfl, _⟩ | ⟨hnone, _⟩ := handleMutation_eq_ok hs hok
    · rfl
    · simp [executes, hok, hnone, Except.isOk, Except.toBool] at h

end Settled

/-- **The effects under one key are applied at most once.** -/
theorem executes_once (hs : Settled sha s) (id : Id × String) (es : List (MutationEvent W)) :
    countAlong (handleMutation sha) (executes sha id) s es ≤ 1 := by
  refine countAlong_le_one (I := Settled sha)
    (P := fun s => ∃ m, Table.get id s.mutations = some m) Settled.step ?_ ?_ ?_ hs es
  · rintro s₁ e s₂ answer hs₁ ⟨m, hm⟩ h
    exact ⟨m, hs₁.get_step hm h⟩
  · intro s₁ e error h
    cases e with
    | elsewhere accounts world => rfl
    | attempt a => simp [executes, h, Except.isOk, Except.toBool]
  · intro s₁ e s₂ answer hs₁ hexecutes h
    cases e with
    | elsewhere accounts world => cases hexecutes
    | attempt a =>
        obtain ⟨rfl, hnone⟩ := hs₁.get_of_executes hexecutes
        refine ⟨by simp [hnone], ?_⟩
        obtain ⟨_, a₀, response₀, hid₀, hrecorded, _⟩ | ⟨_, world, response, _, rfl⟩ :=
          handleMutation_eq_ok hs₁ h
        · rw [get_of_recorded hrecorded hid₀] at hnone
          cases hnone
        · exact ⟨_, recorded_executedState s₁ a world response⟩

/-! ## Runs -/

variable {s₀ : PlatformState W D} {past : List (MutationEvent W)}

/-- An executed attempt stays on record. -/
theorem Executed.recorded (h₀ : Settled sha s₀) (h : Executed sha s₀ past a response) :
    Recorded sha (run (handleMutation sha) s₀ past) a response := by
  obtain ⟨before, after, s', rfl, hexecutes, hok⟩ := h
  have hbefore := h₀.run before
  obtain ⟨_, hnone⟩ := hbefore.get_of_executes hexecutes
  rw [run_append, run_cons, serve_of_ok _ hok]
  refine (hbefore.step hok).get_run ?_ after
  obtain ⟨_, a₀, response₀, hid₀, hrecorded, _⟩ | ⟨_, world, response', hresponse, rfl⟩ :=
    handleMutation_eq_ok hbefore hok
  · rw [get_of_recorded hrecorded hid₀] at hnone
    cases hnone
  · cases hresponse
    exact recorded_executedState _ a world response

/-- Every record goes back to an executed attempt. -/
theorem exists_executed (h₀ : s₀.mutations = []) {id : Id × String}
    (h : Table.get id (run (handleMutation sha) s₀ past).mutations ≠ none) :
    ∃ a response, Executed sha s₀ past a response ∧ a.id = id := by
  have hstart : ¬Table.get id s₀.mutations ≠ none := by
    rw [h₀]
    exact not_not_intro rfl
  obtain ⟨before, e, after, s', answer, rfl, hbefore, hok, hafter⟩ :=
    exists_accepted_of_run (P := fun s : PlatformState W D => Table.get id s.mutations ≠ none) past hstart h
  rw [not_not] at hbefore
  have hsettled : Settled sha (run (handleMutation sha) s₀ before) := (Settled.nil h₀).run before
  cases e with
  | elsewhere accounts world =>
      obtain ⟨rfl, _⟩ := Prod.mk.inj (pure_eq_ok.mp hok)
      exact absurd hbefore hafter
  | attempt a =>
      obtain ⟨rfl, _⟩ | ⟨hnone, world, response, rfl, rfl⟩ := handleMutation_eq_ok hsettled hok
      · exact absurd hbefore hafter
      · by_cases hid : a.id = id
        · refine ⟨a, response, ⟨before, after, _, rfl, ?_, hok⟩, hid⟩
          simp [executes, hok, hnone, Except.isOk, Except.toBool]
        · rw [get_executedState_of_ne hid] at hafter
          exact absurd hbefore hafter

omit [DecidableEq D] in
/-- The compared hashes of two requests. -/
theorem canonical_eq (hsha : Function.Injective sha) :
    (a₀.endpoint.action = a.endpoint.action ∧ sha a₀.canonical = sha a.canonical) ↔
      a₀.canonical = a.canonical := by
  constructor
  · rintro ⟨_, hhash⟩
    exact hsha hhash
  · intro h
    exact ⟨congrArg CanonicalRequest.action h, congrArg sha h⟩

/-- An admitted attempt under the key of an executed one is accepted when the hashes agree. -/
theorem handleMutation_of_recorded (hsha : Function.Injective sha)
    (h : Recorded sha s a₀ response₀) (hid : a₀.id = a.id) (hadmitted : a.admitted s = true)
    (hcanonical : a₀.canonical = a.canonical) :
    handleMutation sha s (.attempt a) = .ok (s, some response₀) := by
  obtain ⟨haction, hhash⟩ := (canonical_eq hsha).mpr hcanonical
  rw [Attempt.admitted, Bool.and_eq_true, isOk_iff, Option.isNone_iff_eq_none] at hadmitted
  obtain ⟨⟨actor, hadmit⟩, hfault⟩ := hadmitted
  rw [handleMutation_recorded h hid, hadmit, hfault]
  simp [haction, hhash, ok_bind, raiseSome, raiseIf]

/-- It is refused when they do not. -/
theorem canonical_of_isOk (hsha : Function.Injective sha) (h : Recorded sha s a₀ response₀)
    (hid : a₀.id = a.id) (hok : (handleMutation sha s (.attempt a)).isOk = true) :
    a.admitted s = true ∧ a₀.canonical = a.canonical := by
  obtain ⟨answer, hok⟩ := isOk_iff.mp hok
  rw [handleMutation_recorded h hid] at hok
  simp only [bind_eq_ok, raiseSome_eq_ok, raiseIf_eq_ok, not_or, not_not] at hok
  obtain ⟨actor, hadmit, _, hfault, _, hcompared, _⟩ := hok
  refine ⟨?_, (canonical_eq hsha).mp hcompared⟩
  rw [Attempt.admitted, hadmit, hfault]
  rfl

theorem Attempt.Same.canonical (h : a₀.Same a) : a₀.canonical = a.canonical := by
  rw [Attempt.canonical, Attempt.canonical, canonicalRequest, canonicalRequest, h.action, h.method,
    h.path, h.body]

/-- A request for something else with the same canonical text differs in its body only. -/
theorem Attempt.Other.collides (h : a₀.Other a) (hcanonical : a₀.canonical = a.canonical) :
    a₀.Collides a := by
  refine ⟨hcanonical, ?_⟩
  obtain haction | hpath | hbody := h
  · exact absurd (congrArg CanonicalRequest.action hcanonical) haction
  · exact absurd (congrArg CanonicalRequest.path hcanonical) hpath
  · exact hbody

/-- Two JSON bodies never collide. -/
theorem Attempt.not_collides_of_json {data₀ data : Data} (h₀ : a₀.request.body = .json data₀)
    (h : a.request.body = .json data) : ¬a₀.Collides a := by
  rintro ⟨hcanonical, hbody⟩
  have hdata := congrArg CanonicalRequest.body hcanonical
  simp only [Attempt.canonical, canonicalRequest, h₀, h, Body.dumped] at hdata
  exact hbody (by rw [h₀, h, hdata])

/-- **The condition of an attempt.**  All that is promised about it holds when it does not get
past the check of the hashes with another body than an executed attempt under its key. -/
theorem idempotentAt (hsha : Function.Injective sha) (h₀ : s₀.mutations = [])
    (hcollides : ∀ a₀ response, Executed sha s₀ past a₀ response → a₀.id = a.id →
      a.admitted (run (handleMutation sha) s₀ past) = true → ¬a₀.Collides a) :
    IdempotentAt sha (Executed sha s₀ past) (run (handleMutation sha) s₀ past) a where
  idle := ((Settled.nil h₀).run past).serve_of_not_executes
  replayed a₀ response hexecuted hid hsame hadmitted :=
    handleMutation_of_recorded hsha (hexecuted.recorded (.nil h₀)) hid hadmitted hsame.canonical
  refused a₀ response hexecuted hid hother := by
    rw [Bool.eq_false_iff]
    intro hok
    obtain ⟨hadmitted, hcanonical⟩ :=
      canonical_of_isOk hsha (hexecuted.recorded (.nil h₀)) hid hok
    exact hcollides a₀ response hexecuted hid hadmitted (hother.collides hcanonical)
  afresh hnew := by
    have hnone : Table.get a.id (run (handleMutation sha) s₀ past).mutations = none := by
      by_contra hsome
      obtain ⟨a₀, response, hexecuted, hid⟩ := exists_executed h₀ hsome
      exact hnew a₀ response hexecuted hid
    exact ⟨hnone, handleMutation_fresh hnone⟩

/-- **Idempotency of the system mutations.**  With a hash that never collides, the promises hold
of a run exactly when no admitted request that reuses the key of an executed one has another
body with the same canonical text. -/
theorem idempotent_iff (hsha : Function.Injective sha) (h₀ : s₀.mutations = [])
    (es : List (MutationEvent W)) :
    IdempotentRun sha s₀ es ↔
      ∀ past a later a₀ response, es = past ++ .attempt a :: later →
        Executed sha s₀ past a₀ response → a₀.id = a.id →
        a.admitted (run (handleMutation sha) s₀ past) = true → ¬a₀.Collides a := by
  constructor
  · rintro ⟨_, each⟩ past a later a₀ response hsplit hexecuted hid hadmitted hcollides
    have hrefused := (each past a later hsplit).refused a₀ response hexecuted hid
      (.inr (.inr hcollides.2))
    rw [handleMutation_of_recorded hsha (hexecuted.recorded (.nil h₀)) hid hadmitted
      hcollides.1] at hrefused
    cases hrefused
  · intro hcollides
    refine ⟨fun id => executes_once (.nil h₀) id es, fun past a later hsplit => ?_⟩
    exact idempotentAt hsha h₀ fun a₀ response => hcollides past a later a₀ response hsplit

end

/-! ## Sample runs -/

namespace Sample

open VesselCaller.Sample

/-- The platform organization with its one administrator. -/
def platformAccounts : AccountScope :=
  { tenant.toAccountScope with
    organization := { organization with id := 9, kind := .platform }
    users := [{ admin 99 "root" with mfaSecret := "S", mfaEnabledAt := some 1767000000 }]
    platformGrants := [⟨99, none, none⟩] }

def platform : PlatformState AccountScope CanonicalRequest where
  accounts := platformAccounts
  mutations := []
  world := tenant.toAccountScope

/-- The library on texts of Latin letters without surrounding blanks. -/
def library : Library where
  strip := id
  casefold text := String.ofList (text.toList.map Char.toLower)
  validEmail _ := true
  parseInt text := if text = "1" then some 1 else none

/-- The `n`-th request is an update of the organization 1 under one key. -/
def update (n : ℕ) (body : Body) : Attempt AccountScope where
  endpoint := updateEndpoint library
  ctx := ctx n
  request := {
    user := 99
    mfaVerifiedAt := some 1767225600
    idempotencyKey := "update-1"
    method := "PATCH"
    path := "/api/system/organizations/1"
    organizationId := 1
    body := body }
  faults := ⟨none, none⟩

/-- Two ports are sent, and then one of them. -/
def twoPorts : Attempt AccountScope :=
  update 1 (.form [("ports", ["Apapa", "Tin Can"]), ("revision", ["1"])])

def onePort : Attempt AccountScope :=
  update 2 (.form [("ports", ["Tin Can"]), ("revision", ["1"])])

/-- An update, a retry of it and another one under its key. -/
def renames : List (Attempt AccountScope) :=
  [(1, "Harbour Agency"), (2, "Harbour Agency"), (3, "Port Agency")].map fun (n, name) =>
    update n (.json (.dict [("name", .str name), ("revision", .int 1)]))

end Sample

/-- A run of JSON requests keeps all promises. -/
theorem idempotent_iff_renames :
    IdempotentRun id Sample.platform (Sample.renames.map .attempt) := by
  refine (idempotent_iff Function.injective_id rfl _).mpr ?_
  intro past a later a₀ response hsplit hexecuted _ _
  have hjson : ∀ b : Attempt AccountScope, .attempt b ∈ Sample.renames.map MutationEvent.attempt →
      ∃ data, b.request.body = .json data := by
    intro b hb
    obtain ⟨b', hb', hbb'⟩ := List.mem_map.mp hb
    cases hbb'
    obtain ⟨⟨n, name⟩, _, rfl⟩ := List.mem_map.mp hb'
    exact ⟨_, rfl⟩
  obtain ⟨data₀, h₀⟩ := hjson a₀ (by
    obtain ⟨before, after, _, rfl, _⟩ := hexecuted
    simp [hsplit])
  obtain ⟨data, h⟩ := hjson a (by simp [hsplit])
  exact Attempt.not_collides_of_json h₀ h

/-- **A form repeats a field.**  Under the key of a request for two ports a request for one of
them is answered as if it were the same. -/
theorem form_collides : ¬IdempotentRun id Sample.platform
    [.attempt Sample.twoPorts, .attempt Sample.onePort] := by
  intro h
  obtain ⟨s', answer, hok⟩ : ∃ s' answer,
      handleMutation id Sample.platform (.attempt Sample.twoPorts) = .ok (s', answer) :=
    exists_of_isOk (by decide +kernel)
  have hperformed := hok
  rw [handleMutation_fresh rfl] at hperformed
  obtain ⟨_, response, rfl, _⟩ := performed_eq_ok hperformed
  have hexecuted : Executed id Sample.platform [.attempt Sample.twoPorts] Sample.twoPorts response :=
    ⟨[], [], s', rfl, by decide +kernel, hok⟩
  have hrefused := (h.each [.attempt Sample.twoPorts] Sample.onePort [] rfl).refused
    Sample.twoPorts response hexecuted rfl (.inr (.inr (by decide)))
  revert hrefused
  decide +kernel

end VesselCaller.Platform
