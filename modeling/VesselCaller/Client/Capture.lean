import VesselCaller.Operations.Evidence
import VesselCaller.Client.OfflineQueue

/-!
# A capture and the attempts to submit it

`persistInspection` of `app/store.tsx` over `createInspection`, `updateInspection`,
`finalizeInspection` and `uploadEvidenceFile` of `lib/api.ts`.  One attempt is several
requests: the creation or the update, three exchanges for every evidence file, and the
finalization.  The files are uploaded at once (`Promise.all`): the first failure settles
the attempt, and the other uploads go on.

An attempt is made by `addInspection` while the capture is submitted, and by `flushQueue`
in any tab while it is queued; all of them use the key of the capture.  A `World` is a
backend and all attempts for one capture.  Its events deliver requests and answers, lose
them, and let others use the backend in between.

## Main definitions

* `Attempt`, `Phase`, `Upload` — an attempt, and the stages it and its uploads are in;
* `exchange`, `Delivery` — a request that is delivered or lost, with its answer;
* `World`, `WorldEvent` — the backend, the attempts and other requests, in any order.
-/

namespace VesselCaller.Client

open Lib Accounts Measurements Operations

/-! ## Exchanges -/

/-- The status of the response an error is turned into. -/
def status : ApiError → ℕ
  | .validation .. => 400
  | .unauthorized _ => 401
  | .permissionDenied _ => 403
  | .notFound _ => 404
  | .conflict _ => 409
  | .integrity _ | .server _ => 500

/-- The message of the `ApiError` the client throws. -/
def message : ApiError → String
  | .validation _ detail | .unauthorized detail | .permissionDenied detail | .notFound detail
  | .conflict detail => detail
  | .integrity _ | .server _ => "Request failed (500)"

/-- What happens to a request on the network. -/
inductive Delivery where
  | answered
  | responseLost
  | requestLost
  deriving DecidableEq, Repr

/-- What the client learns of a request: nothing, an error, or the response. -/
abbrev Reply := Option (Result BackendResponse)

/-- The outcome of an attempt whose request was not answered with a response. -/
def failed : Option ApiError → Outcome
  | none => .failed false "Failed to fetch"
  | some e => .failed (400 ≤ status e && status e < 500) (message e)

/-- The backend after a request, and what the client learns. -/
def exchange (sha : Sha256) (b : Backend) (r : BackendRequest) : Delivery → Backend × Reply
  | .answered => (serve (Backend.handle sha) b r, some ((b.handle sha r).map Prod.snd))
  | .responseLost => (serve (Backend.handle sha) b r, none)
  | .requestLost => (b, none)

/-! ## One attempt -/

/-- Where the upload of a file stands.  A signed address lies in the upload area of an
inspection. -/
inductive Stage where
  | presign
  | put (source : Id)
  | attach (source : Id)
  | finished
  | failed
  deriving DecidableEq, Repr

structure Upload where
  inspection : Id
  file : EvidenceFile
  stage : Stage
  deriving DecidableEq, Repr

/-- Where `persistInspection` stands. -/
inductive Phase where
  | sending
  | uploading (inspection : Id) (version : ℕ)
  | finalizing (inspection : Id) (version : ℕ)
  | settled (outcome : Outcome)
  deriving DecidableEq, Repr

structure Attempt where
  phase : Phase
  uploads : List Upload
  deriving DecidableEq, Repr

/-- The inspection an attempt updates; a creation has none. -/
def QueuedInspection.target (item : QueuedInspection) : Option Id :=
  if item.operation = .update then item.inspectionId else none

/-- The first request: the payload goes without its status. -/
def QueuedInspection.firstRequest (item : QueuedInspection) (ctx : Ctx) : Request :=
  let payload := { item.data with completed := false }
  match item.target with
  | none => .operations item.userId ctx (.createInspection payload item.id)
  | some id => .operations item.userId ctx (.patchInspection id payload)

/-- The request an attempt is about to send. -/
def Attempt.request (a : Attempt) (item : QueuedInspection) (ctx : Ctx) : Option BackendRequest :=
  match a.phase with
  | .sending => some (.tenant (item.firstRequest ctx))
  | .finalizing inspection version =>
      some (.tenant (.operations item.userId ctx (.finalizeInspection inspection (.num version))))
  | .uploading .. | .settled _ => none

/-- What follows the uploads. -/
def QueuedInspection.afterUploads (item : QueuedInspection) (inspection : Id) (version : ℕ) :
    Phase :=
  if item.data.completed then .finalizing inspection version else .settled .confirmed

/-- The inspection and its version in a response. -/
def shownInspection : BackendResponse → Option (Id × ℕ)
  | .tenant (.operations (.inspection shown _)) | .tenant (.operations (.replay shown _ _))
  | .tenant (.operations (.finalized shown _ _ _)) => some (shown.id, shown.version)
  | _ => none

/-- The attempt once its request was answered, or was not. -/
def Attempt.receive (a : Attempt) (item : QueuedInspection) (reply : Reply) : Attempt :=
  match reply with
  | none => { a with phase := .settled (failed none) }
  | some (.error e) => { a with phase := .settled (failed (some e)) }
  | some (.ok response) =>
      match a.phase, shownInspection response with
      | .sending, some (inspection, version) =>
          if item.evidenceFiles = [] then
            { a with phase := item.afterUploads inspection version }
          else
            { phase := .uploading inspection version
              uploads := item.evidenceFiles.map fun file => ⟨inspection, file, .presign⟩ }
      | .finalizing .., some _ => { a with phase := .settled .confirmed }
      | _, _ => { a with phase := .settled (failed none) }

/-! ## Uploads -/

/-- The body of both evidence requests. -/
def EvidenceFile.input (file : EvidenceFile) (inspection : Id) : EvidenceInput where
  inspectionId := inspection
  fileName := file.name
  contentType := file.type
  size := file.size
  checksum := file.checksum

def Upload.input (u : Upload) : EvidenceInput := u.file.input u.inspection

/-- The object store's part in an upload: the status it answers the file with, the
permanent key, and what its checks come to. -/
structure Storage where
  put : ℕ
  destination : String
  failure : Option ApiError
  deriving DecidableEq, Repr

/-- The request to the backend an upload is about to send; the file itself goes to the
object store. -/
def Upload.request (u : Upload) (actor : Id) (ctx : Ctx) (storage : Storage) :
    Option BackendRequest :=
  match u.stage with
  | .presign => some (.presign actor ctx u.input)
  | .attach source =>
      some (.attach actor ctx u.input ⟨some source, storage.destination, storage.failure⟩)
  | .put _ | .finished | .failed => none

/-- The next stage of an upload after an answered request of the backend. -/
def Stage.answered : Stage → BackendResponse → Stage
  | .presign, .presigned source => .put source
  | .attach _, .attached .. => .finished
  | _, _ => .failed

/-- The next stage of an upload, and the failure that settles its attempt. -/
def Upload.receive (u : Upload) : Reply → Upload × Option Outcome
  | none => ({ u with stage := .failed }, some (failed none))
  | some (.error e) => ({ u with stage := .failed }, some (failed (some e)))
  | some (.ok response) => ({ u with stage := u.stage.answered response }, none)

/-- The file goes to the object store. -/
def Upload.sendFile (u : Upload) (source : Id) (storage : Storage) :
    Delivery → Upload × Option Outcome
  | .answered =>
      if 200 ≤ storage.put ∧ storage.put < 300 then ({ u with stage := .attach source }, none)
      else ({ u with stage := .failed }, some (.failed (400 ≤ storage.put && storage.put < 500)
        "Could not upload an evidence photo"))
  | .responseLost | .requestLost => ({ u with stage := .failed }, some (failed none))

/-- The attempt with one of its uploads moved on.  A failure settles an attempt that waits
for its uploads, the last success lets it go on. -/
def Attempt.withUpload (a : Attempt) (item : QueuedInspection) (k : ℕ)
    (moved : Upload × Option Outcome) : Attempt :=
  let uploads := a.uploads.set k moved.1
  match a.phase, moved.2 with
  | .uploading _ _, some outcome => { phase := .settled outcome, uploads := uploads }
  | .uploading inspection version, none =>
      if uploads.all fun u => u.stage = .finished then
        { phase := item.afterUploads inspection version, uploads := uploads }
      else { a with uploads := uploads }
  | _, _ => { a with uploads := uploads }

/-! ## The world -/

/-- The backend, and all attempts to submit one capture. -/
structure World where
  backend : Backend
  attempts : List Attempt

inductive WorldEvent where
  /-- A submission or a flush takes up the capture. -/
  | attempt
  /-- The next request of an attempt. -/
  | send (attempt : ℕ) (delivery : Delivery) (ctx : Ctx)
  /-- The next exchange of the upload of a file of an attempt. -/
  | upload (attempt file : ℕ) (delivery : Delivery) (ctx : Ctx) (storage : Storage)
  /-- Somebody else's request, or a late copy of one of this capture. -/
  | other (r : BackendRequest)

/-- One upload exchange: the backend after it, and the upload with its failure. -/
def Upload.exchange (sha : Sha256) (b : Backend) (actor : Id) (u : Upload) (delivery : Delivery)
    (ctx : Ctx) (storage : Storage) : Option (Backend × Upload × Option Outcome) :=
  match u.stage with
  | .put source => some (b, u.sendFile source storage delivery)
  | _ =>
      match u.request actor ctx storage with
      | none => none
      | some r =>
          let (b, reply) := Client.exchange sha b r delivery
          some (b, u.receive reply)

/-- The world after an event; an event that is not enabled leads nowhere. -/
def World.next (sha : Sha256) (item : QueuedInspection) (w : World) : WorldEvent → Option World
  | .attempt => some { w with attempts := w.attempts ++ [⟨.sending, []⟩] }
  | .other r => some { w with backend := serve (Backend.handle sha) w.backend r }
  | .send i delivery ctx => do
      let a ← w.attempts[i]?
      let r ← a.request item ctx
      let (b, reply) := exchange sha w.backend r delivery
      return { backend := b, attempts := w.attempts.set i (a.receive item reply) }
  | .upload i k delivery ctx storage => do
      let a ← w.attempts[i]?
      let u ← a.uploads[k]?
      let (b, moved) ← u.exchange sha w.backend item.userId delivery ctx storage
      return { backend := b, attempts := w.attempts.set i (a.withUpload item k moved) }

/-- One event of the world. -/
def World.handle (sha : Sha256) (item : QueuedInspection) (w : World) (e : WorldEvent) :
    Except Unit (World × Unit) :=
  match w.next sha item e with
  | none => .error ()
  | some w' => .ok (w', ())

theorem World.handle_eq_ok {sha : Sha256} {item : QueuedInspection} {w w' : World}
    {e : WorldEvent} {u : Unit} :
    w.handle sha item e = .ok (w', u) ↔ w.next sha item e = some w' := by
  unfold World.handle
  cases w.next sha item e <;> simp

theorem World.next_send {sha : Sha256} {item : QueuedInspection} {w w' : World} {i : ℕ}
    {delivery : Delivery} {ctx : Ctx} :
    w.next sha item (.send i delivery ctx) = some w' ↔ ∃ a r, w.attempts[i]? = some a ∧
      a.request item ctx = some r ∧
      w' = { backend := (exchange sha w.backend r delivery).1
             attempts := w.attempts.set i
               (a.receive item (exchange sha w.backend r delivery).2) } := by
  simp only [World.next, Option.bind_eq_bind, Option.bind_eq_some_iff, Option.pure_def,
    Option.some.injEq]
  constructor
  · rintro ⟨a, ha, r, hr, rfl⟩
    exact ⟨a, r, ha, hr, rfl⟩
  · rintro ⟨a, r, ha, hr, rfl⟩
    exact ⟨a, ha, r, hr, rfl⟩

theorem World.next_upload {sha : Sha256} {item : QueuedInspection} {w w' : World} {i k : ℕ}
    {delivery : Delivery} {ctx : Ctx} {storage : Storage} :
    w.next sha item (.upload i k delivery ctx storage) = some w' ↔ ∃ a u b moved,
      w.attempts[i]? = some a ∧ a.uploads[k]? = some u ∧
      u.exchange sha w.backend item.userId delivery ctx storage = some (b, moved) ∧
      w' = { backend := b, attempts := w.attempts.set i (a.withUpload item k moved) } := by
  simp only [World.next, Option.bind_eq_bind, Option.bind_eq_some_iff, Option.pure_def,
    Option.some.injEq, Prod.exists]
  constructor
  · rintro ⟨a, ha, u, hu, b, u', failure, hmoved, rfl⟩
    exact ⟨a, u, b, u', failure, ha, hu, hmoved, rfl⟩
  · rintro ⟨a, u, b, u', failure, ha, hu, hmoved, rfl⟩
    exact ⟨a, ha, u, hu, b, u', failure, hmoved, rfl⟩

theorem World.serve_eq {sha : Sha256} {item : QueuedInspection} (w : World) (e : WorldEvent) :
    serve (World.handle sha item) w e = (w.next sha item e).getD w := by
  unfold serve World.handle
  cases w.next sha item e <;> rfl

namespace Sample

def backend : Backend := ⟨VesselCaller.Sample.tenant, []⟩

/-- A completed inspection of the call 10000. -/
def inspected : QueuedInspection where
  id := "capture-2"
  organizationId := 1
  userId := 1
  data := { callId := some 10000, cargoType := some .dry, completed := true }
  evidenceFiles := []
  createdAt := 1767225600
  attempts := 0
  operation := .create
  inspectionId := none
  finalize := true
  lastAttemptAt := none
  lastError := none

/-- The call is registered and the capture taken up. -/
def submitted : List WorldEvent := 
  [.other (.tenant VesselCaller.Sample.registered), .attempt]

/-- The answer to the creation is lost, a second attempt loses the answer to its
finalization, and a third one succeeds. -/
def retried : List WorldEvent := submitted ++ [
  .send 0 .responseLost (VesselCaller.Sample.ctx 2), .attempt,
  .send 1 .answered (VesselCaller.Sample.ctx 3), .send 1 .responseLost (VesselCaller.Sample.ctx 4),
  .attempt, .send 2 .answered (VesselCaller.Sample.ctx 5),
  .send 2 .answered (VesselCaller.Sample.ctx 6)]

end Sample

end VesselCaller.Client
