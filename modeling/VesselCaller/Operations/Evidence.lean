import VesselCaller.System

/-!
# Evidence of inspections

`EvidencePresignView` and `EvidenceFinalizeView`.  A browser asks for a signed address,
puts the file there without passing through the backend, and then has the object recorded
as an attachment of the inspection.  Recording does not look for an attachment of the same
file: every accepted request adds a row.

`Backend` is the tenant together with the attachments, and serves the requests of the
tenant beside those for evidence.

## Main definitions

* `presignEvidence`, `attachEvidence` — the two views;
* `Backend` — the tenant with the attachments of its inspections;
* `BackendStep` — what a request did to the two.
-/

namespace VesselCaller.Operations

open Lib Accounts Measurements

/-- An `EvidencePresignSerializer` body. -/
structure EvidenceInput where
  inspectionId : Id
  fileName : String
  contentType : String
  size : ℕ
  checksum : String
  deriving DecidableEq, Repr

def EvidenceInput.isValid (d : EvidenceInput) : Bool :=
  charField 255 false d.fileName && d.contentType ∈ ["image/jpeg", "image/png", "image/webp"] &&
  1 ≤ d.size && d.size ≤ 15 * 1024 * 1024 && isChecksum d.checksum

structure EvidenceAttachment where
  id : Id
  inspectionId : Id
  objectKey : String
  fileName : String
  contentType : String
  size : ℕ
  checksum : String
  uploadedBy : Id
  createdAt : Instant
  deriving DecidableEq, Repr

instance : Keyed EvidenceAttachment Id := ⟨EvidenceAttachment.id⟩

/-- What the object store contributes to the recording of an upload: the inspection whose
upload area the object key lies in, the permanent key it is copied to, and what the checks
of the object and the copy come to. -/
structure StoredObject where
  source : Option Id
  destination : String
  failure : Option ApiError
  deriving DecidableEq, Repr

/-- The tenant and the attachments of its inspections. -/
structure Backend where
  tenant : Tenant
  evidence : List EvidenceAttachment

inductive BackendRequest where
  | tenant (r : Request)
  | presign (actor : Id) (ctx : Ctx) (data : EvidenceInput)
  | attach (actor : Id) (ctx : Ctx) (data : EvidenceInput) (object : StoredObject)

inductive BackendResponse where
  | tenant (r : VesselCaller.Response)
  /-- The address signed for an object in the upload area of the inspection. -/
  | presigned (source : Id)
  | attached (row : EvidenceAttachment) (rev : ℕ)

/-- The row `EvidenceFinalizeView.post` creates. -/
def EvidenceInput.row (d : EvidenceInput) (ctx : Ctx) (actor : Id) (objectKey : String) :
    EvidenceAttachment where
  id := ctx.uuid 0
  inspectionId := d.inspectionId
  objectKey := objectKey
  fileName := d.fileName
  contentType := d.contentType
  size := d.size
  checksum := d.checksum
  uploadedBy := actor
  createdAt := ctx.now

/-- `EvidencePresignView.post`. -/
def presignEvidence (t : Tenant) (data : EvidenceInput) : Result Id := do
  requireValid data.isValid
  let inspection ← getInspection t data.inspectionId
  return inspection.id

/-- `EvidenceFinalizeView.post`. -/
def attachEvidence (b : Backend) (ctx : Ctx) (actor : Id) (data : EvidenceInput)
    (object : StoredObject) : Result (Backend × EvidenceAttachment) := do
  requireValid data.isValid
  let inspection ← getInspection b.tenant data.inspectionId
  raiseIf (object.source ≠ some inspection.id)
    (.validation "objectKey" "Object is outside this inspection")
  raiseSome object.failure
  let row := data.row ctx actor object.destination
  raiseIf (row.id ∈ Table.keys b.evidence) (.integrity "operations_evidenceattachment_pkey")
  raiseIf (row.objectKey ∈ b.evidence.map EvidenceAttachment.objectKey)
    (.integrity "operations_evidenceattachment_object_key_key")
  return ({ tenant := b.tenant.bumpRevision, evidence := b.evidence ++ [row] }, row)

/-- One request to the backend. -/
def Backend.handle (sha : Sha256) (b : Backend) :
    BackendRequest → Result (Backend × BackendResponse)
  | .tenant r => do
      let (t, response) ← b.tenant.handle sha r
      return ({ b with tenant := t }, .tenant response)
  | .presign actor ctx data => do
      let _ ← b.tenant.authorize ctx actor .evidenceManage
      let source ← presignEvidence b.tenant data
      return (b, .presigned source)
  | .attach actor ctx data object => do
      let _ ← b.tenant.authorize ctx actor .evidenceManage
      let (b, row) ← attachEvidence b ctx actor data object
      return (b, .attached row b.tenant.revision)

/-- What an accepted request did to the backend. -/
inductive BackendStep (sha : Sha256) (b b' : Backend) : BackendRequest → Prop where
  | tenant (r : Request) (response : VesselCaller.Response)
      (handled : b.tenant.handle sha r = .ok (b'.tenant, response))
      (evidence : b'.evidence = b.evidence) : BackendStep sha b b' (.tenant r)
  | presigned (actor : Id) (ctx : Ctx) (data : EvidenceInput) (same : b' = b) :
      BackendStep sha b b' (.presign actor ctx data)
  | attached (actor : Id) (ctx : Ctx) (data : EvidenceInput) (object : StoredObject)
      (tenant : b'.tenant = b.tenant.bumpRevision)
      (evidence : b'.evidence = b.evidence ++ [data.row ctx actor object.destination]) :
      BackendStep sha b b' (.attach actor ctx data object)

theorem Backend.handle_step {sha : Sha256} {b b' : Backend} {r : BackendRequest}
    {response : BackendResponse} (h : b.handle sha r = .ok (b', response)) :
    BackendStep sha b b' r := by
  cases r with
  | tenant r =>
      simp only [Backend.handle, bind_eq_ok, pure_eq_ok, Prod.exists, Prod.mk.injEq] at h
      obtain ⟨t, a, hr, rfl, _⟩ := h
      exact .tenant r a hr rfl
  | presign actor ctx data =>
      simp only [Backend.handle, bind_eq_ok, pure_eq_ok, Prod.mk.injEq] at h
      obtain ⟨_, _, _, _, rfl, _⟩ := h
      exact .presigned actor ctx data rfl
  | attach actor ctx data object =>
      simp only [Backend.handle, attachEvidence, bind_eq_ok, pure_eq_ok, Prod.exists,
        Prod.mk.injEq] at h
      obtain ⟨_, _, _, _, ⟨_, _, _, _, _, _, _, _, _, _, _, _, rfl, rfl⟩, rfl, _⟩ := h
      exact .attached actor ctx data object rfl rfl

end VesselCaller.Operations
