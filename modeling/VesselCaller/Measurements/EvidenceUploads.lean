import VesselCaller.Storage.Objects
import VesselCaller.Measurements.Views
import VesselCaller.Lib.Service

/-!
# Finalizing an evidence upload

`MeasurementEvidenceView.post` with the object store it promotes the upload in.  The rows
are written in a transaction that a failure rolls back, the objects are not: whatever lies
in the store when the request fails stays there.  Every call that the request makes can
fail, and other requests can replace or remove the upload while it runs; what it meets
comes with the request.

## Main definitions

* `EvidencePost`, `Hazards` — a request, and what may go wrong while it runs;
* `postEvidence` — the view, from the admission of the upload to the response;
* `Archive` — the rows and the objects, which do not share a transaction.
-/

namespace VesselCaller.Measurements

open Lib Accounts Storage

/-- An `EvidenceUploadSerializer` body. -/
structure EvidenceRequest where
  fileName : String
  contentType : String
  size : ℕ
  checksum : String
  objectKey : Option String
  deriving DecidableEq, Repr

def EvidenceRequest.validate (d : EvidenceRequest) : Result Unit := do
  field "fileName" (charField 255 false d.fileName)
  field "contentType" (d.contentType ∈
    ["application/pdf", "image/jpeg", "image/png", "image/webp"])
  field "size" (1 ≤ d.size && d.size ≤ maxSize)
  field "checksum" (isChecksum d.checksum)
  field "objectKey" (d.objectKey.all (charField 1024 false))

/-- `data.get("objectKey", "")`. -/
def EvidenceRequest.source (d : EvidenceRequest) : String := d.objectKey.getD ""

/-- What a request meets: the exceptions of the calls it makes, and what becomes of the
upload after it was checked and before it is copied, if anything. -/
structure Hazards where
  metadata : Option Raised := none
  validation : Option Raised := none
  interference : Option (Option StoredObject) := none
  promotion : Promotion := {}
  recheck : Option Raised := none
  compensation : Option Raised := none
  insert : Option Raised := none
  audit : Option Raised := none
  commit : Option Raised := none

/-- A request to `MeasurementEvidenceView.post`. -/
structure EvidencePost where
  ctx : Ctx
  actor : Id
  planId : Id
  data : EvidenceRequest
  hazards : Hazards

/-- `prefix`: the keys of one area of a plan. -/
def areaKeys (t : Tenant) (plan : MeasurementPlan) (area : String) : String :=
  "organizations/" ++ uuidHex t.organization.id ++ "/measurements/" ++ uuidHex plan.id ++ "/" ++
    area ++ "/"

/-- The key is in the upload area of the plan. -/
def inUploads (t : Tenant) (plan : MeasurementPlan) (key : String) : Bool :=
  (areaKeys t plan "uploads").toList.isPrefixOf key.toList &&
    !decide ("/../".toList <:+: key.toList)

/-- The key a request promotes its upload to. -/
def EvidencePost.destination (services : Services) (t : Tenant) (plan : MeasurementPlan)
    (r : EvidencePost) : String :=
  areaKeys t plan "evidence" ++ (uuidHex (r.ctx.uuid 30) ++ "-" ++
    safeName services r.data.fileName)

/-- `checksum.removeprefix("sha256:")`. -/
def checksumDigits (checksum : String) : String :=
  if "sha256:".toList <+: checksum.toList then String.ofList (checksum.toList.drop 7)
  else checksum

/-- `metadata_matches`. -/
def metadataMatches (metadata : Option Metadata) (d : EvidenceRequest) : Bool :=
  match metadata with
  | none => false
  | some m =>
      m.size = d.size && m.size ≤ maxSize && (m.contentType = "" || m.contentType = d.contentType) &&
      (m.declaredSize = "" || m.declaredSize = toString d.size) &&
      m.checksum = checksumDigits d.checksum

/-- The row is of the file that the request finalizes. -/
def sameFile (d : EvidenceRequest) (e : Evidence) : Bool :=
  e.checksum = d.checksum && e.fileName = d.fileName && e.contentType = d.contentType &&
    e.size = d.size

/-- The tenant with the object store and the temporary uploads that are to be removed. -/
structure Archive where
  tenant : Tenant
  objects : Objects
  cleanups : List String

/-- `try: … except (ValueError, OSError) as exc: raise refusal from exc`. -/
def refuseContent (check : Except Raised Unit) (refusal : Raised) : Except Raised Unit :=
  match check with
  | .ok u => .ok u
  | .error e => .error (if e.isValueOrOs then refusal else e)

def contentRefused : Raised :=
  .api (.validation "contentType" "File content does not match its declared type")

/-- The part of the view before the promotion: the plan, and the row of the file if it is
already there. -/
def admitUpload (services : Services) (a : Archive) (r : EvidencePost) :
    Except Raised (MeasurementPlan × Option Evidence) := do
  let plan ← (getPlan a.tenant r.planId).mapError .api
  r.data.validate.mapError .api
  raiseIf (inUploads a.tenant plan r.data.source = false)
    (.api (.validation "objectKey" "Object is outside this measurement plan"))
  match plan.evidence.find? (sameFile r.data) with
  | some existing => return (plan, some existing)
  | none =>
      let metadata ← objectMetadata services r.hazards.metadata a.objects r.data.source
      raiseIf (metadataMatches metadata r.data = false)
        (.api (.validation "objectKey" "Uploaded file size, type or checksum does not match"))
      refuseContent (validateInvoiceAttachment services r.hazards.validation a.objects
        r.data.source r.data.contentType r.data.size) contentRefused
      return (plan, none)

/-- The objects as the promotion finds them. -/
def Hazards.interfere (h : Hazards) (source : String) (objects : Objects) : Objects :=
  match h.interference with
  | none => objects
  | some none => remove source objects
  | some (some o) => store { o with key := source } objects

/-- `delete_object(destination)` in a handler, and then the exception it raises. -/
def compensate {α : Type} (h : Hazards) (objects : Objects) (destination : String) (e : Raised) :
    Except Raised α × Objects :=
  match deleteObject h.compensation objects destination with
  | (.error e', objects) => (.error e', objects)
  | (.ok _, objects) => (.error e, objects)

/-- `MeasurementEvidence.objects.create`. -/
def createEvidence (t : Tenant) (plan : MeasurementPlan) (r : EvidencePost)
    (destination : String) : Except Raised (MeasurementPlan × Evidence) := do
  raiseSome r.hazards.insert
  raiseIf (r.ctx.uuid 0 ∈ t.plans.flatMap fun p => Table.keys p.evidence)
    (.api (.integrity "measurements_measurementevidence_pkey"))
  raiseIf (destination ∈ t.plans.flatMap fun p => p.evidence.map Evidence.objectKey)
    (.api (.integrity "measurements_measurementevidence_object_key_key"))
  let evidence : Evidence := {
    id := r.ctx.uuid 0
    objectKey := destination
    fileName := r.data.fileName
    contentType := r.data.contentType
    size := r.data.size
    checksum := r.data.checksum
    uploadedBy := r.actor
    createdAt := r.ctx.now }
  return ({ plan with evidence := plan.evidence ++ [evidence] }, evidence)

/-- The part of the view after the promotion. -/
def recordCopy (services : Services) (t : Tenant) (plan : MeasurementPlan) (r : EvidencePost)
    (destination : String) (promoted : Option Metadata) (objects : Objects) :
    Except Raised (MeasurementPlan × Evidence) × Objects :=
  if metadataMatches promoted r.data = false then
    compensate r.hazards objects destination
      (.api (.validation "objectKey" "Uploaded file could not be finalized immutably"))
  else
    match validateInvoiceAttachment services r.hazards.recheck objects destination
        r.data.contentType r.data.size with
    | .error e =>
        if e.isValueOrOs then compensate r.hazards objects destination contentRefused
        else (.error e, objects)
    | .ok _ =>
        match createEvidence t plan r destination with
        | .error e => compensate r.hazards objects destination e
        | .ok recorded =>
            match r.hazards.audit with
            | some e => (.error e, objects)
            | none => (.ok recorded, objects)

/-- `MeasurementEvidenceView.post`: what is answered, and what is left.  A row that was
written schedules the removal of the upload. -/
def postEvidence (services : Services) (a : Archive) (r : EvidencePost) :
    Except Raised Evidence × Archive :=
  match admitUpload services a r with
  | .error e => (.error e, a)
  | .ok (_, some existing) =>
      match r.hazards.commit with
      | some e => (.error e, a)
      | none => (.ok existing, a)
  | .ok (plan, none) =>
      let objects := r.hazards.interfere r.data.source a.objects
      let destination := r.destination services a.tenant plan
      match promoteObject services r.hazards.promotion objects r.data.source destination with
      | (.error e, objects) => (.error e, { a with objects := objects })
      | (.ok promoted, objects) =>
          match recordCopy services a.tenant plan r destination promoted objects with
          | (.error e, objects) => (.error e, { a with objects := objects })
          | (.ok (plan, evidence), objects) =>
              match r.hazards.commit with
              | some e => (.error e, { a with objects := objects })
              | none =>
                  (.ok evidence, {
                    tenant := a.tenant.putPlan plan
                    objects := objects
                    cleanups := r.data.source :: a.cleanups })

/-! ## Runs -/

/-- What happens to the archive: an upload through a signed link, a request to finalize
one, and `cleanup_committed_upload` of one, which a failure leaves in the store. -/
inductive ArchiveEvent where
  | upload (o : StoredObject)
  | finalize (r : EvidencePost)
  | cleanUp (source : String) (fault : Option Raised)

/-- One event, and the answer of a request.  A local upload does not replace an object. -/
def Archive.handle (services : Services) (a : Archive) :
    ArchiveEvent → Except Empty (Archive × Option (Except Raised Evidence))
  | .upload o =>
      if a.tenant.plans.any (fun plan => inUploads a.tenant plan o.key) = true ∧
          (services.client = true ∨ o.key ∉ Table.keys a.objects) then
        .ok ({ a with objects := store o a.objects }, none)
      else .ok (a, none)
  | .finalize r => .ok ((postEvidence services a r).2, some (postEvidence services a r).1)
  | .cleanUp source fault =>
      if source ∈ a.cleanups then
        .ok ({ a with
          objects := (deleteObject fault a.objects source).2
          cleanups := a.cleanups.erase source }, none)
      else .ok (a, none)

end VesselCaller.Measurements
