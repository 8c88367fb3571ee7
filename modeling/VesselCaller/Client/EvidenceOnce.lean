import VesselCaller.Client.ExactlyOnce

/-!
# Evidence and its retries

The creation of a capture and its finalization can be repeated: the key and the invoice
tell the backend that it has done them.  The uploads between the two cannot.  A request
to record an attachment carries nothing of an earlier one, and a further attempt starts
with the first file again.

Per attempt the count is right: an upload that ended well recorded its file once, an
upload that failed at most once, and a confirmed attempt recorded each file of the
capture.  So the files of a confirmed capture are attached once exactly when the attempt
that was confirmed is the only one that had an attachment recorded.

## Main definitions

* `World.records`, `attachments` — the rows an event records, and a run;
* `Accounted` — the rows of an attempt, by the uploads that recorded them;
* `attaches` — the checks of the backend on a request to attach;
* `AttachesBesides` — a file of the capture is attached by somebody else.
-/

namespace VesselCaller.Client

open Lib Accounts Billing Measurements Operations

variable {sha : Sha256} {b b' : Backend} {item : QueuedInspection} {w w' : World}
  {t t' : Tenant} {u u' : Upload} {uploads : List Upload} {rows : List EvidenceAttachment}

/-! ## Attachments of a capture -/

/-- The file an attachment is a copy of. -/
def fileOf (row : EvidenceAttachment) : EvidenceFile where
  name := row.fileName
  type := row.contentType
  size := row.size
  checksum := row.checksum

/-- The attachments an event has the backend record for an attempt of the capture. -/
def World.records (sha : Sha256) (item : QueuedInspection) (w : World) :
    WorldEvent → List (ℕ × EvidenceAttachment)
  | .upload i k delivery ctx storage =>
      let after := serve (World.handle sha item) w (.upload i k delivery ctx storage)
      (after.backend.evidence.drop w.backend.evidence.length).map fun row => (i, row)
  | _ => []

/-- The attachments recorded in a run, each with the attempt it was recorded for. -/
def attachments (sha : Sha256) (item : QueuedInspection) :
    World → List WorldEvent → List (ℕ × EvidenceAttachment) :=
  collectAlong (World.handle sha item) (World.records sha item)

/-- The inspection is the one the capture is about. -/
def QueuedInspection.Concerns (item : QueuedInspection) (t : Tenant) (id : Id) : Prop :=
  match item.target with
  | none => ∃ i ∈ t.inspections, i.id = id ∧ i.idempotencyKey = storedKey item.id
  | some target => id = target

/-- **Exactly once**: one attachment for each file of the capture, all of them of its
inspection. -/
structure AttachedOnce (item : QueuedInspection) (t : Tenant) (rows : List EvidenceAttachment) :
    Prop where
  files : (rows.map fileOf).Perm item.evidenceFiles
  inspection : ∀ row ∈ rows, item.Concerns t row.inspectionId

/-! ## The inspection of a capture -/

/-- What the capture concerns it still concerns after a step. -/
theorem QueuedInspection.Concerns.step (hstep : InspectionStep t t') (ht : InspectionsInOrder t)
    {id : Id} (h : item.Concerns t id) : item.Concerns t' id := by
  unfold QueuedInspection.Concerns at h ⊢
  split at h
  · obtain ⟨i, hi, hid, hkey⟩ := h
    obtain ⟨i', hi', hfollows⟩ := hstep.row ht hi
    exact ⟨i', hi', hfollows.id.trans hid, hfollows.key.trans hkey⟩
  · exact h

/-- The answer to a creation shows the inspection stored under its key. -/
theorem createInspection_shows {ctx : Ctx} {data : InspectionInput} {header : String}
    {answer : Operations.Response} (h : createInspection t ctx data header = .ok (t', answer)) :
    ∃ i ∈ t'.inspections, i.idempotencyKey = storedKey header ∧
      shownInspection (.tenant (.operations answer)) = some (i.id, i.version) := by
  have hshow : ∀ {i shown}, inspectionData i = .ok shown →
      some (shown.id, shown.version) = some (i.id, i.version) := by
    intro i shown hshown
    rw [inspectionData_id hshown, inspectionData_version hshown]
  cases createInspection_step h with
  | creationReplayed _ _ i found shown hshown tenant =>
      obtain ⟨hi, hkey⟩ := replayed_eq_some found
      exact ⟨i, tenant ▸ hi, hkey, hshow hshown⟩
  | drafted _ _ call i hnew sequences _ shown hshown tenant =>
      exact ⟨i, tenant ▸ List.mem_cons_self, draft_key hnew, hshow hshown⟩
  | draftedAndBilled _ _ call i hnew sequences _ billedCall rate v billed shown hshown =>
      have hmem : i.complete ctx ∈ t'.inspections := by
        rw [(hnew.rows billed).1]
        exact List.mem_cons_self
      have hkey : i.idempotencyKey = storedKey header := draft_key hnew
      exact ⟨i.complete ctx, hmem, hkey, hshow hshown⟩
  | draftedInvoiced _ _ call i hnew sequences v invoiced shown hshown after hafter tenant =>
      exact ⟨i, tenant ▸ List.mem_cons_self, draft_key hnew, hshow hshown⟩

/-- The answer to the first request shows the inspection of the capture. -/
theorem concerns_of_answer {ctx : Ctx} {response : BackendResponse} {id : Id} {version : ℕ}
    (hr : b.handle sha (.tenant (item.firstRequest ctx)) = .ok (b', response))
    (hshown : shownInspection response = some (id, version)) : item.Concerns b'.tenant id := by
  unfold QueuedInspection.firstRequest at hr
  unfold QueuedInspection.Concerns
  cases htarget : item.target with
  | none =>
      simp only [htarget, Backend.handle, Tenant.handle, Operations.Op.handle, bind_eq_ok,
        pure_eq_ok, Prod.exists, Prod.mk.injEq] at hr
      obtain ⟨_, _, ⟨_, _, _, answer, hop, rfl, rfl⟩, rfl, rfl⟩ := hr
      obtain ⟨i, hi, hkey, hi'⟩ := createInspection_shows hop
      obtain ⟨rfl, _⟩ := Prod.mk.inj (Option.some.inj (hi'.symm.trans hshown))
      exact ⟨i, hi, rfl, hkey⟩
  | some target =>
      simp only [htarget, Backend.handle, Tenant.handle, Operations.Op.handle, bind_eq_ok,
        pure_eq_ok, Prod.exists, Prod.mk.injEq] at hr
      obtain ⟨_, _, ⟨_, _, _, answer, hop, rfl, rfl⟩, rfl, rfl⟩ := hr
      obtain ⟨_, i, hget, _, _, _, _, shown, hdata, _, rfl⟩ := patchInspection_iff.mp hop
      obtain ⟨rfl, _⟩ := Prod.mk.inj (Option.some.inj hshown)
      exact (inspectionData_id hdata).trans (Table.mem_of_get hget).2

/-! ## One exchange of an upload -/

/-- The upload goes on. -/
def Upload.Live (u : Upload) : Prop := u.stage ≠ .finished ∧ u.stage ≠ .failed

/-- What an exchange of an upload does: it records nothing and does not end well, or it
records the file and ends. -/
inductive UploadStep (b b' : Backend) (u u' : Upload) : Prop where
  | quiet (evidence : b'.evidence = b.evidence) (stage : u'.stage ≠ .finished)
  | recorded (row : EvidenceAttachment) (evidence : b'.evidence = b.evidence ++ [row])
      (file : fileOf row = u.file) (inspection : row.inspectionId = u.inspection)
      (stage : u'.stage = .finished ∨ u'.stage = .failed)

/-- The file and the inspection of an upload stay, and only a failure settles its attempt. -/
structure UploadMove (u : Upload) (moved : Upload × Option Outcome) : Prop where
  file : moved.1.file = u.file
  inspection : moved.1.inspection = u.inspection
  failure : moved.2 ≠ some .confirmed

/-- An answer moves an upload on by one stage, or fails it. -/
theorem Upload.receive_move (u : Upload) (reply : Reply) : UploadMove u (u.receive reply) := by
  match reply with
  | none => exact ⟨rfl, rfl, by simp [Upload.receive, Client.failed]⟩
  | some (.error e) => exact ⟨rfl, rfl, by simp [Upload.receive, Client.failed]⟩
  | some (.ok response) => exact ⟨rfl, rfl, by simp [Upload.receive]⟩

/-- Sending the bytes moves an upload on, and does not finish it. -/
theorem Upload.sendFile_move (u : Upload) (source : Id) (storage : Storage) (delivery : Delivery) :
    UploadMove u (u.sendFile source storage delivery) ∧
      (u.sendFile source storage delivery).1.stage ≠ .finished := by
  unfold Upload.sendFile
  cases delivery with
  | answered =>
      dsimp only
      split
      · exact ⟨⟨rfl, rfl, by simp⟩, by simp⟩
      · exact ⟨⟨rfl, rfl, by simp⟩, by simp⟩
  | responseLost => exact ⟨⟨rfl, rfl, by simp [Client.failed]⟩, by simp⟩
  | requestLost => exact ⟨⟨rfl, rfl, by simp [Client.failed]⟩, by simp⟩

/-- Asking for an upload address records nothing. -/
theorem presign_step {actor : Id} {delivery : Delivery} {ctx : Ctx} (hstage : u.stage = .presign) :
    UploadStep b (exchange sha b (.presign actor ctx u.input) delivery).1 u
      (u.receive (exchange sha b (.presign actor ctx u.input) delivery).2).1 := by
  have hsame : (serve (Backend.handle sha) b (.presign actor ctx u.input)).evidence =
      b.evidence := by
    rcases serve_cases (Backend.handle sha) b (.presign actor ctx u.input) with h | ⟨b', _, hr, h⟩
    · rw [h]
    · rw [h]
      cases Backend.handle_step hr with
      | presigned _ _ _ same => rw [same]
  cases delivery with
  | requestLost => exact .quiet rfl (by simp [exchange, Upload.receive])
  | responseLost => exact .quiet hsame (by simp [exchange, Upload.receive])
  | answered =>
      refine .quiet hsame ?_
      cases hr : b.handle sha (.presign actor ctx u.input) with
      | error e => simp [exchange, hr, Except.map, Upload.receive]
      | ok p =>
          simp only [exchange, hr, Except.map, Upload.receive, hstage]
          unfold Stage.answered
          split <;> simp_all

/-- Attaching a file records it at most once, and finishes the upload where it is answered. -/
theorem attach_step {actor source : Id} {delivery : Delivery} {ctx : Ctx} {object : StoredObject}
    (hstage : u.stage = .attach source) :
    UploadStep b (exchange sha b (.attach actor ctx u.input object) delivery).1 u
      (u.receive (exchange sha b (.attach actor ctx u.input object) delivery).2).1 := by
  cases hr : b.handle sha (.attach actor ctx u.input object) with
  | error e =>
      have hsame := serve_of_error (Backend.handle sha) hr
      cases delivery with
      | requestLost => exact .quiet rfl (by simp [exchange, Upload.receive])
      | responseLost =>
          exact .quiet (by rw [exchange, hsame]) (by simp [exchange, Upload.receive])
      | answered =>
          exact .quiet (by rw [exchange, hsame])
            (by simp [exchange, hr, Except.map, Upload.receive])
  | ok p =>
      obtain ⟨b', response⟩ := p
      have hserve := serve_of_ok (Backend.handle sha) hr
      have hanswer : ∃ row rev, response = .attached row rev := by
        simp only [Backend.handle, bind_eq_ok, pure_eq_ok, Prod.exists, Prod.mk.injEq] at hr
        obtain ⟨_, _, _, row, _, _, rfl⟩ := hr
        exact ⟨row, _, rfl⟩
      obtain ⟨row, rev, rfl⟩ := hanswer
      cases Backend.handle_step hr with
      | attached _ _ _ _ tenant evidence =>
          cases delivery with
          | requestLost => exact .quiet rfl (by simp [exchange, Upload.receive])
          | responseLost =>
              refine .recorded _ (by rw [exchange, hserve, evidence]) rfl rfl (.inr ?_)
              simp [exchange, Upload.receive]
          | answered =>
              refine .recorded _ (by rw [exchange, hserve, evidence]) rfl rfl (.inl ?_)
              simp [exchange, hr, Except.map, Upload.receive, hstage, Stage.answered]

/-- **One exchange of an upload.** -/
theorem Upload.exchange_step {actor : Id} {delivery : Delivery} {ctx : Ctx} {storage : Storage}
    {moved : Upload × Option Outcome}
    (h : u.exchange sha b actor delivery ctx storage = some (b', moved)) :
    u.Live ∧ UploadMove u moved ∧ UploadStep b b' u moved.1 := by
  unfold Upload.exchange Upload.request at h
  unfold Upload.Live
  cases hstage : u.stage with
  | put source =>
      simp only [hstage, Option.some.injEq, Prod.mk.injEq] at h
      obtain ⟨rfl, rfl⟩ := h
      obtain ⟨hmove, hunfinished⟩ := u.sendFile_move source storage delivery
      exact ⟨by simp, hmove, .quiet rfl hunfinished⟩
  | presign =>
      simp only [hstage, Option.some.injEq, Prod.mk.injEq] at h
      obtain ⟨rfl, rfl⟩ := h
      exact ⟨by simp, u.receive_move _, presign_step hstage⟩
  | attach source =>
      simp only [hstage, Option.some.injEq, Prod.mk.injEq] at h
      obtain ⟨rfl, rfl⟩ := h
      exact ⟨by simp, u.receive_move _, attach_step hstage⟩
  | finished => simp [hstage] at h
  | failed => simp [hstage] at h

/-! ## Attempts -/

/-- Where an attempt stands, its uploads stand too. -/
def Attempt.InOrder (item : QueuedInspection) (a : Attempt) : Prop :=
  match a.phase with
  | .sending => a.uploads = []
  | .uploading .. => a.uploads.map Upload.file = item.evidenceFiles
  | .finalizing .. | .settled .confirmed =>
      a.uploads.map Upload.file = item.evidenceFiles ∧ ∀ u ∈ a.uploads, u.stage = .finished
  | .settled (.failed ..) => True

/-- An attempt whose files are all there goes on in order. -/
theorem afterUploads_inOrder {inspection : Id} {version : ℕ}
    (hfiles : uploads.map Upload.file = item.evidenceFiles)
    (hfinished : ∀ u ∈ uploads, u.stage = .finished) :
    Attempt.InOrder item ⟨item.afterUploads inspection version, uploads⟩ := by
  unfold QueuedInspection.afterUploads
  split
  · exact ⟨hfiles, hfinished⟩
  · exact ⟨hfiles, hfinished⟩

/-- An answer keeps an attempt in order. -/
theorem Attempt.InOrder.receive {a : Attempt} {ctx : Ctx} {r : BackendRequest}
    (h : a.InOrder item) (hr : a.request item ctx = some r) (reply : Reply) :
    (a.receive item reply).InOrder item := by
  obtain ⟨phase, uploads⟩ := a
  match reply with
  | none => trivial
  | some (.error e) => trivial
  | some (.ok response) =>
      cases phase with
      | sending =>
          obtain rfl : uploads = [] := h
          cases hshown : shownInspection response with
          | none =>
              simp only [Attempt.receive, hshown]
              trivial
          | some shown =>
              simp only [Attempt.receive, hshown]
              split
              · rename_i hfiles
                exact afterUploads_inOrder (by simp [hfiles]) (by simp)
              · show (item.evidenceFiles.map _).map Upload.file = item.evidenceFiles
                rw [List.map_map]
                exact List.map_id _
      | finalizing inspection version =>
          cases hshown : shownInspection response with
          | none =>
              simp only [Attempt.receive, hshown]
              trivial
          | some shown =>
              simp only [Attempt.receive, hshown]
              exact h
      | uploading inspection version => cases hr
      | settled outcome => cases hr

/-- Setting an element to one with the same image keeps the images. -/
theorem map_set_of_eq {α β : Type} {f : α → β} {xs : List α} {k : ℕ} {x y : α}
    (hx : xs[k]? = some x) (hy : f y = f x) : (xs.set k y).map f = xs.map f := by
  refine List.ext_getElem? fun j => ?_
  rw [List.getElem?_map, List.getElem?_map, List.getElem?_set]
  split
  · rename_i hk
    subst hk
    split
    · simp [hx, hy]
    · simp_all
  · rfl

/-- Moving one of its uploads keeps an attempt in order. -/
theorem Attempt.InOrder.withUpload {a : Attempt} {k : ℕ} {moved : Upload × Option Outcome}
    (h : a.InOrder item) (hu : a.uploads[k]? = some u) (hlive : u.Live)
    (hfile : moved.1.file = u.file) (hfailed : moved.2 ≠ some .confirmed) :
    (a.withUpload item k moved).InOrder item := by
  obtain ⟨phase, uploads⟩ := a
  have hmap : (uploads.set k moved.1).map Upload.file = uploads.map Upload.file :=
    map_set_of_eq hu hfile
  have hmem : u ∈ uploads := List.mem_of_getElem? hu
  cases phase with
  | sending =>
      obtain rfl : uploads = [] := h
      cases hmem
  | uploading inspection version =>
      have hfiles : uploads.map Upload.file = item.evidenceFiles := h
      obtain ⟨u', failure⟩ := moved
      unfold Attempt.withUpload
      cases failure with
      | some outcome =>
          cases outcome with
          | confirmed => exact absurd rfl hfailed
          | failed rejected detail => trivial
      | none =>
          dsimp only
          split
          · rename_i hall
            refine afterUploads_inOrder (hmap.trans hfiles) ?_
            simpa using hall
          · exact hmap.trans hfiles
  | finalizing inspection version => exact absurd (h.2 u hmem) hlive.1
  | settled outcome =>
      cases outcome with
      | confirmed => exact absurd (h.2 u hmem) hlive.1
      | failed rejected detail => trivial

/-! ## The count of an attempt -/

/-- The uploads account for the recorded attachments: a finished one for one of its file, a
failed one for at most one. -/
structure Accounted (uploads : List Upload) (rows : List EvidenceAttachment) : Prop where
  finished : ∀ f, uploads.countP (fun u => u.file = f && u.stage = .finished) ≤
    (rows.map fileOf).count f
  ended : ∀ f, (rows.map fileOf).count f ≤
    uploads.countP fun u => u.file = f && (u.stage = .finished || u.stage = .failed)

/-- An upload that moves without finishing changes no account. -/
theorem Accounted.quiet {k : ℕ} (h : Accounted uploads rows) (hu : uploads[k]? = some u)
    (hlive : u.Live) (hfile : u'.file = u.file) (hstage : u'.stage ≠ .finished) :
    Accounted (uploads.set k u') rows := by
  obtain ⟨hk, rfl⟩ := List.getElem?_eq_some_iff.mp hu
  obtain ⟨hfinished, hfailed⟩ := hlive
  constructor
  · intro f
    have hcount := h.finished f
    rw [List.countP_set hk]
    simpa [hfinished, hstage] using hcount
  · intro f
    have hcount := h.ended f
    rw [List.countP_set hk]
    simp only [hfinished, hfailed, decide_false, Bool.or_self, Bool.and_false,
      Bool.false_eq_true, if_false, Nat.sub_zero]
    omega

/-- A recorded row is accounted for by the upload that ends with it. -/
theorem Accounted.recorded {k : ℕ} {row : EvidenceAttachment} (h : Accounted uploads rows)
    (hu : uploads[k]? = some u) (hlive : u.Live) (hfile : u'.file = u.file)
    (hrow : fileOf row = u.file) (hstage : u'.stage = .finished ∨ u'.stage = .failed) :
    Accounted (uploads.set k u') (rows ++ [row]) := by
  obtain ⟨hk, rfl⟩ := List.getElem?_eq_some_iff.mp hu
  obtain ⟨hfinished, hfailed⟩ := hlive
  have hrows : ∀ f, ((rows ++ [row]).map fileOf).count f =
      (rows.map fileOf).count f + if u'.file = f then 1 else 0 := by
    intro f
    rw [List.map_append, List.count_append, List.map_singleton, List.count_singleton, hrow, hfile]
    simp
  constructor
  · intro f
    have hcount := h.finished f
    rw [List.countP_set hk, hrows]
    simp only [hfinished, decide_false, Bool.and_false, Bool.and_eq_true, decide_eq_true_eq]
    by_cases hf : u'.file = f <;> by_cases hs : u'.stage = .finished <;> simp [hf, hs] <;> omega
  · intro f
    have hcount := h.ended f
    have hend : (decide (u'.stage = .finished) || decide (u'.stage = .failed)) = true := by
      simpa using hstage
    rw [List.countP_set hk, hrows, hend]
    simp only [hfinished, hfailed, decide_false, Bool.or_self, Bool.and_false, Bool.and_true,
      decide_eq_true_eq, Bool.false_eq_true, if_false, Nat.sub_zero]
    split <;> omega

/-- Where all uploads have finished, the rows are the files of the capture. -/
theorem Accounted.perm (h : Accounted uploads rows)
    (hfinished : ∀ u ∈ uploads, u.stage = .finished) :
    (rows.map fileOf).Perm (uploads.map Upload.file) := by
  refine List.perm_iff_count.mpr fun f => ?_
  have hcount : ∀ p : Upload → Bool, (∀ u ∈ uploads, p u = decide (u.file = f)) →
      uploads.countP p = (uploads.map Upload.file).count f := by
    intro p hp
    rw [List.count, List.countP_map]
    refine List.countP_congr fun u hu => ?_
    rw [hp u hu]
    simp
  refine le_antisymm ?_ ?_
  · refine (h.ended f).trans (hcount _ fun u hu => ?_).le
    simp [hfinished u hu]
  · refine ((hcount _ fun u hu => ?_).ge).trans (h.finished f)
    simp [hfinished u hu]

/-! ## Runs -/

/-- The attachments recorded for one attempt. -/
def rowsOf (i : ℕ) (recorded : List (ℕ × EvidenceAttachment)) : List EvidenceAttachment :=
  (recorded.filter fun x => x.1 = i).map Prod.snd

/-- The uploads of an attempt; before it starts there are none. -/
def World.uploadsOf (w : World) (i : ℕ) : List Upload :=
  (w.attempts[i]?.map Attempt.uploads).getD []

/-- The uploads of an attempt that was replaced. -/
theorem World.uploadsOf_set {i : ℕ} {a a' : Attempt} (ha : w.attempts[i]? = some a) (b : Backend)
    (j : ℕ) : World.uploadsOf ⟨b, w.attempts.set i a'⟩ j =
      if i = j then a'.uploads else w.uploadsOf j := by
  obtain ⟨hi, _⟩ := List.getElem?_eq_some_iff.mp ha
  unfold World.uploadsOf
  rw [List.getElem?_set]
  split
  · simp
  · rfl

/-- What is known of a world, and of the attachments recorded on the way to it. -/
structure Tracked (item : QueuedInspection) (recorded : List (ℕ × EvidenceAttachment))
    (w : World) : Prop where
  tenant : InspectionsInOrder w.backend.tenant
  order : ∀ a ∈ w.attempts, a.InOrder item
  accounted : ∀ i, Accounted (w.uploadsOf i) (rowsOf i recorded)
  uploads : ∀ a ∈ w.attempts, ∀ u ∈ a.uploads, item.Concerns w.backend.tenant u.inspection
  rows : ∀ x ∈ recorded, item.Concerns w.backend.tenant x.2.inspectionId

/-- A run keeps the rows in order, and what the capture concerns. -/
theorem concerns_run (sha : Sha256) (item : QueuedInspection) (hb : InspectionsInOrder b.tenant)
    (rs : List BackendRequest) :
    InspectionsInOrder (run (Backend.handle sha) b rs).tenant ∧
      ∀ id, item.Concerns b.tenant id →
        item.Concerns (run (Backend.handle sha) b rs).tenant id := by
  refine ⟨run_invariant (P := fun b : Backend => InspectionsInOrder b.tenant)
    (fun hs hr => Backend.inspectionsInOrder hs hr) rs hb, ?_⟩
  refine run_relation (P := fun b : Backend => InspectionsInOrder b.tenant)
    (Q := fun b b' => ∀ id, item.Concerns b.tenant id → item.Concerns b'.tenant id)
    (fun _ _ h => h) (fun h h' id hid => h' id (h id hid))
    (fun hs hr => Backend.inspectionsInOrder hs hr) ?_ rs hb
  intro s r s' a hs hr id hid
  exact hid.step (Backend.handle_inspections hs hr) hs

/-- Of an attempt, only the one upload changes. -/
theorem Attempt.withUpload_uploads (a : Attempt) (item : QueuedInspection) (k : ℕ)
    (moved : Upload × Option Outcome) :
    (a.withUpload item k moved).uploads = a.uploads.set k moved.1 := by
  unfold Attempt.withUpload
  dsimp only
  split
  · rfl
  · split <;> rfl
  · rfl

/-- The uploads of an attempt start when the inspection is shown to it. -/
theorem Attempt.receive_uploads (a : Attempt) (item : QueuedInspection) (reply : Reply) :
    (a.receive item reply).uploads = a.uploads ∨ a.phase = .sending ∧
      ∃ response inspection version, reply = some (.ok response) ∧
        shownInspection response = some (inspection, version) ∧
        (a.receive item reply).uploads =
          item.evidenceFiles.map fun file => ⟨inspection, file, .presign⟩ := by
  match reply with
  | none => exact .inl rfl
  | some (.error e) => exact .inl rfl
  | some (.ok response) =>
      unfold Attempt.receive
      dsimp only
      split
      · rename_i inspection version hphase hshown
        split
        · exact .inl rfl
        · exact .inr ⟨hphase, response, inspection, version, rfl, hshown, rfl⟩
      · exact .inl rfl
      · exact .inl rfl

/-- What is answered was done by the backend. -/
theorem exchange_answer {r : BackendRequest} {delivery : Delivery} {response : BackendResponse}
    (h : (exchange sha b r delivery).2 = some (.ok response)) :
    b.handle sha r = .ok ((exchange sha b r delivery).1, response) := by
  cases delivery with
  | requestLost => cases h
  | responseLost => cases h
  | answered =>
      cases hr : b.handle sha r with
      | error e => simp [exchange, hr, Except.map] at h
      | ok p =>
          obtain rfl : p.2 = response := by simpa [exchange, hr, Except.map] using h
          rw [exchange, serve_of_ok _ hr]

/-- An attempt that only begins its uploads accounts for the rows there are. -/
theorem accounted_of_nil (h : Accounted [] rows) {inspection : Id} (files : List EvidenceFile) :
    Accounted (files.map fun file => ⟨inspection, file, .presign⟩) rows := by
  constructor
  · intro f
    rw [List.countP_map, List.countP_eq_zero.mpr (by simp)]
    exact Nat.zero_le _
  · intro f
    exact (h.ended f).trans (Nat.zero_le _)

/-- The rows of an attempt, in two parts of the record. -/
theorem rowsOf_append (i : ℕ) (recorded more : List (ℕ × EvidenceAttachment)) :
    rowsOf i (recorded ++ more) = rowsOf i recorded ++ rowsOf i more := by
  simp [rowsOf]

/-- A new attempt has no uploads and no rows. -/
theorem Tracked.attempt {recorded : List (ℕ × EvidenceAttachment)} (h : Tracked item recorded w) :
    Tracked item recorded { w with attempts := w.attempts ++ [⟨.sending, []⟩] } where
  tenant := h.tenant
  order := by
    intro a ha
    rcases List.mem_append.mp ha with ha | ha
    · exact h.order a ha
    · obtain rfl := List.mem_singleton.mp ha
      exact (rfl : ([] : List Upload) = [])
  accounted := by
    intro i
    have hsame : World.uploadsOf { w with attempts := w.attempts ++ [⟨.sending, []⟩] } i =
        w.uploadsOf i := by
      unfold World.uploadsOf
      rcases Nat.lt_trichotomy i w.attempts.length with hi | rfl | hi
      · rw [List.getElem?_append_left hi]
      · simp
      · rw [List.getElem?_eq_none (by simp; omega), List.getElem?_eq_none (by omega)]
    rw [hsame]
    exact h.accounted i
  uploads := by
    intro a ha
    rcases List.mem_append.mp ha with ha | ha
    · exact h.uploads a ha
    · obtain rfl := List.mem_singleton.mp ha
      intro u hu
      cases hu
  rows := h.rows

/-- The attempts stay, the backend serves requests. -/
theorem Tracked.backend {recorded : List (ℕ × EvidenceAttachment)} (h : Tracked item recorded w)
    (sha : Sha256) (rs : List BackendRequest) :
    Tracked item recorded { w with backend := run (Backend.handle sha) w.backend rs } := by
  obtain ⟨htenant, hconcerns⟩ := concerns_run sha item h.tenant rs
  exact ⟨htenant, h.order, h.accounted, fun a ha u hu => hconcerns _ (h.uploads a ha u hu),
    fun x hx => hconcerns _ (h.rows x hx)⟩

/-- One attempt moves on. -/
theorem Tracked.set {recorded more : List (ℕ × EvidenceAttachment)} {i : ℕ} {a a' : Attempt}
    (h : Tracked item recorded w) (ha : w.attempts[i]? = some a) (horder : a'.InOrder item)
    (haccounted : Accounted a'.uploads (rowsOf i (recorded ++ more)))
    (huploads : ∀ u ∈ a'.uploads, item.Concerns w.backend.tenant u.inspection)
    (hmore : ∀ x ∈ more, x.1 = i ∧ item.Concerns w.backend.tenant x.2.inspectionId) :
    Tracked item (recorded ++ more) { w with attempts := w.attempts.set i a' } where
  tenant := h.tenant
  order := by
    intro c hc
    rcases List.mem_or_eq_of_mem_set hc with hc | rfl
    · exact h.order c hc
    · exact horder
  accounted := by
    intro j
    rw [World.uploadsOf_set ha]
    split
    · rename_i hij
      exact hij ▸ haccounted
    · rename_i hij
      have hnone : rowsOf j more = [] := by
        unfold rowsOf
        rw [List.map_eq_nil_iff, List.filter_eq_nil_iff]
        intro x hx hj
        exact hij ((hmore x hx).1.symm.trans (of_decide_eq_true hj))
      rw [rowsOf_append, hnone, List.append_nil]
      exact h.accounted j
  uploads := by
    intro c hc
    rcases List.mem_or_eq_of_mem_set hc with hc | rfl
    · exact h.uploads c hc
    · exact huploads
  rows := by
    intro x hx
    rcases List.mem_append.mp hx with hx | hx
    · exact h.rows x hx
    · exact (hmore x hx).2

/-- Sending the next request of an attempt. -/
theorem Tracked.send {recorded : List (ℕ × EvidenceAttachment)} {i : ℕ} {delivery : Delivery}
    {ctx : Ctx} (h : Tracked item recorded w)
    (hnext : w.next sha item (.send i delivery ctx) = some w') : Tracked item recorded w' := by
  obtain ⟨a, r, ha, hr, rfl⟩ := World.next_send.mp hnext
  have hserved := h.backend sha (if delivery = .requestLost then none else some r).toList
  rw [← exchange_backend] at hserved
  have hmem : a ∈ w.attempts := List.mem_of_getElem? ha
  have hcount : Accounted a.uploads (rowsOf i recorded) := by
    have hold := h.accounted i
    rwa [World.uploadsOf, ha] at hold
  have horder := (h.order a hmem).receive hr (exchange sha w.backend r delivery).2
  suffices hmoved : Accounted (a.receive item (exchange sha w.backend r delivery).2).uploads
      (rowsOf i recorded) ∧ ∀ u ∈ (a.receive item (exchange sha w.backend r delivery).2).uploads,
        item.Concerns (exchange sha w.backend r delivery).1.tenant u.inspection by
    rw [← List.append_nil recorded]
    exact hserved.set ha horder (by simpa using hmoved.1) hmoved.2 (by simp)
  rcases a.receive_uploads item (exchange sha w.backend r delivery).2 with
    hsame | ⟨hphase, response, inspection, version, hreply, hshown, hfiles⟩
  · rw [hsame]
    exact ⟨hcount, hserved.uploads a hmem⟩
  · obtain rfl : .tenant (item.firstRequest ctx) = r := by
      simpa [Attempt.request, hphase] using hr
    have hempty : a.uploads = [] := by
      have hold := h.order a hmem
      rwa [Attempt.InOrder, hphase] at hold
    rw [hfiles]
    refine ⟨accounted_of_nil (hempty ▸ hcount) item.evidenceFiles, ?_⟩
    intro u hu
    obtain ⟨file, _, rfl⟩ := List.mem_map.mp hu
    exact concerns_of_answer (exchange_answer hreply) hshown

/-- One exchange of an upload, with what it records. -/
theorem Tracked.upload {recorded : List (ℕ × EvidenceAttachment)} {i k : ℕ} {delivery : Delivery}
    {ctx : Ctx} {storage : Storage} (h : Tracked item recorded w)
    (hnext : w.next sha item (.upload i k delivery ctx storage) = some w') :
    Tracked item (recorded ++ w.records sha item (.upload i k delivery ctx storage)) w' := by
  have hrecords : w.records sha item (.upload i k delivery ctx storage) =
      (w'.backend.evidence.drop w.backend.evidence.length).map fun row => (i, row) := by
    simp only [World.records, World.serve_eq, hnext, Option.getD_some]
  obtain ⟨a, u, b, moved, ha, hu, hmoved, rfl⟩ := World.next_upload.mp hnext
  have hbackend := Upload.exchange_backend hmoved
  obtain ⟨hlive, hmove, hstep⟩ := Upload.exchange_step hmoved
  have hserved : Tracked item recorded { w with backend := b } := hbackend ▸ h.backend sha _
  have hmem : a ∈ w.attempts := List.mem_of_getElem? ha
  have hcount : Accounted a.uploads (rowsOf i recorded) := by
    have hold := h.accounted i
    rwa [World.uploadsOf, ha] at hold
  have horder := (h.order a hmem).withUpload hu hlive hmove.file hmove.failure
  have hconcerns : ∀ v ∈ a.uploads.set k moved.1, item.Concerns b.tenant v.inspection := by
    intro v hv
    rcases List.mem_or_eq_of_mem_set hv with hv | rfl
    · exact hserved.uploads a hmem v hv
    · rw [hmove.inspection]
      exact hserved.uploads a hmem u (List.mem_of_getElem? hu)
  have huploads := a.withUpload_uploads item k moved
  rw [hrecords]
  -- Either the backend records nothing, or it records the one file of this upload.
  cases hstep with
  | quiet evidence stage =>
      simp only [evidence, List.drop_length, List.map_nil]
      refine hserved.set ha horder ?_ (huploads ▸ hconcerns) (by simp)
      rw [huploads, List.append_nil]
      exact hcount.quiet hu hlive hmove.file stage
  | recorded row evidence file inspection stage =>
      simp only [evidence, List.drop_left, List.map_cons, List.map_nil]
      refine hserved.set ha horder ?_ (huploads ▸ hconcerns) ?_
      · have hone : rowsOf i [(i, row)] = [row] := by simp [rowsOf]
        rw [huploads, rowsOf_append, hone]
        exact hcount.recorded hu hlive hmove.file file stage
      · intro x hx
        obtain rfl := List.mem_singleton.mp hx
        refine ⟨rfl, ?_⟩
        rw [inspection]
        exact hserved.uploads a hmem u (List.mem_of_getElem? hu)

/-- An event that does not happen records nothing. -/
theorem records_of_refused {e : WorldEvent} (h : w.next sha item e = none) :
    w.records sha item e = [] := by
  cases e with
  | upload i k delivery ctx storage =>
      simp [World.records, World.serve_eq, h]
  | _ => rfl

/-- The record of a longer run ends with what its last event records. -/
theorem attachments_concat (w : World) (past : List WorldEvent) (e : WorldEvent) :
    attachments sha item w (past ++ [e]) = attachments sha item w past ++
      World.records sha item (run (World.handle sha item) w past) e :=
  collectAlong_concat _ e past w

/-- **A run keeps account of its attachments.** -/
theorem tracked_run (sha : Sha256) (item : QueuedInspection) (h₀ : b.tenant.Initial)
    (es : List WorldEvent) :
    Tracked item (attachments sha item ⟨b, []⟩ es) (run (World.handle sha item) ⟨b, []⟩ es) := by
  have hstart : Tracked item [] ⟨b, []⟩ := by
    refine ⟨.ofInitial h₀, by simp, fun i => ?_, by simp, by simp⟩
    exact ⟨fun f => by simp [World.uploadsOf], fun f => by simp [rowsOf]⟩
  refine run_history (P := fun past w => Tracked item (attachments sha item ⟨b, []⟩ past) w)
    hstart ?_ ?_ es
  · intro past e u h he
    have hrefused : World.next sha item (run (World.handle sha item) ⟨b, []⟩ past) e = none := by
      unfold World.handle at he
      split at he
      · assumption
      · cases he
    rw [attachments_concat, records_of_refused hrefused, List.append_nil]
    exact h
  · intro past e w' u h he
    have hnext := World.handle_eq_ok.mp he
    rw [attachments_concat]
    cases e with
    | attempt =>
        cases hnext
        simpa [World.records] using h.attempt
    | other r =>
        cases hnext
        simpa [World.records] using h.backend sha [r]
    | send i delivery ctx => simpa [World.records] using h.send hnext
    | upload i k delivery ctx storage => exact h.upload hnext

/-- A confirmed attempt has had every file of the capture recorded once. -/
theorem Tracked.confirmed {recorded : List (ℕ × EvidenceAttachment)} {i : ℕ} {a : Attempt}
    (h : Tracked item recorded w) (ha : w.attempts[i]? = some a)
    (hconfirmed : a.phase = .settled .confirmed) :
    ((rowsOf i recorded).map fileOf).Perm item.evidenceFiles := by
  have horder := h.order a (List.mem_of_getElem? ha)
  rw [Attempt.InOrder, hconfirmed] at horder
  have hcount := h.accounted i
  rw [World.uploadsOf, ha] at hcount
  exact horder.1 ▸ hcount.perm horder.2

/-! ## Who records -/

/-- The request asks for an attachment, and passes every check of the backend: it is of a member
who may manage evidence, it is valid and of a stored inspection, the object lies in the upload
area of that inspection and passes the checks of the store, and its keys are not taken. -/
def attaches (b : Backend) : BackendRequest → Bool
  | .attach actor ctx data object =>
      (b.tenant.authorize ctx actor .evidenceManage).isOk && data.isValid &&
        data.inspectionId ∈ Table.keys b.tenant.inspections &&
        object.source = some data.inspectionId && object.failure = none &&
        ctx.uuid 0 ∉ Table.keys b.evidence &&
        object.destination ∉ b.evidence.map EvidenceAttachment.objectKey
  | _ => false

/-- The event brings a request of an attempt other than `i` to the backend, which records
an attachment for it. -/
def AttachesBesides (item : QueuedInspection) (i : ℕ) (w : World) : WorldEvent → Prop
  | .upload j k delivery ctx storage => j ≠ i ∧
      (w.delivers item (.upload j k delivery ctx storage)).any (attaches w.backend) = true
  | _ => False

instance {item : QueuedInspection} {i : ℕ} {w : World} :
    ∀ e, Decidable (AttachesBesides item i w e)
  | .upload .. => inferInstanceAs (Decidable (_ ∧ _))
  | .attempt | .send .. | .other _ => inferInstanceAs (Decidable False)

/-- The checks are those of the handler. -/
theorem attaches_eq_isOk (sha : Sha256) (b : Backend) (actor : Id) (ctx : Ctx)
    (data : EvidenceInput) (object : StoredObject) :
    attaches b (.attach actor ctx data object) =
      (b.handle sha (.attach actor ctx data object)).isOk := by
  have hfound : data.inspectionId ∈ Table.keys b.tenant.inspections ↔
      ∃ i, Table.get data.inspectionId b.tenant.inspections = some i := by
    refine ⟨Table.exists_get, fun ⟨i, hi⟩ => ?_⟩
    obtain ⟨hmem, hid⟩ := Table.mem_of_get hi
    exact Table.mem_keys.mpr ⟨i, hmem, hid⟩
  rw [Bool.eq_iff_iff]
  simp only [attaches, Bool.and_eq_true, decide_eq_true_eq, isOk_iff, hfound, Backend.handle,
    attachEvidence, requireValid, getInspection, bind_eq_ok, raiseIf_eq_ok, raiseSome_eq_ok,
    orRaise_eq_ok, pure_eq_ok, Prod.exists, Prod.mk.injEq]
  constructor
  · rintro ⟨⟨⟨⟨⟨⟨⟨user, huser⟩, hvalid⟩, i, hi⟩, hsource⟩, hfailure⟩, hfresh⟩, hkey⟩
    have hid : i.id = data.inspectionId := (Table.mem_of_get hi).2
    exact ⟨_, _, user, huser, _, _, ⟨(), by simp [hvalid], i, hi, (), by simp [hsource, hid], (),
      hfailure, (), hfresh, (), hkey, rfl, rfl⟩, rfl, rfl⟩
  · rintro ⟨_, _, user, huser, _, _, ⟨_, hvalid, i, hi, _, hsource, _, hfailure, _, hfresh, _, hkey,
      _, _⟩, _, _⟩
    have hid : i.id = data.inspectionId := (Table.mem_of_get hi).2
    exact ⟨⟨⟨⟨⟨⟨⟨user, huser⟩, by simpa using hvalid⟩, i, hi⟩, hid ▸ not_not.mp hsource⟩, hfailure⟩,
      hfresh⟩, hkey⟩

/-- A request records an attachment exactly if it passes the checks. -/
theorem serve_evidence (sha : Sha256) (b : Backend) (r : BackendRequest) :
    attaches b r = false ∧ (serve (Backend.handle sha) b r).evidence = b.evidence ∨
      attaches b r = true ∧
        ∃ row, (serve (Backend.handle sha) b r).evidence = b.evidence ++ [row] := by
  cases hr : b.handle sha r with
  | error e =>
      refine .inl ⟨?_, by rw [serve_of_error _ hr]⟩
      cases r with
      | attach actor ctx data object =>
          rw [attaches_eq_isOk sha, hr]
          rfl
      | _ => rfl
  | ok p =>
      rw [serve_of_ok _ hr]
      cases Backend.handle_step hr with
      | tenant _ _ _ evidence => exact .inl ⟨rfl, evidence⟩
      | presigned _ _ _ same => exact .inl ⟨rfl, by rw [same]⟩
      | attached actor ctx data object _ evidence =>
          refine .inr ⟨?_, _, evidence⟩
          rw [attaches_eq_isOk sha, hr]
          rfl

/-- Where nothing is attached besides, what is recorded is the attempt's own. -/
theorem attachesBesides_iff {i : ℕ} (w : World) (e : WorldEvent) :
    ¬AttachesBesides item i w e ↔ ∀ x ∈ w.records sha item e, x.1 = i := by
  cases e with
  | upload j k delivery ctx storage =>
      simp only [World.records, AttachesBesides, World.serve_backend]
      cases w.delivers item (.upload j k delivery ctx storage) with
      | none => simp
      | some r =>
          rcases serve_evidence sha w.backend r with ⟨hnone, hsame⟩ | ⟨hsome, row, hrow⟩
          · simp [hnone, hsame]
          · simp [hsome, hrow]
  | _ => simp [AttachesBesides, World.records]

/-- **When evidence is attached once.**  An attempt for a capture is confirmed.  The
attachments recorded for the capture are then one for each of its files exactly if no
other attempt has had one recorded. -/
theorem evidence_attached_once_iff (sha : Sha256) {b₀ : Backend} (h₀ : b₀.tenant.Initial)
    (item : QueuedInspection) (es : List WorldEvent) {i : ℕ} {a : Attempt}
    (ha : (run (World.handle sha item) ⟨b₀, []⟩ es).attempts[i]? = some a)
    (hconfirmed : a.phase = .settled .confirmed) :
    AttachedOnce item (run (World.handle sha item) ⟨b₀, []⟩ es).backend.tenant
        ((attachments sha item ⟨b₀, []⟩ es).map Prod.snd) ↔
      Along (World.handle sha item) (fun w e => ¬AttachesBesides item i w e) ⟨b₀, []⟩ es := by
  have htracked := tracked_run sha item h₀ es
  have hown := htracked.confirmed ha hconfirmed
  rw [along_congr attachesBesides_iff, along_forall_mem]
  show _ ↔ ∀ x ∈ attachments sha item ⟨b₀, []⟩ es, x.1 = i
  generalize attachments sha item ⟨b₀, []⟩ es = recorded at htracked hown ⊢
  constructor
  · intro honce
    -- The attempt itself accounts for as many attachments as there are.
    have hlength : (recorded.filter fun x => x.1 = i).length = recorded.length := by
      have hall := honce.files.length_eq
      have hmine := hown.length_eq
      simp only [rowsOf, List.length_map] at hall hmine
      omega
    intro x hx
    simpa using List.length_filter_eq_length_iff.mp hlength x hx
  · intro honly
    have hall : rowsOf i recorded = recorded.map Prod.snd := by
      rw [rowsOf, List.filter_eq_self.mpr (by simpa using honly)]
    refine ⟨hall ▸ hown, ?_⟩
    intro row hrow
    obtain ⟨x, hx, rfl⟩ := List.mem_map.mp hrow
    exact htracked.rows x hx

namespace Sample

open VesselCaller.Sample (sha ctx)

/-- The completed inspection with a photo. -/
def photographed : QueuedInspection :=
  { inspected with evidenceFiles := [{
      name := "berth.jpg"
      type := "image/jpeg"
      size := 2048
      checksum := "sha256:0123456789abcdef0123456789abcdef0123456789abcdef0123456789abcdef" }] }

/-- The object store takes the file and keeps it under the key. -/
def stored (key : String) : Storage := ⟨200, key, none⟩

/-- The photo goes up: an address is signed, the file sent, and the attachment requested. -/
def upload (attempt n : ℕ) (delivery : Delivery) (key : String) : List WorldEvent := [
  .upload attempt 0 .answered (ctx n) (stored key),
  .upload attempt 0 .answered (ctx (n + 1)) (stored key),
  .upload attempt 0 delivery (ctx (n + 2)) (stored key)]

/-- One attempt, and nothing is lost. -/
def uploadedOnce : List WorldEvent := submitted ++ [.send 0 .answered (ctx 2)] ++
  upload 0 3 .answered "evidence/a" ++ [.send 0 .answered (ctx 6)]

/-- The attachment of the first attempt is recorded, but its answer lost; the second
attempt starts over. -/
def uploadedTwice : List WorldEvent := submitted ++ [.send 0 .answered (ctx 2)] ++
  upload 0 3 .responseLost "evidence/a" ++ [.attempt, .send 1 .answered (ctx 6)] ++
  upload 1 7 .answered "evidence/b" ++ [.send 1 .answered (ctx 10)]

end Sample

/-- Without a second attempt the photo is attached once. -/
theorem evidence_attached_once_alone :
    ∃ a : Attempt, a.phase = .settled .confirmed ∧
      AttachedOnce Sample.photographed
        (run (World.handle VesselCaller.Sample.sha Sample.photographed) ⟨Sample.backend, []⟩
          Sample.uploadedOnce).backend.tenant
        ((attachments VesselCaller.Sample.sha Sample.photographed ⟨Sample.backend, []⟩
          Sample.uploadedOnce).map Prod.snd) := by
  have hphase : ((run (World.handle VesselCaller.Sample.sha Sample.photographed)
      ⟨Sample.backend, []⟩ Sample.uploadedOnce).attempts[0]?.map Attempt.phase) =
        some (.settled .confirmed) := by decide +kernel
  obtain ⟨a, ha, hconfirmed⟩ := Option.map_eq_some_iff.mp hphase
  have h₀ : Sample.backend.tenant.Initial := VesselCaller.Sample.initial
  refine ⟨a, hconfirmed, ?_⟩
  refine (evidence_attached_once_iff VesselCaller.Sample.sha h₀ Sample.photographed
    Sample.uploadedOnce ha hconfirmed).mpr ?_
  decide +kernel

/-- The retry attaches the photo a second time. -/
theorem evidence_attached_twice :
    ¬∀ (sha : Sha256) (b₀ : Backend) (item : QueuedInspection) (es : List WorldEvent) (i : ℕ)
      (a : Attempt), b₀.tenant.Initial →
      (run (World.handle sha item) ⟨b₀, []⟩ es).attempts[i]? = some a →
      a.phase = .settled .confirmed →
      AttachedOnce item (run (World.handle sha item) ⟨b₀, []⟩ es).backend.tenant
        ((attachments sha item ⟨b₀, []⟩ es).map Prod.snd) := by
  intro honce
  have hphase : ((run (World.handle VesselCaller.Sample.sha Sample.photographed)
      ⟨Sample.backend, []⟩ Sample.uploadedTwice).attempts[1]?.map Attempt.phase) =
        some (.settled .confirmed) := by decide +kernel
  obtain ⟨a, ha, hconfirmed⟩ := Option.map_eq_some_iff.mp hphase
  have htwice := (honce VesselCaller.Sample.sha Sample.backend Sample.photographed
    Sample.uploadedTwice 1 a VesselCaller.Sample.initial ha hconfirmed).files.length_eq
  revert htwice
  decide +kernel

end VesselCaller.Client
