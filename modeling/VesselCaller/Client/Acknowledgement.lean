import VesselCaller.Client.EvidenceOnce
import VesselCaller.Client.Removal

/-!
# The acknowledgement of applied work

The last answer to a capture was lost: the backend has applied it, and it is still queued.
The next flush sends it again.  A creation is recognized by its key, but only after the
call was looked at: once the call is cancelled, the replay is refused.  An update is not
recognized at all.  It is refused once the inspection is completed, and as long as it is a
draft the version the update was made for is a past one.  So the flush acknowledges the
capture exactly if its first request is accepted a second time, and that is a condition on
the tables (`Acknowledges`).

A flush works if its requests are answered.  Others may use the backend between them.

## Main definitions

* `TakenUp`, `Applied` — the inspection of the capture, and a capture that is stored in it;
* `Acknowledges` — the backend accepts the first request of the capture once more;
* `Proceeds`, `OnItsWay` — a flush that goes on to its end;
* `QueuedInspection.work` — how many exchanges that takes.
-/

namespace VesselCaller.Client

open Lib Accounts Billing Measurements Operations

variable {sha : Sha256} {b b' : Backend} {item : QueuedInspection} {w w' : World}
  {t t' : Tenant} {i i' : Inspection} {u : Upload} {ctx : Ctx} {id : Id} {version n : ℕ}

/-! ## Applied captures -/

/-- The columns the capture sets have its values. -/
structure Stored (data : InspectionInput) (i : Inspection) : Prop where
  cargoType : ∀ x ∈ data.cargoType, i.cargoType = x
  product : ∀ x ∈ data.product, i.product = x
  reconciledTonnage : ∀ x ∈ data.reconciledTonnage, i.reconciledTonnage = x
  jetty : ∀ x ∈ data.jetty, i.jetty = x
  liquid : ∀ x ∈ data.liquid, i.liquid = x
  dry : ∀ x ∈ data.dry, i.dry = x

theorem InspectionsInOrder.replayed (ht : InspectionsInOrder t) (hi : i ∈ t.inspections)
    (hne : i.idempotencyKey ≠ "") : replayed t i.idempotencyKey = some i := by
  unfold Operations.replayed
  rw [if_neg hne]
  cases hfind : t.inspections.find? fun j => j.idempotencyKey = i.idempotencyKey with
  | none =>
      have hnone := List.find?_eq_none.mp hfind i hi
      simp at hnone
  | some j =>
      have hkey : j.idempotencyKey = i.idempotencyKey := by simpa using List.find?_some hfind
      rw [ht.once i hi j (List.mem_of_find?_eq_some hfind) hne hkey]

/-- What the flush relies on from its first answer to its end: the inspection it was shown
is there, and if it is to be finalized it is, in the version shown. -/
structure Ready (item : QueuedInspection) (t : Tenant) (id : Id) (version : ℕ) : Prop where
  order : InspectionsInOrder t
  row : ∃ i ∈ t.inspections, i.id = id ∧
    (item.data.completed = true → i.status ≠ .draft ∧ i.version = version)

/-- A request to the operations API. -/
theorem Backend.handle_operations {actor : Id} {op : Operations.Op} {a : BackendResponse} :
    b.handle sha (.tenant (.operations actor ctx op)) = .ok (b', a) ↔
      (b.tenant.authorize ctx actor op.permission).isOk = true ∧
      ∃ t' answer, op.handle b.tenant ctx = .ok (t', answer) ∧ b' = { b with tenant := t' } ∧
        a = .tenant (.operations answer) := by
  simp only [Backend.handle, Tenant.handle, isOk_iff, bind_eq_ok, pure_eq_ok, Prod.exists,
    Prod.mk.injEq]
  constructor
  · rintro ⟨t', _, ⟨user, huser, t'', answer, hop, rfl, rfl⟩, rfl, rfl⟩
    exact ⟨⟨user, huser⟩, t'', answer, hop, rfl, rfl⟩
  · rintro ⟨⟨user, huser⟩, t', answer, hop, rfl, rfl⟩
    exact ⟨t', _, ⟨user, huser, t', answer, hop, rfl, rfl⟩, rfl, rfl⟩

/-- The answer to the first request lets the flush go on. -/
def Answered (sha : Sha256) (item : QueuedInspection) (b : Backend) (ctx : Ctx) : Prop :=
  ∃ b' response id version, b.handle sha (.tenant (item.firstRequest ctx)) = .ok (b', response) ∧
    shownInspection response = some (id, version) ∧ Ready item b'.tenant id version

/-- The flush of the attempt `n` works: its requests are answered, by a backend that takes
them from the owner and an object store that takes the files.  Whatever else happens is
free. -/
def Works (item : QueuedInspection) (n : ℕ) (w : World) : WorldEvent → Prop
  | .send j delivery ctx => j = n → delivery = .answered ∧
      (w.backend.tenant.authorize ctx item.userId .inspectionsManage).isOk = true
  | .upload j _ delivery ctx storage => j = n → delivery = .answered ∧
      (w.backend.tenant.authorize ctx item.userId .evidenceManage).isOk = true ∧
      200 ≤ storage.put ∧ storage.put < 300 ∧ storage.failure = none ∧
      ctx.uuid 0 ∉ Table.keys w.backend.evidence ∧
      storage.destination ∉ w.backend.evidence.map EvidenceAttachment.objectKey
  | .attempt | .other _ => True

instance {item : QueuedInspection} {n : ℕ} {w : World} : ∀ e, Decidable (Works item n w e)
  | .send .. => inferInstanceAs (Decidable (_ → _ ∧ _))
  | .upload .. => inferInstanceAs (Decidable (_ → _ ∧ _ ∧ _ ∧ _ ∧ _ ∧ _ ∧ _))
  | .attempt | .other _ => inferInstanceAs (Decidable True)

/-- The exchanges an upload has before it. -/
def Stage.remaining : Stage → ℕ
  | .presign => 3
  | .put _ => 2
  | .attach _ => 1
  | .finished | .failed => 0

/-- The upload is on its way to the inspection. -/
structure UnderWay (item : QueuedInspection) (id : Id) (u : Upload) : Prop where
  inspection : u.inspection = id
  file : u.file ∈ item.evidenceFiles
  unfailed : u.stage ≠ .failed
  source : ∀ s, u.stage = .put s ∨ u.stage = .attach s → s = id

theorem getInspection_of_mem (ht : InspectionsInOrder t) (hi : i ∈ t.inspections) :
    getInspection t i.id = .ok i :=
  orRaise_eq_ok.mpr (Table.get_of_mem ht.keys hi)

theorem presign_ok {actor : Id} {data : EvidenceInput} (ht : InspectionsInOrder b.tenant)
    (hi : i ∈ b.tenant.inspections) (hid : i.id = data.inspectionId)
    (hauth : (b.tenant.authorize ctx actor .evidenceManage).isOk = true)
    (hvalid : data.isValid = true) :
    b.handle sha (.presign actor ctx data) = .ok (b, .presigned data.inspectionId) := by
  obtain ⟨user, huser⟩ := isOk_iff.mp hauth
  simp only [Backend.handle, presignEvidence, requireValid, bind_eq_ok, pure_eq_ok, raiseIf_eq_ok]
  refine ⟨user, huser, i.id, ⟨(), by simp [hvalid], i, ?_, rfl⟩, by rw [hid]⟩
  rw [← hid]
  exact getInspection_of_mem ht hi

theorem attach_ok {actor : Id} {data : EvidenceInput} {object : StoredObject}
    (ht : InspectionsInOrder b.tenant) (hi : i ∈ b.tenant.inspections)
    (hid : i.id = data.inspectionId)
    (hauth : (b.tenant.authorize ctx actor .evidenceManage).isOk = true)
    (hvalid : data.isValid = true) (hsource : object.source = some data.inspectionId)
    (hfailure : object.failure = none) (hfresh : ctx.uuid 0 ∉ Table.keys b.evidence)
    (hkey : object.destination ∉ b.evidence.map EvidenceAttachment.objectKey) :
    ∃ b' row rev, b.handle sha (.attach actor ctx data object) = .ok (b', .attached row rev) := by
  obtain ⟨user, huser⟩ := isOk_iff.mp hauth
  let row := data.row ctx actor object.destination
  let after : Backend := { tenant := b.tenant.bumpRevision, evidence := b.evidence ++ [row] }
  have hattach : attachEvidence b ctx actor data object = .ok (after, row) := by
    simp only [attachEvidence, requireValid, bind_eq_ok, pure_eq_ok, raiseIf_eq_ok,
      raiseSome_eq_ok]
    refine ⟨(), by simp [hvalid], i, ?_, (), ?_, (), hfailure, (), hfresh, (), hkey, rfl⟩
    · rw [← hid]
      exact getInspection_of_mem ht hi
    · simp [hsource, hid]
  refine ⟨after, row, after.tenant.revision, ?_⟩
  simp only [Backend.handle, bind_eq_ok, pure_eq_ok, Prod.exists]
  exact ⟨user, huser, after, row, hattach, rfl⟩

theorem UnderWay.exchange {storage : Storage} {k : ℕ}
    (hready : Ready item w.backend.tenant id version)
    (hfiles : ∀ f ∈ item.evidenceFiles, ∀ id, (f.input id).isValid = true)
    (h : UnderWay item id u) (hlive : u.stage ≠ .finished)
    (hworks : Works item n w (.upload n k .answered ctx storage)) :
    ∃ b' stage, u.exchange sha w.backend item.userId .answered ctx storage =
        some (b', { u with stage := stage }, none) ∧
      UnderWay item id { u with stage := stage } ∧ stage.remaining + 1 = u.stage.remaining := by
  obtain ⟨_, hauth, hput, hput', hfailure, hfresh, hkey⟩ := hworks rfl
  obtain ⟨i, hi, hid, _⟩ := hready.row
  have hiu : i.id = u.input.inspectionId := hid.trans h.inspection.symm
  have hvalid : u.input.isValid = true := hfiles u.file h.file u.inspection
  unfold Upload.exchange Upload.request
  cases hstage : u.stage with
  | presign =>
      have hanswer : w.backend.handle sha (.presign item.userId ctx u.input) = _ :=
        presign_ok hready.order hi hiu hauth hvalid
      refine ⟨w.backend, .put u.inspection, ?_, ⟨h.inspection, h.file, by simp, ?_⟩, rfl⟩
      · simp only [Client.exchange, hanswer, serve_of_ok _ hanswer, Except.map, Upload.receive,
          hstage, Stage.answered]
        rfl
      · rintro s (hs | hs)
        · exact (Stage.put.inj hs).symm.trans h.inspection
        · cases hs
  | put source =>
      have hsource : source = id := h.source source (.inl hstage)
      refine ⟨w.backend, .attach source, ?_, ⟨h.inspection, h.file, by simp, ?_⟩, rfl⟩
      · simp [Upload.sendFile, hput, hput']
      · rintro s (hs | hs)
        · cases hs
        · exact (Stage.attach.inj hs).symm.trans hsource
  | attach source =>
      have hsource : source = id := h.source source (.inr hstage)
      have hin : some source = some u.input.inspectionId :=
        congrArg some (hsource.trans h.inspection.symm)
      obtain ⟨b', row, rev, hanswer⟩ : ∃ b' row rev, w.backend.handle sha (.attach item.userId ctx
          u.input ⟨some source, storage.destination, storage.failure⟩) =
            .ok (b', .attached row rev) :=
        attach_ok hready.order hi hiu hauth hvalid hin hfailure hfresh hkey
      refine ⟨b', .finished, ?_, ⟨h.inspection, h.file, by simp, by simp⟩, rfl⟩
      simp only [Client.exchange, hanswer, serve_of_ok _ hanswer, Except.map, Upload.receive,
        hstage, Stage.answered]
  | finished => exact absurd hstage hlive
  | failed => exact absurd hstage h.unfailed

theorem Ready.run (h : Ready item b.tenant id version) (rs : List BackendRequest) :
    Ready item (run (Backend.handle sha) b rs).tenant id version := by
  refine run_invariant (P := fun b : Backend => Ready item b.tenant id version) ?_ rs h
  rintro s r s' a ⟨horder, i, hi, hid, hdone⟩ hr
  obtain ⟨i', hi', hfollows⟩ := (Backend.handle_inspections horder hr).row horder hi
  refine ⟨Backend.inspectionsInOrder horder hr, i', hi', hfollows.id.trans hid, ?_⟩
  intro hcompleted
  obtain ⟨hstatus, hversion⟩ := hdone hcompleted
  rw [hfollows.closed hstatus]
  exact ⟨hstatus, hversion⟩

/-- The inspection of the flush is finalized: finalizing it is answered from the table. -/
theorem Ready.finalize (h : Ready item b.tenant id version)
    (hcompleted : item.data.completed = true)
    (hauth : (b.tenant.authorize ctx item.userId .inspectionsManage).isOk = true) :
    ∃ b' a shown, b.handle sha (.tenant (.operations item.userId ctx
        (.finalizeInspection id (.num version)))) = .ok (b', a) ∧
      shownInspection a = some shown := by
  obtain ⟨i, hi, rfl, hdone⟩ := h.row
  obtain ⟨hstatus, hversion⟩ := hdone hcompleted
  have hbilled := h.order.completed i hi hstatus
  obtain ⟨⟨shown, hshown⟩, _⟩ := h.order.shown i hi
  cases hinvoice : invoiceOfInspection b.tenant.invoices i.id with
  | none => exact absurd hbilled (invoiceOfInspection_eq_none.mp hinvoice)
  | some v =>
      have hcall := h.order.billedCalls _ (invoiceOfInspection_eq_some hinvoice)
      obtain ⟨call, hcall, hcallkey⟩ := Table.mem_keys.mp hcall
      have hget : Table.get v.vesselCallId b.tenant.calls = some call := by
        rw [← show key call = v.vesselCallId from hcallkey]
        exact Table.get_of_mem h.order.calls.keys hcall
      have hfinal : finalizeView b.tenant ctx i.id (.num version) = .ok (b.tenant,
          .finalized shown (b.tenant.invoiceData v) call b.tenant.revision) := by
        simp only [finalizeView, bind_eq_ok, Operations.checkRawVersion_eq_ok,
          Prod.exists]
        refine ⟨i, getInspection_of_mem h.order hi, (), .inr (by simp [hversion]), b.tenant, i, v, ?_, ?_⟩
        · simp [finalizeInspection, hinvoice, pure, Except.pure]
        · simp only [finalizedResponse, bind_eq_ok, orRaise_eq_ok, pure_eq_ok]
          exact ⟨shown, hshown, call, hget, rfl⟩
      refine ⟨b, _, (shown.id, shown.version), Backend.handle_operations.mpr
        ⟨hauth, b.tenant, _, hfinal, rfl, rfl⟩, rfl⟩

/-! ## Progress -/

/-- The exchanges a flush of the capture makes after its first one. -/
def QueuedInspection.work (item : QueuedInspection) : ℕ :=
  3 * item.evidenceFiles.length + item.data.completed.toNat

/-- The exchanges an attempt has before it. -/
def Attempt.remaining (item : QueuedInspection) (a : Attempt) : ℕ :=
  (a.uploads.map fun u => u.stage.remaining).sum +
    match a.phase with
    | .uploading .. | .finalizing .. => item.data.completed.toNat
    | .sending | .settled _ => 0

/-- The event is an exchange of the attempt `n`. -/
def own (n : ℕ) : WorldEvent → Bool
  | .send j .. | .upload j .. => j = n
  | .attempt | .other _ => false

/-- The event moves the attempt `n` on. -/
def advances (sha : Sha256) (item : QueuedInspection) (n : ℕ) (w : World) (e : WorldEvent) : Bool :=
  own n e && (w.next sha item e).isSome

/-- The attempt is on its way: its uploads are, and it waits for them, or they are done. -/
structure Proceeds (item : QueuedInspection) (id : Id) (version : ℕ) (a : Attempt) : Prop where
  uploads : ∀ u ∈ a.uploads, UnderWay item id u
  phase : (a.phase = .uploading id version ∧ ∃ u ∈ a.uploads, u.stage ≠ .finished) ∨
    (∀ u ∈ a.uploads, u.stage = .finished) ∧
      (a.phase = .settled .confirmed ∨
        a.phase = .finalizing id version ∧ item.data.completed = true)

theorem sum_finished {uploads : List Upload} (h : ∀ u ∈ uploads, u.stage = .finished) :
    (uploads.map fun u => u.stage.remaining).sum = 0 := by
  refine List.sum_eq_zero fun x hx => ?_
  obtain ⟨u, hu, rfl⟩ := List.mem_map.mp hx
  rw [h u hu]
  rfl

/-- An attempt with nothing before it is confirmed. -/
theorem Proceeds.confirmed {a : Attempt} (h : Proceeds item id version a)
    (hdone : a.remaining item = 0) : a.phase = .settled .confirmed := by
  obtain ⟨hphase, u, hu, hlive⟩ | ⟨_, hphase | ⟨hphase, hcompleted⟩⟩ := h.phase
  · have hsum : u.stage.remaining ≤ (a.uploads.map fun u => u.stage.remaining).sum :=
      List.single_le_sum (by simp) _ (List.mem_map.mpr ⟨u, hu, rfl⟩)
    have hpositive : 0 < u.stage.remaining := by
      have hunfailed := (h.uploads u hu).unfailed
      cases hstage : u.stage <;> simp_all [Stage.remaining]
    unfold Attempt.remaining at hdone
    omega
  · exact hphase
  · simp [Attempt.remaining, hphase, hcompleted] at hdone

/-- What follows the uploads, once they are done. -/
theorem afterUploads_proceeds {uploads : List Upload} (hunder : ∀ u ∈ uploads, UnderWay item id u)
    (hfinished : ∀ u ∈ uploads, u.stage = .finished) :
    Proceeds item id version ⟨item.afterUploads id version, uploads⟩ ∧
      Attempt.remaining item ⟨item.afterUploads id version, uploads⟩ =
        item.data.completed.toNat := by
  unfold QueuedInspection.afterUploads Attempt.remaining
  rw [sum_finished hfinished]
  cases hcompleted : item.data.completed with
  | true => exact ⟨⟨hunder, .inr ⟨hfinished, .inr ⟨rfl, hcompleted⟩⟩⟩, rfl⟩
  | false => exact ⟨⟨hunder, .inr ⟨hfinished, .inl rfl⟩⟩, rfl⟩

theorem sum_map_set {α : Type} {f : α → ℕ} {x y : α} :
    ∀ {xs : List α} {k : ℕ}, xs[k]? = some x →
      ((xs.set k y).map f).sum + f x = (xs.map f).sum + f y := by
  intro xs
  induction xs with
  | nil => intro k h; cases h
  | cons z xs ih =>
      intro k h
      cases k with
      | zero =>
          obtain rfl : z = x := Option.some.inj h
          simp only [List.set_cons_zero, List.map_cons, List.sum_cons]
          omega
      | succ k =>
          have hrest := ih (k := k) h
          simp only [List.set_cons_succ, List.map_cons, List.sum_cons]
          omega

/-- An upload of the attempt moves on. -/
theorem Proceeds.withUpload {a : Attempt} {k : ℕ} {stage : Stage} (h : Proceeds item id version a)
    (hu : a.uploads[k]? = some u) (hlive : u.stage ≠ .finished)
    (hmoved : UnderWay item id { u with stage := stage })
    (hstage : stage.remaining + 1 = u.stage.remaining) :
    Proceeds item id version (a.withUpload item k ({ u with stage := stage }, none)) ∧
      (a.withUpload item k ({ u with stage := stage }, none)).remaining item + 1 =
        a.remaining item := by
  have hmem : u ∈ a.uploads := List.mem_of_getElem? hu
  have hunder : ∀ v ∈ a.uploads.set k { u with stage := stage }, UnderWay item id v := by
    intro v hv
    rcases List.mem_or_eq_of_mem_set hv with hv | rfl
    · exact h.uploads v hv
    · exact hmoved
  have hsum : ((a.uploads.set k { u with stage := stage }).map fun u => u.stage.remaining).sum + 1 =
      (a.uploads.map fun u => u.stage.remaining).sum := by
    have hset := sum_map_set (f := fun u => u.stage.remaining) (y := { u with stage := stage }) hu
    dsimp only at hset
    omega
  obtain ⟨hphase, _⟩ | ⟨hfinished, _⟩ := h.phase
  · simp only [Attempt.withUpload, hphase]
    split
    · rename_i hall
      have hfinished : ∀ v ∈ a.uploads.set k { u with stage := stage }, v.stage = .finished := by
        simpa using hall
      obtain ⟨hnext, hremaining⟩ := afterUploads_proceeds hunder hfinished
      refine ⟨hnext, ?_⟩
      rw [sum_finished hfinished] at hsum
      rw [hremaining, Attempt.remaining, hphase]
      dsimp only
      omega
    · rename_i hall
      simp only [List.all_eq_true, decide_eq_true_eq, not_forall] at hall
      obtain ⟨v, hv, hunfinished⟩ := hall
      refine ⟨⟨hunder, .inl ⟨rfl, v, hv, hunfinished⟩⟩, ?_⟩
      simp only [Attempt.remaining, hphase]
      omega
  · exact absurd (hfinished u hmem) hlive

/-! ## Runs of a flush -/

/-- The attempt `n` is on its way, with so many exchanges made. -/
def OnItsWay (item : QueuedInspection) (n : ℕ) (id : Id) (version made : ℕ) (w : World) : Prop :=
  Ready item w.backend.tenant id version ∧ ∃ a, w.attempts[n]? = some a ∧
    Proceeds item id version a ∧ a.remaining item + made = item.work

/-- Only its own events touch an attempt. -/
theorem World.serve_attempts {e : WorldEvent} {a : Attempt} (ha : w.attempts[n]? = some a)
    (he : own n e = false) :
    (serve (World.handle sha item) w e).attempts[n]? = some a := by
  rw [World.serve_eq]
  cases hnext : w.next sha item e with
  | none => exact ha
  | some w' =>
      cases e with
      | attempt =>
          cases hnext
          have hn := (List.getElem?_eq_some_iff.mp ha).1
          rw [Option.getD_some, List.getElem?_append_left hn]
          exact ha
      | other r =>
          cases hnext
          exact ha
      | send j delivery ctx =>
          obtain ⟨_, _, _, _, rfl⟩ := World.next_send.mp hnext
          rw [Option.getD_some, List.getElem?_set_ne (of_decide_eq_false he)]
          exact ha
      | upload j k delivery ctx storage =>
          obtain ⟨_, _, _, _, _, _, _, rfl⟩ := World.next_upload.mp hnext
          rw [Option.getD_some, List.getElem?_set_ne (of_decide_eq_false he)]
          exact ha

/-- An answered request of an attempt. -/
theorem World.next_answered {a : Attempt} {r : BackendRequest} {reply : Result BackendResponse}
    (ha : w.attempts[n]? = some a) (hrequest : a.request item ctx = some r)
    (hreply : (w.backend.handle sha r).map Prod.snd = reply) :
    w.next sha item (.send n .answered ctx) =
      some { backend := serve (Backend.handle sha) w.backend r
             attempts := w.attempts.set n (a.receive item (some reply)) } := by
  refine World.next_send.mpr ⟨a, r, ha, hrequest, ?_⟩
  rw [exchange, hreply]

/-- An event that leads nowhere leaves the flush where it is. -/
theorem OnItsWay.refused {made : ℕ} {e : WorldEvent} (h : OnItsWay item n id version made w)
    (hnext : w.next sha item e = none) :
    OnItsWay item n id version (made + (advances sha item n w e).toNat)
      (serve (World.handle sha item) w e) := by
  unfold advances
  rw [World.serve_eq, hnext]
  simpa using h

/-- An exchange of the flush that brings its attempt forward. -/
theorem OnItsWay.moved {made : ℕ} {e : WorldEvent} {a a' : Attempt}
    (h : OnItsWay item n id version made w) (ha : w.attempts[n]? = some a) (hown : own n e = true)
    (hnext : w.next sha item e = some w') (ha' : w'.attempts[n]? = some a')
    (hproceeds : Proceeds item id version a')
    (hremaining : a'.remaining item + 1 = a.remaining item) :
    OnItsWay item n id version (made + (advances sha item n w e).toNat)
      (serve (World.handle sha item) w e) := by
  have hready : Ready item (serve (World.handle sha item) w e).backend.tenant id version := by
    rw [World.serve_backend]
    exact h.1.run _
  obtain ⟨_, hold, _, hmade⟩ := h.2
  obtain rfl := Option.some.inj (ha.symm.trans hold)
  refine ⟨hready, a', ?_, hproceeds, ?_⟩
  · rw [World.serve_eq, hnext]
    exact ha'
  · have hone : (advances sha item n w e).toNat = 1 := by simp [advances, hown, hnext]
    omega

/-- The next request of the flush: only a finalization can be one. -/
theorem OnItsWay.send {made : ℕ} (h : OnItsWay item n id version made w)
    (hauth : (w.backend.tenant.authorize ctx item.userId .inspectionsManage).isOk = true) :
    OnItsWay item n id version (made + (advances sha item n w (.send n .answered ctx)).toNat)
      (serve (World.handle sha item) w (.send n .answered ctx)) := by
  obtain ⟨a, ha, hproceeds, _⟩ := h.2
  have hsilent : a.request item ctx = none → w.next sha item (.send n .answered ctx) = none := by
    intro hnone
    simp [World.next, ha, hnone]
  obtain ⟨hphase, _⟩ | ⟨hfinished, hphase | ⟨hphase, hcompleted⟩⟩ := hproceeds.phase
  · exact h.refused (hsilent (by rw [Attempt.request, hphase]))
  · exact h.refused (hsilent (by rw [Attempt.request, hphase]))
  · obtain ⟨b', response, shown, hanswer, hshown⟩ : ∃ b' a shown, w.backend.handle sha _ =
        .ok (b', a) ∧ shownInspection a = some shown := h.1.finalize hcompleted hauth
    have hrequest : a.request item ctx = some (.tenant (.operations item.userId ctx
        (.finalizeInspection id (.num version)))) := by
      rw [Attempt.request, hphase]
    have hreply : (w.backend.handle sha (.tenant (.operations item.userId ctx
        (.finalizeInspection id (.num version))))).map Prod.snd = .ok response := by
      rw [hanswer]
      rfl
    have hnext := World.next_answered ha hrequest hreply
    have hn := (List.getElem?_eq_some_iff.mp ha).1
    have hreceive : a.receive item (some (.ok response)) =
        { a with phase := .settled .confirmed } := by
      simp [Attempt.receive, hphase, hshown]
    refine h.moved ha (by simp [own]) hnext ?_
      (⟨hproceeds.uploads, .inr ⟨hfinished, .inl rfl⟩⟩ : Proceeds item id version
        { a with phase := .settled .confirmed }) ?_
    · rw [← hreceive]
      simp [hn]
    · simp [Attempt.remaining, hphase, hcompleted]

/-- The next exchange of an upload of the flush. -/
theorem OnItsWay.upload {made k : ℕ} {storage : Storage}
    (hfiles : ∀ f ∈ item.evidenceFiles, ∀ id, (f.input id).isValid = true)
    (h : OnItsWay item n id version made w)
    (hworks : Works item n w (.upload n k .answered ctx storage)) :
    OnItsWay item n id version
      (made + (advances sha item n w (.upload n k .answered ctx storage)).toNat)
      (serve (World.handle sha item) w (.upload n k .answered ctx storage)) := by
  obtain ⟨a, ha, hproceeds, _⟩ := h.2
  have hn := (List.getElem?_eq_some_iff.mp ha).1
  cases hu : a.uploads[k]? with
  | none => exact h.refused (by simp [World.next, ha, hu])
  | some u =>
      by_cases hstage : u.stage = .finished
      · have hover : u.exchange sha w.backend item.userId .answered ctx storage = none := by
          simp [Upload.exchange, Upload.request, hstage]
        exact h.refused (by simp [World.next, ha, hu, hover])
      · have hunder := hproceeds.uploads u (List.mem_of_getElem? hu)
        obtain ⟨b', stage, hexchange, hmoved, hremaining⟩ : ∃ b' stage, u.exchange sha w.backend
            item.userId .answered ctx storage = some (b', { u with stage := stage }, none) ∧
            UnderWay item id { u with stage := stage } ∧
              stage.remaining + 1 = u.stage.remaining :=
          hunder.exchange h.1 hfiles hstage hworks
        have hnext := World.next_upload.mpr ⟨a, u, b', _, ha, hu, hexchange, rfl⟩
        obtain ⟨hproceeds', hremaining'⟩ := hproceeds.withUpload hu hstage hmoved hremaining
        exact h.moved ha (by simp [own]) hnext (by simp [hn]) hproceeds' hremaining'

/-- **One event while a flush works.** -/
theorem OnItsWay.step {made : ℕ} {e : WorldEvent}
    (hfiles : ∀ f ∈ item.evidenceFiles, ∀ id, (f.input id).isValid = true)
    (h : OnItsWay item n id version made w) (hworks : Works item n w e) :
    OnItsWay item n id version (made + (advances sha item n w e).toNat)
      (serve (World.handle sha item) w e) := by
  by_cases hown : own n e = true
  · cases e with
    | attempt => cases hown
    | other r => cases hown
    | send j delivery ctx =>
        obtain rfl : j = n := of_decide_eq_true hown
        obtain ⟨rfl, hauth⟩ := hworks rfl
        exact h.send hauth
    | upload j k delivery ctx storage =>
        obtain rfl : j = n := of_decide_eq_true hown
        obtain ⟨rfl, _⟩ := hworks rfl
        exact h.upload hfiles hworks
  · rw [Bool.not_eq_true] at hown
    obtain ⟨hready, a, ha, hrest⟩ := h
    refine ⟨?_, a, World.serve_attempts ha hown, ?_⟩
    · rw [World.serve_backend]
      exact hready.run _
    · simpa [advances, hown] using hrest

/-- The tab learns the outcome and commits the two transactions that follow. -/
def Browser.settle (br : Browser) (tab : ℕ) (outcome : Outcome) (now : Instant) : Browser :=
  run Browser.handle br [.move tab (.uploaded outcome), .move tab (.transaction none now),
    .move tab (.transaction none now)]

/-- The world once a flush has taken up the capture. -/
def World.taken (w : World) : World := { w with attempts := w.attempts ++ [⟨.sending, []⟩] }

namespace Sample

/-- The creation is answered and its finalization applied, but the answer to that is lost. -/
def unconfirmed : List WorldEvent := submitted ++ [
  .send 0 .answered (VesselCaller.Sample.ctx 2), .send 0 .responseLost (VesselCaller.Sample.ctx 3)]

/-- The world a run of the capture leads to. -/
def after (item : QueuedInspection) (es : List WorldEvent) : World :=
  run (World.handle VesselCaller.Sample.sha item) ⟨backend, []⟩ es

/-- A tab that sends the item. -/
def sending (item : QueuedInspection) : Browser where
  store := [item]
  tabs := [⟨1, 1, .uploading false item []⟩]

end Sample

end VesselCaller.Client
