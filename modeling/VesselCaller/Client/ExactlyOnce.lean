import VesselCaller.Client.Capture
import VesselCaller.Operations.Inspections

/-!
# A capture is created once

Whatever is lost, repeated or interleaved, the backend sees a list of requests: those
that were delivered (`delivered`), in the order they were served.  So what holds after
every list of requests holds in every state of the world.  The key of a capture then
names at most one inspection; the first creation under it consumes a number and every
other one is answered from the table, and in the same way one finalization bills it.

## Main definitions

* `delivered` — the requests that reached the backend;
* `consumes` — a request that takes an inspection or invoice number for the capture;
* `Recorded`, `Charged` — the capture is stored, and billed.
-/

namespace VesselCaller.Client

open Lib Accounts Billing Measurements Operations

variable {sha : Sha256} {b b' : Backend} {r : BackendRequest} {response : BackendResponse}
  {item : QueuedInspection} {w : World} {key : String} {kind : SequenceKind}

/-! ## Delivered requests -/

/-- The request an event delivers to the backend. -/
def World.delivers (item : QueuedInspection) (w : World) : WorldEvent → Option BackendRequest
  | .attempt => none
  | .other r => some r
  | .send i delivery ctx =>
      if delivery = .requestLost then none
      else w.attempts[i]?.bind fun a => a.request item ctx
  | .upload i k delivery ctx storage =>
      if delivery = .requestLost then none
      else (w.attempts[i]?.bind fun a => a.uploads[k]?).bind fun u =>
        u.request item.userId ctx storage

/-- The requests a run delivers. -/
def delivered (sha : Sha256) (item : QueuedInspection) :
    World → List WorldEvent → List BackendRequest :=
  collectAlong (World.handle sha item) fun w e => (w.delivers item e).toList

theorem exchange_backend (b : Backend) (r : BackendRequest) (delivery : Delivery) :
    (exchange sha b r delivery).1 = run (Backend.handle sha) b
      (if delivery = .requestLost then none else some r).toList := by
  cases delivery <;> rfl

theorem Upload.exchange_backend {u : Upload} {actor : Id} {delivery : Delivery} {ctx : Ctx}
    {storage : Storage} {moved : Upload × Option Outcome}
    (h : u.exchange sha b actor delivery ctx storage = some (b', moved)) :
    b' = run (Backend.handle sha) b
      (if delivery = .requestLost then none else u.request actor ctx storage).toList := by
  unfold Upload.exchange at h
  split at h
  · rename_i source hstage
    cases h
    simp [Upload.request, hstage]
  · split at h
    · cases h
    · rename_i r hr
      obtain ⟨rfl, _⟩ := Prod.mk.inj (Option.some.inj h)
      rw [hr]
      exact Client.exchange_backend b r delivery

/-- The backend of a world moves by the delivered request. -/
theorem World.serve_backend (w : World) (e : WorldEvent) :
    (serve (World.handle sha item) w e).backend =
      run (Backend.handle sha) w.backend (w.delivers item e).toList := by
  rw [World.serve_eq]
  cases e with
  | attempt => rfl
  | other r => rfl
  | send i delivery ctx =>
      simp only [World.next, World.delivers, Option.bind_eq_bind]
      cases w.attempts[i]? with
      | none => simp
      | some a =>
          cases hr : a.request item ctx with
          | none => simp [hr]
          | some r =>
              simp only [hr, Option.bind_some, Option.pure_def, Option.getD_some]
              exact exchange_backend w.backend r delivery
  | upload i k delivery ctx storage =>
      simp only [World.next, World.delivers, Option.bind_eq_bind]
      cases w.attempts[i]? with
      | none => simp
      | some a =>
          cases hu : a.uploads[k]? with
          | none => simp [hu]
          | some u =>
              simp only [hu, Option.bind_some]
              cases hx : u.exchange sha w.backend item.userId delivery ctx storage with
              | none =>
                  -- Without a request nothing is delivered.
                  have hr : u.request item.userId ctx storage = none := by
                    unfold Upload.exchange at hx
                    split at hx
                    · cases hx
                    · split at hx
                      · assumption
                      · cases hx
                  simp [hr]
              | some m =>
                  simp only [Option.bind_some, Option.pure_def, Option.getD_some]
                  exact Upload.exchange_backend hx

/-- **A run of the world is a run of the backend** over the delivered requests. -/
theorem run_backend (es : List WorldEvent) : ∀ w : World,
    (run (World.handle sha item) w es).backend =
      run (Backend.handle sha) w.backend (delivered sha item w es) := by
  induction es with
  | nil => intro w; rfl
  | cons e es ih =>
      intro w
      rw [run_cons, ih, World.serve_backend, ← run_append]
      rfl

/-! ## Numbers -/

/-- The key a creation request is stored under. -/
def storedKey (header : String) : String := String.ofList (header.toList.take 128)

/-- The sequences of one kind of document. -/
def numbers (kind : SequenceKind) (t : Tenant) : List NumberSequence :=
  t.sequences.filter fun s => s.kind = kind

/-- The request is made for the capture: it creates under its key, or finalizes the
inspection stored under it. -/
def forCapture (key : String) (t : Tenant) : BackendRequest → Bool
  | .tenant (.operations _ _ (.createInspection _ header)) => storedKey header = key
  | .tenant (.operations _ _ (.finalizeInspection id _)) =>
      (Table.get id t.inspections).any fun i => i.idempotencyKey = key
  | _ => false

/-- The request is made for the capture and consumes a number of the kind. -/
def consumes (sha : Sha256) (kind : SequenceKind) (key : String) (b : Backend)
    (r : BackendRequest) : Bool :=
  forCapture key b.tenant r &&
    decide (numbers kind (serve (Backend.handle sha) b r).tenant ≠ numbers kind b.tenant)

theorem consumes_of_error {e : ApiError} (hr : b.handle sha r = .error e) :
    consumes sha kind key b r = false := by
  rw [consumes, serve_of_error _ hr]
  simp

theorem numbers_nextNumber {kind' : SequenceKind} (hne : kind' ≠ kind) (ctx : Ctx)
    (sequences : List NumberSequence) (stem : String) :
    (nextNumber ctx sequences kind stem).2.filter (fun s => s.kind = kind') =
      sequences.filter fun s => s.kind = kind' := by
  unfold nextNumber
  rw [List.filter_cons_of_neg (by simpa using hne.symm), List.filter_filter]
  refine List.filter_congr fun s _ => ?_
  by_cases hs : s.kind = kind'
  · simp [hs, hne]
  · simp [hs]

variable {t t' : Tenant} {ctx : Ctx} {data : InspectionInput} {header : String}

/-- Billing consumes no inspection number. -/
theorem finalizeInspection_numbers {i i' : Inspection} {v : Invoice}
    (h : finalizeInspection t ctx i = .ok (t', i', v)) :
    numbers .inspection t' = numbers .inspection t := by
  unfold finalizeInspection at h
  split at h
  · simp only [pure_eq_ok, Prod.mk.injEq] at h
    rw [h.1]
  · simp only [billInspection, bind_eq_ok, pure_eq_ok, Prod.exists, Prod.mk.injEq] at h
    obtain ⟨_, _, _, _, _, _, _, _, _, _, _, rfl, _⟩ := h
    exact numbers_nextNumber (by decide) ctx t.sequences "INV"

/-- A creation consumes an invoice number only when it bills the inspection. -/
theorem createInspection_numbers {answer : Operations.Response}
    (h : createInspection t ctx data header = .ok (t', answer))
    (hchanged : numbers .invoice t' ≠ numbers .invoice t) :
    ∃ i ∈ t'.inspections, i.idempotencyKey = storedKey header ∧ IsBilled t' i.id := by
  have hdrafted : ∀ {t₁ : Tenant},
      t₁.sequences = (nextNumber ctx t.sequences .inspection "INS").2 →
      numbers .invoice t₁ = numbers .invoice t := by
    intro t₁ hsequences
    rw [numbers, hsequences]
    exact numbers_nextNumber (by decide) ctx t.sequences "INS"
  simp only [createInspection, bind_eq_ok] at h
  obtain ⟨_, _, callId, _, call, _, _, _, h⟩ := h
  split at h
  · simp only [bind_eq_ok, pure_eq_ok, Prod.mk.injEq] at h
    obtain ⟨_, _, rfl, _⟩ := h
    exact absurd rfl hchanged
  · simp only [insertInspection, bind_eq_ok] at h
    obtain ⟨_, _, _, _, _, _, h⟩ := h
    split at h
    · simp only [bind_eq_ok, Prod.exists] at h
      obtain ⟨t₁, i', v, hfinal, hresponse⟩ := h
      obtain ⟨rfl, _⟩ := finalizedResponse_eq_ok hresponse
      obtain ⟨_, rfl, rfl⟩ | ⟨rfl, billedCall, rate, hbilled⟩ := finalizeInspection_cases hfinal
      · exact absurd (hdrafted rfl) hchanged
      · obtain ⟨hmem, hisBilled⟩ := hbilled.row List.mem_cons_self
        exact ⟨_, hmem, rfl, hisBilled⟩
    · simp only [pure_eq_ok, Prod.mk.injEq] at h
      obtain ⟨rfl, _⟩ := h
      exact absurd (hdrafted rfl) hchanged

/-! ## One inspection, one invoice -/

/-- The inspections stored under the key. -/
def inspectionsOf (key : String) (t : Tenant) : List Inspection :=
  t.inspections.filter fun i => i.idempotencyKey = key

/-- The invoices that bill an inspection stored under the key. -/
def invoicesOf (key : String) (t : Tenant) : List Invoice :=
  t.invoices.filter fun v => v.inspectionId.any fun id =>
    (Table.get id t.inspections).any fun i => i.idempotencyKey = key

/-- An inspection is stored under the key. -/
def Recorded (key : String) (t : Tenant) : Prop := ∃ i ∈ t.inspections, i.idempotencyKey = key

/-- The inspection stored under the key is billed. -/
def Charged (key : String) (t : Tenant) : Prop :=
  ∃ i ∈ t.inspections, i.idempotencyKey = key ∧ IsBilled t i.id

theorem Backend.handle_inspections (h : InspectionsInOrder b.tenant)
    (hr : b.handle sha r = .ok (b', response)) : InspectionStep b.tenant b'.tenant := by
  cases Backend.handle_step hr with
  | tenant r answer handled _ => exact Operations.handle_inspections h.calls.ledgers handled
  | presigned _ _ _ same => exact .quiet (same ▸ rfl) (same ▸ rfl)
  | attached _ _ _ _ tenant _ => exact .quiet (tenant ▸ rfl) (tenant ▸ rfl)

theorem Backend.inspectionsInOrder (h : InspectionsInOrder b.tenant)
    (hr : b.handle sha r = .ok (b', response)) : InspectionsInOrder b'.tenant := by
  cases Backend.handle_step hr with
  | tenant r answer handled _ => exact h.step handled
  | presigned _ _ _ same => rwa [same]
  | attached _ _ _ _ tenant _ =>
      rw [tenant]
      exact h.bumpRevision

theorem Recorded.step (hstep : InspectionStep t t') (ht : InspectionsInOrder t)
    (h : Recorded key t) : Recorded key t' := by
  obtain ⟨i, hi, hkey⟩ := h
  obtain ⟨i', hi', hfollows⟩ := hstep.row ht hi
  exact ⟨i', hi', hfollows.key.trans hkey⟩

theorem Charged.step (hstep : InspectionStep t t') (ht : InspectionsInOrder t)
    (h : Charged key t) : Charged key t' := by
  obtain ⟨i, hi, hkey, hbilled⟩ := h
  obtain ⟨i', hi', hfollows⟩ := hstep.row ht hi
  refine ⟨i', hi', hfollows.key.trans hkey, ?_⟩
  rw [hfollows.id]
  exact hstep.isBilled hbilled

theorem inspectionsOf_length_le_one (ht : InspectionsInOrder t) (hkey : key ≠ "") :
    (inspectionsOf key t).length ≤ 1 := by
  refine length_le_one_of_forall_eq ((List.Nodup.of_map _ ht.keys).filter _) ?_
  intro i hi j hj
  obtain ⟨hi, hikey⟩ := List.mem_filter.mp hi
  obtain ⟨hj, hjkey⟩ := List.mem_filter.mp hj
  rw [decide_eq_true_eq] at hikey hjkey
  exact ht.once j hj i hi (hjkey ▸ hkey) (hikey.trans hjkey.symm)

theorem invoicesOf_length_le_one (ht : InspectionsInOrder t) (hkey : key ≠ "") :
    (invoicesOf key t).length ≤ 1 := by
  have hbills : (t.invoices.filterMap Invoice.inspectionId).Nodup := by
    have h := ht.bills
    rw [bills, List.map_filterMap] at h
    simpa [Function.comp_def] using h
  have hmem : ∀ v ∈ invoicesOf key t, v ∈ t.invoices ∧
      ∃ i ∈ t.inspections, i.idempotencyKey = key ∧ v.inspectionId = some i.id := by
    intro v hv
    simp only [invoicesOf, List.mem_filter, Option.any_eq_true, decide_eq_true_eq] at hv
    obtain ⟨hv, id, hid, i, hget, hikey⟩ := hv
    obtain ⟨hi, rfl⟩ := Table.mem_of_get hget
    exact ⟨hv, i, hi, hikey, hid⟩
  refine length_le_one_of_forall_eq ((List.Nodup.of_map _ ht.calls.ledgers.keys).filter _) ?_
  intro v hv w hw
  obtain ⟨hv, i, hi, hikey, hvid⟩ := hmem v hv
  obtain ⟨hw, j, hj, hjkey, hwid⟩ := hmem w hw
  obtain rfl : i = j := ht.once j hj i hi (hjkey ▸ hkey) (hikey.trans hjkey.symm)
  exact eq_of_nodup_filterMap hbills hv hw hvid hwid

/-- A request that consumes a number for the capture. -/
theorem consumes_cases (hr : b.handle sha r = .ok (b', response))
    (h : consumes sha kind key b r = true) :
    numbers kind b'.tenant ≠ numbers kind b.tenant ∧
      ((∃ ctx data header answer, storedKey header = key ∧
        createInspection b.tenant ctx data header = .ok (b'.tenant, answer)) ∨
      ∃ ctx id version answer i, Table.get id b.tenant.inspections = some i ∧
        i.idempotencyKey = key ∧
        finalizeView b.tenant ctx id version = .ok (b'.tenant, answer)) := by
  simp only [consumes, serve_of_ok _ hr, Bool.and_eq_true, decide_eq_true_eq] at h
  obtain ⟨hfor, hchanged⟩ := h
  refine ⟨hchanged, ?_⟩
  unfold forCapture at hfor
  split at hfor
  · rename_i actor ctx data header
    simp only [Backend.handle, Tenant.handle, Operations.Op.handle, bind_eq_ok, pure_eq_ok,
      Prod.exists, Prod.mk.injEq] at hr
    obtain ⟨_, _, ⟨_, _, _, answer, hop, rfl, _⟩, rfl, _⟩ := hr
    exact .inl ⟨ctx, data, header, answer, by simpa using hfor, hop⟩
  · rename_i actor ctx id version
    simp only [Backend.handle, Tenant.handle, Operations.Op.handle, bind_eq_ok, pure_eq_ok,
      Prod.exists, Prod.mk.injEq] at hr
    obtain ⟨_, _, ⟨_, _, _, answer, hop, rfl, _⟩, rfl, _⟩ := hr
    simp only [Option.any_eq_true, decide_eq_true_eq] at hfor
    obtain ⟨i, hget, hikey⟩ := hfor
    exact .inr ⟨ctx, id, version, answer, i, hget, hikey, hop⟩
  · cases hfor

theorem draft_key {call : VesselCall} {i : Inspection} (h : Drafted ctx t data header call i) :
    i.idempotencyKey = storedKey header := by
  rw [h.draft]
  rfl

/-- A creation that consumes a number found no inspection under its key, and left one. -/
theorem createInspection_records {answer : Operations.Response} (hkey : storedKey header ≠ "")
    (h : createInspection t ctx data header = .ok (t', answer))
    (hchanged : numbers kind t' ≠ numbers kind t) :
    ¬Recorded (storedKey header) t ∧ Recorded (storedKey header) t' := by
  have hnone : ∀ {call i}, Drafted ctx t data header call i → ¬Recorded (storedKey header) t := by
    rintro call i hnew ⟨j, hj, hjkey⟩
    have hikey := draft_key hnew
    exact hnew.newDraft.newKey (hikey ▸ hkey) j hj (hjkey.trans hikey.symm)
  cases createInspection_step h with
  | creationReplayed _ _ _ _ _ _ tenant => exact absurd (tenant ▸ rfl) hchanged
  | drafted _ _ call i hnew sequences _ shown hshown tenant =>
      exact ⟨hnone hnew, i, tenant ▸ List.mem_cons_self, draft_key hnew⟩
  | draftedAndBilled _ _ call i hnew sequences _ billedCall rate v billed =>
      have hmem : i.complete ctx ∈ t'.inspections := by
        rw [(hnew.rows billed).1]
        exact List.mem_cons_self
      have hikey : i.idempotencyKey = storedKey header := draft_key hnew
      exact ⟨hnone hnew, i.complete ctx, hmem, hikey⟩
  | draftedInvoiced _ _ call i hnew sequences v invoiced shown hshown after hafter tenant =>
      exact ⟨hnone hnew, i, tenant ▸ List.mem_cons_self, draft_key hnew⟩

/-- An inspection number is consumed when the inspection is first stored. -/
theorem consumes_inspection (hkey : key ≠ "") (h : consumes sha .inspection key b r = true)
    (hr : b.handle sha r = .ok (b', response)) :
    ¬Recorded key b.tenant ∧ Recorded key b'.tenant := by
  obtain ⟨hchanged, ⟨ctx, data, header, answer, rfl, hcreate⟩ |
    ⟨ctx, id, version, answer, i, _, _, hfinal⟩⟩ := consumes_cases hr h
  · exact createInspection_records hkey hcreate hchanged
  · simp only [finalizeView, bind_eq_ok, Prod.exists] at hfinal
    obtain ⟨_, _, _, _, t₁, i', v, hfinal, hresponse⟩ := hfinal
    obtain ⟨rfl, _⟩ := finalizedResponse_eq_ok hresponse
    exact absurd (finalizeInspection_numbers hfinal) hchanged

/-- An invoice number is consumed when the inspection is first billed. -/
theorem consumes_invoice (hkey : key ≠ "") (hb : InspectionsInOrder b.tenant)
    (h : consumes sha .invoice key b r = true) (hr : b.handle sha r = .ok (b', response)) :
    ¬Charged key b.tenant ∧ Charged key b'.tenant := by
  obtain ⟨hchanged, ⟨ctx, data, header, answer, rfl, hcreate⟩ |
    ⟨ctx, id, version, answer, i, hget, hikey, hfinal⟩⟩ := consumes_cases hr h
  · obtain ⟨hnone, _⟩ := createInspection_records hkey hcreate hchanged
    refine ⟨?_, createInspection_numbers hcreate hchanged⟩
    rintro ⟨j, hj, hjkey, _⟩
    exact hnone ⟨j, hj, hjkey⟩
  · obtain ⟨hi, _⟩ := Table.mem_of_get hget
    cases finalizeView_step hfinal with
    | finalizationReplayed _ _ _ _ _ _ _ _ _ _ tenant => exact absurd (tenant ▸ rfl) hchanged
    | billed _ _ i' call rate v found hbilled =>
        obtain rfl : i = i' := Option.some.inj (hget.symm.trans found)
        obtain ⟨hmem, hisBilled⟩ := hbilled.row hi
        refine ⟨?_, _, hmem, hikey, hisBilled⟩
        rintro ⟨j, hj, hjkey, hjbilled⟩
        obtain rfl : j = i := hb.once i hi j hj (hikey ▸ hkey) (hjkey.trans hikey.symm)
        exact invoiceOfInspection_eq_none.mp hbilled.uninvoiced hjbilled

/-- **A captured inspection is created exactly once.**  The capture is submitted by any
number of attempts, at once or one after the other, from any tab.  Whatever is lost on the
way and whatever others do in between, its key names at most one inspection, that
inspection has at most one invoice, and at most one inspection number and one invoice
number are consumed for it. -/
theorem offline_create_exactly_once (sha : Sha256) {b₀ : Backend} (h₀ : b₀.tenant.Initial)
    {item : QueuedInspection} (hid : item.id ≠ "") (es : List WorldEvent) :
    let b := (run (World.handle sha item) ⟨b₀, []⟩ es).backend
    let requests := delivered sha item ⟨b₀, []⟩ es
    let key := storedKey item.id
    (inspectionsOf key b.tenant).length ≤ 1 ∧ (invoicesOf key b.tenant).length ≤ 1 ∧
      countAlong (Backend.handle sha) (consumes sha .inspection key) b₀ requests ≤ 1 ∧
      countAlong (Backend.handle sha) (consumes sha .invoice key) b₀ requests ≤ 1 := by
  have hkey : storedKey item.id ≠ "" := by
    intro hempty
    refine hid ?_
    simpa [storedKey] using hempty
  have hstart : InspectionsInOrder b₀.tenant := .ofInitial h₀
  intro b requests key
  have hb : InspectionsInOrder b.tenant := by
    show InspectionsInOrder (run (World.handle sha item) ⟨b₀, []⟩ es).backend.tenant
    rw [run_backend]
    exact run_invariant (P := fun b : Backend => InspectionsInOrder b.tenant)
      (fun hs hr => Backend.inspectionsInOrder hs hr) _ hstart
  refine ⟨inspectionsOf_length_le_one hb hkey, invoicesOf_length_le_one hb hkey, ?_, ?_⟩
  · exact countAlong_le_one (I := fun b => InspectionsInOrder b.tenant)
      (P := fun b => Recorded (storedKey item.id) b.tenant)
      (fun hs hr => Backend.inspectionsInOrder hs hr)
      (fun hs hp hr => hp.step (Backend.handle_inspections hs hr) hs)
      (fun hr => consumes_of_error hr) (fun _ hc hr => consumes_inspection hkey hc hr) hstart _
  · exact countAlong_le_one (I := fun b => InspectionsInOrder b.tenant)
      (P := fun b => Charged (storedKey item.id) b.tenant)
      (fun hs hr => Backend.inspectionsInOrder hs hr)
      (fun hs hp hr => hp.step (Backend.handle_inspections hs hr) hs)
      (fun hr => consumes_of_error hr) (fun hs hc hr => consumes_invoice hkey hs hc hr) hstart _

namespace Sample

/-- The world the attempts of `retried` lead to. -/
def delivery : World :=
  run (World.handle VesselCaller.Sample.sha inspected) ⟨backend, []⟩ retried

end Sample

/-- The creation is applied by the first attempt, the finalization by the second, and the
third finds both. -/
theorem offline_create_exactly_once_retried :
    Sample.delivery.attempts.map Attempt.phase =
      [.settled (failed none), .settled (failed none), .settled .confirmed] ∧
    (inspectionsOf (storedKey "capture-2") Sample.delivery.backend.tenant).map Inspection.status =
      [.completed] ∧
    (invoicesOf (storedKey "capture-2") Sample.delivery.backend.tenant).length ≤ 1 := by
  refine ⟨by decide +kernel, by decide +kernel, ?_⟩
  have hid : Sample.inspected.id ≠ "" := by decide
  have h₀ : Sample.backend.tenant.Initial := VesselCaller.Sample.initial
  exact (offline_create_exactly_once VesselCaller.Sample.sha h₀ hid Sample.retried).2.1

end VesselCaller.Client
