import VesselCaller.Operations.Views
import VesselCaller.Billing.Inversion

/-!
# What an accepted call or inspection request did

The inversion of the call and inspection endpoints.  `Step` lists everything an
accepted request can have done to the tenant, `handle_step` says there is no other.
Billing an inspection is one case of its own, with the call, the rate and the step the
invoice was made from.

## Main definitions

* `Step` — what a request of these endpoints did to the tenant;
* `Billed` — an inspection that was billed, with all the finalization wrote;
* `Bill` — the same, seen from the invoice.
-/

namespace VesselCaller.Operations

open Lib Accounts Billing

/-- An inspection without an invoice was billed: it and its call are completed, and
the invoice charges the call's tonnage at the inspection's rate. -/
structure Billed (ctx : Ctx) (t t' : Tenant) (inspection : Inspection) (call : VesselCall)
    (rate : Decimal 4) (i : Invoice) : Prop where
  uninvoiced : invoiceOfInspection t.invoices inspection.id = none
  found : Table.get inspection.vesselCallId t.calls = some call
  rated : rateForInspection inspection t.settings = .ok rate
  fresh : i.id ∉ Table.keys t.invoices
  steps : ensureDefaultSteps ctx t.steps = .ok t'.steps
  step : ∃ s, s ∈ t'.steps ∧ s.open = true ∧
    i = harbourInvoice ctx t.settings (call.complete ctx) (inspection.complete ctx) rate
      (nextNumber ctx t.sequences .invoice "INV").1 s
  tenant : t' = { t with
    inspections := Table.put (inspection.complete ctx) t.inspections
    calls := Table.put (call.complete ctx) t.calls
    steps := t'.steps
    sequences := (nextNumber ctx t.sequences .invoice "INV").2
    invoices := i :: t.invoices }.bumpRevision

variable {ctx : Ctx} {t t' : Tenant}

theorem finalizeInspection_cases {inspection inspection' : Inspection} {i : Invoice}
    (h : finalizeInspection t ctx inspection = .ok (t', inspection', i)) :
    (invoiceOfInspection t.invoices inspection.id = some i ∧ inspection' = inspection ∧ t' = t) ∨
      (inspection' = inspection.complete ctx ∧
        ∃ call rate, Billed ctx t t' inspection call rate i) := by
  unfold finalizeInspection at h
  split at h
  · rename_i existing hexisting
    simp only [pure_eq_ok, Prod.mk.injEq] at h
    obtain ⟨rfl, rfl, rfl⟩ := h
    exact .inl ⟨hexisting, rfl, rfl⟩
  · rename_i hnone
    simp only [billInspection, bind_eq_ok, orRaise_eq_ok, raiseIf_eq_ok, pure_eq_ok, Prod.exists,
      Prod.mk.injEq] at h
    obtain ⟨call, hcall, rate, hrate, s, steps, hstep, _, hfresh, _, _, rfl, rfl, rfl⟩ := h
    obtain ⟨hensure, hs, hopen⟩ := activeDefaultStep_eq_ok hstep
    exact .inr ⟨rfl, call, rate, hnone, hcall, hrate, hfresh, hensure, ⟨s, hs, hopen, rfl⟩,
      rfl⟩

theorem finalizedResponse_eq_ok {inspection : Inspection} {i : Invoice} {response : Response}
    (h : finalizedResponse t inspection i = .ok (t', response)) :
    t' = t ∧ ∃ data call, inspectionData inspection = .ok data ∧
      Table.get i.vesselCallId t.calls = some call ∧
      response = .finalized data (t.invoiceData i) call t.revision := by
  simp only [finalizedResponse, bind_eq_ok, orRaise_eq_ok, pure_eq_ok, Prod.mk.injEq] at h
  obtain ⟨data, hdata, call, hcall, rfl, rfl⟩ := h
  exact ⟨rfl, data, call, hdata, hcall, rfl⟩

/-- The call once an inspection of it exists. -/
def VesselCall.started (c : VesselCall) : VesselCall :=
  { c with status := .inProgress, version := c.version + 1 }

/-- The tenant with a new inspection of the call, which is then in progress. -/
def inspected (t : Tenant) (call : VesselCall) (inspection : Inspection)
    (sequences : List NumberSequence) : Tenant :=
  { t with
    sequences := sequences
    inspections := inspection :: t.inspections
    calls := Table.put call.started t.calls }.bumpRevision

/-- The draft a creation request inserts. -/
structure Drafted (ctx : Ctx) (t : Tenant) (data : InspectionInput) (header : String)
    (call : VesselCall) (inspection : Inspection) : Prop where
  callId : data.callId = some call.id
  found : Table.get call.id t.calls = some call
  live : call.status ≠ .cancelled
  newKey : replayed t (String.ofList (header.toList.take 128)) = none
  fresh : inspection.id ∉ Table.keys t.inspections
  width : inspection.product.length ≤ 100
  shown : ∃ shown, inspectionData inspection = .ok shown
  draft : inspection = draftInspection ctx call data
    (nextNumber ctx t.sequences .inspection "INS").1 (String.ofList (header.toList.take 128))

/-- What an accepted request did. -/
inductive Step (ctx : Ctx) (t t' : Tenant) : Op → Response → Prop where
  | callCreated (data : CallInput) (call : VesselCall)
      (fresh : call.id ∉ Table.keys t.calls) (status : call.status = .pending)
      (tenant : t' = { t with calls := call :: t.calls }.bumpRevision) :
      Step ctx t t' (.createCall data) (.call call t'.revision)
  | callPatched (callId : Id) (data : CallInput) (call call' : VesselCall) (mem : call ∈ t.calls)
      (id : call.id = callId) (live : call.status ≠ .cancelled) (id' : call'.id = call.id)
      (tenant : t' = { t with calls := Table.put call' t.calls }.bumpRevision) :
      Step ctx t t' (.patchCall callId data) (.call call' t'.revision)
  | callCancelled (callId : Id) (reason : String) (version : Option ℕ) (call call' : VesselCall)
      (mem : call ∈ t.calls) (id : call.id = callId) (live : call.status ≠ .cancelled)
      (id' : call'.id = call.id) (status : call'.status = .cancelled)
      (tenant : t' = { t with calls := Table.put call' t.calls }.bumpRevision) :
      Step ctx t t' (.cancelCall callId reason version) (.call call' t'.revision)
  | cancelReplayed (callId : Id) (reason : String) (version : Option ℕ) (call : VesselCall)
      (mem : call ∈ t.calls) (id : call.id = callId) (status : call.status = .cancelled)
      (tenant : t' = t) :
      Step ctx t t' (.cancelCall callId reason version) (.call call t'.revision)
  | creationReplayed (data : InspectionInput) (header : String) (existing : Inspection)
      (found : replayed t (String.ofList (header.toList.take 128)) = some existing)
      (shown : InspectionData)
      (hshown : inspectionData existing = .ok shown) (tenant : t' = t) :
      Step ctx t t' (.createInspection data header) (.replay shown
        ((invoiceOfInspection t.invoices existing.id).map t.invoiceData) t'.revision)
  | drafted (data : InspectionInput) (header : String) (call : VesselCall)
      (inspection : Inspection) (h : Drafted ctx t data header call inspection)
      (sequences : List NumberSequence) (completed : data.completed = false)
      (shown : InspectionData) (hshown : inspectionData inspection = .ok shown)
      (tenant : t' = inspected t call inspection sequences)
      (numbered : sequences = (nextNumber ctx t.sequences .inspection "INS").2) :
      Step ctx t t' (.createInspection data header) (.inspection shown t'.revision)
  | draftedAndBilled (data : InspectionInput) (header : String) (call : VesselCall)
      (inspection : Inspection) (h : Drafted ctx t data header call inspection)
      (sequences : List NumberSequence) (completed : data.completed = true)
      (billedCall : VesselCall) (rate : Decimal 4) (i : Invoice)
      (billed : Billed ctx (inspected t call inspection sequences) t' inspection billedCall rate i)
      (shown : InspectionData) (hshown : inspectionData (inspection.complete ctx) = .ok shown)
      (after : VesselCall) (hafter : Table.get i.vesselCallId t'.calls = some after)
      (numbered : sequences = (nextNumber ctx t.sequences .inspection "INS").2) :
      Step ctx t t' (.createInspection data header)
        (.finalized shown (t'.invoiceData i) after t'.revision)
  /-- The draft's key already has an invoice: no reachable tenant has one. -/
  | draftedInvoiced (data : InspectionInput) (header : String) (call : VesselCall)
      (inspection : Inspection) (h : Drafted ctx t data header call inspection)
      (sequences : List NumberSequence) (i : Invoice)
      (invoiced : invoiceOfInspection t.invoices inspection.id = some i)
      (shown : InspectionData) (hshown : inspectionData inspection = .ok shown)
      (after : VesselCall) (hafter : Table.get i.vesselCallId t'.calls = some after)
      (tenant : t' = inspected t call inspection sequences)
      (numbered : sequences = (nextNumber ctx t.sequences .inspection "INS").2) :
      Step ctx t t' (.createInspection data header)
        (.finalized shown (t'.invoiceData i) after t'.revision)
  | inspectionPatched (inspectionId : Id) (data : InspectionInput)
      (inspection inspection' : Inspection) (mem : inspection ∈ t.inspections)
      (id : inspection.id = inspectionId) (id' : inspection'.id = inspection.id)
      (callId : inspection'.vesselCallId = inspection.vesselCallId)
      (shown : InspectionData) (hshown : inspectionData inspection' = .ok shown)
      (tenant : t' = { t with
        inspections := Table.put inspection' t.inspections }.bumpRevision)
      (reference : inspection'.reference = inspection.reference) :
      Step ctx t t' (.patchInspection inspectionId data) (.inspection shown t'.revision)
  | finalizationReplayed (inspectionId : Id) (version : Json) (inspection : Inspection)
      (i : Invoice) (found : Table.get inspectionId t.inspections = some inspection)
      (invoiced : invoiceOfInspection t.invoices inspection.id = some i)
      (shown : InspectionData) (hshown : inspectionData inspection = .ok shown)
      (after : VesselCall) (hafter : Table.get i.vesselCallId t'.calls = some after)
      (tenant : t' = t) :
      Step ctx t t' (.finalizeInspection inspectionId version)
        (.finalized shown (t'.invoiceData i) after t'.revision)
  | billed (inspectionId : Id) (version : Json) (inspection : Inspection)
      (call : VesselCall) (rate : Decimal 4) (i : Invoice)
      (found : Table.get inspectionId t.inspections = some inspection)
      (h : Billed ctx t t' inspection call rate i)
      (shown : InspectionData) (hshown : inspectionData (inspection.complete ctx) = .ok shown)
      (after : VesselCall) (hafter : Table.get i.vesselCallId t'.calls = some after) :
      Step ctx t t' (.finalizeInspection inspectionId version)
        (.finalized shown (t'.invoiceData i) after t'.revision)

theorem getCall_eq_ok {callId : Id} {call : VesselCall} (h : getCall t callId = .ok call) :
    call ∈ t.calls ∧ call.id = callId := by
  simp only [getCall, orRaise_eq_ok] at h
  exact Table.mem_of_get h

theorem getInspection_eq_ok {inspectionId : Id} {inspection : Inspection}
    (h : getInspection t inspectionId = .ok inspection) :
    inspection ∈ t.inspections ∧ inspection.id = inspectionId := by
  simp only [getInspection, orRaise_eq_ok] at h
  exact Table.mem_of_get h

theorem replayed_eq_some {key : String} {i : Inspection} (h : replayed t key = some i) :
    i ∈ t.inspections ∧ i.idempotencyKey = key := by
  unfold replayed at h
  split at h
  · simp at h
  · exact ⟨List.mem_of_find?_eq_some h, by simpa using List.find?_some h⟩

theorem createInspection_step {data : InspectionInput} {header : String} {response : Response}
    (h : createInspection t ctx data header = .ok (t', response)) :
    Step ctx t t' (.createInspection data header) response := by
  simp only [createInspection, bind_eq_ok, orRaise_eq_ok, raiseIf_eq_ok] at h
  obtain ⟨_, _, callId, hcallId, call, hcall, _, hlive, h⟩ := h
  obtain ⟨_, rfl⟩ := getCall_eq_ok hcall
  have hfound : Table.get call.id t.calls = some call := orRaise_eq_ok.mp hcall
  split at h
  · rename_i existing hexisting
    simp only [bind_eq_ok, pure_eq_ok, Prod.mk.injEq] at h
    obtain ⟨shown, hshown, rfl, rfl⟩ := h
    exact .creationReplayed data header existing hexisting shown hshown rfl
  · rename_i hnone
    simp only [insertInspection, columnWidth, bind_eq_ok, raiseIf_eq_ok, not_lt] at h
    obtain ⟨_, hfresh, _, hwidth, shown, hshown, h⟩ := h
    have hdrafted := (⟨hcallId, hfound, hlive, hnone, hfresh, hwidth, ⟨shown, hshown⟩, rfl⟩ :
      Drafted ctx t data header call _)
    split at h
    · rename_i hcompleted
      simp only [bind_eq_ok, Prod.exists] at h
      obtain ⟨t₁, inspection', i, hfinal, hresponse⟩ := h
      obtain ⟨rfl, data', after, hdata', hafter, rfl⟩ := finalizedResponse_eq_ok hresponse
      obtain ⟨hinvoiced, rfl, rfl⟩ | ⟨rfl, billedCall, rate, hbilled⟩ :=
        finalizeInspection_cases hfinal
      · exact .draftedInvoiced data header call _ hdrafted _ i hinvoiced data' hdata' after hafter
          rfl rfl
      · exact .draftedAndBilled data header call _ hdrafted _ hcompleted billedCall rate i hbilled
          data' hdata' after hafter rfl
    · rename_i hcompleted
      simp only [pure_eq_ok, Prod.mk.injEq] at h
      obtain ⟨rfl, rfl⟩ := h
      exact .drafted data header call _ hdrafted _ (by simpa using hcompleted) shown hshown rfl
        rfl

theorem patchInspection_step {inspectionId : Id} {data : InspectionInput} {response : Response}
    (h : patchInspection t ctx inspectionId data = .ok (t', response)) :
    Step ctx t t' (.patchInspection inspectionId data) response := by
  simp only [patchInspection, bind_eq_ok, pure_eq_ok, Prod.mk.injEq] at h
  obtain ⟨_, _, inspection, hget, _, _, _, _, _, _, _, _, shown, hshown, rfl, rfl⟩ := h
  obtain ⟨mem, hid⟩ := getInspection_eq_ok hget
  exact .inspectionPatched inspectionId data inspection _ mem hid (by rfl) (by rfl) shown hshown rfl
    rfl

theorem finalizeView_step {inspectionId : Id} {version : Json} {response : Response}
    (h : finalizeView t ctx inspectionId version = .ok (t', response)) :
    Step ctx t t' (.finalizeInspection inspectionId version) response := by
  simp only [finalizeView, bind_eq_ok, Prod.exists] at h
  obtain ⟨inspection, hget, _, _, t₁, inspection', i, hfinal, hresponse⟩ := h
  have hfound : Table.get inspectionId t.inspections = some inspection := orRaise_eq_ok.mp hget
  obtain ⟨rfl, data, after, hdata, hafter, rfl⟩ := finalizedResponse_eq_ok hresponse
  obtain ⟨hinvoiced, rfl, rfl⟩ | ⟨rfl, call, rate, hbilled⟩ := finalizeInspection_cases hfinal
  · exact .finalizationReplayed inspectionId version _ i hfound hinvoiced data hdata after hafter rfl
  · exact .billed inspectionId version inspection call rate i hfound hbilled data hdata after hafter

/-- **Every accepted request is one of the steps.** -/
theorem handle_step {op : Op} {response : Response} (h : op.handle t ctx = .ok (t', response)) :
    Step ctx t t' op response := by
  cases op with
  | createCall data =>
      simp only [Op.handle, createCall, callResponse, bind_eq_ok, raiseIf_eq_ok, pure_eq_ok,
        Prod.exists, Prod.mk.injEq] at h
      obtain ⟨_, call, ⟨_, _, _, _, _, _, _, _, _, hfresh, rfl, rfl⟩, rfl, rfl⟩ := h
      exact .callCreated data _ hfresh rfl rfl
  | patchCall callId data =>
      simp only [Op.handle, patchCall, callResponse, bind_eq_ok, raiseIf_eq_ok, pure_eq_ok,
        Prod.exists, Prod.mk.injEq] at h
      obtain ⟨_, _, ⟨_, _, call, hcall, _, hlive, _, _, _, _, rfl, rfl⟩, rfl, rfl⟩ := h
      obtain ⟨mem, hid⟩ := getCall_eq_ok hcall
      exact .callPatched callId data call _ mem hid hlive (by rfl) rfl
  | cancelCall callId reason version =>
      simp only [Op.handle, cancelCall, callResponse, bind_eq_ok, pure_eq_ok, Prod.exists,
        Prod.mk.injEq] at h
      obtain ⟨_, _, ⟨_, _, call, hcall, _, _, _, _, h⟩, rfl, rfl⟩ := h
      obtain ⟨mem, hid⟩ := getCall_eq_ok hcall
      split at h <;> simp only [pure_eq_ok, Prod.mk.injEq] at h <;> obtain ⟨rfl, rfl⟩ := h
      · rename_i hcancelled
        exact .cancelReplayed callId reason version call mem hid hcancelled rfl
      · rename_i hlive
        exact .callCancelled callId reason version call _ mem hid hlive (by rfl) (by rfl) rfl
  | createInspection data header => exact createInspection_step h
  | patchInspection inspectionId data => exact patchInspection_step h
  | finalizeInspection inspectionId version => exact finalizeView_step h

/-! ## What a request bills -/

/-- The call and the inspection a request would bill: those of an inspection that is
created completed, or finalized without having an invoice yet. -/
def Op.bills (t : Tenant) (ctx : Ctx) : Op → Option (VesselCall × Inspection)
  | .createInspection data header =>
      if data.completed && (replayed t (String.ofList (header.toList.take 128))).isNone then
        (data.callId.bind (Table.get · t.calls)).map fun call =>
          (call, draftInspection ctx call data "" "")
      else none
  | .finalizeInspection inspectionId _ =>
      (Table.get inspectionId t.inspections).bind fun inspection =>
        if (invoiceOfInspection t.invoices inspection.id).isNone then
          (Table.get inspection.vesselCallId t.calls).map fun call => (call, inspection)
        else none
  | _ => none

/-- The invoice `i` is what billing the inspection of the call comes to. -/
structure Bill (t : Tenant) (call : VesselCall) (inspection : Inspection) (i : Invoice) :
    Prop where
  dues : ∃ rate, rateForInspection inspection t.settings = .ok rate ∧
    i.dues = money 5 (call.nrt * rate)
  vesselCallId : i.vesselCallId = call.id
  purpose : i.purpose = .harbourDues
  opening : Opening i

theorem Billed.bill {inspection : Inspection} {call : VesselCall} {rate : Decimal 4} {i : Invoice}
    (h : Billed ctx t t' inspection call rate i) : Bill t call inspection i := by
  obtain ⟨s, _, _, rfl⟩ := h.step
  exact ⟨⟨rate, h.rated, rfl⟩, rfl, rfl, _, rfl, rfl, rfl⟩

/-- **Only what a request bills is billed.** -/
theorem Step.bill {op : Op} {response : Response} (h : Step ctx t t' op response) :
    t'.invoices = t.invoices ∧ t'.steps = t.steps ∨
      ∃ call inspection i t₁ inspection₁ call₁ rate, op.bills t ctx = some (call, inspection) ∧
        Bill t call inspection i ∧ Billed ctx t₁ t' inspection₁ call₁ rate i ∧
        t₁.steps = t.steps ∧ t₁.invoices = t.invoices := by
  cases h with
  | draftedAndBilled data header call inspection hdrafted sequences completed call₁ rate i hbilled =>
      refine .inr ⟨call, draftInspection ctx call data "" "", i, _, inspection, call₁, rate, ?_, ?_,
        hbilled, rfl, rfl⟩
      · simp [Op.bills, completed, hdrafted.newKey, hdrafted.callId, hdrafted.found]
      · obtain rfl := hdrafted.draft
        -- The call was put in progress before it was billed; its tonnage is the same.
        have hget : Table.get call.id (Table.put call.started t.calls) = some call.started :=
          Table.get_put_self (a := call.started) hdrafted.found
        have hcall₁ : call₁ = call.started := Option.some.inj (hbilled.found.symm.trans hget)
        obtain ⟨⟨rate', hrate', hdues⟩, hcallId, hpurpose, hopening⟩ := hbilled.bill
        subst hcall₁
        exact ⟨⟨rate', hrate', hdues⟩, hcallId, hpurpose, hopening⟩
  | billed inspectionId version inspection call rate i found hbilled =>
      refine .inr ⟨call, inspection, i, t, inspection, call, rate, ?_, hbilled.bill, hbilled, rfl,
        rfl⟩
      simp [Op.bills, found, hbilled.uninvoiced, hbilled.found]
  | _ => subst_vars; exact .inl ⟨rfl, rfl⟩

end VesselCaller.Operations
