import VesselCaller.Operations.Cancellation

/-!
# The inspection table over a run

What every accepted request does to the inspections and to the invoices that bill them.
An idempotency key names at most one inspection, an inspection has at most one invoice,
and once it is completed its row does not change any more: these are the facts a client
relies on that sends a request again because it never saw the answer.

## Main definitions

* `InspectionStep` — what a request did to the inspections;
* `Follows` — an inspection, later on;
* `InspectionsInOrder` — the invariant of the inspections.
-/

namespace VesselCaller.Operations

open Lib Accounts Billing Measurements

variable {sha : Sha256} {t t' : Tenant} {ctx : Ctx} {r : Request} {a : VesselCaller.Response}
  {i i' : Inspection}

/-! ## Rows -/

/-- The row can be shown and fits its columns. -/
def Shown (i : Inspection) : Prop :=
  (∃ data, inspectionData i = .ok data) ∧ i.product.length ≤ 100

/-- The draft as `InspectionDetailView.patch` writes it. -/
def Inspection.patched (i : Inspection) (data : InspectionInput) (now : Instant) : Inspection :=
  { i with
    cargoType := data.cargoType.getD i.cargoType
    product := data.product.getD i.product
    reconciledTonnage := data.reconciledTonnage.getD i.reconciledTonnage
    jetty := data.jetty.getD i.jetty
    liquid := data.liquid.getD i.liquid
    dry := data.dry.getD i.dry
    version := i.version + 1
    updatedAt := now }

theorem checkVersion_eq_ok {version : ℕ} {provided : Option ℕ} {u : Unit} :
    checkVersion version provided = .ok u ↔ ∀ v ∈ provided, v = version := by
  cases provided with
  | none => simp [checkVersion]
  | some v => simp [checkVersion]

theorem checkRawVersion_eq_ok {version : ℕ} {provided : Json} {u : Unit} :
    checkRawVersion version provided = .ok u ↔
      provided = .null ∨ provided.isNat version = true := by
  cases provided <;> simp [checkRawVersion]

theorem columnWidth_eq_ok {u : Unit} : columnWidth i = .ok u ↔ i.product.length ≤ 100 := by
  simp [columnWidth]

/-- **An update**, exactly. -/
theorem patchInspection_iff {id : Id} {data : InspectionInput} {response : Response} :
    patchInspection t ctx id data = .ok (t', response) ↔ data.isValid = true ∧
      ∃ i, Table.get id t.inspections = some i ∧ i.status = .draft ∧
        (∀ v ∈ data.version, v = i.version) ∧ (∃ before, inspectionData i = .ok before) ∧
        (i.patched data ctx.now).product.length ≤ 100 ∧
        ∃ shown, inspectionData (i.patched data ctx.now) = .ok shown ∧
          t' = { t with
            inspections := Table.put (i.patched data ctx.now) t.inspections }.bumpRevision ∧
          response = .inspection shown t'.revision := by
  simp only [patchInspection, getInspection, requireValid, bind_eq_ok, raiseIf_eq_ok, orRaise_eq_ok,
    pure_eq_ok, checkVersion_eq_ok, columnWidth_eq_ok, Prod.mk.injEq, not_not, ne_eq,
    Bool.not_eq_false]
  constructor
  · rintro ⟨_, hvalid, i, hget, _, hdraft, _, hversion, before, hbefore, _, hwidth, shown, hshown,
      rfl, rfl⟩
    exact ⟨hvalid, i, hget, hdraft, hversion, ⟨before, hbefore⟩, hwidth, shown, hshown, rfl, rfl⟩
  · rintro ⟨hvalid, i, hget, hdraft, hversion, ⟨before, hbefore⟩, hwidth, shown, hshown, rfl, rfl⟩
    exact ⟨(), hvalid, i, hget, (), hdraft, (), hversion, before, hbefore, (), hwidth, shown,
      hshown, rfl, rfl⟩

/-! ## Bills -/

/-- The inspections that are invoiced, each with the call of its invoice. -/
def bills (t : Tenant) : List (Id × Id) :=
  t.invoices.filterMap fun v => v.inspectionId.map fun id => (id, v.vesselCallId)

/-- The inspection has an invoice. -/
def IsBilled (t : Tenant) (id : Id) : Prop := id ∈ (bills t).map Prod.fst

theorem invoiceOfInspection_eq_none {id : Id} :
    invoiceOfInspection t.invoices id = none ↔ ¬IsBilled t id := by
  simp only [invoiceOfInspection, List.find?_eq_none, IsBilled, bills, decide_eq_true_eq,
    List.mem_map, List.mem_filterMap, Option.map_eq_some_iff, not_exists, not_and, Prod.exists,
    Prod.mk.injEq]
  constructor
  · rintro h _ call ⟨v, hv, _, hinspection, rfl, rfl⟩ rfl
    exact h v hv hinspection
  · intro h v hv hinspection
    exact h id v.vesselCallId ⟨v, hv, id, hinspection, rfl, rfl⟩ rfl

theorem invoiceOfInspection_eq_some {id : Id} {v : Invoice}
    (h : invoiceOfInspection t.invoices id = some v) : (id, v.vesselCallId) ∈ bills t := by
  have hmem := List.mem_of_find?_eq_some h
  have hid : v.inspectionId = some id := by simpa using List.find?_some h
  exact List.mem_filterMap.mpr ⟨v, hmem, by rw [hid]; rfl⟩

/-- Writing an invoice with its charge as it was changes no bill. -/
theorem bills_put {v v' : Invoice} (hkeys : (Table.keys t.invoices).Nodup) (hv : v ∈ t.invoices)
    (hcharge : SameCharge v v') :
    (Table.put v' t.invoices).filterMap
      (fun v => v.inspectionId.map fun id => (id, v.vesselCallId)) = bills t := by
  unfold bills Table.put
  rw [List.filterMap_map]
  refine List.filterMap_congr fun w hw => ?_
  rw [Function.comp_apply]
  split
  · rename_i hkey
    obtain rfl : w = v := Table.eq_of_key_eq hkeys hw hv (hkey.trans hcharge.id)
    rw [hcharge.inspectionId, hcharge.vesselCallId]
  · rfl

/-! ## Steps -/

/-- A new draft of an inspection. -/
structure NewDraft (t : Tenant) (i : Inspection) : Prop where
  fresh : i.id ∉ Table.keys t.inspections
  newKey : i.idempotencyKey ≠ "" → ∀ j ∈ t.inspections, j.idempotencyKey ≠ i.idempotencyKey
  draft : i.status = .draft
  call : i.vesselCallId ∈ Table.keys t.calls

/-- What an accepted request did to the inspections and their bills. -/
inductive InspectionStep (t t' : Tenant) : Prop where
  | quiet (inspections : t'.inspections = t.inspections) (same : bills t' = bills t)
  | drafted (i : Inspection) (new : NewDraft t i) (shown : Shown i)
      (inspections : t'.inspections = i :: t.inspections) (same : bills t' = bills t)
  | patched (i i' : Inspection) (mem : i ∈ t.inspections) (draft : i.status = .draft)
      (id : i'.id = i.id) (key : i'.idempotencyKey = i.idempotencyKey)
      (call : i'.vesselCallId = i.vesselCallId) (version : i'.version = i.version + 1)
      (draft' : i'.status = .draft) (shown : Shown i')
      (inspections : t'.inspections = Table.put i' t.inspections) (same : bills t' = bills t)
  | billed (i : Inspection) (ctx : Ctx) (mem : i ∈ t.inspections) (unbilled : ¬IsBilled t i.id)
      (shown : ∃ data, inspectionData (i.complete ctx) = .ok data)
      (inspections : t'.inspections = Table.put (i.complete ctx) t.inspections)
      (more : bills t' = (i.id, i.vesselCallId) :: bills t)
  | draftedAndBilled (i : Inspection) (ctx : Ctx) (new : NewDraft t i) (unbilled : ¬IsBilled t i.id)
      (width : i.product.length ≤ 100) (shown : ∃ data, inspectionData (i.complete ctx) = .ok data)
      (inspections : t'.inspections = i.complete ctx :: t.inspections)
      (more : bills t' = (i.id, i.vesselCallId) :: bills t)

theorem Drafted.newDraft {data : InspectionInput} {header : String} {call : VesselCall}
    (h : Drafted ctx t data header call i) : NewDraft t i := by
  have hi := h.draft
  refine ⟨h.fresh, ?_, by rw [hi]; rfl, ?_⟩
  · intro hkey j hj heq
    have hheader : i.idempotencyKey = String.ofList (header.toList.take 128) := by
      rw [hi]
      rfl
    have hnone := h.newKey
    rw [← hheader, replayed, if_neg hkey] at hnone
    exact List.find?_eq_none.mp hnone j hj (by simpa using heq)
  · rw [hi]
    exact Table.mem_keys.mpr ⟨call, (Table.mem_of_get h.found).1, rfl⟩

/-- Billing an inspection: the rows and the bills it leaves. -/
theorem Billed.rows {call : VesselCall} {rate : Decimal 4} {v : Invoice}
    (h : Billed ctx t t' i call rate v) :
    t'.inspections = Table.put (i.complete ctx) t.inspections ∧
      bills t' = (i.id, i.vesselCallId) :: bills t := by
  obtain ⟨s, _, _, hv⟩ := h.step
  have ht := h.tenant
  have hcall : call.id = i.vesselCallId := (Table.mem_of_get h.found).2
  rw [ht]
  refine ⟨rfl, ?_⟩
  show (v :: t.invoices).filterMap _ = _
  rw [List.filterMap_cons, hv, ← hcall]
  rfl

/-- The billed inspection is completed and invoiced. -/
theorem Billed.row {call : VesselCall} {rate : Decimal 4} {v : Invoice}
    (h : Billed ctx t t' i call rate v) (hi : i ∈ t.inspections) :
    i.complete ctx ∈ t'.inspections ∧ IsBilled t' i.id := by
  obtain ⟨hrows, hbills⟩ := h.rows
  constructor
  · rw [hrows]
    exact Table.mem_put_self hi rfl
  · rw [IsBilled, hbills]
    exact List.mem_cons_self

/-- An inspection that is created and billed at once. -/
theorem Drafted.rows {data : InspectionInput} {header : String} {call billedCall : VesselCall}
    {sequences : List NumberSequence} {rate : Decimal 4} {v : Invoice}
    (h : Drafted ctx t data header call i)
    (hbilled : Billed ctx (inspected t call i sequences) t' i billedCall rate v) :
    t'.inspections = i.complete ctx :: t.inspections ∧
      bills t' = (i.id, i.vesselCallId) :: bills t := by
  obtain ⟨hrows, hbills⟩ := hbilled.rows
  refine ⟨?_, hbills⟩
  have hothers : ∀ j ∈ t.inspections, key j ≠ key (i.complete ctx) := by
    intro j hj heq
    exact h.fresh (Table.mem_keys.mpr ⟨j, hj, heq⟩)
  rw [hrows]
  show Table.put (i.complete ctx) ([i] ++ t.inspections) = _
  rw [Table.put_append, Table.put_of_forall_ne hothers]
  simp [Table.put, key, Inspection.complete]

theorem operations_inspections {op : Op} {response : Response}
    (h : op.handle t ctx = .ok (t', response)) : InspectionStep t t' := by
  -- Requests about calls touch no inspection.
  have hquiet : ∀ {calls}, t' = { t with calls := calls }.bumpRevision → InspectionStep t t' := by
    rintro calls rfl
    exact .quiet rfl rfl
  cases op with
  | createCall data =>
      cases handle_step h with
      | callCreated _ _ _ _ tenant => exact hquiet tenant
  | patchCall callId data =>
      cases handle_step h with
      | callPatched _ _ _ _ _ _ _ _ tenant => exact hquiet tenant
  | cancelCall callId reason version =>
      cases handle_step h with
      | callCancelled _ _ _ _ _ _ _ _ _ _ tenant => exact hquiet tenant
      | cancelReplayed _ _ _ _ _ _ _ tenant => exact .quiet (tenant ▸ rfl) (tenant ▸ rfl)
  | createInspection data header =>
      cases handle_step h with
      | creationReplayed _ _ _ _ _ _ tenant => exact .quiet (tenant ▸ rfl) (tenant ▸ rfl)
      | drafted _ _ call i hdrafted sequences _ shown hshown tenant =>
          exact .drafted i hdrafted.newDraft ⟨hdrafted.shown, hdrafted.width⟩ (tenant ▸ rfl)
            (tenant ▸ rfl)
      | draftedAndBilled _ _ call i hdrafted sequences _ billedCall rate v billed shown hshown =>
          obtain ⟨hrows, hbills⟩ := hdrafted.rows billed
          exact .draftedAndBilled i ctx hdrafted.newDraft
            (invoiceOfInspection_eq_none.mp billed.uninvoiced) hdrafted.width ⟨shown, hshown⟩ hrows
            hbills
      -- No reachable tenant comes here: the new key would have an invoice before its draft.
      | draftedInvoiced _ _ call i hdrafted sequences v invoiced shown hshown after hafter tenant =>
          exact .drafted i hdrafted.newDraft ⟨hdrafted.shown, hdrafted.width⟩ (tenant ▸ rfl)
            (tenant ▸ rfl)
  | patchInspection id data =>
      obtain ⟨_, i, hget, hdraft, _, _, hwidth, shown, hshown, rfl, _⟩ := patchInspection_iff.mp h
      obtain ⟨mem, _⟩ := Table.mem_of_get hget
      exact .patched i (i.patched data ctx.now) mem hdraft rfl rfl rfl rfl hdraft
        ⟨⟨shown, hshown⟩, hwidth⟩ rfl rfl
  | finalizeInspection id version =>
      cases handle_step h with
      | finalizationReplayed _ _ _ _ _ _ _ _ _ _ tenant =>
          exact .quiet (tenant ▸ rfl) (tenant ▸ rfl)
      | billed _ _ i call rate v found hbilled shown hshown =>
          obtain ⟨hrows, hbills⟩ := hbilled.rows
          exact .billed i ctx (Table.mem_of_get found).1
            (invoiceOfInspection_eq_none.mp hbilled.uninvoiced) ⟨shown, hshown⟩ hrows hbills

/-- **Every accepted request is an inspection step.** -/
theorem handle_inspections (hledgers : Ledgers t) (h : t.handle sha r = .ok (t', a)) :
    InspectionStep t t' := by
  cases r with
  | measurements actor ctx op =>
      simp only [Tenant.handle, bind_eq_ok, pure_eq_ok, Prod.exists, Prod.mk.injEq] at h
      obtain ⟨_, _, _, _, hop, rfl, _⟩ := h
      rcases measurements_frame hop with ⟨hsite, _, hinvoices, _⟩ | ⟨_, _, _, v, _, _, hissued⟩
      · exact .quiet hsite.inspections (by rw [bills, hinvoices]; rfl)
      · refine .quiet hissued.sameSite.inspections ?_
        rw [bills, hissued.invoices, List.filterMap_cons, hissued.inspectionId]
        rfl
  | portal ctx op =>
      simp only [Tenant.handle, bind_eq_ok, pure_eq_ok, Prod.exists, Prod.mk.injEq] at h
      obtain ⟨_, _, hop, rfl, _⟩ := h
      obtain ⟨hsite, _, hinvoices, _⟩ := portal_frame hop
      exact .quiet hsite.inspections (by rw [bills, hinvoices]; rfl)
  | operations actor ctx op =>
      simp only [Tenant.handle, bind_eq_ok, pure_eq_ok, Prod.exists, Prod.mk.injEq] at h
      obtain ⟨_, _, _, _, hop, rfl, _⟩ := h
      exact operations_inspections hop
  | billing actor ctx op =>
      simp only [Tenant.handle, bind_eq_ok, pure_eq_ok, Prod.exists, Prod.mk.injEq] at h
      obtain ⟨_, _, _, _, hop, rfl, _⟩ := h
      rcases billing_cases hledgers.workflow hop with rfl | ⟨_, _, rfl⟩ | ⟨v, hv, v', hsettled, rfl, -⟩
      · exact .quiet rfl rfl
      · exact .quiet rfl rfl
      · exact .quiet rfl (bills_put hledgers.keys hv hsettled.sameCharge)
  | organizations actor ctx op =>
      simp only [Tenant.handle, bind_eq_ok, pure_eq_ok, Prod.exists, Prod.mk.injEq] at h
      obtain ⟨_, _, _, _, hop, rfl, _⟩ := h
      have hrecords := organizations_frame hop
      exact .quiet hrecords.inspections (by rw [bills, hrecords.invoices]; rfl)
  | users actor ctx op =>
      simp only [Tenant.handle, bind_eq_ok, pure_eq_ok, Prod.exists, Prod.mk.injEq] at h
      obtain ⟨_, _, _, _, _, rfl, _⟩ := h
      exact .quiet rfl rfl
  | auth ctx op =>
      simp only [Tenant.handle, bind_eq_ok, pure_eq_ok, Prod.exists, Prod.mk.injEq] at h
      obtain ⟨_, _, _, rfl, _⟩ := h
      exact .quiet rfl rfl

/-! ## Rows over a step -/

/-- The row goes on: what identifies it stays, and a row that is no draft is as it was. -/
structure Follows (i i' : Inspection) : Prop where
  id : i'.id = i.id
  key : i'.idempotencyKey = i.idempotencyKey
  call : i'.vesselCallId = i.vesselCallId
  version : i.version ≤ i'.version
  closed : i.status ≠ .draft → i' = i

theorem Follows.refl (i : Inspection) : Follows i i := ⟨rfl, rfl, rfl, le_rfl, fun _ => rfl⟩

/-- What holds of the inspections of every reachable tenant. -/
structure InspectionsInOrder (t : Tenant) : Prop where
  calls : CallsInOrder t
  keys : (Table.keys t.inspections).Nodup
  once : ∀ i ∈ t.inspections, ∀ j ∈ t.inspections, i.idempotencyKey ≠ "" →
    j.idempotencyKey = i.idempotencyKey → j = i
  called : ∀ i ∈ t.inspections, i.vesselCallId ∈ Table.keys t.calls
  shown : ∀ i ∈ t.inspections, Shown i
  bills : ((bills t).map Prod.fst).Nodup
  billedCalls : ∀ bill ∈ Operations.bills t, bill.2 ∈ Table.keys t.calls
  completed : ∀ i ∈ t.inspections, i.status ≠ .draft → IsBilled t i.id

theorem InspectionsInOrder.ofInitial (h : t.Initial) : InspectionsInOrder t where
  calls := .ofInitial h
  keys := by simp [h.inspections]
  once := by simp [h.inspections]
  called := by simp [h.inspections]
  shown := by simp [h.inspections]
  bills := by simp [Operations.bills, h.invoices]
  billedCalls := by simp [Operations.bills, h.invoices]
  completed := by simp [h.inspections]

/-- Bills are never withdrawn. -/
theorem InspectionStep.isBilled (h : InspectionStep t t') {id : Id} (hid : IsBilled t id) :
    IsBilled t' id := by
  unfold IsBilled at hid ⊢
  cases h with
  | quiet _ same => rwa [same]
  | drafted _ _ _ _ same => rwa [same]
  | patched _ _ _ _ _ _ _ _ _ _ _ same => rwa [same]
  | billed _ _ _ _ _ _ more => rw [more]; exact List.mem_cons_of_mem _ hid
  | draftedAndBilled _ _ _ _ _ _ _ more => rw [more]; exact List.mem_cons_of_mem _ hid

/-- Writing over a row makes it go on where the written row follows it. -/
theorem exists_follows_put {rows : List Inspection} {w w' : Inspection}
    (hkeys : (Table.keys rows).Nodup) (hw : w ∈ rows) (hfollows : Follows w w') (hi : i ∈ rows) :
    ∃ i' ∈ Table.put w' rows, Follows i i' := by
  by_cases hid : i.id = w.id
  · obtain rfl := Table.eq_of_key_eq hkeys hi hw hid
    exact ⟨w', Table.mem_put_self hi hfollows.id.symm, hfollows⟩
  · have hne : key i ≠ key w' := fun heq => hid (heq.trans hfollows.id)
    exact ⟨i, Table.mem_put_of_ne hi hne, .refl i⟩

/-- Every row goes on. -/
theorem InspectionStep.row (h : InspectionStep t t') (ht : InspectionsInOrder t)
    (hi : i ∈ t.inspections) : ∃ i' ∈ t'.inspections, Follows i i' := by
  cases h with
  | quiet inspections _ => exact ⟨i, inspections ▸ hi, .refl i⟩
  | drafted _ _ _ inspections _ => exact ⟨i, inspections ▸ List.mem_cons_of_mem _ hi, .refl i⟩
  | patched w w' mem draft id key call version _ _ inspections _ =>
      rw [inspections]
      refine exists_follows_put ht.keys mem ⟨id, key, call, by omega, ?_⟩ hi
      exact fun hstatus => absurd draft hstatus
  | billed w ctx mem unbilled _ inspections _ =>
      rw [inspections]
      refine exists_follows_put ht.keys mem ⟨rfl, rfl, rfl, Nat.le_succ _, ?_⟩ hi
      exact fun hstatus => absurd (ht.completed w mem hstatus) unbilled
  | draftedAndBilled _ _ _ _ _ _ inspections _ =>
      exact ⟨i, inspections ▸ List.mem_cons_of_mem _ hi, .refl i⟩

/-- Every row was there, or is a new one. -/
theorem InspectionStep.origin (h : InspectionStep t t') (hi' : i' ∈ t'.inspections) :
    (∃ i ∈ t.inspections, i'.id = i.id ∧ i'.idempotencyKey = i.idempotencyKey ∧
      i'.vesselCallId = i.vesselCallId) ∨
    ∃ i, NewDraft t i ∧ i'.id = i.id ∧ i'.idempotencyKey = i.idempotencyKey ∧
      i'.vesselCallId = i.vesselCallId ∧ ∀ j ∈ t'.inspections, j ∉ t.inspections → j = i' := by
  have hold : ∀ {j}, j ∈ t.inspections → ∃ i ∈ t.inspections, j.id = i.id ∧
      j.idempotencyKey = i.idempotencyKey ∧ j.vesselCallId = i.vesselCallId :=
    fun hj => ⟨_, hj, rfl, rfl, rfl⟩
  cases h with
  | quiet inspections _ => exact .inl (hold (inspections ▸ hi'))
  | drafted w new _ inspections _ =>
      rw [inspections] at hi'
      obtain rfl | hi' := List.mem_cons.mp hi'
      · refine .inr ⟨i', new, rfl, rfl, rfl, fun j hj hnew => ?_⟩
        rw [inspections] at hj
        exact (List.mem_cons.mp hj).resolve_right hnew
      · exact .inl (hold hi')
  | patched w w' mem _ id key call _ _ _ inspections _ =>
      rw [inspections] at hi'
      obtain rfl | ⟨hi', _⟩ := Table.mem_put hi'
      · exact .inl ⟨w, mem, id, key, call⟩
      · exact .inl (hold hi')
  | billed w ctx mem _ _ inspections _ =>
      rw [inspections] at hi'
      obtain rfl | ⟨hi', _⟩ := Table.mem_put hi'
      · exact .inl ⟨w, mem, rfl, rfl, rfl⟩
      · exact .inl (hold hi')
  | draftedAndBilled w ctx new _ _ _ inspections _ =>
      rw [inspections] at hi'
      obtain rfl | hi' := List.mem_cons.mp hi'
      · refine .inr ⟨w, new, rfl, rfl, rfl, fun j hj hnew => ?_⟩
        rw [inspections] at hj
        exact (List.mem_cons.mp hj).resolve_right hnew
      · exact .inl (hold hi')

/-- The keys of the inspections only grow, and stay unique. -/
theorem InspectionStep.inspectionKeys (h : InspectionStep t t')
    (hkeys : (Table.keys t.inspections).Nodup) : (Table.keys t'.inspections).Nodup := by
  cases h with
  | quiet inspections _ => rwa [inspections]
  | drafted w new _ inspections _ =>
      rw [inspections]
      exact List.nodup_cons.mpr ⟨new.fresh, hkeys⟩
  | patched _ _ _ _ _ _ _ _ _ _ inspections _ => rwa [inspections, Table.keys_put]
  | billed _ _ _ _ _ inspections _ => rwa [inspections, Table.keys_put]
  | draftedAndBilled w ctx new _ _ _ inspections _ =>
      rw [inspections]
      exact List.nodup_cons.mpr ⟨new.fresh, hkeys⟩

theorem InspectionStep.shown (h : InspectionStep t t') (ht : ∀ i ∈ t.inspections, Shown i) :
    ∀ i ∈ t'.inspections, Shown i := by
  intro i hi
  cases h with
  | quiet inspections _ => exact ht i (inspections ▸ hi)
  | drafted w _ shown inspections _ =>
      rw [inspections] at hi
      obtain rfl | hi := List.mem_cons.mp hi
      · exact shown
      · exact ht i hi
  | patched w w' _ _ _ _ _ _ _ shown inspections _ =>
      rw [inspections] at hi
      obtain rfl | ⟨hi, _⟩ := Table.mem_put hi
      · exact shown
      · exact ht i hi
  | billed w ctx mem _ shown inspections _ =>
      rw [inspections] at hi
      obtain rfl | ⟨hi, _⟩ := Table.mem_put hi
      · exact ⟨shown, (ht w mem).2⟩
      · exact ht i hi
  | draftedAndBilled w ctx _ _ width shown inspections _ =>
      rw [inspections] at hi
      obtain rfl | hi := List.mem_cons.mp hi
      · exact ⟨shown, width⟩
      · exact ht i hi

theorem InspectionStep.completed (h : InspectionStep t t')
    (ht : ∀ i ∈ t.inspections, i.status ≠ .draft → IsBilled t i.id) :
    ∀ i ∈ t'.inspections, i.status ≠ .draft → IsBilled t' i.id := by
  intro i hi hstatus
  have hold : i ∈ t.inspections → IsBilled t' i.id := fun hi => h.isBilled (ht i hi hstatus)
  have hmore : ∀ {w : Inspection}, bills t' = (w.id, w.vesselCallId) :: bills t →
      IsBilled t' w.id := by
    intro w more
    rw [IsBilled, more]
    exact List.mem_cons_self
  cases h with
  | quiet inspections _ => exact hold (inspections ▸ hi)
  | drafted w new _ inspections _ =>
      rw [inspections] at hi
      obtain rfl | hi := List.mem_cons.mp hi
      · exact absurd new.draft hstatus
      · exact hold hi
  | patched w w' _ _ _ _ _ _ draft' _ inspections _ =>
      rw [inspections] at hi
      obtain rfl | ⟨hi, _⟩ := Table.mem_put hi
      · exact absurd draft' hstatus
      · exact hold hi
  | billed w ctx _ _ _ inspections more =>
      rw [inspections] at hi
      obtain rfl | ⟨hi, _⟩ := Table.mem_put hi
      · exact hmore more
      · exact hold hi
  | draftedAndBilled w ctx _ _ _ _ inspections more =>
      rw [inspections] at hi
      obtain rfl | hi := List.mem_cons.mp hi
      · exact hmore more
      · exact hold hi

/-- An idempotency key goes on naming one inspection. -/
theorem InspectionStep.once (h : InspectionStep t t') (ht : InspectionsInOrder t) :
    ∀ i ∈ t'.inspections, ∀ j ∈ t'.inspections, i.idempotencyKey ≠ "" →
      j.idempotencyKey = i.idempotencyKey → j = i := by
  intro i hi j hj hne hsame
  have hkeys := h.inspectionKeys ht.keys
  obtain ⟨i₀, hi₀, hid, hkey, _⟩ | ⟨i₀, new, hid, hkey, _, _⟩ := h.origin hi
  · obtain ⟨j₀, hj₀, hid', hkey', _⟩ | ⟨j₀, new', _, hkey', _, _⟩ := h.origin hj
    · have heq : j₀ = i₀ := ht.once i₀ hi₀ j₀ hj₀ (hkey ▸ hne) (by rw [← hkey, ← hkey', hsame])
      exact Table.eq_of_key_eq hkeys hj hi (hid'.trans (heq ▸ hid.symm))
    · refine absurd ?_ (new'.newKey (by rw [← hkey', hsame]; exact hne) i₀ hi₀)
      rw [← hkey, ← hkey', hsame]
  · obtain ⟨j₀, hj₀, _, hkey', _⟩ | ⟨j₀, new', hid', _, _, honly⟩ := h.origin hj
    · refine absurd ?_ (new.newKey (by rw [← hkey]; exact hne) j₀ hj₀)
      rw [← hkey, ← hkey', hsame]
    · -- Both rows are the one that was added.
      refine (honly i hi fun hold => new.fresh ?_).symm
      exact Table.mem_keys.mpr ⟨i, hold, hid⟩

/-! ## Runs -/

/-- Calls are never deleted. -/
theorem CallStep.mem_keys (h : CallStep r t t') {id : Id} (hid : id ∈ Table.keys t.calls) :
    id ∈ Table.keys t'.calls := by
  cases h with
  | same calls => rwa [calls]
  | registered call _ calls => rw [calls]; exact List.mem_cons_of_mem _ hid
  | written call call' _ _ _ calls => rwa [calls, Table.keys_put]

theorem InspectionStep.bills (h : InspectionStep t t') (ht : InspectionsInOrder t) :
    ((Operations.bills t').map Prod.fst).Nodup ∧
      ∀ bill ∈ Operations.bills t', bill.2 ∈ Table.keys t.calls := by
  have hold := And.intro ht.bills ht.billedCalls
  have hmore : ∀ {w : Inspection}, ¬IsBilled t w.id → w.vesselCallId ∈ Table.keys t.calls →
      Operations.bills t' = (w.id, w.vesselCallId) :: Operations.bills t →
      ((Operations.bills t').map Prod.fst).Nodup ∧
        ∀ bill ∈ Operations.bills t', bill.2 ∈ Table.keys t.calls := by
    intro w unbilled hcall more
    rw [more]
    refine ⟨List.nodup_cons.mpr ⟨unbilled, ht.bills⟩, fun bill hbill => ?_⟩
    obtain rfl | hbill := List.mem_cons.mp hbill
    · exact hcall
    · exact ht.billedCalls bill hbill
  cases h with
  | quiet _ same => rwa [same]
  | drafted _ _ _ _ same => rwa [same]
  | patched _ _ _ _ _ _ _ _ _ _ _ same => rwa [same]
  | billed w ctx mem unbilled _ _ more => exact hmore unbilled (ht.called w mem) more
  | draftedAndBilled w ctx new unbilled _ _ _ more => exact hmore unbilled new.call more

theorem InspectionsInOrder.step (h : InspectionsInOrder t) (hr : t.handle sha r = .ok (t', a)) :
    InspectionsInOrder t' := by
  have hstep := handle_inspections h.calls.ledgers hr
  have hcalls := handle_calls h.calls.ledgers.workflow hr
  refine ⟨h.calls.step hr, hstep.inspectionKeys h.keys, hstep.once h, ?_, hstep.shown h.shown,
    (hstep.bills h).1, fun bill hbill => hcalls.mem_keys ((hstep.bills h).2 bill hbill),
    hstep.completed h.completed⟩
  intro i hi
  obtain ⟨i₀, hi₀, _, _, hcall⟩ | ⟨i₀, new, _, _, hcall, _⟩ := hstep.origin hi
  · rw [hcall]
    exact hcalls.mem_keys (h.called i₀ hi₀)
  · rw [hcall]
    exact hcalls.mem_keys new.call

theorem InspectionsInOrder.run (h : InspectionsInOrder t) (rs : List Request) :
    InspectionsInOrder (run (Tenant.handle sha) t rs) :=
  run_invariant (fun hs hr => hs.step hr) rs h

/-- The revision of the organization is no matter of the inspections. -/
theorem InspectionsInOrder.bumpRevision (h : InspectionsInOrder t) :
    InspectionsInOrder t.bumpRevision :=
  ⟨⟨⟨h.calls.ledgers.workflow, h.calls.ledgers.keys, h.calls.ledgers.ledger⟩, h.calls.keys⟩, h.keys,
    h.once, h.called, h.shown, h.bills, h.billedCalls, h.completed⟩

end VesselCaller.Operations
