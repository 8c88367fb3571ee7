import VesselCaller.Billing.Ledger

/-!
# What becomes of a cancelled call

A call can be cancelled while draft inspections and measurement plans of it are open.
Editing the call, inspecting it anew and planning on it are refused from then on.  Two
ways remain open: `finalize_inspection` does not look at the status of the call it
completes and bills, and `issue_assessment` does not look at the call at all.

`CallStep` is what an accepted request did to the calls, `StaysCancelled` what a
cancelled call is owed, and the theorem says that exactly the two ways above break it.

## Main definitions

* `StaysCancelled` — the call is still cancelled, and no new invoice is against it;
* `CallStep` — what a request did to the calls and the invoices against them;
* `CallsInOrder` — the invariant of the calls.
-/

namespace VesselCaller.Operations

open Lib Accounts Billing Measurements

/-- The request finalizes an inspection of the call that has no invoice yet, creates
one completed, or issues an assessment without an invoice on a plan of the call. -/
def billsCall (t : Tenant) (callId : Id) : Request → Bool
  | .operations _ ctx op => (op.bills t ctx).any fun b => b.1.id = callId
  | .measurements _ _ (.issue planId assessmentId _) =>
      (Table.get planId t.plans).any (fun p => p.vesselCallId = callId) &&
        (invoiceOf t.invoices assessmentId).isNone
  | _ => false

/-- The call is still cancelled, and every invoice against it was there before. -/
structure StaysCancelled (callId : Id) (t t' : Tenant) : Prop where
  status : ∃ call, Table.get callId t'.calls = some call ∧ call.status = .cancelled
  unbilled : ∀ i ∈ t'.invoices, i.vesselCallId = callId →
    ∃ j ∈ t.invoices, j.id = i.id ∧ j.vesselCallId = callId

/-- What an accepted request did to the calls.  A cancelled call is written only by a
request that bills it. -/
inductive CallStep (r : Request) (t t' : Tenant) : Prop where
  | same (calls : t'.calls = t.calls)
  | registered (call : VesselCall) (fresh : call.id ∉ Table.keys t.calls)
      (calls : t'.calls = call :: t.calls)
  | written (call call' : VesselCall) (mem : call ∈ t.calls) (id : call'.id = call.id)
      (live : call.status = .cancelled → billsCall t call.id r = true)
      (calls : t'.calls = Table.put call' t.calls)

variable {t t' : Tenant} {ctx : Ctx} {actor callId : Id}

/-! ## Calls -/

theorem Billed.calls {inspection : Inspection} {call : VesselCall} {rate : Decimal 4} {i : Invoice}
    (h : Billed ctx t t' inspection call rate i) :
    t'.calls = Table.put (call.complete ctx) t.calls := by
  rw [h.tenant]
  rfl

theorem Step.calls {op : Op} {response : Response} (h : Step ctx t t' op response) :
    CallStep (.operations actor ctx op) t t' := by
  cases h with
  | callCreated data call fresh _ tenant => exact .registered call fresh (tenant ▸ rfl)
  | callPatched callId data call call' mem _ live id' tenant =>
      exact .written call call' mem id' (fun h => absurd h live) (tenant ▸ rfl)
  | callCancelled callId reason version call call' mem _ live id' _ tenant =>
      exact .written call call' mem id' (fun h => absurd h live) (tenant ▸ rfl)
  | cancelReplayed _ _ _ _ _ _ _ tenant => exact .same (tenant ▸ rfl)
  | creationReplayed _ _ _ _ _ _ tenant => exact .same (tenant ▸ rfl)
  | drafted data header call inspection hdrafted _ _ _ _ tenant =>
      exact .written call call.started (Table.mem_of_get hdrafted.found).1 rfl
        (fun h => absurd h hdrafted.live) (tenant ▸ rfl)
  | draftedAndBilled data header call inspection hdrafted sequences _ billedCall rate i billed =>
      -- The call billed is the one just put in progress.
      obtain rfl := hdrafted.draft
      have hget : Table.get call.id (Table.put call.started t.calls) = some call.started :=
        Table.get_put_self (a := call.started) hdrafted.found
      obtain rfl : billedCall = call.started := Option.some.inj (billed.found.symm.trans hget)
      refine .written call (call.started.complete ctx) (Table.mem_of_get hdrafted.found).1 rfl
        (fun h => absurd h hdrafted.live) ?_
      rw [billed.calls]
      exact Table.put_put (show (call.started.complete ctx).id = call.started.id from rfl) t.calls
  | draftedInvoiced data header call inspection hdrafted _ _ _ _ _ _ _ tenant =>
      exact .written call call.started (Table.mem_of_get hdrafted.found).1 rfl
        (fun h => absurd h hdrafted.live) (tenant ▸ rfl)
  | inspectionPatched _ _ _ _ _ _ _ _ _ _ tenant => exact .same (tenant ▸ rfl)
  | finalizationReplayed _ _ _ _ _ _ _ _ _ _ tenant => exact .same (tenant ▸ rfl)
  | billed inspectionId version inspection call rate i found hbilled =>
      refine .written call (call.complete ctx) (Table.mem_of_get hbilled.found).1 rfl (fun _ => ?_)
        hbilled.calls
      simp [billsCall, Op.bills, found, hbilled.uninvoiced, hbilled.found]

/-- **Every accepted request is a call step.** -/
theorem handle_calls {sha : Sha256} {r : Request} {a : VesselCaller.Response}
    (hw : Workflow t.steps) (h : t.handle sha r = .ok (t', a)) : CallStep r t t' := by
  cases r with
  | measurements actor ctx op =>
      simp only [Tenant.handle, bind_eq_ok, pure_eq_ok, Prod.exists, Prod.mk.injEq] at h
      obtain ⟨_, _, _, _, hop, rfl, _⟩ := h
      rcases measurements_frame hop with ⟨hsite, _⟩ | ⟨_, _, _, _, _, _, hissued⟩
      · exact .same hsite.calls
      · exact .same hissued.sameSite.calls
  | portal ctx op =>
      simp only [Tenant.handle, bind_eq_ok, pure_eq_ok, Prod.exists, Prod.mk.injEq] at h
      obtain ⟨_, _, hop, rfl, _⟩ := h
      exact .same (portal_frame hop).1.calls
  | operations actor ctx op =>
      simp only [Tenant.handle, bind_eq_ok, pure_eq_ok, Prod.exists, Prod.mk.injEq] at h
      obtain ⟨_, _, _, _, hop, rfl, _⟩ := h
      exact (handle_step hop).calls
  | billing actor ctx op =>
      simp only [Tenant.handle, bind_eq_ok, pure_eq_ok, Prod.exists, Prod.mk.injEq] at h
      obtain ⟨_, _, _, _, hop, rfl, _⟩ := h
      rcases billing_cases hw hop with rfl | ⟨_, _, rfl⟩ | ⟨_, _, _, _, rfl, _⟩
      · exact .same rfl
      · exact .same rfl
      · exact .same rfl
  | organizations actor ctx op =>
      simp only [Tenant.handle, bind_eq_ok, pure_eq_ok, Prod.exists, Prod.mk.injEq] at h
      obtain ⟨_, _, _, _, hop, rfl, _⟩ := h
      exact .same (organizations_frame hop).calls
  | users actor ctx op =>
      simp only [Tenant.handle, bind_eq_ok, pure_eq_ok, Prod.exists, Prod.mk.injEq] at h
      obtain ⟨_, _, _, _, _, rfl, _⟩ := h
      exact .same rfl
  | auth ctx op =>
      simp only [Tenant.handle, bind_eq_ok, pure_eq_ok, Prod.exists, Prod.mk.injEq] at h
      obtain ⟨_, _, _, rfl, _⟩ := h
      exact .same rfl

theorem CallStep.keys {r : Request} (h : CallStep r t t') (hkeys : (Table.keys t.calls).Nodup) :
    (Table.keys t'.calls).Nodup := by
  cases h with
  | same calls => rwa [calls]
  | registered call fresh calls =>
      rw [calls, Table.keys_cons]
      exact List.nodup_cons.mpr ⟨fresh, hkeys⟩
  | written call call' _ _ _ calls =>
      rw [calls, Table.keys_put]
      exact hkeys

/-- A cancelled call that the request does not bill stays as it is. -/
theorem CallStep.cancelled {r : Request} (h : CallStep r t t') (hkeys : (Table.keys t.calls).Nodup)
    {call : VesselCall} (hget : Table.get callId t.calls = some call)
    (hcancelled : call.status = .cancelled) (hr : billsCall t callId r = false) :
    Table.get callId t'.calls = some call := by
  obtain ⟨hcall, hid⟩ := Table.mem_of_get hget
  cases h with
  | same calls => rwa [calls]
  | registered new fresh calls =>
      have hne : key new ≠ callId := by
        rintro rfl
        exact fresh (Table.mem_keys.mpr ⟨call, hcall, hid⟩)
      rw [calls, Table.get, List.find?_cons_of_neg (by simpa using hne)]
      exact hget
  | written old new hold hnew live calls =>
      have hne : callId ≠ key new := by
        intro heq
        have hsame : key call = key old := hid.trans (heq.trans hnew)
        obtain rfl := Table.eq_of_key_eq hkeys hcall hold hsame
        have hbills := live hcancelled
        rw [show call.id = callId from hid, hr] at hbills
        exact Bool.false_ne_true hbills
      rw [calls, Table.get_put_of_ne hne]
      exact hget

/-! ## Invoices -/

/-- A request that opens an invoice against a call bills the call. -/
theorem billsCall_of_origin {r : Request} {i : Invoice} (h : Origin r t t' i) :
    billsCall t i.vesselCallId r = true := by
  cases h with
  | harbour actor ctx op call inspection request bills hbill =>
      subst request
      simp [billsCall, bills, hbill.vesselCallId]
  | disparity p p' a kind found hissued =>
      obtain ⟨actor, ctx, version, rfl⟩ := Request.eq_of_kind_issue kind
      have hnone : invoiceOf t.invoices a.id = none := by
        unfold invoiceOf
        rw [List.find?_eq_none]
        intro j hj
        simpa using hissued.uninvoiced j hj
      simp [billsCall, found, hissued.vesselCallId, hnone]

/-- A request that does not bill the call adds no invoice against it. -/
theorem unbilled_of_ledgerStep {r : Request} (h : LedgerStep r t t')
    (hr : billsCall t callId r = false) {i : Invoice} (hi : i ∈ t'.invoices)
    (hcall : i.vesselCallId = callId) :
    ∃ j ∈ t.invoices, j.id = i.id ∧ j.vesselCallId = callId := by
  cases h with
  | untouched _ invoices => exact ⟨i, invoices ▸ hi, rfl, hcall⟩
  | configured _ invoices => exact ⟨i, invoices ▸ hi, rfl, hcall⟩
  | opened new origin _ _ _ _ _ _ _ _ invoices =>
      rw [invoices] at hi
      rcases List.mem_cons.mp hi with rfl | hi
      · have hbills := billsCall_of_origin origin
        rw [hcall, hr] at hbills
        exact absurd hbills Bool.false_ne_true
      · exact ⟨i, hi, rfl, hcall⟩
  | settled old new mem hsettled _ invoices _ =>
      rw [invoices] at hi
      rcases Table.mem_put hi with rfl | ⟨hi, _⟩
      · exact ⟨old, mem, hsettled.sameCharge.id.symm, hsettled.sameCharge.vesselCallId ▸ hcall⟩
      · exact ⟨i, hi, rfl, hcall⟩

/-- A new invoice against the call breaks what it is owed. -/
theorem not_staysCancelled_of_opened {i : Invoice} (hinvoices : t'.invoices = i :: t.invoices)
    (hfresh : i.id ∉ Table.keys t.invoices) (hcall : i.vesselCallId = callId) :
    ¬StaysCancelled callId t t' := by
  intro h
  have hi : i ∈ t'.invoices := by
    rw [hinvoices]
    exact List.mem_cons_self
  obtain ⟨j, hj, hid, _⟩ := h.unbilled i hi hcall
  exact hfresh (Table.mem_keys.mpr ⟨j, hj, hid⟩)

/-- The call of an accepted creation is live, replays included. -/
theorem createInspection_live {data : InspectionInput} {header : String} {response : Response}
    (h : createInspection t ctx data header = .ok (t', response)) :
    ∃ call, data.callId.bind (Table.get · t.calls) = some call ∧ call.status ≠ .cancelled := by
  simp only [createInspection, getCall, bind_eq_ok, orRaise_eq_ok, raiseIf_eq_ok] at h
  obtain ⟨_, _, id, hid, call, hcall, _, hlive, _⟩ := h
  exact ⟨call, by rw [hid]; exact hcall, hlive⟩

/-- Finalizing an inspection that has no invoice bills its call. -/
theorem not_staysCancelled_of_bills {op : Op} {response : Response}
    (h : op.handle t ctx = .ok (t', response)) {call : VesselCall}
    (hget : Table.get callId t.calls = some call) (hcancelled : call.status = .cancelled)
    (hbills : ((op.bills t ctx).any fun b => b.1.id = callId) = true) :
    ¬StaysCancelled callId t t' := by
  obtain ⟨⟨call', inspection⟩, hop, hid⟩ := (Option.any_eq_true _ _).mp hbills
  have hid : call'.id = callId := by simpa using hid
  cases op with
  | createInspection data header =>
      -- A creation is refused before it comes to billing.
      obtain ⟨call₁, hfound, hlive⟩ := createInspection_live h
      have hcall' : call₁ = call' := by
        simp only [Op.bills, hfound, Option.map_some] at hop
        split at hop
        · exact (Prod.mk.inj (Option.some.inj hop)).1
        · cases hop
      obtain ⟨id, _, hfound⟩ := Option.bind_eq_some_iff.mp hfound
      have hkey : id = callId := by
        rw [← hid, ← hcall']
        exact (Table.mem_of_get hfound).2.symm
      rw [hkey, hget] at hfound
      exact absurd (Option.some.inj hfound ▸ hcancelled) hlive
  | finalizeInspection inspectionId version =>
      cases handle_step h with
      | finalizationReplayed _ _ inspection₁ i found invoiced =>
          simp [Op.bills, found, invoiced] at hop
      | billed _ _ inspection₁ call₁ rate i found hbilled =>
          have ht := hbilled.tenant
          have hcall₁ : call₁ = call' := by
            have hsome : (some (call₁, inspection₁) : Option (VesselCall × Inspection)) =
                some (call', inspection) := by
              rw [← hop]
              simp [Op.bills, found, hbilled.uninvoiced, hbilled.found]
            exact (Prod.mk.inj (Option.some.inj hsome)).1
          refine not_staysCancelled_of_opened (i := i) ?_ hbilled.fresh ?_
          · rw [ht]
            rfl
          · rw [hbilled.bill.vesselCallId, hcall₁, hid]
  | _ => simp [Op.bills] at hop

/-- Issuing an assessment that has no invoice bills the call of the plan. -/
theorem not_staysCancelled_of_issue {sha : Sha256} {planId assessmentId : Id} {version : ℕ}
    {response : Measurements.Response}
    (h : (Measurements.Op.issue planId assessmentId version).handle sha t ctx actor =
      .ok (t', response))
    (hplan : (Table.get planId t.plans).any (fun p => p.vesselCallId = callId) = true)
    (hnone : (invoiceOf t.invoices assessmentId).isNone = true) : ¬StaysCancelled callId t t' := by
  simp only [Measurements.Op.handle, bind_eq_ok, pure_eq_ok, Prod.exists, Prod.mk.injEq] at h
  obtain ⟨_, _, p, hp, t₁, i, hi, _, _, rfl, _⟩ := h
  have hget : Table.get planId t.plans = some p := orRaise_eq_ok.mp hp
  have hcall : p.vesselCallId = callId := by simpa [hget] using hplan
  obtain ⟨a, _, rfl, ⟨hinvoiced, _⟩ | ⟨_, p', hissued⟩⟩ := issueAssessment_cases hi
  · simp [hinvoiced] at hnone
  · exact not_staysCancelled_of_opened hissued.invoices hissued.fresh
      (hissued.vesselCallId.trans hcall)

/-! ## Runs -/

/-- What the argument needs to know of a reachable state. -/
structure CallsInOrder (t : Tenant) : Prop where
  ledgers : Ledgers t
  keys : (Table.keys t.calls).Nodup

theorem CallsInOrder.ofInitial (h : t.Initial) : CallsInOrder t :=
  ⟨.ofInitial h, by simp [h.calls]⟩

theorem CallsInOrder.step {sha : Sha256} {r : Request} {a : VesselCaller.Response}
    (h : CallsInOrder t) (hr : t.handle sha r = .ok (t', a)) : CallsInOrder t' :=
  ⟨h.ledgers.step hr, (handle_calls h.ledgers.workflow hr).keys h.keys⟩

/-- **One accepted request** keeps a cancelled call cancelled and unbilled exactly when
it does not bill the call. -/
theorem CallsInOrder.staysCancelled_iff {sha : Sha256} {r : Request} {a : VesselCaller.Response}
    (h : CallsInOrder t) (hr : t.handle sha r = .ok (t', a)) {call : VesselCall}
    (hget : Table.get callId t.calls = some call) (hcancelled : call.status = .cancelled) :
    StaysCancelled callId t t' ↔ billsCall t callId r = false := by
  constructor
  · intro hstays
    by_contra hbills
    rw [Bool.not_eq_false] at hbills
    cases r with
    | operations actor ctx op =>
        simp only [Tenant.handle, bind_eq_ok, pure_eq_ok, Prod.exists, Prod.mk.injEq] at hr
        obtain ⟨_, _, _, _, hop, rfl, _⟩ := hr
        exact not_staysCancelled_of_bills hop hget hcancelled hbills hstays
    | measurements actor ctx op =>
        simp only [Tenant.handle, bind_eq_ok, pure_eq_ok, Prod.exists, Prod.mk.injEq] at hr
        obtain ⟨_, _, _, _, hop, rfl, _⟩ := hr
        cases op with
        | issue planId assessmentId version =>
            obtain ⟨hplan, hnone⟩ := Bool.and_eq_true_iff.mp hbills
            exact not_staysCancelled_of_issue hop hplan hnone hstays
        | _ => simp [billsCall] at hbills
    | _ => simp [billsCall] at hbills
  · intro hbills
    have hcalls := handle_calls h.ledgers.workflow hr
    have hledger := handle_ledger h.ledgers.workflow hr
    exact ⟨⟨call, hcalls.cancelled h.keys hget hcancelled hbills, hcancelled⟩,
      fun i hi hcall => unbilled_of_ledgerStep hledger hbills hi hcall⟩

/-- **A cancelled call.**  In every reachable state with a cancelled call, an accepted
request keeps the call cancelled and unbilled exactly when it neither finalizes an
inspection of the call that has no invoice nor issues an assessment without one on a
plan of the call; and so does every run of such requests. -/
theorem cancelled_call_absorbing (sha : Sha256) {t₀ t : Tenant} (h₀ : t₀.Initial)
    (rs : List Request) (ht : run (Tenant.handle sha) t₀ rs = t) {call : VesselCall}
    (hget : Table.get callId t.calls = some call) (hcancelled : call.status = .cancelled) :
    (∀ r t' a, t.handle sha r = .ok (t', a) →
      (StaysCancelled callId t t' ↔ billsCall t callId r = false)) ∧
    (∀ rs', Along (Tenant.handle sha) (fun s r => billsCall s callId r = false) t rs' →
      StaysCancelled callId t (run (Tenant.handle sha) t rs')) := by
  have horder : CallsInOrder t :=
    ht ▸ run_invariant (fun hs hr => hs.step hr) rs (.ofInitial h₀)
  refine ⟨fun r t' a hr => horder.staysCancelled_iff hr hget hcancelled, fun rs' hrs' => ?_⟩
  refine (run_invariant_along (P := fun s => CallsInOrder s ∧ StaysCancelled callId t s) ?_ rs'
    hrs' ⟨horder, ⟨call, hget, hcancelled⟩, fun i hi hcall => ⟨i, hi, rfl, hcall⟩⟩).2
  rintro s r s' a ⟨hs, hstays⟩ hbills hr
  refine ⟨hs.step hr, ?_⟩
  obtain ⟨call', hget', hcancelled'⟩ := hstays.status
  have hnext := (hs.staysCancelled_iff hr hget' hcancelled').mpr hbills
  refine ⟨hnext.status, fun i hi hcall => ?_⟩
  obtain ⟨j, hj, hji, hjcall⟩ := hnext.unbilled i hi hcall
  obtain ⟨k, hk, hkj, hkcall⟩ := hstays.unbilled j hj hjcall
  exact ⟨k, hk, hkj.trans hji, hkcall⟩

/-- A cancelled call whose open inspection is edited. -/
theorem cancelled_call_absorbing_edited :
    ∃ t, run (Tenant.handle Sample.sha) Sample.tenant Sample.abandoned = t ∧
      (∃ call, Table.get 10000 t.calls = some call ∧ call.status = .cancelled) ∧
      StaysCancelled 10000 t (run (Tenant.handle Sample.sha) t
        [.operations 1 (Sample.ctx 4) (.patchInspection 20000 { product := some "Coal" })]) := by
  have hstatus : (Table.get 10000 (run (Tenant.handle Sample.sha) Sample.tenant
      Sample.abandoned).calls).map VesselCall.status = some .cancelled := by decide +kernel
  obtain ⟨call, hget, hcancelled⟩ := Option.map_eq_some_iff.mp hstatus
  obtain ⟨_, hrun⟩ := cancelled_call_absorbing Sample.sha Sample.initial Sample.abandoned rfl hget
    hcancelled
  exact ⟨_, rfl, ⟨call, hget, hcancelled⟩, hrun _ ⟨rfl, trivial⟩⟩

/-- The request is accepted after the run and breaks what the cancelled call is owed. -/
def BreaksCancellation (rs : List Request) (r : Request) : Prop :=
  ∃ t, run (Tenant.handle Sample.sha) Sample.tenant rs = t ∧
    (∃ call, Table.get 10000 t.calls = some call ∧ call.status = .cancelled) ∧
    ∃ t' a, t.handle Sample.sha r = .ok (t', a) ∧ ¬StaysCancelled 10000 t t'

theorem breaksCancellation_of_bills {rs : List Request} {r : Request}
    (hstatus : (Table.get 10000 (run (Tenant.handle Sample.sha) Sample.tenant rs).calls).map
      VesselCall.status = some .cancelled)
    (hok : ((run (Tenant.handle Sample.sha) Sample.tenant rs).handle Sample.sha r).isOk = true)
    (hbills : billsCall (run (Tenant.handle Sample.sha) Sample.tenant rs) 10000 r = true) :
    BreaksCancellation rs r := by
  have horder : CallsInOrder (run (Tenant.handle Sample.sha) Sample.tenant rs) :=
    run_invariant (fun hs hr => hs.step hr) _ (.ofInitial Sample.initial)
  obtain ⟨call, hget, hcancelled⟩ := Option.map_eq_some_iff.mp hstatus
  obtain ⟨t', a, hok⟩ := exists_of_isOk hok
  refine ⟨_, rfl, ⟨call, hget, hcancelled⟩, t', a, hok, ?_⟩
  rw [horder.staysCancelled_iff hok hget hcancelled, hbills]
  exact Bool.false_ne_true.symm

/-- The draft inspection of a cancelled call is finalized: the call is completed and
billed.  The assessment on a plan of a cancelled call is issued: the call is billed. -/
theorem cancelled_call_billed :
    BreaksCancellation Sample.abandoned
      (.operations 1 (Sample.ctx 4) (.finalizeInspection 20000 .null)) ∧
    BreaksCancellation (Sample.assessed ++
        [.operations 1 (Sample.ctx 10) (.cancelCall 10000 "Vessel diverted" none)]) Sample.issue := by
  constructor
  · apply breaksCancellation_of_bills <;> decide +kernel
  · apply breaksCancellation_of_bills <;> decide +kernel

end VesselCaller.Operations
