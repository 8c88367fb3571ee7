import VesselCaller.Billing.StatusHistory
import VesselCaller.Measurements.AgencyPortal
import VesselCaller.Measurements.References
import VesselCaller.Operations.Inspections

/-!
# Foreign keys

The rows refer to each other by key: an inspection and a plan to their call, an invoice to
its call, its inspection, its assessment and the workflow steps it went through.
`References` is the invariant that all of them are found.

Calls, inspections, plans, assessments and workflow steps are never deleted
(`References.lasting`) and every key that is written was looked up first, so no run leaves a
dangling reference.

## Main definitions

* `References` — the invariant, one field for each foreign key;
* `Lasting` — what a step keeps of the rows that are referred to.
-/

namespace VesselCaller

open Lib Accounts Billing Operations Measurements

variable {sha : Sha256} {t t' : Tenant} {r : Request} {a : Response}

structure References (t : Tenant) : Prop where
  inspections : InspectionsInOrder t
  histories : Histories t
  portal : PortalTables t
  covered : PlansCovered t
  plans : ∀ p ∈ t.plans, PlanReferences p
  planCalls : ∀ p ∈ t.plans, p.vesselCallId ∈ Table.keys t.calls
  invoiceCalls : ∀ i ∈ t.invoices, i.vesselCallId ∈ Table.keys t.calls
  billed : ∀ bill ∈ bills t, ∃ x ∈ t.inspections, x.id = bill.1 ∧ x.vesselCallId = bill.2
  assessed : ∀ i ∈ t.invoices, ∀ id, i.assessmentId = some id →
    ∃ p ∈ t.plans, p.vesselCallId = i.vesselCallId ∧ id ∈ Table.keys p.assessments
  events : ∀ i ∈ t.invoices, ∀ e ∈ i.events, ∀ id, e.fromStep = some id ∨ e.toStep = some id →
    id ∈ Table.keys t.steps

theorem References.ofInitial (h : t.Initial) : References t where
  inspections := .ofInitial h
  histories := .ofInitial h
  portal := .ofInitial h
  covered := .ofInitial h
  plans := by simp [h.plans]
  planCalls := by simp [h.plans]
  invoiceCalls := by simp [h.invoices]
  billed := by simp [bills, h.invoices]
  assessed := by simp [h.invoices]
  events := by simp [h.invoices]

/-! ## Nothing that is named is deleted -/

/-- Every row that others may name is still found in the other tenant. -/
structure Lasting (t t' : Tenant) : Prop where
  calls : ∀ id ∈ Table.keys t.calls, id ∈ Table.keys t'.calls
  inspections : ∀ x ∈ t.inspections, ∃ x' ∈ t'.inspections,
    x'.id = x.id ∧ x'.vesselCallId = x.vesselCallId
  plans : ∀ p ∈ t.plans, ∃ p' ∈ t'.plans, Continues p p'
  steps : ∀ id ∈ Table.keys t.steps, id ∈ Table.keys t'.steps

theorem ledger_steps (h : LedgerStep r t t') :
    ∀ id ∈ Table.keys t.steps, id ∈ Table.keys t'.steps := by
  cases h with
  | untouched steps _ => exact fun _ hid => steps ▸ hid
  | configured hc _ =>
      intro id hid
      obtain ⟨s, hs, hkey⟩ := Table.mem_keys.mp hid
      obtain ⟨s', hs', hid', _⟩ := hc.kept s hs
      exact Table.mem_keys.mpr ⟨s', hs', hid'.trans hkey⟩
  | opened _ _ _ _ _ _ _ _ _ steps _ => exact fun _ hid => steps ▸ hid
  | settled _ _ _ _ steps _ _ => exact fun _ hid => steps ▸ hid

theorem References.lasting (h : References t) (hr : t.handle sha r = .ok (t', a)) :
    Lasting t t' where
  calls _ hid := (handle_calls h.histories.workflow hr).mem_keys hid
  inspections x hx := by
    obtain ⟨x', hx', hfollows⟩ := (handle_inspections h.inspections.calls.ledgers hr).row
      h.inspections hx
    exact ⟨x', hx', hfollows.id, hfollows.call⟩
  plans _ hp := effect_continues (handle_effect hr) h.covered.plans.keys hp
  steps := ledger_steps (handle_ledger h.histories.workflow hr)

/-! ## Every key that is written was looked up -/

/-- A plan is of the call of the plan it was, or of a call that was looked up. -/
theorem effect_called {kind : RequestKind} (h : Effect sha kind t t') {p' : MeasurementPlan}
    (hp' : p' ∈ t'.plans) :
    (∃ p ∈ t.plans, p'.vesselCallId = p.vesselCallId) ∨ p'.vesselCallId ∈ Table.keys t.calls := by
  have hput {p q : MeasurementPlan} (hp : p ∈ t.plans) (hcall : q.vesselCallId = p.vesselCallId)
      (hmem : p' ∈ Table.put q t.plans) : ∃ p ∈ t.plans, p'.vesselCallId = p.vesselCallId := by
    obtain rfl | ⟨hmem, _⟩ := Table.mem_put hmem
    · exact ⟨p, hp, hcall⟩
    · exact ⟨p', hmem, rfl⟩
  cases h with
  | quiet plans _ => exact .inl ⟨p', plans ▸ hp', rfl⟩
  | created p new _ plans _ called =>
      rw [plans] at hp'
      obtain hp' | hp' := List.mem_append.mp hp'
      · exact .inl ⟨p', hp', rfl⟩
      · exact .inr (List.mem_singleton.mp hp' ▸ called)
  | mutated p q mem hm _ _ plans _ =>
      have hcall : q.advance.vesselCallId = p.vesselCallId := (mutation_continues hm).call
      exact .inl (hput mem hcall (plans ▸ hp'))
  | kept p q mem hu _ plans _ =>
      refine .inl (hput mem ?_ (plans ▸ hp'))
      cases hu with
      | links ls hplan => rw [hplan]
      | evidence es hplan => rw [hplan]
  | issued p q b i mem hi _ plans _ =>
      have hcall : q.advance.vesselCallId = p.vesselCallId := by rw [hi.plan]; rfl
      exact .inl (hput mem hcall (plans ▸ hp'))
  | billed _ _ _ _ plans _ => exact .inl ⟨p', plans ▸ hp', rfl⟩
  | settled _ _ _ _ _ plans _ => exact .inl ⟨p', plans ▸ hp', rfl⟩

/-- What a request bills is an inspection of a call that was looked up. -/
theorem call_mem_of_bills {ctx : Ctx} {op : Operations.Op} {call : VesselCall}
    {inspection : Inspection} (h : op.bills t ctx = some (call, inspection)) : call ∈ t.calls := by
  cases op with
  | createInspection data header =>
      simp only [Op.bills] at h
      split at h
      · obtain ⟨c, hc, heq⟩ := Option.map_eq_some_iff.mp h
        obtain ⟨id, _, hget⟩ := Option.bind_eq_some_iff.mp hc
        obtain rfl : c = call := congrArg Prod.fst heq
        exact (Table.mem_of_get hget).1
      · simp at h
  | finalizeInspection id version =>
      simp only [Op.bills] at h
      obtain ⟨x, _, h⟩ := Option.bind_eq_some_iff.mp h
      split at h
      · obtain ⟨c, hget, heq⟩ := Option.map_eq_some_iff.mp h
        obtain rfl : c = call := congrArg Prod.fst heq
        exact (Table.mem_of_get hget).1
      · simp at h
  | _ => simp [Op.bills] at h

theorem References.invoiceCalls_step (h : References t) (hr : t.handle sha r = .ok (t', a)) :
    ∀ i ∈ t'.invoices, i.vesselCallId ∈ Table.keys t'.calls := by
  have hold : ∀ i ∈ t.invoices, i.vesselCallId ∈ Table.keys t'.calls :=
    fun i hi => (h.lasting hr).calls _ (h.invoiceCalls i hi)
  intro i hi
  cases handle_ledger h.histories.workflow hr with
  | untouched _ invoices => exact hold i (invoices ▸ hi)
  | configured _ invoices => exact hold i (invoices ▸ hi)
  | opened j origin _ _ _ _ _ _ _ _ invoices =>
      rw [invoices] at hi
      obtain rfl | hi := List.mem_cons.mp hi
      · refine (h.lasting hr).calls _ ?_
        cases origin with
        | harbour actor ctx op call x _ hbills hbill =>
            exact Table.mem_keys.mpr ⟨call, call_mem_of_bills hbills, hbill.vesselCallId.symm⟩
        | disparity p p' b _ found hissued =>
            rw [hissued.vesselCallId]
            exact h.planCalls p (Table.mem_of_get found).1
      · exact hold i hi
  | settled j j' mem hsettled _ invoices _ =>
      rw [invoices] at hi
      obtain rfl | ⟨hi, _⟩ := Table.mem_put hi
      · rw [hsettled.sameCharge.vesselCallId]
        exact hold j mem
      · exact hold i hi

theorem References.billed_step (h : References t) (hr : t.handle sha r = .ok (t', a)) :
    ∀ bill ∈ bills t', ∃ x ∈ t'.inspections, x.id = bill.1 ∧ x.vesselCallId = bill.2 := by
  have hold : ∀ bill ∈ bills t, ∃ x ∈ t'.inspections, x.id = bill.1 ∧ x.vesselCallId = bill.2 := by
    intro bill hbill
    obtain ⟨x, hx, hid, hcall⟩ := h.billed bill hbill
    obtain ⟨x', hx', hid', hcall'⟩ := (h.lasting hr).inspections x hx
    exact ⟨x', hx', hid'.trans hid, hcall'.trans hcall⟩
  intro bill hbill
  cases handle_inspections h.inspections.calls.ledgers hr with
  | quiet _ same => exact hold bill (same ▸ hbill)
  | drafted _ _ _ _ same => exact hold bill (same ▸ hbill)
  | patched _ _ _ _ _ _ _ _ _ _ _ same => exact hold bill (same ▸ hbill)
  | billed x ctx mem _ _ inspections more =>
      rw [more] at hbill
      obtain rfl | hbill := List.mem_cons.mp hbill
      · exact ⟨x.complete ctx, inspections ▸ Table.mem_put_self mem rfl, rfl, rfl⟩
      · exact hold bill hbill
  | draftedAndBilled x ctx _ _ _ _ inspections more =>
      rw [more] at hbill
      obtain rfl | hbill := List.mem_cons.mp hbill
      · exact ⟨x.complete ctx, inspections ▸ List.mem_cons_self, rfl, rfl⟩
      · exact hold bill hbill

theorem References.assessed_step (h : References t) (hr : t.handle sha r = .ok (t', a)) :
    ∀ i ∈ t'.invoices, ∀ id, i.assessmentId = some id →
      ∃ p ∈ t'.plans, p.vesselCallId = i.vesselCallId ∧ id ∈ Table.keys p.assessments := by
  have hold : ∀ i ∈ t.invoices, ∀ id, i.assessmentId = some id →
      ∃ p ∈ t'.plans, p.vesselCallId = i.vesselCallId ∧ id ∈ Table.keys p.assessments := by
    intro i hi id hid
    obtain ⟨p, hp, hcall, hassessment⟩ := h.assessed i hi id hid
    obtain ⟨p', hp', hcontinues⟩ := (h.lasting hr).plans p hp
    exact ⟨p', hp', hcontinues.call.trans hcall, hcontinues.assessments id hassessment⟩
  intro i hi id hid
  cases handle_effect hr with
  | quiet _ invoices => exact hold i (invoices ▸ hi) id hid
  | created _ _ _ _ invoices => exact hold i (invoices ▸ hi) id hid
  | mutated _ _ _ _ _ _ _ invoices => exact hold i (invoices ▸ hi) id hid
  | kept _ _ _ _ _ _ invoices => exact hold i (invoices ▸ hi) id hid
  | issued p q b j mem hissued _ plans invoices =>
      rw [invoices] at hi
      obtain rfl | hi := List.mem_cons.mp hi
      · obtain rfl : b.id = id := Option.some.inj (hissued.assessmentId.symm.trans hid)
        have hq : q.advance ∈ t'.plans := by
          rw [plans]
          exact Table.mem_put_self mem (by rw [hissued.plan]; rfl)
        refine ⟨q.advance, hq, ?_, ?_⟩
        · rw [hissued.vesselCallId, hissued.plan]
          rfl
        · rw [hissued.plan]
          show b.id ∈ Table.keys (Table.put _ p.assessments)
          rw [Table.keys_put]
          exact Table.mem_keys.mpr ⟨b, hissued.assessment, rfl⟩
      · exact hold i hi id hid
  | billed j _ _ hnone _ invoices =>
      rw [invoices] at hi
      obtain rfl | hi := List.mem_cons.mp hi
      · simp [hnone] at hid
      · exact hold i hi id hid
  | settled j j' mem charge _ _ invoices =>
      rw [invoices] at hi
      obtain rfl | ⟨hi, _⟩ := Table.mem_put hi
      · rw [charge.vesselCallId]
        exact hold j mem id (charge.assessmentId ▸ hid)
      · exact hold i hi id hid

/-- Both ends of an event are steps an invoice stood in. -/
theorem References.events_step (h : References t) (hr : t.handle sha r = .ok (t', a)) :
    ∀ i ∈ t'.invoices, ∀ e ∈ i.events, ∀ id, e.fromStep = some id ∨ e.toStep = some id →
      id ∈ Table.keys t'.steps := by
  have hold : ∀ i ∈ t.invoices, ∀ e ∈ i.events, ∀ id,
      e.fromStep = some id ∨ e.toStep = some id → id ∈ Table.keys t'.steps :=
    fun i hi e he id hid => (h.lasting hr).steps id (h.events i hi e he id hid)
  have hstands {s : Tenant} (hs : Histories s) {i : Invoice} (hi : i ∈ s.invoices) {id : Id}
      (hid : i.currentStatus = some id) : id ∈ Table.keys s.steps := by
    obtain ⟨step, hstep, hcurrent, _⟩ := (hs.ledger i hi).stands
    exact Table.mem_keys.mpr ⟨step, hstep, Option.some.inj (hcurrent.symm.trans hid)⟩
  have hnext : Histories t' := h.histories.step hr
  intro i hi e he id hid
  have hnow {id : Id} (hid : i.currentStatus = some id) : id ∈ Table.keys t'.steps :=
    hstands hnext hi hid
  cases handle_ledger h.histories.workflow hr with
  | untouched _ invoices => exact hold i (invoices ▸ hi) e he id hid
  | configured _ invoices => exact hold i (invoices ▸ hi) e he id hid
  | opened j origin _ _ _ _ _ _ _ _ invoices =>
      rw [invoices] at hi
      obtain rfl | hi := List.mem_cons.mp hi
      · obtain ⟨e', hevents, hfrom, hto⟩ := origin.opening
        rw [hevents] at he
        obtain rfl := List.mem_singleton.mp he
        rw [hfrom, hto] at hid
        exact hnow (hid.resolve_left (by simp))
      · exact hold i hi e he id hid
  | settled j j' mem hsettled _ invoices _ =>
      rw [invoices] at hi
      obtain rfl | ⟨hi, _⟩ := Table.mem_put hi
      · cases hsettled.log h.histories.workflow (h.histories.ledger j mem) with
        | stayed _ events => exact hold j mem e (events ▸ he) id hid
        | moved e' source target _ events =>
            rw [events] at he
            obtain he | he := List.mem_append.mp he
            · exact hold j mem e he id hid
            · obtain rfl := List.mem_singleton.mp he
              obtain hid | hid := hid
              · exact (h.lasting hr).steps id (hstands h.histories mem (source.symm.trans hid))
              · exact hnow (target.symm.trans hid)
      · exact hold i hi e he id hid

/-! ## Runs -/

theorem References.step (h : References t) (hr : t.handle sha r = .ok (t', a)) :
    References t' where
  inspections := h.inspections.step hr
  histories := h.histories.step hr
  portal := h.portal.step hr
  covered := h.covered.step hr
  plans := (handle_effect hr).forall_plans (fun _ hnew => hnew.references)
    (fun _ _ _ hp hm => (mutation_references hm hp).advance)
    (fun _ _ _ hp hu => upkeep_references hu hp) h.plans
  planCalls p' hp' := by
    obtain ⟨p, hp, hcall⟩ | hcalled := effect_called (handle_effect hr) hp'
    · rw [hcall]
      exact (h.lasting hr).calls _ (h.planCalls p hp)
    · exact (h.lasting hr).calls _ hcalled
  invoiceCalls := h.invoiceCalls_step hr
  billed := h.billed_step hr
  assessed := h.assessed_step hr
  events := h.events_step hr

theorem References.run (h : References t) (rs : List Request) :
    References (run (Tenant.handle sha) t rs) :=
  run_invariant (fun hs hr => hs.step hr) rs h

/-- **No run leaves a dangling reference.**  In every reachable state: an inspection and a plan
name a call; an invoice names a call, and if it bills an inspection, an inspection of that
call, and if it bills an assessment, an assessment of a plan of that call; the step an
invoice stands in and both ends of each of its events are steps of the workflow.  Within a
plan, a return names a participant and evidence of the plan, a reconciliation names returns
and evidence of it, an approval a participant and evidence, an assessment a reconciliation,
the lines of all three cargo lines of the plan, and a link a participant and, once used, a
return of that participant. -/
theorem no_dangling_reference (sha : Sha256) {t₀ t : Tenant} (h₀ : t₀.Initial)
    (rs : List Request) (ht : Lib.run (Tenant.handle sha) t₀ rs = t) :
    (∀ x ∈ t.inspections, x.vesselCallId ∈ Table.keys t.calls) ∧
    (∀ i ∈ t.invoices, i.vesselCallId ∈ Table.keys t.calls ∧
      (∀ id, i.inspectionId = some id →
        ∃ x ∈ t.inspections, x.id = id ∧ x.vesselCallId = i.vesselCallId) ∧
      (∀ id, i.assessmentId = some id →
        ∃ p ∈ t.plans, p.vesselCallId = i.vesselCallId ∧ id ∈ Table.keys p.assessments) ∧
      (∃ id ∈ Table.keys t.steps, i.currentStatus = some id) ∧
      ∀ e ∈ i.events, ∀ id, e.fromStep = some id ∨ e.toStep = some id →
        id ∈ Table.keys t.steps) ∧
    ∀ p ∈ t.plans, p.vesselCallId ∈ Table.keys t.calls ∧ PlanReferences p ∧ LineReferences p ∧
      (∀ b ∈ p.assessments, b.reconciliationId ∈ Table.keys p.reconciliations) ∧
      ∀ l ∈ p.links, ∀ id, l.submissionId = some id →
        ∃ s ∈ p.submissions, s.id = id ∧ s.participantId = l.participantId := by
  have h : References t := ht ▸ (References.ofInitial h₀).run rs
  refine ⟨h.inspections.called, fun i hi => ⟨h.invoiceCalls i hi, fun id hid => ?_, h.assessed i hi,
    ?_, h.events i hi⟩, fun p hp => ⟨h.planCalls p hp, h.plans p hp,
    (h.covered.coverage p hp).lineReferences, fun b hb => ?_, fun l hl id hid => ?_⟩⟩
  · refine h.billed (id, i.vesselCallId) (List.mem_filterMap.mpr ⟨i, hi, ?_⟩)
    rw [hid]
    rfl
  · obtain ⟨s, hs, hcurrent, _⟩ := (h.histories.ledger i hi).stands
    exact ⟨s.id, Table.mem_keys.mpr ⟨s, hs, rfl⟩, hcurrent⟩
  · obtain ⟨r, hr, hid⟩ := ((h.covered.coverage p hp).assessments b hb).1
    exact Table.mem_keys.mpr ⟨r, hr, hid⟩
  · obtain ⟨s, hs, hsid, hparticipant, _⟩ := (h.portal.order p hp).named l hl id hid
    exact ⟨s, hs, hsid, hparticipant⟩

/-- The invoiced plan of the sample has a return, a reconciliation and an assessment. -/
theorem no_dangling_reference_invoiced :
    ∃ t, Lib.run (Tenant.handle Sample.sha) Sample.tenant Sample.invoiced = t ∧
      (∃ p ∈ t.plans, (Table.keys p.submissions, Table.keys p.reconciliations,
          Table.keys p.assessments) = ([30000], [50000], [80000]) ∧
        PlanReferences p ∧ LineReferences p ∧
        ∀ b ∈ p.assessments, b.reconciliationId ∈ Table.keys p.reconciliations) ∧
      ∃ i ∈ t.invoices, i.assessmentId = some 80000 ∧ i.vesselCallId ∈ Table.keys t.calls ∧
        ∃ p ∈ t.plans, p.vesselCallId = i.vesselCallId ∧ 80000 ∈ Table.keys p.assessments := by
  have hrows : (∃ p ∈ (Lib.run (Tenant.handle Sample.sha) Sample.tenant Sample.invoiced).plans,
      (Table.keys p.submissions, Table.keys p.reconciliations, Table.keys p.assessments) =
        ([30000], [50000], [80000])) ∧
      ∃ i ∈ (Lib.run (Tenant.handle Sample.sha) Sample.tenant Sample.invoiced).invoices,
        i.assessmentId = some 80000 := by decide +kernel
  obtain ⟨⟨p, hp, hkeys⟩, i, hi, hassessed⟩ := hrows
  obtain ⟨_, hinvoices, hplans⟩ :=
    no_dangling_reference Sample.sha Sample.initial Sample.invoiced rfl
  obtain ⟨_, hplan, hlines, hassessments, _⟩ := hplans p hp
  obtain ⟨hcall, _, hassessment, _⟩ := hinvoices i hi
  exact ⟨_, rfl, ⟨p, hp, hkeys, hplan, hlines, hassessments⟩, i, hi, hassessed, hcall,
    hassessment 80000 hassessed⟩

end VesselCaller
