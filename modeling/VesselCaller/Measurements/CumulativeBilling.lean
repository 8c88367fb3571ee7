import VesselCaller.Measurements.Lifecycle

/-!
# Cumulative disparity billing

A plan may be billed several times, each time for what its latest assessment entitles
the port to beyond what was billed before.  `priorInvoiced` scans the line items of
the plan's earlier invoices, an assessment records what it found, and issuing checks
that nothing moved since.  So immediately after an issuance the opening position and
the plan's standing invoices together come to the entitlement, line by line, and until
the next issuance they can only fall: invoices are voided, never revived.

`Event` adds the voiding of an invoice to the requests: no endpoint offers it, but
`transition_invoice` without a step does it and the code allows for void invoices
throughout.

## Main definitions

* `Event`, `handleEvent` — requests and the edits of the administration;
* `contribution`, `Charged` — what an invoice adds, and what it charged;
* `Books` — the invariant of plans and invoices.
-/

namespace VesselCaller.Measurements

open Lib Accounts Billing Operations

/-! ## Events -/

/-- A request, or the voiding of an invoice. -/
inductive Event where
  | request (r : Request)
  | void (invoice : Id) (ctx : Ctx) (source : EventSource) (actor : Option Id) (note : String)

def Event.kind : Event → RequestKind
  | .request r => r.kind
  | .void .. => .other

/-- One event.  An invoice becomes void by a transition to no step. -/
def handleEvent (sha : Sha256) (t : Tenant) : Event → Result (Tenant × Option VesselCaller.Response)
  | .request r => do
      let (t, response) ← t.handle sha r
      return (t, some response)
  | .void invoiceId ctx source actor note => do
      let invoice ← getInvoice t invoiceId
      let (invoice, _) ← transitionInvoice ctx t.steps invoice none source actor note
      return (putInvoice t invoice, none)

variable {sha : Sha256} {kind : RequestKind} {t t' : Tenant} {p p' : MeasurementPlan}

/-- A request is an event. -/
theorem handleEvent_request {r : Request} {response : VesselCaller.Response}
    (h : t.handle sha r = .ok (t', response)) :
    handleEvent sha t (.request r) = .ok (t', some response) := by
  rw [handleEvent, h]
  rfl

theorem handleEvent_effect {e : Event} {a : Option VesselCaller.Response}
    (h : handleEvent sha t e = .ok (t', a)) : Effect sha e.kind t t' := by
  cases e with
  | request r =>
      simp only [handleEvent, bind_eq_ok, pure_eq_ok, Prod.exists, Prod.mk.injEq] at h
      obtain ⟨_, _, hr, rfl, _⟩ := h
      exact handle_effect hr
  | void invoiceId ctx source actor note =>
      simp only [handleEvent, bind_eq_ok, pure_eq_ok, Prod.exists, Prod.mk.injEq] at h
      obtain ⟨i, hi, i', recorded, htransition, rfl, _⟩ := h
      refine .settled i i' (getInvoice_eq_ok hi).1 (transitionInvoice_sameCharge htransition).1
        ?_ rfl rfl
      intro hvoid
      obtain ⟨_, rfl, _⟩ | ⟨_, _, rfl⟩ := transitionInvoice_eq_ok htransition
      · exact hvoid
      · rfl

/-- The event creates the invoice of an assessment of the plan. -/
def Issuance (sha : Sha256) (plan : Id) (t : Tenant) (e : Event) : Prop :=
  ∃ actor ctx assessment version,
    e = .request (.measurements actor ctx (.issue plan assessment version)) ∧
      invoiceOf t.invoices assessment = none ∧ ∃ t' a, handleEvent sha t e = .ok (t', a)

/-- An event of the kind of an issuance is a request to issue. -/
theorem Event.eq_of_kind_issue {e : Event} {plan assessment : Id}
    (h : e.kind = .issue plan assessment) : ∃ actor ctx version,
      e = .request (.measurements actor ctx (.issue plan assessment version)) := by
  cases e with
  | void => simp [Event.kind] at h
  | request r =>
      obtain ⟨actor, ctx, version, rfl⟩ := Request.eq_of_kind_issue h
      exact ⟨actor, ctx, version, rfl⟩

/-! ## What the standing invoices charge for a line -/

/-- What one invoice adds to the prior amount of a line of the plan. -/
def contribution (p : MeasurementPlan) (line : Id) (i : Invoice) : Decimal 2 :=
  if i.purpose = .disparity ∧ i.status ≠ .void ∧
      i.assessmentId.any (fun a => a ∈ Table.keys p.assessments) = true
  then chargedFor line i else 0

@[simp] theorem priorInvoiced_nil (p : MeasurementPlan) (line : Id) :
    priorInvoiced [] p line = 0 := rfl

theorem priorInvoiced_cons (p : MeasurementPlan) (line : Id) (i : Invoice) (rest : List Invoice) :
    priorInvoiced (i :: rest) p line = contribution p line i + priorInvoiced rest p line := by
  by_cases h : i.purpose = .disparity ∧ i.status ≠ .void ∧
      i.assessmentId.any (fun a => a ∈ Table.keys p.assessments) = true
  · simp [priorInvoiced, standingInvoices, contribution, h]
  · simp [priorInvoiced, standingInvoices, contribution, h, and_assoc]

/-- What the invoices charge depends on the plan through the assessments they bill. -/
theorem priorInvoiced_congr {invoices : List Invoice} {line : Id}
    (h : ∀ i ∈ invoices, ∀ a, i.assessmentId = some a →
      (a ∈ Table.keys p'.assessments ↔ a ∈ Table.keys p.assessments)) :
    priorInvoiced invoices p' line = priorInvoiced invoices p line := by
  induction invoices with
  | nil => rfl
  | cons i rest ih =>
      have hi : contribution p' line i = contribution p line i := by
        cases ha : i.assessmentId with
        | none => simp [contribution, ha]
        | some a => simp [contribution, ha, h i List.mem_cons_self a ha]
      rw [priorInvoiced_cons, priorInvoiced_cons, hi,
        ih fun j hj => h j (List.mem_cons_of_mem _ hj)]

/-- Writing back an invoice that contributes no more than before raises nothing. -/
theorem priorInvoiced_put_le {invoices : List Invoice} {line : Id} {i' : Invoice}
    (h : ∀ i ∈ invoices, i.id = i'.id → contribution p line i' ≤ contribution p line i) :
    priorInvoiced (Table.put i' invoices) p line ≤ priorInvoiced invoices p line := by
  induction invoices with
  | nil => rfl
  | cons i rest ih =>
      have hrest := ih fun j hj => h j (List.mem_cons_of_mem _ hj)
      have hput : Table.put i' (i :: rest) =
          (if i.id = i'.id then i' else i) :: Table.put i' rest := rfl
      rw [hput, priorInvoiced_cons, priorInvoiced_cons]
      by_cases hk : i.id = i'.id
      · have hhead := h i List.mem_cons_self hk
        simp only [hk, if_true]
        exact add_le_add hhead hrest
      · simp only [hk, if_false]
        exact add_le_add le_rfl hrest

/-! ## Assessments -/

/-- The calculation an assessment holds: one line for each cargo line of the plan,
each charged for what the entitlement leaves open, nothing negative if it is ready. -/
structure Consistent (p : MeasurementPlan) (a : Assessment) : Prop where
  lines : (a.lines.map AssessmentLine.lineId).Perm (Table.keys p.lines)
  amount : ∀ l ∈ a.lines,
    l.amount = l.entitlement - l.openingBilledAmount - l.priorInvoicedAmount
  ready : a.status = .ready → ∀ l ∈ a.lines, 0 ≤ l.amount
  total : a.total = (a.lines.map AssessmentLine.amount).sum

/-- The assessments of a plan: uniquely keyed and consistent, and on a plan whose
structure is locked by a reconciliation. -/
structure Billable (p : MeasurementPlan) : Prop where
  keys : (Table.keys p.assessments).Nodup
  consistent : ∀ a ∈ p.assessments, Consistent p a
  founded : p.assessments ≠ [] → p.reconciliations ≠ []

theorem New.billable (h : New t p) : Billable p where
  keys := by simp [h.assessments]
  consistent := by simp [h.assessments]
  founded := by simp [h.assessments]

/-- Billing depends on the lines, the assessments and whether there are
reconciliations. -/
theorem Billable.congr (h : Billable p) (hlines : p'.lines = p.lines)
    (hassessments : p'.assessments = p.assessments)
    (hreconciliations : p.reconciliations ≠ [] → p'.reconciliations ≠ []) : Billable p' where
  keys := hassessments ▸ h.keys
  consistent := by
    rw [hassessments]
    intro a ha
    obtain ⟨hperm, hamount, hready, htotal⟩ := h.consistent a ha
    exact ⟨hlines ▸ hperm, hamount, hready, htotal⟩
  founded := fun hne => hreconciliations (h.founded (hassessments ▸ hne))

/-- A change of structure happens only on a plan without reconciliations, which
therefore has no assessments. -/
theorem Billable.patched (h : Billable p) (hp : Patched p p') : Billable p' := by
  obtain ⟨_, hlines⟩ | ⟨_, hnone, _⟩ := hp.structure'
  · exact h.congr hlines hp.assessments (hp.reconciliations ▸ id)
  · have hempty : p'.assessments = [] := by
      rw [hp.assessments]
      by_contra hne
      exact h.founded hne hnone
    exact ⟨by simp [hempty], by simp [hempty], by simp [hempty]⟩

theorem mutation_billable (hl : Lifecycle p) (h : Billable p) (mem : p ∈ t.plans)
    (hm : Mutation sha t p p') : Billable p' := by
  cases hm with
  | patched _ hp => exact h.patched hp
  | submitted s hs =>
      rw [hs.plan]
      exact h.congr rfl rfl id
  | guest p₁ s link hs hplan =>
      rw [hplan, hs.plan]
      exact h.congr rfl rfl id
  | proposed actor r hr =>
      rw [hr.plan]
      exact h.congr rfl rfl fun _ => by simp
  | approved r a _ ha =>
      rw [ha.plan]
      exact h.congr rfl rfl fun hne => by simpa [Table.put] using hne
  | finalized ctx actor r r' _ hf =>
      rw [hf.plan]
      exact h.congr rfl rfl fun hne => by simpa [Table.put, supersede] using hne
  | assessed a ha =>
      -- The new assessment is consistent by its calculation.
      have hfresh : a.id ∉ Table.keys p.assessments := fun hmem =>
        ha.fresh (List.mem_flatMap.mpr ⟨p, mem, hmem⟩)
      obtain ⟨r, hr, _⟩ := ha.reconciled
      rw [ha.plan]
      refine ⟨Table.nodup_keys_concat h.keys hfresh, ?_, fun _ => List.ne_nil_of_mem hr⟩
      intro b hb
      obtain hb | hb := List.mem_append.mp hb
      · obtain ⟨hperm, hamount, hready, htotal⟩ := h.consistent b hb
        exact ⟨hperm, hamount, hready, htotal⟩
      · obtain rfl := List.mem_singleton.mp hb
        exact ⟨ha.lines hl.lineKeys, fun l hl => (ha.calculated l hl).amount, ha.ready, ha.total⟩
  | issued t' a i hi =>
      -- The issued assessment changes its status only.
      obtain ⟨hperm, hamount, _, htotal⟩ := h.consistent a hi.assessment
      rw [hi.plan]
      refine ⟨by simpa using h.keys, ?_, fun _ => h.founded (List.ne_nil_of_mem hi.assessment)⟩
      intro b hb
      obtain rfl | ⟨hb, _⟩ := Table.mem_put hb
      · exact ⟨hperm, hamount, fun hready => by simp at hready, htotal⟩
      · obtain ⟨hperm, hamount, hready, htotal⟩ := h.consistent b hb
        exact ⟨hperm, hamount, hready, htotal⟩

theorem upkeep_billable (h : Billable p) (hu : Upkeep p p') : Billable p' := by
  cases hu with
  | links ls hplan _ =>
      subst hplan
      exact h.congr rfl rfl id
  | evidence es hplan =>
      subst hplan
      exact h.congr rfl rfl id

/-- The keys of a plan's assessments grow by a fresh one at most. -/
theorem mutation_assessmentKeys (hm : Mutation sha t p p') :
    Table.keys p'.assessments = Table.keys p.assessments ∨
      ∃ id, id ∉ (t.plans.flatMap fun q => Table.keys q.assessments) ∧
        Table.keys p'.assessments = Table.keys p.assessments ++ [id] := by
  cases hm with
  | patched _ hp => exact .inl (by rw [hp.assessments])
  | submitted s hs => exact .inl (by rw [hs.plan])
  | guest p₁ s link hs hplan => exact .inl (by rw [hplan, hs.plan])
  | proposed actor r hr => exact .inl (by rw [hr.plan])
  | approved r a _ ha => exact .inl (by rw [ha.plan])
  | finalized ctx actor r r' _ hf => exact .inl (by rw [hf.plan])
  | assessed a ha =>
      exact .inr ⟨a.id, ha.fresh, by rw [ha.plan, Table.keys_append]; rfl⟩
  | issued t' a i hi => exact .inl (by rw [hi.plan, Table.keys_put])

theorem upkeep_assessments (hu : Upkeep p p') : p'.assessments = p.assessments := by
  cases hu with
  | links ls hplan _ => rw [hplan]
  | evidence es hplan => rw [hplan]

/-! ## The books of a tenant -/

/-- The assessment belongs to one of the tenant's plans. -/
def HasAssessment (t : Tenant) (a : Id) : Prop :=
  ∃ p ∈ t.plans, a ∈ Table.keys p.assessments

/-- What a disparity invoice charges. -/
structure Charged (i : Invoice) : Prop where
  amounts : ∀ item ∈ i.lineItems, 0 ≤ item.amount
  dues : i.dues = (i.lineItems.map LineItem.amount).sum
  positive : 0 < i.dues

/-- The invariant: plans in order, their assessments consistent and in one plan each;
invoices uniquely keyed, referring to existing assessments, and charging what they say. -/
structure Books (t : Tenant) : Prop where
  plans : PlansInOrder t
  billable : ∀ p ∈ t.plans, Billable p
  ownAssessments : ∀ p ∈ t.plans, ∀ q ∈ t.plans, ∀ a,
    a ∈ Table.keys p.assessments → a ∈ Table.keys q.assessments → p.id = q.id
  invoiceKeys : (Table.keys t.invoices).Nodup
  references : ∀ i ∈ t.invoices, ∀ a, i.assessmentId = some a → HasAssessment t a
  charged : ∀ i ∈ t.invoices, i.purpose = .disparity → Charged i

theorem Books.ofInitial (h : t.Initial) : Books t where
  plans := .ofInitial h
  billable := by simp [h.plans]
  ownAssessments := by simp [h.plans]
  invoiceKeys := by simp [h.invoices]
  references := by simp [h.invoices]
  charged := by simp [h.invoices]

/-- Writing a plan whose assessment keys grew by a fresh one at most. -/
theorem ownAssessments_put
    (hown : ∀ p ∈ t.plans, ∀ q ∈ t.plans, ∀ a,
      a ∈ Table.keys p.assessments → a ∈ Table.keys q.assessments → p.id = q.id)
    (mem : p ∈ t.plans) (hid : p'.id = p.id)
    (hkeys : Table.keys p'.assessments = Table.keys p.assessments ∨
      ∃ id, id ∉ (t.plans.flatMap fun q => Table.keys q.assessments) ∧
        Table.keys p'.assessments = Table.keys p.assessments ++ [id]) :
    ∀ q ∈ Table.put p' t.plans, ∀ q' ∈ Table.put p' t.plans, ∀ a,
      a ∈ Table.keys q.assessments → a ∈ Table.keys q'.assessments → q.id = q'.id := by
  -- An assessment of the written plan that another plan has too was already its own.
  have hshared : ∀ q ∈ t.plans, ∀ a, a ∈ Table.keys p'.assessments →
      a ∈ Table.keys q.assessments → p'.id = q.id := by
    intro q hq a ha ha'
    obtain hsame | ⟨id, hfresh, hgrown⟩ := hkeys
    · exact hid.trans (hown p mem q hq a (hsame ▸ ha) ha')
    · rw [hgrown, List.mem_append, List.mem_singleton] at ha
      obtain ha | rfl := ha
      · exact hid.trans (hown p mem q hq a ha ha')
      · exact absurd (List.mem_flatMap.mpr ⟨q, hq, ha'⟩) hfresh
  intro q hq q' hq' a ha ha'
  obtain heq | ⟨hold, _⟩ := Table.mem_put hq <;> obtain heq' | ⟨hold', _⟩ := Table.mem_put hq'
  · rw [heq, heq']
  · rw [heq] at ha ⊢
    exact hshared q' hold' a ha ha'
  · rw [heq'] at ha' ⊢
    exact (hshared q hold a ha' ha).symm
  · exact hown q hold q' hold' a ha ha'

/-- Writing a plan back loses no assessment if the plan itself does not. -/
theorem HasAssessment.put {a : Id} (h : HasAssessment t a)
    (hkeys : (Table.keys t.plans).Nodup) (mem : p ∈ t.plans) (hid : p'.id = p.id)
    (hsub : ∀ a, a ∈ Table.keys p.assessments → a ∈ Table.keys p'.assessments)
    (hplans : t'.plans = Table.put p' t.plans) : HasAssessment t' a := by
  obtain ⟨q, hq, ha⟩ := h
  unfold HasAssessment
  rw [hplans]
  by_cases hk : q.id = p'.id
  · obtain rfl := Table.eq_of_key_eq hkeys hq mem (hk.trans hid)
    exact ⟨p', Table.mem_put_self hq hk, hsub a ha⟩
  · exact ⟨q, Table.mem_put_of_ne hq hk, ha⟩

/-- **Issuing writes down what the assessment calculated.** -/
theorem Issued.charged {a : Assessment} {i : Invoice} (hi : Issued t t' p p' a i)
    (ha : Consistent p a) : Charged i := by
  have hamounts : i.lineItems.map LineItem.amount = a.lines.map AssessmentLine.amount := by
    rw [hi.lineItems, MeasurementPlan.lineItems, List.map_map]
    rfl
  refine ⟨?_, ?_, ?_⟩
  · intro item hitem
    have hmem : item.amount ∈ a.lines.map AssessmentLine.amount :=
      hamounts ▸ List.mem_map_of_mem hitem
    obtain ⟨l, hl, hamount⟩ := List.mem_map.mp hmem
    exact hamount ▸ ha.ready hi.ready l hl
  · rw [hamounts, hi.dues, ha.total]
  · rw [hi.dues]
    exact hi.positive

/-- No request loses an assessment. -/
theorem HasAssessment.effect {a : Id} (ha : HasAssessment t a) (h : Books t)
    (he : Effect sha kind t t') : HasAssessment t' a := by
  cases he with
  | quiet plans _ => simpa only [HasAssessment, plans] using ha
  | created p _ _ plans _ =>
      obtain ⟨q, hq, hqa⟩ := ha
      exact ⟨q, plans ▸ List.mem_append_left _ hq, hqa⟩
  | mutated p p' mem hm _ _ plans _ =>
      have hid : p'.advance.id = p.id := (mutation_id hm).1
      refine ha.put h.plans.keys mem hid (fun b hb => ?_) plans
      obtain hsame | ⟨id, _, hgrown⟩ := mutation_assessmentKeys hm
      · exact hsame.symm ▸ hb
      · exact hgrown.symm ▸ List.mem_append_left _ hb
  | kept p p' mem hu _ plans _ =>
      refine ha.put h.plans.keys mem (upkeep_id hu).1 (fun b hb => ?_) plans
      rw [upkeep_assessments hu]
      exact hb
  | issued p p' a i mem hi _ plans _ =>
      have hid : p'.advance.id = p.id := by
        rw [MeasurementPlan.advance, hi.plan]
      refine ha.put h.plans.keys mem hid (fun b hb => ?_) plans
      rw [MeasurementPlan.advance, hi.plan, Table.keys_put]
      exact hb
  | billed _ _ _ _ plans _ => simpa only [HasAssessment, plans] using ha
  | settled _ _ _ _ _ plans _ => simpa only [HasAssessment, plans] using ha

/-- No request has two plans share an assessment. -/
theorem Books.ownAssessments_effect (h : Books t) (he : Effect sha kind t t') :
    ∀ p ∈ t'.plans, ∀ q ∈ t'.plans, ∀ a,
      a ∈ Table.keys p.assessments → a ∈ Table.keys q.assessments → p.id = q.id := by
  cases he with
  | quiet plans _ => exact plans ▸ h.ownAssessments
  | created p new _ plans _ =>
      rw [plans]
      intro q hq q' hq' a ha ha'
      -- The new plan has no assessments.
      have hold : ∀ x ∈ t.plans ++ [p], a ∈ Table.keys x.assessments → x ∈ t.plans := by
        intro x hx hax
        obtain hx | hx := List.mem_append.mp hx
        · exact hx
        · rw [List.mem_singleton.mp hx, new.assessments] at hax
          simp at hax
      exact h.ownAssessments q (hold q hq ha) q' (hold q' hq' ha') a ha ha'
  | mutated p p' mem hm _ _ plans _ =>
      have hkeys := mutation_assessmentKeys hm
      have hid : p'.advance.id = p.id := (mutation_id hm).1
      rw [plans]
      exact ownAssessments_put h.ownAssessments mem hid hkeys
  | kept p p' mem hu _ plans _ =>
      rw [plans]
      exact ownAssessments_put h.ownAssessments mem (upkeep_id hu).1
        (.inl (by rw [upkeep_assessments hu]))
  | issued p p' a i mem hi _ plans _ =>
      have hid : p'.advance.id = p.id := by
        rw [MeasurementPlan.advance, hi.plan]
      have hkeys : Table.keys p'.advance.assessments = Table.keys p.assessments := by
        rw [MeasurementPlan.advance, hi.plan, Table.keys_put]
      rw [plans]
      exact ownAssessments_put h.ownAssessments mem hid (.inl hkeys)
  | billed _ _ _ _ plans _ => exact plans ▸ h.ownAssessments
  | settled _ _ _ _ _ plans _ => exact plans ▸ h.ownAssessments

/-- A new invoice has a key of its own. -/
theorem Books.invoiceKeys_effect (h : Books t) (he : Effect sha kind t t') :
    (Table.keys t'.invoices).Nodup := by
  cases he with
  | quiet _ invoices => exact invoices ▸ h.invoiceKeys
  | created _ _ _ _ invoices => exact invoices ▸ h.invoiceKeys
  | mutated _ _ _ _ _ _ _ invoices => exact invoices ▸ h.invoiceKeys
  | kept _ _ _ _ _ _ invoices => exact invoices ▸ h.invoiceKeys
  | issued _ _ _ _ _ hi _ _ invoices =>
      rw [invoices, Table.keys_cons]
      exact List.nodup_cons.mpr ⟨hi.fresh, h.invoiceKeys⟩
  | billed _ fresh _ _ _ invoices =>
      rw [invoices, Table.keys_cons]
      exact List.nodup_cons.mpr ⟨fresh, h.invoiceKeys⟩
  | settled _ _ _ _ _ _ invoices =>
      rw [invoices, Table.keys_put]
      exact h.invoiceKeys

/-- An invoice names the assessment it was issued for, and keeps it. -/
theorem Books.references_effect (h : Books t) (he : Effect sha kind t t') :
    ∀ i ∈ t'.invoices, ∀ a, i.assessmentId = some a → HasAssessment t' a := by
  have hkept : ∀ a, HasAssessment t a → HasAssessment t' a := fun a ha => ha.effect h he
  have hold : ∀ i ∈ t.invoices, ∀ a, i.assessmentId = some a → HasAssessment t' a :=
    fun i hi a ha => hkept a (h.references i hi a ha)
  cases he with
  | quiet _ invoices => exact invoices ▸ hold
  | created _ _ _ _ invoices => exact invoices ▸ hold
  | mutated _ _ _ _ _ _ _ invoices => exact invoices ▸ hold
  | kept _ _ _ _ _ _ invoices => exact invoices ▸ hold
  | issued p _ a _ mem hi _ _ invoices =>
      rw [invoices]
      intro j hj b hb
      obtain rfl | hj := List.mem_cons.mp hj
      · rw [hi.assessmentId, Option.some.injEq] at hb
        exact hkept b ⟨p, mem, Table.mem_keys.mpr ⟨a, hi.assessment, hb⟩⟩
      · exact hold j hj b hb
  | billed _ _ _ assessmentId _ invoices =>
      rw [invoices]
      intro j hj b hb
      obtain rfl | hj := List.mem_cons.mp hj
      · simp [assessmentId] at hb
      · exact hold j hj b hb
  | settled i i' mem charge _ _ invoices =>
      rw [invoices]
      intro j hj b hb
      obtain rfl | ⟨hj, _⟩ := Table.mem_put hj
      · rw [charge.assessmentId] at hb
        exact hold i mem b hb
      · exact hold j hj b hb

/-- What is charged for a disparity is what was assessed, and moving money charges nothing. -/
theorem Books.charged_effect (h : Books t) (he : Effect sha kind t t') :
    ∀ i ∈ t'.invoices, i.purpose = .disparity → Charged i := by
  cases he with
  | quiet _ invoices => exact invoices ▸ h.charged
  | created _ _ _ _ invoices => exact invoices ▸ h.charged
  | mutated _ _ _ _ _ _ _ invoices => exact invoices ▸ h.charged
  | kept _ _ _ _ _ _ invoices => exact invoices ▸ h.charged
  | issued p _ a _ mem hi _ _ invoices =>
      rw [invoices]
      intro j hj hpurpose
      obtain rfl | hj := List.mem_cons.mp hj
      · exact hi.charged ((h.billable p mem).consistent a hi.assessment)
      · exact h.charged j hj hpurpose
  | billed _ _ purpose _ _ invoices =>
      rw [invoices]
      intro j hj hpurpose
      obtain rfl | hj := List.mem_cons.mp hj
      · simp [purpose] at hpurpose
      · exact h.charged j hj hpurpose
  | settled i i' mem charge _ _ invoices =>
      rw [invoices]
      intro j hj hpurpose
      obtain rfl | ⟨hj, _⟩ := Table.mem_put hj
      · rw [charge.purpose] at hpurpose
        obtain ⟨hamounts, hdues, hpositive⟩ := h.charged i mem hpurpose
        exact ⟨charge.lineItems ▸ hamounts, by rw [charge.dues, charge.lineItems, hdues],
          charge.dues ▸ hpositive⟩
      · exact h.charged j hj hpurpose

/-- **The books stay in order**, whatever a request does. -/
theorem Books.effect (h : Books t) (he : Effect sha kind t t') : Books t' where
  plans := h.plans.effect he
  billable := he.forall_plans (fun _ hnew => hnew.billable)
    (fun p _ mem hp hm =>
      (mutation_billable (h.plans.lifecycle p mem) hp mem hm).congr rfl rfl id)
    (fun _ _ _ hp hu => upkeep_billable hp hu) h.billable
  ownAssessments := h.ownAssessments_effect he
  invoiceKeys := h.invoiceKeys_effect he
  references := h.references_effect he
  charged := h.charged_effect he

theorem Books.run {t₀ : Tenant} (h : Books t₀) (es : List Event) :
    Books (run (handleEvent sha) t₀ es) :=
  run_invariant (fun hs he => hs.effect (handleEvent_effect he)) es h

/-! ## One issuance -/

/-- The invoice charges for a line what the assessment calculated for it. -/
theorem Issued.chargedFor {a : Assessment} {i : Invoice} (hi : Issued t t' p p' a i)
    (ha : Consistent p a) (hkeys : (Table.keys p.lines).Nodup) {l : AssessmentLine}
    (hl : l ∈ a.lines) : chargedFor l.lineId i = l.amount := by
  have hnd : (a.lines.map AssessmentLine.lineId).Nodup := ha.lines.nodup_iff.mpr hkeys
  have hitems : i.lineItems.filter (fun item => item.lineId = l.lineId) =
      (a.lines.filter fun x => decide (x.lineId = l.lineId)).map
        (assessmentLineData (((Table.get a.reconciliationId p.reconciliations).map
          fun r => r.snapshot.lines).getD []) p.lines) := by
    rw [hi.lineItems, MeasurementPlan.lineItems, List.filter_map]
    rfl
  rw [Measurements.chargedFor, hitems, filter_eq_singleton hnd hl]
  simp [assessmentLineData]

/-- **Immediately after an issuance** the opening position and the standing invoices
come to the entitlement. -/
theorem Issued.opening_add_priorInvoiced {a : Assessment} {i : Invoice}
    (hi : Issued t t' p p' a i) (ha : Consistent p a) (hkeys : (Table.keys p.lines).Nodup)
    {l : AssessmentLine} (hl : l ∈ a.lines) :
    l.openingBilledAmount + priorInvoiced t'.invoices p'.advance l.lineId = l.entitlement := by
  have hassessments : Table.keys p'.advance.assessments = Table.keys p.assessments := by
    rw [MeasurementPlan.advance, hi.plan, Table.keys_put]
  have hmem : a.id ∈ Table.keys p'.advance.assessments := by
    rw [hassessments]
    exact Table.mem_keys.mpr ⟨a, hi.assessment, rfl⟩
  have hnew : contribution p'.advance l.lineId i = l.amount := by
    rw [contribution, if_pos ⟨hi.purpose, by simp [hi.status], by simp [hi.assessmentId, hmem]⟩]
    exact hi.chargedFor ha hkeys hl
  have hold : priorInvoiced t.invoices p'.advance l.lineId = l.priorInvoicedAmount := by
    rw [← hi.current l hl]
    exact priorInvoiced_congr fun _ _ _ _ => by rw [hassessments]
  have hamount := ha.amount l hl
  rw [hi.invoices, priorInvoiced_cons, hnew, hold, hamount, sub_add_cancel, add_sub_cancel]

/-! ## Between issuances -/

/-- A voided or settled invoice contributes no more than it did. -/
theorem contribution_le {i i' : Invoice} {line : Id} (charge : SameCharge i i')
    (void : i.status = .void → i'.status = .void) (hi : i.purpose = .disparity → Charged i) :
    contribution p line i' ≤ contribution p line i := by
  unfold contribution
  rw [charge.purpose, charge.assessmentId, Measurements.chargedFor, charge.lineItems,
    ← Measurements.chargedFor]
  split
  · rename_i h
    rw [if_pos ⟨h.1, fun hvoid => h.2.1 (void hvoid), h.2.2⟩]
  · split
    · rename_i h
      refine List.sum_nonneg fun amount hamount => ?_
      obtain ⟨item, hitem, rfl⟩ := List.mem_map.mp hamount
      exact (hi h.1).amounts item (List.mem_filter.mp hitem).1
    · exact le_rfl

/-- The invoices there are refer to assessments there are, so a change of the plan
does not change what they charge. -/
theorem Books.priorInvoiced_plan (h : Books t) {lifecycle : Bool}
    (hstep : PlanStep sha lifecycle t p p') (line : Id) :
    priorInvoiced t.invoices p' line = priorInvoiced t.invoices p line := by
  refine priorInvoiced_congr fun i hi a ha => ?_
  cases hstep with
  | stayed heq => rw [heq]
  | kept hu _ => rw [upkeep_assessments hu]
  | mutated q hm _ hadvanced =>
      subst hadvanced
      obtain hsame | ⟨id, hfresh, hgrown⟩ := mutation_assessmentKeys hm
      · rw [MeasurementPlan.advance, hsame]
      · obtain ⟨q', hq', ha'⟩ := h.references i hi a ha
        have hne : a ≠ id := by
          rintro rfl
          exact hfresh (List.mem_flatMap.mpr ⟨q', hq', ha'⟩)
        rw [MeasurementPlan.advance, hgrown, List.mem_append, List.mem_singleton]
        exact ⟨fun hor => hor.resolve_right hne, .inl⟩

/-- **Until the next issuance** on the plan, what its standing invoices charge for a
line only falls. -/
theorem Books.priorInvoiced_le (h : Books t) (he : Effect sha kind t t') {plan : Id}
    (hget : Table.get plan t.plans = some p) (hget' : Table.get plan t'.plans = some p')
    (hother : ∀ a, kind = .issue plan a → invoiceOf t.invoices a ≠ none) (line : Id) :
    priorInvoiced t'.invoices p' line ≤ priorInvoiced t.invoices p line := by
  have hplan : priorInvoiced t.invoices p' line = priorInvoiced t.invoices p line := by
    obtain ⟨q, hq, hstep⟩ := he.plan h.plans.keys hget
    obtain rfl : p' = q := Option.some.inj (hget'.symm.trans hq)
    exact h.priorInvoiced_plan hstep line
  have hbooks : Books t' := h.effect he
  rw [← hplan]
  cases he with
  | quiet _ invoices => rw [invoices]
  | created _ _ _ _ invoices => rw [invoices]
  | mutated _ _ _ _ _ _ _ invoices => rw [invoices]
  | kept _ _ _ _ _ _ invoices => rw [invoices]
  | issued q q' a i hq hi own plans invoices =>
      have hne : q.id ≠ plan := by
        rintro rfl
        refine hother a.id own (List.find?_eq_none.mpr fun j hj => ?_)
        simpa using hi.uninvoiced j hj
      -- The assessment just invoiced belongs to another plan.
      have hnotmem : a.id ∉ Table.keys p'.assessments := by
        intro ha
        have hq' : q'.advance ∈ t'.plans := by
          rw [plans]
          exact Table.mem_put_self hq (by rw [MeasurementPlan.advance, hi.plan]; rfl)
        have ha' : a.id ∈ Table.keys q'.advance.assessments := by
          rw [MeasurementPlan.advance, hi.plan, Table.keys_put]
          exact Table.mem_keys.mpr ⟨a, hi.assessment, rfl⟩
        obtain ⟨mem', hid'⟩ := Table.mem_of_get hget'
        have heq := hbooks.ownAssessments _ hq' p' mem' a.id ha' ha
        refine hne (Eq.trans ?_ (heq.trans hid'))
        rw [MeasurementPlan.advance, hi.plan]
      rw [invoices, priorInvoiced_cons, contribution, if_neg]
      · simp
      · simp [hi.assessmentId, hnotmem]
  | billed i _ purpose _ _ invoices =>
      rw [invoices, priorInvoiced_cons, contribution, if_neg (by simp [purpose])]
      simp
  | settled i i' hi charge void _ invoices =>
      rw [invoices]
      refine priorInvoiced_put_le fun j hj hk => ?_
      obtain rfl : j = i := Table.eq_of_key_eq h.invoiceKeys hj hi (hk.trans charge.id)
      exact contribution_le charge void (h.charged j hi)

/-- Through a run without another issuance on the plan. -/
theorem Books.priorInvoiced_run (h : Books t) {plan : Id} (hget : Table.get plan t.plans = some p)
    {es : List Event} (hes : Along (handleEvent sha) (fun s e => ¬Issuance sha plan s e) t es)
    (line : Id) : ∃ p', Table.get plan (Lib.run (handleEvent sha) t es).plans = some p' ∧
      priorInvoiced (Lib.run (handleEvent sha) t es).invoices p' line ≤
        priorInvoiced t.invoices p line := by
  have hrun := run_invariant_along (P := fun s => Books s ∧
      ∃ q, Table.get plan s.plans = some q ∧
        priorInvoiced s.invoices q line ≤ priorInvoiced t.invoices p line)
    ?_ es hes ⟨h, p, hget, le_rfl⟩
  · exact hrun.2
  · rintro s e s' a ⟨hs, q, hq, hle⟩ hissue hok
    have heffect := handleEvent_effect hok
    refine ⟨hs.effect heffect, ?_⟩
    obtain ⟨q', hq', _⟩ := heffect.plan hs.plans.keys hq
    refine ⟨q', hq', le_trans (hs.priorInvoiced_le heffect hq hq' ?_ line) hle⟩
    intro assessment hkind hnone
    obtain ⟨actor, ctx, version, rfl⟩ := Event.eq_of_kind_issue hkind
    exact hissue ⟨actor, ctx, assessment, version, rfl, hnone, s', a, hok⟩

/-- What an issuance did. -/
theorem Issuance.issued {plan : Id} {e : Event} (h : Issuance sha plan t e) :
    ∃ p p' a i, Table.get plan t.plans = some p ∧ invoiceOf t.invoices a.id = none ∧
      Issued t (serve (handleEvent sha) t e) p p' a i := by
  obtain ⟨actor, ctx, assessment, version, rfl, hnone, t', r, hok⟩ := h
  rw [serve_of_ok _ hok]
  simp only [handleEvent, Tenant.handle, Op.handle, bind_eq_ok, pure_eq_ok, Prod.exists,
    Prod.mk.injEq] at hok
  obtain ⟨t₁, _, ⟨_, _, t₂, _, ⟨_, _, p, hp, t₃, i, hi, _, _, rfl, _⟩, rfl, _⟩, rfl, _⟩ := hok
  obtain ⟨a, _, rfl, ⟨hinvoice, _⟩ | ⟨_, p', hissued⟩⟩ := issueAssessment_cases hi
  · simp [hnone] at hinvoice
  · exact ⟨p, p', a, i, orRaise_eq_ok.mp hp, hnone, hissued⟩

/-- **No entitlement is billed twice.**  After every run of requests and voidings:
every disparity invoice charges nonnegative line amounts, and its dues are their sum
and positive; and an issuance that follows leaves, for every cargo line of the plan,
opening position and standing invoices that come to the entitlement of the assessment
just issued, and to no more than that after every continuation without another
issuance on the plan. -/
theorem cumulative_disparity_billing (sha : Sha256) {t₀ t : Tenant} (h₀ : t₀.Initial)
    (es : List Event) (ht : run (handleEvent sha) t₀ es = t) :
    (∀ i ∈ t.invoices, i.purpose = .disparity → (∀ item ∈ i.lineItems, 0 ≤ item.amount) ∧
      i.dues = (i.lineItems.map LineItem.amount).sum ∧ 0 < i.dues) ∧
    (∀ plan e, Issuance sha plan t e →
      ∃ p a i, Table.get plan (serve (handleEvent sha) t e).plans = some p ∧
        a ∈ p.assessments ∧ (serve (handleEvent sha) t e).invoices = i :: t.invoices ∧
        i.assessmentId = some a.id ∧ i.dues = a.total ∧
        ∀ line ∈ p.lines, (∃ l ∈ a.lines, l.lineId = line.id) ∧
          ∀ l ∈ a.lines, l.lineId = line.id →
            l.openingBilledAmount +
              priorInvoiced (serve (handleEvent sha) t e).invoices p line.id = l.entitlement ∧
            ∀ after, Along (handleEvent sha) (fun s e' => ¬Issuance sha plan s e')
                (serve (handleEvent sha) t e) after →
              ∃ p', Table.get plan (run (handleEvent sha) t₀ (es ++ e :: after)).plans = some p' ∧
                l.openingBilledAmount +
                  priorInvoiced (run (handleEvent sha) t₀ (es ++ e :: after)).invoices p' line.id ≤
                    l.entitlement) := by
  have hbooks : Books t := ht ▸ (Books.ofInitial h₀).run es
  refine ⟨?_, ?_⟩
  · intro i hi hpurpose
    obtain ⟨hamounts, hdues, hpositive⟩ := hbooks.charged i hi hpurpose
    exact ⟨hamounts, hdues, hpositive⟩
  · intro plan e hissuance
    -- The request issued an assessment of the plan; the books say what was billed before it.
    obtain ⟨p, p', a, i, hget, _, hissued⟩ := hissuance.issued
    obtain ⟨mem, hid⟩ := Table.mem_of_get hget
    have ha := (hbooks.billable p mem).consistent a hissued.assessment
    have hkeys := (hbooks.plans.lifecycle p mem).lineKeys
    have hlines : p'.advance.lines = p.lines := by rw [MeasurementPlan.advance, hissued.plan]
    have hkey : p'.advance.id = plan := by rw [MeasurementPlan.advance, hissued.plan]; exact hid
    have hget' : Table.get plan (serve (handleEvent sha) t e).plans = some p'.advance := by
      rw [hissued.plans, ← hkey]
      exact Table.get_put_self (hkey ▸ hget)
    refine ⟨p'.advance, { a with status := .issued }, i, hget', ?_, hissued.invoices,
      hissued.assessmentId, hissued.dues, ?_⟩
    · rw [MeasurementPlan.advance, hissued.plan]
      exact Table.mem_put_self hissued.assessment rfl
    · intro line hline
      refine ⟨?_, ?_⟩
      · have hmem : line.id ∈ a.lines.map AssessmentLine.lineId := by
          rw [ha.lines.mem_iff]
          exact Table.mem_keys.mpr ⟨line, hlines ▸ hline, rfl⟩
        obtain ⟨l, hl, hlid⟩ := List.mem_map.mp hmem
        exact ⟨l, hl, hlid⟩
      · intro l hl hlid
        -- At the issuance the sums are equal; later requests can only void what was invoiced.
        have hequal := hissued.opening_add_priorInvoiced ha hkeys hl
        rw [hlid] at hequal
        refine ⟨hequal, fun after hafter => ?_⟩
        have hbooks' : Books (serve (handleEvent sha) t e) :=
          serve_invariant (fun hs he => hs.effect (handleEvent_effect he)) hbooks e
        obtain ⟨q, hq, hle⟩ := hbooks'.priorInvoiced_run hget' hafter line.id
        rw [run_append, run_cons, ht]
        refine ⟨q, hq, ?_⟩
        rw [← hequal]
        exact add_le_add le_rfl hle

/-- The disparity of the sample history, 500.00 for its one line, is billed in full by
its one invoice. -/
theorem cumulative_disparity_billing_sample :
    ∃ t, run (handleEvent Sample.sha) Sample.tenant (Sample.assessed.map .request) = t ∧
      ∃ e, Issuance Sample.sha 20000 t e ∧
        ∃ p, Table.get 20000 (serve (handleEvent Sample.sha) t e).plans = some p ∧
          ∃ l : AssessmentLine, l.entitlement = 50000 ∧ l.openingBilledAmount +
            priorInvoiced (serve (handleEvent Sample.sha) t e).invoices p 20200 =
              l.entitlement := by
  have hissuance : Issuance Sample.sha 20000
      (run (handleEvent Sample.sha) Sample.tenant (Sample.assessed.map .request))
      (.request Sample.issue) := by
    refine ⟨1, Sample.ctx 9, 80000, 6, rfl, by decide +kernel, ?_⟩
    have hok : (handleEvent Sample.sha
        (run (handleEvent Sample.sha) Sample.tenant (Sample.assessed.map .request))
        (.request Sample.issue)).isOk = true := by decide +kernel
    exact exists_of_isOk hok
  obtain ⟨_, hbilled⟩ := cumulative_disparity_billing Sample.sha Sample.initial
    (Sample.assessed.map .request) rfl
  obtain ⟨p, a, i, hp, ha, _, _, _, hlines⟩ := hbilled 20000 _ hissuance
  have hline : ∀ p ∈ (serve (handleEvent Sample.sha)
      (run (handleEvent Sample.sha) Sample.tenant (Sample.assessed.map .request))
      (.request Sample.issue)).plans, (∃ line ∈ p.lines, line.id = 20200) ∧
        ∀ a ∈ p.assessments, ∀ l ∈ a.lines, l.entitlement = 50000 := by decide +kernel
  obtain ⟨⟨line, hmem, hid⟩, hentitlement⟩ := hline p (Table.mem_of_get hp).1
  obtain ⟨⟨l, hl, hlid⟩, hequal⟩ := hlines line hmem
  refine ⟨_, rfl, .request Sample.issue, hissuance, p, hp, l, hentitlement a ha l hl, ?_⟩
  rw [← hid]
  exact (hequal l hl hlid).1

end VesselCaller.Measurements
