import VesselCaller.Measurements.ChargeRule
import VesselCaller.Billing.Configuration

/-!
# What the plan payload shows as billable

`plan_data` derives `superseded` from the positions of assessments and reconciliations
in their lists; `issue_assessment` checks recency, status, reconciliation and prior
amounts one by one.  The two agree, because in every reachable state a ready assessment
has a positive total, an assessment is issued exactly when it has an invoice, and the
workflow has a step for the invoice to start in.

Amendments, several assessments of one reconciliation, voided invoices and repeated
requests are all events of the runs.

## Main definitions

* `Accounted` — the invariant of assessments and their invoices;
* `Invoiced` — some invoice bills the assessment;
* `Billed` — the payload shows it as billable.
-/

namespace VesselCaller.Measurements

open Lib Accounts Billing Operations

variable {sha : Sha256} {kind : RequestKind} {t t' : Tenant} {p p' : MeasurementPlan}

/-! ## Assessments and their invoices -/

/-- Some invoice bills the assessment. -/
def Invoiced (invoices : List Invoice) (assessment : Id) : Prop :=
  ∃ i ∈ invoices, i.assessmentId = some assessment

theorem invoiceOf_eq_none_iff {invoices : List Invoice} {assessment : Id} :
    invoiceOf invoices assessment = none ↔ ¬Invoiced invoices assessment := by
  simp [invoiceOf, Invoiced]

theorem invoiced_cons {i : Invoice} {invoices : List Invoice} {assessment : Id} :
    Invoiced (i :: invoices) assessment ↔
      i.assessmentId = some assessment ∨ Invoiced invoices assessment := by
  simp [Invoiced]

/-- Writing an invoice back under the same assessment changes no assessment's standing. -/
theorem invoiced_put {i i' : Invoice} {invoices : List Invoice} {assessment : Id}
    (hkeys : (Table.keys invoices).Nodup) (hi : i ∈ invoices) (hid : i'.id = i.id)
    (hassessment : i'.assessmentId = i.assessmentId) :
    Invoiced (Table.put i' invoices) assessment ↔ Invoiced invoices assessment := by
  constructor
  · rintro ⟨j, hj, ha⟩
    obtain rfl | ⟨hj, _⟩ := Table.mem_put hj
    · exact ⟨i, hi, hassessment ▸ ha⟩
    · exact ⟨j, hj, ha⟩
  · rintro ⟨j, hj, ha⟩
    by_cases hk : j.id = i.id
    · obtain rfl := Table.eq_of_key_eq hkeys hj hi hk
      exact ⟨i', Table.mem_put_self hj hid.symm, hassessment.trans ha⟩
    · exact ⟨j, Table.mem_put_of_ne hj fun h => hk (h.trans hid), ha⟩

/-- An assessment is written as held, ready or without charge. -/
theorem Assessment.Judged.ne_issued {a : Assessment} (h : a.Judged) : a.status ≠ .issued := by
  intro hissued
  by_cases hclear : ∀ l ∈ a.lines, 0 ≤ l.variance ∧ 0 ≤ l.amount
  · obtain hpositive | hpositive := lt_or_ge 0 a.total
    · simp [h.ready.mpr ⟨hclear, hpositive⟩] at hissued
    · simp [h.noCharge.mpr ⟨hclear, hpositive⟩] at hissued
  · push Not at hclear
    obtain ⟨l, hl, hneg⟩ := hclear
    have hheld : a.status = .held := by
      refine h.held.mpr ⟨l, hl, ?_⟩
      obtain hvariance | hvariance := lt_or_ge l.variance 0
      · exact .inl hvariance
      · exact .inr (hneg hvariance)
    simp [hheld] at hissued

/-- The invariant: books in order, a workflow to bill into, positive totals behind
ready assessments, and the issued assessments those with an invoice, one each. -/
structure Accounted (t : Tenant) : Prop where
  books : Books t
  workflow : Workflow t.steps
  positive : ∀ p ∈ t.plans, ∀ a ∈ p.assessments, a.status = .ready → 0 < a.total
  issued : ∀ p ∈ t.plans, ∀ a ∈ p.assessments, a.status = .issued ↔ Invoiced t.invoices a.id
  unique : ∀ i ∈ t.invoices, ∀ j ∈ t.invoices, ∀ a, i.assessmentId = some a →
    j.assessmentId = some a → i = j

theorem Accounted.ofInitial (h : t.Initial) : Accounted t where
  books := .ofInitial h
  workflow := by
    obtain ⟨ctx, hsteps⟩ := h.steps
    exact .ofProvisioned hsteps
  positive := by simp [h.plans]
  issued := by simp [h.plans]
  unique := by simp [h.invoices]

theorem Accounted.positive_step (h : Accounted t) (he : Effect sha kind t t') :
    ∀ p ∈ t'.plans, ∀ a ∈ p.assessments, a.status = .ready → 0 < a.total :=
  forall_assessments he (fun _ ha hready => (ha.judged.ready.mp hready).2)
    (fun _ _ hready => by cases hready) h.positive

theorem Accounted.issued_step (h : Accounted t) (he : Effect sha kind t t') :
    ∀ p ∈ t'.plans, ∀ a ∈ p.assessments, a.status = .issued ↔ Invoiced t'.invoices a.id := by
  intro p hp
  cases he with
  | quiet plans invoices =>
      rw [invoices]
      exact h.issued p (plans ▸ hp)
  | created q hnew _ plans invoices =>
      rw [invoices]
      rw [plans, List.mem_append, List.mem_singleton] at hp
      obtain hp | rfl := hp
      · exact h.issued p hp
      · simp [hnew.assessments]
  | mutated q q' hq _ hassessments _ plans invoices =>
      rw [invoices]
      rw [plans] at hp
      obtain rfl | ⟨hp, _⟩ := Table.mem_put hp
      · intro a ha
        change a ∈ q'.assessments at ha
        obtain hsame | ⟨b, hb⟩ := hassessments
        · exact h.issued q hq a (hsame ▸ ha)
        · rw [hb.plan] at ha
          obtain ha | ha := List.mem_append.mp ha
          · exact h.issued q hq a ha
          · obtain rfl := List.mem_singleton.mp ha
            refine iff_of_false hb.isWritten.judged.ne_issued ?_
            rintro ⟨i, hi, hassessment⟩
            obtain ⟨x, hx, hax⟩ := h.books.references i hi a.id hassessment
            exact hb.fresh (List.mem_flatMap.mpr ⟨x, hx, hax⟩)
      · exact h.issued p hp
  | kept q q' hq hu _ plans invoices =>
      rw [invoices]
      rw [plans] at hp
      obtain rfl | ⟨hp, _⟩ := Table.mem_put hp
      · rw [upkeep_assessments hu]
        exact h.issued q hq
      · exact h.issued p hp
  | issued q q' a i hq hi _ plans invoices =>
      rw [invoices]
      rw [plans] at hp
      -- the invoice is of `a` alone, which is in the plan `q` alone
      have hother : ∀ b : Assessment, b.id ≠ a.id →
          (Invoiced (i :: t.invoices) b.id ↔ Invoiced t.invoices b.id) := by
        intro b hne
        rw [invoiced_cons, hi.assessmentId, Option.some.injEq]
        exact or_iff_right hne.symm
      obtain rfl | ⟨hp, hne⟩ := Table.mem_put hp
      · intro b hb
        change b ∈ q'.assessments at hb
        rw [hi.plan] at hb
        obtain rfl | ⟨hb, hne⟩ := Table.mem_put hb
        · exact iff_of_true rfl (invoiced_cons.mpr (.inl hi.assessmentId))
        · rw [hother b hne]
          exact h.issued q hq b hb
      · intro b hb
        have hid : q'.id = q.id := by rw [hi.plan]
        have hdiffers : b.id ≠ a.id := by
          intro heq
          refine hne (Eq.trans ?_ hid.symm)
          exact h.books.ownAssessments p hp q hq a.id
            (Table.mem_keys.mpr ⟨b, hb, heq⟩) (Table.mem_keys.mpr ⟨a, hi.assessment, rfl⟩)
        rw [hother b hdiffers]
        exact h.issued p hp b hb
  | billed i _ _ hnone plans invoices =>
      rw [invoices]
      intro a ha
      rw [invoiced_cons, hnone, or_iff_right (by simp)]
      exact h.issued p (plans ▸ hp) a ha
  | settled i i' hi charge _ plans invoices =>
      rw [invoices]
      intro a ha
      rw [invoiced_put h.books.invoiceKeys hi charge.id charge.assessmentId]
      exact h.issued p (plans ▸ hp) a ha

theorem Accounted.unique_step (h : Accounted t) (he : Effect sha kind t t') :
    ∀ i ∈ t'.invoices, ∀ j ∈ t'.invoices, ∀ a, i.assessmentId = some a →
      j.assessmentId = some a → i = j := by
  -- a new invoice bills an assessment no other invoice bills
  have hcons : ∀ i : Invoice, (∀ j ∈ t.invoices, ∀ a, i.assessmentId = some a →
      j.assessmentId ≠ some a) → ∀ j ∈ i :: t.invoices, ∀ k ∈ i :: t.invoices, ∀ a,
        j.assessmentId = some a → k.assessmentId = some a → j = k := by
    intro i hnew j hj k hk a hja hka
    obtain rfl | hold := List.mem_cons.mp hj <;> obtain rfl | hold' := List.mem_cons.mp hk
    · rfl
    · exact absurd hka (hnew k hold' a hja)
    · exact absurd hja (hnew j hold a hka)
    · exact h.unique j hold k hold' a hja hka
  cases he with
  | quiet _ invoices => exact invoices ▸ h.unique
  | created _ _ _ _ invoices => exact invoices ▸ h.unique
  | mutated _ _ _ _ _ _ _ invoices => exact invoices ▸ h.unique
  | kept _ _ _ _ _ _ invoices => exact invoices ▸ h.unique
  | issued q q' a i _ hi _ _ invoices =>
      rw [invoices]
      refine hcons i fun j hj b hb => ?_
      rw [hi.assessmentId, Option.some.injEq] at hb
      exact hb ▸ hi.uninvoiced j hj
  | billed i _ _ hnone _ invoices =>
      rw [invoices]
      refine hcons i fun j _ b hb => ?_
      simp [hnone] at hb
  | settled i i' hi charge _ _ invoices =>
      rw [invoices]
      intro j hj k hk a hja hka
      obtain rfl | ⟨hold, hne⟩ := Table.mem_put hj <;>
        obtain rfl | ⟨hold', hne'⟩ := Table.mem_put hk
      · rfl
      · rw [charge.assessmentId] at hja
        obtain rfl := h.unique i hi k hold' a hja hka
        exact absurd charge.id.symm hne'
      · rw [charge.assessmentId] at hka
        obtain rfl := h.unique i hi j hold a hka hja
        exact absurd charge.id.symm hne
      · exact h.unique j hold k hold' a hja hka

theorem handleEvent_workflow {e : Event} {a : Option VesselCaller.Response}
    (hw : Workflow t.steps) (h : handleEvent sha t e = .ok (t', a)) : Workflow t'.steps := by
  cases e with
  | request r =>
      simp only [handleEvent, bind_eq_ok, pure_eq_ok, Prod.exists, Prod.mk.injEq] at h
      obtain ⟨_, _, hr, rfl, _⟩ := h
      obtain hsteps | ⟨c, t₁, hc, hsteps⟩ := handle_configures hw hr
      · exact hsteps ▸ hw
      · exact hsteps ▸ configure_workflow hw hc
  | void invoiceId ctx source actor note =>
      simp only [handleEvent, bind_eq_ok, pure_eq_ok, Prod.exists, Prod.mk.injEq] at h
      obtain ⟨_, _, _, _, _, rfl, _⟩ := h
      exact hw

theorem Accounted.step {e : Event} {a : Option VesselCaller.Response} (h : Accounted t)
    (hok : handleEvent sha t e = .ok (t', a)) : Accounted t' where
  books := h.books.effect (handleEvent_effect hok)
  workflow := handleEvent_workflow h.workflow hok
  positive := h.positive_step (handleEvent_effect hok)
  issued := h.issued_step (handleEvent_effect hok)
  unique := h.unique_step (handleEvent_effect hok)

theorem Accounted.run {t₀ : Tenant} (h : Accounted t₀) (es : List Event) :
    Accounted (run (handleEvent sha) t₀ es) :=
  run_invariant (fun hs he => hs.step he) es h

/-! ## The payload and the service -/

/-- The payload shows the assessment as billable: ready, neither superseded nor
invoiced, on a plan that is not cancelled, of a reconciliation shown as final, and its
lines show the amounts that were invoiced before. -/
structure Billed (data : PlanData) (invoiced : Id → Decimal 2) (d : AssessmentData) : Prop where
  live : data.context.status ≠ .cancelled
  mem : d ∈ data.assessments
  ready : d.status = .ready
  current : d.superseded = false
  open' : d.invoiceId = none
  final : ∃ r ∈ data.reconciliations, r.1.id = d.reconciliationId ∧ r.1.status = .final
  prior : ∀ l ∈ d.lines, invoiced l.lineId = l.priorInvoicedAmount

variable {ctx : Ctx} {actor : Id} {a : Assessment}

/-- **What the service demands.**  With a step for the invoice to start in and a fresh
key, an uninvoiced assessment of a plan can be issued at the plan's version as soon as
these hold. -/
theorem issueAssessment_of (hw : Workflow t.steps) (hfresh : ctx.uuid 1 ∉ Table.keys t.invoices)
    (hkeys : (Table.keys p.assessments).Nodup) (ha : a ∈ p.assessments)
    (hnone : ¬Invoiced t.invoices a.id) (hlive : p.status ≠ .cancelled)
    (hbillable : ∃ r, Table.get a.reconciliationId p.reconciliations = some r ∧
      r.status = .final ∧ p.latestReconciliation.map Reconciliation.id = some r.id)
    (hlatest : p.assessments.getLast?.map Assessment.id = some a.id)
    (hready : a.status = .ready) (hpositive : 0 < a.total)
    (hprior : ∀ l ∈ a.lines, priorInvoiced t.invoices p l.lineId = l.priorInvoicedAmount) :
    ∃ t' i, issueAssessment t ctx actor p a.id p.version = .ok (t', i) ∧
      t'.invoices = i :: t.invoices := by
  obtain ⟨r, hr, hfinal, hcurrent⟩ := hbillable
  obtain ⟨step, _, _, hstep⟩ := hw.activeDefaultStep ctx
  obtain ⟨entered, hentered⟩ := transitionInvoice_isOk ctx t.steps
    (disparityInvoice ctx t.settings p a (nextNumber ctx t.sequences .invoice "INV").1)
    (some step) (some actor) "" (show EventSource.created ≠ .manual by decide)
  have hissue : ∃ t' i, issueAssessment t ctx actor p a.id p.version = .ok (t', i) := by
    refine exists_of_isOk ?_
    have hget : Table.get a.id p.assessments = some a := Table.get_of_mem hkeys ha
    unfold issueAssessment
    rw [orRaise_of_some hget, ok_bind, invoiceOf_eq_none_iff.mpr hnone]
    dsimp only
    unfold issueReady
    rw [checkVersion_eq_ok (r := ()) |>.mpr ⟨rfl, hlive⟩, ok_bind, orRaise_of_some hr, ok_bind,
      ensureBillableFinal_eq_ok (u := ()) |>.mpr ⟨hfinal, hcurrent⟩, ok_bind,
      raiseIf_of_not (not_not.mpr hlatest), ok_bind,
      raiseIf_of_not (by rw [not_or]; exact ⟨not_not.mpr hready, not_le.mpr hpositive⟩), ok_bind,
      raiseIf_of_not ?_, ok_bind]
    · dsimp only
      rw [insertKey_eq_ok (r := ()) |>.mpr hfresh, ok_bind, hstep, ok_bind, hentered, ok_bind]
      rfl
    · simpa using hprior
  obtain ⟨t', i, hok⟩ := hissue
  refine ⟨t', i, hok, ?_⟩
  obtain ⟨b, _, hid, ⟨hexisting, _⟩ | ⟨_, p', hissued⟩⟩ := issueAssessment_cases hok
  · exact absurd ⟨i, invoiceOf_eq_some hexisting⟩ hnone
  · exact hissued.invoices

/-- What the payload shows of an assessment of the plan. -/
theorem mem_planData (hkeys : (Table.keys p.assessments).Nodup) (ha : a ∈ p.assessments)
    {d : AssessmentData} (hd : d ∈ (t.planData p).assessments) (hid : d.id = a.id) :
    d = assessmentData t.invoices p
      (some a.id ≠ p.assessments.getLast?.map Assessment.id ||
        some a.reconciliationId ≠ p.latestReconciliation.map Reconciliation.id) a := by
  obtain ⟨b, hb, rfl⟩ := List.mem_map.mp hd
  obtain rfl := Table.eq_of_key_eq hkeys hb ha hid
  rfl

theorem mem_planData_reconciliations {rid : Id} :
    (∃ r ∈ (t.planData p).reconciliations, r.1.id = rid ∧ r.1.status = .final) ↔
      ∃ r ∈ p.reconciliations, r.id = rid ∧ r.status = .final := by
  simp [Tenant.planData, planData, reconciliationData]

/-- **The payload shows what can be issued.**  After every run of requests and voidings,
and for every assessment of every plan: issuing it at the plan's version, with a key no
invoice has, creates an invoice exactly when the payload shows it as billable; the
assessment is issued exactly when it has an invoice, and it has one at most. -/
theorem billable_iff_shown {t₀ : Tenant} (h₀ : t₀.Initial) (es : List Event)
    (ht : run (handleEvent sha) t₀ es = t) (hp : p ∈ t.plans) (ha : a ∈ p.assessments) :
    (∀ ctx actor, ctx.uuid 1 ∉ Table.keys t.invoices →
      ((∃ t' i, issueAssessment t ctx actor p a.id p.version = .ok (t', i) ∧
          t'.invoices = i :: t.invoices) ↔
        ∃ d, d.id = a.id ∧ Billed (t.planData p) (priorInvoiced t.invoices p) d)) ∧
    (a.status = .issued ↔ ∃ i ∈ t.invoices, i.assessmentId = some a.id) ∧
    (t.invoices.filter fun i => i.assessmentId = some a.id).length ≤ 1 := by
  have hall : Accounted t := ht ▸ (Accounted.ofInitial h₀).run es
  have hbillable := hall.books.billable p hp
  refine ⟨?_, hall.issued p hp a ha, ?_⟩
  · intro ctx actor hfresh
    constructor
    · rintro ⟨t', i, hok, hcreated⟩
      -- Returning an earlier invoice creates none, so the assessment was issued now.
      obtain ⟨b, hb, hid, ⟨_, rfl⟩ | ⟨_, p', hissued⟩⟩ := issueAssessment_cases hok
      · simp at hcreated
      · obtain rfl := Table.eq_of_key_eq hbillable.keys hb ha hid
        obtain ⟨r, hr, hfinal, hcurrent⟩ := hissued.billable
        obtain ⟨hrmem, hrid⟩ := Table.mem_of_get hr
        have hnone : invoiceOf t.invoices b.id = none := by
          rw [invoiceOf_eq_none_iff]
          rintro ⟨j, hj, hjb⟩
          exact hissued.uninvoiced j hj hjb
        refine ⟨_, rfl, hissued.live, List.mem_map.mpr ⟨b, ha, rfl⟩, hissued.ready, ?_, ?_, ?_, ?_⟩
        · have hlatest := hissued.latest
          have hrecent : p.latestReconciliation.map Reconciliation.id = some b.reconciliationId :=
            hcurrent.trans (congrArg some hrid)
          simp only [MeasurementPlan.latestReconciliation] at hrecent
          simp [assessmentData, hlatest, hrecent]
        · change (invoiceOf t.invoices b.id).map Invoice.id = none
          rw [hnone]
          rfl
        · exact mem_planData_reconciliations.mpr ⟨r, hrmem, hrid, hfinal⟩
        · intro l hl
          obtain ⟨line, hline, rfl⟩ := List.mem_map.mp hl
          exact hissued.current line hline
    · rintro ⟨d, hid, hd⟩
      -- What the page shows is the stored assessment, and its flags are those of the tables.
      obtain rfl := mem_planData hbillable.keys ha hd.mem hid
      have hnone : invoiceOf t.invoices a.id = none := Option.map_eq_none_iff.mp hd.open'
      have hcurrent := hd.current
      simp only [assessmentData, hnone, Option.isNone_none, Bool.and_true, Bool.or_eq_false_iff,
        decide_eq_false_iff_not, not_not] at hcurrent
      obtain ⟨r, hr, hrid, hfinal⟩ := mem_planData_reconciliations.mp hd.final
      have hget : Table.get a.reconciliationId p.reconciliations = some r :=
        Eq.trans (congrArg (Table.get · p.reconciliations) hrid.symm)
          (Table.get_of_mem (hall.books.plans.lifecycle p hp).keys hr)
      refine issueAssessment_of hall.workflow hfresh hbillable.keys ha
        (invoiceOf_eq_none_iff.mp hnone) hd.live ⟨r, hget, hfinal, ?_⟩ hcurrent.1.symm hd.ready
        (hall.positive p hp a ha hd.ready) fun l hl => ?_
      · rw [← hcurrent.2]
        exact congrArg some hrid.symm
      · exact hd.prior _ (List.mem_map_of_mem hl)
  -- At most one invoice carries the assessment, whether or not it was voided.
  · have hnodup : t.invoices.Nodup := List.Nodup.of_map _ hall.books.invoiceKeys
    refine length_le_one_of_forall_eq (hnodup.filter _) fun i hi j hj => ?_
    simp only [List.mem_filter, decide_eq_true_eq] at hi hj
    exact hall.unique i hi.1 j hj.1 a.id hi.2 hj.2

/-- The assessment of the sample history is shown as billable, and issuing it creates
its invoice; once it is invoiced it is not shown any more. -/
theorem billable_iff_shown_sample :
    (∃ t, run (handleEvent Sample.sha) Sample.tenant (Sample.assessed.map .request) = t ∧
      ∃ p ∈ t.plans, ∃ a ∈ p.assessments,
        (∃ t' i, issueAssessment t (Sample.ctx 9) 1 p a.id p.version = .ok (t', i) ∧
          t'.invoices = i :: t.invoices) ∧
        ∃ d, d.id = a.id ∧ Billed (t.planData p) (priorInvoiced t.invoices p) d) ∧
    ∃ t, run (handleEvent Sample.sha) Sample.tenant (Sample.invoiced.map .request) = t ∧
      ∃ p ∈ t.plans, ∃ a ∈ p.assessments, a.status = .issued ∧
        ∃ i ∈ t.invoices, i.assessmentId = some a.id := by
  refine ⟨⟨_, rfl, ?_⟩, _, rfl, ?_⟩
  · have hplan : ∃ p ∈ (run (handleEvent Sample.sha) Sample.tenant
        (Sample.assessed.map .request)).plans, ∃ a ∈ p.assessments,
          (issueAssessment (run (handleEvent Sample.sha) Sample.tenant
            (Sample.assessed.map .request)) (Sample.ctx 9) 1 p a.id p.version).isOk = true := by
      decide +kernel
    have hempty : (run (handleEvent Sample.sha) Sample.tenant
        (Sample.assessed.map .request)).invoices.length = 0 := by decide +kernel
    obtain ⟨p, hp, a, ha, hok⟩ := hplan
    obtain ⟨t', i, hissue⟩ := exists_of_isOk hok
    have hnone := List.length_eq_zero_iff.mp hempty
    have hcreated : t'.invoices = i :: (run (handleEvent Sample.sha) Sample.tenant
        (Sample.assessed.map .request)).invoices := by
      obtain ⟨b, _, _, ⟨hexisting, _⟩ | ⟨_, p', hissued⟩⟩ := issueAssessment_cases hissue
      · simp [hnone, invoiceOf] at hexisting
      · exact hissued.invoices
    refine ⟨p, hp, a, ha, ⟨t', i, hissue, hcreated⟩, ?_⟩
    refine ((billable_iff_shown Sample.initial _ rfl hp ha).1 (Sample.ctx 9) 1 ?_).mp
      ⟨t', i, hissue, hcreated⟩
    rw [hnone]
    exact List.not_mem_nil
  · have hplan : ∃ p ∈ (run (handleEvent Sample.sha) Sample.tenant
        (Sample.invoiced.map .request)).plans, ∃ a ∈ p.assessments, a.status = .issued := by
      decide +kernel
    obtain ⟨p, hp, a, ha, hissued⟩ := hplan
    exact ⟨p, hp, a, ha, hissued, (billable_iff_shown Sample.initial _ rfl hp ha).2.1.mp hissued⟩

end VesselCaller.Measurements
