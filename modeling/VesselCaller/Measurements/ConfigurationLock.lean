import VesselCaller.Measurements.Issuable
import Mathlib.Algebra.Order.Field.Basic
import Mathlib.Tactic.Positivity
import Mathlib.Tactic.Ring

/-!
# The billing configuration lock

Once an assessment of a plan is invoiced, `create_assessment` refuses every request
whose configuration differs from the invoiced one.  It compares the text of the
decimals, in the order of the line ids, so the order of the request never matters and
neither does the number of its trailing zeros, which the serializer fixes.  A sign does:
the serializer admits `-0.00`, which is the number zero and is spelled differently.

The issued assessments of a plan all carry one configuration: each was the latest of
its plan when it was issued, and the lock held every one written after it to the same.

## Main definitions

* `configurationLocked` — the comparison of the source;
* `Passes`, `Reaches` — a request that passes it, and one that gets to it;
* `AssessmentInput.Carries`, `AssessmentInput.SignedAs` — the numbers and the signs carried
  forward;
* `Rearranged` — the same request, in another order and spelling.
-/

namespace VesselCaller.Measurements

open Lib Accounts Billing Operations

/-! ## What a request line puts into the configuration -/

/-- The baseline a request line is billed over, when it is known. -/
def AssessmentLineInput.baseline (item : AssessmentLineInput) (r : Reconciliation)
    (policy : Policy) : Option (DecimalText 3) :=
  match policy with
  | .manifestDisparity => (r.lines.find? fun l => l.lineId = item.lineId).bind fun l =>
      l.manifestQuantity.map DecimalText.ofColumn
  | .quantityAdjustment => item.previouslyBilledQuantity

/-- The request line carries the entry forward: the same line and mode, and figures that
are the same numbers. -/
structure AssessmentLineInput.Carries (item : AssessmentLineInput) (r : Reconciliation)
    (policy : Policy) (c : ConfigurationLine) : Prop where
  lineId : item.lineId = c.lineId
  baseline : (item.baseline r policy).map DecimalText.value = some c.baseline.value
  rate : item.rate.value = c.rate.value
  tolerance : item.tolerance.value = c.tolerance.value
  toleranceMode : item.toleranceMode = c.toleranceMode
  openingBilledAmount : item.openingBilledAmount.value = c.openingBilledAmount.value

/-- The figures of the request line have the signs of the entry's.  Between admitted
figures that are the same numbers only the sign of a zero can differ. -/
structure AssessmentLineInput.SignedAs (item : AssessmentLineInput) (r : Reconciliation)
    (policy : Policy) (c : ConfigurationLine) : Prop where
  baseline : (item.baseline r policy).map DecimalText.negative = some c.baseline.negative
  rate : item.rate.negative = c.rate.negative
  tolerance : item.tolerance.negative = c.tolerance.negative
  openingBilledAmount : item.openingBilledAmount.negative = c.openingBilledAmount.negative

/-- The request carries a configuration forward, line by line. -/
structure AssessmentInput.Carries (data : AssessmentInput) (r : Reconciliation)
    (configuration : Configuration) : Prop where
  payer : data.payer = configuration.payer
  currency : data.currency = configuration.currency
  policy : data.policy = configuration.policy
  tariffReference : data.tariffReference = configuration.tariffReference
  openingChargesReference : data.openingChargesReference = configuration.openingChargesReference
  lines : ∀ item ∈ data.lines, ∃ c ∈ configuration.lines, item.Carries r data.policy c

/-- No figure of the request has another sign than the configuration's entry for its
line. -/
def AssessmentInput.SignedAs (data : AssessmentInput) (r : Reconciliation)
    (configuration : Configuration) : Prop :=
  ∀ item ∈ data.lines, ∀ c ∈ configuration.lines, item.lineId = c.lineId →
    item.SignedAs r data.policy c

variable {sha : Sha256} {t t' : Tenant} {ctx : Ctx} {actor : Id} {p p' : MeasurementPlan}
  {r : Reconciliation} {policy : Policy} {data data' : AssessmentInput}
  {cs cs' : List (AssessmentLine × ConfigurationLine)}

section Line

variable {invoices : List Invoice} {item : AssessmentLineInput}
  {c : AssessmentLine × ConfigurationLine} {d : ConfigurationLine}

/-- A line is assessed against the baseline of its policy. -/
theorem assessLine_baseline (h : assessLine invoices p r policy item = .ok c) :
    item.baseline r policy = some c.2.baseline := by
  simp only [assessLine, bind_eq_ok, orRaise_eq_ok, pure_eq_ok] at h
  obtain ⟨line, hline, final, hfinal, baseline, hbaseline, _, _, rfl⟩ := h
  obtain ⟨_, hid⟩ := Table.mem_of_get hline
  cases policy with
  | manifestDisparity =>
      replace hid : line.id = item.lineId := hid
      rw [hid] at hfinal
      simp only [AssessmentLineInput.baseline, hfinal, Option.bind_some]
      exact hbaseline
  | quantityAdjustment => exact hbaseline

/-- The configuration entry holds the request's figures as they are spelled. -/
theorem assessLine_configuration (h : assessLine invoices p r policy item = .ok c) :
    c.2 = ⟨item.lineId, c.2.baseline, item.rate, item.tolerance, item.toleranceMode,
      item.openingBilledAmount⟩ := by
  simp only [assessLine, bind_eq_ok, orRaise_eq_ok, pure_eq_ok] at h
  obtain ⟨line, hline, _, _, _, _, _, _, rfl⟩ := h
  obtain ⟨_, hid⟩ := Table.mem_of_get hline
  rw [← show line.id = item.lineId from hid]

/-- The configuration of a line is that of its own line. -/
theorem assessLine_configuration_lineId (h : assessLine invoices p r policy item = .ok c) :
    c.2.lineId = item.lineId := by
  rw [assessLine_configuration h]

/-- The entry is another one exactly when it is the same in numbers and in signs. -/
theorem assessLine_configuration_eq_iff (h : assessLine invoices p r policy item = .ok c) :
    c.2 = d ↔ item.Carries r policy d ∧ item.SignedAs r policy d := by
  have hbaseline := assessLine_baseline h
  have hc := assessLine_configuration h
  constructor
  · rintro rfl
    rw [hc]
    exact ⟨⟨rfl, by rw [hbaseline]; rfl, rfl, rfl, rfl, rfl⟩, by rw [hbaseline]; rfl, rfl, rfl, rfl⟩
  · rintro ⟨hcarries, hsigned⟩
    have hvalue := hcarries.baseline
    have hnegative := hsigned.baseline
    rw [hbaseline, Option.map_some, Option.some.injEq] at hvalue hnegative
    rw [hc, hcarries.lineId, DecimalText.eq_iff.mpr ⟨hvalue, hnegative⟩,
      DecimalText.eq_iff.mpr ⟨hcarries.rate, hsigned.rate⟩,
      DecimalText.eq_iff.mpr ⟨hcarries.tolerance, hsigned.tolerance⟩, hcarries.toleranceMode,
      DecimalText.eq_iff.mpr ⟨hcarries.openingBilledAmount, hsigned.openingBilledAmount⟩]

end Line

/-! ## Up to the lock and past it -/

/-- The refusal of the lock. -/
def configurationLocked : ApiError :=
  .conflict "The billing configuration is locked after issuance; amendments must carry forward the same baseline, rate, tolerance, payer and opening position"

/-- The request comes as far as the lock: it names the plan's version and its billable
reconciliation, and every line is calculated. -/
structure Reaches (t : Tenant) (p : MeasurementPlan) (data : AssessmentInput) (r : Reconciliation)
    (cs : List (AssessmentLine × ConfigurationLine)) : Prop where
  version : checkVersion p data.version = .ok ()
  reconciliation : getReconciliation p data.reconciliationId = .ok r
  billable : ensureBillableFinal p r = .ok ()
  lines : validateLines p (data.lines.map AssessmentLineInput.fields) = .ok ()
  calculations : data.lines.mapM (assessLine t.invoices p r data.policy) = .ok cs

/-- The configuration of a request with its calculated lines. -/
def AssessmentInput.configuration (data : AssessmentInput)
    (cs : List (AssessmentLine × ConfigurationLine)) : Configuration where
  payer := data.payer
  currency := data.currency
  policy := data.policy
  tariffReference := data.tariffReference
  openingChargesReference := data.openingChargesReference
  lines := sortBy ConfigurationLine.lineId (cs.map Prod.snd)

/-- The assessment written for a request with its calculated lines. -/
def AssessmentInput.assessment (data : AssessmentInput) (ctx : Ctx) (actor : Id)
    (r : Reconciliation) (cs : List (AssessmentLine × ConfigurationLine)) : Assessment where
  id := ctx.uuid 0
  reconciliationId := r.id
  payer := data.payer
  currency := data.currency
  policy := data.policy
  tariffReference := data.tariffReference
  openingChargesReference := data.openingChargesReference
  reason := data.reason
  status := if (cs.map Prod.fst).any AssessmentLine.held then .held
    else if money 0 ((cs.map Prod.fst).map AssessmentLine.amount).sum > 0 then .ready
    else .noCharge
  total := money 0 ((cs.map Prod.fst).map AssessmentLine.amount).sum
  configuration := data.configuration cs
  createdBy := actor
  createdAt := ctx.now
  lines := cs.map Prod.fst

/-- The configuration passes the lock: it is that of the first issued assessment, if
there is one. -/
def Passes (t : Tenant) (p : MeasurementPlan) (configuration : Configuration) : Prop :=
  ∀ b, p.assessments.find? (fun a => (invoiceOf t.invoices a.id).isSome) = some b →
    configuration = b.configuration

/-- Something was configured differently, or nothing was. -/
theorem any_configuration_ne_iff {o : Option Assessment} {configuration : Configuration} :
    o.any (fun a => configuration ≠ a.configuration) = true ↔
      ¬∀ b, o = some b → configuration = b.configuration := by
  cases o with
  | none => simp
  | some a => simp

/-- An assessment is created exactly where the configuration passes. -/
theorem createAssessment_eq_ok_iff : createAssessment t ctx actor p data = .ok p' ↔
    ∃ r cs, Reaches t p data r cs ∧ Passes t p (data.configuration cs) ∧
      |(data.assessment ctx actor r cs).total| < moneyLimit ∧
      ctx.uuid 0 ∉ (t.plans.flatMap fun p => Table.keys p.assessments) ∧
      p' = { p with assessments := p.assessments ++ [data.assessment ctx actor r cs] } := by
  simp only [createAssessment, bind_eq_ok, raiseIf_eq_ok, insertKey_eq_ok, pure_eq_ok,
    any_configuration_ne_iff, not_not, not_le]
  constructor
  · rintro ⟨_, hversion, r, hr, _, hbillable, _, hlines, cs, hcs, _, hpasses, _, htotal, _, hfresh,
      rfl⟩
    exact ⟨r, cs, ⟨hversion, hr, hbillable, hlines, hcs⟩, hpasses, htotal, hfresh, rfl⟩
  · rintro ⟨r, cs, ⟨hversion, hr, hbillable, hlines, hcs⟩, hpasses, htotal, hfresh, rfl⟩
    exact ⟨(), hversion, r, hr, (), hbillable, (), hlines, cs, hcs, (), hpasses, (), htotal, (),
      hfresh, rfl⟩

/-- The lock refuses what does not pass it, and nothing after it raises its refusal. -/
theorem createAssessment_locked_iff (h : Reaches t p data r cs) :
    createAssessment t ctx actor p data = .error configurationLocked ↔
      ¬Passes t p (data.configuration cs) := by
  simp only [createAssessment, h.version, h.reconciliation, h.billable, h.lines, h.calculations,
    ok_bind]
  refine (raiseIf_bind_eq_error_iff ?_).trans any_configuration_ne_iff
  refine avoids_bind (avoids_raiseIf ?_) fun _ _ => avoids_bind (avoids_raiseIf ?_) fun _ _ =>
    avoids_ok rfl
  · exact fun heq => by cases heq
  · exact fun heq => by cases heq

namespace Reaches

/-- The configuration has the lines of the request, in order. -/
theorem lineIds (h : Reaches t p data r cs) :
    (cs.map Prod.snd).map ConfigurationLine.lineId =
      data.lines.map AssessmentLineInput.lineId := by
  rw [List.map_map]
  exact map_eq_of_mapM_eq_ok (fun _ _ hc => assessLine_configuration_lineId hc) h.calculations

/-- The request names every line of the plan once. -/
theorem lineIds_perm (h : Reaches t p data r cs) (hnd : (Table.keys p.lines).Nodup) :
    (data.lines.map AssessmentLineInput.lineId).Perm (Table.keys p.lines) := by
  have hperm := validateLines_perm h.lines hnd
  rw [List.map_map] at hperm
  exact hperm

/-- The configuration of a request is one that lists the plan's lines exactly when it is
that one in numbers and in signs. -/
theorem configuration_eq_iff {configuration : Configuration} (h : Reaches t p data r cs)
    (hnd : (Table.keys p.lines).Nodup)
    (hsorted : configuration.lines.Pairwise fun c d => c.lineId ≤ d.lineId)
    (hlines : (configuration.lines.map ConfigurationLine.lineId).Perm (Table.keys p.lines)) :
    data.configuration cs = configuration ↔
      data.Carries r configuration ∧ data.SignedAs r configuration := by
  have hids := h.lineIds_perm hnd
  have hnodup : ((cs.map Prod.snd).map ConfigurationLine.lineId).Nodup := by
    rw [h.lineIds]
    exact hids.nodup_iff.mpr hnd
  constructor
  · rintro rfl
    have hmem : ∀ c ∈ cs, c.2 ∈ (data.configuration cs).lines := fun c hc =>
      mem_sortBy.mpr (List.mem_map_of_mem hc)
    refine ⟨⟨rfl, rfl, rfl, rfl, rfl, fun item hitem => ?_⟩, fun item hitem d hd hid => ?_⟩
    · obtain ⟨c, hc, hline⟩ := exists_of_mapM_eq_ok h.calculations item hitem
      exact ⟨c.2, hmem c hc, ((assessLine_configuration_eq_iff hline).mp rfl).1⟩
    · obtain ⟨c, hc, hline⟩ := exists_of_mapM_eq_ok h.calculations item hitem
      have heq : c.2 = d := by
        refine List.inj_on_of_nodup_map hnodup (mem_sortBy.mp (hmem c hc)) (mem_sortBy.mp hd) ?_
        rw [assessLine_configuration_lineId hline, hid]
      exact ((assessLine_configuration_eq_iff hline).mp heq).2
  · rintro ⟨hcarries, hsigned⟩
    -- Line by line the configurations agree, and both have the lines of the plan once each.
    have hsubset : cs.map Prod.snd ⊆ configuration.lines := by
      intro d hd
      obtain ⟨c, hc, rfl⟩ := List.mem_map.mp hd
      obtain ⟨item, hitem, hline⟩ := mem_of_mapM_eq_ok h.calculations c hc
      obtain ⟨d, hd, hitemd⟩ := hcarries.lines item hitem
      have heq : c.2 = d :=
        (assessLine_configuration_eq_iff hline).mpr ⟨hitemd, hsigned item hitem d hd hitemd.lineId⟩
      exact heq ▸ hd
    have hlength : configuration.lines.length ≤ (cs.map Prod.snd).length := by
      have hcount := (hlines.trans hids.symm).length_eq
      rw [← h.lineIds, List.length_map, List.length_map] at hcount
      exact hcount.le
    have hperm : (cs.map Prod.snd).Perm configuration.lines :=
      (List.subperm_of_subset (.of_map _ hnodup) hsubset).perm_of_length_le hlength
    have hsame : sortBy ConfigurationLine.lineId (cs.map Prod.snd) = configuration.lines :=
      ((sortBy_eq_sortBy_iff hnodup).mpr hperm).trans (sortBy_of_pairwise hsorted)
    rw [AssessmentInput.configuration, hcarries.payer, hcarries.currency, hcarries.policy,
      hcarries.tariffReference, hcarries.openingChargesReference, hsame]

end Reaches

/-! ## The issued configuration of a plan -/

/-- Every assessment after an issued one has its configuration. -/
def MeasurementPlan.CarriesForward (p : MeasurementPlan) : Prop :=
  p.assessments.Pairwise fun a b => a.status = .issued → b.configuration = a.configuration

/-- Passing the lock is having the configuration of every issued assessment. -/
theorem passes_iff {configuration : Configuration} (hp : p.CarriesForward)
    (hissued : ∀ a ∈ p.assessments, a.status = .issued ↔ Invoiced t.invoices a.id) :
    Passes t p configuration ↔
      ∀ b ∈ p.assessments, b.status = .issued → configuration = b.configuration := by
  have hsome : ∀ a ∈ p.assessments,
      (invoiceOf t.invoices a.id).isSome = true ↔ a.status = .issued := by
    intro a ha
    rw [hissued a ha, Option.isSome_iff_ne_none, ne_eq, invoiceOf_eq_none_iff, not_not]
  constructor
  · intro hpasses b hb hstatus
    obtain ⟨a, hfind⟩ : ∃ a, p.assessments.find? (fun a => (invoiceOf t.invoices a.id).isSome) =
        some a := by
      refine Option.isSome_iff_exists.mp (List.find?_isSome.mpr ⟨b, hb, (hsome b hb).mpr hstatus⟩)
    rw [hpasses a hfind]
    -- `b` is the first issued assessment or comes after it
    obtain ⟨ha, before, after, hsplit, hbefore⟩ := List.find?_eq_some_iff_append.mp hfind
    have hmem : b ∈ before ∨ b ∈ a :: after := List.mem_append.mp (hsplit ▸ hb)
    obtain hb' | hb' := hmem
    · simpa [(hsome b hb).mpr hstatus] using hbefore b hb'
    · have hmem : a ∈ p.assessments := List.mem_of_find?_eq_some hfind
      obtain rfl | hafter := List.mem_cons.mp hb'
      · rfl
      · rw [MeasurementPlan.CarriesForward, hsplit] at hp
        have htail := (List.pairwise_append.mp hp).2.1
        exact (List.rel_of_pairwise_cons htail hafter ((hsome a hmem).mp ha)).symm
  · intro hall b hfind
    have hb := List.mem_of_find?_eq_some hfind
    have hinvoiced : (invoiceOf t.invoices b.id).isSome = true := by
      simpa using List.find?_some hfind
    exact hall b hb ((hsome b hb).mp hinvoiced)

/-- The configuration lists the lines of the assessment by their ids. -/
structure Assessment.Configured (a : Assessment) : Prop where
  sorted : a.configuration.lines.Pairwise fun c d => c.lineId ≤ d.lineId
  lineIds : (a.configuration.lines.map ConfigurationLine.lineId).Perm
    (a.lines.map AssessmentLine.lineId)

/-- A written assessment is configured. -/
theorem Assessment.Written.configured {a : Assessment} (h : a.Written) : a.Configured := by
  obtain ⟨t, ctx, actor, p, p', data, _, hassess, happend⟩ := h
  obtain ⟨r, cs, hreaches, _, _, _, rfl⟩ := createAssessment_eq_ok_iff.mp hassess
  obtain rfl := List.singleton_inj.mp (List.append_cancel_left happend)
  refine ⟨sortBy_pairwise _ _, ((sortBy_perm _ _).map _).trans ?_⟩
  have hids : (cs.map Prod.fst).map AssessmentLine.lineId =
      data.lines.map AssessmentLineInput.lineId := by
    rw [List.map_map]
    exact map_eq_of_mapM_eq_ok (fun _ _ hc => (assessLine_eq_ok hc).1) hreaches.calculations
  rw [hreaches.lineIds]
  exact hids ▸ .rfl

/-- The invariant: assessments accounted for, their configurations listing their lines,
and every plan carrying forward what was issued. -/
structure Configured (t : Tenant) : Prop where
  accounted : Accounted t
  configured : ∀ p ∈ t.plans, ∀ a ∈ p.assessments, a.Configured
  carries : ∀ p ∈ t.plans, p.CarriesForward

/-- A tenant without plans is configured. -/
theorem Configured.ofInitial (h : t.Initial) : Configured t where
  accounted := .ofInitial h
  configured := by simp [h.plans]
  carries := by simp [h.plans]

/-- What a plan carries forward is told by its assessments. -/
theorem MeasurementPlan.CarriesForward.congr (h : p.CarriesForward)
    (hassessments : p'.assessments = p.assessments) : p'.CarriesForward := by
  rw [MeasurementPlan.CarriesForward, hassessments]
  exact h

/-- What is written under the lock has the configuration of everything issued. -/
theorem Assessed.carriesForward {a : Assessment} (h : Assessed t p p' a) (hp : p.CarriesForward)
    (hissued : ∀ a ∈ p.assessments, a.status = .issued ↔ Invoiced t.invoices a.id) :
    p'.CarriesForward := by
  obtain ⟨ctx, actor, data, _, hcall⟩ := h.written
  obtain ⟨r, cs, _, hpasses, _, _, rfl⟩ := createAssessment_eq_ok_iff.mp hcall
  refine List.pairwise_append.mpr ⟨hp, List.pairwise_singleton _ _, fun b hb c hc hstatus => ?_⟩
  obtain rfl := List.mem_singleton.mp hc
  exact (passes_iff hp hissued).mp hpasses b hb hstatus

/-- Only the latest assessment is issued, and none comes after it. -/
theorem Issued.carriesForward {a : Assessment} {i : Invoice} (h : Issued t t' p p' a i)
    (hkeys : (Table.keys p.assessments).Nodup) (hp : p.CarriesForward) : p'.CarriesForward := by
  obtain ⟨last, hlast, hid⟩ := Option.map_eq_some_iff.mp h.latest
  obtain rfl : last = a :=
    Table.eq_of_key_eq hkeys (List.mem_of_getLast? hlast) h.assessment hid
  obtain ⟨before, hsplit⟩ := List.getLast?_eq_some_iff.mp hlast
  have hother : ∀ b ∈ before, Keyed.key b ≠ Keyed.key ({ last with status := .issued }) := by
    intro b hb heq
    rw [hsplit, Table.keys_append] at hkeys
    exact List.disjoint_of_nodup_append hkeys (Table.mem_keys.mpr ⟨b, hb, heq⟩)
      (Table.mem_keys.mpr ⟨last, List.mem_cons_self, rfl⟩)
  rw [MeasurementPlan.CarriesForward, hsplit] at hp
  obtain ⟨hbefore, _, hrel⟩ := List.pairwise_append.mp hp
  have hassessments : p'.assessments = before ++ [{ last with status := .issued }] := by
    rw [h.plan, hsplit]
    exact Table.put_concat_self rfl hother
  rw [MeasurementPlan.CarriesForward, hassessments]
  refine List.pairwise_append.mpr ⟨hbefore, List.pairwise_singleton _ _, fun b hb c hc => ?_⟩
  obtain rfl := List.mem_singleton.mp hc
  exact hrel b hb last List.mem_cons_self

/-- After a step every plan carries its configuration forward. -/
theorem Configured.carries_step {kind : RequestKind} (h : Configured t)
    (he : Effect sha kind t t') : ∀ p ∈ t'.plans, p.CarriesForward := by
  intro p hp
  cases he with
  | quiet plans _ => exact h.carries p (plans ▸ hp)
  | created q hnew _ plans _ =>
      rw [plans, List.mem_append, List.mem_singleton] at hp
      obtain hp | rfl := hp
      · exact h.carries p hp
      · rw [MeasurementPlan.CarriesForward, hnew.assessments]
        exact .nil
  | mutated q q' hq _ hassessments _ plans _ =>
      rw [plans] at hp
      obtain rfl | ⟨hp, _⟩ := Table.mem_put hp
      · obtain hsame | ⟨b, hb⟩ := hassessments
        · exact (h.carries q hq).congr hsame
        · exact (hb.carriesForward (h.carries q hq) (h.accounted.issued q hq)).congr rfl
      · exact h.carries p hp
  | kept q q' hq hu _ plans _ =>
      rw [plans] at hp
      obtain rfl | ⟨hp, _⟩ := Table.mem_put hp
      · exact (h.carries q hq).congr (upkeep_assessments hu)
      · exact h.carries p hp
  | issued q q' a i hq hi _ plans _ =>
      rw [plans] at hp
      obtain rfl | ⟨hp, _⟩ := Table.mem_put hp
      · exact (hi.carriesForward (h.accounted.books.billable q hq).keys (h.carries q hq)).congr rfl
      · exact h.carries p hp
  | billed _ _ _ _ plans _ => exact h.carries p (plans ▸ hp)
  | settled _ _ _ _ _ plans _ => exact h.carries p (plans ▸ hp)

/-- An accepted event keeps the tenant configured. -/
theorem Configured.step {e : Event} {a : Option VesselCaller.Response} (h : Configured t)
    (hok : handleEvent sha t e = .ok (t', a)) : Configured t' where
  accounted := h.accounted.step hok
  configured := forall_assessments (handleEvent_effect hok) (fun _ ha => ha.configured)
    (fun _ ha => ⟨ha.sorted, ha.lineIds⟩) h.configured
  carries := h.carries_step (handleEvent_effect hok)

/-- So does a run. -/
theorem Configured.run {t₀ : Tenant} (h : Configured t₀) (es : List Event) :
    Configured (run (handleEvent sha) t₀ es) :=
  run_invariant (fun hs he => hs.step he) es h

/-- Requests alone keep the invariant: no invoice has to be voided. -/
theorem Configured.requests {t₀ : Tenant} (h : Configured t₀) (rs : List Request) :
    Configured (Lib.run (Tenant.handle sha) t₀ rs) :=
  run_invariant (fun hs hr => hs.step (handleEvent_request hr)) rs h

/-- What reaches the lock passes it exactly when it carries every issued configuration
forward. -/
theorem Configured.passes_iff (h : Configured t) (hp : p ∈ t.plans) (hr : Reaches t p data r cs) :
    Passes t p (data.configuration cs) ↔ ∀ b ∈ p.assessments, b.status = .issued →
      data.Carries r b.configuration ∧ data.SignedAs r b.configuration := by
  have hnd := (h.accounted.books.plans.lifecycle p hp).lineKeys
  rw [Measurements.passes_iff (h.carries p hp) (h.accounted.issued p hp)]
  refine forall₃_congr fun b hb _ => ?_
  have hconfigured := h.configured p hp b hb
  have hlines := hconfigured.lineIds.trans
    ((h.accounted.books.billable p hp).consistent b hb).lines
  exact hr.configuration_eq_iff hnd hconfigured.sorted hlines

/-- All that was issued on a plan has one configuration. -/
theorem MeasurementPlan.CarriesForward.issued_eq (h : p.CarriesForward) :
    ∀ a ∈ p.assessments, ∀ b ∈ p.assessments, a.status = .issued → b.status = .issued →
      a.configuration = b.configuration := by
  have hsymm : Std.Symm fun a b : Assessment =>
      a.status = .issued → b.status = .issued → a.configuration = b.configuration :=
    ⟨fun a b hab hb ha => (hab ha hb).symm⟩
  have hpairwise : p.assessments.Pairwise fun a b =>
      a.status = .issued → b.status = .issued → a.configuration = b.configuration :=
    h.imp fun hab ha _ => (hab ha).symm
  intro a ha b hb
  exact hpairwise.forall_of_forall (fun _ _ _ _ => rfl) ha hb

/-- A request passes the lock exactly when it carries the issued configuration forward
in numbers and in signs. -/
theorem Configured.not_locked_iff {b : Assessment} (h : Configured t) (hp : p ∈ t.plans)
    (hb : b ∈ p.assessments) (hinvoiced : Invoiced t.invoices b.id) (hr : Reaches t p data r cs) :
    createAssessment t ctx actor p data ≠ .error configurationLocked ↔
      data.Carries r b.configuration ∧ data.SignedAs r b.configuration := by
  have hissued := (h.accounted.issued p hp b hb).mpr hinvoiced
  rw [ne_eq, createAssessment_locked_iff hr, not_not, h.passes_iff hp hr]
  constructor
  · intro hall
    exact hall b hb hissued
  · intro hcarries a ha hstatus
    rw [← (h.carries p hp).issued_eq b hb a ha hissued hstatus]
    exact hcarries

/-! ## Spellings of a number -/

/-- A decimal as a request spells it: a sign, the digits read as one number, and the
exponent that the decimal point and an explicit exponent give together. -/
structure Numeral where
  negative : Bool
  digits : ℕ
  exponent : ℤ
  deriving DecidableEq, Repr

/-- The number that is spelled. -/
def Numeral.number (n : Numeral) : ℚ :=
  (if n.negative then -1 else 1) * n.digits * (10 : ℚ) ^ n.exponent

/-- `validate_precision` and `min_value=0`: the digits in all, after the point and before
it are within the field's, and only a zero may be negative. -/
def Numeral.admitted (maxDigits places : ℕ) (n : Numeral) : Bool :=
  let length := (Nat.toDigits 10 n.digits).length + n.exponent.toNat
  let decimals := (-n.exponent).toNat
  max length decimals ≤ maxDigits && decimals ≤ places && length - decimals ≤ maxDigits - places &&
    !(n.negative && n.digits ≠ 0)

/-- `quantize`: the number with exactly `places` decimals, its sign kept. -/
def Numeral.quantize (places : ℕ) (n : Numeral) : DecimalText places :=
  ⟨n.negative, n.digits * 10 ^ (places + n.exponent).toNat⟩

example : (⟨true, 0, -1⟩ : Numeral).admitted 18 2 = true ∧
    (⟨true, 0, -1⟩ : Numeral).quantize 2 = ⟨true, 0⟩ ∧
    (⟨false, 25, -1⟩ : Numeral).quantize 4 = (⟨false, 250, -2⟩ : Numeral).quantize 4 := by
  decide

/-- An admitted numeral fits its column without rounding. -/
theorem Numeral.quantize_value {places maxDigits : ℕ} {n : Numeral}
    (h : n.admitted maxDigits places = true) :
    ((n.quantize places).value : ℚ) = n.number * 10 ^ places := by
  simp only [Numeral.admitted, Bool.and_eq_true, decide_eq_true_eq] at h
  obtain ⟨⟨⟨_, hdecimals⟩, _⟩, _⟩ := h
  have hexponent : ((places + n.exponent).toNat : ℤ) = n.exponent + places := by omega
  have hpower : (10 : ℚ) ^ (places + n.exponent).toNat = 10 ^ n.exponent * 10 ^ places := by
    rw [← zpow_natCast, hexponent, zpow_add₀ (by norm_num), zpow_natCast]
  obtain ⟨negative, digits, exponent⟩ := n
  dsimp only at hpower
  cases negative with
  | false =>
      simp only [DecimalText.value, Numeral.quantize, Numeral.number, Bool.false_eq_true, if_false]
      push_cast
      rw [hpower]
      ring
  | true =>
      simp only [DecimalText.value, Numeral.quantize, Numeral.number, if_true]
      push_cast
      rw [hpower]
      ring

/-- Two admitted spellings are quantized to one value exactly when they spell one
number. -/
theorem Numeral.quantize_value_eq_iff {places maxDigits : ℕ} {n n' : Numeral}
    (h : n.admitted maxDigits places = true) (h' : n'.admitted maxDigits places = true) :
    (n.quantize places).value = (n'.quantize places).value ↔ n.number = n'.number := by
  rw [← Int.cast_inj (α := ℚ), Numeral.quantize_value h, Numeral.quantize_value h']
  exact mul_left_inj' (by positivity)

/-- A request line as it is spelled. -/
structure AssessmentLineText where
  lineId : Id
  rate : Numeral
  tolerance : Numeral
  toleranceMode : ToleranceMode
  previouslyBilledQuantity : Option Numeral := none
  openingBilledAmount : Numeral
  deriving DecidableEq, Repr

/-- `AssessmentLineSerializer`: every figure checked and quantized. -/
def AssessmentLineText.read (text : AssessmentLineText) : Result AssessmentLineInput := do
  field "rate" (text.rate.admitted 12 4)
  field "tolerance" (text.tolerance.admitted 18 3)
  field "previouslyBilledQuantity" (text.previouslyBilledQuantity.all (Numeral.admitted 18 3))
  field "openingBilledAmount" (text.openingBilledAmount.admitted 18 2)
  return {
    lineId := text.lineId
    rate := text.rate.quantize 4
    tolerance := text.tolerance.quantize 3
    toleranceMode := text.toleranceMode
    previouslyBilledQuantity := text.previouslyBilledQuantity.map (Numeral.quantize 3)
    openingBilledAmount := text.openingBilledAmount.quantize 2 }

/-- The two lines spell the same numbers. -/
structure AssessmentLineText.SameNumbers (text text' : AssessmentLineText) : Prop where
  lineId : text.lineId = text'.lineId
  rate : text.rate.number = text'.rate.number
  tolerance : text.tolerance.number = text'.tolerance.number
  toleranceMode : text.toleranceMode = text'.toleranceMode
  previouslyBilledQuantity : text.previouslyBilledQuantity.map Numeral.number =
    text'.previouslyBilledQuantity.map Numeral.number
  openingBilledAmount : text.openingBilledAmount.number = text'.openingBilledAmount.number

/-- The two lines spell the figures that enter the configuration with the same signs. -/
structure AssessmentLineText.SameSigns (text text' : AssessmentLineText) (policy : Policy) :
    Prop where
  rate : text.rate.negative = text'.rate.negative
  tolerance : text.tolerance.negative = text'.tolerance.negative
  previouslyBilledQuantity : policy = .quantityAdjustment →
    text.previouslyBilledQuantity.map Numeral.negative =
      text'.previouslyBilledQuantity.map Numeral.negative
  openingBilledAmount : text.openingBilledAmount.negative = text'.openingBilledAmount.negative

/-- The lines of the second request are those of the first in another order, each number
perhaps spelled another way. -/
def Rearranged (texts texts' : List AssessmentLineText) : Prop :=
  ∃ moved, moved.Perm texts ∧ List.Forall₂ AssessmentLineText.SameNumbers moved texts'

/-! ## Rearranged requests -/

/-- The two lines have the same numbers in them. -/
structure AssessmentLineInput.SameNumbers (item item' : AssessmentLineInput) : Prop where
  lineId : item.lineId = item'.lineId
  rate : item.rate.value = item'.rate.value
  tolerance : item.tolerance.value = item'.tolerance.value
  toleranceMode : item.toleranceMode = item'.toleranceMode
  previouslyBilledQuantity : item.previouslyBilledQuantity.map DecimalText.value =
    item'.previouslyBilledQuantity.map DecimalText.value
  openingBilledAmount : item.openingBilledAmount.value = item'.openingBilledAmount.value

section Line

variable {text text' : AssessmentLineText} {item item' : AssessmentLineInput}
  {invoices : List Invoice} {c : AssessmentLine × ConfigurationLine}

/-- A line is read where each of its numerals is admitted. -/
theorem AssessmentLineText.read_eq_ok : text.read = .ok item ↔
    text.rate.admitted 12 4 = true ∧ text.tolerance.admitted 18 3 = true ∧
      (∀ q, text.previouslyBilledQuantity = some q → q.admitted 18 3 = true) ∧
      text.openingBilledAmount.admitted 18 2 = true ∧
      item = ⟨text.lineId, text.rate.quantize 4, text.tolerance.quantize 3, text.toleranceMode,
        text.previouslyBilledQuantity.map (Numeral.quantize 3),
        text.openingBilledAmount.quantize 2⟩ := by
  simp only [AssessmentLineText.read, bind_eq_ok, field_eq_ok, pure_eq_ok, exists_const,
    Option.all_eq_true]
  rw [eq_comm (b := item)]

/-- Reading a line keeps its key. -/
theorem AssessmentLineText.read_lineId (h : text.read = .ok item) : item.lineId = text.lineId := by
  obtain ⟨_, _, _, _, rfl⟩ := AssessmentLineText.read_eq_ok.mp h
  rfl

/-- Lines with the same numbers are read alike. -/
theorem AssessmentLineText.SameNumbers.read (h : text.SameNumbers text')
    (hread : text.read = .ok item) (hread' : text'.read = .ok item') : item.SameNumbers item' := by
  obtain ⟨hrate, htolerance, hprevious, hopening, rfl⟩ := AssessmentLineText.read_eq_ok.mp hread
  obtain ⟨hrate', htolerance', hprevious', hopening', rfl⟩ :=
    AssessmentLineText.read_eq_ok.mp hread'
  refine ⟨h.lineId, (Numeral.quantize_value_eq_iff hrate hrate').mpr h.rate,
    (Numeral.quantize_value_eq_iff htolerance htolerance').mpr h.tolerance, h.toleranceMode, ?_,
    (Numeral.quantize_value_eq_iff hopening hopening').mpr h.openingBilledAmount⟩
  have hsame := h.previouslyBilledQuantity
  dsimp only
  cases hq : text.previouslyBilledQuantity with
  | none =>
      rw [hq, Option.map_none, eq_comm, Option.map_eq_none_iff] at hsame
      rw [hsame]
  | some q =>
      rw [hq, Option.map_some, eq_comm, Option.map_eq_some_iff] at hsame
      obtain ⟨q', hq', hnumber⟩ := hsame
      rw [hq']
      exact congrArg some
        ((Numeral.quantize_value_eq_iff (hprevious q hq) (hprevious' q' hq')).mpr hnumber.symm)

namespace AssessmentLineInput.SameNumbers

/-- Lines with the same numbers have the same fields. -/
theorem fields (h : item.SameNumbers item') : item.fields = item'.fields := by
  simp only [AssessmentLineInput.fields, h.lineId, h.previouslyBilledQuantity, h.tolerance]

/-- Lines with the same numbers have the same baseline. -/
theorem baseline (h : item.SameNumbers item') :
    (item.baseline r policy).map DecimalText.value =
      (item'.baseline r policy).map DecimalText.value := by
  cases policy with
  | manifestDisparity => rw [AssessmentLineInput.baseline, AssessmentLineInput.baseline, h.lineId]
  | quantityAdjustment => exact h.previouslyBilledQuantity

/-- The figures of a line depend on its numbers only. -/
theorem assessLine (h : item.SameNumbers item')
    (hc : Measurements.assessLine invoices p r policy item = .ok c) :
    ∃ c', Measurements.assessLine invoices p r policy item' = .ok c' ∧ c'.1 = c.1 := by
  simp only [Measurements.assessLine, bind_eq_ok, orRaise_eq_ok, raiseIf_eq_ok, pure_eq_ok] at hc ⊢
  obtain ⟨line, hline, final, hfinal, baseline, hbaseline, _, hlimit, rfl⟩ := hc
  obtain ⟨baseline', hbaseline', hvalue⟩ : ∃ baseline', (match policy with
      | .manifestDisparity => final.manifestQuantity.map DecimalText.ofColumn
      | .quantityAdjustment => item'.previouslyBilledQuantity) = some baseline' ∧
      baseline'.value = baseline.value := by
    cases policy with
    | manifestDisparity => exact ⟨baseline, hbaseline, rfl⟩
    | quantityAdjustment =>
        have hprevious := h.previouslyBilledQuantity
        rw [show item.previouslyBilledQuantity = some baseline from hbaseline, Option.map_some,
          eq_comm] at hprevious
        exact Option.map_eq_some_iff.mp hprevious
  rw [h.lineId] at hline
  rw [h.tolerance, h.toleranceMode, h.rate, h.openingBilledAmount, ← hvalue] at hlimit
  refine ⟨_, ⟨line, hline, final, hfinal, baseline', hbaseline', (), hlimit, rfl⟩, ?_⟩
  simp only [h.tolerance, h.toleranceMode, h.rate, h.openingBilledAmount, hvalue]

/-- A line with the same numbers carries the entry of the other one forward. -/
theorem carries (h : item.SameNumbers item')
    (hc : Measurements.assessLine invoices p r policy item' = .ok c) :
    item.Carries r policy c.2 := by
  obtain ⟨hcarries, _⟩ := (assessLine_configuration_eq_iff hc).mp rfl
  exact ⟨h.lineId.trans hcarries.lineId, h.baseline.trans hcarries.baseline,
    h.rate.trans hcarries.rate, h.tolerance.trans hcarries.tolerance,
    h.toleranceMode.trans hcarries.toleranceMode,
    h.openingBilledAmount.trans hcarries.openingBilledAmount⟩

end AssessmentLineInput.SameNumbers

/-- Under the manifest policy the baseline is the column's, whatever the request says. -/
theorem AssessmentLineText.signedAs_iff (hread : text.read = .ok item)
    (hread' : text'.read = .ok item') (hid : item.lineId = item'.lineId)
    (hc : assessLine invoices p r policy item' = .ok c) :
    item.SignedAs r policy c.2 ↔ text.SameSigns text' policy := by
  obtain ⟨_, hsigned⟩ := (assessLine_configuration_eq_iff hc).mp rfl
  obtain ⟨_, _, _, _, rfl⟩ := AssessmentLineText.read_eq_ok.mp hread
  obtain ⟨_, _, _, _, rfl⟩ := AssessmentLineText.read_eq_ok.mp hread'
  have hmap : ∀ o : Option Numeral, (o.map (Numeral.quantize 3)).map DecimalText.negative =
      o.map Numeral.negative := by
    intro o
    rw [Option.map_map]
    rfl
  constructor
  · intro h
    refine ⟨h.rate.trans hsigned.rate.symm, h.tolerance.trans hsigned.tolerance.symm, ?_,
      h.openingBilledAmount.trans hsigned.openingBilledAmount.symm⟩
    rintro rfl
    rw [← hmap, ← hmap]
    exact h.baseline.trans hsigned.baseline.symm
  · intro h
    refine ⟨?_, h.rate.trans hsigned.rate, h.tolerance.trans hsigned.tolerance,
      h.openingBilledAmount.trans hsigned.openingBilledAmount⟩
    rw [← hsigned.baseline]
    cases policy with
    | manifestDisparity =>
        dsimp only at hid
        simp only [AssessmentLineInput.baseline, hid]
    | quantityAdjustment =>
        refine (hmap _).trans ((h.previouslyBilledQuantity rfl).trans (hmap _).symm)

end Line

/-- The cargo lines are checked each by itself. -/
theorem validateLines_of_perm {fields fields' : List LineFields} {u : Unit}
    (hperm : fields'.Perm fields) (h : validateLines p fields = .ok u) :
    validateLines p fields' = .ok u := by
  simp only [validateLines, bind_eq_ok, raiseIf_eq_ok, not_or, not_not] at h ⊢
  obtain ⟨_, ⟨hnd, hsub, hsup⟩, hall⟩ := h
  have hids := hperm.map LineFields.lineId
  refine ⟨(), ⟨hids.nodup_iff.mpr hnd, fun id hid => hsub id (hids.mem_iff.mp hid),
    fun id hid => hids.mem_iff.mpr (hsup id hid)⟩, forM_eq_ok.mpr fun item hitem => ?_⟩
  exact forM_eq_ok.mp hall item (hperm.mem_iff.mp hitem)

section Rearranged

variable {texts texts' : List AssessmentLineText} {items' : List AssessmentLineInput}

/-- Rearranged lines are read to rearranged items. -/
theorem Rearranged.read (h : Rearranged texts texts')
    (hread : texts.mapM AssessmentLineText.read = .ok data.lines)
    (hread' : texts'.mapM AssessmentLineText.read = .ok items') :
    ∃ items, items.Perm data.lines ∧
      List.Forall₂ AssessmentLineInput.SameNumbers items items' := by
  obtain ⟨moved, hperm, hsame⟩ := h
  obtain ⟨items, hitems, hperm'⟩ := exists_mapM_of_perm hperm hread
  exact ⟨items, hperm',
    forall₂_of_mapM_eq_ok (fun hnumbers hx hx' => hnumbers.read hx hx') hsame hitems hread'⟩

/-- A rearranged request comes as far as the lock, with the same figures. -/
theorem Reaches.rearranged (h : Reaches t p data r cs) {items : List AssessmentLineInput}
    (hperm : items.Perm data.lines)
    (hsame : List.Forall₂ AssessmentLineInput.SameNumbers items items') :
    ∃ cs', Reaches t p { data with lines := items' } r cs' ∧
      (cs'.map Prod.fst).Perm (cs.map Prod.fst) := by
  obtain ⟨cs₁, hcs₁, hperm₁⟩ := exists_mapM_of_perm hperm h.calculations
  obtain ⟨cs', hcs', hfigures⟩ := exists_mapM_eq_ok (fun hnumbers hx => hnumbers.assessLine hx)
    hsame hcs₁
  have hfields : items.map AssessmentLineInput.fields = items'.map AssessmentLineInput.fields :=
    map_eq_map_of_forall₂ (hsame.imp fun _ _ hnumbers => hnumbers.fields)
  have heq : cs'.map Prod.fst = cs₁.map Prod.fst := map_eq_map_of_forall₂ (hfigures.flip)
  refine ⟨cs', ⟨h.version, h.reconciliation, h.billable, ?_, hcs'⟩, ?_⟩
  · change validateLines p (items'.map AssessmentLineInput.fields) = .ok ()
    rw [← hfields]
    exact validateLines_of_perm (hperm.map _) h.lines
  · rw [heq]
    exact hperm₁.map _

/-- The configuration of a rearranged request is the same one exactly when the signs
are. -/
theorem Reaches.configuration_rearranged_iff (h : Reaches t p data r cs)
    (h' : Reaches t p { data with lines := items' } r cs') (hnd : (Table.keys p.lines).Nodup)
    (hre : Rearranged texts texts') (hread : texts.mapM AssessmentLineText.read = .ok data.lines)
    (hread' : texts'.mapM AssessmentLineText.read = .ok items') :
    ({ data with lines := items' } : AssessmentInput).configuration cs' = data.configuration cs ↔
      ∀ text ∈ texts, ∀ text' ∈ texts', text.lineId = text'.lineId →
        text.SameSigns text' data.policy := by
  have hlines : ((sortBy ConfigurationLine.lineId (cs'.map Prod.snd)).map
      ConfigurationLine.lineId).Perm (Table.keys p.lines) := by
    refine ((sortBy_perm _ _).map _).trans ?_
    rw [h'.lineIds]
    exact h'.lineIds_perm hnd
  rw [eq_comm, h.configuration_eq_iff hnd (sortBy_pairwise _ _) hlines]
  -- Rearranging carries every number forward, so the signs alone decide.
  have hcarries : data.Carries r
      (({ data with lines := items' } : AssessmentInput).configuration cs') := by
    refine ⟨rfl, rfl, rfl, rfl, rfl, fun item hitem => ?_⟩
    obtain ⟨items, hperm, hsame⟩ := hre.read hread hread'
    obtain ⟨item', hitem', hnumbers⟩ := exists_of_forall₂ hsame item (hperm.mem_iff.mpr hitem)
    obtain ⟨c, hc, hline⟩ := exists_of_mapM_eq_ok h'.calculations item' hitem'
    exact ⟨c.2, mem_sortBy.mpr (List.mem_map_of_mem hc), hnumbers.carries hline⟩
  rw [and_iff_right hcarries]
  constructor
  · intro hsigned text htext text' htext' hid
    obtain ⟨item, hitem, hok⟩ := exists_of_mapM_eq_ok hread text htext
    obtain ⟨item', hitem', hok'⟩ := exists_of_mapM_eq_ok hread' text' htext'
    obtain ⟨c, hc, hline⟩ := exists_of_mapM_eq_ok h'.calculations item' hitem'
    have hids : item.lineId = item'.lineId := by
      rw [AssessmentLineText.read_lineId hok, AssessmentLineText.read_lineId hok', hid]
    refine (AssessmentLineText.signedAs_iff hok hok' hids hline).mp (hsigned item hitem c.2
      (mem_sortBy.mpr (List.mem_map_of_mem hc)) ?_)
    rw [assessLine_configuration_lineId hline, hids]
  · intro hsigns item hitem d hd hid
    obtain ⟨c, hc, rfl⟩ := List.mem_map.mp (mem_sortBy.mp hd)
    obtain ⟨item', hitem', hline⟩ := mem_of_mapM_eq_ok h'.calculations c hc
    obtain ⟨text, htext, hok⟩ := mem_of_mapM_eq_ok hread item hitem
    obtain ⟨text', htext', hok'⟩ := mem_of_mapM_eq_ok hread' item' hitem'
    have hids : item.lineId = item'.lineId := hid.trans (assessLine_configuration_lineId hline)
    refine (AssessmentLineText.signedAs_iff hok hok' hids hline).mpr (hsigns text htext text'
      htext' ?_)
    rw [← AssessmentLineText.read_lineId hok, ← AssessmentLineText.read_lineId hok', hids]

/-- The plans `p₁` and `p₂` are `p` with assessments of one result: the same status,
configuration and total, and the same lines. -/
def SameResult (p p₁ p₂ : MeasurementPlan) : Prop :=
  ∃ a₁ a₂ : Assessment, p₁.assessments = p.assessments ++ [a₁] ∧
    p₂.assessments = p.assessments ++ [a₂] ∧ a₂.status = a₁.status ∧
      a₂.configuration = a₁.configuration ∧ a₂.total = a₁.total ∧ a₂.lines.Perm a₁.lines

/-- A rearranged request is accepted with the same result exactly when no zero of its
configuration changed its sign. -/
theorem rearranged_iff {p₁ : MeasurementPlan} (h : createAssessment t ctx actor p data = .ok p₁)
    (hnd : (Table.keys p.lines).Nodup) (hre : Rearranged texts texts')
    (hread : texts.mapM AssessmentLineText.read = .ok data.lines)
    (hread' : texts'.mapM AssessmentLineText.read = .ok items') :
    (∃ p₂, createAssessment t ctx actor p { data with lines := items' } = .ok p₂ ∧
      SameResult p p₁ p₂) ↔
        ∀ text ∈ texts, ∀ text' ∈ texts', text.lineId = text'.lineId →
          text.SameSigns text' data.policy := by
  obtain ⟨r, cs, hr, hpasses, htotal, hfresh, rfl⟩ := createAssessment_eq_ok_iff.mp h
  obtain ⟨items, hperm, hsame⟩ := hre.read hread hread'
  obtain ⟨cs', hr', hfigures⟩ := hr.rearranged hperm hsame
  rw [← hr.configuration_rearranged_iff hr' hnd hre hread hread']
  have hsum : (({ data with lines := items' } : AssessmentInput).assessment ctx actor r cs').total =
      (data.assessment ctx actor r cs).total :=
    congrArg (money 0) (hfigures.map AssessmentLine.amount).sum_eq
  constructor
  · rintro ⟨p₂, hok, a₁, a₂, h₁, h₂, _, hconfiguration, _⟩
    obtain ⟨r₂, cs₂, hr₂, _, _, _, rfl⟩ := createAssessment_eq_ok_iff.mp hok
    obtain rfl := Except.ok.inj (hr₂.reconciliation.symm.trans hr'.reconciliation)
    obtain rfl := Except.ok.inj (hr₂.calculations.symm.trans hr'.calculations)
    obtain rfl := List.singleton_inj.mp (List.append_cancel_left h₁)
    obtain rfl := List.singleton_inj.mp (List.append_cancel_left h₂)
    exact hconfiguration
  · intro hconfiguration
    refine ⟨_, createAssessment_eq_ok_iff.mpr ⟨r, cs', hr', ?_, ?_, hfresh, rfl⟩, _, _, rfl, rfl,
      ?_, hconfiguration, hsum, hfigures⟩
    · rw [hconfiguration]
      exact hpasses
    · rw [hsum]
      exact htotal
    · simp only [AssessmentInput.assessment, hfigures.any_eq,
        (hfigures.map AssessmentLine.amount).sum_eq]

end Rearranged

/-- **The configuration lock.**  In every reachable state, a request that comes as far
as the lock of a plan with an invoiced assessment passes it exactly when it carries the
invoiced configuration forward in numbers, provided it spells no zero with another sign
than the invoiced one, and on no other request that carries it forward.  And an accepted
request, put in another order and with its numbers spelled another way, is accepted
with the same status, configuration, total and lines exactly when no zero in the
configuration changed its sign. -/
theorem configuration_lock {t₀ : Tenant} (h : t₀.Initial) (es : List Event)
    (ht : run (handleEvent sha) t₀ es = t) (hp : p ∈ t.plans) (ctx : Ctx) (actor : Id)
    (data : AssessmentInput) :
    (∀ b ∈ p.assessments, Invoiced t.invoices b.id → ∀ r cs, Reaches t p data r cs →
      ((createAssessment t ctx actor p data ≠ .error configurationLocked ↔
          data.Carries r b.configuration) ↔
        (data.Carries r b.configuration → data.SignedAs r b.configuration))) ∧
    ∀ texts texts' items', texts.mapM AssessmentLineText.read = .ok data.lines →
      texts'.mapM AssessmentLineText.read = .ok items' → Rearranged texts texts' →
      ∀ p₁, createAssessment t ctx actor p data = .ok p₁ →
        ((∃ p₂, createAssessment t ctx actor p { data with lines := items' } = .ok p₂ ∧
            SameResult p p₁ p₂) ↔
          ∀ text ∈ texts, ∀ text' ∈ texts', text.lineId = text'.lineId →
            text.SameSigns text' data.policy) := by
  have hall : Configured t := ht ▸ (Configured.ofInitial h).run es
  constructor
  · intro b hb hinvoiced r cs hr
    rw [hall.not_locked_iff hp hb hinvoiced hr]
    exact and_iff_left_iff_imp
  · intro texts texts' items' hread hread' hre p₁ hok
    exact rearranged_iff hok (hall.accounted.books.plans.lifecycle p hp).lineKeys hre hread hread'

/-- An amendment of the invoiced assessment of the sample history. -/
def Sample.amendment (opening : DecimalText 2) : AssessmentInput where
  version := 7
  reconciliationId := 50000
  payer := "Terminal"
  currency := "USD"
  policy := .manifestDisparity
  tariffReference := "Tariff 2026"
  reason := "Amendment"
  openingChargesReference := "None"
  lines := [{
    lineId := 20200
    rate := ⟨false, 25000⟩
    tolerance := ⟨false, 0⟩
    toleranceMode := .threshold
    openingBilledAmount := opening }]

/-- Its line, the rate of 2.50 spelled with some digits and an exponent. -/
def Sample.amendmentText (rate : Numeral) : AssessmentLineText where
  lineId := 20200
  rate := rate
  tolerance := ⟨false, 0, 0⟩
  toleranceMode := .threshold
  openingBilledAmount := ⟨false, 0, 0⟩

/-- The amendment is accepted with the opening amount it was invoiced with. -/
theorem amendment_accepted :
    ∃ p ∈ (run (handleEvent Sample.sha) Sample.tenant (Sample.invoiced.map .request)).plans,
      ∃ b ∈ p.assessments, b.status = .issued ∧
        (createAssessment (run (handleEvent Sample.sha) Sample.tenant
          (Sample.invoiced.map .request)) (Sample.ctx 10) 1 p
            (Sample.amendment ⟨false, 0⟩)).isOk = true := by
  decide +kernel

/-- The lock refuses it with the same amount spelled `-0.00`. -/
theorem negated_zero_locked :
    ∃ t, run (handleEvent Sample.sha) Sample.tenant (Sample.invoiced.map .request) = t ∧
      ∃ p ∈ t.plans, ∃ b ∈ p.assessments, Invoiced t.invoices b.id ∧
        ∃ data : AssessmentInput, data.validate = .ok () ∧
          ∃ r cs, Reaches t p data r cs ∧ data.Carries r b.configuration ∧
            createAssessment t (Sample.ctx 10) 1 p data = .error configurationLocked := by
  obtain ⟨p, hp, b, hb, hissued, hok⟩ := amendment_accepted
  refine ⟨_, rfl, p, hp, b, hb, ?_⟩
  have hall : Configured (run (handleEvent Sample.sha) Sample.tenant
      (Sample.invoiced.map .request)) := (Configured.ofInitial Sample.initial).run _
  have hinvoiced := (hall.accounted.issued p hp b hb).mp hissued
  obtain ⟨p', hp'⟩ := isOk_iff.mp hok
  obtain ⟨r, cs, hr, _⟩ := createAssessment_eq_ok_iff.mp hp'
  have hunlocked : createAssessment (run (handleEvent Sample.sha) Sample.tenant
      (Sample.invoiced.map .request)) (Sample.ctx 10) 1 p (Sample.amendment ⟨false, 0⟩) ≠
        .error configurationLocked := by
    rw [hp']
    exact fun heq => by cases heq
  obtain ⟨hcarries, hsigned⟩ := (hall.not_locked_iff hp hb hinvoiced hr).mp hunlocked
  -- the amendment's line with the amount spelled the other way
  have hsame : List.Forall₂ AssessmentLineInput.SameNumbers (Sample.amendment ⟨false, 0⟩).lines
      (Sample.amendment ⟨true, 0⟩).lines :=
    .cons ⟨rfl, rfl, rfl, rfl, rfl, rfl⟩ .nil
  obtain ⟨cs', hr', _⟩ := hr.rearranged .rfl hsame
  obtain ⟨c, hc, hline⟩ := hcarries.lines _ List.mem_cons_self
  have hsign := hsigned _ List.mem_cons_self c hc hline.lineId
  have hcarries' : (Sample.amendment ⟨true, 0⟩).Carries r b.configuration := by
    refine ⟨hcarries.payer, hcarries.currency, hcarries.policy, hcarries.tariffReference,
      hcarries.openingChargesReference, fun item hitem => ⟨c, hc, ?_⟩⟩
    obtain rfl := List.mem_singleton.mp hitem
    exact ⟨hline.lineId, hline.baseline, hline.rate, hline.tolerance, hline.toleranceMode,
      hline.openingBilledAmount⟩
  refine ⟨hinvoiced, Sample.amendment ⟨true, 0⟩, rfl, r, cs', hr', hcarries', ?_⟩
  by_contra hpasses
  obtain ⟨_, hsigned'⟩ := (hall.not_locked_iff hp hb hinvoiced hr').mp hpasses
  have hsign' := hsigned' _ List.mem_cons_self c hc hline.lineId
  exact absurd (hsign.openingBilledAmount.trans hsign'.openingBilledAmount.symm) (by decide)

/-- The amendment passes the lock of the sample history, and so it does with the rate of
2.50 spelled `25E-1`. -/
theorem configuration_lock_sample :
    ∃ t, run (handleEvent Sample.sha) Sample.tenant (Sample.invoiced.map .request) = t ∧
      ∃ p ∈ t.plans, ∃ b ∈ p.assessments, ∃ r,
        (Sample.amendment ⟨false, 0⟩).Carries r b.configuration ∧
        ∃ p₁ p₂ items', [Sample.amendmentText ⟨false, 25, -1⟩].mapM AssessmentLineText.read =
            .ok items' ∧
          createAssessment t (Sample.ctx 10) 1 p (Sample.amendment ⟨false, 0⟩) = .ok p₁ ∧
          createAssessment t (Sample.ctx 10) 1 p
            { Sample.amendment ⟨false, 0⟩ with lines := items' } = .ok p₂ ∧
          SameResult p p₁ p₂ := by
  obtain ⟨p, hp, b, hb, hissued, hok⟩ := amendment_accepted
  refine ⟨_, rfl, p, hp, b, hb, ?_⟩
  have hall : Configured (run (handleEvent Sample.sha) Sample.tenant
      (Sample.invoiced.map .request)) := (Configured.ofInitial Sample.initial).run _
  have hinvoiced := (hall.accounted.issued p hp b hb).mp hissued
  obtain ⟨p₁, hp₁⟩ := isOk_iff.mp hok
  obtain ⟨r, cs, hr, _⟩ := createAssessment_eq_ok_iff.mp hp₁
  obtain ⟨hlock, hresult⟩ := configuration_lock Sample.initial (Sample.invoiced.map .request) rfl hp
    (Sample.ctx 10) 1 (Sample.amendment ⟨false, 0⟩)
  have hunlocked : createAssessment (run (handleEvent Sample.sha) Sample.tenant
      (Sample.invoiced.map .request)) (Sample.ctx 10) 1 p (Sample.amendment ⟨false, 0⟩) ≠
        .error configurationLocked := by
    rw [hp₁]
    exact fun heq => by cases heq
  have hcarries := (hall.not_locked_iff hp hb hinvoiced hr).mp hunlocked
  have hread : [Sample.amendmentText ⟨false, 250, -2⟩].mapM AssessmentLineText.read =
      .ok (Sample.amendment ⟨false, 0⟩).lines := by rfl
  have hread' : [Sample.amendmentText ⟨false, 25, -1⟩].mapM AssessmentLineText.read =
      .ok (Sample.amendment ⟨false, 0⟩).lines := by rfl
  have hnumber : (⟨false, 250, -2⟩ : Numeral).number = (⟨false, 25, -1⟩ : Numeral).number := by
    norm_num [Numeral.number]
  have hre : Rearranged [Sample.amendmentText ⟨false, 250, -2⟩]
      [Sample.amendmentText ⟨false, 25, -1⟩] :=
    ⟨_, .rfl, .cons ⟨rfl, hnumber, rfl, rfl, rfl, rfl⟩ .nil⟩
  obtain ⟨p₂, hp₂, hsame⟩ := (hresult _ _ _ hread hread' hre p₁ hp₁).mpr (by
    intro text htext text' htext' _
    obtain rfl := List.mem_singleton.mp htext
    obtain rfl := List.mem_singleton.mp htext'
    exact ⟨rfl, rfl, fun _ => rfl, rfl⟩)
  refine ⟨r, ?_, p₁, p₂, _, hread', hp₁, hp₂, hsame⟩
  exact ((hlock b hb hinvoiced r cs hr).mpr fun _ => hcarries.2).mp hunlocked

end VesselCaller.Measurements
