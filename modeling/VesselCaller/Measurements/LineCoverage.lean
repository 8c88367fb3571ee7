import VesselCaller.Measurements.Arithmetic
import VesselCaller.Measurements.ConfigurationLock

/-!
# Line coverage

Returns, reconciliations and assessments are checked against the cargo lines of the plan when
they are written, and later code indexes them by the lines the plan has then.  What joins the
two is the structure lock: whatever has lines also keeps the lines of the plan as they are.

* `Coverage` — the invariant: every stored list of lines is the plan's, each line once, and
  counted lines have whole figures;
* `reconciledAt`, `priorAt`, `snapshotAt` — the three lookups by a line;
* `line_coverage` — the invariant holds in every reachable tenant and no lookup misses.
-/

namespace VesselCaller.Measurements

open Lib Accounts Billing Operations

variable {sha : Sha256} {t t' : Tenant} {ctx : Ctx} {actor : Id} {p p' : MeasurementPlan}

/-! ## Stored lines -/

/-- The keys are those of the plan's cargo lines, each once. -/
def Covers (p : MeasurementPlan) (ids : List Id) : Prop := ids.Perm (Table.keys p.lines)

/-- The return of a cargo line of the plan. -/
def SubmissionLine.Measures (p : MeasurementPlan) (l : SubmissionLine) : Prop :=
  ∃ line ∈ p.lines, line.id = l.lineId ∧
    (line.unit = .count → ∀ v, l.quantity = some v → isWhole v = true)

/-- The quantities of an assessment line are whole. -/
structure AssessmentLine.Whole (l : AssessmentLine) : Prop where
  baseline : isWhole l.baselineQuantity = true
  final : isWhole l.finalQuantity = true
  variance : isWhole l.variance = true
  tolerance : isWhole l.tolerance = true
  chargeable : isWhole l.chargeableQuantity = true

/-- The calculation of a cargo line of the plan. -/
def AssessmentLine.Measures (p : MeasurementPlan) (l : AssessmentLine) : Prop :=
  ∃ line ∈ p.lines, line.id = l.lineId ∧ l.unit = line.unit ∧ (line.unit = .count → l.Whole)

/-- The stored lines of the plan are those of its cargo lines. -/
structure Coverage (p : MeasurementPlan) : Prop where
  measured : Measured p
  submissions : ∀ s ∈ p.submissions,
    Covers p (s.lines.map SubmissionLine.lineId) ∧ ∀ l ∈ s.lines, l.Measures p
  reconciliations : ∀ r ∈ p.reconciliations, r.snapshot.lines = p.lines ∧
    Covers p (r.lines.map ReconciliationLine.lineId) ∧ ∀ l ∈ r.lines, l.Measures p
  assessments : ∀ a ∈ p.assessments, (∃ r ∈ p.reconciliations, r.id = a.reconciliationId) ∧
    Covers p (a.lines.map AssessmentLine.lineId) ∧ ∀ l ∈ a.lines, l.Measures p

/-- What covers a plan is told by its lines. -/
theorem Covers.congr {ids : List Id} (h : Covers p ids) (hlines : p'.lines = p.lines) :
    Covers p' ids := by
  rw [Covers, hlines]
  exact h

/-- What a return measures is told by the lines of the plan. -/
theorem SubmissionLine.Measures.congr {l : SubmissionLine} (h : l.Measures p)
    (hlines : p'.lines = p.lines) : l.Measures p' := by
  rw [SubmissionLine.Measures, hlines]
  exact h

/-- What a reconciliation measures is told by the lines of the plan. -/
theorem ReconciliationLine.Measures.congr {l : ReconciliationLine} (h : l.Measures p)
    (hlines : p'.lines = p.lines) : l.Measures p' := by
  rw [ReconciliationLine.Measures, hlines]
  exact h

/-- What an assessment measures is told by the lines of the plan. -/
theorem AssessmentLine.Measures.congr {l : AssessmentLine} (h : l.Measures p)
    (hlines : p'.lines = p.lines) : l.Measures p' := by
  rw [AssessmentLine.Measures, hlines]
  exact h

/-! ## Whole figures -/

/-- A whole count has no thousandths. -/
theorem isWhole_iff {v : Decimal 3} : isWhole v = true ↔ (1000 : ℤ) ∣ v := by
  rw [isWhole, decide_eq_true_eq]
  exact Int.dvd_iff_emod_eq_zero.symm

/-- The difference of whole counts is whole. -/
theorem isWhole_sub {v w : Decimal 3} (hv : isWhole v = true) (hw : isWhole w = true) :
    isWhole (v - w) = true :=
  isWhole_iff.mpr (Int.dvd_sub (isWhole_iff.mp hv) (isWhole_iff.mp hw))

/-- Of a whole variance a whole count is charged. -/
theorem isWhole_chargeableOf {v tolerance : Decimal 3} (mode : ToleranceMode)
    (hv : isWhole v = true) (htolerance : isWhole tolerance = true) :
    isWhole (chargeableOf v tolerance mode) = true := by
  obtain h | h := le_or_gt v tolerance
  · rw [chargeableOf_of_le h]
    rfl
  · rw [chargeableOf_of_lt h]
    cases mode with
    | threshold => exact hv
    | deductible => exact isWhole_sub hv htolerance

/-! ## What is written -/

/-- A return covers the lines of its plan. -/
theorem Submitted.covers (h : Lifecycle p) {s : Submission} (hs : Submitted t p p' s) :
    Covers p (s.lines.map SubmissionLine.lineId) ∧ ∀ l ∈ s.lines, l.Measures p := by
  constructor
  · have hperm := validateLines_perm hs.supplied h.lineKeys
    rw [List.map_map] at hperm
    exact hperm
  · intro l hl
    obtain ⟨line, hline, hid, hwhole⟩ :=
      mem_of_validateLines hs.supplied (List.mem_map_of_mem hl)
    exact ⟨line, hline, hid, fun hunit => (hwhole hunit).quantity⟩

/-- The calculation of a request line that was checked: whole figures go into it where the
cargo line is counted, and whole quantities come out. -/
theorem assessLine_measures (h : Lifecycle p) (hp : Coverage p) {r : Reconciliation}
    (hr : r ∈ p.reconciliations) {data : AssessmentInput} {u : Unit}
    (hlines : validateLines p (data.lines.map AssessmentLineInput.fields) = .ok u)
    {item : AssessmentLineInput} (hitem : item ∈ data.lines)
    {c : AssessmentLine × ConfigurationLine}
    (hc : assessLine t.invoices p r data.policy item = .ok c) : c.1.Measures p := by
  obtain ⟨line, hline, hid, hwhole⟩ :=
    mem_of_validateLines hlines (List.mem_map_of_mem hitem)
  simp only [assessLine, bind_eq_ok, orRaise_eq_ok, raiseIf_eq_ok, pure_eq_ok] at hc
  obtain ⟨line', hline', final, hfinal, baseline, hbaseline, _, _, rfl⟩ := hc
  obtain ⟨mem', hid'⟩ := Table.mem_of_get hline'
  obtain rfl := Table.eq_of_key_eq h.lineKeys hline mem' (hid.trans hid'.symm)
  refine ⟨line, hline, rfl, rfl, fun hunit => ?_⟩
  -- The reconciled line is of the same cargo line, so its figures are whole too.
  obtain ⟨line₁, hline₁, hid₁, hmanifest, _, hquantity⟩ :=
    (hp.reconciliations r hr).2.2 final (List.mem_of_find?_eq_some hfinal)
  have hlineId : final.lineId = line.id := by simpa using List.find?_some hfinal
  obtain rfl := Table.eq_of_key_eq h.lineKeys hline hline₁ (hlineId.symm.trans hid₁.symm)
  have hbase : isWhole baseline.value = true := by
    split at hbaseline
    · rw [hmanifest, Option.map_eq_some_iff] at hbaseline
      obtain ⟨q, hq, rfl⟩ := hbaseline
      rw [DecimalText.value_ofColumn]
      exact (hp.measured.lines.declared line hline).whole hunit q hq
    · exact (hwhole hunit).previous _ (by rw [AssessmentLineInput.fields, hbaseline]; rfl)
  have htolerance : isWhole item.tolerance.value = true := (hwhole hunit).tolerance _ rfl
  have hvariance := isWhole_sub (hquantity hunit) hbase
  exact ⟨hbase, hquantity hunit, hvariance, htolerance,
    isWhole_chargeableOf _ hvariance htolerance⟩

/-- An assessment covers the lines of its plan, for a reconciliation of the plan. -/
theorem Assessed.covers (h : Lifecycle p) (hp : Coverage p) {a : Assessment}
    (ha : Assessed t p p' a) : (∃ r ∈ p.reconciliations, r.id = a.reconciliationId) ∧
      Covers p (a.lines.map AssessmentLine.lineId) ∧ ∀ l ∈ a.lines, l.Measures p := by
  obtain ⟨ctx, actor, data, _, hassess⟩ := ha.written
  obtain ⟨r, cs, hreaches, _, _, _, hplan⟩ := createAssessment_eq_ok_iff.mp hassess
  have hr := (getReconciliation_eq_ok hreaches.reconciliation).1
  obtain rfl : data.assessment ctx actor r cs = a := by
    have happend := congrArg MeasurementPlan.assessments (hplan.symm.trans ha.plan)
    exact List.singleton_inj.mp (List.append_cancel_left happend)
  refine ⟨⟨r, hr, rfl⟩, ha.lines h.lineKeys, fun l hl => ?_⟩
  obtain ⟨c, hc, rfl⟩ := List.mem_map.mp hl
  obtain ⟨item, hitem, hline⟩ := mem_of_mapM_eq_ok hreaches.calculations c hc
  exact assessLine_measures h hp hr hreaches.lines hitem hline

/-! ## Every operation keeps the lines covered -/

/-- A new plan is covered. -/
theorem New.coverage (h : New t p) : Coverage p where
  measured := h.measured
  submissions := by simp [h.submissions]
  reconciliations := by simp [h.reconciliations]
  assessments := by simp [h.assessments]

/-- Nothing that has lines is there while the structure can change. -/
theorem lines_of_mutation (hm : Mutation sha t p p')
    (hne : p.submissions ≠ [] ∨ p.reconciliations ≠ []) : p'.lines = p.lines :=
  (LockedAs.mutation ⟨.inr hne, rfl, rfl⟩ hm).lines

/-- What the plan had stays covered. -/
theorem Coverage.kept (hp : Coverage p) (hm : Mutation sha t p p') :
    (∀ s ∈ p.submissions, Covers p' (s.lines.map SubmissionLine.lineId) ∧
      ∀ l ∈ s.lines, l.Measures p') ∧
    (∀ r ∈ p.reconciliations, r.snapshot.lines = p'.lines ∧
      Covers p' (r.lines.map ReconciliationLine.lineId) ∧ ∀ l ∈ r.lines, l.Measures p') ∧
    ∀ a ∈ p.assessments, Covers p' (a.lines.map AssessmentLine.lineId) ∧
      ∀ l ∈ a.lines, l.Measures p' := by
  refine ⟨fun s hs => ?_, fun r hr => ?_, fun a ha => ?_⟩
  · have hlines := lines_of_mutation hm (.inl (List.ne_nil_of_mem hs))
    obtain ⟨hcovers, hmeasures⟩ := hp.submissions s hs
    exact ⟨hcovers.congr hlines, fun l hl => (hmeasures l hl).congr hlines⟩
  · have hlines := lines_of_mutation hm (.inr (List.ne_nil_of_mem hr))
    obtain ⟨hsnapshot, hcovers, hmeasures⟩ := hp.reconciliations r hr
    exact ⟨hsnapshot.trans hlines.symm, hcovers.congr hlines,
      fun l hl => (hmeasures l hl).congr hlines⟩
  · obtain ⟨⟨r, hr, _⟩, hcovers, hmeasures⟩ := hp.assessments a ha
    have hlines := lines_of_mutation hm (.inr (List.ne_nil_of_mem hr))
    exact ⟨hcovers.congr hlines, fun l hl => (hmeasures l hl).congr hlines⟩

/-- A return of the plan after a mutation was there, or was just submitted. -/
theorem mutation_submission_origin (hm : Mutation sha t p p') {s : Submission}
    (hs : s ∈ p'.submissions) :
    s ∈ p.submissions ∨ p'.lines = p.lines ∧ ∃ p₁, Submitted t p p₁ s := by
  have hnew : ∀ {p₁ s'}, Submitted t p p₁ s' → p'.lines = p₁.lines → s ∈ p₁.submissions →
      s ∈ p.submissions ∨ p'.lines = p.lines ∧ ∃ p₁, Submitted t p p₁ s := by
    intro p₁ s' hs' hlines hmem
    rw [hs'.plan, List.mem_append, List.mem_singleton] at hmem
    rcases hmem with hmem | rfl
    · exact .inl hmem
    · exact .inr ⟨by rw [hlines, hs'.plan], p₁, hs'⟩
  cases hm with
  | patched _ hp => exact .inl (hp.submissions ▸ hs)
  | submitted s' hs' => exact hnew hs' rfl hs
  | guest p₁ s' link hs' hplan => exact hnew hs' (by rw [hplan]) (by rwa [hplan] at hs)
  | proposed actor r hr => exact .inl (by rwa [hr.plan] at hs)
  | approved r a _ ha => exact .inl (by rwa [ha.plan] at hs)
  | finalized ctx actor r r' _ hf => exact .inl (by rwa [hf.plan] at hs)
  | assessed a ha => exact .inl (by rwa [ha.plan] at hs)
  | issued t' a i hi => exact .inl (by rwa [hi.plan] at hs)

/-- Where the lines of an assessment of the plan after a mutation come from. -/
theorem mutation_assessment_origin (hm : Mutation sha t p p') {a' : Assessment}
    (ha' : a' ∈ p'.assessments) :
    (∃ a ∈ p.assessments, a'.lines = a.lines ∧ a'.reconciliationId = a.reconciliationId) ∨
      Assessed t p p' a' := by
  cases hm with
  | patched _ hp => exact .inl ⟨a', hp.assessments ▸ ha', rfl, rfl⟩
  | submitted s hs =>
      rw [hs.plan] at ha'
      exact .inl ⟨a', ha', rfl, rfl⟩
  | guest p₁ s link hs hplan =>
      rw [hplan, hs.plan] at ha'
      exact .inl ⟨a', ha', rfl, rfl⟩
  | proposed actor r hr =>
      rw [hr.plan] at ha'
      exact .inl ⟨a', ha', rfl, rfl⟩
  | approved r a _ ha =>
      rw [ha.plan] at ha'
      exact .inl ⟨a', ha', rfl, rfl⟩
  | finalized ctx actor r r' _ hf =>
      rw [hf.plan] at ha'
      exact .inl ⟨a', ha', rfl, rfl⟩
  | assessed a ha =>
      have hmem := ha'
      rw [ha.plan, List.mem_append, List.mem_singleton] at hmem
      rcases hmem with hmem | rfl
      · exact .inl ⟨a', hmem, rfl, rfl⟩
      · exact .inr ha
  | issued t' a i hi =>
      rw [hi.plan] at ha'
      rcases Table.mem_put ha' with rfl | ⟨hmem, _⟩
      · exact .inl ⟨a, hi.assessment, rfl, rfl⟩
      · exact .inl ⟨a', hmem, rfl, rfl⟩

/-- A mutation keeps a plan covered. -/
theorem mutation_coverage (h : Lifecycle p) (hp : Coverage p) (hm : Mutation sha t p p') :
    Coverage p' := by
  obtain ⟨hsubmissions, hreconciliations, hassessments⟩ := hp.kept hm
  refine ⟨mutation_measured hp.measured hm, fun s hs => ?_, fun r' hr' => ?_, fun a' ha' => ?_⟩
  · rcases mutation_submission_origin hm hs with hmem | ⟨hlines, p₁, hnew⟩
    · exact hsubmissions s hmem
    · obtain ⟨hcovers, hmeasures⟩ := hnew.covers h
      exact ⟨hcovers.congr hlines, fun l hl => (hmeasures l hl).congr hlines⟩
  · rcases mutation_origin hm hr' with ⟨r, hr, hrr', hsnapshot, _⟩ | ⟨actor, hr⟩ |
      ⟨ctx, actor, r, hr, hf⟩
    · rw [hsnapshot, hrr'.lines]
      exact hreconciliations r hr
    · have hlines : p'.lines = p.lines := by rw [hr.plan]
      have hcovers : Covers p (r'.lines.map ReconciliationLine.lineId) := hr.lines h.lineKeys
      exact ⟨hr.snapshot.trans hlines.symm, hcovers.congr hlines,
        fun l hl => (hr.measured h.lineKeys l hl).congr hlines⟩
    · rw [hf.approved]
      obtain ⟨snapshot, rfl⟩ := hf.reconciliation
      exact hreconciliations r hr
  · have hkept : ∀ {id}, (∃ r ∈ p.reconciliations, r.id = id) →
        ∃ r ∈ p'.reconciliations, r.id = id := by
      rintro _ ⟨r, hr, rfl⟩
      obtain ⟨r', hr', hrr'⟩ := mutation_inherits h hm hr
      exact ⟨r', hr', hrr'.id⟩
    rcases mutation_assessment_origin hm ha' with ⟨a, ha, hlines, hid⟩ | hnew
    · rw [hlines, hid]
      exact ⟨hkept (hp.assessments a ha).1, hassessments a ha⟩
    · obtain ⟨hr, hcovers, hmeasures⟩ := hnew.covers h hp
      have hlines : p'.lines = p.lines := by rw [hnew.plan]
      exact ⟨hkept hr, hcovers.congr hlines, fun l hl => (hmeasures l hl).congr hlines⟩

/-- So do links and evidence. -/
theorem upkeep_coverage (hp : Coverage p) (hu : Upkeep p p') : Coverage p' := by
  cases hu with
  | links ls hplan _ =>
      subst hplan
      exact ⟨⟨hp.measured.lines, hp.measured.reconciled⟩, hp.submissions, hp.reconciliations,
        hp.assessments⟩
  | evidence es hplan =>
      subst hplan
      exact ⟨⟨hp.measured.lines, hp.measured.reconciled⟩, hp.submissions, hp.reconciliations,
        hp.assessments⟩

/-- So does the next version. -/
theorem Coverage.advance (hp : Coverage p) : Coverage p.advance :=
  ⟨⟨hp.measured.lines, hp.measured.reconciled⟩, hp.submissions, hp.reconciliations,
    hp.assessments⟩

/-! ## Lookups by a line -/

/-- The key that a dictionary lookup missed. -/
def keyError : ApiError := .server "KeyError"

/-- `reconciled[line]`, of the dictionary `create_assessment` builds. -/
def reconciledAt (r : Reconciliation) (line : Id) : Result ReconciliationLine :=
  orRaise (r.lines.find? fun l => l.lineId = line) keyError

/-- `prior[line]`, of the dictionary `prior_invoiced` returns: it has the cargo lines of the
plan as its keys. -/
def priorAt (invoices : List Invoice) (p : MeasurementPlan) (line : Id) : Result (Decimal 2) :=
  orRaise (((Table.get line p.lines)).map fun l => priorInvoiced invoices p l.id) keyError

/-- The line of the approved snapshot that `assessment_line_data` looks up first. -/
def snapshotAt (p : MeasurementPlan) (a : Assessment) (line : Id) : Result CargoLine := do
  let r ← orRaise (Table.get a.reconciliationId p.reconciliations)
    (.server "Reconciliation.DoesNotExist")
  orRaise (Table.get line r.snapshot.lines) keyError

/-- A covered line is a line of the plan. -/
theorem Covers.exists_of_mem {ids : List Id} (h : Covers p ids) {line : Id} (hline : line ∈ ids) :
    ∃ cargo, Table.get line p.lines = some cargo := by
  have hmem := h.mem_iff.mp hline
  cases hget : Table.get line p.lines with
  | none => exact absurd hmem (Table.get_eq_none_iff.mp hget)
  | some cargo => exact ⟨cargo, rfl⟩

/-- What was billed before is found for a covered line. -/
theorem Covers.priorAt {ids : List Id} (h : Covers p ids) (invoices : List Invoice) {line : Id}
    (hline : line ∈ ids) :
    Measurements.priorAt invoices p line = .ok (priorInvoiced invoices p line) := by
  obtain ⟨cargo, hget⟩ := h.exists_of_mem hline
  rw [Measurements.priorAt, hget, Option.map_some, orRaise_eq_ok, Option.some.injEq]
  exact congrArg (priorInvoiced invoices p) (Table.mem_of_get hget).2

/-- A reconciliation has a line for every cargo line. -/
theorem Coverage.reconciledAt (hp : Coverage p) {r : Reconciliation} (hr : r ∈ p.reconciliations)
    {line : Id} (hline : line ∈ Table.keys p.lines) :
    ∃ final, Measurements.reconciledAt r line = .ok final ∧ final.lineId = line := by
  have hmem := (hp.reconciliations r hr).2.1.mem_iff.mpr hline
  obtain ⟨l, hl, hid⟩ := List.mem_map.mp hmem
  cases hfind : r.lines.find? fun l => l.lineId = line with
  | none => exact absurd hid (by simpa using List.find?_eq_none.mp hfind l hl)
  | some final =>
      refine ⟨final, ?_, by simpa using List.find?_some hfind⟩
      rw [Measurements.reconciledAt, hfind]
      rfl

/-- What an assessment is for is snapshot with every line of it. -/
theorem Coverage.snapshotAt (h : Lifecycle p) (hp : Coverage p) {a : Assessment}
    (ha : a ∈ p.assessments) {l : AssessmentLine} (hl : l ∈ a.lines) :
    ∃ cargo ∈ p.lines, cargo.id = l.lineId ∧
      Measurements.snapshotAt p a l.lineId = .ok cargo := by
  obtain ⟨⟨r, hr, hid⟩, hcovers, _⟩ := hp.assessments a ha
  obtain ⟨cargo, hget⟩ := hcovers.exists_of_mem (List.mem_map_of_mem hl)
  obtain ⟨mem, hkey⟩ := Table.mem_of_get hget
  have hr' : Table.get r.id p.reconciliations = some r := Table.get_of_mem h.keys hr
  refine ⟨cargo, mem, hkey, ?_⟩
  rw [Measurements.snapshotAt, ← hid, hr', orRaise_of_some rfl, ok_bind,
    (hp.reconciliations r hr).1, hget]
  rfl

/-- A list that passed `validate_lines` covers the plan. -/
theorem covers_of_validateLines (h : Lifecycle p) {data : List LineFields} {u : Unit}
    (hdata : validateLines p data = .ok u) : Covers p (data.map LineFields.lineId) :=
  validateLines_perm hdata h.lineKeys

/-- `validate_lines` looks up only what it has checked. -/
theorem validateLines_avoids (data : List LineFields) :
    Avoids (· = keyError) (validateLines p data) := by
  unfold validateLines
  refine avoids_bind (avoids_raiseIf (by decide)) fun _ hchecked => avoids_forM fun item hitem => ?_
  simp only [raiseIf_eq_ok, not_or, not_not] at hchecked
  have hkey := hchecked.2.1 item.lineId (List.mem_map_of_mem hitem)
  cases hget : Table.get item.lineId p.lines with
  | none => exact absurd hkey (Table.get_eq_none_iff.mp hget)
  | some line =>
      rw [orRaise_of_some rfl, ok_bind]
      split
      · intro e he heq
        cases he
        cases heq
      · exact avoids_ok rfl

/-- The calculation of a line misses nothing in a plan that is covered. -/
theorem assessLine_avoids (hp : Coverage p) {r : Reconciliation} (hr : r ∈ p.reconciliations)
    (invoices : List Invoice) (policy : Policy) {item : AssessmentLineInput}
    (hitem : item.lineId ∈ Table.keys p.lines) :
    Avoids (· = keyError) (assessLine invoices p r policy item) := by
  unfold assessLine
  cases hget : Table.get item.lineId p.lines with
  | none => exact absurd hitem (Table.get_eq_none_iff.mp hget)
  | some line =>
      rw [orRaise_of_some rfl, ok_bind]
      have hid : line.id = item.lineId := (Table.mem_of_get hget).2
      rw [← hid] at hitem
      obtain ⟨final, hfinal, _⟩ := hp.reconciledAt hr hitem
      rw [reconciledAt, orRaise_eq_ok] at hfinal
      rw [orRaise_of_some hfinal, ok_bind]
      refine avoids_bind (avoids_orRaise (fun heq => by cases heq)) fun _ _ => ?_
      exact avoids_bind (avoids_raiseIf (by decide)) fun _ _ => avoids_ok rfl

/-- No request to assess a covered plan misses a key. -/
theorem createAssessment_avoids_keyError (h : Lifecycle p) (hp : Coverage p) (data : AssessmentInput) :
    Avoids (· = keyError) (createAssessment t ctx actor p data) := by
  have hversion : Avoids (· = keyError) (checkVersion p data.version) := by
    unfold checkVersion
    exact avoids_bind (avoids_raiseIf (by decide)) fun _ _ => avoids_raiseIf (by decide)
  unfold createAssessment
  refine avoids_bind hversion fun _ _ => avoids_bind (avoids_orRaise (by decide)) fun r hr =>
    avoids_bind (avoids_raiseIf (by decide)) fun _ _ =>
    avoids_bind (validateLines_avoids _) fun _ hlines => ?_
  refine avoids_bind (avoids_mapM fun item hitem => ?_) fun cs _ => ?_
  · refine assessLine_avoids hp (getReconciliation_eq_ok hr).1 _ _ ?_
    have hcovers := covers_of_validateLines h hlines
    rw [List.map_map] at hcovers
    exact hcovers.mem_iff.mp (List.mem_map_of_mem hitem)
  · exact avoids_bind (avoids_raiseIf (by decide)) fun _ _ =>
      avoids_bind (avoids_raiseIf (by decide)) fun _ _ =>
      avoids_bind (avoids_raiseIf (by decide)) fun _ _ => avoids_ok rfl

/-! ## Runs -/

/-- The plans are in order and their lines covered. -/
structure PlansCovered (t : Tenant) : Prop where
  plans : PlansInOrder t
  coverage : ∀ p ∈ t.plans, Coverage p

/-- A tenant without plans has them covered. -/
theorem PlansCovered.ofInitial (h : t.Initial) : PlansCovered t where
  plans := .ofInitial h
  coverage := by simp [h.plans]

/-- An accepted request keeps the plans covered. -/
theorem PlansCovered.step {r : Request} {a : VesselCaller.Response} (h : PlansCovered t)
    (hr : t.handle sha r = .ok (t', a)) : PlansCovered t' where
  plans := h.plans.step hr
  coverage := (handle_effect hr).forall_plans (fun _ hnew => hnew.coverage)
    (fun p _ mem hp hm => (mutation_coverage (h.plans.lifecycle p mem) hp hm).advance)
    (fun _ _ _ hp hu => upkeep_coverage hp hu) h.coverage

/-- **Line coverage.**  In every plan of every reachable tenant the lines of each return,
reconciliation and assessment are the plan's cargo lines, each once, with whole figures for
counted lines; no request to assess misses a key, neither at the reconciled lines nor at the
amounts invoiced before; and for every line of a stored assessment the amounts invoiced before
and the approved snapshot have their entry. -/
theorem line_coverage (sha : Sha256) {t₀ : Tenant} (h₀ : t₀.Initial) (rs : List Request)
    {p : MeasurementPlan} (hp : p ∈ (run (Tenant.handle sha) t₀ rs).plans) :
    (Table.keys p.lines).Nodup ∧
    (∀ s ∈ p.submissions, (s.lines.map SubmissionLine.lineId).Perm (Table.keys p.lines) ∧
      ∀ l ∈ s.lines, l.Measures p) ∧
    (∀ r ∈ p.reconciliations, (r.lines.map ReconciliationLine.lineId).Perm (Table.keys p.lines) ∧
      ∀ l ∈ r.lines, l.Measures p) ∧
    (∀ a ∈ p.assessments, (a.lines.map AssessmentLine.lineId).Perm (Table.keys p.lines) ∧
      ∀ l ∈ a.lines, l.Measures p) ∧
    (∀ ctx actor data, createAssessment (run (Tenant.handle sha) t₀ rs) ctx actor p data ≠
      .error keyError) ∧
    (∀ data : AssessmentInput, ∀ r u, getReconciliation p data.reconciliationId = .ok r →
      validateLines p (data.lines.map AssessmentLineInput.fields) = .ok u →
      ∀ item ∈ data.lines, (∃ final, reconciledAt r item.lineId = .ok final) ∧
        ∃ prior, priorAt (run (Tenant.handle sha) t₀ rs).invoices p item.lineId = .ok prior) ∧
    ∀ a ∈ p.assessments, ∀ l ∈ a.lines,
      priorAt (run (Tenant.handle sha) t₀ rs).invoices p l.lineId =
        .ok (priorInvoiced (run (Tenant.handle sha) t₀ rs).invoices p l.lineId) ∧
      ∃ cargo ∈ p.lines, cargo.id = l.lineId ∧ snapshotAt p a l.lineId = .ok cargo := by
  -- Each of the three kinds of record was checked against the lines of the plan when it was made.
  have hcovered : PlansCovered (run (Tenant.handle sha) t₀ rs) :=
    run_invariant (fun hs hr => hs.step hr) rs (.ofInitial h₀)
  have h := hcovered.plans.lifecycle p hp
  have hlines := hcovered.coverage p hp
  refine ⟨h.lineKeys, hlines.submissions, fun r hr => (hlines.reconciliations r hr).2,
    fun a ha => (hlines.assessments a ha).2, fun ctx actor data => ?_, ?_, ?_⟩
  · intro herror
    exact createAssessment_avoids_keyError h hlines data _ herror rfl
  · intro data r u hr hvalid item hitem
    -- The validation of the request has counted its lines against those of the plan.
    have hcovers := covers_of_validateLines h hvalid
    rw [List.map_map] at hcovers
    have hmem : item.lineId ∈ data.lines.map (LineFields.lineId ∘ AssessmentLineInput.fields) :=
      List.mem_map_of_mem hitem
    obtain ⟨final, hfinal, _⟩ :=
      hlines.reconciledAt (getReconciliation_eq_ok hr).1 (hcovers.mem_iff.mp hmem)
    exact ⟨⟨final, hfinal⟩, _, hcovers.priorAt _ hmem⟩
  · intro a ha l hl
    have hcovers := (hlines.assessments a ha).2.1
    exact ⟨hcovers.priorAt _ (List.mem_map_of_mem hl), hlines.snapshotAt h ha hl⟩

/-- The plan of the sample history, with a return, a reconciliation and an assessment. -/
theorem line_coverage_invoiced :
    ∃ p ∈ (run (Tenant.handle Sample.sha) Sample.tenant Sample.invoiced).plans,
      ∃ a ∈ p.assessments, ∃ l ∈ a.lines, ∃ cargo ∈ p.lines, cargo.id = l.lineId ∧
        snapshotAt p a l.lineId = .ok cargo := by
  have hplan : ∃ p ∈ (run (Tenant.handle Sample.sha) Sample.tenant Sample.invoiced).plans,
      ∃ a ∈ p.assessments, ∃ l ∈ a.lines, l.lineId ∈ Table.keys p.lines := by decide +kernel
  obtain ⟨p, hp, a, ha, l, hl, _⟩ := hplan
  obtain ⟨_, _, _, _, _, _, hlookups⟩ := line_coverage Sample.sha Sample.initial Sample.invoiced hp
  exact ⟨p, hp, a, ha, l, hl, (hlookups a ha l hl).2⟩

end VesselCaller.Measurements
