import VesselCaller.Measurements.CumulativeBilling

/-!
# The charge rule

What `create_assessment` charges for one cargo line: the variance of the final quantity
over the baseline, less a tolerance that is either a threshold or deducted, times the
rate, rounded to cents.  The rule is monotone in each of its figures although it jumps
at the tolerance, because the rounding is monotone and the jump goes up; the assessment
is then held, ready or without charge by the signs of its lines and of their sum.

## Main definitions

* `AssessmentLine.Rated` — a line charged by the rule;
* `Assessment.Written`, `Assessment.Judged` — its total, and its status.
-/

namespace VesselCaller.Measurements

open Lib Accounts Billing Operations

/-! ## The chargeable quantity -/

section Chargeable

variable {variance tolerance : Decimal 3} {mode : ToleranceMode}

/-- Nothing within the tolerance is chargeable. -/
theorem chargeableOf_of_le (h : variance ≤ tolerance) : chargeableOf variance tolerance mode = 0 :=
  if_neg (not_lt.mpr h)

theorem chargeableOf_of_lt (h : tolerance < variance) : chargeableOf variance tolerance mode =
    match mode with
    | .threshold => variance
    | .deductible => variance - tolerance :=
  if_pos h

theorem chargeableOf_nonneg (htolerance : 0 ≤ tolerance) :
    0 ≤ chargeableOf variance tolerance mode := by
  obtain h | h := le_or_gt variance tolerance
  · rw [chargeableOf_of_le h]
  · rw [chargeableOf_of_lt h]
    cases mode with
    | threshold => exact htolerance.trans h.le
    | deductible => exact sub_nonneg.mpr h.le

/-- A larger variance over a smaller tolerance is chargeable for no less. -/
theorem chargeableOf_le {variance' tolerance' : Decimal 3} (htolerance' : 0 ≤ tolerance')
    (hvariance : variance ≤ variance') (htolerance : tolerance' ≤ tolerance) :
    chargeableOf variance tolerance mode ≤ chargeableOf variance' tolerance' mode := by
  obtain h | h := le_or_gt variance tolerance
  · rw [chargeableOf_of_le h]
    exact chargeableOf_nonneg htolerance'
  · rw [chargeableOf_of_lt h, chargeableOf_of_lt (htolerance.trans_lt (h.trans_le hvariance))]
    cases mode with
    | threshold => exact hvariance
    | deductible => exact sub_le_sub hvariance htolerance

/-- A deducted tolerance leaves no more than a threshold does. -/
theorem chargeableOf_deductible_le (htolerance : 0 ≤ tolerance) :
    chargeableOf variance tolerance .deductible ≤ chargeableOf variance tolerance .threshold := by
  obtain h | h := le_or_gt variance tolerance
  · rw [chargeableOf_of_le h, chargeableOf_of_le h]
  · rw [chargeableOf_of_lt h, chargeableOf_of_lt h]
    exact sub_le_self _ htolerance

end Chargeable

/-- What is charged for a quantity grows with the quantity and with the rate. -/
theorem charge_le {quantity quantity' : Decimal 3} {rate rate' : Decimal 4}
    (hquantity : 0 ≤ quantity) (hrate : 0 ≤ rate) (hle : quantity ≤ quantity')
    (hle' : rate ≤ rate') : money 5 (quantity * rate) ≤ money 5 (quantity' * rate') := by
  have hproduct : quantity * rate ≤ quantity' * rate' :=
    mul_le_mul hle hle' hrate (hquantity.trans hle)
  exact quantize_le_quantize 5 (mul_nonneg hquantity hrate) hproduct

/-! ## The lines of an assessment -/

/-- The line is what the charge rule makes of its own figures. -/
structure AssessmentLine.Rated (l : AssessmentLine) : Prop where
  variance : l.variance = l.finalQuantity - l.baselineQuantity
  rate : 0 ≤ l.rate
  tolerance : 0 ≤ l.tolerance
  chargeable : l.chargeableQuantity = chargeableOf l.variance l.tolerance l.toleranceMode
  entitlement : l.entitlement = money 5 (l.chargeableQuantity * l.rate)

namespace AssessmentLine.Rated

variable {l l' : AssessmentLine}

theorem chargeable_nonneg (h : l.Rated) : 0 ≤ l.chargeableQuantity := by
  rw [h.chargeable]
  exact chargeableOf_nonneg h.tolerance

theorem entitlement_nonneg (h : l.Rated) : 0 ≤ l.entitlement := by
  rw [h.entitlement]
  exact quantize_nonneg 5 (mul_nonneg h.chargeable_nonneg h.rate)

theorem entitlement_of_le (h : l.Rated) (hle : l.variance ≤ l.tolerance) : l.entitlement = 0 := by
  rw [h.entitlement, h.chargeable, chargeableOf_of_le hle, zero_mul]
  exact quantize_zero_right 5

/-- A line that is chargeable for no less, at no lower a rate, is charged no less. -/
theorem entitlement_le (h : l.Rated) (h' : l'.Rated)
    (hchargeable : l.chargeableQuantity ≤ l'.chargeableQuantity) (hrate : l.rate ≤ l'.rate) :
    l.entitlement ≤ l'.entitlement := by
  rw [h.entitlement, h'.entitlement]
  exact charge_le h.chargeable_nonneg h.rate hchargeable hrate

end AssessmentLine.Rated

variable {sha : Sha256} {t t' : Tenant} {ctx : Ctx} {actor : Id} {p p' : MeasurementPlan}

theorem assessLine_rated {invoices : List Invoice} {r : Reconciliation} {policy : Policy}
    {item : AssessmentLineInput} {c : AssessmentLine × ConfigurationLine} (hitem : item.Admitted)
    (h : assessLine invoices p r policy item = .ok c) : c.1.Rated := by
  simp only [assessLine, bind_eq_ok, pure_eq_ok] at h
  obtain ⟨_, _, _, _, _, _, _, _, rfl⟩ := h
  exact ⟨rfl, hitem.rate.1, hitem.tolerance.1, rfl, rfl⟩

/-- The assessment is what `create_assessment` wrote for some valid request. -/
def Assessment.Written (a : Assessment) : Prop :=
  ∃ t ctx actor p p' data, AssessmentInput.validate data = .ok () ∧
    createAssessment t ctx actor p data = .ok p' ∧ p'.assessments = p.assessments ++ [a]

/-- The status the signs of the lines and of the total give. -/
structure Assessment.Judged (a : Assessment) : Prop where
  total : a.total = (a.lines.map AssessmentLine.amount).sum
  held : a.status = .held ↔ ∃ l ∈ a.lines, l.variance < 0 ∨ l.amount < 0
  ready : a.status = .ready ↔ (∀ l ∈ a.lines, 0 ≤ l.variance ∧ 0 ≤ l.amount) ∧ 0 < a.total
  noCharge : a.status = .noCharge ↔ (∀ l ∈ a.lines, 0 ≤ l.variance ∧ 0 ≤ l.amount) ∧ a.total ≤ 0

/-- An accepted request to assess a plan. -/
theorem handle_assess {planId : Id} {data : AssessmentInput} {r : VesselCaller.Response}
    (h : t.handle sha (.measurements actor ctx (.assess planId data)) = .ok (t', r)) :
    data.validate = .ok () ∧ ∃ p ∈ t.plans, p.id = planId ∧ ∃ p',
      createAssessment t ctx actor p data = .ok p' ∧ t' = t.changed p' := by
  simp only [Tenant.handle, Op.handle, changedResponse, bind_eq_ok, pure_eq_ok, Prod.exists,
    Prod.mk.injEq] at h
  obtain ⟨_, _, t₁, _, ⟨_, hvalid, p, hp, p', hp', rfl, _⟩, rfl, _⟩ := h
  obtain ⟨mem, rfl⟩ := getPlan_eq_ok hp
  exact ⟨hvalid, p, mem, rfl, p', hp', rfl⟩

/-- It writes an assessment of the plan. -/
theorem exists_written {planId : Id} {data : AssessmentInput} {r : VesselCaller.Response}
    (h : t.handle sha (.measurements actor ctx (.assess planId data)) = .ok (t', r)) :
    ∃ p ∈ t'.plans, ∃ a ∈ p.assessments, a.Written := by
  obtain ⟨hvalid, p, mem, _, p', hp', rfl⟩ := handle_assess h
  obtain ⟨_, a, ha⟩ := createAssessment_eq_ok hvalid hp'
  have happend : p'.assessments = p.assessments ++ [a] := by rw [ha.plan]
  refine ⟨p'.advance, Table.mem_put_self mem ?_, a, ?_, t, ctx, actor, p, p', data, hvalid, hp',
    happend⟩
  · rw [MeasurementPlan.advance, ha.plan]
    rfl
  · rw [MeasurementPlan.advance, ha.plan]
    exact List.mem_append_right _ List.mem_cons_self

theorem Assessment.Written.rated {a : Assessment} (h : a.Written) : ∀ l ∈ a.lines, l.Rated := by
  obtain ⟨t, ctx, actor, p, p', data, hdata, hassess, happend⟩ := h
  simp only [createAssessment, bind_eq_ok, pure_eq_ok] at hassess
  obtain ⟨_, _, r, _, _, _, _, _, cs, hcs, _, _, _, _, _, _, rfl⟩ := hassess
  obtain rfl := List.singleton_inj.mp (List.append_cancel_left happend)
  intro l hl
  obtain ⟨c, hc, rfl⟩ := List.mem_map.mp hl
  obtain ⟨item, hitem, hline⟩ := mem_of_mapM_eq_ok hcs c hc
  exact assessLine_rated (AssessmentInput.admitted hdata item hitem) hline

theorem AssessmentLine.held_iff {l : AssessmentLine} :
    l.held = true ↔ l.variance < 0 ∨ l.amount < 0 := by
  simp [AssessmentLine.held]

theorem Assessment.Written.judged {a : Assessment} (h : a.Written) : a.Judged := by
  obtain ⟨t, ctx, actor, p, p', data, hdata, hassess, happend⟩ := h
  simp only [createAssessment, bind_eq_ok, pure_eq_ok] at hassess
  obtain ⟨_, _, r, _, _, _, _, _, cs, hcs, _, _, _, _, _, _, rfl⟩ := hassess
  obtain rfl := List.singleton_inj.mp (List.append_cancel_left happend)
  have hheld : (cs.map Prod.fst).any AssessmentLine.held = true ↔
      ∃ l ∈ cs.map Prod.fst, l.variance < 0 ∨ l.amount < 0 := by
    simp only [List.any_eq_true, AssessmentLine.held_iff]
  have hclear : (cs.map Prod.fst).any AssessmentLine.held = false ↔
      ∀ l ∈ cs.map Prod.fst, 0 ≤ l.variance ∧ 0 ≤ l.amount := by
    rw [← Bool.not_eq_true, hheld]
    push Not
    rfl
  -- The status is decided in the order of the source: held, ready, no charge.
  refine ⟨quantize_zero _, ?_, ?_, ?_⟩
  · rw [← hheld]
    dsimp only
    split
    · rename_i hany
      exact iff_of_true rfl hany
    · rename_i hany
      refine iff_of_false ?_ hany
      split <;> exact fun heq => by cases heq
  · rw [← hclear]
    dsimp only
    split
    · rename_i hany
      exact iff_of_false (fun heq => by cases heq) fun hboth => by simp [hany] at hboth
    · rename_i hany
      split
      · rename_i hpositive
        exact iff_of_true rfl ⟨Bool.eq_false_iff.mpr hany, hpositive⟩
      · rename_i hpositive
        exact iff_of_false (fun heq => by cases heq) fun hboth => hpositive hboth.2
  · rw [← hclear]
    dsimp only
    split
    · rename_i hany
      exact iff_of_false (fun heq => by cases heq) fun hboth => by simp [hany] at hboth
    · rename_i hany
      split
      · rename_i hpositive
        exact iff_of_false (fun heq => by cases heq) fun hboth => not_le.mpr hpositive hboth.2
      · rename_i hpositive
        exact iff_of_true rfl ⟨Bool.eq_false_iff.mpr hany, not_lt.mp hpositive⟩

theorem Assessed.isWritten {a : Assessment} (h : Assessed t p p' a) : a.Written := by
  obtain ⟨ctx, actor, data, hvalid, hcall⟩ := h.written
  exact ⟨t, ctx, actor, p, p', data, hvalid, hcall, by rw [h.plan]⟩

/-- **The invariant rule for assessments.**  What holds of a written assessment and
survives its issuance holds of every assessment after a request. -/
theorem forall_assessments {kind : RequestKind} {I : Assessment → Prop}
    (he : Effect sha kind t t') (written : ∀ a, a.Written → I a)
    (issued : ∀ a : Assessment, I a → I { a with status := .issued })
    (hI : ∀ p ∈ t.plans, ∀ a ∈ p.assessments, I a) : ∀ p ∈ t'.plans, ∀ a ∈ p.assessments, I a := by
  intro p hp
  cases he with
  | quiet plans _ => exact hI p (plans ▸ hp)
  | created q hnew _ plans _ =>
      rw [plans, List.mem_append, List.mem_singleton] at hp
      obtain hp | rfl := hp
      · exact hI p hp
      · simp [hnew.assessments]
  | mutated q q' hq _ hassessments _ plans _ =>
      rw [plans] at hp
      obtain rfl | ⟨hp, _⟩ := Table.mem_put hp
      · intro a ha
        change a ∈ q'.assessments at ha
        obtain hsame | ⟨b, hb⟩ := hassessments
        · exact hI q hq a (hsame ▸ ha)
        · rw [hb.plan] at ha
          obtain ha | ha := List.mem_append.mp ha
          · exact hI q hq a ha
          · obtain rfl := List.mem_singleton.mp ha
            exact written a hb.isWritten
      · exact hI p hp
  | kept q q' hq hu _ plans _ =>
      rw [plans] at hp
      obtain rfl | ⟨hp, _⟩ := Table.mem_put hp
      · rw [upkeep_assessments hu]
        exact hI q hq
      · exact hI p hp
  | issued q q' a i hq hi _ plans _ =>
      rw [plans] at hp
      obtain rfl | ⟨hp, _⟩ := Table.mem_put hp
      · intro b hb
        change b ∈ q'.assessments at hb
        rw [hi.plan] at hb
        obtain rfl | ⟨hb, _⟩ := Table.mem_put hb
        · exact issued a (hI q hq a hi.assessment)
        · exact hI q hq b hb
      · exact hI p hp
  | billed _ _ _ _ plans _ => exact hI p (plans ▸ hp)
  | settled _ _ _ _ _ plans _ => exact hI p (plans ▸ hp)

/-- **The laws of the charge rule.**  Of the lines of any two written assessments: an
entitlement is nonnegative, and zero when the variance is within the tolerance; under
one tolerance mode, a line with no smaller a final quantity, no lower a rate, no larger
a baseline and no larger a tolerance is entitled to no less; with the same figures a
deducted tolerance entitles to no more than a threshold.  And an assessment is held
exactly when some line has a negative variance or amount, otherwise ready exactly when
its total is positive, and without charge otherwise, the total being the exact sum of
the amounts. -/
theorem charge_rule {a a' : Assessment} (h : a.Written) (h' : a'.Written) :
    (∀ l ∈ a.lines, l.variance = l.finalQuantity - l.baselineQuantity ∧ 0 ≤ l.entitlement ∧
      (l.variance ≤ l.tolerance → l.entitlement = 0)) ∧
    (∀ l ∈ a.lines, ∀ l' ∈ a'.lines, l.toleranceMode = l'.toleranceMode →
      l.finalQuantity ≤ l'.finalQuantity → l.rate ≤ l'.rate →
      l'.baselineQuantity ≤ l.baselineQuantity → l'.tolerance ≤ l.tolerance →
      l.entitlement ≤ l'.entitlement) ∧
    (∀ l ∈ a.lines, ∀ l' ∈ a'.lines, l.toleranceMode = .deductible →
      l'.toleranceMode = .threshold → l.finalQuantity = l'.finalQuantity → l.rate = l'.rate →
      l.baselineQuantity = l'.baselineQuantity → l.tolerance = l'.tolerance →
      l.entitlement ≤ l'.entitlement) ∧
    (a.status = .held ↔ ∃ l ∈ a.lines, l.variance < 0 ∨ l.amount < 0) ∧
    (a.status = .ready ↔ a.status ≠ .held ∧ 0 < a.total) ∧
    (a.status = .noCharge ↔ a.status ≠ .held ∧ ¬0 < a.total) ∧
    a.total = (a.lines.map AssessmentLine.amount).sum := by
  have hjudged := h.judged
  have hnotHeld : a.status ≠ .held ↔ ∀ l ∈ a.lines, 0 ≤ l.variance ∧ 0 ≤ l.amount := by
    rw [ne_eq, hjudged.held]
    push Not
    rfl
  refine ⟨?_, ?_, ?_, hjudged.held, ?_, ?_, hjudged.total⟩
  · intro l hl
    have hrated := h.rated l hl
    exact ⟨hrated.variance, hrated.entitlement_nonneg, hrated.entitlement_of_le⟩
  · intro l hl l' hl' hmode hfinal hrate hbaseline htolerance
    have hrated := h.rated l hl
    have hrated' := h'.rated l' hl'
    have hvariance : l.variance ≤ l'.variance := by
      rw [hrated.variance, hrated'.variance]
      exact sub_le_sub hfinal hbaseline
    refine hrated.entitlement_le hrated' ?_ hrate
    -- The entitlement is monotone in what is chargeable, and that in variance and tolerance.
    rw [hrated.chargeable, hrated'.chargeable, hmode]
    exact chargeableOf_le hrated'.tolerance hvariance htolerance
  · intro l hl l' hl' hdeductible hthreshold hfinal hrate hbaseline htolerance
    have hrated := h.rated l hl
    have hrated' := h'.rated l' hl'
    have hvariance : l.variance = l'.variance := by
      rw [hrated.variance, hrated'.variance, hfinal, hbaseline]
    refine hrated.entitlement_le hrated' ?_ hrate.le
    rw [hrated.chargeable, hrated'.chargeable, hdeductible, hthreshold, hvariance, htolerance]
    exact chargeableOf_deductible_le hrated'.tolerance
  · rw [hnotHeld]
    exact hjudged.ready
  · rw [hnotHeld, not_lt]
    exact hjudged.noCharge

/-- The assessment of the sample history, ready at 500.00, compared with itself. -/
theorem charge_rule_sample : ∃ a : Assessment, a.Written ∧ a.status = .ready ∧
    (a.status = .ready ↔ a.status ≠ .held ∧ 0 < a.total) ∧
    ∀ l ∈ a.lines, 0 ≤ l.entitlement ∧ l.entitlement = 50000 := by
  have hok : (Tenant.handle Sample.sha (run (Tenant.handle Sample.sha) Sample.tenant
      Sample.finalized) (Sample.assessed.getLast (by decide))).isOk = true := by decide +kernel
  obtain ⟨t', r, hassess⟩ := exists_of_isOk hok
  obtain ⟨p, hp, a, ha, hwritten⟩ := exists_written hassess
  have hready : ∀ p ∈ t'.plans, ∀ a ∈ p.assessments, a.status = .ready ∧
      ∀ l ∈ a.lines, l.entitlement = 50000 := by
    have hrun : run (Tenant.handle Sample.sha) Sample.tenant Sample.assessed = t' := by
      rw [Sample.assessed, run_concat]
      exact serve_of_ok _ hassess
    rw [← hrun]
    decide +kernel
  obtain ⟨hstatus, hlines⟩ := hready p hp a ha
  have hlaws := charge_rule hwritten hwritten
  refine ⟨a, hwritten, hstatus, hlaws.2.2.2.2.1, fun l hl => ⟨?_, hlines l hl⟩⟩
  exact (hlaws.1 l hl).2.1

end VesselCaller.Measurements
