import VesselCaller.Closeout.Printer
import VesselCaller.Closeout.Returns
import VesselCaller.Closeout.Storage
import VesselCaller.Lib.Sorting
import Mathlib.Data.String.Basic

/-!
# What the fingerprint identifies

A report stands for as long as the fingerprint of its inputs stays.  `voyageInputFingerprint`
prints the plans that are not cancelled, in the order of their keys, each with the latest
return of every participant, in the order of the participants.

Plans that the server emits have the same fingerprint exactly when they say the same of every
sheet that is not cancelled (`fingerprint_eq_iff`).  So it does not depend on the order of
plans and submissions, on cancelled plans or on submissions that were superseded
(`Immaterial`), and it depends on everything else.

## Main definitions

* `SameSheet`, `SameSheets` — plans that say the same;
* `Listed`, `Collates` — plans as a server lists them, and a runtime that orders keys;
* `Immaterial` — one change that billing does not depend on.
-/

namespace VesselCaller.Closeout

open Lib

/-! ## Plans that say the same -/

/-- Plans that say the same of one sheet. -/
structure SameSheet (plan plan' : MeasurementPlan) : Prop where
  id : plan.id = plan'.id
  callId : plan.callId = plan'.callId
  version : plan.version = plan'.version
  title : plan.title = plan'.title
  scope : plan.scope = plan'.scope
  lines : plan.lines = plan'.lines
  participants : plan.participants = plan'.participants
  returns : ∀ participant, returnOf plan participant = returnOf plan' participant
  reconciliations : plan.reconciliations = plan'.reconciliations

theorem SameSheet.refl (plan : MeasurementPlan) : SameSheet plan plan :=
  ⟨rfl, rfl, rfl, rfl, rfl, rfl, rfl, fun _ => rfl, rfl⟩

theorem SameSheet.symm {plan plan' : MeasurementPlan} (h : SameSheet plan plan') :
    SameSheet plan' plan :=
  ⟨h.id.symm, h.callId.symm, h.version.symm, h.title.symm, h.scope.symm, h.lines.symm,
    h.participants.symm, fun participant => (h.returns participant).symm,
    h.reconciliations.symm⟩

/-- Every sheet of `plans` that is not cancelled is one of `plans'`. -/
def CoveredBy (plans plans' : List MeasurementPlan) : Prop :=
  ∀ plan ∈ plans, plan.status ≠ .cancelled →
    ∃ plan' ∈ plans', plan'.status ≠ .cancelled ∧ SameSheet plan plan'

/-- The sheets that are not cancelled say the same. -/
def SameSheets (plans plans' : List MeasurementPlan) : Prop :=
  CoveredBy plans plans' ∧ CoveredBy plans' plans

/-- Plans as the server emits them, with keys among `ids`. -/
structure Listed (ids : Set String) (plans : List MeasurementPlan) : Prop where
  distinct : (plans.map MeasurementPlan.id).Nodup
  entered : ∀ plan ∈ plans, Entered plan
  keys : ∀ plan ∈ plans, plan.id ∈ ids
  participants : ∀ plan ∈ plans, ∀ submission ∈ plan.submissions,
    submission.participantId ∈ ids

/-- The collation orders the keys. -/
def Collates (rt : Runtime) (ids : Set String) : Prop :=
  OrderOn (fun a b => rt.localeLe a b = true) ids

/-! ## Sheets -/

section Sheets

variable {rt : Runtime} {ids : Set String} {plan plan' : MeasurementPlan}

theorem mem_planInputs_returns {submission : Submission} :
    submission ∈ (planInputs rt plan).returns ↔ submission ∈ latestReturns plan :=
  List.mem_insertionSort _

/-- Plans with the same latest returns print the same returns. -/
theorem planInputs_returns_eq (hrt : Collates rt ids)
    (hids : ∀ submission ∈ plan.submissions, submission.participantId ∈ ids)
    (h : ∀ participant, returnOf plan participant = returnOf plan' participant) :
    (planInputs rt plan).returns = (planInputs rt plan').returns := by
  have hnodup : ∀ plan : MeasurementPlan, (latestReturns plan).Nodup := fun plan =>
    (kept_latestReturns plan).keys.of_map _
  have hperm : (latestReturns plan).Perm (latestReturns plan') := by
    apply (List.perm_ext_iff_of_nodup (hnodup plan) (hnodup plan')).mpr
    intro s
    have hmem : ∀ plan : MeasurementPlan,
        s ∈ latestReturns plan ↔ returnOf plan s.participantId = some s := by
      intro plan
      rw [returnOf_eq_some, and_iff_left rfl]
    rw [hmem, hmem, h]
  refine hrt.insertionSort_eq_of_perm (f := Submission.participantId) (fun s hs => ?_)
    (kept_latestReturns plan).keys hperm
  exact hids s ((kept_latestReturns plan).mem s hs)

/-- What is printed of a plan is what it says of its sheet. -/
theorem planInputs_eq_iff (hrt : Collates rt ids)
    (hids : ∀ submission ∈ plan.submissions, submission.participantId ∈ ids) :
    planInputs rt plan = planInputs rt plan' ↔ SameSheet plan plan' := by
  constructor
  · intro h
    have hreturns : ∀ submission,
        submission ∈ latestReturns plan ↔ submission ∈ latestReturns plan' := by
      intro submission
      rw [← @mem_planInputs_returns rt, h, mem_planInputs_returns]
    refine ⟨congrArg PlanInputs.id h, congrArg PlanInputs.callId h,
      congrArg PlanInputs.version h, congrArg PlanInputs.title h, congrArg PlanInputs.scope h,
      congrArg PlanInputs.lines h, congrArg PlanInputs.participants h, fun participant => ?_,
      congrArg PlanInputs.reconciliations h⟩
    apply Option.ext
    intro submission
    rw [returnOf_eq_some, returnOf_eq_some, hreturns]
  · intro h
    have hreturns := planInputs_returns_eq hrt hids h.returns
    dsimp only [planInputs] at hreturns ⊢
    rw [h.id, h.callId, h.version, h.title, h.scope, h.lines, h.participants,
      h.reconciliations, hreturns]

/-! ## The inputs of a voyage -/

/-- What the fingerprint prints. -/
def voyageInputs (rt : Runtime) (plans : List MeasurementPlan) : List PlanInputs :=
  (activePlans rt plans).map (planInputs rt)

theorem fingerprint_eq_voyageInputs (plans : List MeasurementPlan) :
    voyageInputFingerprint rt plans = rt.stringify (voyageInputs rt plans) :=
  rfl

variable {plans plans' : List MeasurementPlan}

theorem mem_voyageInputs {inputs : PlanInputs} : inputs ∈ voyageInputs rt plans ↔
    ∃ plan ∈ plans, plan.status ≠ .cancelled ∧ planInputs rt plan = inputs := by
  rw [voyageInputs, List.mem_map]
  simp only [mem_activePlans, and_assoc]

theorem voyageInputs_eq_sorted (plans : List MeasurementPlan) : voyageInputs rt plans =
    ((plans.filter fun plan => plan.status ≠ .cancelled).map (planInputs rt)).insertionSort
      fun a b => rt.localeLe a.id b.id = true :=
  List.map_insertionSort _ _ _ _ fun _ _ _ _ => Iff.rfl

/-- Listed plans print different keys. -/
theorem Listed.nodup_inputs (h : Listed ids plans) :
    (((plans.filter fun plan => plan.status ≠ .cancelled).map (planInputs rt)).map
      PlanInputs.id).Nodup := by
  rw [List.map_map]
  exact h.distinct.sublist (List.filter_sublist.map _)

theorem coveredBy_iff (hrt : Collates rt ids) (h : Listed ids plans) :
    CoveredBy plans plans' ↔ ∀ inputs ∈ voyageInputs rt plans, inputs ∈ voyageInputs rt plans' := by
  constructor
  · intro hcovered inputs hinputs
    obtain ⟨plan, hplan, hstatus, rfl⟩ := mem_voyageInputs.mp hinputs
    obtain ⟨plan', hplan', hstatus', hsame⟩ := hcovered plan hplan hstatus
    refine mem_voyageInputs.mpr ⟨plan', hplan', hstatus', ?_⟩
    exact ((planInputs_eq_iff hrt (h.participants plan hplan)).mpr hsame).symm
  · intro hall plan hplan hstatus
    obtain ⟨plan', hplan', hstatus', hinputs⟩ :=
      mem_voyageInputs.mp (hall _ (mem_voyageInputs.mpr ⟨plan, hplan, hstatus, rfl⟩))
    exact ⟨plan', hplan', hstatus',
      (planInputs_eq_iff hrt (h.participants plan hplan)).mp hinputs.symm⟩

/-- Listed plans print the same where their sheets say the same. -/
theorem voyageInputs_eq_iff (hrt : Collates rt ids) (h : Listed ids plans)
    (h' : Listed ids plans') :
    voyageInputs rt plans = voyageInputs rt plans' ↔ SameSheets plans plans' := by
  rw [SameSheets, coveredBy_iff hrt h, coveredBy_iff hrt h']
  constructor
  · intro heq
    rw [heq]
    exact ⟨fun _ => id, fun _ => id⟩
  · rintro ⟨hsub, hsub'⟩
    rw [voyageInputs_eq_sorted, voyageInputs_eq_sorted] at *
    simp only [List.mem_insertionSort] at hsub hsub'
    refine hrt.insertionSort_eq_of_perm (f := PlanInputs.id) ?_ h.nodup_inputs ?_
    · intro inputs hinputs
      obtain ⟨plan, hplan, rfl⟩ := List.mem_map.mp hinputs
      exact h.keys plan (List.mem_of_mem_filter hplan)
    · refine (List.perm_ext_iff_of_nodup (h.nodup_inputs.of_map _)
        (h'.nodup_inputs.of_map _)).mpr ?_
      exact fun inputs => ⟨hsub inputs, hsub' inputs⟩

/-- **Listed plans have the same fingerprint exactly when their sheets say the same.** -/
theorem fingerprint_eq_iff (hinj : Function.Injective rt.stringify) (hrt : Collates rt ids)
    (h : Listed ids plans) (h' : Listed ids plans') :
    voyageInputFingerprint rt plans = voyageInputFingerprint rt plans' ↔
      SameSheets plans plans' := by
  rw [fingerprint_eq_voyageInputs, fingerprint_eq_voyageInputs, hinj.eq_iff,
    voyageInputs_eq_iff hrt h h']

end Sheets

/-! ## Changes that do not count -/

/-- A submission that a later one of its participant supersedes. -/
def Superseded (plan : MeasurementPlan) (submission : Submission) : Prop :=
  ∃ later ∈ plan.submissions, later.participantId = submission.participantId ∧
    submission.revision < later.revision

/-- One change of the plans that billing does not depend on.  Read backwards, what is added
is removed. -/
inductive Immaterial : List MeasurementPlan → List MeasurementPlan → Prop
  | plansReordered {plans plans' : List MeasurementPlan} (h : plans.Perm plans') :
      Immaterial plans plans'
  | submissionsReordered (before after : List MeasurementPlan) (plan : MeasurementPlan)
      (submissions : List Submission) (h : plan.submissions.Perm submissions) :
      Immaterial (before ++ plan :: after)
        (before ++ { plan with submissions := submissions } :: after)
  | cancelledAdded (before after : List MeasurementPlan) (plan : MeasurementPlan)
      (h : plan.status = .cancelled) :
      Immaterial (before ++ after) (before ++ plan :: after)
  | supersededAdded (before after : List MeasurementPlan) (plan : MeasurementPlan)
      (earlier later : List Submission) (submission : Submission)
      (h : Superseded plan submission) (hsplit : plan.submissions = earlier ++ later) :
      Immaterial (before ++ plan :: after)
        (before ++ { plan with submissions := earlier ++ submission :: later } :: after)

/-- The sheets of two lists that differ in one plan say the same where the two do. -/
theorem sameSheets_of_replaced {before after : List MeasurementPlan}
    {plan plan' : MeasurementPlan} (hstatus : plan.status = plan'.status)
    (hsame : SameSheet plan plan') :
    SameSheets (before ++ plan :: after) (before ++ plan' :: after) := by
  have hcovered : ∀ {plan plan' : MeasurementPlan}, plan.status = plan'.status →
      SameSheet plan plan' → CoveredBy (before ++ plan :: after) (before ++ plan' :: after) := by
    intro plan plan' hstatus hsame sheet hsheet hactive
    rcases List.mem_append.mp hsheet with hbefore | hrest
    · exact ⟨sheet, List.mem_append_left _ hbefore, hactive, .refl sheet⟩
    rcases List.mem_cons.mp hrest with rfl | hafter
    · exact ⟨plan', by simp, hstatus ▸ hactive, hsame⟩
    · exact ⟨sheet, by simp [hafter], hactive, .refl sheet⟩
  exact ⟨hcovered hstatus hsame, hcovered hstatus.symm hsame.symm⟩

/-- A submission that is superseded is the latest of nobody, and hides nobody's. -/
theorem isLatest_of_superseded {plan plan' : MeasurementPlan} {earlier later : List Submission}
    {submission : Submission} (h : Superseded plan submission)
    (hsplit : plan.submissions = earlier ++ later)
    (hadded : plan'.submissions = earlier ++ submission :: later) (s : Submission) :
    IsLatest plan s ↔ IsLatest plan' s := by
  obtain ⟨newer, hnewer, hparticipant, hrevision⟩ := h
  have hmem : ∀ x, x ∈ plan'.submissions ↔ x = submission ∨ x ∈ plan.submissions := by
    intro x
    rw [hadded, hsplit]
    simp only [List.mem_append, List.mem_cons]
    exact or_left_comm
  have hnewer' : newer ∈ plan'.submissions := (hmem newer).mpr (.inr hnewer)
  constructor
  · rintro ⟨hs, hlatest⟩
    refine ⟨(hmem s).mpr (.inr hs), fun x hx hkey => ?_⟩
    rcases (hmem x).mp hx with rfl | hx
    · exact hrevision.le.trans (hlatest newer hnewer (hparticipant.trans hkey))
    · exact hlatest x hx hkey
  · rintro ⟨hs, hlatest⟩
    refine ⟨((hmem s).mp hs).resolve_left ?_, fun x hx hkey =>
      hlatest x ((hmem x).mpr (.inr hx)) hkey⟩
    rintro rfl
    exact absurd (hlatest newer hnewer' hparticipant) (not_le.mpr hrevision)

/-- A change of submissions that leaves the latest leaves what a plan says. -/
theorem sameSheet_of_isLatest {plan : MeasurementPlan} {submissions : List Submission}
    (h : Entered plan) (h' : Entered { plan with submissions := submissions })
    (hlatest : ∀ s, IsLatest plan s ↔ IsLatest { plan with submissions := submissions } s) :
    SameSheet plan { plan with submissions := submissions } :=
  ⟨rfl, rfl, rfl, rfl, rfl, rfl, rfl, congrFun (returnOf_congr h h' hlatest), rfl⟩

/-- Immaterial changes leave what the sheets say. -/
theorem sameSheets_of_immaterial {ids : Set String} {plans plans' : List MeasurementPlan}
    (h : Listed ids plans) (h' : Listed ids plans') (hchange : Immaterial plans plans') :
    SameSheets plans plans' := by
  cases hchange with
  | plansReordered hperm =>
      have hcovered : ∀ {plans plans' : List MeasurementPlan}, plans.Perm plans' →
          CoveredBy plans plans' := fun hperm plan hplan hstatus =>
        ⟨plan, hperm.mem_iff.mp hplan, hstatus, .refl plan⟩
      exact ⟨hcovered hperm, hcovered hperm.symm⟩
  | submissionsReordered before after plan submissions hperm =>
      refine sameSheets_of_replaced rfl (sameSheet_of_isLatest (h.entered plan (by simp))
        (h'.entered _ (by simp)) fun s => ?_)
      exact isLatest_of_perm hperm s
  | cancelledAdded before after plan hcancelled =>
      constructor
      · intro sheet hsheet hstatus
        refine ⟨sheet, ?_, hstatus, .refl sheet⟩
        rcases List.mem_append.mp hsheet with hbefore | hafter
        · exact List.mem_append_left _ hbefore
        · exact List.mem_append_right _ (List.mem_cons_of_mem _ hafter)
      · intro sheet hsheet hstatus
        refine ⟨sheet, ?_, hstatus, .refl sheet⟩
        rcases List.mem_append.mp hsheet with hbefore | hrest
        · exact List.mem_append_left _ hbefore
        rcases List.mem_cons.mp hrest with rfl | hafter
        · exact absurd hcancelled hstatus
        · exact List.mem_append_right _ hafter
  | supersededAdded before after plan earlier later submission hsuperseded hsplit =>
      refine sameSheets_of_replaced rfl (sameSheet_of_isLatest (h.entered plan (by simp))
        (h'.entered _ (by simp)) fun s => ?_)
      exact isLatest_of_superseded hsuperseded hsplit rfl s

/-- **The fingerprint identifies the billing inputs.**  Immaterial changes, made or taken
back, leave it, and lists of plans that have the same fingerprint have sheets that say the
same. -/
theorem fingerprint_identifies (rt : Runtime) {ids : Set String}
    (hinj : Function.Injective rt.stringify) (hrt : Collates rt ids) :
    (∀ plans plans', Listed ids plans → Listed ids plans' →
      (Immaterial plans plans' ∨ Immaterial plans' plans) →
        voyageInputFingerprint rt plans = voyageInputFingerprint rt plans') ∧
    ∀ plans plans', Listed ids plans → Listed ids plans' →
      voyageInputFingerprint rt plans = voyageInputFingerprint rt plans' →
        SameSheets plans plans' := by
  refine ⟨fun plans plans' h h' hchange => ?_, fun plans plans' h h' heq => ?_⟩
  · rcases hchange with hchange | hchange
    · exact (fingerprint_eq_iff hinj hrt h h').mpr (sameSheets_of_immaterial h h' hchange)
    · exact ((fingerprint_eq_iff hinj hrt h' h).mpr
        (sameSheets_of_immaterial h' h hchange)).symm
  · exact (fingerprint_eq_iff hinj hrt h h').mp heq

theorem Sample.printer_collates : Collates Sample.printer Set.univ := by
  have hle : ∀ a b, Sample.printer.localeLe a b = true ↔ a ≤ b := fun a b => decide_eq_true_iff
  unfold Collates
  simp only [hle]
  exact ⟨fun a _ b _ => le_total a b, fun _ _ _ _ _ _ => le_trans, fun _ _ _ _ => le_antisymm⟩

/-- The sample plan under another key, cancelled. -/
def Sample.cancelled : MeasurementPlan :=
  { Sample.plan with id := "plan-2", status := .cancelled }

/-- A cancelled plan beside the sample plan. -/
theorem fingerprint_identifies_sample :
    voyageInputFingerprint Sample.printer [Sample.plan] =
      voyageInputFingerprint Sample.printer [Sample.cancelled, Sample.plan] ∧
    SameSheets [Sample.plan] [Sample.cancelled, Sample.plan] := by
  obtain ⟨hsame, hdiffer⟩ := fingerprint_identifies Sample.printer Sample.printer_injective
    Sample.printer_collates
  have hentered : Entered Sample.plan ∧ Entered Sample.cancelled :=
    ⟨⟨by decide, by decide⟩, ⟨by decide, by decide⟩⟩
  have hone : Listed Set.univ [Sample.plan] := by
    refine ⟨by decide, fun plan hplan => ?_, fun _ _ => trivial, fun _ _ _ _ => trivial⟩
    rw [List.mem_singleton.mp hplan]
    exact hentered.1
  have htwo : Listed Set.univ [Sample.cancelled, Sample.plan] := by
    refine ⟨by decide, fun plan hplan => ?_, fun _ _ => trivial, fun _ _ _ _ => trivial⟩
    rcases List.mem_cons.mp hplan with rfl | hplan
    · exact hentered.2
    · rw [List.mem_singleton.mp hplan]
      exact hentered.1
  have hfingerprint := hsame _ _ hone htwo
    (.inl (.cancelledAdded [] [Sample.plan] Sample.cancelled rfl))
  exact ⟨hfingerprint, hdiffer _ _ hone htwo hfingerprint⟩

end VesselCaller.Closeout
