import VesselCaller.Measurements.LineCoverage

/-!
# What the rows of a plan refer to

A return names its participant and its evidence, a reconciliation its returns and its
evidence, an approval its participant, a link its participant.  The many-to-many tables and
the JSON rows are no foreign keys of the database, and `PlanDetailView.patch` deletes
participants and cargo lines outright.

`PlanReferences` says that every such key names a row of the plan.  The structure of a plan
is replaced only while nothing refers to it, and every key that is written was looked up
first (`mutation_references`, `upkeep_references`).  That the lines of returns, reconciliations
and assessments are of the plan's cargo lines (`LineReferences`) is part of their coverage.

## Main definitions

* `ReturnReferences`, `ReconciliationReferences`, `PlanReferences` — the keys are found in the
  plan;
* `LineReferences` — the lines of returns, reconciliations and assessments are lines of the
  plan;
* `Retains` — what a step keeps of the rows that are referred to.
-/

namespace VesselCaller.Measurements

open Lib Accounts Billing Operations

variable {sha : Sha256} {t t' : Tenant} {p p' : MeasurementPlan}

/-- The return is of a participant of the plan and cites evidence of the plan. -/
structure ReturnReferences (p : MeasurementPlan) (s : Submission) : Prop where
  participant : s.participantId ∈ Table.keys p.participants
  evidence : ∀ id ∈ s.evidence, id ∈ Table.keys p.evidence

/-- The reconciliation is of returns of the plan, approved by participants of it. -/
structure ReconciliationReferences (p : MeasurementPlan) (r : Reconciliation) : Prop where
  submissions : ∀ id ∈ r.submissions, id ∈ Table.keys p.submissions
  evidence : ∀ id ∈ r.evidence, id ∈ Table.keys p.evidence
  participants : ∀ a ∈ r.approvals, a.participantId ∈ Table.keys p.participants
  approvals : ∀ a ∈ r.approvals, ∀ id ∈ a.evidence, id ∈ Table.keys p.evidence

structure PlanReferences (p : MeasurementPlan) : Prop where
  returns : ∀ s ∈ p.submissions, ReturnReferences p s
  reconciliations : ∀ r ∈ p.reconciliations, ReconciliationReferences p r
  links : ∀ l ∈ p.links, l.participantId ∈ Table.keys p.participants

/-- Every line of a return, of a reconciliation and of an assessment is of a cargo line of the
plan. -/
structure LineReferences (p : MeasurementPlan) : Prop where
  returns : ∀ s ∈ p.submissions, ∀ l ∈ s.lines, l.lineId ∈ Table.keys p.lines
  reconciliations : ∀ r ∈ p.reconciliations, ∀ l ∈ r.lines, l.lineId ∈ Table.keys p.lines
  assessments : ∀ b ∈ p.assessments, ∀ l ∈ b.lines, l.lineId ∈ Table.keys p.lines

/-- What covers the cargo lines names no others. -/
theorem Coverage.lineReferences (h : Coverage p) : LineReferences p where
  returns s hs _ hl := (h.submissions s hs).1.mem_iff.mp (List.mem_map_of_mem hl)
  reconciliations r hr _ hl := (h.reconciliations r hr).2.1.mem_iff.mp (List.mem_map_of_mem hl)
  assessments b hb _ hl := (h.assessments b hb).2.1.mem_iff.mp (List.mem_map_of_mem hl)

/-- Every row the plan has is still found in the other plan. -/
structure Retains (p p' : MeasurementPlan) : Prop where
  participants : ∀ id ∈ Table.keys p.participants, id ∈ Table.keys p'.participants
  evidence : ∀ id ∈ Table.keys p.evidence, id ∈ Table.keys p'.evidence
  submissions : ∀ id ∈ Table.keys p.submissions, id ∈ Table.keys p'.submissions

theorem ReturnReferences.retained {s : Submission} (h : ReturnReferences p s)
    (hp : Retains p p') : ReturnReferences p' s where
  participant := hp.participants _ h.participant
  evidence id hid := hp.evidence id (h.evidence id hid)

theorem ReconciliationReferences.retained {r : Reconciliation}
    (h : ReconciliationReferences p r) (hp : Retains p p') : ReconciliationReferences p' r where
  submissions id hid := hp.submissions id (h.submissions id hid)
  evidence id hid := hp.evidence id (h.evidence id hid)
  participants a ha := hp.participants _ (h.participants a ha)
  approvals a ha id hid := hp.evidence id (h.approvals a ha id hid)

theorem New.references (h : New t p) : PlanReferences p where
  returns := by simp [h.submissions]
  reconciliations := by simp [h.reconciliations]
  links := by simp [h.links]

/-- Participants and lines are replaced only where nothing refers to them. -/
theorem Patched.references (hp : Patched p p') (h : PlanReferences p) : PlanReferences p' := by
  obtain ⟨hparticipants, _⟩ | ⟨hsubmissions, hreconciliations, hlinks⟩ := hp.structure'
  · have hretains : Retains p p' :=
      ⟨by simp [hparticipants], by simp [hp.evidence], by simp [hp.submissions]⟩
    refine ⟨fun s hs => ?_, fun r hr => ?_, fun l hl => ?_⟩
    · exact (h.returns s (hp.submissions ▸ hs)).retained hretains
    · exact (h.reconciliations r (hp.reconciliations ▸ hr)).retained hretains
    · exact hparticipants ▸ h.links l (hp.links ▸ hl)
  · refine ⟨?_, ?_, ?_⟩
    · simp [hp.submissions, hsubmissions]
    · simp [hp.reconciliations, hreconciliations]
    · simp [hp.links, hlinks]

theorem Submitted.references {s : Submission} (hs : Submitted t p p' s) (h : PlanReferences p) :
    PlanReferences p' := by
  obtain ⟨q, hq, hid⟩ := hs.participant
  have hevidence := hs.evidence
  obtain rfl := hs.plan
  refine ⟨fun s' hs' => ?_, fun r hr => ?_, h.links⟩
  · obtain hs' | hs' := List.mem_append.mp hs'
    · exact ⟨(h.returns s' hs').participant, (h.returns s' hs').evidence⟩
    · obtain rfl := List.mem_singleton.mp hs'
      exact ⟨Table.mem_keys.mpr ⟨q, hq, hid⟩, hevidence⟩
  · refine (h.reconciliations r hr).retained ⟨fun _ hid => hid, fun _ hid => hid, fun id hid => ?_⟩
    rw [Table.keys_append]
    exact List.mem_append_left _ hid

/-- Links are written for participants only. -/
theorem PlanReferences.withLinks {ls : List AgencyLink} (h : PlanReferences p)
    (hls : p.OwnsLinks ls) : PlanReferences { p with links := ls } where
  returns s hs := ⟨(h.returns s hs).participant, (h.returns s hs).evidence⟩
  reconciliations r hr := (h.reconciliations r hr).retained
    ⟨fun _ hid => hid, fun _ hid => hid, fun _ hid => hid⟩
  links l hl := by
    obtain hparticipant | ⟨l₀, hl₀, hid⟩ := hls l hl
    · exact hparticipant
    · show l.participantId ∈ Table.keys p.participants
      rw [hid]
      exact h.links l₀ hl₀

/-- Rewritten reconciliations refer to what the plan's did. -/
theorem PlanReferences.withReconciliations {rs : List Reconciliation} (h : PlanReferences p)
    (status : PlanStatus) (hrs : ∀ r ∈ rs, ReconciliationReferences p r) :
    PlanReferences { p with reconciliations := rs, status := status } where
  returns s hs := ⟨(h.returns s hs).participant, (h.returns s hs).evidence⟩
  reconciliations r hr := (hrs r hr).retained
    ⟨fun _ hid => hid, fun _ hid => hid, fun _ hid => hid⟩
  links := h.links

theorem PlanReferences.withAssessments (h : PlanReferences p) (as : List Assessment) :
    PlanReferences { p with assessments := as } where
  returns s hs := ⟨(h.returns s hs).participant, (h.returns s hs).evidence⟩
  reconciliations r hr := (h.reconciliations r hr).retained
    ⟨fun _ hid => hid, fun _ hid => hid, fun _ hid => hid⟩
  links := h.links

theorem supersede_references {old : ReconciliationStatus} {rs : List Reconciliation}
    (h : ∀ r ∈ rs, ReconciliationReferences p r) :
    ∀ r ∈ supersede old rs, ReconciliationReferences p r := by
  intro r hr
  obtain ⟨hr, _⟩ | ⟨r₀, hr₀, _, rfl⟩ := mem_supersede hr
  · exact h r hr
  · obtain ⟨hsubmissions, hevidence, hparticipants, happrovals⟩ := h r₀ hr₀
    exact ⟨hsubmissions, hevidence, hparticipants, happrovals⟩

theorem Proposed.references {actor : Id} {r : Reconciliation} (hr : Proposed sha t actor p p' r)
    (h : PlanReferences p) : PlanReferences p' := by
  have hsubmissions := hr.submissions
  have hevidence := hr.evidence
  have hunapproved := hr.unapproved
  obtain rfl := hr.plan
  refine h.withReconciliations _ fun r' hr' => ?_
  obtain hr' | hr' := List.mem_append.mp hr'
  · exact supersede_references h.reconciliations r' hr'
  · obtain rfl := List.mem_singleton.mp hr'
    refine ⟨fun id hid => ?_, hevidence, by simp [hunapproved], by simp [hunapproved]⟩
    rw [hsubmissions] at hid
    obtain ⟨s, hs, rfl⟩ := List.mem_map.mp hid
    exact Table.mem_keys.mpr ⟨s, mem_of_mem_latestSubmissions hs, rfl⟩

theorem Approved.references {r : Reconciliation} {a : Approval} (ha : Approved sha p p' r a)
    (mem : r ∈ p.reconciliations) (h : PlanReferences p) : PlanReferences p' := by
  obtain ⟨hsubmissions, hevidence, hparticipants, happrovals⟩ := h.reconciliations r mem
  have hparticipant := ha.participant
  have hcited := ha.evidence
  obtain rfl := ha.plan
  refine h.withReconciliations p.status fun r' hr' => ?_
  obtain rfl | ⟨hr', _⟩ := Table.mem_put hr'
  · refine ⟨hsubmissions, hevidence, fun b hb => ?_, fun b hb => ?_⟩
    · obtain hb | hb := List.mem_append.mp hb
      · exact hparticipants b hb
      · rw [List.mem_singleton.mp hb]
        exact hparticipant
    · obtain hb | hb := List.mem_append.mp hb
      · exact happrovals b hb
      · rw [List.mem_singleton.mp hb]
        exact hcited
  · exact h.reconciliations r' hr'

theorem Finalized.references {ctx : Ctx} {actor : Id} {r r' : Reconciliation}
    (hf : Finalized sha ctx actor p p' r r') (mem : r ∈ p.reconciliations)
    (h : PlanReferences p) : PlanReferences p' := by
  obtain ⟨snapshot, rfl⟩ := hf.reconciliation
  obtain ⟨hsubmissions, hevidence, hparticipants, happrovals⟩ := h.reconciliations r mem
  obtain rfl := hf.plan
  refine h.withReconciliations _ fun q hq => ?_
  obtain rfl | ⟨hq, _⟩ := Table.mem_put hq
  · exact ⟨hsubmissions, hevidence, hparticipants, happrovals⟩
  · exact supersede_references h.reconciliations q hq

theorem mutation_references (hm : Mutation sha t p p') (h : PlanReferences p) :
    PlanReferences p' := by
  cases hm with
  | patched _ hp => exact hp.references h
  | submitted s hs => exact hs.references h
  | guest p₁ s link hs hplan howner =>
      have hlinks : p₁.links = p.links := by rw [hs.plan]
      rw [hplan]
      refine (hs.references h).withLinks fun l hl => .inr ?_
      obtain rfl | ⟨hl, _⟩ := Table.mem_put hl
      · exact hlinks ▸ howner
      · exact ⟨l, hl, rfl⟩
  | proposed actor r hr => exact hr.references h
  | approved r a mem ha => exact ha.references mem h
  | finalized ctx actor r r' mem hf => exact hf.references mem h
  | assessed a ha =>
      obtain rfl := ha.plan
      exact h.withAssessments _
  | issued t' a i hi =>
      obtain rfl := hi.plan
      exact h.withAssessments _

theorem upkeep_references (hu : Upkeep p p') (h : PlanReferences p) : PlanReferences p' := by
  cases hu with
  | links ls hplan _ howned =>
      subst hplan
      exact h.withLinks howned
  | evidence es hplan =>
      subst hplan
      have hretains : Retains p { p with evidence := p.evidence ++ es } := by
        refine ⟨fun _ hid => hid, fun id hid => ?_, fun _ hid => hid⟩
        rw [Table.keys_append]
        exact List.mem_append_left _ hid
      exact ⟨fun s hs => (h.returns s hs).retained hretains,
        fun r hr => (h.reconciliations r hr).retained hretains, h.links⟩

theorem PlanReferences.advance (h : PlanReferences p) : PlanReferences p.advance where
  returns s hs := ⟨(h.returns s hs).participant, (h.returns s hs).evidence⟩
  reconciliations r hr := (h.reconciliations r hr).retained
    ⟨fun _ hid => hid, fun _ hid => hid, fun _ hid => hid⟩
  links := h.links

/-! ## Plans that go on -/

/-- The plan stays with its call and keeps its assessments. -/
structure Continues (p p' : MeasurementPlan) : Prop where
  id : p'.id = p.id
  call : p'.vesselCallId = p.vesselCallId
  assessments : ∀ id ∈ Table.keys p.assessments, id ∈ Table.keys p'.assessments

theorem mutation_continues (hm : Mutation sha t p p') : Continues p p' := by
  have hid := (mutation_id hm).1
  cases hm with
  | patched _ hp => exact ⟨hid, hp.vesselCallId, fun _ h => hp.assessments ▸ h⟩
  | submitted s hs => exact ⟨hid, by rw [hs.plan], fun _ h => by rw [hs.plan]; exact h⟩
  | guest p₁ s link hs hplan =>
      exact ⟨hid, by rw [hplan, hs.plan], fun _ h => by rw [hplan, hs.plan]; exact h⟩
  | proposed actor r hr => exact ⟨hid, by rw [hr.plan], fun _ h => by rw [hr.plan]; exact h⟩
  | approved r a _ ha => exact ⟨hid, by rw [ha.plan], fun _ h => by rw [ha.plan]; exact h⟩
  | finalized ctx actor r r' _ hf =>
      exact ⟨hid, by rw [hf.plan], fun _ h => by rw [hf.plan]; exact h⟩
  | assessed a ha =>
      refine ⟨hid, by rw [ha.plan], fun id h => ?_⟩
      rw [ha.plan, Table.keys_append]
      exact List.mem_append_left _ h
  | issued t' a i hi =>
      refine ⟨hid, by rw [hi.plan], fun id h => ?_⟩
      rw [hi.plan, Table.keys_put]
      exact h

/-- Every plan goes on. -/
theorem effect_continues {kind : RequestKind} (h : Effect sha kind t t')
    (hkeys : (Table.keys t.plans).Nodup) (hp : p ∈ t.plans) : ∃ p' ∈ t'.plans, Continues p p' := by
  obtain ⟨p', hget, hstep⟩ := h.plan hkeys (Table.get_of_mem hkeys hp)
  refine ⟨p', (Table.mem_of_get hget).1, ?_⟩
  cases hstep with
  | stayed heq => exact heq ▸ ⟨rfl, rfl, fun _ h => h⟩
  | mutated q hm _ hadvanced =>
      obtain ⟨hid, hcall, hassessments⟩ := mutation_continues hm
      exact hadvanced ▸ ⟨hid, hcall, hassessments⟩
  | kept hu _ =>
      cases hu with
      | links ls hplan => exact hplan ▸ ⟨rfl, rfl, fun _ h => h⟩
      | evidence es hplan => exact hplan ▸ ⟨rfl, rfl, fun _ h => h⟩

end VesselCaller.Measurements
