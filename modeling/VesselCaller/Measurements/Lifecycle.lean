import VesselCaller.Effect
import VesselCaller.Lib.Revisions

/-!
# The lifecycle of a plan and its reconciliations

Status lives redundantly on the plan and on every reconciliation revision, and five
operations write it.  `Lifecycle` is the invariant they restore: the revisions are
1, …, n; a draft is the last one; the last one is never superseded; one at most is
final; the plan is reconciled exactly while the last one is final; a cancelled plan
has finalized nothing.

Each operation keeps it (`Mutation.lifecycle`, `Upkeep.lifecycle`), so it holds of
every plan of every reachable tenant.

## Main definitions

* `Lifecycle` — the invariant of a plan, one field for each place the status lives in;
* `Locked`, `LockedAs` — what a plan locks, and as what;
* `PlansInOrder` — the invariant of a tenant.
-/

namespace VesselCaller.Measurements

open Lib Accounts Billing Operations

structure Lifecycle (p : MeasurementPlan) : Prop where
  participantKeys : (Table.keys p.participants).Nodup
  lineKeys : (Table.keys p.lines).Nodup
  keys : (Table.keys p.reconciliations).Nodup
  revisions : Numbered Reconciliation.revision p.reconciliations
  returns : ∀ q, Numbered Submission.revision (p.submissionsOf q)
  draftLast : ∀ r ∈ p.reconciliations.dropLast, r.status ≠ .draft
  lastCurrent : ∀ r, p.reconciliations.getLast? = some r → r.status ≠ .superseded
  finalUnique : ∀ r ∈ p.reconciliations, ∀ r' ∈ p.reconciliations,
    r.status = .final → r'.status = .final → r = r'
  draftOpen : ∀ r ∈ p.reconciliations, r.status = .draft → r.finalizedAt = none
  finalClosed : ∀ r ∈ p.reconciliations, r.status = .final → r.finalizedAt ≠ none
  reconciled : p.status = .reconciled ↔
    ∃ r, p.reconciliations.getLast? = some r ∧ r.status = .final
  cancelled : p.status = .cancelled → ∀ r ∈ p.reconciliations, r.finalizedAt = none

variable {sha : Sha256} {t : Tenant} {ctx : Ctx} {p p' : MeasurementPlan}

/-- The reconciliation of the highest revision is the last one. -/
theorem Lifecycle.latestReconciliation (h : Lifecycle p) :
    p.latestReconciliation = p.reconciliations.getLast? := by
  rw [MeasurementPlan.latestReconciliation, sortBy, h.revisions.insertionSort_eq]

/-- What holds of a plan's lifecycle depends on its status, structure, returns and
reconciliations only. -/
theorem Lifecycle.congr (h : Lifecycle p) (hstatus : p'.status = p.status)
    (hparticipants : p'.participants = p.participants) (hlines : p'.lines = p.lines)
    (hsubmissions : p'.submissions = p.submissions)
    (hreconciliations : p'.reconciliations = p.reconciliations) : Lifecycle p' where
  participantKeys := hparticipants ▸ h.participantKeys
  lineKeys := hlines ▸ h.lineKeys
  keys := hreconciliations ▸ h.keys
  revisions := hreconciliations ▸ h.revisions
  returns := by
    intro q
    rw [MeasurementPlan.submissionsOf, hsubmissions]
    exact h.returns q
  draftLast := hreconciliations ▸ h.draftLast
  lastCurrent := hreconciliations ▸ h.lastCurrent
  finalUnique := hreconciliations ▸ h.finalUnique
  draftOpen := hreconciliations ▸ h.draftOpen
  finalClosed := hreconciliations ▸ h.finalClosed
  reconciled := by
    rw [hstatus, hreconciliations]
    exact h.reconciled
  cancelled := by
    rw [hstatus, hreconciliations]
    exact h.cancelled

/-- A new plan is at the beginning of its lifecycle. -/
theorem New.lifecycle (h : New t p) : Lifecycle p where
  participantKeys := h.participantKeys
  lineKeys := h.lineKeys
  keys := by simp [h.reconciliations]
  revisions := by simpa [h.reconciliations] using numbered_nil
  returns := by
    intro q
    simpa [MeasurementPlan.submissionsOf, h.submissions] using numbered_nil
  draftLast := by simp [h.reconciliations]
  lastCurrent := by simp [h.reconciliations]
  finalUnique := by simp [h.reconciliations]
  draftOpen := by simp [h.reconciliations]
  finalClosed := by simp [h.reconciliations]
  reconciled := by simp [h.reconciliations, h.status]
  cancelled := by simp [h.reconciliations]

/-! ## Patches -/

/-- A patch keeps the lifecycle. -/
theorem Patched.lifecycle (h : Lifecycle p) (hp : Patched p p') : Lifecycle p' where
  participantKeys := hp.participantKeys h.participantKeys h.lineKeys
  lineKeys := hp.lineKeys h.participantKeys h.lineKeys
  keys := hp.reconciliations ▸ h.keys
  revisions := hp.reconciliations ▸ h.revisions
  returns := by
    intro q
    rw [MeasurementPlan.submissionsOf, hp.submissions]
    exact h.returns q
  draftLast := hp.reconciliations ▸ h.draftLast
  lastCurrent := hp.reconciliations ▸ h.lastCurrent
  finalUnique := hp.reconciliations ▸ h.finalUnique
  draftOpen := hp.reconciliations ▸ h.draftOpen
  finalClosed := hp.reconciliations ▸ h.finalClosed
  reconciled := by
    rw [hp.reconciliations]
    obtain hsame | ⟨hcancelled, hnone⟩ := hp.status
    · rw [hsame]
      exact h.reconciled
    · rw [hcancelled]
      refine ⟨fun hne => by simp at hne, ?_⟩
      rintro ⟨r, hlast, hfinal⟩
      have hmem := List.mem_of_getLast? hlast
      exact absurd (hnone r hmem) (h.finalClosed r hmem hfinal)
  cancelled := by
    intro hcancelled
    rw [hp.reconciliations]
    obtain hsame | ⟨_, hnone⟩ := hp.status
    · exact h.cancelled (hsame ▸ hcancelled)
    · exact hnone

/-! ## Returns -/

/-- A return numbers on from the earlier ones of its participant. -/
theorem Submitted.returns (h : Lifecycle p) {s : Submission} (hs : Submitted t p p' s) (q : Id) :
    Numbered Submission.revision (p'.submissionsOf q) := by
  have hplan := congrArg MeasurementPlan.submissions hs.plan
  simp only [MeasurementPlan.submissionsOf] at hplan ⊢
  rw [hplan, List.filter_append]
  by_cases hq : s.participantId = q
  · have hnext := (h.returns q).next
    have hrevision := hs.revision
    rw [hq, sortBy, (h.returns q).insertionSort_eq, hnext] at hrevision
    simpa [hq, MeasurementPlan.submissionsOf] using
      numbered_concat.mpr ⟨h.returns q, hrevision⟩
  · simpa [hq, MeasurementPlan.submissionsOf] using h.returns q

/-- A return keeps the lifecycle. -/
theorem Submitted.lifecycle (h : Lifecycle p) {s : Submission} (hs : Submitted t p p' s) :
    Lifecycle p' := by
  have hreturns := hs.returns h
  obtain rfl := hs.plan
  refine { h with returns := hreturns, reconciled := ?_, cancelled := ?_ }
  · refine ⟨fun hne => by simp at hne, ?_⟩
    rintro ⟨r, hlast, hfinal⟩
    exact absurd hfinal (hs.notFinal r (h.latestReconciliation.trans hlast))
  · exact fun hne => by simp at hne

/-! ## Proposals -/

section Supersede

variable {old : ReconciliationStatus} {rs : List Reconciliation} {r : Reconciliation}

/-- Superseding keeps the rows. -/
theorem keys_supersede (old : ReconciliationStatus) {rs : List Reconciliation} :
    Table.keys (supersede old rs) = Table.keys rs := by
  simp only [Table.keys, supersede, List.map_map]
  refine List.map_congr_left fun r _ => ?_
  simp only [Function.comp_apply]
  split <;> rfl

/-- Superseding two lists in a row. -/
theorem supersede_append {rs' : List Reconciliation} :
    supersede old (rs ++ rs') = supersede old rs ++ supersede old rs' :=
  List.map_append

/-- Superseding keeps the revisions. -/
theorem revision_supersede :
    (supersede old rs).map Reconciliation.revision = rs.map Reconciliation.revision := by
  simp only [supersede, List.map_map]
  refine List.map_congr_left fun r _ => ?_
  simp only [Function.comp_apply]
  split <;> rfl

/-- A reconciliation after superseding: one that had another status, unchanged, or
one that had the old status, superseded. -/
theorem mem_supersede (h : r ∈ supersede old rs) :
    (r ∈ rs ∧ r.status ≠ old) ∨
      ∃ r₀ ∈ rs, r₀.status = old ∧ r = { r₀ with status := .superseded } := by
  obtain ⟨r₀, hr₀, rfl⟩ := List.mem_map.mp h
  by_cases hold : r₀.status = old
  · exact .inr ⟨r₀, hr₀, hold, by simp [hold]⟩
  · exact .inl ⟨by simpa [hold] using hr₀, by simp [hold]⟩

end Supersede

/-- A proposal keeps the lifecycle. -/
theorem Proposed.lifecycle (h : Lifecycle p) (mem : p ∈ t.plans) {actor : Id}
    {r : Reconciliation} (hr : Proposed sha t actor p p' r) : Lifecycle p' := by
  have hfresh : r.id ∉ Table.keys p.reconciliations := fun hmem =>
    hr.fresh (List.mem_flatMap.mpr ⟨p, mem, hmem⟩)
  have hrevision : r.revision = p.reconciliations.length + 1 := by
    rw [hr.revision, h.revisions.max?]
  -- After superseding no draft is left, so the new one is the only draft.
  have hnodraft : ∀ q ∈ supersede .draft p.reconciliations, q.status ≠ .draft := by
    intro q hq
    obtain ⟨_, hne⟩ | ⟨q₀, _, _, rfl⟩ := mem_supersede hq
    · exact hne
    · simp
  obtain rfl := hr.plan
  refine { h with
    keys := ?_, revisions := ?_, draftLast := ?_, lastCurrent := ?_, finalUnique := ?_,
    draftOpen := ?_, finalClosed := ?_, reconciled := ?_, cancelled := ?_ }
  · exact Table.nodup_keys_concat (by rw [keys_supersede]; exact h.keys)
      (by rwa [keys_supersede])
  · refine numbered_concat.mpr ⟨h.revisions.congr revision_supersede, ?_⟩
    simpa [supersede] using hrevision
  · simpa using hnodraft
  · intro q hq
    simp only [List.getLast?_concat, Option.some.injEq] at hq
    simp [← hq, hr.draft]
  · intro q hq q' hq' hfinal hfinal'
    have hold : ∀ x ∈ supersede .draft p.reconciliations ++ [r], x.status = .final →
        x ∈ p.reconciliations := by
      intro x hx hxfinal
      obtain hx | hx := List.mem_append.mp hx
      · obtain ⟨hx, _⟩ | ⟨x₀, _, _, rfl⟩ := mem_supersede hx
        · exact hx
        · simp at hxfinal
      · rw [List.mem_singleton.mp hx, hr.draft] at hxfinal
        simp at hxfinal
    exact h.finalUnique q (hold q hq hfinal) q' (hold q' hq' hfinal') hfinal hfinal'
  · intro q hq hdraft
    obtain hq | hq := List.mem_append.mp hq
    · exact absurd hdraft (hnodraft q hq)
    · rw [List.mem_singleton.mp hq]
      exact hr.notFinal
  · intro q hq hfinal
    obtain hq | hq := List.mem_append.mp hq
    · obtain ⟨hq, _⟩ | ⟨q₀, _, _, rfl⟩ := mem_supersede hq
      · exact h.finalClosed q hq hfinal
      · simp at hfinal
    · rw [List.mem_singleton.mp hq, hr.draft] at hfinal
      simp at hfinal
  · refine ⟨fun hne => by simp at hne, ?_⟩
    rintro ⟨q, hlast, hfinal⟩
    simp only [List.getLast?_concat, Option.some.injEq] at hlast
    rw [← hlast, hr.draft] at hfinal
    simp at hfinal
  · exact fun hne => by simp at hne

/-! ## Approvals and finalization -/

/-- The current draft is the last reconciliation. -/
theorem Lifecycle.getLast?_of_current (h : Lifecycle p) {r : Reconciliation} {u : Unit}
    (mem : r ∈ p.reconciliations) (hr : ensureCurrentDraft sha p r = .ok u) :
    p.reconciliations.getLast? = some r := by
  obtain ⟨_, hlatest, _⟩ := ensureCurrentDraft_eq_ok.mp hr
  rw [h.latestReconciliation] at hlatest
  obtain ⟨q, hq, hid⟩ := Option.map_eq_some_iff.mp hlatest
  rw [hq, Table.eq_of_key_eq h.keys (List.mem_of_getLast? hq) mem hid]

/-- So is any draft. -/
theorem Lifecycle.getLast?_of_draft (h : Lifecycle p) {r : Reconciliation}
    (mem : r ∈ p.reconciliations) (hdraft : r.status = .draft) :
    p.reconciliations.getLast? = some r := by
  by_contra hlast
  exact h.draftLast r (List.mem_dropLast_of_mem_of_ne_getLast? mem (Ne.symm hlast)) hdraft

/-- Writing back a reconciliation whose key, revision, status and finalization are
those of the row it replaces keeps the lifecycle. -/
theorem Lifecycle.put_reconciliation (h : Lifecycle p) {r r' : Reconciliation}
    (mem : r ∈ p.reconciliations) (hid : r'.id = r.id) (hrevision : r'.revision = r.revision)
    (hstatus : r'.status = r.status) (hfinalized : r'.finalizedAt = r.finalizedAt) :
    Lifecycle { p with reconciliations := Table.put r' p.reconciliations } := by
  -- Each row of the new table comes from a row that agrees with it.
  have hrow : ∀ q ∈ p.reconciliations, ∀ q', q' = (if q.id = r'.id then r' else q) →
      q'.revision = q.revision ∧ q'.status = q.status ∧ q'.finalizedAt = q.finalizedAt := by
    rintro q hq q' rfl
    by_cases hk : q.id = r'.id
    · obtain rfl := Table.eq_of_key_eq h.keys hq mem (hk.trans hid)
      simp [hid, hrevision, hstatus, hfinalized]
    · simp [hk]
  have hput : Table.put r' p.reconciliations =
      p.reconciliations.map fun q => if q.id = r'.id then r' else q := rfl
  refine { h with
    keys := ?_, revisions := ?_, draftLast := ?_, lastCurrent := ?_, finalUnique := ?_,
    draftOpen := ?_, finalClosed := ?_, reconciled := ?_, cancelled := ?_ }
  · simpa using h.keys
  · refine h.revisions.congr ?_
    rw [hput, List.map_map]
    exact List.map_congr_left fun q hq => (hrow q hq _ rfl).1
  · intro q hq
    rw [hput, ← List.map_dropLast] at hq
    obtain ⟨q₀, hq₀, rfl⟩ := List.mem_map.mp hq
    rw [(hrow q₀ (List.mem_of_mem_dropLast hq₀) _ rfl).2.1]
    exact h.draftLast q₀ hq₀
  · intro q hq
    rw [hput, List.getLast?_map] at hq
    obtain ⟨q₀, hq₀, rfl⟩ := Option.map_eq_some_iff.mp hq
    rw [(hrow q₀ (List.mem_of_getLast? hq₀) _ rfl).2.1]
    exact h.lastCurrent q₀ hq₀
  · intro q hq q' hq' hfinal hfinal'
    obtain ⟨q₀, hq₀, rfl⟩ := List.mem_map.mp hq
    obtain ⟨q₀', hq₀', rfl⟩ := List.mem_map.mp hq'
    have heq := h.finalUnique q₀ hq₀ q₀' hq₀' ((hrow q₀ hq₀ _ rfl).2.1 ▸ hfinal)
      ((hrow q₀' hq₀' _ rfl).2.1 ▸ hfinal')
    rw [heq]
  · intro q hq hdraft
    obtain ⟨q₀, hq₀, rfl⟩ := List.mem_map.mp hq
    obtain ⟨_, hs, hf⟩ := hrow q₀ hq₀ _ rfl
    exact hf.trans (h.draftOpen q₀ hq₀ (hs ▸ hdraft))
  · intro q hq hfinal
    obtain ⟨q₀, hq₀, rfl⟩ := List.mem_map.mp hq
    obtain ⟨_, hs, hf⟩ := hrow q₀ hq₀ _ rfl
    intro hnone
    exact h.finalClosed q₀ hq₀ (hs ▸ hfinal) (hf ▸ hnone)
  · rw [h.reconciled]
    constructor
    · rintro ⟨q, hlast, hfinal⟩
      refine ⟨_, by rw [hput, List.getLast?_map, hlast]; rfl, ?_⟩
      rw [(hrow q (List.mem_of_getLast? hlast) _ rfl).2.1]
      exact hfinal
    · rintro ⟨q, hlast, hfinal⟩
      rw [hput, List.getLast?_map] at hlast
      obtain ⟨q₀, hq₀, rfl⟩ := Option.map_eq_some_iff.mp hlast
      exact ⟨q₀, hq₀, (hrow q₀ (List.mem_of_getLast? hq₀) _ rfl).2.1 ▸ hfinal⟩
  · intro hcancelled q hq
    obtain ⟨q₀, hq₀, rfl⟩ := List.mem_map.mp hq
    exact (hrow q₀ hq₀ _ rfl).2.2.trans (h.cancelled hcancelled q₀ hq₀)

/-- An approval keeps the lifecycle. -/
theorem Approved.lifecycle (h : Lifecycle p) {r : Reconciliation} {a : Approval}
    (mem : r ∈ p.reconciliations) (ha : Approved sha p p' r a) : Lifecycle p' := by
  obtain rfl := ha.plan
  exact h.put_reconciliation mem rfl rfl rfl rfl

/-- After a finalization every earlier reconciliation is superseded. -/
theorem Finalized.shape (h : Lifecycle p) {actor : Id} {r r' : Reconciliation}
    (mem : r ∈ p.reconciliations) (hf : Finalized sha ctx actor p p' r r') :
    ∃ earlier, p.reconciliations = earlier ++ [r] ∧
      p'.reconciliations = supersede .final earlier ++ [r'] ∧
      ∀ q ∈ supersede .final earlier, q.status = .superseded := by
  obtain ⟨earlier, hearlier⟩ := List.getLast?_eq_some_iff.mp (h.getLast?_of_current mem hf.current)
  have hdraft := (ensureCurrentDraft_eq_ok.mp hf.current).1
  obtain ⟨snapshot, hr'⟩ := hf.reconciliation
  have hid : r'.id = r.id := by rw [hr']
  refine ⟨earlier, hearlier, ?_, ?_⟩
  · have hfresh : ∀ q ∈ supersede .final earlier, q.id ≠ r'.id := by
      intro q hq heq
      have hkeys := h.keys
      rw [hearlier, Table.keys_append, List.nodup_append'] at hkeys
      refine hkeys.2.2 ?_ (List.mem_singleton.mpr rfl)
      rw [← keys_supersede .final]
      exact Table.mem_keys.mpr ⟨q, hq, heq.trans hid⟩
    have hlast : supersede .final [r] = [r] := by simp [supersede, hdraft]
    rw [hf.plan]
    simp only [hearlier]
    rw [supersede_append, hlast, Table.put_append, Table.put_of_forall_ne hfresh]
    simp [Table.put, Keyed.key, hid]
  · intro q hq
    obtain ⟨hq, hne⟩ | ⟨q₀, _, _, rfl⟩ := mem_supersede hq
    · have hnotdraft := h.draftLast q (by rw [hearlier, List.dropLast_concat]; exact hq)
      cases hs : q.status with
      | draft => exact absurd hs hnotdraft
      | final => exact absurd hs hne
      | superseded => rfl
    · rfl

/-- A finalization keeps the lifecycle. -/
theorem Finalized.lifecycle (h : Lifecycle p) {actor : Id} {r r' : Reconciliation}
    (mem : r ∈ p.reconciliations) (hf : Finalized sha ctx actor p p' r r') : Lifecycle p' := by
  obtain ⟨earlier, hearlier, hrows, hsuperseded⟩ := hf.shape h mem
  obtain ⟨snapshot, hr'⟩ := hf.reconciliation
  have hfinal : r'.status = .final := by rw [hr']
  -- Every earlier row was superseded in the same step.
  have honly : ∀ q ∈ p'.reconciliations, q.status ≠ .superseded → q = r' := by
    intro q hq hne
    rw [hrows] at hq
    obtain hq | hq := List.mem_append.mp hq
    · exact absurd (hsuperseded q hq) hne
    · exact List.mem_singleton.mp hq
  have hfields : p'.participants = p.participants ∧ p'.lines = p.lines ∧
      p'.submissions = p.submissions ∧ p'.status = .reconciled := by
    rw [hf.plan]
    exact ⟨rfl, rfl, rfl, rfl⟩
  obtain ⟨hparticipants, hlines, hsubmissions, hstatus⟩ := hfields
  have hlast : p'.reconciliations.getLast? = some r' := by rw [hrows, List.getLast?_concat]
  have hkeys : Table.keys p'.reconciliations = Table.keys p.reconciliations := by
    rw [hrows, hearlier, Table.keys_append, Table.keys_append, keys_supersede, hr']
    rfl
  have hrevisions : p'.reconciliations.map Reconciliation.revision =
      p.reconciliations.map Reconciliation.revision := by
    rw [hrows, hearlier, List.map_append, List.map_append, revision_supersede, hr']
    rfl
  exact {
    participantKeys := hparticipants ▸ h.participantKeys
    lineKeys := hlines ▸ h.lineKeys
    keys := hkeys ▸ h.keys
    revisions := h.revisions.congr hrevisions
    returns := by
      intro q
      rw [MeasurementPlan.submissionsOf, hsubmissions]
      exact h.returns q
    draftLast := by
      intro q hq
      rw [hrows, List.dropLast_concat] at hq
      rw [hsuperseded q hq]
      simp
    lastCurrent := by
      intro q hq
      rw [hlast, Option.some.injEq] at hq
      rw [← hq, hfinal]
      simp
    finalUnique := by
      intro q hq q' hq' hqf hqf'
      rw [honly q hq (by simp [hqf]), honly q' hq' (by simp [hqf'])]
    draftOpen := by
      intro q hq hdraft
      rw [honly q hq (by simp [hdraft]), hfinal] at hdraft
      simp at hdraft
    finalClosed := by
      intro q hq hqf
      rw [honly q hq (by simp [hqf]), hr']
      simp
    reconciled := by
      rw [hstatus]
      exact ⟨fun _ => ⟨r', hlast, hfinal⟩, fun _ => rfl⟩
    cancelled := by
      rw [hstatus]
      exact fun hne => by simp at hne }

/-! ## Every change of a plan -/

/-- **Every plan mutation keeps the lifecycle.** -/
theorem mutation_lifecycle (h : Lifecycle p) (mem : p ∈ t.plans) (hm : Mutation sha t p p') :
    Lifecycle p' := by
  cases hm with
  | patched _ hp => exact hp.lifecycle h
  | submitted s hs => exact hs.lifecycle h
  | guest p₁ s link hs hplan =>
      subst hplan
      exact (hs.lifecycle h).congr rfl rfl rfl rfl rfl
  | proposed actor r hr => exact hr.lifecycle h mem
  | approved r a hr ha => exact ha.lifecycle h hr
  | finalized ctx actor r r' hr hf => exact hf.lifecycle h hr
  | assessed a ha =>
      rw [ha.plan]
      exact h.congr rfl rfl rfl rfl rfl
  | issued t' a i hi =>
      rw [hi.plan]
      exact h.congr rfl rfl rfl rfl rfl

/-- Links and evidence keep the lifecycle. -/
theorem upkeep_lifecycle (h : Lifecycle p) (hu : Upkeep p p') : Lifecycle p' := by
  cases hu with
  | links ls hplan _ =>
      subst hplan
      exact h.congr rfl rfl rfl rfl rfl
  | evidence es hplan =>
      subst hplan
      exact h.congr rfl rfl rfl rfl rfl

/-- So does the next version. -/
theorem Lifecycle.advance (h : Lifecycle p) : Lifecycle p.advance :=
  h.congr rfl rfl rfl rfl rfl

/-- No mutation applies to a cancelled plan. -/
theorem mutation_live (hm : Mutation sha t p p') : p.status ≠ .cancelled := by
  cases hm with
  | patched live _ => exact live
  | submitted s hs => exact hs.live
  | guest p₁ s link hs _ => exact hs.live
  | proposed actor r hr => exact hr.live
  | approved r a _ ha => exact ha.live
  | finalized ctx actor r r' _ hf => exact hf.live
  | assessed a ha => exact ha.live
  | issued t' a i hi => exact hi.live

/-! ## The structure lock -/

/-- Something rests on the plan's structure: a link, a return or a reconciliation. -/
def Locked (p : MeasurementPlan) : Prop :=
  p.links ≠ [] ∨ p.submissions ≠ [] ∨ p.reconciliations ≠ []

/-- The plan is locked, and so is its structure. -/
structure LockedAs (lines : List CargoLine) (participants : List Participant)
    (p : MeasurementPlan) : Prop where
  locked : Locked p
  lines : p.lines = lines
  participants : p.participants = participants

variable {lines : List CargoLine} {participants : List Participant}

/-- What is locked stays as it was locked, whatever mutates the plan. -/
theorem LockedAs.mutation (h : LockedAs lines participants p) (hm : Mutation sha t p p') :
    LockedAs lines participants p' := by
  obtain ⟨hlocked, rfl, rfl⟩ := h
  cases hm with
  | patched _ hp =>
      obtain ⟨hparticipants, hlines⟩ | ⟨hs, hr, hl⟩ := hp.structure'
      · refine ⟨?_, hlines, hparticipants⟩
        simpa only [Locked, hp.links, hp.submissions, hp.reconciliations] using hlocked
      · simp [Locked, hs, hr, hl] at hlocked
  | submitted s hs =>
      rw [hs.plan]
      exact ⟨.inr (.inl (by simp)), rfl, rfl⟩
  | guest p₁ s link hs hplan =>
      rw [hplan, hs.plan]
      exact ⟨.inr (.inl (by simp)), rfl, rfl⟩
  | proposed actor r hr =>
      rw [hr.plan]
      exact ⟨.inr (.inr (by simp)), rfl, rfl⟩
  | approved r a mem ha =>
      rw [ha.plan]
      exact ⟨.inr (.inr (by simpa [Table.put] using List.ne_nil_of_mem mem)), rfl, rfl⟩
  | finalized ctx actor r r' mem hf =>
      rw [hf.plan]
      exact ⟨.inr (.inr (by simpa [Table.put, supersede] using List.ne_nil_of_mem mem)), rfl, rfl⟩
  | assessed a ha =>
      rw [ha.plan]
      exact ⟨hlocked, rfl, rfl⟩
  | issued t' a i hi =>
      rw [hi.plan]
      exact ⟨hlocked, rfl, rfl⟩

/-- What is locked stays as it was locked, whatever else is filed. -/
theorem LockedAs.upkeep (h : LockedAs lines participants p) (hu : Upkeep p p') :
    LockedAs lines participants p' := by
  obtain ⟨hlocked, rfl, rfl⟩ := h
  cases hu with
  | links ls hplan hkept =>
      subst hplan
      refine ⟨?_, rfl, rfl⟩
      obtain hl | hrest := hlocked
      · exact .inl (hkept hl)
      · exact .inr hrest
  | evidence es hplan =>
      subst hplan
      exact ⟨hlocked, rfl, rfl⟩

/-! ## Runs -/

/-- The plans of a tenant: uniquely keyed, each with its lifecycle in order. -/
structure PlansInOrder (t : Tenant) : Prop where
  keys : (Table.keys t.plans).Nodup
  lifecycle : ∀ p ∈ t.plans, Lifecycle p

/-- A tenant without plans has them in order. -/
theorem PlansInOrder.ofInitial (h : t.Initial) : PlansInOrder t where
  keys := by simp [h.plans]
  lifecycle := by simp [h.plans]

/-- A step keeps the plans in order. -/
theorem PlansInOrder.effect {t' : Tenant} {kind : RequestKind} (h : PlansInOrder t)
    (he : Effect sha kind t t') : PlansInOrder t' where
  keys := he.planKeys h.keys
  lifecycle := he.forall_plans (fun _ hnew => hnew.lifecycle)
    (fun _ _ mem hp hm => (mutation_lifecycle hp mem hm).advance)
    (fun _ _ _ hp hu => upkeep_lifecycle hp hu) h.lifecycle

/-- So does an accepted request. -/
theorem PlansInOrder.step {t' : Tenant} {r : Request} {a : VesselCaller.Response}
    (h : PlansInOrder t) (hr : t.handle sha r = .ok (t', a)) : PlansInOrder t' :=
  h.effect (handle_effect hr)

/-- So does a run. -/
theorem PlansInOrder.run (h : PlansInOrder t) (rs : List Request) :
    PlansInOrder (run (Tenant.handle sha) t rs) :=
  run_invariant (fun hs hr => hs.step hr) rs h

/-- A cancelled plan is where every lifecycle request leaves it. -/
theorem PlansInOrder.cancelled_absorbing (h : PlansInOrder t) (mem : p ∈ t.plans)
    (hp : p.status = .cancelled) {rs : List Request} (hrs : ∀ r ∈ rs, r.isLifecycle = true) :
    Table.get p.id (Lib.run (Tenant.handle sha) t rs).plans = some p := by
  refine (run_invariant_along (P := fun s => PlansInOrder s ∧ Table.get p.id s.plans = some p)
    (C := fun _ r => r.isLifecycle = true) ?_ rs (along_of_forall t hrs)
    ⟨h, Table.get_of_mem h.keys mem⟩).2
  rintro s r s' a ⟨hs, hget⟩ hlifecycle hr
  refine ⟨hs.step hr, ?_⟩
  obtain ⟨p', hget', hstep⟩ := (handle_effect hr).plan hs.keys hget
  cases hstep with
  | stayed heq => rw [hget', heq]
  | mutated q hm _ _ => exact absurd hp (mutation_live hm)
  | kept _ other => exact absurd (other.symm.trans hlifecycle) (by simp)

/-- Once something rests on the structure of a plan, no run changes it. -/
theorem PlansInOrder.structure_locked (h : PlansInOrder t) (mem : p ∈ t.plans)
    (hp : Locked p) (rs : List Request) :
    ∃ p', Table.get p.id (Lib.run (Tenant.handle sha) t rs).plans = some p' ∧
      p'.lines = p.lines ∧ p'.participants = p.participants := by
  have hrun : PlansInOrder (Lib.run (Tenant.handle sha) t rs) ∧
      ∃ p', Table.get p.id (Lib.run (Tenant.handle sha) t rs).plans = some p' ∧
        LockedAs p.lines p.participants p' :=
    run_invariant (P := fun s => PlansInOrder s ∧ ∃ p', Table.get p.id s.plans = some p' ∧
      LockedAs p.lines p.participants p') ?_ rs
      ⟨h, p, Table.get_of_mem h.keys mem, hp, rfl, rfl⟩
  · obtain ⟨_, p', hget, hlocked⟩ := hrun
    exact ⟨p', hget, hlocked.lines, hlocked.participants⟩
  · rintro s r s' a ⟨hs, q, hget, hlocked⟩ hr
    refine ⟨hs.step hr, ?_⟩
    obtain ⟨q', hget', hstep⟩ := (handle_effect hr).plan hs.keys hget
    refine ⟨q', hget', ?_⟩
    cases hstep with
    | stayed heq => exact heq ▸ hlocked
    | mutated q₁ hm _ hadvance =>
        obtain ⟨hlocked₁, hlines, hparticipants⟩ := hlocked.mutation hm
        subst hadvance
        exact ⟨hlocked₁, hlines, hparticipants⟩
    | kept hu _ => exact hlocked.upkeep hu

/-- **The lifecycle invariant.**  Of every plan of every reachable tenant: revisions
are consecutive; at most one reconciliation is a draft and at most one final; a draft
is the latest and the latest is not superseded; the plan is reconciled exactly while
the latest is final; a cancelled plan has finalized nothing and no lifecycle request
changes it; and once a link, a return or a reconciliation exists the structure of the
plan stays as it is. -/
theorem plan_lifecycle (sha : Sha256) {t₀ : Tenant} (h₀ : t₀.Initial) (rs : List Request)
    {p : MeasurementPlan} (hp : p ∈ (run (Tenant.handle sha) t₀ rs).plans) :
    p.reconciliations.map Reconciliation.revision = List.range' 1 p.reconciliations.length ∧
    (∀ r ∈ p.reconciliations, ∀ r' ∈ p.reconciliations,
      r.status = .draft → r'.status = .draft → r = r') ∧
    (∀ r ∈ p.reconciliations, ∀ r' ∈ p.reconciliations,
      r.status = .final → r'.status = .final → r = r') ∧
    (∀ r, p.latestReconciliation = some r → r.status ≠ .superseded) ∧
    (∀ r ∈ p.reconciliations, r.status = .draft → p.latestReconciliation = some r) ∧
    (p.status = .reconciled ↔ ∃ r, p.latestReconciliation = some r ∧ r.status = .final) ∧
    (∀ q, (p.submissionsOf q).map Submission.revision =
      List.range' 1 (p.submissionsOf q).length) ∧
    (p.status = .cancelled → (∀ r ∈ p.reconciliations, r.finalizedAt = none) ∧
      ∀ rs' : List Request, (∀ r ∈ rs', r.isLifecycle = true) →
        Table.get p.id (run (Tenant.handle sha) t₀ (rs ++ rs')).plans = some p) ∧
    (p.links ≠ [] ∨ p.submissions ≠ [] ∨ p.reconciliations ≠ [] →
      ∀ rs' : List Request, ∃ p',
        Table.get p.id (run (Tenant.handle sha) t₀ (rs ++ rs')).plans = some p' ∧
          p'.lines = p.lines ∧ p'.participants = p.participants) := by
  -- Every part is read off the invariant of the run, the last two off what it says of later runs.
  have horder : PlansInOrder (run (Tenant.handle sha) t₀ rs) := (PlansInOrder.ofInitial h₀).run rs
  have h := horder.lifecycle p hp
  refine ⟨h.revisions, ?_, h.finalUnique, ?_, ?_, ?_, h.returns, ?_, ?_⟩
  · intro r hr r' hr' hdraft hdraft'
    exact Option.some.inj ((h.getLast?_of_draft hr hdraft).symm.trans
      (h.getLast?_of_draft hr' hdraft'))
  · rw [h.latestReconciliation]
    exact h.lastCurrent
  · intro r hr hdraft
    rw [h.latestReconciliation]
    exact h.getLast?_of_draft hr hdraft
  · rw [h.latestReconciliation]
    exact h.reconciled
  · intro hcancelled
    refine ⟨h.cancelled hcancelled, fun rs' hrs' => ?_⟩
    rw [run_append]
    exact horder.cancelled_absorbing hp hcancelled hrs'
  · intro hlocked rs'
    rw [run_append]
    exact horder.structure_locked hp hlocked rs'

/-- A proposed plan, cancelled: every part of the invariant applies to it. -/
theorem plan_lifecycle_cancelled :
    ∃ p ∈ (run (Tenant.handle Sample.sha) Sample.tenant Sample.withdrawn).plans,
      p.status = .cancelled ∧ p.reconciliations.length = 1 ∧ p.submissions ≠ [] ∧
      Table.get p.id (run (Tenant.handle Sample.sha) Sample.tenant
        (Sample.withdrawn ++ Sample.finalized.filter Request.isLifecycle)).plans = some p := by
  have hplan : ∃ p ∈ (run (Tenant.handle Sample.sha) Sample.tenant Sample.withdrawn).plans,
      p.status = .cancelled ∧ p.reconciliations.length = 1 ∧ p.submissions ≠ [] := by
    decide +kernel
  obtain ⟨p, hp, hcancelled, hlength, hreturns⟩ := hplan
  have h := plan_lifecycle Sample.sha Sample.initial Sample.withdrawn hp
  refine ⟨p, hp, hcancelled, hlength, hreturns, ?_⟩
  exact (h.2.2.2.2.2.2.2.1 hcancelled).2 _ fun r hr => (List.mem_filter.mp hr).2

end VesselCaller.Measurements
