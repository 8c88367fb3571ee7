import VesselCaller.Measurements.Finality
import VesselCaller.References

/-!
# What backs a reconciliation

A draft is approved and finalized on its fingerprint: of the returns it links, the cargo lines
and the participants.  The plan's structure is locked by then, so only the returns can make the
fingerprint differ, and everything an approval is checked for at finalization was already so when
it was recorded.

* `mutation_rows` — what holds of every reconciliation of a plan, by the four ways one is written;
* `Backed` — what the checks of `finalize_reconciliation` find of a reconciliation;
* `PlansBacked` — the same of every plan of a tenant, along every run.
-/

namespace VesselCaller.Measurements

open Lib Accounts Billing Operations

variable {sha : Sha256} {t t' : Tenant} {p p' : MeasurementPlan}

/-- **Reconciliations are written in four ways**: they are proposed, superseded, approved and
finalized. -/
theorem mutation_rows {P : Reconciliation → Prop} (hm : Mutation sha t p p')
    (proposed : ∀ actor r, Proposed sha t actor p p' r → P r)
    (superseded : ∀ r, P r → P { r with status := .superseded })
    (approved : ∀ r ∈ p.reconciliations, ∀ a, Approved sha p p' r a → P r →
      P { r with approvals := r.approvals ++ [a] })
    (finalized : ∀ ctx actor, ∀ r ∈ p.reconciliations, ∀ r', Finalized sha ctx actor p p' r r' →
      P r → P r')
    (h : ∀ r ∈ p.reconciliations, P r) : ∀ r ∈ p'.reconciliations, P r := by
  have hsuperseded : ∀ {old : ReconciliationStatus}, ∀ r ∈ supersede old p.reconciliations, P r := by
    intro old r hr
    obtain ⟨hr, _⟩ | ⟨r₀, hr₀, _, rfl⟩ := mem_supersede hr
    · exact h r hr
    · exact superseded r₀ (h r₀ hr₀)
  intro r' hr'
  cases hm with
  | patched _ hp => exact h r' (hp.reconciliations ▸ hr')
  | submitted s hs =>
      rw [hs.plan] at hr'
      exact h r' hr'
  | guest p₁ s link hs hplan =>
      rw [hplan, hs.plan] at hr'
      exact h r' hr'
  | proposed actor r hr =>
      have hmem := hr'
      rw [hr.plan] at hmem
      obtain hmem | hmem := List.mem_append.mp hmem
      · exact hsuperseded r' hmem
      · obtain rfl := List.mem_singleton.mp hmem
        exact proposed actor r' hr
  | approved r a mem ha =>
      have hmem := hr'
      rw [ha.plan] at hmem
      -- The written row, or one of the others.
      obtain rfl | ⟨hmem, _⟩ := Table.mem_put hmem
      · exact approved r mem a ha (h r mem)
      · exact h r' hmem
  | finalized ctx actor r q mem hf =>
      have hmem := hr'
      rw [hf.plan] at hmem
      obtain rfl | ⟨hmem, _⟩ := Table.mem_put hmem
      · exact finalized ctx actor r mem r' hf (h r mem)
      · exact hsuperseded r' hmem
  | assessed a ha =>
      rw [ha.plan] at hr'
      exact h r' hr'
  | issued t₁ a i hi =>
      rw [hi.plan] at hr'
      exact h r' hr'

/-- The fingerprint is that of the linked returns under the given structure, the returns are
linked once each, and every approval repeats the fingerprint and cites evidence. -/
structure Backed (sha : Sha256) (lines : List CargoLine) (participants : List Participant)
    (r : Reconciliation) : Prop where
  source : r.inputFingerprint = sha.source ⟨sortBy id r.submissions, lines, participants⟩
  distinct : r.submissions.Nodup
  approvals : ∀ a ∈ r.approvals, a.inputFingerprint = r.inputFingerprint ∧ a.evidence ≠ []

/-- A proposal links the latest returns, one of each participant. -/
theorem nodup_latestSubmissions (p : MeasurementPlan)
    (h : (Table.keys p.submissions).Nodup) :
    ((latestSubmissions p).map Submission.id).Nodup := by
  have hsorted : ((sortBy Submission.revision p.submissions).map Submission.id).Nodup :=
    ((sortBy_perm _ _).map _).nodup_iff.mpr h
  have hlatest : ((lastByKey Submission.participantId
      (sortBy Submission.revision p.submissions)).map Submission.id).Nodup :=
    hsorted.sublist ((lastByKey_sublist _ _).map _)
  exact ((sortBy_perm _ _).map _).nodup_iff.mpr hlatest

theorem Proposed.backed {actor : Id} {r : Reconciliation} (hr : Proposed sha t actor p p' r)
    (h : (Table.keys p.submissions).Nodup) : Backed sha p.lines p.allParticipants r where
  source := by
    rw [hr.fingerprint, sourceFingerprint, hr.submissions]
  distinct := by
    rw [hr.submissions]
    exact nodup_latestSubmissions p h
  approvals := by simp [hr.unapproved]

theorem Approved.backed {lines : List CargoLine} {participants : List Participant}
    {r : Reconciliation} {a : Approval} (ha : Approved sha p p' r a)
    (h : Backed sha lines participants r) :
    Backed sha lines participants { r with approvals := r.approvals ++ [a] } where
  source := h.source
  distinct := h.distinct
  approvals b hb := by
    obtain hb | hb := List.mem_append.mp hb
    · exact h.approvals b hb
    · rw [List.mem_singleton.mp hb]
      exact ⟨ha.fingerprint, ha.supported⟩

theorem Finalized.backed {ctx : Ctx} {actor : Id} {lines : List CargoLine}
    {participants : List Participant} {r r' : Reconciliation}
    (hf : Finalized sha ctx actor p p' r r') (h : Backed sha lines participants r) :
    Backed sha lines participants r' := by
  obtain ⟨snapshot, rfl⟩ := hf.reconciliation
  exact ⟨h.source, h.distinct, h.approvals⟩

/-- What the plan's reconciliations rest on, what closes the plan to cancellation, and what its
schedule and version are. -/
structure PlanBacked (sha : Sha256) (p : MeasurementPlan) : Prop where
  backed : ∀ r ∈ p.reconciliations, Backed sha p.lines p.allParticipants r
  closed : (∃ r ∈ p.reconciliations, r.finalizedAt ≠ none) →
    ∃ f ∈ p.reconciliations, f.status = .final
  version : 1 ≤ p.version
  ends : ∀ e, p.endsAt = some e → p.scheduledAt ≤ e

theorem New.backed (h : New t p) : PlanBacked sha p where
  backed := by simp [h.reconciliations]
  closed := by simp [h.reconciliations]
  version := h.version.ge
  ends := h.ends

/-- The schedule is only written by a patch. -/
theorem mutation_ends (hm : Mutation sha t p p')
    (h : ∀ e, p.endsAt = some e → p.scheduledAt ≤ e) :
    ∀ e, p'.endsAt = some e → p'.scheduledAt ≤ e := by
  cases hm with
  | patched _ hp => exact hp.ends
  | submitted s hs => exact hs.plan ▸ h
  | guest p₁ s link hs hplan => exact hplan ▸ hs.plan ▸ h
  | proposed actor r hr => exact hr.plan ▸ h
  | approved r a _ ha => exact ha.plan ▸ h
  | finalized ctx actor r r' _ hf => exact hf.plan ▸ h
  | assessed a ha => exact ha.plan ▸ h
  | issued t' a i hi => exact hi.plan ▸ h

/-- While a plan has finalized something it has a final reconciliation. -/
theorem mutation_closed (hlife : Lifecycle p) (hm : Mutation sha t p p')
    (h : (∃ r ∈ p.reconciliations, r.finalizedAt ≠ none) →
      ∃ f ∈ p.reconciliations, f.status = .final) :
    (∃ r ∈ p'.reconciliations, r.finalizedAt ≠ none) →
      ∃ f ∈ p'.reconciliations, f.status = .final := by
  rintro ⟨r', hr', hfinal⟩
  -- A finalized row was finalized before, or this step has finalized it.
  have hold : (∃ r ∈ p.reconciliations, r.finalizedAt ≠ none) ∨
      ∃ ctx actor r, r ∈ p.reconciliations ∧ Finalized sha ctx actor p p' r r' := by
    obtain ⟨r, hr, _, _, hsame⟩ | ⟨actor, hproposed⟩ | ⟨ctx, actor, r, hr, hf⟩ :=
      mutation_origin hm hr'
    · exact .inl ⟨r, hr, hsame ▸ hfinal⟩
    · exact absurd hproposed.notFinal hfinal
    · exact .inr ⟨ctx, actor, r, hr, hf⟩
  obtain hold | ⟨ctx, actor, r, hr, hf⟩ := hold
  · obtain ⟨f, hf, hstatus⟩ := h hold
    cases hm with
    | patched _ hp => exact ⟨f, hp.reconciliations ▸ hf, hstatus⟩
    | submitted s hs => exact ⟨f, by rwa [hs.plan], hstatus⟩
    | guest p₁ s link hs hplan => exact ⟨f, by rwa [hplan, hs.plan], hstatus⟩
    | proposed actor r hr =>
        rw [hr.plan]
        refine ⟨f, List.mem_append_left _ (List.mem_map.mpr ⟨f, hf, ?_⟩), hstatus⟩
        simp [hstatus]
    | approved r a mem ha =>
        rw [ha.plan]
        have hdraft := (ensureCurrentDraft_eq_ok.mp ha.current).1
        refine ⟨f, Table.mem_put_of_ne hf fun hid => ?_, hstatus⟩
        obtain rfl := Table.eq_of_key_eq hlife.keys hf mem hid
        rw [hstatus] at hdraft
        cases hdraft
    | finalized ctx actor r q mem hfin =>
        have hdraft := (ensureCurrentDraft_eq_ok.mp hfin.current).1
        obtain ⟨snapshot, rfl⟩ := hfin.reconciliation
        rw [hfin.plan]
        have hkept : r ∈ supersede .final p.reconciliations :=
          List.mem_map.mpr ⟨r, mem, by simp [hdraft]⟩
        exact ⟨_, Table.mem_put_self hkept rfl, rfl⟩
    | assessed a ha => exact ⟨f, by rwa [ha.plan], hstatus⟩
    | issued t' a i hi => exact ⟨f, by rwa [hi.plan], hstatus⟩
  · obtain ⟨snapshot, rfl⟩ := hf.reconciliation
    exact ⟨_, hr', rfl⟩

theorem mutation_backed (hlife : Lifecycle p) (hkeys : (Table.keys p.submissions).Nodup)
    (hm : Mutation sha t p p') (h : PlanBacked sha p) : PlanBacked sha p'.advance where
  backed := by
    have hlocked : p.reconciliations ≠ [] →
        p'.lines = p.lines ∧ p'.allParticipants = p.allParticipants := by
      intro hne
      have hsame := LockedAs.mutation ⟨.inr (.inr hne), rfl, rfl⟩ hm
      exact ⟨hsame.lines, congrArg (sortBy Participant.id) hsame.participants⟩
    show ∀ r ∈ p'.reconciliations, Backed sha p'.lines p'.allParticipants r
    refine mutation_rows hm (fun actor r hr => ?_) (fun r hr => ?_) (fun r _ a ha hr => ?_)
      (fun ctx actor r _ r' hf hr => ?_) fun r hr => ?_
    · have hplan := hr.plan
      have hbacked := hr.backed hkeys
      rw [hplan]
      exact hbacked
    · exact ⟨hr.source, hr.distinct, hr.approvals⟩
    · exact ha.backed hr
    · exact hf.backed hr
    · obtain ⟨hlines, hparticipants⟩ := hlocked (List.ne_nil_of_mem hr)
      rw [hlines, hparticipants]
      exact h.backed r hr
  closed := by
    show (∃ r ∈ p'.reconciliations, r.finalizedAt ≠ none) →
      ∃ f ∈ p'.reconciliations, f.status = .final
    exact mutation_closed hlife hm h.closed
  version := by
    show 1 ≤ p'.version + 1
    omega
  ends := by
    show ∀ e, p'.endsAt = some e → p'.scheduledAt ≤ e
    exact mutation_ends hm h.ends

theorem upkeep_backed (hu : Upkeep p p') (h : PlanBacked sha p) : PlanBacked sha p' := by
  cases hu with
  | links ls hplan _ =>
      subst hplan
      exact ⟨h.backed, h.closed, h.version, h.ends⟩
  | evidence es hplan =>
      subst hplan
      exact ⟨h.backed, h.closed, h.version, h.ends⟩

/-! ## Runs -/

/-- The plans of the tenant refer to what is there, and are backed. -/
structure PlansBacked (sha : Sha256) (t : Tenant) : Prop where
  references : References t
  plans : ∀ p ∈ t.plans, PlanBacked sha p

theorem PlansBacked.ofInitial (h : t.Initial) : PlansBacked sha t where
  references := .ofInitial h
  plans := by simp [h.plans]

theorem PlansBacked.step {r : Request} {a : VesselCaller.Response} (h : PlansBacked sha t)
    (hr : t.handle sha r = .ok (t', a)) : PlansBacked sha t' where
  references := h.references.step hr
  plans := (handle_effect hr).forall_plans (fun _ hnew => hnew.backed)
    (fun p _ mem hp hm => mutation_backed (h.references.covered.plans.lifecycle p mem)
      (h.references.portal.order p mem).submissionKeys hm hp)
    (fun _ _ _ hp hu => upkeep_backed hu hp) h.plans

theorem PlansBacked.run (h : PlansBacked sha t) (rs : List Request) :
    PlansBacked sha (Lib.run (Tenant.handle sha) t rs) :=
  run_invariant (fun hs hr => hs.step hr) rs h

/-- A fingerprint is current exactly while the linked returns are the latest. -/
theorem Backed.current_iff (hsha : Function.Injective sha.source) {r : Reconciliation}
    (h : Backed sha p.lines p.allParticipants r) :
    r.inputFingerprint = sourceFingerprint sha p (latestSubmissions p) ↔
      r.submissions.Perm ((latestSubmissions p).map Submission.id) := by
  have hdistinct : (r.submissions.map id).Nodup := by
    rw [List.map_id]
    exact h.distinct
  rw [h.source, sourceFingerprint, hsha.eq_iff, FingerprintSource.mk.injEq,
    ← sortBy_eq_sortBy_iff hdistinct]
  simp only [and_self, and_true]

end VesselCaller.Measurements
