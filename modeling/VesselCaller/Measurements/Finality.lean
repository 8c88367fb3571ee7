import VesselCaller.Measurements.Lifecycle

/-!
# Final reconciliations

A reconciliation is final by the work of four operations: a proposal links the
returns it rests on and fingerprints them, approvals repeat that fingerprint, late
returns change what the fingerprint is compared with, and finalization compares.
Nothing but the fingerprint ties them together, so what is proved here assumes that
the hash does not collide on fingerprint inputs.

* `Inherits` — what a reconciliation keeps through every later operation, and what
  it keeps besides once it is finalized;
* `Sourced` — the invariant that lets finalization trust the fingerprint;
* `final_reconciliation_sound` — what held when a reconciliation became final, and
  that it stayed as it was.
-/

namespace VesselCaller.Measurements

open Lib Accounts Billing Operations

/-! ## What a reconciliation keeps -/

/-- `r'` is a later state of `r`. -/
structure Inherits (r r' : Reconciliation) : Prop where
  id : r'.id = r.id
  createdBy : r'.createdBy = r.createdBy
  lines : r'.lines = r.lines
  submissions : r'.submissions = r.submissions
  evidence : r'.evidence = r.evidence
  inputFingerprint : r'.inputFingerprint = r.inputFingerprint
  settled : r.finalizedAt ≠ none → r'.snapshot = r.snapshot ∧
    r'.finalizedBy = r.finalizedBy ∧ r'.finalizedAt = r.finalizedAt

theorem Inherits.refl (r : Reconciliation) : Inherits r r :=
  ⟨rfl, rfl, rfl, rfl, rfl, rfl, fun _ => ⟨rfl, rfl, rfl⟩⟩

theorem Inherits.trans {a b c : Reconciliation} (hab : Inherits a b) (hbc : Inherits b c) :
    Inherits a c where
  id := hbc.id.trans hab.id
  createdBy := hbc.createdBy.trans hab.createdBy
  lines := hbc.lines.trans hab.lines
  submissions := hbc.submissions.trans hab.submissions
  evidence := hbc.evidence.trans hab.evidence
  inputFingerprint := hbc.inputFingerprint.trans hab.inputFingerprint
  settled := by
    intro hfinal
    obtain ⟨hsnapshot, hby, hat⟩ := hab.settled hfinal
    obtain ⟨hsnapshot', hby', hat'⟩ := hbc.settled (hat ▸ hfinal)
    exact ⟨hsnapshot'.trans hsnapshot, hby'.trans hby, hat'.trans hat⟩

variable {sha : Sha256} {t : Tenant} {ctx : Ctx} {p p' : MeasurementPlan}

theorem inherits_superseded (r : Reconciliation) :
    Inherits r { r with status := .superseded } :=
  ⟨rfl, rfl, rfl, rfl, rfl, rfl, fun _ => ⟨rfl, rfl, rfl⟩⟩

/-- Superseding keeps everything but the status. -/
theorem exists_mem_supersede (old : ReconciliationStatus) {rs : List Reconciliation}
    {r : Reconciliation} (hr : r ∈ rs) : ∃ r' ∈ supersede old rs, Inherits r r' := by
  refine ⟨_, List.mem_map.mpr ⟨r, hr, rfl⟩, ?_⟩
  split
  · exact inherits_superseded r
  · exact .refl r

/-- Writing a later state of a row back keeps every row. -/
theorem exists_mem_put {rs : List Reconciliation} {r r' q : Reconciliation}
    (hkeys : (Table.keys rs).Nodup) (hr : r ∈ rs) (hrr' : Inherits r r') (hq : q ∈ rs) :
    ∃ q' ∈ Table.put r' rs, Inherits q q' := by
  by_cases hk : q.id = r'.id
  · obtain rfl := Table.eq_of_key_eq hkeys hq hr (hk.trans hrr'.id)
    exact ⟨r', Table.mem_put_self hq hk, hrr'⟩
  · exact ⟨q, Table.mem_put_of_ne hq hk, .refl q⟩

theorem Finalized.inherits {actor : Id} {r r' : Reconciliation}
    (hf : Finalized sha ctx actor p p' r r') (hopen : r.finalizedAt = none) : Inherits r r' := by
  obtain ⟨snapshot, rfl⟩ := hf.reconciliation
  exact ⟨rfl, rfl, rfl, rfl, rfl, rfl, fun hfinal => absurd hopen hfinal⟩

/-- **Every mutation keeps every reconciliation.** -/
theorem mutation_inherits (h : Lifecycle p) (hm : Mutation sha t p p') {r : Reconciliation}
    (hr : r ∈ p.reconciliations) : ∃ r' ∈ p'.reconciliations, Inherits r r' := by
  cases hm with
  | patched _ hp => exact ⟨r, hp.reconciliations ▸ hr, .refl r⟩
  | submitted s hs =>
      rw [hs.plan]
      exact ⟨r, hr, .refl r⟩
  | guest p₁ s link hs hplan =>
      rw [hplan, hs.plan]
      exact ⟨r, hr, .refl r⟩
  | proposed actor q hq =>
      rw [hq.plan]
      obtain ⟨r', hr', hrr'⟩ := exists_mem_supersede .draft hr
      exact ⟨r', List.mem_append_left _ hr', hrr'⟩
  | approved q a mem ha =>
      rw [ha.plan]
      have hqq' : Inherits q { q with approvals := q.approvals ++ [a] } :=
        ⟨rfl, rfl, rfl, rfl, rfl, rfl, fun _ => ⟨rfl, rfl, rfl⟩⟩
      exact exists_mem_put h.keys mem hqq' hr
  | finalized ctx actor q q' mem hf =>
      have hdraft := (ensureCurrentDraft_eq_ok.mp hf.current).1
      have hqq' := hf.inherits (h.draftOpen q mem hdraft)
      rw [hf.plan]
      obtain ⟨r₁, hr₁, hrr₁⟩ := exists_mem_supersede .final hr
      -- The draft itself is not superseded, so the write finds it.
      have hq : q ∈ supersede .final p.reconciliations :=
        List.mem_map.mpr ⟨q, mem, by simp [hdraft]⟩
      obtain ⟨r', hr', hr₁r'⟩ :=
        exists_mem_put (by rw [keys_supersede]; exact h.keys) hq hqq' hr₁
      exact ⟨r', hr', hrr₁.trans hr₁r'⟩
  | assessed a ha =>
      rw [ha.plan]
      exact ⟨r, hr, .refl r⟩
  | issued t' a i hi =>
      rw [hi.plan]
      exact ⟨r, hr, .refl r⟩

/-- Where a reconciliation of the plan after a mutation comes from: it was there and
was not finalized just now, or it was proposed, or it was finalized. -/
theorem mutation_origin (hm : Mutation sha t p p') {r' : Reconciliation}
    (hr' : r' ∈ p'.reconciliations) :
    (∃ r ∈ p.reconciliations, Inherits r r' ∧ r'.snapshot = r.snapshot ∧
        r'.finalizedAt = r.finalizedAt) ∨
      (∃ actor, Proposed sha t actor p p' r') ∨
      ∃ ctx actor, ∃ r ∈ p.reconciliations, Finalized sha ctx actor p p' r r' := by
  -- A row that another one supersedes keeps its content.
  have hold : ∀ {old rs}, rs = p.reconciliations → r' ∈ supersede old rs →
      ∃ r ∈ p.reconciliations, Inherits r r' ∧ r'.snapshot = r.snapshot ∧
        r'.finalizedAt = r.finalizedAt := by
    rintro old rs rfl hmem
    obtain ⟨hmem, _⟩ | ⟨r, hr, _, rfl⟩ := mem_supersede hmem
    · exact ⟨r', hmem, .refl r', rfl, rfl⟩
    · exact ⟨r, hr, inherits_superseded r, rfl, rfl⟩
  -- Only a proposal adds a row, and only a finalization changes one beyond its status.
  cases hm with
  | patched _ hp => exact .inl ⟨r', hp.reconciliations ▸ hr', .refl r', rfl, rfl⟩
  | submitted s hs =>
      rw [hs.plan] at hr'
      exact .inl ⟨r', hr', .refl r', rfl, rfl⟩
  | guest p₁ s link hs hplan =>
      rw [hplan, hs.plan] at hr'
      exact .inl ⟨r', hr', .refl r', rfl, rfl⟩
  | proposed actor q hq =>
      rw [hq.plan] at hr'
      obtain hmem | hmem := List.mem_append.mp hr'
      · exact .inl (hold rfl hmem)
      · obtain rfl := List.mem_singleton.mp hmem
        exact .inr (.inl ⟨actor, hq⟩)
  | approved q a mem ha =>
      rw [ha.plan] at hr'
      obtain rfl | ⟨hmem, _⟩ := Table.mem_put hr'
      · exact .inl ⟨q, mem, ⟨rfl, rfl, rfl, rfl, rfl, rfl, fun _ => ⟨rfl, rfl, rfl⟩⟩, rfl, rfl⟩
      · exact .inl ⟨r', hmem, .refl r', rfl, rfl⟩
  | finalized ctx actor q q' mem hf =>
      have hmem := hr'
      rw [hf.plan] at hmem
      obtain rfl | ⟨hmem, _⟩ := Table.mem_put hmem
      · exact .inr (.inr ⟨ctx, actor, q, mem, hf⟩)
      · exact .inl (hold rfl hmem)
  | assessed a ha =>
      rw [ha.plan] at hr'
      exact .inl ⟨r', hr', .refl r', rfl, rfl⟩
  | issued t' a i hi =>
      rw [hi.plan] at hr'
      exact .inl ⟨r', hr', .refl r', rfl, rfl⟩

theorem upkeep_reconciliations (hu : Upkeep p p') : p'.reconciliations = p.reconciliations := by
  cases hu with
  | links ls hplan _ => rw [hplan]
  | evidence es hplan => rw [hplan]

/-! ## What the fingerprint vouches for -/

/-- Every reconciliation of the plan carries the fingerprint of the returns it links,
has one line for each cargo line, and was proposed when every participant who owed a
return had given one. -/
structure Sourced (sha : Sha256) (p : MeasurementPlan) : Prop where
  source : ∀ r ∈ p.reconciliations, ∃ lines participants, r.inputFingerprint =
    sha.source ⟨sortBy id r.submissions, lines, participants⟩
  lines : ∀ r ∈ p.reconciliations,
    (r.lines.map ReconciliationLine.lineId).Perm (Table.keys p.lines)
  returned : p.reconciliations ≠ [] → ∀ q ∈ p.participants, q.requiredSubmission = true →
    ∃ s ∈ p.submissions, s.participantId = q.id

theorem New.sourced (h : New t p) : Sourced sha p where
  source := by simp [h.reconciliations]
  lines := by simp [h.reconciliations]
  returned := by simp [h.reconciliations]

theorem Sourced.congr (h : Sourced sha p) (hlines : p'.lines = p.lines)
    (hparticipants : p'.participants = p.participants)
    (hsubmissions : p'.submissions = p.submissions)
    (hreconciliations : p'.reconciliations = p.reconciliations) : Sourced sha p' where
  source := hreconciliations ▸ h.source
  lines := by
    rw [hreconciliations, hlines]
    exact h.lines
  returned := by
    rw [hreconciliations, hparticipants, hsubmissions]
    exact h.returned

theorem mem_of_mem_latestSubmissions {s : Submission} (h : s ∈ latestSubmissions p) :
    s ∈ p.submissions :=
  mem_sortBy.mp (mem_of_mem_lastByKey (mem_sortBy.mp h))

/-- A participant with a return has a latest one. -/
theorem exists_mem_latestSubmissions {s : Submission} (h : s ∈ p.submissions) :
    ∃ s' ∈ latestSubmissions p, s'.participantId = s.participantId := by
  obtain ⟨s', hs', hparticipant⟩ := exists_mem_lastByKey (f := Submission.participantId)
    ((mem_sortBy (f := Submission.revision)).mpr h)
  exact ⟨s', mem_sortBy.mpr hs', hparticipant⟩

/-- No mutation takes a return back. -/
theorem mutation_submissions (hm : Mutation sha t p p') {s : Submission}
    (hs : s ∈ p.submissions) : s ∈ p'.submissions := by
  cases hm with
  | patched _ hp => rwa [hp.submissions]
  | submitted s' hs' => simp [hs'.plan, hs]
  | guest p₁ s' link hs' hplan => simp [hplan, hs'.plan, hs]
  | proposed actor r hr => simpa [hr.plan] using hs
  | approved r a _ ha => simpa [ha.plan] using hs
  | finalized ctx actor r r' _ hf => simpa [hf.plan] using hs
  | assessed a ha => simpa [ha.plan] using hs
  | issued t' a i hi => simpa [hi.plan] using hs

theorem mutation_sourced (h : Lifecycle p) (hp : Sourced sha p) (hm : Mutation sha t p p') :
    Sourced sha p' := by
  have hlocked : p.reconciliations ≠ [] → p'.lines = p.lines ∧ p'.participants = p.participants := by
    intro hne
    have := LockedAs.mutation ⟨.inr (.inr hne), rfl, rfl⟩ hm
    exact ⟨this.lines, this.participants⟩
  refine ⟨?_, ?_, ?_⟩
  · intro r' hr'
    obtain ⟨r, hr, hrr', _⟩ | ⟨actor, hr⟩ | ⟨ctx, actor, r, hr, hf⟩ := mutation_origin hm hr'
    · rw [hrr'.inputFingerprint, hrr'.submissions]
      exact hp.source r hr
    · rw [hr.fingerprint, hr.submissions]
      exact ⟨_, _, rfl⟩
    · obtain ⟨snapshot, rfl⟩ := hf.reconciliation
      exact hp.source r hr
  · intro r' hr'
    obtain ⟨r, hr, hrr', _⟩ | ⟨actor, hr⟩ | ⟨ctx, actor, r, hr, hf⟩ := mutation_origin hm hr'
    · rw [hrr'.lines, (hlocked (List.ne_nil_of_mem hr)).1]
      exact hp.lines r hr
    · have hplan : p'.lines = p.lines := by rw [hr.plan]
      rw [hplan]
      exact hr.lines h.lineKeys
    · obtain ⟨snapshot, rfl⟩ := hf.reconciliation
      rw [(hlocked (List.ne_nil_of_mem hr)).1]
      exact hp.lines r hr
  · intro hne q hq hrequired
    obtain ⟨r', hr'⟩ := List.exists_mem_of_ne_nil _ hne
    -- Either the plan already had reconciliations, or this one is its first proposal.
    have hbefore : p.reconciliations ≠ [] ∨ ∃ actor, Proposed sha t actor p p' r' := by
      obtain ⟨r, hr, _⟩ | hproposed | ⟨_, _, r, hr, _⟩ := mutation_origin hm hr'
      · exact .inl (List.ne_nil_of_mem hr)
      · exact .inr hproposed
      · exact .inl (List.ne_nil_of_mem hr)
    obtain hold | ⟨actor, hr⟩ := hbefore
    · rw [(hlocked hold).2] at hq
      obtain ⟨s, hs, hparticipant⟩ := hp.returned hold q hq hrequired
      exact ⟨s, mutation_submissions hm hs, hparticipant⟩
    · have hplan : p'.participants = p.participants := by rw [hr.plan]
      rw [hplan] at hq
      obtain ⟨s, hs, hparticipant⟩ := hr.returned q hq hrequired
      exact ⟨s, mutation_submissions hm (mem_of_mem_latestSubmissions hs), hparticipant⟩

theorem upkeep_sourced (hp : Sourced sha p) (hu : Upkeep p p') : Sourced sha p' := by
  cases hu with
  | links ls hplan _ =>
      subst hplan
      exact hp.congr rfl rfl rfl rfl
  | evidence es hplan =>
      subst hplan
      exact hp.congr rfl rfl rfl rfl

/-! ## Finalization -/

/-- What holds when the draft `d` of the plan `p` becomes the final reconciliation `f`. -/
structure SoundlyFinalized (p : MeasurementPlan) (d f : Reconciliation) : Prop where
  draft : d.status = .draft
  highest : ∀ r ∈ p.reconciliations, r.revision ≤ d.revision
  submissions : d.submissions.Perm ((latestSubmissions p).map Submission.id)
  returned : ∀ q ∈ p.participants, q.requiredSubmission = true →
    ∃ s ∈ latestSubmissions p, s.participantId = q.id
  agreed : ∀ q ∈ p.participants, q.requiredApproval = true →
    ∃ a ∈ latestApprovals d, a.participantId = q.id ∧ a.decision = .agreed
  undisputed : ∀ a ∈ latestApprovals d, a.decision ≠ .disputed
  supported : ∀ a ∈ latestApprovals d, a.inputFingerprint = d.inputFingerprint ∧ a.evidence ≠ []
  lines : (d.lines.map ReconciliationLine.lineId).Perm (Table.keys p.lines)
  finalized : ∃ actor now snapshot, actor ≠ d.createdBy ∧ f = { d with
    status := .final
    finalizedBy := some actor
    finalizedAt := some now
    snapshot := snapshot }

/-- The numbers of a numbered history are at most the number of its last entry. -/
theorem Lifecycle.revision_le_of_getLast? (h : Lifecycle p) {d r : Reconciliation}
    (hd : p.reconciliations.getLast? = some d) (hr : r ∈ p.reconciliations) :
    r.revision ≤ d.revision := by
  obtain ⟨earlier, hearlier⟩ := List.getLast?_eq_some_iff.mp hd
  have hsorted := h.revisions.sorted
  rw [hearlier, List.pairwise_append] at hsorted
  rw [hearlier, List.mem_append, List.mem_singleton] at hr
  obtain hr | rfl := hr
  · exact hsorted.2.2 r hr d (List.mem_singleton.mpr rfl)
  · exact le_rfl

theorem Finalized.sound (hsha : Function.Injective sha.source) (h : Lifecycle p)
    (hp : Sourced sha p) {actor : Id} {d f : Reconciliation} (mem : d ∈ p.reconciliations)
    (hf : Finalized sha ctx actor p p' d f) : SoundlyFinalized p d f where
  draft := (ensureCurrentDraft_eq_ok.mp hf.current).1
  highest := fun r hr => h.revision_le_of_getLast? (h.getLast?_of_current mem hf.current) hr
  submissions := by
    -- The two fingerprints hash the same sorted keys, so the keys are the same.
    obtain ⟨lines, participants, hsource⟩ := hp.source d mem
    have hcurrent := (ensureCurrentDraft_eq_ok.mp hf.current).2.2
    rw [hsource, sourceFingerprint] at hcurrent
    have hkeys : sortBy id d.submissions = sortBy id ((latestSubmissions p).map Submission.id) :=
      congrArg FingerprintSource.submissions (hsha hcurrent)
    refine (sortBy_perm id _).symm.trans ?_
    rw [hkeys]
    exact sortBy_perm id _
  returned := by
    intro q hq hrequired
    obtain ⟨s, hs, hparticipant⟩ := hp.returned (List.ne_nil_of_mem mem) q hq hrequired
    obtain ⟨s', hs', hparticipant'⟩ := exists_mem_latestSubmissions hs
    exact ⟨s', hs', hparticipant'.trans hparticipant⟩
  agreed := hf.agreed
  undisputed := hf.undisputed
  supported := hf.supported
  lines := hp.lines d mem
  finalized := by
    obtain ⟨snapshot, hreconciliation⟩ := hf.reconciliation
    exact ⟨actor, ctx.now, snapshot, hf.preparer.symm, hreconciliation⟩

/-! ## Runs -/

/-- The plans are in order and their reconciliations are sourced. -/
structure Sound (sha : Sha256) (t : Tenant) : Prop where
  plans : PlansInOrder t
  sourced : ∀ p ∈ t.plans, Sourced sha p

theorem Sound.ofInitial (h : t.Initial) : Sound sha t where
  plans := .ofInitial h
  sourced := by simp [h.plans]

theorem Sound.step {t' : Tenant} {r : Request} {a : VesselCaller.Response} (h : Sound sha t)
    (hr : t.handle sha r = .ok (t', a)) : Sound sha t' where
  plans := h.plans.step hr
  sourced := (handle_effect hr).forall_plans (fun _ hnew => hnew.sourced)
    (fun p _ mem hp hm => (mutation_sourced (h.plans.lifecycle p mem) hp hm).congr rfl rfl rfl rfl)
    (fun _ _ _ hp hu => upkeep_sourced hp hu) h.sourced

/-- The reconciliation `r` of the plan with key `plan`, or a later state of it, is there. -/
def Recorded (plan : Id) (r : Reconciliation) (t : Tenant) : Prop :=
  ∃ p, Table.get plan t.plans = some p ∧ ∃ r' ∈ p.reconciliations, Inherits r r'

/-- **A reconciliation stays recorded.** -/
theorem Sound.recorded {plan : Id} {r : Reconciliation} (h : Sound sha t)
    (hr : Recorded plan r t) (rs : List Request) :
    Recorded plan r (run (Tenant.handle sha) t rs) := by
  have hrun : Sound sha (run (Tenant.handle sha) t rs) ∧
      Recorded plan r (run (Tenant.handle sha) t rs) :=
    run_invariant (P := fun s => Sound sha s ∧ Recorded plan r s) ?_ rs ⟨h, hr⟩
  · exact hrun.2
  · rintro s request s' a ⟨hs, p, hget, r₁, hr₁, hrr₁⟩ hok
    refine ⟨hs.step hok, ?_⟩
    obtain ⟨p', hget', hstep⟩ := (handle_effect hok).plan hs.plans.keys hget
    cases hstep with
    | stayed heq =>
        subst heq
        exact ⟨p', hget', r₁, hr₁, hrr₁⟩
    | mutated q hm _ hadvanced =>
        subst hadvanced
        obtain ⟨r₂, hr₂, hr₁r₂⟩ :=
          mutation_inherits (hs.plans.lifecycle p (Table.mem_of_get hget).1) hm hr₁
        exact ⟨q.advance, hget', r₂, hr₂, hrr₁.trans hr₁r₂⟩
    | kept hu _ => exact ⟨p', hget', r₁, upkeep_reconciliations hu ▸ hr₁, hrr₁⟩

/-- A finalized reconciliation with key `rid` belongs to the plan with key `plan`. -/
def FinalizedIn (plan rid : Id) (t : Tenant) : Prop :=
  ∃ p, Table.get plan t.plans = some p ∧
    ∃ r ∈ p.reconciliations, r.id = rid ∧ r.finalizedAt ≠ none

/-- The request at which a reconciliation became final is a finalization of it. -/
theorem Sound.finalized_step {t' : Tenant} {request : Request} {a : VesselCaller.Response}
    {plan rid : Id} (h : Sound sha t) (hsha : Function.Injective sha.source)
    (hok : t.handle sha request = .ok (t', a)) (hbefore : ¬FinalizedIn plan rid t)
    (hafter : FinalizedIn plan rid t') :
    ∃ p p' d f, Table.get plan t.plans = some p ∧ Table.get plan t'.plans = some p' ∧
      d ∈ p.reconciliations ∧ f ∈ p'.reconciliations ∧ d.id = rid ∧ d.finalizedAt = none ∧
      SoundlyFinalized p d f := by
  obtain ⟨p', hget', f, hf, hfid, hffinal⟩ := hafter
  cases hget : Table.get plan t.plans with
  | none =>
      obtain hnone | ⟨q, hq, hnew, _⟩ := (handle_effect hok).absent hget
      · simp [hget'] at hnone
      · obtain rfl : p' = q := Option.some.inj (hget'.symm.trans hq)
        simp [hnew.reconciliations] at hf
  | some p =>
      have mem := (Table.mem_of_get hget).1
      obtain ⟨q, hq, hstep⟩ := (handle_effect hok).plan h.plans.keys hget
      obtain rfl : p' = q := Option.some.inj (hget'.symm.trans hq)
      cases hstep with
      | stayed heq =>
          subst heq
          exact absurd ⟨p', hget, f, hf, hfid, hffinal⟩ hbefore
      | kept hu _ =>
          exact absurd ⟨p, hget, f, upkeep_reconciliations hu ▸ hf, hfid, hffinal⟩ hbefore
      | mutated q hm _ hadvanced =>
          subst hadvanced
          obtain ⟨d, hd, hdf, _, hsame⟩ | ⟨actor, hproposed⟩ | ⟨ctx, actor, d, hd, hfinal⟩ :=
            mutation_origin hm hf
          · exact absurd ⟨p, hget, d, hd, hdf.id ▸ hfid, hsame ▸ hffinal⟩ hbefore
          · exact absurd hproposed.notFinal hffinal
          · have hsound := hfinal.sound hsha (h.plans.lifecycle p mem) (h.sourced p mem) hd
            refine ⟨p, q.advance, d, f, rfl, hget', hd, hf, ?_, ?_, hsound⟩
            · obtain ⟨snapshot, rfl⟩ := hfinal.reconciliation
              exact hfid
            · exact (h.plans.lifecycle p mem).draftOpen d hd hsound.draft

/-- **Soundness of final reconciliations.**  Every reconciliation that carries a
finalization instant got it at one accepted request of the run, and at that request it
was the draft of the highest revision; it linked exactly the latest returns, among
them one of every participant who owed one; every participant who owed an approval had
last agreed and nobody had last disputed; each latest approval carried its fingerprint
and evidence; the finalizer was not the preparer; and it had one line for each cargo
line of the plan.  From then on its lines, returns, evidence, snapshot, finalizer and
finalization instant are what that request left, whatever is requested next. -/
theorem final_reconciliation_sound {sha : Sha256} (hsha : Function.Injective sha.source)
    {t₀ : Tenant} (h₀ : t₀.Initial) (rs : List Request) {p : MeasurementPlan}
    (hp : p ∈ (run (Tenant.handle sha) t₀ rs).plans) {r : Reconciliation}
    (hr : r ∈ p.reconciliations) (hfinal : r.finalizedAt ≠ none) :
    (∃ before request after t' a, rs = before ++ request :: after ∧
      (run (Tenant.handle sha) t₀ before).handle sha request = .ok (t', a) ∧
      ∃ q q' d f, Table.get p.id (run (Tenant.handle sha) t₀ before).plans = some q ∧
        Table.get p.id t'.plans = some q' ∧ d ∈ q.reconciliations ∧ f ∈ q'.reconciliations ∧
        d.id = r.id ∧ d.finalizedAt = none ∧ SoundlyFinalized q d f ∧
        r.lines = f.lines ∧ r.submissions = f.submissions ∧ r.evidence = f.evidence ∧
        r.snapshot = f.snapshot ∧ r.finalizedBy = f.finalizedBy ∧
        r.finalizedAt = f.finalizedAt) ∧
    (∀ rs' : List Request, ∃ p' r',
      Table.get p.id (run (Tenant.handle sha) t₀ (rs ++ rs')).plans = some p' ∧
        r' ∈ p'.reconciliations ∧ r'.id = r.id ∧ r'.lines = r.lines ∧
        r'.submissions = r.submissions ∧ r'.evidence = r.evidence ∧
        r'.snapshot = r.snapshot ∧ r'.finalizedBy = r.finalizedBy ∧
        r'.finalizedAt = r.finalizedAt) := by
  have hsound : ∀ rs, Sound sha (run (Tenant.handle sha) t₀ rs) := fun rs =>
    run_invariant (fun hs hok => hs.step hok) rs (.ofInitial h₀)
  have hget : Table.get p.id (run (Tenant.handle sha) t₀ rs).plans = some p :=
    Table.get_of_mem (hsound rs).plans.keys hp
  constructor
  · have hstart : ¬FinalizedIn p.id r.id t₀ := by
      rintro ⟨q, hq, _⟩
      simp [h₀.plans, Table.get] at hq
    have hend : FinalizedIn p.id r.id (run (Tenant.handle sha) t₀ rs) :=
      ⟨p, hget, r, hr, rfl, hfinal⟩
    obtain ⟨before, request, after, t', a, rfl, hbefore, hok, hafter⟩ :=
      exists_accepted_of_run rs hstart hend
    obtain ⟨q, q', d, f, hq, hq', hd, hf, hid, hopen, hfinalized⟩ :=
      (hsound before).finalized_step hsha hok hbefore hafter
    -- The rest of the run carries `f` to the reconciliation we started from.
    have hrest : run (Tenant.handle sha) t₀ (before ++ request :: after) =
        run (Tenant.handle sha) t' after := by
      rw [run_append, run_cons, serve_of_ok _ hok]
    obtain ⟨p₁, hp₁, r₁, hr₁, hfr⟩ :=
      ((hsound before).step hok).recorded ⟨q', hq', f, hf, .refl f⟩ after
    rw [← hrest, hget, Option.some.injEq] at hp₁
    subst hp₁
    have hfid : f.id = d.id := by
      obtain ⟨_, _, _, _, rfl⟩ := hfinalized.finalized
      rfl
    have hffinal : f.finalizedAt ≠ none := by
      obtain ⟨_, _, _, _, rfl⟩ := hfinalized.finalized
      simp
    obtain rfl := Table.eq_of_key_eq ((hsound _).plans.lifecycle p hp).keys hr hr₁
      (hid.symm.trans (hfid.symm.trans hfr.id.symm))
    obtain ⟨hsnapshot, hby, hat⟩ := hfr.settled hffinal
    exact ⟨before, request, after, t', a, rfl, hok, q, q', d, f, hq, hq', hd, hf, hid, hopen,
      hfinalized, hfr.lines, hfr.submissions, hfr.evidence, hsnapshot, hby, hat⟩
  · intro rs'
    obtain ⟨p', hget', r', hr', hrr'⟩ := (hsound rs).recorded ⟨p, hget, r, hr, .refl r⟩ rs'
    obtain ⟨hsnapshot, hby, hat⟩ := hrr'.settled hfinal
    exact ⟨p', r', by rw [run_append]; exact hget', hr', hrr'.id, hrr'.lines, hrr'.submissions,
      hrr'.evidence, hsnapshot, hby, hat⟩

/-- The reconciliation of the sample history, after it was finalized and invoiced. -/
theorem final_reconciliation_sound_invoiced :
    Function.Injective Sample.sha.source ∧
    ∃ p ∈ (run (Tenant.handle Sample.sha) Sample.tenant Sample.invoiced).plans,
      ∃ r ∈ p.reconciliations, r.finalizedAt ≠ none ∧
        ∃ q d f, d.id = r.id ∧ SoundlyFinalized q d f ∧ r.snapshot = f.snapshot := by
  have hsha : Function.Injective Sample.sha.source := fun _ _ h => Digest.source.inj h
  have hplan : ∃ p ∈ (run (Tenant.handle Sample.sha) Sample.tenant Sample.invoiced).plans,
      ∃ r ∈ p.reconciliations, r.finalizedAt ≠ none := by decide +kernel
  obtain ⟨p, hp, r, hr, hfinal⟩ := hplan
  obtain ⟨⟨_, _, _, _, _, _, _, q, _, d, f, _, _, _, _, hid, _, hsound, _, _, _, hsnapshot, _⟩, _⟩ :=
    final_reconciliation_sound hsha Sample.initial Sample.invoiced hp hr hfinal
  exact ⟨hsha, p, hp, r, hr, hfinal, q, d, f, hid, hsound, hsnapshot⟩

end VesselCaller.Measurements
