import VesselCaller.System

/-!
# Independent readings

An agency that opens its link must measure on its own: before its submission it sees
neither the manifest nor what the other agencies reported, and afterwards only the
figures of their reports.  Both are statements about two states: whatever differs
between them and is hidden from the agency, `contextData` answers the same.

What is hidden is named by two projections, `CargoLine.blind` and `Submission.masked`.

## Main definitions

* `CargoLine.blind`, `Submission.maskedFor` — what an agency is not to see, masked;
* `SameVoyage` — two states show the same voyage;
* `SameButMasked` — they agree but for what is masked in the submissions of the others.
-/

namespace VesselCaller.Measurements

open Lib Accounts Billing Operations

variable {sha : Sha256} {t t' : Tenant} {p p' : MeasurementPlan} {link link' : AgencyLink}

/-! ## Before the own submission -/

/-- A line without its manifest baseline. -/
def CargoLine.blind (l : CargoLine) : CargoLine :=
  { l with manifestQuantity := none, baselineReference := "" }

/-- The two states show the same voyage: the plan's title, location and time, and the
vessel and the reference of its call. -/
structure SameVoyage (t t' : Tenant) (p p' : MeasurementPlan) : Prop where
  vesselName : (Table.get p.vesselCallId t.calls).map VesselCall.vesselName =
    (Table.get p'.vesselCallId t'.calls).map VesselCall.vesselName
  callReference : (Table.get p.vesselCallId t.calls).map VesselCall.reference =
    (Table.get p'.vesselCallId t'.calls).map VesselCall.reference
  title : p.title = p'.title
  location : p.location = p'.location
  scheduledAt : p.scheduledAt = p'.scheduledAt

/-- Without a submission of the link's own, the answer is made of the voyage, the blind
lines and the participant. -/
theorem contextData_unsubmitted {contextId : Id} (hlink : link.submissionId = none) :
    contextData sha t contextId p link = {
      contextId := contextId
      inputFingerprint := portalFingerprint sha t p
      agency := (Table.get link.participantId p.participants).map fun q =>
        (q.id, q.name, q.role, q.representative)
      voyage := (((Table.get p.vesselCallId t.calls).map VesselCall.vesselName).getD "",
        ((Table.get p.vesselCallId t.calls).map VesselCall.reference).getD "", p.title, p.location,
        p.scheduledAt)
      lines := p.lines.map CargoLine.blind
      ownReport := none
      completedPeers := [] } := by
  simp only [contextData, hlink, Option.bind_none, Option.map_none, Option.isSome_none]
  rfl

/-! ## After the own submission -/

/-- A submission as the other agencies may know it. -/
def Submission.masked (s : Submission) : Submission :=
  { s with
    notes := ""
    representative := ""
    observedAt := 0
    sourceReference := ""
    lines := s.lines.map fun l => { l with note := "" } }

/-- A submission as the agency of the participant `own` may know it. -/
def Submission.maskedFor (own : Id) (s : Submission) : Submission :=
  if s.participantId = own then s else s.masked

theorem Submission.maskedFor_keeps (own : Id) (s : Submission) :
    (s.maskedFor own).id = s.id ∧ (s.maskedFor own).participantId = s.participantId ∧
      (s.maskedFor own).revision = s.revision := by
  unfold maskedFor
  split <;> exact ⟨rfl, rfl, rfl⟩

/-- The report of a peer does not depend on what is masked. -/
theorem reportData_masked (s : Submission) :
    reportData p false s.masked = reportData p false s := by
  simp only [reportData, Submission.masked, List.map_map]
  rfl

theorem reportData_maskedFor (own : Id) (s : Submission) :
    reportData p false (s.maskedFor own) = reportData p false s := by
  unfold Submission.maskedFor
  split
  · rfl
  · exact reportData_masked s

/-- Plans whose submissions agree up to a map that keeps participant and revision have
latest submissions that agree up to it. -/
theorem latestSubmissions_map {g : Submission → Submission}
    (hparticipant : ∀ s, (g s).participantId = s.participantId)
    (hrevision : ∀ s, (g s).revision = s.revision)
    (h : p.submissions.map g = p'.submissions.map g) :
    (latestSubmissions p).map g = (latestSubmissions p').map g := by
  have hmoves : ∀ q : MeasurementPlan, (latestSubmissions q).map g =
      sortBy Submission.participantId (lastByKey Submission.participantId
        (sortBy Submission.revision (q.submissions.map g))) := by
    intro q
    rw [sortBy_map hrevision, lastByKey_map hparticipant, sortBy_map hparticipant]
    rfl
  rw [hmoves, hmoves, h]

/-- The states agree but for what is masked in the submissions of the others. -/
structure SameButMasked (own : Id) (p p' : MeasurementPlan) : Prop where
  rest : p' = { p with submissions := p'.submissions }
  submissions : p.submissions.map (Submission.maskedFor own) =
    p'.submissions.map (Submission.maskedFor own)

/-- A submission of the participant itself is in both states. -/
theorem SameButMasked.own {own id : Id} {s : Submission} (h : SameButMasked own p p')
    (hs : Table.get id p.submissions = some s) (hown : s.participantId = own) :
    Table.get id p'.submissions = some s := by
  have hmoves : ∀ q : MeasurementPlan, (Table.get id q.submissions).map
      (Submission.maskedFor own) = Table.get id (q.submissions.map (Submission.maskedFor own)) := by
    intro q
    rw [Table.get, Table.get, List.find?_map]
    refine congrArg _ (congrArg (q.submissions.find? ·) (funext fun s => ?_))
    exact congrArg (fun k => decide (k = id)) (s.maskedFor_keeps own).1.symm
  have hmasked := hmoves p'
  rw [← h.submissions, ← hmoves p, hs, Option.map_some] at hmasked
  obtain ⟨s', hs', heq⟩ := Option.map_eq_some_iff.mp hmasked
  have hown' : s'.participantId = own := by
    rw [← (s'.maskedFor_keeps own).2.1, heq, (s.maskedFor_keeps own).2.1, hown]
  rw [Submission.maskedFor, if_pos hown', Submission.maskedFor, if_pos hown] at heq
  rw [hs', heq]

/-- The reports of the peers are the same in both states. -/
theorem SameButMasked.peers {own : Id} (h : SameButMasked own p p') :
    ((latestSubmissions p).filter fun s => s.participantId ≠ own).map (reportData p false) =
      ((latestSubmissions p').filter fun s => s.participantId ≠ own).map (reportData p' false) := by
  have hlatest := latestSubmissions_map (fun s => (s.maskedFor_keeps own).2.1)
    (fun s => (s.maskedFor_keeps own).2.2) h.submissions
  have hreport : reportData p' false = reportData p false := by
    rw [h.rest]
    rfl
  have hmoves : ∀ xs : List Submission,
      (xs.filter fun s => s.participantId ≠ own).map (reportData p false) =
        ((xs.map (Submission.maskedFor own)).filter fun s => s.participantId ≠ own).map
          (reportData p false) := by
    intro xs
    rw [List.filter_map, List.map_map]
    refine congr (congrArg List.map (funext fun s => (reportData_maskedFor own s).symm)) ?_
    refine congrArg (List.filter · xs) (funext fun s => ?_)
    simp only [Function.comp_apply, (s.maskedFor_keeps own).2.1]
  rw [hreport, hmoves, hlatest, ← hmoves]

/-- **Independent readings.**  As long as its link has no submission, what an agency is
shown depends on the voyage, the blind cargo lines and its own participant record only,
the opaque fingerprint apart.  After its submission, what it is shown does not depend on
the notes, line notes, representative, observed time or source reference of any other
participant's submission. -/
theorem portal_noninterference (sha : Sha256) (contextId : Id) :
    (∀ {t t' : Tenant} {p p' : MeasurementPlan} {link link' : AgencyLink}, SameVoyage t t' p p' →
      p.lines.map CargoLine.blind = p'.lines.map CargoLine.blind →
      Table.get link.participantId p.participants = Table.get link'.participantId p'.participants →
      link.submissionId = none → link'.submissionId = none →
      ∀ fingerprint, { contextData sha t contextId p link with inputFingerprint := fingerprint } =
        { contextData sha t' contextId p' link' with inputFingerprint := fingerprint }) ∧
    ∀ {t t' : Tenant} {p p' : MeasurementPlan} {link : AgencyLink} {s : Submission},
      t'.calls = t.calls → SameButMasked link.participantId p p' →
      link.submissionId.bind (Table.get · p.submissions) = some s →
      s.participantId = link.participantId →
      contextData sha t contextId p link = contextData sha t' contextId p' link := by
  refine ⟨?_, ?_⟩
  · intro t t' p p' link link' hvoyage hlines hparticipant hlink hlink' fingerprint
    rw [contextData_unsubmitted hlink, contextData_unsubmitted hlink', hlines, hparticipant,
      hvoyage.vesselName, hvoyage.callReference, hvoyage.title, hvoyage.location,
      hvoyage.scheduledAt]
  · intro t t' p p' link s hcalls hmasked hs hown
    obtain ⟨id, hid, hget⟩ := Option.bind_eq_some_iff.mp hs
    have hs' : link.submissionId.bind (Table.get · p'.submissions) = some s := by
      rw [hid]
      exact hmasked.own hget hown
    have hpeers := hmasked.peers
    have hreport : reportData p' true s = reportData p true s := by
      rw [hmasked.rest]
      rfl
    have hfingerprint : portalFingerprint sha t' p' = portalFingerprint sha t p := by
      rw [hmasked.rest]
      simp only [portalFingerprint, Tenant.planContext, planContext, hcalls]
      rfl
    simp only [contextData, hs, hs', hfingerprint, hpeers, Option.map_some, hreport,
      Option.isSome_some, if_true]
    rw [hmasked.rest]
    simp only [Tenant.planContext, planContext, hcalls]

/-- A link of the terminal, and the plan of the sample with and without its manifest, and
with two accounts of what another participant noted. -/
theorem portal_noninterference_sample :
    ∃ t p s, t = run (Tenant.handle Sample.sha) Sample.tenant Sample.proposed ∧
      Table.get 20000 t.plans = some p ∧ Table.get 30000 p.submissions = some s ∧
      let link : AgencyLink := ⟨60000, 20100, "", .hex "", 1767400000, none, none, "", .hex ""⟩
      let other : Submission := { s with id := 1, participantId := 20101 }
      { contextData Sample.sha t 70000 p link with inputFingerprint := .hex "" } =
        { contextData Sample.sha t 70000 { p with lines := p.lines.map CargoLine.blind } link with
          inputFingerprint := .hex "" } ∧
      contextData Sample.sha t 70000 { p with submissions := [s, other] }
          { link with submissionId := some 30000 } =
        contextData Sample.sha t 70000
          { p with submissions := [s, { other with notes := "Rain during discharge" }] }
          { link with submissionId := some 30000 } := by
  have hplan : ((Table.get 20000 (run (Tenant.handle Sample.sha) Sample.tenant
      Sample.proposed).plans).bind fun p => (Table.get 30000 p.submissions).map
        fun s => (s.id, s.participantId)) = some (30000, 20100) := by decide +kernel
  obtain ⟨p, hp, hs⟩ := Option.bind_eq_some_iff.mp hplan
  obtain ⟨s, hs, hkeys⟩ := Option.map_eq_some_iff.mp hs
  obtain ⟨hid, hparticipant⟩ := Prod.mk.inj hkeys
  refine ⟨_, p, s, rfl, hp, hs, ?_⟩
  intro link other
  refine ⟨?_, ?_⟩
  · have hlines : p.lines.map CargoLine.blind =
        (p.lines.map CargoLine.blind).map CargoLine.blind := by
      rw [List.map_map]
      rfl
    exact @(portal_noninterference Sample.sha 70000).1 _ _ p
      { p with lines := p.lines.map CargoLine.blind } link link ⟨rfl, rfl, rfl, rfl, rfl⟩ hlines
      rfl rfl rfl _
  · refine (portal_noninterference Sample.sha 70000).2 (s := s) rfl ⟨rfl, ?_⟩ ?_ hparticipant
    · rfl
    · simp [Table.get, key, hid]

end VesselCaller.Measurements
