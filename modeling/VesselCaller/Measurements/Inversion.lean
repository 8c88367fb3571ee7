import VesselCaller.Measurements.Views
import VesselCaller.Billing.Inversion

/-!
# What an accepted plan mutation did

One lemma for each service of a plan: from *the service returned this plan* to the
guards that held and the plan it wrote.  Every later proof about plans starts from
these and never unfolds a service again.

`Proposed`, `Approved`, `Finalized` and `Assessed` name the outcomes with many
parts; the smaller ones are stated in place.

## Main definitions

* `New`, `Patched`, `Submitted`, `Proposed`, `Approved`, `Finalized`, `Assessed`, `Issued` —
  one structure for each service;
* `AdmittedDeclaration`, `AdmittedLines` — what a serializer has checked of the lines.
-/

namespace VesselCaller.Measurements

open Lib Accounts Billing Operations

variable {sha : Sha256} {t : Tenant} {ctx : Ctx} {actor : Id} {p p' : MeasurementPlan}

/-! ## Valid requests -/

/-- A field is accepted exactly when its check holds. -/
@[simp] theorem field_eq_ok {name : String} {ok : Bool} {u : Unit} :
    field name ok = .ok u ↔ ok = true := by
  simp [field]

/-- The figures of a valid request line are nonnegative and have at most the digits
their columns have. -/
structure AssessmentLineInput.Admitted (item : AssessmentLineInput) : Prop where
  rate : 0 ≤ item.rate.value ∧ item.rate.value < 10 ^ 12
  tolerance : 0 ≤ item.tolerance.value ∧ item.tolerance.value < 10 ^ 18
  previous : ∀ q, item.previouslyBilledQuantity = some q → 0 ≤ q.value ∧ q.value < 10 ^ 18
  opening : 0 ≤ item.openingBilledAmount.value ∧ item.openingBilledAmount.value < 10 ^ 18

/-- A line is valid exactly when its figures are admitted. -/
theorem AssessmentLineInput.validate_eq_ok {item : AssessmentLineInput} {u : Unit} :
    item.validate = .ok u ↔ item.Admitted := by
  simp only [AssessmentLineInput.validate, bind_eq_ok, field_eq_ok, exists_const,
    Option.all_eq_true, decimalField_iff]
  constructor
  · rintro ⟨hrate, htolerance, hprevious, hopening⟩
    exact ⟨hrate, htolerance, hprevious, hopening⟩
  · rintro ⟨hrate, htolerance, hprevious, hopening⟩
    exact ⟨hrate, htolerance, hprevious, hopening⟩

/-- A valid request has admitted lines. -/
theorem AssessmentInput.admitted {data : AssessmentInput} (h : data.validate = .ok ()) :
    ∀ item ∈ data.lines, item.Admitted := by
  simp only [AssessmentInput.validate, bind_eq_ok] at h
  obtain ⟨_, _, _, _, _, _, _, _, _, _, _, _, _, _, hlines⟩ := h
  exact fun item hitem => AssessmentLineInput.validate_eq_ok.mp (forM_eq_ok.mp hlines item hitem)

/-! ## Checks -/

/-- A row is inserted exactly when its key is not taken. -/
@[simp] theorem insertKey_eq_ok {constraint : String} {id : Id} {taken : List Id} {r : Unit} :
    insertKey constraint id taken = .ok r ↔ id ∉ taken := by
  simp [insertKey]

/-- A plan is written at its version, until it is cancelled. -/
@[simp] theorem checkVersion_eq_ok {version : ℕ} {r : Unit} :
    checkVersion p version = .ok r ↔ p.version = version ∧ p.status ≠ .cancelled := by
  simp [checkVersion, bind_eq_ok]

/-- The participant that is found is one of the plan. -/
theorem participantFor_eq_ok {id : Id} {q : Participant} (h : participantFor p id = .ok q) :
    q ∈ p.participants ∧ q.id = id := by
  simp only [participantFor, orRaise_eq_ok] at h
  exact Table.mem_of_get h

/-- Supplied lines are the plan's lines, each once. -/
theorem validateLines_perm {data : List LineFields} {r : Unit}
    (h : validateLines p data = .ok r) (hnd : (Table.keys p.lines).Nodup) :
    (data.map LineFields.lineId).Perm (Table.keys p.lines) := by
  simp only [validateLines, bind_eq_ok, raiseIf_eq_ok, not_or, not_not] at h
  obtain ⟨_, ⟨hdata, hsub, hsup⟩, _⟩ := h
  exact (List.perm_ext_iff_of_nodup hdata hnd).mpr fun id => ⟨hsub id, hsup id⟩

/-- The figures of a request line that `validate_lines` looks at are whole. -/
structure LineFields.Whole (item : LineFields) : Prop where
  quantity : ∀ v, item.quantity = some v → isWhole v = true
  previous : ∀ v, item.previouslyBilledQuantity = some v → isWhole v = true
  tolerance : ∀ v, item.tolerance = some v → isWhole v = true

/-- A counted line without a fractional field has whole figures. -/
theorem fractionalField_eq_none {line : CargoLine} {item : LineFields}
    (h : fractionalField line item = none) (hunit : line.unit = .count) : item.Whole := by
  have hfields : ∀ field ∈ [("quantity", item.quantity),
      ("previouslyBilledQuantity", item.previouslyBilledQuantity), ("tolerance", item.tolerance)],
      ∀ v, field.2 = some v → isWhole v = true := by
    intro field hfield v hv
    rw [fractionalField, Option.map_eq_none_iff, List.find?_eq_none] at h
    simpa [hv, hunit] using h field hfield
  exact ⟨hfields ("quantity", _) (by simp), hfields ("previouslyBilledQuantity", _) (by simp),
    hfields ("tolerance", _) (by simp)⟩

/-- A supplied line names a cargo line of the plan, and its figures are whole where that one
is counted. -/
theorem mem_of_validateLines {data : List LineFields} {r : Unit}
    (h : validateLines p data = .ok r) {item : LineFields} (hitem : item ∈ data) :
    ∃ line ∈ p.lines, line.id = item.lineId ∧ (line.unit = .count → item.Whole) := by
  simp only [validateLines, bind_eq_ok] at h
  obtain ⟨_, _, hitems⟩ := h
  have hchecked := forM_eq_ok.mp hitems item hitem
  simp only [bind_eq_ok, orRaise_eq_ok] at hchecked
  obtain ⟨line, hline, hwhole⟩ := hchecked
  refine ⟨line, (Table.mem_of_get hline).1, (Table.mem_of_get hline).2, fun hunit => ?_⟩
  split at hwhole
  · exact absurd hwhole (throw_ne_ok)
  · rename_i hnone
    exact fractionalField_eq_none hnone hunit

/-- The reconciliation that is found is one of the plan. -/
theorem getReconciliation_eq_ok {rid : Id} {r : Reconciliation}
    (h : getReconciliation p rid = .ok r) : r ∈ p.reconciliations ∧ r.id = rid := by
  simp only [getReconciliation, orRaise_eq_ok] at h
  exact Table.mem_of_get h

/-- A current draft is the latest reconciliation, on the returns as they are. -/
theorem ensureCurrentDraft_eq_ok {r : Reconciliation} {u : Unit} :
    ensureCurrentDraft sha p r = .ok u ↔
      r.status = .draft ∧ p.latestReconciliation.map Reconciliation.id = some r.id ∧
        r.inputFingerprint = sourceFingerprint sha p (latestSubmissions p) := by
  simp only [ensureCurrentDraft, bind_eq_ok, raiseIf_eq_ok, ne_eq, not_not, exists_const]
  rw [eq_comm (a := some r.id)]

/-- A billable reconciliation is final and the latest. -/
theorem ensureBillableFinal_eq_ok {r : Reconciliation} {u : Unit} :
    ensureBillableFinal p r = .ok u ↔
      r.status = .final ∧ p.latestReconciliation.map Reconciliation.id = some r.id := by
  simp [ensureBillableFinal]

/-! ## Structure -/

/-- A participant is added under a new key. -/
theorem createParticipant_keys {taken : List Id} {created created' : List Participant}
    {item : ParticipantInput} {id : Id}
    (h : createParticipant t taken created item id = .ok created')
    (hnd : (Table.keys created).Nodup) : (Table.keys created').Nodup := by
  simp only [createParticipant, bind_eq_ok, pure_eq_ok, insertKey_eq_ok, List.mem_append,
    not_or] at h
  obtain ⟨_, _, _, ⟨_, hfresh⟩, rfl⟩ := h
  exact Table.nodup_keys_concat hnd hfresh

/-- A line is added under a new key. -/
theorem createLine_keys {taken : List Id} {created created' : List CargoLine}
    {item : CargoLineInput} {id : Id} (h : createLine taken created item id = .ok created')
    (hnd : (Table.keys created).Nodup) : (Table.keys created').Nodup := by
  simp only [createLine, bind_eq_ok, pure_eq_ok, insertKey_eq_ok, List.mem_append, not_or] at h
  obtain ⟨_, ⟨_, hfresh⟩, rfl⟩ := h
  exact Table.nodup_keys_concat hnd hfresh

/-- What a cargo line is declared with: its unit and its manifest quantity. -/
def CargoLine.declared (line : CargoLine) : CargoUnit × Option (Decimal 3) :=
  (line.unit, line.manifestQuantity)

def CargoLineInput.declared (d : CargoLineInput) : CargoUnit × Option (Decimal 3) :=
  (d.unit, d.manifestQuantity)

/-- A manifest quantity within its column, whole where the line is counted. -/
structure AdmittedDeclaration (declared : CargoUnit × Option (Decimal 3)) : Prop where
  manifest : ∀ q, declared.2 = some q → 0 ≤ q ∧ q < 10 ^ 18
  whole : declared.1 = .count → ∀ q, declared.2 = some q → isWhole q = true

/-- The lines of a plan: at most a hundred, their declarations admitted. -/
structure AdmittedLines (ls : List CargoLine) : Prop where
  count : ls.length ≤ 100
  declared : ∀ line ∈ ls, AdmittedDeclaration line.declared

/-- Manifest quantities are in the range of their column. -/
theorem AdmittedLines.manifest {ls : List CargoLine} (h : AdmittedLines ls) :
    ∀ line ∈ ls, ∀ q, line.manifestQuantity = some q → 0 ≤ q ∧ q < 10 ^ 18 :=
  fun line hline => (h.declared line hline).manifest

/-- What is admitted of lines is what they are declared with. -/
theorem AdmittedLines.of_declared {ls : List CargoLine}
    {ds : List (CargoUnit × Option (Decimal 3))} (hmap : ls.map CargoLine.declared = ds)
    (hcount : ds.length ≤ 100) (hdeclared : ∀ d ∈ ds, AdmittedDeclaration d) :
    AdmittedLines ls := by
  refine ⟨?_, fun line hline => hdeclared _ (hmap ▸ List.mem_map_of_mem hline)⟩
  rw [← hmap, List.length_map] at hcount
  exact hcount

/-- A valid line declares admitted figures. -/
theorem CargoLineInput.declared_of_valid {d : CargoLineInput} {u : Unit}
    (h : d.validate = .ok u) : AdmittedDeclaration d.declared := by
  simp only [CargoLineInput.validate, nonField, bind_eq_ok, field_eq_ok, raiseIf_eq_ok,
    Option.all_eq_true, decimalField_iff] at h
  obtain ⟨_, _, _, _, _, _, _, _, _, _, _, _, _, hmanifest, _, _, _, hwhole, _⟩ := h
  refine ⟨hmanifest, fun hunit q hq => ?_⟩
  change d.manifestQuantity = some q at hq
  change d.unit = .count at hunit
  simpa [hq, hunit] using hwhole

/-- Every line created is declared as the request line it was created for. -/
theorem createLine_eq_ok {taken : List Id} {created created' : List CargoLine}
    {item : CargoLineInput} {id : Id} (h : createLine taken created item id = .ok created') :
    ∃ line : CargoLine, line.declared = item.declared ∧ created' = created ++ [line] := by
  simp only [createLine, bind_eq_ok, pure_eq_ok] at h
  obtain ⟨_, _, rfl⟩ := h
  exact ⟨_, rfl, rfl⟩

/-- Creating structure writes participants and lines only, and keeps both tables'
keys unique. -/
theorem createStructure_eq_ok {participants : List ParticipantInput} {lines : List CargoLineInput}
    (h : createStructure t ctx p participants lines = .ok p')
    (hps : (Table.keys p.participants).Nodup) (hls : (Table.keys p.lines).Nodup) :
    (∃ ps ls, p' = { p with participants := ps, lines := ls }) ∧
      (Table.keys p'.participants).Nodup ∧ (Table.keys p'.lines).Nodup := by
  simp only [createStructure, bind_eq_ok, pure_eq_ok] at h
  obtain ⟨ps, hfold, ls, hfold', rfl⟩ := h
  refine ⟨⟨ps, ls, rfl⟩, ?_, ?_⟩
  · exact foldlM_invariant (fun created => (Table.keys created).Nodup)
      (fun hnd hstep => createParticipant_keys hstep hnd) hps hfold
  · exact foldlM_invariant (fun created => (Table.keys created).Nodup)
      (fun hnd hstep => createLine_keys hstep hnd) hls hfold'

/-- The declarations of a created structure are the plan's and the request's. -/
theorem createStructure_declared {participants : List ParticipantInput}
    {lines : List CargoLineInput} (h : createStructure t ctx p participants lines = .ok p') :
    p'.lines.map CargoLine.declared =
      p.lines.map CargoLine.declared ++ lines.map CargoLineInput.declared := by
  simp only [createStructure, bind_eq_ok, pure_eq_ok] at h
  obtain ⟨_, _, ls, hfold, rfl⟩ := h
  have hmap := map_eq_of_foldlM_eq_ok (g := CargoLine.declared)
    (h := fun item : CargoLineInput × ℕ => item.1.declared) createLine_eq_ok hfold
  have hitems : lines.zipIdx.map (fun item => item.1.declared) =
      lines.map CargoLineInput.declared := by
    rw [← Function.comp_def CargoLineInput.declared Prod.fst, ← List.map_map,
      List.zipIdx_map_fst]
  rw [hitems] at hmap
  exact hmap

/-- Creating the lines of a valid request on a plan without lines. -/
theorem createStructure_admitted {participants : List ParticipantInput}
    {lines : List CargoLineInput} (h : createStructure t ctx p participants lines = .ok p')
    (hnil : p.lines = []) (hcount : lines.length ≤ 100)
    (hvalid : ∀ d ∈ lines, d.validate = .ok ()) : AdmittedLines p'.lines := by
  have hmap := createStructure_declared h
  rw [hnil, List.map_nil, List.nil_append] at hmap
  refine .of_declared hmap (by rwa [List.length_map]) fun _ hd => ?_
  obtain ⟨d, hmem, rfl⟩ := List.mem_map.mp hd
  exact CargoLineInput.declared_of_valid (hvalid d hmem)

/-- What a patch leaves alone, and what it may change: the structure only while
nothing rests on it, the status only to `cancelled` and only while nothing is final. -/
structure Patched (p p' : MeasurementPlan) : Prop where
  id : p'.id = p.id
  version : p'.version = p.version
  vesselCallId : p'.vesselCallId = p.vesselCallId
  evidence : p'.evidence = p.evidence
  submissions : p'.submissions = p.submissions
  reconciliations : p'.reconciliations = p.reconciliations
  assessments : p'.assessments = p.assessments
  links : p'.links = p.links
  status : p'.status = p.status ∨
    p'.status = .cancelled ∧ ∀ r ∈ p.reconciliations, r.finalizedAt = none
  structure' : p'.participants = p.participants ∧ p'.lines = p.lines ∨
    p.submissions = [] ∧ p.reconciliations = [] ∧ p.links = []
  participantKeys : (Table.keys p.participants).Nodup → (Table.keys p.lines).Nodup →
    (Table.keys p'.participants).Nodup
  lineKeys : (Table.keys p.participants).Nodup → (Table.keys p.lines).Nodup →
    (Table.keys p'.lines).Nodup
  admitted : AdmittedLines p.lines → AdmittedLines p'.lines
  ends : ∀ e, p'.endsAt = some e → p'.scheduledAt ≤ e

/-- A valid patch has valid lines. -/
theorem PlanPatch.lines_of_valid {data : PlanPatch} (h : data.validate = .ok ()) :
    ∀ d ∈ data.lines.getD [], d.validate = .ok () := by
  simp only [PlanPatch.validate, bind_eq_ok] at h
  obtain ⟨_, _, _, _, _, _, _, _, _, _, _, _, _, _, _, _, _, _, hlines⟩ := h
  exact forM_eq_ok.mp hlines

/-- A cancellation has a reason, and cancels nothing that was finalized. -/
theorem patchCancellation_eq_ok {data : PlanPatch} (h : patchCancellation p data = .ok p') :
    p' = p ∨ ∃ reason, p' = { p with status := .cancelled, cancellationReason := reason } ∧
      ∀ r ∈ p.reconciliations, r.finalizedAt = none := by
  unfold patchCancellation at h
  split at h
  · simp only [bind_eq_ok, orRaise_eq_ok, raiseIf_eq_ok, pure_eq_ok, Bool.not_eq_true,
      List.any_eq_false] at h
    obtain ⟨reason, _, _, hnone, rfl⟩ := h
    exact .inr ⟨reason, rfl, fun r hr => by simpa using hnone r hr⟩
  · exact .inl (pure_eq_ok.mp h).symm

/-- Participants and lines are replaced while nothing depends on them. -/
theorem patchStructure_eq_ok {data : PlanPatch} (hvalid : data.validate = .ok ())
    (h : patchStructure t ctx p data = .ok p') :
    p' = p ∨ (p.submissions = [] ∧ p.reconciliations = [] ∧ p.links = []) ∧
      (∃ ps ls, p' = { p with participants := ps, lines := ls }) ∧
      ((Table.keys p.participants).Nodup → (Table.keys p.lines).Nodup →
        (Table.keys p'.participants).Nodup ∧ (Table.keys p'.lines).Nodup) ∧
      (AdmittedLines p.lines → AdmittedLines p'.lines) := by
  unfold patchStructure at h
  split at h
  · simp only [bind_eq_ok, raiseIf_eq_ok, not_or, not_not, not_lt] at h
    obtain ⟨_, hopen, _, ⟨_, hcount⟩, hcreate⟩ := h
    refine .inr ⟨hopen, ?_, ?_, ?_⟩
    · simp only [createStructure, bind_eq_ok, pure_eq_ok] at hcreate
      obtain ⟨ps, _, ls, _, rfl⟩ := hcreate
      exact ⟨ps, ls, rfl⟩
    · intro hps hls
      refine (createStructure_eq_ok hcreate ?_ ?_).2
      · dsimp only
        split
        · exact List.nodup_nil
        · exact hps
      · dsimp only
        split
        · exact List.nodup_nil
        · exact hls
    · intro hadmitted
      -- Without lines in the patch the plan keeps its own, which were admitted when they were
      -- written.
      cases hlines : data.lines with
      | none =>
          have hmap := createStructure_declared hcreate
          simp only [hlines, Option.isSome_none, Bool.false_eq_true, if_false, Option.getD_none,
            List.map_nil, List.append_nil] at hmap
          refine .of_declared hmap (by simpa using hadmitted.count) fun _ hd => ?_
          obtain ⟨line, hline, rfl⟩ := List.mem_map.mp hd
          exact hadmitted.declared line hline
      | some ls =>
          refine createStructure_admitted hcreate ?_ hcount (PlanPatch.lines_of_valid hvalid)
          simp [hlines]
  · exact .inl (pure_eq_ok.mp h).symm

/-- What an accepted patch has checked and written. -/
theorem patchPlan_eq_ok {data : PlanPatch} (hvalid : data.validate = .ok ())
    (h : patchPlan t ctx p data = .ok p') :
    p.version = data.version ∧ p.status ≠ .cancelled ∧ Patched p p' := by
  simp only [patchPlan, bind_eq_ok, checkVersion_eq_ok, raiseIf_eq_ok, pure_eq_ok] at h
  obtain ⟨_, ⟨hversion, hlive⟩, p₁, hcancel, p₂, hstructure, _, hlate, rfl⟩ := h
  refine ⟨hversion, hlive, ?_⟩
  have hends : ∀ e, (p₂.patched data).endsAt = some e → (p₂.patched data).scheduledAt ≤ e := by
    intro e he
    simpa [he] using hlate
  -- The two parts of a patch are independent: status first, then structure.
  obtain rfl | ⟨reason, rfl, hfinal⟩ := patchCancellation_eq_ok hcancel <;>
    obtain rfl | ⟨hopen, ⟨ps, ls, rfl⟩, hkeys, hadmitted⟩ :=
      patchStructure_eq_ok hvalid hstructure
  · exact ⟨rfl, rfl, rfl, rfl, rfl, rfl, rfl, rfl, .inl rfl, .inl ⟨rfl, rfl⟩,
      fun h _ => h, fun _ h => h, id, hends⟩
  · exact ⟨rfl, rfl, rfl, rfl, rfl, rfl, rfl, rfl, .inl rfl, .inr hopen,
      fun h₁ h₂ => (hkeys h₁ h₂).1, fun h₁ h₂ => (hkeys h₁ h₂).2, hadmitted, hends⟩
  · exact ⟨rfl, rfl, rfl, rfl, rfl, rfl, rfl, rfl, .inr ⟨rfl, hfinal⟩, .inl ⟨rfl, rfl⟩,
      fun h _ => h, fun _ h => h, id, hends⟩
  · exact ⟨rfl, rfl, rfl, rfl, rfl, rfl, rfl, rfl, .inr ⟨rfl, hfinal⟩, .inr hopen,
      fun h₁ h₂ => (hkeys h₁ h₂).1, fun h₁ h₂ => (hkeys h₁ h₂).2, hadmitted, hends⟩

/-! ## Returns -/

/-- The return a submission appends. -/
structure Submitted (t : Tenant) (p p' : MeasurementPlan) (s : Submission) : Prop where
  live : p.status ≠ .cancelled
  notFinal : ∀ r, p.latestReconciliation = some r → r.status ≠ .final
  participant : ∃ q ∈ p.participants, q.id = s.participantId
  fresh : s.id ∉ t.plans.flatMap fun q => Table.keys q.submissions
  revision : s.revision = (((sortBy Submission.revision
    (p.submissionsOf s.participantId)).getLast?).map fun s => s.revision + 1).getD 1
  supplied : validateLines p (s.lines.map SubmissionLine.fields) = .ok ()
  plan : p' = { p with submissions := p.submissions ++ [s], status := .inProgress }
  evidence : ∀ id ∈ s.evidence, id ∈ Table.keys p.evidence
  admitted : ∀ l ∈ s.lines, l.validate = .ok ()

/-- Evidence that was validated is of the plan, and none is missing where some is required. -/
theorem validateEvidence_eq_ok {ids : List Id} {required : Bool} {es : List Evidence}
    (h : validateEvidence p ids required = .ok es) :
    (∀ id ∈ es.map Evidence.id, id ∈ Table.keys p.evidence) ∧ (required = true → es ≠ []) := by
  simp only [validateEvidence, bind_eq_ok, raiseIf_eq_ok, pure_eq_ok, not_or, not_and] at h
  obtain ⟨_, _, _, ⟨_, hrequired⟩, rfl⟩ := h
  refine ⟨fun id hid => ?_, hrequired⟩
  obtain ⟨e, he, rfl⟩ := List.mem_map.mp hid
  exact Table.mem_keys.mpr ⟨e, (List.mem_filter.mp he).1, rfl⟩

/-- A valid return has valid lines. -/
theorem SubmissionInput.lines_of_valid {data : SubmissionInput} (h : data.validate = .ok ()) :
    ∀ l ∈ data.lines, l.validate = .ok () := by
  simp only [SubmissionInput.validate, bind_eq_ok] at h
  obtain ⟨_, _, _, _, _, _, _, _, _, _, _, _, hlines⟩ := h
  exact forM_eq_ok.mp hlines

/-- A valid return of a guest has valid lines. -/
theorem GuestSubmission.lines_of_valid {data : GuestSubmission} (h : data.validate = .ok ()) :
    ∀ l ∈ data.lines, l.validate = .ok () := by
  simp only [GuestSubmission.validate, bind_eq_ok] at h
  obtain ⟨_, _, _, _, _, _, _, _, _, _, _, hlines, _⟩ := h
  exact forM_eq_ok.mp hlines

/-- What an accepted return has checked and written. -/
theorem createSubmission_eq_ok {recordedBy : Option Id} {data : SubmissionInput}
    (h : createSubmission t ctx recordedBy p data = .ok p')
    (hvalid : ∀ l ∈ data.lines, l.validate = .ok ()) :
    p.version = data.version ∧ ∃ s, Submitted t p p' s := by
  simp only [createSubmission, bind_eq_ok, checkVersion_eq_ok, raiseIf_eq_ok, pure_eq_ok,
    insertKey_eq_ok] at h
  obtain ⟨_, ⟨hversion, hlive⟩, _, hfinal, q, hq, _, _, _, hlines, es, hes, _, hfresh, rfl⟩ := h
  refine ⟨hversion, _, hlive, ?_, ?_, hfresh, rfl, hlines, rfl, (validateEvidence_eq_ok hes).1,
    hvalid⟩
  · intro r hr hstatus
    exact hfinal (by simp [hr, hstatus])
  · exact ⟨q, (participantFor_eq_ok hq).1, rfl⟩

/-- A portal submission is a submission of the link's participant, after which the
link names it. -/
theorem guestSubmission_eq_ok {link link' : AgencyLink} {data : GuestSubmission}
    (h : guestSubmission sha t ctx p link data = .ok (p', link'))
    (hvalid : ∀ l ∈ data.lines, l.validate = .ok ()) :
    ∃ p₁ s, Submitted t p p₁ s ∧ p' = { p₁ with links := Table.put link' p₁.links } ∧
      link'.participantId = link.participantId := by
  simp only [guestSubmission, bind_eq_ok, raiseIf_eq_ok, pure_eq_ok, Prod.mk.injEq] at h
  obtain ⟨_, _, _, _, _, _, p₁, hsubmit, rfl, rfl⟩ := h
  obtain ⟨_, s, hs⟩ := createSubmission_eq_ok hsubmit hvalid
  exact ⟨p₁, s, hs, rfl, rfl⟩

/-! ## Reconciliations -/

/-- The line reconciles a cargo line of the plan, against its manifest quantity; the
quantity is whole where that one is counted. -/
def ReconciliationLine.Measures (p : MeasurementPlan) (l : ReconciliationLine) : Prop :=
  ∃ line ∈ p.lines, line.id = l.lineId ∧ l.manifestQuantity = line.manifestQuantity ∧
    l.variance = l.manifestQuantity.map (fun m => l.quantity - m) ∧
    (line.unit = .count → isWhole l.quantity = true)

/-- The draft a proposal appends. -/
structure Proposed (sha : Sha256) (t : Tenant) (actor : Id) (p p' : MeasurementPlan)
    (r : Reconciliation) : Prop where
  live : p.status ≠ .cancelled
  returned : ∀ q ∈ p.participants, q.requiredSubmission = true →
    ∃ s ∈ latestSubmissions p, s.participantId = q.id
  fresh : r.id ∉ t.plans.flatMap fun q => Table.keys q.reconciliations
  revision : r.revision = ((p.reconciliations.map Reconciliation.revision).max?).getD 0 + 1
  draft : r.status = .draft
  createdBy : r.createdBy = actor
  notFinal : r.finalizedAt = none
  submissions : r.submissions = (latestSubmissions p).map Submission.id
  fingerprint : r.inputFingerprint = sourceFingerprint sha p (latestSubmissions p)
  lines : (Table.keys p.lines).Nodup → (r.lines.map ReconciliationLine.lineId).Perm (Table.keys p.lines)
  quantities : ∀ l ∈ r.lines, (0 ≤ l.quantity ∧ l.quantity < 10 ^ 18) ∧
    ∃ line ∈ p.lines, line.manifestQuantity = l.manifestQuantity
  measured : (Table.keys p.lines).Nodup → ∀ l ∈ r.lines, l.Measures p
  snapshot : r.snapshot.lines = p.lines
  plan : p' = { p with
    reconciliations := supersede .draft p.reconciliations ++ [r]
    status := .inProgress }
  evidence : ∀ id ∈ r.evidence, id ∈ Table.keys p.evidence
  unapproved : r.approvals = []

/-- Valid quantities are in the range of their column. -/
theorem ReconciliationInput.quantity_of_valid {data : ReconciliationInput}
    (h : data.validate = .ok ()) :
    ∀ item ∈ data.lines, 0 ≤ item.quantity ∧ item.quantity < 10 ^ 18 := by
  simp only [ReconciliationInput.validate, bind_eq_ok] at h
  obtain ⟨_, _, _, _, _, _, _, hlines, _⟩ := h
  intro item hitem
  have hvalid := forM_eq_ok.mp hlines item hitem
  simp only [ReconciledLineInput.validate, bind_eq_ok, field_eq_ok, exists_const,
    decimalField_iff] at hvalid
  exact hvalid.1

/-- A reconciled line is of the cargo line it names. -/
theorem reconciledLine_lineId {item : ReconciledLineInput} {l : ReconciliationLine}
    (h : reconciledLine p item = .ok l) : l.lineId = item.lineId := by
  simp only [reconciledLine, bind_eq_ok, orRaise_eq_ok, pure_eq_ok] at h
  obtain ⟨line, hline, rfl⟩ := h
  exact (Table.mem_of_get hline).2

/-- The line written for a request line that was checked. -/
theorem reconciledLine_measures {data : List ReconciledLineInput} {u : Unit}
    (hlines : validateLines p (data.map ReconciledLineInput.fields) = .ok u)
    {item : ReconciledLineInput} (hitem : item ∈ data) (hkeys : (Table.keys p.lines).Nodup)
    {l : ReconciliationLine} (h : reconciledLine p item = .ok l) : l.Measures p := by
  obtain ⟨line, hline, hid, hwhole⟩ :=
    mem_of_validateLines hlines (List.mem_map_of_mem hitem)
  simp only [reconciledLine, bind_eq_ok, orRaise_eq_ok, pure_eq_ok] at h
  obtain ⟨line', hget, rfl⟩ := h
  obtain rfl := Table.eq_of_key_eq hkeys hline (Table.mem_of_get hget).1
    (hid.trans (Table.mem_of_get hget).2.symm)
  exact ⟨line, hline, rfl, rfl, rfl, fun hunit => (hwhole hunit).quantity _ rfl⟩

/-- What an accepted proposal has checked and written. -/
theorem createReconciliation_eq_ok {data : ReconciliationInput} (hvalid : data.validate = .ok ())
    (h : createReconciliation sha t ctx actor p data = .ok p') :
    p.version = data.version ∧ ∃ r, Proposed sha t actor p p' r := by
  simp only [createReconciliation, bind_eq_ok, checkVersion_eq_ok, raiseIf_eq_ok, pure_eq_ok,
    insertKey_eq_ok, ne_eq, not_not] at h
  obtain ⟨_, ⟨hversion, hlive⟩, _, hlines, es, hes, _, hmissing, _, _, _, hfresh, ls, hls, rfl⟩ := h
  refine ⟨hversion, _, hlive, ?_, hfresh, rfl, rfl, rfl, rfl, rfl, rfl, ?_, ?_, ?_, rfl, rfl,
    (validateEvidence_eq_ok hes).1, rfl⟩
  · intro q hq hrequired
    by_contra hnone
    have hmem : q ∈ p.allParticipants.filter fun q =>
        q.requiredSubmission && q.id ∉ (latestSubmissions p).map Submission.participantId := by
      simp only [List.mem_filter, MeasurementPlan.allParticipants, mem_sortBy, hq, hrequired,
        Bool.true_and, decide_not, Bool.not_eq_true', decide_eq_false_iff_not, true_and,
        List.mem_map]
      rintro ⟨s, hs, hid⟩
      exact hnone ⟨s, hs, hid⟩
    rw [hmissing] at hmem
    exact absurd hmem (List.not_mem_nil)
  · intro hnd
    have hperm := validateLines_perm hlines hnd
    rw [map_eq_of_mapM_eq_ok (fun _ _ => reconciledLine_lineId) hls]
    simpa [List.map_map, Function.comp_def, ReconciledLineInput.fields] using hperm
  · intro l hl
    obtain ⟨item, hitem, hline⟩ := mem_of_mapM_eq_ok hls l hl
    simp only [reconciledLine, bind_eq_ok, orRaise_eq_ok, pure_eq_ok] at hline
    obtain ⟨line, hget, rfl⟩ := hline
    exact ⟨ReconciliationInput.quantity_of_valid hvalid item hitem, line,
      (Table.mem_of_get hget).1, rfl⟩
  · intro hnd l hl
    obtain ⟨item, hitem, hline⟩ := mem_of_mapM_eq_ok hls l hl
    exact reconciledLine_measures hlines hitem hnd hline

/-- The approval appended to the current draft. -/
structure Approved (sha : Sha256) (p p' : MeasurementPlan) (r : Reconciliation) (a : Approval) :
    Prop where
  live : p.status ≠ .cancelled
  current : ensureCurrentDraft sha p r = .ok ()
  plan : p' = { p with
    reconciliations := Table.put { r with approvals := r.approvals ++ [a] } p.reconciliations }
  participant : a.participantId ∈ Table.keys p.participants
  fingerprint : a.inputFingerprint = r.inputFingerprint
  evidence : ∀ id ∈ a.evidence, id ∈ Table.keys p.evidence
  supported : a.evidence ≠ []

/-- What an accepted acknowledgement has checked and written. -/
theorem createApproval_eq_ok {r : Reconciliation} {data : ApprovalInput}
    (h : createApproval sha t ctx actor p r data = .ok p') :
    p.version = data.version ∧ ∃ a, Approved sha p p' r a := by
  simp only [createApproval, bind_eq_ok, checkVersion_eq_ok, pure_eq_ok] at h
  obtain ⟨_, ⟨hversion, hlive⟩, _, hcurrent, q, hq, es, hes, _, _, rfl⟩ := h
  obtain ⟨hof, hsome⟩ := validateEvidence_eq_ok hes
  have hparticipant : q.id ∈ Table.keys p.participants :=
    Table.mem_keys.mpr ⟨q, (participantFor_eq_ok hq).1, rfl⟩
  exact ⟨hversion, _, hlive, hcurrent, rfl, hparticipant, rfl, hof,
    by simpa using hsome rfl⟩

/-- Everything `finalize_reconciliation` checked, and the reconciliation it wrote. -/
structure Finalized (sha : Sha256) (ctx : Ctx) (actor : Id) (p p' : MeasurementPlan)
    (r r' : Reconciliation) : Prop where
  live : p.status ≠ .cancelled
  current : ensureCurrentDraft sha p r = .ok ()
  preparer : r.createdBy ≠ actor
  undisputed : ∀ a ∈ latestApprovals r, a.decision ≠ .disputed
  agreed : ∀ q ∈ p.participants, q.requiredApproval = true →
    ∃ a ∈ latestApprovals r, a.participantId = q.id ∧ a.decision = .agreed
  supported : ∀ a ∈ latestApprovals r,
    a.inputFingerprint = r.inputFingerprint ∧ a.evidence ≠ []
  reconciliation : ∃ snapshot, r' = { r with
    status := .final
    finalizedBy := some actor
    finalizedAt := some ctx.now
    snapshot := snapshot }
  approved : r'.snapshot.lines = r.snapshot.lines
  plan : p' = { p with
    reconciliations := Table.put r' (supersede .final p.reconciliations)
    status := .reconciled }

/-- What the finalization of a draft has checked and written. -/
theorem finalizeDraft_eq_ok {r : Reconciliation} {version : ℕ}
    (h : finalizeDraft sha t ctx actor p r version = .ok p') :
    p.version = version ∧ ∃ r', Finalized sha ctx actor p p' r r' := by
  simp only [finalizeDraft, bind_eq_ok, checkVersion_eq_ok, raiseIf_eq_ok, raiseFirst_eq_ok,
    pure_eq_ok] at h
  obtain ⟨_, ⟨hversion, hlive⟩, _, hcurrent, _, hpreparer, _, hdispute, _, hagreed, _,
    hsupport, rfl⟩ := h
  refine ⟨hversion, _, hlive, hcurrent, hpreparer, ?_, ?_, ?_, ⟨_, rfl⟩, ?_, rfl⟩
  · intro a ha hd
    exact hdispute (List.any_eq_true.mpr ⟨a, ha, by simpa using hd⟩)
  · intro q hq hrequired
    have hq' := hagreed q (by simpa [MeasurementPlan.allParticipants] using hq)
    simp only [hrequired, Bool.true_and, Bool.not_eq_false', List.any_eq_true,
      Bool.and_eq_true, decide_eq_true_eq] at hq'
    exact hq'
  · intro a ha
    have ha' := hsupport a ha
    simpa using ha'
  · rfl

/-- A finalization either found the reconciliation finalized and changed nothing, or
finalized the draft. -/
theorem finalizeReconciliation_cases {t' : Tenant} {r : Reconciliation} {version : ℕ}
    (h : finalizeReconciliation sha t ctx actor p r version = .ok t') :
    (r.finalizedAt ≠ none ∧ t' = t) ∨
      (p.version = version ∧ ∃ p' r', Finalized sha ctx actor p p' r r' ∧ t' = t.changed p') := by
  unfold finalizeReconciliation at h
  split at h
  · rename_i hfinal
    exact .inl ⟨Option.isSome_iff_ne_none.mp hfinal, (pure_eq_ok.mp h).symm⟩
  · simp only [bind_eq_ok, pure_eq_ok] at h
    obtain ⟨p', hdraft, rfl⟩ := h
    obtain ⟨hversion, r', hr'⟩ := finalizeDraft_eq_ok hdraft
    exact .inr ⟨hversion, p', r', hr', rfl⟩

/-! ## Assessments -/

/-- The calculation of one line: the amount is what of the entitlement was neither
billed before the plan nor invoiced under it. -/
structure AssessmentLine.Calculated (invoices : List Invoice) (p : MeasurementPlan)
    (l : AssessmentLine) : Prop where
  prior : l.priorInvoicedAmount = priorInvoiced invoices p l.lineId
  amount : l.amount = l.entitlement - l.openingBilledAmount - l.priorInvoicedAmount

/-- A calculated line is of the line of its request. -/
theorem assessLine_eq_ok {invoices : List Invoice} {r : Reconciliation} {policy : Policy}
    {item : AssessmentLineInput} {c : AssessmentLine × ConfigurationLine}
    (h : assessLine invoices p r policy item = .ok c) :
    c.1.lineId = item.lineId ∧ c.1.Calculated invoices p := by
  simp only [assessLine, bind_eq_ok, orRaise_eq_ok, raiseIf_eq_ok, pure_eq_ok] at h
  obtain ⟨line, hline, _, _, _, _, _, _, rfl⟩ := h
  exact ⟨(Table.mem_of_get hline).2, rfl, rfl⟩

/-- The assessment a billing run appends. -/
structure Assessed (t : Tenant) (p p' : MeasurementPlan) (a : Assessment) : Prop where
  live : p.status ≠ .cancelled
  reconciled : ∃ r ∈ p.reconciliations, r.status = .final
  fresh : a.id ∉ t.plans.flatMap fun q => Table.keys q.assessments
  lines : (Table.keys p.lines).Nodup → (a.lines.map AssessmentLine.lineId).Perm (Table.keys p.lines)
  calculated : ∀ l ∈ a.lines, l.Calculated t.invoices p
  ready : a.status = .ready → ∀ l ∈ a.lines, 0 ≤ l.amount
  total : a.total = (a.lines.map AssessmentLine.amount).sum
  written : ∃ ctx actor data, AssessmentInput.validate data = .ok () ∧
    createAssessment t ctx actor p data = .ok p'
  plan : p' = { p with assessments := p.assessments ++ [a] }

/-- What an accepted assessment has checked and written. -/
theorem createAssessment_eq_ok {data : AssessmentInput} (hvalid : data.validate = .ok ())
    (h : createAssessment t ctx actor p data = .ok p') :
    p.version = data.version ∧ ∃ a, Assessed t p p' a := by
  have hcall := h
  simp only [createAssessment, bind_eq_ok, checkVersion_eq_ok, raiseIf_eq_ok, pure_eq_ok,
    insertKey_eq_ok] at h
  obtain ⟨_, ⟨hversion, hlive⟩, r, hr, _, hbillable, _, hlines, cs, hcs, _, _, _, _, _,
    hfresh, rfl⟩ := h
  refine ⟨hversion, _, hlive, ⟨r, (getReconciliation_eq_ok hr).1,
    (ensureBillableFinal_eq_ok.mp hbillable).1⟩, hfresh, ?_, ?_, ?_, ?_,
    ⟨ctx, actor, data, hvalid, hcall⟩, rfl⟩
  · intro hnd
    have hperm := validateLines_perm hlines hnd
    have hids : (cs.map Prod.fst).map AssessmentLine.lineId =
        data.lines.map AssessmentLineInput.lineId := by
      rw [List.map_map]
      exact map_eq_of_mapM_eq_ok (fun _ _ hc => (assessLine_eq_ok hc).1) hcs
    rw [hids]
    simpa [List.map_map, Function.comp_def, AssessmentLineInput.fields] using hperm
  · intro l hl
    obtain ⟨c, hc, rfl⟩ := List.mem_map.mp hl
    obtain ⟨item, _, hitem⟩ := mem_of_mapM_eq_ok hcs c hc
    exact (assessLine_eq_ok hitem).2
  · intro hready l hl
    by_contra hneg
    have hheld : (cs.map Prod.fst).any AssessmentLine.held = true :=
      List.any_eq_true.mpr ⟨l, hl, by simp [AssessmentLine.held, not_le.mp hneg]⟩
    simp [hheld] at hready
  · exact quantize_zero _

/-- Everything `issue_assessment` checked, and the invoice and plan it wrote. -/
structure Issued (t t' : Tenant) (p p' : MeasurementPlan) (a : Assessment) (i : Invoice) :
    Prop where
  live : p.status ≠ .cancelled
  assessment : a ∈ p.assessments
  billable : ∃ r, Table.get a.reconciliationId p.reconciliations = some r ∧ r.status = .final ∧
    p.latestReconciliation.map Reconciliation.id = some r.id
  latest : p.assessments.getLast?.map Assessment.id = some a.id
  uninvoiced : ∀ j ∈ t.invoices, j.assessmentId ≠ some a.id
  ready : a.status = .ready
  positive : 0 < a.total
  current : ∀ l ∈ a.lines, priorInvoiced t.invoices p l.lineId = l.priorInvoicedAmount
  fresh : i.id ∉ Table.keys t.invoices
  vesselCallId : i.vesselCallId = p.vesselCallId
  inspectionId : i.inspectionId = none
  purpose : i.purpose = .disparity
  assessmentId : i.assessmentId = some a.id
  lineItems : i.lineItems = p.lineItems a
  dues : i.dues = a.total
  status : i.status = .unpaid
  payments : i.payments = []
  opening : Opening i
  plan : p' = { p with assessments := Table.put { a with status := .issued } p.assessments }
  step : ∃ s sequences, s.open = true ∧ s ∈ t'.steps ∧ i.currentStatus = some s.id ∧
    (∃ ctx, ensureDefaultSteps ctx t.steps = .ok t'.steps) ∧
    t' = { t with
      steps := t'.steps
      sequences := sequences
      invoices := i :: t.invoices }.changed p'
  numbered : ∃ ctx, i.invoiceNo = (nextNumber ctx t.sequences .invoice "INV").1 ∧
    t'.sequences = (nextNumber ctx t.sequences .invoice "INV").2

/-- What an accepted issuance has checked and written. -/
theorem issueReady_eq_ok {t' : Tenant} {a : Assessment} {version : ℕ} {i : Invoice}
    (ha : a ∈ p.assessments) (hnone : invoiceOf t.invoices a.id = none)
    (h : issueReady t ctx actor p a version = .ok (t', i)) :
    p.version = version ∧ ∃ p', Issued t t' p p' a i := by
  simp only [issueReady, bind_eq_ok, checkVersion_eq_ok, raiseIf_eq_ok, pure_eq_ok,
    insertKey_eq_ok, orRaise_eq_ok, not_or, not_not, ne_eq, not_le, Prod.exists,
    Prod.mk.injEq] at h
  obtain ⟨_, ⟨hversion, hlive⟩, r, hr, _, hbillable, _, hlatest, _, ⟨hready, hpositive⟩, _,
    hprior, _, hfresh, s, steps, hstep, i₁, recorded, htransition, rfl, rfl⟩ := h
  obtain ⟨hensure, hs, hopen⟩ := activeDefaultStep_eq_ok hstep
  have hunpaid : statusOfStep (some s) = .unpaid := by
    have : s.isPaid = false := by
      simp only [InvoiceStatusStep.open, Bool.and_eq_true, Bool.not_eq_true'] at hopen
      exact hopen.1.2
    simp [statusOfStep, this]
  obtain ⟨hcharge, hpayments⟩ := transitionInvoice_sameCharge htransition
  obtain ⟨hcurrent, hstatus⟩ := transitionInvoice_status htransition
    (fun hstay => by simp [disparityInvoice] at hstay)
  refine ⟨hversion, _, hlive, ha, ⟨r, hr, ensureBillableFinal_eq_ok.mp hbillable⟩, hlatest, ?_,
    hready, hpositive, ?_, ?_, hcharge.vesselCallId,
    hcharge.inspectionId, hcharge.purpose, hcharge.assessmentId, hcharge.lineItems, hcharge.dues,
    hstatus.trans hunpaid, hpayments, ?_, rfl, ⟨s, _, hopen, hs, hcurrent, ⟨ctx, hensure⟩, rfl⟩, ctx,
    hcharge.invoiceNo, rfl⟩
  · intro j hj hassessment
    have := List.find?_eq_none.mp hnone j hj
    simp [hassessment] at this
  · intro l hl
    by_contra hne
    exact hprior (List.any_eq_true.mpr ⟨l, hl, by simpa using hne⟩)
  · rw [hcharge.id]
    exact hfresh
  · obtain ⟨_, _, hstay, _⟩ | ⟨_, _, rfl⟩ := transitionInvoice_eq_ok htransition
    · simp [disparityInvoice] at hstay
    · exact ⟨_, rfl, rfl, rfl⟩

/-- An issuance writes its plan. -/
theorem Issued.plans {t' : Tenant} {a : Assessment} {i : Invoice} (h : Issued t t' p p' a i) :
    t'.plans = Table.put p'.advance t.plans := by
  obtain ⟨s, sequences, _, _, _, _, ht⟩ := h.step
  rw [ht]
  rfl

/-- An issuance adds its invoice. -/
theorem Issued.invoices {t' : Tenant} {a : Assessment} {i : Invoice} (h : Issued t t' p p' a i) :
    t'.invoices = i :: t.invoices := by
  obtain ⟨s, sequences, _, _, _, _, ht⟩ := h.step
  rw [ht]
  rfl

/-- The invoice that is found names the assessment. -/
theorem invoiceOf_eq_some {invoices : List Invoice} {assessment : Id} {i : Invoice}
    (h : invoiceOf invoices assessment = some i) :
    i ∈ invoices ∧ i.assessmentId = some assessment :=
  ⟨List.mem_of_find?_eq_some h, by simpa using List.find?_some h⟩

/-- An issuance either found the assessment invoiced and changed nothing, or issued
its invoice. -/
theorem issueAssessment_cases {t' : Tenant} {assessmentId : Id} {version : ℕ} {i : Invoice}
    (h : issueAssessment t ctx actor p assessmentId version = .ok (t', i)) :
    ∃ a ∈ p.assessments, a.id = assessmentId ∧
      ((invoiceOf t.invoices assessmentId = some i ∧ t' = t) ∨
        (p.version = version ∧ ∃ p', Issued t t' p p' a i)) := by
  simp only [issueAssessment, bind_eq_ok, orRaise_eq_ok] at h
  obtain ⟨a, ha, h⟩ := h
  obtain ⟨hmem, rfl⟩ := Table.mem_of_get ha
  refine ⟨a, hmem, rfl, ?_⟩
  split at h
  · rename_i existing hexisting
    simp only [pure_eq_ok, Prod.mk.injEq] at h
    obtain ⟨rfl, rfl⟩ := h
    exact .inl ⟨hexisting, rfl⟩
  · rename_i hnone
    exact .inr (issueReady_eq_ok hmem hnone h)

/-! ## Links, evidence and creation -/

/-- Each of the links is of a participant, or of the participant of a link there was. -/
def MeasurementPlan.OwnsLinks (p : MeasurementPlan) (ls : List AgencyLink) : Prop :=
  ∀ l ∈ ls, l.participantId ∈ Table.keys p.participants ∨
    ∃ l₀ ∈ p.links, l.participantId = l₀.participantId

/-- A link is added to a plan that is not cancelled, for a participant of it. -/
theorem createAgencyLink_eq_ok {participant : Id} {days : ℕ} {token : String} {link : AgencyLink}
    (h : createAgencyLink sha t ctx p participant days token = .ok (p', link)) :
    p.status ≠ .cancelled ∧ ∃ ls, p' = { p with links := ls } ∧ ls ≠ [] ∧ p.OwnsLinks ls := by
  simp only [createAgencyLink, assertOpen, bind_eq_ok, raiseIf_eq_ok, pure_eq_ok, not_or,
    Prod.mk.injEq] at h
  obtain ⟨_, ⟨hlive, _⟩, q, hq, _, _, _, _, _, _, rfl, _⟩ := h
  refine ⟨hlive, _, rfl, by simp, fun l hl => ?_⟩
  obtain hl | hl := List.mem_append.mp hl
  · obtain ⟨l₀, hl₀, rfl⟩ := List.mem_map.mp hl
    refine .inr ⟨l₀, hl₀, ?_⟩
    split <;> rfl
  · rw [List.mem_singleton.mp hl]
    exact .inl (Table.mem_keys.mpr ⟨q, (participantFor_eq_ok hq).1, rfl⟩)

/-- A revoked link stays in the table. -/
theorem revokeAgencyLink_eq_ok {linkId : Id} (h : revokeAgencyLink ctx p linkId = .ok p') :
    ∃ ls, p' = { p with links := ls } ∧ (p.links ≠ [] → ls ≠ []) ∧ p.OwnsLinks ls := by
  simp only [revokeAgencyLink, bind_eq_ok, orRaise_eq_ok] at h
  obtain ⟨link, hlink, h⟩ := h
  split at h
  · exact ⟨p.links, (pure_eq_ok.mp h).symm, id, fun l hl => .inr ⟨l, hl, rfl⟩⟩
  · refine ⟨_, (pure_eq_ok.mp h).symm, fun hne => by simpa [Table.put] using hne, fun l hl => ?_⟩
    obtain rfl | ⟨hl, _⟩ := Table.mem_put hl
    · exact .inr ⟨link, (Table.mem_of_get hlink).1, rfl⟩
    · exact .inr ⟨l, hl, rfl⟩

/-- Evidence is only ever added. -/
theorem addEvidence_eq_ok {data : EvidenceUpload} {e : Evidence}
    (h : addEvidence t ctx actor p data = .ok (p', e)) :
    ∃ es, p' = { p with evidence := p.evidence ++ es } := by
  simp only [addEvidence, bind_eq_ok, raiseIf_eq_ok] at h
  obtain ⟨_, _, h⟩ := h
  split at h
  · simp only [pure_eq_ok, Prod.mk.injEq] at h
    exact ⟨[], by simp [← h.1]⟩
  · simp only [bind_eq_ok, pure_eq_ok, Prod.mk.injEq] at h
    obtain ⟨_, _, _, _, _, _, rfl, _⟩ := h
    exact ⟨_, rfl⟩

/-- A new plan: scheduled, at version 1, without children. -/
structure New (t : Tenant) (p : MeasurementPlan) : Prop where
  fresh : p.id ∉ Table.keys t.plans
  status : p.status = .scheduled
  version : p.version = 1
  evidence : p.evidence = []
  submissions : p.submissions = []
  reconciliations : p.reconciliations = []
  assessments : p.assessments = []
  links : p.links = []
  participantKeys : (Table.keys p.participants).Nodup
  lineKeys : (Table.keys p.lines).Nodup
  admitted : AdmittedLines p.lines
  ends : ∀ e, p.endsAt = some e → p.scheduledAt ≤ e

/-- What a plan is when it is created. -/
theorem newPlan_eq_ok {data : PlanInput} (hvalid : data.validate = .ok ())
    (h : newPlan t ctx actor data = .ok p) : New t p ∧ p.vesselCallId = data.callId := by
  simp only [newPlan, bind_eq_ok, insertKey_eq_ok] at h
  obtain ⟨_, hfresh, hcreate⟩ := h
  simp only [PlanInput.validate, nonField, bind_eq_ok, raiseIf_eq_ok, Bool.or_eq_true,
    decide_eq_true_eq, not_or, not_lt] at hvalid
  obtain ⟨_, _, _, _, _, _, _, _, _, _, _, _, _, _, _, _, _, _, _, _, _, hlines, _, hlate, _,
    hcount⟩ := hvalid
  have hadmitted := createStructure_admitted hcreate rfl hcount (forM_eq_ok.mp hlines)
  obtain ⟨⟨ps, ls, rfl⟩, hps, hls⟩ :=
    createStructure_eq_ok hcreate List.nodup_nil List.nodup_nil
  have hends : ∀ e, data.endsAt = some e → data.scheduledAt ≤ e := by
    intro e he
    simpa [he] using hlate
  exact ⟨⟨hfresh, rfl, rfl, rfl, rfl, rfl, rfl, rfl, hps, hls, hadmitted, hends⟩, rfl⟩

end VesselCaller.Measurements
