import VesselCaller.Closeout.Fingerprint
import VesselCaller.Closeout.InvoiceGate
import VesselCaller.Closeout.VoyageProgress
import VesselCaller.Measurements.PortalProtocol
import VesselCaller.References

/-!
# Plans on the wire

`plan_data` is sent as JSON and read as a `MeasurementPlan` of `measurements/types.ts`: keys,
instants and decimals become texts, everything else stays what it is.

* `Wire` — how keys, instants and snapshots are printed; keys are distinct texts without a comma;
* `Wire.received` — the plan the browser has of a stored plan;
* `Emitted` — what every reachable tenant keeps of the plans it sends.

The results on the browser's tables, dashboards and previews ask of a plan that it is as the
server emits it.  `emitted_plans` says that every plan of every reachable tenant is, that its
figures are read back as the figures stored, and that the returns the browser takes for the
latest are those the server reconciles.
-/

namespace VesselCaller.Workspace

open Lib Accounts Billing Operations Measurements

/-- How the values of the payload are printed.  A key is a text of hexadecimal digits. -/
structure Wire where
  id : Id → String
  instant : Instant → String
  snapshot : ReconciliationSnapshot → String
  id_injective : Function.Injective id
  id_ne : ∀ k, id k ≠ ""
  id_comma : ∀ k, ',' ∉ (id k).toList

/-- `decimal_string`, of a value with three decimals. -/
def decimalString (v : Decimal 3) : String := Closeout.fixed v 3

namespace Wire

variable (w : Wire)

def actor (a : ActorData) : Closeout.Actor where
  id := match a.id with
    | .user user => w.id user
    | .agency participant => "agency:" ++ w.id participant
  name := a.name

def participant (q : Participant) : Closeout.Participant where
  id := w.id q.id
  agencyId := q.agencyId.map w.id
  name := q.name
  role := q.role
  representative := q.representative
  requiredSubmission := q.requiredSubmission
  requiredApproval := q.requiredApproval

def line (l : CargoLine) : Closeout.CargoLine where
  id := w.id l.id
  description := l.description
  category := l.category
  direction := l.direction
  containerSize := l.containerSize
  loadStatus := l.loadStatus
  unit := l.unit
  basis := l.basis
  manifestQuantity := l.manifestQuantity.map decimalString
  baselineReference := l.baselineReference

def submissionLine (l : SubmissionLine) : Closeout.SubmissionLine where
  lineId := w.id l.lineId
  status := l.status
  quantity := l.quantity.map decimalString
  note := l.note

def submission (s : SubmissionData) : Closeout.Submission where
  id := w.id s.id
  participantId := w.id s.participantId
  revision := s.revision
  observedAt := w.instant s.observedAt
  sourceReference := s.sourceReference
  notes := s.notes
  reason := s.reason
  recordedBy := some (w.actor s.recordedBy)
  source := s.source
  representative := s.representative
  recordedAt := w.instant s.recordedAt
  lines := s.lines.map w.submissionLine
  evidenceIds := s.evidenceIds.map w.id

def approval (a : ApprovalData) : Closeout.Approval where
  id := w.id a.id
  participantId := w.id a.participantId
  decision := a.decision
  representative := a.representative
  reference := a.reference
  evidenceIds := a.evidenceIds.map w.id
  recordedBy := w.actor a.recordedBy
  recordedAt := w.instant a.recordedAt

def reconciliationLine (l : ReconciliationLine) : Closeout.ReconciliationLine where
  lineId := w.id l.lineId
  quantity := decimalString l.quantity
  manifestQuantity := l.manifestQuantity.map decimalString
  variance := l.variance.map decimalString
  reason := l.reason

/-- The server sends no `stale`. -/
def reconciliation (r : ReconciliationData × ReconciliationSnapshot) : Closeout.Reconciliation where
  id := w.id r.1.id
  revision := r.1.revision
  status := r.1.status
  reason := r.1.reason
  createdBy := w.actor r.1.createdBy
  createdAt := w.instant r.1.createdAt
  finalizedBy := r.1.finalizedBy.map w.actor
  finalizedAt := r.1.finalizedAt.map w.instant
  submissionIds := r.1.submissionIds.map w.id
  evidenceIds := r.1.evidenceIds.map w.id
  approvals := r.1.approvals.map w.approval
  lines := r.1.lines.map w.reconciliationLine
  stale := none
  snapshot := w.snapshot r.2

def plan (d : PlanData) : Closeout.MeasurementPlan where
  id := w.id d.context.id
  callId := w.id d.context.callId
  title := d.context.title
  scope := d.context.scope
  vesselName := d.context.vesselName
  callReference := d.context.callReference
  version := d.context.version
  status := d.context.status
  participants := d.participants.map w.participant
  lines := d.lines.map w.line
  submissions := d.submissions.map w.submission
  reconciliations := d.reconciliations.map w.reconciliation

/-- What the browser has of a stored plan. -/
def received (t : Tenant) (p : MeasurementPlan) : Closeout.MeasurementPlan := w.plan (t.planData p)

/-- What the browser has of a stored return. -/
def receivedReturn (t : Tenant) (s : Submission) : Closeout.Submission :=
  w.submission (submissionData t.users s)

end Wire

variable {sha : Sha256} {t t' : Tenant} {p p' : MeasurementPlan} (w : Wire)

/-- The returns of a plan as they are received. -/
theorem received_submissions : (w.received t p).submissions =
    p.submissions.map (w.receivedReturn t) := by
  show (p.submissions.map (submissionData t.users)).map w.submission = _
  rw [List.map_map]
  rfl

/-- What the browser has of a stored reconciliation. -/
def Wire.receivedReconciliation (t : Tenant) (p : MeasurementPlan) (r : Reconciliation) :
    Closeout.Reconciliation :=
  w.reconciliation (reconciliationData t.users p.submissions r, r.snapshot)

/-- The reconciliations are sent in the order they were proposed. -/
theorem received_reconciliations (h : Lifecycle p) : (w.received t p).reconciliations =
    p.reconciliations.map (w.receivedReconciliation t p) := by
  show ((sortBy Reconciliation.revision p.reconciliations).map fun r =>
    (reconciliationData t.users p.submissions r, r.snapshot)).map w.reconciliation = _
  rw [sortBy, h.revisions.insertionSort_eq, List.map_map]
  rfl

/-- The participants of a plan as they are received. -/
theorem received_participants : (w.received t p).participants =
    p.allParticipants.map w.participant :=
  rfl

/-- A received return was sent. -/
theorem mem_received_submissions {x : Closeout.Submission} :
    x ∈ (w.received t p).submissions ↔ ∃ s ∈ p.submissions, w.receivedReturn t s = x := by
  rw [received_submissions, List.mem_map]

/-! ## Figures -/

/-- A character counts for at most two code units. -/
theorem jsLength_le (s : String) : Closeout.Comparison.jsLength s ≤ 2 * s.toList.length := by
  rw [Closeout.Comparison.jsLength, mul_comm, ← smul_eq_mul,
    ← List.length_map fun c : Char => if c.toNat ≤ 65535 then 1 else 2]
  refine List.sum_le_card_nsmul _ _ fun k hk => ?_
  obtain ⟨c, _, rfl⟩ := List.mem_map.mp hk
  split <;> omega

/-- The length of a printed decimal is bounded by its columns. -/
theorem length_writeScaled_le {p m n : ℕ} (hp : 0 < p) (hm : 0 < m) (h : n < 10 ^ (m + p)) :
    (writeScaled p n).length ≤ m + 1 + p := by
  have hhigh : n / 10 ^ p < 10 ^ m := by
    rw [Nat.div_lt_iff_lt_mul (by positivity), ← pow_add]
    exact h
  have hwhole := length_toDigits_le hm hhigh
  have hfraction := length_leftpad_mod hp n
  rw [writeScaled, List.length_append, List.length_cons, hfraction]
  omega

/-- **A figure is read back as it is stored.** -/
theorem denotes_decimalString {v : Decimal 3} (h : 0 ≤ v ∧ v < 10 ^ 18) :
    Closeout.Comparison.Denotes (some (decimalString v)) ((v : ℚ) / 10 ^ 3) := by
  obtain ⟨n, rfl⟩ := Int.eq_ofNat_of_zero_le h.1
  have hn : n < 10 ^ (15 + 3) := by exact_mod_cast h.2
  have hread := Closeout.decimal_fixed (p := 3) (w := 15) (by decide) (by decide) hn
  have hlength : Closeout.Comparison.jsLength (decimalString n) ≤ 200 := by
    have hchars : (decimalString n).toList.length ≤ 15 + 1 + 3 := by
      rw [decimalString, Closeout.fixed_natCast, String.toList_ofList]
      exact length_writeScaled_le (by decide) (by decide) hn
    exact (jsLength_le _).trans (by omega)
  have hdenotes := Closeout.denotes_of_decimal hread hlength
  rwa [← Int.cast_natCast (R := ℚ)] at hdenotes

/-- A stored quantity is printed as one the workspace reads. -/
theorem isQuantity_decimalString {v : Decimal 3} (h : 0 ≤ v ∧ v < 10 ^ 18) :
    Closeout.IsQuantity (decimalString v) :=
  ⟨_, denotes_decimalString h⟩

/-! ## What is sent -/

/-- What the plans of a tenant keep, as far as it shows in their payloads. -/
structure Emitted (t : Tenant) : Prop where
  references : References t
  admitted : ∀ p ∈ t.plans, ∀ s ∈ p.submissions, ∀ l ∈ s.lines, l.validate = .ok ()

/-- A tenant without plans emits none. -/
theorem Emitted.ofInitial (h : t.Initial) : Emitted t where
  references := .ofInitial h
  admitted := by simp [h.plans]

/-- An accepted request keeps what is emitted in order. -/
theorem Emitted.step {r : Request} {a : VesselCaller.Response} (h : Emitted t)
    (hr : t.handle sha r = .ok (t', a)) : Emitted t' where
  references := h.references.step hr
  admitted := by
    refine (handle_effect hr).forall_plans (fun p hnew s hs => ?_) (fun p p' _ hp hm s hs => ?_)
      (fun p p' _ hp hu s hs => ?_) h.admitted
    · rw [hnew.submissions] at hs
      cases hs
    · obtain hold | ⟨_, _, hnew⟩ := mutation_submission_origin hm hs
      · exact hp s hold
      · exact hnew.admitted
    · cases hu with
      | links ls hplan _ => exact hp s (by rwa [hplan] at hs)
      | evidence es hplan => exact hp s (by rwa [hplan] at hs)

/-- So does a run. -/
theorem Emitted.run (h : Emitted t) (rs : List Request) :
    Emitted (Lib.run (Tenant.handle sha) t rs) :=
  run_invariant (fun hs hr => hs.step hr) rs h

/-- An emitted plan is in its lifecycle. -/
theorem Emitted.lifecycle (h : Emitted t) (hp : p ∈ t.plans) : Lifecycle p :=
  h.references.covered.plans.lifecycle p hp

/-- What the checks of a reported line say. -/
theorem line_of_valid {l : SubmissionLine} (h : l.validate = .ok ()) :
    (∀ v, l.quantity = some v → 0 ≤ v ∧ v < 10 ^ 18) ∧
      (l.status = .reported → l.quantity ≠ none) := by
  simp only [SubmissionLine.validate, field, nonField, bind_eq_ok, raiseIf_eq_ok] at h
  obtain ⟨_, hquantity, _, _, _, hreported, _⟩ := h
  refine ⟨fun v hv => ?_, fun hstatus hnone => hreported ?_⟩
  · have hdecimal : decimalField 18 v = true := by simpa [hv] using hquantity
    exact decimalField_iff.mp hdecimal
  · simp [hstatus, hnone]

section Returns

variable (h : Emitted t) (hp : p ∈ t.plans)

include h hp

/-- No two returns of an emitted plan have one key. -/
theorem Emitted.submissionKeys : (p.submissions.map Submission.id).Nodup :=
  (h.references.portal.order p hp).submissionKeys

/-- The quantities of the returns fit their column. -/
theorem Emitted.quantity_bounds {s : Submission} (hs : s ∈ p.submissions) {l : SubmissionLine}
    (hl : l ∈ s.lines) {v : Decimal 3} (hv : l.quantity = some v) : 0 ≤ v ∧ v < 10 ^ 18 :=
  (line_of_valid (h.admitted p hp s hs l hl)).1 v hv

/-- What a plan measured is within its columns. -/
theorem Emitted.measured : Measured p := (h.references.covered.coverage p hp).measured

/-- The manifest quantities fit their column. -/
theorem Emitted.manifest_bounds {l : CargoLine} (hl : l ∈ p.lines) {v : Decimal 3}
    (hv : l.manifestQuantity = some v) : 0 ≤ v ∧ v < 10 ^ 18 :=
  (h.measured hp).lines.manifest l hl v hv

/-- **The figures of a reconciliation are read back**, and what the browser takes for their
difference is the variance that is stored. -/
theorem Emitted.reconciled {r : Reconciliation} (hr : r ∈ p.reconciliations)
    {l : ReconciliationLine} (hl : l ∈ r.lines) :
    Closeout.Comparison.Denotes (some (w.reconciliationLine l).quantity)
        ((l.quantity : ℚ) / 10 ^ 3) ∧
      (∀ v, l.manifestQuantity = some v →
        Closeout.Comparison.Denotes (w.reconciliationLine l).manifestQuantity
          ((v : ℚ) / 10 ^ 3)) ∧
      ∀ v, l.variance = some v → ∃ difference,
        Closeout.Comparison.quantityDifference (some (w.reconciliationLine l).quantity)
            (w.reconciliationLine l).manifestQuantity = some difference ∧
          Closeout.Comparison.Pronounces difference ((v : ℚ) / 10 ^ 3) := by
  obtain ⟨hquantity, hmanifest⟩ := (h.measured hp).reconciled r hr l hl
  have hread := denotes_decimalString hquantity
  have hdeclared : ∀ v, l.manifestQuantity = some v → Closeout.Comparison.Denotes
      (w.reconciliationLine l).manifestQuantity ((v : ℚ) / 10 ^ 3) := by
    intro v hv
    have hsent := denotes_decimalString (hmanifest v hv)
    rwa [Wire.reconciliationLine, hv]
  refine ⟨hread, hdeclared, fun v hv => ?_⟩
  obtain ⟨_, _, _, _, hvariance, _⟩ :=
    ((h.references.covered.coverage p hp).reconciliations r hr).2.2 l hl
  obtain ⟨m, hm, rfl⟩ := Option.map_eq_some_iff.mp (hvariance.symm.trans hv)
  obtain ⟨difference, hdifference, hsays⟩ :=
    Closeout.Comparison.quantityDifference_pronounces hread (hdeclared m hm)
  refine ⟨difference, hdifference, ?_⟩
  rw [Int.cast_sub, sub_div]
  exact hsays

/-- The returns of a participant are numbered from one on. -/
theorem Emitted.entered : Closeout.Entered (w.received t p) where
  positive := by
    intro x hx
    obtain ⟨s, hs, rfl⟩ := (mem_received_submissions w).mp hx
    have hof : s ∈ p.submissionsOf s.participantId :=
      List.mem_filter.mpr ⟨hs, decide_eq_true rfl⟩
    have hmem : s.revision ∈ (p.submissionsOf s.participantId).map Submission.revision :=
      List.mem_map_of_mem hof
    rw [(h.lifecycle hp).returns s.participantId, List.mem_range'_1] at hmem
    show (0 : ℤ) < (s.revision : ℤ)
    omega
  unique := by
    intro x hx x' hx' hparticipant hrevision
    obtain ⟨s, hs, rfl⟩ := (mem_received_submissions w).mp hx
    obtain ⟨s', hs', rfl⟩ := (mem_received_submissions w).mp hx'
    have hsame : s.participantId = s'.participantId := w.id_injective hparticipant
    have hnumber : s.revision = s'.revision := Int.ofNat_inj.mp hrevision
    have heq : s = s' := by
      refine List.inj_on_of_nodup_map ((h.lifecycle hp).returns s.participantId).nodup ?_ ?_ hnumber
      · exact List.mem_filter.mpr ⟨hs, decide_eq_true rfl⟩
      · exact List.mem_filter.mpr ⟨hs', decide_eq_true hsame.symm⟩
    rw [heq]

/-- The workspace receives returns as it assumes a server sends them. -/
theorem Emitted.serverReturns : Closeout.ServerReturns (w.received t p) where
  entered := h.entered w hp
  participants := by
    rw [received_participants, List.map_map]
    have hids : (p.allParticipants.map Participant.id).Nodup :=
      ((sortBy_perm _ _).map _).nodup_iff.mpr (h.lifecycle hp).participantKeys
    have hmap := hids.map w.id_injective
    rwa [List.map_map] at hmap
  quantities := by
    intro x hx entry hentry quantity hquantity
    obtain ⟨s, hs, rfl⟩ := (mem_received_submissions w).mp hx
    obtain ⟨l, hl, rfl⟩ := List.mem_map.mp hentry
    obtain ⟨v, hv, rfl⟩ := Option.map_eq_some_iff.mp hquantity
    exact isQuantity_decimalString (h.quantity_bounds hp hs hl hv)
  declared := by
    intro x hx quantity hquantity
    obtain ⟨l, hl, rfl⟩ := List.mem_map.mp hx
    obtain ⟨v, hv, rfl⟩ := Option.map_eq_some_iff.mp hquantity
    exact isQuantity_decimalString (h.manifest_bounds hp hl hv)
  parties := by
    intro x hx
    obtain ⟨s, hs, rfl⟩ := (mem_received_submissions w).mp hx
    obtain ⟨q, hq, hid⟩ :=
      Table.mem_keys.mp ((h.references.plans p hp).returns s hs).participant
    refine ⟨w.participant q, ?_, congrArg w.id hid⟩
    rw [received_participants]
    exact List.mem_map_of_mem (mem_sortBy.mpr hq)
  reported := by
    intro x hx entry hentry hstatus
    obtain ⟨s, hs, rfl⟩ := (mem_received_submissions w).mp hx
    obtain ⟨l, hl, rfl⟩ := List.mem_map.mp hentry
    have hquantity := (line_of_valid (h.admitted p hp s hs l hl)).2 hstatus
    simpa [Wire.submissionLine] using hquantity

/-- The browser and the server take the same return of a participant for the latest. -/
theorem Emitted.isLatest_iff {s : Submission} (hs : s ∈ p.submissions) :
    Closeout.IsLatest (w.received t p) (w.receivedReturn t s) ↔ s ∈ latestSubmissions p := by
  rw [mem_latestSubmissions_iff (h.lifecycle hp)]
  constructor
  · rintro ⟨_, hlatest⟩
    refine ⟨hs, fun s' hs' hsame => ?_⟩
    have hle := hlatest _ ((mem_received_submissions w).mpr ⟨s', hs', rfl⟩)
      (congrArg w.id hsame)
    exact Int.ofNat_le.mp hle
  · rintro ⟨_, hlatest⟩
    refine ⟨(mem_received_submissions w).mpr ⟨s, hs, rfl⟩, ?_⟩
    rintro x hx hsame
    obtain ⟨s', hs', rfl⟩ := (mem_received_submissions w).mp hx
    exact Int.ofNat_le.mpr (hlatest s' hs' (w.id_injective hsame))

/-- Server and workspace mean the same latest returns. -/
theorem Emitted.latestReturns_perm : (Closeout.latestReturns (w.received t p)).Perm
    ((latestSubmissions p).map (w.receivedReturn t)) := by
  have hkeys := h.submissionKeys hp
  have hnodup : (latestSubmissions p).Nodup := by
    refine (sortBy_perm _ _).nodup_iff.mpr ((lastByKey_sublist _ _).nodup ?_)
    exact (sortBy_perm _ _).nodup_iff.mpr (hkeys.of_map _)
  apply (List.perm_ext_iff_of_nodup ((Closeout.kept_latestReturns _).keys.of_map _) ?_).mpr
  · intro x
    rw [Closeout.mem_latestReturns (h.entered w hp), List.mem_map]
    constructor
    · intro hx
      obtain ⟨s, hs, rfl⟩ := (mem_received_submissions w).mp hx.1
      exact ⟨s, (h.isLatest_iff w hp hs).mp hx, rfl⟩
    · rintro ⟨s, hs, rfl⟩
      exact (h.isLatest_iff w hp (mem_of_mem_latestSubmissions hs)).mpr hs
  · refine List.Nodup.map_on ?_ hnodup
    intro s hs s' hs' heq
    refine List.inj_on_of_nodup_map hkeys (mem_of_mem_latestSubmissions hs)
      (mem_of_mem_latestSubmissions hs') ?_
    exact w.id_injective (congrArg Closeout.Submission.id heq)

end Returns

/-- The plans of a list have distinct keys, drawn from those of the tables. -/
theorem Emitted.listed (h : Emitted t) :
    Closeout.Listed (Set.range w.id) (t.plans.map (w.received t)) where
  distinct := by
    rw [List.map_map]
    have hmap := h.references.covered.plans.keys.map w.id_injective
    rw [Table.keys, List.map_map] at hmap
    exact hmap
  entered := by
    intro x hx
    obtain ⟨p, hp, rfl⟩ := List.mem_map.mp hx
    exact h.entered w hp
  keys := by
    intro x hx
    obtain ⟨p, _, rfl⟩ := List.mem_map.mp hx
    exact ⟨p.id, rfl⟩
  participants := by
    intro x hx y hy
    obtain ⟨p, _, rfl⟩ := List.mem_map.mp hx
    obtain ⟨s, _, rfl⟩ := (mem_received_submissions w).mp hy
    exact ⟨s.participantId, rfl⟩

/-- **The server sends what the browser takes for granted.**  The plans of every reachable tenant
reach the browser with distinct keys, as its tables and previews assume them: returns of the
plan's participants, numbered apart, every reported reading with a quantity, and all quantities
numbers.  The latest returns are the same on both sides; a quantity of a return, of a cargo line
or of a reconciliation is read back as the number that is stored, and the difference the browser
takes of the figures of a reconciliation is the stored variance. -/
theorem emitted_plans (sha : Sha256) {t₀ : Tenant} (h₀ : t₀.Initial) (rs : List Request)
    (ht : Lib.run (Tenant.handle sha) t₀ rs = t) :
    Closeout.Listed (Set.range w.id) (t.plans.map (w.received t)) ∧
    ∀ p ∈ t.plans, Closeout.ServerReturns (w.received t p) ∧
      (Closeout.latestReturns (w.received t p)).Perm
        ((latestSubmissions p).map (w.receivedReturn t)) ∧
      (∀ s ∈ p.submissions, ∀ l ∈ s.lines, ∀ v, l.quantity = some v →
        Closeout.Comparison.Denotes (w.submissionLine l).quantity ((v : ℚ) / 10 ^ 3)) ∧
      (∀ l ∈ p.lines, ∀ v, l.manifestQuantity = some v →
        Closeout.Comparison.Denotes (w.line l).manifestQuantity ((v : ℚ) / 10 ^ 3)) ∧
      ∀ r ∈ p.reconciliations, ∀ l ∈ r.lines,
        Closeout.Comparison.Denotes (some (w.reconciliationLine l).quantity)
            ((l.quantity : ℚ) / 10 ^ 3) ∧
          (∀ v, l.manifestQuantity = some v →
            Closeout.Comparison.Denotes (w.reconciliationLine l).manifestQuantity
              ((v : ℚ) / 10 ^ 3)) ∧
          ∀ v, l.variance = some v → ∃ difference,
            Closeout.Comparison.quantityDifference (some (w.reconciliationLine l).quantity)
                (w.reconciliationLine l).manifestQuantity = some difference ∧
              Closeout.Comparison.Pronounces difference ((v : ℚ) / 10 ^ 3) := by
  have h : Emitted t := ht ▸ (Emitted.ofInitial h₀).run rs
  refine ⟨h.listed w, fun p hp => ⟨h.serverReturns w hp, h.latestReturns_perm w hp,
    fun s hs l hl v hv => ?_, fun l hl v hv => ?_, fun r hr l hl => h.reconciled w hp hr hl⟩⟩
  · have hdenotes := denotes_decimalString (h.quantity_bounds hp hs hl hv)
    rwa [Wire.submissionLine, hv]
  · have hdenotes := denotes_decimalString (h.manifest_bounds hp hl hv)
    rwa [Wire.line, hv]

/-! ## A wire -/

/-- A key as decimal digits. -/
def keyText (k : Id) : String := String.ofList (Nat.toDigits 10 k)

/-- The text of a key is its digits. -/
theorem toList_keyText (k : Id) : (keyText k).toList = Nat.toDigits 10 k :=
  String.toList_ofList

/-- Distinct keys have distinct texts. -/
theorem keyText_injective : Function.Injective keyText := by
  intro k k' h
  have hdigits : Nat.toDigits 10 k = Nat.toDigits 10 k' := by
    rw [← toList_keyText, ← toList_keyText, h]
  have hvalue := congrArg digitsValue hdigits
  rwa [digitsValue, digitsValue, Nat.ofDigitChars_ten_toDigits,
    Nat.ofDigitChars_ten_toDigits] at hvalue

/-- The text of a key is not empty. -/
theorem keyText_ne (k : Id) : keyText k ≠ "" := by
  intro h
  have hnil : Nat.toDigits 10 k = [] := by
    rw [← toList_keyText, h]
    rfl
  exact Nat.toDigits_ne_nil hnil

/-- No key has a comma in it. -/
theorem keyText_comma (k : Id) : ',' ∉ (keyText k).toList := by
  rw [toList_keyText]
  exact fun hmem => absurd (isDigit_toDigits hmem) (by decide)

/-- Keys and instants in decimal digits. -/
def sampleWire : Wire where
  id := keyText
  instant := toString
  snapshot s := s.plan.title
  id_injective := keyText_injective
  id_ne := keyText_ne
  id_comma := keyText_comma

/-- The plan of the sample is sent as the browser takes it for granted, with a return and a
reconciliation of 1,200 tonnes. -/
theorem emitted_plans_proposed :
    ∃ t, Lib.run (Tenant.handle Sample.sha) Sample.tenant Sample.proposed = t ∧
      ∃ p ∈ t.plans, Closeout.ServerReturns (sampleWire.received t p) ∧
        (∃ s ∈ p.submissions, ∃ l ∈ s.lines,
          Closeout.Comparison.Denotes (sampleWire.submissionLine l).quantity 1200) ∧
        ∃ r ∈ p.reconciliations, ∃ l ∈ r.lines,
          Closeout.Comparison.Denotes (some (sampleWire.reconciliationLine l).quantity) 1200 := by
  have hrows : ∃ p ∈ (Lib.run (Tenant.handle Sample.sha) Sample.tenant Sample.proposed).plans,
      (∃ s ∈ p.submissions, ∃ l ∈ s.lines, l.quantity = some 1200000) ∧
        ∃ r ∈ p.reconciliations, ∃ l ∈ r.lines, l.quantity = 1200000 := by decide +kernel
  obtain ⟨p, hp, ⟨s, hs, l, hl, hreturned⟩, r, hr, l', hl', hreconciled⟩ := hrows
  obtain ⟨_, hplans⟩ := emitted_plans sampleWire Sample.sha Sample.initial Sample.proposed rfl
  obtain ⟨hserver, _, hreturns, _, hfigures⟩ := hplans p hp
  have hreading := hreturns s hs l hl 1200000 hreturned
  have hfigure := (hfigures r hr l' hl').1
  rw [hreconciled] at hfigure
  norm_num at hreading hfigure
  exact ⟨_, rfl, p, hp, hserver, ⟨s, hs, l, hl, hreading⟩, r, hr, l', hl', hfigure⟩

end VesselCaller.Workspace
