import VesselCaller.Operations.Inspections

/-!
# Stored captures can be read

The capture of an inspection is stored as it came.  An inspection is shown with the
jetty and with the capture of its own cargo type only, so the other capture may lie
there unread until a later request changes the cargo type.  Every request that writes
an inspection shows it before it commits: what is committed can be shown and rated.

## Main definitions

* `Readable`, `CapturesRead` — captures that the sections can be made from;
* `CaptureError` — the error of a capture that is none.
-/

namespace VesselCaller.Operations

open Lib Accounts Billing Measurements

variable {sha : Sha256} {t : Tenant} {i : Inspection} {value : Json}

/-- The value has fields to read: it is empty, or a dictionary. -/
def Readable (value : Json) : Prop := value.truthy = false ∨ ∃ fields, value = .obj fields

/-- The capture that the reports of the inspection show. -/
def Inspection.capture (i : Inspection) : Json :=
  match i.cargoType with
  | .liquid => i.liquid
  | .dry => i.dry

/-! ## Readers -/

theorem exists_orEmpty_eq_obj (h : Readable value) : ∃ fields, value.orEmpty = .obj fields := by
  unfold Json.orEmpty
  obtain hfalsy | ⟨fields, rfl⟩ := h
  · exact ⟨[], by rw [hfalsy]; rfl⟩
  · split
    · exact ⟨fields, rfl⟩
    · exact ⟨[], rfl⟩

/-- A field can be read exactly of a readable value. -/
theorem get_orEmpty_iff (name : String) :
    (∃ field, value.orEmpty.get name = .ok field) ↔ Readable value := by
  constructor
  · rintro ⟨field, hfield⟩
    by_cases htruthy : value.truthy = true
    · rw [Json.orEmpty, if_pos htruthy] at hfield
      cases value with
      | obj fields => exact .inr ⟨fields, rfl⟩
      | null | bool | num | str | arr => cases hfield
    · exact .inl (Bool.eq_false_iff.mpr htruthy)
  · intro h
    obtain ⟨fields, hfields⟩ := exists_orEmpty_eq_obj h
    rw [hfields]
    exact ⟨_, rfl⟩

theorem captureFields_iff {name : String × String} {names : List (String × String)} :
    (∃ fields, captureFields value.orEmpty (name :: names) = .ok fields) ↔
      Readable value := by
  constructor
  · rintro ⟨fields, hfields⟩
    obtain ⟨_, _, hfield⟩ := exists_of_mapM_eq_ok hfields name List.mem_cons_self
    obtain ⟨field, hfield, _⟩ := bind_eq_ok.mp hfield
    exact (get_orEmpty_iff name.2).mp ⟨field, hfield⟩
  · intro h
    refine mapM_ok_of_forall fun name _ => ?_
    obtain ⟨field, hfield⟩ := (get_orEmpty_iff name.2).mpr h
    exact ⟨_, bind_eq_ok.mpr ⟨field, hfield, rfl⟩⟩

theorem truthy_orEmpty : value.orEmpty.truthy = value.truthy := by
  unfold Json.orEmpty
  split
  · rfl
  · rename_i hfalsy
    exact (Bool.eq_false_iff.mpr hfalsy).symm

/-- The section of the jetty, which an empty jetty does not have. -/
def jettySections (i : Inspection) : Result (List ReportSection) :=
  if i.jetty.orEmpty.truthy then do
    let fields ← captureFields i.jetty.orEmpty
      [("Jetty type", "type"), ("Category", "category"), ("Name", "name")]
    pure [reportSection "Jetty" fields]
  else pure []

/-- The section of the capture. -/
def captureSection (i : Inspection) : Result ReportSection :=
  match i.cargoType with
  | .liquid => do
      let fields ← captureFields i.liquid.orEmpty
        [("Ullage / sounding (m)", "ullage"), ("Observed volume (m³)", "observedVol"),
         ("Temperature (°C)", "temp"), ("Bill of Lading quantity (MT)", "blQty"),
         ("Surveyor's reconciled tonnage (MT)", "surveyorTonnage")]
      pure (reportSection "Liquid measurements" fields)
  | .dry => do
      let fields ← captureFields i.dry.orEmpty
        [("Displacement before (MT)", "displBefore"), ("Displacement after (MT)", "displAfter"),
         ("Deductibles (MT)", "deductibles"), ("Constant (MT)", "constant")]
      pure (reportSection "Draft survey" fields)

/-- These two sections are all of a report that can fail. -/
theorem inspectionReportSections_eq (i : Inspection) :
    ∃ sections : List ReportSection → ReportSection → List ReportSection,
      inspectionReportSections i = (do
        let jetty ← jettySections i
        let capture ← captureSection i
        pure (sections jetty capture)) := by
  refine ⟨fun jetty capture => ([reportSection "Vessel and cargo"
    [("Vessel", .text i.vesselName), ("Inspection reference", .text i.reference),
     ("Cargo type", .cargo i.cargoType), ("Product", .text i.product)]] ++ jetty ++
    [capture, reportSection "Reconciliation and completion"
      [("Reconciled tonnage (MT)", .number i.reconciledTonnage), ("Status", .status i.status),
       ("Completed", .instant i.completedAt), ("Recorded", .instant (some i.createdAt))]]).filter
    fun s => !s.fields.isEmpty, ?_⟩
  unfold inspectionReportSections jettySections captureSection
  simp only
  split
  · simp only [bind_assoc]
    cases i.cargoType <;> simp
  · cases i.cargoType <;> simp

theorem jettySections_iff : (∃ sections, jettySections i = .ok sections) ↔ Readable i.jetty := by
  unfold jettySections
  split
  · rw [← captureFields_iff]
    simp only [bind_eq_ok, pure_eq_ok]
    constructor
    · rintro ⟨_, fields, h, _⟩
      exact ⟨fields, h⟩
    · rintro ⟨fields, h⟩
      exact ⟨_, fields, h, rfl⟩
  · rename_i hfalsy
    rw [truthy_orEmpty] at hfalsy
    exact iff_of_true ⟨[], rfl⟩ (.inl (Bool.eq_false_iff.mpr hfalsy))

theorem captureSection_iff : (∃ section', captureSection i = .ok section') ↔ Readable i.capture := by
  unfold captureSection Inspection.capture
  cases i.cargoType
  all_goals
    rw [← captureFields_iff]
    simp only [bind_eq_ok, pure_eq_ok]
    constructor
    · rintro ⟨_, fields, h, _⟩
      exact ⟨fields, h⟩
    · rintro ⟨fields, h⟩
      exact ⟨_, fields, h, rfl⟩

/-- **An inspection can be shown** exactly if its jetty and the capture of its cargo
type can be read. -/
theorem inspectionData_iff :
    (∃ data, inspectionData i = .ok data) ↔ Readable i.jetty ∧ Readable i.capture := by
  obtain ⟨sections, hsections⟩ := inspectionReportSections_eq i
  rw [← jettySections_iff, ← captureSection_iff]
  simp only [inspectionData, hsections, bind_eq_ok, pure_eq_ok]
  constructor
  · rintro ⟨_, _, ⟨jetty, hjetty, capture, hcapture, _⟩, _⟩
    exact ⟨⟨jetty, hjetty⟩, capture, hcapture⟩
  · rintro ⟨⟨jetty, hjetty⟩, capture, hcapture⟩
    exact ⟨_, _, ⟨jetty, hjetty, capture, hcapture, rfl⟩, rfl⟩

/-- An inspection whose jetty can be read is rated, whatever the settings are. -/
theorem exists_rateForInspection (h : Readable i.jetty) (settings : OrganizationSettings) :
    ∃ rate, rateForInspection i settings = .ok rate := by
  unfold rateForInspection
  split
  · exact ⟨_, rfl⟩
  · obtain ⟨type, htype⟩ := (get_orEmpty_iff "type").mpr h
    obtain ⟨category, hcategory⟩ := (get_orEmpty_iff "category").mpr h
    refine isOk_iff.mp ?_
    simp only [htype, hcategory, ok_bind]
    split
    · rfl
    · split
      · rfl
      · split <;> rfl

/-! ## What is committed can be read -/

/-- The captures of every inspection can be read where its cargo type reads them. -/
def CapturesRead (t : Tenant) : Prop :=
  ∀ i ∈ t.inspections, Readable i.jetty ∧ Readable i.capture

theorem InspectionsInOrder.capturesRead (h : InspectionsInOrder t) : CapturesRead t :=
  fun i hi => inspectionData_iff.mp (h.shown i hi).1

/-- The exception of reading a field of a value that is no dictionary. -/
def CaptureError (e : ApiError) : Prop := e = .server "AttributeError: get"

instance (e : ApiError) : Decidable (CaptureError e) := inferInstanceAs (Decidable (e = _))

theorem finalizeInspection_avoids_capture (hsteps : Workflow t.steps) (ctx : Ctx)
    (hjetty : Readable i.jetty) : Avoids CaptureError (finalizeInspection t ctx i) := by
  unfold finalizeInspection
  split
  · exact avoids_ok rfl
  · obtain ⟨rate, hrate⟩ := exists_rateForInspection (i := i.complete ctx) hjetty t.settings
    obtain ⟨step, _, _, hstep⟩ := hsteps.activeDefaultStep ctx
    refine avoids_bind (avoids_orRaise (by decide)) fun call _ => ?_
    refine avoids_bind (avoids_ok hrate) fun rate _ => ?_
    refine avoids_bind (avoids_ok hstep) fun r hr => ?_
    refine avoids_bind (avoids_raiseIf (by decide)) fun _ _ => ?_
    exact avoids_bind (avoids_raiseIf (by decide)) fun _ _ => avoids_ok rfl

/-- No finalization fails on what the inspection has captured. -/
theorem finalizeView_avoids (ht : InspectionsInOrder t) (ctx : Ctx) (id : Id)
    (version : Json) : Avoids CaptureError (finalizeView t ctx id version) := by
  refine avoids_bind (avoids_orRaise (by decide)) fun i hi => ?_
  have hmem : i ∈ t.inspections := (Table.mem_of_get (orRaise_eq_ok.mp hi)).1
  obtain ⟨hjetty, hcapture⟩ := ht.capturesRead i hmem
  refine avoids_bind (avoids_raiseIf (by decide)) fun _ _ => ?_
  refine avoids_bind
    (finalizeInspection_avoids_capture ht.calls.ledgers.workflow ctx hjetty) fun r hr => ?_
  obtain ⟨t', i', invoice⟩ := r
  -- The inspection that is answered with has the captures of the stored one.
  have hshown : ∃ data, inspectionData i' = .ok data := by
    rcases finalizeInspection_cases hr with ⟨_, rfl, _⟩ | ⟨rfl, _⟩
    · exact inspectionData_iff.mpr ⟨hjetty, hcapture⟩
    · exact inspectionData_iff.mpr ⟨hjetty, hcapture⟩
  obtain ⟨data, hdata⟩ := hshown
  refine avoids_bind (avoids_ok hdata) fun _ _ => ?_
  exact avoids_bind (avoids_orRaise (by decide)) fun _ _ => avoids_ok rfl

/-- The state of the organization is always served. -/
theorem exists_stateView (ht : InspectionsInOrder t) (ctx : Ctx) (user : User)
    (requestedRev : Option String) :
    ∃ response, stateView t ctx user requestedRev = .ok (t, response) := by
  obtain ⟨inspections, hinspections⟩ := mapM_ok_of_forall fun i hi => (ht.shown i hi).1
  have hsteps : ensureDefaultSteps ctx t.steps = .ok t.steps :=
    ht.calls.ledgers.workflow.ensureDefaultSteps ctx
  simp only [stateView, hsteps, ok_bind]
  split
  · exact ⟨none, rfl⟩
  · exact ⟨_, bind_eq_ok.mpr ⟨inspections, hinspections, rfl⟩⟩

/-- **No inspection is poisoned**: after every run, every committed inspection can be
shown and is rated under every settings, so the state of the organization is served and
no finalization fails on stored captures. -/
theorem stored_captures (hi : t.Initial) (rs : List Request) :
    (∀ i ∈ (run (Tenant.handle sha) t rs).inspections,
      (∃ data, inspectionData i = .ok data) ∧
      ∀ settings, ∃ rate, rateForInspection i settings = .ok rate) ∧
    (∀ ctx user requestedRev, ∃ response,
      stateView (run (Tenant.handle sha) t rs) ctx user requestedRev =
        .ok (run (Tenant.handle sha) t rs, response)) ∧
    ∀ ctx id version, finalizeView (run (Tenant.handle sha) t rs) ctx id version ≠
      .error (.server "AttributeError: get") := by
  have ht : InspectionsInOrder (run (Tenant.handle sha) t rs) :=
    (InspectionsInOrder.ofInitial hi).run rs
  refine ⟨fun i hi => ⟨(ht.shown i hi).1, ?_⟩, exists_stateView ht, ?_⟩
  · exact exists_rateForInspection (ht.capturesRead i hi).1
  · intro ctx id version herror
    exact finalizeView_avoids ht ctx id version _ herror rfl

/-- A draft for liquid cargo stores a list where dry cargo would be captured.  The
patch that makes it dry cargo is refused, and the draft is finalized as it stands. -/
theorem stored_captures_unread :
    let rs : List Request := [
      Sample.registered,
      .operations 1 (Sample.ctx 2) (.createInspection
        { callId := some 10000, cargoType := some .liquid, dry := some (.arr [.null]) } ""),
      .operations 1 (Sample.ctx 3) (.patchInspection 20000 { cargoType := some .dry })]
    let t := run (Tenant.handle Sample.sha) Sample.tenant rs
    t.inspections.map (fun i => (i.cargoType, i.dry.truthy, i.version)) = [(.liquid, true, 1)] ∧
    (∀ i ∈ t.inspections, ∃ rate, rateForInspection i t.settings = .ok rate) ∧
    finalizeView t (Sample.ctx 4) 20000 .null ≠ .error (.server "AttributeError: get") := by
  intro rs t
  obtain ⟨hrows, _, hfinalize⟩ := @stored_captures Sample.sha _ Sample.initial rs
  exact ⟨by decide +kernel, fun i hi => (hrows i hi).2 t.settings, hfinalize (Sample.ctx 4) 20000 .null⟩

end VesselCaller.Operations
