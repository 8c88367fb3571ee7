import VesselCaller.Core

/-!
# Operations: vessel calls, inspections and the organization's settings

The rows of `operations.models` and `organizations.OrganizationSettings`, with
their payloads.  An inspection stores its capture (`jetty`, `liquid`, `dry`) as
arbitrary JSON; `inspectionReportSections` reads it with `dict.get` and so can
raise on a value that is not a dictionary.

## Main definitions

* `VesselCall`, `Inspection`, `OrganizationSettings` — the rows;
* `inspectionReportSections`, `inspectionData` — what is shown of an inspection, where it can
  be;
* `rateForInspection` — the dues rate of a cargo.
-/

namespace VesselCaller.Operations

open Lib

inductive CallStatus where
  | pending
  | inProgress
  | completed
  | cancelled
  deriving DecidableEq, Repr

structure VesselCall where
  id : Id
  vesselName : String
  reference : String
  vesselType : String
  flag : String
  nrt : Decimal 3
  eta : Option Instant
  sailingEta : Option Instant
  berth : String
  berthDate : Option Date
  status : CallStatus
  notes : String
  cancellationReason : String
  cancelledAt : Option Instant
  version : ℕ
  registeredAt : Instant
  deriving DecidableEq, Repr

instance : Keyed VesselCall Id := ⟨VesselCall.id⟩

inductive InspectionStatus where
  | draft
  | completed
  | cancelled
  deriving DecidableEq, Repr

inductive CargoType where
  | liquid
  | dry
  deriving DecidableEq, Repr

structure Inspection where
  id : Id
  vesselCallId : Id
  reference : String
  vesselName : String
  cargoType : CargoType
  product : String
  reconciledTonnage : Decimal 3
  jetty : Json
  liquid : Json
  dry : Json
  status : InspectionStatus
  idempotencyKey : String
  version : ℕ
  completedAt : Option Instant
  createdAt : Instant
  updatedAt : Instant

instance : Keyed Inspection Id := ⟨Inspection.id⟩

structure OrganizationSettings where
  commissionRate : Decimal 4
  exchangeRate : Decimal 4
  governmentLiquidRate : Decimal 4
  privateLiquidRate : Decimal 4
  internationalLiquidRate : Decimal 4
  dryDuesRate : Decimal 4
  portName : String
  terminals : List String
  deriving DecidableEq, Repr

/-! ## Payloads -/

/-- A reported value: text, a number with three decimals, an instant, or a stored
JSON value. -/
inductive FieldValue where
  | text (s : String)
  | cargo (t : CargoType)
  | status (s : InspectionStatus)
  | number (v : Decimal 3)
  | instant (t : Option Instant)
  | json (value : Json)

/-- `value not in (None, "")`. -/
def FieldValue.present : FieldValue → Bool
  | .text s => s ≠ ""
  | .instant t => t.isSome
  | .json .null => false
  | .json (.str s) => s ≠ ""
  | _ => true

structure ReportSection where
  title : String
  fields : List (String × FieldValue)

def reportSection (title : String) (fields : List (String × FieldValue)) : ReportSection :=
  ⟨title, fields.filter fun f => f.2.present⟩

/-- The fields `names` of a captured dictionary, under their labels. -/
def captureFields (capture : Json) (names : List (String × String)) :
    Result (List (String × FieldValue)) :=
  names.mapM fun n => do
    let value ← capture.get n.2
    return (n.1, .json value)

/-- `inspection_report_sections`. -/
def inspectionReportSections (i : Inspection) : Result (List ReportSection) := do
  let head := reportSection "Vessel and cargo"
    [("Vessel", .text i.vesselName), ("Inspection reference", .text i.reference),
     ("Cargo type", .cargo i.cargoType), ("Product", .text i.product)]
  let jetty := i.jetty.orEmpty
  let jettySections ←
    if jetty.truthy then do
      let fields ← captureFields jetty
        [("Jetty type", "type"), ("Category", "category"), ("Name", "name")]
      pure [reportSection "Jetty" fields]
    else pure []
  let capture ← match i.cargoType with
    | .liquid => do
        let fields ← captureFields i.liquid.orEmpty
          [("Ullage / sounding (m)", "ullage"), ("Observed volume (m³)", "observedVol"),
           ("Temperature (°C)", "temp"), ("Bill of Lading quantity (MT)", "blQty"),
           ("Surveyor's reconciled tonnage (MT)", "surveyorTonnage")]
        pure (reportSection "Liquid measurements" fields)
    | .dry => do
        let fields ← captureFields i.dry.orEmpty
          [("Displacement before (MT)", "displBefore"),
           ("Displacement after (MT)", "displAfter"), ("Deductibles (MT)", "deductibles"),
           ("Constant (MT)", "constant")]
        pure (reportSection "Draft survey" fields)
  let tail := reportSection "Reconciliation and completion"
    [("Reconciled tonnage (MT)", .number i.reconciledTonnage), ("Status", .status i.status),
     ("Completed", .instant i.completedAt), ("Recorded", .instant (some i.createdAt))]
  return (([head] ++ jettySections ++ [capture, tail]).filter fun s => !s.fields.isEmpty)

/-- `inspection_data`: the row as the API shows it, and its report sections. -/
structure InspectionData where
  id : Id
  reference : String
  callId : Id
  vesselName : String
  cargoType : CargoType
  product : String
  reconciledTonnage : Decimal 3
  jetty : Json
  liquid : Json
  dry : Json
  date : Instant
  status : InspectionStatus
  version : ℕ
  createdAt : Instant
  updatedAt : Instant
  reportSections : List ReportSection

instance : Keyed InspectionData Id := ⟨InspectionData.id⟩

def inspectionData (i : Inspection) : Result InspectionData := do
  let reportSections ← inspectionReportSections i
  return {
    id := i.id
    reference := i.reference
    callId := i.vesselCallId
    vesselName := i.vesselName
    cargoType := i.cargoType
    product := i.product
    reconciledTonnage := i.reconciledTonnage
    jetty := i.jetty
    liquid := i.liquid
    dry := i.dry
    date := i.completedAt.getD i.createdAt
    status := i.status
    version := i.version
    createdAt := i.createdAt
    updatedAt := i.updatedAt
    reportSections }

theorem inspectionData_id {i : Inspection} {d : InspectionData}
    (h : inspectionData i = .ok d) : d.id = i.id := by
  simp only [inspectionData, bind_eq_ok, pure_eq_ok] at h
  obtain ⟨_, _, rfl⟩ := h
  rfl

theorem inspectionData_version {i : Inspection} {d : InspectionData}
    (h : inspectionData i = .ok d) : d.version = i.version := by
  simp only [inspectionData, bind_eq_ok, pure_eq_ok] at h
  obtain ⟨_, _, rfl⟩ := h
  rfl

/-- `call_data` shows every column of the call but its organization and creator. -/
abbrev CallData := VesselCall

/-- `settings_data` shows every column of the settings. -/
abbrev SettingsData := OrganizationSettings

/-! ## Rates and dues -/

/-- `rate_for_inspection`. -/
def rateForInspection (i : Inspection) (settings : OrganizationSettings) : Result (Decimal 4) :=
  match i.cargoType with
  | .dry => pure settings.dryDuesRate
  | .liquid => do
      let jetty := i.jetty.orEmpty
      let type ← jetty.get "type"
      let category ← jetty.get "category"
      if type.isStr "International" then pure settings.internationalLiquidRate
      else if type.isStr "Local" && category.isStr "Government" then
        pure settings.governmentLiquidRate
      else if type.isStr "Local" && category.isStr "Private" then
        pure settings.privateLiquidRate
      else pure 0

/-- `money`: half-up rounding to cents of a value with `k` further decimals. -/
def money (k : ℕ) (v : ℤ) : Decimal 2 := quantize k v

end VesselCaller.Operations
