import VesselCaller.Closeout.InvoiceGate
import VesselCaller.Measurements.Serializers

/-!
# The units of the tariff

Every entry of `TARIFF_RATES` is a rate per unit, and `tariffKeyFor` picks the entry of a cargo
line.  For liquids, bulk and general cargo the unit of the line is part of the key.  For
containers and vehicles it is not, and the server checks the category of a line and its unit
apart, so a container that is measured in tonnes is given the rate per container.

`MatchesUnit` is the condition that is left to the lines.

## Main definitions

* `perPiece`, `pricedUnit` — the unit a tariff entry is priced in;
* `MatchesUnit` — the unit of the line is that of its entry.
-/

namespace VesselCaller.Closeout

open Lib

/-! ## The entry of a cargo line -/

/-- The categories whose entries are per piece. -/
def perPiece : List String := ["Container", "Vehicle"]

/-- The unit a cargo line is priced in. -/
def pricedUnit (cargo : CargoLine) : CargoUnit :=
  if cargo.category ∈ perPiece then .count else cargo.unit

theorem unit_of_container : ∀ entry ∈ tariffRates,
    "container:".toList.isPrefixOf entry.key.toList = true → entry.unit = .count := by
  decide +kernel

theorem unit_of_key : ∀ entry ∈ tariffRates, ∀ unit,
    entry.key = "liquid:" ++ unitText unit ∨ entry.key = "bulk:" ++ unitText unit ∨
      entry.key = "general:" ++ unitText unit → entry.unit = unit := by
  intro entry hentry unit
  cases unit <;> revert entry <;> decide +kernel

theorem unit_of_vehicle : ∀ entry ∈ tariffRates,
    entry.key = "vehicle:count" → entry.unit = .count := by
  decide +kernel

/-- The entry of a cargo line is in the unit the line is priced in. -/
theorem unit_eq_pricedUnit {cargo : CargoLine} {entry : TariffRateDefinition}
    (hentry : entry ∈ tariffRates) (hkey : tariffKeyFor cargo = some entry.key) :
    entry.unit = pricedUnit cargo := by
  unfold tariffKeyFor at hkey
  unfold pricedUnit perPiece
  split at hkey
  · rename_i hcategory
    rw [if_pos (by simp [hcategory])]
    split at hkey
    · refine unit_of_container entry hentry ?_
      rw [← Option.some.inj hkey]
      simp [String.toList_append, List.append_assoc]
    · cases hkey
  · rename_i hcontainer
    split at hkey
    · rename_i hcategory
      rw [if_neg (by simp [hcategory])]
      exact unit_of_key entry hentry cargo.unit (.inl (Option.some.inj hkey).symm)
    · split at hkey
      · rename_i hcategory
        rw [if_neg (by simp [hcategory])]
        exact unit_of_key entry hentry cargo.unit (.inr (.inl (Option.some.inj hkey).symm))
      · split at hkey
        · rename_i hcategory
          rw [if_neg (by simp [hcategory])]
          exact unit_of_key entry hentry cargo.unit (.inr (.inr (Option.some.inj hkey).symm))
        · split at hkey
          · rename_i hcategory
            rw [if_pos (by simp [hcategory])]
            exact unit_of_vehicle entry hentry (Option.some.inj hkey).symm
          · cases hkey

/-! ## The rates that are filled in -/

section Filled

variable {report : PreviewReport} {plans sources : List MeasurementPlan}
  {declaration : Option PaidDeclaration} {tariff : VariationTariff} {line : PreviewReportLine}
  {input : PreviewInvoiceLineInput} {entry : TariffRateDefinition}

/-- The rate of the line's input is the one the tariff has under this entry. -/
structure FilledFrom (sources : List MeasurementPlan) (tariff : VariationTariff)
    (line : PreviewReportLine) (input : PreviewInvoiceLineInput) (entry : TariffRateDefinition) :
    Prop where
  listed : entry ∈ tariffRates
  key : (cargoOf sources line).bind tariffKeyFor = some entry.key
  rate : tariff.rates entry.key = some input.rate
  filled : input.rate ≠ ""

/-- The report line is in the unit its cargo line is priced in: pieces for a container or a
vehicle, otherwise the unit of the cargo line. -/
def MatchesUnit (line : PreviewReportLine) (cargo : CargoLine) : Prop :=
  if cargo.category ∈ perPiece then line.unit = .count else line.unit = cargo.unit

instance : Decidable (MatchesUnit line cargo) :=
  inferInstanceAs (Decidable (if cargo.category ∈ perPiece then line.unit = .count
    else line.unit = cargo.unit))

theorem matchesUnit_iff {cargo : CargoLine} : MatchesUnit line cargo ↔ pricedUnit cargo = line.unit := by
  unfold MatchesUnit pricedUnit
  split
  · exact eq_comm
  · exact eq_comm

/-- A saved tariff has rates under the keys of entries only. -/
theorem AcceptedTariff.exists_entry (h : AcceptedTariff tariff) {key rate : String}
    (hrate : tariff.rates key = some rate) : ∃ entry ∈ tariffRates, entry.key = key := by
  obtain ⟨_, _, input, _, h⟩ := h
  unfold saveTariff at h
  obtain ⟨_, -, h⟩ := bind_eq_ok.mp h
  obtain ⟨_, -, h⟩ := bind_eq_ok.mp h
  obtain ⟨_, -, h⟩ := bind_eq_ok.mp h
  obtain ⟨_, -, h⟩ := bind_eq_ok.mp h
  cases h
  obtain ⟨entry, hentry, -⟩ := Option.map_eq_some_iff.mp hrate
  exact ⟨entry, List.mem_of_find?_eq_some hentry, by simpa using List.find?_some hentry⟩

theorem rateFor_eq {key rate : String} (hkey : (cargoOf sources line).bind tariffKeyFor = some key)
    (hrate : tariff.rates key = some rate) :
    rateFor (some tariff) (cargoOf sources line) = rate := by
  rw [rateFor, hkey, Option.bind_some, Option.bind_some, hrate, Option.getD_some]

/-- A rate that comes out of the tariff is under a key of the cargo line. -/
theorem exists_of_rateFor (h : rateFor (some tariff) (cargoOf sources line) ≠ "") :
    ∃ key rate, (cargoOf sources line).bind tariffKeyFor = some key ∧
      tariff.rates key = some rate ∧ rate ≠ "" := by
  unfold rateFor at h
  cases hkey : (cargoOf sources line).bind tariffKeyFor with
  | none =>
      rw [hkey] at h
      exact absurd rfl h
  | some key =>
      rw [hkey, Option.bind_some, Option.bind_some] at h
      cases hrate : tariff.rates key with
      | none =>
          rw [hrate] at h
          exact absurd rfl h
      | some rate =>
          rw [hrate, Option.getD_some] at h
          exact ⟨key, rate, rfl, hrate, h⟩

/-- The input of a line that the tariff has a rate for is filled in from one entry, whose unit
is the one the cargo line is priced in. -/
theorem filledFrom_of_rateFor (htariff : AcceptedTariff tariff)
    (h : rateFor (some tariff) (cargoOf sources line) ≠ "") :
    ∃ cargo entry, cargoOf sources line = some cargo ∧ entry.unit = pricedUnit cargo ∧
      FilledFrom sources tariff line (invoiceLineInputFor sources (some tariff) line) entry := by
  obtain ⟨key, rate, hkey, hrate, hne⟩ := exists_of_rateFor h
  obtain ⟨entry, hentry, rfl⟩ := htariff.exists_entry hrate
  obtain ⟨cargo, hcargo, hcargoKey⟩ := Option.bind_eq_some_iff.mp hkey
  have hinput : (invoiceLineInputFor sources (some tariff) line).rate = rate := by
    show (if rateFor (some tariff) (cargoOf sources line) ≠ "" then _ else _) = rate
    rw [if_pos h, rateFor_eq hkey hrate]
  exact ⟨cargo, entry, hcargo, unit_eq_pricedUnit hentry hcargoKey,
    hentry, hkey, hinput ▸ hrate, hinput ▸ hne⟩

/-- Whatever entry a line is filled in from, its unit is the one the cargo line is priced in. -/
theorem FilledFrom.unit (h : FilledFrom sources tariff line input entry) {cargo : CargoLine}
    (hcargo : cargoOf sources line = some cargo) : entry.unit = pricedUnit cargo := by
  have hkey := h.key
  rw [hcargo, Option.bind_some] at hkey
  exact unit_eq_pricedUnit h.listed hkey

/-- The inputs are those of the lines, in their order. -/
theorem zip_invoiceInputFor (report : PreviewReport) (plans : List MeasurementPlan)
    (declaration : Option PaidDeclaration) (tariff : Option VariationTariff) :
    report.lines.zip (invoiceInputFor report plans declaration tariff).lines =
      report.lines.map fun line =>
        (line, invoiceLineInputFor (plans ++ report.sourcePlans) tariff line) := by
  rw [invoiceInputFor, List.zip_map_right, List.zip_eq_zipWith, List.zipWith_self, List.map_map]
  rfl

/-- **When a tariff rate is applied to its own unit.**  Every rate that `invoiceInputFor` fills
in from a saved tariff is of an entry in the unit of its report line, exactly when every line
that the tariff has a rate for is in the unit its cargo line is priced in. -/
theorem tariff_units (report : PreviewReport) (plans : List MeasurementPlan)
    (declaration : Option PaidDeclaration) {tariff : VariationTariff}
    (htariff : AcceptedTariff tariff) :
    (∀ pair ∈ report.lines.zip (invoiceInputFor report plans declaration (some tariff)).lines,
      rateFor (some tariff) (cargoOf (plans ++ report.sourcePlans) pair.1) ≠ "" →
        ∃ entry, FilledFrom (plans ++ report.sourcePlans) tariff pair.1 pair.2 entry ∧
          entry.unit = pair.1.unit) ↔
      ∀ line ∈ report.lines, ∀ cargo ∈ cargoOf (plans ++ report.sourcePlans) line,
        ∀ key ∈ tariffKeyFor cargo, ∀ rate ∈ tariff.rates key, rate ≠ "" →
          MatchesUnit line cargo := by
  rw [zip_invoiceInputFor, List.forall_mem_map]
  refine forall₂_congr fun line hline => ⟨fun h cargo hcargo key hkey rate hrate hne => ?_,
    fun h hfilled => ?_⟩
  · have hbind : (cargoOf (plans ++ report.sourcePlans) line).bind tariffKeyFor = some key := by
      rw [hcargo, Option.bind_some, hkey]
    obtain ⟨entry, hentry, hunit⟩ := h (by rwa [rateFor_eq hbind hrate])
    exact matchesUnit_iff.mpr ((hentry.unit hcargo).symm.trans hunit)
  · obtain ⟨cargo, entry, hcargo, hunit, hentry⟩ := filledFrom_of_rateFor htariff hfilled
    have hkey := hentry.key
    rw [hcargo, Option.bind_some] at hkey
    have hmatch := h cargo hcargo entry.key hkey _ hentry.rate hentry.filled
    exact ⟨entry, hentry, hunit.trans (matchesUnit_iff.mp hmatch)⟩

end Filled

/-! ## Containers by weight -/

/-- The line shows a cargo line that the server accepted. -/
structure ShownFor (cargo : CargoLine) (d : Measurements.CargoLineInput) : Prop where
  valid : d.validate = .ok ()
  description : cargo.description = d.description
  category : cargo.category = d.category
  direction : cargo.direction = d.direction
  containerSize : cargo.containerSize = d.containerSize
  loadStatus : cargo.loadStatus = d.loadStatus
  unit : cargo.unit = d.unit
  basis : cargo.basis = d.basis
  manifestQuantity : (decimal cargo.manifestQuantity 3 15).map Int.ofNat = d.manifestQuantity
  baselineReference : cargo.baselineReference = d.baselineReference

namespace Sample

/-- Containers whose weight is measured. -/
def containerInput : Measurements.CargoLineInput where
  description := "Steel coils"
  category := "Container"
  direction := "import"
  containerSize := "20"
  loadStatus := "laden"
  unit := .tonnes
  basis := "manifest"
  manifestQuantity := some 100000
  baselineReference := "B/L 1"

def containerLine : CargoLine :=
  { cargoLine with category := "Container", containerSize := "20", loadStatus := "laden" }

theorem containerLine_shown : ShownFor containerLine containerInput where
  valid := by decide +kernel
  description := rfl
  category := rfl
  direction := rfl
  containerSize := rfl
  loadStatus := rfl
  unit := rfl
  basis := rfl
  manifestQuantity := by decide +kernel
  baselineReference := rfl

def containerPlan : MeasurementPlan := { plan with lines := [containerLine] }

/-- The report on the containers is submitted and approved. -/
def containerCalls : List Request := [
  request 0 (.submitReport [containerPlan] reportInput preparer),
  request 1 (.approveReport [containerPlan] "uuid-0-0" reviewer none)]

def containerRecord : CloseoutRecord :=
  (run (handle runtime) start containerCalls).record key "call-1"

def containerTariffInput : VariationTariffInput where
  currency := ⟨"USD", usd_mem_currencies⟩
  reference := "T-1"
  rates k := if k = "container:20:laden" then some "250.00" else none

def containerTariff : VariationTariff where
  toVariationTariffInput := { containerTariffInput with
    reference := trim "T-1"
    rates := fun k => (tariffRates.find? fun rate => rate.key = k).map fun rate =>
      trim (enteredRate containerTariffInput.rates rate) }
  updatedAt := "2026-01-01T00:00:00"
  updatedBy := preparer

theorem accepted_containerTariff : AcceptedTariff containerTariff := by
  have hvalid : tariffRates.find? (fun rate =>
      trim (enteredRate containerTariffInput.rates rate) ≠ "" &&
        !validRate (enteredRate containerTariffInput.rates rate)) = none := by decide +kernel
  refine ⟨some "tariff", moment 0, containerTariffInput, preparer, ?_⟩
  unfold saveTariff
  dsimp only
  rw [hvalid]
  rw [raiseIf_of_not (by decide), ok_bind, raiseIf_of_not (by decide +kernel), ok_bind]
  rfl

end Sample

/-- Containers measured in tonnes, as the server accepts them: in the approved report of the
voyage their tonnes are given the rate per container. -/
theorem tonnes_rated_per_container : ∃ report,
    currentReport Sample.runtime [Sample.containerPlan] Sample.containerRecord = some report ∧
      ShownFor Sample.containerLine Sample.containerInput ∧
      AcceptedTariff Sample.containerTariff ∧
      ∃ pair ∈ report.lines.zip
          (invoiceInputFor report [Sample.containerPlan] none (some Sample.containerTariff)).lines,
        pair.1.unit = .tonnes ∧ ∃ entry, entry.unit = .count ∧
          FilledFrom ([Sample.containerPlan] ++ report.sourcePlans) Sample.containerTariff
            pair.1 pair.2 entry := by
  have hfound : ((currentReport Sample.runtime [Sample.containerPlan]
      Sample.containerRecord).any fun report => report.lines.any fun line =>
        line.unit = .tonnes &&
        rateFor (some Sample.containerTariff)
          (cargoOf ([Sample.containerPlan] ++ report.sourcePlans) line) ≠ "" &&
        (cargoOf ([Sample.containerPlan] ++ report.sourcePlans) line).all fun cargo =>
          pricedUnit cargo = .count) = true := by
    decide +kernel
  cases hreport : currentReport Sample.runtime [Sample.containerPlan] Sample.containerRecord with
  | none =>
      rw [hreport] at hfound
      cases hfound
  | some report =>
      rw [hreport, Option.any_some] at hfound
      obtain ⟨line, hline, hrated⟩ := List.any_eq_true.mp hfound
      simp only [Bool.and_eq_true, decide_eq_true_eq] at hrated
      obtain ⟨⟨htonnes, hrate⟩, hpriced⟩ := hrated
      obtain ⟨cargo, entry, hcargo, hunit, hentry⟩ :=
        filledFrom_of_rateFor Sample.accepted_containerTariff hrate
      rw [hcargo, Option.all_some, decide_eq_true_eq] at hpriced
      refine ⟨report, rfl, Sample.containerLine_shown, Sample.accepted_containerTariff,
        (line, _), ?_, htonnes, entry, hunit.trans hpriced, hentry⟩
      rw [zip_invoiceInputFor]
      exact List.mem_map_of_mem hline

/-- General cargo in tonnes is given the rate per tonne. -/
theorem tariff_units_sample : ∃ report,
    currentReport Sample.runtime [Sample.ratedPlan] Sample.ratedRecord = some report ∧
      ∀ pair ∈ report.lines.zip
          (invoiceInputFor report [Sample.ratedPlan] none (some Sample.tariff)).lines,
        rateFor (some Sample.tariff)
            (cargoOf ([Sample.ratedPlan] ++ report.sourcePlans) pair.1) ≠ "" →
          ∃ entry, FilledFrom ([Sample.ratedPlan] ++ report.sourcePlans) Sample.tariff
              pair.1 pair.2 entry ∧ entry.unit = pair.1.unit := by
  obtain ⟨report, hreport, -⟩ := Sample.exists_ratedReport "1000.00" (by decide +kernel)
  have hmatch : ((currentReport Sample.runtime [Sample.ratedPlan] Sample.ratedRecord).all
      fun report => report.lines.all fun line =>
        (cargoOf ([Sample.ratedPlan] ++ report.sourcePlans) line).all fun cargo =>
          decide (MatchesUnit line cargo)) = true := by
    decide +kernel
  rw [hreport, Option.all_some, List.all_eq_true] at hmatch
  refine ⟨report, hreport, (tariff_units report [Sample.ratedPlan] none Sample.accepted_tariff).mpr
    fun line hline cargo hcargo _ _ _ _ _ => ?_⟩
  have hline' := hmatch line hline
  rw [hcargo, Option.all_some] at hline'
  exact of_decide_eq_true hline'

end VesselCaller.Closeout
