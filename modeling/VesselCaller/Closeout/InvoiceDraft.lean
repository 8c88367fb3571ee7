import VesselCaller.Closeout.Changes
import VesselCaller.Closeout.Comparison

/-!
# Invoices from a declaration and a tariff

`measurements/tariffs.ts`, `measurements/invoiceDraft.ts` and the editor of
`screens/VariationInvoice.tsx`: what a tariff is checked for before it is saved, the invoice
input made from an approved report, the paid declaration and the tariff, what is still missing
for it, and what the editor asks before it lets its input be saved.

The choices of currency are a type, as they are in the source; of a tariff's rates only those
are kept whose keys are listed.

## Main definitions

* `tariffRates`, `tariffKeyFor`, `saveTariff` — the tariff;
* `aboveDeclaration`, `missingInvoiceDetails` — what is asked for before a draft;
* `invoiceInputFor`, `canSave` — the input that is made, and the check of the editor.
-/

namespace VesselCaller.Closeout

open Lib
open Comparison (quantityDifference startsWith)

/-! ## Tariffs -/

/-- `"USD" | "NGN"`. -/
abbrev Currency := { text : String // text ∈ currencies }

structure TariffRateDefinition where
  key : String
  group : String
  label : String
  unit : CargoUnit
  deriving DecidableEq, Repr

/-- `TARIFF_RATES`. -/
def tariffRates : List TariffRateDefinition := [
  ⟨"container:20:laden", "Containers", "20 ft laden", .count⟩,
  ⟨"container:20:empty", "Containers", "20 ft empty", .count⟩,
  ⟨"container:40:laden", "Containers", "40 ft laden", .count⟩,
  ⟨"container:40:empty", "Containers", "40 ft empty", .count⟩,
  ⟨"container:45:laden", "Containers", "45 ft laden", .count⟩,
  ⟨"container:45:empty", "Containers", "45 ft empty", .count⟩,
  ⟨"liquid:tonnes", "Tanker / liquid", "By weight", .tonnes⟩,
  ⟨"liquid:m3", "Tanker / liquid", "By volume", .m3⟩,
  ⟨"bulk:tonnes", "Dry bulk", "By weight", .tonnes⟩,
  ⟨"bulk:m3", "Dry bulk", "By volume", .m3⟩,
  ⟨"general:tonnes", "General cargo", "By weight", .tonnes⟩,
  ⟨"general:count", "General cargo", "By item", .count⟩,
  ⟨"general:m3", "General cargo", "By volume", .m3⟩,
  ⟨"vehicle:count", "Vehicles", "Vehicles", .count⟩]

def unitText : CargoUnit → String
  | .tonnes => "tonnes"
  | .count => "count"
  | .m3 => "m3"

def tariffKeyFor (line : CargoLine) : Option String :=
  if line.category = "Container" then
    if line.containerSize ≠ "" ∧ line.loadStatus ≠ "" then
      some ("container:" ++ line.containerSize ++ ":" ++ line.loadStatus)
    else none
  else if line.category = "Liquid" then some ("liquid:" ++ unitText line.unit)
  else if line.category = "Bulk" then some ("bulk:" ++ unitText line.unit)
  else if line.category = "General cargo" then some ("general:" ++ unitText line.unit)
  else if line.category = "Vehicle" then some "vehicle:count"
  else none

/-- The rates of a tariff, by key. -/
abbrev Rates := String → Option String

structure VariationTariffInput where
  currency : Currency
  reference : String
  rates : Rates

structure VariationTariff extends VariationTariffInput where
  updatedAt : String
  updatedBy : Actor

def validRate (value : String) : Bool := fixedPattern 11 4 (trim value).toList

/-- What the form has for a rate, `input.rates[rate.key] ?? ""`. -/
def enteredRate (rates : Rates) (rate : TariffRateDefinition) : String := (rates rate.key).getD ""

/-- `save`, of an organization whose tariff has the storage key `key`. -/
def saveTariff (key : Option String) (moment : Moment) (input : VariationTariffInput)
    (actor : Actor) : Except String VariationTariff := do
  raiseIf (key = none) "Load your organisation before saving the tariff."
  raiseIf (trim input.reference = "") "Enter the tariff reference, such as its title and version."
  let invalid := tariffRates.find? fun rate =>
    trim (enteredRate input.rates rate) ≠ "" && !validRate (enteredRate input.rates rate)
  raiseSome (invalid.map fun rate => "Enter the " ++ rate.group.toLower ++ " " ++
    rate.label.toLower ++ " rate as a number with up to four decimal places.")
  raiseSome moment.writeError
  return {
    currency := input.currency
    reference := trim input.reference
    rates := fun k => (tariffRates.find? fun rate => rate.key = k).map fun rate =>
      trim (enteredRate input.rates rate)
    updatedAt := moment.now 0
    updatedBy := actor }

/-! ## The input of an invoice -/

/-- `aboveDeclaration`. -/
def aboveDeclaration (quantity : String) (declared : Option String) : Bool :=
  (quantityDifference (some quantity) declared).any fun difference =>
    difference ≠ "0" && !startsWith difference "-"

/-- The cargo line of a line of the report, in the first plan of its key. -/
def cargoOf (sources : List MeasurementPlan) (line : PreviewReportLine) : Option CargoLine :=
  (sources.find? fun plan => plan.id = line.planId).bind fun plan =>
    plan.lines.find? fun item => item.id = line.lineId

/-- `(key && tariff?.rates[key]) || ""`. -/
def rateFor (tariff : Option VariationTariff) (cargo : Option CargoLine) : String :=
  ((cargo.bind tariffKeyFor).bind fun key => tariff.bind fun t => t.rates key).getD ""

def invoiceLineInputFor (sources : List MeasurementPlan) (tariff : Option VariationTariff)
    (line : PreviewReportLine) : PreviewInvoiceLineInput :=
  let rate := rateFor tariff (cargoOf sources line)
  { planId := line.planId
    lineId := line.lineId
    -- Lines with no additional load are never charged; their rate is not needed.
    rate :=
      if rate ≠ "" then rate
      else if aboveDeclaration line.quantity line.declaredQuantity then "" else "0"
    previousVariationAmount := "0" }

def invoiceInputFor (report : PreviewReport) (plans : List MeasurementPlan)
    (declaration : Option PaidDeclaration) (tariff : Option VariationTariff) :
    PreviewInvoiceInput where
  payer := (declaration.map (·.payer)).getD ""
  currency := ((tariff.map (·.currency.val)).or (declaration.map (·.currency))).getD "USD"
  tariffReference := (tariff.map (·.reference)).getD ""
  originalInvoiceReference := (declaration.map (·.invoiceReference)).getD ""
  paymentStatus := (declaration.map (·.paymentStatus)).getD .unconfirmed
  originalPaidAmount := (declaration.map (·.amountPaid)).getD ""
  previousVariationReference := ""
  lines := report.lines.map (invoiceLineInputFor (plans ++ report.sourcePlans) tariff)

/-- The lines for which no rate has been entered. -/
def unratedLines (input : PreviewInvoiceInput) (report : PreviewReport) :
    List PreviewReportLine :=
  report.lines.filter fun line =>
    ((inputFor input.lines line).map fun item => trim item.rate).getD "" = ""

/-- `missingInvoiceDetails`. -/
def missingInvoiceDetails (input : PreviewInvoiceInput) (report : PreviewReport) :
    List String :=
  (if trim input.payer = "" then ["Payer from the paid declaration"] else []) ++
  (if trim input.originalInvoiceReference = "" then ["Declaration invoice number"] else []) ++
  (if input.paymentStatus ≠ .paid ∧
      report.lines.any (fun line => aboveDeclaration line.quantity line.declaredQuantity) = true
    then ["Confirmation that the declaration is paid"] else []) ++
  (if trim input.tariffReference = "" then ["Variation tariff"] else []) ++
  (if unratedLines input report ≠ [] then
    ["Rate for " ++ ", ".intercalate ((unratedLines input report).map (·.description))] else [])

/-! ## The editor -/

/-- `Number(text) > 0`, of a text that `validMoney` accepts. -/
def positiveAmount (text : String) : Bool := 0 < (decimal (some text) 2 32).getD 0

def ratesValid (input : PreviewInvoiceInput) : Bool :=
  input.lines.all fun line => validRate line.rate && validMoney line.previousVariationAmount

def hasPrevious (input : PreviewInvoiceInput) : Bool :=
  input.lines.any fun line => positiveAmount line.previousVariationAmount

def canSave (canEdit : Bool) (report : PreviewReport) (input : PreviewInvoiceInput) : Bool :=
  canEdit && missingInvoiceDetails input report = [] && ratesValid input &&
    (calculateVariation report.lines input.lines).issues = [] &&
    (!hasPrevious input || trim input.previousVariationReference ≠ "") &&
    (input.originalPaidAmount = "" || validMoney input.originalPaidAmount)

end VesselCaller.Closeout
