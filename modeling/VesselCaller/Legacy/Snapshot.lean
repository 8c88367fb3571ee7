import VesselCaller.Core
import VesselCaller.Lib.PyInt
import VesselCaller.Lib.Upsert
import Mathlib.Data.Rat.Floor

/-!
# The legacy snapshot and the rows made of it

`import_legacy_sqlite` reads six tables of the old SQLite database and writes the rows of the
new one.

* `Snapshot` — the six tables, as the columns read: a number as the decimal its text spells, a
  JSON column as `as_json` finds it, a date as `parse_date` and `aware_datetime` do;
* the target rows, and the ranges and unique indexes of their tables (`…Schema`);
* `….record` — the `defaults` of each `update_or_create`.

A key is a text here: the importer takes over the keys of the old database.
-/

namespace VesselCaller.Legacy

open Lib

/-! ## What the interpreter brings -/

/-- The functions of Python's library that the importer calls. -/
structure Python where
  unicode : Unicode
  /-- `text.lower()`. -/
  lower : String → String
  /-- `hashlib.sha256(text.encode()).hexdigest()`. -/
  sha256 : String → String

/-- `text.strip()`. -/
def Python.strip (py : Python) (text : String) : String :=
  String.ofList (pyStrip py.unicode text.toList)

/-- `value or default` for a text that may be missing. -/
def textOr (value : Option String) (default : String) : String :=
  match value with
  | some text => if text = "" then default else text
  | none => default

/-- `as_decimal`: the number in units of `10^(-places)`, half away from zero. -/
def asDecimal (places : ℕ) (value : Option ℚ) : ℤ :=
  let q := value.getD 0
  q.num.sign * ⌊|q| * 10 ^ places + 1 / 2⌋

/-! ## The six tables -/

/-- A row of `organizations`, with the key under which `_import_logo` has stored its logo. -/
structure OrganizationRow where
  id : String
  registered : Bool
  name : Option String
  rcNumber : Option String
  email : Option String
  phone : Option String
  address : Option String
  primaryPort : Option String
  ports : Option Json
  logoKey : String
  rev : Option ℤ

/-- The three rates of `liquid_dues_rates`: a rate may be missing, and it may be `null`. -/
structure LiquidRates where
  government : Option (Option ℚ)
  priv : Option (Option ℚ)
  international : Option (Option ℚ)

/-- A row of `settings`. -/
structure SettingsRow where
  orgId : String
  commissionRate : Option ℚ
  exchangeRate : Option ℚ
  liquidDuesRates : Option LiquidRates
  dryDuesRate : Option ℚ
  portName : Option String
  terminals : Option Json

/-- A row of `users`. -/
structure UserRow where
  id : String
  orgId : String
  name : Option String
  email : Option String
  passwordHash : String
  role : Option String
  active : Bool

/-- A row of `vessel_calls`. -/
structure VesselCallRow where
  id : String
  orgId : String
  vesselName : Option String
  reference : Option String
  type : Option String
  flag : Option String
  nrt : Option ℚ
  eta : Option Instant
  sailingEta : Option Instant
  berth : Option String
  berthDate : Option Date
  status : Option String
  notes : Option String
  createdBy : Option String

/-- A row of `inspections`. -/
structure InspectionRow where
  id : String
  orgId : String
  callId : String
  reference : Option String
  vesselName : Option String
  cargoType : Option String
  product : Option String
  reconciledTonnage : Option ℚ
  jetty : Option Json
  liquid : Option Json
  dry : Option Json
  date : Option Instant
  status : Option String
  createdBy : Option String

/-- The object in the `payment` column of an invoice. -/
structure PaymentObject where
  amount : Option (Option ℚ)
  paidOn : Option Date
  method : Option String
  reference : Option String
  recordedBy : Option String

/-- A row of `invoices`.  Its inspection may have been deleted since (`ON DELETE SET NULL`). -/
structure InvoiceRow where
  id : String
  orgId : String
  callId : String
  inspectionId : Option String
  invoiceNo : Option String
  cargoType : Option String
  issued : Option Date
  due : Option Date
  status : Option String
  dues : Option ℚ
  rate : Option ℚ
  commissionUsd : Option ℚ
  commissionNgn : Option ℚ
  fx : Option ℚ
  payment : Option PaymentObject

/-- What the importer reads of the old database. -/
structure Snapshot where
  organizations : List OrganizationRow
  users : List UserRow
  vesselCalls : List VesselCallRow
  inspections : List InspectionRow
  invoices : List InvoiceRow
  settings : List SettingsRow

/-! ## The rows of the new database -/

structure Organization where
  id : String
  registered : Bool
  name : String
  rcNumber : String
  email : String
  phone : String
  address : String
  primaryPort : String
  ports : Json
  logoObjectKey : String
  revision : ℤ

structure OrganizationSettings where
  organization : String
  commissionRate : Decimal 4
  exchangeRate : Decimal 4
  governmentLiquidRate : Decimal 4
  privateLiquidRate : Decimal 4
  internationalLiquidRate : Decimal 4
  dryDuesRate : Decimal 4
  portName : String
  terminals : Json

structure User where
  id : String
  organization : String
  name : String
  email : String
  password : String
  role : String
  active : Bool

structure VesselCall where
  id : String
  organization : String
  vesselName : String
  reference : String
  vesselType : String
  flag : String
  nrt : Decimal 3
  eta : Option Instant
  sailingEta : Option Instant
  berth : String
  berthDate : Option Date
  status : String
  notes : String
  createdBy : Option String

structure Inspection where
  id : String
  organization : String
  vesselCall : String
  reference : String
  vesselName : String
  cargoType : String
  product : String
  reconciledTonnage : Decimal 3
  jetty : Json
  liquid : Json
  dry : Json
  status : String
  completedAt : Option Instant
  createdBy : Option String

structure Invoice where
  id : String
  organization : String
  vesselCall : String
  inspection : String
  invoiceNo : String
  cargoType : String
  issuedOn : Date
  dueOn : Date
  status : String
  dues : Decimal 2
  rate : Decimal 4
  commissionUsd : Decimal 2
  commissionNgn : Decimal 2
  exchangeRate : Decimal 4

structure Payment where
  id : String
  invoice : String
  amount : Decimal 2
  paidOn : Date
  method : String
  reference : String
  recordedBy : String

instance : Keyed Organization String := ⟨Organization.id⟩
instance : Keyed OrganizationSettings String := ⟨OrganizationSettings.organization⟩
instance : Keyed User String := ⟨User.id⟩
instance : Keyed VesselCall String := ⟨VesselCall.id⟩
instance : Keyed Inspection String := ⟨Inspection.id⟩
instance : Keyed Invoice String := ⟨Invoice.id⟩
instance : Keyed Payment String := ⟨Payment.id⟩

/-! ## Their tables -/

/-- A text column. -/
def varchar (maxLength : ℕ) (text : String) : Bool := decide (text.length ≤ maxLength)

/-- A decimal column, in units of its last place. -/
def numeric (maxDigits : ℕ) (units : ℤ) : Bool := decide (|units| < 10 ^ maxDigits)

/-- A JSON column that takes no `NULL`. -/
def Json.present : Json → Bool
  | .null => false
  | _ => true

def organizationSchema : Schema Organization where
  fits o := varchar 32 o.id && varchar 255 o.name && varchar 100 o.rcNumber &&
    varchar 254 o.email && varchar 50 o.phone && varchar 255 o.primaryPort &&
    Json.present o.ports && varchar 1024 o.logoObjectKey &&
    decide (0 ≤ o.revision ∧ o.revision < 2 ^ 63)
  uniques := []

def settingsSchema : Schema OrganizationSettings where
  fits s := numeric 7 s.commissionRate && numeric 14 s.exchangeRate &&
    numeric 12 s.governmentLiquidRate && numeric 12 s.privateLiquidRate &&
    numeric 12 s.internationalLiquidRate && numeric 12 s.dryDuesRate &&
    varchar 255 s.portName && Json.present s.terminals
  uniques := []

def userSchema : Schema User where
  fits u := varchar 32 u.id && varchar 255 u.name && varchar 254 u.email &&
    varchar 128 u.password && ["Admin", "Operations", "Finance", "Viewer"].contains u.role
  uniques := [fun u => some [u.organization, u.email]]

def vesselCallSchema : Schema VesselCall where
  fits c := varchar 32 c.id && varchar 255 c.vesselName && varchar 100 c.reference &&
    varchar 100 c.vesselType && varchar 100 c.flag && numeric 16 c.nrt && decide (0 ≤ c.nrt) &&
    varchar 255 c.berth &&
    ["pending", "in-progress", "completed", "cancelled"].contains c.status
  uniques := [fun c => some [c.organization, c.reference]]

def inspectionSchema : Schema Inspection where
  fits i := varchar 32 i.id && varchar 100 i.reference && varchar 255 i.vesselName &&
    varchar 20 i.cargoType && varchar 100 i.product && numeric 16 i.reconciledTonnage &&
    decide (0 ≤ i.reconciledTonnage) && varchar 20 i.status
  uniques := [fun i => some [i.organization, i.reference]]

def invoiceSchema : Schema Invoice where
  fits i := varchar 32 i.id && varchar 100 i.invoiceNo && varchar 20 i.cargoType &&
    varchar 20 i.status && numeric 18 i.dues && decide (0 ≤ i.dues) && numeric 12 i.rate &&
    numeric 18 i.commissionUsd && numeric 18 i.commissionNgn && numeric 14 i.exchangeRate
  uniques := [fun i => some [i.organization, i.invoiceNo], fun i => some [i.inspection]]

def paymentSchema : Schema Payment where
  fits p := varchar 32 p.id && numeric 18 p.amount && decide (0 < p.amount) &&
    varchar 100 p.method && varchar 255 p.reference
  uniques := [fun p => some [p.invoice, p.reference]]

/-! ## The rows that the importer makes -/

/-- `as_json(value, [])`. -/
def jsonOr (value : Option Json) (fallback : Json) : Json := value.getD fallback

def OrganizationRow.record (py : Python) (row : OrganizationRow) : Organization where
  id := row.id
  registered := row.registered
  name := textOr row.name ""
  rcNumber := textOr row.rcNumber ""
  email := py.lower (textOr row.email "")
  phone := textOr row.phone ""
  address := textOr row.address ""
  primaryPort := textOr row.primaryPort "Port of Calabar"
  ports := jsonOr row.ports (.arr [])
  logoObjectKey := row.logoKey
  revision := row.rev.getD 0

/-- The settings of an organization, of its row or by default. -/
def settingsRecord (organization : Organization) (row : Option SettingsRow) :
    OrganizationSettings :=
  let liquid := row.bind SettingsRow.liquidDuesRates
  { organization := organization.id
    commissionRate := asDecimal 4 ((row.map SettingsRow.commissionRate).getD (some 3.5))
    exchangeRate := asDecimal 4 ((row.map SettingsRow.exchangeRate).getD (some 1600))
    governmentLiquidRate := asDecimal 4 ((liquid.bind LiquidRates.government).getD (some 1.68))
    privateLiquidRate := asDecimal 4 ((liquid.bind LiquidRates.priv).getD (some 2.88))
    internationalLiquidRate :=
      asDecimal 4 ((liquid.bind LiquidRates.international).getD (some 4.23))
    dryDuesRate := asDecimal 4 ((row.map SettingsRow.dryDuesRate).getD (some 2.17))
    portName := textOr (row.bind SettingsRow.portName) organization.primaryPort
    terminals := jsonOr (row.bind SettingsRow.terminals) (.arr []) }

/-- `(row["email"] or "").strip().lower()`. -/
def UserRow.identity (py : Python) (row : UserRow) : String :=
  py.lower (py.strip (textOr row.email ""))

def UserRow.record (py : Python) (row : UserRow) : User where
  id := row.id
  organization := row.orgId
  name := textOr row.name (row.identity py)
  email := row.identity py
  password := row.passwordHash
  role := textOr row.role "Viewer"
  active := row.active

/-- `user_by_id.get(key)`. -/
def Snapshot.userById (s : Snapshot) (key : Option String) : Option String :=
  key.filter fun k => s.users.any fun u => decide (u.id = k)

def VesselCallRow.record (s : Snapshot) (row : VesselCallRow) : VesselCall where
  id := row.id
  organization := row.orgId
  vesselName := textOr row.vesselName ""
  reference := textOr row.reference ""
  vesselType := textOr row.type ""
  flag := textOr row.flag ""
  nrt := asDecimal 3 row.nrt
  eta := row.eta
  sailingEta := row.sailingEta
  berth := textOr row.berth ""
  berthDate := row.berthDate
  status := textOr row.status "pending"
  notes := textOr row.notes ""
  createdBy := s.userById row.createdBy

def InspectionRow.record (s : Snapshot) (row : InspectionRow) : Inspection where
  id := row.id
  organization := row.orgId
  vesselCall := row.callId
  reference := textOr row.reference ""
  vesselName := textOr row.vesselName ""
  cargoType := textOr row.cargoType "Liquid"
  product := textOr row.product ""
  reconciledTonnage := asDecimal 3 row.reconciledTonnage
  jetty := jsonOr row.jetty .null
  liquid := jsonOr row.liquid .null
  dry := jsonOr row.dry .null
  status := textOr row.status "completed"
  completedAt := if row.status = some "completed" then row.date else none
  createdBy := s.userById row.createdBy

/-- The invoice of a row whose inspection is found. -/
def InvoiceRow.record (today : Date) (inspection : String) (row : InvoiceRow) : Invoice :=
  let issued := row.issued.getD today
  { id := row.id
    organization := row.orgId
    vesselCall := row.callId
    inspection := inspection
    invoiceNo := textOr row.invoiceNo ""
    cargoType := textOr row.cargoType ""
    issuedOn := issued
    dueOn := row.due.getD issued
    status := textOr row.status "unpaid"
    dues := asDecimal 2 row.dues
    rate := asDecimal 4 row.rate
    commissionUsd := asDecimal 2 row.commissionUsd
    commissionNgn := asDecimal 2 row.commissionNgn
    exchangeRate := asDecimal 4 row.fx }

/-- `"pay-" + hashlib.sha256(invoice.id.encode()).hexdigest()[:12]`. -/
def Python.paymentId (py : Python) (invoice : String) : String :=
  "pay-" ++ String.ofList ((py.sha256 invoice).toList.take 12)

/-- The payment of an invoice, of the object in its row. -/
def PaymentObject.record (py : Python) (invoice : Invoice) (recorder : String)
    (object : PaymentObject) : Payment where
  id := py.paymentId invoice.id
  invoice := invoice.id
  amount := (object.amount.map (asDecimal 2)).getD invoice.dues
  paidOn := object.paidOn.getD invoice.issuedOn
  method := textOr object.method "Legacy import"
  reference := textOr object.reference ("legacy-" ++ invoice.id)
  recordedBy := recorder

end VesselCaller.Legacy
