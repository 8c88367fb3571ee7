import VesselCaller.Legacy.Snapshot
import VesselCaller.Legacy.Sequences
import VesselCaller.Lib.Numerals
import VesselCaller.Lib.Precision

/-!
# `import_legacy_sqlite`

`_import` writes the six tables of a snapshot and the payments in its invoices, rebuilds the
number sequences of every organization and counts what it has written.  The whole of it is one
transaction: an error leaves nothing.

* `Target` — the tables it writes;
* `importUser`, `VesselCallRow.checked`, `importInvoice`, … — one round of each loop;
* `rebuildSequences` — `_rebuild_sequences`;
* `importSnapshot` — `_import`, with the manifest it returns;
* `Snapshot.totals` — the totals of `_source_manifest`.

A dictionary look-up that fails is a `KeyError`.
-/

namespace VesselCaller.Legacy

open Lib
open Billing (SequenceKind)

/-- What ends an import. -/
inductive ImportError where
  | commandError (text : String)
  | keyError (key : String)
  | stopIteration
  | outOfRange
  | duplicate
  deriving DecidableEq, Repr

/-- The counter of an organization, a kind and a year. -/
structure NumberSequence where
  organization : String
  kind : SequenceKind
  year : ℤ
  value : ℤ
  deriving DecidableEq, Repr

instance : Keyed NumberSequence (String × SequenceKind × ℤ) :=
  ⟨fun q => (q.organization, q.kind, q.year)⟩

/-- `PositiveSmallIntegerField` and `PositiveIntegerField`. -/
def numberSequenceSchema : Schema NumberSequence where
  fits q := decide (0 ≤ q.year ∧ q.year ≤ 32767) && decide (0 ≤ q.value ∧ q.value ≤ 2147483647)
  uniques := []

/-- The tables of the new database. -/
structure Target where
  organizations : List Organization
  settings : List OrganizationSettings
  users : List User
  vesselCalls : List VesselCall
  inspections : List Inspection
  invoices : List Invoice
  payments : List Payment
  sequences : List NumberSequence

/-- A database with nothing in it. -/
def Target.empty : Target := ⟨[], [], [], [], [], [], [], []⟩

/-- `model.objects.exists()` for one of the five models. -/
def Target.occupied (t : Target) : Bool :=
  !(t.organizations.isEmpty && t.users.isEmpty && t.vesselCalls.isEmpty &&
    t.inspections.isEmpty && t.invoices.isEmpty)

/-! ## The dictionaries -/

section Loops

variable (py : Python) (s : Snapshot) (today : Date)

/-- `dictionary[key]`, for what it finds nothing of is used but the key. -/
def lookUp (keys : List String) (k : String) : Except ImportError PUnit :=
  raiseIf (k ∉ keys) (.keyError k)

def Snapshot.organizationIds : List String := s.organizations.map OrganizationRow.id

def Snapshot.callIds : List String := s.vesselCalls.map VesselCallRow.id

def Snapshot.inspectionIds : List String := s.inspections.map InspectionRow.id

/-- `settings_by_org.get(org_id, {})`. -/
def Snapshot.settingsByOrg (organization : String) : Option SettingsRow :=
  s.settings.reverse.find? fun row => decide (row.orgId = organization)

/-! ## The loops -/

def importOrganizations (table : List Organization) : Except ImportError (List Organization) :=
  organizationSchema.upsertAll .outOfRange .duplicate table
    (s.organizations.map fun row => row.record py)

def importSettings (table : List OrganizationSettings) :
    Except ImportError (List OrganizationSettings) :=
  settingsSchema.upsertAll .outOfRange .duplicate table
    (s.organizations.map fun row => settingsRecord (row.record py) (s.settingsByOrg row.id))

/-- `seen_emails`. -/
def seeEmail (seen : List (String × String)) (row : UserRow) :
    Except ImportError (List (String × String)) := do
  raiseIf ((row.orgId, row.identity py) ∈ seen)
    (.commandError "Legacy data contains a duplicate organization email")
  return (row.orgId, row.identity py) :: seen

def UserRow.checked (row : UserRow) : Except ImportError User := do
  lookUp s.organizationIds row.orgId
  return row.record py

/-- One round over `users`. -/
def importUser (state : List (String × String) × List User) (row : UserRow) :
    Except ImportError (List (String × String) × List User) := do
  return (← seeEmail py state.1 row,
    ← row.checked py s >>= userSchema.upsert .outOfRange .duplicate state.2)

def VesselCallRow.checked (row : VesselCallRow) : Except ImportError VesselCall := do
  lookUp s.organizationIds row.orgId
  return row.record s

/-- One round over `vessel_calls`. -/
def importCall (table : List VesselCall) (row : VesselCallRow) :
    Except ImportError (List VesselCall) :=
  row.checked s >>= vesselCallSchema.upsert .outOfRange .duplicate table

def InspectionRow.checked (row : InspectionRow) : Except ImportError Inspection := do
  lookUp s.organizationIds row.orgId
  lookUp s.callIds row.callId
  return row.record s

/-- One round over `inspections`. -/
def importInspection (table : List Inspection) (row : InspectionRow) :
    Except ImportError (List Inspection) :=
  row.checked s >>= inspectionSchema.upsert .outOfRange .duplicate table

def InvoiceRow.checked (row : InvoiceRow) : Except ImportError Invoice := do
  lookUp s.organizationIds row.orgId
  lookUp s.callIds row.callId
  -- the key of an invoice without an inspection is `None`, which no inspection has
  let inspection ← orRaise row.inspectionId (.keyError "None")
  lookUp s.inspectionIds inspection
  return row.record today inspection

/-- `user_by_id.get(recordedBy) or next(user of the organization)`. -/
def recorder (invoice : Invoice) (object : PaymentObject) : Except ImportError String :=
  orRaise ((s.userById object.recordedBy).or
    ((s.users.find? fun u => decide (u.orgId = invoice.organization)).map UserRow.id))
    .stopIteration

/-- One round over `invoices`: the invoice, and its payment if one is recorded. -/
def importInvoice (books : List Invoice × List Payment) (row : InvoiceRow) :
    Except ImportError (List Invoice × List Payment) := do
  let invoice ← row.checked s today
  let invoices ← invoiceSchema.upsert .outOfRange .duplicate books.1 invoice
  match row.payment with
  | none => return (invoices, books.2)
  | some object =>
      let user ← recorder s invoice object
      let payments ← paymentSchema.upsert .outOfRange .duplicate books.2
        (object.record py invoice user)
      return (invoices, payments)

end Loops

/-! ## `_rebuild_sequences` -/

/-- The counters of an organization and a kind, of the numbers in use. -/
def rebuilt (u : Unicode) (organization : String) (kind : SequenceKind) (stem : String)
    (values : List String) : List NumberSequence :=
  (byYear u stem values).entries.map fun e => ⟨organization, kind, e.1, e.2⟩

/-- The counters of every organization. -/
def Target.rebuilt (u : Unicode) (t : Target) : List NumberSequence :=
  t.organizations.flatMap fun o =>
    Legacy.rebuilt u o.id .invoice "INV"
      ((t.invoices.filter fun i => decide (i.organization = o.id)).map Invoice.invoiceNo) ++
    Legacy.rebuilt u o.id .inspection "INS"
      ((t.inspections.filter fun i => decide (i.organization = o.id)).map Inspection.reference)

/-- `_rebuild_sequences`. -/
def rebuildSequences (u : Unicode) (t : Target) : Except ImportError (List NumberSequence) :=
  numberSequenceSchema.upsertAll .outOfRange .duplicate t.sequences (t.rebuilt u)

/-! ## The manifest -/

/-- How many rows of each table. -/
structure Counts where
  organizations : ℕ
  users : ℕ
  vesselCalls : ℕ
  inspections : ℕ
  invoices : ℕ
  settings : ℕ
  deriving DecidableEq, Repr

/-- The totals of the manifest, as `str` prints them. -/
structure FinancialTotals where
  dues : String
  commissionUsd : String
  commissionNgn : String
  deriving DecidableEq, Repr

/-- `str(sum(amounts))`: the sum of no amounts is the number zero. -/
def totalText (amounts : List (Decimal 2)) : String :=
  if amounts = [] then "0"
  else
    let total := sumIn 28 amounts
    (if total < 0 then "-" else "") ++ String.ofList (writeScaled 2 total.natAbs)

/-- The counts of the source. -/
def Snapshot.counts (s : Snapshot) : Counts :=
  ⟨s.organizations.length, s.users.length, s.vesselCalls.length, s.inspections.length,
    s.invoices.length, s.settings.length⟩

/-- `financialTotals` of `_source_manifest`. -/
def Snapshot.totals (s : Snapshot) : FinancialTotals where
  dues := totalText (s.invoices.map fun row => asDecimal 2 row.dues)
  commissionUsd := totalText (s.invoices.map fun row => asDecimal 2 row.commissionUsd)
  commissionNgn := totalText (s.invoices.map fun row => asDecimal 2 row.commissionNgn)

/-- `model.objects.filter(id__in=keys).count()`. -/
def countIn {α : Type} [Keyed α String] (keys : List String) (rows : List α) : ℕ :=
  rows.countP fun a => decide (key a ∈ keys)

/-- `target_counts`. -/
def Target.counts (s : Snapshot) (t : Target) : Counts where
  organizations := countIn s.organizationIds t.organizations
  users := countIn (s.users.map UserRow.id) t.users
  vesselCalls := countIn s.callIds t.vesselCalls
  inspections := countIn s.inspectionIds t.inspections
  invoices := countIn (s.invoices.map InvoiceRow.id) t.invoices
  settings := countIn s.organizationIds t.settings

/-- `imported_invoices`, the last issued first. -/
def Target.importedInvoices (s : Snapshot) (t : Target) : List Invoice :=
  (t.invoices.filter fun i => decide (i.id ∈ s.invoices.map InvoiceRow.id)).insertionSort
    fun i i' => i'.issuedOn ≤ i.issuedOn

/-- `financialTotals` of what `_import` returns. -/
def Target.totals (s : Snapshot) (t : Target) : FinancialTotals where
  dues := totalText ((t.importedInvoices s).map Invoice.dues)
  commissionUsd := totalText ((t.importedInvoices s).map Invoice.commissionUsd)
  commissionNgn := totalText ((t.importedInvoices s).map Invoice.commissionNgn)

/-- What `_import` returns. -/
structure Manifest where
  counts : Counts
  financialTotals : FinancialTotals
  deriving DecidableEq, Repr

/-- `_import`. -/
def importSnapshot (py : Python) (today : Date) (merge : Bool) (t : Target) (s : Snapshot) :
    Except ImportError (Target × Manifest) := do
  raiseIf (merge = false ∧ t.occupied = true)
    (.commandError "Target database is not empty; use --merge after reconciliation")
  let organizations ← importOrganizations py s t.organizations
  let settings ← importSettings py s t.settings
  let (_, users) ← s.users.foldlM (importUser py s) ([], t.users)
  let vesselCalls ← s.vesselCalls.foldlM (importCall s) t.vesselCalls
  let inspections ← s.inspections.foldlM (importInspection s) t.inspections
  let (invoices, payments) ←
    s.invoices.foldlM (importInvoice py s today) (t.invoices, t.payments)
  let t : Target :=
    ⟨organizations, settings, users, vesselCalls, inspections, invoices, payments, t.sequences⟩
  let sequences ← rebuildSequences py.unicode t
  let t := { t with sequences := sequences }
  raiseIf (t.counts s ≠ s.counts) (.commandError "Reconciliation count mismatch")
  return (t, ⟨t.counts s, t.totals s⟩)

end VesselCaller.Legacy
