import VesselCaller.Legacy.Importer

/-!
# The rows of a consistent snapshot

In a snapshot whose references resolve, the look-ups of the loops find what they look for, and
each loop is a batch of `update_or_create` of rows that are known beforehand.

* `Snapshot.Consistent` — keys that are unique, references that resolve, and a user in every
  organization;
* `Snapshot.Fits` — values in the ranges of the target columns, and totals in the digits that a
  decimal has;
* `Snapshot.target` — the rows;
* `importUsers_eq_ok`, `importCalls_eq`, `importInspections_eq`, `importInvoices_eq_ok` — the
  loops.
-/

namespace VesselCaller.Legacy

open Lib
open Billing (SequenceKind)

/-- Unique keys and references that resolve.  An invoice may have lost its inspection, and an
organization may have no settings. -/
structure Snapshot.Consistent (s : Snapshot) : Prop where
  organizationKeys : s.organizationIds.Nodup
  userKeys : (s.users.map UserRow.id).Nodup
  callKeys : s.callIds.Nodup
  inspectionKeys : s.inspectionIds.Nodup
  invoiceKeys : (s.invoices.map InvoiceRow.id).Nodup
  settingsKeys : (s.settings.map SettingsRow.orgId).Nodup
  users : ∀ row ∈ s.users, row.orgId ∈ s.organizationIds
  calls : ∀ row ∈ s.vesselCalls, row.orgId ∈ s.organizationIds
  inspections : ∀ row ∈ s.inspections, row.orgId ∈ s.organizationIds ∧ row.callId ∈ s.callIds
  invoices : ∀ row ∈ s.invoices, row.orgId ∈ s.organizationIds ∧ row.callId ∈ s.callIds ∧
    ∀ k, row.inspectionId = some k → k ∈ s.inspectionIds
  settings : ∀ row ∈ s.settings, row.orgId ∈ s.organizationIds
  staffed : ∀ o ∈ s.organizationIds, ∃ u ∈ s.users, u.orgId = o

/-- Values that fit the target columns, whatever the day of the import. -/
structure Snapshot.Fits (py : Python) (s : Snapshot) : Prop where
  organizations : ∀ row ∈ s.organizations, organizationSchema.fits (row.record py) = true
  settings : ∀ row ∈ s.organizations,
    settingsSchema.fits (settingsRecord (row.record py) (s.settingsByOrg row.id)) = true
  users : ∀ row ∈ s.users, userSchema.fits (row.record py) = true
  calls : ∀ row ∈ s.vesselCalls, vesselCallSchema.fits (row.record s) = true
  inspections : ∀ row ∈ s.inspections, inspectionSchema.fits (row.record s) = true
  invoices : ∀ row ∈ s.invoices, ∀ today k, invoiceSchema.fits (row.record today k) = true
  payments : ∀ row ∈ s.invoices, ∀ object, row.payment = some object → ∀ today k user,
    paymentSchema.fits (object.record py (row.record today k) user) = true
  totals : ∀ amount ∈ [InvoiceRow.dues, InvoiceRow.commissionUsd, InvoiceRow.commissionNgn],
    (s.invoices.map fun row => |asDecimal 2 (amount row)|).sum < 10 ^ 28

/-! ## The rows -/

/-- The invoice of a row. -/
def InvoiceRow.bill (today : Date) (row : InvoiceRow) : Invoice :=
  row.record today (row.inspectionId.getD "")

/-- Who has recorded the payment of a row. -/
def Snapshot.payer (s : Snapshot) (today : Date) (row : InvoiceRow) (object : PaymentObject) :
    String :=
  (recorder s (row.bill today) object).toOption.getD ""

/-- The payment in a row. -/
def InvoiceRow.paid (py : Python) (s : Snapshot) (today : Date) (row : InvoiceRow)
    (object : PaymentObject) : Payment :=
  object.record py (row.bill today) (s.payer today row object)

/-- The rows with a payment. -/
def Snapshot.paidRows (s : Snapshot) : List (InvoiceRow × PaymentObject) :=
  s.invoices.filterMap fun row => row.payment.map fun object => (row, object)

/-- The tables but for the sequences. -/
def Snapshot.tables (py : Python) (today : Date) (s : Snapshot) : Target where
  organizations := s.organizations.map fun row => row.record py
  settings := s.organizations.map fun row =>
    settingsRecord (row.record py) (s.settingsByOrg row.id)
  users := s.users.map fun row => row.record py
  vesselCalls := s.vesselCalls.map fun row => row.record s
  inspections := s.inspections.map fun row => row.record s
  invoices := s.invoices.map fun row => row.bill today
  payments := s.paidRows.map fun r => r.1.paid py s today r.2
  sequences := []

/-- What an import leaves of the snapshot. -/
def Snapshot.target (py : Python) (today : Date) (s : Snapshot) : Target :=
  { s.tables py today with sequences := (s.tables py today).rebuilt py.unicode }

variable {py : Python} {s : Snapshot} {today : Date}

theorem mem_paidRows {row : InvoiceRow} {object : PaymentObject} :
    (row, object) ∈ s.paidRows ↔ row ∈ s.invoices ∧ row.payment = some object := by
  simp only [Snapshot.paidRows, List.mem_filterMap, Option.map_eq_some_iff, Prod.mk.injEq]
  constructor
  · rintro ⟨row', hrow', object', hobject', rfl, rfl⟩
    exact ⟨hrow', hobject'⟩
  · rintro ⟨hrow, hobject⟩
    exact ⟨row, hrow, object, hobject, rfl, rfl⟩

/-- Each row has one payment at most. -/
theorem nodup_paidRows (hc : s.Consistent) : (s.paidRows.map fun r => r.1.id).Nodup := by
  have hids : (s.paidRows.map fun r => r.1.id) =
      (s.invoices.filter fun row => row.payment.isSome).map InvoiceRow.id := by
    rw [Snapshot.paidRows, List.map_filterMap, ← List.filterMap_eq_filter, List.map_filterMap]
    refine List.filterMap_congr fun row _ => ?_
    cases h : row.payment <;> simp [Option.guard, h]
  rw [hids]
  exact hc.invoiceKeys.sublist (List.filter_sublist.map InvoiceRow.id)

/-! ## The loops -/

@[simp] theorem lookUp_eq_ok {keys : List String} {k : String} {r : PUnit} :
    lookUp keys k = .ok r ↔ k ∈ keys := by
  rw [lookUp, raiseIf_eq_ok, not_not]

theorem lookUp_of_mem {keys : List String} {k : String} (h : k ∈ keys) : lookUp keys k = .ok ⟨⟩ :=
  lookUp_eq_ok.mpr h

/-- Users of one e-mail address each. -/
theorem exists_seeEmail {rows : List UserRow} {seen : List (String × String)}
    (hnd : (rows.map fun row => (row.orgId, row.identity py)).Nodup)
    (hfresh : ∀ row ∈ rows, (row.orgId, row.identity py) ∉ seen) :
    ∃ seen', rows.foldlM (seeEmail py) seen = .ok seen' := by
  induction rows generalizing seen with
  | nil => exact ⟨seen, rfl⟩
  | cons row rows ih =>
      rw [List.map_cons, List.nodup_cons] at hnd
      obtain ⟨hrow, hrows⟩ := List.forall_mem_cons.mp hfresh
      have hstep : seeEmail py seen row = .ok ((row.orgId, row.identity py) :: seen) := by
        rw [seeEmail, raiseIf_of_not hrow]
        rfl
      rw [List.foldlM_cons, hstep, ok_bind]
      refine ih hnd.2 fun other hother hseen => ?_
      rcases List.mem_cons.mp hseen with heq | hseen
      · refine hnd.1 ?_
        rw [← heq]
        exact List.mem_map_of_mem hother
      · exact hrows other hother hseen

theorem importUsers_eq_ok (hc : s.Consistent) {table users : List User}
    {seen : List (String × String)} :
    s.users.foldlM (importUser py s) ([], table) = .ok (seen, users) ↔
      s.users.foldlM (seeEmail py) [] = .ok seen ∧
        userSchema.upsertAll ImportError.outOfRange ImportError.duplicate table
          (s.users.map fun row => row.record py) = .ok users := by
  have hchecked : ∀ row ∈ s.users, row.checked py s = .ok (row.record py) := by
    intro row hrow
    rw [UserRow.checked, lookUp_of_mem (hc.users row hrow)]
    rfl
  rw [foldlM_prod_eq_ok (f := seeEmail py)
    (g := fun users row => row.checked py s >>=
      userSchema.upsert ImportError.outOfRange ImportError.duplicate users),
    foldlM_of_forall_eq_ok hchecked]
  · rfl
  · intro row _ state state'
    simp only [importUser, bind_eq_ok (b := state'), pure_eq_ok, Prod.ext_iff]
    constructor
    · rintro ⟨_, hseen, _, husers, rfl, rfl⟩
      exact ⟨hseen, husers⟩
    · rintro ⟨hseen, husers⟩
      exact ⟨_, hseen, _, husers, rfl, rfl⟩

theorem importCalls_eq (hc : s.Consistent) (table : List VesselCall) :
    s.vesselCalls.foldlM (importCall s) table =
      vesselCallSchema.upsertAll ImportError.outOfRange ImportError.duplicate table
        (s.vesselCalls.map fun row => row.record s) := by
  refine foldlM_of_forall_eq_ok (fun row hrow => ?_) table
  rw [VesselCallRow.checked, lookUp_of_mem (hc.calls row hrow)]
  rfl

theorem importInspections_eq (hc : s.Consistent) (table : List Inspection) :
    s.inspections.foldlM (importInspection s) table =
      inspectionSchema.upsertAll ImportError.outOfRange ImportError.duplicate table
        (s.inspections.map fun row => row.record s) := by
  refine foldlM_of_forall_eq_ok (fun row hrow => ?_) table
  obtain ⟨horganization, hcall⟩ := hc.inspections row hrow
  rw [InspectionRow.checked, lookUp_of_mem horganization, lookUp_of_mem hcall]
  rfl

theorem invoice_checked_eq_ok (hc : s.Consistent) {row : InvoiceRow} (hrow : row ∈ s.invoices)
    {invoice : Invoice} : row.checked s today = .ok invoice ↔
      row.inspectionId ≠ none ∧ invoice = row.bill today := by
  obtain ⟨horganization, hcall, hinspection⟩ := hc.invoices row hrow
  rw [InvoiceRow.checked, lookUp_of_mem horganization, lookUp_of_mem hcall, InvoiceRow.bill]
  cases hk : row.inspectionId with
  | none => simp [ok_bind, orRaise, bind_eq_ok]
  | some k =>
      simp only [ok_bind, orRaise, lookUp_of_mem (hinspection k hk), pure_eq_ok, ne_eq,
        reduceCtorEq, not_false_eq_true, true_and, Option.getD_some, eq_comm (b := invoice)]

/-- Somebody of the organization can be named. -/
theorem recorder_eq_ok (hc : s.Consistent) {row : InvoiceRow} (hrow : row ∈ s.invoices)
    (object : PaymentObject) :
    recorder s (row.bill today) object = .ok (s.payer today row object) := by
  obtain ⟨user, huser, horganization⟩ := hc.staffed row.orgId (hc.invoices row hrow).1
  have hsome : ∃ u, recorder s (row.bill today) object = .ok u := by
    simp only [recorder, orRaise_eq_ok, ← Option.isSome_iff_exists, Option.isSome_or,
      Option.isSome_map, List.find?_isSome, Bool.or_eq_true]
    exact .inr ⟨user, huser, decide_eq_true horganization⟩
  obtain ⟨u, hu⟩ := hsome
  rw [Snapshot.payer, hu]
  rfl

/-- A round over `invoices` writes the invoice of the row, and its payment. -/
theorem importInvoice_eq_ok (hc : s.Consistent) {row : InvoiceRow} (hrow : row ∈ s.invoices)
    (hinspected : row.inspectionId ≠ none) {books books' : List Invoice × List Payment} :
    importInvoice py s today books row = .ok books' ↔
      invoiceSchema.upsert ImportError.outOfRange ImportError.duplicate books.1
          (row.bill today) = .ok books'.1 ∧
        writeSome (paymentSchema.upsert ImportError.outOfRange ImportError.duplicate) books.2
          (row.payment.map (row.paid py s today)) = .ok books'.2 := by
  have hchecked : row.checked s today = .ok (row.bill today) :=
    (invoice_checked_eq_ok hc hrow).mpr ⟨hinspected, rfl⟩
  rw [importInvoice, hchecked, ok_bind, bind_eq_ok]
  cases row.payment with
  | none =>
      simp only [Option.map_none, writeSome, pure_eq_ok, Prod.ext_iff]
      constructor
      · rintro ⟨_, hinvoices, rfl, hpayments⟩
        exact ⟨hinvoices, hpayments⟩
      · rintro ⟨hinvoices, hpayments⟩
        exact ⟨_, hinvoices, rfl, hpayments⟩
  | some object =>
      simp only [Option.map_some, writeSome, recorder_eq_ok hc hrow, ok_bind,
        bind_eq_ok (b := books'), pure_eq_ok, Prod.ext_iff]
      constructor
      · rintro ⟨_, hinvoices, _, hpayments, rfl, rfl⟩
        exact ⟨hinvoices, hpayments⟩
      · rintro ⟨hinvoices, hpayments⟩
        exact ⟨_, hinvoices, _, hpayments, rfl, rfl⟩

theorem importInvoices_eq_ok (hc : s.Consistent)
    (hinspected : ∀ row ∈ s.invoices, row.inspectionId ≠ none)
    {books books' : List Invoice × List Payment} :
    s.invoices.foldlM (importInvoice py s today) books = .ok books' ↔
      invoiceSchema.upsertAll ImportError.outOfRange ImportError.duplicate books.1
          (s.invoices.map fun row => row.bill today) = .ok books'.1 ∧
        paymentSchema.upsertAll ImportError.outOfRange ImportError.duplicate books.2
          (s.paidRows.map fun r => r.1.paid py s today r.2) = .ok books'.2 := by
  have hpaid : (s.paidRows.map fun r => r.1.paid py s today r.2) =
      s.invoices.filterMap fun row => row.payment.map (row.paid py s today) := by
    simp only [Snapshot.paidRows, List.map_filterMap, Option.map_map, Function.comp_def]
  rw [foldlM_prod_eq_ok
    (f := fun invoices (row : InvoiceRow) =>
      invoiceSchema.upsert ImportError.outOfRange ImportError.duplicate invoices (row.bill today))
    (g := fun payments row =>
      writeSome (paymentSchema.upsert ImportError.outOfRange ImportError.duplicate) payments
        (row.payment.map (row.paid py s today)))
    (fun row hrow _ _ => importInvoice_eq_ok hc hrow (hinspected row hrow)),
    foldlM_writeSome, hpaid, Schema.upsertAll, Schema.upsertAll, List.foldlM_map]

end VesselCaller.Legacy
