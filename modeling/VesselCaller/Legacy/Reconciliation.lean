import VesselCaller.Legacy.Records

/-!
# The import reconciles

An import into an empty database goes through and reconciles exactly when the snapshot is
*importable* (`reconciles_iff`).  Among the things that takes are two that the importer means to
do without: a settings row for every organization, since the counts of the source and of the
target must agree and the default settings of an organization without one count in the target
only, and an inspection for every invoice, since the look-up of a deleted one fails.

* `Snapshot.Importable` — what the importer needs;
* `Reconciles` — what is asked of it;
* `importSnapshot_target` — the run on an importable snapshot, into an empty database or over an
  earlier import of it.
-/

namespace VesselCaller.Legacy

open Lib
open Billing (SequenceKind)

/-- What the importer needs of a snapshot. -/
structure Snapshot.Importable (py : Python) (s : Snapshot) : Prop where
  settings : ∀ o ∈ s.organizationIds, ∃ row ∈ s.settings, row.orgId = o
  inspected : ∀ row ∈ s.invoices, row.inspectionId ≠ none
  emails : (s.users.map fun row => (row.orgId, row.identity py)).Nodup
  callReferences : (s.vesselCalls.map fun row => (row.orgId, textOr row.reference "")).Nodup
  inspectionReferences : (s.inspections.map fun row => (row.orgId, textOr row.reference "")).Nodup
  invoiceNumbers : (s.invoices.map fun row => (row.orgId, textOr row.invoiceNo "")).Nodup
  billedOnce : (s.invoices.map InvoiceRow.inspectionId).Nodup
  paymentIds : ∀ row ∈ s.invoices, ∀ row' ∈ s.invoices, row.payment.isSome = true →
    row'.payment.isSome = true → py.paymentId row.id = py.paymentId row'.id → row.id = row'.id
  invoiceSequences : ∀ row ∈ s.invoices, ∀ year counter,
    documentNumber py.unicode "INV" (textOr row.invoiceNo "") = some (year, counter) →
      0 ≤ year ∧ year ≤ 32767 ∧ counter ≤ 2147483647
  inspectionSequences : ∀ row ∈ s.inspections, ∀ year counter,
    documentNumber py.unicode "INS" (textOr row.reference "") = some (year, counter) →
      0 ≤ year ∧ year ≤ 32767 ∧ counter ≤ 2147483647

/-- An invoice but for its dates, which an import takes from its day where the row has none. -/
def Invoice.undated (i : Invoice) : Invoice := { i with issuedOn := 0, dueOn := 0 }

/-- A payment but for its date. -/
def Payment.undated (p : Payment) : Payment := { p with paidOn := 0 }

/-- The same rows, but for the dates. -/
structure Target.SameBooks (t t' : Target) : Prop where
  organizations : t'.organizations = t.organizations
  settings : t'.settings = t.settings
  users : t'.users = t.users
  vesselCalls : t'.vesselCalls = t.vesselCalls
  inspections : t'.inspections = t.inspections
  invoices : t'.invoices.map Invoice.undated = t.invoices.map Invoice.undated
  payments : t'.payments.map Payment.undated = t.payments.map Payment.undated
  sequences : t'.sequences = t.sequences

/-- The import into an empty database goes through on every day, its totals are those of the
source manifest, every invoice with a recorded payment has one payment, and on any later day the
same import with `--merge` leaves the books as they are. -/
def Reconciles (py : Python) (s : Snapshot) : Prop :=
  ∀ today, ∃ t m, importSnapshot py today false .empty s = .ok (t, m) ∧
    m.financialTotals = s.totals ∧
    (∀ row ∈ s.invoices, row.payment.isSome = true →
      (t.payments.filter fun p => decide (p.invoice = row.id)).length = 1) ∧
    ∀ today', ∃ t' m', importSnapshot py today' true t s = .ok (t', m') ∧ t.SameBooks t'

variable {py : Python} {s : Snapshot} {today : Date}

/-! ## Settings -/

/-- Every organization has its settings when there are as many. -/
theorem settings_iff (hc : s.Consistent) :
    (∀ o ∈ s.organizationIds, ∃ row ∈ s.settings, row.orgId = o) ↔
      s.organizations.length = s.settings.length := by
  have hsubset : (s.settings.map SettingsRow.orgId) ⊆ s.organizationIds := by
    intro o ho
    obtain ⟨row, hrow, rfl⟩ := List.mem_map.mp ho
    exact hc.settings row hrow
  have hsubperm : List.Subperm (s.settings.map SettingsRow.orgId) s.organizationIds :=
    List.subperm_of_subset hc.settingsKeys hsubset
  constructor
  · intro h
    have hback : s.organizationIds ⊆ s.settings.map SettingsRow.orgId := by
      intro o ho
      obtain ⟨row, hrow, rfl⟩ := h o ho
      exact List.mem_map_of_mem hrow
    have hperm := hsubperm.antisymm (List.subperm_of_subset hc.organizationKeys hback)
    simpa [Snapshot.organizationIds] using hperm.length_eq.symm
  · intro h o ho
    have hperm := hsubperm.perm_of_length_le (by simp [Snapshot.organizationIds, h])
    exact List.mem_map.mp (hperm.mem_iff.mpr ho)

/-! ## Sequences -/

section Rebuilt

variable {u : Unicode} {organization stem : String} {kind : SequenceKind} {values : List String}

/-- A rebuilt sequence stands at the largest number that was carried in its year. -/
theorem mem_rebuilt {q : NumberSequence} :
    q ∈ rebuilt u organization kind stem values ↔ q.organization = organization ∧
      q.kind = kind ∧ counters u stem values q.year ≠ [] ∧
        (counters u stem values q.year).foldl max 0 = q.value := by
  rw [rebuilt, List.mem_map]
  constructor
  · rintro ⟨⟨year, top⟩, hentry, rfl⟩
    exact ⟨rfl, rfl, mem_entries_byYear.mp hentry⟩
  · rintro ⟨rfl, rfl, hentry⟩
    exact ⟨⟨q.year, q.value⟩, mem_entries_byYear.mpr hentry, rfl⟩

/-- There is one sequence of a kind and year. -/
theorem nodup_keys_rebuilt : (Table.keys (rebuilt u organization kind stem values)).Nodup := by
  rw [Table.keys, rebuilt, List.map_map]
  have hkeys : ((byYear u stem values).entries.map Sigma.fst).Nodup :=
    (byYear u stem values).nodupKeys
  have hmap : (byYear u stem values).entries.map
      (key ∘ fun e => (⟨organization, kind, e.1, e.2⟩ : NumberSequence)) =
        ((byYear u stem values).entries.map Sigma.fst).map fun y => (organization, kind, y) := by
    rw [List.map_map]
    rfl
  rw [hmap]
  exact hkeys.map fun y y' h => congrArg (fun k : String × SequenceKind × ℤ => k.2.2) h

/-- The counters fit when the numbers they are read off do. -/
theorem fits_rebuilt_iff :
    (∀ q ∈ rebuilt u organization kind stem values, numberSequenceSchema.fits q = true) ↔
      ∀ value ∈ values, ∀ year counter, documentNumber u stem value = some (year, counter) →
        0 ≤ year ∧ year ≤ 32767 ∧ counter ≤ 2147483647 := by
  have hfits : ∀ q : NumberSequence, numberSequenceSchema.fits q = true ↔
      (0 ≤ q.year ∧ q.year ≤ 32767) ∧ 0 ≤ q.value ∧ q.value ≤ 2147483647 := by
    intro q
    simp only [numberSequenceSchema, Bool.and_eq_true, decide_eq_true_eq]
  constructor
  · intro h value hvalue year counter hnumber
    have hcounter : counter ∈ counters u stem values year :=
      mem_counters.mpr ⟨value, hvalue, hnumber⟩
    have hq := (hfits _).mp (h ⟨organization, kind, year, (counters u stem values year).foldl max 0⟩
      (mem_rebuilt.mpr ⟨rfl, rfl, List.ne_nil_of_mem hcounter, rfl⟩))
    exact ⟨hq.1.1, hq.1.2, (foldl_max_le_iff.mp hq.2.2).2 counter hcounter⟩
  · intro h q hq
    obtain ⟨_, _, hne, hvalue⟩ := mem_rebuilt.mp hq
    obtain ⟨counter, hcounter⟩ := List.exists_mem_of_ne_nil _ hne
    obtain ⟨value, hmem, hnumber⟩ := mem_counters.mp hcounter
    obtain ⟨hlow, hhigh, _⟩ := h value hmem q.year counter hnumber
    refine (hfits q).mpr ⟨⟨hlow, hhigh⟩, ?_, ?_⟩
    · rw [← hvalue]
      exact le_foldl_max
    · rw [← hvalue]
      refine foldl_max_le_iff.mpr ⟨by decide, fun counter' hcounter' => ?_⟩
      obtain ⟨value', hmem', hnumber'⟩ := mem_counters.mp hcounter'
      exact (h value' hmem' q.year counter' hnumber').2.2

end Rebuilt

/-- One counter for every organization, kind and year. -/
theorem Target.nodup_keys_rebuilt {t : Target} {u : Unicode}
    (hnd : (Table.keys t.organizations).Nodup) : (Table.keys (t.rebuilt u)).Nodup := by
  rw [Table.keys, Target.rebuilt, List.map_flatMap, List.nodup_flatMap]
  refine ⟨fun o _ => ?_, ?_⟩
  · rw [List.map_append, List.nodup_append']
    refine ⟨Legacy.nodup_keys_rebuilt, Legacy.nodup_keys_rebuilt, ?_⟩
    intro k hk hk'
    obtain ⟨q, hq, rfl⟩ := List.mem_map.mp hk
    obtain ⟨q', hq', heq⟩ := List.mem_map.mp hk'
    have hkind : q'.kind = q.kind := congrArg (fun k : String × SequenceKind × ℤ => k.2.1) heq
    rw [(mem_rebuilt.mp hq).2.1, (mem_rebuilt.mp hq').2.1] at hkind
    cases hkind
  · have hdistinct : t.organizations.Pairwise fun o o' => o.id ≠ o'.id := List.pairwise_map.mp hnd
    refine hdistinct.imp fun {o o'} hne => ?_
    intro k hk hk'
    have howner : ∀ {o : Organization} {k : String × SequenceKind × ℤ} {xs ys : List String},
        k ∈ (Legacy.rebuilt u o.id .invoice "INV" xs ++
          Legacy.rebuilt u o.id .inspection "INS" ys).map key → k.1 = o.id := by
      intro o k xs ys hk
      obtain ⟨q, hq, rfl⟩ := List.mem_map.mp hk
      obtain hq | hq := List.mem_append.mp hq
      · exact (mem_rebuilt.mp hq).1
      · exact (mem_rebuilt.mp hq).1
    exact hne ((howner hk).symm.trans (howner hk'))

/-- The counters of the snapshot fit when its numbers do. -/
theorem fits_tables_rebuilt_iff (hc : s.Consistent) :
    (∀ q ∈ (s.tables py today).rebuilt py.unicode, numberSequenceSchema.fits q = true) ↔
      (∀ row ∈ s.invoices, ∀ year counter,
        documentNumber py.unicode "INV" (textOr row.invoiceNo "") = some (year, counter) →
          0 ≤ year ∧ year ≤ 32767 ∧ counter ≤ 2147483647) ∧
      ∀ row ∈ s.inspections, ∀ year counter,
        documentNumber py.unicode "INS" (textOr row.reference "") = some (year, counter) →
          0 ≤ year ∧ year ≤ 32767 ∧ counter ≤ 2147483647 := by
  rw [Target.rebuilt, List.forall_mem_flatMap]
  simp only [List.forall_mem_append, fits_rebuilt_iff]
  have howner : ∀ k ∈ s.organizationIds, ∃ o ∈ (s.tables py today).organizations, o.id = k := by
    intro k hk
    obtain ⟨row, hrow, rfl⟩ := List.mem_map.mp hk
    exact ⟨row.record py, List.mem_map_of_mem hrow, rfl⟩
  constructor
  · intro h
    refine ⟨fun row hrow => ?_, fun row hrow => ?_⟩
    · obtain ⟨o, ho, hid⟩ := howner row.orgId (hc.invoices row hrow).1
      refine (h o ho).1 _ (List.mem_map.mpr ⟨row.bill today, ?_, rfl⟩)
      exact List.mem_filter.mpr ⟨List.mem_map_of_mem hrow, decide_eq_true hid.symm⟩
    · obtain ⟨o, ho, hid⟩ := howner row.orgId (hc.inspections row hrow).1
      refine (h o ho).2 _ (List.mem_map.mpr ⟨row.record s, ?_, rfl⟩)
      exact List.mem_filter.mpr ⟨List.mem_map_of_mem hrow, decide_eq_true hid.symm⟩
  · rintro ⟨hinvoices, hinspections⟩ o _
    refine ⟨fun value hvalue => ?_, fun value hvalue => ?_⟩
    · obtain ⟨i, hi, rfl⟩ := List.mem_map.mp hvalue
      obtain ⟨row, hrow, rfl⟩ := List.mem_map.mp (List.mem_filter.mp hi).1
      exact hinvoices row hrow
    · obtain ⟨i, hi, rfl⟩ := List.mem_map.mp hvalue
      obtain ⟨row, hrow, rfl⟩ := List.mem_map.mp (List.mem_filter.mp hi).1
      exact hinspections row hrow

/-- The numbers in use do not depend on the day. -/
theorem rebuilt_target (day today : Date) :
    (s.tables py day).rebuilt py.unicode = (s.target py today).rebuilt py.unicode := by
  simp only [Target.rebuilt, Snapshot.target, Snapshot.tables, List.filter_map, List.map_map]
  rfl

/-! ## Totals and counts -/

/-- Within the precision the sum of the context is the sum. -/
theorem sumIn_of_abs {prec : ℕ} {xs : List ℤ} (h : (xs.map fun x => |x|).sum < 10 ^ prec) :
    sumIn prec xs = xs.sum := by
  refine sumIn_eq_sum fun ys hys => ?_
  obtain ⟨zs, rfl⟩ := hys
  have hzs : 0 ≤ (zs.map fun x => |x|).sum :=
    List.sum_nonneg fun x hx => by
      obtain ⟨z, _, rfl⟩ := List.mem_map.mp hx
      exact abs_nonneg z
  have habs : |ys.sum| ≤ (ys.map fun x => |x|).sum := by
    clear h
    induction ys with
    | nil => simp
    | cons y ys ih =>
        rw [List.sum_cons, List.map_cons, List.sum_cons]
        exact (abs_add_le y ys.sum).trans (by omega)
  rw [List.map_append, List.sum_append] at h
  omega

/-- The order of amounts that fit does not count. -/
theorem totalText_perm {xs ys : List (Decimal 2)} (hperm : xs.Perm ys)
    (h : (ys.map fun x => |x|).sum < 10 ^ 28) : totalText xs = totalText ys := by
  have hxs : (xs.map fun x => |x|).sum < 10 ^ 28 := by
    rw [(hperm.map _).sum_eq]
    exact h
  have hnil : xs = [] ↔ ys = [] := by
    rw [← List.length_eq_zero_iff, hperm.length_eq, List.length_eq_zero_iff]
  simp only [totalText, hnil, sumIn_of_abs h, sumIn_of_abs hxs, hperm.sum_eq]

/-- All the rows made of a table are counted. -/
theorem countIn_map {α β : Type} [Keyed α String] {rows : List β} {record : β → α}
    {id : β → String} (h : ∀ row, key (record row) = id row) :
    countIn (rows.map id) (rows.map record) = rows.length := by
  have hall : (rows.map record).countP (fun a => decide (key a ∈ rows.map id)) =
      (rows.map record).length := by
    refine List.countP_eq_length.mpr fun a ha => decide_eq_true ?_
    obtain ⟨row, hrow, rfl⟩ := List.mem_map.mp ha
    rw [h]
    exact List.mem_map_of_mem hrow
  rw [countIn, hall, List.length_map]

/-- The totals of the import are those of the source. -/
theorem totals_target (hfits : s.Fits py) : (s.target py today).totals s = s.totals := by
  have hall : ((s.target py today).invoices.filter fun i =>
      decide (i.id ∈ s.invoices.map InvoiceRow.id)) = s.invoices.map fun row => row.bill today := by
    refine List.filter_eq_self.mpr fun i hi => decide_eq_true ?_
    obtain ⟨row, hrow, rfl⟩ := List.mem_map.mp hi
    exact List.mem_map_of_mem hrow
  have hperm : ((s.target py today).importedInvoices s).Perm
      (s.invoices.map fun row => row.bill today) := by
    rw [Target.importedInvoices, hall]
    exact List.perm_insertionSort _ _
  have htotal : ∀ (column : Invoice → Decimal 2) (amount : InvoiceRow → Option ℚ),
      (∀ row, column (InvoiceRow.bill today row) = asDecimal 2 (amount row)) →
      amount ∈ [InvoiceRow.dues, InvoiceRow.commissionUsd, InvoiceRow.commissionNgn] →
      totalText (((s.target py today).importedInvoices s).map column) =
        totalText (s.invoices.map fun row => asDecimal 2 (amount row)) := by
    intro column amount hcolumn hamount
    refine totalText_perm ?_ ?_
    · have hmap := hperm.map column
      simpa only [List.map_map, Function.comp_def, hcolumn] using hmap
    · rw [List.map_map]
      exact hfits.totals amount hamount
  rw [Target.totals, Snapshot.totals, htotal Invoice.dues InvoiceRow.dues (fun _ => rfl) (by simp),
    htotal Invoice.commissionUsd InvoiceRow.commissionUsd (fun _ => rfl) (by simp),
    htotal Invoice.commissionNgn InvoiceRow.commissionNgn (fun _ => rfl) (by simp)]

/-- The target has as many rows as the snapshot. -/
theorem counts_target (h : s.organizations.length = s.settings.length) :
    (s.target py today).counts s = s.counts := by
  have horganizations : countIn s.organizationIds (s.target py today).organizations =
      s.organizations.length := countIn_map fun _ => rfl
  have husers : countIn (s.users.map UserRow.id) (s.target py today).users = s.users.length :=
    countIn_map fun _ => rfl
  have hcalls : countIn s.callIds (s.target py today).vesselCalls = s.vesselCalls.length :=
    countIn_map fun _ => rfl
  have hinspections : countIn s.inspectionIds (s.target py today).inspections =
      s.inspections.length := countIn_map fun _ => rfl
  have hinvoices : countIn (s.invoices.map InvoiceRow.id) (s.target py today).invoices =
      s.invoices.length := countIn_map fun _ => rfl
  have hsettings : countIn s.organizationIds (s.target py today).settings =
      s.organizations.length := countIn_map fun _ => rfl
  rw [Target.counts, Snapshot.counts, horganizations, husers, hcalls, hinspections, hinvoices,
    hsettings, h]

/-! ## The run -/

/-- The import goes through when each of its stages does. -/
theorem importSnapshot_eq_ok {merge : Bool} {t t' : Target} {m : Manifest} :
    importSnapshot py today merge t s = .ok (t', m) ↔
      ¬(merge = false ∧ t.occupied = true) ∧
      importOrganizations py s t.organizations = .ok t'.organizations ∧
      importSettings py s t.settings = .ok t'.settings ∧
      (∃ seen, s.users.foldlM (importUser py s) ([], t.users) = .ok (seen, t'.users)) ∧
      s.vesselCalls.foldlM (importCall s) t.vesselCalls = .ok t'.vesselCalls ∧
      s.inspections.foldlM (importInspection s) t.inspections = .ok t'.inspections ∧
      s.invoices.foldlM (importInvoice py s today) (t.invoices, t.payments) =
        .ok (t'.invoices, t'.payments) ∧
      numberSequenceSchema.upsertAll ImportError.outOfRange ImportError.duplicate t.sequences
        (t'.rebuilt py.unicode) = .ok t'.sequences ∧
      t'.counts s = s.counts ∧ m = ⟨t'.counts s, t'.totals s⟩ := by
  simp only [importSnapshot, bind_eq_ok, raiseIf_eq_ok, pure_eq_ok, Prod.mk.injEq]
  constructor
  · rintro ⟨_, hempty, organizations, horganizations, settings, hsettings, ⟨seen, users⟩, husers,
      calls, hcalls, inspections, hinspections, ⟨invoices, payments⟩, hinvoices, sequences,
      hsequences, _, hcounts, rfl, rfl⟩
    exact ⟨hempty, horganizations, hsettings, ⟨seen, husers⟩, hcalls, hinspections, hinvoices,
      hsequences, not_not.mp hcounts, rfl⟩
  · rintro ⟨hempty, horganizations, hsettings, ⟨seen, husers⟩, hcalls, hinspections, hinvoices,
      hsequences, hcounts, rfl⟩
    exact ⟨⟨⟩, hempty, _, horganizations, _, hsettings, _, husers, _, hcalls, _, hinspections, _,
      hinvoices, _, hsequences, ⟨⟩, not_not.mpr hcounts, rfl, rfl⟩

/-! ## Keys and unique values -/

section Batch

variable {α β : Type} [Keyed α String] {rows : List β} {record : β → α}

/-- Records have the keys of their rows. -/
theorem nodup_keys_map {id : β → String} (h : ∀ row, key (record row) = id row)
    (hnd : (rows.map id).Nodup) : (Table.keys (rows.map record)).Nodup := by
  have hkeys : Table.keys (rows.map record) = rows.map id := by
    rw [Table.keys, List.map_map]
    exact List.map_congr_left fun row _ => h row
  rw [hkeys]
  exact hnd

omit [Keyed α String] in
/-- A unique index of two columns. -/
theorem nodup_pairs_iff {f : α → Option (List String)} {a b : β → String}
    (hf : ∀ row, f (record row) = some [a row, b row]) :
    ((rows.map record).filterMap f).Nodup ↔ (rows.map fun row => (a row, b row)).Nodup := by
  have hvalues : (rows.map record).filterMap f =
      (rows.map fun row => (a row, b row)).map fun p => [p.1, p.2] := by
    rw [List.filterMap_map, List.map_map, ← List.filterMap_eq_map]
    exact List.filterMap_congr fun row _ => hf row
  rw [hvalues]
  refine List.nodup_map_iff fun p p' h => ?_
  simpa [Prod.ext_iff] using h

end Batch

/-! The keys of each table, and its unique indexes, on the rows of the snapshot. -/

/-- Organizations are apart. -/
theorem nodup_organizations (hc : s.Consistent) :
    (Table.keys (s.organizations.map fun row => row.record py)).Nodup :=
  nodup_keys_map (fun _ => rfl) hc.organizationKeys

/-- Every organization has its own settings. -/
theorem nodup_settings (hc : s.Consistent) :
    (Table.keys (s.organizations.map fun row =>
      settingsRecord (row.record py) (s.settingsByOrg row.id))).Nodup :=
  nodup_keys_map (fun _ => rfl) hc.organizationKeys

/-- Users are apart. -/
theorem nodup_users (hc : s.Consistent) :
    (Table.keys (s.users.map fun row => row.record py)).Nodup :=
  nodup_keys_map (fun _ => rfl) hc.userKeys

/-- Calls are apart. -/
theorem nodup_calls (hc : s.Consistent) :
    (Table.keys (s.vesselCalls.map fun row => row.record s)).Nodup :=
  nodup_keys_map (fun _ => rfl) hc.callKeys

/-- Inspections are apart. -/
theorem nodup_inspections (hc : s.Consistent) :
    (Table.keys (s.inspections.map fun row => row.record s)).Nodup :=
  nodup_keys_map (fun _ => rfl) hc.inspectionKeys

/-- Invoices are apart. -/
theorem nodup_invoices (hc : s.Consistent) :
    (Table.keys (s.invoices.map fun row => row.bill today)).Nodup :=
  nodup_keys_map (fun _ => rfl) hc.invoiceKeys

/-- The constraint on users, said of the rows of the snapshot. -/
theorem unique_users_iff :
    (∀ f ∈ userSchema.uniques, ((s.users.map fun row => row.record py).filterMap f).Nodup) ↔
      (s.users.map fun row => (row.orgId, row.identity py)).Nodup := by
  rw [userSchema, List.forall_mem_singleton]
  exact nodup_pairs_iff fun _ => rfl

/-- The constraint on calls, said of the rows of the snapshot. -/
theorem unique_calls_iff :
    (∀ f ∈ vesselCallSchema.uniques,
        ((s.vesselCalls.map fun row => row.record s).filterMap f).Nodup) ↔
      (s.vesselCalls.map fun row => (row.orgId, textOr row.reference "")).Nodup := by
  rw [vesselCallSchema, List.forall_mem_singleton]
  exact nodup_pairs_iff fun _ => rfl

/-- The constraint on inspections, said of the rows of the snapshot. -/
theorem unique_inspections_iff :
    (∀ f ∈ inspectionSchema.uniques,
        ((s.inspections.map fun row => row.record s).filterMap f).Nodup) ↔
      (s.inspections.map fun row => (row.orgId, textOr row.reference "")).Nodup := by
  rw [inspectionSchema, List.forall_mem_singleton]
  exact nodup_pairs_iff fun _ => rfl

/-- One invoice an inspection, said of the rows of the snapshot. -/
theorem nodup_inspections_iff (hinspected : ∀ row ∈ s.invoices, row.inspectionId ≠ none) :
    ((s.invoices.map fun row => row.bill today).filterMap fun i => some [i.inspection]).Nodup ↔
      (s.invoices.map InvoiceRow.inspectionId).Nodup := by
  have hvalues : (s.invoices.map InvoiceRow.inspectionId).map (fun k => [k.getD ""]) =
      (s.invoices.map fun row => row.bill today).filterMap fun i => some [i.inspection] := by
    rw [List.filterMap_map, List.map_map, ← List.filterMap_eq_map]
    rfl
  rw [← hvalues]
  refine ⟨List.Nodup.of_map _, List.Nodup.map_on ?_⟩
  intro k hk k' hk' heq
  obtain ⟨row, hrow, rfl⟩ := List.mem_map.mp hk
  obtain ⟨row', hrow', rfl⟩ := List.mem_map.mp hk'
  obtain ⟨id, hid⟩ := Option.ne_none_iff_exists'.mp (hinspected row hrow)
  obtain ⟨id', hid'⟩ := Option.ne_none_iff_exists'.mp (hinspected row' hrow')
  rw [hid, hid'] at heq ⊢
  exact congrArg some (List.cons.inj heq).1

/-- The constraints on invoices, said of the rows of the snapshot. -/
theorem unique_invoices_iff (hinspected : ∀ row ∈ s.invoices, row.inspectionId ≠ none) :
    (∀ f ∈ invoiceSchema.uniques,
        ((s.invoices.map fun row => row.bill today).filterMap f).Nodup) ↔
      (s.invoices.map fun row => (row.orgId, textOr row.invoiceNo "")).Nodup ∧
        (s.invoices.map InvoiceRow.inspectionId).Nodup := by
  rw [invoiceSchema, List.forall_mem_cons, List.forall_mem_singleton,
    nodup_inspections_iff hinspected]
  exact and_congr_left fun _ => nodup_pairs_iff fun _ => rfl

/-- The constraints on payments hold of a consistent snapshot. -/
theorem unique_payments (hc : s.Consistent) :
    ∀ f ∈ paymentSchema.uniques,
      ((s.paidRows.map fun r => r.1.paid py s today r.2).filterMap f).Nodup := by
  have hpairs : (s.paidRows.map fun r =>
      (r.1.id, textOr r.2.reference ("legacy-" ++ r.1.id))).Nodup := by
    refine List.Nodup.of_map Prod.fst ?_
    rw [List.map_map]
    exact nodup_paidRows hc
  rw [paymentSchema, List.forall_mem_singleton]
  refine Iff.mpr ?_ hpairs
  exact nodup_pairs_iff fun _ => rfl

/-- The payments go under different keys. -/
theorem nodup_keys_payments (hc : s.Consistent)
    (hids : ∀ row ∈ s.invoices, ∀ row' ∈ s.invoices, row.payment.isSome = true →
      row'.payment.isSome = true → py.paymentId row.id = py.paymentId row'.id → row.id = row'.id) :
    (Table.keys (s.target py today).payments).Nodup := by
  have hkeys : Table.keys (s.target py today).payments =
      (s.paidRows.map fun r => r.1.id).map py.paymentId := by
    rw [Table.keys, Snapshot.target, Snapshot.tables, List.map_map, List.map_map]
    rfl
  rw [hkeys]
  refine List.Nodup.map_on ?_ (nodup_paidRows hc)
  intro k hk k' hk' heq
  obtain ⟨⟨row, object⟩, hr, rfl⟩ := List.mem_map.mp hk
  obtain ⟨⟨row', object'⟩, hr', rfl⟩ := List.mem_map.mp hk'
  obtain ⟨hrow, hobject⟩ := mem_paidRows.mp hr
  obtain ⟨hrow', hobject'⟩ := mem_paidRows.mp hr'
  exact hids row hrow row' hrow' (by simp [hobject]) (by simp [hobject']) heq

/-! ## An importable snapshot -/

/-- **The import of an importable snapshot** leaves its rows, in an empty database and over an
earlier import. -/
theorem importSnapshot_target (hc : s.Consistent) (hfits : s.Fits py) (hi : s.Importable py)
    {merge : Bool} {t : Target}
    (ht : t = .empty ∨ merge = true ∧ ∃ day, t = s.target py day) :
    importSnapshot py today merge t s = .ok (s.target py today, ⟨s.counts, s.totals⟩) := by
  have hcounts : (s.target py today).counts s = s.counts :=
    counts_target ((settings_iff hc).mp hi.settings)
  -- Each table is written over what it holds: nothing, or the rows of an earlier import.
  refine importSnapshot_eq_ok.mpr
    ⟨?_, ?_, ?_, ?_, ?_, ?_, ?_, ?_, hcounts, by rw [hcounts, totals_target hfits]⟩
  · rintro ⟨hmerge, hoccupied⟩
    obtain rfl | ⟨hyes, _⟩ := ht
    · cases hoccupied
    · rw [hmerge] at hyes
      cases hyes
  · refine Schema.upsertAll_eq_ok ?_ (nodup_organizations hc)
      (List.forall_mem_map.mpr hfits.organizations) (fun f hf => absurd hf List.not_mem_nil)
    obtain rfl | ⟨_, day, rfl⟩ := ht
    · exact .inl rfl
    · exact .inr (List.forall₂_same.mpr fun _ _ => ⟨rfl, fun _ _ => rfl⟩)
  · refine Schema.upsertAll_eq_ok ?_ (nodup_settings hc)
      (List.forall_mem_map.mpr hfits.settings) (fun f hf => absurd hf List.not_mem_nil)
    obtain rfl | ⟨_, day, rfl⟩ := ht
    · exact .inl rfl
    · exact .inr (List.forall₂_same.mpr fun _ _ => ⟨rfl, fun _ _ => rfl⟩)
  · obtain ⟨seen, hseen⟩ : ∃ seen, s.users.foldlM (seeEmail py) [] = .ok seen :=
      exists_seeEmail hi.emails fun _ _ => List.not_mem_nil
    refine ⟨seen, (importUsers_eq_ok hc).mpr ⟨hseen, Schema.upsertAll_eq_ok ?_
      (nodup_users hc) (List.forall_mem_map.mpr hfits.users) ?_⟩⟩
    · obtain rfl | ⟨_, day, rfl⟩ := ht
      · exact .inl rfl
      · exact .inr (List.forall₂_same.mpr fun _ _ => ⟨rfl, fun _ _ => rfl⟩)
    · exact unique_users_iff.mpr hi.emails
  · rw [importCalls_eq hc]
    refine Schema.upsertAll_eq_ok ?_ (nodup_calls hc)
      (List.forall_mem_map.mpr hfits.calls) (unique_calls_iff.mpr hi.callReferences)
    obtain rfl | ⟨_, day, rfl⟩ := ht
    · exact .inl rfl
    · exact .inr (List.forall₂_same.mpr fun _ _ => ⟨rfl, fun _ _ => rfl⟩)
  · rw [importInspections_eq hc]
    refine Schema.upsertAll_eq_ok ?_ (nodup_inspections hc)
      (List.forall_mem_map.mpr hfits.inspections)
      (unique_inspections_iff.mpr hi.inspectionReferences)
    obtain rfl | ⟨_, day, rfl⟩ := ht
    · exact .inl rfl
    · exact .inr (List.forall₂_same.mpr fun _ _ => ⟨rfl, fun _ _ => rfl⟩)
  · refine (importInvoices_eq_ok hc hi.inspected).mpr ⟨?_, ?_⟩
    · refine Schema.upsertAll_eq_ok ?_ (nodup_invoices hc)
        (List.forall_mem_map.mpr fun row hrow => hfits.invoices row hrow today _)
        ((unique_invoices_iff hi.inspected).mpr ⟨hi.invoiceNumbers, hi.billedOnce⟩)
      obtain rfl | ⟨_, day, rfl⟩ := ht
      · exact .inl rfl
      · refine .inr (List.forall₂_map_left_iff.mpr (List.forall₂_map_right_iff.mpr
          (List.forall₂_same.mpr fun row _ => ⟨rfl, ?_⟩)))
        exact List.forall_mem_cons.mpr ⟨rfl, List.forall_mem_singleton.mpr rfl⟩
    · refine Schema.upsertAll_eq_ok ?_ (nodup_keys_payments hc hi.paymentIds) ?_
        (unique_payments hc)
      · obtain rfl | ⟨_, day, rfl⟩ := ht
        · exact .inl rfl
        · refine .inr (List.forall₂_map_left_iff.mpr (List.forall₂_map_right_iff.mpr
            (List.forall₂_same.mpr fun row _ => ⟨rfl, ?_⟩)))
          exact List.forall_mem_singleton.mpr rfl
      · refine List.forall_mem_map.mpr fun r hr => ?_
        obtain ⟨hrow, hobject⟩ := mem_paidRows.mp hr
        exact hfits.payments r.1 hrow r.2 hobject today _ _
  · refine Schema.upsertAll_eq_ok ?_
      (Target.nodup_keys_rebuilt (nodup_organizations hc))
      ((fits_tables_rebuilt_iff hc).mpr ⟨hi.invoiceSequences, hi.inspectionSequences⟩)
      (fun f hf => absurd hf List.not_mem_nil)
    obtain rfl | ⟨_, day, rfl⟩ := ht
    · exact .inl rfl
    · refine .inr ?_
      have hsame : (s.target py day).sequences = (s.target py today).rebuilt py.unicode :=
        rebuilt_target day today
      rw [hsame]
      exact List.forall₂_same.mpr fun _ _ => ⟨rfl, fun _ _ => rfl⟩

/-- The day of the import changes no book. -/
theorem sameBooks_target (day today : Date) : (s.target py day).SameBooks (s.target py today) where
  organizations := rfl
  settings := rfl
  users := rfl
  vesselCalls := rfl
  inspections := rfl
  invoices := by
    simp only [Snapshot.target, Snapshot.tables, List.map_map]
    rfl
  payments := by
    simp only [Snapshot.target, Snapshot.tables, List.map_map]
    rfl
  sequences := (rebuilt_target today day).trans (rebuilt_target day day).symm

/-- One payment for each invoice that has one recorded. -/
theorem length_payments_target (hc : s.Consistent) {row : InvoiceRow} (hrow : row ∈ s.invoices)
    (hpaid : row.payment.isSome = true) :
    ((s.target py today).payments.filter fun p => decide (p.invoice = row.id)).length = 1 := by
  obtain ⟨object, hobject⟩ := Option.isSome_iff_exists.mp hpaid
  have hmem : row.paid py s today object ∈ (s.target py today).payments :=
    List.mem_map.mpr ⟨(row, object), mem_paidRows.mpr ⟨hrow, hobject⟩, rfl⟩
  have hinvoices : ((s.target py today).payments.map Payment.invoice).Nodup := by
    have hmap : (s.target py today).payments.map Payment.invoice =
        s.paidRows.map fun r => r.1.id := by
      rw [Snapshot.target, Snapshot.tables, List.map_map]
      rfl
    rw [hmap]
    exact nodup_paidRows hc
  exact congrArg List.length (filter_eq_singleton hinvoices hmem)

/-! ## A snapshot that reconciles -/

/-- Every payment goes under the key of its invoice. -/
theorem paymentId_of_mem (hc : s.Consistent)
    (hinspected : ∀ row ∈ s.invoices, row.inspectionId ≠ none)
    {books books' : List Invoice × List Payment} (hempty : books.2 = [])
    (h : s.invoices.foldlM (importInvoice py s today) books = .ok books') :
    (Table.keys books'.2).Nodup ∧ ∀ p ∈ books'.2, p.id = py.paymentId p.invoice := by
  obtain ⟨_, hpayments⟩ := (importInvoices_eq_ok hc hinspected).mp h
  rw [hempty] at hpayments
  have hnone : (Table.keys ([] : List Payment)).Nodup := List.nodup_nil
  refine ⟨Schema.nodup_keys_of_upsertAll hnone hpayments, fun p hp => ?_⟩
  obtain hold | hnew := Schema.mem_of_upsertAll hpayments p hp
  · exact absurd hold List.not_mem_nil
  · obtain ⟨r, _, rfl⟩ := List.mem_map.mp hnew
    rfl

/-- **What reconciles was importable.** -/
theorem importable_of_reconciles (hc : s.Consistent) (h : Reconciles py s) : s.Importable py := by
  obtain ⟨t, m, hok, _, hpaid, _⟩ := h 0
  obtain ⟨_, horganizations, hsettings, ⟨seen, husers⟩, hcalls, hinspections, hinvoices, hsequences,
    hcounts, _⟩ := importSnapshot_eq_ok.mp hok
  have hinspected : ∀ row ∈ s.invoices, row.inspectionId ≠ none := by
    intro row hrow
    obtain ⟨books, books', hround⟩ := exists_of_foldlM_eq_ok hinvoices row hrow
    rw [importInvoice, bind_eq_ok] at hround
    obtain ⟨invoice, hchecked, _⟩ := hround
    exact ((invoice_checked_eq_ok hc hrow).mp hchecked).1
  obtain ⟨hkeys, hids⟩ := paymentId_of_mem hc hinspected rfl hinvoices
  obtain ⟨_, _, hrowsO⟩ := (Schema.upsertAll_nil_eq_ok (nodup_organizations hc)).mp horganizations
  obtain ⟨_, _, hrowsS⟩ := (Schema.upsertAll_nil_eq_ok (nodup_settings hc)).mp hsettings
  obtain ⟨_, husers⟩ := (importUsers_eq_ok hc).mp husers
  obtain ⟨_, huniqueU, _⟩ := (Schema.upsertAll_nil_eq_ok (nodup_users hc)).mp husers
  rw [importCalls_eq hc] at hcalls
  obtain ⟨_, huniqueC, _⟩ := (Schema.upsertAll_nil_eq_ok (nodup_calls hc)).mp hcalls
  rw [importInspections_eq hc] at hinspections
  obtain ⟨_, huniqueI, hrowsI⟩ := (Schema.upsertAll_nil_eq_ok (nodup_inspections hc)).mp hinspections
  obtain ⟨hinvoices, _⟩ := (importInvoices_eq_ok hc hinspected).mp hinvoices
  dsimp only at hinvoices
  obtain ⟨_, huniqueB, hrowsB⟩ := (Schema.upsertAll_nil_eq_ok (nodup_invoices hc)).mp hinvoices
  obtain ⟨hnumbers, hbilled⟩ := (unique_invoices_iff hinspected).mp huniqueB
  -- the counters are those of the tables of the snapshot
  have hrebuilt : t.rebuilt py.unicode = (s.tables py 0).rebuilt py.unicode := by
    rw [Target.rebuilt, Target.rebuilt, hrowsO, hrowsI, hrowsB]
    rfl
  rw [hrebuilt] at hsequences
  obtain ⟨hfits, _, _⟩ := (Schema.upsertAll_nil_eq_ok
    (Target.nodup_keys_rebuilt (nodup_organizations hc))).mp hsequences
  obtain ⟨hinvoiceSequences, hinspectionSequences⟩ := (fits_tables_rebuilt_iff hc).mp hfits
  have hcount : s.organizations.length = s.settings.length := by
    have hone : countIn s.organizationIds t.settings = s.settings.length :=
      congrArg Counts.settings hcounts
    have hall : countIn s.organizationIds t.settings = s.organizations.length := by
      rw [hrowsS]
      exact countIn_map fun _ => rfl
    exact hall.symm.trans hone
  refine ⟨(settings_iff hc).mpr hcount, hinspected, unique_users_iff.mp huniqueU,
    unique_calls_iff.mp huniqueC, unique_inspections_iff.mp huniqueI, hnumbers, hbilled, ?_,
    hinvoiceSequences, hinspectionSequences⟩
  intro row hrow row' hrow' hpay hpay' heq
  have hfound : ∀ {row : InvoiceRow}, row ∈ s.invoices → row.payment.isSome = true →
      ∃ p ∈ t.payments, p.invoice = row.id := by
    intro row hrow hpay
    have hone := hpaid row hrow hpay
    obtain ⟨p, hp⟩ := List.exists_mem_of_length_pos (by rw [hone]; exact Nat.one_pos)
    exact ⟨p, (List.mem_filter.mp hp).1, of_decide_eq_true (List.mem_filter.mp hp).2⟩
  obtain ⟨p, hp, hinvoice⟩ := hfound hrow hpay
  obtain ⟨p', hp', hinvoice'⟩ := hfound hrow' hpay'
  have hid : p.id = p'.id := by
    rw [hids p hp, hids p' hp', hinvoice, hinvoice', heq]
  rw [← hinvoice, ← hinvoice', Table.eq_of_key_eq hkeys hp hp' hid]

/-! ## Two snapshots -/

namespace Sample

/-- An interpreter that knows the ASCII characters and the digest of one key. -/
def python : Python where
  unicode := .ascii
  lower text := String.ofList (text.toList.map Char.toLower)
  sha256 text :=
    if text = "iv-legacy" then "557504104bb08358d3468741d8df6fabf76e56f81252d572a4a72306d5082c68" else ""

def organization : OrganizationRow where
  id := "org-legacy"
  registered := true
  name := some "Legacy Marine"
  rcNumber := some "RC-1"
  email := some "legacy@example.test"
  phone := some ""
  address := some ""
  primaryPort := some "Port of Calabar"
  ports := some (.arr [.str "Port of Calabar"])
  logoKey := ""
  rev := some 7

def user : UserRow where
  id := "u-legacy"
  orgId := "org-legacy"
  name := some "Legacy Admin"
  email := some "legacy@example.test"
  passwordHash := "$pbkdf2-sha256$29000$salt$invalidbutpreserved"
  role := some "Admin"
  active := true

def call : VesselCallRow where
  id := "vc-legacy"
  orgId := "org-legacy"
  vesselName := some "MT Legacy"
  reference := some "ROT-LEGACY"
  type := some "Tanker"
  flag := some "NG"
  nrt := some 1000
  eta := some 1767348000
  sailingEta := none
  berth := some "Berth 1"
  berthDate := some 20455
  status := some "completed"
  notes := some ""
  createdBy := some "u-legacy"

def inspection : InspectionRow where
  id := "in-legacy"
  orgId := "org-legacy"
  callId := "vc-legacy"
  reference := some "INS-2026-0004"
  vesselName := some "MT Legacy"
  cargoType := some "Liquid"
  product := some "PMS"
  reconciledTonnage := some 900
  jetty := some (.obj [("type", .str "International")])
  liquid := none
  dry := none
  date := some 1767355200
  status := some "completed"
  createdBy := some "u-legacy"

def invoice : InvoiceRow where
  id := "iv-legacy"
  orgId := "org-legacy"
  callId := "vc-legacy"
  inspectionId := some "in-legacy"
  invoiceNo := some "INV-2026-0009"
  cargoType := some "Liquid"
  issued := some 20455
  due := some 20469
  status := some "paid"
  dues := some 4230
  rate := some (423 / 100)
  commissionUsd := some (14805 / 100)
  commissionNgn := some 236880
  fx := some 1600
  payment := some
    { amount := some (some 4230)
      paidOn := some 20463
      method := some "Transfer"
      reference := some "LEGACY-PAY"
      recordedBy := some "u-legacy" }

def settings : SettingsRow where
  orgId := "org-legacy"
  commissionRate := some (7 / 2)
  exchangeRate := some 1600
  liquidDuesRates := some
    { government := some (some (168 / 100))
      priv := some (some (288 / 100))
      international := some (some (423 / 100)) }
  dryDuesRate := some (217 / 100)
  portName := some "Port of Calabar"
  terminals := some (.arr [.str "Legacy Jetty"])

/-- An organization with a paid invoice. -/
def snapshot : Snapshot :=
  ⟨[organization], [user], [call], [inspection], [invoice], [settings]⟩

/-- An organization without a settings row. -/
def unconfigured : Snapshot := ⟨[organization], [user], [], [], [], []⟩

/-- An invoice whose inspection has been deleted. -/
def uninspected : Snapshot :=
  ⟨[organization], [user], [call], [], [{ invoice with inspectionId := none }], [settings]⟩

/-- The ranges do not depend on the day. -/
theorem fits_record (row : InvoiceRow) (today : Date) (k : String) :
    invoiceSchema.fits (row.record today k) = invoiceSchema.fits (row.record 0 "") := rfl

/-- Whether a payment fits does not depend on the day or on who imports it. -/
theorem fits_payment (row : InvoiceRow) (object : PaymentObject) (today : Date)
    (k user : String) : paymentSchema.fits (object.record python (row.record today k) user) =
      paymentSchema.fits (object.record python (row.record 0 "") "") := rfl

/-- The sample is consistent. -/
theorem snapshot_consistent : snapshot.Consistent where
  organizationKeys := by decide
  userKeys := by decide
  callKeys := by decide
  inspectionKeys := by decide
  invoiceKeys := by decide
  settingsKeys := by decide
  users := by decide
  calls := by decide
  inspections := by decide
  invoices := by decide
  settings := by decide
  staffed := by decide

/-- The sample fits its columns. -/
theorem snapshot_fits : snapshot.Fits python where
  organizations := by decide
  settings := by decide +kernel
  users := by decide
  calls := by decide +kernel
  inspections := by decide +kernel
  invoices := List.forall_mem_singleton.mpr fun today k =>
    (fits_record invoice today k).trans (by decide +kernel)
  payments := List.forall_mem_singleton.mpr fun object hobject today k user =>
    (fits_payment invoice object today k user).trans (by cases hobject; decide +kernel)
  totals := by decide +kernel

/-- The sample can be imported. -/
theorem snapshot_importable : snapshot.Importable python where
  settings := by decide
  inspected := by decide
  emails := by decide
  callReferences := by decide
  inspectionReferences := by decide
  invoiceNumbers := by decide
  billedOnce := by decide
  paymentIds := by decide
  invoiceSequences := List.forall_mem_singleton.mpr fun year counter h => by
    have hnumber : documentNumber python.unicode "INV" "INV-2026-0009" = some (2026, 9) := by
      decide
    cases hnumber.symm.trans h
    decide
  inspectionSequences := List.forall_mem_singleton.mpr fun year counter h => by
    have hnumber : documentNumber python.unicode "INS" "INS-2026-0004" = some (2026, 4) := by
      decide
    cases hnumber.symm.trans h
    decide

/-- The sample without settings is consistent. -/
theorem unconfigured_consistent : unconfigured.Consistent where
  organizationKeys := by decide
  userKeys := by decide
  callKeys := by decide
  inspectionKeys := by decide
  invoiceKeys := by decide
  settingsKeys := by decide
  users := by decide
  calls := by decide
  inspections := by decide
  invoices := by decide
  settings := by decide
  staffed := by decide

/-- The sample without settings fits its columns. -/
theorem unconfigured_fits : unconfigured.Fits python where
  organizations := by decide
  settings := by decide +kernel
  users := by decide
  calls := by decide
  inspections := by decide
  invoices := List.forall_mem_nil _
  payments := List.forall_mem_nil _
  totals := by decide

/-- The sample whose invoice has no inspection is consistent. -/
theorem uninspected_consistent : uninspected.Consistent where
  organizationKeys := by decide
  userKeys := by decide
  callKeys := by decide
  inspectionKeys := by decide
  invoiceKeys := by decide
  settingsKeys := by decide
  users := by decide
  calls := by decide
  inspections := by decide
  invoices := List.forall_mem_singleton.mpr ⟨by decide, by decide, fun _ h => nomatch h⟩
  settings := by decide
  staffed := by decide

/-- The sample whose invoice has no inspection fits its columns. -/
theorem uninspected_fits : uninspected.Fits python where
  organizations := by decide
  settings := by decide +kernel
  users := by decide
  calls := by decide +kernel
  inspections := by decide
  invoices := List.forall_mem_singleton.mpr fun today k =>
    (fits_record _ today k).trans (by decide +kernel)
  payments := List.forall_mem_singleton.mpr fun object hobject today k user =>
    (fits_payment _ object today k user).trans (by cases hobject; decide +kernel)
  totals := by decide +kernel

end Sample

/-- **The legacy import reconciles** exactly on the importable snapshots. -/
theorem reconciles_iff (py : Python) (s : Snapshot) (hc : s.Consistent) (hfits : s.Fits py) :
    Reconciles py s ↔ s.Importable py := by
  refine ⟨importable_of_reconciles hc, fun hi today => ?_⟩
  refine ⟨s.target py today, ⟨s.counts, s.totals⟩,
    importSnapshot_target hc hfits hi (.inl rfl), rfl,
    fun row hrow hpaid => length_payments_target hc hrow hpaid, fun today' => ?_⟩
  exact ⟨s.target py today', ⟨s.counts, s.totals⟩,
    importSnapshot_target hc hfits hi (.inr ⟨rfl, today, rfl⟩), sameBooks_target today today'⟩

open Sample in
/-- The snapshot with the paid invoice reconciles. -/
theorem reconciles_snapshot : Reconciles python snapshot :=
  (reconciles_iff python snapshot snapshot_consistent snapshot_fits).mpr snapshot_importable

open Sample in
/-- The default settings of an organization are counted in the target only, and the deleted
inspection of an invoice is looked up: either ends the import. -/
theorem import_stops :
    (unconfigured.Consistent ∧ unconfigured.Fits python ∧
      (importSnapshot python 20500 false .empty unconfigured).isOk = false ∧
      ¬Reconciles python unconfigured) ∧
    uninspected.Consistent ∧ uninspected.Fits python ∧
      (importSnapshot python 20500 false .empty uninspected).isOk = false ∧
      ¬Reconciles python uninspected := by
  refine ⟨⟨unconfigured_consistent, unconfigured_fits, by decide +kernel, fun h => ?_⟩,
    uninspected_consistent, uninspected_fits, by decide +kernel, fun h => ?_⟩
  · exact absurd (importable_of_reconciles unconfigured_consistent h).settings (by decide)
  · exact absurd (importable_of_reconciles uninspected_consistent h).inspected (by decide)

end VesselCaller.Legacy
