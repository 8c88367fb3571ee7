import VesselCaller.Frame
import VesselCaller.Legacy.Sequences

/-!
# Document numbers

`next_number` counts up one row of `NumberSequence` for each kind of document and year, and the
text it makes is written on an invoice or an inspection.  The rows and the documents are separate
tables; `_rebuild_sequences` reads the rows off the documents again after a legacy import.

* `numberText` — the text of a number, which reads back (`documentNumber_numberText`);
* `Event` — a request, accepted or rolled back, or an import with its rebuild;
* `Numbered` — what an accepted request does to the numbers of a kind: nothing, or it takes the
  next one and writes it on a new document (`handle_numbered`);
* `Ahead` — no document carries a number past its counter: kept by every event;
* `Gapless` — the documents carry the numbers up to the counters: kept by every request.
-/

namespace VesselCaller.Billing

open Lib Accounts Operations Measurements

/-! ## Counters and texts -/

/-- The stem of the numbers of a kind. -/
def SequenceKind.stem : SequenceKind → String
  | .invoice => "INV"
  | .inspection => "INS"

/-- The counter of a kind and a year. -/
def counter (sequences : List NumberSequence) (kind : SequenceKind) (year : ℕ) : ℕ :=
  ((sequences.find? fun s => s.kind = kind ∧ s.year = year).map NumberSequence.value).getD 0

/-- `update_or_create(kind=…, year=…, defaults={"value": …})`. -/
def setCounter (sequences : List NumberSequence) (kind : SequenceKind) (year value : ℕ) :
    List NumberSequence :=
  ⟨kind, year, value⟩ :: sequences.filter fun s => ¬(s.kind = kind ∧ s.year = year)

/-- `f"{prefix}-{year}-{sequence.value:04d}"`. -/
def numberText (kind : SequenceKind) (year value : ℕ) : String :=
  kind.stem ++ "-" ++ toString year ++ "-" ++ pad4 value

variable {sequences : List NumberSequence} {kind : SequenceKind}

/-- The next number, and the counter that stands at it. -/
theorem nextNumber_eq (ctx : Ctx) :
    nextNumber ctx sequences kind kind.stem =
      (numberText kind (Date.year ctx.localdate) (counter sequences kind ctx.localdate.year + 1),
        setCounter sequences kind (Date.year ctx.localdate)
          (counter sequences kind ctx.localdate.year + 1)) := rfl

/-- A counter that is set changes no other. -/
theorem counter_setCounter (kind kind' : SequenceKind) (year year' value : ℕ) :
    counter (setCounter sequences kind year value) kind' year' =
      if kind' = kind ∧ year' = year then value else counter sequences kind' year' := by
  unfold counter setCounter
  by_cases h : kind' = kind ∧ year' = year
  · obtain ⟨rfl, rfl⟩ := h
    simp
  · have hne : ¬(kind = kind' ∧ year = year') := fun heq => h ⟨heq.1.symm, heq.2.symm⟩
    rw [if_neg h, List.find?_cons_of_neg (by simpa using hne), List.find?_filter]
    refine congrArg (fun o : Option NumberSequence => (o.map NumberSequence.value).getD 0) ?_
    refine congrArg (sequences.find? ·) ?_
    funext s
    by_cases hs : s.kind = kind' ∧ s.year = year'
    · obtain ⟨rfl, rfl⟩ := hs
      simpa using not_and_or.mp h
    · simp [hs]

/-- A number is its stem, the year and at least four digits. -/
theorem toList_numberText (kind : SequenceKind) (year value : ℕ) :
    (numberText kind year value).toList = ['-'].intercalate
      [kind.stem.toList, Nat.toDigits 10 year, (Nat.toDigits 10 value).leftpad 4 '0'] := by
  simp [numberText, pad4, List.leftpad, List.intercalate, ← String.length_toList]

/-- **A number reads back.** -/
theorem documentNumber_numberText (u : Unicode) (kind : SequenceKind) (year value : ℕ) :
    Legacy.documentNumber u kind.stem (numberText kind year value) =
      some ((year : ℤ), (value : ℤ)) := by
  have hyear : ∀ c ∈ Nat.toDigits 10 year, c.isDigit = true := fun c => isDigit_toDigits
  have hvalue : ∀ c ∈ (Nat.toDigits 10 value).leftpad 4 '0', c.isDigit = true :=
    isDigit_leftpad fun c => isDigit_toDigits
  have hsplit : (numberText kind year value).toList.splitOn '-' =
      [kind.stem.toList, Nat.toDigits 10 year, (Nat.toDigits 10 value).leftpad 4 '0'] := by
    rw [toList_numberText]
    refine List.splitOn_intercalate '-' ?_ (List.cons_ne_nil _ _)
    intro l hl
    simp only [List.mem_cons, List.not_mem_nil, or_false] at hl
    obtain rfl | rfl | rfl := hl
    · cases kind <;> decide
    · exact fun hc => absurd (hyear '-' hc) (by decide)
    · exact fun hc => absurd (hvalue '-' hc) (by decide)
  have hne : (Nat.toDigits 10 value).leftpad 4 '0' ≠ [] := by
    intro hnil
    have hlength := congrArg List.length hnil
    simp [List.leftpad] at hlength
  simp only [Legacy.documentNumber, hsplit, if_true]
  rw [pyInt_of_digits Nat.toDigits_ne_nil hyear, pyInt_of_digits hne hvalue, digitsValue_leftpad,
    digitsValue, digitsValue, Nat.ofDigitChars_ten_toDigits, Nat.ofDigitChars_ten_toDigits]
  rfl

/-- Different years and values have different texts. -/
theorem numberText_inj {year year' value value' : ℕ}
    (h : numberText kind year value = numberText kind year' value') :
    year = year' ∧ value = value' := by
  have hread := documentNumber_numberText Unicode.ascii kind year value
  rw [h, documentNumber_numberText] at hread
  simp only [Option.some.injEq, Prod.mk.injEq, Nat.cast_inj] at hread
  exact ⟨hread.1.symm, hread.2.symm⟩

example : numberText .invoice 2026 7 = "INV-2026-0007" ∧
    numberText .inspection 2026 12345 = "INS-2026-12345" := by decide

/-! ## The documents of a tenant -/

/-- The numbers that the documents of a kind carry. -/
def carried (t : Tenant) : SequenceKind → List String
  | .invoice => t.invoices.map Invoice.invoiceNo
  | .inspection => t.inspections.map Inspection.reference

/-- The primary keys of the two tables. -/
structure UniqueKeys (t : Tenant) : Prop where
  invoices : (Table.keys t.invoices).Nodup
  inspections : (Table.keys t.inspections).Nodup

/-! ## Events -/

/-- `_rebuild_sequences`, for one kind of document. -/
def rebuildKind (u : Unicode) (kind : SequenceKind) (values : List String)
    (sequences : List NumberSequence) : Result (List NumberSequence) :=
  (Legacy.byYear u kind.stem values).entries.foldlM
    (fun sequences e => do
      raiseIf (¬(0 ≤ e.1 ∧ e.1 ≤ 32767 ∧ e.2 ≤ 2147483647)) (.integrity "billing_numbersequence")
      return setCounter sequences kind e.1.toNat e.2.toNat)
    sequences

/-- `_rebuild_sequences`, for the organization. -/
def rebuildSequences (u : Unicode) (t : Tenant) : Result (List NumberSequence) := do
  let sequences ← rebuildKind u .invoice (carried t .invoice) t.sequences
  rebuildKind u .inspection (carried t .inspection) sequences

/-- The tenant as the loops of an import leave it, under its primary keys.  They do not write the
number sequences. -/
structure ImportedRows where
  tenant : Tenant
  keys : UniqueKeys tenant

/-- What happens to an organization: a request, or an import with `--merge`. -/
inductive Event where
  | request (r : Request)
  | imported (rows : ImportedRows)

/-- An event is a transaction. -/
def Event.handle (sha : Sha256) (u : Unicode) (t : Tenant) :
    Event → Result (Tenant × Option VesselCaller.Response)
  | .request r => do
      let (t, response) ← t.handle sha r
      return (t, some response)
  | .imported rows => do
      let t : Tenant := { rows.tenant with sequences := t.sequences }
      let sequences ← rebuildSequences u t
      return ({ t with sequences := sequences }, none)

/-! ## What a request does to the numbers of a kind -/

/-- The numbers of the kind are as they were. -/
structure Kept (t t' : Tenant) (kind : SequenceKind) : Prop where
  carried : carried t' kind = carried t kind
  counters : ∀ year, counter t'.sequences kind year = counter t.sequences kind year

/-- The next number of a year was taken, and a new document carries it. -/
structure Taken (t t' : Tenant) (kind : SequenceKind) (year : ℕ) : Prop where
  carried : carried t' kind =
    numberText kind year (counter t.sequences kind year + 1) :: carried t kind
  counters : ∀ year', counter t'.sequences kind year' =
    if year' = year then counter t.sequences kind year + 1 else counter t.sequences kind year'

/-- The numbers of the kind were kept, or one was taken. -/
def Numbered (t t' : Tenant) (kind : SequenceKind) : Prop :=
  Kept t t' kind ∨ ∃ year, Taken t t' kind year

variable {sha : Sha256} {u : Unicode} {t t₁ t' : Tenant} {ctx : Ctx} {actor : Id}

/-- After a step that takes no number. -/
theorem Kept.then_numbered (h : Kept t t₁ kind) (h' : Numbered t₁ t' kind) :
    Numbered t t' kind := by
  obtain h' | ⟨year, h'⟩ := h'
  · refine .inl ⟨h'.carried.trans h.carried, fun year => ?_⟩
    rw [h'.counters, h.counters]
  · refine .inr ⟨year, ?_, fun year' => ?_⟩
    · rw [h'.carried, h.carried, h.counters]
    · rw [h'.counters, h.counters, h.counters]

/-- Before a step that takes no number. -/
theorem Taken.then_kept {year : ℕ} (h : Taken t t₁ kind year) (h' : Kept t₁ t' kind) :
    Numbered t t' kind :=
  .inr ⟨year, h'.carried.trans h.carried, fun year' => (h'.counters year').trans (h.counters year')⟩

/-- The counters of the other kind are not touched. -/
theorem counter_nextNumber_of_ne {kind' : SequenceKind} (hne : kind' ≠ kind) (ctx : Ctx)
    (year : ℕ) : counter (nextNumber ctx sequences kind kind.stem).2 kind' year =
      counter sequences kind' year := by
  rw [nextNumber_eq, counter_setCounter, if_neg fun h => hne h.1]

/-- Taking a number moves the counter of its year. -/
theorem counter_nextNumber (ctx : Ctx) (year : ℕ) :
    counter (nextNumber ctx sequences kind kind.stem).2 kind year =
      if year = Date.year ctx.localdate then
        counter sequences kind (Date.year ctx.localdate) + 1
      else counter sequences kind year := by
  rw [nextNumber_eq, counter_setCounter]
  by_cases h : year = Date.year ctx.localdate <;> simp [h]

/-- Writing a row back with the number it had. -/
theorem map_put {α β : Type} [Keyed α Id] {f : α → β} {rows : List α} {a b : α}
    (hnd : (Table.keys rows).Nodup) (ha : a ∈ rows) (hkey : key b = key a) (hf : f b = f a) :
    (Table.put b rows).map f = rows.map f := by
  rw [Table.put, List.map_map]
  refine List.map_congr_left fun c hc => ?_
  by_cases h : key c = key b
  · have hca : c = a := Table.eq_of_key_eq hnd hc ha (h.trans hkey)
    show f (if key c = key b then b else c) = f c
    rw [if_pos h, hf, hca]
  · show f (if key c = key b then b else c) = f c
    rw [if_neg h]

/-! ### Endpoint by endpoint -/

/-- A tenant with the same documents and sequences. -/
theorem numbered_of_same (hkeys : UniqueKeys t) (hinvoices : t'.invoices = t.invoices)
    (hinspections : t'.inspections = t.inspections) (hsequences : t'.sequences = t.sequences) :
    UniqueKeys t' ∧ ∀ kind, Numbered t t' kind := by
  refine ⟨⟨hinvoices ▸ hkeys.invoices, hinspections ▸ hkeys.inspections⟩, fun kind => ?_⟩
  refine .inl ⟨?_, fun year => by rw [hsequences]⟩
  cases kind with
  | invoice => rw [carried, carried, hinvoices]
  | inspection => rw [carried, carried, hinspections]

/-- An invoice was added under the next number. -/
theorem taken_invoice {i : Invoice} (hinvoices : t'.invoices = i :: t.invoices)
    (hnumber : i.invoiceNo = (nextNumber ctx t.sequences .invoice "INV").1)
    (hsequences : t'.sequences = (nextNumber ctx t.sequences .invoice "INV").2) :
    Taken t t' .invoice (Date.year ctx.localdate) := by
  refine ⟨?_, fun year => ?_⟩
  · rw [carried, carried, hinvoices, List.map_cons, hnumber]
    rfl
  · rw [hsequences]
    exact counter_nextNumber ctx year

/-- Taking an invoice number keeps those of the inspections. -/
theorem kept_inspections (hinspections : carried t' .inspection = carried t .inspection)
    (hsequences : t'.sequences = (nextNumber ctx t.sequences .invoice "INV").2) :
    Kept t t' .inspection := by
  refine ⟨hinspections, fun year => ?_⟩
  rw [hsequences]
  exact counter_nextNumber_of_ne (by decide) ctx year

/-- Measurements number what they issue. -/
theorem measurements_numbered {op : Measurements.Op} {response : Measurements.Response}
    (hkeys : UniqueKeys t) (h : op.handle sha t ctx actor = .ok (t', response)) :
    UniqueKeys t' ∧ ∀ kind, Numbered t t' kind := by
  rcases measurements_frame h with ⟨hsite, _, hinvoices, hsequences⟩ | ⟨p, p', a, i, _, _, hissued⟩
  · exact numbered_of_same hkeys hinvoices hsite.inspections hsequences
  · have hinspections := hissued.sameSite.inspections
    obtain ⟨ctx, hnumber, hsequences⟩ := hissued.numbered
    refine ⟨⟨?_, hinspections ▸ hkeys.inspections⟩, fun kind => ?_⟩
    · rw [hissued.invoices, Table.keys_cons, List.nodup_cons]
      exact ⟨hissued.fresh, hkeys.invoices⟩
    · cases kind with
      | invoice => exact .inr ⟨_, taken_invoice hissued.invoices hnumber hsequences⟩
      | inspection =>
          exact .inl (kept_inspections (by rw [carried, carried, hinspections]) hsequences)

/-- Billing takes an invoice number and keeps the inspections'. -/
theorem billed_numbered {inspection : Inspection} {call : VesselCall} {rate : Decimal 4}
    {i : Invoice} (hkeys : UniqueKeys t) (hmem : inspection ∈ t.inspections)
    (h : Billed ctx t t' inspection call rate i) :
    UniqueKeys t' ∧ Taken t t' .invoice (Date.year ctx.localdate) ∧ Kept t t' .inspection := by
  obtain ⟨s, _, _, hi⟩ := h.step
  have hinvoices : t'.invoices = i :: t.invoices := by rw [h.tenant]; rfl
  have hinspections : t'.inspections = Table.put (inspection.complete ctx) t.inspections := by
    rw [h.tenant]; rfl
  have hsequences : t'.sequences = (nextNumber ctx t.sequences .invoice "INV").2 := by
    rw [h.tenant]; rfl
  have hreferences : carried t' .inspection = carried t .inspection := by
    rw [carried, carried, hinspections]
    exact map_put hkeys.inspections hmem rfl rfl
  refine ⟨⟨?_, ?_⟩, taken_invoice hinvoices (by rw [hi]; rfl) hsequences,
    kept_inspections hreferences hsequences⟩
  · rw [hinvoices, Table.keys_cons, List.nodup_cons]
    exact ⟨h.fresh, hkeys.invoices⟩
  · rw [hinspections, Table.keys_put]
    exact hkeys.inspections

/-- Drafting takes an inspection number and keeps the invoices'. -/
theorem drafted_numbered {data : InspectionInput} {header : String} {call : VesselCall}
    {inspection : Inspection} (hkeys : UniqueKeys t)
    (h : Drafted ctx t data header call inspection)
    (hsequences : sequences = (nextNumber ctx t.sequences .inspection "INS").2) :
    UniqueKeys (inspected t call inspection sequences) ∧
      Taken t (inspected t call inspection sequences) .inspection (Date.year ctx.localdate) ∧
      Kept t (inspected t call inspection sequences) .invoice := by
  refine ⟨⟨hkeys.invoices, ?_⟩, ⟨?_, fun year => ?_⟩, ⟨rfl, fun year => ?_⟩⟩
  · show (Table.keys (inspection :: t.inspections)).Nodup
    rw [Table.keys_cons, List.nodup_cons]
    exact ⟨h.fresh, hkeys.inspections⟩
  · show inspection.reference :: t.inspections.map Inspection.reference = _
    rw [h.draft]
    rfl
  · show counter sequences .inspection year = _
    rw [hsequences]
    exact counter_nextNumber ctx year
  · show counter sequences .invoice year = _
    rw [hsequences]
    exact counter_nextNumber_of_ne (by decide) ctx year

/-- Operations number what they create. -/
theorem operations_numbered {op : Operations.Op} {response : Operations.Response}
    (hkeys : UniqueKeys t) (h : op.handle t ctx = .ok (t', response)) :
    UniqueKeys t' ∧ ∀ kind, Numbered t t' kind := by
  cases handle_step h with
  | callCreated _ _ _ _ tenant => exact tenant ▸ numbered_of_same hkeys rfl rfl rfl
  | callPatched _ _ _ _ _ _ _ _ tenant => exact tenant ▸ numbered_of_same hkeys rfl rfl rfl
  | callCancelled _ _ _ _ _ _ _ _ _ _ tenant => exact tenant ▸ numbered_of_same hkeys rfl rfl rfl
  | cancelReplayed _ _ _ _ _ _ _ tenant =>
      subst tenant
      exact numbered_of_same hkeys rfl rfl rfl
  | creationReplayed _ _ _ _ _ _ tenant =>
      subst tenant
      exact numbered_of_same hkeys rfl rfl rfl
  | drafted _ _ call inspection hdrafted sequences _ _ _ tenant hnumbered =>
      obtain ⟨hkeys', htaken, hkept⟩ := drafted_numbered hkeys hdrafted hnumbered
      subst tenant
      refine ⟨hkeys', fun kind => ?_⟩
      cases kind with
      | invoice => exact .inl hkept
      | inspection => exact .inr ⟨_, htaken⟩
  | draftedAndBilled _ _ call inspection hdrafted sequences _ _ _ _ hbilled _ _ _ _ hnumbered =>
      -- An inspection number is taken first, then an invoice number.
      obtain ⟨hkeys₁, htaken, hkept⟩ := drafted_numbered hkeys hdrafted hnumbered
      obtain ⟨hkeys', htaken', hkept'⟩ := billed_numbered hkeys₁ List.mem_cons_self hbilled
      refine ⟨hkeys', fun kind => ?_⟩
      cases kind with
      | invoice => exact hkept.then_numbered (.inr ⟨_, htaken'⟩)
      | inspection => exact htaken.then_kept hkept'
  | draftedInvoiced _ _ call inspection hdrafted sequences _ _ _ _ _ _ tenant hnumbered =>
      obtain ⟨hkeys', htaken, hkept⟩ := drafted_numbered hkeys hdrafted hnumbered
      subst tenant
      refine ⟨hkeys', fun kind => ?_⟩
      cases kind with
      | invoice => exact .inl hkept
      | inspection => exact .inr ⟨_, htaken⟩
  | inspectionPatched _ _ inspection inspection' mem _ hid _ _ _ tenant hreference =>
      subst tenant
      refine ⟨⟨hkeys.invoices, ?_⟩, fun kind => .inl ⟨?_, fun _ => rfl⟩⟩
      · show (Table.keys (Table.put inspection' t.inspections)).Nodup
        rw [Table.keys_put]
        exact hkeys.inspections
      · cases kind with
        | invoice => rfl
        | inspection => exact map_put hkeys.inspections mem hid hreference
  | finalizationReplayed _ _ _ _ _ _ _ _ _ _ tenant =>
      subst tenant
      exact numbered_of_same hkeys rfl rfl rfl
  | billed _ _ _ _ _ _ hfound hbilled =>
      obtain ⟨hkeys', htaken, hkept⟩ := billed_numbered hkeys (Table.mem_of_get hfound).1 hbilled
      refine ⟨hkeys', fun kind => ?_⟩
      cases kind with
      | invoice => exact .inr ⟨_, htaken⟩
      | inspection => exact .inl hkept

/-- Billing takes no number. -/
theorem billing_numbered {op : Billing.Op} {response : Billing.Response} (hkeys : UniqueKeys t)
    (h : op.handle t ctx actor = .ok (t', response)) :
    UniqueKeys t' ∧ ∀ kind, Numbered t t' kind := by
  obtain ⟨_, hinspections, hsequences⟩ := billing_frame h
  obtain ⟨_, hsame | ⟨i, i', hi, hcharge, _, hput⟩⟩ := billing_invoices h
  · exact numbered_of_same hkeys hsame hinspections hsequences
  · refine ⟨⟨?_, hinspections ▸ hkeys.inspections⟩, fun kind => .inl ⟨?_, ?_⟩⟩
    · rw [hput, Table.keys_put]
      exact hkeys.invoices
    · cases kind with
      | invoice =>
          rw [carried, carried, hput]
          exact map_put hkeys.invoices hi hcharge.id hcharge.invoiceNo
      | inspection => rw [carried, carried, hinspections]
    · exact fun year => by rw [hsequences]

/-- **Every accepted request** keeps the numbers of a kind, or takes the next one. -/
theorem handle_numbered {r : Request} {a : VesselCaller.Response} (hkeys : UniqueKeys t)
    (h : t.handle sha r = .ok (t', a)) : UniqueKeys t' ∧ ∀ kind, Numbered t t' kind := by
  cases r with
  | measurements actor ctx op =>
      simp only [Tenant.handle, bind_eq_ok, pure_eq_ok, Prod.exists, Prod.mk.injEq] at h
      obtain ⟨_, _, _, _, hop, rfl, _⟩ := h
      exact measurements_numbered hkeys hop
  | portal ctx op =>
      simp only [Tenant.handle, bind_eq_ok, pure_eq_ok, Prod.exists, Prod.mk.injEq] at h
      obtain ⟨_, _, hop, rfl, _⟩ := h
      obtain ⟨hsite, _, hinvoices, hsequences⟩ := portal_frame hop
      exact numbered_of_same hkeys hinvoices hsite.inspections hsequences
  | operations actor ctx op =>
      simp only [Tenant.handle, bind_eq_ok, pure_eq_ok, Prod.exists, Prod.mk.injEq] at h
      obtain ⟨_, _, _, _, hop, rfl, _⟩ := h
      exact operations_numbered hkeys hop
  | billing actor ctx op =>
      simp only [Tenant.handle, bind_eq_ok, pure_eq_ok, Prod.exists, Prod.mk.injEq] at h
      obtain ⟨_, _, _, _, hop, rfl, _⟩ := h
      exact billing_numbered hkeys hop
  | organizations actor ctx op =>
      simp only [Tenant.handle, bind_eq_ok, pure_eq_ok, Prod.exists, Prod.mk.injEq] at h
      obtain ⟨_, _, _, _, hop, rfl, _⟩ := h
      have hrecords := organizations_frame hop
      exact numbered_of_same hkeys hrecords.invoices hrecords.inspections hrecords.sequences
  | users actor ctx op =>
      simp only [Tenant.handle, bind_eq_ok, pure_eq_ok, Prod.exists, Prod.mk.injEq] at h
      obtain ⟨_, _, _, _, _, rfl, _⟩ := h
      exact numbered_of_same hkeys rfl rfl rfl
  | auth ctx op =>
      simp only [Tenant.handle, bind_eq_ok, pure_eq_ok, Prod.exists, Prod.mk.injEq] at h
      obtain ⟨_, _, _, rfl, _⟩ := h
      exact numbered_of_same hkeys rfl rfl rfl

/-! ## Ahead of the documents -/

/-- No document carries a number past the counter of its year. -/
def Ahead (t : Tenant) : Prop :=
  ∀ kind year value, numberText kind year value ∈ carried t kind →
    value ≤ counter t.sequences kind year

/-- **The next number is carried by no document.** -/
theorem Ahead.next_notMem (h : Ahead t) (ctx : Ctx) (kind : SequenceKind) :
    (nextNumber ctx t.sequences kind kind.stem).1 ∉ carried t kind := by
  rw [nextNumber_eq]
  intro hmem
  exact absurd (h kind _ _ hmem) (Nat.not_succ_le_self _)

/-- A step keeps the counters ahead of the numbers. -/
theorem Ahead.numbered (h : Ahead t) (hstep : ∀ kind, Numbered t t' kind) : Ahead t' := by
  intro kind year value hmem
  obtain hkept | ⟨year', htaken⟩ := hstep kind
  · rw [hkept.counters]
    exact h kind year value (hkept.carried ▸ hmem)
  · rw [htaken.counters]
    rw [htaken.carried, List.mem_cons] at hmem
    obtain hnew | hold := hmem
    · obtain ⟨rfl, rfl⟩ := numberText_inj hnew
      rw [if_pos rfl]
    · have hle := h kind year value hold
      split
      · rename_i heq
        subst heq
        exact Nat.le_succ_of_le hle
      · exact hle

/-! ### The rebuild -/

/-- What the loop over `by_year` leaves: the entries, and the other counters as they were. -/
theorem counter_rebuilt {entries : List (Sigma fun _ : ℤ => ℤ)} {kind : SequenceKind} :
    ∀ {sequences sequences' : List NumberSequence}, (entries.map Sigma.fst).Nodup →
      entries.foldlM (fun sequences (e : Sigma fun _ : ℤ => ℤ) => do
        raiseIf (¬(0 ≤ e.1 ∧ e.1 ≤ 32767 ∧ e.2 ≤ 2147483647))
          (ApiError.integrity "billing_numbersequence")
        return setCounter sequences kind e.1.toNat e.2.toNat) sequences = .ok sequences' →
      (∀ e ∈ entries, 0 ≤ e.1 ∧ counter sequences' kind e.1.toNat = e.2.toNat) ∧
      (∀ year : ℕ, (year : ℤ) ∉ entries.map Sigma.fst →
        counter sequences' kind year = counter sequences kind year) ∧
      ∀ kind', kind' ≠ kind → ∀ year,
        counter sequences' kind' year = counter sequences kind' year := by
  induction entries with
  | nil =>
      intro sequences sequences' _ h
      rw [List.foldlM_nil, pure_eq_ok] at h
      subst h
      exact ⟨fun e he => absurd he List.not_mem_nil, fun _ _ => rfl, fun _ _ _ => rfl⟩
  | cons e entries ih =>
      intro sequences sequences' hnd h
      rw [List.map_cons, List.nodup_cons] at hnd
      simp only [List.foldlM_cons, bind_eq_ok, raiseIf_eq_ok, not_not, pure_eq_ok] at h
      obtain ⟨sequences₁, ⟨_, ⟨hyear, _⟩, rfl⟩, hrest⟩ := h
      obtain ⟨hentries, hothers, hkinds⟩ := ih hnd.2 hrest
      have hself : ((e.1.toNat : ℕ) : ℤ) = e.1 := Int.toNat_of_nonneg hyear
      refine ⟨List.forall_mem_cons.mpr ⟨⟨hyear, ?_⟩, hentries⟩, fun year hnotMem => ?_,
        fun kind' hne year => ?_⟩
      · rw [hothers _ (by rw [hself]; exact hnd.1), counter_setCounter, if_pos ⟨rfl, rfl⟩]
      · rw [List.map_cons, List.mem_cons, not_or] at hnotMem
        rw [hothers year hnotMem.2, counter_setCounter, if_neg]
        rintro ⟨_, rfl⟩
        exact hnotMem.1 hself
      · rw [hkinds kind' hne, counter_setCounter, if_neg fun h => hne h.1]

/-- A rebuilt counter is no less than any number in use. -/
theorem le_counter_rebuildKind {values : List String} {sequences' : List NumberSequence}
    {year value : ℕ} (h : rebuildKind u kind values sequences = .ok sequences')
    (hmem : numberText kind year value ∈ values) : value ≤ counter sequences' kind year := by
  have hcounter : (value : ℤ) ∈ Legacy.counters u kind.stem values year :=
    Legacy.mem_counters.mpr ⟨_, hmem, documentNumber_numberText u kind year value⟩
  have hentry : (⟨year, (Legacy.counters u kind.stem values year).foldl max 0⟩ :
      Sigma fun _ : ℤ => ℤ) ∈ (Legacy.byYear u kind.stem values).entries :=
    Legacy.mem_entries_byYear.mpr ⟨List.ne_nil_of_mem hcounter, rfl⟩
  obtain ⟨hentries, _, _⟩ := counter_rebuilt (Legacy.byYear u kind.stem values).nodupKeys h
  have htop : counter sequences' kind year =
      ((Legacy.counters u kind.stem values year).foldl max 0).toNat := (hentries _ hentry).2
  have hle := (Legacy.foldl_max_le_iff.mp (le_refl
    ((Legacy.counters u kind.stem values year).foldl max 0))).2 value hcounter
  rw [htop]
  omega

/-- **The rebuild puts every counter ahead of the documents.** -/
theorem ahead_rebuildSequences {sequences' : List NumberSequence}
    (h : rebuildSequences u t = .ok sequences') : Ahead { t with sequences := sequences' } := by
  rw [rebuildSequences, bind_eq_ok] at h
  obtain ⟨sequences₁, hinvoices, hinspections⟩ := h
  intro kind year value hmem
  cases kind with
  | invoice =>
      obtain ⟨_, _, hkinds⟩ :=
        counter_rebuilt (Legacy.byYear u _ (carried t .inspection)).nodupKeys hinspections
      have hsame := hkinds .invoice (by decide) year
      show value ≤ counter sequences' .invoice year
      rw [hsame]
      exact le_counter_rebuildKind hinvoices hmem
  | inspection => exact le_counter_rebuildKind hinspections hmem

/-! ## Without gaps -/

/-- The documents carry the numbers up to the counters, each once. -/
def Gapless (t : Tenant) : Prop :=
  ∀ kind, (carried t kind).Nodup ∧ ∀ text, text ∈ carried t kind ↔
    ∃ year value, 1 ≤ value ∧ value ≤ counter t.sequences kind year ∧
      text = numberText kind year value

/-- A step keeps the numbers without a gap. -/
theorem Gapless.numbered (h : Gapless t) (hstep : ∀ kind, Numbered t t' kind) : Gapless t' := by
  intro kind
  obtain ⟨hnd, hmem⟩ := h kind
  obtain hkept | ⟨year, htaken⟩ := hstep kind
  · simp only [hkept.carried, hkept.counters]
    exact ⟨hnd, hmem⟩
  · rw [htaken.carried]
    refine ⟨List.nodup_cons.mpr ⟨?_, hnd⟩, fun text => ?_⟩
    · intro hold
      obtain ⟨year', value, _, hle, heq⟩ := (hmem _).mp hold
      obtain ⟨rfl, rfl⟩ := numberText_inj heq
      exact absurd hle (Nat.not_succ_le_self _)
    · rw [List.mem_cons, hmem]
      simp only [htaken.counters]
      constructor
      · rintro (rfl | ⟨year', value, hpos, hle, rfl⟩)
        · exact ⟨year, _, Nat.le_add_left _ _, by rw [if_pos rfl], rfl⟩
        · refine ⟨year', value, hpos, ?_, rfl⟩
          split
          · rename_i heq
            subst heq
            exact Nat.le_succ_of_le hle
          · exact hle
      · rintro ⟨year', value, hpos, hle, rfl⟩
        by_cases hyear : year' = year
        · subst hyear
          rw [if_pos rfl] at hle
          obtain hlt | rfl := Nat.lt_or_eq_of_le hle
          · exact .inr ⟨year', value, hpos, Nat.le_of_lt_succ hlt, rfl⟩
          · exact .inl rfl
        · rw [if_neg hyear] at hle
          exact .inr ⟨year', value, hpos, hle, rfl⟩

/-! ## Runs -/

/-- At the start no key is taken twice. -/
theorem uniqueKeys_initial (h : t.Initial) : UniqueKeys t := by
  refine ⟨?_, ?_⟩
  · rw [h.invoices]
    exact List.nodup_nil
  · rw [h.inspections]
    exact List.nodup_nil

/-- At the start no number is carried. -/
theorem carried_initial (h : t.Initial) (kind : SequenceKind) : carried t kind = [] := by
  cases kind with
  | invoice => rw [carried, h.invoices, List.map_nil]
  | inspection => rw [carried, h.inspections, List.map_nil]

/-- Every event keeps the counters ahead of the documents. -/
theorem ahead_run (h₀ : t.Initial) (es : List Event) :
    UniqueKeys (run (Event.handle sha u) t es) ∧ Ahead (run (Event.handle sha u) t es) := by
  refine run_invariant (P := fun t => UniqueKeys t ∧ Ahead t) ?_ es
    ⟨uniqueKeys_initial h₀, fun kind year value hmem => ?_⟩
  · rintro t₁ e t₂ a ⟨hkeys, hahead⟩ he
    cases e with
    | request r =>
        simp only [Event.handle, bind_eq_ok, pure_eq_ok, Prod.exists, Prod.mk.injEq] at he
        obtain ⟨_, _, hr, rfl, _⟩ := he
        obtain ⟨hkeys', hstep⟩ := handle_numbered hkeys hr
        exact ⟨hkeys', hahead.numbered hstep⟩
    | imported rows =>
        simp only [Event.handle, bind_eq_ok, pure_eq_ok, Prod.mk.injEq] at he
        obtain ⟨sequences, hsequences, rfl, _⟩ := he
        have hahead' := ahead_rebuildSequences (t := { rows.tenant with
          sequences := t₁.sequences }) hsequences
        exact ⟨⟨rows.keys.invoices, rows.keys.inspections⟩, hahead'⟩
  · rw [carried_initial h₀] at hmem
    exact absurd hmem List.not_mem_nil

/-- Runs keep the numbers without a gap. -/
theorem gapless_run (h₀ : t.Initial) (rs : List Request) :
    UniqueKeys (run (Tenant.handle sha) t rs) ∧ Gapless (run (Tenant.handle sha) t rs) := by
  refine run_invariant (P := fun t => UniqueKeys t ∧ Gapless t) ?_ rs
    ⟨uniqueKeys_initial h₀, fun kind => ?_⟩
  · rintro t₁ r t₂ a ⟨hkeys, hgapless⟩ hr
    obtain ⟨hkeys', hstep⟩ := handle_numbered hkeys hr
    exact ⟨hkeys', hgapless.numbered hstep⟩
  · rw [carried_initial h₀]
    refine ⟨List.nodup_nil, fun text => iff_of_false List.not_mem_nil ?_⟩
    rintro ⟨year, value, hpos, hle, _⟩
    rw [h₀.sequences] at hle
    exact absurd (hpos.trans hle) (by simp [counter])

/-- **Document numbers.**  After any requests and imports, `next_number` returns a number that no
document of its kind carries; without an import, the documents of a kind carry the values from one
to the counter of each year, and each of them once. -/
theorem document_numbers (sha : Sha256) (u : Unicode) {t₀ : Tenant} (h₀ : t₀.Initial) :
    (∀ (es : List Event) (ctx : Ctx) (kind : SequenceKind),
      let t := run (Event.handle sha u) t₀ es
      (nextNumber ctx t.sequences kind kind.stem).1 ∉ carried t kind) ∧
    ∀ (rs : List Request) (kind : SequenceKind),
      let t := run (Tenant.handle sha) t₀ rs
      (carried t kind).Nodup ∧ ∀ text, text ∈ carried t kind ↔
        ∃ year value, 1 ≤ value ∧ value ≤ counter t.sequences kind year ∧
          text = numberText kind year value :=
  ⟨fun es ctx kind => (ahead_run h₀ es).2.next_notMem ctx kind,
    fun rs kind => (gapless_run h₀ rs).2 kind⟩

/-- An import that brings an inspection with a number of the legacy system. -/
def legacyRows : ImportedRows where
  tenant := { Sample.tenant with
    inspections := [{
      id := 700
      vesselCallId := 600
      reference := "INS-2026-0041"
      vesselName := "MT Legacy"
      cargoType := .liquid
      product := "PMS"
      reconciledTonnage := 900000
      jetty := .null
      liquid := .null
      dry := .null
      status := .completed
      idempotencyKey := ""
      version := 1
      completedAt := some 1767355200
      createdAt := 1767355200
      updatedAt := 1767355200 }] }
  keys := ⟨by decide, by decide⟩

/-- After a billed inspection and the import, the next inspection is the 42nd of the year. -/
theorem document_numbers_imported :
    let t := run (Event.handle Sample.sha .ascii) Sample.tenant
      (Sample.inspected.map .request ++ [.imported legacyRows])
    (nextNumber (Sample.ctx 9) t.sequences .inspection "INS").1 = "INS-2026-0042" ∧
      (nextNumber (Sample.ctx 9) t.sequences .inspection "INS").1 ∉ carried t .inspection ∧
      (carried (run (Tenant.handle Sample.sha) Sample.tenant Sample.inspected) .invoice).Nodup :=
  ⟨by decide +kernel,
    (document_numbers Sample.sha .ascii Sample.initial).1 _ (Sample.ctx 9) .inspection,
    ((document_numbers Sample.sha .ascii Sample.initial).2 Sample.inspected .invoice).1⟩

end VesselCaller.Billing
