import VesselCaller.Closeout.Types
import Mathlib.Algebra.Group.Action.Defs

/-!
# The calculation of a close-out

The arithmetic of `measurements/closeoutPreview.ts`.  A quantity is a text that `decimal`
reads into units of `10^(-6)`, a rate one in units of `10^(-4)` and an amount one in cents;
`calculateVariation` compares the quantities a report has settled with those declared and
charges what exceeds the declaration.

Everything is integer arithmetic, and `fixed` writes its results back as texts.  The bounds
proved here say that the texts are read again: a variance has at most fifteen whole digits,
an entitlement stays below `10^32` cents and the total of a hundred lines below `10^34`.  With
rates of fewer digits an entitlement is smaller, and more lines stay below that total.

## Main definitions

* `decimal`, `fixed` — texts read into units, and units written as texts;
* `LineFigures` — the figures of a line, with its variance, entitlement, amount and status;
* `calculateVariation` — the calculation as a whole.
-/

namespace VesselCaller.Closeout

open Lib

/-! ## Decimals -/

/-- `decimal`: the units of `10^(-precision)` a text stands for. -/
def decimal (value : Option String) (precision maxWhole : ℕ) : Option ℕ :=
  value.bind fun text => readScaled precision maxWhole (trim text).toList

/-- `fixed`. -/
def fixed (value : ℤ) (precision : ℕ) : String :=
  (if value < 0 then "-" else "") ++ String.ofList (writeScaled precision value.natAbs)

/-- `quantityText`. -/
def quantityText (value : ℤ) : String :=
  String.ofList (stripZeros (fixed value 6).toList)

/-- A text without its leading minus sign. -/
def dropSign (text : String) : String :=
  match text.toList with
  | '-' :: cs => String.ofList cs
  | _ => text

/-- `/^\d{1,w}(?:\.\d{1,p})?$/`. -/
def fixedPattern (w p : ℕ) (cs : List Char) : Bool :=
  let whole := cs.takeWhile Char.isDigit
  1 ≤ whole.length && whole.length ≤ w &&
    match cs.dropWhile Char.isDigit with
    | [] => true
    | c :: fraction =>
        c = '.' && 1 ≤ fraction.length && fraction.length ≤ p && fraction.all Char.isDigit

/-! ## Reports and invoice lines -/

structure PreviewReportLine where
  planId : String
  lineId : String
  description : String
  unit : CargoUnit
  declaredQuantity : Option String
  quantity : String
  reason : String
  deriving DecidableEq, Repr

structure PreviewInvoiceLineInput where
  planId : String
  lineId : String
  rate : String
  previousVariationAmount : String
  deriving DecidableEq, Repr

inductive PreviewInvoiceStatus where
  | draft
  | noCharge
  | overpaymentReview
  | held
  deriving DecidableEq, Repr

inductive PreviewLineStatus where
  | charge
  | noCharge
  | overpaymentReview
  | held
  deriving DecidableEq, Repr

structure PreviewInvoiceLine extends PreviewInvoiceLineInput where
  description : String
  unit : CargoUnit
  declaredQuantity : String
  finalQuantity : String
  variance : String
  amount : String
  entitlement : String
  status : PreviewLineStatus
  deriving DecidableEq, Repr

/-! ## The calculation -/

/-- The key of a cargo line, `${planId}:${lineId}`. -/
def lineKey (planId lineId : String) : String := planId ++ ":" ++ lineId

/-- The cents due for a variance at a rate, rounded half up. -/
def entitlementOf (variance : ℤ) (rate : ℕ) : ℕ :=
  if variance > 0 then (variance.toNat * rate + 50000000) / 100000000 else 0

/-- The part of an entitlement that has not been charged before. -/
def amountOf (entitlement previous : ℕ) : ℕ :=
  if entitlement > previous then entitlement - previous else 0

def lineStatusOf (variance : ℤ) (entitlement previous amount : ℕ) : PreviewLineStatus :=
  if variance < 0 then .overpaymentReview
  else if previous > entitlement then .held
  else if amount > 0 then .charge
  else .noCharge

/-- The numbers `calculateVariation` reads for one line. -/
structure LineFigures where
  baseline : ℕ
  final : ℕ
  rate : ℕ
  previous : ℕ
  deriving DecidableEq, Repr

namespace LineFigures

variable (f : LineFigures)

def variance : ℤ := (f.final : ℤ) - f.baseline

def entitlement : ℕ := entitlementOf f.variance f.rate

def amount : ℕ := amountOf f.entitlement f.previous

def status : PreviewLineStatus := lineStatusOf f.variance f.entitlement f.previous f.amount

end LineFigures

/-- The figures of a line of the report, where the texts are numbers. -/
def lineFigures (row : PreviewReportLine) (input : PreviewInvoiceLineInput) :
    Option LineFigures := do
  let baseline ← decimal row.declaredQuantity 6 15
  let final ← decimal (some row.quantity) 6 15
  let rate ← decimal (some input.rate) 4 15
  let previous ← decimal (some input.previousVariationAmount) 2 15
  return { baseline := baseline, final := final, rate := rate, previous := previous }

/-- The invoice line of a line of the report. -/
def invoiceLine (row : PreviewReportLine) (input : PreviewInvoiceLineInput) (f : LineFigures) :
    PreviewInvoiceLine :=
  { input with
    description := row.description
    unit := row.unit
    declaredQuantity := row.declaredQuantity.getD ""
    finalQuantity := row.quantity
    variance := quantityText f.variance
    entitlement := fixed f.entitlement 2
    amount := fixed f.amount 2
    status := f.status }

/-- The input entered for a line of the report. -/
def inputFor (inputs : List PreviewInvoiceLineInput) (row : PreviewReportLine) :
    Option PreviewInvoiceLineInput :=
  inputs.find? fun item => item.planId = row.planId && item.lineId = row.lineId

/-- One round of the loop over the lines of the report: an issue, or a line with its amount. -/
def calculateLine (inputs : List PreviewInvoiceLineInput) (row : PreviewReportLine) :
    Except String (PreviewInvoiceLine × ℕ) :=
  match (inputFor inputs row).bind fun input => (lineFigures row input).map (input, ·) with
  | some (input, f) => .ok (invoiceLine row input f, f.amount)
  | none => .error (row.description ++
      ": enter valid declaration, final quantity, rate and previous variation amount.")

structure Variation where
  lines : List PreviewInvoiceLine
  total : String
  status : PreviewInvoiceStatus
  issues : List String
  deriving DecidableEq, Repr

/-- The status of a calculation. -/
def variationStatus (issues : List String) (lines : List PreviewInvoiceLine) (total : ℕ) :
    PreviewInvoiceStatus :=
  if issues ≠ [] ∨ lines.any (·.status = .held) then .held
  else if lines.any (·.status = .overpaymentReview) then .overpaymentReview
  else if total > 0 then .draft
  else .noCharge

/-- The invoice lines of the report, with their amounts. -/
def chargesOf (rows : List PreviewReportLine) (inputs : List PreviewInvoiceLineInput) :
    List (PreviewInvoiceLine × ℕ) :=
  (rows.map (calculateLine inputs)).filterMap Except.toOption

/-- The issues of a calculation, in the order they are found. -/
def calculationIssues (rows : List PreviewReportLine) (inputs : List PreviewInvoiceLineInput) :
    List String :=
  let keys := inputs.map fun row => lineKey row.planId row.lineId
  (if ¬keys.Nodup ∨ inputs.length ≠ rows.length then
    ["Enter one rate and previous variation amount for every cargo item."]
  else []) ++ (rows.map (calculateLine inputs)).filterMap fun
    | .error issue => some issue
    | .ok _ => none

/-- `calculateVariation`, on the lines of the report. -/
def calculateVariation (rows : List PreviewReportLine) (inputs : List PreviewInvoiceLineInput) :
    Variation :=
  let issues := calculationIssues rows inputs
  let lines := (chargesOf rows inputs).map Prod.fst
  let total := ((chargesOf rows inputs).map Prod.snd).sum
  let status := variationStatus issues lines total
  { lines := lines
    total := if status = .held ∨ status = .overpaymentReview then "0.00" else fixed total 2
    status := status
    issues := issues }

/-! ## Numbers that are read again -/

theorem isSpace_of_mem_writeScaled {p n : ℕ} {c : Char} (h : c ∈ writeScaled p n) :
    isSpace c = false := by
  obtain hdigit | rfl := isDigit_or_point h
  · exact isSpace_of_isDigit hdigit
  · decide

theorem decimal_some (text : String) (p w : ℕ) :
    decimal (some text) p w = readScaled p w (trim text).toList := by
  rw [decimal, Option.bind_some]

theorem decimal_trim (text : String) (p w : ℕ) :
    decimal (some (trim text)) p w = decimal (some text) p w := by
  rw [decimal_some, decimal_some, trim_trim]

/-- The pattern of a number is what the parser accepts. -/
theorem fixedPattern_eq (w p : ℕ) (cs : List Char) :
    fixedPattern w p cs = (readScaled p w cs).isSome := by
  unfold fixedPattern readScaled numeralParts
  by_cases hwhole : cs.takeWhile Char.isDigit = []
  · simp [hwhole]
  · have hpos : 1 ≤ (cs.takeWhile Char.isDigit).length := List.length_pos_iff.mpr hwhole
    rw [if_neg hwhole]
    dsimp only
    cases hrest : cs.dropWhile Char.isDigit with
    | nil =>
        simp only [hpos, decide_true, Bool.true_and, Bool.and_true, Option.bind_some,
          List.length_nil, not_lt_zero, or_false]
        split <;> simp_all
    | cons c fraction =>
        dsimp only
        by_cases hpoint : c = '.' ∧ fraction ≠ [] ∧ fraction.all Char.isDigit = true
        · have hfraction : 1 ≤ fraction.length := List.length_pos_iff.mpr hpoint.2.1
          rw [if_pos hpoint, Option.bind_some]
          simp only [hpos, hpoint.1, hpoint.2.2, hfraction, decide_true, Bool.true_and,
            Bool.and_true]
          split
          · rename_i hlong
            rcases hlong with h | h <;> simp [h]
          · rename_i hshort
            simp only [not_or, not_lt] at hshort
            simp [hshort.1, hshort.2]
        · rw [if_neg hpoint, Option.bind_none, Option.isSome_none]
          have hno : (decide (c = '.') && decide (1 ≤ fraction.length) &&
              decide (fraction.length ≤ p) && fraction.all Char.isDigit) = false := by
            rw [Bool.eq_false_iff]
            intro htrue
            simp only [Bool.and_eq_true, decide_eq_true_eq] at htrue
            exact hpoint ⟨htrue.1.1.1, List.length_pos_iff.mp htrue.1.1.2, htrue.2⟩
          rw [hno, Bool.and_false]

/-- What is trimmed and matched is what is read. -/
theorem fixedPattern_trim (w p : ℕ) (text : String) :
    fixedPattern w p (trim text).toList = (decimal (some text) p w).isSome := by
  rw [fixedPattern_eq, decimal_some]

/-- A text of digits and a point is read as it stands. -/
theorem decimal_ofList {cs : List Char} (h : ∀ c ∈ cs, isSpace c = false) (p w : ℕ) :
    decimal (some (String.ofList cs)) p w = readScaled p w cs := by
  have htrim : trim (String.ofList cs) = String.ofList cs := by
    refine trim_of_forall fun c hc => h c ?_
    rwa [String.toList_ofList] at hc
  rw [decimal_some, htrim, String.toList_ofList]

theorem fixed_natCast (n p : ℕ) : fixed (n : ℤ) p = String.ofList (writeScaled p n) := by
  have hn : ¬(n : ℤ) < 0 := by omega
  rw [fixed, if_neg hn, Int.natAbs_natCast]
  exact String.empty_append

/-- What `fixed` has written with `p` decimals, `decimal` reads. -/
theorem decimal_fixed {p w n : ℕ} (hp : 0 < p) (hw : 0 < w) (h : n < 10 ^ (w + p)) :
    decimal (some (fixed (n : ℤ) p)) p w = some n := by
  rw [fixed_natCast, decimal_ofList fun c hc => isSpace_of_mem_writeScaled hc,
    readScaled_writeScaled hp hw h]

/-- What is accepted with some decimals is accepted with more. -/
theorem decimal_of_le {value : Option String} {p q w n : ℕ} (h : decimal value p w = some n)
    (hp : p ≤ q) : decimal value q w = some (n * 10 ^ (q - p)) := by
  cases value with
  | none => cases h
  | some text =>
      rw [decimal_some] at h ⊢
      exact readScaled_of_le h hp le_rfl

theorem decimal_lt {value : Option String} {p w n : ℕ} (h : decimal value p w = some n) :
    n < 10 ^ (w + p) := by
  cases value with
  | none => cases h
  | some text =>
      rw [decimal_some] at h
      exact readScaled_lt h

theorem stripZeros_prefix_self (cs : List Char) : stripZeros cs <+: cs := by
  unfold stripZeros
  dsimp only
  split
  · exact (List.dropLast_prefix _).trans (List.rdropWhile_prefix _ _)
  · exact List.rdropWhile_prefix _ _

/-- A minus sign takes no part in stripping zeros. -/
theorem stripZeros_minus {p n : ℕ} (hp : 0 < p) :
    stripZeros ('-' :: writeScaled p n) = '-' :: stripZeros (writeScaled p n) := by
  have hne : (Nat.toDigits 10 (n % 10 ^ p)).leftpad p '0' ≠ [] :=
    List.ne_nil_of_length_pos ((length_leftpad_mod hp n).symm ▸ hp)
  have hds : ∀ c ∈ (Nat.toDigits 10 (n % 10 ^ p)).leftpad p '0', c.isDigit = true :=
    isDigit_leftpad fun c hc => isDigit_toDigits hc
  rw [writeScaled, stripZeros_point hne hds, ← List.cons_append, stripZeros_point hne hds,
    List.cons_append]

theorem dropSign_minus (cs : List Char) :
    dropSign (String.ofList ('-' :: cs)) = String.ofList cs := by
  rw [dropSign, String.toList_ofList]
  rfl

theorem dropSign_of_not_mem {cs : List Char} (h : '-' ∉ cs) :
    dropSign (String.ofList cs) = String.ofList cs := by
  rw [dropSign, String.toList_ofList]
  split
  · exact absurd List.mem_cons_self h
  · rfl

/-- The text of a variance without its sign is a quantity again. -/
theorem decimal_quantityText {v : ℤ} (h : v.natAbs < 10 ^ 21) :
    decimal (some (dropSign (quantityText v))) 6 15 = some v.natAbs := by
  have hdrop : dropSign (quantityText v) =
      String.ofList (stripZeros (writeScaled 6 v.natAbs)) := by
    by_cases hv : v < 0
    · have hminus : "-".toList = ['-'] := by decide
      rw [quantityText, fixed, if_pos hv, String.toList_append, hminus, String.toList_ofList,
        List.singleton_append, stripZeros_minus (by decide), dropSign_minus]
    · rw [quantityText, fixed, if_neg hv, String.empty_append, String.toList_ofList]
      refine dropSign_of_not_mem fun hmem => ?_
      obtain hdigit | hpoint := isDigit_or_point ((stripZeros_prefix_self _).subset hmem)
      · exact absurd hdigit (by decide)
      · exact absurd hpoint (by decide)
  have hspace : ∀ c ∈ stripZeros (writeScaled 6 v.natAbs), isSpace c = false := fun c hc =>
    isSpace_of_mem_writeScaled ((stripZeros_prefix_self _).subset hc)
  rw [hdrop, decimal_ofList hspace, readScaled_stripZeros (by decide) (by decide) h]

/-! ## Bounds -/

theorem lineFigures_eq_some {row : PreviewReportLine} {input : PreviewInvoiceLineInput}
    {f : LineFigures} : lineFigures row input = some f ↔
      decimal row.declaredQuantity 6 15 = some f.baseline ∧
      decimal (some row.quantity) 6 15 = some f.final ∧
      decimal (some input.rate) 4 15 = some f.rate ∧
      decimal (some input.previousVariationAmount) 2 15 = some f.previous := by
  unfold lineFigures
  constructor
  · intro h
    obtain ⟨baseline, hbaseline, h⟩ := Option.bind_eq_some_iff.mp h
    obtain ⟨final, hfinal, h⟩ := Option.bind_eq_some_iff.mp h
    obtain ⟨rate, hrate, h⟩ := Option.bind_eq_some_iff.mp h
    obtain ⟨previous, hprevious, h⟩ := Option.bind_eq_some_iff.mp h
    cases h
    exact ⟨hbaseline, hfinal, hrate, hprevious⟩
  · rintro ⟨hbaseline, hfinal, hrate, hprevious⟩
    rw [hbaseline, hfinal, hrate, hprevious]
    rfl

theorem calculateLine_eq_ok {inputs : List PreviewInvoiceLineInput} {row : PreviewReportLine}
    {charge : PreviewInvoiceLine × ℕ} : calculateLine inputs row = .ok charge ↔
      ∃ input f, inputFor inputs row = some input ∧ lineFigures row input = some f ∧
        charge = (invoiceLine row input f, f.amount) := by
  unfold calculateLine
  constructor
  · intro h
    split at h
    · rename_i input f hfound
      obtain ⟨input', hinput, hmap⟩ := Option.bind_eq_some_iff.mp hfound
      obtain ⟨f', hf, hpair⟩ := Option.map_eq_some_iff.mp hmap
      cases hpair
      cases h
      exact ⟨input, f, hinput, hf, rfl⟩
    · cases h
  · rintro ⟨input, f, hinput, hf, rfl⟩
    rw [hinput, Option.bind_some, hf, Option.map_some]

theorem mem_chargesOf {rows : List PreviewReportLine} {inputs : List PreviewInvoiceLineInput}
    {charge : PreviewInvoiceLine × ℕ} : charge ∈ chargesOf rows inputs ↔
      ∃ row ∈ rows, calculateLine inputs row = .ok charge := by
  have htoOption : ∀ x : Except String (PreviewInvoiceLine × ℕ),
      x.toOption = some charge ↔ x = .ok charge := by
    intro x
    cases x <;> simp [Except.toOption]
  simp only [chargesOf, List.mem_filterMap, List.mem_map, htoOption, exists_exists_and_eq_and]

/-- Of inputs made for each line of a report, each line finds its own. -/
theorem inputFor_map {rows : List PreviewReportLine}
    {input : PreviewReportLine → PreviewInvoiceLineInput}
    (hkeys : ∀ row, (input row).planId = row.planId ∧ (input row).lineId = row.lineId)
    (hnd : (rows.map fun row => (row.planId, row.lineId)).Nodup) {row : PreviewReportLine}
    (hrow : row ∈ rows) : inputFor (rows.map input) row = some (input row) := by
  unfold inputFor
  induction rows with
  | nil => cases hrow
  | cons first rows ih =>
      rw [List.map_cons, List.nodup_cons] at hnd
      rw [List.map_cons, List.find?_cons]
      rcases List.mem_cons.mp hrow with rfl | hrow
      · simp [hkeys]
      · have hother : ¬(first.planId = row.planId ∧ first.lineId = row.lineId) := by
          rintro ⟨hplan, hline⟩
          exact hnd.1 (List.mem_map.mpr ⟨row, hrow, by rw [hplan, hline]⟩)
        have hfirst : (decide ((input first).planId = row.planId) &&
            decide ((input first).lineId = row.lineId)) = false := by
          rw [(hkeys first).1, (hkeys first).2, Bool.eq_false_iff]
          simpa using hother
        rw [hfirst]
        exact ih hnd.2 hrow

/-- A calculation has no issues where every line is calculated and there is one input for
each. -/
theorem calculationIssues_eq_nil {rows : List PreviewReportLine}
    {inputs : List PreviewInvoiceLineInput} : calculationIssues rows inputs = [] ↔
      (inputs.map fun row => lineKey row.planId row.lineId).Nodup ∧
        inputs.length = rows.length ∧
        ∀ row ∈ rows, ∃ charge, calculateLine inputs row = .ok charge := by
  have hcount : ∀ text : String,
      (if ¬(inputs.map fun row => lineKey row.planId row.lineId).Nodup ∨
        inputs.length ≠ rows.length then [text] else []) = [] ↔
      (inputs.map fun row => lineKey row.planId row.lineId).Nodup ∧
        inputs.length = rows.length := by
    intro text
    rw [ite_eq_right_iff]
    simp only [List.cons_ne_nil, imp_false, not_or, not_not]
  unfold calculationIssues
  dsimp only
  rw [List.append_eq_nil_iff, hcount, and_assoc, List.filterMap_map, List.filterMap_eq_nil_iff]
  refine and_congr_right fun _ => and_congr_right fun _ => forall₂_congr fun row _ => ?_
  dsimp only [Function.comp_apply]
  cases calculateLine inputs row with
  | error issue => simp
  | ok charge => simp

/-- Where every line is calculated, the charges are those of the lines, in order. -/
theorem chargesOf_eq_map {rows : List PreviewReportLine} {inputs : List PreviewInvoiceLineInput}
    {charge : PreviewReportLine → PreviewInvoiceLine × ℕ}
    (h : ∀ row ∈ rows, calculateLine inputs row = .ok (charge row)) :
    chargesOf rows inputs = rows.map charge := by
  have hlines : rows.map (calculateLine inputs) = rows.map fun row => .ok (charge row) :=
    List.map_congr_left h
  have hsome : (Except.toOption ∘ fun row => (.ok (charge row) : Except String _)) =
      some ∘ charge := rfl
  rw [chargesOf, hlines, List.filterMap_map, hsome, List.filterMap_eq_map]

namespace LineFigures

variable {f : LineFigures} {row : PreviewReportLine} {input : PreviewInvoiceLineInput}

theorem natAbs_variance_lt (h : lineFigures row input = some f) :
    f.variance.natAbs < 10 ^ 21 := by
  obtain ⟨hbaseline, hfinal, -, -⟩ := lineFigures_eq_some.mp h
  have hb : f.baseline < 10 ^ 21 := decimal_lt hbaseline
  have hf : f.final < 10 ^ 21 := decimal_lt hfinal
  unfold variance
  omega

theorem amount_le_entitlement : f.amount ≤ f.entitlement := by
  unfold amount amountOf
  split <;> omega

/-- With a rate of at most `d` whole digits, an entitlement has at most `15 + d`. -/
theorem entitlement_lt_of_rate {d : ℕ} (h : lineFigures row input = some f)
    (hrate : f.rate < 10 ^ (d + 4)) : f.entitlement < 10 ^ (17 + d) := by
  obtain ⟨-, hfinal, -, -⟩ := lineFigures_eq_some.mp h
  have hf : f.final < 10 ^ 21 := decimal_lt hfinal
  unfold entitlement entitlementOf
  split
  · have hv : f.variance.toNat ≤ 10 ^ 21 := by
      unfold variance
      omega
    have hproduct : f.variance.toNat * f.rate ≤ 10 ^ 21 * f.rate := Nat.mul_le_mul_right _ hv
    have hrates : 10 ^ 21 * (f.rate + 1) ≤ 10 ^ 21 * 10 ^ (d + 4) := Nat.mul_le_mul_left _ hrate
    have hbound : 10 ^ (17 + d) * 100000000 = 10 ^ 21 * 10 ^ (d + 4) := by
      rw [pow_add, pow_add]
      ring
    rw [Nat.div_lt_iff_lt_mul (by decide), hbound]
    rw [mul_add, mul_one] at hrates
    omega
  · positivity

/-- An entitlement has at most thirty whole digits. -/
theorem entitlement_lt (h : lineFigures row input = some f) : f.entitlement < 10 ^ 32 := by
  obtain ⟨-, -, hrate, -⟩ := lineFigures_eq_some.mp h
  have hr : f.rate < 10 ^ (15 + 4) := decimal_lt hrate
  have hlt : f.entitlement < 10 ^ (17 + 15) := entitlement_lt_of_rate h hr
  exact hlt

end LineFigures

/-- No rate has more than `d` digits before its point, or more than four behind it. -/
def RatesWithin (d : ℕ) (inputs : List PreviewInvoiceLineInput) : Prop :=
  ∀ input ∈ inputs, fixedPattern d 4 (trim input.rate).toList = true

/-- The rate that is read of a text within `d` digits is within them. -/
theorem LineFigures.rate_lt {d : ℕ} {row : PreviewReportLine} {input : PreviewInvoiceLineInput}
    {f : LineFigures} (h : lineFigures row input = some f)
    (hwithin : fixedPattern d 4 (trim input.rate).toList = true) : f.rate < 10 ^ (d + 4) := by
  obtain ⟨-, -, hrate, -⟩ := lineFigures_eq_some.mp h
  rw [fixedPattern_eq] at hwithin
  obtain ⟨n, hn⟩ := Option.isSome_iff_exists.mp hwithin
  rw [decimal_some] at hrate
  -- Both readings are of the same digits, whatever number of them is allowed.
  obtain ⟨whole, fraction, hparts, -, -, hvalue⟩ := readScaled_eq_some.mp hrate
  obtain ⟨whole', fraction', hparts', -, -, hvalue'⟩ := readScaled_eq_some.mp hn
  cases hparts.symm.trans hparts'
  rw [← hvalue, hvalue']
  exact readScaled_lt hn

/-- The total has at most thirty-two whole digits where the lines are as few as the digits of
the rates are many. -/
theorem sum_amounts_lt {d : ℕ} {rows : List PreviewReportLine}
    {inputs : List PreviewInvoiceLineInput} (hd : d ≤ 17) (h : rows.length ≤ 10 ^ (17 - d))
    (hrates : ∀ row ∈ rows, ∀ input ∈ inputs, ∀ f, lineFigures row input = some f →
      f.rate < 10 ^ (d + 4)) :
    ((chargesOf rows inputs).map Prod.snd).sum < 10 ^ 34 := by
  have hbound : ∀ amount ∈ (chargesOf rows inputs).map Prod.snd,
      amount ≤ 10 ^ (17 + d) - 1 := by
    intro amount hamount
    obtain ⟨charge, hcharge, rfl⟩ := List.mem_map.mp hamount
    obtain ⟨row, hrow, hline⟩ := mem_chargesOf.mp hcharge
    obtain ⟨input, f, hinput, hf, rfl⟩ := calculateLine_eq_ok.mp hline
    have hlt := LineFigures.entitlement_lt_of_rate hf
      (hrates row hrow input (List.mem_of_find?_eq_some hinput) f hf)
    have hle : f.amount ≤ f.entitlement := LineFigures.amount_le_entitlement
    show f.amount ≤ 10 ^ (17 + d) - 1
    omega
  have hlength : ((chargesOf rows inputs).map Prod.snd).length ≤ 10 ^ (17 - d) := by
    rw [List.length_map]
    refine (List.length_filterMap_le _ _).trans ?_
    rwa [List.length_map]
  have hpos : 0 < 10 ^ (17 + d) := by positivity
  calc ((chargesOf rows inputs).map Prod.snd).sum
      ≤ ((chargesOf rows inputs).map Prod.snd).length * (10 ^ (17 + d) - 1) := by
        rw [← smul_eq_mul]
        exact List.sum_le_card_nsmul _ _ hbound
    _ ≤ 10 ^ (17 - d) * (10 ^ (17 + d) - 1) := Nat.mul_le_mul_right _ hlength
    _ < 10 ^ (17 - d) * 10 ^ (17 + d) := Nat.mul_lt_mul_of_pos_left (by omega) (by positivity)
    _ = 10 ^ 34 := by rw [← pow_add, show 17 - d + (17 + d) = 34 by omega]

end VesselCaller.Closeout
