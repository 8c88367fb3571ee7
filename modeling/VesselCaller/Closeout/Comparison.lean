import VesselCaller.Closeout.Types
import VesselCaller.Lib.Scientific

/-!
# The comparison of quantities

`measurements/comparison.ts`.  A reading is a numeral that may have a sign and an exponent;
`decimal` reads it into a count of units and the places of the unit, and everything else is
integer arithmetic on these.  Its parser is wider than the one of the close-out: it takes
what a form may hold while it is filled in.

`Accepts` says which texts are readings, by their numeral alone, and `Denotes` which number
a reading is.  The differences, the verdicts and the printed readings are about these
numbers.

## Main definitions

* `decimal`, `quantityDifference`, `tallyResult` — the functions of the source;
* `Accepts`, `Denotes` — which texts are readings, and what number they stand for;
* `Pronounces` — what a difference is shown as.
-/

namespace VesselCaller.Closeout.Comparison

open Lib

/-! ## Readings -/

/-- `value.length`: the code units of a text. -/
def jsLength (s : String) : ℕ := (s.toList.map fun c => if c.toNat ≤ 65535 then 1 else 2).sum

/-- A number of units of `10^(-places)`. -/
structure Parsed where
  digits : ℕ
  places : ℕ
  deriving DecidableEq, Repr

/-- The digits and places of a numeral, with the exponent folded into the places. -/
def fold (n : Numeral) : Parsed :=
  let places := (n.fraction.length : ℤ) - n.scale
  if places < 0 then { digits := n.digits * 10 ^ (-places).toNat, places := 0 }
  else { digits := n.digits, places := places.toNat }

/-- `decimal`. -/
def decimal (value : Option String) : Option Parsed :=
  value.bind fun text =>
    if jsLength text > 200 then none
    else
      (matchNumeral (trim text).toList).bind fun n =>
        if n.scale.natAbs > 100 ∨ (n.sign = .minus ∧ n.digits ≠ 0) then none
        else some (fold n)

/-- `digits.toString().padStart(places + 1, "0")`, of the absolute value. -/
def padded (digits : ℤ) (places : ℕ) : List Char :=
  (Nat.toDigits 10 digits.natAbs).leftpad (places + 1) '0'

/-- The digits in front of the point. -/
def wholeDigits (digits : ℤ) (places : ℕ) : List Char :=
  if places ≠ 0 then (padded digits places).rdrop places else padded digits places

/-- The digits behind the point, without the zeros at the end. -/
def fractionDigits (digits : ℤ) (places : ℕ) : List Char :=
  if places ≠ 0 then ((padded digits places).rtake places).rdropWhile (· = '0') else []

/-- `decimalText`. -/
def decimalText (digits : ℤ) (places : ℕ) : String :=
  String.ofList ((if digits < 0 then ['-'] else []) ++
    (wholeDigits digits places ++ pointed (fractionDigits digits places)))

/-- `whole.replace(/\B(?=(\d{3})+(?!\d))/g, ",")`, on a run of digits: a comma goes in front
of every digit but the first that begins a number of triples. -/
def grouped : List Char → List Char
  | [] => []
  | c :: cs => if cs ≠ [] ∧ cs.length % 3 = 0 then c :: ',' :: grouped cs else c :: grouped cs

/-- `readingQuantity`. -/
def readingQuantity (value : Option String) : String :=
  match decimal value with
  | none => "Not provided"
  | some parsed =>
      if parsed.digits = 0 then "NIL (0)"
      else
        match (decimalText parsed.digits parsed.places).toList.splitOn '.' with
        | whole :: fraction :: _ => String.ofList (grouped whole ++ pointed fraction)
        | [whole] => String.ofList (grouped whole)
        | [] => ""

/-! ## Differences -/

/-- A difference as a text: `decimalText`, with a plus sign on a positive one. -/
def differenceText (difference : ℤ) (places : ℕ) : String :=
  (if difference > 0 then "+" else "") ++ decimalText difference places

/-- `quantityDifference`. -/
def quantityDifference (measured declared : Option String) : Option String := do
  let reading ← decimal measured
  let baseline ← decimal declared
  let places := max reading.places baseline.places
  let difference : ℤ := reading.digits * 10 ^ (places - reading.places) -
    baseline.digits * 10 ^ (places - baseline.places)
  return differenceText difference places

inductive TallyStatus where
  | tallies
  | above
  | below
  | unknown
  deriving DecidableEq, Repr

structure Tally where
  status : TallyStatus
  label : String
  difference : Option String
  deriving DecidableEq, Repr

/-- `text.startsWith(start)`. -/
def startsWith (text start : String) : Bool := start.toList.isPrefixOf text.toList

/-- `tallyResult`. -/
def tallyResult (measured declared : Option String) : Tally :=
  match quantityDifference measured declared with
  | none => { status := .unknown, label := "Awaiting comparison", difference := none }
  | some difference =>
      if difference = "0" then
        { status := .tallies, label := "Tallies", difference := some difference }
      else if startsWith difference "-" then
        { status := .below, label := "Below declaration", difference := some difference }
      else { status := .above, label := "Above declaration", difference := some difference }

example : quantityDifference (some "1.5e1") (some " 12.50 ") = some "+2.5" ∧
    quantityDifference (some ".5") (some "0.500") = some "0" ∧
    readingQuantity (some "1234567.80") = "1,234,567.8" := by decide +kernel

/-! ## The numbers of readings -/

/-- A text is accepted as a numeral: without the space around it, it is the text of one, of
a bounded exponent and not below zero. -/
structure Accepts (text : String) (n : Numeral) : Prop where
  length : jsLength text ≤ 200
  text : n.chars = (trim text).toList
  scale : n.scale.natAbs ≤ 100
  nonneg : 0 ≤ n.value

/-- The reading is an accepted text, and `q` the number it spells. -/
def Denotes (reading : Option String) (q : ℚ) : Prop :=
  ∃ text n, reading = some text ∧ Accepts text n ∧ n.value = q

/-- The number of a parsed reading. -/
def Parsed.value (p : Parsed) : ℚ := p.digits / 10 ^ p.places

/-- Folding the exponent into the places keeps the number. -/
theorem value_fold {n : Numeral} (h : 0 ≤ n.value) : (fold n).value = n.value := by
  have hten : (10 : ℚ) ≠ 0 := by norm_num
  have hvalue : n.value = n.digits * 10 ^ (n.scale - n.fraction.length) := by
    have hneg := n.value_neg_iff.not.mp (not_lt.mpr h)
    rw [n.value_eq]
    cases hsign : n.sign with
    | none => simp [Sign.factor]
    | plus => simp [Sign.factor]
    | minus =>
        have hdigits : n.digits = 0 := by
          by_contra hne
          exact hneg ⟨hsign, hne⟩
        simp [hdigits]
  rw [hvalue]
  unfold fold Parsed.value
  dsimp only
  split
  · rename_i hplaces
    -- The exponent moves the point behind the last digit.
    have hexp : n.scale - n.fraction.length = ((-(n.fraction.length - n.scale)).toNat : ℤ) := by
      omega
    rw [hexp, zpow_natCast]
    push_cast
    simp
  · rename_i hplaces
    have hexp : n.scale - n.fraction.length = -((n.fraction.length - n.scale).toNat : ℤ) := by
      omega
    rw [hexp, zpow_neg, zpow_natCast]
    rfl

/-- What `decimal` accepts, and what it makes of it. -/
theorem decimal_eq_some {reading : Option String} {p : Parsed} :
    decimal reading = some p ↔
      ∃ text n, reading = some text ∧ Accepts text n ∧ fold n = p := by
  constructor
  · intro h
    obtain ⟨text, rfl, hread⟩ := Option.bind_eq_some_iff.mp h
    split at hread
    · cases hread
    rename_i hlength
    obtain ⟨n, hn, hfold⟩ := Option.bind_eq_some_iff.mp hread
    split at hfold
    · cases hfold
    rename_i hbounds
    cases hfold
    have hscale : ¬n.scale.natAbs > 100 := fun h => hbounds (.inl h)
    refine ⟨text, n, rfl, ⟨not_lt.mp hlength, matchNumeral_eq_some.mp hn, not_lt.mp hscale, ?_⟩,
      rfl⟩
    exact not_lt.mp fun hneg => hbounds (.inr (n.value_neg_iff.mp hneg))
  · rintro ⟨text, n, rfl, haccepts, rfl⟩
    have hbounds : ¬(n.scale.natAbs > 100 ∨ (n.sign = .minus ∧ n.digits ≠ 0)) := by
      rintro (hscale | hneg)
      · exact absurd haccepts.scale (not_le.mpr hscale)
      · exact absurd haccepts.nonneg (not_le.mpr (n.value_neg_iff.mpr hneg))
    rw [decimal, Option.bind_some, if_neg (not_lt.mpr haccepts.length),
      matchNumeral_eq_some.mpr haccepts.text, Option.bind_some, if_neg hbounds]

/-- A reading denotes the number `decimal` reads. -/
theorem denotes_iff {reading : Option String} {q : ℚ} :
    Denotes reading q ↔ ∃ p, decimal reading = some p ∧ p.value = q := by
  constructor
  · rintro ⟨text, n, hreading, haccepts, rfl⟩
    exact ⟨fold n, decimal_eq_some.mpr ⟨text, n, hreading, haccepts, rfl⟩,
      value_fold haccepts.nonneg⟩
  · rintro ⟨p, hp, rfl⟩
    obtain ⟨text, n, hreading, haccepts, rfl⟩ := decimal_eq_some.mp hp
    exact ⟨text, n, hreading, haccepts, (value_fold haccepts.nonneg).symm⟩

theorem decimal_eq_none {reading : Option String} :
    decimal reading = none ↔ ∀ q, ¬Denotes reading q := by
  constructor
  · intro h q hq
    obtain ⟨p, hp, -⟩ := denotes_iff.mp hq
    rw [h] at hp
    cases hp
  · intro h
    cases hp : decimal reading with
    | none => rfl
    | some p => exact absurd (denotes_iff.mpr ⟨p, hp, rfl⟩) (h _)

/-! ## The numbers of printed texts -/

variable (d : ℤ) (p : ℕ)

theorem isDigit_padded : ∀ c ∈ padded d p, c.isDigit = true :=
  isDigit_leftpad fun _ hc => isDigit_toDigits hc

theorem length_padded : p + 1 ≤ (padded d p).length := by
  rw [padded, List.length_leftpad]
  exact le_max_left _ _

theorem digitsValue_padded : digitsValue (padded d p) = d.natAbs := by
  rw [padded, digitsValue_leftpad, digitsValue, Nat.ofDigitChars_ten_toDigits]

/-- At least one digit stands in front of the point. -/
theorem wholeDigits_ne_nil : wholeDigits d p ≠ [] := by
  have hlength := length_padded d p
  apply List.ne_nil_of_length_pos
  unfold wholeDigits
  split
  · rw [List.rdrop, List.length_take]
    omega
  · omega

theorem isDigit_wholeDigits : ∀ c ∈ wholeDigits d p, c.isDigit = true := by
  intro c hc
  unfold wholeDigits at hc
  split at hc
  · exact isDigit_padded d p c (List.mem_of_mem_take hc)
  · exact isDigit_padded d p c hc

theorem isDigit_fractionDigits : ∀ c ∈ fractionDigits d p, c.isDigit = true := by
  intro c hc
  unfold fractionDigits at hc
  split at hc
  · have hkept : c ∈ (padded d p).rtake p := (List.rdropWhile_prefix _ _).subset hc
    exact isDigit_padded d p c (List.mem_of_mem_drop hkept)
  · exact absurd hc List.not_mem_nil

/-- The printed digits are those of the number. -/
theorem decimalValue_digits :
    decimalValue (wholeDigits d p) (fractionDigits d p) = (d.natAbs : ℚ) / 10 ^ p := by
  have hlength := length_padded d p
  by_cases hp : p = 0
  · have hwhole : wholeDigits d p = padded d p := by rw [wholeDigits, if_neg (not_not.mpr hp)]
    have hfraction : fractionDigits d p = [] := by rw [fractionDigits, if_neg (not_not.mpr hp)]
    rw [hwhole, hfraction, decimalValue_eq, List.append_nil, digitsValue_padded, hp]
    rfl
  · have hwhole : wholeDigits d p = (padded d p).rdrop p := by rw [wholeDigits, if_pos hp]
    have hfraction : fractionDigits d p = ((padded d p).rtake p).rdropWhile (· = '0') := by
      rw [fractionDigits, if_pos hp]
    have hall : (padded d p).rdrop p ++ (padded d p).rtake p = padded d p := by
      rw [List.rdrop, List.rtake, List.take_append_drop]
    have hplaces : ((padded d p).rtake p).length = p := by
      rw [List.rtake, List.length_drop]
      omega
    rw [hwhole, hfraction, decimalValue_rdropWhile, decimalValue_eq, hall, digitsValue_padded,
      hplaces]

/-- A printed number is that of its text. -/
theorem numeralValue_decimalText :
    numeralValue (decimalText d p).toList = some ((d : ℚ) / 10 ^ p) := by
  have hprinted : ∀ sign : Sign, numeralValue
      (sign.chars ++ (wholeDigits d p ++ pointed (fractionDigits d p))) =
      some (sign.factor * ((d.natAbs : ℚ) / 10 ^ p)) := by
    intro sign
    rw [numeralValue_decimal sign (wholeDigits_ne_nil d p) (isDigit_wholeDigits d p)
      (isDigit_fractionDigits d p), decimalValue_digits]
  rw [decimalText, String.toList_ofList]
  by_cases hd : d < 0
  · have habs : (d.natAbs : ℚ) = -d := by
      rw [Nat.cast_natAbs, abs_of_neg hd, Int.cast_neg]
    rw [if_pos hd]
    refine (hprinted .minus).trans (congrArg some ?_)
    rw [habs]
    simp only [Sign.factor, Int.cast_neg, Int.cast_one]
    ring
  · have habs : (d.natAbs : ℚ) = d := by
      rw [Nat.cast_natAbs, abs_of_nonneg (not_lt.mp hd)]
    rw [if_neg hd]
    refine (hprinted .none).trans (congrArg some ?_)
    rw [habs]
    simp only [Sign.factor, Int.cast_one, one_mul]

theorem decimalText_of_nonneg (h : 0 ≤ d) :
    (decimalText d p).toList = wholeDigits d p ++ pointed (fractionDigits d p) := by
  rw [decimalText, String.toList_ofList, if_neg (not_lt.mpr h), List.nil_append]

theorem numeralValue_differenceText :
    numeralValue (differenceText d p).toList = some ((d : ℚ) / 10 ^ p) := by
  by_cases hd : 0 < d
  · have htext : (differenceText d p).toList =
        Sign.plus.chars ++ (wholeDigits d p ++ pointed (fractionDigits d p)) := by
      have hplus : "+".toList = ['+'] := by decide
      rw [differenceText, if_pos hd, String.toList_append, decimalText_of_nonneg d p hd.le, hplus]
      rfl
    have habs : (d.natAbs : ℚ) = d := by
      rw [Nat.cast_natAbs, abs_of_nonneg hd.le]
    rw [htext, numeralValue_decimal .plus (wholeDigits_ne_nil d p) (isDigit_wholeDigits d p)
      (isDigit_fractionDigits d p), decimalValue_digits, habs]
    simp only [Sign.factor, Int.cast_one, one_mul]
  · rw [differenceText, if_neg hd, String.empty_append, numeralValue_decimalText]

/-- A difference is printed as `0` exactly when there is none. -/
theorem differenceText_eq_zero_iff : differenceText d p = "0" ↔ d = 0 := by
  constructor
  · intro h
    have hvalue := numeralValue_differenceText d p
    have hzero : numeralValue "0".toList = some 0 := by decide +kernel
    have hpow : (10 : ℚ) ^ p ≠ 0 := by positivity
    rw [h, hzero, Option.some_inj] at hvalue
    rcases div_eq_zero_iff.mp hvalue.symm with hd | hten
    · exact_mod_cast hd
    · exact absurd hten hpow
  · rintro rfl
    have hpadded : padded 0 p = List.replicate (p + 1) '0' := by
      show List.replicate (p + 1 - 1) '0' ++ ['0'] = _
      rw [Nat.add_sub_cancel, ← List.replicate_succ']
    have hwhole : wholeDigits 0 p = ['0'] := by
      unfold wholeDigits
      split
      · rw [hpadded, List.rdrop, List.length_replicate, Nat.add_sub_cancel_left,
          List.take_replicate]
        simp
      · rename_i hp
        rw [hpadded, not_not.mp hp]
        rfl
    have hfraction : fractionDigits 0 p = [] := by
      unfold fractionDigits
      split
      · rw [hpadded, List.rtake, List.length_replicate, List.drop_replicate]
        exact List.rdropWhile_eq_nil_iff.mpr fun c hc => by
          simpa using (List.mem_replicate.mp hc).2
      · rfl
    rw [differenceText, decimalText, hwhole, hfraction]
    rfl

/-- The first character of a difference is its sign, or a digit. -/
theorem startsWith_differenceText :
    (startsWith (differenceText d p) "+" = true ↔ 0 < d) ∧
      (startsWith (differenceText d p) "-" = true ↔ d < 0) := by
  have hplus : "+".toList = ['+'] := by decide
  have hminus : "-".toList = ['-'] := by decide
  unfold startsWith differenceText decimalText
  rw [hplus, hminus]
  rcases lt_trichotomy d 0 with hd | hd | hd
  · rw [if_neg (not_lt.mpr hd.le), if_pos hd, String.empty_append, String.toList_ofList]
    simp [hd, hd.le]
  · obtain ⟨c, cs, hwhole⟩ := List.exists_cons_of_ne_nil (wholeDigits_ne_nil d p)
    have hdigit : c.isDigit = true :=
      isDigit_wholeDigits d p c (hwhole ▸ List.mem_cons_self)
    obtain ⟨hp, hm, -⟩ := not_special_of_isDigit hdigit
    rw [if_neg hd.le.not_gt, if_neg hd.ge.not_gt, String.empty_append, String.toList_ofList, hwhole]
    simp [hd, hp.symm, hm.symm]
  · rw [if_pos hd, if_neg (not_lt.mpr hd.le), String.toList_append, hplus, String.toList_ofList]
    simp [hd, hd.le]

/-! ## Grouping -/

/-- A text without its group separators. -/
def ungrouped (cs : List Char) : List Char := cs.filter (· ≠ ',')

theorem ungrouped_of_isDigit {cs : List Char} (h : ∀ c ∈ cs, c.isDigit = true) :
    ungrouped cs = cs := by
  refine List.filter_eq_self.mpr fun c hc => ?_
  have hdigit := h c hc
  simp only [ne_eq, decide_eq_true_eq]
  rintro rfl
  exact absurd hdigit (by decide)

/-- Grouping inserts separators only. -/
theorem ungrouped_grouped (cs : List Char) : ungrouped (grouped cs) = ungrouped cs := by
  induction cs with
  | nil => rfl
  | cons c cs ih =>
      have hcons : ∀ ds, ungrouped (c :: ds) = ungrouped [c] ++ ungrouped ds := fun ds => by
        rw [ungrouped, ungrouped, ungrouped, ← List.filter_append, List.singleton_append]
      have hcomma : ∀ ds, ungrouped (',' :: ds) = ungrouped ds := fun ds => by simp [ungrouped]
      rw [grouped, hcons cs]
      split
      · rw [hcons, hcomma, ih]
      · rw [hcons, ih]

/-! ## Exactness -/

/-- The difference of two readings is that of their numbers, as a text. -/
theorem quantityDifference_of {a b : Option String} {x y : ℚ} (ha : Denotes a x)
    (hb : Denotes b y) : ∃ (difference : ℤ) (places : ℕ),
      quantityDifference a b = some (differenceText difference places) ∧
        (difference : ℚ) / 10 ^ places = x - y := by
  obtain ⟨reading, hreading, rfl⟩ := denotes_iff.mp ha
  obtain ⟨baseline, hbaseline, rfl⟩ := denotes_iff.mp hb
  refine ⟨reading.digits * 10 ^ (max reading.places baseline.places - reading.places) -
    baseline.digits * 10 ^ (max reading.places baseline.places - baseline.places),
    max reading.places baseline.places, ?_, ?_⟩
  · rw [quantityDifference, hreading, hbaseline]
    rfl
  · have hscaled : ∀ q : Parsed, q.places ≤ max reading.places baseline.places →
        (q.digits : ℚ) * 10 ^ (max reading.places baseline.places - q.places) /
          10 ^ max reading.places baseline.places = q.value := by
      intro q hq
      have hsplit : (10 : ℚ) ^ max reading.places baseline.places =
          10 ^ (max reading.places baseline.places - q.places) * 10 ^ q.places := by
        rw [← pow_add, Nat.sub_add_cancel hq]
      have hpow : (10 : ℚ) ^ (max reading.places baseline.places - q.places) ≠ 0 := by positivity
      have hplaces : (10 : ℚ) ^ q.places ≠ 0 := by positivity
      rw [Parsed.value, hsplit]
      field_simp
    push_cast
    rw [sub_div, hscaled reading (le_max_left _ _), hscaled baseline (le_max_right _ _)]

/-- The sign of a difference of numbers is that of its units. -/
theorem sign_of_scaled {difference : ℤ} {places : ℕ} {q : ℚ}
    (h : (difference : ℚ) / 10 ^ places = q) :
    (difference = 0 ↔ q = 0) ∧ (0 < difference ↔ 0 < q) ∧ (difference < 0 ↔ q < 0) := by
  have hpow : (0 : ℚ) < 10 ^ places := by positivity
  subst h
  refine ⟨?_, ?_, ?_⟩
  · rw [div_eq_zero_iff, or_iff_left hpow.ne', Int.cast_eq_zero]
  · rw [lt_div_iff₀ hpow, zero_mul, Int.cast_pos]
  · rw [div_lt_iff₀ hpow, zero_mul, Int.cast_lt_zero]

theorem quantityDifference_eq_none {a b : Option String} :
    quantityDifference a b = none ↔ (∀ x, ¬Denotes a x) ∨ ∀ y, ¬Denotes b y := by
  rw [← decimal_eq_none, ← decimal_eq_none]
  unfold quantityDifference
  cases ha : decimal a with
  | none => simp
  | some reading =>
      cases hb : decimal b with
      | none => simp
      | some baseline =>
          simp only [reduceCtorEq, or_self, iff_false]
          exact nofun

/-- The verdict on two readings, by their numbers. -/
def verdict (x y : ℚ) : TallyStatus :=
  if x = y then .tallies else if x < y then .below else .above

/-- What is said of a difference. -/
structure Pronounces (difference : String) (q : ℚ) : Prop where
  value : numeralValue difference.toList = some q
  zero : difference = "0" ↔ q = 0
  plus : startsWith difference "+" = true ↔ 0 < q
  minus : startsWith difference "-" = true ↔ q < 0

theorem quantityDifference_pronounces {a b : Option String} {x y : ℚ} (ha : Denotes a x)
    (hb : Denotes b y) :
    ∃ difference, quantityDifference a b = some difference ∧ Pronounces difference (x - y) := by
  obtain ⟨d, p, hdifference, hvalue⟩ := quantityDifference_of ha hb
  obtain ⟨hzero, hpos, hneg⟩ := sign_of_scaled hvalue
  obtain ⟨hplus, hminus⟩ := startsWith_differenceText d p
  exact ⟨_, hdifference, hvalue ▸ numeralValue_differenceText d p,
    (differenceText_eq_zero_iff d p).trans hzero, hplus.trans hpos, hminus.trans hneg⟩

theorem tallyResult_status {a b : Option String} {x y : ℚ} (ha : Denotes a x)
    (hb : Denotes b y) : (tallyResult a b).status = verdict x y := by
  obtain ⟨difference, hdifference, hsaid⟩ := quantityDifference_pronounces ha hb
  have hzero : difference = "0" ↔ x = y := by rw [hsaid.zero, sub_eq_zero]
  have hminus : startsWith difference "-" = true ↔ x < y := by rw [hsaid.minus, sub_neg]
  unfold tallyResult verdict
  rw [hdifference]
  simp only [hzero, hminus]
  split
  · rfl
  · split <;> rfl

theorem tallyResult_unknown_iff {a b : Option String} :
    (tallyResult a b).status = .unknown ↔ quantityDifference a b = none := by
  unfold tallyResult
  split
  · rename_i hnone
    simp [hnone]
  · rename_i difference hsome
    rw [hsome]
    split
    · simp
    · split <;> simp

/-- A printed reading. -/
theorem readingQuantity_of {a : Option String} {x : ℚ} (ha : Denotes a x) :
    (readingQuantity a = "NIL (0)" ↔ x = 0) ∧
      (x ≠ 0 → numeralValue (ungrouped (readingQuantity a).toList) = some x) := by
  obtain ⟨q, hq, rfl⟩ := denotes_iff.mp ha
  have hzero : q.value = 0 ↔ q.digits = 0 := by
    have hpow : (10 : ℚ) ^ q.places ≠ 0 := by positivity
    rw [Parsed.value, div_eq_zero_iff, or_iff_left hpow, Nat.cast_eq_zero]
  have htext := decimalText_of_nonneg q.digits q.places (Int.natCast_nonneg _)
  have hvalue := numeralValue_decimalText q.digits q.places
  have hpoint : ∀ cs : List Char, (∀ c ∈ cs, c.isDigit = true) → '.' ∉ cs := fun cs hcs hmem =>
    absurd (hcs '.' hmem) (by decide)
  have hwhole := isDigit_wholeDigits q.digits q.places
  have hfraction := isDigit_fractionDigits q.digits q.places
  -- The text is split at its point, and only the part before it is grouped.
  have hprinted : readingQuantity a = if q.digits = 0 then "NIL (0)" else
      String.ofList (grouped (wholeDigits q.digits q.places) ++
        pointed (fractionDigits q.digits q.places)) := by
    unfold readingQuantity
    rw [hq]
    dsimp only
    split
    · rfl
    · rw [htext]
      by_cases hnil : fractionDigits q.digits q.places = []
      · rw [hnil, pointed, if_pos rfl, List.append_nil, List.append_nil,
          List.splitOn_eq_singleton (hpoint _ hwhole)]
      · rw [pointed, if_neg hnil, List.splitOn_append_cons_self_of_not_mem (hpoint _ hwhole),
          List.splitOn_eq_singleton (hpoint _ hfraction)]
        dsimp only
        rw [pointed, if_neg hnil]
  -- Without the commas it is the text of the number.
  have hspelled : q.digits ≠ 0 →
      numeralValue (ungrouped (readingQuantity a).toList) = some q.value := by
    intro hne
    have hpointed : ungrouped (pointed (fractionDigits q.digits q.places)) =
        pointed (fractionDigits q.digits q.places) := by
      unfold pointed
      split
      · rfl
      · rw [← List.singleton_append, ungrouped, List.filter_append]
        exact congrArg ('.' :: ·) (ungrouped_of_isDigit hfraction)
    rw [hprinted, if_neg hne, String.toList_ofList, ungrouped, List.filter_append]
    show numeralValue (ungrouped (grouped _) ++ ungrouped _) = _
    rw [ungrouped_grouped, ungrouped_of_isDigit hwhole, hpointed, ← htext, hvalue, Parsed.value,
      Int.cast_natCast]
  refine ⟨⟨fun hnil => ?_, fun hx => ?_⟩, fun hx => hspelled (hzero.not.mp hx)⟩
  · by_contra hne
    have hno : numeralValue (ungrouped "NIL (0)".toList) = none := by decide +kernel
    have hsome := hspelled (hzero.not.mp hne)
    rw [hnil, hno] at hsome
    cases hsome
  · rw [hprinted, if_pos (hzero.mp hx)]

/-- **Comparisons of quantities are exact.**  Of two accepted readings the difference is
printed as the difference of their numbers: as `0` exactly when they are equal, with a plus
sign exactly when the first is larger and a minus sign exactly when it is smaller, and as the
negated number the other way round; the verdict is the sign.  There is none exactly where a
text is rejected.  A reading is printed as its number with group separators, or as nil
exactly when it is zero. -/
theorem quantity_comparison (a b : Option String) :
    (∀ x y, Denotes a x → Denotes b y →
      ∃ difference reversed, quantityDifference a b = some difference ∧
        quantityDifference b a = some reversed ∧ Pronounces difference (x - y) ∧
        numeralValue reversed.toList = some (-(x - y)) ∧
        (tallyResult a b).status = verdict x y) ∧
    (quantityDifference a b = none ↔ (∀ x, ¬Denotes a x) ∨ ∀ y, ¬Denotes b y) ∧
    ((tallyResult a b).status = .unknown ↔ quantityDifference a b = none) ∧
    ∀ x, Denotes a x → (readingQuantity a = "NIL (0)" ↔ x = 0) ∧
      (x ≠ 0 → numeralValue (ungrouped (readingQuantity a).toList) = some x) := by
  refine ⟨fun x y ha hb => ?_, quantityDifference_eq_none, tallyResult_unknown_iff,
    fun x ha => readingQuantity_of ha⟩
  obtain ⟨difference, hdifference, hsaid⟩ := quantityDifference_pronounces ha hb
  obtain ⟨reversed, hreversed, hsaid'⟩ := quantityDifference_pronounces hb ha
  refine ⟨difference, reversed, hdifference, hreversed, hsaid, ?_, tallyResult_status ha hb⟩
  rw [hsaid'.value, neg_sub]

/-- The numbers of a text with an exponent and of one with a fraction. -/
theorem quantity_comparison_sample :
    (∃ difference reversed, quantityDifference (some "1.5e1") (some " 12.50 ") = some difference ∧
      quantityDifference (some " 12.50 ") (some "1.5e1") = some reversed ∧
      Pronounces difference (15 - 25 / 2) ∧
      numeralValue reversed.toList = some (-(15 - 25 / 2)) ∧
      (tallyResult (some "1.5e1") (some " 12.50 ")).status = verdict 15 (25 / 2)) := by
  refine (quantity_comparison (some "1.5e1") (some " 12.50 ")).1 15 (25 / 2) ?_ ?_
  · exact denotes_iff.mpr ⟨⟨15, 0⟩, by decide +kernel, by norm_num [Parsed.value]⟩
  · exact denotes_iff.mpr ⟨⟨1250, 2⟩, by decide +kernel, by norm_num [Parsed.value]⟩

end VesselCaller.Closeout.Comparison
