import VesselCaller.Lib.Fallible
import VesselCaller.Lib.Keyed
import VesselCaller.Lib.Decimal
import Mathlib.Data.List.Sort

/-!
# Common ground of the backend model

What every application of the backend shares: primary keys, instants and dates,
the errors a view can raise, the JSON values the capture columns store, and the
context a request brings with it.

## Conventions

* Primary keys are the `uuid4` hex strings the models draw.  A fixed-width hex
  string and the number it spells are ordered alike, so an `Id` is a natural
  number.  The keys a request draws come with the request (`Ctx.uuid`) and every
  insert checks them against its table, as the primary-key constraint does.
* A view raises `ApiError`; `transaction.atomic` around the view and
  `TenantLifecycleAPIView.dispatch` roll the whole request back.  A handler is
  therefore a function into `Except ApiError`: an error carries no state.
* Sort orders that the code takes from insertion timestamps (`created_at`,
  `recorded_at`) are the insertion order of the list.
-/

namespace VesselCaller

open Lib

/-- A primary key. -/
abbrev Id := ℕ

/-- Seconds since the epoch. -/
abbrev Instant := ℕ

/-- Days since the epoch. -/
abbrev Date := ℕ

/-- What a view raises, with the text and the field path the response carries.
`integrity` and `server` are the exceptions no view handles: a violated database
constraint and a Python exception. -/
inductive ApiError where
  | conflict (detail : String)
  | notFound (detail : String)
  | validation (field : String) (detail : String)
  | permissionDenied (detail : String)
  | unauthorized (detail : String)
  | integrity (constraint : String)
  | server (detail : String)
  deriving DecidableEq, Repr

/-- The result of a view or service. -/
abbrev Result (α : Type) := Except ApiError α

/-- The year of a date of the proleptic Gregorian calendar. -/
def Date.year (day : Date) : ℕ :=
  let z := day + 719468
  let era := z / 146097
  let doe := z % 146097
  let yoe := (doe - doe / 1460 + doe / 36524 - doe / 146096) / 365
  let doy := doe - (365 * yoe + yoe / 4 - yoe / 100)
  yoe + era * 400 + (if (5 * doy + 2) / 153 < 10 then 0 else 1)

example : Date.year 0 = 1970 ∧ Date.year 20453 = 2025 ∧ Date.year 20454 = 2026 := by decide

/-- What a request brings along besides its data: the clock, the configured
zone's offset from UTC at that instant, the primary keys it draws, and the rank at
which the database visits a row that a bulk update writes. -/
structure Ctx where
  now : Instant
  utcOffset : ℤ
  uuid : ℕ → Id
  rowRank : Id → ℕ := id

/-- `timezone.now().date()`. -/
def Ctx.utcdate (ctx : Ctx) : Date := ctx.now / 86400

/-- `timezone.localdate()`. -/
def Ctx.localdate (ctx : Ctx) : Date := ((ctx.now + ctx.utcOffset) / 86400).toNat

/-! ## JSON values -/

/-- A JSON value as a `JSONField` stores it. -/
inductive Json where
  | null
  | bool (b : Bool)
  | num (value : ℚ)
  | str (text : String)
  | arr (items : List Json)
  | obj (fields : List (String × Json))

/-- Python truth. -/
def Json.truthy : Json → Bool
  | .null => false
  | .bool b => b
  | .num v => v ≠ 0
  | .str s => s ≠ ""
  | .arr items => !items.isEmpty
  | .obj fields => !fields.isEmpty

/-- `value or {}`. -/
def Json.orEmpty (value : Json) : Json :=
  if value.truthy then value else .obj []

/-- `value.get(name)`: only a dictionary has the method. -/
def Json.get (value : Json) (name : String) : Result Json :=
  match value with
  | .obj fields => .ok (((fields.find? fun f => f.1 == name).map Prod.snd).getD .null)
  | _ => .error (.server "AttributeError: get")

/-- `value == text`. -/
def Json.isStr (value : Json) (text : String) : Bool :=
  match value with
  | .str s => s == text
  | _ => false

/-- Python's `value == n`: `true` and `false` are one and zero. -/
def Json.isNat (value : Json) (n : ℕ) : Bool :=
  match value with
  | .bool b => b.toNat == n
  | .num v => v == n
  | _ => false

@[simp] theorem Json.isNat_num (m n : ℕ) : (Json.num m).isNat n = true ↔ m = n := by
  simp [Json.isNat]

/-- A value is at most one number. -/
theorem Json.eq_of_isNat {value : Json} {m n : ℕ} (hm : value.isNat m = true)
    (hn : value.isNat n = true) : m = n := by
  cases value with
  | bool b => exact (beq_iff_eq.mp hm).symm.trans (beq_iff_eq.mp hn)
  | num v => exact Nat.cast_injective ((beq_iff_eq.mp hm).symm.trans (beq_iff_eq.mp hn))
  | _ => cases hm

/-! ## Serializer fields -/

/-- A `CharField` after trimming: blank only where allowed, at most `maxLength`
characters. -/
def charField (maxLength : ℕ) (allowBlank : Bool) (s : String) : Bool :=
  (allowBlank || s ≠ "") && s.length ≤ maxLength

/-- A `DecimalField` with `min_value=0`: nonnegative, at most `maxDigits` digits. -/
def decimalField (maxDigits : ℕ) (v : ℤ) : Bool :=
  0 ≤ v && v < 10 ^ maxDigits

theorem decimalField_iff {digits : ℕ} {v : ℤ} :
    decimalField digits v = true ↔ 0 ≤ v ∧ v < 10 ^ digits := by
  simp [decimalField]

/-- A nonnegative decimal as the serializer hands it on: quantized, its sign kept.
`str` prints a negated zero as `-0.00`, so the configuration snapshot can tell the
two zeros apart while arithmetic cannot. -/
structure DecimalText (places : ℕ) where
  negative : Bool
  units : ℕ
  deriving DecidableEq, Repr

/-- The number a decimal text stands for. -/
def DecimalText.value {p : ℕ} (d : DecimalText p) : Decimal p :=
  if d.negative then -(d.units : ℤ) else d.units

/-- A decimal read back from its column never carries a negated zero. -/
def DecimalText.ofColumn {p : ℕ} (v : Decimal p) : DecimalText p :=
  ⟨v < 0, v.natAbs⟩

@[simp] theorem DecimalText.value_ofColumn {p : ℕ} (v : Decimal p) :
    (DecimalText.ofColumn v).value = v := by
  unfold DecimalText.value DecimalText.ofColumn
  obtain h | h := lt_or_ge v 0
  · simp only [h, decide_true, if_true]
    rw [Int.ofNat_natAbs_of_nonpos h.le, neg_neg]
  · simp only [not_lt.mpr h, decide_false, Bool.false_eq_true, if_false]
    exact Int.natAbs_of_nonneg h

/-- A decimal text is its number and its sign. -/
theorem DecimalText.eq_iff {p : ℕ} {d d' : DecimalText p} :
    d = d' ↔ d.value = d'.value ∧ d.negative = d'.negative := by
  constructor
  · rintro rfl
    exact ⟨rfl, rfl⟩
  · obtain ⟨negative, units⟩ := d
    obtain ⟨negative', units'⟩ := d'
    rintro ⟨hvalue, hnegative⟩
    obtain rfl : negative = negative' := hnegative
    have hunits : units = units' := by
      cases negative with
      | false => exact Int.ofNat_inj.mp hvalue
      | true => exact Int.ofNat_inj.mp (neg_inj.mp hvalue)
    rw [hunits]

/-- `value == value.to_integral_value()` for a value with three decimals. -/
def isWhole (v : Decimal 3) : Bool := v % 1000 = 0

/-! ## Words several applications share -/

/-- The unit of a cargo line. -/
inductive CargoUnit where
  | tonnes
  | count
  | m3
  deriving DecidableEq, Repr

/-- How a tolerance is applied to a chargeable variance. -/
inductive ToleranceMode where
  | threshold
  | deductible
  deriving DecidableEq, Repr

/-- Stable sort by a numeric key. -/
def sortBy {α : Type} (f : α → ℕ) (xs : List α) : List α :=
  xs.insertionSort fun a b => f a ≤ f b

@[simp] theorem mem_sortBy {α : Type} {f : α → ℕ} {xs : List α} {a : α} :
    a ∈ sortBy f xs ↔ a ∈ xs :=
  List.mem_insertionSort _

theorem sortBy_perm {α : Type} (f : α → ℕ) (xs : List α) : (sortBy f xs).Perm xs :=
  List.perm_insertionSort _ _

theorem sortBy_pairwise {α : Type} (f : α → ℕ) (xs : List α) :
    (sortBy f xs).Pairwise fun a b => f a ≤ f b :=
  List.pairwise_insertionSort _ _

/-- What is sorted already stays as it is. -/
theorem sortBy_of_pairwise {α : Type} {f : α → ℕ} {xs : List α}
    (h : xs.Pairwise fun a b => f a ≤ f b) : sortBy f xs = xs :=
  List.Pairwise.insertionSort_eq h

/-- Sorting forgets the order of elements with distinct keys, and nothing else. -/
theorem sortBy_eq_sortBy_iff {α : Type} {f : α → ℕ} {xs ys : List α} (hnd : (xs.map f).Nodup) :
    sortBy f xs = sortBy f ys ↔ xs.Perm ys := by
  constructor
  · intro h
    exact (sortBy_perm f xs).symm.trans (h ▸ sortBy_perm f ys)
  · intro h
    have hperm : (sortBy f xs).Perm (sortBy f ys) :=
      (sortBy_perm f xs).trans (h.trans (sortBy_perm f ys).symm)
    refine hperm.eq_of_pairwise (fun a b ha hb hab hba => ?_) (sortBy_pairwise f xs)
      (sortBy_pairwise f ys)
    exact List.inj_on_of_nodup_map hnd (mem_sortBy.mp ha) (h.mem_iff.mpr (mem_sortBy.mp hb))
      (le_antisymm hab hba)

/-- A map that keeps the sort key moves through sorting. -/
theorem sortBy_map {α β : Type} {f : α → ℕ} {g : β → ℕ} {h : α → β} (hkey : ∀ a, g (h a) = f a)
    (xs : List α) : sortBy g (xs.map h) = (sortBy f xs).map h := by
  refine (List.map_insertionSort _ _ h xs fun a _ b _ => ?_).symm
  rw [hkey, hkey]

end VesselCaller
