import VesselCaller.Lib.Decimal
import Mathlib.Algebra.Order.Group.Abs
import Mathlib.Data.Nat.Digits.Lemmas
import Mathlib.Data.List.Infix
import Mathlib.Tactic.Ring

/-!
# Decimal arithmetic in a context

A decimal context has a precision, a number of digits.  Every operation computes
exactly and then rounds to that many significant digits, half to even; rounding to a
given exponent (`quantize`) fails when its result has more digits.

Numbers are integers in units of a fixed exponent, as in `Decimal`: rounding to
significant digits replaces the trailing digits by zeros and keeps the unit.
`toPrecision_of_lt` says that nothing happens to a number that fits;
`pow_le_toPrecision` and `toPrecision_le_pow` bound what happens to one that does not.

## Main definitions

* `digitCount`, `halfEven` — the length of a number, and the rounding;
* `toPrecision`, `sumIn`, `quantizeIn` — the operations of a context.
-/

namespace VesselCaller.Lib

/-- How many decimal digits a number has; zero has none. -/
def digitCount (n : ℕ) : ℕ := (Nat.digits 10 n).length

theorem digitCount_le_iff {n k : ℕ} : digitCount n ≤ k ↔ n < 10 ^ k :=
  Nat.digits_length_le_iff (by decide) n

/-- `n / 10^k`, half to even. -/
def halfEven (k n : ℕ) : ℕ :=
  let q := n / 10 ^ k
  let r := n % 10 ^ k
  if 2 * r < 10 ^ k then q
  else if 10 ^ k < 2 * r then q + 1
  else if q % 2 = 0 then q else q + 1

theorem le_halfEven (k n : ℕ) : n / 10 ^ k ≤ halfEven k n := by
  dsimp only [halfEven]
  split
  · exact le_rfl
  · split
    · exact Nat.le_succ _
    · split
      · exact le_rfl
      · exact Nat.le_succ _

theorem halfEven_le (k n : ℕ) : halfEven k n ≤ n / 10 ^ k + 1 := by
  dsimp only [halfEven]
  split
  · exact Nat.le_succ _
  · split
    · exact le_rfl
    · split
      · exact Nat.le_succ _
      · exact le_rfl

@[simp] theorem halfEven_zero (n : ℕ) : halfEven 0 n = n := by
  simp [halfEven, Nat.mod_one]

/-- Round to `prec` significant digits. -/
def toPrecision (prec : ℕ) (v : ℤ) : ℤ :=
  let k := digitCount v.natAbs - prec
  v.sign * (halfEven k v.natAbs * 10 ^ k : ℕ)

variable {prec : ℕ}

theorem natAbs_lt_of_abs_lt {v : ℤ} {n : ℕ} (h : |v| < (n : ℤ)) : v.natAbs < n := by
  rw [Int.abs_eq_natAbs] at h
  exact_mod_cast h

/-- **A number that fits is not rounded.** -/
theorem toPrecision_of_lt {v : ℤ} (h : |v| < 10 ^ prec) : toPrecision prec v = v := by
  have hn : v.natAbs < 10 ^ prec := natAbs_lt_of_abs_lt (by exact_mod_cast h)
  have hk : digitCount v.natAbs - prec = 0 := Nat.sub_eq_zero_of_le (digitCount_le_iff.mpr hn)
  simp only [toPrecision, hk, halfEven_zero, pow_zero, mul_one]
  exact Int.sign_mul_natAbs v

theorem toPrecision_natCast (n : ℕ) :
    toPrecision prec n = (halfEven (digitCount n - prec) n * 10 ^ (digitCount n - prec) : ℕ) := by
  obtain rfl | hn := Nat.eq_zero_or_pos n
  · rw [Nat.cast_zero, toPrecision_of_lt (by simp)]
    simp [digitCount]
  · have hsign : (n : ℤ).sign = 1 := Int.sign_eq_one_of_pos (by exact_mod_cast hn)
    simp only [toPrecision, Int.natAbs_natCast, hsign, one_mul]

theorem toPrecision_nonneg {v : ℤ} (hv : 0 ≤ v) : 0 ≤ toPrecision prec v := by
  obtain ⟨n, rfl⟩ := Int.eq_ofNat_of_zero_le hv
  rw [toPrecision_natCast]
  exact Int.natCast_nonneg _

/-- A number with more digits than the precision does not fall below the precision. -/
theorem pow_le_toPrecision {v : ℤ} (hprec : 0 < prec) (h : 10 ^ prec ≤ v) :
    10 ^ prec ≤ toPrecision prec v := by
  have hv : 0 ≤ v := le_trans (by positivity) h
  obtain ⟨n, rfl⟩ := Int.eq_ofNat_of_zero_le hv
  have hn : 10 ^ prec ≤ n := by exact_mod_cast h
  -- `n` has `d` digits, and the quotient keeps the first `prec` of them
  have hd : prec + 1 ≤ digitCount n := by
    by_contra hlt
    exact absurd (digitCount_le_iff.mp (Nat.le_of_lt_succ (not_le.mp hlt))) (not_lt.mpr hn)
  have hlow : 10 ^ (digitCount n - 1) ≤ n := by
    by_contra hlt
    have := digitCount_le_iff.mpr (not_le.mp hlt)
    omega
  have hq : 10 ^ (prec - 1) ≤ n / 10 ^ (digitCount n - prec) := by
    rw [Nat.le_div_iff_mul_le (by positivity), ← pow_add]
    exact le_trans (Nat.pow_le_pow_right (by decide) (by omega)) hlow
  rw [toPrecision_natCast]
  have hle : 10 ^ prec ≤ halfEven (digitCount n - prec) n * 10 ^ (digitCount n - prec) := by
    calc 10 ^ prec ≤ 10 ^ (prec - 1 + (digitCount n - prec)) :=
          Nat.pow_le_pow_right (by decide) (by omega)
      _ = 10 ^ (prec - 1) * 10 ^ (digitCount n - prec) := pow_add _ _ _
      _ ≤ halfEven (digitCount n - prec) n * 10 ^ (digitCount n - prec) :=
          Nat.mul_le_mul_right _ (le_trans hq (le_halfEven _ _))
  exact_mod_cast hle

/-- Rounding does not carry a number past a power of ten it is below. -/
theorem toPrecision_le_pow {v : ℤ} {m : ℕ} (hv : 0 ≤ v) (h : v < 10 ^ m) :
    toPrecision prec v ≤ 10 ^ m := by
  obtain ⟨n, rfl⟩ := Int.eq_ofNat_of_zero_le hv
  have hn : n < 10 ^ m := by exact_mod_cast h
  rw [toPrecision_natCast]
  obtain hfits | hlong := Nat.le_total (digitCount n) prec
  · rw [Nat.sub_eq_zero_of_le hfits, halfEven_zero, pow_zero, mul_one]
    exact_mod_cast hn.le
  · have hdm : digitCount n ≤ m := digitCount_le_iff.mpr hn
    have hpow : (10 : ℕ) ^ digitCount n = 10 ^ prec * 10 ^ (digitCount n - prec) := by
      rw [← pow_add, Nat.add_sub_cancel' hlong]
    have hq : n / 10 ^ (digitCount n - prec) < 10 ^ prec := by
      rw [Nat.div_lt_iff_lt_mul (by positivity), ← hpow]
      exact digitCount_le_iff.mp le_rfl
    have hle : halfEven (digitCount n - prec) n * 10 ^ (digitCount n - prec) ≤ 10 ^ m := by
      calc halfEven (digitCount n - prec) n * 10 ^ (digitCount n - prec)
          ≤ 10 ^ prec * 10 ^ (digitCount n - prec) :=
            Nat.mul_le_mul_right _ (le_trans (halfEven_le _ _) hq)
        _ = 10 ^ digitCount n := hpow.symm
        _ ≤ 10 ^ m := Nat.pow_le_pow_right (by decide) hdm
    exact_mod_cast hle

/-! ## Operations -/

/-- A sum, added up from the left with a rounding at every step. -/
def sumIn (prec : ℕ) (xs : List ℤ) : ℤ := xs.foldl (fun s x => toPrecision prec (s + x)) 0

/-- **A sum is exact** when no partial sum leaves the precision. -/
theorem sumIn_eq_sum {xs : List ℤ} (h : ∀ ys, ys <+: xs → |ys.sum| < 10 ^ prec) :
    sumIn prec xs = xs.sum := by
  induction xs using List.reverseRecOn with
  | nil => rfl
  | append_singleton xs x ih =>
      have hxs := ih fun ys hys => h ys (hys.trans (List.prefix_append xs [x]))
      have hstep : sumIn prec (xs ++ [x]) = toPrecision prec (sumIn prec xs + x) := by
        simp [sumIn, List.foldl_append]
      have htotal := h (xs ++ [x]) List.prefix_rfl
      rw [List.sum_append, List.sum_singleton] at htotal ⊢
      rw [hstep, hxs, toPrecision_of_lt htotal]

/-- A sum of nonnegative numbers is exact when the total fits. -/
theorem sumIn_of_nonneg {xs : List ℤ} (hxs : ∀ x ∈ xs, 0 ≤ x) (h : xs.sum < 10 ^ prec) :
    sumIn prec xs = xs.sum := by
  refine sumIn_eq_sum fun ys hys => ?_
  obtain ⟨zs, rfl⟩ := hys
  have hys : 0 ≤ ys.sum := List.sum_nonneg fun x hx => hxs x (List.mem_append_left _ hx)
  have hzs : 0 ≤ zs.sum := List.sum_nonneg fun x hx => hxs x (List.mem_append_right _ hx)
  rw [List.sum_append] at h
  rw [abs_of_nonneg hys]
  omega

theorem abs_sum_le {b : ℤ} : ∀ {xs : List ℤ}, (∀ x ∈ xs, |x| ≤ b) → |xs.sum| ≤ xs.length * b := by
  intro xs
  induction xs with
  | nil => simp
  | cons x xs ih =>
      intro h
      obtain ⟨hx, hxs⟩ := List.forall_mem_cons.mp h
      have hrest := ih hxs
      calc |(x :: xs).sum| = |x + xs.sum| := by rw [List.sum_cons]
        _ ≤ |x| + |xs.sum| := abs_add_le _ _
        _ ≤ b + xs.length * b := add_le_add hx hrest
        _ = (x :: xs).length * b := by push_cast [List.length_cons]; ring

/-- A sum of bounded numbers is exact when the bound allows for their count. -/
theorem sumIn_of_bounded {xs : List ℤ} {b : ℤ} (hxs : ∀ x ∈ xs, |x| ≤ b)
    (h : xs.length * b < 10 ^ prec) : sumIn prec xs = xs.sum := by
  refine sumIn_eq_sum fun ys hys => ?_
  have hb : 0 ≤ b ∨ ys = [] := by
    cases ys with
    | nil => exact .inr rfl
    | cons y ys => exact .inl (le_trans (abs_nonneg y) (hxs y (hys.subset List.mem_cons_self)))
  obtain hb | rfl := hb
  · have hlength : (ys.length : ℤ) ≤ xs.length := by exact_mod_cast hys.length_le
    calc |ys.sum| ≤ ys.length * b := abs_sum_le fun x hx => hxs x (hys.subset hx)
      _ ≤ xs.length * b := mul_le_mul_of_nonneg_right hlength hb
      _ < 10 ^ prec := h
  · simp

/-- Drop `k` decimal places, half up; there is no result with more digits than the
precision. -/
def quantizeIn (prec k : ℕ) (v : ℤ) : Option ℤ :=
  if |quantize k v| < 10 ^ prec then some (quantize k v) else none

theorem quantizeIn_of_lt {k : ℕ} {v : ℤ} (h : |quantize k v| < 10 ^ prec) :
    quantizeIn prec k v = some (quantize k v) := if_pos h

end VesselCaller.Lib
