import Mathlib.Tactic.Linarith
import Mathlib.Tactic.Positivity

/-!
# Fixed-point decimals

A decimal column with `p` decimal places holds an integral number of units of
`10^(-p)`.  `Decimal p` is that integer; the index documents the unit and costs
nothing in proofs, since the type is reducible to `ℤ` and every lemma about `ℤ`
(and `omega`) applies.  Multiplying a `Decimal p` by a `Decimal q` gives a
`Decimal (p + q)`, exactly.

`quantize k v` drops `k` decimal places, rounding half away from zero
(`ROUND_HALF_UP` of the decimal arithmetic specification).

## Main definitions

* `Decimal p` — the type;
* `quantize` — rounding half up to fewer places.
-/

namespace VesselCaller.Lib

/-- An integral number of units of `10^(-places)`. -/
abbrev Decimal (_places : ℕ) : Type := ℤ

/-- Drop `k` decimal places, rounding half away from zero. -/
def quantize (k : ℕ) (v : ℤ) : ℤ :=
  v.sign * ((2 * v.natAbs + 10 ^ k) / (2 * 10 ^ k) : ℕ)

theorem quantize_of_nonneg (k : ℕ) {v : ℤ} (hv : 0 ≤ v) :
    quantize k v = (2 * v + 10 ^ k) / (2 * 10 ^ k) := by
  obtain ⟨n, rfl⟩ := Int.eq_ofNat_of_zero_le hv
  rcases Nat.eq_zero_or_pos n with rfl | hn
  · have hpos : (0 : ℤ) < 10 ^ k := by positivity
    have hdiv : ((10 : ℤ) ^ k) / (2 * 10 ^ k) = 0 :=
      Int.ediv_eq_zero_of_lt hpos.le (by linarith)
    simp [quantize, hdiv]
  · have hsign : (n : ℤ).sign = 1 := Int.sign_eq_one_of_pos (by exact_mod_cast hn)
    simp only [quantize, hsign, one_mul, Int.natAbs_natCast]
    push_cast
    rfl

/-- A value that already has the kept places is not rounded. -/
@[simp] theorem quantize_zero (v : ℤ) : quantize 0 v = v := by
  have hdiv : (2 * v.natAbs + 1) / 2 = v.natAbs := by omega
  simp only [quantize, pow_zero, mul_one, hdiv]
  exact Int.sign_mul_natAbs v

@[simp] theorem quantize_zero_right (k : ℕ) : quantize k 0 = 0 := by
  simp [quantize]

theorem quantize_nonneg (k : ℕ) {v : ℤ} (hv : 0 ≤ v) : 0 ≤ quantize k v := by
  rw [quantize_of_nonneg k hv]
  positivity

/-- A nonnegative value rounds to something positive exactly when it is at least
half a unit of the last kept place. -/
theorem quantize_pos_iff (k : ℕ) {v : ℤ} (hv : 0 ≤ v) :
    0 < quantize k v ↔ 10 ^ k ≤ 2 * v := by
  have hpos : (0 : ℤ) < 2 * 10 ^ k := by positivity
  rw [quantize_of_nonneg k hv, ← Int.add_one_le_iff, Int.le_ediv_iff_mul_le hpos]
  constructor <;> intro h <;> linarith

/-- Rounding keeps the order. -/
theorem quantize_le_quantize (k : ℕ) {v w : ℤ} (hv : 0 ≤ v) (h : v ≤ w) :
    quantize k v ≤ quantize k w := by
  rw [quantize_of_nonneg k hv, quantize_of_nonneg k (hv.trans h)]
  exact Int.ediv_le_ediv (by positivity) (by linarith)

/-- A nonnegative value rounds below a bound exactly when it stays half a unit below it. -/
theorem quantize_lt_iff (k : ℕ) {v : ℤ} (hv : 0 ≤ v) (bound : ℤ) :
    quantize k v < bound ↔ 2 * v + 10 ^ k < bound * (2 * 10 ^ k) := by
  rw [quantize_of_nonneg k hv]
  exact Int.ediv_lt_iff_lt_mul (by positivity)

/-- A number that has only the kept places is not changed but for its unit. -/
theorem quantize_mul_pow (k : ℕ) {n : ℤ} (hn : 0 ≤ n) : quantize k (n * 10 ^ k) = n := by
  have hpos : (0 : ℤ) < 10 ^ k := by positivity
  rw [quantize_of_nonneg k (mul_nonneg hn hpos.le)]
  refine (Int.ediv_eq_iff_of_pos (by positivity)).mpr ⟨?_, ?_⟩ <;> linarith

/-- A bound in whole kept places is kept by the rounding. -/
theorem quantize_le_of_le (k : ℕ) {v n : ℤ} (hv : 0 ≤ v) (h : v ≤ n * 10 ^ k) :
    quantize k v ≤ n := by
  have hn : 0 ≤ n := by
    by_contra hneg
    have hpos : (0 : ℤ) < 10 ^ k := by positivity
    exact absurd (hv.trans h) (not_le.mpr (mul_neg_of_neg_of_pos (not_le.mp hneg) hpos))
  calc quantize k v ≤ quantize k (n * 10 ^ k) := quantize_le_quantize k hv h
    _ = n := quantize_mul_pow k hn

theorem le_quantize_of_le (k : ℕ) {v n : ℤ} (hn : 0 ≤ n) (h : n * 10 ^ k ≤ v) :
    n ≤ quantize k v := by
  have hpos : (0 : ℤ) < 10 ^ k := by positivity
  calc n = quantize k (n * 10 ^ k) := (quantize_mul_pow k hn).symm
    _ ≤ quantize k v := quantize_le_quantize k (mul_nonneg hn hpos.le) h

end VesselCaller.Lib
