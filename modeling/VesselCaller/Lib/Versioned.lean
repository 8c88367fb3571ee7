import VesselCaller.Lib.Keyed
import VesselCaller.Lib.Service

/-!
# Rows that count their writes

A row carries a version that every write raises.  `Advances` relates two moments of a
table: each row of the earlier one goes on in the later one, as it was or at a higher
version.  It is a preorder, so it relates the two ends of a run (`run_advances`), and then
the version says what optimistic locking rests on: a row that still has the version it was
read at is the row that was read.

## Main definitions

* `Advances` — every row goes on, as it was or at a higher version.
-/

namespace VesselCaller.Lib

universe u v

variable {α : Type u} {κ : Type v} [Keyed α κ] {version : α → ℕ} {xs ys zs : List α} {a b : α}

/-- Every row of `xs` goes on in `ys`, as it was or at a higher version. -/
def Advances (version : α → ℕ) (xs ys : List α) : Prop :=
  ∀ a ∈ xs, ∃ b ∈ ys, key b = key a ∧ (b = a ∨ version a < version b)

theorem Advances.refl (xs : List α) : Advances version xs xs :=
  fun a ha => ⟨a, ha, rfl, .inl rfl⟩

theorem Advances.trans (h : Advances version xs ys) (h' : Advances version ys zs) :
    Advances version xs zs := by
  intro a ha
  obtain ⟨b, hb, hkey, hab⟩ := h a ha
  obtain ⟨c, hc, hkey', hbc⟩ := h' b hb
  refine ⟨c, hc, hkey'.trans hkey, ?_⟩
  rcases hab with rfl | hlt
  · exact hbc
  · rcases hbc with rfl | hlt'
    · exact .inr hlt
    · exact .inr (Nat.lt_trans hlt hlt')

theorem Advances.cons (a : α) (xs : List α) : Advances version xs (a :: xs) :=
  fun b hb => ⟨b, List.mem_cons_of_mem _ hb, rfl, .inl rfl⟩

/-- A row written over at a higher version goes on. -/
theorem Advances.put [DecidableEq κ] (hkeys : (Table.keys xs).Nodup) (ha : a ∈ xs)
    (hkey : key b = key a) (hversion : version a < version b) :
    Advances version xs (Table.put b xs) := by
  intro c hc
  by_cases hsame : key c = key b
  · obtain rfl := Table.eq_of_key_eq hkeys hc ha (hsame.trans hkey)
    exact ⟨b, Table.mem_put_self ha hsame, hkey, .inr hversion⟩
  · exact ⟨c, Table.mem_put_of_ne hc hsame, rfl, .inl rfl⟩

/-- **A version identifies the row.**  The row that has the version it was read at is the
row that was read. -/
theorem Advances.eq_of_version [DecidableEq κ] (h : Advances version xs ys)
    (hkeys : (Table.keys ys).Nodup) (ha : a ∈ xs) (hb : b ∈ ys) (hkey : key b = key a)
    (hversion : version b = version a) : b = a := by
  obtain ⟨c, hc, hkey', rfl | hlt⟩ := h a ha
  · exact Table.eq_of_key_eq hkeys hb hc hkey
  · obtain rfl := Table.eq_of_key_eq hkeys hb hc (hkey.trans hkey'.symm)
    omega

/-- A row that another one has overtaken does not come back. -/
theorem Advances.not_mem [DecidableEq κ] (h : Advances version xs ys)
    (hkeys : (Table.keys ys).Nodup) (hb : b ∈ xs) (hkey : key b = key a)
    (hversion : version a < version b) : a ∉ ys := by
  intro ha
  obtain ⟨c, hc, hkey', hbc⟩ := h b hb
  obtain rfl := Table.eq_of_key_eq hkeys ha hc (hkey'.trans hkey).symm
  rcases hbc with rfl | hlt <;> omega

section Runs

variable {S R E A : Type*} {handle : S → R → Except E (S × A)} {I : S → Prop}
  {rows : S → List α}

/-- Tables that advance with every accepted request advance over a run. -/
theorem run_advances (invariant : ∀ {s r s' a}, I s → handle s r = .ok (s', a) → I s')
    (step : ∀ {s r s' a}, I s → handle s r = .ok (s', a) → Advances version (rows s) (rows s'))
    (rs : List R) {s : S} (hs : I s) : Advances version (rows s) (rows (run handle s rs)) :=
  run_relation (Q := fun s s' => Advances version (rows s) (rows s'))
    (fun s => .refl (rows s)) (fun h h' => h.trans h') invariant step rs hs

end Runs

end VesselCaller.Lib
