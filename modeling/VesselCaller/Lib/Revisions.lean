import Mathlib.Data.List.Induction
import Mathlib.Data.List.Sort
import Mathlib.Tactic.Linarith

/-!
# Consecutive revisions

A history numbers its entries 1, 2, …, n in the order it records them.
`Numbered f xs` says so of the list `xs` under the numbering `f`.  What the code
asks of such a history — its highest revision, the entry that carries it, the next
number — has the obvious answer.

## Main definitions

* `Numbered` — the list is numbered 1, 2, …, n.
-/

namespace VesselCaller.Lib

universe u

variable {α : Type u} {f : α → ℕ} {xs : List α} {a : α}

/-- The entries of `xs` are numbered 1, 2, …, in order. -/
def Numbered (f : α → ℕ) (xs : List α) : Prop := xs.map f = List.range' 1 xs.length

theorem numbered_nil : Numbered f [] := rfl

theorem numbered_concat : Numbered f (xs ++ [a]) ↔ Numbered f xs ∧ f a = xs.length + 1 := by
  simp only [Numbered, List.map_append, List.map_cons, List.map_nil, List.length_append,
    List.length_cons, List.length_nil, List.range'_1_concat, List.append_singleton_inj]
  rw [Nat.add_comm 1]

theorem Numbered.congr {ys : List α} (h : Numbered f xs) (hmap : ys.map f = xs.map f) :
    Numbered f ys := by
  have hlen : ys.length = xs.length := by simpa using congrArg List.length hmap
  rw [Numbered, hmap, hlen]
  exact h

/-- A numbered history is already in the order of its numbers. -/
theorem Numbered.sorted (h : Numbered f xs) : xs.Pairwise fun a b => f a ≤ f b := by
  have hmap : (xs.map f).Pairwise (· ≤ ·) := h ▸ List.pairwise_le_range' 1
  exact List.pairwise_map.mp hmap

theorem Numbered.insertionSort_eq (h : Numbered f xs) :
    xs.insertionSort (fun a b => f a ≤ f b) = xs :=
  List.Pairwise.insertionSort_eq h.sorted

theorem Numbered.nodup (h : Numbered f xs) : (xs.map f).Nodup :=
  h ▸ List.nodup_range' 1

theorem Numbered.max? (h : Numbered f xs) : ((xs.map f).max?).getD 0 = xs.length := by
  induction xs using List.reverseRecOn with
  | nil => rfl
  | append_singleton xs a _ =>
      have hmax : ((xs ++ [a]).map f).max? = some (xs.length + 1) := by
        rw [h, List.length_append, List.length_singleton]
        refine List.max?_eq_some_iff.mpr ⟨?_, ?_⟩
        · exact List.mem_range'_1.mpr ⟨by omega, by omega⟩
        · intro b hb
          have := List.mem_range'_1.mp hb
          omega
      rw [hmax, Option.getD_some, List.length_append, List.length_singleton]

/-- One more than the number of the last entry is the next number. -/
theorem Numbered.next (h : Numbered f xs) :
    ((xs.getLast?).map fun a => f a + 1).getD 1 = xs.length + 1 := by
  induction xs using List.reverseRecOn with
  | nil => rfl
  | append_singleton xs a _ =>
      have ha := (numbered_concat.mp h).2
      simp [ha]

end VesselCaller.Lib
