import Mathlib.Data.List.Sort
import Mathlib.Data.List.Forall2
import Mathlib.Data.List.Nodup
import Mathlib.Data.List.Perm.Basic
import Mathlib.Order.Lattice

/-!
# Sorted, related and partitioned lists

Facts about sorting by insertion, about lists related entry by entry and about splitting a
list by a key, for relations that say something only of the elements at hand.

## Main definitions

* `OrderOn` — a relation that orders the elements of a list.
-/

namespace VesselCaller.Lib

universe u v

variable {α : Type u} {κ : Type v}

/-! ## Sorting -/

section Sorting

variable {r r' : α → α → Prop} [DecidableRel r] [DecidableRel r']

theorem orderedInsert_congr {a : α} :
    ∀ {xs : List α}, (∀ b ∈ xs, r a b ↔ r' a b) →
      xs.orderedInsert r a = xs.orderedInsert r' a := by
  intro xs
  induction xs with
  | nil => exact fun _ => rfl
  | cons b xs ih =>
      intro h
      have hb := h b List.mem_cons_self
      rw [List.orderedInsert_cons, List.orderedInsert_cons,
        ih fun c hc => h c (List.mem_cons_of_mem _ hc)]
      simp only [hb]

/-- Only what a relation says of the elements counts. -/
theorem insertionSort_congr :
    ∀ {xs : List α}, (∀ a ∈ xs, ∀ b ∈ xs, r a b ↔ r' a b) →
      xs.insertionSort r = xs.insertionSort r' := by
  intro xs
  induction xs with
  | nil => exact fun _ => rfl
  | cons a xs ih =>
      intro h
      rw [List.insertionSort_cons, List.insertionSort_cons,
        ← ih fun b hb c hc => h b (List.mem_cons_of_mem _ hb) c (List.mem_cons_of_mem _ hc)]
      apply orderedInsert_congr
      intro b hb
      exact h a List.mem_cons_self b (List.mem_cons_of_mem _ ((List.mem_insertionSort r).mp hb))

end Sorting

/-- A list sorted by a relation that agrees with the order of a key. -/
theorem pairwise_insertionSort_of_key {β : Type v} [LinearOrder β] {r : α → α → Prop}
    [DecidableRel r] (f : α → β) {xs : List α} (h : ∀ a ∈ xs, ∀ b ∈ xs, r a b ↔ f a ≤ f b) :
    (xs.insertionSort r).Pairwise fun a b => f a ≤ f b := by
  have htotal : Std.Total fun a b => f a ≤ f b := ⟨fun a b => le_total (f a) (f b)⟩
  have htrans : IsTrans α fun a b => f a ≤ f b := ⟨fun a b c => le_trans⟩
  rw [insertionSort_congr h]
  exact List.pairwise_insertionSort _ xs

/-- A relation that is a total order of the elements of `s`. -/
structure OrderOn (r : κ → κ → Prop) (s : Set κ) : Prop where
  total : ∀ a ∈ s, ∀ b ∈ s, r a b ∨ r b a
  trans : ∀ a ∈ s, ∀ b ∈ s, ∀ c ∈ s, r a b → r b c → r a c
  antisymm : ∀ a ∈ s, ∀ b ∈ s, r a b → r b a → a = b

section OrderOn

variable {r : κ → κ → Prop} {s : Set κ} {f : α → κ} [DecidableRel fun a b => r (f a) (f b)]

/-- Sorting by keys of `s` sorts. -/
theorem OrderOn.pairwise_insertionSort (h : OrderOn r s) {xs : List α}
    (hxs : ∀ a ∈ xs, f a ∈ s) :
    (xs.insertionSort fun a b => r (f a) (f b)).Pairwise fun a b => r (f a) (f b) := by
  classical
  -- Keys outside of `s` go to the end.
  let r' (a b : α) : Prop := f b ∉ s ∨ (f a ∈ s ∧ r (f a) (f b))
  have hsame : ∀ a ∈ xs, ∀ b ∈ xs, r (f a) (f b) ↔ r' a b := by
    intro a ha b hb
    simp [r', hxs a ha, hxs b hb]
  have htotal : Std.Total r' := by
    refine ⟨fun a b => ?_⟩
    by_cases ha : f a ∈ s
    · by_cases hb : f b ∈ s
      · rcases h.total _ ha _ hb with hab | hba
        · exact .inl (.inr ⟨ha, hab⟩)
        · exact .inr (.inr ⟨hb, hba⟩)
      · exact .inl (.inl hb)
    · exact .inr (.inl ha)
  have htrans : IsTrans α r' := by
    refine ⟨fun a b c hab hbc => ?_⟩
    by_cases hc : f c ∈ s
    · obtain ⟨hb, hbc⟩ := hbc.resolve_left (not_not.mpr hc)
      obtain ⟨ha, hab⟩ := hab.resolve_left (not_not.mpr hb)
      exact .inr ⟨ha, h.trans _ ha _ hb _ hc hab hbc⟩
    · exact .inl hc
  have hsorted := List.pairwise_insertionSort r' xs
  rw [← insertionSort_congr hsame] at hsorted
  refine hsorted.imp_of_mem fun {a b} ha hb hab => ?_
  exact (hsame a ((List.mem_insertionSort _).mp ha) b ((List.mem_insertionSort _).mp hb)).mpr hab

/-- Of elements with different keys there is one sorted list. -/
theorem OrderOn.insertionSort_eq_of_perm (h : OrderOn r s) {xs ys : List α}
    (hxs : ∀ a ∈ xs, f a ∈ s) (hnd : (xs.map f).Nodup) (hperm : xs.Perm ys) :
    xs.insertionSort (fun a b => r (f a) (f b)) =
      ys.insertionSort fun a b => r (f a) (f b) := by
  have hys : ∀ a ∈ ys, f a ∈ s := fun a ha => hxs a (hperm.mem_iff.mpr ha)
  have hsorts : (xs.insertionSort fun a b => r (f a) (f b)).Perm
      (ys.insertionSort fun a b => r (f a) (f b)) :=
    (List.perm_insertionSort _ xs).trans (hperm.trans (List.perm_insertionSort _ ys).symm)
  refine List.Perm.eq_of_pairwise ?_ (h.pairwise_insertionSort hxs)
    (h.pairwise_insertionSort hys) hsorts
  intro a b ha hb hab hba
  have ha : a ∈ xs := (List.mem_insertionSort _).mp ha
  have hb : b ∈ xs := hperm.mem_iff.mpr ((List.mem_insertionSort _).mp hb)
  exact List.inj_on_of_nodup_map hnd ha hb (h.antisymm _ (hxs a ha) _ (hxs b hb) hab hba)

end OrderOn

/-- The first of a sorted list is the least. -/
theorem head_le_of_pairwise {β : Type v} [Preorder β] {f : α → β} {xs : List α} {a b : α}
    (h : xs.Pairwise fun a b => f a ≤ f b) (hhead : xs.head? = some a) (hb : b ∈ xs) :
    f a ≤ f b := by
  obtain ⟨ys, rfl⟩ := List.head?_eq_some_iff.mp hhead
  rcases List.mem_cons.mp hb with rfl | hb
  · exact le_rfl
  · exact (List.pairwise_cons.mp h).1 b hb

/-- The last of a sorted list is the largest. -/
theorem le_getLast_of_pairwise {β : Type v} [Preorder β] {f : α → β} {xs : List α} {a b : α}
    (h : xs.Pairwise fun a b => f a ≤ f b) (hlast : xs.getLast? = some a) (hb : b ∈ xs) :
    f b ≤ f a := by
  obtain ⟨ys, rfl⟩ := List.getLast?_eq_some_iff.mp hlast
  rcases List.mem_append.mp hb with hb | hb
  · exact (List.pairwise_append.mp h).2.2 b hb a List.mem_cons_self
  · rw [List.mem_singleton.mp hb]

/-! ## Related lists -/

/-- Lists related entry by entry are flattened to related lists. -/
theorem forall₂_flatMap {β γ δ : Type v} {R : α → β → Prop} {S : γ → δ → Prop} {f : α → List γ}
    {g : β → List δ} {xs : List α} {ys : List β} (h : List.Forall₂ R xs ys)
    (hrel : ∀ a ∈ xs, ∀ b ∈ ys, R a b → List.Forall₂ S (f a) (g b)) :
    List.Forall₂ S (xs.flatMap f) (ys.flatMap g) := by
  induction h with
  | nil => exact List.Forall₂.nil
  | cons hab h ih =>
      rw [List.flatMap_cons, List.flatMap_cons]
      refine List.rel_append (hrel _ List.mem_cons_self _ List.mem_cons_self hab) (ih ?_)
      exact fun a ha b hb =>
        hrel a (List.mem_cons_of_mem _ ha) b (List.mem_cons_of_mem _ hb)

/-! ## Splitting by a key -/

section Splitting

variable [DecidableEq κ] (f : α → κ)

/-- The elements whose key is among distinct ones, key by key. -/
theorem flatMap_filter_perm (xs : List α) :
    ∀ {ks : List κ}, ks.Nodup →
      (ks.flatMap fun k => xs.filter fun a => f a = k).Perm (xs.filter fun a => f a ∈ ks) := by
  intro ks
  induction ks with
  | nil =>
      intro _
      simp
  | cons k ks ih =>
      intro hnd
      obtain ⟨hk, hnd⟩ := List.nodup_cons.mp hnd
      have hfirst : (xs.filter fun a => f a ∈ k :: ks).filter (fun a => f a = k) =
          xs.filter fun a => f a = k := by
        rw [List.filter_filter]
        refine List.filter_congr fun a _ => ?_
        by_cases ha : f a = k <;> simp [ha]
      have hrest : (xs.filter fun a => f a ∈ k :: ks).filter (fun a => !decide (f a = k)) =
          xs.filter fun a => f a ∈ ks := by
        rw [List.filter_filter]
        refine List.filter_congr fun a _ => ?_
        by_cases ha : f a = k
        · simp [ha, hk]
        · simp [ha]
      have hsplit := List.filter_append_perm (fun a => decide (f a = k))
        (xs.filter fun a => f a ∈ k :: ks)
      rw [hfirst, hrest] at hsplit
      exact ((ih hnd).append_left _).trans hsplit

/-- With all the keys, nothing is left out and nothing is there twice. -/
theorem flatMap_filter_perm_self {xs : List α} {ks : List κ} (hnd : ks.Nodup)
    (hkeys : ∀ a ∈ xs, f a ∈ ks) :
    (ks.flatMap fun k => xs.filter fun a => f a = k).Perm xs := by
  refine (flatMap_filter_perm f xs hnd).trans (List.Perm.of_eq ?_)
  exact List.filter_eq_self.mpr fun a ha => decide_eq_true (hkeys a ha)

end Splitting

end VesselCaller.Lib
