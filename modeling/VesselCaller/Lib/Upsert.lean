import VesselCaller.Lib.Fallible
import VesselCaller.Lib.Keyed
import Mathlib.Data.List.Induction

/-!
# Batches of `update_or_create`

`update_or_create(id=…, defaults=…)` writes a row over the one with its key, or adds it.  The
table refuses a row that is out of its columns' ranges, and one that repeats a unique value of
another row.

* `Schema` — the ranges and the unique indexes of a table;
* `Schema.upsert` — one write;
* `Schema.upsertAll` — a batch, row by row.

A batch into an empty table goes through exactly when its rows fit and are unique, and leaves
those rows (`upsertAll_nil_eq_ok`).  A batch over a table with the same keys and the same unique
values leaves its own rows (`upsertAll_over`).
-/

namespace VesselCaller.Lib

universe u v

variable {ε : Type u} {α : Type u} {κ : Type v} [Keyed α κ] [DecidableEq κ]

/-- What a table asks of its rows: the ranges of the columns, and the unique indexes, each
with the value a row has there, if it has one. -/
structure Schema (α : Type u) where
  fits : α → Bool
  uniques : List (α → Option (List String))

namespace Schema

variable (s : Schema α) (outOfRange duplicate : ε)

/-- Another row has the value of `a` under a unique index. -/
def clashes (a : α) (rows : List α) : Bool :=
  s.uniques.any fun f => rows.any fun b =>
    decide (key b ≠ key a) && (f a).isSome && decide (f b = f a)

/-- `update_or_create`. -/
def upsert (rows : List α) (a : α) : Except ε (List α) := do
  raiseIf (s.fits a = false) outOfRange
  raiseIf (s.clashes a rows = true) duplicate
  return if key a ∈ Table.keys rows then Table.put a rows else rows ++ [a]

/-- `for a in batch: update_or_create(a)`. -/
def upsertAll (rows batch : List α) : Except ε (List α) :=
  batch.foldlM (s.upsert outOfRange duplicate) rows

variable {s outOfRange duplicate}

theorem clashes_eq_false_iff {a : α} {rows : List α} :
    s.clashes a rows = false ↔
      ∀ f ∈ s.uniques, ∀ v, f a = some v → ∀ b ∈ rows, f b = some v → key b = key a := by
  have hclash : s.clashes a rows = true ↔
      ∃ f ∈ s.uniques, ∃ b ∈ rows, (key b ≠ key a ∧ ∃ v, f a = some v) ∧ f b = f a := by
    simp only [clashes, List.any_eq_true, Bool.and_eq_true, decide_eq_true_eq,
      Option.isSome_iff_exists]
  rw [← Bool.not_eq_true, hclash]
  constructor
  · intro h f hf v hv b hb hbv
    by_contra hne
    exact h ⟨f, hf, b, hb, ⟨hne, v, hv⟩, hbv.trans hv.symm⟩
  · rintro h ⟨f, hf, b, hb, ⟨hne, v, hv⟩, hbv⟩
    exact hne (h f hf v hv b hb (hbv.trans hv))

theorem upsert_eq_ok {a : α} {rows rows' : List α} :
    s.upsert outOfRange duplicate rows a = .ok rows' ↔ s.fits a = true ∧
      s.clashes a rows = false ∧
        rows' = if key a ∈ Table.keys rows then Table.put a rows else rows ++ [a] := by
  simp only [upsert, bind_eq_ok, raiseIf_eq_ok, pure_eq_ok, Bool.not_eq_false, Bool.not_eq_true,
    exists_and_left, exists_const, eq_comm (a := rows')]

/-- A row is added under a fresh key. -/
theorem upsert_fresh_eq_ok {a : α} {rows rows' : List α} (hfresh : key a ∉ Table.keys rows) :
    s.upsert outOfRange duplicate rows a = .ok rows' ↔ s.fits a = true ∧
      (∀ f ∈ s.uniques, ∀ v, f a = some v → v ∉ rows.filterMap f) ∧ rows' = rows ++ [a] := by
  rw [upsert_eq_ok, clashes_eq_false_iff, if_neg hfresh]
  refine and_congr_right fun _ => and_congr_left fun _ => ?_
  refine forall₂_congr fun f _ => forall₂_congr fun v _ => ?_
  rw [List.mem_filterMap, not_exists]
  refine forall_congr' fun b => ⟨fun h hb => ?_, fun h hb hbv => absurd ⟨hb, hbv⟩ h⟩
  exact hfresh (Table.mem_keys.mpr ⟨b, hb.1, h hb.1 hb.2⟩)

theorem nodup_filterMap_concat {f : α → Option (List String)} {a : α} {rows : List α} :
    ((rows ++ [a]).filterMap f).Nodup ↔
      (rows.filterMap f).Nodup ∧ ∀ v, f a = some v → v ∉ rows.filterMap f := by
  rw [List.filterMap_append]
  cases h : f a with
  | none => simp [h]
  | some v => simp [h, List.nodup_append']

/-- **A batch into an empty table.** -/
theorem upsertAll_nil_eq_ok {batch rows' : List α} (hnd : (Table.keys batch).Nodup) :
    s.upsertAll outOfRange duplicate [] batch = .ok rows' ↔ (∀ a ∈ batch, s.fits a = true) ∧
      (∀ f ∈ s.uniques, (batch.filterMap f).Nodup) ∧ rows' = batch := by
  induction batch using List.reverseRecOn generalizing rows' with
  | nil =>
      rw [upsertAll, List.foldlM_nil, pure_eq_ok]
      constructor
      · rintro rfl
        simp
      · exact fun h => h.2.2.symm
  | append_singleton batch a ih =>
      rw [Table.keys_append, List.nodup_append'] at hnd
      have hfresh : key a ∉ Table.keys batch := fun h => hnd.2.2 h List.mem_cons_self
      have hsplit : s.upsertAll outOfRange duplicate [] (batch ++ [a]) = .ok rows' ↔
          ∃ rows, s.upsertAll outOfRange duplicate [] batch = .ok rows ∧
            s.upsert outOfRange duplicate rows a = .ok rows' := by
        simp only [upsertAll, List.foldlM_append, bind_eq_ok, List.foldlM_cons, List.foldlM_nil,
          pure_eq_ok, exists_eq_right]
      rw [hsplit]
      simp only [ih hnd.1, nodup_filterMap_concat, List.forall_mem_append,
        List.forall_mem_singleton]
      constructor
      · rintro ⟨_, ⟨hfits, huniques, rfl⟩, hlast⟩
        obtain ⟨hfit, hnew, rfl⟩ := (upsert_fresh_eq_ok hfresh).mp hlast
        exact ⟨⟨hfits, hfit⟩, fun f hf => ⟨huniques f hf, hnew f hf⟩, rfl⟩
      · rintro ⟨⟨hfits, hfit⟩, huniques, rfl⟩
        refine ⟨batch, ⟨hfits, fun f hf => (huniques f hf).1, rfl⟩, ?_⟩
        exact (upsert_fresh_eq_ok hfresh).mpr ⟨hfit, fun f hf => (huniques f hf).2, rfl⟩

/-- The row takes the place of the one with its key. -/
theorem upsert_over {a b : α} {done rest : List α} (hkey : key b = key a)
    (hnd : (Table.keys (done ++ b :: rest)).Nodup) (hfits : s.fits a = true)
    (hsame : ∀ f ∈ s.uniques, f b = f a)
    (huniques : ∀ f ∈ s.uniques, ((done ++ b :: rest).filterMap f).Nodup) :
    s.upsert outOfRange duplicate (done ++ b :: rest) a = .ok (done ++ a :: rest) := by
  have hb : b ∈ done ++ b :: rest := List.mem_append_right _ List.mem_cons_self
  refine upsert_eq_ok.mpr ⟨hfits, clashes_eq_false_iff.mpr ?_, ?_⟩
  · intro f hf v hv c hc hcv
    have hcb : c = b := eq_of_nodup_filterMap (huniques f hf) hc hb hcv ((hsame f hf).trans hv)
    rw [hcb, hkey]
  · have hmem : key a ∈ Table.keys (done ++ b :: rest) := Table.mem_keys.mpr ⟨b, hb, hkey⟩
    rw [Table.keys_append, Table.keys_cons, List.nodup_append'] at hnd
    obtain ⟨_, hrest, hdisjoint⟩ := hnd
    rw [List.nodup_cons] at hrest
    have hdone : ∀ c ∈ done, key c ≠ key a := by
      intro c hc heq
      refine hdisjoint (Table.mem_keys.mpr ⟨c, hc, rfl⟩) ?_
      rw [heq, ← hkey]
      exact List.mem_cons_self
    have hafter : ∀ c ∈ rest, key c ≠ key a := by
      intro c hc heq
      exact hrest.1 (Table.mem_keys.mpr ⟨c, hc, heq.trans hkey.symm⟩)
    rw [if_pos hmem, Table.put_append, Table.put_of_forall_ne hdone,
      Table.put_cons_self hkey hafter]

/-- **A batch over a table of the same keys** and the same unique values. -/
theorem upsertAll_over {batch rows : List α}
    (hsame : List.Forall₂ (fun b a => key b = key a ∧ ∀ f ∈ s.uniques, f b = f a) rows batch)
    (hfits : ∀ a ∈ batch, s.fits a = true) :
    ∀ done : List α, (Table.keys (done ++ rows)).Nodup →
      (∀ f ∈ s.uniques, ((done ++ rows).filterMap f).Nodup) →
      s.upsertAll outOfRange duplicate (done ++ rows) batch = .ok (done ++ batch) := by
  induction hsame with
  | nil => exact fun _ _ _ => rfl
  | @cons b a rows batch h _ ih =>
      intro done hnd huniques
      obtain ⟨hkey, hvalues⟩ := h
      obtain ⟨hfit, hfits⟩ := List.forall_mem_cons.mp hfits
      have hstep : s.upsert outOfRange duplicate (done ++ b :: rows) a = .ok (done ++ a :: rows) :=
        upsert_over hkey hnd hfit hvalues huniques
      have hassoc : ∀ rest : List α, done ++ a :: rest = (done ++ [a]) ++ rest := by simp
      rw [upsertAll, List.foldlM_cons, hstep, ok_bind, hassoc rows, hassoc batch]
      refine ih hfits (done ++ [a]) ?_ ?_
      · rw [← hassoc]
        rw [Table.keys_append, Table.keys_cons, hkey] at hnd
        rwa [Table.keys_append, Table.keys_cons]
      · intro f hf
        rw [← hassoc]
        have hone := huniques f hf
        rw [List.filterMap_append, List.filterMap_cons, hvalues f hf] at hone
        rwa [List.filterMap_append, List.filterMap_cons]

/-- A batch over a table that is empty, or holds its keys and unique values already. -/
theorem upsertAll_eq_ok {batch rows : List α}
    (hrows : rows = [] ∨
      List.Forall₂ (fun b a => key b = key a ∧ ∀ f ∈ s.uniques, f b = f a) rows batch)
    (hnd : (Table.keys batch).Nodup) (hfits : ∀ a ∈ batch, s.fits a = true)
    (huniques : ∀ f ∈ s.uniques, (batch.filterMap f).Nodup) :
    s.upsertAll outOfRange duplicate rows batch = .ok batch := by
  obtain rfl | hsame := hrows
  · exact (upsertAll_nil_eq_ok hnd).mpr ⟨hfits, huniques, rfl⟩
  · have hkeys : Table.keys rows = Table.keys batch :=
      map_eq_map_of_forall₂ (hsame.imp fun _ _ h => h.1)
    have hvalues : ∀ f ∈ s.uniques, rows.filterMap f = batch.filterMap f := by
      intro f hf
      have hmap : rows.map f = batch.map f :=
        map_eq_map_of_forall₂ (hsame.imp fun _ _ h => h.2 f hf)
      simpa only [List.filterMap_map, Function.id_comp] using congrArg (List.filterMap id) hmap
    refine upsertAll_over hsame hfits [] ?_ ?_
    · rw [List.nil_append, hkeys]
      exact hnd
    · intro f hf
      rw [List.nil_append, hvalues f hf]
      exact huniques f hf

/-! ### What a batch keeps -/

theorem mem_of_upsert {a b : α} {rows rows' : List α}
    (h : s.upsert outOfRange duplicate rows a = .ok rows') (hb : b ∈ rows') : b ∈ rows ∨ b = a := by
  obtain ⟨_, _, rfl⟩ := upsert_eq_ok.mp h
  split at hb
  · obtain rfl | hb := Table.mem_put hb
    · exact .inr rfl
    · exact .inl hb.1
  · obtain hb | hb := List.mem_append.mp hb
    · exact .inl hb
    · exact .inr (List.mem_singleton.mp hb)

/-- The rows of a batch, and those that were there. -/
theorem mem_of_upsertAll {batch rows rows' : List α}
    (h : s.upsertAll outOfRange duplicate rows batch = .ok rows') :
    ∀ a ∈ rows', a ∈ rows ∨ a ∈ batch := by
  induction batch generalizing rows with
  | nil =>
      rw [upsertAll, List.foldlM_nil, pure_eq_ok] at h
      exact fun a ha => .inl (h ▸ ha)
  | cons b batch ih =>
      rw [upsertAll, List.foldlM_cons, bind_eq_ok] at h
      obtain ⟨rows₁, hwrite, hrest⟩ := h
      intro a ha
      obtain hold | hnew := ih hrest a ha
      · obtain hold | rfl := mem_of_upsert hwrite hold
        · exact .inl hold
        · exact .inr List.mem_cons_self
      · exact .inr (List.mem_cons_of_mem _ hnew)

theorem nodup_keys_of_upsertAll {batch rows rows' : List α} (hnd : (Table.keys rows).Nodup)
    (h : s.upsertAll outOfRange duplicate rows batch = .ok rows') : (Table.keys rows').Nodup := by
  refine foldlM_invariant (fun rows : List α => (Table.keys rows).Nodup) ?_ hnd h
  intro rows₁ a rows₂ hnd₁ hwrite
  obtain ⟨_, _, rfl⟩ := upsert_eq_ok.mp hwrite
  split
  · rw [Table.keys_put]
    exact hnd₁
  · rename_i hfresh
    exact Table.nodup_keys_concat hnd₁ hfresh

end Schema

/-! ## Loops that write several tables -/

variable {β γ σ τ : Type u}

/-- A loop that works out a row and writes it, where the row can always be worked out. -/
theorem foldlM_of_forall_eq_ok {f : γ → Except ε β} {g : γ → β} {write : σ → β → Except ε σ}
    {xs : List γ} (h : ∀ x ∈ xs, f x = .ok (g x)) (a : σ) :
    xs.foldlM (fun a x => f x >>= write a) a = (xs.map g).foldlM write a := by
  induction xs generalizing a with
  | nil => rfl
  | cons x xs ih =>
      obtain ⟨hx, hxs⟩ := List.forall_mem_cons.mp h
      rw [List.foldlM_cons, List.map_cons, List.foldlM_cons, hx, ok_bind]
      exact bind_congr_ok fun a₁ _ => ih hxs a₁

/-- A loop over two tables is a loop over each, where it goes through. -/
theorem foldlM_prod_eq_ok {h : σ × τ → γ → Except ε (σ × τ)} {f : σ → γ → Except ε σ}
    {g : τ → γ → Except ε τ} {xs : List γ}
    (step : ∀ x ∈ xs, ∀ t t', h t x = .ok t' ↔ f t.1 x = .ok t'.1 ∧ g t.2 x = .ok t'.2)
    {t t' : σ × τ} :
    xs.foldlM h t = .ok t' ↔ xs.foldlM f t.1 = .ok t'.1 ∧ xs.foldlM g t.2 = .ok t'.2 := by
  induction xs generalizing t with
  | nil => simp only [List.foldlM_nil, pure_eq_ok, Prod.ext_iff]
  | cons x xs ih =>
      obtain ⟨hx, hxs⟩ := List.forall_mem_cons.mp step
      simp only [List.foldlM_cons, bind_eq_ok]
      constructor
      · rintro ⟨t₁, hfirst, hrest⟩
        obtain ⟨hf, hg⟩ := (hx t t₁).mp hfirst
        obtain ⟨hfs, hgs⟩ := (ih hxs).mp hrest
        exact ⟨⟨t₁.1, hf, hfs⟩, t₁.2, hg, hgs⟩
      · rintro ⟨⟨a, hf, hfs⟩, b, hg, hgs⟩
        exact ⟨(a, b), (hx t (a, b)).mpr ⟨hf, hg⟩, (ih hxs).mpr ⟨hfs, hgs⟩⟩

/-- Every round of a loop that goes through does. -/
theorem exists_of_foldlM_eq_ok {f : σ → γ → Except ε σ} {xs : List γ} {a a' : σ}
    (h : xs.foldlM f a = .ok a') : ∀ x ∈ xs, ∃ b b', f b x = .ok b' := by
  induction xs generalizing a with
  | nil => exact fun x hx => absurd hx List.not_mem_nil
  | cons x xs ih =>
      rw [List.foldlM_cons, bind_eq_ok] at h
      obtain ⟨b, hx, hrest⟩ := h
      exact List.forall_mem_cons.mpr ⟨⟨a, b, hx⟩, ih hrest⟩

/-- Write the row, if there is one. -/
def writeSome (write : σ → β → Except ε σ) (a : σ) : Option β → Except ε σ
  | some b => write a b
  | none => pure a

/-- A loop that passes over some of its elements. -/
theorem foldlM_writeSome {f : γ → Option β} {write : σ → β → Except ε σ} {xs : List γ} {a : σ} :
    xs.foldlM (fun a x => writeSome write a (f x)) a = (xs.filterMap f).foldlM write a := by
  induction xs generalizing a with
  | nil => rfl
  | cons x xs ih =>
      rw [List.foldlM_cons, List.filterMap_cons]
      cases h : f x with
      | none => exact ih
      | some y =>
          rw [List.foldlM_cons]
          exact bind_congr_ok fun a₁ _ => ih

end VesselCaller.Lib
