import VesselCaller.Lib.Fallible
import VesselCaller.Lib.Keyed

/-!
# Writing a unique column row by row

A database checks a unique constraint, and the range of a column, at every row it
writes.  A batch of writes that would leave the column unique can therefore still
fail, because a value is written while another row holds it that the batch has yet to
move away.

`Column.writeAll` writes a batch in order.  `exists_writeAll_iff` says exactly when it
goes through, in terms of the values the rows hold before the batch: every value is
within the range, no write meets a value an earlier one wrote, and none meets a row that
is written later, or never.

## Main definitions

* `Column`, `write`, `writeAll` — the column, one write and a batch;
* `assign` — the column the batch asks for;
* `Clear` — no value of the batch is held by a row that is still to be moved.
-/

namespace VesselCaller.Lib

universe u v w

/-- A column of numbers in rows with a primary key. -/
structure Column (α : Type u) (κ : outParam (Type v)) [Keyed α κ] where
  get : α → ℕ
  set : ℕ → α → α
  get_set : ∀ n a, get (set n a) = n
  key_set : ∀ n a, key (set n a) = key a

namespace Column

variable {α : Type u} {κ : Type v} {ε : Type w} [Keyed α κ] [DecidableEq κ]
variable (c : Column α κ) (limit : ℕ) (outOfRange taken : ε)

/-- Write `n` into the row with key `k`. -/
def write (rows : List α) (k : κ) (n : ℕ) : Except ε (List α) := do
  raiseIf (limit < n) outOfRange
  raiseIf (∃ row ∈ rows, key row ≠ k ∧ c.get row = n) taken
  return rows.map fun row => if key row = k then c.set n row else row

/-- A batch of writes, in order. -/
def writeAll (rows : List α) (writes : List (κ × ℕ)) : Except ε (List α) :=
  writes.foldlM (fun rows w => c.write limit outOfRange taken rows w.1 w.2) rows

/-- What a batch makes of one row. -/
def assign (writes : List (κ × ℕ)) (row : α) : α :=
  writes.foldl (fun row w => if key row = w.1 then c.set w.2 row else row) row

/-- No write meets the value of an earlier one, or the old value of a row that is
written later. -/
def Clear (old : κ → ℕ) (writes : List (κ × ℕ)) : Prop :=
  writes.Pairwise fun w w' => w.2 ≠ w'.2 ∧ old w'.1 ≠ w.2

variable {c limit outOfRange taken}

theorem write_eq_ok {rows rows' : List α} {k : κ} {n : ℕ} :
    c.write limit outOfRange taken rows k n = .ok rows' ↔
      n ≤ limit ∧ (∀ row ∈ rows, key row ≠ k → c.get row ≠ n) ∧
        rows.map (fun row => if key row = k then c.set n row else row) = rows' := by
  simp only [write, bind_eq_ok, raiseIf_eq_ok, pure_eq_ok, exists_const, Nat.not_lt, not_exists,
    not_and, ne_eq]

/-! ## What a batch writes -/

theorem writeAll_eq_ok : ∀ {writes : List (κ × ℕ)} {rows rows' : List α},
    c.writeAll limit outOfRange taken rows writes = .ok rows' →
      rows' = rows.map (c.assign writes) := by
  intro writes
  induction writes with
  | nil =>
      intro rows rows' h
      simp only [writeAll, List.foldlM_nil, pure_eq_ok] at h
      rw [← h]
      exact (List.map_id rows).symm
  | cons w writes ih =>
      intro rows rows' h
      simp only [writeAll, List.foldlM_cons, bind_eq_ok] at h
      obtain ⟨rows₁, hwrite, hrest⟩ := h
      obtain ⟨_, _, rfl⟩ := write_eq_ok.mp hwrite
      rw [ih hrest, List.map_map]
      rfl

theorem key_ite (k : κ) (n : ℕ) (row : α) :
    key (if key row = k then c.set n row else row) = key row := by
  split
  · exact c.key_set n row
  · rfl

theorem keys_map_ite (k : κ) (n : ℕ) (rows : List α) :
    Table.keys (rows.map fun row => if key row = k then c.set n row else row) =
      Table.keys rows := by
  rw [Table.keys, List.map_map]
  exact List.map_congr_left fun row _ => key_ite k n row

theorem assign_of_not_mem : ∀ {writes : List (κ × ℕ)} {row : α},
    key row ∉ writes.map Prod.fst → c.assign writes row = row := by
  intro writes
  induction writes with
  | nil => exact fun _ => rfl
  | cons w writes ih =>
      intro row h
      simp only [List.map_cons, List.mem_cons, not_or] at h
      show c.assign writes (if key row = w.1 then c.set w.2 row else row) = row
      rw [if_neg h.1]
      exact ih h.2

/-- A row gets the value the batch has for it. -/
theorem assign_of_mem {n : ℕ} : ∀ {writes : List (κ × ℕ)} {row : α},
    (writes.map Prod.fst).Nodup → (key row, n) ∈ writes → c.assign writes row = c.set n row := by
  intro writes
  induction writes with
  | nil => exact fun _ h => absurd h List.not_mem_nil
  | cons w writes ih =>
      intro row hnd h
      simp only [List.map_cons, List.nodup_cons] at hnd
      show c.assign writes (if key row = w.1 then c.set w.2 row else row) = c.set n row
      obtain rfl | h := List.mem_cons.mp h
      · rw [if_pos rfl]
        exact assign_of_not_mem (by rw [c.key_set]; exact hnd.1)
      · have hne : key row ≠ w.1 := fun hk =>
          hnd.1 (List.mem_map.mpr ⟨_, h, hk⟩)
        rw [if_neg hne]
        exact ih hnd.2 h

/-! ## When a batch goes through -/

/-- **A batch goes through** exactly when its values are within the range and clear of
each other, of the old values of the rows it has yet to write, and of the rows it does
not write. -/
theorem exists_writeAll_iff {old : κ → ℕ} : ∀ {writes : List (κ × ℕ)} {rows : List α},
    (writes.map Prod.fst).Nodup → (∀ w ∈ writes, w.1 ∈ Table.keys rows) →
    (∀ row ∈ rows, key row ∈ writes.map Prod.fst → c.get row = old (key row)) →
    ((∃ rows', c.writeAll limit outOfRange taken rows writes = .ok rows') ↔
      (∀ w ∈ writes, w.2 ≤ limit) ∧ Clear old writes ∧
        ∀ row ∈ rows, key row ∉ writes.map Prod.fst → ∀ w ∈ writes, c.get row ≠ w.2) := by
  intro writes
  induction writes with
  | nil =>
      intro rows _ _ _
      simp [writeAll, Clear, pure, Except.pure]
  | cons w writes ih =>
      intro rows hnd hmem hold
      simp only [List.map_cons, List.nodup_cons] at hnd
      have hfirst : w.1 ∈ Table.keys rows := hmem w List.mem_cons_self
      let rows₁ := rows.map fun row => if key row = w.1 then c.set w.2 row else row
      have hkeys : Table.keys rows₁ = Table.keys rows := keys_map_ite _ _ _
      -- The rows still to be written keep their old values.
      have hold₁ : ∀ row ∈ rows₁, key row ∈ writes.map Prod.fst → c.get row = old (key row) := by
        intro row₁ hrow₁ hlater
        obtain ⟨row, hrow, rfl⟩ := List.mem_map.mp hrow₁
        rw [key_ite] at hlater ⊢
        have hne : key row ≠ w.1 := fun hk => hnd.1 (hk ▸ hlater)
        rw [if_neg hne]
        exact hold row hrow (List.mem_cons_of_mem _ hlater)
      have hrest := ih hnd.2 (fun w' hw' => hkeys ▸ hmem w' (List.mem_cons_of_mem _ hw')) hold₁
      have hsplit : (∃ rows', c.writeAll limit outOfRange taken rows (w :: writes) = .ok rows') ↔
          (w.2 ≤ limit ∧ ∀ row ∈ rows, key row ≠ w.1 → c.get row ≠ w.2) ∧
            ∃ rows', c.writeAll limit outOfRange taken rows₁ writes = .ok rows' := by
        simp only [writeAll, List.foldlM_cons, bind_eq_ok, write_eq_ok]
        constructor
        · rintro ⟨rows', _, ⟨hle, hfree, rfl⟩, h⟩
          exact ⟨⟨hle, hfree⟩, rows', h⟩
        · rintro ⟨⟨hle, hfree⟩, rows', h⟩
          exact ⟨rows', rows₁, ⟨hle, hfree, rfl⟩, h⟩
      rw [hsplit, hrest]
      constructor
      · rintro ⟨⟨hle, hfree⟩, hles, hclear, hothers⟩
        refine ⟨List.forall_mem_cons.mpr ⟨hle, hles⟩, List.pairwise_cons.mpr ⟨?_, hclear⟩, ?_⟩
        · intro w' hw'
          have hne : w'.1 ≠ w.1 := fun hk => hnd.1 (List.mem_map.mpr ⟨w', hw', hk⟩)
          constructor
          · -- the row just written is not written again
            obtain ⟨row, hrow, hk⟩ := Table.mem_keys.mp hfirst
            have hwritten := hothers (c.set w.2 row)
              (List.mem_map.mpr ⟨row, hrow, if_pos hk⟩)
              (by rw [c.key_set, hk]; exact hnd.1) w' hw'
            rwa [c.get_set] at hwritten
          · obtain ⟨row, hrow, hk⟩ := Table.mem_keys.mp (hmem w' (List.mem_cons_of_mem _ hw'))
            have hget := hold row hrow
              (by rw [hk]; exact List.mem_cons_of_mem _ (List.mem_map.mpr ⟨w', hw', rfl⟩))
            rw [← hk, ← hget]
            exact hfree row hrow (hk ▸ hne)
        · intro row hrow hnot
          simp only [List.map_cons, List.mem_cons, not_or] at hnot
          refine List.forall_mem_cons.mpr ⟨hfree row hrow hnot.1, fun w' hw' => ?_⟩
          exact hothers row (List.mem_map.mpr ⟨row, hrow, if_neg hnot.1⟩) hnot.2 w' hw'
      · rintro ⟨hles, hclear, hothers⟩
        obtain ⟨hle, hles⟩ := List.forall_mem_cons.mp hles
        obtain ⟨hahead, hclear⟩ := List.pairwise_cons.mp hclear
        refine ⟨⟨hle, fun row hrow hne => ?_⟩, hles, hclear, ?_⟩
        · by_cases hlater : key row ∈ writes.map Prod.fst
          · obtain ⟨w', hw', hk⟩ := List.mem_map.mp hlater
            rw [hold row hrow (List.mem_cons_of_mem _ hlater), ← hk]
            exact (hahead w' hw').2
          · refine hothers row hrow ?_ w List.mem_cons_self
            simp only [List.map_cons, List.mem_cons, not_or]
            exact ⟨hne, hlater⟩
        · intro row₁ hrow₁ hnot w' hw'
          obtain ⟨row, hrow, rfl⟩ := List.mem_map.mp hrow₁
          by_cases hk : key row = w.1
          · rw [if_pos hk, c.get_set]
            exact (hahead w' hw').1
          · rw [if_neg hk]
            refine hothers row hrow ?_ w' (List.mem_cons_of_mem _ hw')
            rw [key_ite] at hnot
            simp only [List.map_cons, List.mem_cons, not_or]
            exact ⟨hk, hnot⟩

/-- A batch that writes every row. -/
theorem exists_writeAll_iff_of_covers {old : κ → ℕ} {writes : List (κ × ℕ)} {rows : List α}
    (hnd : (writes.map Prod.fst).Nodup) (hmem : ∀ w ∈ writes, w.1 ∈ Table.keys rows)
    (hcovers : ∀ row ∈ rows, key row ∈ writes.map Prod.fst)
    (hold : ∀ row ∈ rows, c.get row = old (key row)) :
    (∃ rows', c.writeAll limit outOfRange taken rows writes = .ok rows') ↔
      (∀ w ∈ writes, w.2 ≤ limit) ∧ Clear old writes := by
  rw [exists_writeAll_iff hnd hmem fun row hrow _ => hold row hrow]
  exact and_congr_right fun _ =>
    and_iff_left fun row hrow hnot => absurd (hcovers row hrow) hnot

/-! ## The constraint itself -/

/-- A write keeps the column unique. -/
theorem nodup_of_write {rows rows' : List α} {k : κ} {n : ℕ} (hkeys : (Table.keys rows).Nodup)
    (hnd : (rows.map c.get).Nodup) (h : c.write limit outOfRange taken rows k n = .ok rows') :
    (rows'.map c.get).Nodup := by
  obtain ⟨_, hfree, rfl⟩ := write_eq_ok.mp h
  rw [List.map_map]
  refine List.Nodup.map_on ?_ hkeys.of_map
  intro a ha b hb heq
  simp only [Function.comp_apply] at heq
  by_cases hka : key a = k
  · by_cases hkb : key b = k
    · exact Table.eq_of_key_eq hkeys ha hb (hka.trans hkb.symm)
    · rw [if_pos hka, if_neg hkb, c.get_set] at heq
      exact absurd heq.symm (hfree b hb hkb)
  · by_cases hkb : key b = k
    · rw [if_neg hka, if_pos hkb, c.get_set] at heq
      exact absurd heq (hfree a ha hka)
    · rw [if_neg hka, if_neg hkb] at heq
      exact List.inj_on_of_nodup_map hnd ha hb heq

/-- **A batch that goes through keeps the column unique.** -/
theorem nodup_of_writeAll {writes : List (κ × ℕ)} {rows rows' : List α}
    (hkeys : (Table.keys rows).Nodup) (hnd : (rows.map c.get).Nodup)
    (h : c.writeAll limit outOfRange taken rows writes = .ok rows') :
    (rows'.map c.get).Nodup := by
  have hboth : (Table.keys rows').Nodup ∧ (rows'.map c.get).Nodup := by
    refine foldlM_invariant
      (fun rows' : List α => (Table.keys rows').Nodup ∧ (rows'.map c.get).Nodup) ?_
      ⟨hkeys, hnd⟩ h
    rintro rows₁ w rows₂ ⟨hkeys₁, hnd₁⟩ hwrite
    refine ⟨?_, nodup_of_write hkeys₁ hnd₁ hwrite⟩
    obtain ⟨_, _, rfl⟩ := write_eq_ok.mp hwrite
    rwa [keys_map_ite]
  exact hboth.2

end Column

end VesselCaller.Lib
