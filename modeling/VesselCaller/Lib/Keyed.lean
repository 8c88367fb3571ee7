import Mathlib.Data.List.Nodup
import Mathlib.Data.List.Perm.Basic

/-!
# Tables of keyed rows

A database table is a list of rows with a primary key.  `Table.get` is the
look-up by key, `Table.put` writes a row back over the row with the same key
(an `UPDATE`), and inserting is consing or appending under the uniqueness guard
the caller checks.  `Table.renew` drops that row instead and appends the new one.

`lastByKey` is the dictionary a loop `for x in xs: d[key(x)] = x` leaves behind:
of every key the last row.

## Main definitions

* `Keyed` — rows with a key, and `Table.keys`, `Table.get`, `Table.put`, `Table.renew`;
* `UniqueOn` — a partial unique index;
* `lastByKey` — the last row of every key.
-/

namespace VesselCaller.Lib

universe u v

/-- Two columns of text together may be a key. -/
instance instLawfulBEqColumns : LawfulBEq (String × String) := inferInstance

/-- Rows that carry a primary key. -/
class Keyed (α : Type u) (κ : outParam (Type v)) where
  key : α → κ

export Keyed (key)

namespace Table

variable {α : Type u} {κ : Type v} [Keyed α κ]

/-- The keys of a table, in row order. -/
def keys (rows : List α) : List κ := rows.map key

/-- The keys of two tables in a row. -/
@[simp] theorem keys_append (rows rows' : List α) :
    keys (rows ++ rows') = keys rows ++ keys rows' :=
  List.map_append

/-- The key of the first row comes first. -/
@[simp] theorem keys_cons (a : α) (rows : List α) : keys (a :: rows) = key a :: keys rows := rfl

/-- The empty table has no keys. -/
@[simp] theorem keys_nil : keys ([] : List α) = [] := rfl

/-- A key of the table is the key of some row. -/
theorem mem_keys {k : κ} {rows : List α} : k ∈ keys rows ↔ ∃ a ∈ rows, key a = k :=
  List.mem_map

/-- Appending a row with a fresh key keeps the keys unique. -/
theorem nodup_keys_concat {rows : List α} {a : α} (hnd : (keys rows).Nodup)
    (hfresh : key a ∉ keys rows) : (keys (rows ++ [a])).Nodup := by
  rw [keys_append]
  exact List.nodup_append'.mpr ⟨hnd, List.nodup_singleton _, by simpa using hfresh⟩

variable [DecidableEq κ]

/-- The first row with key `k`. -/
def get (k : κ) (rows : List α) : Option α := rows.find? fun a => decide (key a = k)

/-- Write `a` over the row with the same key. -/
def put (a : α) (rows : List α) : List α := rows.map fun b => if key b = key a then a else b

/-- What is found is a row, and has the key that was looked up. -/
theorem mem_of_get {k : κ} {rows : List α} {a : α} (h : get k rows = some a) :
    a ∈ rows ∧ key a = k :=
  ⟨List.mem_of_find?_eq_some h, by simpa using List.find?_some h⟩

/-- Replacing a row keeps the keys. -/
@[simp] theorem keys_put (a : α) (rows : List α) : keys (put a rows) = keys rows := by
  simp only [keys, put, List.map_map]
  refine List.map_congr_left fun b _ => ?_
  simp only [Function.comp_apply]
  split
  · rename_i h
    exact h.symm
  · rfl

/-- Replacing in two tables in a row. -/
theorem put_append (a : α) (rows rows' : List α) :
    put a (rows ++ rows') = put a rows ++ put a rows' :=
  List.map_append

/-- Writing a row whose key does not occur changes nothing. -/
theorem put_of_forall_ne {a : α} {rows : List α} (h : ∀ b ∈ rows, key b ≠ key a) :
    put a rows = rows := by
  conv_rhs => rw [← List.map_id rows]
  exact List.map_congr_left fun b hb => by simp [h b hb]

/-- Writing over a row that has just been added. -/
theorem put_cons_self {a b : α} {rows : List α} (hkey : key b = key a)
    (hnew : ∀ c ∈ rows, key c ≠ key a) : put a (b :: rows) = a :: rows := by
  show (if key b = key a then a else b) :: put a rows = a :: rows
  rw [if_pos hkey, put_of_forall_ne hnew]

/-- The last row is replaced where no other has its key. -/
theorem put_concat_self {a b : α} {rows : List α} (hkey : key b = key a)
    (hnew : ∀ c ∈ rows, key c ≠ key a) : put a (rows ++ [b]) = rows ++ [a] := by
  rw [put_append, put_of_forall_ne hnew, put_cons_self hkey (by simp)]

/-- Of two writes of one row the later one counts. -/
theorem put_put {a b : α} (h : key a = key b) (rows : List α) :
    put a (put b rows) = put a rows := by
  unfold put
  rw [List.map_map]
  refine List.map_congr_left fun c _ => ?_
  show (if key (if key c = key b then b else c) = key a then a else _) = _
  by_cases hc : key c = key b
  · simp [hc, h]
  · simp [hc]

/-- After a replacement a row is the new one, or an old one of another key. -/
theorem mem_put {a b : α} {rows : List α} (h : b ∈ put a rows) :
    b = a ∨ b ∈ rows ∧ key b ≠ key a := by
  obtain ⟨c, hc, rfl⟩ := List.mem_map.mp h
  by_cases hk : key c = key a
  · simp [hk]
  · simp [hk, hc]

/-- The replaced row is there. -/
theorem mem_put_self {a b : α} {rows : List α} (hb : b ∈ rows) (hk : key b = key a) :
    a ∈ put a rows :=
  List.mem_map.mpr ⟨b, hb, by simp [hk]⟩

/-- Rows of other keys stay. -/
theorem mem_put_of_ne {a b : α} {rows : List α} (hb : b ∈ rows) (hk : key b ≠ key a) :
    b ∈ put a rows :=
  List.mem_map.mpr ⟨b, hb, by simp [hk]⟩

/-- With unique keys a row is the one its key finds. -/
theorem get_of_mem {rows : List α} (hnd : (keys rows).Nodup) {a : α} (ha : a ∈ rows) :
    get (key a) rows = some a := by
  induction rows with
  | nil => simp at ha
  | cons b rows ih =>
      simp only [keys, List.map_cons, List.nodup_cons] at hnd
      rcases List.mem_cons.mp ha with rfl | ha
      · simp [get]
      · have hne : key b ≠ key a := by
          intro h
          exact hnd.1 (List.mem_map.mpr ⟨a, ha, h.symm⟩)
        have hrest := ih hnd.2 ha
        simp only [get, List.find?_cons] at hrest ⊢
        simpa [hne] using hrest

/-- Two rows with the same key are one row. -/
theorem eq_of_key_eq {rows : List α} (hnd : (keys rows).Nodup) {a b : α}
    (ha : a ∈ rows) (hb : b ∈ rows) (h : key a = key b) : a = b := by
  have h1 := get_of_mem hnd ha
  rw [h, get_of_mem hnd hb] at h1
  exact (Option.some.inj h1).symm

/-- The replaced row is the one that is found. -/
theorem get_put_self {a b : α} {rows : List α} (h : get (key a) rows = some b) :
    get (key a) (put a rows) = some a := by
  induction rows with
  | nil => simp [get] at h
  | cons c rows ih =>
      by_cases hk : key c = key a
      · simp [get, put, hk]
      · simp only [get, List.find?_cons, hk, decide_false] at h
        simp only [get, put, List.map_cons, hk, if_false, List.find?_cons, decide_false]
        exact ih h

/-- Looking up another key finds what it found before. -/
theorem get_put_of_ne {a : α} {k : κ} {rows : List α} (hk : k ≠ key a) :
    get k (put a rows) = get k rows := by
  induction rows with
  | nil => rfl
  | cons c rows ih =>
      by_cases hc : key c = key a
      · have hck : key c ≠ k := fun h => hk (h.symm.trans hc)
        simp only [get, put, List.map_cons, hc, if_true, List.find?_cons, Ne.symm hk,
          decide_false]
        exact ih
      · by_cases hck : key c = k
        · subst hck
          simp only [get, put, List.map_cons, hc, if_false, List.find?_cons, decide_true]
        · simp only [get, put, List.map_cons, hc, if_false, List.find?_cons, hck, decide_false]
          exact ih

/-- Nothing is found exactly for a key the table does not have. -/
theorem get_eq_none_iff {k : κ} {rows : List α} : get k rows = none ↔ k ∉ keys rows := by
  simp only [get, List.find?_eq_none, decide_eq_true_eq, mem_keys, not_exists, not_and]

/-- A key of the table is found. -/
theorem exists_get {k : κ} {rows : List α} (h : k ∈ keys rows) : ∃ a, get k rows = some a := by
  refine Option.ne_none_iff_exists'.mp fun hnone => ?_
  exact get_eq_none_iff.mp hnone h

/-! ### Rows that move to the end -/

/-- Remove the row with the key of `a` and append `a`. -/
def renew (a : α) (rows : List α) : List α := (rows.filter fun b => key b ≠ key a) ++ [a]

/-- The rows after a row was written, whether it was new or not. -/
theorem mem_renew {a b : α} {rows : List α} :
    b ∈ renew a rows ↔ (b ∈ rows ∧ key b ≠ key a) ∨ b = a := by
  simp [renew]

/-- The written row is the one that is found. -/
theorem get_renew_self (a : α) (rows : List α) : get (key a) (renew a rows) = some a := by
  have hnone : (rows.filter fun b => key b ≠ key a).find? (fun b => decide (key b = key a)) =
      none := by
    simp
  rw [get, renew, List.find?_append, hnone]
  simp

/-- Writing a row changes no other key. -/
theorem get_renew_of_ne {a : α} {k : κ} {rows : List α} (h : k ≠ key a) :
    get k (renew a rows) = get k rows := by
  have hlast : [a].find? (fun b => decide (key b = k)) = none := by
    simpa using Ne.symm h
  rw [get, renew, List.find?_append, hlast, Option.or_none, List.find?_filter]
  refine congrArg (rows.find? ·) ?_
  funext b
  by_cases hb : key b = k
  · simp [hb, h]
  · simp [hb]

/-- Writing a row keeps the keys distinct. -/
theorem nodup_keys_renew {rows : List α} (hnd : (keys rows).Nodup) (a : α) :
    (keys (renew a rows)).Nodup := by
  have hsub : (keys (rows.filter fun b => key b ≠ key a)).Nodup :=
    hnd.sublist (List.filter_sublist.map key)
  refine nodup_keys_concat hsub ?_
  rintro hmem
  obtain ⟨b, hb, hkey⟩ := mem_keys.mp hmem
  simp [hkey] at hb

/-! ### Partial unique indexes -/

section UniqueOn

variable {ι : Type*}

/-- No two rows have the same value of `f`, where they have one: a partial unique index. -/
def UniqueOn (f : α → Option ι) (rows : List α) : Prop :=
  ∀ a ∈ rows, ∀ b ∈ rows, ∀ i, f a = some i → f b = some i → a = b

omit [Keyed α κ] [DecidableEq κ] in
/-- The empty table has nothing twice. -/
theorem UniqueOn.nil (f : α → Option ι) : UniqueOn f [] := fun _ ha => by cases ha

omit [Keyed α κ] [DecidableEq κ] in
/-- A row whose index is fresh may be put in front. -/
theorem UniqueOn.cons {f : α → Option ι} {rows : List α} {a : α} (h : UniqueOn f rows)
    (fresh : ∀ i, f a = some i → ∀ b ∈ rows, f b ≠ some i) : UniqueOn f (a :: rows) := by
  intro b hb c hc i hbi hci
  rcases List.mem_cons.mp hb with rfl | hbold <;> rcases List.mem_cons.mp hc with rfl | hcold
  · rfl
  · exact absurd hci (fresh i hbi c hcold)
  · exact absurd hbi (fresh i hci b hbold)
  · exact h b hbold c hcold i hbi hci

omit [Keyed α κ] [DecidableEq κ] in
/-- A change that takes the value from every row it changes. -/
theorem UniqueOn.map {f : α → Option ι} {rows : List α} {g : α → α} (h : UniqueOn f rows)
    (hg : ∀ a ∈ rows, g a = a ∨ f (g a) = none) : UniqueOn f (rows.map g) := by
  have hkept : ∀ {a i}, a ∈ rows → f (g a) = some i → g a = a := by
    intro a i ha hi
    obtain hsame | hnone := hg a ha
    · exact hsame
    · rw [hnone] at hi
      cases hi
  intro b hb c hc i hbi hci
  obtain ⟨a, ha, rfl⟩ := List.mem_map.mp hb
  obtain ⟨d, hd, rfl⟩ := List.mem_map.mp hc
  have hga := hkept ha hbi
  have hgd := hkept hd hci
  rw [hga] at hbi
  rw [hgd] at hci
  rw [hga, hgd]
  exact h a ha d hd i hbi hci

/-- Writing a row whose value no other row has. -/
theorem UniqueOn.put {f : α → Option ι} {rows : List α} {a : α} (h : UniqueOn f rows)
    (fresh : ∀ i, f a = some i → ∀ b ∈ rows, key b ≠ key a → f b ≠ some i) :
    UniqueOn f (put a rows) := by
  intro b hb c hc i hbi hci
  rcases mem_put hb with rfl | ⟨hbold, hbk⟩ <;> rcases mem_put hc with rfl | ⟨hcold, hck⟩
  · rfl
  · exact absurd hci (fresh i hbi c hcold hck)
  · exact absurd hbi (fresh i hci b hbold hbk)
  · exact h b hbold c hcold i hbi hci

end UniqueOn

end Table

/-- A list without repetitions whose members are all the same has at most one. -/
theorem length_le_one_of_forall_eq {α : Type u} {xs : List α} (hnd : xs.Nodup)
    (h : ∀ a ∈ xs, ∀ b ∈ xs, a = b) : xs.length ≤ 1 := by
  match xs with
  | [] => simp
  | [_] => simp
  | a :: b :: rest =>
      have hab : a = b := h a (by simp) b (by simp)
      simp [hab] at hnd

/-- Rows are told apart by a partial key that no two of them share. -/
theorem eq_of_nodup_filterMap {α : Type u} {κ : Type v} {f : α → Option κ} {a b : α} {k : κ} :
    ∀ {xs : List α}, (xs.filterMap f).Nodup → a ∈ xs → b ∈ xs → f a = some k → f b = some k →
      a = b := by
  intro xs
  induction xs with
  | nil => intro _ ha; cases ha
  | cons x xs ih =>
      intro hnd ha hb hfa hfb
      have hfresh : ∀ c ∈ xs, f x = some k → f c ≠ some k := by
        intro c hc hx hfc
        rw [List.filterMap_cons, hx, List.nodup_cons] at hnd
        exact hnd.1 (List.mem_filterMap.mpr ⟨c, hc, hfc⟩)
      have hrest : (xs.filterMap f).Nodup := by
        refine List.Nodup.sublist (List.Sublist.filterMap f (List.sublist_cons_self x xs)) hnd
      obtain rfl | hmemA := List.mem_cons.mp ha
      · obtain rfl | hmemB := List.mem_cons.mp hb
        · rfl
        · exact absurd hfb (hfresh b hmemB hfa)
      · obtain rfl | hmemB := List.mem_cons.mp hb
        · exact absurd hfa (hfresh a hmemA hfb)
        · exact ih hrest hmemA hmemB hfa hfb

/-- With unique keys, filtering by the key of a row leaves that row. -/
theorem filter_eq_singleton {α : Type u} {κ : Type v} [DecidableEq κ] {f : α → κ} {a : α} :
    ∀ {xs : List α}, (xs.map f).Nodup → a ∈ xs →
      xs.filter (fun x => decide (f x = f a)) = [a] := by
  intro xs
  induction xs with
  | nil => intro _ h; simp at h
  | cons x xs ih =>
      intro hnd h
      rw [List.map_cons, List.nodup_cons] at hnd
      obtain rfl | h := List.mem_cons.mp h
      · have hrest : xs.filter (fun x => decide (f x = f a)) = [] := by
          refine List.filter_eq_nil_iff.mpr fun y hy heq => hnd.1 ?_
          exact List.mem_map.mpr ⟨y, hy, by simpa using heq⟩
        simp [hrest]
      · have hne : f x ≠ f a := fun heq => hnd.1 (heq ▸ List.mem_map_of_mem h)
        simp [hne, ih hnd.2 h]

section LastByKey

variable {α : Type u} {κ : Type v} [DecidableEq κ]

/-- Of every key the last row: the dictionary a left-to-right loop of assignments
leaves, in the order of those last rows. -/
def lastByKey (f : α → κ) : List α → List α
  | [] => []
  | a :: rest => if rest.any (fun b => decide (f b = f a)) then lastByKey f rest
      else a :: lastByKey f rest

/-- What is kept was in the list. -/
theorem mem_of_mem_lastByKey {f : α → κ} {a : α} :
    ∀ {xs : List α}, a ∈ lastByKey f xs → a ∈ xs := by
  intro xs
  induction xs with
  | nil => exact id
  | cons x xs ih =>
      intro h
      unfold lastByKey at h
      split at h
      · exact List.mem_cons_of_mem _ (ih h)
      · rcases List.mem_cons.mp h with rfl | h
        · exact List.mem_cons_self
        · exact List.mem_cons_of_mem _ (ih h)

/-- Every key that occurs has a last row. -/
theorem exists_mem_lastByKey {f : α → κ} {a : α} :
    ∀ {xs : List α}, a ∈ xs → ∃ b ∈ lastByKey f xs, f b = f a := by
  intro xs
  induction xs generalizing a with
  | nil => intro h; simp at h
  | cons x xs ih =>
      intro h
      unfold lastByKey
      split
      · rename_i hany
        rcases List.mem_cons.mp h with rfl | h
        · obtain ⟨b, hb, hk⟩ := List.any_eq_true.mp hany
          obtain ⟨c, hc, hck⟩ := ih hb
          exact ⟨c, hc, hck.trans (by simpa using hk)⟩
        · exact ih h
      · rcases List.mem_cons.mp h with rfl | h
        · exact ⟨a, List.mem_cons_self, rfl⟩
        · obtain ⟨b, hb, hk⟩ := ih h
          exact ⟨b, List.mem_cons_of_mem _ hb, hk⟩

/-- The last ones are kept in their order. -/
theorem lastByKey_sublist (f : α → κ) : ∀ xs : List α, (lastByKey f xs).Sublist xs := by
  intro xs
  induction xs with
  | nil => exact .slnil
  | cons x xs ih =>
      unfold lastByKey
      split
      · exact ih.cons x
      · exact ih.cons_cons x

/-- Every key has one row. -/
theorem nodup_map_lastByKey (f : α → κ) : ∀ xs : List α, ((lastByKey f xs).map f).Nodup := by
  intro xs
  induction xs with
  | nil => exact List.nodup_nil
  | cons x xs ih =>
      unfold lastByKey
      split
      · exact ih
      · rename_i hlast
        refine List.nodup_cons.mpr ⟨fun hmem => hlast ?_, ih⟩
        obtain ⟨b, hb, hkey⟩ := List.mem_map.mp hmem
        exact List.any_eq_true.mpr ⟨b, mem_of_mem_lastByKey hb, decide_eq_true hkey⟩

/-- Of rows in the order of `g`, the last one of a key is the greatest. -/
theorem le_of_mem_lastByKey {f : α → κ} {g : α → ℕ} {a b : α} :
    ∀ {xs : List α}, xs.Pairwise (fun a b => g a ≤ g b) → a ∈ lastByKey f xs → b ∈ xs →
      f b = f a → g b ≤ g a := by
  intro xs
  induction xs with
  | nil => intro _ ha; cases ha
  | cons x xs ih =>
      intro hsorted ha hb hkey
      rw [List.pairwise_cons] at hsorted
      unfold lastByKey at ha
      split at ha
      · obtain rfl | hb := List.mem_cons.mp hb
        · exact hsorted.1 a (mem_of_mem_lastByKey ha)
        · exact ih hsorted.2 ha hb hkey
      · rename_i hlast
        obtain rfl | hrest := List.mem_cons.mp ha
        · obtain rfl | hb := List.mem_cons.mp hb
          · exact Nat.le_refl _
          · exact absurd (List.any_eq_true.mpr ⟨b, hb, decide_eq_true hkey⟩) hlast
        · obtain rfl | hb := List.mem_cons.mp hb
          · exact hsorted.1 a (mem_of_mem_lastByKey hrest)
          · exact ih hsorted.2 hrest hb hkey

/-- A map that keeps the keys, or renames them apart, moves through the dictionary. -/
theorem lastByKey_map_of_injective {β : Type w} {ι : Type x} [DecidableEq ι] {f : α → κ}
    {g : β → ι} {h : α → β} {e : κ → ι} (he : Function.Injective e)
    (hkey : ∀ a, g (h a) = e (f a)) :
    ∀ xs : List α, lastByKey g (xs.map h) = (lastByKey f xs).map h := by
  intro xs
  induction xs with
  | nil => rfl
  | cons x xs ih =>
      simp only [List.map_cons, lastByKey, List.any_map, Function.comp_def, hkey, he.eq_iff, ih]
      split <;> rfl

/-- Keeping the last ones commutes with a map that respects the keys. -/
theorem lastByKey_map {β : Type w} {f : α → κ} {g : β → κ} {h : α → β}
    (hkey : ∀ a, g (h a) = f a) :
    ∀ xs : List α, lastByKey g (xs.map h) = (lastByKey f xs).map h :=
  lastByKey_map_of_injective Function.injective_id hkey

end LastByKey

end VesselCaller.Lib
