import VesselCaller.Billing.Model
import VesselCaller.Lib.PyInt
import Mathlib.Data.List.AList
import Mathlib.Data.List.SplitOn

/-!
# Sequences read off the numbers in use

`_rebuild_sequences` goes through the document numbers of an organization.  A number of the form
`STEM-year-counter`, both parts readable by `int`, counts for its year; any other text is passed
over.

* `documentNumber` — the year and the counter of a text;
* `byYear` — the dictionary the loop leaves: of every year that occurs the greatest counter,
  and no less than zero.

`lookup_byYear` says which entry a year has.
-/

namespace VesselCaller.Legacy

open Lib Billing

variable (u : Unicode) (stem : String)

/-- The year and the counter of `STEM-year-counter`. -/
def documentNumber (value : String) : Option (ℤ × ℤ) :=
  match value.toList.splitOn '-' with
  | [head, year, counter] =>
      if head = stem.toList then do return (← pyInt u year, ← pyInt u counter) else none
  | _ => none

/-- One round of the loop. -/
def countNumber (d : AList fun _ : ℤ => ℤ) (value : String) : AList fun _ : ℤ => ℤ :=
  match documentNumber u stem value with
  | some (year, counter) => d.insert year (max ((d.lookup year).getD 0) counter)
  | none => d

/-- `by_year`. -/
def byYear (values : List String) : AList fun _ : ℤ => ℤ := values.foldl (countNumber u stem) ∅

/-- The counters that occur in a year. -/
def counters (values : List String) (year : ℤ) : List ℤ :=
  values.filterMap fun value =>
    (documentNumber u stem value).bind fun n => if n.1 = year then some n.2 else none

variable {u stem}

/-- **The entry of a year** is the greatest counter of the year, where one occurs. -/
theorem lookup_byYear (values : List String) (year : ℤ) :
    (byYear u stem values).lookup year =
      if counters u stem values year = [] then none
      else some ((counters u stem values year).foldl max 0) := by
  -- By induction from the last number on, which is the one counted last.
  induction values using List.reverseRecOn with
  | nil => rfl
  | append_singleton values value ih =>
      have hbyYear : byYear u stem (values ++ [value]) =
          countNumber u stem (byYear u stem values) value := by
        simp [byYear, List.foldl_append]
      rw [hbyYear, countNumber]
      cases hn : documentNumber u stem value with
      | none =>
          have hsame : counters u stem (values ++ [value]) year = counters u stem values year := by
            simp [counters, List.filterMap_append, hn]
          rw [hsame]
          exact ih
      | some n =>
          obtain ⟨year', counter⟩ := n
          by_cases hyear : year' = year
          · subst hyear
            have hmore : counters u stem (values ++ [value]) year' =
                counters u stem values year' ++ [counter] := by
              simp [counters, List.filterMap_append, hn]
            have hdefault : ((byYear u stem values).lookup year').getD 0 =
                (counters u stem values year').foldl max 0 := by
              rw [ih]
              split
              · rename_i hnil
                rw [hnil]
                rfl
              · rfl
            rw [AList.lookup_insert, hdefault, hmore, if_neg (by simp), List.foldl_append]
            rfl
          · have hsame : counters u stem (values ++ [value]) year =
                counters u stem values year := by
              simp [counters, List.filterMap_append, hn, hyear]
            rw [AList.lookup_insert_ne (Ne.symm hyear), hsame]
            exact ih

theorem mem_counters {values : List String} {year counter : ℤ} :
    counter ∈ counters u stem values year ↔
      ∃ value ∈ values, documentNumber u stem value = some (year, counter) := by
  simp only [counters, List.mem_filterMap, Option.bind_eq_some_iff, Option.ite_none_right_eq_some,
    Option.some.injEq, Prod.exists]
  refine exists_congr fun value => and_congr_right fun _ => ⟨?_, ?_⟩
  · rintro ⟨year', counter', hn, rfl, rfl⟩
    exact hn
  · exact fun hn => ⟨year, counter, hn, rfl, rfl⟩

theorem foldl_max_le_iff {bound : ℤ} {ns : List ℤ} {n : ℤ} :
    ns.foldl max n ≤ bound ↔ n ≤ bound ∧ ∀ m ∈ ns, m ≤ bound := by
  induction ns generalizing n with
  | nil => simp
  | cons m ns ih => rw [List.foldl_cons, ih, max_le_iff, List.forall_mem_cons, and_assoc]

theorem le_foldl_max {ns : List ℤ} {n : ℤ} : n ≤ ns.foldl max n := (foldl_max_le_iff.mp le_rfl).1

theorem mem_entries_byYear {values : List String} {year top : ℤ} :
    (⟨year, top⟩ : Sigma fun _ : ℤ => ℤ) ∈ (byYear u stem values).entries ↔
      counters u stem values year ≠ [] ∧ (counters u stem values year).foldl max 0 = top := by
  rw [← AList.mem_lookup_iff, lookup_byYear, Option.mem_def]
  split <;> simp_all

end VesselCaller.Legacy
