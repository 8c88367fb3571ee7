import VesselCaller.Closeout.Readings
import VesselCaller.Lib.Sorting

/-!
# Readings, options and spreads

What the cells and the options of a row are, by the readings they are made from.
`reportedBy` is the quantity a participant's latest return reports for a cargo line; a cell
says no more than that.  The options are the numbers that are reported, each with the names
of the parties that report it (`gathered_gather`), and the spread encloses them
(`spreadOf_encloses`).

The order of the entries does not count for the numbers.  It counts for the texts, since an
option keeps the spelling it was opened with, unless equal numbers are spelled alike.

## Main definitions

* `quantityOf`, `IsQuantity` — the number of a reading;
* `reportedBy` — what a participant's latest return reports for a line;
* `Gathered` — the options, by the readings they are gathered from;
* `Spread.Encloses` — the spread, by the options it encloses.
-/

namespace VesselCaller.Closeout

open Lib
open Measurements (LineStatus PlanStatus)
open Comparison (quantityDifference startsWith Denotes Parsed)

/-! ## Numbers -/

/-- The number of an accepted text. -/
def quantityOf (text : String) : ℚ := ((Comparison.decimal (some text)).map Parsed.value).getD 0

/-- The text is accepted as a quantity. -/
def IsQuantity (text : String) : Prop := ∃ x, Denotes (some text) x

theorem IsQuantity.denotes {text : String} (h : IsQuantity text) :
    Denotes (some text) (quantityOf text) := by
  obtain ⟨x, hx⟩ := h
  obtain ⟨p, hp, -⟩ := Comparison.denotes_iff.mp hx
  refine Comparison.denotes_iff.mpr ⟨p, hp, ?_⟩
  rw [quantityOf, hp]
  rfl

theorem isQuantity_iff {text : String} :
    IsQuantity text ↔ (Comparison.decimal (some text)).isSome = true := by
  rw [Option.isSome_iff_exists]
  constructor
  · rintro ⟨x, hx⟩
    obtain ⟨p, hp, -⟩ := Comparison.denotes_iff.mp hx
    exact ⟨p, hp⟩
  · rintro ⟨p, hp⟩
    exact ⟨_, Comparison.denotes_iff.mpr ⟨p, hp, rfl⟩⟩

instance (text : String) : Decidable (IsQuantity text) :=
  decidable_of_iff _ isQuantity_iff.symm

/-- Quantities are compared by their numbers. -/
theorem compare_of {left right : String} (hleft : IsQuantity left) (hright : IsQuantity right) :
    compare left right =
      if quantityOf left = quantityOf right then 0
      else if quantityOf left < quantityOf right then -1 else 1 := by
  obtain ⟨difference, hdifference, hsaid⟩ :=
    Comparison.quantityDifference_pronounces hleft.denotes hright.denotes
  have hzero : difference = "0" ↔ quantityOf left = quantityOf right := by
    rw [hsaid.zero, sub_eq_zero]
  have hminus : startsWith difference "-" = true ↔ quantityOf left < quantityOf right := by
    rw [hsaid.minus, sub_neg]
  unfold compare
  rw [hdifference]
  simp only [hzero, hminus]

theorem compare_eq_zero_iff {left right : String} (hleft : IsQuantity left)
    (hright : IsQuantity right) :
    compare left right = 0 ↔ quantityOf left = quantityOf right := by
  rw [compare_of hleft hright]
  split
  · rename_i heq
    simp [heq]
  · rename_i hne
    split <;> simp [hne]

theorem compare_nonpos_iff {left right : String} (hleft : IsQuantity left)
    (hright : IsQuantity right) :
    compare left right ≤ 0 ↔ quantityOf left ≤ quantityOf right := by
  rw [compare_of hleft hright]
  split
  · rename_i heq
    simp [heq]
  · rename_i hne
    split
    · rename_i hlt
      simp [hlt.le]
    · rename_i hge
      simp only [Int.reduceLE, false_iff, not_le]
      exact lt_of_le_of_ne (not_lt.mp hge) (Ne.symm hne)

/-! ## Readings -/

/-- The quantity a participant's latest return reports for a cargo line. -/
def reportedBy (plan : MeasurementPlan) (line : CargoLine) (party : Participant) :
    Option String :=
  ((returnOf plan party.id).bind fun submission => entryFor submission line).bind fun entry =>
    if entry.status = .reported then entry.quantity else none

theorem readingCell_party (plan : MeasurementPlan) (line : CargoLine) (party : Participant) :
    (readingCell plan line party).party = party := by
  unfold readingCell
  split
  · rfl
  · split
    · rfl
    · split <;> rfl

theorem readingCell_reported (plan : MeasurementPlan) (line : CargoLine) (party : Participant) :
    (readingCell plan line party).reported = reportedBy plan line party := by
  unfold readingCell reportedBy
  cases hreturn : returnOf plan party.id with
  | none =>
      dsimp only
      split <;> rfl
  | some submission =>
      dsimp only [Option.bind_some]
      cases hentry : entryFor submission line with
      | none => rfl
      | some entry =>
          dsimp only [Option.bind_some]
          cases hstatus : entry.status <;> rfl

/-- A required participant is missing exactly when its latest return has no entry. -/
theorem readingCell_missing (plan : MeasurementPlan) (line : CargoLine) (party : Participant) :
    (readingCell plan line party).missing = true ↔ party.requiredSubmission = true ∧
      ((returnOf plan party.id).bind fun submission => entryFor submission line) = none := by
  unfold ReadingCell.missing
  rw [readingCell_party, Bool.and_eq_true]
  simp only [Bool.or_eq_true, decide_eq_true_eq]
  refine and_congr_right fun hrequired => ?_
  unfold readingCell
  cases hreturn : returnOf plan party.id with
  | none =>
      dsimp only
      split <;> simp
  | some submission =>
      dsimp only [Option.bind_some]
      cases hentry : entryFor submission line with
      | none => simp
      | some entry =>
          dsimp only
          cases hstatus : entry.status <;> simp

/-- The difference of a cell with a reported quantity is that to the declaration. -/
theorem readingCell_difference {plan : MeasurementPlan} {line : CargoLine}
    {party : Participant} {quantity : String} (h : reportedBy plan line party = some quantity) :
    (readingCell plan line party).difference =
      quantityDifference (some quantity) line.manifestQuantity := by
  unfold reportedBy at h
  unfold readingCell
  obtain ⟨entry, hentry, h⟩ := Option.bind_eq_some_iff.mp h
  obtain ⟨submission, hreturn, hentry⟩ := Option.bind_eq_some_iff.mp hentry
  rw [hreturn]
  dsimp only
  rw [hentry]
  dsimp only
  split at h
  · rename_i hstatus
    rw [hstatus]
    dsimp only
    rw [h]
  · cases h

/-! ## Options -/

/-- The options of a list of quantities, each with the name of its party. -/
def gather (entries : List (String × String)) : List ReadingOption :=
  entries.foldl (fun options entry => addOption options entry.1 entry.2) []

/-- What a cell reports, with the name of its party. -/
def ReadingCell.entry (cell : ReadingCell) : Option (String × String) :=
  cell.reported.map fun quantity => (quantity, cell.party.name)

theorem foldl_addCell (cells : List ReadingCell) :
    cells.foldl addCell [] = gather (cells.filterMap ReadingCell.entry) := by
  unfold gather
  generalize ([] : List ReadingOption) = options
  induction cells generalizing options with
  | nil => rfl
  | cons cell cells ih =>
      rw [List.foldl_cons, List.filterMap_cons, ih]
      unfold addCell ReadingCell.entry
      cases cell.reported <;> rfl

/-- A party joins the first option of its quantity, or opens one at the end. -/
theorem addOption_cases (options : List ReadingOption) (quantity party : String) :
    (∃ before option after, options = before ++ option :: after ∧
      compare option.quantity quantity = 0 ∧
      addOption options quantity party =
        before ++ { option with parties := option.parties ++ [party] } :: after) ∨
    ((∀ option ∈ options, compare option.quantity quantity ≠ 0) ∧
      addOption options quantity party =
        options ++ [{ quantity := quantity, parties := [party] }]) := by
  induction options with
  | nil => exact .inr ⟨nofun, rfl⟩
  | cons option options ih =>
      rw [addOption]
      split
      · rename_i hsame
        exact .inl ⟨[], option, options, rfl, hsame, rfl⟩
      · rename_i hother
        rcases ih with ⟨before, found, after, rfl, hsame, hadd⟩ | ⟨hnone, hadd⟩
        · exact .inl ⟨option :: before, found, after, rfl, hsame, by rw [hadd]; rfl⟩
        · refine .inr ⟨?_, by rw [hadd]; rfl⟩
          intro o ho
          rcases List.mem_cons.mp ho with rfl | ho
          · exact hother
          · exact hnone o ho

/-- The names of the parties that report a number. -/
def namesOf (entries : List (String × String)) (x : ℚ) : List String :=
  (entries.filter fun entry => quantityOf entry.1 = x).map Prod.snd

theorem namesOf_concat (entries : List (String × String)) (entry : String × String) (x : ℚ) :
    namesOf (entries ++ [entry]) x =
      namesOf entries x ++ if quantityOf entry.1 = x then [entry.2] else [] := by
  unfold namesOf
  rw [List.filter_append, List.map_append]
  congr 1
  split
  · rename_i hx
    simp [hx]
  · rename_i hx
    simp [hx]

/-- The options are the numbers of the entries, each once, with the names of the parties
that report it. -/
structure Gathered (entries : List (String × String)) (options : List ReadingOption) :
    Prop where
  distinct : options.Pairwise fun o o' => quantityOf o.quantity ≠ quantityOf o'.quantity
  parties : ∀ o ∈ options, o.parties = namesOf entries (quantityOf o.quantity)
  covered : ∀ entry ∈ entries, ∃ o ∈ options, quantityOf o.quantity = quantityOf entry.1
  spelled : ∀ o ∈ options, ∃ entry ∈ entries, entry.1 = o.quantity

/-- One more entry. -/
theorem Gathered.addOption {entries : List (String × String)} {options : List ReadingOption}
    (h : Gathered entries options) (hentries : ∀ entry ∈ entries, IsQuantity entry.1)
    {quantity party : String} (hquantity : IsQuantity quantity) :
    Gathered (entries ++ [(quantity, party)]) (addOption options quantity party) := by
  have hoption : ∀ o ∈ options, IsQuantity o.quantity := by
    intro o ho
    obtain ⟨entry, hentry, heq⟩ := h.spelled o ho
    exact heq ▸ hentries entry hentry
  rcases addOption_cases options quantity party with
    ⟨before, found, after, rfl, hsame, hadd⟩ | ⟨hnone, hadd⟩
  · have hfound : quantityOf found.quantity = quantityOf quantity :=
      (compare_eq_zero_iff (hoption found (by simp)) hquantity).mp hsame
    have hdistinct := List.pairwise_middle (fun {_ _} => Ne.symm) |>.mp h.distinct
    have hne : ∀ o ∈ before ++ after, quantityOf o.quantity ≠ quantityOf quantity :=
      fun o ho => hfound ▸ ((List.pairwise_cons.mp hdistinct).1 o ho).symm
    rw [hadd]
    refine ⟨?_, fun o ho => ?_, fun entry hentry => ?_, fun o ho => ?_⟩
    · have hmap := (List.pairwise_map (f := fun o : ReadingOption => quantityOf o.quantity)
        (R := (· ≠ ·))).mpr h.distinct
      apply (List.pairwise_map (f := fun o : ReadingOption => quantityOf o.quantity)
        (R := (· ≠ ·))).mp
      simpa using hmap
    · rw [namesOf_concat]
      rcases List.mem_append.mp ho with hmem | hmem
      · rw [if_neg (hne o (List.mem_append_left _ hmem)).symm, List.append_nil]
        exact h.parties o (List.mem_append_left _ hmem)
      · rcases List.mem_cons.mp hmem with rfl | hmem
        · dsimp only
          rw [if_pos hfound.symm, h.parties found (by simp)]
        · rw [if_neg (hne o (List.mem_append_right _ hmem)).symm, List.append_nil]
          exact h.parties o (by simp [hmem])
    · rcases List.mem_append.mp hentry with hentry | hentry
      · obtain ⟨o, ho, heq⟩ := h.covered entry hentry
        rcases List.mem_append.mp ho with hmem | hmem
        · exact ⟨o, by simp [hmem], heq⟩
        · rcases List.mem_cons.mp hmem with rfl | hmem
          · exact ⟨_, List.mem_append_right _ List.mem_cons_self, heq⟩
          · exact ⟨o, by simp [hmem], heq⟩
      · rw [List.mem_singleton.mp hentry]
        exact ⟨_, List.mem_append_right _ List.mem_cons_self, hfound⟩
    · have hold : ∃ o' ∈ before ++ found :: after, o'.quantity = o.quantity := by
        rcases List.mem_append.mp ho with hmem | hmem
        · exact ⟨o, by simp [hmem], rfl⟩
        · rcases List.mem_cons.mp hmem with rfl | hmem
          · exact ⟨found, by simp, rfl⟩
          · exact ⟨o, by simp [hmem], rfl⟩
      obtain ⟨o', ho', hspelling⟩ := hold
      obtain ⟨entry, hentry, heq⟩ := h.spelled o' ho'
      exact ⟨entry, List.mem_append_left _ hentry, heq.trans hspelling⟩
  · have hne : ∀ o ∈ options, quantityOf o.quantity ≠ quantityOf quantity := fun o ho heq =>
      hnone o ho ((compare_eq_zero_iff (hoption o ho) hquantity).mpr heq)
    -- No entry so far has this number, so the new option has the new party alone.
    have hfresh : namesOf entries (quantityOf quantity) = [] := by
      rw [namesOf, List.map_eq_nil_iff, List.filter_eq_nil_iff]
      intro entry hentry heq
      obtain ⟨o, ho, hsame⟩ := h.covered entry hentry
      exact hne o ho (hsame.trans (of_decide_eq_true heq))
    rw [hadd]
    refine ⟨?_, fun o ho => ?_, fun entry hentry => ?_, fun o ho => ?_⟩
    · refine List.pairwise_append.mpr ⟨h.distinct, List.pairwise_singleton _ _, ?_⟩
      intro o ho o' ho'
      rw [List.mem_singleton.mp ho']
      exact hne o ho
    · rw [namesOf_concat]
      rcases List.mem_append.mp ho with ho | ho
      · rw [if_neg (hne o ho).symm, List.append_nil]
        exact h.parties o ho
      · rw [List.mem_singleton.mp ho]
        dsimp only
        rw [hfresh, if_pos rfl, List.nil_append]
    · rcases List.mem_append.mp hentry with hentry | hentry
      · obtain ⟨o, ho, heq⟩ := h.covered entry hentry
        exact ⟨o, List.mem_append_left _ ho, heq⟩
      · rw [List.mem_singleton.mp hentry]
        exact ⟨_, List.mem_append_right _ List.mem_cons_self, rfl⟩
    · rcases List.mem_append.mp ho with ho | ho
      · obtain ⟨entry, hentry, heq⟩ := h.spelled o ho
        exact ⟨entry, List.mem_append_left _ hentry, heq⟩
      · rw [List.mem_singleton.mp ho]
        exact ⟨(quantity, party), by simp, rfl⟩

/-- **What the loop over the cells gathers.** -/
theorem gathered_gather {entries : List (String × String)}
    (h : ∀ entry ∈ entries, IsQuantity entry.1) : Gathered entries (gather entries) := by
  induction entries using List.reverseRecOn with
  | nil => exact ⟨List.Pairwise.nil, nofun, nofun, nofun⟩
  | append_singleton entries entry ih =>
      have hentries : ∀ e ∈ entries, IsQuantity e.1 := fun e he => h e (by simp [he])
      rw [gather, List.foldl_concat]
      exact (ih hentries).addOption hentries (h entry (by simp))

section Gathered

variable {entries entries' : List (String × String)} {options options' : List ReadingOption}

theorem Gathered.isQuantity (h : Gathered entries options)
    (hentries : ∀ entry ∈ entries, IsQuantity entry.1) : ∀ o ∈ options, IsQuantity o.quantity := by
  intro o ho
  obtain ⟨entry, hentry, heq⟩ := h.spelled o ho
  exact heq ▸ hentries entry hentry

/-- The numbers of the options. -/
theorem Gathered.nodup_numbers (h : Gathered entries options) :
    (options.map fun o => quantityOf o.quantity).Nodup :=
  List.pairwise_map.mpr h.distinct

theorem Gathered.mem_numbers (h : Gathered entries options) {x : ℚ} :
    x ∈ options.map (fun o => quantityOf o.quantity) ↔
      ∃ entry ∈ entries, quantityOf entry.1 = x := by
  rw [List.mem_map]
  constructor
  · rintro ⟨o, ho, rfl⟩
    obtain ⟨entry, hentry, heq⟩ := h.spelled o ho
    exact ⟨entry, hentry, congrArg quantityOf heq⟩
  · rintro ⟨entry, hentry, rfl⟩
    exact h.covered entry hentry

/-- Every entry is counted in one option. -/
theorem Gathered.sum_length (h : Gathered entries options) :
    (options.map fun o => o.parties.length).sum = entries.length := by
  have hsplit := flatMap_filter_perm_self (fun entry : String × String => quantityOf entry.1)
    h.nodup_numbers fun entry hentry => h.mem_numbers.mpr ⟨entry, hentry, rfl⟩
  have hlength := hsplit.length_eq
  rw [List.length_flatMap, List.map_map] at hlength
  rw [← hlength]
  refine congrArg List.sum (List.map_congr_left fun o ho => ?_)
  rw [h.parties o ho, namesOf, List.length_map]
  rfl

/-- An option as its number and the parties it counts. -/
def ReadingOption.counted (o : ReadingOption) : ℚ × Multiset String :=
  (quantityOf o.quantity, (o.parties : Multiset String))

/-- An option as its text and the parties it counts. -/
def ReadingOption.spelled (o : ReadingOption) : String × Multiset String :=
  (o.quantity, (o.parties : Multiset String))

theorem namesOf_perm (h : entries.Perm entries') (x : ℚ) :
    (namesOf entries x : Multiset String) = (namesOf entries' x : Multiset String) :=
  Multiset.coe_eq_coe.mpr ((h.filter _).map _)

/-- The order of the entries does not count for the numbers. -/
theorem Gathered.counted_perm (h : Gathered entries options) (h' : Gathered entries' options')
    (hperm : entries.Perm entries') :
    (options.map ReadingOption.counted).Perm (options'.map ReadingOption.counted) := by
  have hnumbers : ∀ {entries options}, Gathered entries options →
      options.map ReadingOption.counted =
        (options.map fun o => quantityOf o.quantity).map fun x =>
          (x, (namesOf entries x : Multiset String)) := by
    intro entries options h
    rw [List.map_map]
    refine List.map_congr_left fun o ho => ?_
    show (quantityOf o.quantity, (o.parties : Multiset String)) = _
    rw [h.parties o ho]
    rfl
  have hsame : (options.map fun o => quantityOf o.quantity).Perm
      (options'.map fun o => quantityOf o.quantity) := by
    apply (List.perm_ext_iff_of_nodup h.nodup_numbers h'.nodup_numbers).mpr
    intro x
    rw [h.mem_numbers, h'.mem_numbers]
    simp only [hperm.mem_iff]
  rw [hnumbers h, hnumbers h']
  simp only [namesOf_perm hperm]
  exact hsame.map _

/-- Equal numbers are spelled alike. -/
def SpelledAlike (entries : List (String × String)) : Prop :=
  ∀ entry ∈ entries, ∀ entry' ∈ entries,
    quantityOf entry.1 = quantityOf entry'.1 → entry.1 = entry'.1

theorem Gathered.mem_quantities (h : Gathered entries options) (halike : SpelledAlike entries)
    {text : String} : text ∈ options.map ReadingOption.quantity ↔
      ∃ entry ∈ entries, entry.1 = text := by
  rw [List.mem_map]
  constructor
  · rintro ⟨o, ho, rfl⟩
    exact h.spelled o ho
  · rintro ⟨entry, hentry, rfl⟩
    obtain ⟨o, ho, hnumber⟩ := h.covered entry hentry
    obtain ⟨entry', hentry', heq⟩ := h.spelled o ho
    refine ⟨o, ho, ?_⟩
    rw [← heq] at hnumber ⊢
    exact halike entry' hentry' entry hentry hnumber

/-- The order of the entries does not count for the texts either, where equal numbers are
spelled alike. -/
theorem Gathered.spelled_perm (h : Gathered entries options) (h' : Gathered entries' options')
    (hperm : entries.Perm entries') (halike : SpelledAlike entries) :
    (options.map ReadingOption.spelled).Perm (options'.map ReadingOption.spelled) := by
  have halike' : SpelledAlike entries' := fun entry hentry entry' hentry' =>
    halike entry (hperm.mem_iff.mpr hentry) entry' (hperm.mem_iff.mpr hentry')
  have htexts : ∀ {entries options}, Gathered entries options →
      options.map ReadingOption.spelled =
        (options.map ReadingOption.quantity).map fun text =>
          (text, (namesOf entries (quantityOf text) : Multiset String)) := by
    intro entries options h
    rw [List.map_map]
    refine List.map_congr_left fun o ho => ?_
    show (o.quantity, (o.parties : Multiset String)) = _
    rw [h.parties o ho]
    rfl
  have hnodup : ∀ {entries options}, Gathered entries options →
      (options.map ReadingOption.quantity).Nodup := fun h =>
    List.pairwise_map.mpr (h.distinct.imp fun hne heq => hne (congrArg quantityOf heq))
  have hsame : (options.map ReadingOption.quantity).Perm
      (options'.map ReadingOption.quantity) := by
    apply (List.perm_ext_iff_of_nodup (hnodup h) (hnodup h')).mpr
    intro text
    rw [h.mem_quantities halike, h'.mem_quantities halike']
    simp only [hperm.mem_iff]
  rw [htexts h, htexts h']
  simp only [namesOf_perm hperm]
  exact hsame.map _

end Gathered

/-! ## The spread -/

/-- Without its plus sign a difference that is not negative is the text of its number. -/
theorem dropPlus_differenceText {d : ℤ} (h : 0 ≤ d) (p : ℕ) :
    dropPlus (Comparison.differenceText d p) = Comparison.decimalText d p := by
  unfold dropPlus Comparison.differenceText
  by_cases hd : 0 < d
  · have hplus : "+".toList = ['+'] := by decide
    rw [if_pos hd, String.toList_append, hplus]
    exact String.ofList_toList
  · rw [if_neg hd, String.empty_append, Comparison.decimalText_of_nonneg d p h]
    obtain ⟨c, cs, hwhole⟩ := List.exists_cons_of_ne_nil (Comparison.wholeDigits_ne_nil d p)
    have hdigit : c.isDigit = true :=
      Comparison.isDigit_wholeDigits d p c (hwhole ▸ List.mem_cons_self)
    rw [hwhole]
    split
    · rename_i hcons
      exact absurd (List.cons.inj hcons).1 (not_special_of_isDigit hdigit).1
    · rfl

/-- The ends of a spread are options, and enclose all of them. -/
structure Spread.Encloses (s : Spread) (options : List ReadingOption) : Prop where
  least : ∃ o ∈ options, o.quantity = s.min
  largest : ∃ o ∈ options, o.quantity = s.max
  bounds : ∀ o ∈ options, quantityOf s.min ≤ quantityOf o.quantity ∧
    quantityOf o.quantity ≤ quantityOf s.max
  range : numeralValue s.range.toList = some (quantityOf s.max - quantityOf s.min)
  text : s.range = ((quantityDifference (some s.max) (some s.min)).map dropPlus).getD "0"

theorem spreadOf_encloses {options : List ReadingOption}
    (h : ∀ o ∈ options, IsQuantity o.quantity) (hne : options ≠ []) :
    ∃ s, spreadOf options = some s ∧ s.Encloses options := by
  have hsorted := pairwise_insertionSort_of_key
    (r := fun left right : ReadingOption => compare left.quantity right.quantity ≤ 0)
    (fun o => quantityOf o.quantity) fun o ho o' ho' => compare_nonpos_iff (h o ho) (h o' ho')
  have hmem : ∀ o, o ∈ options.insertionSort (fun left right : ReadingOption =>
      compare left.quantity right.quantity ≤ 0) ↔ o ∈ options := fun o =>
    List.mem_insertionSort _
  -- Of the sorting only this is used: it is in order, and has the same options.
  unfold spreadOf
  generalize options.insertionSort (fun left right : ReadingOption =>
    compare left.quantity right.quantity ≤ 0) = sorted at hsorted hmem
  have hsome : sorted ≠ [] := by
    rintro rfl
    obtain ⟨o, ho⟩ := List.exists_mem_of_ne_nil _ hne
    exact absurd ((hmem o).mpr ho) List.not_mem_nil
  have hfirst := List.head?_eq_some_head hsome
  have hlast := List.getLast?_eq_some_getLast hsome
  dsimp only
  rw [hfirst, hlast]
  have hmin := (hmem _).mp (List.head_mem hsome)
  have hmax := (hmem _).mp (List.getLast_mem hsome)
  generalize sorted.head hsome = first at hfirst hmin
  generalize sorted.getLast hsome = last at hlast hmax
  have hle := head_le_of_pairwise hsorted hfirst ((hmem last).mpr hmax)
  obtain ⟨d, p, hdifference, hvalue⟩ :=
    Comparison.quantityDifference_of (h last hmax).denotes (h first hmin).denotes
  refine ⟨_, rfl, ⟨first, hmin, rfl⟩, ⟨last, hmax, rfl⟩, fun o ho => ⟨?_, ?_⟩, ?_, rfl⟩
  · exact head_le_of_pairwise (f := fun o : ReadingOption => quantityOf o.quantity) hsorted
      hfirst ((hmem o).mpr ho)
  · exact le_getLast_of_pairwise (f := fun o : ReadingOption => quantityOf o.quantity) hsorted
      hlast ((hmem o).mpr ho)
  · have hd : 0 ≤ d := by
      rw [← not_lt, (Comparison.sign_of_scaled hvalue).2.2, not_lt, sub_nonneg]
      exact hle
    dsimp only
    rw [hdifference, Option.map_some, Option.getD_some, dropPlus_differenceText hd,
      Comparison.numeralValue_decimalText, hvalue]

/-- Where something was reported, the options have a spread. -/
theorem spread_gather {entries : List (String × String)}
    (h : ∀ entry ∈ entries, IsQuantity entry.1) (hne : entries ≠ []) :
    ∃ s, spreadOf (gather entries) = some s ∧ s.Encloses (gather entries) := by
  have hgathered := gathered_gather h
  obtain ⟨entry, hentry⟩ := List.exists_mem_of_ne_nil _ hne
  obtain ⟨o, ho, -⟩ := hgathered.covered entry hentry
  exact spreadOf_encloses (hgathered.isQuantity h) (List.ne_nil_of_mem ho)

/-- Entries in another order: both lists of options have a spread, or neither has. -/
theorem spreads_gather {entries entries' : List (String × String)}
    (h : ∀ entry ∈ entries, IsQuantity entry.1) (hperm : entries.Perm entries') :
    spreadOf (gather entries) = none ∧ spreadOf (gather entries') = none ∨
      ∃ s s', spreadOf (gather entries) = some s ∧ spreadOf (gather entries') = some s' ∧
        s.Encloses (gather entries) ∧ s'.Encloses (gather entries') := by
  by_cases hnil : entries = []
  · subst hnil
    obtain rfl := hperm.nil_eq
    exact .inl ⟨rfl, rfl⟩
  · have hnil' : entries' ≠ [] := by
      rintro rfl
      exact hnil hperm.eq_nil
    obtain ⟨s, hs, hencloses⟩ := spread_gather h hnil
    obtain ⟨s', hs', hencloses'⟩ := spread_gather
      (fun entry hentry => h entry (hperm.mem_iff.mpr hentry)) hnil'
    exact .inr ⟨s, s', hs, hs', hencloses, hencloses'⟩

theorem spreadOf_nil : spreadOf [] = none := rfl

/-- A spread as numbers. -/
def Spread.numbers (s : Spread) : ℚ × ℚ × Option ℚ :=
  (quantityOf s.min, quantityOf s.max, numeralValue s.range.toList)

section Spreads

variable {entries entries' : List (String × String)} {options options' : List ReadingOption}
  {s s' : Spread}

/-- Of options with the same numbers the spreads are the same numbers. -/
theorem Spread.Encloses.numbers_eq (h : s.Encloses options) (h' : s'.Encloses options')
    (hnumbers : ∀ x, x ∈ options.map (fun o => quantityOf o.quantity) ↔
      x ∈ options'.map fun o => quantityOf o.quantity) : s.numbers = s'.numbers := by
  have hle : ∀ {options options' : List ReadingOption} {s s' : Spread}, s.Encloses options →
      s'.Encloses options' → (∀ x, x ∈ options.map (fun o => quantityOf o.quantity) ↔
        x ∈ options'.map fun o => quantityOf o.quantity) →
      quantityOf s.min ≤ quantityOf s'.min ∧ quantityOf s'.max ≤ quantityOf s.max := by
    intro options options' s s' h h' hnumbers
    have hfound : ∀ o' ∈ options', ∃ o ∈ options, quantityOf o.quantity = quantityOf o'.quantity :=
      fun o' ho' => List.mem_map.mp ((hnumbers _).mpr (List.mem_map_of_mem ho'))
    obtain ⟨least, hleast, hmin⟩ := h'.least
    obtain ⟨largest, hlargest, hmax⟩ := h'.largest
    obtain ⟨o, ho, heq⟩ := hfound least hleast
    obtain ⟨o₂, ho₂, heq₂⟩ := hfound largest hlargest
    rw [← hmin, ← hmax, ← heq, ← heq₂]
    exact ⟨(h.bounds o ho).1, (h.bounds o₂ ho₂).2⟩
  obtain ⟨hmin, hmax⟩ := hle h h' hnumbers
  obtain ⟨hmin', hmax'⟩ := hle h' h fun x => (hnumbers x).symm
  have heqmin := le_antisymm hmin hmin'
  have heqmax := le_antisymm hmax' hmax
  unfold Spread.numbers
  rw [h.range, h'.range, heqmin, heqmax]

/-- Of entries that spell equal numbers alike the spreads are the same texts. -/
theorem Spread.Encloses.eq_of_alike (h : s.Encloses options) (h' : s'.Encloses options')
    (hg : Gathered entries options) (hg' : Gathered entries' options')
    (hperm : entries.Perm entries') (halike : SpelledAlike entries)
    (hnumbers : s.numbers = s'.numbers) : s = s' := by
  have htext : ∀ {t t' : String}, (∃ o ∈ options, o.quantity = t) →
      (∃ o ∈ options', o.quantity = t') → quantityOf t = quantityOf t' → t = t' := by
    rintro t t' ⟨o, ho, rfl⟩ ⟨o', ho', rfl⟩ hnumber
    obtain ⟨entry, hentry, heq⟩ := hg.spelled o ho
    obtain ⟨entry', hentry', heq'⟩ := hg'.spelled o' ho'
    rw [← heq, ← heq'] at hnumber ⊢
    exact halike entry hentry entry' (hperm.mem_iff.mpr hentry') hnumber
  obtain ⟨hmin, hrest⟩ := Prod.mk.inj hnumbers
  have hmin := htext h.least h'.least hmin
  have hmax := htext h.largest h'.largest (Prod.mk.inj hrest).1
  have hrange : s.range = s'.range := by rw [h.text, h'.text, hmin, hmax]
  cases s
  cases s'
  simp only [Spread.mk.injEq]
  exact ⟨hmin, hmax, hrange⟩

end Spreads

end VesselCaller.Closeout
