import VesselCaller.Closeout.Changes
import VesselCaller.Closeout.ReadingOptions

/-!
# What the table of readings shows

Every participant has one cell on every row; the options are the numbers reported, each with
the names of the participants that report it; the spread encloses them; and agreement means
that nothing required is missing and nothing differs from the declaration.

What is shown does not depend on the order of participants and submissions, with one
reservation.  An option keeps the spelling of its quantity that was come across first, so
that options and spreads are the same as numbers, and as texts where equal numbers are
spelled alike, which is how the server prints them.

## Main definitions

* `reportedEntries`, `ReadingRow.places` — what is reported on a line, and where it stands;
* `ReadingRow.Exact` — a row shows what was reported, and nothing else;
* `Reordered`, `SameReadings`, `SameTexts` — returns in another order, and rows that say the
  same.
-/

namespace VesselCaller.Closeout

open Lib
open Measurements (LineStatus PlanStatus)
open Comparison (quantityDifference startsWith Denotes Parsed)

/-! ## Columns -/

section Columns

variable (texts : Texts)

/-- The columns have the keys of the participants, each once. -/
theorem foldl_addColumn (parties : List Participant) :
    ((parties.foldl (addColumn texts) []).map AgencyColumn.key).Nodup ∧
      ∀ party ∈ parties,
        agencyKey texts party ∈ (parties.foldl (addColumn texts) []).map AgencyColumn.key := by
  induction parties using List.reverseRecOn with
  | nil => exact ⟨List.nodup_nil, nofun⟩
  | append_singleton parties party ih =>
      obtain ⟨hnd, hmem⟩ := ih
      rw [List.foldl_concat]
      unfold addColumn
      split
      · rename_i hkey
        refine ⟨hnd, fun p hp => ?_⟩
        rcases List.mem_append.mp hp with hp | hp
        · exact hmem p hp
        · exact List.mem_singleton.mp hp ▸ hkey
      · rename_i hkey
        rw [List.map_append]
        refine ⟨List.nodup_append'.mpr ⟨hnd, List.nodup_singleton _, ?_⟩, fun p hp => ?_⟩
        · exact List.disjoint_singleton.mpr hkey
        · rcases List.mem_append.mp hp with hp | hp
          · exact List.mem_append_left _ (hmem p hp)
          · rw [List.mem_singleton.mp hp]
            exact List.mem_append_right _ List.mem_cons_self

variable {plans : List MeasurementPlan}

/-- No column twice. -/
theorem nodup_agencyColumns : ((agencyColumns texts plans).map AgencyColumn.key).Nodup := by
  have hperm : (agencyColumns texts plans).Perm
      ((plans.flatMap MeasurementPlan.participants).foldl (addColumn texts) []) :=
    List.perm_insertionSort _ _
  exact (hperm.map _).nodup_iff.mpr (foldl_addColumn texts _).1

/-- Every party of a plan has a column. -/
theorem mem_agencyColumns {plan : MeasurementPlan} (hplan : plan ∈ plans) {party : Participant}
    (hparty : party ∈ plan.participants) :
    agencyKey texts party ∈ (agencyColumns texts plans).map AgencyColumn.key := by
  have hperm : (agencyColumns texts plans).Perm
      ((plans.flatMap MeasurementPlan.participants).foldl (addColumn texts) []) :=
    List.perm_insertionSort _ _
  rw [(hperm.map _).mem_iff]
  exact (foldl_addColumn texts _).2 party (List.mem_flatMap.mpr ⟨plan, hplan, hparty⟩)

end Columns

/-! ## Rows -/

section Rows

variable (texts : Texts) (columns : List AgencyColumn) (plan : MeasurementPlan)
  (line : CargoLine)

/-- The participants of a plan in the order of their columns. -/
def partiesInOrder : List Participant :=
  (columns.map AgencyColumn.key).flatMap fun k =>
    plan.participants.filter fun party => agencyKey texts party = k

/-- The cells of a row are those of the parties, in the order of the columns. -/
theorem cells_eq : (rowCells texts columns plan line).flatMap Prod.snd =
    (partiesInOrder texts columns plan).map (readingCell plan line) := by
  rw [rowCells, partiesInOrder, List.flatMap_map, List.flatMap_map, List.map_flatMap]

/-- What the participants report, each with its name. -/
def reportedEntries (parties : List Participant) : List (String × String) :=
  parties.filterMap fun party =>
    (reportedBy plan line party).map fun quantity => (quantity, party.name)

/-- The options of a row are gathered from what was reported. -/
theorem row_options : (readingRow texts columns plan line).options =
    sortOptions (gather (reportedEntries plan line (partiesInOrder texts columns plan))) := by
  show sortOptions (((rowCells texts columns plan line).flatMap Prod.snd).foldl addCell []) = _
  rw [foldl_addCell, cells_eq, List.filterMap_map, reportedEntries]
  congr 3
  funext party
  show ((readingCell plan line party).reported).map _ = _
  rw [readingCell_reported, readingCell_party]

/-- The spread of a row is that of what was reported. -/
theorem row_spread : (readingRow texts columns plan line).spread =
    spreadOf (gather (reportedEntries plan line (partiesInOrder texts columns plan))) := by
  show spreadOf (((rowCells texts columns plan line).flatMap Prod.snd).foldl addCell []) = _
  rw [foldl_addCell, cells_eq, List.filterMap_map, reportedEntries]
  congr 3
  funext party
  show ((readingCell plan line party).reported).map _ = _
  rw [readingCell_reported, readingCell_party]

/-- The places of a row: its cells, each with the key of its column. -/
def ReadingRow.places (row : ReadingRow) : List (AgencyKey × ReadingCell) :=
  row.cells.flatMap fun column => column.2.map fun cell => (column.1, cell)

/-- Each party of a row stands in its column. -/
theorem row_places : (readingRow texts columns plan line).places =
    (partiesInOrder texts columns plan).map fun party =>
      (agencyKey texts party, readingCell plan line party) := by
  show (rowCells texts columns plan line).flatMap _ = _
  rw [rowCells, partiesInOrder, List.flatMap_map, List.flatMap_map, List.map_flatMap]
  refine List.flatMap_congr fun column _ => ?_
  rw [List.map_map]
  refine List.map_congr_left fun party hparty => ?_
  show (column.key, readingCell plan line party) = _
  rw [of_decide_eq_true (List.mem_filter.mp hparty).2]

variable {texts columns plan line}

/-- The parties of a row are those of its plan. -/
theorem partiesInOrder_perm {plans : List MeasurementPlan} (hplan : plan ∈ plans) :
    (partiesInOrder texts (agencyColumns texts plans) plan).Perm plan.participants :=
  flatMap_filter_perm_self _ (nodup_agencyColumns texts) fun _ hparty =>
    mem_agencyColumns texts hplan hparty

/-- A row differs where one of its cells does. -/
theorem row_differs : (readingRow texts columns plan line).differs = true ↔
    ∃ party ∈ partiesInOrder texts columns plan,
      (readingCell plan line party).differs = true := by
  show ((rowCells texts columns plan line).flatMap Prod.snd).any _ = true ↔ _
  rw [cells_eq, List.any_map, List.any_eq_true]
  rfl

/-- A row agrees where all parties have reported, and nothing differs. -/
theorem row_agree : (readingRow texts columns plan line).agree = true ↔
    (∀ party ∈ partiesInOrder texts columns plan,
      (readingCell plan line party).missing = false) ∧
    (∃ party ∈ partiesInOrder texts columns plan,
      (readingCell plan line party).reported.isSome = true) ∧
    (readingRow texts columns plan line).differs = false ∧ line.manifestQuantity ≠ none := by
  have hagree : (readingRow texts columns plan line).agree =
      (!((rowCells texts columns plan line).flatMap Prod.snd).any ReadingCell.missing &&
        (((rowCells texts columns plan line).flatMap Prod.snd).any fun cell =>
          cell.reported.isSome) &&
        !(readingRow texts columns plan line).differs && line.manifestQuantity ≠ none) := rfl
  rw [hagree, cells_eq, List.any_map, List.any_map]
  simp only [Bool.and_eq_true, Bool.not_eq_true', List.any_eq_false, List.any_eq_true,
    Function.comp_apply, decide_eq_true_eq, and_assoc, Bool.not_eq_true]

end Rows

/-! ## Conservation -/

/-- A plan as the server emits it: submissions numbered by participant, participants with
keys of their own, and quantities that are numbers. -/
structure ServerReadings (plan : MeasurementPlan) : Prop where
  entered : Entered plan
  participants : (plan.participants.map Participant.id).Nodup
  quantities : ∀ submission ∈ plan.submissions, ∀ entry ∈ submission.lines,
    ∀ quantity ∈ entry.quantity, IsQuantity quantity
  declared : ∀ line ∈ plan.lines, ∀ quantity ∈ line.manifestQuantity, IsQuantity quantity

/-- What was reported is a quantity. -/
theorem ServerReadings.isQuantity {plan : MeasurementPlan} (h : ServerReadings plan)
    {line : CargoLine} {party : Participant} {quantity : String}
    (hreported : reportedBy plan line party = some quantity) : IsQuantity quantity := by
  obtain ⟨entry, hentry, hquantity⟩ := Option.bind_eq_some_iff.mp hreported
  obtain ⟨submission, hreturn, hfind⟩ := Option.bind_eq_some_iff.mp hentry
  split at hquantity
  · exact h.quantities submission (mem_submissions_of_returnOf hreturn) entry
      (List.mem_of_find?_eq_some hfind) quantity hquantity
  · cases hquantity

/-- An entry was reported by a party of its name. -/
theorem mem_reportedEntries {plan : MeasurementPlan} {line : CargoLine}
    {parties : List Participant} {entry : String × String} :
    entry ∈ reportedEntries plan line parties ↔
      ∃ party ∈ parties, reportedBy plan line party = some entry.1 ∧ party.name = entry.2 := by
  simp only [reportedEntries, List.mem_filterMap, Option.map_eq_some_iff]
  constructor
  · rintro ⟨party, hparty, quantity, hquantity, rfl⟩
    exact ⟨party, hparty, hquantity, rfl⟩
  · rintro ⟨party, hparty, hquantity, hname⟩
    exact ⟨party, hparty, entry.1, hquantity, by rw [hname]⟩

/-- The entries of a row are quantities. -/
theorem ServerReadings.isQuantity_entries {plan : MeasurementPlan} (h : ServerReadings plan)
    (line : CargoLine) (parties : List Participant) :
    ∀ entry ∈ reportedEntries plan line parties, IsQuantity entry.1 := by
  intro entry hentry
  obtain ⟨party, -, hreported, -⟩ := mem_reportedEntries.mp hentry
  exact h.isQuantity hreported

/-- A row shows the readings of its line, all of them and each once. -/
structure ReadingRow.Exact (texts : Texts) (row : ReadingRow) : Prop where
  /-- A cell is that of its participant, in the column of its key. -/
  cell : ∀ place ∈ row.places, place.1 = agencyKey texts place.2.party ∧
    place.2 = readingCell row.plan row.line place.2.party ∧
    place.2.party ∈ row.plan.participants
  /-- Every participant has one cell. -/
  once : ∀ party ∈ row.plan.participants,
    row.places.countP (fun place => place.2.party = party) = 1
  /-- Every reported quantity has one option. -/
  option : ∀ party ∈ row.plan.participants, ∀ quantity,
    reportedBy row.plan row.line party = some quantity →
      ∃! o, o ∈ row.options ∧ quantityOf o.quantity = quantityOf quantity
  distinct : row.options.Pairwise fun o o' => quantityOf o.quantity ≠ quantityOf o'.quantity
  /-- An option counts the participants that report its number. -/
  parties : ∀ o ∈ row.options, (o.parties : Multiset String) =
    namesOf (reportedEntries row.plan row.line row.plan.participants) (quantityOf o.quantity)
  total : (row.options.map fun o => o.parties.length).sum =
    row.places.countP fun place => place.2.reported.isSome
  spread : ∀ party ∈ row.plan.participants, ∀ quantity,
    reportedBy row.plan row.line party = some quantity →
      ∃ s, row.spread = some s ∧ quantityOf s.min ≤ quantityOf quantity ∧
        quantityOf quantity ≤ quantityOf s.max
  range : ∀ s, row.spread = some s →
    numeralValue s.range.toList = some (quantityOf s.max - quantityOf s.min)
  agree : row.agree = true →
    (∀ party ∈ row.plan.participants, party.requiredSubmission = true →
      ((returnOf row.plan party.id).bind fun submission =>
        entryFor submission row.line).isSome = true) ∧
    ∀ party ∈ row.plan.participants, ∀ quantity,
      reportedBy row.plan row.line party = some quantity →
        ∃ declared, row.line.manifestQuantity = some declared ∧
          quantityOf quantity = quantityOf declared

/-- A reported quantity of a declared line differs exactly when the numbers do. -/
theorem readingCell_differs {plan : MeasurementPlan} {line : CargoLine} {party : Participant}
    {quantity declared : String} (hreported : reportedBy plan line party = some quantity)
    (hdeclared : line.manifestQuantity = some declared) (hq : IsQuantity quantity)
    (hd : IsQuantity declared) : (readingCell plan line party).differs = true ↔
      quantityOf quantity ≠ quantityOf declared := by
  obtain ⟨difference, hdifference, hsaid⟩ :=
    Comparison.quantityDifference_pronounces hq.denotes hd.denotes
  have hcell : (readingCell plan line party).difference = some difference := by
    rw [readingCell_difference hreported, hdeclared, hdifference]
  unfold ReadingCell.differs
  rw [readingCell_reported, hreported, hcell]
  have hzero : difference = "0" ↔ quantityOf quantity = quantityOf declared := by
    rw [hsaid.zero, sub_eq_zero]
  simp [hzero]

section Rows

variable {texts : Texts} {plans : List MeasurementPlan} {plan : MeasurementPlan}

/-- The entries of a row, gathered. -/
theorem gathered_row (h : ServerReadings plan) (line : CargoLine) (parties : List Participant) :
    Gathered (reportedEntries plan line parties) (gather (reportedEntries plan line parties)) :=
  gathered_gather (h.isQuantity_entries line parties)

/-- The options of a row are the gathered ones, in an order of their own. -/
theorem row_options_perm {columns : List AgencyColumn} {line : CargoLine} :
    (readingRow texts columns plan line).options.Perm
      (gather (reportedEntries plan line (partiesInOrder texts columns plan))) := by
  rw [row_options]
  exact List.perm_insertionSort _ _

/-- Where a row agrees, everybody who has to has returned the line. -/
theorem row_agree_returned (hplan : plan ∈ plans) {line : CargoLine}
    (hagree : (readingRow texts (agencyColumns texts plans) plan line).agree = true)
    {party : Participant} (hparty : party ∈ plan.participants)
    (hrequired : party.requiredSubmission = true) :
    ((returnOf plan party.id).bind fun submission => entryFor submission line).isSome = true := by
  have hmissing := (row_agree.mp hagree).1 party ((partiesInOrder_perm hplan).mem_iff.mpr hparty)
  rw [Option.isSome_iff_ne_none]
  intro hnone
  rw [(readingCell_missing plan line party).mpr ⟨hrequired, hnone⟩] at hmissing
  cases hmissing

/-- Where a row agrees, what is reported is what was declared. -/
theorem row_agree_declared (hplan : plan ∈ plans) (h : ServerReadings plan) {line : CargoLine}
    (hline : line ∈ plan.lines)
    (hagree : (readingRow texts (agencyColumns texts plans) plan line).agree = true)
    {party : Participant} (hparty : party ∈ plan.participants) {quantity : String}
    (hreported : reportedBy plan line party = some quantity) :
    ∃ declared, line.manifestQuantity = some declared ∧
      quantityOf quantity = quantityOf declared := by
  obtain ⟨-, -, hdiffers, hdeclared⟩ := row_agree.mp hagree
  obtain ⟨declared, hsome⟩ := Option.ne_none_iff_exists'.mp hdeclared
  refine ⟨declared, hsome, ?_⟩
  by_contra hne
  have hcell := (readingCell_differs hreported hsome (h.isQuantity hreported)
    (h.declared line hline declared hsome)).mpr hne
  have hrow : (readingRow texts (agencyColumns texts plans) plan line).differs = true :=
    row_differs.mpr ⟨party, (partiesInOrder_perm hplan).mem_iff.mpr hparty, hcell⟩
  exact absurd (hrow.symm.trans hdiffers) (by decide)

/-- **A row of the table is exact.** -/
theorem exact_row (hplan : plan ∈ plans) (h : ServerReadings plan) {line : CargoLine}
    (hline : line ∈ plan.lines) :
    (readingRow texts (agencyColumns texts plans) plan line).Exact texts := by
  have hparties := @partiesInOrder_perm texts plan plans hplan
  have hgathered := gathered_row h line (partiesInOrder texts (agencyColumns texts plans) plan)
  have hentries : (reportedEntries plan line
      (partiesInOrder texts (agencyColumns texts plans) plan)).Perm
      (reportedEntries plan line plan.participants) := hparties.filterMap _
  have hquantity := hgathered.isQuantity (h.isQuantity_entries line _)
  have hoptions : (readingRow texts (agencyColumns texts plans) plan line).options.Perm
      (gather (reportedEntries plan line
        (partiesInOrder texts (agencyColumns texts plans) plan))) := row_options_perm
  have hmem : ∀ party ∈ plan.participants, ∀ quantity,
      reportedBy plan line party = some quantity → ∃ o ∈ gather (reportedEntries plan line
        (partiesInOrder texts (agencyColumns texts plans) plan)),
        quantityOf o.quantity = quantityOf quantity := by
    intro party hparty quantity hreported
    exact hgathered.covered (quantity, party.name) (mem_reportedEntries.mpr
      ⟨party, hparties.mem_iff.mpr hparty, hreported, rfl⟩)
  refine ⟨fun place hplace => ?_, fun party hparty => ?_, fun party hparty quantity hreported => ?_,
    ?_, fun o ho => ?_, ?_, fun party hparty quantity hreported => ?_, fun s hs => ?_,
    fun hagree => ⟨fun party hparty hrequired => row_agree_returned hplan hagree hparty hrequired,
      fun party hparty quantity hreported =>
        row_agree_declared hplan h hline hagree hparty hreported⟩⟩
  · rw [row_places, List.mem_map] at hplace
    obtain ⟨party, hparty, rfl⟩ := hplace
    rw [readingCell_party]
    exact ⟨rfl, rfl, hparties.mem_iff.mp hparty⟩
  · rw [row_places, List.countP_map]
    have hcount := hparties.countP_eq fun p => decide (p = party)
    have hone : plan.participants.countP (fun p => decide (p = party)) = 1 :=
      List.count_eq_one_of_mem h.participants.of_map hparty
    rw [← hone, ← hcount]
    refine List.countP_congr fun p _ => ?_
    simp [readingCell_party]
  · obtain ⟨o, ho, heq⟩ := hmem party hparty quantity hreported
    refine ⟨o, ⟨hoptions.mem_iff.mpr ho, heq⟩, ?_⟩
    rintro o' ⟨ho', heq'⟩
    exact List.inj_on_of_nodup_map hgathered.nodup_numbers (hoptions.mem_iff.mp ho') ho
      (heq'.trans heq.symm)
  · exact (hoptions.pairwise_iff fun {_ _} => Ne.symm).mpr hgathered.distinct
  · rw [hgathered.parties o (hoptions.mem_iff.mp ho)]
    exact namesOf_perm hentries _
  · have hsum := (hoptions.map fun o => o.parties.length).sum_eq
    rw [hsum, hgathered.sum_length, row_places, List.countP_map, reportedEntries,
      List.length_filterMap_eq_countP]
    refine List.countP_congr fun p _ => ?_
    simp [readingCell_reported]
  · obtain ⟨o, ho, heq⟩ := hmem party hparty quantity hreported
    obtain ⟨s, hs, hencloses⟩ := spreadOf_encloses hquantity (List.ne_nil_of_mem ho)
    rw [← heq, row_spread]
    exact ⟨s, hs, hencloses.bounds o ho⟩
  · rw [row_spread] at hs
    have hne : gather (reportedEntries plan line
        (partiesInOrder texts (agencyColumns texts plans) plan)) ≠ [] := by
      intro hnil
      rw [hnil, spreadOf_nil] at hs
      cases hs
    obtain ⟨s', hs', hencloses⟩ := spreadOf_encloses hquantity hne
    rw [hs] at hs'
    exact Option.some.inj hs' ▸ hencloses.range

end Rows

/-! ## The order of participants and submissions -/

/-- The plan with its participants and submissions listed in another order. -/
structure Reordered (plan plan' : MeasurementPlan) : Prop where
  participants : plan.participants.Perm plan'.participants
  submissions : plan.submissions.Perm plan'.submissions
  others : plan' = { plan with
    participants := plan'.participants
    submissions := plan'.submissions }

/-- Two rows show the same readings, as numbers. -/
structure SameReadings (row row' : ReadingRow) : Prop where
  line : row'.line = row.line
  options : (row.options.map ReadingOption.counted).Perm (row'.options.map ReadingOption.counted)
  spread : row.spread.map Spread.numbers = row'.spread.map Spread.numbers
  agree : row.agree = row'.agree
  differs : row.differs = row'.differs

/-- Two rows show the same readings, as texts. -/
structure SameTexts (row row' : ReadingRow) : Prop where
  options : (row.options.map ReadingOption.spelled).Perm (row'.options.map ReadingOption.spelled)
  spread : row.spread = row'.spread

/-- Equal numbers that are reported for a line are spelled alike. -/
def SpellsAlike (plan : MeasurementPlan) (line : CargoLine) : Prop :=
  SpelledAlike (reportedEntries plan line plan.participants)

section Order

variable {texts : Texts} {plan plan' : MeasurementPlan}

/-- Reordering the returns changes no party's latest one. -/
theorem Reordered.returnOf_eq (h : Reordered plan plan') (hentered : Entered plan) :
    returnOf plan' = returnOf plan :=
  (returnOf_congr hentered (hentered.of_perm h.submissions)
    (isLatest_of_perm h.submissions)).symm

/-- The lines are not reordered. -/
theorem Reordered.lines (h : Reordered plan plan') : plan'.lines = plan.lines := by
  rw [h.others]

/-- The status is the same. -/
theorem Reordered.status (h : Reordered plan plan') : plan'.status = plan.status := by
  rw [h.others]

/-- Reordering the returns changes no cell. -/
theorem Reordered.readingCell_eq (h : Reordered plan plan') (hentered : Entered plan)
    (line : CargoLine) : readingCell plan' line = readingCell plan line := by
  funext party
  unfold readingCell
  rw [h.returnOf_eq hentered, h.status]

/-- Reordering the returns changes nothing that was reported. -/
theorem Reordered.reportedBy_eq (h : Reordered plan plan') (hentered : Entered plan)
    (line : CargoLine) : reportedBy plan' line = reportedBy plan line := by
  funext party
  unfold reportedBy
  rw [h.returnOf_eq hentered]

/-- Rows of one line whose participants are the same, in any order. -/
theorem sameReadings_of_perm (hserver : ServerReadings plan) {line : CargoLine}
    {columns columns' : List AgencyColumn} (h : Reordered plan plan')
    (hparties : (partiesInOrder texts columns plan).Perm (partiesInOrder texts columns' plan'))
    (hplan : (partiesInOrder texts columns plan).Perm plan.participants) :
    SameReadings (readingRow texts columns plan line) (readingRow texts columns' plan' line) ∧
      (SpellsAlike plan line →
        SameTexts (readingRow texts columns plan line) (readingRow texts columns' plan' line)) := by
  have hcell := h.readingCell_eq hserver.entered line
  have hentries : reportedEntries plan' line = reportedEntries plan line := by
    funext parties
    unfold reportedEntries
    rw [h.reportedBy_eq hserver.entered]
  have hperm : (reportedEntries plan line (partiesInOrder texts columns plan)).Perm
      (reportedEntries plan line (partiesInOrder texts columns' plan')) := hparties.filterMap _
  have hgathered := gathered_row hserver line (partiesInOrder texts columns plan)
  have hgathered' := gathered_row hserver line (partiesInOrder texts columns' plan')
  have hoptions := fun parties => List.perm_insertionSort
    (fun left right : ReadingOption => right.parties.length < left.parties.length ∨
      right.parties.length = left.parties.length ∧ compare right.quantity left.quantity ≤ 0)
    (gather (reportedEntries plan line parties))
  have hdiffers : (readingRow texts columns plan line).differs =
      (readingRow texts columns' plan' line).differs := by
    apply Bool.eq_iff_iff.mpr
    rw [row_differs, row_differs, hcell]
    simp only [hparties.mem_iff]
  have hnumbers : ∀ x, x ∈ (gather (reportedEntries plan line
      (partiesInOrder texts columns plan))).map (fun o => quantityOf o.quantity) ↔
      x ∈ (gather (reportedEntries plan line (partiesInOrder texts columns' plan'))).map
        fun o => quantityOf o.quantity := by
    intro x
    rw [hgathered.mem_numbers, hgathered'.mem_numbers]
    simp only [hperm.mem_iff]
  have hspreads := spreads_gather (hserver.isQuantity_entries line _) hperm
  have hspelled : SpellsAlike plan line → SpelledAlike
      (reportedEntries plan line (partiesInOrder texts columns plan)) := by
    have hmem := fun entry => (hplan.filterMap fun party =>
      (reportedBy plan line party).map fun quantity => (quantity, party.name)).mem_iff
        (a := entry)
    intro halike entry hentry entry' hentry'
    exact halike entry ((hmem entry).mp hentry) entry' ((hmem entry').mp hentry')
  refine ⟨⟨rfl, ?_, ?_, ?_, hdiffers⟩, fun halike => ⟨?_, ?_⟩⟩
  · rw [row_options, row_options, hentries]
    exact ((hoptions _).map _).trans
      ((hgathered.counted_perm hgathered' hperm).trans ((hoptions _).map _).symm)
  · rw [row_spread, row_spread, hentries]
    rcases hspreads with ⟨hnone, hnone'⟩ | ⟨s, s', hs, hs', hencloses, hencloses'⟩
    · rw [hnone, hnone']
    · rw [hs, hs']
      exact congrArg some (hencloses.numbers_eq hencloses' hnumbers)
  · apply Bool.eq_iff_iff.mpr
    rw [row_agree, row_agree, hcell, hdiffers]
    simp only [hparties.mem_iff]
  · rw [row_options, row_options, hentries]
    exact ((hoptions _).map _).trans
      ((hgathered.spelled_perm hgathered' hperm (hspelled halike)).trans ((hoptions _).map _).symm)
  · rw [row_spread, row_spread, hentries]
    rcases hspreads with ⟨hnone, hnone'⟩ | ⟨s, s', hs, hs', hencloses, hencloses'⟩
    · rw [hnone, hnone']
    · rw [hs, hs']
      exact congrArg some (hencloses.eq_of_alike hencloses' hgathered hgathered' hperm
        (hspelled halike) (hencloses.numbers_eq hencloses' hnumbers))

variable {plans plans' : List MeasurementPlan}

/-- **The table does not depend on the order.** -/
theorem sameReadings (hserver : ∀ plan ∈ plans, ServerReadings plan)
    (h : List.Forall₂ Reordered plans plans') :
    List.Forall₂ (fun row row' => SameReadings row row' ∧
        (SpellsAlike row.plan row.line → SameTexts row row'))
      (readingRows texts (agencyColumns texts plans) plans)
      (readingRows texts (agencyColumns texts plans') plans') := by
  have hrows : ∀ plan ∈ plans, ∀ plan' ∈ plans', Reordered plan plan' →
      List.Forall₂ (fun row row' => SameReadings row row' ∧
          (SpellsAlike row.plan row.line → SameTexts row row'))
        (plan.lines.map (readingRow texts (agencyColumns texts plans) plan))
        (plan'.lines.map (readingRow texts (agencyColumns texts plans') plan')) := by
    intro plan hplan plan' hplan' hreordered
    rw [hreordered.lines, List.forall₂_map_left_iff, List.forall₂_map_right_iff]
    refine List.forall₂_same.mpr fun line _ => ?_
    have hparties := @partiesInOrder_perm texts plan plans hplan
    have hparties' := @partiesInOrder_perm texts plan' plans' hplan'
    exact sameReadings_of_perm (hserver plan hplan) hreordered
      (hparties.trans (hreordered.participants.trans hparties'.symm)) hparties
  exact forall₂_flatMap h hrows

end Order

/-! ## The whole table -/

/-- Every line of every plan has its row, and no other rows there are. -/
theorem readingRows_lines (texts : Texts) (columns : List AgencyColumn)
    (plans : List MeasurementPlan) :
    (readingRows texts columns plans).map (fun row => (row.plan, row.line)) =
      plans.flatMap fun plan => plan.lines.map (plan, ·) := by
  rw [readingRows, List.map_flatMap]
  refine List.flatMap_congr fun plan _ => ?_
  rw [List.map_map]
  rfl

/-- **The table of readings loses and duplicates nothing**: its rows are those of the cargo lines,
one for each and in their order, each of them exact.  What it shows does not depend on the order
in which plans list participants and submissions: not as numbers, and not as texts where equal
numbers are spelled alike. -/
theorem readings_table (texts : Texts) (plans : List MeasurementPlan)
    (hserver : ∀ plan ∈ plans, ServerReadings plan) :
    ((readingRows texts (agencyColumns texts plans) plans).map fun row => (row.plan, row.line)) =
      (plans.flatMap fun plan => plan.lines.map (plan, ·)) ∧
    (∀ row ∈ readingRows texts (agencyColumns texts plans) plans, row.Exact texts) ∧
    ((agencyColumns texts plans).map AgencyColumn.key).Nodup ∧
    ∀ plans', List.Forall₂ Reordered plans plans' →
      List.Forall₂ (fun row row' => SameReadings row row' ∧
          (SpellsAlike row.plan row.line → SameTexts row row'))
        (readingRows texts (agencyColumns texts plans) plans)
        (readingRows texts (agencyColumns texts plans') plans') := by
  refine ⟨readingRows_lines texts _ plans, fun row hrow => ?_, nodup_agencyColumns texts,
    fun plans' h => sameReadings hserver h⟩
  obtain ⟨plan, hplan, hrow⟩ := List.mem_flatMap.mp hrow
  obtain ⟨line, hline, rfl⟩ := List.mem_map.mp hrow
  exact exact_row hplan (hserver plan hplan) hline

/-- Two agencies report one quantity in two spellings. -/
def Sample.measured : MeasurementPlan :=
  { Sample.plan with
    participants := [⟨"party-1", none, "Agency", "surveyor", "", true, true⟩,
      ⟨"party-2", none, " AGENCY ", "Surveyor", "", true, true⟩]
    submissions := Sample.plan.submissions ++ Sample.plan.submissions.map fun submission =>
      { submission with
        id := "return-2"
        participantId := "party-2"
        lines := [⟨"line-1", .reported, some "112.5", ""⟩] } }

/-- The readings of the measured sample plan. -/
theorem readings_table_sample :
    let texts : Texts := ⟨fun a b => decide (a ≤ b), String.toLower⟩
    let plans := [Sample.measured]
    ((readingRows texts (agencyColumns texts plans) plans).map fun row => (row.plan, row.line)) =
      (plans.flatMap fun plan => plan.lines.map (plan, ·)) ∧
    (∀ row ∈ readingRows texts (agencyColumns texts plans) plans, row.Exact texts) ∧
    ((agencyColumns texts plans).map AgencyColumn.key).Nodup ∧
    ∀ plans', List.Forall₂ Reordered plans plans' →
      List.Forall₂ (fun row row' => SameReadings row row' ∧
          (SpellsAlike row.plan row.line → SameTexts row row'))
        (readingRows texts (agencyColumns texts plans) plans)
        (readingRows texts (agencyColumns texts plans') plans') := by
  refine readings_table _ [Sample.measured] fun plan hplan => ?_
  rw [List.mem_singleton.mp hplan]
  exact ⟨⟨by decide +kernel, by decide +kernel⟩, by decide +kernel, by decide +kernel,
    by decide +kernel⟩

end VesselCaller.Closeout
