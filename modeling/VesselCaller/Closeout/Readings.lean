import VesselCaller.Closeout.Comparison
import VesselCaller.Closeout.Returns
import Mathlib.Data.Multiset.Basic

/-!
# The table of readings

`measurements/readingsModel.ts`: one row for each cargo line, one column for each agency, and
on every row the quantities that were reported, with the parties that reported each.

Agencies are told apart by the normalized name and role, across all plans, so one column may
hold several participants of a plan and a plan need not have one in every column.  Quantities
are told apart by their number, so one option stands for all spellings of it.

## Main definitions

* `agencyKey`, `agencyColumns` — the columns;
* `readingCell` — what a party has reported for a line;
* `readingRow`, `readingRows` — the rows, with options, spread, difference and agreement.
-/

namespace VesselCaller.Closeout

open Lib
open Measurements (LineStatus PlanStatus)
open Comparison (quantityDifference startsWith Denotes)

/-! ## Columns -/

/-- What the table uses of the browser: the collation (`a.localeCompare(b) <= 0`) and
`value.normalize("NFKC").toLowerCase()`. -/
structure Texts where
  localeLe : String → String → Bool
  normalizeLower : String → String

/-- `cs.replace(/\s+/g, " ")`, where `inSpace` says that a space has just been written. -/
def collapse : Bool → List Char → List Char
  | _, [] => []
  | inSpace, c :: cs =>
      if isSpace c then
        if inSpace then collapse true cs else ' ' :: collapse true cs
      else c :: collapse false cs

def clean (value : String) : String := String.ofList (collapse false (trim value).toList)

/-- The key of an agency, the JSON text of a pair. -/
abbrev AgencyKey := String × String

structure AgencyColumn where
  key : AgencyKey
  name : String
  role : String
  deriving DecidableEq, Repr

/-- `ROLE_ORDER`: same order as the paper reconciliation sheet. -/
def roleOrder : List String := ["agent", "terminal operator", "master", "surveyor", "tally clerk"]

section Columns

variable (texts : Texts)

def normalized (value : String) : String := texts.normalizeLower (clean value)

def agencyKey (party : Participant) : AgencyKey :=
  (normalized texts party.name, normalized texts party.role)

/-- A column is added for a participant whose key has none. -/
def addColumn (columns : List AgencyColumn) (party : Participant) : List AgencyColumn :=
  if agencyKey texts party ∈ columns.map AgencyColumn.key then columns
  else columns ++ [{
    key := agencyKey texts party
    name := clean party.name
    role := clean party.role }]

/-- The place of a role in the order; roles that are not in it come last. -/
def rank (role : String) : ℕ := roleOrder.idxOf (normalized texts role)

def agencyColumns (plans : List MeasurementPlan) : List AgencyColumn :=
  ((plans.flatMap MeasurementPlan.participants).foldl (addColumn texts) []).insertionSort
    fun left right => rank texts left.role < rank texts right.role ∨
      rank texts left.role = rank texts right.role ∧ texts.localeLe left.name right.name = true

end Columns

/-! ## Cells -/

inductive CellState where
  | value
  | na
  | awaiting
  | notSubmitted
  | notReported
  deriving DecidableEq, Repr

structure ReadingCell where
  party : Participant
  state : CellState
  quantity : Option String
  note : String
  submission : Option Submission
  difference : Option String
  deriving DecidableEq, Repr

/-- `submission.lines.find(item => item.lineId === line.id)`. -/
def entryFor (submission : Submission) (line : CargoLine) : Option SubmissionLine :=
  submission.lines.find? fun item => item.lineId = line.id

/-- The cell of a participant on the row of a cargo line. -/
def readingCell (plan : MeasurementPlan) (line : CargoLine) (party : Participant) :
    ReadingCell :=
  match returnOf plan party.id with
  | none =>
      { party := party
        state := if party.requiredSubmission ∧ plan.status ≠ .cancelled then .awaiting
          else .notSubmitted
        quantity := none
        note := ""
        submission := none
        difference := none }
  | some submission =>
      match entryFor submission line with
      | none =>
          { party := party
            state := .notReported
            quantity := none
            note := ""
            submission := some submission
            difference := none }
      | some entry =>
          match entry.status with
          | .notApplicable =>
              { party := party
                state := .na
                quantity := none
                note := entry.note
                submission := some submission
                difference := none }
          | .reported =>
              { party := party
                state := .value
                quantity := entry.quantity
                note := entry.note
                submission := some submission
                difference := quantityDifference entry.quantity line.manifestQuantity }

/-- A required participant that has not returned the line makes the row incomplete. -/
def ReadingCell.missing (cell : ReadingCell) : Bool :=
  cell.party.requiredSubmission &&
    (cell.state = .awaiting || cell.state = .notSubmitted || cell.state = .notReported)

/-- The quantity of a cell, where one is reported. -/
def ReadingCell.reported (cell : ReadingCell) : Option String :=
  if cell.state = .value then cell.quantity else none

/-! ## Options -/

structure ReadingOption where
  quantity : String
  parties : List String
  deriving DecidableEq, Repr

/-- `compare`: the sign of the difference; a text that is not a quantity compares equal. -/
def compare (left right : String) : ℤ :=
  match quantityDifference (some left) (some right) with
  | none => 0
  | some difference =>
      if difference = "0" then 0 else if startsWith difference "-" then -1 else 1

/-- A party joins the first option of its quantity, or opens one. -/
def addOption : List ReadingOption → String → String → List ReadingOption
  | [], quantity, party => [{ quantity := quantity, parties := [party] }]
  | option :: options, quantity, party =>
      if compare option.quantity quantity = 0 then
        { option with parties := option.parties ++ [party] } :: options
      else option :: addOption options quantity party

/-- What a cell adds to the options of its row. -/
def addCell (options : List ReadingOption) (cell : ReadingCell) : List ReadingOption :=
  match cell.reported with
  | none => options
  | some quantity => addOption options quantity cell.party.name

structure Spread where
  min : String
  max : String
  range : String
  deriving DecidableEq, Repr

/-- `difference.replace(/^\+/, "")`. -/
def dropPlus (difference : String) : String :=
  match difference.toList with
  | '+' :: cs => String.ofList cs
  | _ => difference

/-- The least and the largest of the options, and how far they are apart. -/
def spreadOf (options : List ReadingOption) : Option Spread :=
  let sorted := options.insertionSort fun left right => compare left.quantity right.quantity ≤ 0
  match sorted.head?, sorted.getLast? with
  | some first, some last => some {
      min := first.quantity
      max := last.quantity
      range := ((quantityDifference (some last.quantity) (some first.quantity)).map
        dropPlus).getD "0" }
  | _, _ => none

/-- Options of more parties come first, then larger quantities. -/
def sortOptions (options : List ReadingOption) : List ReadingOption :=
  options.insertionSort fun left right =>
    right.parties.length < left.parties.length ∨
      right.parties.length = left.parties.length ∧ compare right.quantity left.quantity ≤ 0

/-! ## Rows -/

structure ReadingRow where
  key : String × String
  plan : MeasurementPlan
  line : CargoLine
  cells : List (AgencyKey × List ReadingCell)
  options : List ReadingOption
  agree : Bool
  differs : Bool
  spread : Option Spread
  deriving DecidableEq, Repr

section Rows

variable (texts : Texts) (columns : List AgencyColumn)

/-- The cells of a row, by the columns, whose keys are distinct. -/
def rowCells (plan : MeasurementPlan) (line : CargoLine) :
    List (AgencyKey × List ReadingCell) :=
  columns.map fun column => (column.key,
    (plan.participants.filter fun party => agencyKey texts party = column.key).map
      (readingCell plan line))

/-- Whether a cell reports a quantity that is not the declared one. -/
def ReadingCell.differs (cell : ReadingCell) : Bool :=
  cell.reported.isSome && cell.difference ≠ none && cell.difference ≠ some "0"

/-- The row of a cargo line. -/
def readingRow (plan : MeasurementPlan) (line : CargoLine) : ReadingRow :=
  let cells := rowCells texts columns plan line
  let all := cells.flatMap Prod.snd
  let options := all.foldl addCell []
  let differs := all.any ReadingCell.differs
  { key := (plan.id, line.id)
    plan := plan
    line := line
    cells := cells
    options := sortOptions options
    agree := !all.any ReadingCell.missing && (all.any fun cell => cell.reported.isSome) &&
      !differs && line.manifestQuantity ≠ none
    differs := differs
    spread := spreadOf options }

def readingRows (plans : List MeasurementPlan) : List ReadingRow :=
  plans.flatMap fun plan => plan.lines.map (readingRow texts columns plan)

end Rows

end VesselCaller.Closeout
