import VesselCaller.Lib.Numerals
import VesselCaller.Measurements.Model

/-!
# Plans in the browser

`measurements/types.ts` and `measurements/helpers.ts`: a measurement plan as the browser
receives it from `plan_data`, with keys, decimals and instants as texts, and what the plan
pages read off it.

The enumerations are those of the server, whose words both sides exchange.  Of a plan the
fields are kept that the modelled functions read.  Three keys the server sends and the
interface does not declare are among them, since the fingerprint of the inputs prints them
too: the `source` and `representative` of a return and the `snapshot` of a reconciliation,
the last as its text.

## Main definitions

* `MeasurementPlan`, `Submission`, `Reconciliation` — the payload;
* `latestReturns`, `latestReconciliation` — the ones that count;
* `reconciliationStale`, `finalizationIssues` — what the pages say of them.
-/

namespace VesselCaller.Closeout

open Lib
open Measurements (LineStatus SubmissionSource Decision ReconciliationStatus PlanStatus)

/-! ## Texts -/

/-- The characters `String.prototype.trim` removes. -/
def isSpace (c : Char) : Bool :=
  c.toNat ∈ [9, 10, 11, 12, 13, 32, 160, 5760, 8232, 8233, 8239, 8287, 12288, 65279] ||
    (8192 ≤ c.toNat && c.toNat ≤ 8202)

/-- `text.trim()`. -/
def trim (s : String) : String :=
  String.ofList ((s.toList.dropWhile isSpace).rdropWhile isSpace)

/-- A text without such characters is its own trimmed text. -/
theorem trim_of_forall {s : String} (h : ∀ c ∈ s.toList, isSpace c = false) : trim s = s := by
  have hleft : s.toList.dropWhile isSpace = s.toList := by
    cases hs : s.toList with
    | nil => rfl
    | cons c cs =>
        have hc : isSpace c = false := h c (hs ▸ List.mem_cons_self)
        rw [List.dropWhile_cons_of_neg (by simp [hc])]
  have hright : s.toList.rdropWhile isSpace = s.toList := by
    refine List.rdropWhile_eq_self_iff.mpr fun hne => ?_
    simp [h _ (List.getLast_mem hne)]
  rw [trim, hleft, hright, String.ofList_toList]

/-- Trimming leaves nothing to trim. -/
theorem trim_trim (s : String) : trim (trim s) = trim s := by
  have hkept : ∀ cs : List Char, ((cs.dropWhile isSpace).rdropWhile isSpace).dropWhile isSpace =
      (cs.dropWhile isSpace).rdropWhile isSpace := by
    intro cs
    have hpre : (cs.dropWhile isSpace).rdropWhile isSpace <+: cs.dropWhile isSpace :=
      List.rdropWhile_prefix _ _
    cases hkept : (cs.dropWhile isSpace).rdropWhile isSpace with
    | nil => rfl
    | cons c rest =>
        -- The first character is that of the text trimmed on the left.
        rw [hkept] at hpre
        obtain ⟨tail, htail⟩ := hpre
        have hagain := List.dropWhile_idempotent isSpace cs
        rw [← htail, List.cons_append, List.dropWhile_cons] at hagain
        have hc : ¬isSpace c = true := by
          intro hspace
          rw [if_pos hspace] at hagain
          have hlength := congrArg List.length hagain
          have hle := (List.dropWhile_suffix isSpace (l := rest ++ tail)).length_le
          rw [hlength, List.length_cons] at hle
          omega
        rw [List.dropWhile_cons_of_neg hc]
  rw [trim, trim, String.toList_ofList, hkept, List.rdropWhile_idempotent]

theorem isSpace_of_isDigit {c : Char} (h : c.isDigit = true) : isSpace c = false := by
  have hc := Char.isDigit_iff_toNat.mp h
  have hzero : '0'.toNat = 48 := by decide
  have hnine : '9'.toNat = 57 := by decide
  rw [hzero, hnine] at hc
  have hlist : c.toNat ∉
      [9, 10, 11, 12, 13, 32, 160, 5760, 8232, 8233, 8239, 8287, 12288, 65279] := by
    simp only [List.mem_cons, List.not_mem_nil, or_false]
    omega
  have hrange : ¬8192 ≤ c.toNat := by omega
  simp only [isSpace, hlist, hrange, decide_false, Bool.false_and, Bool.false_or]

/-- `[...texts].sort()`.  Keys are ASCII texts, on which the order of code units is the
order of characters. -/
def sortTexts (texts : List String) : List String := texts.insertionSort (· ≤ ·)

/-! ## Plans -/

structure Actor where
  id : String
  name : String
  deriving DecidableEq, Repr

structure Participant where
  id : String
  agencyId : Option String
  name : String
  role : String
  representative : String
  requiredSubmission : Bool
  requiredApproval : Bool
  deriving DecidableEq, Repr

structure CargoLine where
  id : String
  description : String
  category : String
  direction : String
  containerSize : String
  loadStatus : String
  unit : CargoUnit
  basis : String
  manifestQuantity : Option String
  baselineReference : String
  deriving DecidableEq, Repr

structure SubmissionLine where
  lineId : String
  status : LineStatus
  quantity : Option String
  note : String
  deriving DecidableEq, Repr

structure Submission where
  id : String
  participantId : String
  revision : ℤ
  observedAt : String
  sourceReference : String
  notes : String
  reason : String
  recordedBy : Option Actor
  source : SubmissionSource
  representative : String
  recordedAt : String
  lines : List SubmissionLine
  evidenceIds : List String
  deriving DecidableEq, Repr

structure Approval where
  id : String
  participantId : String
  decision : Decision
  representative : String
  reference : String
  evidenceIds : List String
  recordedBy : Actor
  recordedAt : String
  deriving DecidableEq, Repr

structure ReconciliationLine where
  lineId : String
  quantity : String
  manifestQuantity : Option String
  variance : Option String
  reason : String
  deriving DecidableEq, Repr

structure Reconciliation where
  id : String
  revision : ℤ
  status : ReconciliationStatus
  reason : String
  createdBy : Actor
  createdAt : String
  finalizedBy : Option Actor
  finalizedAt : Option String
  submissionIds : List String
  evidenceIds : List String
  approvals : List Approval
  lines : List ReconciliationLine
  stale : Option Bool
  snapshot : String
  deriving DecidableEq, Repr

structure MeasurementPlan where
  id : String
  callId : String
  title : String
  scope : String
  vesselName : String
  callReference : String
  version : ℤ
  status : PlanStatus
  participants : List Participant
  lines : List CargoLine
  submissions : List Submission
  reconciliations : List Reconciliation
  deriving DecidableEq, Repr

/-! ## Helpers -/

/-- `returns.set(submission.participantId, submission)`: an entry the map has keeps its
place. -/
def setReturn (s : Submission) (returns : List Submission) : List Submission :=
  if returns.any (·.participantId = s.participantId) then
    returns.map fun r => if r.participantId = s.participantId then s else r
  else returns ++ [s]

/-- The revision of the entry of a participant, `0` where there is none. -/
def returnedRevision (participant : String) (returns : List Submission) : ℤ :=
  ((returns.find? fun r => r.participantId = participant).map Submission.revision).getD 0

/-- One round of the loop of `latestReturns`. -/
def takeReturn (returns : List Submission) (s : Submission) : List Submission :=
  if returnedRevision s.participantId returns < s.revision then setReturn s returns else returns

/-- `latestReturns`: the values of the map, in the order of its entries. -/
def latestReturns (plan : MeasurementPlan) : List Submission :=
  plan.submissions.foldl takeReturn []

/-- One round of the `reduce` of `latestReconciliation`. -/
def takeReconciliation (latest : Option Reconciliation) (item : Reconciliation) :
    Option Reconciliation :=
  match latest with
  | none => some item
  | some kept => if kept.revision < item.revision then some item else some kept

/-- `latestReconciliation`. -/
def latestReconciliation (plan : MeasurementPlan) (status : Option ReconciliationStatus) :
    Option Reconciliation :=
  (plan.reconciliations.filter fun r => status.all (r.status = ·)).foldl takeReconciliation none

/-- `reconciliationStale`. -/
def reconciliationStale (plan : MeasurementPlan) (recon : Reconciliation) : Bool :=
  let latest := sortTexts ((latestReturns plan).map Submission.id)
  recon.stale.getD false || ",".intercalate latest ≠ ",".intercalate (sortTexts recon.submissionIds)

/-- `decisions.get(participant)`, of the map over the approvals: the last one counts. -/
def decisionOf (recon : Reconciliation) (participant : String) : Option Decision :=
  ((lastByKey Approval.participantId recon.approvals).find? fun a =>
    a.participantId = participant).map Approval.decision

/-- What the loop of `finalizationIssues` says of one participant. -/
def decisionIssue (recon : Reconciliation) (party : Participant) : Option String :=
  if decisionOf recon party.id = some .disputed then
    some (party.name ++ " has disputed this version.")
  else if party.requiredApproval = true ∧ decisionOf recon party.id ≠ some .agreed then
    some (party.name ++ " agreement is still required.")
  else none

/-- `finalizationIssues`. -/
def finalizationIssues (plan : MeasurementPlan) (recon : Reconciliation)
    (userId : Option String) : List String :=
  (if reconciliationStale plan recon then
    ["Returns changed after this proposal. Create a refreshed proposal before approval."]
  else []) ++
  (if some recon.createdBy.id = userId then
    ["An independent Admin must finalize this proposal. You prepared this version."]
  else []) ++
  plan.participants.filterMap (decisionIssue recon)

end VesselCaller.Closeout
