import VesselCaller.Closeout.Changes
import Mathlib.Logic.Encodable.Basic
import Mathlib.Logic.Equiv.List
import Mathlib.Tactic.DeriveEncodable

/-!
# A printer that separates inputs

The previews compare inputs by their JSON texts.  What they rely on is that different inputs
have different texts.  `Sample.printer` is a runtime with a printer of which this is proved:
the inputs are numbered, and the number is printed.

## Main definitions

* `Sample.printer` — the runtime.
-/

namespace VesselCaller.Closeout

open Measurements (LineStatus SubmissionSource Decision ReconciliationStatus)

instance encodableChar : Encodable Char :=
  Encodable.ofLeftInverse Char.toNat Char.ofNat Char.ofNat_toNat

instance encodableString : Encodable String :=
  Encodable.ofLeftInverse String.toList String.ofList fun _ => String.ofList_toList

deriving instance Encodable for LineStatus, SubmissionSource, Decision, ReconciliationStatus,
  CargoUnit

deriving instance Encodable for Actor, Participant, CargoLine, SubmissionLine, Submission,
  Approval, ReconciliationLine, Reconciliation, PlanInputs

def Sample.printer : Runtime :=
  { Sample.runtime with stringify := fun inputs => Nat.repr (Encodable.encode inputs) }

theorem Sample.printer_injective : Function.Injective Sample.printer.stringify := by
  intro inputs inputs' h
  apply Encodable.encode_injective
  have hdigits := congrArg String.toList h
  have hvalue := congrArg (fun ds => Nat.ofDigitChars 10 ds 0) hdigits
  simpa [Sample.printer, Nat.repr, Nat.ofDigitChars_ten_toDigits] using hvalue

end VesselCaller.Closeout
