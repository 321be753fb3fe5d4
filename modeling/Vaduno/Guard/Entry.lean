import Vaduno.Guard.Course
import Vaduno.Guard.Resolution
import Vaduno.Policy.ShapeAgreement

/-! Where a call enters the pipeline: the shape of what was submitted is inspected, and what cannot be recorded as
it is gets refused with a record. -/
namespace Vaduno.Guard
open Ecma Policy IntentShape

/-- The data of the first row. -/
def receivedData (report : IntentShapeReport) (safe : JsValue) : JsValue :=
  if report.totalProblems = 0 then .object [("intent", safe)]
  else sanitizedData report (report.sanitized.getD .undefined)

/-- The problems that are not about the amount. -/
def otherProblems (report : IntentShapeReport) : List IntentShapeProblem :=
  report.problems.filter (·.path ≠ amountPath)

def describe (report : IntentShapeReport) (kind : ProblemKind) : JsString :=
  joinWith "; " (((otherProblems report).filter (·.kind = kind)).map fun p => p.path ++ " (" ++ p.problem ++ ")")

def otherCount (report : IntentShapeReport) : ℕ :=
  report.totalProblems - if report.amountUnrepresentable then 1 else 0

def truncationSuffix (report : IntentShapeReport) : JsString :=
  if (otherProblems report).length < otherCount report then
    "; " ++ natText (otherCount report) ++ " problems total, first " ++ natText (otherProblems report).length ++
      " shown (truncated)"
  else []

/-- The reasons of a denial for shape, everything that was wrong rather than the first thing. -/
def malformedReasons (report : IntentShapeReport) : List PolicyReason :=
  reasonIf report.amountUnrepresentable "INVALID_AMOUNT"
    ("amountMinor must be a positive safe integer: " ++ report.amountProblem.getD []) ++
  reasonIf (decide (0 < otherCount report) && report.unrepresentable) "INTENT_NOT_SERIALIZABLE"
    ("intent holds values the audit trail cannot record exactly: " ++ describe report .unrepresentable ++
      truncationSuffix report) ++
  reasonIf (decide (0 < otherCount report) && report.oversize) "INTENT_TOO_LARGE"
    ("intent exceeds the structural inspection bounds, so it cannot be audited in full and is refused: " ++
      describe report .oversize ++ truncationSuffix report)

/-- What the entry makes of a clone of an intent, whose id and agent are texts. -/
@[irreducible] def inspected (heap : Heap) (safe : GraphValue) (intent : PaymentIntent) : Intake :=
  let report := inspectIntentShape heap safe
  let received := receivedData report ((safe.read heap (maxIntentDepth + 1)).getD .undefined)
  if report.totalProblems = 0 then .sound received intent
  else .malformed intent.id intent.agentId received (malformedReasons report)

theorem inspected_pays {heap : Heap} {safe : GraphValue} {intent : PaymentIntent} :
    (inspected heap safe intent).Pays intent := by
  intro received payment sound
  unfold inspected at sound
  dsimp only at sound
  split_ifs at sound
  cases sound
  rfl

theorem submit_cloned {platform : Platform} {guard : VadunoGuard} {mode : Mode} {intake : Intake} :
    guard.submit platform mode (.cloned intake) = guard.run platform mode intake := rfl

end Vaduno.Guard
