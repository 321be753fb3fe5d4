import Vaduno.Ecma.Graph
import Vaduno.Ledger.Hash

/-! Up-front structural inspection of a payment intent, so that an intent the audit ledger cannot record is
refused with a record. Whatever is found goes into a bounded list and is counted beyond it. -/
namespace Vaduno.Policy.IntentShape
open Ecma Ledger

/-- Levels that the ledger entry adds above the intent. -/
def entryEnvelopeDepth : ℕ := 2

/-- One level for the marker that replaces a value. -/
def markerDepth : ℕ := 1

def maxIntentDepth : ℕ := canonicalMaxDepth - entryEnvelopeDepth - markerDepth
def maxReportedProblems : ℕ := 8
def maxPathChars : ℕ := 160
def maxProblemChars : ℕ := 120
def maxContainerEntries : ℕ := 10000
def maxWalkNodes : ℕ := 20000

inductive ProblemKind
  | unrepresentable
  | oversize
  deriving DecidableEq

structure IntentShapeProblem where
  path : JsString
  problem : JsString
  kind : ProblemKind
  deriving DecidableEq

structure IntentShapeReport where
  problems : List IntentShapeProblem
  totalProblems : ℕ
  /-- There only if there are problems. -/
  sanitized : Option JsValue
  amountUnrepresentable : Bool
  amountProblem : Option JsString
  oversize : Bool
  unrepresentable : Bool

def amountPath : JsString := "$.amount.amountMinor"

structure WalkState where
  problems : List IntentShapeProblem
  totalProblems : ℕ
  nodes : ℕ
  amountProblem : Option JsString
  oversize : Bool
  unrepresentable : Bool
  /-- Whether the sanitized copy is built. -/
  build : Bool

def freshState (build : Bool) : WalkState where
  problems := []
  totalProblems := 0
  nodes := 0
  amountProblem := none
  oversize := false
  unrepresentable := false
  build := build

def clamp (s : JsString) (max : ℕ) : JsString := if max < s.length then s.take max ++ "…" else s

/-- Extends a path by one segment. -/
def childPath (parent segment : JsString) : JsString :=
  if maxPathChars < parent.length then parent else clamp (parent ++ segment) maxPathChars

/-- Records a problem and gives the marker that stands in for the value. -/
def flag (state : WalkState) (path problem : JsString) (kind : ProblemKind) : JsValue × WalkState :=
  let clamped := clamp problem maxProblemChars
  (.string ("<unrepresentable: " ++ clamp problem 100 ++ ">"), { state with
    totalProblems := state.totalProblems + 1
    oversize := state.oversize || decide (kind = .oversize)
    unrepresentable := state.unrepresentable || decide (kind = .unrepresentable)
    problems :=
      if state.problems.length < maxReportedProblems then
        state.problems ++ [⟨clamp path maxPathChars, clamped, kind⟩]
      else state.problems
    amountProblem :=
      if path = amountPath ∧ state.amountProblem = none then some clamped else state.amountProblem })

/-- The walk of one value below a container, at a path. -/
abbrev Visit := GraphValue → JsString → WalkState → JsValue × WalkState

/-- The loop over the elements: the copies, the elements that the budget did not reach, and the state. -/
def walkItems (visit : Visit) (path : JsString) :
    ℕ → List GraphValue → WalkState → List JsValue × List GraphValue × WalkState
  | _, [], state => ([], [], state)
  | i, item :: rest, state =>
    if state.nodes < maxWalkNodes then
      let (child, state) := visit item (childPath path ("[" ++ natText i ++ "]")) state
      let (children, unreached, state) := walkItems visit path (i + 1) rest state
      (child :: children, unreached, state)
    else ([], item :: rest, state)

/-- The loop over the properties. One whose value is `undefined` is absent. -/
def walkProps (visit : Visit) (path : JsString) : List (JsString × GraphValue) → WalkState →
    List (JsString × JsValue) × List (JsString × GraphValue) × WalkState
  | [], state => ([], [], state)
  | (key, v) :: rest, state =>
    if state.nodes < maxWalkNodes then
      match v with
      | .undefined => walkProps visit path rest state
      | v =>
        let (child, state) := visit v (childPath path ("." ++ key)) state
        let (children, unreached, state) := walkProps visit path rest state
        ((key, child) :: children, unreached, state)
    else ([], (key, v) :: rest, state)

/-- Why the rest of a container was not inspected. -/
def skippedText (container unit : JsString) (entries skipped : ℕ) : JsString :=
  if maxContainerEntries < entries then
    container ++ " of " ++ natText entries ++ " " ++ unit ++ " exceeds the " ++ natText maxContainerEntries ++
      "-entry cap; " ++ natText skipped ++ " not inspected"
  else container ++ " truncated by the " ++ natText maxWalkNodes ++ "-node inspection budget; " ++
    natText skipped ++ " " ++ unit ++ " not inspected"

/-- `Object.defineProperty` for an ordinary property. -/
def define (props : List (JsString × JsValue)) (key : JsString) (v : JsValue) : List (JsString × JsValue) :=
  if props.any (·.1 = key) then props.map fun p => if p.1 = key then (key, v) else p else props ++ [(key, v)]

/-- An array, element by element up to the caps. -/
def walkArray (visit : Visit) (items : List GraphValue) (path : JsString) (state : WalkState) :
    JsValue × WalkState :=
  let (out, unreached, state) := walkItems visit path 0 (items.take maxContainerEntries) state
  let skipped := (items.drop maxContainerEntries).length + unreached.length
  let (out, state) :=
    if 0 < skipped then
      let (marker, state) := flag state path (skippedText "array" "entries" items.length skipped) .oversize
      (out ++ [marker], state)
    else (out, state)
  (if state.build then .array out else .null, state)

/-- A plain object, property by property up to the caps. -/
def walkObject (visit : Visit) (props : List (JsString × GraphValue)) (path : JsString) (state : WalkState) :
    JsValue × WalkState :=
  let (out, unreached, state) := walkProps visit path (props.take maxContainerEntries) state
  let skipped := (props.drop maxContainerEntries).length + unreached.length
  let (out, state) :=
    if 0 < skipped then
      let (marker, state) := flag state path (skippedText "object" "keys" props.length skipped) .oversize
      (define out "<truncated>" marker, state)
    else (out, state)
  (if state.build then .object out else .null, state)

/-- The walk. It starts with as many levels as there are depths that can be recorded, and `0` of them
are left where the depth is past the limit. -/
def walk (heap : Heap) : ℕ → List ℕ → Visit
  | levels, ancestors, v, path, state =>
    let state := { state with nodes := state.nodes + 1 }
    if maxWalkNodes < state.nodes then
      flag state path ("intent exceeds the " ++ natText maxWalkNodes ++
        "-node inspection budget; not inspected further") .oversize
    else
      match levels with
      | 0 => flag state path ("nesting exceeds max recordable depth " ++ natText maxIntentDepth) .oversize
      | levels + 1 =>
        match v with
        | .null => (.null, state)
        | .string s => (.string s, state)
        | .boolean b => (.boolean b, state)
        | .number n =>
          if n.isFinite then (.number n, state)
          else flag state path (n.toText ++ " is not a finite number") .unrepresentable
        | .bigint _ => flag state path "bigint (no unambiguous JSON encoding)" .unrepresentable
        | .undefined => flag state path "undefined (would collide with null)" .unrepresentable
        | .function => flag state path "function cannot be recorded" .unrepresentable
        | .symbol => flag state path "symbol cannot be recorded" .unrepresentable
        | .ref address =>
          if ancestors.contains address then flag state path "circular reference" .unrepresentable
          else
            -- shared by siblings is fine, below itself is a cycle
            let visit := walk heap levels (address :: ancestors)
            match heap address with
            | .array items => walkArray visit items path state
            | .foreign name => flag state path (clamp name 40 ++ " is not a plain object") .unrepresentable
            | .object props => walkObject visit props path state

def inspectIntentShape (heap : Heap) (intent : GraphValue) : IntentShapeReport :=
  let (_, detect) := walk heap (maxIntentDepth + 1) [] intent "$" (freshState false)
  if detect.totalProblems = 0 then ⟨[], 0, none, false, none, false, false⟩
  else
    let (sanitized, build) := walk heap (maxIntentDepth + 1) [] intent "$" (freshState true)
    { problems := build.problems
      totalProblems := build.totalProblems
      sanitized := some sanitized
      amountUnrepresentable := build.amountProblem.isSome
      amountProblem := build.amountProblem
      oversize := build.oversize
      unrepresentable := build.unrepresentable }

end Vaduno.Policy.IntentShape
