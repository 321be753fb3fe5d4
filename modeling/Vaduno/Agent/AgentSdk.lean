import Vaduno.Agent.Hooks
import Vaduno.Keyed
import Vaduno.Ledger.Hash

/-! The binding for a host's tool hooks: which authorization a completed call settles is looked up
under a key, the host's own id of the call, or the tool and its input where the host sends none. -/
namespace Vaduno.Agent
open Ecma

/-! ### The hook events -/

/-- What every hook event carries of its call. -/
structure HookInput where
  toolName : JsString
  toolInput : ToolValue
  toolUseId : Option JsString

inductive Permission
  | allow
  | deny
  | ask
  deriving DecidableEq

inductive PreToolUseOutput
  /-- The host's own rules decide. -/
  | noOpinion
  | decided (permission : Permission) (reason : JsString)
  deriving DecidableEq

def allow (reason : JsString) : PreToolUseOutput := .decided .allow reason

def deny (reason : JsString) : PreToolUseOutput := .decided .deny reason

/-- How a call ended. A failed tool is an event of its own. -/
inductive Completion
  | responded (response : ToolValue)
  | failed (error : Option JsString) (isInterrupt : Bool)

/-! ### Keys -/

/-- Members in key order, by code unit. -/
def keyedLe (a b : JsString × JsString) : Bool := !decide (b.1 < a.1)

mutual
def stableStringify : ToolValue → JsString
  | .undefined | .null => "null"
  | .string s => quote s
  | .number n => if n.isFinite then n.toText else "null"
  | .boolean b => if b then "true" else "false"
  | .bigint n => "\"" ++ intText n ++ "n\""
  | .function => "\"[function]\""
  | .symbol => "\"[symbol]\""
  | .circular => "\"[circular]\""
  | .array items => "[" ++ joinComma (stableItems items) ++ "]"
  | .object props =>
    "\x7b" ++ joinComma (((stableProps props).insertionSort (keyedLe · ·)).map fun p =>
      quote p.1 ++ ":" ++ p.2) ++ "\x7d"

def stableItems : List ToolValue → List JsString
  | [] => []
  | item :: rest => stableStringify item :: stableItems rest

def stableProps : List (JsString × ToolValue) → List (JsString × JsString)
  | [] => []
  | (key, v) :: rest => (key, stableStringify v) :: stableProps rest
end

def callKey (toolName : JsString) (input : ToolValue) : JsString :=
  toolName ++ " " ++ stableStringify input

def correlationKey (input : HookInput) : JsString :=
  match input.toolUseId with
  | some id => "id:" ++ id
  | none => callKey input.toolName input.toolInput

/-! ### Authorizations in flight -/

structure PendingCall where
  intentId : JsString
  mandateId : Option JsString
  deriving DecidableEq

/-- The map in memory. -/
structure InFlight where
  entries : Keyed (Prod.fst : JsString × PendingCall → JsString)

namespace InFlight
variable (m : InFlight)

def empty : InFlight := ⟨Keyed.empty⟩

def remember (key : JsString) (pending : PendingCall) : InFlight := ⟨m.entries.put (key, pending)⟩

def take (key : JsString) : Option PendingCall × InFlight :=
  match m.entries.find key with
  | some entry => (some entry.2, ⟨m.entries.erase key⟩)
  | none => (none, m)

/-- What would be taken. -/
def held (key : JsString) : Option PendingCall := (m.entries.find key).map Prod.snd

theorem held_remember (key : JsString) (pending : PendingCall) (key' : JsString) :
    (m.remember key pending).held key' = if key' = key then some pending else m.held key' := by
  unfold held remember
  rw [Keyed.find_put]
  by_cases same : key' = key
  · rw [if_pos same.symm, if_pos same]
    rfl
  · rw [if_neg fun equal => same equal.symm, if_neg same]

theorem take_fst (key : JsString) : (m.take key).1 = m.held key := by
  unfold take held
  cases m.entries.find key with
  | some entry => rfl
  | none => rfl

theorem held_take (key key' : JsString) :
    (m.take key).2.held key' = if key' = key then none else m.held key' := by
  unfold take held
  cases found : m.entries.find key with
  | some entry =>
    dsimp only
    rw [Keyed.find_erase]
    split_ifs
    · rfl
    · rfl
  | none =>
    split_ifs with same
    · rw [same, found]
      rfl
    · rfl

end InFlight

/-! ### The hooks -/

/-- A property of an object, where it is one with the property. -/
def ToolValue.get (name : JsString) : ToolValue → Option ToolValue
  | .object props => (props.find? (·.1 = name)).map Prod.snd
  | _ => none

def ToolValue.isTrue : Option ToolValue → Bool
  | some (.boolean b) => b
  | _ => false

/-- Best-effort, and biased toward "succeeded". -/
def looksLikeFailure (response : ToolValue) : Bool :=
  ToolValue.isTrue (response.get "is_error") || ToolValue.isTrue (response.get "isError") ||
    match response.get "error" with
    | some (.string s) => 0 < s.length
    | _ => false

def describeFailure (response : ToolValue) : JsString :=
  match response.get "error" with
  | some (.string s) => s
  | _ => "tool reported an error"

def Completion.outcome : Completion → SpendOutcome
  | .responded response =>
    if looksLikeFailure response then ⟨false, some (describeFailure response)⟩ else ⟨true, none⟩
  | .failed error isInterrupt => {
      ok := false
      error := some (error.getD (if isInterrupt then "interrupted before completion" else "tool failed")) }

/-- The answer to a pending call, and what is remembered of it. -/
def preToolUse (inFlight : InFlight) (input : HookInput) (decision : Throwing SpendDecision) :
    Throwing PreToolUseOutput × InFlight :=
  match decision with
  | .error err =>
    (do return deny ("vaduno: spend check failed, denying: " ++ (← errText err)), inFlight)
  | .ok .notAPayment => (.ok .noOpinion, inFlight)
  | .ok (.deny code reason) => (.ok (deny ("vaduno: " ++ code ++ " — " ++ reason)), inFlight)
  | .ok (.allow intentId mandateId) =>
    (.ok (allow ("vaduno: authorized (intent " ++ intentId ++ ")")),
      inFlight.remember (correlationKey input) ⟨intentId, mandateId⟩)

/-- Settles what is remembered under the key of a completed call, if anything is. -/
def settleTaken (inFlight : InFlight) (input : HookInput) (outcome : SpendOutcome) :
    Option SettleCall × InFlight :=
  let taken := inFlight.take (correlationKey input)
  (taken.1.map fun pending => settled pending.intentId outcome pending.mandateId, taken.2)

def postToolUse (inFlight : InFlight) (input : HookInput) (response : ToolValue) :
    Option SettleCall × InFlight :=
  settleTaken inFlight input (Completion.responded response).outcome

def postToolUseFailure (inFlight : InFlight) (input : HookInput) (error : Option JsString)
    (isInterrupt : Bool) : Option SettleCall × InFlight :=
  settleTaken inFlight input (Completion.failed error isInterrupt).outcome

end Vaduno.Agent
