import Vaduno.Ledger.Verify
import Vaduno.Guard.Result
import Vaduno.Policy.WindowAgreement

/-! The risk scorecard: signals over a prefix of the ledger, summed to a score and cut into tiers. The
position of the prefix is recorded with the assessment, so that it can be derived again later. -/
namespace Vaduno.Risk
open Ecma Ledger Policy Guard

/-- The signals, in the order they are evaluated and reported. -/
inductive RiskSignalKey
  | firstSeenMerchant
  | amountAboveMerchantTypical
  | amountAboveGlobalTypical
  | outOfHours
  | velocityBurst
  | denyStreak
  | firstUseOfMandate
  | capApproach
  deriving DecidableEq

def RiskSignalKey.text : RiskSignalKey → JsString
  | firstSeenMerchant => "FIRST_SEEN_MERCHANT"
  | amountAboveMerchantTypical => "AMOUNT_ABOVE_MERCHANT_TYPICAL"
  | amountAboveGlobalTypical => "AMOUNT_ABOVE_GLOBAL_TYPICAL"
  | outOfHours => "OUT_OF_HOURS"
  | velocityBurst => "VELOCITY_BURST"
  | denyStreak => "DENY_STREAK"
  | firstUseOfMandate => "FIRST_USE_OF_MANDATE"
  | capApproach => "CAP_APPROACH"

/-! ### Configuration -/

/-- The minutes of a day from `startMinute` on and before `endMinute`. -/
structure UtcMinuteWindow where
  startMinute : Number
  endMinute : Number

/-- The amount is compared with a multiple of the lower median, once there is enough history. -/
structure TypicalRule where
  weight : Number
  multiplierBps : Number
  minHistory : Number

structure HoursRule where
  weight : Number
  allowedWindowsUtc : List UtcMinuteWindow

structure BurstRule where
  weight : Number
  maxCount : Number
  windowMs : Number

structure StreakRule where
  weight : Number
  minDenies : Number
  windowMs : Number

structure CapRule where
  weight : Number
  thresholdBps : Number

/-- The signals that are configured; the first and the one for mandates have a weight alone. -/
structure RiskSignalsConfig where
  firstSeenMerchant : Option Number
  amountAboveMerchantTypical : Option TypicalRule
  amountAboveGlobalTypical : Option TypicalRule
  outOfHours : Option HoursRule
  velocityBurst : Option BurstRule
  denyStreak : Option StreakRule
  firstUseOfMandate : Option Number
  capApproach : Option CapRule

structure RiskScorecardConfig where
  lookbackMs : Number
  stepUpAt : Number
  denyAt : Number
  /-- `autoFreeze.atScore`. -/
  autoFreeze : Option Number
  signals : RiskSignalsConfig

def isPosSafeInt (n : Number) : Bool := n.isSafeInteger && decide (0 < n)

def isPosFinite (n : Number) : Bool := n.isFinite && decide (0 < n)

/-- A message, if something is wrong. -/
def wrongUnless (sound : Bool) (message : JsString) : List JsString := if sound then [] else [message]

section Violations
variable (key : RiskSignalKey)

def notPosSafeInt (option : JsString) (n : Number) : List JsString :=
  wrongUnless (isPosSafeInt n) (key.text ++ "." ++ option ++ " " ++ n.toText ++ " is not a positive safe integer")

/-- A window must not reach past the lookback, which alone is read. -/
def windowedRule (lookbackMs windowMs : Number) : List JsString :=
  if !isPosFinite windowMs then
    [key.text ++ ".windowMs " ++ windowMs.toText ++ " is not a positive finite number"]
  else if isPosFinite lookbackMs && decide (lookbackMs < windowMs) then
    [key.text ++ ".windowMs " ++ windowMs.toText ++ " exceeds lookbackMs " ++ lookbackMs.toText ++
      " — the window would silently see less history than configured"]
  else []

def typicalViolations (c : TypicalRule) : List JsString :=
  notPosSafeInt key "weight" c.weight ++ notPosSafeInt key "multiplierBps" c.multiplierBps ++
    notPosSafeInt key "minHistory" c.minHistory

def windowViolations (i : ℕ) (w : UtcMinuteWindow) : List JsString :=
  let place : JsString := key.text ++ ".allowedWindowsUtc[" ++ natText i ++ "]"
  let sOk := w.startMinute.isSafeInteger && decide (0 ≤ w.startMinute) && decide (w.startMinute < 1440)
  let eOk := w.endMinute.isSafeInteger && decide (1 ≤ w.endMinute) && decide (w.endMinute ≤ 1440)
  wrongUnless sOk (place ++ ".startMinute " ++ w.startMinute.toText ++ " is not an integer in 0..1439") ++
    wrongUnless eOk (place ++ ".endMinute " ++ w.endMinute.toText ++ " is not an integer in 1..1440") ++
    wrongUnless (!(sOk && eOk && decide (w.endMinute ≤ w.startMinute)))
      (place ++ " is empty (startMinute " ++ w.startMinute.toText ++ " >= endMinute " ++ w.endMinute.toText ++
        "); windows are half-open [start, end) and do not wrap midnight — declare two")

def hoursViolations (c : HoursRule) : List JsString :=
  notPosSafeInt key "weight" c.weight ++
    if c.allowedWindowsUtc.isEmpty then
      [key.text ++ ".allowedWindowsUtc must be a non-empty array of \x7bstartMinute, endMinute\x7d"]
    else (c.allowedWindowsUtc.zipIdx.map fun (w, i) => windowViolations key i w).flatten

end Violations

/-- Everything that is wrong with a configuration. -/
def violationsOf (config : RiskScorecardConfig) : List JsString :=
  let s := config.signals
  let weights := s.firstSeenMerchant.toList ++ (s.amountAboveMerchantTypical.map (·.weight)).toList ++
    (s.amountAboveGlobalTypical.map (·.weight)).toList ++ (s.outOfHours.map (·.weight)).toList ++
    (s.velocityBurst.map (·.weight)).toList ++ (s.denyStreak.map (·.weight)).toList ++
    s.firstUseOfMandate.toList ++ (s.capApproach.map (·.weight)).toList
  wrongUnless (isPosFinite config.lookbackMs)
    ("lookbackMs " ++ config.lookbackMs.toText ++ " is not a positive finite number") ++
  wrongUnless (isPosSafeInt config.stepUpAt)
    ("stepUpAt " ++ config.stepUpAt.toText ++ " is not a positive safe integer") ++
  wrongUnless (isPosSafeInt config.denyAt)
    ("denyAt " ++ config.denyAt.toText ++ " is not a positive safe integer") ++
  wrongUnless
    (!(isPosSafeInt config.stepUpAt && isPosSafeInt config.denyAt && decide (config.denyAt < config.stepUpAt)))
    ("stepUpAt " ++ config.stepUpAt.toText ++ " > denyAt " ++ config.denyAt.toText ++
      " — the step-up tier would sit above the deny tier") ++
  (config.autoFreeze.toList.flatMap fun atScore =>
    if !isPosSafeInt atScore then
      [encode "autoFreeze.atScore " ++ atScore.toText ++ " is not a positive safe integer"]
    else wrongUnless (!(isPosSafeInt config.denyAt && decide (atScore < config.denyAt)))
      ("autoFreeze.atScore " ++ atScore.toText ++ " < denyAt " ++ config.denyAt.toText ++
        " — auto-freeze must sit at or above the deny tier")) ++
  (s.firstSeenMerchant.toList.flatMap (notPosSafeInt .firstSeenMerchant "weight")) ++
  (s.amountAboveMerchantTypical.toList.flatMap (typicalViolations .amountAboveMerchantTypical)) ++
  (s.amountAboveGlobalTypical.toList.flatMap (typicalViolations .amountAboveGlobalTypical)) ++
  (s.outOfHours.toList.flatMap (hoursViolations .outOfHours)) ++
  (s.velocityBurst.toList.flatMap fun c => notPosSafeInt .velocityBurst "weight" c.weight ++
    notPosSafeInt .velocityBurst "maxCount" c.maxCount ++
    windowedRule .velocityBurst config.lookbackMs c.windowMs) ++
  (s.denyStreak.toList.flatMap fun c => notPosSafeInt .denyStreak "weight" c.weight ++
    notPosSafeInt .denyStreak "minDenies" c.minDenies ++
    windowedRule .denyStreak config.lookbackMs c.windowMs) ++
  (s.firstUseOfMandate.toList.flatMap (notPosSafeInt .firstUseOfMandate "weight")) ++
  (s.capApproach.toList.flatMap fun c => notPosSafeInt .capApproach "weight" c.weight ++
    wrongUnless (isPosSafeInt c.thresholdBps && decide (c.thresholdBps ≤ 10000))
      (RiskSignalKey.capApproach.text ++ ".thresholdBps " ++ c.thresholdBps.toText ++
        " is not an integer in 1..10000") ++
    wrongUnless (!(isPosFinite config.lookbackMs && decide (config.lookbackMs < dayMs)))
      (RiskSignalKey.capApproach.text ++ " requires lookbackMs >= " ++ dayMs.toText ++
        " (the rolling perDay window) — a shorter lookback would silently undercount the day total")) ++
  wrongUnless (!weights.isEmpty)
    "signals configures no known signal — a scorecard that can never fire enforces nothing" ++
  wrongUnless ((weights.filter isPosSafeInt).foldl (· + ·) 0).isSafeInteger
    "total signal weight overflows the safe-integer range"

def weightObject (weight : Number) (options : List (JsString × JsValue)) : JsValue :=
  .object ((encode "weight", .number weight) :: options)

def TypicalRule.object (c : TypicalRule) : JsValue :=
  weightObject c.weight [("multiplierBps", .number c.multiplierBps), ("minHistory", .number c.minHistory)]

def UtcMinuteWindow.object (w : UtcMinuteWindow) : JsValue :=
  .object [("startMinute", .number w.startMinute), ("endMinute", .number w.endMinute)]

/-- The property of a signal, where it is configured. -/
def signalMember (key : RiskSignalKey) (options : Option JsValue) : List (JsString × JsValue) :=
  options.toList.map (key.text, ·)

def RiskSignalsConfig.object (s : RiskSignalsConfig) : JsValue :=
  .object (signalMember .firstSeenMerchant (s.firstSeenMerchant.map (weightObject · [])) ++
    signalMember .amountAboveMerchantTypical (s.amountAboveMerchantTypical.map TypicalRule.object) ++
    signalMember .amountAboveGlobalTypical (s.amountAboveGlobalTypical.map TypicalRule.object) ++
    signalMember .outOfHours (s.outOfHours.map fun c => weightObject c.weight
      [("allowedWindowsUtc", .array (c.allowedWindowsUtc.map UtcMinuteWindow.object))]) ++
    signalMember .velocityBurst (s.velocityBurst.map fun c => weightObject c.weight
      [("maxCount", .number c.maxCount), ("windowMs", .number c.windowMs)]) ++
    signalMember .denyStreak (s.denyStreak.map fun c => weightObject c.weight
      [("minDenies", .number c.minDenies), ("windowMs", .number c.windowMs)]) ++
    signalMember .firstUseOfMandate (s.firstUseOfMandate.map (weightObject · [])) ++
    signalMember .capApproach (s.capApproach.map fun c => weightObject c.weight
      [("thresholdBps", .number c.thresholdBps)]))

def RiskScorecardConfig.object (config : RiskScorecardConfig) : JsValue :=
  .object ([(encode "lookbackMs", .number config.lookbackMs), (encode "stepUpAt", .number config.stepUpAt),
    (encode "denyAt", .number config.denyAt)] ++
    (config.autoFreeze.toList.map fun atScore => (encode "autoFreeze", .object [("atScore", .number atScore)])) ++
    [(encode "signals", config.signals.object)])

def configHashDomain : JsString := "vaduno-risk-scorecard/v1\n"

/-- A scorecard whose configuration has been checked and hashed. -/
structure RiskScorecard (platform : Platform) where
  config : RiskScorecardConfig
  admitted : violationsOf config = []
  configHash : JsString
  hashed : (fun json => platform.sha256Hex (configHashDomain ++ json)) <$> canonicalJson config.object = .ok configHash

/-! ### History -/

structure SpendRow where
  ms : Number
  amountMinor : ℤ
  merchantKey : Option JsString

/-- What one pass over the prefix gathers. -/
structure History where
  spends : List SpendRow
  denyMs : List Number
  mandatePriorUse : Bool

structure RiskAssessInput where
  intent : PaymentIntent
  policy : SpendPolicy
  /-- The last of these rows becomes the anchor. -/
  entries : List LedgerEntry
  nowMs : Number

/-- The position of the last row that was seen. -/
abbrev RiskAnchor := LedgerTip

/-- The position of a prefix of the ledger. -/
def anchorOf (entries : List LedgerEntry) : RiskAnchor :=
  match entries.getLast? with
  | some last => last.tip
  | none => genesis

structure FiredSignal where
  signal : RiskSignalKey
  weight : Number
  detail : JsString

structure Assessment where
  score : Number
  tier : RiskTier
  signals : List FiredSignal
  anchor : RiskAnchor
  atMs : Number
  configHash : JsString

/-- Lower median: the element at `floor((n - 1) / 2)` of the ascending sort, if there is one. -/
def lowerMedian (values : List ℤ) : Option ℤ := (values.insertionSort (· ≤ ·))[(values.length - 1) / 2]?

section History
variable (platform : Platform)

/-- The instant of a row, wrongUnless it is unreadable or not after `since`. -/
def instantAfter (since : Number) (e : LedgerEntry) : Option Number :=
  let ms := platform.dateParse e.timestamp
  if ms.isNaN || decide (ms ≤ since) then none else some ms

/-- A successful spend in the wanted currency. -/
def spendOf (wantCurrency : JsString) (since : Number) (e : LedgerEntry) : Option SpendRow :=
  match member "success" e.data, member "amountMinor" e.data, member "currency" e.data with
  | .boolean true, .number amountMinor, .string currency =>
    if !amountMinor.isSafeInteger || platform.toUpperCase currency ≠ wantCurrency then none
    else (instantAfter platform since e).map fun ms =>
      ⟨ms, amountMinor.toInt, textOf (member "merchantKey" e.data)⟩
  | _, _, _ => none

def denyOf (since : Number) (e : LedgerEntry) : Option Number :=
  match member "decision" (member "policyResult" e.data) with
  | .string decision => if decision = "deny" then instantAfter platform since e else none
  | _ => none

/-- A use of the mandate by another intent. -/
def usesMandate (mandateId intentId : JsString) (e : LedgerEntry) : Bool :=
  (match member "mandateId" e.data with
    | .string id => decide (id = mandateId)
    | _ => false) && decide (e.refs.intentId ≠ some intentId)

/-- The loop's body. -/
def gather (wantCurrency : JsString) (since : Number) (mandateId : Option JsString) (intentId : JsString)
    (h : History) (e : LedgerEntry) : History :=
  match e.type, mandateId with
  | .executionResult, _ => { h with spends := h.spends ++ (spendOf platform wantCurrency since e).toList }
  | .policyDecision, _ => { h with denyMs := h.denyMs ++ (denyOf platform since e).toList }
  | .mandateConsumed, some id => { h with mandatePriorUse := h.mandatePriorUse || usesMandate id intentId e }
  | _, _ => h

end History

/-- The minute of the day, NaN outside the calendar. -/
def utcMinute (nowMs : Number) : Number :=
  match timeClip nowMs with
  | some t => ((t.toInt % 86400000 / 3600000 : ℤ) : Number) * 60 + ((t.toInt / 60000 % 60 : ℤ) : Number)
  | none => .nan

/-! ### Signals -/

section Signals
variable (amount nowMs : Number) (spends : List SpendRow)

/-- Rows without a key establish no familiarity. -/
def firstSeenSignal (merchantKey : JsString) (weight : Number) : Option FiredSignal :=
  if spends.any (·.merchantKey = some merchantKey) then none
  else some ⟨.firstSeenMerchant, weight,
    "no successful spend recorded for merchant " ++ merchantKey ++ " within the lookback"⟩

/-- The two rules about typical amounts, which differ in the history they look at. -/
def typicalSignal (key : RiskSignalKey) (whose : JsString) (amounts : List ℤ) (c : TypicalRule) :
    Except RiskFailure (Option FiredSignal) :=
  if c.minHistory ≤ ((amounts.length : ℤ) : Number) then
    match lowerMedian amounts with
    | none => .error (.broken .typeError)
    | some median =>
      .ok (if median * c.multiplierBps.toInt < amount.toInt * 10000 then
        some ⟨key, c.weight, "amount " ++ amount.toText ++ " exceeds " ++ c.multiplierBps.toText ++ " bps of " ++
          whose ++ " lower-median " ++ intText median ++ " over " ++ natText amounts.length ++ " records"⟩
      else none)
  else .ok none

def hoursSignal (c : HoursRule) : Option FiredSignal :=
  let minute := utcMinute nowMs
  if c.allowedWindowsUtc.any fun w => decide (w.startMinute ≤ minute) && decide (minute < w.endMinute) then none
  else some ⟨.outOfHours, c.weight,
    "UTC minute-of-day " ++ minute.toText ++ " is outside every declared allowed window"⟩

def burstSignal (c : BurstRule) : Option FiredSignal :=
  let count := spends.countP fun r => decide (nowMs - c.windowMs < r.ms)
  if c.maxCount ≤ ((count : ℤ) : Number) then
    some ⟨.velocityBurst, c.weight, natText count ++ " successful spends within " ++ c.windowMs.toText ++
      "ms (threshold " ++ c.maxCount.toText ++ ")"⟩
  else none

def streakSignal (denyMs : List Number) (c : StreakRule) : Option FiredSignal :=
  let count := denyMs.countP fun ms => decide (nowMs - c.windowMs < ms)
  if c.minDenies ≤ ((count : ℤ) : Number) then
    some ⟨.denyStreak, c.weight, natText count ++ " denial decisions within " ++ c.windowMs.toText ++
      "ms (threshold " ++ c.minDenies.toText ++ ")"⟩
  else none

def firstUseSignal (mandateId : Option JsString) (mandatePriorUse : Bool) (weight : Number) : Option FiredSignal :=
  match mandateId with
  | some id =>
    if mandatePriorUse then none
    else some ⟨.firstUseOfMandate, weight, "no prior consumed use of mandate " ++ id ++ " in the anchored ledger"⟩
  | none => none

/-- A cap that is absent or unusable leaves the intent without a score. -/
def capSignal (perDay : JsValue) (c : CapRule) : Except RiskFailure (Option FiredSignal) :=
  match perDay with
  | .undefined => .error (.unscorable ("CAP_APPROACH is configured but the active policy has no " ++
      "limits.perDayMinor — config incoherence is unscorable, not ignorable (fail closed)"))
  | perDay =>
    let limit := numOrNaN perDay
    if !limit.isSafeInteger || decide (limit ≤ 0) then
      match perDay.stringOf with
      | .error e => .error (.broken e)
      | .ok text => .error (.unscorable ("CAP_APPROACH cannot score against perDayMinor " ++ text ++
          " (not a positive safe integer)"))
    else
      let dayTotal := ((spends.filter fun r => decide (nowMs - dayMs < r.ms)).map (·.amountMinor)).sum
      .ok (if limit.toInt * c.thresholdBps.toInt ≤ (dayTotal + amount.toInt) * 10000 then
        some ⟨.capApproach, c.weight, "day spend " ++ intText dayTotal ++ " + amount " ++ amount.toText ++
          " reaches " ++ c.thresholdBps.toText ++ " bps of perDayMinor " ++ limit.toText⟩
      else none)

end Signals

/-! ### Assessment -/

namespace RiskScorecard
variable {platform : Platform} (card : RiskScorecard platform)

/-- The mandate an intent names; an empty name is none. -/
def mandateOf (intent : PaymentIntent) : Option JsString := intent.mandateId.filter (!·.isEmpty)

def history (input : RiskAssessInput) : History :=
  input.entries.foldl (gather platform (platform.toUpperCase input.policy.currency)
    (input.nowMs - card.config.lookbackMs) (mandateOf input.intent) input.intent.id) ⟨[], [], false⟩

/-- A signal of a rule that is configured. -/
def whenConfigured (rule : Option ρ) (signal : ρ → Except RiskFailure (Option FiredSignal)) :
    Except RiskFailure (List FiredSignal) :=
  match rule with
  | none => .ok []
  | some c => Option.toList <$> signal c

/-- The signals that fire, in their fixed order. -/
def fired (input : RiskAssessInput) : Except RiskFailure (List FiredSignal) := do
  let s := card.config.signals
  let h := card.history input
  let amount := input.intent.amount.amountMinor
  let merchantKey := merchantKeyOf platform input.intent.merchant
  let firstSeen := (s.firstSeenMerchant.bind (firstSeenSignal h.spends merchantKey)).toList
  let ofMerchant := (h.spends.filter (·.merchantKey = some merchantKey)).map (·.amountMinor)
  let merchantTypical ← whenConfigured s.amountAboveMerchantTypical
    (typicalSignal amount .amountAboveMerchantTypical "this merchant's" ofMerchant)
  let globalTypical ← whenConfigured s.amountAboveGlobalTypical
    (typicalSignal amount .amountAboveGlobalTypical "the global" (h.spends.map (·.amountMinor)))
  let hours := (s.outOfHours.bind (hoursSignal input.nowMs)).toList
  let burst := (s.velocityBurst.bind (burstSignal input.nowMs h.spends)).toList
  let streak := (s.denyStreak.bind (streakSignal input.nowMs h.denyMs)).toList
  let firstUse :=
    (s.firstUseOfMandate.bind (firstUseSignal (mandateOf input.intent) h.mandatePriorUse)).toList
  let cap ← whenConfigured s.capApproach
    (capSignal amount input.nowMs h.spends input.policy.limits.perDayMinor)
  return firstSeen ++ merchantTypical ++ globalTypical ++ hours ++ burst ++ streak ++ firstUse ++ cap

def scoreOf (fired : List FiredSignal) : Number := fired.foldl (fun score f => score + f.weight) 0

def tierOf (score : Number) : RiskTier :=
  if card.config.denyAt ≤ score then .high else if card.config.stepUpAt ≤ score then .elevated else .low

/-- Inputs that cannot be used leave an intent without a score, which is never a score of zero. -/
def assess (input : RiskAssessInput) : Except RiskFailure Assessment :=
  let amount := input.intent.amount.amountMinor
  if !input.nowMs.isSafeInteger then
    .error (.unscorable ("nowMs " ++ input.nowMs.toText ++ " is not a safe integer (fail closed)"))
  else if !amount.isSafeInteger || decide (amount < 0) then
    .error (.unscorable ("amountMinor " ++ amount.toText ++ " is not a non-negative safe integer (fail closed)"))
  else do
    let fired ← card.fired input
    let score := scoreOf fired
    return ⟨score, card.tierOf score, fired, anchorOf input.entries, input.nowMs, card.configHash⟩

end RiskScorecard
end Vaduno.Risk
