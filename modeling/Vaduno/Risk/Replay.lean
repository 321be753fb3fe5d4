import Vaduno.Risk.Scorecard

/-! Deriving a recorded assessment again. Its anchor selects the rows up to its own number, which in a
verified ledger are the rows it was made over; but a number below zero is taken for that of an empty ledger,
and the verifier lets a chain begin at one. -/
namespace Vaduno.Risk
open Ecma Ledger Guard

/-- The rows up to an anchor, which has to be among them. -/
def anchoredPrefix (entries : List LedgerEntry) (anchor : RiskAnchor) : Throwing (List LedgerEntry) :=
  if anchor.seq < 0 then .ok []
  else
    let upTo := entries.filter fun e => decide (e.seq ≤ anchor.seq)
    let unsatisfiable (found : JsString) : Thrown := .error ("risk anchor (seq " ++ anchor.seq.toText ++
      ") is not satisfiable against this ledger: " ++ found)
    match upTo.getLast? with
    | none => .error (unsatisfiable "no entries at or before the anchored seq")
    | some last =>
      if last.seq ≠ anchor.seq ∨ last.hash ≠ anchor.hash then
        .error (unsatisfiable ("entry at seq " ++ last.seq.toText ++ " has hash " ++ last.hash.take 12 ++
          "…, anchor expects " ++ anchor.hash.take 12 ++ "…"))
      else .ok upTo

variable {platform : Platform}

/-- Scores an intent again over the rows that an anchor selects. -/
def RiskScorecard.replay (card : RiskScorecard platform) (intent : PaymentIntent) (policy : SpendPolicy)
    (nowMs : Number) (entries : List LedgerEntry) (anchor : RiskAnchor) : Except RiskFailure Assessment :=
  match anchoredPrefix entries anchor with
  | .error e => .error (.broken e)
  | .ok upTo => card.assess ⟨intent, policy, upTo, nowMs⟩

theorem RiskScorecard.anchor_of_assess {card : RiskScorecard platform} {input : RiskAssessInput} {a : Assessment}
    (assessed : card.assess input = .ok a) : a.anchor = anchorOf input.entries := by
  unfold RiskScorecard.assess at assessed
  dsimp only at assessed
  split_ifs at assessed
  cases fired : card.fired input with
  | error e =>
    rw [fired] at assessed
    cases assessed
  | ok signals =>
    rw [fired] at assessed
    cases assessed
    rfl

theorem genesis_seq : genesis.seq.isNaN = false ∧ genesis.seq < 0 ∧ ¬genesis.seq < -1 := by decide +kernel

theorem isFinite_of_scan {tip last : LedgerTip} {entries : List LedgerEntry}
    (scanned : scan platform tip entries = .ok last) : ∀ e ∈ entries, e.seq.isFinite = true := by
  induction entries generalizing tip with
  | nil => exact List.forall_mem_nil _
  | cons entry rest ih =>
    obtain ⟨sound, later⟩ := scan_cons.mp scanned
    exact List.forall_mem_cons.mpr ⟨isFinite_seq (problemOf_none.mp sound).2.2.2, ih later⟩

/-- In a chain that verifies, the rows up to the last one of a front part are that part. -/
theorem upTo_last {tip last : LedgerTip} {front more : List LedgerEntry} {entry : LedgerEntry}
    (scanned : scan platform tip ((front ++ [entry]) ++ more) = .ok last) (number : tip.seq.isNaN = false) :
    ((front ++ [entry]) ++ more).filter (fun e => decide (e.seq ≤ entry.tip.seq)) = front ++ [entry] := by
  have ascending := (scan_ascending scanned number).2
  obtain ⟨inner, -, later⟩ := List.pairwise_append.mp ascending
  obtain ⟨-, -, before⟩ := List.pairwise_append.mp inner
  have finite := isFinite_of_scan scanned entry (by simp)
  rw [List.filter_append, List.filter_eq_self.mpr, List.filter_eq_nil_iff.mpr, List.append_nil]
  · intro e member
    rw [decide_eq_true_iff]
    exact Number.not_le_of_lt (later entry (by simp) e member)
  · intro e member
    rw [decide_eq_true_iff]
    obtain earlier | rfl := by simpa using member
    · exact Number.le_of_lt (before e earlier entry (by simp))
    · exact Number.le_refl (Number.isNaN_of_isFinite finite)

/-- The prefix that an assessment's own anchor selects. -/
theorem anchoredPrefix_own {last : LedgerTip} {scored more : List LedgerEntry}
    (scanned : scan platform genesis (scored ++ more) = .ok last)
    (plain : ∀ entry ∈ scored.getLast?, ¬entry.seq < 0) :
    anchoredPrefix (scored ++ more) (anchorOf scored) = .ok scored := by
  rcases List.eq_nil_or_concat scored with rfl | ⟨front, entry, rfl⟩
  · exact if_pos genesis_seq.2.1
  · rw [List.concat_eq_append] at scanned plain ⊢
    have anchored : anchorOf (front ++ [entry]) = entry.tip := by simp [anchorOf]
    have positive : ¬entry.tip.seq < 0 := plain entry (by simp)
    rw [anchored, anchoredPrefix, if_neg positive]
    dsimp only
    rw [upTo_last scanned genesis_seq.1, List.getLast?_append]
    simp [LedgerEntry.tip]

/-- An assessment over a prefix of a verified ledger is derived again from its anchor, whatever was written
since, exactly where the last row of the prefix has no negative number. -/
theorem replayed_iff (card : RiskScorecard platform) {intent : PaymentIntent} {policy : SpendPolicy}
    {nowMs : Number} {scored more : List LedgerEntry} {a : Assessment} {expected : Option LedgerHead}
    (verified : (verify platform expected (scored ++ more)).ok = true)
    (assessed : card.assess ⟨intent, policy, scored, nowMs⟩ = .ok a) :
    card.replay intent policy nowMs (scored ++ more) a.anchor = .ok a ↔
      ∀ entry ∈ scored.getLast?, ¬entry.seq < 0 := by
  obtain ⟨tip, scanned, -⟩ := verify_ok_iff.mp verified
  have anchor : a.anchor = anchorOf scored := RiskScorecard.anchor_of_assess assessed
  constructor
  · intro replayed entry last negative
    have anchored : anchorOf scored = entry.tip := by rw [anchorOf, last]
    have below : entry.tip.seq < 0 := negative
    rw [RiskScorecard.replay, anchor, anchored, anchoredPrefix, if_pos below] at replayed
    have emptied : a.anchor = genesis := RiskScorecard.anchor_of_assess replayed
    have first : entry.seq = genesis.seq := congrArg LedgerTip.seq (anchored.symm.trans (anchor.symm.trans emptied))
    have above := (scan_ascending scanned genesis_seq.1).1 entry (List.mem_append_left _ (List.mem_of_getLast? last))
    rw [first] at above
    exact genesis_seq.2.2 above
  · intro plain
    rw [RiskScorecard.replay, anchor, anchoredPrefix_own scanned plain]
    exact assessed

namespace Replay

/-- A scorecard with one signal, for a merchant never seen. -/
def config : RiskScorecardConfig :=
  ⟨86400000, 5, 20, none, ⟨some 10, none, none, none, none, none, none, none⟩⟩

def configText : JsString :=
  "\x7b\"denyAt\":20,\"lookbackMs\":86400000,\"signals\":\x7b\"FIRST_SEEN_MERCHANT\":\x7b\"weight\":10\x7d\x7d,\"stepUpAt\":5\x7d"

theorem config_sound : violationsOf config = [] ∧ (canonicalJson config.object).toOption = some configText := by
  decide +kernel

def card : RiskScorecard Sample.platform where
  config := config
  admitted := config_sound.1
  configHash := Sample.platform.sha256Hex (configHashDomain ++ configText)
  hashed := by rw [of_toOption config_sound.2]; rfl

/-- A row with its own hash. -/
def sealed (seq : Number) (prevHash : JsString) : LedgerEntry :=
  let row : LedgerEntry := ⟨⟨"2026-01-01T00:00:00.000Z", .policyUpdated, ⟨none, none⟩, .null⟩, seq, prevHash, []⟩
  { row with hash := (entryHash Sample.platform row).toOption.getD [] }

def first : LedgerEntry := sealed 0 genesisHash
def second : LedgerEntry := sealed 1 first.hash

/-- A first row whose number lies between those of an empty ledger and of its first row. -/
def half : LedgerEntry := sealed (Number.round (-1 / 2)) genesisHash

def scored (entries : List LedgerEntry) : RiskAssessInput :=
  ⟨Sample.intent "i-1", Sample.policy, entries, 1780000000000⟩

theorem chains : (verify Sample.platform none ([first] ++ [second])).ok = true ∧ ¬first.seq < 0 ∧
    (verify Sample.platform none [half]).ok = true ∧ half.seq < 0 ∧ genesis.seq < half.seq ∧
    (card.assess (scored [first])).toOption.isSome ∧ (card.assess (scored [half])).toOption.isSome := by
  decide +kernel

theorem assessed_of_isSome {input : RiskAssessInput} (found : (card.assess input).toOption.isSome) :
    ∃ a, card.assess input = .ok a := by
  obtain ⟨a, assessed⟩ := Option.isSome_iff_exists.mp found
  exact ⟨a, of_toOption assessed⟩

theorem first_replayed : ∃ a, card.assess (scored [first]) = .ok a ∧
    card.replay (Sample.intent "i-1") Sample.policy 1780000000000 ([first] ++ [second]) a.anchor = .ok a := by
  obtain ⟨verified, plain, -, -, -, found, -⟩ := chains
  obtain ⟨a, assessed⟩ := assessed_of_isSome found
  refine ⟨a, assessed, (replayed_iff card verified assessed).mpr fun entry last => ?_⟩
  cases last
  exact plain

/-- The assessment over a row numbered below zero is not derived again from its anchor. -/
theorem half_not_replayed : (verify Sample.platform none [half]).ok = true ∧
    ∃ a, card.assess (scored [half]) = .ok a ∧
      card.replay (Sample.intent "i-1") Sample.policy 1780000000000 [half] a.anchor ≠ .ok a := by
  obtain ⟨-, -, verified, negative, above, -, found⟩ := chains
  obtain ⟨a, assessed⟩ := assessed_of_isSome found
  refine ⟨verified, a, assessed, fun replayed => ?_⟩
  have anchor : a.anchor = half.tip := RiskScorecard.anchor_of_assess assessed
  have below : half.tip.seq < 0 := negative
  rw [RiskScorecard.replay, anchor, anchoredPrefix, if_pos below] at replayed
  have emptied : a.anchor = genesis := RiskScorecard.anchor_of_assess replayed
  have same : half.seq = genesis.seq := congrArg LedgerTip.seq (anchor.symm.trans emptied)
  rw [same] at above
  exact Number.not_le_of_lt above (Number.le_of_lt above)

end Replay
end Vaduno.Risk
