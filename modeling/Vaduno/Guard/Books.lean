import Vaduno.Guard.Booking

/-! The books of a guard: the rows in which payments that their callers run are authorized, and those in which they
are settled. In order, they settle an authorization once, and with its own money. -/
namespace Vaduno.Guard
open Ecma Enforce Mandate Policy Ledger Async Program

/-! ### Rows -/

section Rows
variable {intentId : JsString} {success : Bool} {rows before after between : List Entry} {e row : Entry}

/-- A two-phase authorization of this payment. -/
def isAuthorizationOf (intentId : JsString) (e : Entry) : Bool :=
  decide (e.refs.intentId = some intentId) && isAuthorization e

/-- A result of this payment, or only a success. -/
def isResultOf (success : Bool) (intentId : JsString) (e : Entry) : Bool :=
  decide (e.refs.intentId = some intentId) && (decide (e.type = .executionResult) && (!success || isSuccessRow e))

abbrev isSettlementOf : JsString → Entry → Bool := isResultOf true

/-- The rows that are indexed by a payment, as `trailFor` reads them. -/
def trailOf (intentId : JsString) (rows : List Entry) : List Entry :=
  rows.filter fun e => decide (e.refs.intentId = some intentId)

def lastAuthorization (intentId : JsString) (rows : List Entry) : Option Entry :=
  rows.reverse.find? (isAuthorizationOf intentId)

/-- There is a result after the last authorization. -/
def resultSince (success : Bool) (intentId : JsString) (rows : List Entry) : Bool :=
  (rows.reverse.takeWhile fun e => !isAuthorizationOf intentId e).any (isResultOf success intentId)

theorem any_takeWhile_filter (p a q : Entry → Bool) (rows : List Entry) :
    ((rows.filter p).takeWhile fun e => !a e).any q =
      (rows.takeWhile fun e => !(p e && a e)).any fun e => p e && q e := by
  induction rows with
  | nil => rfl
  | cons e rest ih =>
    cases kept : p e with
    | false => simp [kept, ih]
    | true => cases ends : a e <;> simp [kept, ends, ih]

theorem authorizationOf_trailOf : authorizationOf (trailOf intentId rows) = lastAuthorization intentId rows := by
  rw [authorizationOf, trailOf, ← List.filter_reverse, List.find?_filter, lastAuthorization]
  simp only [Bool.decide_and, Bool.decide_eq_true]
  rfl

theorem isRecorded_trailOf : isRecorded (trailOf intentId rows) success = resultSince success intentId rows := by
  rw [isRecorded, sinceAuthorization, List.any_reverse, trailOf, ← List.filter_reverse, any_takeWhile_filter]
  rfl

/-- What a settlement has to append to these rows. -/
def missingRow (intentId : JsString) (outcome : SettleOutcome) (rows : List Entry) : Option (JsValue × JsString) :=
  settlementRow outcome (trailOf intentId rows)

theorem lastAuthorization_concat : lastAuthorization intentId (rows ++ [e]) =
    if isAuthorizationOf intentId e then some e else lastAuthorization intentId rows := by
  rw [lastAuthorization, List.reverse_concat, List.find?_cons]
  cases isAuthorizationOf intentId e <;> rfl

theorem resultSince_concat : resultSince success intentId (rows ++ [e]) =
    (!isAuthorizationOf intentId e && (isResultOf success intentId e || resultSince success intentId rows)) := by
  rw [resultSince, List.reverse_concat, List.takeWhile_cons]
  cases isAuthorizationOf intentId e <;> rfl

/-- Neither an authorization nor a result. -/
def Neutral (type : EntryType) : Prop := type ≠ .executionStarted ∧ type ≠ .executionResult

theorem not_isAuthorizationOf (unstarted : e.type ≠ .executionStarted) : isAuthorizationOf intentId e = false := by
  simp [isAuthorizationOf, isAuthorization, unstarted]

theorem not_isResultOf (resultless : e.type ≠ .executionResult) : isResultOf success intentId e = false := by
  simp [isResultOf, resultless]

theorem not_isAuthorizationOf_of_isResultOf (result : isResultOf success intentId e = true) {other : JsString} :
    isAuthorizationOf other e = false := by
  refine not_isAuthorizationOf ?_
  rw [isResultOf, Bool.and_eq_true, Bool.and_eq_true, decide_eq_true_eq, decide_eq_true_eq] at result
  rw [result.2.1]
  exact EntryType.noConfusion

theorem missingRow_concat {outcome : SettleOutcome} (neutral : Neutral e.type) :
    missingRow intentId outcome (rows ++ [e]) = missingRow intentId outcome rows := by
  rw [missingRow, missingRow, settlementRow, settlementRow]
  simp only [isRecorded_trailOf, authorizationOf_trailOf, resultSince_concat, lastAuthorization_concat,
    not_isAuthorizationOf neutral.1, not_isResultOf neutral.2, Bool.not_false, Bool.true_and, Bool.false_or,
    Bool.false_eq_true, if_false]

theorem lastAuthorization_of_split (authorization : isAuthorizationOf intentId e = true)
    (none : ∀ e ∈ between, isAuthorizationOf intentId e = false) :
    lastAuthorization intentId (before ++ e :: between) = some e := by
  induction between using List.reverseRecOn with
  | nil => rw [lastAuthorization_concat, if_pos authorization]
  | append_singleton between last ih =>
    rw [← List.cons_append, ← List.append_assoc, lastAuthorization_concat, if_neg (by simp [none])]
    exact ih fun e member => none e (List.mem_append_left _ member)

theorem resultSince_of_split (result : isResultOf success intentId e = true)
    (none : ∀ e ∈ between, isAuthorizationOf intentId e = false) :
    resultSince success intentId (before ++ e :: between) = true := by
  induction between using List.reverseRecOn with
  | nil => rw [resultSince_concat, result, not_isAuthorizationOf_of_isResultOf result]; rfl
  | append_singleton between last ih =>
    rw [← List.cons_append, ← List.append_assoc, resultSince_concat, none last (by simp),
      ih fun e member => none e (List.mem_append_left _ member)]
    simp

theorem split_of_resultSince (since : resultSince success intentId rows = true) :
    ∃ before e after, rows = before ++ e :: after ∧ isResultOf success intentId e = true ∧
      ∀ e ∈ after, isAuthorizationOf intentId e = false := by
  induction rows using List.reverseRecOn with
  | nil => cases since
  | append_singleton rows last ih =>
    rw [resultSince_concat, Bool.and_eq_true, Bool.not_eq_true', Bool.or_eq_true] at since
    obtain ⟨none, result | earlier⟩ := since
    · exact ⟨rows, last, [], rfl, result, by simp⟩
    · obtain ⟨before, e, after, rfl, result, others⟩ := ih earlier
      refine ⟨before, e, after ++ [last], by simp, result, fun x member => ?_⟩
      rcases List.mem_append.mp member with member | member
      · exact others x member
      · obtain rfl := List.mem_singleton.mp member
        exact none

end Rows

/-! ### Books in order -/

section Order
variable {intentId : JsString} {rows before : List Entry} {e row : Entry}

/-- The two rows are about the same money. -/
def SameMoney (auth row : Entry) : Prop :=
  ∀ name ∈ [encode "amountMinor", encode "currency", encode "merchantKey"],
    member name auth.data = member name row.data

/-- Between two successes of a payment it was authorized again; and a success is about the money of the authorization
it comes after. -/
structure SettledOnce (rows : List Entry) : Prop where
  once : ∀ {intentId before first between second after}, rows = before ++ first :: between ++ second :: after →
    isSettlementOf intentId first = true → isSettlementOf intentId second = true →
    ∃ auth ∈ between, isAuthorizationOf intentId auth = true
  same : ∀ {intentId before auth between row after}, rows = before ++ auth :: between ++ row :: after →
    isAuthorizationOf intentId auth = true → (∀ e ∈ between, isAuthorizationOf intentId e = false) →
    isSettlementOf intentId row = true → SameMoney auth row

/-- Every authorization of the payment among the earlier rows has a success after it among the later ones. -/
def Followed (intentId : JsString) (earlier later : List Entry) : Prop :=
  ∀ before auth rest, earlier = before ++ auth :: rest → isAuthorizationOf intentId auth = true →
    ∃ between row after, later = before ++ auth :: between ++ row :: after ∧ isSettlementOf intentId row = true

theorem followed_of_resultSince (since : resultSince true intentId rows = true) : Followed intentId rows rows := by
  intro before auth rest split authorization
  obtain ⟨earlier, row, after, same, settlement, none⟩ := split_of_resultSince since
  have other : auth ≠ row := by
    rintro rfl
    rw [not_isAuthorizationOf_of_isResultOf settlement] at authorization
    cases authorization
  rw [split] at same
  rcases List.append_eq_append_iff.mp same with ⟨between, rfl, tail⟩ | ⟨between, rfl, tail⟩
  · cases between with
    | nil => exact absurd (List.cons.inj tail).1 other
    | cons first between =>
      obtain ⟨rfl, rfl⟩ := List.cons.inj tail
      exact ⟨between, row, after, by simp [split], settlement⟩
  · cases between with
    | nil => exact absurd (List.cons.inj tail).1.symm other
    | cons first between =>
      obtain ⟨rfl, rfl⟩ := List.cons.inj tail
      rw [none auth (by simp)] at authorization
      cases authorization

theorem Followed.later {early later : List Entry} (followed : Followed intentId early rows)
    (grown : rows <+: later) : Followed intentId early later := by
  intro before auth rest split authorization
  obtain ⟨between, row, after, rfl, settlement⟩ := followed before auth rest split authorization
  obtain ⟨more, rfl⟩ := grown
  exact ⟨between, row, after ++ more, by simp, settlement⟩

theorem Followed.earlier {early later : List Entry} (followed : Followed intentId rows later)
    (grown : early <+: rows) : Followed intentId early later := by
  rintro before auth rest rfl authorization
  obtain ⟨more, rfl⟩ := grown
  exact followed before auth (rest ++ more) (by simp) authorization

/-- What an authorization has to record for its settlement to be counted. -/
structure Economic (data : JsValue) : Prop where
  amountMinor : ∃ n : Number, member "amountMinor" data = .number n ∧ n.isSafeInteger = true
  text : ∀ name ∈ [encode "currency", encode "merchantId", encode "merchantKey", encode "rail"],
    ∃ s, member name data = .string s

/-- What is recorded of a payment is enough. -/
theorem economic_authorizationData {platform : Platform} {intent : PaymentIntent} (counts : amountValid intent = true) :
    Economic (authorizationData platform intent) where
  amountMinor := by
    rw [amountValid, Bool.and_eq_true] at counts
    exact ⟨_, rfl, counts.1⟩
  text := by
    simp only [List.forall_mem_cons]
    exact ⟨⟨_, rfl⟩, ⟨_, rfl⟩, ⟨_, rfl⟩, ⟨_, rfl⟩, List.forall_mem_nil _⟩

/-- A settlement repeats the money of an authorization that recorded enough. -/
theorem sameMoney_settlementData {auth row : Entry} {success : Bool} {error : Option JsString}
    (economic : Economic auth.data) (own : row.data = settlementData success error (some auth)) : SameMoney auth row := by
  obtain ⟨n, amount, safe⟩ := economic.amountMinor
  have text := economic.text
  simp only [List.forall_mem_cons] at text
  obtain ⟨⟨currency, hasCurrency⟩, ⟨merchantId, hasMerchantId⟩, ⟨merchantKey, hasMerchantKey⟩, ⟨rail, hasRail⟩, -⟩ := text
  have recovered : recoveredMembers auth = (encode "amountMinor", .number n) :: (encode "currency", .string currency) ::
      (encode "merchantId", .string merchantId) :: (encode "rail", .string rail) ::
      ((encode "merchantKey", .string merchantKey) :: optionalMember "network" (textOf (member "network" auth.data))) := by
    simp only [recoveredMembers, amount, hasCurrency, hasMerchantId, hasRail, hasMerchantKey, safe, if_true]
    rfl
  rw [SameMoney, own, settlementData, Option.map_some, Option.getD_some, recovered]
  simp only [List.forall_mem_cons, amount, hasCurrency, hasMerchantKey]
  cases error <;> exact ⟨rfl, rfl, rfl, List.forall_mem_nil _⟩

theorem isSuccessRow_settlementData {success : Bool} {error : Option JsString} {authorization : Option Entry}
    (own : row.data = settlementData success error authorization) : isSuccessRow row = success := by
  rw [isSuccessRow, own]
  rfl

/-- A row that keeps books in order. -/
structure Proper (before : List Entry) (e : Entry) : Prop where
  authorization : isAuthorization e = true → Economic e.data
  settlement : ∀ intentId, isSettlementOf intentId e = true → resultSince true intentId before = false ∧
    ∀ auth, lastAuthorization intentId before = some auth → SameMoney auth e

/-- Every row was proper when it was appended. -/
def Posted (rows : List Entry) : Prop := ∀ before e, before ++ [e] <+: rows → Proper before e

theorem posted_nil : Posted [] := by
  intro before e first
  simp at first

theorem Posted.concat (posted : Posted rows) (proper : Proper rows e) : Posted (rows ++ [e]) := by
  intro before last first
  rcases List.prefix_concat_iff.mp first with same | earlier
  · obtain ⟨rfl, last⟩ := List.append_inj' same rfl
    cases last
    exact proper
  · exact posted before last earlier

theorem Posted.settledOnce (posted : Posted rows) : SettledOnce rows where
  once := by
    rintro intentId before first between second after rfl settled again
    by_contra none
    have proper := posted (before ++ first :: between) second ⟨after, by simp⟩
    have since : resultSince true intentId (before ++ first :: between) = true :=
      resultSince_of_split settled fun e member => by
        by_contra authorization
        exact none ⟨e, member, by simpa using authorization⟩
    rw [(proper.settlement intentId again).1] at since
    cases since
  same := by
    rintro intentId before auth between row after rfl authorization none settlement
    have proper := posted (before ++ auth :: between) row ⟨after, by simp⟩
    exact (proper.settlement intentId settlement).2 auth (lastAuthorization_of_split authorization none)

theorem Posted.economic (posted : Posted rows) (known : lastAuthorization intentId rows = some e) :
    Economic e.data := by
  have found := List.mem_of_find?_eq_some known
  have authorization := List.find?_some known
  rw [List.mem_reverse] at found
  obtain ⟨before, after, rfl⟩ := List.append_of_mem found
  rw [isAuthorizationOf, Bool.and_eq_true] at authorization
  exact (posted before e ⟨after, by simp⟩).authorization authorization.2

/-- A row that neither authorizes nor settles is proper anywhere. -/
theorem proper_neutral (neutral : Neutral e.type) : Proper rows e where
  authorization authorization := by
    rw [isAuthorization, decide_eq_false neutral.1] at authorization
    cases authorization
  settlement intentId settlement := by
    rw [isSettlementOf, not_isResultOf neutral.2] at settlement
    cases settlement

theorem proper_authorization {platform : Platform} {intent : PaymentIntent} (counts : amountValid intent = true)
    (type : e.type = .executionStarted) (own : e.data = authorizationData platform intent) : Proper rows e where
  authorization _ := own ▸ economic_authorizationData counts
  settlement intentId settlement := by
    rw [isSettlementOf, not_isResultOf (by rw [type]; exact EntryType.noConfusion)] at settlement
    cases settlement

theorem missingRow_some {outcome : SettleOutcome} {data : JsValue} {agentId : JsString}
    (missing : missingRow intentId outcome rows = some (data, agentId)) :
    resultSince (decide (outcome.status = .executed)) intentId rows = false ∧
      data = settlementData (decide (outcome.status = .executed)) outcome.error (lastAuthorization intentId rows) := by
  rw [missingRow, settlementRow] at missing
  simp only [isRecorded_trailOf, authorizationOf_trailOf] at missing
  split_ifs at missing with recorded
  obtain ⟨rfl, -⟩ := Prod.mk.inj (Option.some.inj missing)
  exact ⟨Bool.eq_false_iff.mpr recorded, rfl⟩

theorem resultSince_of_missingRow {outcome : SettleOutcome} (executed : outcome.status = .executed)
    (missing : missingRow intentId outcome rows = none) : resultSince true intentId rows = true := by
  rw [missingRow, settlementRow] at missing
  simp only [isRecorded_trailOf, executed, decide_true] at missing
  split_ifs at missing with recorded
  exact recorded

section Settlement
variable {outcome : SettleOutcome} {agentId : JsString}
  (missing : missingRow intentId outcome rows = some (e.data, agentId)) (type : e.type = .executionResult)
  (index : e.refs.intentId = some intentId)
include missing type index

/-- The row that is missing is proper where it is missing. -/
theorem proper_settlement (posted : Posted rows) : Proper rows e where
  authorization authorization := by
    rw [isAuthorization, type] at authorization
    cases authorization
  settlement other settlement := by
    obtain ⟨unrecorded, own⟩ := missingRow_some missing
    rw [isSettlementOf, isResultOf, Bool.and_eq_true, Bool.and_eq_true, index, isSuccessRow_settlementData own,
      decide_eq_true_eq, Bool.not_true, Bool.false_or] at settlement
    obtain ⟨same, -, success⟩ := settlement
    obtain rfl : intentId = other := Option.some.inj same
    rw [success] at unrecorded
    refine ⟨unrecorded, fun auth known => ?_⟩
    rw [known] at own
    exact sameMoney_settlementData (posted.economic known) own

theorem settlement_of_missingRow (executed : outcome.status = .executed) : isSettlementOf intentId e = true := by
  obtain ⟨-, own⟩ := missingRow_some missing
  rw [isSettlementOf, isResultOf, index, type, isSuccessRow_settlementData own]
  simp [executed]

end Settlement
end Order
end Vaduno.Guard
