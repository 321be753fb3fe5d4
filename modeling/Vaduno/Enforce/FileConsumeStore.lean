import Vaduno.Enforce.ConsumeStore
import Vaduno.Enforce.FileSpendLimiter
import Vaduno.Sample

/-! The consume store over a file, and what both file stores come to: closed and opened again between
any two calls, they answer as the stores in memory do. -/
namespace Vaduno.Enforce
open Ecma

inductive ConsumeOp
  | claim (claim : UseClaim) (maxUses : JsValue)
  | settle (mandateId useKey : JsString) (outcome : StoredOutcome)
  | get (mandateId useKey : JsString)
  | countClaims (mandateId : JsString)
  | pruneMandates (mandateIds : List JsString)

inductive ConsumeAnswer
  | claimed (result : ClaimResult)
  | settled
  | found (claim : Option UseClaim)
  | counted (n : ℕ)
  | removed (n : ℕ)
  deriving DecidableEq

/-! ### Claims in the file -/

def outcomeText : OutcomeStatus → JsString
  | .executed => "executed"
  | .failed => "failed"

def outcomeProps (o : StoredOutcome) : Entries :=
  let terminal : Entries := [("status", .string (outcomeText o.status)), ("settledAt", .string o.settledAt)]
  let error : Entries := o.error.toList.map fun message => ("error", .string message)
  terminal ++ error

def statusText : ClaimStatus → JsString
  | .pending => "pending"
  | .settled => "settled"

def claimProps (c : UseClaim) : Entries :=
  let claim : Entries := [
    ("mandateId", .string c.mandateId),
    ("useKey", .string c.useKey),
    ("intentDigest", .string c.intentDigest),
    ("claimedAt", .string c.claimedAt),
    ("status", .string (statusText c.status))]
  let outcome : Entries := c.outcome.toList.map fun o => ("outcome", .object (outcomeProps o))
  claim ++ outcome

def outcomeOf (v : JsonValue) : StoredOutcome where
  status := if JsonValue.text (v.get "status") = "executed" then .executed else .failed
  settledAt := JsonValue.text (v.get "settledAt")
  error := JsonValue.optionalText (v.get "error")

/-- An entry as the calls look at it; only the store writes the file, and it writes claims. -/
def claimOf (v : JsonValue) : UseClaim where
  mandateId := JsonValue.text (v.get "mandateId")
  useKey := JsonValue.text (v.get "useKey")
  intentDigest := JsonValue.text (v.get "intentDigest")
  claimedAt := JsonValue.text (v.get "claimedAt")
  status := if JsonValue.text (v.get "status") = "settled" then .settled else .pending
  outcome := (v.get "outcome").map outcomeOf

def claims : Layout UseClaim where
  name := "claims"
  key c := claimKey c.mandateId c.useKey
  value := claimProps

/-! ### The store -/

section Stores
variable (platform : Platform)

/-- What the file holds; `none` where there is none. -/
abbrev FileConsumeStore := Option JsString

namespace FileConsumeStore
variable (unreadable : Thrown) (file : FileConsumeStore)

def load : Throwing Entries := loadEntries unreadable claims.name file

def save (data : Entries) : FileConsumeStore := some (fileText [(claims.name, data)])

def countFor (data : Entries) (mandateId : JsString) : ℕ :=
  data.values.countP fun v => (claimOf v).mandateId = mandateId

def claim (c : UseClaim) (maxUses : JsValue) : Throwing ConsumeAnswer × FileConsumeStore :=
  match file.load unreadable with
  | .error thrown => (.error thrown, file)
  | .ok data =>
    let k := claimKey c.mandateId c.useKey
    match data.find k with
    | some existing => (.ok (.claimed (.duplicate (claimOf existing))), file)
    | none =>
      let used := countFor data c.mandateId
      match platform.reaches (used : ℤ) maxUses with
      | .error thrown => (.error thrown, file)
      | .ok true => (.ok (.claimed (.exhausted used)), file)
      | .ok false => (.ok (.claimed (.winner (used + 1))),
          save (defineProp data k (.object (claimProps { c with status := .pending }))))

def settle (mandateId useKey : JsString) (outcome : StoredOutcome) :
    Throwing ConsumeAnswer × FileConsumeStore :=
  match file.load unreadable with
  | .error thrown => (.error thrown, file)
  | .ok data =>
    let k := claimKey mandateId useKey
    match data.find k with
    | none => (.ok .settled, file)
    | some existing =>
      if (claimOf existing).status = .settled then (.ok .settled, file)
      else (.ok .settled, save (defineProp data k
        ((existing.withProp "status" (.string "settled")).withProp "outcome"
          (.object (outcomeProps outcome)))))

def get (mandateId useKey : JsString) : Throwing ConsumeAnswer := do
  let data ← file.load unreadable
  return .found ((data.find (claimKey mandateId useKey)).map claimOf)

def countClaims (mandateId : JsString) : Throwing ConsumeAnswer := do
  let data ← file.load unreadable
  return .counted (countFor data mandateId)

def pruneMandates (mandateIds : List JsString) : Throwing ConsumeAnswer × FileConsumeStore :=
  match file.load unreadable with
  | .error thrown => (.error thrown, file)
  | .ok data =>
    let dead := data.inOrder.filter fun e => decide ((claimOf e.2).mandateId ∈ mandateIds)
    (.ok (.removed dead.length),
      if 0 < dead.length then save (dead.foldl (fun data e => data.delete e.1) data) else file)

def step : ConsumeOp → Throwing ConsumeAnswer × FileConsumeStore
  | .claim c maxUses => file.claim platform unreadable c maxUses
  | .settle mandateId useKey outcome => file.settle unreadable mandateId useKey outcome
  | .get mandateId useKey => (file.get unreadable mandateId useKey, file)
  | .countClaims mandateId => (file.countClaims unreadable mandateId, file)
  | .pruneMandates mandateIds => file.pruneMandates unreadable mandateIds

end FileConsumeStore

/-- The claims of mandates that are over. -/
def ClaimTable.pruneMandates (table : ClaimTable claimKey) (mandateIds : List JsString) :
    ClaimTable claimKey where
  rows := table.rows.filter fun c => !decide (c.mandateId ∈ mandateIds)
  distinct := table.distinct.sublist (List.filter_sublist.map _)

/-- One call on the store in memory. -/
def memoryStep (table : ClaimTable claimKey) : ConsumeOp → Throwing ConsumeAnswer × ClaimTable claimKey
  | .claim c maxUses =>
    let answered := (memoryConsumeStore platform).claim table c maxUses
    (answered.1.map .claimed, answered.2)
  | .settle mandateId useKey outcome =>
    (.ok .settled, (memoryConsumeStore platform).settle table mandateId useKey outcome)
  | .get mandateId useKey => (.ok (.found ((memoryConsumeStore platform).get table mandateId useKey)), table)
  | .countClaims mandateId =>
    (.ok (.counted ((memoryConsumeStore platform).countClaims table mandateId)), table)
  | .pruneMandates mandateIds =>
    (.ok (.removed (table.rows.countP fun c => decide (c.mandateId ∈ mandateIds))),
      table.pruneMandates mandateIds)

end Stores

/-! ### Claims in and out -/

theorem outcomeOf_props (o : StoredOutcome) : outcomeOf (.object (outcomeProps o)) = o := by
  obtain ⟨status, settledAt, error⟩ := o
  cases error with
  | none => cases status <;> rfl
  | some message => cases status <;> rfl

theorem claimOf_props (c : UseClaim) : claimOf (.object (claimProps c)) = c := by
  obtain ⟨mandateId, useKey, intentDigest, claimedAt, status, outcome⟩ := c
  cases outcome with
  | none => cases status <;> rfl
  | some o =>
    have read := outcomeOf_props o
    cases status
    · exact congrArg (fun o => UseClaim.mk mandateId useKey intentDigest claimedAt .pending (some o)) read
    · exact congrArg (fun o => UseClaim.mk mandateId useKey intentDigest claimedAt .settled (some o)) read

theorem withProp_settled (c : UseClaim) (outcome : StoredOutcome) :
    ((JsonValue.object (claimProps c)).withProp "status" (.string "settled")).withProp "outcome"
        (.object (outcomeProps outcome)) =
      .object (claimProps { c with status := .settled, outcome := some outcome }) := by
  obtain ⟨mandateId, useKey, intentDigest, claimedAt, status, earlier⟩ := c
  cases earlier with
  | none => rfl
  | some o => rfl

theorem faithful_outcome (o : StoredOutcome) : (JsonValue.object (outcomeProps o)).Faithful := by
  refine .object (faithful_props fun p member => ?_) ?_
  · rcases List.mem_append.mp member with member | member
    · simp only [List.mem_cons, List.not_mem_nil, or_false] at member
      rcases member with rfl | rfl
      · exact .string _
      · exact .string _
    · obtain ⟨message, -, rfl⟩ := List.mem_map.mp member
      exact .string message
  · exact @distinct_optional _ _ [encode "status", encode "settledAt"] _ _ rfl (by decide) o.error

theorem faithful_claim (c : UseClaim) : (JsonValue.object (claimProps c)).Faithful := by
  refine .object (faithful_props fun p member => ?_) ?_
  · rcases List.mem_append.mp member with member | member
    · simp only [List.mem_cons, List.not_mem_nil, or_false] at member
      rcases member with rfl | rfl | rfl | rfl | rfl
      · exact .string _
      · exact .string _
      · exact .string _
      · exact .string _
      · exact .string _
    · obtain ⟨o, -, rfl⟩ := List.mem_map.mp member
      exact faithful_outcome o
  · exact @distinct_optional _ _ [encode "mandateId", encode "useKey", encode "intentDigest",
      encode "claimedAt", encode "status"] _ _ rfl (by decide) c.outcome

/-! ### The file against the table in memory -/

section Refinement
variable {platform : Platform} {file : FileConsumeStore} {table : ClaimTable claimKey}
  (holds : claims.Holds file table.rows) (unreadable : Thrown)
include holds

theorem load_claims : ∃ order : List UseClaim, order.Perm table.rows ∧
    file.load unreadable = .ok (order.map claims.entry) :=
  holds.load table.distinct (fun c _ => faithful_claim c) unreadable

omit holds in
theorem find_claim {order : List UseClaim} (perm : order.Perm table.rows) (mandateId useKey : JsString) :
    Entries.find (order.map claims.entry) (claimKey mandateId useKey) =
      (table.find (claimKey mandateId useKey)).map fun c => .object (claimProps c) :=
  claims.find_entry perm table.distinct _

omit holds in
theorem countFor_claims {order : List UseClaim} (perm : order.Perm table.rows) (mandateId : JsString) :
    FileConsumeStore.countFor (order.map claims.entry) mandateId = table.countClaims mandateId := by
  rw [FileConsumeStore.countFor, Entries.values, Layout.inOrder_entry, List.map_map, List.countP_map,
    ((ownOrder_perm claims.key order).trans perm).countP_eq]
  refine List.countP_congr fun c _ => ?_
  have read : claimOf ((Prod.snd ∘ claims.entry) c) = c := claimOf_props c
  rw [Function.comp_apply, read]

theorem claim_alike (c : UseClaim) (maxUses : JsValue) :
    (file.claim platform unreadable c maxUses).1 =
        (ClaimTable.claim platform table c maxUses).1.map .claimed ∧
      claims.Holds (file.claim platform unreadable c maxUses).2
        (ClaimTable.claim platform table c maxUses).2.rows := by
  obtain ⟨order, perm, loaded⟩ := load_claims holds unreadable
  have found := find_claim perm c.mandateId c.useKey
  unfold ClaimTable.claim
  split
  · rename_i existing held
    rw [held, Option.map_some] at found
    unfold FileConsumeStore.claim
    rw [loaded]
    dsimp only
    rw [found]
    dsimp only
    rw [claimOf_props]
    exact ⟨rfl, holds⟩
  · rename_i free
    rw [free, Option.map_none] at found
    unfold FileConsumeStore.claim
    rw [loaded]
    dsimp only
    rw [found]
    dsimp only
    rw [countFor_claims perm]
    cases reached : platform.reaches (table.countClaims c.mandateId : ℤ) maxUses with
    | error thrown => exact ⟨rfl, holds⟩
    | ok full =>
      cases full with
      | true => exact ⟨rfl, holds⟩
      | false =>
        have added : defineProp (order.map claims.entry) (claimKey c.mandateId c.useKey)
            (.object (claimProps { c with status := .pending })) =
              (order ++ [{ c with status := .pending }]).map claims.entry :=
          @Layout.define_fresh _ claims _ _ perm { c with status := .pending }
            (Keyed.find_eq_none.mp free)
        rw [added]
        exact ⟨rfl, Layout.holds_fileText (perm.append_right _)⟩

theorem settle_alike (mandateId useKey : JsString) (outcome : StoredOutcome) :
    (file.settle unreadable mandateId useKey outcome).1 = .ok .settled ∧
      claims.Holds (file.settle unreadable mandateId useKey outcome).2
        (table.settle mandateId useKey outcome).rows := by
  obtain ⟨order, perm, loaded⟩ := load_claims holds unreadable
  have found := find_claim perm mandateId useKey
  unfold FileConsumeStore.settle
  rw [loaded]
  dsimp only
  cases held : table.find (claimKey mandateId useKey) with
  | none =>
    rw [held, Option.map_none] at found
    rw [found]
    have kept : (table.settle mandateId useKey outcome).rows = table.rows :=
      (List.map_congr_left fun c member => if_neg (Keyed.find_eq_none.mp held c member)).trans
        (List.map_id _)
    exact ⟨rfl, kept ▸ holds⟩
  | some c =>
    rw [held, Option.map_some] at found
    obtain ⟨member, same⟩ := Keyed.find_eq_some.mp held
    rw [found]
    dsimp only
    rw [claimOf_props]
    by_cases ended : c.status = .settled
    · have kept : (table.settle mandateId useKey outcome).rows = table.rows := by
        refine (List.map_congr_left fun q other => ?_).trans (List.map_id _)
        split_ifs with chosen
        · obtain rfl := List.inj_on_of_nodup_map table.distinct other member (chosen.trans same.symm)
          exact if_pos ended
        · rfl
      rw [if_pos ended]
      exact ⟨rfl, kept ▸ holds⟩
    · have keeps : claims.key (c.settle outcome) = claims.key c :=
        congrArg₂ claimKey (UseClaim.settle_pair outcome c).1 (UseClaim.settle_pair outcome c).2
      have settled := @Layout.define_known _ claims _ _ perm table.distinct c (UseClaim.settle outcome)
        member keeps
      have first : c.settle outcome = { c with status := .settled, outcome := some outcome } :=
        if_neg ended
      have rows : (table.settle mandateId useKey outcome).rows = table.rows.map fun q =>
          if claims.key q = claims.key c then q.settle outcome else q := by
        rw [show claims.key c = claimKey mandateId useKey from same]
        rfl
      rw [first] at settled
      rw [if_neg ended, withProp_settled, ← same, rows]
      refine ⟨rfl, ?_⟩
      change claims.Holds (FileConsumeStore.save (defineProp _ (claims.key c) _)) _
      rw [show claimProps _ = claims.value _ from rfl, settled]
      exact Layout.holds_fileText (perm.map _)

theorem prune_alike (mandateIds : List JsString) :
    (file.pruneMandates unreadable mandateIds).1 =
        .ok (.removed (table.rows.countP fun c => decide (c.mandateId ∈ mandateIds))) ∧
      claims.Holds (file.pruneMandates unreadable mandateIds).2
        (table.pruneMandates mandateIds).rows := by
  obtain ⟨order, perm, loaded⟩ := load_claims holds unreadable
  have sorted := (ownOrder_perm claims.key order).trans perm
  have dead : (Entries.inOrder (order.map claims.entry)).filter
      (fun e => decide ((claimOf e.2).mandateId ∈ mandateIds)) =
        ((ownOrder claims.key order).filter fun c => decide (c.mandateId ∈ mandateIds)).map
          claims.entry := by
    rw [Layout.inOrder_entry, List.filter_map]
    refine congrArg _ (List.filter_congr fun c _ => ?_)
    rw [Function.comp_apply]
    exact congrArg (fun c : UseClaim => decide (c.mandateId ∈ mandateIds)) (claimOf_props c)
  unfold FileConsumeStore.pruneMandates
  rw [loaded]
  dsimp only
  rw [dead, List.length_map, ← List.countP_eq_length_filter, sorted.countP_eq]
  refine ⟨rfl, ?_⟩
  split_ifs with some
  · rw [claims.delete_rows perm table.distinct]
    exact Layout.holds_fileText (perm.filter _)
  · have kept : (table.pruneMandates mandateIds).rows = table.rows := by
      refine List.filter_eq_self.mpr fun c member => ?_
      have none := List.countP_eq_zero.mp (Nat.eq_zero_of_not_pos some) c member
      simpa using none
    exact kept ▸ holds

/-- One call is answered alike, and leaves the file with the claims of the table. -/
theorem consume_alike (op : ConsumeOp) :
    (memoryStep platform table op).1 = (file.step platform unreadable op).1 ∧
      claims.Holds (file.step platform unreadable op).2 (memoryStep platform table op).2.rows := by
  cases op with
  | claim c maxUses =>
    obtain ⟨answers, left⟩ := claim_alike holds unreadable c maxUses
    exact ⟨answers.symm, left⟩
  | settle mandateId useKey outcome =>
    obtain ⟨answers, left⟩ := settle_alike holds unreadable mandateId useKey outcome
    exact ⟨answers.symm, left⟩
  | get mandateId useKey =>
    obtain ⟨order, perm, loaded⟩ := load_claims holds unreadable
    refine ⟨?_, holds⟩
    change _ = (file.load unreadable).bind _
    rw [loaded]
    have read : (Entries.find (order.map claims.entry) (claimKey mandateId useKey)).map claimOf =
        table.find (claimKey mandateId useKey) := by
      rw [find_claim perm, Option.map_map]
      exact (Option.map_congr fun c _ => claimOf_props c).trans Option.map_id'
    exact congrArg (fun c => Except.ok (ConsumeAnswer.found c)) read.symm
  | countClaims mandateId =>
    obtain ⟨order, perm, loaded⟩ := load_claims holds unreadable
    refine ⟨?_, holds⟩
    change _ = (file.load unreadable).bind _
    rw [loaded]
    exact congrArg (fun n => Except.ok (ConsumeAnswer.counted n)) (countFor_claims perm mandateId).symm
  | pruneMandates mandateIds =>
    obtain ⟨answers, left⟩ := prune_alike holds unreadable mandateIds
    exact ⟨answers.symm, left⟩

end Refinement

/-! ### Whole runs -/

/-- The calls for which the file is good, asked of the limiter in memory in the state they meet. -/
def FileFitsMaps (dateParse : JsString → Number) (m : MapLimiter) (op : LimiterOp) : Prop :=
  FileFits dateParse (fun id => (m.limiter.byId id).isSome) m.limiter.recordsAt op

section Runs
variable (platform : Platform) (unreadable : Thrown) (dateParse : JsString → Number)

def limiterInMemory : List LimiterOp → List (Throwing LimiterAnswer) × MapLimiter :=
  Machine.play (MapLimiter.step dateParse) .empty

def limiterInFile : List LimiterOp → List (Throwing LimiterAnswer) × FileSpendLimiter :=
  Machine.play (FileSpendLimiter.step unreadable dateParse) none

def consumeInMemory : List ConsumeOp → List (Throwing ConsumeAnswer) × ClaimTable claimKey :=
  Machine.play (memoryStep platform) Keyed.empty

def consumeInFile : List ConsumeOp → List (Throwing ConsumeAnswer) × FileConsumeStore :=
  Machine.play (FileConsumeStore.step platform unreadable) none

/-- The maps and the file hold the records of one list. -/
def Filed (m : MapLimiter) (file : FileSpendLimiter) : Prop := ∃ b, m.Mirrors b ∧ FileStores file b

theorem Filed.step {m : MapLimiter} {file : FileSpendLimiter} {op : LimiterOp} (filed : Filed m file)
    (fits : FileFitsMaps dateParse m op) :
    (m.step dateParse op).1 = (file.step unreadable dateParse op).1 ∧
      Filed (m.step dateParse op).2 (file.step unreadable dateParse op).2 := by
  obtain ⟨b, mirrors, stores⟩ := filed
  obtain ⟨same, mirrored⟩ := MapLimiter.step_mirrors dateParse m b mirrors op
  have known : (fun id => (m.limiter.byId id).isSome) = fun id => (b.find id).isSome :=
    funext fun id => congrArg Option.isSome (mirrors.byId id)
  rw [FileFitsMaps, known, funext mirrors.recordsAt] at fits
  obtain ⟨alike, stored⟩ := stores.step unreadable dateParse op fits
  exact ⟨same.trans alike.symm, _, mirrored, stored⟩

/-- Over whole runs, of calls that fit for the limiter and of any calls for the consume store, the
stores over files answer as the stores in memory. -/
theorem files_answer_as_memory (ops : List LimiterOp)
    (fits : Machine.Permitted (MapLimiter.step dateParse) (FileFitsMaps dateParse) .empty ops)
    (consumes : List ConsumeOp) :
    (limiterInFile unreadable dateParse ops).1 = (limiterInMemory dateParse ops).1 ∧
      (consumeInFile platform unreadable consumes).1 = (consumeInMemory platform consumes).1 := by
  constructor
  · have start : Filed .empty none := ⟨.empty, MapLimiter.mirrors_empty, fileStores_none⟩
    obtain ⟨answers, -⟩ := Machine.play_alike
      (fun _ _ op filed fits => @Filed.step unreadable dateParse _ _ op filed fits) start fits
    exact (List.forall₂_eq_eq_eq ▸ answers : _ = _).symm
  · have permitted : Machine.Permitted (memoryStep platform) (fun _ _ => True) Keyed.empty consumes :=
      Machine.Permitted.always (fun _ _ => trivial) Keyed.empty consumes
    have start : claims.Holds none (Keyed.empty : ClaimTable claimKey).rows := Layout.holds_none
    obtain ⟨answers, -⟩ := Machine.play_alike
      (R := fun (table : ClaimTable claimKey) file => claims.Holds file table.rows)
      (fun _ _ op holds _ => consume_alike holds unreadable op) start permitted
    exact (List.forall₂_eq_eq_eq ▸ answers : _ = _).symm

end Runs

namespace FileSample

def request (id : JsString) (amountMinor nowMs : Number) : ReserveRequest where
  reservationId := id
  scope := "p-1"
  currency := "USD"
  amountMinor := amountMinor
  nowMs := nowMs
  windows := [⟨encode "PER_DAY_LIMIT_EXCEEDED", .number 86400000, .number 1000, .undefined, .undefined⟩]
  merchantKey := none

/-- Two spends of a day, the first at a reading of the clock. -/
def spends (nowMs : Number) : List LimiterOp :=
  [.reserve (request "__proto__" 100 nowMs), .reserve (request "7" 950 1780000000000)]

def dateParse (_ : JsString) : Number := .nan

def claimed (useKey : JsString) : UseClaim where
  mandateId := "m-1"
  useKey := useKey
  intentDigest := "d-1"
  claimedAt := "2026-05-28T20:26:40.000Z"
  status := .pending
  outcome := none

def uses : List ConsumeOp :=
  [.claim (claimed "i-1") (.number 1), .settle "m-1" "i-1" ⟨.failed, "2026-05-28T20:26:41.000Z", some "declined"⟩,
    .claim (claimed "i-2") (.number 1), .get "m-1" "i-1"]

def first : ReserveRequest := request "__proto__" 100 1780000000000

theorem checked : (1780000000000 : Number).isFinite = true ∧
    (∀ w ∈ first.windows, Rolling.total (Counted w none (1780000000000 - checkedNumber w.windowMs))
      SpendRecord.amount [] < 2 ^ 53) ∧
    (MapLimiter.empty.step dateParse (.reserve first)).2.limiter.recordsAt
      (scopeKey (encode "p-1") (encode "USD")) = [MemorySpendLimiter.record first] ∧
    (∀ w ∈ first.windows, Rolling.total (Counted w none (1780000000000 - checkedNumber w.windowMs))
      SpendRecord.amount [MemorySpendLimiter.record first] < 2 ^ 53) := by
  decide +kernel

theorem fits : Machine.Permitted (MapLimiter.step dateParse) (FileFitsMaps dateParse) .empty
    (spends 1780000000000) := by
  obtain ⟨finite, nothing, held, one⟩ := checked
  refine ⟨fun _ => ⟨fun _ => finite, fun _ w member _ => nothing w member⟩,
    fun _ => ⟨fun _ => finite, fun _ w member _ => ?_⟩, trivial⟩
  exact lt_of_eq_of_lt (congrArg (Rolling.total _ SpendRecord.amount) held) (one w member)

end FileSample

theorem spends_and_uses_alike :
    (limiterInFile .typeError FileSample.dateParse (FileSample.spends 1780000000000)).1 =
        (limiterInMemory FileSample.dateParse (FileSample.spends 1780000000000)).1 ∧
      (consumeInFile Vaduno.Sample.platform .typeError FileSample.uses).1 =
        (consumeInMemory Vaduno.Sample.platform FileSample.uses).1 :=
  files_answer_as_memory Vaduno.Sample.platform .typeError FileSample.dateParse _ FileSample.fits
    FileSample.uses

/-- A clock that gives no number: the file keeps the spend without its time and lets the next one pass,
where memory counts it in every window. -/
theorem spend_without_time_forgotten :
    (limiterInFile .typeError FileSample.dateParse (FileSample.spends .nan)).1.map Except.toOption =
        [some (.reserved (.ok "__proto__" false none)), some (.reserved (.ok "7" false none))] ∧
      (limiterInMemory FileSample.dateParse (FileSample.spends .nan)).1.map Except.toOption =
        [some (.reserved (.ok "__proto__" false none)), some (.reserved (.refused ⟨"PER_DAY_LIMIT_EXCEEDED",
          "spent 100 in window; +950 would exceed limit 1000"⟩))] := by
  decide +kernel

end Vaduno.Enforce
