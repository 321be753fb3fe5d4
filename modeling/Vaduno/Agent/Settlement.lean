import Vaduno.Agent.AgentSdk
import Vaduno.Machine
import Vaduno.Sample

/-! Which authorization each completed call settles, over runs of hook events of any calls in any
order. The map of authorizations in flight is compared with the calls that have been allowed and have
not completed: as long as no two of these have one key, each is settled by its own outcome. -/
namespace Vaduno.Agent
open Ecma Guard

/-- What the operator's `resolve` comes to for a call, and what the guard answers. -/
structure Asked where
  resolved : Throwing (Option PaymentIntent)
  authorized : PaymentIntent → Throwing GuardResult

/-- The events of a call that the host numbers `call`: its `preToolUse` when it is answered, and its
`postToolUse` or `postToolUseFailure`. -/
inductive HookEvent
  | pre (call : ℕ) (input : HookInput) (asked : Asked)
  | completed (call : ℕ) (input : HookInput) (completion : Completion)

inductive HookAnswer
  | pre (output : Throwing PreToolUseOutput)
  | settled (settle : Option SettleCall)

/-- A call that was allowed, the key it is remembered under, and what is remembered. -/
structure Allowance where
  call : ℕ
  key : JsString
  pending : PendingCall
  deriving DecidableEq

/-- The settlement that an outcome makes of an allowance. -/
def Allowance.settle (a : Allowance) (completion : Completion) : SettleCall :=
  settled a.pending.intentId completion.outcome a.pending.mandateId

def HookEvent.call : HookEvent → ℕ
  | .pre call .. | .completed call .. => call

section Hooks
variable (onResolveError : OnResolveError)

def Asked.decision (asked : Asked) (input : HookInput) : Throwing SpendDecision :=
  decideCall onResolveError ⟨input.toolName, input.toolInput⟩ asked.resolved asked.authorized

/-- The binding on one event. -/
def respond (inFlight : InFlight) : HookEvent → HookAnswer × InFlight
  | .pre _ input asked =>
    let answered := preToolUse inFlight input (asked.decision onResolveError input)
    (.pre answered.1, answered.2)
  | .completed _ input (.responded response) =>
    let answered := postToolUse inFlight input response
    (.settled answered.1, answered.2)
  | .completed _ input (.failed error isInterrupt) =>
    let answered := postToolUseFailure inFlight input error isInterrupt
    (.settled answered.1, answered.2)

def HookEvent.allowance : HookEvent → Option Allowance
  | .pre call input asked =>
    match asked.decision onResolveError input with
    | .ok (.allow intentId mandateId) => some ⟨call, correlationKey input, ⟨intentId, mandateId⟩⟩
    | _ => none
  | .completed .. => none

/-! ### Watching a run -/

/-- The events so far with their answers, the latest first. -/
abbrev Transcript := List (HookEvent × HookAnswer)

def allowances (log : Transcript) : List Allowance := log.filterMap fun p => p.1.allowance onResolveError

/-- The calls whose events settled something, with how each ended and what was settled. -/
def settlements (log : Transcript) : List (ℕ × Completion × SettleCall) :=
  log.filterMap fun p =>
    match p with
    | (.completed call _ completion, .settled (some settle)) => some (call, completion, settle)
    | _ => none

/-- A call whose completion came after it had been allowed. -/
def AllowedThenCompleted (log : Transcript) (call : ℕ) : Prop :=
  ∃ later input completion answer earlier,
    log = later ++ (.completed call input completion, answer) :: earlier ∧
      call ∈ (allowances onResolveError earlier).map Allowance.call

structure Watched where
  inFlight : InFlight
  log : Transcript
  /-- The calls that have been allowed and have not completed. -/
  outstanding : List Allowance
  /-- The calls that have completed since they were allowed. -/
  done : List (Allowance × Completion)

def start : Watched := ⟨.empty, [], [], []⟩

def step (s : Watched) (e : HookEvent) : HookAnswer × Watched :=
  let answered := respond onResolveError s.inFlight e
  let log := (e, answered.1) :: s.log
  (answered.1, match e with
    | .pre .. => { s with
        inFlight := answered.2
        log := log
        outstanding := (e.allowance onResolveError).toList ++ s.outstanding }
    | .completed call _ completion => {
        inFlight := answered.2
        log := log
        outstanding := s.outstanding.filter (·.call ≠ call)
        done := ((s.outstanding.filter (·.call = call)).map fun a => (a, completion)) ++ s.done })

/-- The events for which keys tell the calls in flight apart. -/
def Permits (s : Watched) : HookEvent → Prop
  /- each call has one `preToolUse`, and one that is allowed finds no other under its key -/
  | .pre call input asked => (∀ p ∈ s.log, p.1.call ≠ call) ∧
    (((HookEvent.pre call input asked).allowance onResolveError).isSome = true →
      ∀ a ∈ s.outstanding, a.key ≠ correlationKey input)
  /- a completion comes under the key of its own call, and no other in flight has that key -/
  | .completed call input _ => ∀ a ∈ s.outstanding, a.call = call ↔ a.key = correlationKey input

/-- Each allowed call is settled once at most and by its own outcome, on the guard's authorization,
and is settled when it has completed. -/
structure SettledByOwn (log : Transcript) : Prop where
  once : ((settlements log).map Prod.fst).Nodup
  own : ∀ settlement ∈ settlements log, ∃ a ∈ allowances onResolveError log, a.call = settlement.1 ∧
    settlement.2.2 = a.settle settlement.2.1
  /-- An intent is settled as often as it was authorized at most. -/
  counted : ∀ intentId, (settlements log).countP (·.2.2.intentId = intentId) ≤
    (allowances onResolveError log).countP (·.pending.intentId = intentId)
  authorized : ∀ call input asked reason,
    (HookEvent.pre call input asked, HookAnswer.pre (.ok (.decided .allow reason))) ∈ log →
      (∃ intent intentId policyResult mandateId, asked.resolved = .ok (some intent) ∧
        asked.authorized intent = .ok (.authorized intentId policyResult mandateId)) ∨
      ∃ err handler intentId mandateId, asked.resolved = .error err ∧ onResolveError = some handler ∧
        handler err ⟨input.toolName, input.toolInput⟩ = .ok (.allow intentId mandateId)
  complete : ∀ call, AllowedThenCompleted onResolveError log call →
    call ∈ (settlements log).map Prod.fst

end Hooks

/-! ### What a run keeps -/

section Kept
variable {onResolveError : OnResolveError}

theorem allowance_completed {call : ℕ} {input : HookInput} {completion : Completion} :
    (HookEvent.completed call input completion).allowance onResolveError = none := rfl

theorem allowance_some {e : HookEvent} {a : Allowance} (allowed : e.allowance onResolveError = some a) :
    ∃ input asked, e = .pre a.call input asked ∧ a.key = correlationKey input ∧
      asked.decision onResolveError input = .ok (.allow a.pending.intentId a.pending.mandateId) := by
  cases e with
  | completed call input completion => cases allowed
  | pre call input asked =>
    change (match asked.decision onResolveError input with
      | .ok (.allow intentId mandateId) => some ⟨call, correlationKey input, ⟨intentId, mandateId⟩⟩
      | _ => none) = some a at allowed
    split at allowed
    · rename_i decided
      cases allowed
      exact ⟨input, asked, rfl, rfl, decided⟩
    · cases allowed

theorem call_of_allowance {log : Transcript} {a : Allowance}
    (member : a ∈ allowances onResolveError log) : ∃ p ∈ log, p.1.call = a.call := by
  obtain ⟨p, logged, allowed⟩ := List.mem_filterMap.mp member
  obtain ⟨input, asked, event, -, -⟩ := allowance_some allowed
  exact ⟨p, logged, by rw [event]; rfl⟩

/-- What is in flight after a `preToolUse`: the call with its key, if it was allowed. -/
theorem held_pre (m : InFlight) (call : ℕ) (input : HookInput) (asked : Asked) (key : JsString) :
    (respond onResolveError m (.pre call input asked)).2.held key =
      match (HookEvent.pre call input asked).allowance onResolveError with
      | some a => if key = a.key then some a.pending else m.held key
      | none => m.held key := by
  change (preToolUse m input (asked.decision onResolveError input)).2.held key =
    match (match asked.decision onResolveError input with
      | .ok (.allow intentId mandateId) =>
        some (Allowance.mk call (correlationKey input) ⟨intentId, mandateId⟩)
      | _ => none) with
    | some a => if key = a.key then some a.pending else m.held key
    | none => m.held key
  cases asked.decision onResolveError input with
  | error err => rfl
  | ok decision =>
    cases decision with
    | notAPayment => rfl
    | deny code reason => rfl
    | allow intentId mandateId => exact InFlight.held_remember m _ _ key

theorem respond_completed (m : InFlight) (call : ℕ) (input : HookInput) (completion : Completion) :
    respond onResolveError m (.completed call input completion) =
      (.settled (settleTaken m input completion.outcome).1, (settleTaken m input completion.outcome).2) := by
  cases completion with
  | responded response => rfl
  | failed error isInterrupt => rfl

variable (onResolveError)

structure Kept (s : Watched) : Prop where
  moved : (allowances onResolveError s.log).Perm (s.done.map Prod.fst ++ s.outstanding)
  settled : settlements s.log = s.done.map fun p => (p.1.call, p.2, p.1.settle p.2)
  calls : ((allowances onResolveError s.log).map Allowance.call).Nodup
  keys : (s.outstanding.map Allowance.key).Nodup
  held : ∀ key pending, s.inFlight.held key = some pending ↔
    ∃ a ∈ s.outstanding, a.key = key ∧ a.pending = pending
  answered : ∀ p ∈ s.log, ∃ m, p.2 = (respond onResolveError m p.1).1
  complete : ∀ call, AllowedThenCompleted onResolveError s.log call →
    call ∉ s.outstanding.map Allowance.call

variable {onResolveError}

theorem kept_start : Kept onResolveError start where
  moved := .nil
  settled := rfl
  calls := .nil
  keys := .nil
  held key pending := by
    constructor
    · intro found
      cases found
    · rintro ⟨a, none, -⟩
      cases none
  answered p none := by cases none
  complete call both := by
    obtain ⟨later, input, completion, answer, earlier, none, -⟩ := both
    cases later <;> cases none

/-- A completion that came after its call was allowed is the latest event, or came before it. -/
theorem AllowedThenCompleted.cases {e : HookEvent} {answer : HookAnswer} {log : Transcript} {call : ℕ}
    (both : AllowedThenCompleted onResolveError ((e, answer) :: log) call) :
    (∃ input completion, e = .completed call input completion) ∨
      AllowedThenCompleted onResolveError log call := by
  obtain ⟨later, input, completion, answer', earlier, split, allowed⟩ := both
  cases later with
  | nil =>
    obtain ⟨event, rfl⟩ := List.cons.inj split
    exact .inl ⟨input, completion, (Prod.mk.inj event).1⟩
  | cons p later =>
    obtain ⟨-, rfl⟩ := List.cons.inj split
    exact .inr ⟨later, input, completion, answer', earlier, rfl, allowed⟩

theorem AllowedThenCompleted.logged {log : Transcript} {call : ℕ}
    (both : AllowedThenCompleted onResolveError log call) : ∃ p ∈ log, p.1.call = call := by
  obtain ⟨later, input, completion, answer, earlier, rfl, -⟩ := both
  exact ⟨_, List.mem_append_right later List.mem_cons_self, rfl⟩

theorem settlements_pre {call : ℕ} {input : HookInput} {asked : Asked} {answer : HookAnswer}
    {log : Transcript} : settlements ((.pre call input asked, answer) :: log) = settlements log := by
  cases answer <;> rfl

theorem Kept.pre {s : Watched} (kept : Kept onResolveError s) {call : ℕ} {input : HookInput}
    {asked : Asked} (permits : Permits onResolveError s (.pre call input asked)) :
    Kept onResolveError (step onResolveError s (.pre call input asked)).2 := by
  obtain ⟨fresh, apart⟩ := permits
  have unknown : ∀ a ∈ allowances onResolveError s.log, a.call ≠ call := by
    intro a member same
    obtain ⟨p, logged, own⟩ := call_of_allowance member
    exact fresh p logged (own.trans same)
  have among : ∀ a ∈ s.outstanding, a ∈ allowances onResolveError s.log := fun a member =>
    kept.moved.mem_iff.mpr (List.mem_append_right _ member)
  have logged : allowances onResolveError (step onResolveError s (.pre call input asked)).2.log =
      ((HookEvent.pre call input asked).allowance onResolveError).toList ++
        allowances onResolveError s.log := by
    change List.filterMap _ (_ :: s.log) = _
    rw [List.filterMap_cons]
    cases (HookEvent.pre call input asked).allowance onResolveError <;> rfl
  have own : ∀ a, (HookEvent.pre call input asked).allowance onResolveError = some a →
      a.call = call ∧ a.key = correlationKey input := by
    intro a allowed
    obtain ⟨input', asked', event, key, -⟩ := allowance_some allowed
    cases event
    exact ⟨rfl, key⟩
  constructor
  · rw [logged]
    exact (kept.moved.append_left _).trans (List.perm_append_comm_assoc _ _ _)
  · exact settlements_pre.trans kept.settled
  · rw [logged, List.map_append]
    cases allowed : (HookEvent.pre call input asked).allowance onResolveError with
    | none => exact kept.calls
    | some a =>
      refine List.nodup_cons.mpr ⟨fun member => ?_, kept.calls⟩
      obtain ⟨b, known, same⟩ := List.mem_map.mp member
      exact unknown b known (same.trans (own a allowed).1)
  · change (List.map _ (_ ++ s.outstanding)).Nodup
    cases allowed : (HookEvent.pre call input asked).allowance onResolveError with
    | none => exact kept.keys
    | some a =>
      refine List.nodup_cons.mpr ⟨fun member => ?_, kept.keys⟩
      obtain ⟨b, flying, same⟩ := List.mem_map.mp member
      exact apart (by rw [allowed]; rfl) b flying (same.trans (own a allowed).2)
  · intro key pending
    change (respond onResolveError s.inFlight (.pre call input asked)).2.held key = _ ↔
      ∃ a ∈ _ ++ s.outstanding, _
    rw [held_pre]
    cases allowed : (HookEvent.pre call input asked).allowance onResolveError with
    | none => exact kept.held key pending
    | some a =>
      dsimp only [Option.toList]
      by_cases same : key = a.key
      · rw [if_pos same]
        constructor
        · intro found
          exact ⟨a, by simp, same.symm, Option.some.inj found⟩
        · rintro ⟨b, member, keyed, rfl⟩
          rcases List.mem_append.mp member with first | later
          · rw [List.mem_singleton.mp first]
          · exact absurd (keyed.trans (same.trans (own a allowed).2))
              (apart (by rw [allowed]; rfl) b later)
      · rw [if_neg same, kept.held key pending]
        constructor
        · rintro ⟨b, flying, rest⟩
          exact ⟨b, List.mem_append_right _ flying, rest⟩
        · rintro ⟨b, member, keyed, rest⟩
          rcases List.mem_append.mp member with first | later
          · rw [List.mem_singleton.mp first] at keyed
            exact absurd keyed.symm same
          · exact ⟨b, later, keyed, rest⟩
  · intro p member
    rcases List.mem_cons.mp member with rfl | earlier
    · exact ⟨s.inFlight, rfl⟩
    · exact kept.answered p earlier
  · intro call' both flying
    rcases both.cases with ⟨_, _, event⟩ | before
    · cases event
    · change call' ∈ List.map _ (_ ++ s.outstanding) at flying
      rw [List.map_append] at flying
      rcases List.mem_append.mp flying with first | later
      · obtain ⟨a, allowed, rfl⟩ := List.mem_map.mp first
        obtain ⟨p, seen, same⟩ := before.logged
        exact fresh p seen (same.trans (own a (Option.mem_toList.mp allowed)).1)
      · exact kept.complete call' before later

theorem filter_own {l : List Allowance} (keys : (l.map Allowance.key).Nodup) {a : Allowance}
    (member : a ∈ l) {p : Allowance → Bool} (only : ∀ b ∈ l, p b = true ↔ b.key = a.key) :
    l.filter p = [a] := by
  have chosen : l.filter p = l.filter (· = a) := by
    refine List.filter_congr fun b among => ?_
    rw [Bool.eq_iff_iff, only b among, decide_eq_true_eq]
    exact ⟨fun same => List.inj_on_of_nodup_map keys among member same, fun same => by rw [same]⟩
  rw [chosen, List.filter_eq, List.count_eq_one_of_mem keys.of_map member]
  rfl

/-- A completion settles what has its call's number, which is what has its key. -/
theorem Kept.taken {s : Watched} (kept : Kept onResolveError s) {call : ℕ} {input : HookInput}
    (own : ∀ a ∈ s.outstanding, a.call = call ↔ a.key = correlationKey input) :
    (s.inFlight.held (correlationKey input) = none ∧ s.outstanding.filter (·.call = call) = []) ∨
      ∃ a ∈ s.outstanding, s.inFlight.held (correlationKey input) = some a.pending ∧
        s.outstanding.filter (·.call = call) = [a] ∧ a.call = call := by
  cases found : s.inFlight.held (correlationKey input) with
  | none =>
    refine .inl ⟨rfl, List.filter_eq_nil_iff.mpr fun a flying same => ?_⟩
    have held := (kept.held (correlationKey input) a.pending).mpr
      ⟨a, flying, (own a flying).mp (of_decide_eq_true same), rfl⟩
    rw [found] at held
    cases held
  | some pending =>
    obtain ⟨a, flying, keyed, rfl⟩ := (kept.held _ _).mp found
    refine .inr ⟨a, flying, rfl, filter_own kept.keys flying fun b among => ?_, (own a flying).mpr keyed⟩
    rw [decide_eq_true_eq, own b among, keyed]

theorem Kept.completed {s : Watched} (kept : Kept onResolveError s) {call : ℕ} {input : HookInput}
    {completion : Completion} (own : Permits onResolveError s (.completed call input completion)) :
    Kept onResolveError (step onResolveError s (.completed call input completion)).2 := by
  have answered := @respond_completed onResolveError s.inFlight call input completion
  constructor
  · change (allowances onResolveError s.log).Perm
      ((((s.outstanding.filter (·.call = call)).map fun a => (a, completion)) ++ s.done).map Prod.fst ++
        s.outstanding.filter (·.call ≠ call))
    rw [List.map_append, List.map_map]
    have first : (s.outstanding.filter (·.call = call)).map (Prod.fst ∘ fun a => (a, completion)) =
        s.outstanding.filter (·.call = call) := List.map_id _
    have parts : (s.outstanding.filter (·.call = call) ++ s.outstanding.filter (·.call ≠ call)).Perm
        s.outstanding := by
      simpa using List.filter_append_perm (fun a : Allowance => decide (a.call = call)) s.outstanding
    rw [first, List.append_assoc]
    exact kept.moved.trans ((parts.symm.append_left _).trans (List.perm_append_comm_assoc _ _ _))
  · change settlements ((_, (respond onResolveError s.inFlight _).1) :: s.log) = List.map _ (_ ++ s.done)
    rw [answered, List.map_append, ← kept.settled]
    unfold settleTaken
    dsimp only
    rw [InFlight.take_fst]
    rcases kept.taken own with ⟨none, nothing⟩ | ⟨a, -, found, alone, same⟩
    · rw [none, nothing]
      rfl
    · rw [found, alone, ← same]
      rfl
  · exact kept.calls
  · exact kept.keys.sublist (List.filter_sublist.map _)
  · intro key pending
    change (respond onResolveError s.inFlight _).2.held key = _ ↔ _
    rw [answered]
    unfold settleTaken
    dsimp only
    rw [InFlight.held_take]
    split_ifs with same
    · constructor
      · intro found
        cases found
      · rintro ⟨a, member, keyed, -⟩
        obtain ⟨flying, other⟩ := List.mem_filter.mp member
        exact absurd ((own a flying).mpr (keyed.trans same)) (of_decide_eq_true other)
    · rw [kept.held key pending]
      constructor
      · rintro ⟨a, flying, keyed, rest⟩
        refine ⟨a, List.mem_filter.mpr ⟨flying, decide_eq_true fun other => same ?_⟩, keyed, rest⟩
        exact keyed.symm.trans ((own a flying).mp other)
      · rintro ⟨a, member, rest⟩
        exact ⟨a, List.mem_of_mem_filter member, rest⟩
  · intro p member
    rcases List.mem_cons.mp member with rfl | earlier
    · exact ⟨s.inFlight, rfl⟩
    · exact kept.answered p earlier
  · intro call' both flying
    obtain ⟨a, member, rfl⟩ := List.mem_map.mp flying
    obtain ⟨before, other⟩ := List.mem_filter.mp member
    rcases both.cases with ⟨_, _, event⟩ | earlier
    · cases event
      exact of_decide_eq_true other rfl
    · exact kept.complete _ earlier (List.mem_map_of_mem before)

theorem Kept.step {s : Watched} (kept : Kept onResolveError s) {e : HookEvent}
    (permits : Permits onResolveError s e) : Kept onResolveError (step onResolveError s e).2 := by
  cases e with
  | pre call input asked => exact kept.pre permits
  | completed call input completion => exact kept.completed permits

/-- An answer that allows rests on the guard, or on the operator where there is no intent. -/
theorem allow_authorized {m : InFlight} {call : ℕ} {input : HookInput} {asked : Asked} {reason : JsString}
    (allowed : (respond onResolveError m (.pre call input asked)).1 =
      .pre (.ok (.decided .allow reason))) :
    (∃ intent intentId policyResult mandateId, asked.resolved = .ok (some intent) ∧
        asked.authorized intent = .ok (.authorized intentId policyResult mandateId)) ∨
      ∃ err handler intentId mandateId, asked.resolved = .error err ∧ onResolveError = some handler ∧
        handler err ⟨input.toolName, input.toolInput⟩ = .ok (.allow intentId mandateId) := by
  have answered : (preToolUse m input (asked.decision onResolveError input)).1 =
      .ok (.decided .allow reason) := HookAnswer.pre.inj allowed
  cases decided : asked.decision onResolveError input with
  | error err =>
    rw [decided] at answered
    change (errText err).bind _ = _ at answered
    cases text : errText err with
    | error thrown =>
      rw [text] at answered
      cases answered
    | ok text' =>
      rw [text] at answered
      cases answered
  | ok decision =>
    rw [decided] at answered
    cases decision with
    | notAPayment => cases answered
    | deny code why => cases answered
    | allow intentId mandateId =>
      rcases decideCall_allow decided with ⟨intent, policyResult, authorizing, resolved, granted, -⟩ |
        ⟨err, handler, failed, set, answer⟩
      · exact .inl ⟨intent, intentId, policyResult, authorizing, resolved, granted⟩
      · exact .inr ⟨err, handler, intentId, mandateId, failed, set, answer⟩

theorem Kept.settledByOwn {s : Watched} (kept : Kept onResolveError s) :
    SettledByOwn onResolveError s.log := by
  have calls : (s.done.map fun p => p.1.call).Sublist
      ((s.done.map Prod.fst ++ s.outstanding).map Allowance.call) := by
    rw [List.map_append, List.map_map]
    exact List.sublist_append_left _ _
  constructor
  · rw [kept.settled, List.map_map]
    exact ((kept.moved.map _).nodup_iff.mp kept.calls).sublist calls
  · intro settlement member
    rw [kept.settled] at member
    obtain ⟨p, done, rfl⟩ := List.mem_map.mp member
    refine ⟨p.1, kept.moved.mem_iff.mpr ?_, rfl, rfl⟩
    exact List.mem_append_left _ (List.mem_map_of_mem done)
  · intro intentId
    rw [kept.settled, kept.moved.countP_eq, List.countP_append, List.countP_map, List.countP_map]
    exact Nat.le_add_right _ _
  · intro call input asked reason logged
    obtain ⟨m, answered⟩ := kept.answered _ logged
    exact allow_authorized answered.symm
  · intro call both
    have outside := kept.complete call both
    obtain ⟨later, input, completion, answer, earlier, split, allowed⟩ := both
    obtain ⟨a, known, rfl⟩ := List.mem_map.mp allowed
    have known' : a ∈ allowances onResolveError s.log := by
      rw [split, allowances, List.filterMap_append, List.filterMap_cons]
      exact List.mem_append_right _ known
    rcases List.mem_append.mp (kept.moved.mem_iff.mp known') with done | flying
    · obtain ⟨p, member, rfl⟩ := List.mem_map.mp done
      rw [kept.settled, List.map_map]
      exact List.mem_map_of_mem (f := fun p : Allowance × Completion => p.1.call) member
    · exact absurd (List.mem_map_of_mem flying) outside

end Kept

/-! ### Whole runs -/

/-- The events so far, and how they were answered. -/
def transcript (onResolveError : OnResolveError) (events : List HookEvent) : Transcript :=
  (Machine.play (step onResolveError) start events).2.log

/-- In every run in which keys tell the calls in flight apart, each call is settled by its own. -/
theorem hooks_settle_by_own_outcome (onResolveError : OnResolveError) (events : List HookEvent)
    (permitted : Machine.Permitted (step onResolveError) (Permits onResolveError) start events) :
    SettledByOwn onResolveError (transcript onResolveError events) := by
  have kept : Kept onResolveError (Machine.play (step onResolveError) start events).2 :=
    Machine.play_invariant (fun _ _ kept permits => kept.step permits) kept_start permitted
  exact kept.settledByOwn

namespace Sample

def input (toolUseId : Option JsString) : HookInput :=
  ⟨"buy_credits", .object [("amountMinor", .number 500)], toolUseId⟩

def asked (intentId : JsString) : Asked where
  resolved := .ok (some (Vaduno.Sample.intent intentId))
  authorized intent := .ok (.authorized intent.id ⟨.allow, [], "p-1", 1⟩ none)

/-- Two calls of one tool with one input, which the host tells apart by its ids or does not. -/
def events (first second : Option JsString) : List HookEvent :=
  [.pre 1 (input first) (asked "i-1"), .pre 2 (input second) (asked "i-2"),
    .completed 1 (input first) (.failed none false), .completed 2 (input second) (.responded .null)]

/-- An operator who allows what cannot be resolved. -/
def allowAnyway : Thrown → ToolCall → Throwing SpendDecision := fun _ _ => .ok (.allow "i-1" none)

/-- The state after some of the events, where the host sends ids. -/
def reached (n : ℕ) : Watched :=
  (Machine.play (step none) start ((events (some "t-1") (some "t-2")).take n)).2

def flying (s : Watched) : List (ℕ × JsString) := s.outstanding.map fun a => (a.call, a.key)

theorem told_apart {s : Watched} {call : ℕ} {input : HookInput} {completion : Completion}
    (apart : ∀ q ∈ flying s, q.1 = call ↔ q.2 = correlationKey input) :
    Permits none s (.completed call input completion) :=
  fun a member => apart (a.call, a.key) (List.mem_map_of_mem member)

theorem played :
    ((reached 1).log.map fun p => p.1.call) = [1] ∧
    flying (reached 1) = [(1, encode "id:t-1")] ∧
    (∀ q ∈ flying (reached 2), q.1 = 1 ↔ q.2 = correlationKey (input (some "t-1"))) ∧
    (∀ q ∈ flying (reached 3), q.1 = 2 ↔ q.2 = correlationKey (input (some "t-2"))) ∧
    ((settlements (transcript none (events none none))).map fun s => (s.1, s.2.2)) =
      [(1, settled "i-2" ⟨false, some (encode "tool failed")⟩ none)] ∧
    ((allowances none (transcript none (events none none))).map fun a => (a.call, a.pending.intentId)) =
      [(2, encode "i-2"), (1, encode "i-1")] := by
  decide +kernel

end Sample

theorem told_apart_settled :
    SettledByOwn none (transcript none (Sample.events (some "t-1") (some "t-2"))) := by
  obtain ⟨logged, first, before, last, -⟩ := Sample.played
  have fresh : Permits none (Sample.reached 1) (.pre 2 (Sample.input (some "t-2")) (Sample.asked "i-2")) := by
    constructor
    · intro p member
      have call : p.1.call ∈ [1] := logged ▸ List.mem_map_of_mem member
      rw [List.mem_singleton.mp call]
      decide
    · intro _ a member
      have own : (a.call, a.key) ∈ [(1, encode "id:t-1")] :=
        first ▸ List.mem_map_of_mem (f := fun a : Allowance => (a.call, a.key)) member
      rw [(Prod.mk.inj (List.mem_singleton.mp own)).2]
      decide
  have begun : Permits none start (.pre 1 (Sample.input (some "t-1")) (Sample.asked "i-1")) := by
    constructor
    · intro p member
      cases member
    · intro _ a member
      cases member
  exact hooks_settle_by_own_outcome none _
    ⟨begun, fresh, Sample.told_apart before, Sample.told_apart last, trivial⟩

/-- Without ids, the second call takes the place of the first: the failure of the first settles the
payment of the second. And an operator can allow what no guard has authorized. -/
theorem outcome_crosses_calls :
    ¬SettledByOwn none (transcript none (Sample.events none none)) ∧
      ∃ asked : Asked, (∀ intent, asked.resolved ≠ .ok (some intent)) ∧
        ∃ reason, (respond (some Sample.allowAnyway) .empty (.pre 1 (Sample.input none) asked)).1 =
          .pre (.ok (.decided .allow reason)) := by
  obtain ⟨-, -, -, -, settled, allowed⟩ := Sample.played
  constructor
  · intro byOwn
    have one : (1, Agent.settled "i-2" ⟨false, some (encode "tool failed")⟩ none) ∈
        (settlements (transcript none (Sample.events none none))).map fun s => (s.1, s.2.2) := by
      rw [settled]
      exact List.mem_cons_self
    obtain ⟨settlement, member, same⟩ := List.mem_map.mp one
    obtain ⟨a, known, call, own⟩ := byOwn.own settlement member
    have intent : (a.call, a.pending.intentId) ∈ [(2, encode "i-2"), (1, encode "i-1")] :=
      allowed ▸ List.mem_map_of_mem (f := fun a : Allowance => (a.call, a.pending.intentId)) known
    have crossed : (a.call, a.pending.intentId) = (1, encode "i-2") := by
      rw [call, (Prod.mk.inj same).1]
      exact congrArg (Prod.mk 1) ((congrArg SettleCall.intentId own).symm.trans
        (congrArg SettleCall.intentId (Prod.mk.inj same).2))
    rw [crossed] at intent
    revert intent
    decide
  · refine ⟨⟨.error .typeError, fun _ => .error .typeError⟩, fun intent none => ?_, _, rfl⟩
    cases none

end Vaduno.Agent
