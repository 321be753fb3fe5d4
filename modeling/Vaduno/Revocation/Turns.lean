import Vaduno.Revocation.Irreversible

/-! One registry on its store. Its mutations take turns, so what a call has read of a record or a
block is still so when the call writes over it: with one registry there is nothing to suppose about
the order of steps. -/
namespace Vaduno.Revocation
open Ecma Ledger Enforce Async

/-- What a call knows about the store while it is its turn. -/
inductive Known
  | nothing
  | record (mandateId : JsString) (found : Option RevocationRecord)
  | block (agentId : JsString) (found : Option AgentBlock)

def Known.Holds (s : MemoryRevocationStore) : Known → Prop
  | nothing => True
  | record mandateId found => s.get mandateId = found
  | block agentId found => s.getAgentBlock agentId = found

/-- A call waits for its turn or is past it, or it is its turn. -/
inductive Turn
  | outside
  | inside (known : Known)

/-- Nothing that cannot be undone is known there. -/
def Known.Lifts (mandateId : JsString) : Known → Prop
  | record read found => read = mandateId ∧ ∀ r, found = some r → r.purpose = .suspension
  | _ => False

def Known.Unblocks (agentId : JsString) : Known → Prop
  | block read found => read = agentId ∧ ∀ b, found = some b → b.purpose = .suspension
  | _ => False

/-- Operations that say nothing about a record or a block, write none, and belong to no queue. -/
def Silent : RegistryOp → Prop
  | .enter _ | .leave _ | .revoke _ | .clear _ | .blockAgent .. | .unblockAgent _ | .get _
  | .getAgentBlock _ => False
  | _ => True

/-- Operations that read, without a turn in the queue. -/
def Reads : RegistryOp → Prop
  | .enter _ | .leave _ | .revoke _ | .clear _ | .blockAgent .. | .unblockAgent _ | .allocate .. =>
    False
  | _ => True

/-- The operations of the calls that do not wait for a turn. -/
def Views : RegistryOp → Prop
  | .append type .. => type = .statusListPublished
  | .indexOf _ | .mandatesFor _ | .get _ | .getAgentBlock _ | .isAgentBlocked _ | .snapshot
  | .reserveVersion .. | .notePublished .. | .releaseVersion .. | .validity | .checkedSign _ => True
  | _ => False

/-- The reads among them. -/
def Looks : RegistryOp → Prop
  | .indexOf _ | .mandatesFor _ | .get _ | .getAgentBlock _ | .isAgentBlocked _ | .snapshot => True
  | _ => False

theorem Looks.views (looks : Looks op) : Views op := by
  cases op <;> trivial

theorem Views.reads (views : Views op) : Reads op := by
  cases op <;> trivial

/-- Writes over records and blocks wait for a turn and then follow what was read in it. -/
def Turn.Allows (name : ℕ) : Turn → RegistryOp → Prop
  | outside, .enter registry | inside _, .leave registry => registry = name
  | outside, op => Reads op
  | inside known, .revoke record => known.Lifts record.mandateId
  | inside known, .clear mandateId => known.Lifts mandateId
  | inside known, .unblockAgent agentId => known.Unblocks agentId
  | inside _, .enter _ => False
  | inside _, _ => True

def Turn.next : Turn → (op : RegistryOp) → op.Answer → Turn
  | _, .enter _, _ => inside .nothing
  | _, .leave _, _ => outside
  | inside _, .get mandateId, .ok found => inside (.record mandateId found)
  | inside _, .getAgentBlock agentId, .ok found => inside (.block agentId found)
  | inside _, .revoke _, _ | inside _, .clear _, _ | inside _, .blockAgent .., _
  | inside _, .unblockAgent _, _ => inside .nothing
  | φ, _, _ => φ

def turns (name : ℕ) : Monitor RegistryOp.Answer Turn where
  allowed φ op := φ.Allows name op
  step φ op ans φ' := φ' = φ.next op ans

section Programs
variable {name : ℕ} {registry : RevocationRegistry} {known : Known}

/-- A part of a call that keeps its turn. -/
def Stays (name : ℕ) (p : RegistryProgram α) : Prop :=
  ∀ known, p.Meets (turns name) (fun φ _ => ∃ known, φ = .inside known) (.inside known)

theorem quiet_inside (silent : Silent op) : (turns name).Quiet (.inside known) op := by
  cases op with
  | enter _ | leave _ | revoke _ | clear _ | blockAgent _ _ | unblockAgent _ | get _
  | getAgentBlock _ => exact silent.elim
  | _ => exact ⟨trivial, fun ans φ' moved => moved⟩

theorem quiet_outside (reads : Reads op) : (turns name).Quiet .outside op := by
  cases op with
  | enter _ | leave _ | revoke _ | clear _ | blockAgent _ _ | unblockAgent _ | allocate _ _ _ =>
    exact reads.elim
  | _ => exact ⟨trivial, fun ans φ' moved => moved⟩

theorem stays_of_asks {p : RegistryProgram α} (asks : p.Asks Silent fun _ => True) :
    Stays name p := fun known =>
  (asks.meets fun _ => quiet_inside).mono fun _ _ unmoved => ⟨known, unmoved.1⟩

theorem Stays.bind {p : RegistryProgram α} {f : α → RegistryProgram β} (first : Stays name p)
    (rest : ∀ a, Stays name (f a)) : Stays name (p >>= f) := fun known => by
  refine Meets.bind (first known) ?_ fun _ _ kept => kept
  rintro _ a ⟨known', rfl⟩
  exact rest a known'

theorem Stays.outcomeOf {p : RegistryProgram α} (stays : Stays name p) :
    Stays name p.outcomeOf := fun known =>
  (Async.meets_outcomeOf p _).mpr (stays known)

theorem Stays.pure (a : α) : Stays name (pure a : RegistryProgram α) := fun known => ⟨known, rfl⟩

theorem Stays.settled (r : Throwing α) : Stays name (Async.settled r : RegistryProgram α) :=
  fun known => ⟨known, rfl⟩

theorem audit_asks {kind : RegistryOp → Prop} (asked : kind (.append type data agentId)) :
    (registry.audit type data agentId).Asks kind fun _ => True := by
  unfold RevocationRegistry.audit
  split
  · exact Asks.orThrow (Asks.perform asked)
  · trivial

/-- A call whose body keeps its turn waits for it, and is past it in the end. -/
theorem run_turn {p : RegistryProgram α} (stays : Stays registry.name p) :
    (registry.run p).Meets (turns registry.name) (fun _ _ => True) .outside := by
  refine (meets_bracket _ _ _ _).mpr ⟨rfl, ?_⟩
  rintro ans _ rfl
  refine (stays .nothing).mono ?_
  rintro _ r ⟨known, rfl⟩
  exact ⟨rfl, fun _ _ _ => trivial⟩

/-- A silent fallible operation, and then the rest with the same knowledge. -/
theorem silent_bind {post : Turn → Throwing β → Prop} {p : RegistryProgram (Throwing α)}
    {f : α → RegistryProgram β} (silent : p.Asks Silent fun _ => True)
    (value : ∀ a, (f a).Meets (turns name) post (.inside known))
    (thrown : ∀ e, post (.inside known) (.error e)) :
    (p.orThrow >>= f).Meets (turns name) post (.inside known) :=
  Meets.quiet_bind ((silent.meets fun _ => quiet_inside).mono fun _ _ unmoved => unmoved.1) value thrown

/-- A write over what has just been read, and then the rest without that knowledge. -/
theorem write_stays {f : Unit → RegistryProgram β}
    {p : RegistryProgram (Throwing Unit)}
    (written : p.Meets (turns name) (fun φ _ => φ = .inside .nothing) (.inside known))
    (rest : ∀ a, Stays name (f a)) :
    (p.orThrow >>= f).Meets (turns name) (fun φ _ => ∃ known, φ = .inside known) (.inside known) := by
  refine meets_orThrow_bind.mpr (written.mono ?_)
  rintro φ (e | e | a) rfl
  · exact ⟨.nothing, rfl⟩
  · exact ⟨.nothing, rfl⟩
  · exact rest a .nothing

theorem killIndex_asks : (registry.killIndex mandateId agentId).Asks Silent fun _ => True := by
  refine Asks.bind (Asks.orThrow (Asks.perform trivial)) fun found => ?_
  cases found with
  | none => exact Asks.orThrow (Asks.perform trivial)
  | some index => trivial

theorem killAgent_asks :
    (RevocationRegistry.killAgent mandateId link).Asks Silent fun _ => True := by
  cases link with
  | none => exact Asks.orThrow (Asks.perform trivial)
  | some agentId => trivial

theorem writeKill_stays (lifts : known.Lifts mandateId) :
    (registry.writeKill mandateId link opts).Meets (turns name)
      (fun φ _ => ∃ known, φ = .inside known) (.inside known) := by
  have quiet : ∀ {α : Type} {p : RegistryProgram α}, p.Asks Silent (fun _ => True) →
      p.Meets (turns name) (fun φ _ => φ = .inside known) (.inside known) :=
    fun asks => (asks.meets fun _ => quiet_inside).mono fun _ _ unmoved => unmoved.1
  unfold RevocationRegistry.writeKill
  refine Meets.bind (quiet killIndex_asks) ?_ fun φ _ unmoved => ⟨known, unmoved⟩
  rintro _ index rfl
  refine Meets.bind (quiet (Asks.orThrow (Asks.perform trivial))) ?_ fun φ _ unmoved => ⟨known, unmoved⟩
  rintro _ revokedAt rfl
  refine write_stays ⟨lifts, fun ans φ moved => moved⟩ fun _ => ?_
  exact (stays_of_asks (audit_asks trivial)).bind fun _ => Stays.pure _

theorem killLocally_stays : Stays name (registry.killLocally mandateId link opts) := by
  intro known
  unfold RevocationRegistry.killLocally
  refine meets_orThrow_bind.mpr ((meets_perform _ _).mpr ⟨trivial, ?_⟩)
  rintro ans _ rfl
  cases ans with
  | error e => exact ⟨known, rfl⟩
  | ok existing =>
    dsimp only [ThenOk]
    cases found : existing.filter (·.purpose = .revocation) with
    | some record => exact ⟨_, rfl⟩
    | none =>
      have lifts : Known.Lifts mandateId (.record mandateId existing) := by
        refine ⟨rfl, fun r held => ?_⟩
        have other := Option.filter_eq_none_iff.mp found r held
        cases kind : r.purpose with
        | suspension => rfl
        | revocation => simp [kind] at other
      refine Meets.bind ((killAgent_asks.meets fun _ => quiet_inside).mono
        fun _ _ unmoved => unmoved.1) ?_ fun φ _ unmoved => ⟨_, unmoved⟩
      rintro _ link rfl
      exact writeKill_stays lifts

theorem killAll_stays (mandateIds : List JsString) (out : List RevocationResult)
    (failures : List (JsString × JsString)) :
    Stays name (registry.killAll agentId opts mandateIds out failures) := by
  induction mandateIds generalizing out failures with
  | nil => exact Stays.pure _
  | cons mandateId rest ih =>
    refine killLocally_stays.outcomeOf.bind fun outcome => ?_
    cases outcome with
    | ok result => exact ih _ _
    | error err => exact (Stays.settled _).bind fun text => ih _ _

theorem blockAndKill_stays : Stays name (registry.blockAndKill agentId opts) := by
  refine (stays_of_asks (Asks.orThrow (Asks.perform trivial))).bind fun blockedAt known => ?_
  refine write_stays ⟨trivial, fun ans φ moved => moved⟩ fun _ => ?_
  refine (stays_of_asks (audit_asks trivial)).bind fun _ => ?_
  refine (stays_of_asks (Asks.orThrow (Asks.perform trivial))).bind fun mandateIds => ?_
  refine (killAll_stays mandateIds [] []).bind fun killed => ?_
  refine (stays_of_asks ?_).bind fun _ => Stays.pure _
  unfold RevocationRegistry.auditPartial
  split
  · trivial
  · exact audit_asks trivial

/-- A lift writes only over what it has just read to be a suspension, or over nothing. -/
theorem liftRecord_stays (found : Option RevocationRecord) :
    (registry.liftRecord mandateId byWhom found).Meets (turns name)
      (fun φ _ => ∃ known, φ = .inside known) (.inside (.record mandateId found)) := by
  cases found with
  | none => exact ⟨_, rfl⟩
  | some record =>
    rw [RevocationRegistry.liftRecord]
    split
    · exact ⟨_, rfl⟩
    · rename_i suspended
      refine write_stays ⟨⟨rfl, ?_⟩, fun ans φ moved => moved⟩ fun _ => stays_of_asks (audit_asks trivial)
      rintro r ⟨⟩
      exact not_not.mp suspended

theorem liftBlock_stays (found : Option AgentBlock) :
    (registry.liftBlock agentId byWhom found).Meets (turns name)
      (fun φ _ => ∃ known, φ = .inside known) (.inside (.block agentId found)) := by
  cases found with
  | none => exact ⟨_, rfl⟩
  | some block =>
    rw [RevocationRegistry.liftBlock]
    split
    · exact ⟨_, rfl⟩
    · rename_i suspended
      refine write_stays ⟨⟨rfl, ?_⟩, fun ans φ moved => moved⟩ fun _ => stays_of_asks (audit_asks trivial)
      rintro b ⟨⟩
      exact not_not.mp suspended

theorem setMandates_asks (mandateIds : List JsString) (list : Bitstring × ℕ) :
    (RevocationRegistry.setMandates mandateIds list).Asks Looks fun _ => True := by
  induction mandateIds generalizing list with
  | nil => trivial
  | cons mandateId rest ih =>
    refine Asks.bind (Asks.orThrow (Asks.perform trivial)) fun found => ?_
    cases found with
    | none => exact ih _
    | some index => exact Asks.bind trivial fun bits => ih _

theorem setAgents_asks (agentIds : List JsString) (list : Bitstring × ℕ) :
    (RevocationRegistry.setAgents purpose agentIds list).Asks Looks fun _ => True := by
  induction agentIds generalizing list with
  | nil => trivial
  | cons agentId rest ih =>
    refine Asks.bind (Asks.orThrow (Asks.perform trivial)) fun block => ?_
    split
    · refine Asks.bind (Asks.orThrow (Asks.perform trivial)) fun mandateIds => ?_
      exact Asks.bind (setMandates_asks mandateIds list) fun list => ih list
    · exact ih list

theorem publish_asks : (registry.publish version purpose).Asks Views fun _ => True := by
  have signed : ∀ bits, (registry.publishStatusListWith bits purpose version).Asks Views
      fun _ => True := by
    intro bits
    unfold RevocationRegistry.publishStatusListWith
    split
    · trivial
    · refine Asks.bind (Asks.orThrow (Asks.perform trivial)) fun valid => ?_
      refine Asks.bind trivial fun bytes => ?_
      exact Asks.bind (Asks.orThrow (Asks.perform trivial)) fun signature => trivial
  have reserved : (registry.publishReserved version purpose).Asks Views fun _ => True := by
    refine Asks.bind (Asks.orThrow (Asks.perform trivial)) fun snap => ?_
    refine Asks.bind trivial fun bits => ?_
    refine Asks.bind trivial fun list => ?_
    refine Asks.bind ((setAgents_asks _ _).widen fun _ => Looks.views) fun list => ?_
    refine Asks.bind (signed _) fun credential => ?_
    refine Asks.bind (Asks.perform trivial) fun _ => ?_
    exact Asks.bind (audit_asks rfl) fun _ => trivial
  unfold RevocationRegistry.publish
  split
  · trivial
  · refine Asks.bind (Asks.perform trivial) fun floor => ?_
    cases floor with
    | some floor => trivial
    | none =>
      refine Asks.bind reserved.outcomeOf fun outcome => ?_
      exact Asks.bind (Asks.perform trivial) fun _ => trivial

theorem registryCheck_asks : (registryCheck intent).Asks Looks fun _ => True := by
  refine Asks.tryCatch ?_ fun e => Asks.bind trivial fun text => trivial
  refine Asks.bind (Asks.orThrow (Asks.perform trivial)) fun blocked => ?_
  cases blocked with
  | true => trivial
  | false =>
    rw [if_neg Bool.false_ne_true]
    split
    · trivial
    · exact Asks.bind (Asks.orThrow (Asks.perform trivial)) fun found => trivial

/-- Every call takes its turn before it writes over records and blocks. -/
theorem serve_turns (call : RegistryCall) :
    (registry.serve call).Meets (turns registry.name) (fun _ _ => True) .outside := by
  have mapped : ∀ {α : Type} {f : α → CallResult} {p : RegistryProgram α},
      p.Meets (turns registry.name) (fun _ _ => True) .outside →
      (f <$> p).Meets (turns registry.name) (fun _ _ => True) .outside :=
    fun meets => (meets_map _ _ _).mpr meets
  have reading : ∀ {α : Type} {p : RegistryProgram α}, p.Asks Reads (fun _ => True) →
      p.Meets (turns registry.name) (fun _ _ => True) .outside :=
    fun asks => (asks.meets fun _ => quiet_outside).mono fun _ _ _ => trivial
  have read : ∀ {α β : Type} {p : RegistryProgram (Throwing α)} {f : α → RegistryProgram β}
      (known : α → Known),
      (∀ φ, p.Meets (turns registry.name) (fun φ' r => ∃ φ, φ' = .inside φ ∧
        ∀ a, r = .ok (.ok a) → φ = known a) (.inside φ)) →
      (∀ a, (f a).Meets (turns registry.name) (fun φ _ => ∃ known, φ = .inside known)
        (.inside (known a))) → Stays registry.name (p.orThrow >>= f) := by
    intro α β p f known asked rest φ
    refine meets_orThrow_bind.mpr ((asked φ).mono ?_)
    rintro _ r ⟨φ', rfl, told⟩
    obtain e | e | a := r
    · exact ⟨φ', rfl⟩
    · exact ⟨φ', rfl⟩
    · obtain rfl := told a rfl
      exact rest a
  cases call with
  | assignIndex mandateId agentId =>
    refine mapped (run_turn ?_)
    refine (stays_of_asks (Asks.orThrow (Asks.perform trivial))).bind fun index => ?_
    cases index with
    | none => exact Stays.settled (.error _)
    | some index => exact (stays_of_asks (audit_asks trivial)).bind fun _ => Stays.pure index
  | revokeMandate mandateId opts => exact mapped (run_turn killLocally_stays)
  | revokeAgent agentId opts => exact mapped (run_turn blockAndKill_stays)
  | unsuspendMandate mandateId byWhom =>
    refine mapped (run_turn ?_)
    refine read (.record mandateId) (fun φ => (meets_perform _ _).mpr ⟨trivial, ?_⟩) liftRecord_stays
    rintro ans _ rfl
    cases ans with
    | error e => exact ⟨φ, rfl, fun a same => by cases same⟩
    | ok found => exact ⟨_, rfl, fun a same => by cases same; rfl⟩
  | unblockAgent agentId byWhom =>
    refine mapped (run_turn ?_)
    refine read (.block agentId) (fun φ => (meets_perform _ _).mpr ⟨trivial, ?_⟩) liftBlock_stays
    rintro ans _ rfl
    cases ans with
    | error e => exact ⟨φ, rfl, fun a same => by cases same⟩
    | ok found => exact ⟨_, rfl, fun a same => by cases same; rfl⟩
  | publish version purpose => exact mapped (reading (publish_asks.widen fun _ => Views.reads))
  | check intent => exact mapped (reading (registryCheck_asks.widen fun _ looks => looks.views.reads))

end Programs

/-! ### What one registry leaves to be written -/

/-- A write over nothing that is revoked for good. -/
def Live (s : MemoryRevocationStore) : RegistryOp → Prop
  | .revoke record => ¬s.Killed record.mandateId
  | .clear mandateId => ¬s.Killed mandateId
  | .unblockAgent agentId => ¬s.Barred agentId
  | _ => True

theorem Live.harmless (live : Live s op) : Harmless s op := by
  cases op with
  | revoke record => exact fun _ => live
  | _ => exact live

theorem Turn.Allows.live {φ : Turn} (allowed : φ.Allows name op)
    (knows : ∀ known, φ = .inside known → known.Holds s) : Live s op := by
  have records : ∀ {mandateId known}, Known.Lifts mandateId known → φ = .inside known →
      ¬s.Killed mandateId := by
    rintro mandateId known lifts inside ⟨record, found, permanent⟩
    cases known with
    | record read seen =>
      obtain ⟨rfl, suspended⟩ := lifts
      have holds := knows _ inside
      rw [suspended record (holds.symm.trans found)] at permanent
      cases permanent
    | nothing | block _ _ => exact lifts.elim
  cases φ with
  | outside => cases op <;> trivial
  | inside known =>
    cases op with
    | revoke record => exact records allowed rfl
    | clear mandateId => exact records allowed rfl
    | unblockAgent agentId =>
      rintro ⟨block, found, permanent⟩
      cases known with
      | block read seen =>
        obtain ⟨rfl, suspended⟩ := allowed
        have holds := knows _ rfl
        rw [suspended block (holds.symm.trans found)] at permanent
        cases permanent
      | nothing | record _ _ => exact allowed.elim
    | _ => trivial

section Runs
variable {ι : Type} {registry : RevocationRegistry}

/-- Whose turn it is in the queue, and that what it knows is so. -/
def Ordered (name : ℕ) (w : RegistryWorld ι) (phases : ι → Turn) : Prop :=
  ∀ i, match phases i with
    | .outside => w.holder name ≠ some i
    | .inside known => w.holder name = some i ∧ known.Holds w.store

theorem Known.holds_of_silent {known : Known} (silent : Silent op) (holds : known.Holds s) :
    known.Holds (op.moves s) := by
  have kept : (op.moves s).records = s.records ∧ (op.moves s).blocked = s.blocked := by
    cases op with
    | allocate mandateId link capacity =>
      exact ⟨MemoryRevocationStore.allocate_records capacity,
        MemoryRevocationStore.allocate_blocked capacity⟩
    | revoke _ | clear _ | blockAgent _ _ | unblockAgent _ => exact silent.elim
    | _ => exact ⟨rfl, rfl⟩
  cases known with
  | nothing => trivial
  | record mandateId found =>
    exact (congrArg (Keyed.find · mandateId) kept.1).trans holds
  | block agentId found =>
    exact (congrArg (fun blocked => (Keyed.find blocked agentId).map Prod.snd) kept.2).trans holds

/-- What a call knows in its turn stays so, and what it reads becomes known. -/
theorem inside_next {w w' : RegistryWorld ι} {i : ι} {op : RegistryOp} {ans : op.Answer}
    {known : Known} (holds : known.Holds w.store) (answered : RegistryWorks w i op ans w')
    (enters : ∀ r, op ≠ .enter r) (leaves : ∀ r, op ≠ .leave r) :
    ∃ known', (Turn.inside known).next op ans = .inside known' ∧ known'.Holds w'.store := by
  have kept : ∀ {op : RegistryOp}, op.moves w.store = w.store → RegistryEffect w i op w' →
      known.Holds w'.store := by
    intro op reads effect
    rcases effect.store_moved with same | moved
    · rw [same]
      exact holds
    · rw [moved, reads]
      exact holds
  cases op with
  | enter r => exact absurd rfl (enters r)
  | leave r => exact absurd rfl (leaves r)
  | get mandateId =>
    cases ans with
    | error e => exact ⟨known, rfl, kept rfl answered.effect⟩
    | ok found =>
      obtain ⟨same, rfl⟩ := fallibly_ok answered
      exact ⟨_, rfl, Except.ok.inj same⟩
  | getAgentBlock agentId =>
    cases ans with
    | error e => exact ⟨known, rfl, kept rfl answered.effect⟩
    | ok found =>
      obtain ⟨same, rfl⟩ := fallibly_ok answered
      exact ⟨_, rfl, Except.ok.inj same⟩
  | revoke _ | clear _ | blockAgent _ _ | unblockAgent _ => exact ⟨.nothing, rfl, trivial⟩
  | allocate mandateId link capacity =>
    refine ⟨known, rfl, ?_⟩
    rcases answered.effect.store_moved with same | moved
    · rw [same]
      exact holds
    · rw [moved]
      exact Known.holds_of_silent trivial holds
  | _ => exact ⟨known, rfl, kept rfl answered.effect⟩

/-- Only the call whose turn it is knows anything. -/
theorem Ordered.others {name : ℕ} {w : RegistryWorld ι} {phases : ι → Turn} {i j : ι}
    (ordered : Ordered name w phases) (held : w.holder name = some i) (other : j ≠ i) :
    phases j = .outside := by
  have own := ordered j
  cases phase : phases j with
  | outside => rfl
  | inside known =>
    rw [phase] at own
    exact absurd (Option.some.inj (own.1.symm.trans held)) other

/-- An outside in which no write goes over what is revoked for good. -/
def LiveWorks : Answers RegistryOp.Answer (RegistryWorld ι) ι := fun w i op ans w' =>
  RegistryWorks w i op ans w' ∧ Live w.store op

theorem LiveWorks.harmless {w w' : RegistryWorld ι} {i : ι} {op : RegistryOp} {ans : op.Answer}
    (answered : LiveWorks w i op ans w') : HarmlessWorks w i op ans w' :=
  ⟨answered.1, fun _ => answered.2.harmless⟩

variable [DecidableEq ι]

/-- One step keeps the order of turns. -/
theorem Ordered.step {name : ℕ} {w w' : RegistryWorld ι} {phases : ι → Turn} {i : ι}
    {op : RegistryOp} {ans : op.Answer} (ordered : Ordered name w phases)
    (allowed : (phases i).Allows name op) (answered : RegistryWorks w i op ans w') :
    Ordered name w' (Function.update phases i ((phases i).next op ans)) := by
  have own := ordered i
  cases phase : phases i with
  | outside =>
    rw [phase] at allowed own
    by_cases enters : ∃ r, op = .enter r
    · obtain ⟨r, rfl⟩ := enters
      obtain rfl : r = name := allowed
      obtain ⟨free, rfl⟩ := answered
      intro j
      by_cases same : j = i
      · subst same
        rw [Function.update_self]
        exact ⟨Function.update_self .., trivial⟩
      · have outside : phases j = .outside := by
          cases other : phases j with
          | outside => rfl
          | inside known =>
            have held := ordered j
            rw [other] at held
            rw [free] at held
            cases held.1
        rw [Function.update_of_ne same, outside]
        change Function.update w.holder r (some i) r ≠ some j
        rw [Function.update_self]
        exact fun equal => same (Option.some.inj equal).symm
    · have reads : Reads op := by
        cases op with
        | enter r => exact absurd ⟨r, rfl⟩ enters
        | _ => exact allowed
      have unmoved : op.moves w.store = w.store ∧ ∀ r, op ≠ .leave r := by
        cases op with
        | enter _ | leave _ | revoke _ | clear _ | blockAgent _ _ | unblockAgent _ | allocate _ _ _ =>
          exact reads.elim
        | _ => exact ⟨rfl, nofun⟩
      have store : w'.store = w.store := by
        rcases answered.effect.store_moved with same | moved
        · exact same
        · rw [moved, unmoved.1]
      have holder := answered.effect.holder_kept (fun r same => enters ⟨r, same⟩) unmoved.2
      have next : Turn.outside.next op ans = .outside := (quiet_outside reads : (turns name).Quiet .outside op).2 ans _ rfl
      rw [next, ← phase, Function.update_eq_self]
      intro j
      have held := ordered j
      rw [holder, store]
      exact held
  | inside known =>
    rw [phase] at allowed own
    by_cases leaves : ∃ r, op = .leave r
    · obtain ⟨r, rfl⟩ := leaves
      obtain rfl : r = name := allowed
      cases answered
      intro j
      by_cases same : j = i
      · subst same
        rw [Function.update_self]
        change Function.update w.holder r none r ≠ some j
        rw [Function.update_self]
        nofun
      · rw [Function.update_of_ne same, ordered.others own.1 same]
        change Function.update w.holder r none r ≠ some j
        rw [Function.update_self]
        nofun
    · have enters : ∀ r, op ≠ .enter r := by
        rintro r rfl
        exact allowed
      have leaves : ∀ r, op ≠ .leave r := fun r same => leaves ⟨r, same⟩
      obtain ⟨known', next, holds⟩ := inside_next own.2 answered enters leaves
      have holder := answered.effect.holder_kept enters leaves
      intro j
      by_cases same : j = i
      · subst same
        rw [Function.update_self, next, holder]
        exact ⟨own.1, holds⟩
      · rw [Function.update_of_ne same, ordered.others own.1 same, holder, own.1]
        exact fun equal => same (Option.some.inj equal).symm

/-- A pool whose calls are somewhere in their turns. -/
def InTurn (name : ℕ) (pool : Pool RegistryOp.Answer Thrown CallResult (RegistryWorld ι) ι) : Prop :=
  ∃ phases, Ordered name pool.world phases ∧
    ∀ i, (pool.threads i).Meets (turns name) (fun _ _ => True) (phases i)

variable {pool mid final : Pool RegistryOp.Answer Thrown CallResult (RegistryWorld ι) ι}
  {events later : List (ι × Event RegistryOp.Answer)} {name : ℕ} {world : RegistryWorld ι}
  {calls : ι → RegistryCall}

omit [DecidableEq ι] in
theorem inTurn_serving (free : world.holder registry.name = none) :
    InTurn registry.name (serving world fun i => (registry, calls i)) := by
  refine ⟨fun _ => .outside, fun i => ?_, fun i => serve_turns (calls i)⟩
  change world.holder registry.name ≠ some i
  rw [free]
  nofun

/-- One registry writes over nothing that is revoked for good, whatever the order of steps. -/
theorem InTurn.live (inTurn : InTurn name pool) (run : Run RegistryWorks pool events final) :
    Run LiveWorks pool events final := by
  obtain ⟨phases, ordered, meets⟩ := inTurn
  refine run.restrict (fun _ => turns name) (fun _ _ _ => True)
    (fun _ w phases => Ordered name w phases) phases meets ordered ?_ ?_
  · intro events world phases i op ans world' ordered allowed answered
    exact ⟨_, rfl, ordered.step allowed answered⟩
  · intro events world phases i op ans world' ordered allowed answered
    refine ⟨answered, Turn.Allows.live allowed fun known inside => ?_⟩
    have own := ordered i
    rw [inside] at own
    exact own.2

theorem InTurn.run (inTurn : InTurn name pool) (run : Run RegistryWorks pool events final) :
    InTurn name final := by
  obtain ⟨phases, ordered, meets⟩ := inTurn
  refine run.invariant (fun _ => turns name) (fun _ _ _ => True)
    (fun _ w phases => Ordered name w phases) meets ordered ?_
  intro events world phases i op ans world' ordered allowed answered
  exact ⟨_, rfl, ordered.step allowed answered⟩

/-- With one registry a permanent kill is irreversible without further conditions. -/
theorem one_registry_kills {intent : PaymentIntent} {k c : ι}
    (free : world.holder registry.name = none)
    (before : Run RegistryWorks (serving world fun i => (registry, calls i)) events mid)
    (kills : Kills intent (calls k)) (resolved : mid.threads k = .done (.ok result))
    (checks : calls c = .check intent) (unstarted : mid.threads c = registry.serve (calls c))
    (after : Run RegistryWorks mid later final)
    (answered : final.threads c = .done (.ok (.verdict verdict))) : verdict ≠ .allowed := by
  have inTurn : InTurn registry.name (serving world fun i => (registry, calls i)) := inTurn_serving free
  have first := (inTurn.live before).mono LiveWorks.harmless
  have second := ((inTurn.run before).live after).mono LiveWorks.harmless
  rw [checks] at unstarted
  have dead : Dead intent mid.world.store := dead_of_resolved first kills resolved
  exact denied_of_dead second unstarted dead answered

end Runs
end Vaduno.Revocation
