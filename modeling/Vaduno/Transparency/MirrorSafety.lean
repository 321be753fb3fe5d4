import Vaduno.Async.Pool
import Vaduno.Transparency.Checkpoint
import Vaduno.Transparency.Mirror

/-! What the mirror's tree commits to, over runs of any syncs, audits and ledger appends in any
order, with stores that may fail at any operation. Only the holder of the mirror's queue extends the
tree, by the leaf of the entry that comes next; and both the ledger and the tree only grow. -/
namespace Vaduno.Transparency
open Ecma Ledger Async

inductive MirrorCall
  | sync
  | audit (ledgerFirst : Bool)
  | append (entry : LedgerEntry)

inductive MirrorAnswer
  | synced (result : MirrorSyncResult)
  | audited (result : MirrorAuditResult)
  | appended

/-- The stores and the queues. -/
structure MirrorWorld (ι : Type) where
  ledger : List LedgerEntry
  leaves : List JsString
  holder : MirrorQueue → Option ι

section Calls
variable (sha256 : Bytes → Hash) (signing : Bool)

def MirrorCall.program : MirrorCall → MirrorProgram MirrorAnswer
  | sync => .synced <$> LedgerMirror.sync sha256 signing
  | audit ledgerFirst => .audited <$> LedgerMirror.audit sha256 ledgerFirst
  | append entry => (fun _ => .appended) <$> Async.orThrow (MirrorOp.ask (.ledgerAppend entry))

/-- The leaf hash that stands for an entry. -/
def LeafOf (entry : LedgerEntry) (h : JsString) : Prop := entryLeafHash sha256 entry = .ok h

/-- The leaves are those of the first entries, in order. -/
def Mirrors (ledger : List LedgerEntry) (leaves : List JsString) : Prop :=
  ∃ k ≤ ledger.length, List.Forall₂ (LeafOf sha256) (ledger.take k) leaves

/-- Every leaf is that of the entry at its index. -/
def Matches (ledger : List LedgerEntry) (leaves : List JsString) : Prop :=
  ∀ (i : ℕ) (h : JsString), leaves[i]? = some h → ∃ entry, ledger[i]? = some entry ∧ LeafOf sha256 entry h

end Calls

/-- How the stores answer: an append that fails may have landed, and any operation may fail. -/
def mirrorAnswers [DecidableEq ι] : Answers MirrorOp.Answer (MirrorWorld ι) ι := fun world i op ans world' =>
  match op with
  | .enter queue => world.holder queue = none ∧
    world' = { world with holder := Function.update world.holder queue (some i) }
  | .leave queue => world' = { world with holder := Function.update world.holder queue none }
  | .ledgerAll => world' = world ∧ ∀ entries, ans = .ok entries → entries = world.ledger
  | .storeAll => world' = world ∧ ∀ leaves, ans = .ok leaves → leaves = world.leaves
  | .ledgerAppend entry => world' = { world with ledger := world.ledger ++ [entry] } ∨
    (ans ≠ .ok () ∧ world' = world)
  | .storeAppend h => world' = { world with leaves := world.leaves ++ [h] } ∨
    (ans ≠ .ok () ∧ world' = world)
  | .signTreeHead _ => world' = world

/-! ### The turn of a call -/

/-- A call waits for its turn or is past it, or it is its turn: with nothing read, with the ledger
read, or with the number of leaves known as well. -/
inductive Place
  | outside
  | inside
  | read (entries : List LedgerEntry)
  | sized (entries : List LedgerEntry) (size : ℕ)

section Turns
variable (sha256 : Bytes → Hash)

/-- The tree is extended by the leaf of the next entry that was read. -/
def Place.Allows : Place → MirrorOp → Prop
  | sized entries size, .storeAppend h => ∃ entry, entries[size]? = some entry ∧ LeafOf sha256 entry h
  | _, .storeAppend _ => False
  | outside, .enter .mirror | outside, .ledgerAppend _ => True
  | outside, _ => False
  | _, .enter .mirror => False
  | _, _ => True

def Place.next : Place → (op : MirrorOp) → op.Answer → Place
  | _, .enter .mirror, _ => inside
  | _, .leave .mirror, _ => outside
  | inside, .ledgerAll, .ok entries => read entries
  | read entries, .storeAll, .ok leaves => sized entries leaves.length
  | sized entries size, .storeAppend _, .ok _ => sized entries (size + 1)
  | sized _ _, .storeAppend _, .error _ => inside
  | φ, _, _ => φ

def turn : Monitor MirrorOp.Answer Place where
  allowed φ op := φ.Allows sha256 op
  step φ op ans φ' := φ' = φ.next op ans

variable {sha256} {entries : List LedgerEntry} {size : ℕ} {post : Place → Throwing β → Prop}

/-- Operations that neither extend the tree nor enter or leave the mirror's queue. -/
def Keeps : MirrorOp → Prop
  | .storeAppend _ | .enter .mirror | .leave .mirror => False
  | _ => True

/-- With the number of leaves known, only an append leads elsewhere. -/
theorem quiet_sized (keeps : Keeps op) : (turn sha256).Quiet (.sized entries size) op := by
  cases op with
  | storeAppend h => exact keeps.elim
  | enter queue =>
    cases queue with
    | mirror => exact keeps.elim
    | tree => exact ⟨trivial, fun _ _ moved => moved⟩
  | leave queue =>
    cases queue with
    | mirror => exact keeps.elim
    | tree => exact ⟨trivial, fun _ _ moved => moved⟩
  | _ => exact ⟨trivial, fun _ _ moved => moved⟩

/-- A call that only keeps stays in its turn. -/
theorem keeps_inside {p : MirrorProgram α} (asks : p.Asks Keeps fun _ => True) {φ : Place}
    (inside : φ ≠ .outside) : p.Meets (turn sha256) (fun φ _ => φ ≠ .outside) φ := by
  refine (Meets.simulate asks (fun _ φ => φ ≠ .outside) inside ?_ ?_).mono fun φ _ kept => ?_
  · rintro _ φ op stays keeps
    cases φ with
    | outside => exact absurd rfl stays
    | _ =>
      cases op with
      | storeAppend h => exact keeps.elim
      | enter queue =>
        cases queue with
        | mirror => exact keeps.elim
        | tree => trivial
      | _ => trivial
  · rintro _ φ op ans φ' stays keeps rfl
    refine ⟨(), trivial, ?_⟩
    cases op with
    | storeAppend h => exact keeps.elim
    | enter queue | leave queue =>
      cases queue with
      | mirror => exact keeps.elim
      | tree => cases φ <;> exact stays
    | ledgerAll | storeAll => cases φ <;> cases ans <;> simp_all [Place.next]
    | _ => cases φ <;> exact stays
  · obtain ⟨_, stays, -⟩ := kept
    exact stays

theorem storeAll_asks : TransparencyLog.storeAll.Asks Keeps fun _ => True :=
  Asks.orThrow (Asks.perform trivial)

theorem ledgerAll_asks : LedgerMirror.ledgerAll.Asks Keeps fun _ => True :=
  Asks.orThrow (Asks.perform trivial)

theorem size_asks : TransparencyLog.size.Asks Keeps fun _ => True := Asks.map _ storeAll_asks

theorem head_asks : (TransparencyLog.head sha256).Asks Keeps fun _ => True :=
  Asks.bind storeAll_asks fun _ => trivial

theorem signedHead_asks {head : TreeHead} : (LedgerMirror.signedHead signing head).Asks Keeps fun _ => True := by
  unfold LedgerMirror.signedHead
  split
  · exact Asks.map _ (Asks.orThrow (Asks.perform trivial))
  · trivial

theorem leafHashAt_asks : (TransparencyLog.leafHashAt i).Asks Keeps fun _ => True := by
  refine Asks.bind storeAll_asks fun hashes => ?_
  split <;> trivial

theorem auditFrom_asks (size i : ℕ) (entries : List LedgerEntry) :
    (LedgerMirror.auditFrom sha256 size i entries).Asks Keeps fun _ => True := by
  induction entries generalizing i with
  | nil => trivial
  | cons entry rest ih =>
    rw [LedgerMirror.auditFrom]
    split
    · trivial
    · refine Asks.bind leafHashAt_asks fun h => ?_
      split
      · trivial
      · exact ih (i + 1)

theorem readBoth_asks (ledgerFirst : Bool) :
    (LedgerMirror.readBoth ledgerFirst).Asks Keeps fun _ => True := by
  cases ledgerFirst with
  | true => exact Asks.bind ledgerAll_asks fun _ => Asks.bind size_asks fun _ => trivial
  | false => exact Asks.bind size_asks fun _ => Asks.bind ledgerAll_asks fun _ => trivial

/-- A call whose body keeps its turn waits for it, and is past it in the end. -/
theorem run_outside {p : MirrorProgram α}
    (stays : p.Meets (turn sha256) (fun φ _ => φ ≠ .outside) .inside) :
    (LedgerMirror.run p).Meets (turn sha256) (fun _ _ => True) .outside := by
  refine (meets_bracket _ _ _ _).mpr ⟨trivial, ?_⟩
  rintro ans _ rfl
  refine stays.mono fun φ r kept => ?_
  cases φ with
  | outside => exact absurd rfl kept
  | _ => exact ⟨trivial, fun _ _ _ => trivial⟩

theorem audit_turn (ledgerFirst : Bool) :
    (LedgerMirror.audit sha256 ledgerFirst).Meets (turn sha256) (fun _ _ => True) .outside := by
  refine run_outside (keeps_inside (Asks.bind (readBoth_asks ledgerFirst) ?_) nofun)
  rintro ⟨entries, size⟩
  dsimp only
  split
  · trivial
  · exact auditFrom_asks size 0 _

/-- The hashes of a batch are appended one by one, each where its entry stands. -/
theorem appendHashes_turn {hashes : List JsString}
    (leaves : List.Forall₂ (LeafOf sha256) (entries.drop size) hashes) :
    (TransparencyLog.appendHashes hashes).Meets (turn sha256) (fun φ _ => φ ≠ .outside)
      (.sized entries size) := by
  induction hashes generalizing size with
  | nil => exact nofun
  | cons h rest ih =>
    obtain ⟨entry, later, leaf, tail, split⟩ := List.forall₂_cons_right_iff.mp leaves
    have here : entries[size]? = some entry := by
      rw [← List.head?_drop, split]
      rfl
    have next : entries.drop (size + 1) = later := by
      rw [← List.drop_drop, split]
      rfl
    refine meets_orThrow_bind.mpr ⟨⟨entry, here, leaf⟩, ?_⟩
    rintro (e | ⟨⟩) _ rfl
    · exact nofun
    · exact ih (next ▸ tail)

/-- Asking in a turn changes neither the turn nor what is known of the leaves. -/
theorem keeps_sized {p : MirrorProgram α} (asks : p.Asks Keeps fun _ => True) :
    p.Meets (turn sha256) (fun φ _ => φ = .sized entries size) (.sized entries size) :=
  (asks.meets fun _ => quiet_sized).mono fun _ _ unmoved => unmoved.1

theorem appendLeaves_turn {datas : List JsString}
    (leaves : List.Forall₂ (LeafOf sha256) (entries.drop size)
      (datas.map fun data => leafHash sha256 (utf8 data))) :
    (TransparencyLog.appendLeaves sha256 datas).Meets (turn sha256) (fun φ _ => φ ≠ .outside)
      (.sized entries size) := by
  refine (meets_bracket _ _ _ _).mpr ⟨trivial, ?_⟩
  rintro ans _ rfl
  have body : (do
      let before ← TransparencyLog.size
      TransparencyLog.appendHashes (datas.map fun data => leafHash sha256 (utf8 data))
      let head ← TransparencyLog.head sha256
      return (⟨before, (datas.map fun data => leafHash sha256 (utf8 data)).length, head⟩ :
        BatchAppendResult) : MirrorProgram BatchAppendResult).Meets
      (turn sha256) (fun φ _ => φ ≠ .outside) (.sized entries size) := by
    refine Meets.bind (keeps_sized size_asks) ?_ ?_
    · rintro _ before rfl
      refine Meets.bind (appendHashes_turn leaves) ?_ fun _ _ inside => inside
      intro φ _ inside
      refine keeps_inside (Asks.bind head_asks fun head => ?_) inside
      trivial
    · rintro _ e rfl
      exact nofun
  refine body.mono fun φ r inside => ?_
  cases φ with
  | outside => exact absurd rfl inside
  | _ => exact ⟨trivial, fun _ _ moved => moved ▸ nofun⟩

theorem appendFresh_turn {fresh : List JsString}
    (leaves : List.Forall₂ (LeafOf sha256) (entries.drop size)
      (fresh.map fun data => leafHash sha256 (utf8 data))) :
    (LedgerMirror.appendFresh sha256 size fresh).Meets (turn sha256) (fun φ _ => φ ≠ .outside)
      (.sized entries size) := by
  unfold LedgerMirror.appendFresh
  split
  · refine Meets.bind (appendLeaves_turn leaves) ?_ fun _ _ inside => inside
    intro φ batch inside
    split <;> exact inside
  · exact keeps_inside head_asks nofun

theorem leaves_of_ledgerEntryLeaves {fresh : List JsString} {entries : List LedgerEntry}
    (texts : ledgerEntryLeaves entries = .ok fresh) :
    List.Forall₂ (LeafOf sha256) entries (fresh.map fun data => leafHash sha256 (utf8 data)) := by
  induction entries generalizing fresh with
  | nil =>
    cases texts
    exact .nil
  | cons entry rest ih =>
    rw [ledgerEntryLeaves, List.mapM_cons] at texts
    cases text : ledgerEntryLeaf entry with
    | error e => rw [text] at texts; cases texts
    | ok data =>
      cases others : ledgerEntryLeaves rest with
      | error e =>
        rw [ledgerEntryLeaves] at others
        rw [text, others] at texts
        cases texts
      | ok datas =>
        have leaf : LeafOf sha256 entry (leafHash sha256 (utf8 data)) := by
          unfold LeafOf entryLeafHash
          rw [text]
          rfl
        have tail := ih others
        rw [ledgerEntryLeaves] at others
        rw [text, others] at texts
        cases texts
        exact .cons leaf tail

theorem sync_turn (signing : Bool) :
    (LedgerMirror.sync sha256 signing).Meets (turn sha256) (fun _ _ => True) .outside := by
  refine run_outside (meets_orThrow_bind.mpr ⟨trivial, ?_⟩)
  rintro (e | entries) _ rfl
  · rintro ⟨⟩
  refine meets_map_bind.mpr (meets_orThrow_bind.mpr ⟨trivial, ?_⟩)
  rintro (e | leaves) _ rfl
  · rintro ⟨⟩
  simp only [meets_done, ThenOk]
  split
  · rintro ⟨⟩
  cases texts : ledgerEntryLeaves (entries.drop leaves.length) with
  | error e => rintro ⟨⟩
  | ok fresh =>
    change (LedgerMirror.appendFresh sha256 leaves.length fresh >>= _).Meets (turn sha256) _ _
    refine Meets.bind (appendFresh_turn (leaves_of_ledgerEntryLeaves texts)) ?_ fun _ _ inside => inside
    intro φ head inside
    refine keeps_inside (Asks.bind signedHead_asks fun signed => ?_) inside
    trivial

theorem call_turn (signing : Bool) (call : MirrorCall) :
    (call.program sha256 signing).Meets (turn sha256) (fun _ _ => True) .outside := by
  cases call with
  | sync => exact (meets_map _ _ _).mpr (sync_turn signing)
  | audit ledgerFirst => exact (meets_map _ _ _).mpr (audit_turn ledgerFirst)
  | append entry =>
    refine (meets_map _ _ _).mpr ((Async.meets_orThrow _ _).mpr ⟨trivial, fun _ _ _ => trivial⟩)

end Turns

/-! ### What the tree commits to -/

section Committed
variable {sha256 : Bytes → Hash} {ledger : List LedgerEntry} {leaves : List JsString}

theorem Mirrors.ledger_append (mirrors : Mirrors sha256 ledger leaves) (entry : LedgerEntry) :
    Mirrors sha256 (ledger ++ [entry]) leaves := by
  obtain ⟨k, within, same⟩ := mirrors
  refine ⟨k, by simp; omega, ?_⟩
  rw [List.take_append_of_le_length within]
  exact same

theorem Mirrors.leaf_append (mirrors : Mirrors sha256 ledger leaves)
    (next : ledger[leaves.length]? = some entry) (leaf : LeafOf sha256 entry h) :
    Mirrors sha256 ledger (leaves ++ [h]) := by
  obtain ⟨k, within, same⟩ := mirrors
  have counted : k = leaves.length := by
    have := same.length_eq
    rw [List.length_take] at this
    omega
  subst counted
  refine ⟨leaves.length + 1, (List.getElem?_eq_some_iff.mp next).1, ?_⟩
  rw [List.take_add_one, next]
  exact List.rel_append same (.cons leaf .nil)

/-- What a call in its turn knows still holds. -/
def Place.Knows (ledger : List LedgerEntry) (leaves : List JsString) : Place → Prop
  | read entries => entries <+: ledger
  | sized entries size => entries <+: ledger ∧ leaves.length = size
  | _ => True

theorem Place.Knows.ledger_append {φ : Place} (knows : φ.Knows ledger leaves) (entry : LedgerEntry) :
    φ.Knows (ledger ++ [entry]) leaves := by
  have longer : ledger <+: ledger ++ [entry] := List.prefix_append _ _
  cases φ with
  | read entries => exact knows.trans longer
  | sized entries size => exact ⟨knows.1.trans longer, knows.2⟩
  | _ => trivial

structure Committed (sha256 : Bytes → Hash) (world : MirrorWorld ι) (phases : ι → Place) : Prop where
  mirrors : Mirrors sha256 world.ledger world.leaves
  alone : ∀ i, phases i ≠ .outside → world.holder .mirror = some i
  knows : ∀ i, (phases i).Knows world.ledger world.leaves

variable {world world' : MirrorWorld ι} {phases : ι → Place} {i : ι}

/-- The holder of the mirror's queue is the only one that is not outside. -/
theorem Committed.others_outside (committed : Committed sha256 world phases)
    (inside : phases i ≠ .outside) (other : j ≠ i) : phases j = .outside := by
  by_contra placed
  have same := (committed.alone i inside).symm.trans (committed.alone j placed)
  exact other (Option.some.inj same).symm

variable [DecidableEq ι]

/-- Where the mirror's queue stays with its holder, the call that moved must know its new place, and
the others theirs. -/
theorem Committed.moved (committed : Committed sha256 world phases) {φ : Place}
    (mirrors : Mirrors sha256 world'.ledger world'.leaves)
    (holder : world'.holder .mirror = world.holder .mirror)
    (place : φ ≠ .outside → phases i ≠ .outside) (knows : φ.Knows world'.ledger world'.leaves)
    (others : ∀ j, j ≠ i → (phases j).Knows world'.ledger world'.leaves) :
    Committed sha256 world' (Function.update phases i φ) := by
  refine ⟨mirrors, fun j placed => ?_, fun j => ?_⟩
  · rw [holder]
    rcases eq_or_ne j i with rfl | other
    · exact committed.alone j (place (by simpa using placed))
    · exact committed.alone j (by simpa [other] using placed)
  · rcases eq_or_ne j i with rfl | other
    · simpa using knows
    · simpa [other] using others j other

theorem Committed.step (committed : Committed sha256 world phases) {op : MirrorOp} {ans : op.Answer}
    (allowed : (phases i).Allows sha256 op) (answered : mirrorAnswers world i op ans world') :
    Committed sha256 world' (Function.update phases i ((phases i).next op ans)) := by
  have knows := committed.knows i
  cases op with
  | enter queue =>
    obtain ⟨vacant, rfl⟩ := answered
    cases queue with
    | tree =>
      refine committed.moved committed.mirrors (by simp) ?_ ?_ fun j _ => committed.knows j
      · cases phases i <;> exact id
      · cases placed : phases i <;> simpa [placed, Place.next] using knows
    | mirror =>
      have outside : ∀ j, phases j = .outside := fun j => by
        by_contra placed
        have held := committed.alone j placed
        rw [vacant] at held
        cases held
      refine ⟨committed.mirrors, fun j placed => ?_, fun j => ?_⟩
      · rcases eq_or_ne j i with rfl | other
        · simp
        · simp [other, outside j] at placed
      · rcases eq_or_ne j i with rfl | other
        · simp [Place.next, Place.Knows]
        · simpa [other] using committed.knows j
  | leave queue =>
    cases answered
    cases queue with
    | tree =>
      refine committed.moved committed.mirrors (by simp) ?_ ?_ fun j _ => committed.knows j
      · cases phases i <;> exact id
      · cases placed : phases i <;> simpa [placed, Place.next] using knows
    | mirror =>
      have inside : phases i ≠ .outside := fun outside => by
        rw [outside] at allowed
        exact allowed
      refine ⟨committed.mirrors, fun j placed => ?_, fun j => ?_⟩
      · rcases eq_or_ne j i with rfl | other
        · simp [Place.next] at placed
        · simp [other, committed.others_outside inside other] at placed
      · rcases eq_or_ne j i with rfl | other
        · simp [Place.next, Place.Knows]
        · simpa [other] using committed.knows j
  | ledgerAll =>
    obtain ⟨rfl, told⟩ := answered
    refine committed.moved committed.mirrors rfl ?_ ?_ fun j _ => committed.knows j
    · cases phases i <;> cases ans <;> simp [Place.next]
    · cases placed : phases i with
      | inside =>
        cases ans with
        | error e => trivial
        | ok entries => exact told entries rfl ▸ List.prefix_rfl
      | _ => simpa [placed, Place.next] using knows
  | storeAll =>
    obtain ⟨rfl, told⟩ := answered
    refine committed.moved committed.mirrors rfl ?_ ?_ fun j _ => committed.knows j
    · cases phases i <;> cases ans <;> simp [Place.next]
    · cases placed : phases i with
      | read entries =>
        rw [placed] at knows
        cases ans with
        | error e => exact knows
        | ok leaves => exact ⟨knows, by rw [told leaves rfl]⟩
      | _ => simpa [placed, Place.next] using knows
  | ledgerAppend entry =>
    have stays : (phases i).next (.ledgerAppend entry) ans = phases i := by cases phases i <;> rfl
    rw [stays]
    rcases answered with rfl | ⟨-, rfl⟩
    · exact committed.moved (committed.mirrors.ledger_append entry) rfl id (knows.ledger_append entry)
        fun j _ => (committed.knows j).ledger_append entry
    · exact committed.moved committed.mirrors rfl id knows fun j _ => committed.knows j
  | storeAppend h =>
    cases placed : phases i with
    | sized entries size =>
      rw [placed] at allowed knows
      obtain ⟨entry, here, leaf⟩ := allowed
      obtain ⟨shorter, rfl⟩ := knows
      have inside : phases i ≠ .outside := by simp [placed]
      have others : ∀ j, j ≠ i → (phases j).Knows world'.ledger world'.leaves := fun j other => by
        rw [committed.others_outside inside other]
        trivial
      have next : world.ledger[world.leaves.length]? = some entry := by
        obtain ⟨bound, rfl⟩ := List.getElem?_eq_some_iff.mp here
        exact List.prefix_iff_getElem?.mp shorter _ bound
      rcases answered with rfl | ⟨failed, rfl⟩
      · refine committed.moved (committed.mirrors.leaf_append next leaf) rfl (fun _ => inside) ?_ others
        cases ans with
        | error e => trivial
        | ok _ => exact ⟨shorter, by simp⟩
      · refine committed.moved committed.mirrors rfl (fun _ => inside) ?_ others
        cases ans with
        | error e => trivial
        | ok _ => exact absurd rfl failed
    | _ =>
      rw [placed] at allowed
      exact allowed.elim
  | signTreeHead head =>
    have stays : (phases i).next (.signTreeHead head) ans = phases i := by cases phases i <;> rfl
    cases answered
    rw [stays]
    exact committed.moved committed.mirrors rfl id knows fun j _ => committed.knows j

end Committed

/-! ### What a call has seen -/

/-- What a call has seen of the stores, and how many leaves it has appended since. -/
structure Glimpse where
  entries : List LedgerEntry
  leaves : List JsString
  more : ℕ

def Glimpse.Holds (ledger : List LedgerEntry) (leaves : List JsString) (seen : Glimpse) : Prop :=
  seen.entries <+: ledger ∧ seen.leaves <+: leaves ∧ seen.leaves.length + seen.more ≤ leaves.length

/-- Stores that only grow answer with what extends the earlier answers. -/
def Glimpse.Follows (seen : Glimpse) : (op : MirrorOp) → op.Answer → Glimpse → Prop
  | .ledgerAll, .ok entries, seen' => seen.entries <+: entries ∧ seen' = { seen with entries := entries }
  | .storeAll, .ok leaves, seen' =>
    seen.Holds seen.entries leaves ∧ seen' = ⟨seen.entries, leaves, 0⟩
  | .storeAppend _, .ok _, seen' => seen' = { seen with more := seen.more + 1 }
  | _, _, seen' => seen' = seen

def glimpses : Monitor MirrorOp.Answer Glimpse where
  allowed _ _ := True
  step seen op ans seen' := seen.Follows op ans seen'

section Glimpses
variable {sha256 : Bytes → Hash} {seen : Glimpse} {post : Glimpse → Throwing β → Prop}

/-- A specification that only says what a value is. -/
abbrev valued (post : Glimpse → α → Prop) (seen : Glimpse) (r : Throwing α) : Prop :=
  ∀ a, r = .ok a → post seen a

theorem glimpse_ledgerAll {post : Glimpse → β → Prop} {f : List LedgerEntry → MirrorProgram β}
    (rest : ∀ entries, seen.entries <+: entries →
      (f entries).Meets glimpses (valued post) { seen with entries := entries }) :
    (LedgerMirror.ledgerAll >>= f).Meets glimpses (valued post) seen := by
  refine meets_orThrow_bind.mpr ⟨trivial, ?_⟩
  rintro (e | entries) seen' moved
  · nofun
  · obtain ⟨longer, rfl⟩ := moved
    exact rest entries longer

theorem glimpse_storeAll {post : Glimpse → β → Prop} {f : List JsString → MirrorProgram β}
    (rest : ∀ leaves, seen.Holds seen.entries leaves →
      (f leaves).Meets glimpses (valued post) ⟨seen.entries, leaves, 0⟩) :
    (TransparencyLog.storeAll >>= f).Meets glimpses (valued post) seen := by
  refine meets_orThrow_bind.mpr ⟨trivial, ?_⟩
  rintro (e | leaves) seen' moved
  · nofun
  · obtain ⟨longer, rfl⟩ := moved
    exact rest leaves longer

/-- The queues show nothing. -/
theorem glimpse_bracket {post : Glimpse → α → Prop} (queue : MirrorQueue) {p : MirrorProgram α}
    (body : p.Meets glimpses (valued post) seen) :
    (bracket (.enter queue) (.leave queue) p).Meets glimpses (valued post) seen := by
  refine (meets_bracket _ _ _ _).mpr ⟨trivial, ?_⟩
  rintro ans _ rfl
  refine body.mono fun seen' r settled => ⟨trivial, ?_⟩
  rintro ans' _ rfl
  exact settled

theorem glimpse_bind {mid : Glimpse → α → Prop} {post : Glimpse → β → Prop} {p : MirrorProgram α}
    {f : α → MirrorProgram β} (first : p.Meets glimpses (valued mid) seen)
    (rest : ∀ seen' a, mid seen' a → (f a).Meets glimpses (valued post) seen') :
    (p >>= f).Meets glimpses (valued post) seen :=
  Meets.bind first (fun seen' a settled => rest seen' a (settled a rfl)) fun _ _ _ => nofun

theorem glimpse_appendHashes (hashes : List JsString) :
    (TransparencyLog.appendHashes hashes).Meets glimpses
      (valued fun seen' _ => seen' = { seen with more := seen.more + hashes.length }) seen := by
  induction hashes generalizing seen with
  | nil => exact fun _ _ => rfl
  | cons h rest ih =>
    refine meets_orThrow_bind.mpr ⟨trivial, ?_⟩
    rintro (e | ⟨⟩) _ rfl
    · nofun
    · refine (@ih { seen with more := seen.more + 1 }).mono fun seen' r settled a ok => ?_
      rw [settled a ok, List.length_cons, Nat.add_assoc, Nat.add_comm 1]

/-- The head of a tree with at least `count` leaves, all of them seen. -/
def HeadSeen (sha256 : Bytes → Hash) (entries : List LedgerEntry) (count : ℕ) (seen : Glimpse)
    (head : TreeHead) : Prop :=
  seen.entries = entries ∧ count ≤ seen.leaves.length ∧
    TransparencyLog.headOf sha256 seen.leaves = .ok head

theorem glimpse_head (count : ℕ) (enough : count ≤ seen.leaves.length + seen.more) :
    (TransparencyLog.head sha256).Meets glimpses
      (valued (HeadSeen sha256 seen.entries count)) seen := by
  refine glimpse_storeAll fun leaves longer head settled => ?_
  exact ⟨rfl, enough.trans longer.2.2, settled⟩

theorem glimpse_appendLeaves (datas : List JsString) :
    (TransparencyLog.appendLeaves sha256 datas).Meets glimpses
      (valued fun seen' batch =>
        HeadSeen sha256 seen.entries (seen.leaves.length + datas.length) seen' batch.head) seen := by
  refine glimpse_bracket .tree (meets_map_bind.mpr (glimpse_storeAll fun leaves longer => ?_))
  refine glimpse_bind (glimpse_appendHashes _) ?_
  rintro _ ⟨⟩ rfl
  refine glimpse_bind (glimpse_head (leaves.length + datas.length) (by simp)) ?_
  rintro seen' head ⟨same, enough, commits⟩ _ ⟨⟩
  have before : seen.leaves.length ≤ leaves.length := longer.2.1.length_le
  exact ⟨same, by omega, commits⟩

theorem glimpse_appendFresh (fresh : List JsString) :
    (LedgerMirror.appendFresh sha256 seen.leaves.length fresh).Meets glimpses
      (valued (HeadSeen sha256 seen.entries (seen.leaves.length + fresh.length))) seen := by
  unfold LedgerMirror.appendFresh
  split
  · refine glimpse_bind (glimpse_appendLeaves fresh) fun seen' batch settled => ?_
    split
    · nofun
    · rintro _ ⟨⟩
      exact settled
  · refine glimpse_head _ ?_
    omega

theorem glimpse_signedHead {head : TreeHead} :
    (LedgerMirror.signedHead signing head).Meets glimpses (valued fun seen' _ => seen' = seen)
      seen := by
  unfold LedgerMirror.signedHead
  split
  · refine (meets_map _ _ _).mpr ((Async.meets_orThrow _ _).mpr ⟨trivial, ?_⟩)
    rintro ans _ rfl _ -
    rfl
  · exact fun _ _ => rfl

/-- A sync that resolves has a head over at least the entries there were when it began. -/
theorem glimpse_sync (signing : Bool) :
    (LedgerMirror.sync sha256 signing).Meets glimpses
      (valued fun seen' result => seen.entries.length ≤ seen'.leaves.length ∧
        TransparencyLog.headOf sha256 seen'.leaves = .ok result.head) seen := by
  refine glimpse_bracket .mirror (glimpse_ledgerAll fun entries longer => ?_)
  refine meets_map_bind.mpr (glimpse_storeAll fun leaves _ => ?_)
  split
  · nofun
  rename_i within
  cases texts : ledgerEntryLeaves (entries.drop leaves.length) with
  | error e => nofun
  | ok fresh =>
    have counted := (@leaves_of_ledgerEntryLeaves sha256 _ _ texts).length_eq
    rw [List.length_drop, List.length_map] at counted
    change (LedgerMirror.appendFresh sha256 leaves.length fresh >>= _).Meets glimpses _ _
    refine glimpse_bind (@glimpse_appendFresh sha256 ⟨entries, leaves, 0⟩ fresh) ?_
    rintro seen' head ⟨-, enough, commits⟩
    refine glimpse_bind glimpse_signedHead ?_
    rintro _ signed rfl _ ⟨⟩
    have before : seen.entries.length ≤ entries.length := longer.length_le
    exact ⟨by simp only at enough; omega, commits⟩

/-! ### What an audit answers -/

variable {entries : List LedgerEntry} {leaves : List JsString}

theorem Matches.take (whole : Matches sha256 entries leaves) (i : ℕ) :
    Matches sha256 entries (leaves.take i) := by
  intro j h here
  rw [List.getElem?_take] at here
  split at here
  · exact whole j h here
  · cases here

theorem matches_take_succ {i : ℕ} (leaf : leaves[i]? = some h) (entry : entries[i]? = some e)
    (far : Matches sha256 entries (leaves.take i)) :
    Matches sha256 entries (leaves.take (i + 1)) ↔ LeafOf sha256 e h := by
  constructor
  · intro further
    obtain ⟨e', entry', own⟩ := further i h (by rw [List.getElem?_take, if_pos (by omega), leaf])
    cases entry.symm.trans entry'
    exact own
  · intro own j h' here
    rw [List.getElem?_take] at here
    split at here
    · rcases Nat.lt_succ_iff_lt_or_eq.mp ‹_› with before | rfl
      · exact far j h' (by rw [List.getElem?_take, if_pos before, here])
      · cases leaf.symm.trans here
        exact ⟨e, entry, own⟩
    · cases here

/-- A leaf that was stored is read again. -/
theorem glimpse_leafHashAt {i : ℕ} (shorter : leaves <+: seen.leaves)
    (leaf : leaves[i]? = some h) :
    (TransparencyLog.leafHashAt i).Meets glimpses (valued fun seen' a => a = h ∧
      seen'.entries = seen.entries ∧ leaves <+: seen'.leaves) seen := by
  refine glimpse_storeAll fun stored longer => ?_
  have grown : leaves <+: stored := shorter.trans longer.2.1
  obtain ⟨inside, rfl⟩ := List.getElem?_eq_some_iff.mp leaf
  rw [List.prefix_iff_getElem?.mp grown i inside]
  rintro _ ⟨⟩
  exact ⟨rfl, rfl, grown⟩

/-- The cross-check from leaf `i` on, the leaves before it matching their entries. -/
theorem glimpse_auditFrom {i : ℕ} {rest : List LedgerEntry} (read : seen.entries = entries)
    (shorter : leaves <+: seen.leaves) (within : leaves.length ≤ entries.length)
    (left : (entries.take leaves.length).drop i = rest)
    (far : Matches sha256 entries (leaves.take i)) :
    (LedgerMirror.auditFrom sha256 leaves.length i rest).Meets glimpses
      (valued fun seen' result => seen'.entries = entries ∧ leaves <+: seen'.leaves ∧
        (result.ok = true ↔ Matches sha256 entries leaves)) seen := by
  induction rest generalizing i seen with
  | nil =>
    rintro _ ⟨⟩
    have finished : leaves.length ≤ i := by
      have empty := List.drop_eq_nil_iff.mp left
      rw [List.length_take] at empty
      omega
    rw [List.take_of_length_le finished] at far
    exact ⟨read, shorter, fun _ => far, fun _ => rfl⟩
  | cons entry rest ih =>
    have here : (entries.take leaves.length)[i]? = some entry := by
      rw [← List.head?_drop, left]
      rfl
    rw [List.getElem?_take] at here
    split at here
    · rename_i inside
      obtain ⟨h, leaf⟩ : ∃ h, leaves[i]? = some h := ⟨_, List.getElem?_eq_getElem inside⟩
      have next := matches_take_succ leaf here far
      rw [LedgerMirror.auditFrom]
      cases hashed : entryLeafHash sha256 entry with
      | error e =>
        rintro _ ⟨⟩
        refine ⟨read, shorter, nofun, fun whole => ?_⟩
        have own : entryLeafHash sha256 entry = .ok h := next.mp (whole.take (i + 1))
        rw [hashed] at own
        cases own
      | ok expected =>
        refine glimpse_bind (glimpse_leafHashAt shorter leaf) ?_
        rintro seen' _ ⟨rfl, same, shorter'⟩
        split
        · rename_i differs
          rintro _ ⟨⟩
          refine ⟨same.trans read, shorter', nofun, fun whole => ?_⟩
          have own : entryLeafHash sha256 entry = .ok _ := next.mp (whole.take (i + 1))
          rw [hashed] at own
          exact absurd (Except.ok.inj own).symm differs
        · rename_i equal
          have own : LeafOf sha256 entry expected := hashed
          rw [not_not] at equal
          refine ih (same.trans read) shorter' ?_ (next.mpr (equal ▸ own))
          rw [← List.drop_drop, left]
          rfl
    · cases here

/-- What the two reads of an audit have seen. -/
theorem glimpse_readBoth (ledgerFirst : Bool) :
    (LedgerMirror.readBoth ledgerFirst).Meets glimpses (valued fun seen' p =>
      seen.entries <+: p.1 ∧ seen'.entries = p.1 ∧ seen.leaves <+: seen'.leaves ∧
        p.2 = seen'.leaves.length) seen := by
  cases ledgerFirst with
  | true =>
    refine glimpse_ledgerAll fun entries longer => ?_
    refine meets_map_bind.mpr (glimpse_storeAll fun leaves grown => ?_)
    rintro _ ⟨⟩
    exact ⟨longer, rfl, grown.2.1, rfl⟩
  | false =>
    refine meets_map_bind.mpr (glimpse_storeAll fun leaves grown => ?_)
    refine glimpse_ledgerAll fun entries longer => ?_
    rintro _ ⟨⟩
    exact ⟨longer, rfl, grown.2.1, rfl⟩

theorem glimpse_audit (ledgerFirst : Bool) :
    (LedgerMirror.audit sha256 ledgerFirst).Meets glimpses
      (valued fun seen' result => seen.entries <+: seen'.entries ∧ ∃ leaves,
        seen.leaves <+: leaves ∧ leaves <+: seen'.leaves ∧
          (result.ok = true ↔ Matches sha256 seen'.entries leaves)) seen := by
  refine glimpse_bracket .mirror (glimpse_bind (glimpse_readBoth ledgerFirst) ?_)
  rintro seen' ⟨entries, size⟩ ⟨longer, rfl, grown, rfl⟩
  dsimp only
  split
  · rename_i beyond
    rintro _ ⟨⟩
    refine ⟨longer, seen'.leaves, grown, List.prefix_rfl, nofun, fun whole => ?_⟩
    obtain ⟨entry, found, -⟩ := whole _ _ (List.getElem?_eq_getElem beyond)
    have := (List.getElem?_eq_some_iff.mp found).1
    omega
  · rename_i within
    have start : Matches sha256 seen'.entries (seen'.leaves.take 0) := by
      intro i h here
      simp at here
    refine (glimpse_auditFrom rfl List.prefix_rfl (by omega) rfl start).mono ?_
    intro seen'' r settled result ok
    obtain ⟨same, kept, answer⟩ := settled result ok
    rw [same]
    exact ⟨longer, seen'.leaves, grown, kept, answer⟩

end Glimpses

/-! ### Runs -/

section Runs
variable [DecidableEq ι] {sha256 : Bytes → Hash} {world world' : MirrorWorld ι} {seen : Glimpse}

/-- The stores only grow. -/
theorem Glimpse.Holds.step (holds : seen.Holds world.ledger world.leaves)
    (answered : mirrorAnswers world i op ans world') : seen.Holds world'.ledger world'.leaves := by
  obtain ⟨entries, leaves, counted⟩ := holds
  cases op with
  | ledgerAppend entry =>
    rcases answered with rfl | ⟨-, rfl⟩
    · exact ⟨entries.trans (List.prefix_append _ _), leaves, counted⟩
    · exact ⟨entries, leaves, counted⟩
  | storeAppend h =>
    rcases answered with rfl | ⟨-, rfl⟩
    · refine ⟨entries, leaves.trans (List.prefix_append _ _), ?_⟩
      rw [List.length_append]
      omega
    · exact ⟨entries, leaves, counted⟩
  | enter queue => exact answered.2 ▸ ⟨entries, leaves, counted⟩
  | ledgerAll | storeAll => exact answered.1 ▸ ⟨entries, leaves, counted⟩
  | leave queue | signTreeHead head => exact answered ▸ ⟨entries, leaves, counted⟩

/-- A call's own steps show it what the stores hold. -/
theorem Glimpse.Holds.follow (holds : seen.Holds world.ledger world.leaves) {op : MirrorOp}
    {ans : op.Answer} (answered : mirrorAnswers world i op ans world') :
    ∃ seen', seen.Follows op ans seen' ∧ seen'.Holds world'.ledger world'.leaves := by
  have kept := holds.step answered
  obtain ⟨entries, leaves, counted⟩ := holds
  cases op with
  | ledgerAll =>
    obtain ⟨rfl, told⟩ := answered
    cases ans with
    | error e => exact ⟨seen, rfl, kept⟩
    | ok found =>
      cases told found rfl
      exact ⟨_, ⟨entries, rfl⟩, List.prefix_rfl, leaves, counted⟩
  | storeAll =>
    obtain ⟨rfl, told⟩ := answered
    cases ans with
    | error e => exact ⟨seen, rfl, kept⟩
    | ok found =>
      cases told found rfl
      exact ⟨_, ⟨⟨List.prefix_rfl, leaves, counted⟩, rfl⟩, entries, List.prefix_rfl, le_rfl⟩
  | storeAppend h =>
    cases ans with
    | error e => exact ⟨seen, rfl, kept⟩
    | ok done =>
      rcases answered with rfl | ⟨failed, -⟩
      · refine ⟨_, rfl, entries, leaves.trans (List.prefix_append _ _), ?_⟩
        rw [List.length_append]
        exact Nat.add_le_add_right counted 1
      · exact absurd rfl failed
  | _ => exact ⟨seen, rfl, kept⟩

/-- What a call that has not begun will have seen when it has settled. -/
theorem seen_of_run {mid pool : Pool MirrorOp.Answer Thrown MirrorAnswer (MirrorWorld ι) ι}
    {post : Glimpse → MirrorAnswer → Prop} (run : Async.Run mirrorAnswers mid events pool)
    (meets : (mid.threads i).Meets glimpses (valued post) ⟨mid.world.ledger, mid.world.leaves, 0⟩)
    (settled : pool.threads i = Async.done (.ok answer)) :
    ∃ seen, seen.Holds pool.world.ledger pool.world.leaves ∧ post seen answer := by
  obtain ⟨seen, holds, rest⟩ := run.watch i (fun world seen => seen.Holds world.ledger world.leaves)
    meets ⟨List.prefix_rfl, List.prefix_rfl, le_rfl⟩ (fun holds _ answered => holds.follow answered)
    fun _ holds answered => holds.step answered
  rw [settled] at rest
  exact ⟨seen, holds, rest answer rfl⟩

/-- What can be said of the mirror in any state of a run. -/
structure Mirroring (sha256 : Bytes → Hash) (signing : Bool) (start : MirrorWorld ι)
    (pool : Pool MirrorOp.Answer Thrown MirrorAnswer (MirrorWorld ι) ι) : Prop where
  commits : Mirrors sha256 start.ledger start.leaves →
    Mirrors sha256 pool.world.ledger pool.world.leaves
  /-- The head of a sync is over some of the leaves, which are at least as many as the entries when
  the sync began. -/
  syncs : ∀ {i mid events result}, Async.Run mirrorAnswers mid events pool →
    mid.threads i = MirrorCall.sync.program sha256 signing →
    pool.threads i = Async.done (.ok (.synced result)) →
    ∃ leaves, leaves <+: pool.world.leaves ∧ mid.world.ledger.length ≤ leaves.length ∧
      TransparencyLog.headOf sha256 leaves = .ok result.head
  /-- An audit compares a ledger and leaves that there were while it ran. -/
  audits : ∀ {i mid events ledgerFirst result}, Async.Run mirrorAnswers mid events pool →
    mid.threads i = (MirrorCall.audit ledgerFirst).program sha256 signing →
    pool.threads i = Async.done (.ok (.audited result)) →
    ∃ entries leaves, mid.world.ledger <+: entries ∧ entries <+: pool.world.ledger ∧
      mid.world.leaves <+: leaves ∧ leaves <+: pool.world.leaves ∧
      (result.ok = true ↔ Matches sha256 entries leaves)

/-- The mirror commits to a prefix of the ledger, whatever calls overlap and wherever the stores fail:
the leaves are those of the first entries; a sync that resolves has caught up with the ledger it
began on; and an audit is ok exactly if every leaf is that of its entry. -/
theorem mirror_commits_in_order (signing : Bool) (calls : ι → MirrorCall) {start : MirrorWorld ι}
    (run : Async.Run mirrorAnswers ⟨start, fun i => (calls i).program sha256 signing⟩ events pool) :
    Mirroring sha256 signing start pool where
  commits mirrors := by
    obtain ⟨phases, committed, -⟩ := run.invariant (fun _ => turn sha256) (fun _ _ _ => True)
      (fun _ => Committed sha256) (fun i => call_turn signing (calls i))
      ⟨mirrors, fun i placed => absurd rfl placed, fun i => trivial⟩
      fun _ _ phases i op ans _ committed allowed answered =>
        ⟨(phases i).next op ans, rfl, committed.step allowed answered⟩
    exact committed.mirrors
  syncs := by
    intro i mid events result later begun settled
    have meets : (mid.threads i).Meets glimpses (valued fun seen answer =>
        ∀ result, answer = .synced result → mid.world.ledger.length ≤ seen.leaves.length ∧
          TransparencyLog.headOf sha256 seen.leaves = .ok result.head)
        ⟨mid.world.ledger, mid.world.leaves, 0⟩ := by
      rw [begun]
      refine (meets_map _ _ _).mpr ((glimpse_sync signing).mono fun seen r known => ?_)
      rintro _ mapped result rfl
      cases r with
      | error e => cases mapped
      | ok _ =>
        cases mapped
        exact known _ rfl
    obtain ⟨seen, holds, known⟩ := seen_of_run later meets settled
    exact ⟨seen.leaves, holds.2.1, known result rfl⟩
  audits := by
    intro i mid events ledgerFirst result later begun settled
    have meets : (mid.threads i).Meets glimpses (valued fun seen answer =>
        ∀ result, answer = .audited result → mid.world.ledger <+: seen.entries ∧ ∃ leaves,
          mid.world.leaves <+: leaves ∧ leaves <+: seen.leaves ∧
            (result.ok = true ↔ Matches sha256 seen.entries leaves))
        ⟨mid.world.ledger, mid.world.leaves, 0⟩ := by
      rw [begun]
      refine (meets_map _ _ _).mpr ((glimpse_audit ledgerFirst).mono fun seen r known => ?_)
      rintro _ mapped result rfl
      cases r with
      | error e => cases mapped
      | ok _ =>
        cases mapped
        exact known _ rfl
    obtain ⟨seen, holds, known⟩ := seen_of_run later meets settled
    obtain ⟨longer, leaves, grown, kept, answer⟩ := known result rfl
    exact ⟨seen.entries, leaves, longer, holds.1, grown, kept.trans holds.2.1, answer⟩

end Runs

section Sample

def row (seq : ℕ) : LedgerEntry where
  timestamp := "t"
  type := .executionResult
  refs := ⟨none, none⟩
  data := .null
  seq := (seq : ℤ)
  prevHash := "p"
  hash := "h"

/-- Two syncs, an append and an audit. -/
def sampleCalls : Fin 4 → MirrorCall
  | 0 | 1 => .sync
  | 2 => .append (row 2)
  | 3 => .audit true

/-- The store refuses the second leaf of the first sync. -/
def sampleOracle (world : MirrorWorld (Fin 4)) (i : Fin 4) :
    (op : MirrorOp) → Option (op.Answer × MirrorWorld (Fin 4))
  | .enter queue =>
    if world.holder queue = none then
      some ((), { world with holder := Function.update world.holder queue (some i) }) else none
  | .leave queue => some ((), { world with holder := Function.update world.holder queue none })
  | .ledgerAll => some (.ok world.ledger, world)
  | .storeAll => some (.ok world.leaves, world)
  | .ledgerAppend entry => some (.ok (), { world with ledger := world.ledger ++ [entry] })
  | .storeAppend h =>
    if i = 0 ∧ world.leaves.length = 1 then some (.error (.error "ENOSPC"), world)
    else some (.ok (), { world with leaves := world.leaves ++ [h] })
  | .signTreeHead _ => none

theorem sampleOracle_answers {world world' : MirrorWorld (Fin 4)}
    (told : sampleOracle world i op = some (ans, world')) : mirrorAnswers world i op ans world' := by
  cases op with
  | enter queue =>
    rw [sampleOracle] at told
    split at told
    · cases told
      exact ⟨‹_›, rfl⟩
    · cases told
  | storeAppend h =>
    rw [sampleOracle] at told
    split at told
    · cases told
      exact .inr ⟨nofun, rfl⟩
    · cases told
      exact .inl rfl
  | ledgerAppend entry =>
    cases told
    exact .inl rfl
  | ledgerAll | storeAll =>
    cases told
    exact ⟨rfl, fun _ same => (Except.ok.inj same).symm⟩
  | leave queue =>
    cases told
    rfl
  | signTreeHead head => cases told

def sampleStart : MirrorWorld (Fin 4) := ⟨[row 0, row 1], [], fun _ => none⟩

/-- The first sync fails half-way, an entry follows, and the second sync and the audit succeed. -/
def samplePool : Pool MirrorOp.Answer Thrown MirrorAnswer (MirrorWorld (Fin 4)) (Fin 4) :=
  Pool.attempt sampleOracle (List.replicate 9 0 ++ [2] ++ List.replicate 11 1 ++ List.replicate 7 3)
    ⟨sampleStart, fun i => (sampleCalls i).program (fun data => Sample.hash data.length) false⟩

theorem interrupted_batch_mirrored :
    samplePool.world.leaves.length = 3 ∧
      Mirrors (fun data => Sample.hash data.length) samplePool.world.ledger samplePool.world.leaves := by
  obtain ⟨events, run⟩ := @Pool.run_attempt _ _ Thrown MirrorAnswer _ _ _ mirrorAnswers _ sampleOracle_answers
    (List.replicate 9 0 ++ [2] ++ List.replicate 11 1 ++ List.replicate 7 3)
    ⟨sampleStart, fun i => (sampleCalls i).program (fun data => Sample.hash data.length) false⟩
  refine ⟨by decide +kernel, (mirror_commits_in_order false sampleCalls run).commits ?_⟩
  exact ⟨0, Nat.zero_le _, .nil⟩

end Sample
end Vaduno.Transparency
