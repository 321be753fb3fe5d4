import Vaduno.Revocation.Turns

/-! What a published list is built from. A publish takes a snapshot and then reads on while the store
moves; what it lists lies between what the store showed at the snapshot and at the last read. -/
namespace Vaduno.Revocation
open Ecma Ledger Enforce Async

/-- A bit that a list of permanent revocations has to show: of a record, or of a mandate of a blocked
agent. -/
def Shown (s : MemoryRevocationStore) (x : Number) : Prop :=
  (∃ mandateId record, s.get mandateId = some record ∧ record.purpose = .revocation ∧
    record.index = some x) ∨
  ∃ agentId mandateId, s.Barred agentId ∧ mandateId ∈ s.byAgent agentId ∧
    ∃ k : ℕ, s.indices mandateId = some k ∧ x = (k : ℤ)

/-- What no write takes back that goes over nothing permanent. -/
structure Grows (s t : MemoryRevocationStore) : Prop where
  records : ∀ mandateId record, s.get mandateId = some record → record.purpose = .revocation →
    t.get mandateId = some record
  blocks : ∀ agentId, s.Barred agentId → t.Barred agentId
  links : ∀ agentId mandateId, mandateId ∈ s.byAgent agentId → mandateId ∈ t.byAgent agentId
  indices : ∀ mandateId k, s.indices mandateId = some k → t.indices mandateId = some k

section Growth
variable {s t u : MemoryRevocationStore} {op : RegistryOp} {mandateId agentId : JsString}

theorem Grows.refl : Grows s s :=
  ⟨fun _ _ found _ => found, fun _ barred => barred, fun _ _ linked => linked, fun _ _ given => given⟩

theorem Grows.trans (first : Grows s t) (second : Grows t u) : Grows s u where
  records mandateId record found permanent :=
    second.records mandateId record (first.records mandateId record found permanent) permanent
  blocks agentId barred := second.blocks agentId (first.blocks agentId barred)
  links agentId mandateId linked := second.links agentId mandateId (first.links agentId mandateId linked)
  indices mandateId k given := second.indices mandateId k (first.indices mandateId k given)

theorem Grows.shown (grows : Grows s t) (shown : Shown s x) : Shown t x := by
  rcases shown with ⟨mandateId, record, found, permanent, index⟩ | ⟨agentId, mandateId, barred, linked, k, given, rfl⟩
  · exact .inl ⟨mandateId, record, grows.records _ _ found permanent, permanent, index⟩
  · exact .inr ⟨agentId, mandateId, grows.blocks _ barred, grows.links _ _ linked, k,
      grows.indices _ _ given, rfl⟩

theorem linkSome_links (link : Option JsString) (linked : mandateId ∈ s.byAgent agentId) :
    mandateId ∈ (s.linkSome other link).byAgent agentId := by
  cases link with
  | none => exact linked
  | some named =>
    change mandateId ∈ Function.update s.byAgent named _ agentId
    by_cases same : agentId = named
    · subst same
      rw [Function.update_self]
      split
      · exact linked
      · exact List.mem_append_left _ linked
    · rw [Function.update_of_ne same]
      exact linked

theorem allocate_grows (link : Option JsString) (capacity : Number) :
    Grows s (s.allocate mandateId link capacity).2 where
  records other record found _ := by
    rw [MemoryRevocationStore.get, MemoryRevocationStore.allocate_records]
    exact found
  blocks other barred := by
    obtain ⟨block, found, permanent⟩ := barred
    refine ⟨block, ?_, permanent⟩
    rw [MemoryRevocationStore.getAgentBlock, MemoryRevocationStore.allocate_blocked]
    exact found
  links other linked member := by
    unfold MemoryRevocationStore.allocate
    split
    · exact linkSome_links link member
    · split
      · exact member
      · exact linkSome_links link member
  indices other k given := by
    unfold MemoryRevocationStore.allocate
    split
    · rw [MemoryRevocationStore.linkSome_indices]
      exact given
    · rename_i fresh
      split
      · exact given
      · rw [MemoryRevocationStore.linkSome_indices]
        have different : other ≠ mandateId := by
          rintro rfl
          rw [fresh] at given
          cases given
        exact (Function.update_of_ne different _ _).trans given

/-- A write over nothing that is revoked for good only adds. -/
theorem Live.grows (live : Live s op) : Grows s (op.moves s) := by
  have unwritten : ∀ {t : MemoryRevocationStore}, t.records = s.records → t.blocked = s.blocked →
      t.byAgent = s.byAgent → t.indices = s.indices → Grows s t := by
    intro t records blocked links indices
    refine ⟨fun _ _ found _ => ?_, fun _ barred => ?_, fun _ _ linked => ?_, fun _ _ given => ?_⟩
    · rw [MemoryRevocationStore.get, records]
      exact found
    · rw [MemoryRevocationStore.Barred, MemoryRevocationStore.getAgentBlock, blocked]
      exact barred
    · rw [links]
      exact linked
    · rw [indices]
      exact given
  cases op with
  | allocate mandateId link capacity => exact allocate_grows link capacity
  | revoke record =>
    refine ⟨fun other found held permanent => ?_, fun _ barred => barred, fun _ _ linked => linked,
      fun _ _ given => given⟩
    rw [RegistryOp.moves, MemoryRevocationStore.get_revoke, if_neg]
    · exact held
    · rintro rfl
      exact live ⟨found, held, permanent⟩
  | clear cleared =>
    refine ⟨fun other found held permanent => ?_, fun _ barred => barred, fun _ _ linked => linked,
      fun _ _ given => given⟩
    rw [RegistryOp.moves, MemoryRevocationStore.get_clear, if_neg]
    · exact held
    · rintro rfl
      exact live ⟨found, held, permanent⟩
  | blockAgent blockee block =>
    have kept : (s.blockAgent blockee block).records = s.records ∧
        (s.blockAgent blockee block).byAgent = s.byAgent ∧
        (s.blockAgent blockee block).indices = s.indices := by
      unfold MemoryRevocationStore.blockAgent
      split <;> exact ⟨rfl, rfl, rfl⟩
    refine ⟨fun _ _ found _ => ?_, fun agentId barred => live.harmless.barred barred,
      fun _ _ linked => ?_, fun _ _ given => ?_⟩
    · rw [RegistryOp.moves, MemoryRevocationStore.get, kept.1]
      exact found
    · rw [RegistryOp.moves, kept.2.1]
      exact linked
    · rw [RegistryOp.moves, kept.2.2]
      exact given
  | unblockAgent lifted =>
    exact ⟨fun _ _ found _ => found, fun agentId barred => live.harmless.barred barred,
      fun _ _ linked => linked, fun _ _ given => given⟩
  | _ => exact unwritten rfl rfl rfl rfl

/-- The writes that can make a list of permanent revocations show more. -/
def Adds : RegistryOp → Prop
  | .revoke record => record.purpose = .revocation
  | .blockAgent _ block => block.purpose = .revocation
  | .allocate .. => True
  | _ => False

theorem barred_blockAgent_suspension {block : AgentBlock} (liftable : block.purpose ≠ .revocation)
    (barred : (s.blockAgent blockee block).Barred agentId) : s.Barred agentId := by
  obtain ⟨held, found, permanent⟩ := barred
  rw [MemoryRevocationStore.getAgentBlock_blockAgent] at found
  split at found
  · cases found
    exact absurd permanent liftable
  · exact ⟨held, found, permanent⟩

/-- Any other write shows nothing new. -/
theorem shown_of_moves (adds : ¬Adds op) (shown : Shown (op.moves s) x) : Shown s x := by
  cases op with
  | allocate _ _ _ => exact absurd trivial adds
  | revoke record =>
    rcases shown with ⟨mandateId, found, held, permanent, index⟩ | barred
    · rw [RegistryOp.moves, MemoryRevocationStore.get_revoke] at held
      split at held
      · cases held
        exact absurd permanent adds
      · exact .inl ⟨mandateId, found, held, permanent, index⟩
    · exact .inr barred
  | clear cleared =>
    rcases shown with ⟨mandateId, found, held, permanent, index⟩ | barred
    · rw [RegistryOp.moves, MemoryRevocationStore.get_clear] at held
      split at held
      · cases held
      · exact .inl ⟨mandateId, found, held, permanent, index⟩
    · exact .inr barred
  | blockAgent blockee block =>
    rcases shown with ⟨mandateId, found, held, permanent, index⟩ | ⟨agentId, mandateId, barred, linked, given⟩
    · refine .inl ⟨mandateId, found, ?_, permanent, index⟩
      rw [RegistryOp.moves, MemoryRevocationStore.blockAgent] at held
      split at held <;> exact held
    · refine .inr ⟨agentId, mandateId, barred_blockAgent_suspension adds barred, ?_, ?_⟩
      · rw [RegistryOp.moves, MemoryRevocationStore.blockAgent] at linked
        split at linked <;> exact linked
      · rw [RegistryOp.moves, MemoryRevocationStore.blockAgent] at given
        split at given <;> exact given
  | unblockAgent lifted =>
    rcases shown with recorded | ⟨agentId, mandateId, barred, rest⟩
    · exact .inl recorded
    · refine .inr ⟨agentId, mandateId, ?_, rest⟩
      obtain ⟨block, found, permanent⟩ := barred
      rw [RegistryOp.moves, MemoryRevocationStore.getAgentBlock_unblockAgent] at found
      split at found
      · cases found
      · exact ⟨block, found, permanent⟩
  | _ => exact shown

end Growth

/-! ### What a publish collects -/

/-- A publish that has not taken its snapshot, or one that took it of `since` and has last read
`till`. -/
inductive Collecting
  | before
  | listing (since till : MemoryRevocationStore)

def Collecting.Allows : Collecting → RegistryOp → Prop
  | before, .getAgentBlock _ | before, .mandatesFor _ | before, .indexOf _ => False
  | listing .., .snapshot => False
  | _, _ => True

/-- Every read is of a store that has only grown. -/
def Collecting.Leads : Collecting → (op : RegistryOp) → op.Answer → Collecting → Prop
  | before, .snapshot, .ok snap, φ => ∃ s, s.snapshot = snap ∧ φ = listing s s
  | listing since till, .getAgentBlock agentId, .ok found, φ => ∃ now, Grows since now ∧
    Grows till now ∧ now.getAgentBlock agentId = found ∧ φ = listing since now
  | listing since till, .mandatesFor agentId, .ok mandateIds, φ => ∃ now, Grows since now ∧
    Grows till now ∧ now.byAgent agentId = mandateIds ∧ φ = listing since now
  | listing since till, .indexOf mandateId, .ok index, φ => ∃ now, Grows since now ∧
    Grows till now ∧ now.indices mandateId = index ∧ φ = listing since now
  | φ, _, _, φ' => φ' = φ

def collecting : Monitor RegistryOp.Answer Collecting where
  allowed φ op := φ.Allows op
  step φ op ans φ' := φ.Leads op ans φ'

/-- Bits that a store accounts for. -/
structure Fits (made : Bitstring) (s : MemoryRevocationStore) (bits : Bitstring) : Prop where
  length : bits.length = made.length
  shown : ∀ n, bits.Has n → ∃ x, Shown s x ∧ made.locate x = .ok n

/-- Bits with nothing taken back. -/
structure Extends (bits bits' : Bitstring) : Prop where
  length : bits'.length = bits.length
  has : ∀ n, bits.Has n → bits'.Has n

section Bits
variable {made bits bits' : Bitstring} {s t : MemoryRevocationStore} {x : Number}

theorem Extends.refl : Extends bits bits := ⟨rfl, fun _ has => has⟩

theorem Extends.trans (first : Extends bits bits') (second : Extends bits' bits'') :
    Extends bits bits'' :=
  ⟨second.length.trans first.length, fun n has => second.has n (first.has n has)⟩

theorem Extends.get (extends_ : Extends bits bits') (set : bits.get x = .ok true) :
    bits'.get x = .ok true := by
  obtain ⟨n, located, has⟩ := Bitstring.get_eq_true.mp set
  refine Bitstring.get_eq_true.mpr ⟨n, ?_, extends_.has n has⟩
  rw [Bitstring.locate_congr extends_.length]
  exact located

theorem Fits.grows (fits : Fits made s bits) (grows : Grows s t) : Fits made t bits :=
  ⟨fits.length, fun n has =>
    let ⟨x, shown, located⟩ := fits.shown n has
    ⟨x, grows.shown shown, located⟩⟩

/-- A bit set for something shown. -/
theorem Fits.set (fits : Fits made s bits) (shown : Shown s x) (set : bits.set x = .ok bits') :
    Fits made s bits' ∧ Extends bits bits' ∧ bits'.get x = .ok true := by
  obtain ⟨length, n, located, has⟩ := Bitstring.set_eq_ok set
  refine ⟨⟨length.trans fits.length, fun m held => ?_⟩, ⟨length, fun m held => (has m).mpr (.inl held)⟩, ?_⟩
  · rcases (has m).mp held with old | rfl
    · exact fits.shown m old
    · refine ⟨x, shown, ?_⟩
      rw [Bitstring.locate_congr fits.length.symm]
      exact located
  · refine Bitstring.get_eq_true.mpr ⟨n, ?_, (has n).mpr (.inr rfl)⟩
    rw [Bitstring.locate_congr length]
    exact located

/-- The bits of the records of a snapshot. -/
theorem setRecords_fits {rows : List RevocationRecord} {list' : Bitstring × ℕ} (list : Bitstring × ℕ)
    (held : ∀ record ∈ rows, s.get record.mandateId = some record) (fits : Fits made s list.1)
    (done : RevocationRegistry.setRecords .revocation rows list = .ok list') :
    Fits made s list'.1 ∧ Extends list.1 list'.1 ∧ ∀ record ∈ rows, ∀ x,
      record.purpose = .revocation → record.index = some x → list'.1.get x = .ok true := by
  induction rows generalizing list with
  | nil =>
    rw [RevocationRegistry.setRecords] at done
    obtain rfl := Except.ok.inj done
    exact ⟨fits, .refl, fun record member => (List.not_mem_nil member).elim⟩
  | cons record rest ih =>
    have later : ∀ other ∈ rest, s.get other.mandateId = some other :=
      fun other member => held other (List.mem_cons_of_mem _ member)
    rw [RevocationRegistry.setRecords] at done
    split at done
    · rename_i liftable
      obtain ⟨fits', extends', set⟩ := ih list later fits done
      refine ⟨fits', extends', fun other member x permanent index => ?_⟩
      rcases List.mem_cons.mp member with rfl | member
      · exact absurd permanent liftable
      · exact set other member x permanent index
    · rename_i permanent
      cases known : record.index with
      | none =>
        rw [known] at done
        dsimp only at done
        obtain ⟨fits', extends', set⟩ := ih (list.1, list.2 + 1) later fits done
        refine ⟨fits', extends', fun other member x permanent index => ?_⟩
        rcases List.mem_cons.mp member with rfl | member
        · cases known.symm.trans index
        · exact set other member x permanent index
      | some own =>
        rw [known] at done
        dsimp only at done
        cases written : list.1.set own with
        | error e =>
          rw [written] at done
          cases done
        | ok bits =>
          rw [written] at done
          have shown : Shown s own := .inl ⟨record.mandateId, record,
            held record List.mem_cons_self, not_not.mp permanent, known⟩
          obtain ⟨fits, grown, own_set⟩ := fits.set shown written
          obtain ⟨fits', extends', set⟩ := ih (bits, list.2) later fits done
          refine ⟨fits', grown.trans extends', fun other member x permanent index => ?_⟩
          rcases List.mem_cons.mp member with rfl | member
          · cases known.symm.trans index
            exact extends'.get own_set
          · exact set other member x permanent index

end Bits

section Programs
variable {registry : RevocationRegistry} {made : Bitstring} {since till : MemoryRevocationStore}
  {agentId : JsString} {purpose : StatusPurpose} {version : Number}

/-- A part of a publish that has set the bits it must, and no others than the store accounts for. -/
def Sets (made : Bitstring) (since till : MemoryRevocationStore) (bits : Bitstring)
    (must : Number → Prop) : Collecting → Throwing (Bitstring × ℕ) → Prop := fun φ r =>
  ∃ till', φ = .listing since till' ∧ Grows since till' ∧ Grows till till' ∧ ∀ list, r = .ok list →
    Fits made till' list.1 ∧ Extends bits list.1 ∧ ∀ x, must x → list.1.get x = .ok true

/-- What a part still sets after bits that are set already. -/
theorem Sets.after {bits bits' : Bitstring} {must must' : Number → Prop} {now : MemoryRevocationStore}
    {φ : Collecting} {r : Throwing (Bitstring × ℕ)} (sets : Sets made since now bits' must φ r)
    (grows : Grows till now) (grown : Extends bits bits')
    (covers : ∀ x, must' x → must x ∨ bits'.get x = .ok true) : Sets made since till bits must' φ r := by
  obtain ⟨till', rfl, later, onward, done⟩ := sets
  refine ⟨till', rfl, later, grows.trans onward, fun list ok => ?_⟩
  obtain ⟨fits, extends', set⟩ := done list ok
  refine ⟨fits, grown.trans extends', fun x owed => ?_⟩
  rcases covers x owed with rest | already
  · exact set x rest
  · exact extends'.get already

theorem Sets.thrown {bits : Bitstring} {must : Number → Prop} {now : MemoryRevocationStore}
    (later : Grows since now) (grows : Grows till now) (e : Thrown) :
    Sets made since till bits must (.listing since now) (.error e) :=
  ⟨now, rfl, later, grows, fun _ ok => by cases ok⟩

theorem setMandates_sets (barred : till.Barred agentId) (later : Grows since till)
    (mandateIds : List JsString) (linked : ∀ mandateId ∈ mandateIds, mandateId ∈ till.byAgent agentId)
    (list : Bitstring × ℕ) (fits : Fits made till list.1) :
    (RevocationRegistry.setMandates mandateIds list).Meets collecting
      (Sets made since till list.1 fun x => ∃ mandateId ∈ mandateIds, ∃ k : ℕ,
        since.indices mandateId = some k ∧ x = (k : ℤ)) (.listing since till) := by
  induction mandateIds generalizing till list with
  | nil =>
    refine ⟨till, rfl, later, .refl, fun list' ok => ?_⟩
    obtain rfl := Except.ok.inj ok
    exact ⟨fits, .refl, fun x ⟨_, member, _⟩ => (List.not_mem_nil member).elim⟩
  | cons mandateId rest ih =>
    refine meets_orThrow_bind.mpr ((meets_perform _ _).mpr ⟨trivial, fun ans φ moved => ?_⟩)
    cases ans with
    | error e =>
      obtain rfl : φ = .listing since till := moved
      exact Sets.thrown later .refl e
    | ok found =>
      obtain ⟨now, sooner, onward, read, rfl⟩ := moved
      have linked' : ∀ other ∈ rest, other ∈ now.byAgent agentId :=
        fun other member => onward.links _ _ (linked other (List.mem_cons_of_mem _ member))
      have barred' := onward.blocks _ barred
      have own : ∀ k, since.indices mandateId = some k → found = some k := fun k given =>
        read.symm.trans (sooner.indices _ _ given)
      cases found with
      | none =>
        refine (ih barred' sooner linked' (list.1, list.2 + 1) (fits.grows onward)).mono ?_
        refine fun φ r sets => sets.after onward .refl ?_
        rintro x ⟨other, member, k, given, rfl⟩
        rcases List.mem_cons.mp member with rfl | member
        · cases own k given
        · exact .inl ⟨other, member, k, given, rfl⟩
      | some index =>
        refine (?_ : Meets _ _ (Async.settled (list.1.set (index : ℤ)) >>= fun bits =>
          RevocationRegistry.setMandates rest (bits, list.2)) _)
        cases written : list.1.set (index : ℤ) with
        | error e => exact Sets.thrown sooner onward e
        | ok bits =>
          have shown : Shown now (index : ℤ) := .inr ⟨agentId, mandateId, barred',
            onward.links _ _ (linked mandateId List.mem_cons_self), index, read, rfl⟩
          obtain ⟨fits', grown, set⟩ := (fits.grows onward).set shown written
          refine (ih barred' sooner linked' (bits, list.2) fits').mono ?_
          refine fun φ r sets => sets.after onward grown ?_
          rintro x ⟨other, member, k, given, rfl⟩
          rcases List.mem_cons.mp member with rfl | member
          · cases own k given
            exact .inr set
          · exact .inl ⟨other, member, k, given, rfl⟩

theorem setAgents_sets (later : Grows since till) (agentIds : List JsString) (list : Bitstring × ℕ)
    (fits : Fits made till list.1) :
    (RevocationRegistry.setAgents .revocation agentIds list).Meets collecting
      (Sets made since till list.1 fun x => ∃ agentId ∈ agentIds, since.Barred agentId ∧
        ∃ mandateId ∈ since.byAgent agentId, ∃ k : ℕ, since.indices mandateId = some k ∧ x = (k : ℤ))
      (.listing since till) := by
  induction agentIds generalizing till list with
  | nil =>
    refine ⟨till, rfl, later, .refl, fun list' ok => ?_⟩
    obtain rfl := Except.ok.inj ok
    exact ⟨fits, .refl, fun x ⟨_, member, _⟩ => (List.not_mem_nil member).elim⟩
  | cons agentId rest ih =>
    refine meets_orThrow_bind.mpr ((meets_perform _ _).mpr ⟨trivial, fun ans φ moved => ?_⟩)
    cases ans with
    | error e =>
      obtain rfl : φ = .listing since till := moved
      exact Sets.thrown later .refl e
    | ok found =>
      obtain ⟨now, sooner, onward, read, rfl⟩ := moved
      refine (?_ : Meets _ _ (if found.any (·.purpose = .revocation) then _ else _) _)
      split
      · rename_i permanent
        have barred : now.Barred agentId := by
          obtain ⟨block, held, forGood⟩ := (Option.any_eq_true _ _).mp permanent
          exact ⟨block, read.trans held, of_decide_eq_true forGood⟩
        refine meets_orThrow_bind.mpr ((meets_perform _ _).mpr ⟨trivial, fun ans φ moved => ?_⟩)
        cases ans with
        | error e =>
          obtain rfl : φ = .listing since now := moved
          exact Sets.thrown sooner onward e
        | ok mandateIds =>
          obtain ⟨then_, sooner', onward', linked, rfl⟩ := moved
          have fits' := fits.grows (onward.trans onward')
          refine Meets.bind (setMandates_sets (onward'.blocks _ barred) sooner' mandateIds
            (fun mandateId member => linked ▸ member) list fits') ?_ ?_
          · rintro _ list' ⟨last, rfl, sooner'', onward'', done⟩
            obtain ⟨fits'', grown, set⟩ := done list' rfl
            refine (ih sooner'' list' fits'').mono fun φ r sets =>
              sets.after ((onward.trans onward').trans onward'') grown ?_
            rintro x ⟨other, member, barred, mandateId, linked', k, given, rfl⟩
            rcases List.mem_cons.mp member with rfl | member
            · refine .inr (set _ ⟨mandateId, ?_, k, given, rfl⟩)
              rw [← linked]
              exact sooner'.links _ _ linked'
            · exact .inl ⟨other, member, barred, mandateId, linked', k, given, rfl⟩
          · rintro _ e ⟨last, rfl, sooner'', onward'', -⟩
            exact Sets.thrown sooner'' ((onward.trans onward').trans onward'') e
      · rename_i open_
        refine (ih sooner list (fits.grows onward)).mono fun φ r sets => sets.after onward .refl ?_
        rintro x ⟨other, member, barred, rest⟩
        rcases List.mem_cons.mp member with rfl | member
        · obtain ⟨block, held, forGood⟩ := sooner.blocks _ barred
          rw [read] at held
          exact absurd ((Option.any_eq_true _ _).mpr ⟨block, held, decide_eq_true forGood⟩) open_
        · exact .inl ⟨other, member, barred, rest⟩

/-- Operations of a publish that read no store. -/
def Unlisted : RegistryOp → Prop
  | .validity | .checkedSign _ | .append .. | .reserveVersion .. | .notePublished ..
  | .releaseVersion .. => True
  | _ => False

theorem quiet_unlisted {op : RegistryOp} {φ : Collecting} (unlisted : Unlisted op) :
    collecting.Quiet φ op := by
  cases op with
  | validity | checkedSign _ | append _ _ _ | reserveVersion _ _ | notePublished _ _
  | releaseVersion _ _ =>
    cases φ <;> exact ⟨trivial, fun _ _ moved => moved⟩
  | _ => exact unlisted.elim

theorem no_credential {P : StatusListCredential → Prop} (e : Thrown) :
    ∀ credential, (.error e : Throwing StatusListCredential) = .ok credential → P credential := by
  intro credential failed
  cases failed

/-- What signing a list asks for. -/
def Signs : RegistryOp → Prop
  | .validity | .checkedSign _ => True
  | _ => False

theorem Signs.unlisted {op : RegistryOp} (signs : Signs op) : Unlisted op := by
  cases op <;> trivial

/-- A signed list says what it was given to say. -/
theorem publishStatusListWith_asks (bits : Bitstring) :
    (registry.publishStatusListWith bits purpose version).Asks Signs fun r =>
      ∀ credential, r = .ok credential →
        credential.encodedList = bits.encode registry.zlib ∧ credential.version = version := by
  unfold RevocationRegistry.publishStatusListWith
  split
  · exact no_credential _
  · refine meets_orThrow_bind.mpr ((meets_perform _ _).mpr ⟨trivial, fun valid _ _ => ?_⟩)
    cases valid with
    | error e => exact no_credential _
    | ok valid =>
      refine (meets_bind _ _ _).mpr ?_
      cases payload _ with
      | error e => exact no_credential _
      | ok bytes =>
        refine meets_orThrow_bind.mpr ((meets_perform _ _).mpr ⟨trivial, fun signature _ _ => ?_⟩)
        cases signature with
        | error e => exact no_credential _
        | ok signature =>
          rintro credential ⟨⟩
          exact ⟨rfl, rfl⟩

/-- What a credential lists: all that was shown when its snapshot was taken, and nothing that was not
shown by its last read. -/
def Listed (registry : RevocationRegistry) (version : Number) (φ : Collecting)
    (r : Throwing StatusListCredential) : Prop :=
  ∀ credential, r = .ok credential → credential.version = version ∧ ∃ since till made bits,
    φ = .listing since till ∧ Bitstring.ofEntries registry.entries = .ok made ∧
    credential.encodedList = bits.encode registry.zlib ∧ Fits made till bits ∧
    ∀ x, Shown since x → bits.get x = .ok true

/-- What was shown at the snapshot, once its records and its agents have been gone through. -/
theorem set_of_shown {bits bits' : Bitstring} (grown : Extends bits bits')
    (records : ∀ record ∈ since.snapshot.records, ∀ x, record.purpose = .revocation →
      record.index = some x → bits.get x = .ok true)
    (agents : ∀ x : Number, (∃ agentId ∈ since.snapshot.blockedAgents, since.Barred agentId ∧
      ∃ mandateId ∈ since.byAgent agentId, ∃ k : ℕ, since.indices mandateId = some k ∧ x = (k : ℤ)) →
      bits'.get x = .ok true)
    (shown : Shown since x) : bits'.get x = .ok true := by
  rcases shown with ⟨mandateId, record, found, permanent, index⟩ | ⟨agentId, mandateId, barred, linked, k, given, rfl⟩
  · have row := (Keyed.find_eq_some.mp found).1
    exact grown.get (records record row x permanent index)
  · refine agents _ ⟨agentId, ?_, barred, mandateId, linked, k, given, rfl⟩
    obtain ⟨block, found, -⟩ := barred
    obtain ⟨row, held, -⟩ := Option.map_eq_some_iff.mp found
    obtain ⟨member, rfl⟩ := Keyed.find_eq_some.mp held
    exact List.mem_map_of_mem member

theorem publishReserved_lists : (registry.publishReserved version .revocation).Meets collecting
    (Listed registry version) .before := by
  refine meets_orThrow_bind.mpr ((meets_perform _ _).mpr ⟨trivial, fun ans φ moved => ?_⟩)
  cases ans with
  | error e => exact no_credential _
  | ok snap =>
    obtain ⟨since, rfl, rfl⟩ := moved
    refine (meets_bind _ _ _).mpr ?_
    cases fresh : Bitstring.ofEntries registry.entries with
    | error e => exact no_credential _
    | ok made =>
      refine (meets_bind _ _ _).mpr ?_
      have fits : Fits made since made :=
        ⟨rfl, fun n has => absurd has ((Bitstring.ofEntries_eq_ok fresh).2 n)⟩
      cases recorded : RevocationRegistry.setRecords .revocation since.snapshot.records (made, 0) with
      | error e => exact no_credential _
      | ok list =>
        obtain ⟨fits', grown, records⟩ := setRecords_fits (s := since) (made, 0)
          (fun record member => Keyed.mem_rows.mp member) fits recorded
        refine Meets.bind (setAgents_sets .refl since.snapshot.blockedAgents list fits') ?_
          fun _ e _ => no_credential e
        rintro _ list' ⟨till, rfl, later, -, done⟩
        obtain ⟨fits'', grown', agents⟩ := done list' rfl
        refine Meets.bind ((publishStatusListWith_asks list'.1).meets fun _ signs => quiet_unlisted signs.unlisted) ?_
          fun _ e _ => no_credential e
        rintro _ credential ⟨rfl, signed⟩
        have listed : Listed registry version (.listing since till) (.ok credential) := by
          rintro _ ⟨⟩
          exact ⟨(signed _ rfl).2, since, till, made, list'.1, rfl, fresh, (signed _ rfl).1, fits'',
            fun x shown => set_of_shown grown' records agents shown⟩
        have quiet : ∀ {α : Type} {p : RegistryProgram α}, p.Asks Unlisted (fun _ => True) →
            p.Meets collecting (fun φ _ => φ = .listing since till) (.listing since till) :=
          fun asks => (asks.meets fun _ => quiet_unlisted).mono fun _ _ unmoved => unmoved.1
        refine Meets.bind (quiet (Asks.perform trivial)) ?_ fun _ e _ => no_credential e
        rintro _ _ rfl
        refine Meets.bind (quiet (audit_asks trivial)) ?_ fun _ e _ => no_credential e
        rintro _ _ rfl
        exact listed

theorem publish_lists : (registry.publish version .revocation).Meets collecting
    (Listed registry version) .before := by
  unfold RevocationRegistry.publish
  split
  · exact no_credential _
  · refine Meets.bind ((Asks.perform trivial).meets fun _ => quiet_unlisted) ?_
      fun _ e _ => no_credential e
    rintro _ floor ⟨rfl, -⟩
    cases floor with
    | some floor => exact no_credential _
    | none =>
      refine (meets_bind _ _ _).mpr ((Async.meets_outcomeOf _ _).mpr
        (publishReserved_lists.mono fun φ r listed => ?_))
      refine Meets.bind ((Asks.perform trivial).meets fun _ => quiet_unlisted) ?_
        fun _ e _ => no_credential e
      rintro _ _ ⟨rfl, -⟩
      exact listed

end Programs
end Vaduno.Revocation
