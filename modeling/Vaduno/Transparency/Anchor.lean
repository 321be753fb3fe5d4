import Vaduno.Transparency.Quorum

/-! How strongly a checkpoint is anchored. The second quorum counts ML-DSA-44 cosignatures over
entries stripped of their Ed25519 keys, so that it can tell names apart that share one, and can take
another entry of a name than the first quorum does. -/
namespace Vaduno.Transparency
open Ecma

/-- A function with as many values as a finer one is as fine. -/
theorem finer_of_length_le [DecidableEq β] {l : List α} {f : α → Option β} {g : α → γ}
    (total : ∀ a ∈ l, (f a).isSome) (coarser : ∀ a ∈ l, ∀ b ∈ l, f a = f b → g a = g b)
    (enough : (l.filterMap f).dedup.length ≤ {c | ∃ a ∈ l, g a = c}.ncard) :
    ∀ a ∈ l, ∀ b ∈ l, g a = g b → f a = f b := by
  classical
  intro a left b right same
  have : Nonempty α := ⟨a⟩
  have values : ∀ b, b ∈ l.filterMap f → ∃ a ∈ l, f a = some b := fun b => List.mem_filterMap.mp
  choose! pick member value using values
  have taken : ∀ {x y}, x ∈ l → f x = some y → y ∈ l.filterMap f :=
    fun inside found => List.mem_filterMap.mpr ⟨_, inside, found⟩
  have picked : ∀ {x y}, x ∈ l → f x = some y → g (pick y) = g x := by
    intro x y inside found
    have known := taken inside found
    exact coarser _ (member y known) x inside ((value y known).trans found.symm)
  have range : {c | ∃ a ∈ l, g a = c} = ((l.map g).toFinset : Set γ) := by
    ext c
    simp
  rw [range, Set.ncard_coe_finset, ← List.card_toFinset] at enough
  have injective := Finset.injOn_of_surjOn_of_card_le (s := (l.filterMap f).toFinset)
    (t := (l.map g).toFinset) (fun y => g (pick y)) ?_ ?_ enough
  · obtain ⟨x, first⟩ := Option.isSome_iff_exists.mp (total a left)
    obtain ⟨y, second⟩ := Option.isSome_iff_exists.mp (total b right)
    have equal := injective (List.mem_toFinset.mpr (taken left first))
      (List.mem_toFinset.mpr (taken right second)) (by
        dsimp only
        rw [picked left first, picked right second, same])
    rw [first, second, equal]
  · intro y inside
    exact List.mem_toFinset.mpr (List.mem_map_of_mem (member y (List.mem_toFinset.mp inside)))
  · intro c reached
    obtain ⟨x, inside, rfl⟩ := List.mem_map.mp (List.mem_toFinset.mp reached)
    obtain ⟨y, found⟩ := Option.isSome_iff_exists.mp (total x inside)
    exact ⟨y, List.mem_toFinset.mpr (taken inside found), picked inside found⟩

section Anchor
variable {crypto : Crypto}

/-- Two names have a key in common, in any entries of the list. -/
def NamesShare (crypto : Crypto) (witnesses : List KnownWitness) (m n : JsString) : Prop :=
  ∃ u ∈ witnesses, ∃ v ∈ witnesses, u.name = m ∧ v.name = n ∧ Shares crypto u v

def NamesConnected (crypto : Crypto) (witnesses : List KnownWitness) : JsString → JsString → Prop :=
  Relation.EqvGen (NamesShare crypto witnesses)

/-- The parties with an ML-DSA-44 cosignature, each the names that any shared key connects. -/
def mlDsa44Parties (crypto : Crypto) (witnesses : List KnownWitness)
    (verified : List VerifiedCosignature) : Set (Set JsString) :=
  {party | ∃ v ∈ verified, v.alg = .mlDsa44 ∧ party = {n | NamesConnected crypto witnesses v.name n}}

/-- The strongest label is backed by a quorum of either kind. -/
def AnchorBacked (crypto : Crypto) (note : JsString) (witnesses : List KnownWitness) (k : Number)
    (binding : LogBinding) (opts : CosignatureVerifyOptions) (laterSeconds : Number) : Prop :=
  ∀ a, assessCheckpointAnchor crypto note witnesses k binding opts laterSeconds = .ok a →
    a.strength = .witnessedPq → a.classical.ok = true ∧
      k ≤ (((mlDsa44Parties crypto witnesses a.pq.verified).ncard : ℤ) : Number)

/-- A witness is the first entry of its name that has an ML-DSA-44 key, and this key has cosigned. -/
def MlDsa44Cosigned (crypto : Crypto) (note : JsString) (witnesses : List KnownWitness)
    (opts : CosignatureVerifyOptions) (w : KnownWitness) : Prop :=
  w ∈ firstByName (pqWitnesses witnesses) ∧ ∃ parsed bounds pq, parseNote note = .ok parsed ∧
    opts.bounds = some bounds ∧ opts.pq = some pq ∧
    (verifyOneMlDsa44Cosignature crypto parsed w bounds pq).isSome

/-- Both quorums look at the same entries of the names that cosigned, at the same time, and no two
ML-DSA-44 keys that cosigned are one party's. -/
structure QuorumsAgree (crypto : Crypto) (note : JsString) (witnesses : List KnownWitness)
    (opts : CosignatureVerifyOptions) (laterSeconds : Number) : Prop where
  clock : { opts with nowSeconds := laterSeconds }.bounds = opts.bounds
  first : ∀ w, MlDsa44Cosigned crypto note witnesses opts w → ∃ u ∈ firstByName witnesses,
    u.name = w.name ∧ u.mlDsa44PublicKeyPem = w.mlDsa44PublicKeyPem
  apart : ∀ v w, MlDsa44Cosigned crypto note witnesses opts v →
    MlDsa44Cosigned crypto note witnesses opts w → NamesConnected crypto witnesses v.name w.name →
    v.fingerprint crypto .mlDsa44 = w.fingerprint crypto .mlDsa44

/-! ### The stripped list -/

theorem publicKeyPem_of_pqWitnesses (member : w ∈ pqWitnesses witnesses) : w.publicKeyPem = none := by
  obtain ⟨u, -, rfl⟩ := List.mem_map.mp member
  rfl

/-- A stripped entry has one key at most. -/
theorem keyFingerprints_of_pqWitnesses (crypto : Crypto) (member : w ∈ pqWitnesses witnesses) :
    keyFingerprints crypto w = (w.fingerprint crypto .mlDsa44).toList := by
  change (w.fingerprint crypto .ed25519).toList ++ (w.fingerprint crypto .mlDsa44).toList = _
  rw [KnownWitness.fingerprint, publicKeyPem_of_pqWitnesses member]
  rfl

theorem sharesTransitive_pqWitnesses (witnesses : List KnownWitness) :
    SharesTransitive crypto (firstByName (pqWitnesses witnesses)) := by
  rintro u left v middle w right ⟨fp, first, second⟩ ⟨fp', third, fourth⟩
  rw [keyFingerprints_of_pqWitnesses crypto (firstByName_subset middle), Option.mem_toList] at second third
  cases Option.mem_unique second third
  exact ⟨fp, first, fourth⟩

/-- What the second quorum counts. -/
theorem mem_pq_verified (member : v ∈ verifyCosignatures crypto note (pqWitnesses witnesses) opts) :
    v.alg = .mlDsa44 ∧ ∃ w, MlDsa44Cosigned crypto note witnesses opts w ∧ w.name = v.name ∧
      ∃ parsed bounds pq, parseNote note = .ok parsed ∧ opts.bounds = some bounds ∧
        opts.pq = some pq ∧ verifyOneMlDsa44Cosignature crypto parsed w bounds pq = some v := by
  obtain ⟨parsed, bounds, read, limits, w, listed, signed | ⟨pq, able, signed⟩⟩ :=
    mem_verifyCosignatures.mp member
  · obtain ⟨pem, -, -, -, held, -⟩ := verifyOneEd25519Cosignature_some signed
    rw [publicKeyPem_of_pqWitnesses (firstByName_subset listed)] at held
    cases held
  · obtain ⟨-, -, -, -, -, name, alg, -⟩ := verifyOneMlDsa44Cosignature_some signed
    exact ⟨alg, w, ⟨listed, parsed, bounds, pq, read, limits, able, by rw [signed]; rfl⟩, name.symm,
      parsed, bounds, pq, read, limits, able, signed⟩

theorem namesConnected_of_connected (connected : Connected crypto (firstByName witnesses) u v) :
    NamesConnected crypto witnesses u.name v.name := by
  induction connected with
  | rel u v link =>
    exact .rel _ _ ⟨u, firstByName_subset link.1, v, firstByName_subset link.2.1, rfl, rfl, link.2.2⟩
  | refl u => exact .refl _
  | symm u v _ ih => exact ih.symm
  | trans u v w _ _ first second => exact first.trans _ _ _ second

/-- A stripped list is cut out of the whole one. -/
theorem namesConnected_of_shares (left : v ∈ pqWitnesses witnesses) (right : w ∈ pqWitnesses witnesses)
    (shares : Shares crypto v w) : NamesConnected crypto witnesses v.name w.name := by
  obtain ⟨u, first, rfl⟩ := List.mem_map.mp left
  obtain ⟨u', second, rfl⟩ := List.mem_map.mp right
  obtain ⟨fp, key, key'⟩ := shares
  have whole : ∀ x : KnownWitness, fp ∈ keyFingerprints crypto ⟨x.name, none, x.mlDsa44PublicKeyPem⟩ →
      fp ∈ keyFingerprints crypto x := fun x member => List.mem_append_right _ member
  exact .rel _ _ ⟨u, (List.mem_filter.mp first).1, u', (List.mem_filter.mp second).1, rfl, rfl, fp,
    whole u key, whole u' key'⟩

theorem MlDsa44Cosigned.key (cosigned : MlDsa44Cosigned crypto note witnesses opts w) :
    ∃ fp, w.fingerprint crypto .mlDsa44 = some fp := by
  obtain ⟨listed, parsed, bounds, pq, -, -, -, signed⟩ := cosigned
  obtain ⟨v, signed⟩ := Option.isSome_iff_exists.mp signed
  obtain ⟨pem, raw, -, held, known, -⟩ := verifyOneMlDsa44Cosignature_some signed
  exact ⟨_, by rw [KnownWitness.fingerprint, held, Option.bind_some, known]; rfl⟩

/-- Two cosignatures are counted as one party by the second quorum where their keys are one. -/
theorem pq_partyOf_eq_iff (left : MlDsa44Cosigned crypto note witnesses opts v)
    (right : MlDsa44Cosigned crypto note witnesses opts w) :
    (groupParties crypto (firstByName (pqWitnesses witnesses))).partyOf v.name =
        (groupParties crypto (firstByName (pqWitnesses witnesses))).partyOf w.name ↔
      v.fingerprint crypto .mlDsa44 = w.fingerprint crypto .mlDsa44 := by
  obtain ⟨fp, first⟩ := left.key
  obtain ⟨fp', second⟩ := right.key
  have own := keyFingerprints_of_pqWitnesses crypto (firstByName_subset left.1)
  have other := keyFingerprints_of_pqWitnesses crypto (firstByName_subset right.1)
  rw [first] at own
  rw [second] at other
  rw [partyOf_eq_iff (firstByName_nodup _) (sharesTransitive_pqWitnesses witnesses) left.1 right.1, own,
    other, first, second]
  constructor
  · rintro (⟨none, -⟩ | rfl | ⟨key, mine, theirs⟩)
    · cases none
    · rw [← first, second]
    · rw [own] at mine
      rw [other] at theirs
      rw [Option.mem_toList.mp mine, Option.mem_toList.mp theirs]
  · intro same
    cases same
    exact .inr (.inr ⟨fp, by rw [own]; exact List.mem_singleton_self fp,
      by rw [other]; exact List.mem_singleton_self fp⟩)

/-! ### The two quorums -/

theorem assessCheckpointAnchor_ok {a : AnchorAssessment}
    (answer : assessCheckpointAnchor crypto note witnesses k binding opts laterSeconds = .ok a) :
    checkCosignatureQuorum crypto note witnesses k binding opts = .ok a.classical ∧
      checkCosignatureQuorum crypto note (pqWitnesses witnesses) k binding
        { opts with nowSeconds := laterSeconds } = .ok a.pq ∧
      (a.strength = .witnessedPq ↔ a.pq.ok = true) := by
  unfold assessCheckpointAnchor at answer
  cases classical : checkCosignatureQuorum crypto note witnesses k binding opts with
  | error thrown =>
    rw [classical] at answer
    cases answer
  | ok first =>
    cases pq : checkCosignatureQuorum crypto note (pqWitnesses witnesses) k binding
        { opts with nowSeconds := laterSeconds } with
    | error thrown =>
      rw [classical, pq] at answer
      cases answer
    | ok second =>
      rw [classical, pq] at answer
      simp only [ok_bind] at answer
      split_ifs at answer with strongest strong
      · cases answer
        exact ⟨rfl, rfl, iff_of_true rfl strongest⟩
      · cases answer
        exact ⟨rfl, rfl, iff_of_false nofun strongest⟩
      · cases answer
        exact ⟨rfl, rfl, iff_of_false nofun strongest⟩

theorem mlDsa44Parties_eq (crypto : Crypto) (note : JsString) (witnesses : List KnownWitness)
    (opts : CosignatureVerifyOptions) :
    mlDsa44Parties crypto witnesses (verifyCosignatures crypto note (pqWitnesses witnesses) opts) =
      {c | ∃ v ∈ verifyCosignatures crypto note (pqWitnesses witnesses) opts,
        {n | NamesConnected crypto witnesses v.name n} = c} := by
  ext party
  constructor
  · rintro ⟨v, verified, -, rfl⟩
    exact ⟨v, verified, rfl⟩
  · rintro ⟨v, verified, rfl⟩
    exact ⟨v, verified, (mem_pq_verified verified).1, rfl⟩

theorem mlDsa44Parties_finite (crypto : Crypto) (witnesses : List KnownWitness)
    (verified : List VerifiedCosignature) : (mlDsa44Parties crypto witnesses verified).Finite := by
  refine Set.Finite.subset (List.finite_toSet
    (verified.map fun v => {n | NamesConnected crypto witnesses v.name n})) ?_
  rintro party ⟨v, listed, -, rfl⟩
  exact List.mem_map.mpr ⟨v, listed, rfl⟩

/-- Keys that no party has two of are as many as the parties that hold them. -/
theorem seenParties_le_mlDsa44Parties
    (apart : ∀ v w, MlDsa44Cosigned crypto note witnesses opts v →
      MlDsa44Cosigned crypto note witnesses opts w → NamesConnected crypto witnesses v.name w.name →
      v.fingerprint crypto .mlDsa44 = w.fingerprint crypto .mlDsa44) :
    seenParties crypto note (firstByName (pqWitnesses witnesses)) opts ≤
      (mlDsa44Parties crypto witnesses
        (verifyCosignatures crypto note (pqWitnesses witnesses) opts)).ncard := by
  rw [seenParties, verifyCosignatures_firstByName]
  refine dedup_length_le_ncard (g := fun v => {n | NamesConnected crypto witnesses v.name n})
    (mlDsa44Parties_finite crypto witnesses _) ?_ ?_
  · exact fun v verified => ⟨v, verified, (mem_pq_verified verified).1, rfl⟩
  · intro v left v' right same
    obtain ⟨-, w, cosigned, name, -⟩ := mem_pq_verified left
    obtain ⟨-, w', cosigned', name', -⟩ := mem_pq_verified right
    have connected : v'.name ∈ {n | NamesConnected crypto witnesses v.name n} := by
      rw [same]
      exact .refl v'.name
    rw [← name, ← name'] at connected ⊢
    exact (pq_partyOf_eq_iff cosigned cosigned').mpr (apart w w' cosigned cosigned' connected)

/-- Where the quorums agree, the first one sees at least as many parties as the second. -/
theorem QuorumsAgree.seenParties_le (agree : QuorumsAgree crypto note witnesses opts laterSeconds) :
    seenParties crypto note (firstByName (pqWitnesses witnesses))
        { opts with nowSeconds := laterSeconds } ≤
      seenParties crypto note (firstByName witnesses) opts := by
  have same : verifyCosignatures crypto note (pqWitnesses witnesses)
      { opts with nowSeconds := laterSeconds } =
      verifyCosignatures crypto note (pqWitnesses witnesses) opts := by
    unfold verifyCosignatures
    rw [agree.clock]
  have counted : ∀ v ∈ verifyCosignatures crypto note (pqWitnesses witnesses) opts,
      v ∈ verifyCosignatures crypto note witnesses opts ∧ ∃ w,
        MlDsa44Cosigned crypto note witnesses opts w ∧ w.name = v.name ∧
        ∃ u ∈ firstByName witnesses, u.name = w.name := by
    intro v verified
    obtain ⟨-, w, cosigned, name, parsed, bounds, pq, read, limits, able, signed⟩ :=
      mem_pq_verified verified
    obtain ⟨u, listed, own, key⟩ := agree.first w cosigned
    have signed' : verifyOneMlDsa44Cosignature crypto parsed u bounds pq = some v := by
      rwa [verifyOneMlDsa44Cosignature, own, key]
    exact ⟨mem_verifyCosignatures.mpr ⟨parsed, bounds, read, limits, u, listed, .inr ⟨pq, able, signed'⟩⟩,
      w, cosigned, name, u, listed, own⟩
  rw [seenParties, seenParties, verifyCosignatures_firstByName, verifyCosignatures_firstByName, same]
  refine dedup_length_le (fun v member => (counted v member).1)
    (fun v member => isSome_partyOf_verified (counted v member).1) fun v left v' right equal => ?_
  obtain ⟨verified, w, cosigned, name, u, listed, own⟩ := counted v left
  obtain ⟨-, w', cosigned', name', u', listed', own'⟩ := counted v' right
  obtain ⟨party, known⟩ := Option.isSome_iff_exists.mp (isSome_partyOf_verified verified)
  have known' := equal.symm.trans known
  rw [← name, ← own] at known
  rw [← name', ← own'] at known'
  have connected := namesConnected_of_connected
    ((grouping_of_nodup crypto (firstByName_nodup witnesses)).sound u listed u' listed' party known known')
  rw [own, own'] at connected
  rw [← name, ← name']
  exact (pq_partyOf_eq_iff cosigned cosigned').mpr (agree.apart w w' cosigned cosigned' connected)

/-- Where the quorums agree, the strongest label is backed by both. -/
theorem QuorumsAgree.backed (agree : QuorumsAgree crypto note witnesses opts laterSeconds) :
    AnchorBacked crypto note witnesses k binding opts laterSeconds := by
  intro a answer strength
  obtain ⟨classical, pq, label⟩ := assessCheckpointAnchor_ok answer
  have passes := label.mp strength
  have verdict := quorumVerdict_of_answer pq
  rw [passes] at verdict
  obtain ⟨signed, threshold, -, enough⟩ := quorumVerdict_true.mp verdict
  have grows : ∀ {m n : ℕ}, m ≤ n → k ≤ ((m : ℤ) : Number) → k ≤ ((n : ℤ) : Number) :=
    fun le below => Number.le_trans below (Number.intCast_mono (Int.ofNat_le.mpr le))
  have seen := grows agree.seenParties_le enough
  constructor
  · have known := grows (seenParties_le_count crypto note witnesses opts) seen
    have passes' := quorumVerdict_true.mpr
      ⟨signed, threshold, fun few => Number.not_le_of_lt few known, seen⟩
    exact Except.ok.inj ((quorumVerdict_of_answer classical).symm.trans passes')
  · have same : verifyCosignatures crypto note (pqWitnesses witnesses)
        { opts with nowSeconds := laterSeconds } =
        verifyCosignatures crypto note (pqWitnesses witnesses) opts := by
      unfold verifyCosignatures
      rw [agree.clock]
    rw [checkCosignatureQuorum_verified pq passes, verifyCosignatures_firstByName, same]
    rw [seenParties, verifyCosignatures_firstByName, same, ← verifyCosignatures_firstByName] at enough
    exact grows (seenParties_le_mlDsa44Parties agree.apart) enough

/-! ### Keys told apart -/

theorem MlDsa44Cosigned.verified (cosigned : MlDsa44Cosigned crypto note witnesses opts w) :
    ∃ v ∈ verifyCosignatures crypto note (pqWitnesses witnesses) opts, v.name = w.name := by
  obtain ⟨listed, parsed, bounds, pq, read, limits, able, signed⟩ := cosigned
  obtain ⟨v, signed⟩ := Option.isSome_iff_exists.mp signed
  obtain ⟨-, -, -, -, -, name, -⟩ := verifyOneMlDsa44Cosignature_some signed
  exact ⟨v, mem_verifyCosignatures.mpr ⟨parsed, bounds, read, limits, w, listed,
    .inr ⟨pq, able, signed⟩⟩, name⟩

/-- A key that has cosigned is seen as the party of its name. -/
theorem cosigned_party (cosigned : MlDsa44Cosigned crypto note witnesses opts w) :
    ∃ n, (groupParties crypto (firstByName (pqWitnesses witnesses))).partyOf w.name = some n ∧
      n ∈ (verifyCosignatures crypto note (pqWitnesses witnesses) opts).filterMap fun v =>
        (groupParties crypto (firstByName (pqWitnesses witnesses))).partyOf v.name := by
  obtain ⟨v, verified, name⟩ := cosigned.verified
  obtain ⟨n, party⟩ := Option.isSome_iff_exists.mp (isSome_partyOf_verified verified)
  exact ⟨n, name ▸ party, List.mem_filterMap.mpr ⟨v, verified, party⟩⟩

theorem seenParties_lt (small : witnesses.length < 2 ^ 53) :
    seenParties crypto note (firstByName witnesses) opts < 2 ^ 53 :=
  (seenParties_le_count crypto note witnesses opts).trans_lt
    (lt_of_le_of_lt (count_le_length crypto witnesses) small)

/-- What the second quorum passes gets the strongest label. -/
theorem exists_witnessedPq (signed : LogSigned crypto note binding)
    (passes : quorumVerdict crypto note k binding
      (groupParties crypto (firstByName (pqWitnesses witnesses))).count
      (seenParties crypto note (firstByName (pqWitnesses witnesses))
        { opts with nowSeconds := laterSeconds }) = .ok true) :
    ∃ a, assessCheckpointAnchor crypto note witnesses k binding opts laterSeconds = .ok a ∧
      a.strength = .witnessedPq ∧ a.pq.verified =
        verifyCosignatures crypto note (pqWitnesses witnesses) { opts with nowSeconds := laterSeconds } := by
  obtain ⟨classical, answer⟩ := checkCosignatureQuorum_of_logSigned signed witnesses k opts
  obtain ⟨pq, answer'⟩ := checkCosignatureQuorum_of_logSigned signed (pqWitnesses witnesses) k
    { opts with nowSeconds := laterSeconds }
  have reached : pq.ok = true := Except.ok.inj ((quorumVerdict_of_answer answer').symm.trans passes)
  have verified := checkCosignatureQuorum_verified answer' reached
  rw [verifyCosignatures_firstByName] at verified
  rw [assessCheckpointAnchor, answer, answer']
  simp only [ok_bind, reached, if_true]
  exact ⟨_, rfl, rfl, verified⟩

/-- Where the strongest label is backed at every threshold, no party has two keys that cosigned. -/
theorem apart_of_backed (small : witnesses.length < 2 ^ 53) (signed : LogSigned crypto note binding)
    (backed : ∀ k, AnchorBacked crypto note witnesses k binding opts laterSeconds)
    (left : MlDsa44Cosigned crypto note witnesses { opts with nowSeconds := laterSeconds } v)
    (right : MlDsa44Cosigned crypto note witnesses { opts with nowSeconds := laterSeconds } w)
    (connected : NamesConnected crypto witnesses v.name w.name) :
    v.fingerprint crypto .mlDsa44 = w.fingerprint crypto .mlDsa44 := by
  set later := { opts with nowSeconds := laterSeconds } with clock
  obtain ⟨c, first, name⟩ := left.verified
  obtain ⟨d, second, name'⟩ := right.verified
  -- the highest threshold that the second quorum can reach
  obtain ⟨n, seen⟩ : ∃ n, n = seenParties crypto note (firstByName (pqWitnesses witnesses)) later :=
    ⟨_, rfl⟩
  have bound : n < 2 ^ 53 := by
    have shorter : (pqWitnesses witnesses).length ≤ witnesses.length := by
      rw [pqWitnesses, List.length_map]
      exact List.length_filter_le _ _
    rw [seen]
    exact seenParties_lt (lt_of_le_of_lt shorter small)
  have positive : 0 < n := by
    rw [seen]
    exact seenParties_pos first
  have passes : quorumVerdict crypto note ((n : ℤ) : Number) binding
      (groupParties crypto (firstByName (pqWitnesses witnesses))).count
      (seenParties crypto note (firstByName (pqWitnesses witnesses)) later) = .ok true := by
    refine quorumVerdict_true.mpr ⟨signed, ⟨Number.isSafeInteger_natCast bound, fun low => ?_⟩,
      fun few => Number.not_le_of_lt few (Number.intCast_mono (Int.ofNat_le.mpr ?_)), ?_⟩
    · have one := (Number.natCast_lt (n := 1) bound (by norm_num)).mp low
      omega
    · rw [seen]
      exact seenParties_le_count crypto note (pqWitnesses witnesses) later
    · rw [← seen]
      exact Number.intCast_mono le_rfl
  obtain ⟨a, assessed, label, counted⟩ := exists_witnessedPq signed passes
  have enough := (backed _ a assessed label).2
  rw [counted, mlDsa44Parties_eq] at enough
  have many : n ≤ {party | ∃ v ∈ verifyCosignatures crypto note (pqWitnesses witnesses) later,
      {n | NamesConnected crypto witnesses v.name n} = party}.ncard := by
    by_contra few
    exact Number.not_le_of_lt ((Number.natCast_lt (by omega) bound).mpr (not_le.mp few)) enough
  rw [seen, seenParties, verifyCosignatures_firstByName] at many
  have finer := finer_of_length_le (fun v member => isSome_partyOf_verified member) ?_ many c first d
    second ?_
  · rw [name, name'] at finer
    exact (pq_partyOf_eq_iff left right).mp finer
  · intro a left b right same
    obtain ⟨-, x, cosigned, own, -⟩ := mem_pq_verified left
    obtain ⟨-, y, cosigned', own', -⟩ := mem_pq_verified right
    rw [← own, ← own'] at same ⊢
    obtain ⟨fp, key⟩ := cosigned.key
    have key' := ((pq_partyOf_eq_iff cosigned cosigned').mp same).symm.trans key
    have shares : Shares crypto x y :=
      ⟨fp, mem_keyFingerprints.mpr ⟨_, key⟩, mem_keyFingerprints.mpr ⟨_, key'⟩⟩
    have linked := namesConnected_of_shares (firstByName_subset cosigned.1)
      (firstByName_subset cosigned'.1) shares
    ext m
    exact ⟨linked.symm.trans _ _ _, linked.trans _ _ _⟩
  · rw [name, name']
    ext m
    exact ⟨connected.symm.trans _ _ _, connected.trans _ _ _⟩

/-- Two keys that have cosigned are two parties to the second quorum. -/
theorem two_le_seenParties (left : MlDsa44Cosigned crypto note witnesses opts v)
    (right : MlDsa44Cosigned crypto note witnesses opts w)
    (apart : v.fingerprint crypto .mlDsa44 ≠ w.fingerprint crypto .mlDsa44) :
    2 ≤ seenParties crypto note (firstByName (pqWitnesses witnesses)) opts := by
  obtain ⟨m, first⟩ := cosigned_party left
  obtain ⟨n, second⟩ := cosigned_party right
  have other : m ≠ n := by
    rintro rfl
    exact apart ((pq_partyOf_eq_iff left right).mp (first.1.trans second.1.symm))
  rw [seenParties, verifyCosignatures_firstByName, ← List.card_toFinset]
  refine (Finset.card_pair other).symm.le.trans (Finset.card_le_card ?_)
  intro party member
  rw [List.mem_toFinset]
  rcases Finset.mem_insert.mp member with rfl | member
  · exact first.2
  · rw [Finset.mem_singleton.mp member]
    exact second.2

/-- A threshold that only the second quorum reaches. -/
theorem not_backed_of_few (signed : LogSigned crypto note binding) (safe : k.isSafeInteger = true)
    (positive : ¬k < 1)
    (enough : k ≤ ((seenParties crypto note (firstByName (pqWitnesses witnesses))
      { opts with nowSeconds := laterSeconds } : ℤ) : Number))
    (few : (((groupParties crypto (firstByName witnesses)).count : ℤ) : Number) < k) :
    ¬AnchorBacked crypto note witnesses k binding opts laterSeconds := by
  intro backed
  have reachable := Number.le_trans enough (Number.intCast_mono (Int.ofNat_le.mpr
    (seenParties_le_count crypto note (pqWitnesses witnesses) { opts with nowSeconds := laterSeconds })))
  have passes := quorumVerdict_true.mpr
    ⟨signed, ⟨safe, positive⟩, fun low => Number.not_le_of_lt low reachable, enough⟩
  obtain ⟨a, assessed, label, -⟩ := exists_witnessedPq signed passes
  have verdict := quorumVerdict_of_answer (assessCheckpointAnchor_ok assessed).1
  rw [(backed a assessed label).1] at verdict
  exact (quorumVerdict_true.mp verdict).2.2.1 few

/-- The strongest label is backed wherever the two quorums agree, and where a note is the log's it is
backed at every threshold only if no party cosigned with two keys. -/
theorem anchor_backed :
    (QuorumsAgree crypto note witnesses opts laterSeconds →
      ∀ k, AnchorBacked crypto note witnesses k binding opts laterSeconds) ∧
    (witnesses.length < 2 ^ 53 → LogSigned crypto note binding →
      (∀ k, AnchorBacked crypto note witnesses k binding opts laterSeconds) →
      ∀ v w, MlDsa44Cosigned crypto note witnesses { opts with nowSeconds := laterSeconds } v →
        MlDsa44Cosigned crypto note witnesses { opts with nowSeconds := laterSeconds } w →
        NamesConnected crypto witnesses v.name w.name →
        v.fingerprint crypto .mlDsa44 = w.fingerprint crypto .mlDsa44) :=
  ⟨fun agree _ => agree.backed,
    fun small signed backed _ _ left right connected => apart_of_backed small signed backed left right connected⟩

end Anchor

/-! ### A party with two ML-DSA-44 keys -/
namespace Sample

def pqName (b : Bool) : JsString := if b then "B" else "A"

def pqWitness (b : Bool) : KnownWitness := ⟨pqName b, some witnessPem, some (pqPem b)⟩

/-- One holder of an Ed25519 key under two names, each with an ML-DSA-44 key of its own. -/
def twice : List KnownWitness := [pqWitness false, pqWitness true]

def plainBody : JsString := ascii "log\n0\n47DEQpj8HBSa+/TImW+5JCeuQeRkm5NMpJWZG3hSuFU=\n"

def plainSignature : Bytes := bytes 64
  0x47189f8d259efaa9a57ed78222007930aaa63105c6799ff5fb02471a543b4a5967992523e4093ec04bab5dcda3e192c5a34c5ba4f99225b8ae609a0870558f05

def logLine : JsString := sigPrefix ++
  ascii "log rMMpE0cYn40lnvqppX7XgiIAeTCqpjEFxnmf9fsCRxpUO0pZZ5klI+QJPsBLq13No+GSxaNMW6T5kiW4rmCaCHBVjwU="

def pqId (b : Bool) : Hash :=
  hash (if b then 0x560155cc22949dda72779bba762c91fa4d48c479b9a422b7a0e5b923c8d195b9
    else 0xd39d16ddaeb665214a071fc396167aad76676bae841bdbba33daa1d0804486eb)

/-- The key id in base64, and the first zeros after it. -/
def pqStamp (b : Bool) : JsString := ascii (if b then "VgFVzAAA" else "050W3QAA")

/-- A cosignature with the timestamp and all signature bytes zero. -/
def pqCosignature (b : Bool) : JsString := pqStamp b ++ (List.replicate 3232 65 ++ [65, 65, 65])

def pqLine (b : Bool) : JsString := sigPrefix ++ (pqName b ++ 32 :: (pqCosignature b ++ [61]))

def pqLines : List JsString := [logLine, pqLine false, pqLine true]

def pqNote : JsString := plainBody ++ 10 :: pqLines.flatMap (· ++ [10])

def pqEntry (b : Bool) : NoteSignature :=
  ⟨pqName b, hex ((pqId b).bytes.take 4), List.replicate 2428 0⟩

def pqParsed : ParsedNote where
  checkpoint := ⟨"log", 0, emptyTreeRootHex, none⟩
  body := plainBody
  signatures := [⟨"log", "acc32913", plainSignature⟩, pqEntry false, pqEntry true]
  malformedSignatures := 0

theorem pqLine_parts : (sigPrefix.length = 2 ∧ 10 ∉ sigPrefix) ∧
    ∀ b, (pqName b ≠ [] ∧ 32 ∉ pqName b ∧ 10 ∉ pqName b ∧ (pqName b).length = 1) ∧
      (pqStamp b).all isBase64Unit = true ∧ (pqStamp b).length = 8 ∧
      joinSextets ((pqStamp b).map base64Value) = (pqId b).bytes.take 4 ++ List.replicate 2 0 := by
  decide +kernel

theorem pqCosignature_units (b : Bool) : ∀ u ∈ pqCosignature b, isBase64Unit u = true := by
  rw [pqCosignature, List.forall_mem_append, List.forall_mem_append]
  exact ⟨List.all_eq_true.mp (pqLine_parts.2 b).2.1,
    fun u member => List.eq_of_mem_replicate member ▸ rfl, List.all_eq_true.mp rfl⟩

theorem pqCosignature_bytes (b : Bool) : ofBase64 (pqCosignature b ++ [61]) =
    (pqId b).bytes.take 4 ++ List.replicate 2428 0 := by
  obtain ⟨-, -, length, stamp⟩ := pqLine_parts.2 b
  have zero : base64Value 65 = 0 := by decide
  have front : ((pqStamp b).map base64Value).length % 4 = 0 := by rw [List.length_map, length]
  have whole : (List.replicate 3232 0 : List ℕ).length % 4 = 0 := by rw [List.length_replicate]
  have pad : joinSextets [0, 0, 0] = List.replicate 2 0 := by decide
  have rest : joinSextets (List.replicate 3232 0 ++ [0, 0, 0]) = List.replicate 2426 0 := by
    rw [joinSextets_append whole, joinSextets_zeros 808, pad, List.replicate_append_replicate]
  rw [ofBase64_padded (pqCosignature_units b) (by simp), pqCosignature, List.map_append,
    joinSextets_append front, stamp, List.map_append, List.map_replicate]
  simp only [List.map_cons, List.map_nil, zero]
  rw [rest, List.append_assoc, List.replicate_append_replicate]

theorem parse_pqLine (b : Bool) : parseSignatureLine (pqLine b) = some (pqEntry b) := by
  obtain ⟨named, plain, -⟩ := (pqLine_parts.2 b).1
  have nonempty : pqCosignature b ≠ [] := by
    rw [pqCosignature, ← List.append_assoc]
    exact List.append_ne_nil_of_right_ne_nil _ (by decide)
  have four : ((pqId b).bytes.take 4).length = 4 := by
    rw [List.length_take, (pqId b).length]
    rfl
  rw [pqLine, parseSignatureLine_written named plain
    (isBase64_padded (pqCosignature_units b) (by simp) nonempty), pqCosignature_bytes b,
    List.take_left' four, List.drop_left' four]
  · rfl
  · rw [pqCosignature_bytes b, List.length_append, four, List.length_replicate]
    norm_num

theorem pqLine_plain (b : Bool) : 10 ∉ pqLine b := by
  have unit : 10 ∉ pqCosignature b := fun member => absurd (pqCosignature_units b 10 member) (by decide)
  rw [pqLine]
  simp only [List.mem_append, List.mem_cons, not_or]
  exact ⟨pqLine_parts.1.2, (pqLine_parts.2 b).1.2.2.1, by decide, unit, by decide, by simp⟩

theorem plain_parts :
    (parseBody plainBody).toOption = some ⟨"log", 0, emptyTreeRootHex, none⟩ ∧
    parseSignatureLine logLine = some ⟨"log", "acc32913", plainSignature⟩ ∧
    plainBody.length = 51 ∧ logLine.length = 98 ∧ plainBody.getLast? = some 10 ∧
    cutBlankLine plainBody = none ∧ 10 ∉ logLine := by decide +kernel

theorem parseNote_pq : parseNote pqNote = .ok pqParsed := by
  obtain ⟨read, entry, body, log, ended, unbroken, own⟩ := plain_parts
  have plain : ∀ line ∈ pqLines, 10 ∉ line := by
    simp only [pqLines, List.forall_mem_cons]
    exact ⟨own, pqLine_plain false, pqLine_plain true, nofun⟩
  have line : ∀ b, (pqLine b).length = 3248 := by
    intro b
    simp only [pqLine, pqCosignature, List.length_append, List.length_cons, List.length_replicate,
      List.length_nil, pqLine_parts.1.1, (pqLine_parts.2 b).1.2.2.2, (pqLine_parts.2 b).2.2.1]
  have few : pqLines.length ≤ maxSignatureLines := by
    rw [pqLines, maxSignatureLines]
    decide
  -- over lines that are variables, so that none is evaluated
  have short : ∀ (front first : JsString) (rest : Bool → JsString), front.length = 51 →
      first.length = 98 → (∀ b, (rest b).length = 3248) →
      4 * (front ++ 10 :: [first, rest false, rest true].flatMap (· ++ [10])).length ≤ maxNoteBytes := by
    intro front first rest fronts firsts rests
    simp only [List.flatMap_cons, List.flatMap_nil, List.length_append, List.length_cons,
      List.length_nil, fronts, firsts, rests, maxNoteBytes]
    norm_num
  have short : 4 * (plainBody ++ 10 :: pqLines.flatMap (· ++ [10])).length ≤ maxNoteBytes := by
    rw [pqLines]
    exact short plainBody logLine pqLine body log line
  have signatures : pqLines.filterMap parseSignatureLine = pqParsed.signatures := by
    rw [pqLines, List.filterMap_cons_some entry, List.filterMap_cons_some (parse_pqLine false),
      List.filterMap_cons_some (parse_pqLine true)]
    rfl
  have written := parseNote_written ended unbroken (of_toOption read) plain few short
  rw [signatures] at written
  rw [pqNote]
  exact written

def pqIdInput (b : Bool) : Bytes := utf8 (pqName b) ++ [0x0a] ++ [sigTypeCosignatureMlDsa44] ++ pqRaw b

def plainIdInput : Bytes := utf8 "log" ++ [0x0a] ++ [sigTypeEd25519] ++ logKey.spki.drop 12

/-- The crypto library on what this note asks of it. -/
def pqCrypto : Crypto where
  sha256 input :=
    if input = plainIdInput then hash 0xacc32913664ce8314079dced12b4b8126da71323baeba4a3e21e3febdbee53d3
    else if input = pqIdInput false then pqId false
    else if input = pqIdInput true then pqId true
    else hash 0
  createPublicKey pem :=
    if pem = logPem then .ok logKey
    else if pem = witnessPem then .ok witnessKey
    else .error "unsupported"
  edSign _ _ := .error .typeError
  edVerify input key signature :=
    decide (input = utf8 plainBody ∧ key.spki = logKey.spki ∧ signature = plainSignature)

/-- A capability that accepts signatures of zeros under the two keys. -/
def pqVerify : MlDsa44Verify := fun _ pem signature =>
  decide ((∃ b, pem = pqPem b) ∧ signature = List.replicate 2420 0)

def pqOptions : CosignatureVerifyOptions := ⟨none, none, 0, some pqVerify⟩

def logBinding : LogBinding := ⟨"log", logPem, none⟩

theorem known_pq_log : pqCrypto.createPublicKey logPem = .ok logKey := by
  simp only [pqCrypto, if_true]

/-- What the library and the clock come to here. -/
theorem pq_values :
    keyId pqCrypto "log" sigTypeEd25519 (logKey.spki.drop 12) = "acc32913" ∧
    (∀ b, pqIdInput b ≠ plainIdInput) ∧ pqIdInput true ≠ pqIdInput false ∧
    (∀ b, (mlDsa44CosignaturePayload (pqName b) 0 pqParsed.checkpoint).toOption.isSome) ∧
    pqOptions.bounds = some ⟨0, 300, .posInf⟩ ∧ timestampAcceptable 0 ⟨0, 300, .posInf⟩ = true := by
  decide +kernel

theorem logSigned_pq : LogSigned pqCrypto pqNote logBinding := by
  have raw : rawEd25519PublicKey pqCrypto logPem = .ok (logKey.spki.drop 12) :=
    rawEd25519PublicKey_eq_ok known_pq_log rfl (length_bytes 44 _)
  have listed : ⟨"log", keyId pqCrypto "log" sigTypeEd25519 (logKey.spki.drop 12), plainSignature⟩ ∈
      pqParsed.signatures := by
    rw [pq_values.1]
    exact List.mem_cons_self
  have signed : pqCrypto.edVerify (utf8 pqParsed.body) logKey plainSignature = true := by
    simp only [pqCrypto, pqParsed, and_self, decide_true]
  exact logSigned_of_origin (by decide) pems_known.1 parseNote_pq rfl
    (verifyNoteSignature_of_mem raw known_pq_log listed signed)

theorem keyId_pq (b : Bool) :
    keyId pqCrypto (pqName b) sigTypeCosignatureMlDsa44 (pqRaw b) = (pqEntry b).keyId := by
  obtain ⟨-, differ, other, -⟩ := pq_values
  have digest : pqCrypto.sha256 (pqIdInput b) = pqId b := by
    cases b
    · simp only [pqCrypto, if_neg (differ false), if_true]
    · simp only [pqCrypto, if_neg (differ true), if_neg other, if_true]
  rw [keyId, ← pqIdInput, digest, pqEntry]

theorem split_pq : splitBlob (List.replicate 2428 0) mlDsa44SignatureBytes =
    some (0, List.replicate 2420 0) := by
  have zero : readBE (List.replicate 8 0) = 0 := by decide
  have length : (List.replicate 2428 0 : Bytes).length = timestampBytes + mlDsa44SignatureBytes :=
    List.length_replicate
  rw [splitBlob, if_neg (not_not.mpr length), timestampBytes, List.take_replicate, List.drop_replicate]
  simp only [show min 8 2428 = 8 from rfl, zero]
  rfl

/-- Both names have cosigned with their own key. -/
theorem cosigned_pq {list : List KnownWitness} {b : Bool}
    (listed : ⟨pqName b, none, some (pqPem b)⟩ ∈ firstByName (pqWitnesses list)) :
    MlDsa44Cosigned pqCrypto pqNote list pqOptions ⟨pqName b, none, some (pqPem b)⟩ := by
  obtain ⟨-, -, -, payload, bounds, timely⟩ := pq_values
  obtain ⟨payload, written⟩ := Option.isSome_iff_exists.mp (payload b)
  have entry : ⟨pqName b, keyId pqCrypto (pqName b) sigTypeCosignatureMlDsa44 (pqRaw b),
      List.replicate 2428 0⟩ ∈ pqParsed.signatures := by
    rw [keyId_pq]
    cases b
    · exact .tail _ (.head _)
    · exact .tail _ (.tail _ (.head _))
  have signed : pqVerify payload (pqPem b) (List.replicate 2420 0) = true :=
    decide_eq_true ⟨⟨b, rfl⟩, rfl⟩
  exact ⟨listed, pqParsed, ⟨0, 300, .posInf⟩, pqVerify, parseNote_pq, bounds, rfl,
    verifyOneMlDsa44Cosignature_isSome rfl (raw_pq b) entry split_pq timely (of_toOption written)
      signed⟩

theorem names_pq : pqName false ≠ pqName true := by decide

theorem first_pq (f : Bool → KnownWitness) (names : ∀ b, (f b).name = pqName b) :
    firstByName [f false, f true] = [f false, f true] := by
  refine firstByName_of_nodup ?_
  simp [names, names_pq]

/-- Their keys are two. -/
theorem fingerprint_pq : (⟨pqName false, none, some (pqPem false)⟩ : KnownWitness).fingerprint pqCrypto
    .mlDsa44 ≠ (⟨pqName true, none, some (pqPem true)⟩ : KnownWitness).fingerprint pqCrypto .mlDsa44 := by
  have key : ∀ b, (⟨pqName b, none, some (pqPem b)⟩ : KnownWitness).fingerprint pqCrypto .mlDsa44 =
      some ("ml-dsa-44:" ++ hex (pqRaw b)) := by
    intro b
    rw [KnownWitness.fingerprint, Option.bind_some, raw_pq]
    rfl
  have other : [pqLast false] ≠ [pqLast true] := by decide
  rw [key, key]
  intro same
  exact other (List.append_cancel_left (hex_injective (List.append_cancel_left (Option.some.inj same))))

theorem seen_pq : 2 ≤ seenParties pqCrypto pqNote (firstByName (pqWitnesses twice)) pqOptions := by
  have listed : ∀ b, ⟨pqName b, none, some (pqPem b)⟩ ∈ firstByName (pqWitnesses twice) := by
    intro b
    have first := first_pq (fun b => ⟨pqName b, none, some (pqPem b)⟩) fun _ => rfl
    change _ ∈ firstByName [⟨pqName false, none, some (pqPem false)⟩, ⟨pqName true, none, some (pqPem true)⟩]
    rw [first]
    cases b <;> simp
  exact two_le_seenParties (cosigned_pq (listed false)) (cosigned_pq (listed true)) fingerprint_pq

theorem count_twice : (groupParties pqCrypto (firstByName twice)).count ≤ 1 := by
  have known : pqCrypto.createPublicKey witnessPem = .ok witnessKey := by
    simp only [pqCrypto, if_neg pems_known.2, if_true]
  have raw : rawEd25519PublicKey pqCrypto witnessPem = .ok (witnessKey.spki.drop 12) :=
    rawEd25519PublicKey_eq_ok known rfl (length_bytes 44 _)
  have key : ∀ w ∈ twice, "ed25519:" ++ hex (witnessKey.spki.drop 12) ∈ keyFingerprints pqCrypto w := by
    intro w member
    have held : w.publicKeyPem = some witnessPem := by
      simp only [twice, List.mem_cons, List.not_mem_nil, or_false] at member
      rcases member with rfl | rfl <;> rfl
    refine mem_keyFingerprints.mpr ⟨.ed25519, ?_⟩
    rw [KnownWitness.fingerprint, held, Option.bind_some, raw]
    rfl
  have first : firstByName twice = twice := first_pq pqWitness fun _ => rfl
  rw [first]
  refine count_le_one ?_ fun u left v right => ⟨_, key u left, key v right⟩
  rw [← first]
  exact firstByName_nodup twice

end Sample

/-- Two names of one holder make the strongest label at a threshold of two. -/
theorem twice_not_backed :
    ¬AnchorBacked Sample.pqCrypto Sample.pqNote Sample.twice 2 Sample.logBinding Sample.pqOptions 0 := by
  obtain ⟨two, safe, positive⟩ : (2 : Number) = ((2 : ℕ) : ℤ) ∧ (2 : Number).isSafeInteger = true ∧
      ¬(2 : Number) < 1 := by decide +kernel
  refine not_backed_of_few Sample.logSigned_pq safe positive ?_ ?_
  · rw [two]
    exact Number.intCast_mono (Int.ofNat_le.mpr Sample.seen_pq)
  · have few := Sample.count_twice
    rw [two]
    exact (Number.natCast_lt (by omega) (by norm_num)).mpr (by omega)

/-- One name of that holder does no harm. -/
theorem once_backed (k : Number) : AnchorBacked Sample.pqCrypto Sample.pqNote (Sample.twice.take 1) k
    Sample.logBinding Sample.pqOptions 0 := by
  have only : ∀ w, MlDsa44Cosigned Sample.pqCrypto Sample.pqNote (Sample.twice.take 1)
      Sample.pqOptions w → w = ⟨Sample.pqName false, none, some (Sample.pqPem false)⟩ :=
    fun w cosigned => List.mem_singleton.mp cosigned.1
  refine anchor_backed.1 ⟨rfl, fun w cosigned => ?_, fun v w left right _ => ?_⟩ k
  · rw [only w cosigned]
    exact ⟨_, List.mem_singleton_self _, rfl, rfl⟩
  · rw [only v left, only w right]

end Vaduno.Transparency
