import Vaduno.Transparency.Parties

/-! What a quorum counts. Where no witness shares a key with two others that share none, parties are
the groups connected by shared keys, and neither the order of the list nor fewer than `k` groups of
key holders changes a verdict. A witness that does join two others is what breaks all of it. -/
namespace Vaduno.Transparency
open Ecma Mandate

/-- Functions that identify the same elements of a list take equally many values on it. -/
theorem dedup_length_filterMap [DecidableEq β] [DecidableEq γ] {l : List α} {f : α → Option β}
    {g : α → Option γ} (defined : ∀ a ∈ l, (f a).isSome = (g a).isSome)
    (same : ∀ a ∈ l, ∀ b ∈ l, f a = f b ↔ g a = g b) :
    (l.filterMap f).dedup.length = (l.filterMap g).dedup.length := by
  induction l with
  | nil => rfl
  | cons a l ih =>
    have ih := ih (fun b member => defined b (List.mem_cons_of_mem a member))
      fun b left c right => same b (List.mem_cons_of_mem a left) c (List.mem_cons_of_mem a right)
    have both := defined a List.mem_cons_self
    cases left : f a with
    | none =>
      cases right : g a with
      | none => rwa [List.filterMap_cons_none left, List.filterMap_cons_none right]
      | some y => rw [left, right] at both; cases both
    | some x =>
      cases right : g a with
      | none => rw [left, right] at both; cases both
      | some y =>
        have again : x ∈ l.filterMap f ↔ y ∈ l.filterMap g := by
          simp only [List.mem_filterMap]
          constructor
          · rintro ⟨b, member, value⟩
            refine ⟨b, member, ?_⟩
            rw [← right]
            exact ((same b (List.mem_cons_of_mem a member) a List.mem_cons_self).mp
              (value.trans left.symm))
          · rintro ⟨b, member, value⟩
            refine ⟨b, member, ?_⟩
            rw [← left]
            exact ((same b (List.mem_cons_of_mem a member) a List.mem_cons_self).mpr
              (value.trans right.symm))
        rw [List.filterMap_cons_some left, List.filterMap_cons_some right]
        by_cases seen : x ∈ l.filterMap f
        · rw [List.dedup_cons_of_mem seen, List.dedup_cons_of_mem (again.mp seen), ih]
        · rw [List.dedup_cons_of_notMem seen, List.dedup_cons_of_notMem (mt again.mpr seen),
            List.length_cons, List.length_cons, ih]

/-- A function that never tells apart what `g` identifies takes at most as many values as `g`. -/
theorem dedup_length_le_ncard [DecidableEq β] {l : List α} {f : α → Option β} {g : α → γ} {s : Set γ}
    (finite : s.Finite) (into : ∀ a ∈ l, g a ∈ s)
    (finer : ∀ a ∈ l, ∀ b ∈ l, g a = g b → f a = f b) : (l.filterMap f).dedup.length ≤ s.ncard := by
  rcases l.eq_nil_or_concat with rfl | ⟨_, last, -⟩
  · exact Nat.zero_le _
  have : Nonempty α := ⟨last⟩
  have values : ∀ b, b ∈ l.filterMap f → ∃ a ∈ l, f a = some b := fun b => List.mem_filterMap.mp
  choose! pick member value using values
  rw [← List.card_toFinset, ← Set.ncard_coe_finset]
  refine Set.ncard_le_ncard_of_injOn (fun b => g (pick b)) ?_ ?_ finite
  · exact fun b taken => into _ (member b (List.mem_toFinset.mp taken))
  · intro b left c right same
    have left := List.mem_toFinset.mp left
    have right := List.mem_toFinset.mp right
    have equal := finer _ (member b left) _ (member c right) same
    rw [value b left, value c right] at equal
    exact Option.some.inj equal

theorem dedup_length_le [DecidableEq β] [DecidableEq γ] {l l' : List α} {f : α → Option β}
    {g : α → Option γ} (into : ∀ a ∈ l, a ∈ l') (total : ∀ a ∈ l, (g a).isSome)
    (finer : ∀ a ∈ l, ∀ b ∈ l, g a = g b → f a = f b) :
    (l.filterMap f).dedup.length ≤ (l'.filterMap g).dedup.length := by
  have values := dedup_length_le_ncard (s := ((l'.filterMap g).toFinset.image some : Finset (Option γ)))
    (Finset.finite_toSet _) (fun a member => ?_) finer
  · rwa [Set.ncard_coe_finset, Finset.card_image_of_injective _ (Option.some_injective γ),
      List.card_toFinset] at values
  · obtain ⟨c, value⟩ := Option.isSome_iff_exists.mp (total a member)
    rw [value, Finset.coe_image]
    exact ⟨c, List.mem_toFinset.mpr (List.mem_filterMap.mpr ⟨a, into a member, value⟩), rfl⟩

section Quorum
variable {crypto : Crypto}

theorem firstByName_subset : ∀ {witnesses : List KnownWitness}, firstByName witnesses ⊆ witnesses
  | [] => List.nil_subset _
  | _ :: _ => List.cons_subset_cons _ fun _ kept => firstByName_subset (List.mem_filter.mp kept).1

theorem firstByName_nodup : ∀ witnesses : List KnownWitness,
    ((firstByName witnesses).map KnownWitness.name).Nodup
  | [] => List.nodup_nil
  | w :: rest => by
    rw [firstByName, List.map_cons, List.nodup_cons]
    refine ⟨fun member => ?_, ((firstByName_nodup rest).sublist (List.filter_sublist.map _))⟩
    obtain ⟨u, kept, same⟩ := List.mem_map.mp member
    exact of_decide_eq_true (List.mem_filter.mp kept).2 same

theorem firstByName_of_nodup {witnesses : List KnownWitness}
    (distinct : (witnesses.map KnownWitness.name).Nodup) : firstByName witnesses = witnesses := by
  induction witnesses with
  | nil => rfl
  | cons w rest ih =>
    rw [List.map_cons, List.nodup_cons] at distinct
    rw [firstByName, ih distinct.2, List.filter_eq_self.mpr fun u member => ?_]
    exact decide_eq_true fun same => distinct.1 (same ▸ List.mem_map_of_mem member)

/-! ### The verdict -/

/-- The verdict on a note where so many parties are configured and so many were seen. -/
def quorumVerdict (crypto : Crypto) (note : JsString) (k : Number) (binding : LogBinding)
    (count seen : ℕ) : Throwing Bool :=
  if binding.origin = [] then .ok false
  else if binding.logPublicKeyPem = [] then .ok false
  else if !k.isSafeInteger || decide (k < 1) then .ok false
  else if ((count : ℤ) : Number) < k then .ok false
  else
    match parseNote note with
    | .error err => (errText err).map fun _ => false
    | .ok parsed =>
      if parsed.checkpoint.origin ≠ binding.origin then .ok false
      else if !verifyNoteSignature crypto parsed (binding.logKeyName.getD binding.origin)
          binding.logPublicKeyPem sigTypeEd25519 then .ok false
      else .ok (decide (k ≤ ((seen : ℤ) : Number)))

/-- How many parties have a verified cosignature on a note. -/
def seenParties (crypto : Crypto) (note : JsString) (unique : List KnownWitness)
    (opts : CosignatureVerifyOptions) : ℕ :=
  ((verifyCosignatures crypto note unique opts).filterMap fun v =>
    (groupParties crypto unique).partyOf v.name).dedup.length

/-- The verdict, and the cosignatures that a passing one counted. -/
theorem checkCosignatureQuorum_spec (crypto : Crypto) (note : JsString) (witnesses : List KnownWitness) (k : Number)
    (binding : LogBinding) (opts : CosignatureVerifyOptions) :
    (checkCosignatureQuorum crypto note witnesses k binding opts).map
        (fun result => (result.ok, if result.ok then result.verified else [])) =
      (quorumVerdict crypto note k binding (groupParties crypto (firstByName witnesses)).count
        (seenParties crypto note (firstByName witnesses) opts)).map
        fun ok => (ok, if ok then verifyCosignatures crypto note (firstByName witnesses) opts else []) := by
  unfold checkCosignatureQuorum quorumVerdict
  dsimp only
  by_cases origin : binding.origin = []
  · rw [if_pos origin, if_pos origin]
    rfl
  rw [if_neg origin, if_neg origin]
  by_cases key : binding.logPublicKeyPem = []
  · rw [if_pos key, if_pos key]
    rfl
  rw [if_neg key, if_neg key]
  by_cases threshold : (!k.isSafeInteger || decide (k < 1)) = true
  · rw [if_pos threshold, if_pos threshold]
    rfl
  rw [if_neg threshold, if_neg threshold]
  by_cases unreachable : (((groupParties crypto (firstByName witnesses)).count : ℤ) : Number) < k
  · rw [if_pos unreachable, if_pos unreachable]
    rfl
  rw [if_neg unreachable, if_neg unreachable]
  cases read : parseNote note with
  | error err =>
    dsimp only
    cases errText err with
    | error thrown => rfl
    | ok text => rfl
  | ok parsed =>
    dsimp only
    by_cases foreign : parsed.checkpoint.origin ≠ binding.origin
    · rw [if_pos foreign, if_pos foreign]
      rfl
    rw [if_neg foreign, if_neg foreign]
    by_cases unsigned : (!verifyNoteSignature crypto parsed
        (binding.logKeyName.getD binding.origin) binding.logPublicKeyPem sigTypeEd25519) = true
    · rw [if_pos unsigned, if_pos unsigned]
      rfl
    rw [if_neg unsigned, if_neg unsigned]
    rfl

/-- The note is a checkpoint of the bound log, signed by it. -/
def LogSigned (crypto : Crypto) (note : JsString) (binding : LogBinding) : Prop :=
  binding.origin ≠ [] ∧ binding.logPublicKeyPem ≠ [] ∧ ∃ parsed, parseNote note = .ok parsed ∧
    parsed.checkpoint.origin = binding.origin ∧
    verifyNoteSignature crypto parsed (binding.logKeyName.getD binding.origin)
      binding.logPublicKeyPem sigTypeEd25519 = true

theorem logSigned_of_origin (named : origin ≠ []) (key : pem ≠ []) (read : parseNote note = .ok parsed)
    (own : parsed.checkpoint.origin = origin)
    (log : verifyNoteSignature crypto parsed origin pem sigTypeEd25519 = true) :
    LogSigned crypto note ⟨origin, pem, none⟩ :=
  ⟨named, key, parsed, read, own, log⟩

/-- When a quorum passes. -/
theorem quorumVerdict_true {note : JsString} {k : Number} {binding : LogBinding} {count seen : ℕ} :
    quorumVerdict crypto note k binding count seen = .ok true ↔
      LogSigned crypto note binding ∧ (k.isSafeInteger = true ∧ ¬k < 1) ∧
        ¬((count : ℤ) : Number) < k ∧ k ≤ ((seen : ℤ) : Number) := by
  unfold quorumVerdict
  by_cases origin : binding.origin = []
  · rw [if_pos origin]
    exact ⟨nofun, fun passes => absurd origin passes.1.1⟩
  by_cases key : binding.logPublicKeyPem = []
  · rw [if_neg origin, if_pos key]
    exact ⟨nofun, fun passes => absurd key passes.1.2.1⟩
  by_cases threshold : (!k.isSafeInteger || decide (k < 1)) = true
  · have bad : k.isSafeInteger = true → k < 1 := fun safe => by simpa [safe] using threshold
    rw [if_neg origin, if_neg key, if_pos threshold]
    exact ⟨nofun, fun passes => absurd (bad passes.2.1.1) passes.2.1.2⟩
  have good : k.isSafeInteger = true ∧ ¬k < 1 := by simpa using threshold
  rw [if_neg origin, if_neg key, if_neg threshold]
  by_cases unreachable : ((count : ℤ) : Number) < k
  · rw [if_pos unreachable]
    exact ⟨nofun, fun passes => absurd unreachable passes.2.2.1⟩
  rw [if_neg unreachable]
  cases read : parseNote note with
  | error err =>
    dsimp only
    refine ⟨fun passes => ?_, fun passes => ?_⟩
    · cases text : errText err <;> rw [text] at passes <;> cases passes
    · obtain ⟨⟨-, -, _, other, -⟩, -⟩ := passes
      rw [read] at other
      cases other
  | ok parsed =>
    dsimp only
    by_cases foreign : parsed.checkpoint.origin ≠ binding.origin
    · rw [if_pos foreign]
      refine ⟨nofun, fun passes => ?_⟩
      obtain ⟨⟨-, -, _, same, own, -⟩, -⟩ := passes
      rw [read] at same
      cases same
      exact absurd own foreign
    rw [if_neg foreign]
    by_cases unsigned : (!verifyNoteSignature crypto parsed
        (binding.logKeyName.getD binding.origin) binding.logPublicKeyPem sigTypeEd25519) = true
    · rw [if_pos unsigned]
      refine ⟨nofun, fun passes => ?_⟩
      obtain ⟨⟨-, -, _, same, -, signed⟩, -⟩ := passes
      rw [read] at same
      cases same
      rw [signed] at unsigned
      cases unsigned
    rw [if_neg unsigned]
    rw [not_not] at foreign
    rw [Bool.not_eq_true', Bool.not_eq_false] at unsigned
    constructor
    · intro enough
      exact ⟨⟨origin, key, parsed, read, foreign, unsigned⟩, good, unreachable,
        of_decide_eq_true (Except.ok.inj enough)⟩
    · exact fun passes => congrArg Except.ok (decide_eq_true passes.2.2.2)

theorem checkCosignatureQuorum_verdict (crypto : Crypto) (note : JsString) (witnesses : List KnownWitness) (k : Number)
    (binding : LogBinding) (opts : CosignatureVerifyOptions) :
    (checkCosignatureQuorum crypto note witnesses k binding opts).map QuorumResult.ok =
      quorumVerdict crypto note k binding (groupParties crypto (firstByName witnesses)).count
        (seenParties crypto note (firstByName witnesses) opts) := by
  have spec := congrArg (Except.map Prod.fst)
    (checkCosignatureQuorum_spec crypto note witnesses k binding opts)
  revert spec
  cases checkCosignatureQuorum crypto note witnesses k binding opts <;>
    cases quorumVerdict crypto note k binding _ _ <;> exact id

theorem checkCosignatureQuorum_verified {result : QuorumResult}
    (answer : checkCosignatureQuorum crypto note witnesses k binding opts = .ok result)
    (passes : result.ok = true) :
    result.verified = verifyCosignatures crypto note (firstByName witnesses) opts := by
  have spec := checkCosignatureQuorum_spec crypto note witnesses k binding opts
  rw [answer, ← checkCosignatureQuorum_verdict, answer] at spec
  simpa [Except.map, passes] using spec

theorem quorumVerdict_of_answer {result : QuorumResult}
    (answer : checkCosignatureQuorum crypto note witnesses k binding opts = .ok result) :
    quorumVerdict crypto note k binding (groupParties crypto (firstByName witnesses)).count
      (seenParties crypto note (firstByName witnesses) opts) = .ok result.ok := by
  rw [← checkCosignatureQuorum_verdict, answer]
  rfl

theorem checkCosignatureQuorum_of_logSigned (signed : LogSigned crypto note binding)
    (witnesses : List KnownWitness) (k : Number) (opts : CosignatureVerifyOptions) :
    ∃ result, checkCosignatureQuorum crypto note witnesses k binding opts = .ok result := by
  have verdict := checkCosignatureQuorum_verdict crypto note witnesses k binding opts
  cases answer : checkCosignatureQuorum crypto note witnesses k binding opts with
  | ok result => exact ⟨result, rfl⟩
  | error thrown =>
    obtain ⟨origin, key, parsed, read, own, log⟩ := signed
    rw [answer, quorumVerdict, if_neg origin, if_neg key, read] at verdict
    simp only [own, log] at verdict
    split_ifs at verdict <;> cases verdict

/-! ### Who has signed -/

/-- The key of a witness that a cosignature of one kind needs. -/
def KnownWitness.fingerprint (crypto : Crypto) (w : KnownWitness) : CosignatureAlg → Option JsString
  | .ed25519 => w.publicKeyPem.bind fun pem => (rawEd25519PublicKey crypto pem).toOption.map fun raw =>
      "ed25519:" ++ hex raw
  | .mlDsa44 => w.mlDsa44PublicKeyPem.bind fun pem =>
      (Mandate.rawMlDsa44PublicKey pem).toOption.map fun raw => "ml-dsa-44:" ++ hex raw

theorem mem_keyFingerprints {w : KnownWitness} :
    fp ∈ keyFingerprints crypto w ↔ ∃ alg, w.fingerprint crypto alg = some fp := by
  constructor
  · intro key
    rcases List.mem_append.mp key with ed | ml
    · exact ⟨.ed25519, Option.mem_toList.mp ed⟩
    · exact ⟨.mlDsa44, Option.mem_toList.mp ml⟩
  · rintro ⟨alg, key⟩
    cases alg with
    | ed25519 => exact List.mem_append_left _ (Option.mem_toList.mpr key)
    | mlDsa44 => exact List.mem_append_right _ (Option.mem_toList.mpr key)

/-- Keys of different kinds have different fingerprints. -/
theorem fingerprint_kind {w w' : KnownWitness} (left : w.fingerprint crypto alg = some fp)
    (right : w'.fingerprint crypto alg' = some fp) : alg = alg' := by
  have text : ∀ {alg} {w : KnownWitness}, w.fingerprint crypto alg = some fp →
      fp.head? = some (match alg with | .ed25519 => 101 | .mlDsa44 => 109) := by
    intro alg w key
    cases alg <;> simp only [KnownWitness.fingerprint, Option.bind_eq_some_iff,
      Option.map_eq_some_iff] at key <;> obtain ⟨pem, -, raw, -, rfl⟩ := key <;> rfl
  have same := (text left).symm.trans (text right)
  cases alg <;> cases alg' <;> first | rfl | cases same

theorem splitBlob_some (split : splitBlob signature sigBytes = some (timestamp, raw)) :
    raw = signature.drop timestampBytes := by
  unfold splitBlob at split
  by_cases short : signature.length ≠ timestampBytes + sigBytes
  · rw [if_pos short] at split
    cases split
  rw [if_neg short] at split
  by_cases large : 2 ^ 53 - 1 < readBE (signature.take timestampBytes)
  · simp only [if_pos large] at split
    cases split
  · simp only [if_neg large, Option.some.injEq, Prod.mk.injEq] at split
    exact split.2.symm

theorem verifyOneEd25519Cosignature_some {w : KnownWitness}
    (signed : verifyOneEd25519Cosignature crypto parsed w bounds = some v) :
    ∃ pem raw key payload, w.publicKeyPem = some pem ∧
      rawEd25519PublicKey crypto pem = .ok raw ∧ crypto.createPublicKey pem = .ok key ∧
      v.name = w.name ∧ v.alg = .ed25519 ∧ cosignaturePayload parsed.body v.timestamp = .ok payload ∧
      ∃ sig ∈ parsed.signatures,
        crypto.edVerify payload key (sig.signature.drop timestampBytes) = true := by
  unfold verifyOneEd25519Cosignature at signed
  simp only [Option.bind_eq_bind, Option.bind_eq_some_iff] at signed
  obtain ⟨pem, held, raw, known, key, usable, found⟩ := signed
  obtain ⟨sig, present, found⟩ := List.exists_of_findSome?_eq_some found
  split_ifs at found with other
  split at found
  · cases found
  · rename_i timestamp rawSig blob
    split_ifs at found with untimely
    split at found
    · cases found
    · rename_i payload text
      split_ifs at found with accepted
      cases found
      rw [splitBlob_some blob] at accepted
      exact ⟨pem, raw, key, payload, held, of_toOption known, of_toOption usable, rfl, rfl, text, sig,
        present, accepted⟩

theorem verifyOneMlDsa44Cosignature_some {w : KnownWitness} {pq : MlDsa44Verify}
    (signed : verifyOneMlDsa44Cosignature crypto parsed w bounds pq = some v) :
    ∃ pem raw payload, w.mlDsa44PublicKeyPem = some pem ∧
      rawMlDsa44PublicKey pem = .ok raw ∧ v.name = w.name ∧ v.alg = .mlDsa44 ∧
      mlDsa44CosignaturePayload w.name v.timestamp parsed.checkpoint = .ok payload ∧
      ∃ sig ∈ parsed.signatures, pq payload pem (sig.signature.drop timestampBytes) = true := by
  unfold verifyOneMlDsa44Cosignature at signed
  simp only [Option.bind_eq_bind, Option.bind_eq_some_iff] at signed
  obtain ⟨pem, held, raw, known, found⟩ := signed
  obtain ⟨sig, present, found⟩ := List.exists_of_findSome?_eq_some found
  split_ifs at found with other
  split at found
  · cases found
  · rename_i timestamp rawSig blob
    split_ifs at found with untimely
    split at found
    · cases found
    · rename_i payload text
      split_ifs at found with accepted
      cases found
      rw [splitBlob_some blob] at accepted
      exact ⟨pem, raw, payload, held, of_toOption known, rfl, rfl, text, sig, present, accepted⟩

/-- Every cosignature counted is one that the first entry of its name was found to have made. -/
theorem mem_verifyCosignatures {v : VerifiedCosignature} :
    v ∈ verifyCosignatures crypto note witnesses opts ↔
      ∃ parsed bounds, parseNote note = .ok parsed ∧ opts.bounds = some bounds ∧
        ∃ w ∈ firstByName witnesses, verifyOneEd25519Cosignature crypto parsed w bounds = some v ∨
          ∃ pq, opts.pq = some pq ∧ verifyOneMlDsa44Cosignature crypto parsed w bounds pq = some v := by
  unfold verifyCosignatures
  cases read : parseNote note with
  | error err => simp
  | ok parsed =>
    cases limits : opts.bounds with
    | none => simp
    | some bounds => simp [List.mem_flatMap, Option.mem_toList, Option.bind_eq_some_iff]

/-- A cosignature is under a usable key of the listed witness of its name. -/
theorem signer_of_verified (listed : v ∈ verifyCosignatures crypto note witnesses opts) :
    ∃ w ∈ firstByName witnesses, w.name = v.name ∧ (w.fingerprint crypto v.alg).isSome := by
  obtain ⟨parsed, bounds, -, -, w, member, signed | ⟨pq, -, signed⟩⟩ := mem_verifyCosignatures.mp listed
  · obtain ⟨pem, raw, key, payload, held, known, -, name, alg, -⟩ :=
      verifyOneEd25519Cosignature_some signed
    refine ⟨w, member, name.symm, ?_⟩
    rw [alg, KnownWitness.fingerprint, held, Option.bind_some, known]
    rfl
  · obtain ⟨pem, raw, payload, held, known, name, alg, -⟩ :=
      verifyOneMlDsa44Cosignature_some signed
    refine ⟨w, member, name.symm, ?_⟩
    rw [alg, KnownWitness.fingerprint, held, Option.bind_some, known]
    rfl

theorem verifyCosignatures_firstByName (note : JsString) (witnesses : List KnownWitness)
    (opts : CosignatureVerifyOptions) :
    verifyCosignatures crypto note (firstByName witnesses) opts =
      verifyCosignatures crypto note witnesses opts := by
  unfold verifyCosignatures
  rw [firstByName_of_nodup (firstByName_nodup witnesses)]

/-- An ML-DSA-44 cosignature among the signatures of a note that stands every check. -/
theorem verifyOneMlDsa44Cosignature_isSome {parsed : ParsedNote} {w : KnownWitness} {bounds : TimeBounds}
    {pq : MlDsa44Verify} (held : w.mlDsa44PublicKeyPem = some pem)
    (known : Mandate.rawMlDsa44PublicKey pem = .ok raw)
    (listed : ⟨w.name, keyId crypto w.name sigTypeCosignatureMlDsa44 raw, signature⟩ ∈ parsed.signatures)
    (parts : splitBlob signature mlDsa44SignatureBytes = some (timestamp, rawSig))
    (timely : timestampAcceptable timestamp bounds = true)
    (written : mlDsa44CosignaturePayload w.name timestamp parsed.checkpoint = .ok payload)
    (signed : pq payload pem rawSig = true) :
    (verifyOneMlDsa44Cosignature crypto parsed w bounds pq).isSome := by
  simp only [verifyOneMlDsa44Cosignature, held, known, Except.toOption, Option.bind_eq_bind,
    Option.bind_some]
  refine List.findSome?_isSome_iff.mpr ⟨_, listed, ?_⟩
  simp [parts, timely, written, signed]

/-- Whoever was found to have cosigned has a party. -/
theorem isSome_partyOf_verified (verified : v ∈ verifyCosignatures crypto note witnesses opts) :
    ((groupParties crypto (firstByName witnesses)).partyOf v.name).isSome := by
  obtain ⟨w, listed, name, key⟩ := signer_of_verified verified
  obtain ⟨fp, key⟩ := Option.isSome_iff_exists.mp key
  rw [← name]
  exact ((grouping_of_nodup crypto (firstByName_nodup witnesses)).named w listed).mpr
    (List.ne_nil_of_mem (mem_keyFingerprints.mpr ⟨_, key⟩))

theorem seenParties_pos (verified : v ∈ verifyCosignatures crypto note witnesses opts) :
    0 < seenParties crypto note (firstByName witnesses) opts := by
  obtain ⟨party, known⟩ := Option.isSome_iff_exists.mp (isSome_partyOf_verified verified)
  rw [seenParties, verifyCosignatures_firstByName]
  exact List.length_pos_of_mem (List.mem_dedup.mpr (List.mem_filterMap.mpr ⟨v, verified, known⟩))

/-- No more parties are seen than there are. -/
theorem seenParties_le_count (crypto : Crypto) (note : JsString) (witnesses : List KnownWitness)
    (opts : CosignatureVerifyOptions) :
    seenParties crypto note (firstByName witnesses) opts ≤
      (groupParties crypto (firstByName witnesses)).count := by
  rw [seenParties, Parties.count, (grouping_of_nodup crypto (firstByName_nodup witnesses)).listed]
  refine (List.Nodup.subperm (List.nodup_dedup _) fun n seen => ?_).length_le
  obtain ⟨v, verified, party⟩ := List.mem_filterMap.mp (List.mem_dedup.mp seen)
  rw [verifyCosignatures_firstByName] at verified
  obtain ⟨w, listed, name, -⟩ := signer_of_verified verified
  exact List.mem_dedup.mpr (List.mem_filterMap.mpr ⟨w, listed, name ▸ party⟩)

theorem count_le_length (crypto : Crypto) (witnesses : List KnownWitness) :
    (groupParties crypto (firstByName witnesses)).count ≤ witnesses.length := by
  have shorter : ∀ list : List KnownWitness, (firstByName list).length ≤ list.length := by
    intro list
    induction list with
    | nil => exact le_rfl
    | cons w rest ih =>
      rw [firstByName, List.length_cons, List.length_cons]
      exact Nat.succ_le_succ ((List.length_filter_le _ _).trans ih)
  rw [Parties.count, (grouping_of_nodup crypto (firstByName_nodup witnesses)).listed]
  exact ((List.dedup_sublist _).length_le.trans (List.length_filterMap_le _ _)).trans (shorter witnesses)

/-- Names that all share a key are one party. -/
theorem count_le_one {witnesses : List KnownWitness}
    (distinct : (witnesses.map KnownWitness.name).Nodup)
    (joined : ∀ u ∈ witnesses, ∀ v ∈ witnesses, Shares crypto u v) :
    (groupParties crypto witnesses).count ≤ 1 := by
  have grouping := grouping_of_nodup crypto distinct
  have transitive : SharesTransitive crypto witnesses :=
    fun u left _ _ w right _ _ => joined u left w right
  rw [Parties.count, grouping.listed]
  refine (dedup_length_le_ncard (g := fun _ => ()) (s := {()}) (Set.finite_singleton ())
    (fun _ _ => rfl) fun u left v right _ => ?_).trans (Set.ncard_singleton ()).le
  exact grouping.complete transitive u left v right (joined u left v right)

/-! ### Independent parties -/

/-- The groups of listed witnesses, as connected by shared keys, that have a held key. -/
def heldGroups (crypto : Crypto) (witnesses : List KnownWitness) (held : Set JsString) :
    Set (Set KnownWitness) :=
  {group | ∃ w ∈ witnesses, (∃ fp ∈ keyFingerprints crypto w, fp ∈ held) ∧
    group = {v | Connected crypto witnesses w v}}

/-- A cosignature was verified with this key of the list. -/
def VerifiedWith (crypto : Crypto) (witnesses : List KnownWitness) (v : VerifiedCosignature)
    (fp : JsString) : Prop :=
  ∃ w ∈ witnesses, w.name = v.name ∧ w.fingerprint crypto v.alg = some fp

/-- A quorum over this list counts independent parties, in whatever order it is written. -/
structure CountsParties (crypto : Crypto) (witnesses : List KnownWitness) : Prop where
  grouped : ∀ list, list.Perm witnesses → ∀ u ∈ list, ∀ v ∈ list, Connected crypto list u v →
    (groupParties crypto list).partyOf u.name = (groupParties crypto list).partyOf v.name
  orderless : ∀ list, list.Perm witnesses → ∀ note k binding opts,
    (checkCosignatureQuorum crypto note list k binding opts).map QuorumResult.ok =
      (checkCosignatureQuorum crypto note witnesses k binding opts).map QuorumResult.ok
  holders : ∀ list, list.Perm witnesses → ∀ note k binding opts result,
    checkCosignatureQuorum crypto note list k binding opts = .ok result →
    ∀ held, (∀ v ∈ result.verified, ∀ fp, VerifiedWith crypto list v fp → fp ∈ held) →
      (((heldGroups crypto list held).ncard : ℤ) : Number) < k → result.ok = false

theorem SharesTransitive.perm (transitive : SharesTransitive crypto witnesses)
    (order : list.Perm witnesses) : SharesTransitive crypto list :=
  transitive.mono fun _ member => order.subset member

section Distinct
variable {witnesses : List KnownWitness} (distinct : (witnesses.map KnownWitness.name).Nodup)
include distinct

/-- Where sharing is transitive, connected names are in one party. -/
theorem partyOf_eq_of_connected (transitive : SharesTransitive crypto witnesses)
    (connected : Connected crypto witnesses u v) :
    (groupParties crypto witnesses).partyOf u.name =
      (groupParties crypto witnesses).partyOf v.name := by
  rcases transitive.of_connected connected with rfl | ⟨left, right, shares⟩
  · rfl
  · exact (grouping_of_nodup crypto distinct).complete transitive u left v right shares

/-- Whether two names are in one party says only whether they share a key. -/
theorem partyOf_eq_iff (transitive : SharesTransitive crypto witnesses) (left : u ∈ witnesses)
    (right : v ∈ witnesses) :
    (groupParties crypto witnesses).partyOf u.name = (groupParties crypto witnesses).partyOf v.name ↔
      keyFingerprints crypto u = [] ∧ keyFingerprints crypto v = [] ∨ u = v ∨ Shares crypto u v := by
  have grouping := grouping_of_nodup crypto distinct
  constructor
  · intro same
    cases party : (groupParties crypto witnesses).partyOf u.name with
    | none =>
      have first := grouping.named u left
      have second := grouping.named v right
      rw [← same] at second
      simp only [party, Option.isSome_none, Bool.false_eq_true, ne_eq, false_iff, not_not] at first second
      exact .inl ⟨first, second⟩
    | some n =>
      have connected := grouping.sound u left v right n party (same ▸ party)
      rcases transitive.of_connected connected with same | ⟨-, -, shares⟩
      · exact .inr (.inl same)
      · exact .inr (.inr shares)
  · rintro (⟨first, second⟩ | rfl | shares)
    · have left := mt (grouping.named u left).mp (not_not.mpr first)
      have right := mt (grouping.named v right).mp (not_not.mpr second)
      rw [Option.not_isSome_iff_eq_none] at left right
      rw [left, right]
    · rfl
    · exact grouping.complete transitive u left v right shares

theorem isSome_partyOf (member : w ∈ witnesses) :
    ((groupParties crypto witnesses).partyOf w.name).isSome ↔ keyFingerprints crypto w ≠ [] :=
  (grouping_of_nodup crypto distinct).named w member

/-! ### The order of the list -/

section Order
variable {list : List KnownWitness} (order : list.Perm witnesses)
  (transitive : SharesTransitive crypto witnesses)
include order transitive

theorem partyOf_perm (left : u ∈ list) (right : v ∈ list) :
    (groupParties crypto list).partyOf u.name = (groupParties crypto list).partyOf v.name ↔
      (groupParties crypto witnesses).partyOf u.name =
        (groupParties crypto witnesses).partyOf v.name := by
  have distinct' : (list.map KnownWitness.name).Nodup := (order.map _).nodup_iff.mpr distinct
  rw [partyOf_eq_iff distinct' (transitive.perm order) left right,
    partyOf_eq_iff distinct transitive (order.subset left) (order.subset right)]

omit transitive in
theorem isSome_partyOf_perm (member : w ∈ list) :
    ((groupParties crypto list).partyOf w.name).isSome =
      ((groupParties crypto witnesses).partyOf w.name).isSome := by
  have distinct' : (list.map KnownWitness.name).Nodup := (order.map _).nodup_iff.mpr distinct
  rw [Bool.eq_iff_iff, isSome_partyOf distinct' member, isSome_partyOf distinct (order.subset member)]

theorem count_perm : (groupParties crypto list).count = (groupParties crypto witnesses).count := by
  have distinct' : (list.map KnownWitness.name).Nodup := (order.map _).nodup_iff.mpr distinct
  rw [Parties.count, Parties.count, (grouping_of_nodup crypto distinct').listed,
    (grouping_of_nodup crypto distinct).listed]
  rw [dedup_length_filterMap (fun w member => isSome_partyOf_perm distinct order member)
    fun u left v right => partyOf_perm distinct order transitive left right]
  exact (order.filterMap _).dedup.length_eq

theorem seenParties_perm (note : JsString) (opts : CosignatureVerifyOptions) :
    seenParties crypto note list opts = seenParties crypto note witnesses opts := by
  have distinct' : (list.map KnownWitness.name).Nodup := (order.map _).nodup_iff.mpr distinct
  have signer : ∀ v ∈ verifyCosignatures crypto note list opts, ∃ w ∈ list, w.name = v.name := by
    intro v member
    obtain ⟨w, listed, name, -⟩ := signer_of_verified member
    rw [firstByName_of_nodup distinct'] at listed
    exact ⟨w, listed, name⟩
  have same : (verifyCosignatures crypto note list opts).Perm
      (verifyCosignatures crypto note witnesses opts) := by
    unfold verifyCosignatures
    rw [firstByName_of_nodup distinct, firstByName_of_nodup distinct']
    split
    · exact order.flatMap_right _
    · exact .refl _
  rw [seenParties, seenParties, dedup_length_filterMap
    (g := fun v => (groupParties crypto witnesses).partyOf v.name)]
  · exact (same.filterMap _).dedup.length_eq
  · intro v member
    obtain ⟨w, listed, name⟩ := signer v member
    rw [← name]
    exact isSome_partyOf_perm distinct order listed
  · intro u left v right
    obtain ⟨x, first, name⟩ := signer u left
    obtain ⟨y, second, name'⟩ := signer v right
    rw [← name, ← name']
    exact partyOf_perm distinct order transitive first second

end Order

/-! ### The holders of keys -/

omit distinct in
theorem heldGroups_finite (crypto : Crypto) (witnesses : List KnownWitness) (held : Set JsString) :
    (heldGroups crypto witnesses held).Finite := by
  refine Set.Finite.subset (List.finite_toSet
    (witnesses.map fun w => {v | Connected crypto witnesses w v})) ?_
  rintro group ⟨w, member, -, rfl⟩
  exact List.mem_map.mpr ⟨w, member, rfl⟩

theorem seenParties_le (transitive : SharesTransitive crypto witnesses) {held : Set JsString}
    (holds : ∀ v ∈ verifyCosignatures crypto note witnesses opts, ∀ fp,
      VerifiedWith crypto witnesses v fp → fp ∈ held) :
    seenParties crypto note witnesses opts ≤ (heldGroups crypto witnesses held).ncard := by
  have signer : ∀ v ∈ verifyCosignatures crypto note witnesses opts, ∃ w ∈ witnesses,
      w.name = v.name ∧ ∃ fp ∈ keyFingerprints crypto w, fp ∈ held := by
    intro v verified
    obtain ⟨w, listed, name, key⟩ := signer_of_verified verified
    rw [firstByName_of_nodup distinct] at listed
    obtain ⟨fp, key⟩ := Option.isSome_iff_exists.mp key
    exact ⟨w, listed, name, fp, mem_keyFingerprints.mpr ⟨_, key⟩,
      holds v verified fp ⟨w, listed, name, key⟩⟩
  refine dedup_length_le_ncard (g := fun v => {x | ∃ w ∈ witnesses, w.name = v.name ∧
    Connected crypto witnesses w x}) (heldGroups_finite crypto witnesses held) ?_ ?_
  · intro v verified
    obtain ⟨w, listed, name, key⟩ := signer v verified
    refine ⟨w, listed, key, Set.ext fun x => ⟨?_, fun connected => ⟨w, listed, name, connected⟩⟩⟩
    rintro ⟨u, listed', name', connected⟩
    rwa [List.inj_on_of_nodup_map distinct listed listed' (name.trans name'.symm)]
  · intro v left v' right same
    obtain ⟨w, listed, name, -⟩ := signer v left
    obtain ⟨w', listed', name', -⟩ := signer v' right
    have inside : w' ∈ {x | ∃ w ∈ witnesses, w.name = v.name ∧ Connected crypto witnesses w x} :=
      same ▸ ⟨w', listed', name', .refl w'⟩
    obtain ⟨u, first, own, connected⟩ := inside
    rw [← own, ← name']
    exact partyOf_eq_of_connected distinct transitive connected

theorem countsParties_of_transitive (transitive : SharesTransitive crypto witnesses) :
    CountsParties crypto witnesses where
  grouped list order u _ v _ connected :=
    partyOf_eq_of_connected ((order.map _).nodup_iff.mpr distinct) (transitive.perm order) connected
  orderless list order note k binding opts := by
    have distinct' : (list.map KnownWitness.name).Nodup := (order.map _).nodup_iff.mpr distinct
    rw [checkCosignatureQuorum_verdict, checkCosignatureQuorum_verdict, firstByName_of_nodup distinct,
      firstByName_of_nodup distinct', count_perm distinct order transitive,
      seenParties_perm distinct order transitive]
  holders list order note k binding opts result answer held holds few := by
    have distinct' : (list.map KnownWitness.name).Nodup := (order.map _).nodup_iff.mpr distinct
    by_contra passes
    rw [Bool.not_eq_false] at passes
    have verdict := quorumVerdict_of_answer answer
    rw [passes, firstByName_of_nodup distinct'] at verdict
    have enough := (quorumVerdict_true.mp verdict).2.2.2
    rw [checkCosignatureQuorum_verified answer passes, firstByName_of_nodup distinct'] at holds
    have bound : ((seenParties crypto note list opts : ℕ) : ℤ) ≤
        ((heldGroups crypto list held).ncard : ℕ) :=
      Int.ofNat_le.mpr (seenParties_le distinct' (transitive.perm order) holds)
    exact Number.not_le_of_lt few (Number.le_trans enough (Number.intCast_mono bound))

end Distinct

/-! ### A name that joins two others -/

theorem partyOf_foldl {parties : Parties} (known : parties.partyOf name = some n)
    (rest : List KnownWitness) : (rest.foldl (Parties.add crypto) parties).partyOf name = some n := by
  induction rest generalizing parties with
  | nil => exact known
  | cons w rest ih =>
    refine ih ?_
    by_cases keyed : keyFingerprints crypto w = []
    · rwa [Parties.add_keyless keyed]
    · rw [Parties.add_keyed keyed]
      simp only [Parties.partyOf, List.lookup_append] at known ⊢
      rw [known]
      rfl

theorem sharesTransitive_pair (apart : ¬Shares crypto u v) : SharesTransitive crypto [u, v] := by
  intro x first y second z third shares shares'
  simp only [List.mem_cons, List.not_mem_nil, or_false] at first second third
  rcases first with rfl | rfl <;> rcases second with rfl | rfl <;> rcases third with rfl | rfl <;>
    first
    | exact shares
    | exact shares'
    | exact absurd shares apart
    | exact absurd shares' apart

/-- Two names at the head of a list that share no key are put in two parties. -/
theorem partyOf_ne_of_head (names : u.name ≠ v.name) (left : keyFingerprints crypto u ≠ [])
    (right : keyFingerprints crypto v ≠ []) (apart : ¬Shares crypto u v) (rest : List KnownWitness) :
    (groupParties crypto (u :: v :: rest)).partyOf u.name ≠
      (groupParties crypto (u :: v :: rest)).partyOf v.name := by
  have distinct : ([u, v].map KnownWitness.name).Nodup := by simpa using names
  have grouping := grouping_of_nodup crypto distinct
  obtain ⟨m, first⟩ := Option.isSome_iff_exists.mp ((grouping.named u (by simp)).mpr left)
  obtain ⟨n, second⟩ := Option.isSome_iff_exists.mp ((grouping.named v (by simp)).mpr right)
  have transitive := sharesTransitive_pair apart
  have other : m ≠ n := by
    rintro rfl
    rcases transitive.of_connected (grouping.sound u (by simp) v (by simp) m first second) with
      same | ⟨-, -, shares⟩
    · exact names (congrArg KnownWitness.name same)
    · exact apart shares
  have split : groupParties crypto (u :: v :: rest) =
      rest.foldl (Parties.add crypto) (groupParties crypto [u, v]) := rfl
  rw [split, partyOf_foldl first, partyOf_foldl second]
  exact fun same => other (Option.some.inj same)

theorem CountsParties.transitive {witnesses : List KnownWitness}
    (distinct : (witnesses.map KnownWitness.name).Nodup) (counts : CountsParties crypto witnesses) :
    SharesTransitive crypto witnesses := by
  intro u left w middle v right shares shares'
  by_contra apart
  obtain ⟨fp, own, joined⟩ := shares
  obtain ⟨fp', joined', own'⟩ := shares'
  have names : u.name ≠ v.name := fun same =>
    apart (List.inj_on_of_nodup_map distinct left right same ▸ ⟨fp, own, own⟩)
  have other : v ≠ u := fun same => names (congrArg KnownWitness.name same.symm)
  have order : (u :: v :: (witnesses.erase u).erase v).Perm witnesses :=
    ((List.perm_cons_erase ((List.mem_erase_of_ne other).mpr right)).symm.cons u).trans
      (List.perm_cons_erase left).symm
  have listed : ∀ x ∈ witnesses, x ∈ u :: v :: (witnesses.erase u).erase v :=
    fun _ member => order.symm.subset member
  refine partyOf_ne_of_head names (List.ne_nil_of_mem own) (List.ne_nil_of_mem own') apart _
    (counts.grouped _ order u (listed u left) v (listed v right) ?_)
  exact (Relation.EqvGen.rel _ _ ⟨listed u left, listed w middle, fp, own, joined⟩).trans _ _ _
    (.rel _ _ ⟨listed w middle, listed v right, fp', joined', own'⟩)

/-- A quorum counts independent parties exactly where sharing a key is transitive. -/
theorem countsParties_iff {witnesses : List KnownWitness}
    (distinct : (witnesses.map KnownWitness.name).Nodup) :
    CountsParties crypto witnesses ↔ SharesTransitive crypto witnesses :=
  ⟨CountsParties.transitive distinct, countsParties_of_transitive distinct⟩

end Quorum

/-! ### One key holder, two parties -/
namespace Sample

/-- The last units in the base64 text of an ML-DSA-44 public key, and its last byte. -/
def pqEnding (b : Bool) : JsString := if b then "AAE" else "AAA"
def pqLast (b : Bool) : UInt8 := if b then 1 else 0

/-- What stands before the key. -/
def pqFront : JsString := ascii "MIIFMjALBglghkgBZQMEAxEDggUh"

def pqText (b : Bool) : JsString := pqFront ++ List.replicate 1748 65 ++ pqEnding b

/-- An ML-DSA-44 public key of zeros but for its last byte. -/
def pqPem (b : Bool) : JsString := pemHeader ++ (pqText b ++ [61]) ++ pemFooter

def pqRaw (b : Bool) : Bytes := List.replicate 1311 0 ++ [pqLast b]

theorem pqText_parts : (pqFront ≠ [] ∧ pqFront.all isBase64Unit = true ∧
      (pqFront.map base64Value).length % 4 = 0 ∧
      joinSextets (pqFront.map base64Value) ++ [0] = mlDsa44SpkiHeader) ∧
    ∀ b, (pqEnding b).all isBase64Unit = true ∧
      joinSextets ((pqEnding b).map base64Value) = [0, pqLast b] := by decide +kernel

theorem pqText_units (b : Bool) : ∀ u ∈ pqText b, isBase64Unit u = true := by
  rw [pqText, List.forall_mem_append, List.forall_mem_append]
  exact ⟨⟨List.all_eq_true.mp pqText_parts.1.2.1, fun u member => List.eq_of_mem_replicate member ▸ rfl⟩,
    List.all_eq_true.mp (pqText_parts.2 b).1⟩

theorem joinSextets_pqText (b : Bool) :
    joinSextets ((pqText b).map base64Value) = mlDsa44SpkiHeader ++ pqRaw b := by
  obtain ⟨-, -, front, header⟩ := pqText_parts.1
  have zero : base64Value 65 = 0 := by decide
  have whole : (List.replicate 1748 0 : List ℕ).length % 4 = 0 := by rw [List.length_replicate]
  have shift : (List.replicate (3 * 437) 0 : Bytes) ++ [0, pqLast b] = [0] ++ pqRaw b := by
    rw [List.append_cons, ← List.replicate_succ', List.replicate_succ]
    rfl
  rw [pqText, List.append_assoc, List.map_append, joinSextets_append front, List.map_append,
    List.map_replicate, zero, joinSextets_append whole, joinSextets_zeros 437, (pqText_parts.2 b).2,
    shift, ← List.append_assoc, header]

theorem raw_pq (b : Bool) : Mandate.rawMlDsa44PublicKey (pqPem b) = .ok (pqRaw b) := by
  have nonempty : pqText b ≠ [] := by
    rw [pqText, List.append_assoc]
    exact List.append_ne_nil_of_left_ne_nil pqText_parts.1.1 _
  refine rawMlDsa44PublicKey_of_der ?_ ?_
  · rw [pqPem, spkiDerFromPem_padded (pqText_units b) (by simp) nonempty, joinSextets_pqText b]
  · rw [pqRaw, List.length_append, List.length_replicate]
    rfl

def ed : KnownWitness := ⟨"A", some logPem, none⟩

def ml : KnownWitness := ⟨"B", none, some (pqPem false)⟩

/-- Held by the holder of the other two. -/
def both : KnownWitness := ⟨"C", some logPem, some (pqPem false)⟩

/-- A crypto library that knows the log's key. -/
def oneKey : Crypto where
  sha256 _ := hash 0
  createPublicKey pem := if pem = logPem then .ok logKey else .error "unsupported"
  edSign _ _ := .error .typeError
  edVerify _ _ _ := false

theorem raw_oneKey : rawEd25519PublicKey oneKey logPem = .ok (logKey.spki.drop 12) :=
  rawEd25519PublicKey_eq_ok (by simp only [oneKey, if_true]) rfl (length_bytes 44 _)

theorem ed_shares_both : Shares oneKey ed both := by
  have key : ∀ w : KnownWitness, w.publicKeyPem = some logPem →
      w.fingerprint oneKey .ed25519 = some ("ed25519:" ++ hex (logKey.spki.drop 12)) := by
    intro w held
    rw [KnownWitness.fingerprint, held, Option.bind_some, raw_oneKey]
    rfl
  exact ⟨_, mem_keyFingerprints.mpr ⟨_, key ed rfl⟩, mem_keyFingerprints.mpr ⟨_, key both rfl⟩⟩

theorem both_shares_ml : Shares oneKey both ml := by
  have key : ∀ w : KnownWitness, w.mlDsa44PublicKeyPem = some (pqPem false) →
      w.fingerprint oneKey .mlDsa44 = some ("ml-dsa-44:" ++ hex (pqRaw false)) := by
    intro w held
    rw [KnownWitness.fingerprint, held, Option.bind_some, raw_pq]
    rfl
  exact ⟨_, mem_keyFingerprints.mpr ⟨_, key both rfl⟩, mem_keyFingerprints.mpr ⟨_, key ml rfl⟩⟩

theorem ed_apart_ml : ¬Shares oneKey ed ml := by
  rintro ⟨fp, left, right⟩
  obtain ⟨alg, left⟩ := mem_keyFingerprints.mp left
  obtain ⟨alg', right⟩ := mem_keyFingerprints.mp right
  cases fingerprint_kind left right
  cases alg with
  | ed25519 => cases right
  | mlDsa44 => cases left

end Sample

/-- In this order the holder of two keys is counted as two parties. -/
theorem joined_not_countsParties : ¬CountsParties Sample.oneKey [Sample.ed, Sample.ml, Sample.both] :=
  fun counts => Sample.ed_apart_ml (counts.transitive (by decide) _ (.head _) _
    (.tail _ (.tail _ (.head _))) _ (.tail _ (.head _)) Sample.ed_shares_both Sample.both_shares_ml)

/-- Without the joining name nothing goes wrong. -/
theorem pair_countsParties : CountsParties Sample.oneKey [Sample.ed, Sample.ml] :=
  (countsParties_iff (by decide)).mpr (sharesTransitive_pair Sample.ed_apart_ml)

end Vaduno.Transparency
