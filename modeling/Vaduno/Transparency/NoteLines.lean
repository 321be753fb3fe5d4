import Vaduno.Transparency.Anchor

/-! What the signature lines of a note contribute, each on its own, and what stays when lines are added.
A cosignature is found by going through the lines, so lines on which nothing verifies do not matter. -/
namespace Vaduno.Transparency
open Ecma

/-! ### The parts of a note -/

/-- A note within the limits of the parser, cut into its body and its signature lines. -/
structure NoteParts (note body : JsString) (lines : List JsString) : Prop where
  cut : ∃ sigBlock, cutBlankLine note = some (body, sigBlock) ∧ signatureLines sigBlock = lines
  short : (utf8 note).length ≤ maxNoteBytes
  few : lines.length ≤ maxSignatureLines

theorem NoteParts.parseNote (parts : NoteParts note body lines) :
    parseNote note = (parseBody body).map fun checkpoint => ⟨checkpoint, body,
      lines.filterMap parseSignatureLine,
      lines.length - (lines.filterMap parseSignatureLine).length⟩ := by
  obtain ⟨sigBlock, cut, rfl⟩ := parts.cut
  have written : note ≠ [] := by
    rintro rfl
    cases cut
  rw [Transparency.parseNote, if_neg written, if_neg (not_lt.mpr parts.short), cut]
  cases read : parseBody body with
  | error e =>
    simp only [read]
    rfl
  | ok checkpoint =>
    simp only [read, ok_bind]
    exact if_neg (not_lt.mpr parts.few)

theorem NoteParts.of_parseNote (parsed : Transparency.parseNote note = .ok result) :
    ∃ lines, NoteParts note result.body lines ∧
      result.signatures = lines.filterMap parseSignatureLine := by
  unfold Transparency.parseNote at parsed
  simp only [check_eq_ok, not_lt] at parsed
  obtain ⟨-, short, parsed⟩ := parsed
  split at parsed
  · cases parsed
  · rename_i body sigBlock cut
    cases read : parseBody body with
    | error e => rw [read] at parsed; cases parsed
    | ok checkpoint =>
      rw [read] at parsed
      obtain ⟨few, result⟩ := check_eq_ok.mp parsed
      cases result
      exact ⟨_, ⟨⟨sigBlock, cut, rfl⟩, short, not_lt.mp few⟩, rfl⟩

theorem noteParts_written {body : JsString} {lines : List JsString} (ended : body.getLast? = some 10)
    (unbroken : cutBlankLine body = none) (plain : ∀ line ∈ lines, 10 ∉ line)
    (few : lines.length ≤ maxSignatureLines)
    (short : 4 * (body ++ 10 :: lines.flatMap (· ++ [10])).length ≤ maxNoteBytes) :
    NoteParts (body ++ 10 :: lines.flatMap (· ++ [10])) body lines := by
  refine ⟨⟨_, ?_, signatureLines_written plain⟩, (length_utf8_le _).trans short, few⟩
  obtain ⟨front, rfl⟩ := List.getLast?_eq_some_iff.mp ended
  have cut := cutBlankLine_written unbroken (lines.flatMap (· ++ [10]))
  rwa [List.append_cons] at cut

/-! ### Line by line -/

section Lines
variable (crypto : Crypto)

/-- The Ed25519 cosignature of a witness that one signature is found to be. -/
def countedEd25519 (body : JsString) (witness : KnownWitness) (bounds : TimeBounds) (sig : NoteSignature) :
    Option VerifiedCosignature := do
  let pem ← witness.publicKeyPem
  let raw ← (rawEd25519PublicKey crypto pem).toOption
  let key ← (crypto.createPublicKey pem).toOption
  if sig.name ≠ witness.name ∨ sig.keyId ≠ keyId crypto witness.name sigTypeCosignatureV1 raw then none
  else
    match splitBlob sig.signature ed25519SigBytes with
    | none => none
    | some (timestamp, rawSig) =>
      if !timestampAcceptable timestamp bounds then none
      else
        match cosignaturePayload body timestamp with
        | .error _ => none
        | .ok payload =>
          if crypto.edVerify payload key rawSig then some ⟨witness.name, timestamp, .ed25519⟩ else none

/-- The ML-DSA-44 cosignature of a witness that one signature is found to be. -/
def countedMlDsa44 (checkpoint : Checkpoint) (witness : KnownWitness) (bounds : TimeBounds)
    (pq : MlDsa44Verify) (sig : NoteSignature) : Option VerifiedCosignature := do
  let pem ← witness.mlDsa44PublicKeyPem
  let raw ← (Mandate.rawMlDsa44PublicKey pem).toOption
  if sig.name ≠ witness.name ∨ sig.keyId ≠ keyId crypto witness.name sigTypeCosignatureMlDsa44 raw then
    none
  else
    match splitBlob sig.signature mlDsa44SignatureBytes with
    | none => none
    | some (timestamp, rawSig) =>
      if !timestampAcceptable timestamp bounds then none
      else
        match mlDsa44CosignaturePayload witness.name timestamp checkpoint with
        | .error _ => none
        | .ok payload => if pq payload pem rawSig then some ⟨witness.name, timestamp, .mlDsa44⟩ else none

/-- What one signature counts as, for a witness and an algorithm. -/
def counted (opts : CosignatureVerifyOptions) (body : JsString) (checkpoint : Checkpoint)
    (bounds : TimeBounds) (witness : KnownWitness) (alg : CosignatureAlg) (sig : NoteSignature) :
    Option VerifiedCosignature :=
  match alg with
  | .ed25519 => countedEd25519 crypto body witness bounds sig
  | .mlDsa44 => opts.pq.bind fun pq => countedMlDsa44 crypto checkpoint witness bounds pq sig

/-- Whether one signature is the log's own. -/
def countedLog (body name publicKeyPem : JsString) (sigType : UInt8) (sig : NoteSignature) : Bool :=
  match rawEd25519PublicKey crypto publicKeyPem, crypto.createPublicKey publicKeyPem with
  | .ok raw, .ok key => sig.name = name && sig.keyId = keyId crypto name sigType raw &&
      crypto.edVerify (utf8 body) key sig.signature
  | _, _ => false

variable {crypto}

theorem findSome?_none (l : List α) : l.findSome? (fun _ => (none : Option β)) = none :=
  List.findSome?_eq_none_iff.mpr fun _ _ => rfl

theorem verifyOneEd25519Cosignature_lines (parsed : ParsedNote) (w : KnownWitness) (bounds : TimeBounds) :
    verifyOneEd25519Cosignature crypto parsed w bounds =
      parsed.signatures.findSome? (countedEd25519 crypto parsed.body w bounds) := by
  unfold verifyOneEd25519Cosignature countedEd25519
  cases w.publicKeyPem with
  | none => exact (findSome?_none _).symm
  | some pem =>
    simp only [Option.bind_eq_bind, Option.bind_some]
    cases (rawEd25519PublicKey crypto pem).toOption with
    | none => exact (findSome?_none _).symm
    | some raw =>
      simp only [Option.bind_some]
      cases (crypto.createPublicKey pem).toOption with
      | none => exact (findSome?_none _).symm
      | some key => rfl

theorem verifyOneMlDsa44Cosignature_lines (parsed : ParsedNote) (w : KnownWitness) (bounds : TimeBounds)
    (pq : MlDsa44Verify) : verifyOneMlDsa44Cosignature crypto parsed w bounds pq =
      parsed.signatures.findSome? (countedMlDsa44 crypto parsed.checkpoint w bounds pq) := by
  unfold verifyOneMlDsa44Cosignature countedMlDsa44
  cases w.mlDsa44PublicKeyPem with
  | none => exact (findSome?_none _).symm
  | some pem =>
    simp only [Option.bind_eq_bind, Option.bind_some]
    cases (Mandate.rawMlDsa44PublicKey pem).toOption with
    | none => exact (findSome?_none _).symm
    | some raw => rfl

/-- Verification goes through the lines, witness by witness and algorithm by algorithm. -/
theorem verifyCosignatures_lines (read : parseNote note = .ok parsed) (limits : opts.bounds = some bounds)
    (witnesses : List KnownWitness) : verifyCosignatures crypto note witnesses opts =
      (firstByName witnesses).flatMap fun w => [CosignatureAlg.ed25519, .mlDsa44].flatMap fun alg =>
        (parsed.signatures.findSome?
          (counted crypto opts parsed.body parsed.checkpoint bounds w alg)).toList := by
  unfold verifyCosignatures
  rw [read, limits]
  refine List.flatMap_congr fun w _ => ?_
  have second : (opts.pq.bind fun pq => verifyOneMlDsa44Cosignature crypto parsed w bounds pq) =
      parsed.signatures.findSome? (counted crypto opts parsed.body parsed.checkpoint bounds w .mlDsa44) := by
    unfold counted
    cases opts.pq with
    | none => exact (findSome?_none _).symm
    | some pq => exact verifyOneMlDsa44Cosignature_lines parsed w bounds pq
  change _ ++ (opts.pq.bind fun pq => verifyOneMlDsa44Cosignature crypto parsed w bounds pq).toList = _
  rw [second, verifyOneEd25519Cosignature_lines]
  simp only [List.flatMap_cons, List.flatMap_nil, List.append_nil]
  rfl

theorem verifyNoteSignature_lines (parsed : ParsedNote) (name pem : JsString) (sigType : UInt8) :
    verifyNoteSignature crypto parsed name pem sigType =
      parsed.signatures.any (countedLog crypto parsed.body name pem sigType) := by
  unfold verifyNoteSignature countedLog
  cases rawEd25519PublicKey crypto pem with
  | error e => simp
  | ok raw =>
    cases crypto.createPublicKey pem with
    | error e => simp
    | ok key => rfl

end Lines

/-! ### Two notes with one body -/

section Congruence
variable {crypto : Crypto} {note note' body : JsString} {lines lines' : List JsString}
  {witnesses : List KnownWitness} {opts : CosignatureVerifyOptions}

theorem verifyCosignatures_congr (parts : NoteParts note body lines) (parts' : NoteParts note' body lines')
    (same : ∀ checkpoint bounds, parseBody body = .ok checkpoint → opts.bounds = some bounds →
      ∀ w ∈ firstByName witnesses, ∀ alg,
        (lines'.filterMap parseSignatureLine).findSome? (counted crypto opts body checkpoint bounds w alg) =
          (lines.filterMap parseSignatureLine).findSome?
            (counted crypto opts body checkpoint bounds w alg)) :
    verifyCosignatures crypto note' witnesses opts = verifyCosignatures crypto note witnesses opts := by
  have read := parts.parseNote
  have read' := parts'.parseNote
  cases front : parseBody body with
  | error e =>
    rw [front] at read read'
    unfold verifyCosignatures
    rw [read, read']
    rfl
  | ok checkpoint =>
    rw [front] at read read'
    cases limits : opts.bounds with
    | none =>
      unfold verifyCosignatures
      rw [read, read', limits]
      rfl
    | some bounds =>
      rw [verifyCosignatures_lines read limits, verifyCosignatures_lines read' limits]
      refine List.flatMap_congr fun w listed => List.flatMap_congr fun alg _ => ?_
      rw [same checkpoint bounds front limits w listed alg]

/-- A quorum reads of a note its checkpoint, whether the log has signed it and who has cosigned it. -/
theorem checkCosignatureQuorum_congr (parts : NoteParts note body lines)
    (parts' : NoteParts note' body lines')
    (log : (lines'.filterMap parseSignatureLine).any (countedLog crypto body
        (binding.logKeyName.getD binding.origin) binding.logPublicKeyPem sigTypeEd25519) =
      (lines.filterMap parseSignatureLine).any (countedLog crypto body
        (binding.logKeyName.getD binding.origin) binding.logPublicKeyPem sigTypeEd25519))
    (verified : verifyCosignatures crypto note' (firstByName witnesses) opts =
      verifyCosignatures crypto note (firstByName witnesses) opts) :
    checkCosignatureQuorum crypto note' witnesses k binding opts =
      checkCosignatureQuorum crypto note witnesses k binding opts := by
  have read := parts.parseNote
  have read' := parts'.parseNote
  unfold checkCosignatureQuorum
  cases front : parseBody body with
  | error e =>
    rw [front] at read read'
    rw [read, read']
    rfl
  | ok checkpoint =>
    rw [front] at read read'
    rw [read, read']
    simp only [Except.map, verifyNoteSignature_lines, log, verified]

end Congruence

/-! ### Lines put in between -/

/-- The second list is the first one with further elements of a kind put in anywhere. -/
inductive Inserted (P : α → Prop) : List α → List α → Prop
  | nil : Inserted P [] []
  | keep (a : α) (inserted : Inserted P l l') : Inserted P (a :: l) (a :: l')
  | add (fits : P a) (inserted : Inserted P l l') : Inserted P l (a :: l')

section Inserted
variable {P : α → Prop} {Q : β → Prop} {l l' : List α}

theorem Inserted.filterMap (inserted : Inserted P l l') (f : α → Option β)
    (carries : ∀ a b, P a → f a = some b → Q b) : Inserted Q (l.filterMap f) (l'.filterMap f) := by
  induction inserted with
  | nil => exact .nil
  | keep a _ ih =>
    cases image : f a with
    | none => rwa [List.filterMap_cons_none image, List.filterMap_cons_none image]
    | some b =>
      rw [List.filterMap_cons_some image, List.filterMap_cons_some image]
      exact ih.keep b
  | @add a _ _ fits _ ih =>
    cases image : f a with
    | none => rwa [List.filterMap_cons_none image]
    | some b =>
      rw [List.filterMap_cons_some image]
      exact ih.add (carries a b fits image)

theorem Inserted.findSome? (inserted : Inserted P l l') {f : α → Option β}
    (idle : ∀ a, P a → f a = none) : l'.findSome? f = l.findSome? f := by
  induction inserted with
  | nil => rfl
  | keep a _ ih => rw [List.findSome?_cons, List.findSome?_cons, ih]
  | add fits _ ih => rw [List.findSome?_cons, idle _ fits, ih]

theorem Inserted.any (inserted : Inserted P l l') {p : α → Bool} (idle : ∀ a, P a → p a = false) :
    l'.any p = l.any p := by
  induction inserted with
  | nil => rfl
  | keep a _ ih => rw [List.any_cons, List.any_cons, ih]
  | add fits _ ih => rw [List.any_cons, idle _ fits, Bool.false_or, ih]

end Inserted

/-! ### Ed25519 lines and the ML-DSA-44 quorum -/

/-- A line whose signature, if it has one, is of the form of an Ed25519 cosignature: whoever made it, for
whatever it was made. -/
def Ed25519Line (line : JsString) : Prop :=
  ∀ sig, parseSignatureLine line = some sig → sig.signature.length = timestampBytes + ed25519SigBytes

/-- Ed25519 signatures have one length. -/
def Ed25519Lengths (crypto : Crypto) : Prop :=
  ∀ payload key signature, crypto.edVerify payload key signature = true →
    signature.length = ed25519SigBytes

section Ed25519
variable {crypto : Crypto} {note note' body : JsString} {lines lines' : List JsString}
  {witnesses : List KnownWitness} {opts : CosignatureVerifyOptions} {sig : NoteSignature}

theorem counted_pq_of_length (length : sig.signature.length = timestampBytes + ed25519SigBytes)
    (listed : w ∈ pqWitnesses witnesses) : counted crypto opts body checkpoint bounds w alg sig = none := by
  cases alg with
  | ed25519 =>
    unfold counted countedEd25519
    rw [publicKeyPem_of_pqWitnesses listed]
    rfl
  | mlDsa44 =>
    have blob : splitBlob sig.signature mlDsa44SignatureBytes = none :=
      if_pos (length ▸ by decide)
    unfold counted countedMlDsa44
    simp only [blob, ite_self, Option.bind_eq_bind, Option.bind_fun_none]

theorem countedLog_of_length (lengths : Ed25519Lengths crypto)
    (length : sig.signature.length = timestampBytes + ed25519SigBytes) :
    countedLog crypto body name pem sigType sig = false := by
  unfold countedLog
  split
  · rename_i key _ _
    have refused : crypto.edVerify (utf8 body) key sig.signature = false := by
      refine eq_false_of_ne_true fun accepted => ?_
      have := (lengths _ _ _ accepted).symm.trans length
      simp [timestampBytes, ed25519SigBytes] at this
    rw [refused, Bool.and_false]
  · rfl

/-- The second of the two quorums does not see them at all. -/
theorem pq_quorum_unmoved (lengths : Ed25519Lengths crypto) (parts : NoteParts note body lines)
    (parts' : NoteParts note' body lines') (inserted : Inserted Ed25519Line lines lines')
    (k : Number) (binding : LogBinding) :
    checkCosignatureQuorum crypto note' (pqWitnesses witnesses) k binding opts =
      checkCosignatureQuorum crypto note (pqWitnesses witnesses) k binding opts := by
  have signatures := inserted.filterMap parseSignatureLine fun line sig fits read => fits sig read
  refine checkCosignatureQuorum_congr parts parts' ?_ ?_
  · exact signatures.any fun sig length => countedLog_of_length lengths length
  · refine verifyCosignatures_congr parts parts' fun checkpoint bounds _ _ w listed alg => ?_
    rw [firstByName_of_nodup (firstByName_nodup _)] at listed
    have strong : w ∈ pqWitnesses witnesses := firstByName_subset listed
    exact signatures.findSome? fun sig length => counted_pq_of_length length strong

theorem parseBody_error (failed : parseBody body = .error e) : ∃ message, e = .error message := by
  have check : ∀ {p : Prop} [Decidable p] {message : JsString} {rest : Throwing Checkpoint},
      (if p then checkpointError message else rest) = .error e →
        (∃ message, e = .error message) ∨ rest = .error e := by
    intro p _ message rest failed
    split at failed
    · cases failed
      exact .inl ⟨_, rfl⟩
    · exact .inr failed
  unfold parseBody at failed
  split at failed
  · iterate 7
      rcases check failed with thrown | failed
      · exact thrown
    cases failed
  · cases failed
    exact ⟨_, rfl⟩

/-- The question of a quorum is always answered. -/
theorem checkCosignatureQuorum_answers (parts : NoteParts note body lines) (k : Number)
    (binding : LogBinding) :
    ∃ result, checkCosignatureQuorum crypto note witnesses k binding opts = .ok result := by
  have verdict := checkCosignatureQuorum_verdict crypto note witnesses k binding opts
  cases answer : checkCosignatureQuorum crypto note witnesses k binding opts with
  | ok result => exact ⟨result, rfl⟩
  | error thrown =>
    rw [answer, quorumVerdict, parts.parseNote] at verdict
    cases front : parseBody body with
    | error e =>
      obtain ⟨message, rfl⟩ := parseBody_error front
      rw [front] at verdict
      simp only [Except.map, errText] at verdict
      split_ifs at verdict
    | ok checkpoint =>
      rw [front] at verdict
      simp only [Except.map] at verdict
      split_ifs at verdict

theorem assessCheckpointAnchor_of_quorums {first second : QuorumResult}
    (classical : checkCosignatureQuorum crypto note witnesses k binding opts = .ok first)
    (pq : checkCosignatureQuorum crypto note (pqWitnesses witnesses) k binding
      { opts with nowSeconds := laterSeconds } = .ok second) :
    assessCheckpointAnchor crypto note witnesses k binding opts laterSeconds =
      .ok (if second.ok then
          ⟨.witnessedPq, earliest (second.verified.filter (·.alg = .mlDsa44)), first, second⟩
        else if first.ok then ⟨.witnessed, earliest first.verified, first, second⟩
        else ⟨.unwitnessed, none, first, second⟩) := by
  unfold assessCheckpointAnchor
  rw [classical, pq]
  simp only [ok_bind]
  split_ifs <;> rfl

/-- Whatever Ed25519 cosignatures are put in between the lines of a note, valid, forged or backdated, they
make no anchor a post-quantum one and none less than that, and of a post-quantum anchor they do not move
the time. -/
theorem pq_anchor_unmoved (lengths : Ed25519Lengths crypto) (parts : NoteParts note body lines)
    (parts' : NoteParts note' body lines') (inserted : Inserted Ed25519Line lines lines')
    (witnesses : List KnownWitness) (k : Number) (binding : LogBinding)
    (opts : CosignatureVerifyOptions) (laterSeconds : Number) :
    ∃ a a', assessCheckpointAnchor crypto note witnesses k binding opts laterSeconds = .ok a ∧
      assessCheckpointAnchor crypto note' witnesses k binding opts laterSeconds = .ok a' ∧
      (a'.strength = .witnessedPq ↔ a.strength = .witnessedPq) ∧
      (a.strength = .witnessedPq → a'.witnessedAt = a.witnessedAt) := by
  obtain ⟨first, classical⟩ := @checkCosignatureQuorum_answers crypto _ _ _ witnesses opts parts k binding
  obtain ⟨first', classical'⟩ := @checkCosignatureQuorum_answers crypto _ _ _ witnesses opts parts' k binding
  obtain ⟨second, pq⟩ := @checkCosignatureQuorum_answers crypto _ _ _ (pqWitnesses witnesses)
    { opts with nowSeconds := laterSeconds } parts k binding
  have pq' := (pq_quorum_unmoved lengths parts parts' inserted k binding).trans pq
  refine ⟨_, _, assessCheckpointAnchor_of_quorums classical pq,
    assessCheckpointAnchor_of_quorums classical' pq', ?_⟩
  by_cases strong : second.ok = true
  · rw [if_pos strong, if_pos strong]
    exact ⟨Iff.rfl, fun _ => rfl⟩
  · rw [if_neg strong, if_neg strong]
    split_ifs <;> exact ⟨iff_of_false nofun nofun, nofun⟩

end Ed25519

namespace Sample

/-- An Ed25519 cosignature line under the name of a witness. -/
def edLine : JsString := sigPrefix ++ ascii "A CzBVep/E6Q4zWH2ix+wRNluApcrvFDleg6jN8hc8YYar0PUaP2SJrtP4HUJnjLHW+yBFao+02f4jSG2St9wBJktwlbrfBClOc5i94g=="

theorem edLine_parts : (parseSignatureLine edLine).map (·.signature.length) =
    some (timestampBytes + ed25519SigBytes) ∧ 10 ∉ edLine ∧ edLine.length = 108 := by decide +kernel

def joinedNote : JsString := plainBody ++ 10 :: (edLine :: pqLines).flatMap (· ++ [10])

theorem pqLine_length (b : Bool) : (pqLine b).length = 3248 := by
  simp only [pqLine, pqCosignature, List.length_append, List.length_cons, List.length_replicate,
    List.length_nil, pqLine_parts.1.1, (pqLine_parts.2 b).1.2.2.2, (pqLine_parts.2 b).2.2.1]

theorem length_written_le {lines : List JsString} (short : ∀ line ∈ lines, line.length ≤ n) :
    (lines.flatMap (· ++ [10])).length ≤ lines.length * (n + 1) := by
  induction lines with
  | nil => exact Nat.zero_le _
  | cons line lines ih =>
    rw [List.forall_mem_cons] at short
    have rest := ih short.2
    have first := short.1
    simp only [List.flatMap_cons, List.length_append, List.length_cons, List.length_nil, Nat.succ_mul]
    omega

theorem pqNote_parts {extra : List JsString} (plain : ∀ line ∈ extra, 10 ∉ line)
    (few : extra.length ≤ 1) (short : ∀ line ∈ extra, line.length ≤ 3248) :
    NoteParts (plainBody ++ 10 :: (extra ++ pqLines).flatMap (· ++ [10])) plainBody (extra ++ pqLines) := by
  obtain ⟨-, -, body, log, ended, unbroken, own⟩ := plain_parts
  have count : (extra ++ pqLines).length ≤ 4 := by
    rw [List.length_append, pqLines]
    simp only [List.length_cons, List.length_nil]
    omega
  refine noteParts_written ended unbroken ?_ (count.trans (by decide)) ?_
  · simp only [pqLines, List.forall_mem_append, List.forall_mem_cons]
    exact ⟨plain, own, pqLine_plain false, pqLine_plain true, List.forall_mem_nil _⟩
  · have shorter : ∀ line ∈ extra ++ pqLines, line.length ≤ 3248 := by
      simp only [pqLines, List.forall_mem_append, List.forall_mem_cons]
      exact ⟨short, by omega, (pqLine_length false).le, (pqLine_length true).le, List.forall_mem_nil _⟩
    have := length_written_le shorter
    have := Nat.mul_le_mul_right (3248 + 1) count
    rw [List.length_append, List.length_cons, maxNoteBytes, body]
    omega

theorem passes_pq : quorumVerdict pqCrypto pqNote 2 logBinding
    (groupParties pqCrypto (firstByName (pqWitnesses twice))).count
    (seenParties pqCrypto pqNote (firstByName (pqWitnesses twice)) pqOptions) = .ok true := by
  obtain ⟨two, safe, positive⟩ : (2 : Number) = ((2 : ℕ) : ℤ) ∧ (2 : Number).isSafeInteger = true ∧
      ¬(2 : Number) < 1 := by decide +kernel
  have reached := Number.intCast_mono (Int.ofNat_le.mpr seen_pq)
  have configured := Number.intCast_mono (Int.ofNat_le.mpr
    (seen_pq.trans (seenParties_le_count pqCrypto pqNote (pqWitnesses twice) pqOptions)))
  rw [← two] at reached configured
  exact quorumVerdict_true.mpr ⟨logSigned_pq, ⟨safe, positive⟩,
    fun few => Number.not_le_of_lt few configured, reached⟩

/-- A post-quantum anchor, with and without an Ed25519 line more. -/
theorem joined_unmoved :
    ∃ a a', assessCheckpointAnchor pqCrypto pqNote twice 2 logBinding pqOptions 0 = .ok a ∧
      assessCheckpointAnchor pqCrypto joinedNote twice 2 logBinding pqOptions 0 = .ok a' ∧
      a.strength = .witnessedPq ∧ a'.strength = .witnessedPq ∧ a'.witnessedAt = a.witnessedAt := by
  have lengths : Ed25519Lengths pqCrypto := by
    intro payload key signature accepted
    obtain ⟨-, -, rfl⟩ := of_decide_eq_true accepted
    exact length_bytes 64 _
  have kept : ∀ lines : List JsString, Inserted Ed25519Line lines lines := by
    intro lines
    induction lines with
    | nil => exact .nil
    | cons line lines ih => exact ih.keep line
  have added : Ed25519Line edLine := by
    intro sig read
    have length := edLine_parts.1
    rw [read] at length
    exact Option.some.inj length
  have first : NoteParts pqNote plainBody pqLines := @pqNote_parts [] nofun (by decide) nofun
  have second : NoteParts joinedNote plainBody (edLine :: pqLines) := @pqNote_parts [edLine] (fun _ member => List.mem_singleton.mp member ▸ edLine_parts.2.1)
    (by decide) (fun _ member => List.mem_singleton.mp member ▸ edLine_parts.2.2.le.trans (by decide))
  obtain ⟨a, a', before, after, same, time⟩ :=
    pq_anchor_unmoved lengths first second (.add added (kept pqLines)) twice 2 logBinding pqOptions 0
  have label : ∃ a, assessCheckpointAnchor pqCrypto pqNote twice 2 logBinding pqOptions 0 = .ok a ∧
      a.strength = .witnessedPq ∧ a.pq.verified =
        verifyCosignatures pqCrypto pqNote (pqWitnesses twice) { pqOptions with nowSeconds := 0 } :=
    exists_witnessedPq logSigned_pq passes_pq
  obtain ⟨labelled, answer, strength, -⟩ := label
  rw [before] at answer
  obtain rfl := Except.ok.inj answer
  exact ⟨a, a', before, after, strength, same.mpr strength, time strength⟩

end Sample
end Vaduno.Transparency
