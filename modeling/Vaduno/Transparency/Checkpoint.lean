import Vaduno.Ecma.Base64
import Vaduno.Ecma.Utf8
import Vaduno.Ecma.Value

/-! Signed notes: the text form of a log's checkpoints, as a witness or a relying party reads it from
outside. -/
namespace Vaduno.Transparency
open Ecma

/-- The signature type bytes of signed notes. -/
def sigTypeEd25519 : UInt8 := 1
def sigTypeCosignatureV1 : UInt8 := 4
def sigTypeCosignatureMlDsa44 : UInt8 := 6

def sigPrefix : JsString := "— "

def maxNoteBytes : ℕ := 1024 * 1024
def maxSignatureLines : ℕ := 256
def rootHashBytes : ℕ := 32

def emptyTreeRootHex : JsString := "e3b0c44298fc1c149afbf4c8996fb92427ae41e4649b934ca495991b7852b855"

/-- A public key as the crypto library holds it. -/
structure KeyObject where
  asymmetricKeyType : JsString
  /-- Its SPKI, in DER. -/
  spki : Bytes

/-- What the crypto library provides. -/
structure Crypto where
  sha256 : Bytes → Hash
  /-- `createPublicKey(pem)`, or the message of the error it throws. -/
  createPublicKey : JsString → Except JsString KeyObject
  /-- `sign(null, payload, createPrivateKey(pem))`. -/
  edSign : (payload : Bytes) → (privateKeyPem : JsString) → Throwing Bytes
  /-- `verify(null, payload, key, signature)`. -/
  edVerify : (payload : Bytes) → KeyObject → (signature : Bytes) → Bool

structure Checkpoint where
  origin : JsString
  treeSize : Number
  rootHash : JsString
  extensions : Option (List JsString)
  deriving DecidableEq

structure NoteSignature where
  name : JsString
  keyId : JsString
  signature : Bytes
  deriving DecidableEq

structure ParsedNote where
  checkpoint : Checkpoint
  /-- The text that was signed. -/
  body : JsString
  signatures : List NoteSignature
  malformedSignatures : ℕ
  deriving DecidableEq

section Crypto
variable (crypto : Crypto)

def keyId (name : JsString) (sigType : UInt8) (publicKeyRaw : Bytes) : JsString :=
  hex ((crypto.sha256 (utf8 name ++ [0x0a] ++ [sigType] ++ publicKeyRaw)).bytes.take 4)

def rawEd25519PublicKey (publicKeyPem : JsString) : Throwing Bytes :=
  match crypto.createPublicKey publicKeyPem with
  | .error message => .error (.error
      ("rawEd25519PublicKey requires an Ed25519 key (unparseable SPKI: " ++ message ++ ")"))
  | .ok key =>
    if key.asymmetricKeyType ≠ "ed25519" then
      .error (.error ("rawEd25519PublicKey requires an Ed25519 key (got " ++ key.asymmetricKeyType ++
        "); for ML-DSA-44 use rawMlDsa44PublicKey — the last-32-bytes extraction would be garbage"))
    else if key.spki.length ≠ 44 then .error (.error "Ed25519 SPKI DER must be exactly 44 bytes")
    else .ok (key.spki.drop 12)

variable {crypto} in
theorem rawEd25519PublicKey_eq_ok {key : KeyObject} (known : crypto.createPublicKey pem = .ok key)
    (type : key.asymmetricKeyType = "ed25519") (length : key.spki.length = 44) :
    rawEd25519PublicKey crypto pem = .ok (key.spki.drop 12) := by
  rw [rawEd25519PublicKey, known]
  exact (if_neg (not_not.mpr type)).trans (if_neg (not_not.mpr length))

end Crypto

def checkpointError (message : JsString) : Throwing α := .error (.error message)

/-- A check that was passed on the way to a result. -/
theorem check_eq_ok {p : Prop} [Decidable p] {message : JsString} {rest : Throwing α} {a : α} :
    (if p then checkpointError message else rest) = .ok a ↔ ¬p ∧ rest = .ok a := by
  split_ifs with failed
  · exact ⟨nofun, fun passed => absurd failed passed.1⟩
  · exact (and_iff_right failed).symm

/-- The text up to the first blank line, its own line break included, and the text after it. -/
def cutBlankLine : JsString → Option (JsString × JsString)
  | 10 :: 10 :: rest => some ([10], rest)
  | u :: rest => (cutBlankLine rest).map fun parts => (u :: parts.1, parts.2)
  | [] => none

def isDigitUnit (u : UInt16) : Bool := 48 ≤ u && u ≤ 57

/-- `/^(0|[1-9][0-9]*)$/`. -/
def isTreeSize (s : JsString) : Bool :=
  s = [48] || (s.head?.any (fun u => 49 ≤ u && u ≤ 57) && s.all isDigitUnit)

def parseBody (body : JsString) : Throwing Checkpoint :=
  match (body.splitOn 10).dropLast with
  | origin :: sizeLine :: rootB64 :: extensions =>
    let treeSize : Number := ((digitsValue sizeLine : ℤ) : Number)
    let rootBytes := ofBase64 rootB64
    if origin = [] then checkpointError "origin line is empty"
    else if !isTreeSize sizeLine then
      checkpointError ("tree size must be decimal with no leading zeroes: \"" ++ sizeLine ++ "\"")
    else if !treeSize.isSafeInteger then
      checkpointError ("tree size is not a safe integer: \"" ++ sizeLine ++ "\"")
    else if !isBase64 rootB64 then checkpointError "root hash line is not base64"
    else if rootBytes.length ≠ rootHashBytes then
      checkpointError ("root hash must decode to " ++ natText rootHashBytes ++ " bytes (got " ++
        natText rootBytes.length ++ ")")
    else if treeSize = 0 ∧ hex rootBytes ≠ emptyTreeRootHex then
      checkpointError "tree size 0 must carry the empty-tree root hash"
    else if extensions.any (· = []) then checkpointError "extension lines must be non-empty"
    else .ok ⟨origin, treeSize, hex rootBytes, if extensions = [] then none else some extensions⟩
  | _ => checkpointError "checkpoint body must have at least 3 lines"

/-- What a checkpoint that was read looks like. -/
theorem parseBody_ok (parsed : parseBody body = .ok checkpoint) :
    ∃ origin sizeLine rootB64 extensions,
      (body.splitOn 10).dropLast = origin :: sizeLine :: rootB64 :: extensions ∧ origin ≠ [] ∧
      isTreeSize sizeLine = true ∧ ((digitsValue sizeLine : ℤ) : Number).isSafeInteger = true ∧
      isBase64 rootB64 = true ∧ (ofBase64 rootB64).length = rootHashBytes ∧
      checkpoint = ⟨origin, (digitsValue sizeLine : ℤ), hex (ofBase64 rootB64),
        if extensions = [] then none else some extensions⟩ := by
  unfold parseBody at parsed
  split at parsed
  · rename_i origin sizeLine rootB64 extensions lines
    simp only [check_eq_ok, Bool.not_eq_true', Bool.not_eq_false, ne_eq, not_not] at parsed
    obtain ⟨named, size, safe, base64, length, -, -, result⟩ := parsed
    cases result
    exact ⟨_, _, _, _, lines, named, size, safe, base64, length, rfl⟩
  · cases parsed

/-- One signature line; a malformed one is passed over. -/
def parseSignatureLine (line : JsString) : Option NoteSignature :=
  if !sigPrefix.isPrefixOf line then none
  else
    let rest := line.drop sigPrefix.length
    let name := rest.takeWhile (· ≠ 32)
    let b64 := rest.drop (name.length + 1)
    if rest.length = name.length ∨ name = [] then none
    else if !isBase64 b64 then none
    else
      let payload := ofBase64 b64
      if payload.length < 5 then none
      else some ⟨name, hex (payload.take 4), payload.drop 4⟩

def signatureLines (sigBlock : JsString) : List JsString :=
  if sigBlock = [] then []
  else
    let lines := sigBlock.splitOn 10
    if lines.getLast? = some [] then lines.dropLast else lines

def parseNote (note : JsString) : Throwing ParsedNote :=
  if note = [] then checkpointError "note is empty"
  else if maxNoteBytes < (utf8 note).length then
    checkpointError ("note exceeds " ++ natText maxNoteBytes ++ " bytes")
  else
    match cutBlankLine note with
    | none => checkpointError "note has no blank line separating body from signatures"
    | some (body, sigBlock) => do
      let checkpoint ← parseBody body
      let lines := signatureLines sigBlock
      if maxSignatureLines < lines.length then
        checkpointError ("note has " ++ natText lines.length ++ " signature lines (max " ++
          natText maxSignatureLines ++ ")")
      else
        let signatures := lines.filterMap parseSignatureLine
        return ⟨checkpoint, body, signatures, lines.length - signatures.length⟩

theorem parseNote_ok (parsed : parseNote note = .ok result) :
    ∃ sigBlock, cutBlankLine note = some (result.body, sigBlock) ∧
      parseBody result.body = .ok result.checkpoint ∧
      result.signatures = (signatureLines sigBlock).filterMap parseSignatureLine := by
  unfold parseNote at parsed
  simp only [check_eq_ok] at parsed
  obtain ⟨-, -, parsed⟩ := parsed
  split at parsed
  · cases parsed
  · rename_i body sigBlock parts
    cases read : parseBody body with
    | error e => rw [read] at parsed; cases parsed
    | ok checkpoint =>
      rw [read] at parsed
      obtain ⟨-, result⟩ := check_eq_ok.mp parsed
      cases result
      exact ⟨sigBlock, parts, read, rfl⟩

/-! ### Notes as they are written -/

theorem cutBlankLine_written {front : JsString} (unbroken : cutBlankLine (front ++ [10]) = none)
    (sigBlock : JsString) : cutBlankLine (front ++ 10 :: 10 :: sigBlock) = some (front ++ [10], sigBlock) := by
  induction front with
  | nil => rfl
  | cons u front ih =>
    have apart : ∀ {tail}, cutBlankLine (u :: (front ++ 10 :: tail)) =
        (cutBlankLine (front ++ 10 :: tail)).map fun parts => (u :: parts.1, parts.2) := by
      intro tail
      cases front with
      | nil =>
        refine cutBlankLine.eq_2 _ _ ?_
        rintro rest rfl -
        simp [cutBlankLine] at unbroken
      | cons v front =>
        refine cutBlankLine.eq_2 _ _ ?_
        intro rest first second
        cases first
        cases second
        simp [cutBlankLine] at unbroken
    rw [List.cons_append, apart, Option.map_eq_none_iff] at unbroken
    rw [List.cons_append, apart, ih unbroken]
    rfl

theorem signatureLines_written {lines : List JsString} (plain : ∀ line ∈ lines, 10 ∉ line) :
    signatureLines (lines.flatMap (· ++ [10])) = lines := by
  unfold signatureLines
  rw [splitOn_lines plain]
  cases lines with
  | nil => rfl
  | cons line lines =>
    rw [if_neg (by simp), if_pos List.getLast?_concat]
    exact List.dropLast_concat

theorem parseSignatureLine_written {name b64 : JsString} (named : name ≠ []) (plain : 32 ∉ name)
    (base64 : isBase64 b64 = true) (long : 5 ≤ (ofBase64 b64).length) :
    parseSignatureLine (sigPrefix ++ (name ++ 32 :: b64)) =
      some ⟨name, hex ((ofBase64 b64).take 4), (ofBase64 b64).drop 4⟩ := by
  have marked : sigPrefix.isPrefixOf (sigPrefix ++ (name ++ 32 :: b64)) = true :=
    List.isPrefixOf_iff_prefix.mpr (List.prefix_append _ _)
  have other : ∀ u ∈ name, decide (u ≠ 32) = true := by
    intro u member
    refine decide_eq_true ?_
    rintro rfl
    exact plain member
  have front : (name ++ 32 :: b64).takeWhile (· ≠ 32) = name := by
    rw [List.takeWhile_append_of_pos other]
    simp
  have back : (name ++ 32 :: b64).drop (name.length + 1) = b64 := by
    rw [List.append_cons]
    exact List.drop_left' (by rw [List.length_append, List.length_singleton])
  have spaced : ¬((name ++ 32 :: b64).length = name.length ∨ name = []) := by
    simp [named]
  unfold parseSignatureLine
  rw [if_neg (by rw [marked]; exact Bool.false_ne_true)]
  simp only [List.drop_left, front, back, base64]
  rw [if_neg spaced, if_neg (by simp), if_neg (not_lt.mpr long)]

/-- A body that ends its last line, a blank line and the lines of signatures. -/
theorem parseNote_written {body : JsString} {lines : List JsString} (ended : body.getLast? = some 10)
    (unbroken : cutBlankLine body = none) (read : parseBody body = .ok checkpoint)
    (plain : ∀ line ∈ lines, 10 ∉ line) (few : lines.length ≤ maxSignatureLines)
    (short : 4 * (body ++ 10 :: lines.flatMap (· ++ [10])).length ≤ maxNoteBytes) :
    parseNote (body ++ 10 :: lines.flatMap (· ++ [10])) = .ok ⟨checkpoint, body,
      lines.filterMap parseSignatureLine, lines.length - (lines.filterMap parseSignatureLine).length⟩ := by
  have bytes := (length_utf8_le (body ++ 10 :: lines.flatMap (· ++ [10]))).trans short
  obtain ⟨front, rfl⟩ := List.getLast?_eq_some_iff.mp ended
  have cut := cutBlankLine_written unbroken (lines.flatMap (· ++ [10]))
  rw [List.append_cons] at cut
  rw [parseNote, if_neg (by simp), if_neg (not_lt.mpr bytes), cut]
  simp only [read, ok_bind, signatureLines_written plain]
  exact if_neg (not_lt.mpr few)

/-- Whether this very key signed the note; other signatures are passed over. -/
def verifyNoteSignature (crypto : Crypto) (parsed : ParsedNote) (name publicKeyPem : JsString)
    (sigType : UInt8) : Bool :=
  match rawEd25519PublicKey crypto publicKeyPem, crypto.createPublicKey publicKeyPem with
  | .ok raw, .ok key => parsed.signatures.any fun sig =>
      sig.name = name && sig.keyId = keyId crypto name sigType raw &&
        crypto.edVerify (utf8 parsed.body) key sig.signature
  | _, _ => false

theorem verifyNoteSignature_of_mem {crypto : Crypto} {parsed : ParsedNote} {key : KeyObject}
    (held : rawEd25519PublicKey crypto pem = .ok raw) (known : crypto.createPublicKey pem = .ok key)
    (listed : ⟨name, keyId crypto name sigType raw, signature⟩ ∈ parsed.signatures)
    (signed : crypto.edVerify (utf8 parsed.body) key signature = true) :
    verifyNoteSignature crypto parsed name pem sigType = true := by
  rw [verifyNoteSignature, held, known]
  refine List.any_eq_true.mpr ⟨_, listed, ?_⟩
  simp only [decide_true, Bool.true_and, signed]

/-- One `— name base64(keyID||sig)` line. -/
def signatureLine (name keyIdHex : JsString) (signature : Bytes) : Throwing JsString :=
  if name.contains 32 || name.contains 10 || name = [] then
    checkpointError "key name must be a non-empty string without spaces or newlines"
  else .ok (sigPrefix ++ name ++ " " ++ toBase64 (ofHex keyIdHex ++ signature) ++ "\n")

/-! ### The keys of a log and a witness -/
namespace Sample

/-- Bytes written as one big-endian number. -/
def bytes (length n : ℕ) : Bytes := (List.range length).map fun i => (n / 256 ^ (length - 1 - i)).toUInt8

theorem length_bytes (length n : ℕ) : (bytes length n).length = length := by
  rw [bytes, List.length_map, List.length_range]

def hash (n : ℕ) : Hash := ⟨bytes 32 n, length_bytes 32 n⟩

/-- A text of ASCII characters, read off its bytes. -/
def ascii (s : String) : JsString := s.toByteArray.data.toList.map UInt8.toUInt16

def logKey : KeyObject := ⟨"ed25519",
  bytes 44 0x302a300506032b65700321008a88e3dd7409f195fd52db2d3cba5d72ca6709bf1d94121bf3748801b40f6f5c⟩

def witnessKey : KeyObject := ⟨"ed25519",
  bytes 44 0x302a300506032b65700321008139770ea87d175f56a35466c34c7ecccb8d8a91b4ee37a25df60f5b8fc9b394⟩

def logPem : JsString := ascii "-----BEGIN PUBLIC KEY-----
MCowBQYDK2VwAyEAiojj3XQJ8ZX9UtstPLpdcspnCb8dlBIb83SIAbQPb1w=
-----END PUBLIC KEY-----
"

def witnessPem : JsString := ascii "-----BEGIN PUBLIC KEY-----
MCowBQYDK2VwAyEAgTl3Dqh9F19Wo1Rmw0x+zMuNipG07jeiXfYPW4/Js5Q=
-----END PUBLIC KEY-----
"

theorem pems_known : logPem ≠ [] ∧ witnessPem ≠ logPem := by decide +kernel

end Sample
end Vaduno.Transparency
