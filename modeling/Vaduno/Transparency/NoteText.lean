import Vaduno.Ecma.IntegerText
import Vaduno.Transparency.Domains
import Vaduno.Transparency.NoteOrder

/-! Notes as they are written and read. What the encoder and the signers put together is read back as
it was, and a note that was read is put together again exactly if its signature lines are spelled the
way that signers spell them. -/
namespace Vaduno.Transparency
open Ecma

/-- A line with its line break. -/
def endLine (l : JsString) : JsString := if l.getLast? = some 10 then l else l ++ "\n"

/-- A full note from a body and its signature lines. -/
def assembleNote (body : JsString) (lines : List JsString) : Throwing JsString :=
  if body.getLast? ≠ some 10 then checkpointError "note body must end with a newline"
  else .ok (body ++ "\n" ++ lines.flatMap endLine)

/-- A note with the lines of further cosignatures. -/
def attachCosignatures (note : JsString) (records : List CosignatureRecord) : Throwing JsString :=
  if note.getLast? ≠ some 10 then checkpointError "note must end with a newline"
  else .ok (records.foldl (fun out r => out ++ endLine r.line) note)

/-- A line as a signer writes it: the id is that of its key, and there is a signature. -/
structure SignerLine (crypto : Crypto) (sig : NoteSignature) (line : JsString) : Prop where
  key : ∃ sigType publicKeyRaw, sig.keyId = keyId crypto sig.name sigType publicKeyRaw
  signed : sig.signature ≠ []
  written : signatureLine sig.name sig.keyId sig.signature = .ok line

/-- A note from what was read of one: its body, and a line for each signature. -/
def reassemble (parsed : ParsedNote) : Throwing JsString := do
  assembleNote parsed.body (← parsed.signatures.mapM fun sig => signatureLine sig.name sig.keyId sig.signature)

/-- A checkpoint as the parser gives it: without extension lines there is no list of them. -/
def Checkpoint.read (cp : Checkpoint) : Checkpoint :=
  { cp with extensions := if cp.extensions.getD [] = [] then none else some (cp.extensions.getD []) }

/-- The text of a note after its blank line. -/
def sigBlockOf (note : JsString) : JsString := ((cutBlankLine note).map Prod.snd).getD []

/-- A signature line in the spelling of signers, without its line break. -/
def WrittenLine (line : JsString) : Prop :=
  ∃ name id signature, signatureLine name (hex id) signature = .ok (line ++ "\n") ∧ id.length = 4 ∧
    signature ≠ []

/-! ### Base64 text -/

theorem isBase64Unit_base64Digit (bound : n < 64) : isBase64Unit (base64Digit n) = true := by
  revert bound
  revert n
  decide

theorem toBase64_padded (bytes : Bytes) :
    ∃ padding ∈ [[], [61], [61, 61]], toBase64 bytes = (sextets bytes).map base64Digit ++ padding := by
  induction bytes using sextets.induct with
  | case1 a b c rest ih =>
    obtain ⟨padding, pads, text⟩ := ih
    exact ⟨padding, pads, by rw [toBase64, sextets, text]; rfl⟩
  | case2 a b => exact ⟨[61], by simp, rfl⟩
  | case3 a => exact ⟨[61, 61], by simp, rfl⟩
  | case4 => exact ⟨[], by simp, rfl⟩

theorem ofBase64_toBase64 (bytes : Bytes) : ofBase64 (toBase64 bytes) = bytes := by
  obtain ⟨padding, pads, text⟩ := toBase64_padded bytes
  have units : ∀ u ∈ (sextets bytes).map base64Digit, isBase64Unit u = true := by
    intro u member
    obtain ⟨n, sextet, rfl⟩ := List.mem_map.mp member
    exact isBase64Unit_base64Digit (sextets_lt sextet)
  have values : ((sextets bytes).map base64Digit).map base64Value = sextets bytes := by
    rw [List.map_map]
    exact (List.map_congr_left fun n member => base64Value_base64Digit (sextets_lt member)).trans (List.map_id _)
  rw [text, ofBase64_padded units pads, values, joinSextets_sextets]

theorem isBase64_toBase64 {bytes : Bytes} (nonempty : bytes ≠ []) : isBase64 (toBase64 bytes) = true := by
  obtain ⟨padding, pads, text⟩ := toBase64_padded bytes
  have units : ∀ u ∈ (sextets bytes).map base64Digit, isBase64Unit u = true := by
    intro u member
    obtain ⟨n, sextet, rfl⟩ := List.mem_map.mp member
    exact isBase64Unit_base64Digit (sextets_lt sextet)
  rw [text]
  refine isBase64_padded units pads fun empty => nonempty ?_
  rw [← joinSextets_sextets bytes, List.map_eq_nil_iff.mp empty]
  rfl

/-! ### Lines -/

theorem cutBlankLine_cons {u : UInt16} {rest : JsString} (apart : u = 10 → rest.head? ≠ some 10) :
    cutBlankLine (u :: rest) = (cutBlankLine rest).map fun parts => (u :: parts.1, parts.2) := by
  refine cutBlankLine.eq_2 u rest ?_
  rintro tail same rfl
  exact apart same rfl

theorem head_lines {lines : List JsString} (proper : ∀ line ∈ lines, line ≠ [] ∧ 10 ∉ line) :
    (lines.flatMap (· ++ [10])).head? ≠ some 10 := by
  cases lines with
  | nil => exact nofun
  | cons line rest =>
    obtain ⟨written, plain⟩ := proper line List.mem_cons_self
    obtain ⟨u, tail, rfl⟩ := List.exists_cons_of_ne_nil written
    rw [List.flatMap_cons, List.cons_append, List.cons_append, List.head?_cons]
    intro same
    cases same
    exact plain List.mem_cons_self

/-- Lines that are not empty leave no blank line. -/
theorem cutBlankLine_lines {lines : List JsString} (proper : ∀ line ∈ lines, line ≠ [] ∧ 10 ∉ line) :
    cutBlankLine (lines.flatMap (· ++ [10])) = none := by
  induction lines with
  | nil => rfl
  | cons line rest ih =>
    rw [List.forall_mem_cons] at proper
    rw [List.flatMap_cons, List.append_assoc, List.singleton_append]
    have plain := proper.1.2
    generalize line = front at plain
    induction front with
    | nil =>
      rw [List.nil_append, cutBlankLine_cons fun _ => head_lines proper.2, ih proper.2]
      rfl
    | cons u front inner =>
      rw [List.mem_cons, not_or] at plain
      rw [List.cons_append, cutBlankLine_cons fun same => absurd same.symm plain.1, inner plain.2]
      rfl

theorem intercalate_break {pieces : List JsString} (some : pieces ≠ []) :
    [10].intercalate pieces ++ [10] = pieces.flatMap (· ++ [10]) := by
  induction pieces with
  | nil => exact absurd rfl some
  | cons piece pieces ih =>
    cases pieces with
    | nil => simp [List.intercalate]
    | cons next pieces =>
      rw [List.flatMap_cons, ← ih (List.cons_ne_nil _ _), List.intercalate_cons_of_ne_nil (List.cons_ne_nil _ _)]
      simp

/-- Text that is empty or ends with a line break is made of its lines. -/
theorem signatureLines_ended {sigBlock : JsString} (ended : sigBlock = [] ∨ sigBlock.getLast? = some 10) :
    (signatureLines sigBlock).flatMap (· ++ [10]) = sigBlock := by
  rcases ended with rfl | last
  · rfl
  · obtain ⟨front, rfl⟩ := List.getLast?_eq_some_iff.mp last
    have pieces := intercalate_break (List.splitOn_ne_nil 10 front)
    rw [List.intercalate_splitOn] at pieces
    rw [pieces, signatureLines_written not_mem_of_mem_splitOn]

theorem ended_lines (lines : List JsString) :
    lines.flatMap (· ++ [10]) = [] ∨ (lines.flatMap (· ++ [10])).getLast? = some 10 := by
  cases lines using List.reverseRecOn with
  | nil => exact .inl rfl
  | append_singleton front line =>
    right
    rw [List.flatMap_append, List.flatMap_singleton, ← List.append_assoc, List.getLast?_concat]

theorem last_cutBlankLine (cut : cutBlankLine note = some (body, sigBlock)) : body.getLast? = some 10 := by
  induction note using cutBlankLine.induct generalizing body with
  | case1 rest =>
    cases cut
    rfl
  | case2 u rest first ih =>
    rw [cutBlankLine.eq_2 u rest first] at cut
    obtain ⟨⟨front, back⟩, found, parts⟩ := Option.map_eq_some_iff.mp cut
    cases parts
    rw [List.getLast?_cons, ih found]
    rfl
  | case3 => cases cut

/-! ### Signature lines -/

/-- The text of a signature line, without its line break. -/
def lineText (sig : NoteSignature) : JsString :=
  sigPrefix ++ (sig.name ++ 32 :: toBase64 (ofHex sig.keyId ++ sig.signature))

theorem signatureLine_ok {sig : NoteSignature} (written : signatureLine sig.name sig.keyId sig.signature = .ok line) :
    (sig.name ≠ [] ∧ 32 ∉ sig.name ∧ 10 ∉ sig.name) ∧ line = lineText sig ++ [10] := by
  rw [signatureLine, check_eq_ok] at written
  obtain ⟨named, text⟩ := written
  simp only [Bool.or_eq_true, List.contains_iff_mem, decide_eq_true_eq, not_or] at named
  cases text
  refine ⟨⟨named.2, named.1.1, named.1.2⟩, ?_⟩
  rw [lineText, show encode " " = [32] from rfl, show encode "\n" = [10] from rfl]
  simp

theorem signatureLine_of_name {sig : NoteSignature} (named : sig.name ≠ []) (spaceless : 32 ∉ sig.name)
    (single : 10 ∉ sig.name) : signatureLine sig.name sig.keyId sig.signature = .ok (lineText sig ++ [10]) := by
  have proper : ¬((sig.name.contains 32 || sig.name.contains 10 || decide (sig.name = [])) = true) := by
    simp [named, spaceless, single]
  rw [signatureLine, if_neg proper, lineText, show encode " " = [32] from rfl, show encode "\n" = [10] from rfl]
  simp

theorem lineText_single {sig : NoteSignature} (single : 10 ∉ sig.name) : 10 ∉ lineText sig := by
  have base64 : 10 ∉ toBase64 (ofHex sig.keyId ++ sig.signature) := fun member =>
    absurd (toBase64_units 10 member).1 (by decide)
  have mark : 10 ∉ sigPrefix := by decide
  rw [lineText, List.mem_append, List.mem_append, List.mem_cons]
  simp [mark, single, base64]

/-- A line with a key id of four bytes and a signature is read as that signature. -/
theorem parseSignatureLine_lineText {sig : NoteSignature} {id : Bytes} (key : sig.keyId = hex id)
    (size : id.length = 4) (signed : sig.signature ≠ []) (named : sig.name ≠ []) (spaceless : 32 ∉ sig.name) :
    parseSignatureLine (lineText sig) = some sig := by
  obtain ⟨name, keyId, signature⟩ := sig
  change keyId = hex id at key
  subst key
  have bytes : ofHex (hex id) ++ signature ≠ [] := List.append_ne_nil_of_right_ne_nil _ signed
  have some_signed : 0 < signature.length := List.length_pos_iff.mpr signed
  have long : 5 ≤ (ofBase64 (toBase64 (ofHex (hex id) ++ signature))).length := by
    rw [ofBase64_toBase64, ofHex_hex, List.length_append]
    omega
  rw [lineText, parseSignatureLine_written named spaceless (isBase64_toBase64 bytes) long, ofBase64_toBase64,
    ofHex_hex, ← size, List.take_left, List.drop_left]

/-- What is read of a line of a note can be written as a line. -/
theorem parseSignatureLine_name (parsed : parseSignatureLine line = some sig) (plain : 10 ∉ line) :
    (sig.name ≠ [] ∧ 32 ∉ sig.name ∧ 10 ∉ sig.name) ∧ ∃ id, sig.keyId = hex id ∧ id.length = 4 ∧
      sig.signature ≠ [] := by
  unfold parseSignatureLine at parsed
  dsimp only at parsed
  split_ifs at parsed with mark name base64 short
  cases parsed
  rw [not_or] at name
  have rest : ∀ u ∈ line.drop sigPrefix.length, u ∈ line := fun u member => List.mem_of_mem_drop member
  refine ⟨⟨name.2, ?_, ?_⟩, _, rfl, ?_, ?_⟩
  · intro space
    have spaceless : ((line.drop sigPrefix.length).takeWhile (· ≠ 32)).all (· ≠ 32) = true :=
      List.all_takeWhile
    exact absurd (List.all_eq_true.mp spaceless 32 space) (by decide)
  · intro newline
    exact plain (rest 10 ((List.takeWhile_sublist _).subset newline))
  · rw [List.length_take]
    omega
  · intro empty
    have size := congrArg List.length empty
    rw [List.length_drop, List.length_nil] at size
    omega

theorem SignerLine.reads {crypto : Crypto} (written : SignerLine crypto sig line) :
    line = lineText sig ++ [10] ∧ 10 ∉ lineText sig ∧ parseSignatureLine (lineText sig) = some sig := by
  obtain ⟨sigType, raw, key⟩ := written.key
  obtain ⟨⟨named, spaceless, single⟩, text⟩ := signatureLine_ok written.written
  have size : ((crypto.sha256 (utf8 sig.name ++ [0x0a] ++ [sigType] ++ raw)).bytes.take 4).length = 4 := by
    rw [List.length_take, Hash.length]
    rfl
  exact ⟨text, lineText_single single,
    parseSignatureLine_lineText key size written.signed named spaceless⟩

/-! ### The body -/

theorem extensionLines_ok {list : List JsString} (built : extensionLines list = .ok exts) :
    exts = list.flatMap (· ++ [10]) ∧ ∀ ext ∈ list, ext ≠ [] ∧ 10 ∉ ext := by
  induction list generalizing exts with
  | nil =>
    cases built
    exact ⟨rfl, List.forall_mem_nil _⟩
  | cons ext rest ih =>
    rw [extensionLines, check_eq_ok, not_or] at built
    obtain ⟨single, built⟩ := built
    cases more : extensionLines rest with
    | error e =>
      rw [more] at built
      cases built
    | ok others =>
      rw [more] at built
      cases built
      obtain ⟨text, singles⟩ := ih more
      refine ⟨?_, List.forall_mem_cons.mpr ⟨single, singles⟩⟩
      rw [text, List.flatMap_cons]
      rfl

theorem isTreeSize_natText (n : ℕ) : isTreeSize (natText n) = true := by
  rcases Nat.eq_zero_or_pos n with rfl | positive
  · rfl
  · obtain ⟨u, tail, text, other⟩ := natText_leading positive
    have only := digits_natText n
    rw [text] at only ⊢
    have low : 49 ≤ u := by
      obtain ⟨low, -⟩ := only u List.mem_cons_self
      rw [UInt16.le_iff_toNat_le] at low ⊢
      change 48 ≤ u.toNat at low
      change 49 ≤ u.toNat
      have : u.toNat ≠ 48 := fun same => other (UInt16.toNat_inj.mp same)
      omega
    have units : ∀ v ∈ u :: tail, isDigitUnit v = true := by
      intro v member
      obtain ⟨low, high⟩ := only v member
      rw [isDigitUnit, Bool.and_eq_true, decide_eq_true_eq, decide_eq_true_eq]
      rw [UInt16.lt_iff_toNat_lt] at high
      exact ⟨low, UInt16.le_iff_toNat_le.mpr (Nat.le_of_lt_succ high)⟩
    have high := units u List.mem_cons_self
    rw [isDigitUnit, Bool.and_eq_true, decide_eq_true_eq, decide_eq_true_eq] at high
    rw [isTreeSize, Bool.or_eq_true, Bool.and_eq_true, List.all_eq_true, List.head?_cons, Option.any_some]
    exact .inr ⟨by simp [low, high.2], units⟩

/-- The lines of the body of a checkpoint. -/
theorem checkpointBody_lines (built : checkpointBody cp = .ok body) :
    ∃ (n : ℕ) (root : Hash), n < 2 ^ 53 ∧ cp.treeSize = (n : ℤ) ∧ readHash cp.rootHash = some root ∧
      body = (cp.origin :: natText n :: toBase64 root.bytes :: cp.extensions.getD []).flatMap (· ++ [10]) ∧
      (∀ line ∈ cp.origin :: natText n :: toBase64 root.bytes :: cp.extensions.getD [],
        line ≠ [] ∧ 10 ∉ line) := by
  obtain ⟨root, exts, single, safe, read, lines, rfl⟩ := checkpointBody_ok built
  simp only [checkpointBody, check_eq_ok, not_or, Bool.or_eq_true, decide_eq_true_eq] at built
  obtain ⟨⟨named, -⟩, ⟨-, nonneg⟩, -⟩ := built
  obtain ⟨n, -, small, size⟩ := Number.natCast_of_not_lt (k := 0) safe (by norm_num) nonneg
  obtain ⟨rfl, extensions⟩ := extensionLines_ok lines
  have rootText : toBase64 root.bytes ≠ [] := by
    intro empty
    have bytes := ofBase64_toBase64 root.bytes
    rw [empty] at bytes
    have size := congrArg List.length bytes
    rw [root.length] at size
    cases size
  refine ⟨n, root, small, size, read, ?_, ?_⟩
  · rw [size, toText_natCast small]
    simp
  · rw [List.forall_mem_cons, List.forall_mem_cons, List.forall_mem_cons]
    exact ⟨⟨named, single⟩, ⟨natText_ne_nil n, fun member => absurd (digits_natText n 10 member) (by decide)⟩,
      ⟨rootText, fun member => absurd (toBase64_units 10 member).1 (by decide)⟩, extensions⟩

/-- The body of a checkpoint is read as the checkpoint, where the root of an empty tree is its root. -/
theorem parseBody_checkpointBody (built : checkpointBody cp = .ok body)
    (empty : cp.treeSize = 0 → cp.rootHash = emptyTreeRootHex) : parseBody body = .ok cp.read := by
  obtain ⟨n, root, small, size, read, text, proper⟩ := checkpointBody_lines built
  have lines : (body.splitOn 10).dropLast =
      cp.origin :: natText n :: toBase64 root.bytes :: cp.extensions.getD [] := by
    rw [text, splitOn_lines fun line member => (proper line member).2, List.dropLast_concat]
  rw [List.forall_mem_cons, List.forall_mem_cons, List.forall_mem_cons] at proper
  obtain ⟨⟨named, -⟩, -, ⟨-, -⟩, extensions⟩ := proper
  have nonempty : root.bytes ≠ [] := by
    intro none
    have length := root.length
    rw [none] at length
    cases length
  have rootText : hex root.bytes = cp.rootHash := hex_of_readHash read
  have written : ¬((cp.extensions.getD []).any (· = []) = true) := by
    rw [List.any_eq_true]
    rintro ⟨ext, member, blank⟩
    exact (extensions ext member).1 (of_decide_eq_true blank)
  have nought : ¬((n : ℤ) = (0 : Number) ∧ hex root.bytes ≠ emptyTreeRootHex) := by
    rintro ⟨zero, other⟩
    exact other (rootText.trans (empty (size.trans zero)))
  rw [parseBody, lines]
  simp only [digitsValue_natText, isTreeSize_natText, Number.isSafeInteger_natCast small, ofBase64_toBase64,
    isBase64_toBase64 nonempty, Bool.not_true, Bool.false_eq_true, if_false]
  rw [if_neg named, if_neg (by rw [root.length]; exact fun other => other rfl), if_neg nought, if_neg written,
    rootText, ← size]
  rfl

/-! ### Round trips -/

/-- Notes round-trip. What is assembled within the limits is read as what it was assembled of, and what
was read is assembled to the same note exactly if its lines are spelled as signers spell them. -/
structure RoundTrips (crypto : Crypto) : Prop where
  assembled : ∀ cp body signatures lines, checkpointBody cp = .ok body →
    (cp.treeSize = 0 → cp.rootHash = emptyTreeRootHex) →
    List.Forall₂ (SignerLine crypto) signatures lines → lines.length ≤ maxSignatureLines →
    ∃ note, assembleNote body lines = .ok note ∧
      ((utf8 note).length ≤ maxNoteBytes → parseNote note = .ok ⟨cp.read, body, signatures, 0⟩)
  attached : ∀ body lines records note, assembleNote body lines = .ok note →
    attachCosignatures note records = assembleNote body (lines ++ records.map (·.line))
  reassembled : ∀ note parsed, parseNote note = .ok parsed →
    (reassemble parsed = .ok note ↔ (∀ line ∈ signatureLines (sigBlockOf note), WrittenLine line) ∧
      (sigBlockOf note = [] ∨ (sigBlockOf note).getLast? = some 10))

theorem SignerLine.all {crypto : Crypto} {signatures : List NoteSignature} {lines : List JsString}
    (written : List.Forall₂ (SignerLine crypto) signatures lines) :
    lines = signatures.map (lineText · ++ [10]) ∧ (∀ sig ∈ signatures, 10 ∉ lineText sig) ∧
      (signatures.map lineText).filterMap parseSignatureLine = signatures := by
  induction written with
  | nil => exact ⟨rfl, List.forall_mem_nil _, rfl⟩
  | cons first rest ih =>
    obtain ⟨text, plain, read⟩ := first.reads
    obtain ⟨texts, plains, reads⟩ := ih
    refine ⟨?_, List.forall_mem_cons.mpr ⟨plain, plains⟩, ?_⟩
    · rw [List.map_cons, ← texts, text]
    · rw [List.map_cons, List.filterMap_cons, read, reads]

theorem assembleNote_texts {body : JsString} (ended : body.getLast? = some 10) (signatures : List NoteSignature) :
    assembleNote body (signatures.map (lineText · ++ [10])) =
      .ok (body ++ 10 :: (signatures.map lineText).flatMap (· ++ [10])) := by
  have texts : (signatures.map (lineText · ++ [10])).flatMap endLine =
      (signatures.map lineText).flatMap (· ++ [10]) := by
    rw [List.flatMap_map, List.flatMap_map]
    exact List.flatMap_congr fun sig _ => if_pos List.getLast?_concat
  rw [assembleNote, if_neg (not_not.mpr ended), texts, show encode "\n" = [10] from rfl, List.append_assoc]
  rfl

theorem parseNote_assembled {crypto : Crypto} {signatures : List NoteSignature} {lines : List JsString}
    (built : checkpointBody cp = .ok body) (empty : cp.treeSize = 0 → cp.rootHash = emptyTreeRootHex)
    (written : List.Forall₂ (SignerLine crypto) signatures lines) (few : lines.length ≤ maxSignatureLines) :
    ∃ note, assembleNote body lines = .ok note ∧
      ((utf8 note).length ≤ maxNoteBytes → parseNote note = .ok ⟨cp.read, body, signatures, 0⟩) := by
  obtain ⟨rfl, plain, read⟩ := SignerLine.all written
  obtain ⟨n, root, -, -, -, text, proper⟩ := checkpointBody_lines built
  have ended : body.getLast? = some 10 := by
    rw [text]
    refine (ended_lines _).resolve_left ?_
    simp
  have unbroken := cutBlankLine_lines proper
  rw [← text] at unbroken
  refine ⟨_, assembleNote_texts ended signatures, fun short => ?_⟩
  have singles : ∀ line ∈ signatures.map lineText, 10 ∉ line := by
    rintro _ member
    obtain ⟨sig, listed, rfl⟩ := List.mem_map.mp member
    exact plain sig listed
  have parts : NoteParts (body ++ 10 :: (signatures.map lineText).flatMap (· ++ [10])) body
      (signatures.map lineText) := by
    refine ⟨⟨_, ?_, signatureLines_written singles⟩, short, by simpa using few⟩
    obtain ⟨front, rfl⟩ := List.getLast?_eq_some_iff.mp ended
    have cut := cutBlankLine_written unbroken ((signatures.map lineText).flatMap (· ++ [10]))
    rwa [List.append_cons] at cut
  rw [parts.parseNote, parseBody_checkpointBody built empty, read, List.length_map, Nat.sub_self]
  rfl

/-- A line in the spelling of signers is the text of what is read of it, and no other line is. -/
theorem writtenLine_iff {line : JsString} (plain : 10 ∉ line) :
    WrittenLine line ↔ ∃ sig, parseSignatureLine line = some sig ∧ lineText sig = line := by
  constructor
  · rintro ⟨name, id, signature, written, size, signed⟩
    obtain ⟨⟨named, spaceless, -⟩, text⟩ := @signatureLine_ok _ ⟨name, hex id, signature⟩ written
    obtain rfl := List.append_cancel_right text
    exact ⟨_, parseSignatureLine_lineText rfl size signed named spaceless, rfl⟩
  · rintro ⟨sig, parsed, rfl⟩
    obtain ⟨⟨named, spaceless, single⟩, id, key, size, signed⟩ := parseSignatureLine_name parsed plain
    refine ⟨sig.name, id, sig.signature, ?_, size, signed⟩
    rw [← key]
    exact signatureLine_of_name named spaceless single

theorem reassemble_texts {parsed : ParsedNote} {lines : List JsString} (plain : ∀ line ∈ lines, 10 ∉ line)
    (ended : parsed.body.getLast? = some 10) (read : parsed.signatures = lines.filterMap parseSignatureLine) :
    reassemble parsed =
      .ok (parsed.body ++ 10 :: (parsed.signatures.map lineText).flatMap (· ++ [10])) := by
  have named : ∀ sig ∈ parsed.signatures, signatureLine sig.name sig.keyId sig.signature =
      .ok (lineText sig ++ [10]) := by
    intro sig member
    rw [read] at member
    obtain ⟨line, listed, parsed⟩ := List.mem_filterMap.mp member
    obtain ⟨⟨named, spaceless, single⟩, -⟩ := parseSignatureLine_name parsed (plain line listed)
    exact signatureLine_of_name named spaceless single
  have texts : parsed.signatures.mapM (fun sig => signatureLine sig.name sig.keyId sig.signature) =
      .ok (parsed.signatures.map (lineText · ++ [10])) := by
    generalize parsed.signatures = signatures at named
    induction signatures with
    | nil => rfl
    | cons sig rest ih =>
      rw [List.forall_mem_cons] at named
      rw [List.mapM_cons, named.1, ih named.2]
      rfl
  rw [reassemble, texts]
  exact assembleNote_texts ended parsed.signatures

theorem texts_filterMap {lines : List JsString}
    (written : ∀ line ∈ lines, ∃ sig, parseSignatureLine line = some sig ∧ lineText sig = line) :
    (lines.filterMap parseSignatureLine).map lineText = lines := by
  induction lines with
  | nil => rfl
  | cons line rest ih =>
    rw [List.forall_mem_cons] at written
    obtain ⟨⟨sig, parsed, text⟩, others⟩ := written
    rw [List.filterMap_cons, parsed, List.map_cons, text, ih others]

theorem reassemble_iff (parsed : parseNote note = .ok result) :
    reassemble result = .ok note ↔ (∀ line ∈ signatureLines (sigBlockOf note), WrittenLine line) ∧
      (sigBlockOf note = [] ∨ (sigBlockOf note).getLast? = some 10) := by
  obtain ⟨sigBlock, cut, -, read⟩ := parseNote_ok parsed
  obtain ⟨text, -⟩ := cutBlankLine_some cut
  have block : sigBlockOf note = sigBlock := by rw [sigBlockOf, cut]; rfl
  have plain : ∀ line ∈ signatureLines sigBlock, 10 ∉ line := by
    intro line member
    unfold signatureLines at member
    dsimp only at member
    split_ifs at member
    · cases member
    · exact not_mem_of_mem_splitOn line ((List.dropLast_sublist _).subset member)
    · exact not_mem_of_mem_splitOn line member
  rw [block, reassemble_texts plain (last_cutBlankLine cut) read, text, read]
  have whole : (Except.ok (result.body ++ 10 ::
      ((((signatureLines sigBlock).filterMap parseSignatureLine).map lineText).flatMap (· ++ [10]))) :
        Throwing JsString) = .ok (result.body ++ 10 :: sigBlock) ↔
      (((signatureLines sigBlock).filterMap parseSignatureLine).map lineText).flatMap (· ++ [10]) = sigBlock := by
    simp
  rw [whole]
  constructor
  · intro same
    generalize texts : ((signatureLines sigBlock).filterMap parseSignatureLine).map lineText = written at same
    have singles : ∀ line ∈ written, 10 ∉ line := by
      subst texts
      intro _ member
      obtain ⟨sig, listed, rfl⟩ := List.mem_map.mp member
      obtain ⟨line, member, parsed⟩ := List.mem_filterMap.mp listed
      exact lineText_single (parseSignatureLine_name parsed (plain line member)).1.2.2
    have lines : signatureLines sigBlock = written := by rw [← same, signatureLines_written singles]
    refine ⟨fun line member => (writtenLine_iff (plain line member)).mpr ?_, same ▸ ended_lines written⟩
    rw [lines, ← texts] at member
    obtain ⟨sig, listed, rfl⟩ := List.mem_map.mp member
    obtain ⟨line, given, parsed⟩ := List.mem_filterMap.mp listed
    obtain ⟨⟨named, spaceless, -⟩, id, key, size, signed⟩ := parseSignatureLine_name parsed (plain line given)
    exact ⟨sig, parseSignatureLine_lineText key size signed named spaceless, rfl⟩
  · rintro ⟨written, ended⟩
    rw [texts_filterMap fun line member => (writtenLine_iff (plain line member)).mp (written line member)]
    exact signatureLines_ended ended

theorem last_endLine (l : JsString) : (endLine l).getLast? = some 10 := by
  unfold endLine
  split_ifs with ended
  · exact ended
  · exact List.getLast?_concat

/-- Cosignatures are attached as if their lines had been among the first. -/
theorem attachCosignatures_assembled {lines : List JsString} (records : List CosignatureRecord)
    (assembled : assembleNote body lines = .ok note) :
    attachCosignatures note records = assembleNote body (lines ++ records.map (·.line)) := by
  have pieces : ∀ out : JsString, records.foldl (fun out r => out ++ endLine r.line) out =
      out ++ (records.map (·.line)).flatMap endLine := by
    induction records with
    | nil => exact fun out => (List.append_nil out).symm
    | cons r rest ih =>
      intro out
      rw [List.foldl_cons, ih, List.map_cons, List.flatMap_cons, List.append_assoc]
  rw [assembleNote, check_eq_ok] at assembled
  obtain ⟨ended, text⟩ := assembled
  cases text
  have noteEnded : (body ++ encode "\n" ++ lines.flatMap endLine).getLast? = some 10 := by
    cases lines using List.reverseRecOn with
    | nil => exact (congrArg List.getLast? (List.append_nil _)).trans List.getLast?_concat
    | append_singleton front l =>
      rw [List.flatMap_append, List.flatMap_singleton, ← List.append_assoc, List.getLast?_append, last_endLine]
      rfl
  rw [attachCosignatures, if_neg (not_not.mpr noteEnded), pieces, assembleNote, if_neg ended, List.flatMap_append,
    List.append_assoc]

theorem notes_roundTrip (crypto : Crypto) : RoundTrips crypto where
  assembled _ _ _ _ built empty written few := parseNote_assembled built empty written few
  attached _ _ records _ assembled := attachCosignatures_assembled records assembled
  reassembled _ _ parsed := reassemble_iff parsed

namespace Sample

/-- A tree of no entries under a root that is not the empty tree's. -/
def emptied : Checkpoint := ⟨encode "log.example/ledger", 0, List.replicate 64 48, none⟩

def emptiedNote : JsString :=
  encode "log.example/ledger\n0\nAAAAAAAAAAAAAAAAAAAAAAAAAAAAAAAAAAAAAAAAAAA=\n\n"

/-- A note with a line that is no signature. -/
def strayNote : JsString := plainBody ++ 10 :: encode "stray\n"

theorem carried_values : ((checkpointBody emptied >>= fun body => assembleNote body []).toOption = some emptiedNote ∧
      (parseNote emptiedNote).toOption = none) ∧
    ((parseNote strayNote).toOption.map fun parsed => (reassemble parsed).toOption) =
      some (some (plainBody ++ [10])) ∧ plainBody ++ [10] ≠ strayNote := by
  decide +kernel

/-- The first is built and not read; the second is read, and its stray line is passed over. -/
theorem notes_not_carried :
    (∃ body, checkpointBody emptied = .ok body ∧ assembleNote body [] = .ok emptiedNote ∧
      ∀ parsed, parseNote emptiedNote ≠ .ok parsed) ∧
    ∃ parsed, parseNote strayNote = .ok parsed ∧ reassemble parsed ≠ .ok strayNote := by
  obtain ⟨⟨built, unread⟩, read, other⟩ := carried_values
  constructor
  · cases text : checkpointBody emptied with
    | error e =>
      rw [text] at built
      cases built
    | ok body =>
      rw [text] at built
      refine ⟨body, rfl, of_toOption built, fun parsed same => ?_⟩
      rw [same] at unread
      cases unread
  · cases result : parseNote strayNote with
    | error e =>
      rw [result] at read
      cases read
    | ok parsed =>
      rw [result] at read
      refine ⟨parsed, rfl, fun same => other ?_⟩
      have again : (reassemble parsed).toOption = some (plainBody ++ [10]) := Option.some.inj read
      rw [same] at again
      exact (Option.some.inj again).symm

end Sample
end Vaduno.Transparency
