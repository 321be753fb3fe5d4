import Vaduno.Ledger.Canonical
import Vaduno.Revocation.StatusList
import Vaduno.Transparency.Signed

/-! The bytes that keys sign, by purpose, and that no two purposes share any. What the bytes of one
purpose leave open about their input is stated exactly: texts are told apart by their UTF-8, objects by
the JSON value that they stand for. -/
namespace Vaduno.Transparency
open Ecma Ledger

def extensionLines : List JsString → Throwing JsString
  | [] => .ok []
  | ext :: rest =>
    if ext = [] ∨ 10 ∈ ext then checkpointError "extension lines must be non-empty single lines"
    else return ext ++ "\n" ++ (← extensionLines rest)

/-- The signed text of a checkpoint. -/
def checkpointBody (cp : Checkpoint) : Throwing JsString :=
  if cp.origin = [] ∨ 10 ∈ cp.origin then checkpointError "origin must be a non-empty single line"
  else if !cp.treeSize.isSafeInteger || decide (cp.treeSize < 0) then
    checkpointError ("invalid tree size: " ++ cp.treeSize.toText)
  else
    match readHash cp.rootHash with
    | none => checkpointError "rootHash must be 64 lowercase hex chars (32-byte SHA-256)"
    | some root => do
      let extensions ← extensionLines (cp.extensions.getD [])
      return cp.origin ++ "\n" ++ cp.treeSize.toText ++ "\n" ++ toBase64 root.bytes ++ "\n" ++ extensions

/-- The shape of the payloads that are a tag and an object. -/
def taggedPayload (domain : JsString) (v : JsValue) : Throwing Bytes := do
  return utf8 (domain ++ (← canonicalJson v))

def sthDomain : JsString := "vaduno-tlog-sth/v1\n"
def mandateDomain : JsString := "vaduno-mandate/v1\n"
def mandateV2Domain : JsString := "vaduno-mandate/v2\n"

def sthPayload (sth : JsValue) : Throwing Bytes := taggedPayload sthDomain sth
def mandatePayload (m : JsValue) : Throwing Bytes := taggedPayload mandateDomain m
def mandateV2Payload (m : JsValue) : Throwing Bytes := taggedPayload mandateV2Domain m
def statusListPayload (unsigned : JsValue) : Throwing Bytes :=
  taggedPayload Revocation.statusListDomain unsigned

theorem payload_eq_statusListPayload (list : Revocation.UnsignedList) :
    Revocation.payload list = statusListPayload list.json := rfl

/-! ### What is signed -/

/-- The objects that are signed under a tag. -/
inductive Tag
  | signedTreeHead
  | mandate
  | mandateV2
  | statusList
  deriving DecidableEq

namespace Tag

def payload : Tag → JsValue → Throwing Bytes
  | signedTreeHead => sthPayload
  | mandate => mandatePayload
  | mandateV2 => mandateV2Payload
  | statusList => statusListPayload

/-- The first line of the payload. -/
def line : Tag → JsString
  | signedTreeHead => "vaduno-tlog-sth/v1"
  | mandate => "vaduno-mandate/v1"
  | mandateV2 => "vaduno-mandate/v2"
  | statusList => "vaduno-status-list/v1"

end Tag

/-- What a payload is built from, one case for each builder. -/
inductive Signed
  | checkpoint (cp : Checkpoint)
  | cosignature (body : JsString) (timestamp : Number)
  | mlDsa44Cosignature (cosignerName : JsString) (timestamp : Number) (cp : Checkpoint)
  | tagged (tag : Tag) (v : JsValue) (proper : Proper v)

namespace Signed

def payload : Signed → Throwing Bytes
  | checkpoint cp => utf8 <$> checkpointBody cp
  | cosignature body timestamp => cosignaturePayload body timestamp
  | mlDsa44Cosignature cosignerName timestamp cp => mlDsa44CosignaturePayload cosignerName timestamp cp
  | tagged tag v _ => tag.payload v

/-- Inputs of one builder that agree in all that the builder signs. -/
def Same : Signed → Signed → Prop
  | checkpoint cp, checkpoint cp' =>
    utf8 cp.origin = utf8 cp'.origin ∧ cp.treeSize = cp'.treeSize ∧ cp.rootHash = cp'.rootHash ∧
      (cp.extensions.getD []).map utf8 = (cp'.extensions.getD []).map utf8
  | cosignature body timestamp, cosignature body' timestamp' =>
    timestamp = timestamp' ∧ utf8 body = utf8 body'
  | mlDsa44Cosignature name timestamp cp, mlDsa44Cosignature name' timestamp' cp' =>
    utf8 name = utf8 name' ∧ timestamp = timestamp' ∧ utf8 cp.origin = utf8 cp'.origin ∧
      cp.treeSize = cp'.treeSize ∧ cp.rootHash = cp'.rootHash
  | tagged tag v _, tagged tag' v' _ => tag = tag' ∧ canonical v = canonical v'
  | _, _ => False

end Signed

/-! ### The shape of each payload -/

theorem chars_extensionLines {exts : List JsString} (built : extensionLines exts = .ok lines) :
    chars lines = (exts.map chars).flatMap (· ++ ['\n']) ∧ ∀ line ∈ exts.map chars, '\n' ∉ line := by
  induction exts generalizing lines with
  | nil =>
    cases built
    exact ⟨rfl, nofun⟩
  | cons ext rest ih =>
    rw [extensionLines, check_eq_ok, not_or] at built
    obtain ⟨⟨-, single⟩, built⟩ := built
    cases more : extensionLines rest with
    | error e =>
      rw [more] at built
      cases built
    | ok others =>
      rw [more] at built
      cases built
      obtain ⟨text, free⟩ := ih more
      constructor
      · rw [show encode "\n" = [10] from rfl, List.append_assoc, List.singleton_append, chars_line, text,
          List.map_cons, List.flatMap_cons, List.append_assoc, List.singleton_append]
      · rw [List.map_cons, List.forall_mem_cons]
        exact ⟨mt newline_mem_chars.mp single, free⟩

theorem checkpointBody_ok (built : checkpointBody cp = .ok body) :
    ∃ root exts, 10 ∉ cp.origin ∧ cp.treeSize.isSafeInteger = true ∧ readHash cp.rootHash = some root ∧
      extensionLines (cp.extensions.getD []) = .ok exts ∧
      body = cp.origin ++ 10 :: (cp.treeSize.toText ++ 10 :: (toBase64 root.bytes ++ 10 :: exts)) := by
  simp only [checkpointBody, check_eq_ok, not_or, Bool.or_eq_true, Bool.not_eq_true',
    Bool.not_eq_false] at built
  obtain ⟨⟨-, single⟩, ⟨safe, -⟩, built⟩ := built
  cases read : readHash cp.rootHash with
  | none =>
    rw [read] at built
    cases built
  | some root =>
    cases lines : extensionLines (cp.extensions.getD []) with
    | error e =>
      rw [read, lines] at built
      cases built
    | ok exts =>
      rw [read, lines] at built
      cases built
      refine ⟨root, exts, single, safe, rfl, rfl, ?_⟩
      simp [encode, encodeChar]

theorem cosignaturePayload_ok (built : cosignaturePayload body t = .ok p) : t.isSafeInteger = true ∧
    p = utf8 (encode "cosignature/v1" ++ 10 :: (encode "time " ++ t.toText ++ 10 :: body)) := by
  simp only [cosignaturePayload, check_eq_ok, Bool.or_eq_true, Bool.not_eq_true', not_or,
    Bool.not_eq_false] at built
  obtain ⟨-, ⟨safe, -⟩, built⟩ := built
  cases built
  refine ⟨safe, ?_⟩
  simp [cosigHeader, encode, encodeChar]

theorem tag_payload_ok {tag : Tag} (built : tag.payload v = .ok p) :
    ∃ json, canonicalJson v = .ok json ∧ p = utf8 (tag.line ++ 10 :: json) := by
  have tagged : tag.payload v = taggedPayload (tag.line ++ "\n") v := by cases tag <;> rfl
  rw [tagged, taggedPayload] at built
  cases text : canonicalJson v with
  | error e =>
    rw [text] at built
    cases built
  | ok json =>
    rw [text] at built
    cases built
    refine ⟨json, rfl, ?_⟩
    rw [List.append_assoc]
    rfl

theorem mlDsa44CosignaturePayload_ok (built : mlDsa44CosignaturePayload name t cp = .ok p) :
    ∃ root, (utf8 name).length ≤ 255 ∧ (utf8 cp.origin).length ≤ 255 ∧
      (∃ n : ℕ, n < 2 ^ 53 ∧ t = (n : ℤ)) ∧ (∃ n : ℕ, n < 2 ^ 53 ∧ cp.treeSize = (n : ℤ)) ∧
      readHash cp.rootHash = some root ∧
      p = utf8 "subtree/v1\n" ++ 0 :: ((utf8 name).length.toUInt8 :: (utf8 name ++ (uint64BE t.toInt.toNat ++
        (utf8 cp.origin).length.toUInt8 :: (utf8 cp.origin ++ (uint64BE 0 ++
          (uint64BE cp.treeSize.toInt.toNat ++ root.bytes)))))) := by
  simp only [mlDsa44CosignaturePayload, check_eq_ok, Bool.or_eq_true, Bool.not_eq_true', not_or,
    Bool.not_eq_false, decide_eq_true_eq, not_lt] at built
  obtain ⟨⟨-, name255⟩, ⟨-, origin255⟩, ⟨safe, positive⟩, ⟨safe', positive'⟩, built⟩ := built
  obtain ⟨m, -, left, size⟩ := Number.natCast_of_not_lt (k := 0) safe (by norm_num) positive
  obtain ⟨n, -, right, time⟩ := Number.natCast_of_not_lt (k := 0) safe' (by norm_num) positive'
  cases read : readHash cp.rootHash with
  | none =>
    rw [read] at built
    cases built
  | some root =>
    rw [read] at built
    cases built
    refine ⟨root, name255, origin255, ⟨n, right, time⟩, ⟨m, left, size⟩, rfl, ?_⟩
    simp

/-! ### One builder -/

theorem chars_eq_iff_of_plain {s t : JsString} (left : ∀ u ∈ s, u < 0xd800) (right : ∀ u ∈ t, u < 0xd800) :
    chars s = chars t ↔ s = t := by
  constructor
  · exact chars_injective (wellFormed_of_plain left) (wellFormed_of_plain right)
  · rintro rfl
    rfl

theorem numberUnits_of_safe {n : Number} (safe : n.isSafeInteger = true) : NumberUnits n.toText := by
  cases n with
  | fin d => exact numberUnits_toText d
  | _ => cases safe

theorem toText_eq_iff {m n : Number} (left : m.isSafeInteger = true) (right : n.isSafeInteger = true) :
    m.toText = n.toText ↔ m = n := by
  constructor
  · intro same
    cases m with
    | fin d =>
      cases n with
      | fin e => rw [toText_injective same]
      | _ => cases right
    | _ => cases left
  · rintro rfl
    rfl

theorem root_eq_iff {s t : JsString} {h k : Hash} (left : readHash s = some h) (right : readHash t = some k) :
    h.bytes = k.bytes ↔ s = t := by
  rw [← hex_of_readHash left, ← hex_of_readHash right]
  constructor
  · intro same
    rw [Hash.hex, Hash.hex, same]
  · exact fun same => congrArg Hash.bytes (Hash.hex_injective same)

theorem map_utf8_eq_iff {exts exts' : List JsString} :
    exts.map utf8 = exts'.map utf8 ↔ exts.map chars = exts'.map chars := by
  have bytes : ∀ e : List JsString, e.map utf8 = (e.map chars).map (·.flatMap String.utf8EncodeChar) :=
    fun e => by rw [List.map_map]; rfl
  constructor
  · intro same
    induction exts generalizing exts' with
    | nil =>
      rw [List.map_nil, List.nil_eq, List.map_eq_nil_iff] at same
      rw [same]
    | cons ext rest ih =>
      cases exts' with
      | nil => cases same
      | cons ext' rest' =>
        obtain ⟨head, tail⟩ := List.cons.inj same
        rw [List.map_cons, List.map_cons, chars_of_utf8 head, ih tail]
  · intro same
    rw [bytes, same, ← bytes]

theorem checkpoint_same_iff (first : checkpointBody cp = .ok body) (second : checkpointBody cp' = .ok body') :
    utf8 body = utf8 body' ↔ utf8 cp.origin = utf8 cp'.origin ∧ cp.treeSize = cp'.treeSize ∧
      cp.rootHash = cp'.rootHash ∧
      (cp.extensions.getD []).map utf8 = (cp'.extensions.getD []).map utf8 := by
  obtain ⟨root, exts, single, safe, read, lines, rfl⟩ := checkpointBody_ok first
  obtain ⟨root', exts', single', safe', read', lines', rfl⟩ := checkpointBody_ok second
  obtain ⟨text, free⟩ := chars_extensionLines lines
  obtain ⟨text', free'⟩ := chars_extensionLines lines'
  have roots : ∀ {bytes : Bytes}, 10 ∉ toBase64 bytes := fun member =>
    absurd (toBase64_units 10 member).1 (by decide)
  have plain : ∀ {bytes : Bytes}, ∀ u ∈ toBase64 bytes, u < 0xd800 := fun u member =>
    UInt16.lt_of_le_of_lt (toBase64_units u member).2 (by decide)
  have ends : chars exts = chars exts' ↔
      (cp.extensions.getD []).map chars = (cp'.extensions.getD []).map chars := by
    rw [text, text']
    exact ⟨lines_injective free free', fun same => by rw [same]⟩
  rw [utf8_eq_iff, utf8_eq_iff, map_utf8_eq_iff, chars_line_eq_iff single single',
    chars_line_eq_iff (newline_notMem_toText safe) (newline_notMem_toText safe'),
    chars_line_eq_iff roots roots, ends,
    chars_eq_iff_of_plain (numberUnits_of_safe safe).plain (numberUnits_of_safe safe').plain,
    toText_eq_iff safe safe', chars_eq_iff_of_plain plain plain, toBase64_injective.eq_iff,
    root_eq_iff read read']

theorem cosignature_same_iff (first : cosignaturePayload body t = .ok p)
    (second : cosignaturePayload body' t' = .ok p') : p = p' ↔ t = t' ∧ utf8 body = utf8 body' := by
  obtain ⟨safe, rfl⟩ := cosignaturePayload_ok first
  obtain ⟨safe', rfl⟩ := cosignaturePayload_ok second
  have free : ∀ {n : Number}, n.isSafeInteger = true → 10 ∉ encode "time " ++ n.toText := by
    intro n safe
    rw [List.mem_append, not_or]
    exact ⟨by decide, newline_notMem_toText safe⟩
  have word : (encode "time ").all (· < 0xd800) = true := by decide
  have plain : ∀ {n : Number}, n.isSafeInteger = true → ∀ u ∈ encode "time " ++ n.toText, u < 0xd800 := by
    intro n safe u member
    rcases List.mem_append.mp member with front | digits
    · exact of_decide_eq_true (List.all_eq_true.mp word u front)
    · exact (numberUnits_of_safe safe).plain u digits
  rw [utf8_eq_iff, utf8_eq_iff, chars_line_eq_iff (by decide) (by decide), and_iff_right rfl,
    chars_line_eq_iff (free safe) (free safe'), chars_eq_iff_of_plain (plain safe) (plain safe'),
    List.append_cancel_left_eq, toText_eq_iff safe safe']

theorem chars_tag_line {tag tag' : Tag} : chars tag.line = chars tag'.line ↔ tag = tag' := by
  constructor
  · cases tag <;> cases tag' <;> first | exact fun _ => rfl | decide
  · rintro rfl
    rfl

theorem newline_notMem_tag_line (tag : Tag) : 10 ∉ tag.line := by cases tag <;> decide

theorem tagged_same_iff {tag tag' : Tag} (proper : Proper v) (proper' : Proper v')
    (first : tag.payload v = .ok p) (second : tag'.payload v' = .ok p') :
    p = p' ↔ tag = tag' ∧ canonical v = canonical v' := by
  obtain ⟨json, text, rfl⟩ := tag_payload_ok first
  obtain ⟨json', text', rfl⟩ := tag_payload_ok second
  have texts : chars json = chars json' ↔ json = json' := by
    constructor
    · exact chars_injective (wellFormed_canonicalJson text proper) (wellFormed_canonicalJson text' proper')
    · rintro rfl
      rfl
  rw [utf8_eq_iff, chars_line_eq_iff (newline_notMem_tag_line tag) (newline_notMem_tag_line tag'), chars_tag_line, texts,
    canonicalJson_eq_iff text text' proper proper']

theorem toUInt8_inj {m n : ℕ} (left : m ≤ 255) (right : n ≤ 255) (same : m.toUInt8 = n.toUInt8) : m = n := by
  have values := congrArg UInt8.toNat same
  simp only [Nat.toUInt8, UInt8.toNat_ofNat'] at values
  omega

theorem uint64BE_inj {m n : Number} (left : ∃ k : ℕ, k < 2 ^ 53 ∧ m = (k : ℤ))
    (right : ∃ k : ℕ, k < 2 ^ 53 ∧ n = (k : ℤ)) (same : uint64BE m.toInt.toNat = uint64BE n.toInt.toNat) :
    m = n := by
  obtain ⟨k, small, rfl⟩ := left
  obtain ⟨l, small', rfl⟩ := right
  rw [Number.natCast_toNat small, Number.natCast_toNat small'] at same
  have equal := congrArg readBE same
  rw [readBE_uint64BE (by omega), readBE_uint64BE (by omega)] at equal
  rw [equal]

/-- Bytes under their length are told from what follows. -/
theorem lengthPrefixed {a b x y : Bytes} (left : a.length ≤ 255) (right : b.length ≤ 255)
    (same : a.length.toUInt8 :: (a ++ x) = b.length.toUInt8 :: (b ++ y)) : a = b ∧ x = y := by
  obtain ⟨length, rest⟩ := List.cons.inj same
  exact List.append_inj rest (toUInt8_inj left right length)

theorem mlDsa44Cosignature_same_iff (first : mlDsa44CosignaturePayload name t cp = .ok p)
    (second : mlDsa44CosignaturePayload name' t' cp' = .ok p') :
    p = p' ↔ utf8 name = utf8 name' ∧ t = t' ∧ utf8 cp.origin = utf8 cp'.origin ∧
      cp.treeSize = cp'.treeSize ∧ cp.rootHash = cp'.rootHash := by
  obtain ⟨root, name255, origin255, time, size, read, rfl⟩ := mlDsa44CosignaturePayload_ok first
  obtain ⟨root', name255', origin255', time', size', read', rfl⟩ := mlDsa44CosignaturePayload_ok second
  constructor
  · intro same
    have same := (List.cons.inj (List.append_cancel_left same)).2
    obtain ⟨names, same⟩ := lengthPrefixed name255 name255' same
    obtain ⟨times, same⟩ := List.append_inj same (by rw [length_uint64BE, length_uint64BE])
    obtain ⟨origins, same⟩ := lengthPrefixed origin255 origin255' same
    have same := List.append_cancel_left same
    obtain ⟨sizes, roots⟩ := List.append_inj same (by rw [length_uint64BE, length_uint64BE])
    exact ⟨names, uint64BE_inj time time' times, origins, uint64BE_inj size size' sizes,
      (root_eq_iff read read').mp roots⟩
  · rintro ⟨names, rfl, origins, sizes, roots⟩
    rw [names, origins, sizes, (root_eq_iff read read').mpr roots]

/-! ### Two builders -/

/-- The rest of a text after a line that is not the start of the binary payload. -/
theorem subtree_line {line rest : JsString} (single : 10 ∉ line)
    (same : utf8 (line ++ 10 :: rest) = utf8 "subtree/v1\n" ++ 0 :: tail) :
    chars line = chars "subtree/v1" ∧ ∃ more, chars rest = '\x00' :: more := by
  have label : utf8 "subtree/v1\n" ++ 0 :: tail =
      (chars "subtree/v1" ++ ['\n', '\x00']).flatMap String.utf8EncodeChar ++ tail := by
    rw [List.flatMap_append, List.append_assoc]
    rfl
  rw [label] at same
  obtain ⟨more, begins⟩ := chars_of_utf8_append same
  rw [chars_line, List.append_assoc] at begins
  obtain ⟨lines, rests⟩ := separated (x := '\x00' :: more) (by decide) (mt newline_mem_chars.mp single) begins
  exact ⟨lines.symm, more, rests.symm⟩

/-- What follows the origin of a checkpoint begins with the size. -/
theorem chars_size {n : Number} (safe : n.isSafeInteger = true) (rest : JsString) :
    ∃ u more, chars (n.toText ++ 10 :: rest) = unitChar u :: more ∧ 10 ≤ u ∧ u ≤ 101 := by
  have units := numberUnits_of_safe safe
  cases text : n.toText with
  | nil =>
    refine ⟨10, chars rest, ?_, by decide, by decide⟩
    rw [List.nil_append, chars_plain (by decide)]
  | cons u more =>
    rw [text] at units
    obtain ⟨low, high, -⟩ := units u List.mem_cons_self
    refine ⟨u, chars (more ++ 10 :: rest), ?_, UInt16.le_trans (by decide) low, high⟩
    rw [List.cons_append, chars_plain (UInt16.lt_of_le_of_lt high (by decide))]

theorem unitChar_ne {u v : UInt16} (plain : u < 0xd800) (plain' : v < 0xd800) (other : u ≠ v) :
    unitChar u ≠ unitChar v := by
  intro same
  have units := congrArg encodeChar same
  rw [encodeChar_of_plain plain, encodeChar_of_plain plain'] at units
  exact other (List.cons.inj units).1

/-- A size begins neither like the time of a cosignature nor like the end of the binary label. -/
theorem chars_size_ne {n : Number} (safe : n.isSafeInteger = true) {v : UInt16} (outside : v < 10 ∨ 101 < v)
    (plain : v < 0xd800) : chars (n.toText ++ 10 :: rest) ≠ unitChar v :: more := by
  intro same
  obtain ⟨u, more', starts, low, high⟩ := chars_size safe rest
  rw [starts] at same
  refine unitChar_ne (UInt16.lt_of_le_of_lt high (by decide)) plain ?_ (List.cons.inj same).1
  rintro rfl
  rcases outside with below | above
  · exact UInt16.not_lt.mpr low below
  · exact UInt16.not_lt.mpr high above

theorem checkpoint_ne_cosignature (first : checkpointBody cp = .ok body)
    (second : cosignaturePayload text t = .ok p) : utf8 body ≠ p := by
  obtain ⟨root, exts, single, safe, -, -, rfl⟩ := checkpointBody_ok first
  obtain ⟨-, rfl⟩ := cosignaturePayload_ok second
  intro same
  obtain ⟨-, sizes⟩ := (chars_line_eq_iff single (by decide)).mp (chars_of_utf8 same)
  exact chars_size_ne (v := 116) safe (.inr (by decide)) (by decide) sizes

theorem checkpoint_ne_tagged {tag : Tag} (proper : Proper v) (first : checkpointBody cp = .ok body)
    (second : tag.payload v = .ok p) : utf8 body ≠ p := by
  obtain ⟨root, exts, single, -, -, -, rfl⟩ := checkpointBody_ok first
  obtain ⟨json, text, rfl⟩ := tag_payload_ok second
  intro same
  obtain ⟨-, rests⟩ := (chars_line_eq_iff single (newline_notMem_tag_line tag)).mp (chars_of_utf8 same)
  -- the object is one line, and a checkpoint has more than two
  apply newline_notMem_canonicalJson text proper
  rw [← newline_mem_chars, ← rests, newline_mem_chars]
  simp

theorem cosignature_ne_tagged {tag : Tag} (first : cosignaturePayload text t = .ok p)
    (second : tag.payload v = .ok p') : p ≠ p' := by
  obtain ⟨-, rfl⟩ := cosignaturePayload_ok first
  obtain ⟨json, -, rfl⟩ := tag_payload_ok second
  intro same
  obtain ⟨lines, -⟩ := (chars_line_eq_iff (by decide) (newline_notMem_tag_line tag)).mp (chars_of_utf8 same)
  revert lines
  cases tag <;> decide

theorem checkpoint_ne_mlDsa44Cosignature (first : checkpointBody cp = .ok body)
    (second : mlDsa44CosignaturePayload name t cp' = .ok p) : utf8 body ≠ p := by
  obtain ⟨root, exts, single, safe, -, -, rfl⟩ := checkpointBody_ok first
  obtain ⟨-, -, -, -, -, -, rfl⟩ := mlDsa44CosignaturePayload_ok second
  intro same
  obtain ⟨-, more, sizes⟩ := subtree_line single same
  exact chars_size_ne (v := 0) safe (.inl (by decide)) (by decide) sizes

theorem cosignature_ne_mlDsa44Cosignature (first : cosignaturePayload text t = .ok p)
    (second : mlDsa44CosignaturePayload name t' cp = .ok p') : p ≠ p' := by
  obtain ⟨-, rfl⟩ := cosignaturePayload_ok first
  obtain ⟨-, -, -, -, -, -, rfl⟩ := mlDsa44CosignaturePayload_ok second
  intro same
  exact absurd (subtree_line (by decide) same).1 (by decide)

theorem tagged_ne_mlDsa44Cosignature {tag : Tag} (first : tag.payload v = .ok p)
    (second : mlDsa44CosignaturePayload name t cp = .ok p') : p ≠ p' := by
  obtain ⟨json, -, rfl⟩ := tag_payload_ok first
  obtain ⟨-, -, -, -, -, -, rfl⟩ := mlDsa44CosignaturePayload_ok second
  intro same
  have lines := (subtree_line (newline_notMem_tag_line tag) same).1
  revert lines
  cases tag <;> decide

theorem checkpoint_payload_ok (built : (Signed.checkpoint cp).payload = .ok p) :
    ∃ body, checkpointBody cp = .ok body ∧ utf8 body = p := by
  rw [Signed.payload] at built
  cases text : checkpointBody cp with
  | error e =>
    rw [text] at built
    cases built
  | ok body =>
    rw [text] at built
    exact ⟨body, rfl, Except.ok.inj built⟩

/-- Payloads are the same bytes exactly where one builder made both, of inputs that agree in all that
it signs. -/
theorem same_bytes_iff {s s' : Signed} (built : s.payload = .ok p) (built' : s'.payload = .ok p') :
    p = p' ↔ s.Same s' := by
  cases s with
  | checkpoint cp =>
    obtain ⟨body, text, rfl⟩ := checkpoint_payload_ok built
    cases s' with
    | checkpoint cp' =>
      obtain ⟨body', text', rfl⟩ := checkpoint_payload_ok built'
      exact checkpoint_same_iff text text'
    | cosignature => exact iff_of_false (checkpoint_ne_cosignature text built') not_false
    | mlDsa44Cosignature => exact iff_of_false (checkpoint_ne_mlDsa44Cosignature text built') not_false
    | tagged tag v proper => exact iff_of_false (checkpoint_ne_tagged proper text built') not_false
  | cosignature =>
    cases s' with
    | checkpoint =>
      obtain ⟨body', text', rfl⟩ := checkpoint_payload_ok built'
      exact iff_of_false (checkpoint_ne_cosignature text' built).symm not_false
    | cosignature => exact cosignature_same_iff built built'
    | mlDsa44Cosignature => exact iff_of_false (cosignature_ne_mlDsa44Cosignature built built') not_false
    | tagged => exact iff_of_false (cosignature_ne_tagged built built') not_false
  | mlDsa44Cosignature =>
    cases s' with
    | checkpoint =>
      obtain ⟨body', text', rfl⟩ := checkpoint_payload_ok built'
      exact iff_of_false (checkpoint_ne_mlDsa44Cosignature text' built).symm not_false
    | cosignature => exact iff_of_false (cosignature_ne_mlDsa44Cosignature built' built).symm not_false
    | mlDsa44Cosignature => exact mlDsa44Cosignature_same_iff built built'
    | tagged => exact iff_of_false (tagged_ne_mlDsa44Cosignature built' built).symm not_false
  | tagged tag v proper =>
    cases s' with
    | checkpoint =>
      obtain ⟨body', text', rfl⟩ := checkpoint_payload_ok built'
      exact iff_of_false (checkpoint_ne_tagged proper text' built).symm not_false
    | cosignature => exact iff_of_false (cosignature_ne_tagged built' built).symm not_false
    | mlDsa44Cosignature => exact iff_of_false (tagged_ne_mlDsa44Cosignature built built') not_false
    | tagged tag' v' proper' => exact tagged_same_iff proper proper' built built'

/-- Two inputs of the builders for which the same bytes are signed. -/
def Collide (s s' : Signed) : Prop := s ≠ s' ∧ ∃ p, s.payload = .ok p ∧ s'.payload = .ok p

namespace Sample

def head (origin : JsString) (extensions : Option (List JsString)) : Signed :=
  .checkpoint ⟨origin, 1, emptyTreeRootHex, extensions⟩

def unordered : JsValue := .object [([98], .boolean true), ([97], .null), ([99], .undefined)]
def ordered : JsValue := .object [([97], .null), ([98], .boolean true)]

def unorderedMandate : Signed := .tagged .mandate unordered (by simp [unordered, Proper, ProperProps])
def orderedMandate : Signed := .tagged .mandate ordered (by simp [ordered, Proper, ProperProps])

theorem signed_bytes : (head [0xd800] none).payload.toOption.isSome ∧
    (head [0xd801] none).payload.toOption = (head [0xd800] none).payload.toOption ∧
    (head [0xd800] (some [])).payload.toOption = (head [0xd800] none).payload.toOption ∧
    orderedMandate.payload.toOption.isSome ∧
    unorderedMandate.payload.toOption = orderedMandate.payload.toOption := by decide +kernel

theorem collide {s s' : Signed} (other : s ≠ s') (built : s.payload.toOption.isSome = true)
    (same : s'.payload.toOption = s.payload.toOption) : Collide s s' := by
  obtain ⟨p, bytes⟩ := Option.isSome_iff_exists.mp built
  exact ⟨other, p, of_toOption bytes, of_toOption (same.trans bytes)⟩

/-- Lone surrogates, an empty list of extensions and the order of members leave the bytes as they
are. -/
theorem inputs_collide : Collide (head [0xd800] none) (head [0xd801] none) ∧
    Collide (head [0xd800] none) (head [0xd800] (some [])) ∧ Collide orderedMandate unorderedMandate := by
  obtain ⟨built, surrogates, extensions, built', members⟩ := signed_bytes
  refine ⟨collide ?_ built surrogates, collide ?_ built extensions, collide ?_ built' members⟩
  · simp [head]
  · simp [head]
  · simp [orderedMandate, unorderedMandate, ordered, unordered]

theorem same_bytes_of_head : ∃ p p', (head [0xd800] none).payload = .ok p ∧ orderedMandate.payload = .ok p' ∧
    p ≠ p' := by
  obtain ⟨built, -, -, built', -⟩ := signed_bytes
  obtain ⟨p, bytes⟩ := Option.isSome_iff_exists.mp built
  obtain ⟨p', bytes'⟩ := Option.isSome_iff_exists.mp built'
  refine ⟨p, p', of_toOption bytes, of_toOption bytes', ?_⟩
  rw [Ne, same_bytes_iff (of_toOption bytes) (of_toOption bytes')]
  exact not_false

end Sample
end Vaduno.Transparency
