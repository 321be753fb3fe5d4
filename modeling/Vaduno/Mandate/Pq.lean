import Vaduno.Ecma.Base64
import Vaduno.Ecma.Value

/-! The raw key inside an ML-DSA-44 public key in PEM. It is read from the text alone, so a runtime
without ML-DSA can read it too. -/
namespace Vaduno.Mandate
open Ecma

def mlDsa44PublicKeyBytes : ℕ := 1312

def mlDsa44OidDer : Bytes := ofHex "0609608648016503040311"

/-- `\s` of a regular expression. -/
def isSpaceUnit (u : UInt16) : Bool :=
  (9 ≤ u && u ≤ 13) || u = 0x20 || u = 0xa0 || u = 0x1680 || (0x2000 ≤ u && u ≤ 0x200a) ||
    u = 0x2028 || u = 0x2029 || u = 0x202f || u = 0x205f || u = 0x3000 || u = 0xfeff

/-- A unit that may stand between the lines of a PEM block. -/
def isPemUnit (u : UInt16) : Bool := isBase64Unit u || u = 61 || isSpaceUnit u

def pemHeader : JsString := "-----BEGIN PUBLIC KEY-----"
def pemFooter : JsString := "-----END PUBLIC KEY-----"

/-- The first block of the text: what stands between a header and the next footer. -/
def pemBlock : JsString → Option JsString
  | [] => none
  | u :: rest =>
    let inner := ((u :: rest).drop pemHeader.length).takeWhile isPemUnit
    let after := ((u :: rest).drop pemHeader.length).dropWhile isPemUnit
    if pemHeader.isPrefixOf (u :: rest) ∧ inner ≠ [] ∧ pemFooter.isPrefixOf after then some inner
    else pemBlock rest

def spkiDerFromPem (publicKeyPem : JsString) : Throwing Bytes :=
  match pemBlock publicKeyPem with
  | none => .error (.error "not a PEM PUBLIC KEY block")
  | some inner =>
    let b64 := inner.filter (!isSpaceUnit ·)
    if b64.takeWhile isBase64Unit = [] ∨ !isBase64 b64 then .error (.error "PEM body is not base64")
    else .ok (ofBase64 b64)

theorem isSpaceUnit_of_base64 {u : UInt16} (unit : isBase64Unit u = true) : isSpaceUnit u = false := by
  simp only [isBase64Unit, Bool.or_eq_true, Bool.and_eq_true, decide_eq_true_eq,
    UInt16.le_iff_toNat_le, ← UInt16.toNat_inj, UInt16.reduceToNat] at unit
  simp only [isSpaceUnit, Bool.or_eq_false_iff, Bool.and_eq_false_iff, decide_eq_false_iff_not,
    UInt16.le_iff_toNat_le, ← UInt16.toNat_inj, UInt16.reduceToNat]
  omega

/-- A block that the text begins with. -/
theorem pemBlock_first {inner : JsString} (units : ∀ u ∈ inner, isPemUnit u = true) (nonempty : inner ≠ [])
    (rest : JsString) : pemBlock (pemHeader ++ (inner ++ (pemFooter ++ rest))) = some inner := by
  have footer : pemFooter = 45 :: pemFooter.tail ∧ isPemUnit 45 = false := by decide +kernel
  have stops : (pemFooter ++ rest).takeWhile isPemUnit = [] ∧
      (pemFooter ++ rest).dropWhile isPemUnit = pemFooter ++ rest := by
    rw [footer.1, List.cons_append]
    exact ⟨List.takeWhile_cons_of_neg (by simp [footer.2]), List.dropWhile_cons_of_neg (by simp [footer.2])⟩
  have dropped : (pemHeader ++ (inner ++ (pemFooter ++ rest))).drop pemHeader.length = inner ++ (pemFooter ++ rest) :=
    List.drop_left
  have run : (inner ++ (pemFooter ++ rest)).takeWhile isPemUnit = inner := by
    rw [List.takeWhile_append_of_pos units, stops.1, List.append_nil]
  have after : (inner ++ (pemFooter ++ rest)).dropWhile isPemUnit = pemFooter ++ rest := by
    rw [List.dropWhile_append_of_pos units, stops.2]
  have header : pemHeader.isPrefixOf (pemHeader ++ (inner ++ (pemFooter ++ rest))) = true :=
    List.isPrefixOf_iff_prefix.mpr (List.prefix_append _ _)
  have closes : pemFooter.isPrefixOf (pemFooter ++ rest) = true :=
    List.isPrefixOf_iff_prefix.mpr (List.prefix_append _ _)
  cases text : pemHeader ++ (inner ++ (pemFooter ++ rest)) with
  | nil => exact absurd (List.append_eq_nil_iff.mp (List.append_eq_nil_iff.mp text).2).1 nonempty
  | cons u more =>
    rw [text] at dropped header
    rw [pemBlock]
    simp only [dropped, run, after, header, closes]
    rw [if_pos ⟨trivial, nonempty, trivial⟩]

theorem eq_of_padding {u : UInt16} {padding : JsString} (pads : padding ∈ [[], [61], [61, 61]])
    (member : u ∈ padding) : u = 61 := by
  simp only [List.mem_cons, List.not_mem_nil, or_false] at pads
  rcases pads with rfl | rfl | rfl <;> simp at member <;> exact member

/-- A block of base64 text, with space wherever it stands. -/
theorem spkiDerFromPem_spaced {inner text padding : JsString} (spaced : inner.filter (!isSpaceUnit ·) = text ++ padding)
    (units : ∀ u ∈ text, isBase64Unit u = true) (pads : padding ∈ [[], [61], [61, 61]]) (nonempty : text ≠ [])
    (rest : JsString) : spkiDerFromPem (pemHeader ++ (inner ++ (pemFooter ++ rest))) =
      .ok (joinSextets (text.map base64Value)) := by
  have pem : ∀ u ∈ inner, isPemUnit u = true := by
    intro u member
    cases space : isSpaceUnit u with
    | true => simp [isPemUnit, space]
    | false =>
      have kept : u ∈ text ++ padding := by
        rw [← spaced]
        exact List.mem_filter.mpr ⟨member, by simp [space]⟩
      rcases List.mem_append.mp kept with front | back
      · rw [isPemUnit, units u front]
        rfl
      · rw [eq_of_padding pads back]
        decide
  have present : inner ≠ [] := by
    rintro rfl
    exact nonempty (List.append_eq_nil_iff.mp spaced.symm).1
  have front : (text ++ padding).takeWhile isBase64Unit ≠ [] := by
    rw [List.takeWhile_append_of_pos units]
    exact fun empty => nonempty (List.append_eq_nil_iff.mp empty).1
  rw [spkiDerFromPem, pemBlock_first pem present rest]
  simp only [spaced, isBase64_padded units pads nonempty, ofBase64_padded units pads]
  rw [if_neg (by simp [front])]

/-- A block of base64 text on one line. -/
theorem spkiDerFromPem_padded {text padding : JsString} (units : ∀ u ∈ text, isBase64Unit u = true)
    (pads : padding ∈ [[], [61], [61, 61]]) (nonempty : text ≠ []) :
    spkiDerFromPem (pemHeader ++ (text ++ padding) ++ pemFooter) =
      .ok (joinSextets (text.map base64Value)) := by
  have kept : (text ++ padding).filter (!isSpaceUnit ·) = text ++ padding := by
    refine List.filter_eq_self.mpr fun u member => ?_
    rcases List.mem_append.mp member with front | back
    · rw [isSpaceUnit_of_base64 (units u front)]
      rfl
    · rw [eq_of_padding pads back]
      decide
  have parsed := spkiDerFromPem_spaced kept units pads nonempty []
  rwa [List.append_nil, ← List.append_assoc] at parsed

/-- Where a DER value is. -/
structure Tlv where
  tag : UInt8
  start : ℕ
  length : ℕ

def readTlv (buf : Bytes) (offset : ℕ) : Throwing Tlv :=
  match buf[offset]?, buf[offset + 1]? with
  | some tag, some len =>
    if len.toNat < 128 then
      if buf.length < offset + 2 + len.toNat then .error (.error "DER value truncated")
      else .ok ⟨tag, offset + 2, len.toNat⟩
    else
      let n := len.toNat - 128
      let start := offset + 2 + n
      if n = 0 ∨ 4 < n ∨ buf.length < start then .error (.error "DER length malformed")
      else
        let length := readBE ((buf.drop (offset + 2)).take n)
        if buf.length < start + length then .error (.error "DER value truncated")
        else .ok ⟨tag, start, length⟩
  | _, _ => .error (.error "DER truncated")

def rawMlDsa44PublicKey (publicKeyPem : JsString) : Throwing Bytes := do
  let der ← spkiDerFromPem publicKeyPem
  let outer ← readTlv der 0
  if outer.tag ≠ 0x30 then .error (.error "SPKI: expected outer SEQUENCE")
  else
    let algId ← readTlv der outer.start
    if algId.tag ≠ 0x30 then .error (.error "SPKI: expected AlgorithmIdentifier SEQUENCE")
    else
      let oid ← readTlv der algId.start
      if oid.tag ≠ 0x06 then .error (.error "SPKI: expected algorithm OID")
      else if (der.drop algId.start).take (2 + oid.length) ≠ mlDsa44OidDer then
        .error (.error "SPKI algorithm OID is not id-ml-dsa-44 (2.16.840.1.101.3.4.3.17)")
      else if algId.length ≠ 2 + oid.length then
        .error (.error "SPKI: id-ml-dsa-44 AlgorithmIdentifier must have absent parameters")
      else
        let bitString ← readTlv der (algId.start + algId.length)
        if bitString.tag ≠ 0x03 then .error (.error "SPKI: expected subjectPublicKey BIT STRING")
        else if bitString.length ≠ mlDsa44PublicKeyBytes + 1 ∨ der[bitString.start]? ≠ some 0 then
          .error (.error ("SPKI: ML-DSA-44 subjectPublicKey must be " ++ natText mlDsa44PublicKeyBytes ++
            " bytes with zero unused bits"))
        else .ok ((der.drop (bitString.start + 1)).take mlDsa44PublicKeyBytes)

/-- The DER of an ML-DSA-44 public key, up to the key itself. -/
def mlDsa44SpkiHeader : Bytes := [0x30, 0x82, 0x05, 0x32, 0x30, 0x0b, 0x06, 0x09, 0x60, 0x86, 0x48,
  0x01, 0x65, 0x03, 0x04, 0x03, 0x11, 0x03, 0x82, 0x05, 0x21, 0x00]

theorem mlDsa44OidDer_bytes :
    mlDsa44OidDer = [0x06, 0x09, 0x60, 0x86, 0x48, 0x01, 0x65, 0x03, 0x04, 0x03, 0x11] := by
  decide +kernel

theorem readTlv_spki {raw : Bytes} (length : raw.length = mlDsa44PublicKeyBytes) (rest : Bytes) :
    readTlv (mlDsa44SpkiHeader ++ (raw ++ rest)) 0 = .ok ⟨0x30, 4, 1330⟩ ∧
      readTlv (mlDsa44SpkiHeader ++ (raw ++ rest)) 4 = .ok ⟨0x30, 6, 11⟩ ∧
      readTlv (mlDsa44SpkiHeader ++ (raw ++ rest)) 6 = .ok ⟨0x06, 8, 9⟩ ∧
      readTlv (mlDsa44SpkiHeader ++ (raw ++ rest)) 17 = .ok ⟨0x03, 21, 1313⟩ := by
  simp [readTlv, mlDsa44SpkiHeader, readBE, length, mlDsa44PublicKeyBytes]
  constructor
  · rw [if_neg (by omega), if_neg (by omega)]
  · rw [if_neg (by omega), if_neg (by omega)]

/-- The key is read, whatever comes after it. -/
theorem rawMlDsa44PublicKey_of_front {pem : JsString} {raw rest : Bytes}
    (der : spkiDerFromPem pem = .ok (mlDsa44SpkiHeader ++ (raw ++ rest)))
    (length : raw.length = mlDsa44PublicKeyBytes) : rawMlDsa44PublicKey pem = .ok raw := by
  obtain ⟨outer, algId, oid, bitString⟩ := readTlv_spki length rest
  have named : ((mlDsa44SpkiHeader ++ (raw ++ rest)).drop 6).take (2 + 9) = mlDsa44OidDer := by
    rw [mlDsa44OidDer_bytes]
    rfl
  have unused : (mlDsa44SpkiHeader ++ (raw ++ rest))[21]? = some 0 := rfl
  have key : ((mlDsa44SpkiHeader ++ (raw ++ rest)).drop (21 + 1)).take mlDsa44PublicKeyBytes = raw := by
    rw [← length]
    exact List.take_left
  rw [rawMlDsa44PublicKey, der]
  simp only [ok_bind, outer, algId, oid, bitString, named, unused, ne_eq, not_true, if_false,
    mlDsa44PublicKeyBytes, or_false, Nat.reduceAdd]
  exact congrArg Except.ok key

theorem rawMlDsa44PublicKey_of_der {pem : JsString} {raw : Bytes}
    (der : spkiDerFromPem pem = .ok (mlDsa44SpkiHeader ++ raw))
    (length : raw.length = mlDsa44PublicKeyBytes) : rawMlDsa44PublicKey pem = .ok raw := by
  rw [← List.append_nil raw] at der
  exact rawMlDsa44PublicKey_of_front der length

end Vaduno.Mandate
