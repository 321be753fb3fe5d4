import Vaduno.Mandate.Pq

/-! ML-DSA-44 public keys as they are written, and the DER that is read as the same key. The reader follows the
lengths it finds, but asks neither that they are as short as they can be nor that they agree with each other, and
it stops at the key. -/
namespace Vaduno.Mandate
open Ecma

/-- The octets of a length, which here always fits two bytes. -/
def lenBytes (n : ℕ) : Bytes := if n < 0x80 then [n.toUInt8] else [0x82, (n / 256).toUInt8, n.toUInt8]

def mlDsa44SpkiDer (raw : Bytes) : Bytes :=
  let algId := [0x30, mlDsa44OidDer.length.toUInt8] ++ mlDsa44OidDer
  let bitStringContent := 0x00 :: raw
  let bitString := [0x03] ++ lenBytes bitStringContent.length ++ bitStringContent
  let content := algId ++ bitString
  [0x30] ++ lenBytes content.length ++ content

/-- `b64.match(/.{1,64}/g)`, of text without line breaks. -/
def pemLines : JsString → List JsString
  | [] => []
  | u :: rest => (u :: rest.take 63) :: pemLines (rest.drop 63)
termination_by text => text.length
decreasing_by
  rw [List.length_drop, List.length_cons]
  omega

def mlDsa44SpkiFromRawPublicKey (raw : Bytes) : Throwing JsString :=
  if raw.length ≠ mlDsa44PublicKeyBytes then
    .error (.error ("raw ML-DSA-44 public key must be " ++ natText mlDsa44PublicKeyBytes ++ " bytes"))
  else
    .ok (pemHeader ++ ("\n" ++ joinWith "\n" (pemLines (toBase64 (mlDsa44SpkiDer raw))) ++ "\n" ++
      (pemFooter ++ "\n")))

/-- The fewest octets that DER can write a length in, of those lengths that are read. -/
def lengthOctets (n : ℕ) : ℕ :=
  if n < 128 then 1 else if n < 256 then 2 else if n < 65536 then 3 else if n < 16777216 then 4 else 5

/-- The length of the value at an offset is written in as few octets as it can be. -/
def Tlv.Shortest (t : Tlv) (offset : ℕ) : Prop := t.start = offset + 1 + lengthOctets t.length

/-- Of the values that the reader finds: their three lengths are as short as they can be, and the outer value and
the bit string both end where the bytes do. -/
structure Canonical (der : Bytes) (outer algId bitString : Tlv) : Prop where
  readOuter : readTlv der 0 = .ok outer
  readAlgId : readTlv der outer.start = .ok algId
  readBitString : readTlv der (algId.start + algId.length) = .ok bitString
  shortestOuter : outer.Shortest 0
  shortestAlgId : algId.Shortest outer.start
  shortestBitString : bitString.Shortest (algId.start + algId.length)
  outerEnds : outer.start + outer.length = der.length
  bitStringEnds : bitString.start + bitString.length = der.length

/-! ### What the reader reads -/

section Read
variable {buf : Bytes} {offset : ℕ} {t : Tlv}

theorem readTlv_ok (read : readTlv buf offset = .ok t) :
    buf[offset]? = some t.tag ∧ t.start + t.length ≤ buf.length ∧
      ∃ len, buf[offset + 1]? = some len ∧
        (len.toNat < 128 ∧ t.start = offset + 2 ∧ t.length = len.toNat ∨
          128 < len.toNat ∧ t.start = offset + 2 + (len.toNat - 128) ∧
            t.length = readBE ((buf.drop (offset + 2)).take (len.toNat - 128))) := by
  unfold readTlv at read
  split at read
  · rename_i tag len first second
    dsimp only at read
    split_ifs at read with short cut malformed cut
    · cases read
      exact ⟨first, not_lt.mp cut, len, second, .inl ⟨short, rfl, rfl⟩⟩
    · cases read
      have long : 128 < len.toNat := by omega
      dsimp only
      exact ⟨first, not_lt.mp cut, len, second, .inr ⟨long, rfl, rfl⟩⟩
  · cases read

/-- A short length, in the one octet it fits. -/
theorem readTlv_short (read : readTlv buf offset = .ok t) (shortest : t.Shortest offset) (small : t.length < 128) :
    (buf.drop offset).take 2 = [t.tag, t.length.toUInt8] ∧ t.start = offset + 2 := by
  obtain ⟨tag, -, len, octet, ⟨-, start, length⟩ | ⟨long, start, -⟩⟩ := readTlv_ok read
  · refine ⟨?_, start⟩
    have octets : t.length.toUInt8 = len := toUInt8_of_eq length
    rw [octets]
    apply List.ext_getElem?
    intro i
    rcases i with _ | _ | i
    · simp [tag]
    · simp [octet]
    · simp
  · rw [Tlv.Shortest, lengthOctets, if_pos small] at shortest
    omega

/-- A length of two bytes, in the three octets it takes. -/
theorem readTlv_two (read : readTlv buf offset = .ok t) (shortest : t.Shortest offset) (low : 256 ≤ t.length)
    (high : t.length < 65536) :
    (buf.drop offset).take 4 = [t.tag, 0x82, (t.length / 256).toUInt8, t.length.toUInt8] ∧ t.start = offset + 4 := by
  rw [Tlv.Shortest, lengthOctets, if_neg (by omega), if_neg (by omega), if_pos high] at shortest
  obtain ⟨tag, bound, len, octet, ⟨-, start, -⟩ | ⟨long, start, length⟩⟩ := readTlv_ok read
  · omega
  · have two : len = 0x82 := by
      rw [← UInt8.toNat_inj]
      change len.toNat = 130
      omega
    subst two
    obtain ⟨high', third⟩ : ∃ b, buf[offset + 2]? = some b :=
      ⟨_, List.getElem?_eq_getElem (show offset + 2 < buf.length by omega)⟩
    obtain ⟨low', fourth⟩ : ∃ b, buf[offset + 3]? = some b :=
      ⟨_, List.getElem?_eq_getElem (show offset + 3 < buf.length by omega)⟩
    have run : (buf.drop (offset + 2)).take 2 = [high', low'] := by
      apply List.ext_getElem?
      intro i
      rcases i with _ | _ | i
      · simp [third]
      · simp [fourth]
      · simp
    have value : t.length = high'.toNat * 256 + low'.toNat := by
      rw [length]
      change readBE ((buf.drop (offset + 2)).take 2) = _
      rw [run]
      simp [readBE]
    have lowBound := low'.toNat_lt
    refine ⟨?_, by omega⟩
    rw [toUInt8_of_eq (a := high') (by omega), show t.length.toUInt8 = low' by
      rw [← UInt8.toNat_inj, value]; simp]
    apply List.ext_getElem?
    intro i
    rcases i with _ | _ | _ | _ | i
    · simp [tag]
    · simp [octet]
    · simp [third]
    · simp [fourth]
    · simp

theorem readTlv_bounds (read : readTlv buf offset = .ok t) :
    offset + 2 ≤ t.start ∧ t.start + t.length ≤ buf.length := by
  obtain ⟨-, bound, len, -, ⟨-, start, -⟩ | ⟨-, start, -⟩⟩ := readTlv_ok read
  · exact ⟨start.ge, bound⟩
  · exact ⟨by omega, bound⟩

end Read

/-- How a key is found in DER. -/
structure KeyRead (der raw : Bytes) (outer algId bitString : Tlv) : Prop where
  readOuter : readTlv der 0 = .ok outer
  outerTag : outer.tag = 0x30
  readAlgId : readTlv der outer.start = .ok algId
  algIdTag : algId.tag = 0x30
  algIdLength : algId.length = 11
  named : (der.drop algId.start).take 11 = mlDsa44OidDer
  readBitString : readTlv der (algId.start + algId.length) = .ok bitString
  bitStringTag : bitString.tag = 0x03
  bitStringLength : bitString.length = 1313
  unused : der[bitString.start]? = some 0
  key : raw = (der.drop (bitString.start + 1)).take mlDsa44PublicKeyBytes

theorem rawMlDsa44PublicKey_ok {pem : JsString} {der raw : Bytes} (parsed : spkiDerFromPem pem = .ok der)
    (read : rawMlDsa44PublicKey pem = .ok raw) : ∃ outer algId bitString, KeyRead der raw outer algId bitString := by
  obtain ⟨_, parsed', read⟩ := bind_ok read
  cases parsed.symm.trans parsed'
  obtain ⟨outer, readOuter, read⟩ := bind_ok read
  split_ifs at read with outerTag
  obtain ⟨algId, readAlgId, read⟩ := bind_ok read
  split_ifs at read with algIdTag
  obtain ⟨oid, readOid, read⟩ := bind_ok read
  split_ifs at read with oidTag named absent
  obtain ⟨bitString, readBitString, read⟩ := bind_ok read
  split_ifs at read with bitStringTag sized
  cases read
  rw [not_not] at outerTag algIdTag named absent bitStringTag
  rw [not_or, not_not, not_not] at sized
  have oidLength : oid.length = 9 := by
    have bounds := readTlv_bounds readOid
    have whole := congrArg List.length named
    rw [List.length_take, List.length_drop, show mlDsa44OidDer.length = 11 by decide +kernel] at whole
    omega
  rw [oidLength] at named absent
  exact ⟨outer, algId, bitString, readOuter, outerTag, readAlgId, algIdTag, absent, named, readBitString, bitStringTag,
    sized.1, sized.2, rfl⟩

theorem KeyRead.length {der raw : Bytes} {outer algId bitString : Tlv} (found : KeyRead der raw outer algId bitString) :
    raw.length = mlDsa44PublicKeyBytes := by
  have bounds := readTlv_bounds found.readBitString
  have sized := found.bitStringLength
  rw [found.key, List.length_take, List.length_drop, mlDsa44PublicKeyBytes]
  omega

/-! ### What is written -/

theorem mlDsa44SpkiDer_eq {raw : Bytes} (length : raw.length = mlDsa44PublicKeyBytes) :
    mlDsa44SpkiDer raw = mlDsa44SpkiHeader ++ raw := by
  have content : (0x00 :: raw).length = 1313 := by rw [List.length_cons, length, mlDsa44PublicKeyBytes]
  have octets : lenBytes 1313 = [0x82, 0x05, 0x21] ∧ lenBytes 1330 = [0x82, 0x05, 0x32] := by decide +kernel
  unfold mlDsa44SpkiDer
  simp only [content, octets.1, mlDsa44OidDer_bytes, List.length_append, List.length_cons, List.length_nil, length,
    mlDsa44PublicKeyBytes]
  simp only [Nat.reduceAdd, octets.2]
  rfl

theorem joinWith_pemLines (text : JsString) :
    (joinWith "\n" (pemLines text)).filter (!isSpaceUnit ·) = text.filter (!isSpaceUnit ·) := by
  have lineBreak : (encode "\n").filter (!isSpaceUnit ·) = [] := by decide
  induction text using pemLines.induct with
  | case1 =>
    rw [pemLines]
    rfl
  | case2 u rest ih =>
    have whole : (u :: rest.take 63) ++ rest.drop 63 = u :: rest := by simp
    rw [pemLines, ← whole, List.filter_append, ← ih]
    cases later : pemLines (rest.drop 63) with
    | nil => simp [joinWith]
    | cons line lines =>
      rw [joinWith, List.filter_append, List.filter_append, lineBreak, List.append_nil]
      exact List.cons_ne_nil line lines

/-- Bytes in a block of base64 that is broken into lines, or not. -/
theorem spkiDerFromPem_toBase64 {inner : JsString} {der : Bytes} (nonempty : der ≠ [])
    (spaced : inner.filter (!isSpaceUnit ·) = (toBase64 der).filter (!isSpaceUnit ·)) (rest : JsString) :
    spkiDerFromPem (pemHeader ++ (inner ++ (pemFooter ++ rest))) = .ok der := by
  obtain ⟨padding, pads, text⟩ := toBase64_padded der
  have units : ∀ u ∈ (sextets der).map base64Digit, isBase64Unit u = true := by
    intro u member
    obtain ⟨n, listed, rfl⟩ := List.mem_map.mp member
    exact isBase64Unit_base64Digit (sextets_lt listed)
  have plain : (toBase64 der).filter (!isSpaceUnit ·) = (sextets der).map base64Digit ++ padding := by
    rw [text]
    refine List.filter_eq_self.mpr fun u member => ?_
    rcases List.mem_append.mp member with front | back
    · rw [isSpaceUnit_of_base64 (units u front)]
      rfl
    · rw [eq_of_padding pads back]
      decide
  have digits : (sextets der).map base64Digit ≠ [] := by
    intro empty
    have none := joinSextets_sextets der
    rw [List.map_eq_nil_iff.mp empty] at none
    exact nonempty none.symm
  rw [spkiDerFromPem_spaced (spaced.trans plain) units pads digits, sextets_values, joinSextets_sextets]

theorem spkiDerFromPem_written {raw : Bytes} (length : raw.length = mlDsa44PublicKeyBytes) :
    ∃ pem, mlDsa44SpkiFromRawPublicKey raw = .ok pem ∧ spkiDerFromPem pem = .ok (mlDsa44SpkiDer raw) := by
  refine ⟨_, if_neg (not_not.mpr length), spkiDerFromPem_toBase64 (by simp [mlDsa44SpkiDer]) ?_ _⟩
  have lineBreak : (encode "\n").filter (!isSpaceUnit ·) = [] := by decide
  rw [List.filter_append, List.filter_append, lineBreak, joinWith_pemLines, List.nil_append, List.append_nil]

/-! ### Other encodings of a key -/

/-- Known bytes at a position, and what comes after them. -/
theorem drop_eq_append {bytes : Bytes} {i : ℕ} (run : Bytes) (read : (bytes.drop i).take run.length = run) :
    bytes.drop i = run ++ bytes.drop (i + run.length) := by
  conv_lhs => rw [← List.take_append_drop run.length (bytes.drop i), read, List.drop_drop]

/-- Where the lengths are shortest and nothing comes after the key, every byte before it is determined. -/
theorem eq_spki_of_canonical {der raw : Bytes} {outer algId bitString outer' algId' bitString' : Tlv}
    (found : KeyRead der raw outer algId bitString) (canonical : Canonical der outer' algId' bitString') :
    der = mlDsa44SpkiDer raw := by
  obtain ⟨readOuter, readAlgId, readBitString, shortestOuter, shortestAlgId, shortestBitString, outerEnds,
    bitStringEnds⟩ := canonical
  cases found.readOuter.symm.trans readOuter
  cases found.readAlgId.symm.trans readAlgId
  cases found.readBitString.symm.trans readBitString
  have algIdLength := found.algIdLength
  have bitStringLength := found.bitStringLength
  obtain ⟨algIdBytes, algIdStart⟩ := readTlv_short readAlgId shortestAlgId (by omega)
  obtain ⟨bitStringBytes, bitStringStart⟩ := readTlv_two readBitString shortestBitString (by omega) (by omega)
  -- the outer value is what is left of the bytes: one header of two bytes, one of four, and both contents
  have outerLength : outer.length = 1330 := by omega
  obtain ⟨outerBytes, outerStart⟩ := readTlv_two readOuter shortestOuter (by omega) (by omega)
  rw [found.outerTag, outerLength] at outerBytes
  rw [found.algIdTag, algIdLength, outerStart] at algIdBytes
  rw [found.bitStringTag, bitStringLength, algIdStart, algIdLength, outerStart] at bitStringBytes
  have named := found.named
  have unused := found.unused
  have key := found.key
  rw [algIdStart, outerStart, mlDsa44OidDer_bytes] at named
  rw [bitStringStart, algIdStart, algIdLength, outerStart] at unused key bitStringEnds
  have unusedByte : (der.drop 21).take 1 = [0x00] := by
    apply List.ext_getElem?
    intro i
    rcases i with _ | i
    · simpa using unused
    · simp
  have first : der = [0x30, 0x82, 0x05, 0x32] ++ der.drop 4 := drop_eq_append [0x30, 0x82, 0x05, 0x32] outerBytes
  have second : der.drop 4 = [0x30, 0x0b] ++ der.drop 6 := drop_eq_append [0x30, 0x0b] algIdBytes
  have third : der.drop 6 = [0x06, 0x09, 0x60, 0x86, 0x48, 0x01, 0x65, 0x03, 0x04, 0x03, 0x11] ++ der.drop 17 :=
    drop_eq_append [0x06, 0x09, 0x60, 0x86, 0x48, 0x01, 0x65, 0x03, 0x04, 0x03, 0x11] named
  have fourth : der.drop 17 = [0x03, 0x82, 0x05, 0x21] ++ der.drop 21 :=
    drop_eq_append [0x03, 0x82, 0x05, 0x21] bitStringBytes
  have fifth : der.drop 21 = [0x00] ++ der.drop 22 := drop_eq_append [0x00] unusedByte
  have rest : der.drop 22 = raw := by
    rw [key]
    refine (List.take_of_length_le ?_).symm
    rw [List.length_drop, mlDsa44PublicKeyBytes]
    omega
  rw [mlDsa44SpkiDer_eq found.length, first, second, third, fourth, fifth, rest]
  rfl

/-- What is written is read with the shortest lengths, up to the last byte. -/
theorem canonical_spki {raw : Bytes} (length : raw.length = mlDsa44PublicKeyBytes) :
    Canonical (mlDsa44SpkiDer raw) ⟨0x30, 4, 1330⟩ ⟨0x30, 6, 11⟩ ⟨0x03, 21, 1313⟩ := by
  rw [mlDsa44SpkiDer_eq length]
  obtain ⟨outer, algId, -, bitString⟩ := readTlv_spki length []
  rw [List.append_nil] at outer algId bitString
  have whole : (mlDsa44SpkiHeader ++ raw).length = 1334 := by
    rw [List.length_append, length]
    rfl
  exact ⟨outer, algId, bitString, rfl, rfl, rfl, whole.symm, whole.symm⟩

/-- A key that has been written is read back. And what is read as a key is the encoding of that key exactly where
its lengths are the shortest and no byte is left over. -/
theorem encodings_of_key (raw : Bytes) (pem : JsString) (der : Bytes) :
    (raw.length = mlDsa44PublicKeyBytes → ∃ written, mlDsa44SpkiFromRawPublicKey raw = .ok written ∧
      spkiDerFromPem written = .ok (mlDsa44SpkiDer raw) ∧ rawMlDsa44PublicKey written = .ok raw) ∧
    (spkiDerFromPem pem = .ok der → rawMlDsa44PublicKey pem = .ok raw →
      (der = mlDsa44SpkiDer raw ↔ ∃ outer algId bitString, Canonical der outer algId bitString)) := by
  constructor
  · intro length
    obtain ⟨written, encoded, parsed⟩ := spkiDerFromPem_written length
    refine ⟨written, encoded, parsed, ?_⟩
    rw [mlDsa44SpkiDer_eq length] at parsed
    exact rawMlDsa44PublicKey_of_der parsed length
  · intro parsed read
    obtain ⟨outer, algId, bitString, found⟩ := rawMlDsa44PublicKey_ok parsed read
    constructor
    · rintro rfl
      exact ⟨_, _, _, canonical_spki found.length⟩
    · rintro ⟨outer', algId', bitString', canonical⟩
      exact eq_spki_of_canonical found canonical

/-- A key of zeros, with one byte more than its encoding. -/
theorem trailing_byte_read : ∃ pem der raw, spkiDerFromPem pem = .ok der ∧ rawMlDsa44PublicKey pem = .ok raw ∧
    der ≠ mlDsa44SpkiDer raw := by
  have length : (List.replicate 1312 0 : Bytes).length = mlDsa44PublicKeyBytes := List.length_replicate
  have parsed := spkiDerFromPem_toBase64
    (show mlDsa44SpkiHeader ++ (List.replicate 1312 0 ++ [0]) ≠ [] from List.cons_ne_nil _ _) rfl []
  refine ⟨_, _, _, parsed, rawMlDsa44PublicKey_of_front parsed length, fun same => ?_⟩
  rw [mlDsa44SpkiDer_eq length] at same
  have longer := congrArg List.length (List.append_cancel_left same)
  rw [List.length_append, List.length_singleton] at longer
  omega

end Vaduno.Mandate
