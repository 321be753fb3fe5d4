import Vaduno.Ecma.Base64
import Vaduno.Ecma.Value

/-! Bit arrays of a status list and their encoded form: compressed, then base64url. The first bit is
the most significant one of the first byte. -/
namespace Vaduno.Revocation
open Ecma

def minimumEntries : ℕ := 131072

/-- Inflating a list beyond this is refused. -/
def maxDecodedBytes : ℕ := 16 * 1024 * 1024

/-- What the compression library provides; inflating is bounded and can throw. -/
structure Zlib where
  gzipSync : Bytes → Bytes
  gunzipSync : Bytes → Throwing Bytes

@[ext] structure Bitstring where
  bytes : Bytes
  deriving DecidableEq

/-- `BitstringError`, without the code beside the message. -/
def bitstringError (message : JsString) : Throwing α := .error (.error message)

namespace Bitstring

/-- The constructor, which takes the number of entries. -/
def ofEntries (entries : Number) : Throwing Bitstring :=
  if !entries.isSafeInteger || decide (entries ≤ 0) then
    bitstringError ("invalid entry count: " ++ entries.toText)
  else if entries.toInt % 8 ≠ 0 then
    bitstringError "entry count must be a multiple of 8 (whole bytes)"
  else .ok ⟨List.replicate (entries.toInt / 8).toNat 0⟩

def length (bits : Bitstring) : ℕ := bits.bytes.length * 8

/-- The bit of an index within its byte. -/
def mask (index : ℕ) : UInt8 := 0b10000000 >>> (index % 8).toUInt8

/-- The position of an index that lies inside. The source shifts the index right by three places as
an unsigned 32-bit integer, so that of a larger index only the lowest 32 bits count. -/
def locate (bits : Bitstring) (index : Number) : Throwing ℕ :=
  if !index.isSafeInteger || decide (index < 0) || decide (((bits.length : ℤ) : Number) ≤ index) then
    bitstringError ("index " ++ index.toText ++ " is outside the bitstring (length " ++
      natText bits.length ++ ")")
  else .ok (index.toInt.toNat % 2 ^ 32)

/-- Whether a bit is set; nothing outside is. -/
def Has (bits : Bitstring) (n : ℕ) : Prop := ∃ byte, bits.bytes[n / 8]? = some byte ∧ byte &&& mask n ≠ 0

instance (bits : Bitstring) (n : ℕ) : Decidable (bits.Has n) :=
  match found : bits.bytes[n / 8]? with
  | none => .isFalse (by rintro ⟨byte, held, -⟩; rw [found] at held; cases held)
  | some byte => decidable_of_iff (byte &&& mask n ≠ 0)
      ⟨fun set => ⟨byte, found, set⟩, by
        rintro ⟨other, held, set⟩
        rw [found] at held
        cases held
        exact set⟩

def get (bits : Bitstring) (index : Number) : Throwing Bool := do
  let n ← bits.locate index
  return decide (bits.Has n)

/-- `set(index, true)`. -/
def set (bits : Bitstring) (index : Number) : Throwing Bitstring := do
  let n ← bits.locate index
  return ⟨bits.bytes.modify (n / 8) (· ||| mask n)⟩

/-- `set(index, value)`. -/
def put (bits : Bitstring) (index : Number) (value : Bool) : Throwing Bitstring := do
  let n ← bits.locate index
  return ⟨bits.bytes.modify (n / 8) fun byte => if value then byte ||| mask n else byte &&& ~~~mask n⟩

/-- Indices currently set. -/
def setIndices (bits : Bitstring) : List ℕ :=
  bits.bytes.zipIdx.flatMap fun (v, b) =>
    if v = 0 then []
    else ((List.range 8).filter fun bit => v &&& mask bit ≠ 0).map (b * 8 + ·)

/-- A natural number below the length passes for an index. -/
theorem index_inside {n length : ℕ} (inside : n < length) (small : length < 2 ^ 53) :
    (!((n : ℤ) : Number).isSafeInteger || decide (((n : ℤ) : Number) < 0) ||
      decide (((length : ℤ) : Number) ≤ (n : ℤ))) = false := by
  have safe : ((n : ℤ) : Number).isSafeInteger = true :=
    Number.isSafeInteger_natCast (inside.trans small)
  have nonneg : ¬((n : ℤ) : Number) < 0 :=
    fun negative => absurd ((Number.natCast_lt (n := 0) (inside.trans small) (by norm_num)).mp negative)
      (Nat.not_lt_zero n)
  have below : ¬((length : ℤ) : Number) ≤ (n : ℤ) := by
    rw [Number.natCast_le small (inside.trans small)]
    omega
  rw [safe, decide_eq_false nonneg, decide_eq_false below]
  rfl

theorem locate_natCast {bits : Bitstring} {n : ℕ} (inside : n < bits.length)
    (small : bits.length < 2 ^ 53) : bits.locate (n : ℤ) = .ok (n % 2 ^ 32) := by
  rw [locate, index_inside inside small, if_neg (by decide), Number.natCast_toNat (inside.trans small)]

/-- An index that is a natural number is its own position in a list of up to `2 ^ 32` entries. -/
theorem get_natCast {bits : Bitstring} {n : ℕ} (inside : n < bits.length)
    (small : bits.length ≤ 2 ^ 32) : bits.get (n : ℤ) = .ok (decide (bits.Has n)) := by
  rw [get, locate_natCast inside (by omega), Nat.mod_eq_of_lt (inside.trans_le small)]
  rfl

/-! ### Setting bits -/

section Setting
variable {bits bits' : Bitstring} {x : Number} {n m : ℕ}

theorem mask_and (n m : ℕ) : mask n &&& mask m ≠ 0 ↔ n % 8 = m % 8 := by
  have small : ∀ i < 8, ∀ j < 8,
      ((0b10000000 >>> Nat.toUInt8 i : UInt8) &&& 0b10000000 >>> Nat.toUInt8 j ≠ 0 ↔ i = j) := by
    decide
  exact small _ (Nat.mod_lt _ (by decide)) _ (Nat.mod_lt _ (by decide))

theorem or_and_ne_zero (a b c : UInt8) : (a ||| b) &&& c ≠ 0 ↔ a &&& c ≠ 0 ∨ b &&& c ≠ 0 := by
  have distributes : (a ||| b) &&& c = a &&& c ||| b &&& c := by
    rw [← UInt8.toBitVec_inj]
    simp [BitVec.and_or_distrib_right]
  rw [distributes, Ne, UInt8.or_eq_zero_iff, not_and_or]

theorem has_modify (inside : n < bits.length) :
    (Bitstring.mk (bits.bytes.modify (n / 8) (· ||| mask n))).Has m ↔ bits.Has m ∨ m = n := by
  have held : n / 8 < bits.bytes.length := by
    unfold length at inside
    omega
  unfold Has
  rw [List.getElem?_modify]
  by_cases same : n / 8 = m / 8
  · simp only [if_pos same]
    rw [← same, List.getElem?_eq_getElem held]
    simp only [Option.map_eq_map, Option.map_some, Option.some.injEq, exists_eq_left',
      or_and_ne_zero, mask_and]
    exact or_congr Iff.rfl (by omega)
  · have other : m ≠ n := fun equal => same (by rw [equal])
    simp [same, other]

theorem lt_of_locate (located : bits.locate x = .ok n) : n < bits.length := by
  unfold locate at located
  split at located
  · cases located
  · rename_i inside
    simp only [Bool.or_eq_true, Bool.not_eq_true', decide_eq_true_eq, not_or, Bool.not_eq_false] at inside
    obtain ⟨⟨safe, nonneg⟩, below⟩ := inside
    obtain ⟨k, -, small, rfl⟩ := Number.natCast_of_not_lt (k := 0) safe (by norm_num) nonneg
    rw [Number.natCast_toNat small] at located
    cases located
    by_contra beyond
    have above := (not_lt.mp beyond).trans (Nat.mod_le k (2 ^ 32))
    exact below (Number.intCast_mono (by exact_mod_cast above))

theorem locate_congr (same : bits.length = bits'.length) : bits.locate x = bits'.locate x := by
  unfold locate
  rw [same]

theorem get_eq_true : bits.get x = .ok true ↔ ∃ n, bits.locate x = .ok n ∧ bits.Has n := by
  rw [get]
  cases bits.locate x with
  | error e => exact ⟨nofun, nofun⟩
  | ok n =>
    change (Except.ok (decide (bits.Has n)) = Except.ok true) ↔ _
    simp

/-- Setting the bit of an index adds that bit and no other. -/
theorem set_eq_ok (done : bits.set x = .ok bits') : bits'.length = bits.length ∧
    ∃ n, bits.locate x = .ok n ∧ ∀ m, bits'.Has m ↔ bits.Has m ∨ m = n := by
  rw [set] at done
  cases located : bits.locate x with
  | error e =>
    rw [located] at done
    cases done
  | ok n =>
    rw [located] at done
    cases done
    refine ⟨?_, n, rfl, fun m => has_modify (lt_of_locate located)⟩
    rw [length, length, List.length_modify]

/-- A new list has whole bytes, at least one, and no bit set. -/
theorem ofEntries_eq_ok (made : ofEntries entries = .ok bits) : bits.bytes ≠ [] ∧ ∀ n, ¬bits.Has n := by
  unfold ofEntries at made
  split at made
  · cases made
  · split at made
    · cases made
    · rename_i positive whole
      cases made
      refine ⟨?_, ?_⟩
      · simp only [Bool.or_eq_true, Bool.not_eq_true', decide_eq_true_eq, not_or,
          Bool.not_eq_false] at positive
        obtain ⟨i, narrow, rfl⟩ := Number.isSafeInteger_iff.mp positive.1
        have above : 0 < i := by
          by_contra low
          exact positive.2 (Number.intCast_mono (not_lt.mp low))
        rw [Number.toInt_intCast narrow.le] at whole ⊢
        intro empty
        have none := congrArg List.length empty
        rw [List.length_replicate, List.length_nil] at none
        omega
      · rintro n ⟨byte, held, set⟩
        have zero := List.eq_of_mem_replicate (List.mem_of_getElem? held)
        rw [zero] at set
        exact set (UInt8.zero_and)

end Setting

/-! ### The encoded form -/

/-- A unit of base64 in its url-safe variant. -/
def toUrlUnit (u : UInt16) : UInt16 := if u = 43 then 45 else if u = 47 then 95 else u

def ofUrlUnit (u : UInt16) : UInt16 := if u = 45 then 43 else if u = 95 then 47 else u

/-- `Buffer.toString("base64url")`. -/
def toBase64url (bytes : Bytes) : JsString := ((toBase64 bytes).filter (· ≠ 61)).map toUrlUnit

/-- `/^[A-Za-z0-9_-]*$/`. -/
def isBase64url (s : JsString) : Bool :=
  s.all fun u => (65 ≤ u && u ≤ 90) || (97 ≤ u && u ≤ 122) || (48 ≤ u && u ≤ 57) || u = 45 || u = 95

/-- `Buffer.from(s, "base64url")`, for text of the alphabet. -/
def ofBase64url (s : JsString) : Bytes := joinSextets (s.map fun u => base64Value (ofUrlUnit u))

def encode (zlib : Zlib) (bits : Bitstring) : JsString := "u" ++ toBase64url (zlib.gzipSync bits.bytes)

def decode (zlib : Zlib) (encoded : JsString) : Throwing Bitstring :=
  match encoded with
  | [] => bitstringError "encodedList must be a non-empty string"
  | first :: body =>
    if first ≠ 117 then
      bitstringError "encodedList must use the multibase base64url prefix \"u\""
    else if !isBase64url body then bitstringError "encodedList is not valid base64url (no padding)"
    else
      match zlib.gunzipSync (ofBase64url body) with
      | .error err => do
        bitstringError ("encodedList could not be decompressed: " ++ (← errText err))
      | .ok raw =>
        if raw = [] then bitstringError "encodedList decoded to an empty bitstring"
        else .ok ⟨raw⟩

theorem ofUrlUnit_toUrlUnit_digit (bound : n < 64) :
    isBase64url [toUrlUnit (base64Digit n)] = true ∧
      base64Value (ofUrlUnit (toUrlUnit (base64Digit n))) = n := by
  revert bound
  revert n
  decide

/-- Bytes come back from their text. -/
theorem ofBase64url_toBase64url (bytes : Bytes) :
    isBase64url (toBase64url bytes) = true ∧ ofBase64url (toBase64url bytes) = bytes := by
  rw [toBase64url, toBase64_unpadded, ofBase64url, isBase64url, List.map_map, List.map_map,
    List.all_map, List.all_eq_true]
  constructor
  · intro n member
    have digit := (ofUrlUnit_toUrlUnit_digit (sextets_lt member)).1
    simpa [isBase64url] using digit
  · have values : (sextets bytes).map ((fun u => base64Value (ofUrlUnit u)) ∘ toUrlUnit ∘ base64Digit) =
        sextets bytes :=
      (List.map_congr_left fun n member => (ofUrlUnit_toUrlUnit_digit (sextets_lt member)).2).trans
        (List.map_id _)
    rw [values, joinSextets_sextets]

/-- A list comes back from its encoded form where its bytes come back from compression. -/
theorem decode_encode {zlib : Zlib} {bits : Bitstring} (nonempty : bits.bytes ≠ [])
    (inflates : zlib.gunzipSync (zlib.gzipSync bits.bytes) = .ok bits.bytes) :
    decode zlib (encode zlib bits) = .ok bits := by
  obtain ⟨alphabet, same⟩ := ofBase64url_toBase64url (zlib.gzipSync bits.bytes)
  have marked : encode zlib bits = 117 :: toBase64url (zlib.gzipSync bits.bytes) := rfl
  rw [marked, decode, if_neg (not_not.mpr rfl), alphabet, if_neg (by decide), same, inflates]
  exact if_neg nonempty

end Bitstring
end Vaduno.Revocation
