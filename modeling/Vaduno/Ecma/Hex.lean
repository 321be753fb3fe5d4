import Vaduno.Ecma.JsonText

/-! Bytes and lower-case hexadecimal text, and SHA-256 values, which are 32 bytes in one form and 64
digits in the other. -/
namespace Vaduno.Ecma

abbrev Bytes := List UInt8

/-- `Buffer.toString("hex")`. -/
def hex (bytes : Bytes) : JsString :=
  bytes.flatMap fun b => [hexDigit (b.toUInt16 / 16), hexDigit (b.toUInt16 % 16)]

/-- A digit of `[0-9a-f]`. -/
def isHexUnit (u : UInt16) : Bool := (48 ≤ u && u < 58) || (97 ≤ u && u < 103)

/-- `Buffer.from(text, "hex")`, for text of such digits. -/
def ofHex : JsString → Bytes
  | a :: b :: rest => (hexValue a * 16 + hexValue b).toUInt8 :: ofHex rest
  | _ => []

/-- A SHA-256 value. -/
@[ext] structure Hash where
  bytes : Bytes
  length : bytes.length = 32
  deriving DecidableEq

def Hash.hex (h : Hash) : JsString := Ecma.hex h.bytes

theorem ofHex_hex (bytes : Bytes) : ofHex (hex bytes) = bytes := by
  induction bytes with
  | nil => rfl
  | cons b rest ih =>
    have byte : (hexValue (hexDigit (b.toUInt16 / 16)) * 16 +
        hexValue (hexDigit (b.toUInt16 % 16))).toUInt8 = b := by
      have bound := b.toNat_lt
      have high : b.toUInt16 / 16 < 16 := by
        rw [UInt16.lt_iff_toNat_lt, UInt16.toNat_div, UInt8.toNat_toUInt16]
        change b.toNat / 16 < 16
        omega
      rw [hexValue_hexDigit high, hexValue_hexDigit (nibble_mod _)]
      apply UInt8.toNat_inj.mp
      simp only [UInt16.toNat_toUInt8, UInt16.toNat_add, UInt16.toNat_mul, UInt16.toNat_div,
        UInt16.toNat_mod, UInt8.toNat_toUInt16]
      change (b.toNat / 16 * 16 % 65536 + b.toNat % 16) % 65536 % 256 = b.toNat
      omega
    rw [hex, List.flatMap_cons]
    exact congrArg₂ List.cons byte ih

theorem hex_injective : Function.Injective hex := fun a b same => by
  rw [← ofHex_hex a, same, ofHex_hex]

theorem length_hex (bytes : Bytes) : (hex bytes).length = 2 * bytes.length := by
  induction bytes with
  | nil => rfl
  | cons b rest ih =>
    rw [hex, List.flatMap_cons, List.length_append, ← hex, ih, List.length_cons]
    simp only [List.length_cons, List.length_nil]
    omega

theorem isHexUnit_hexDigit {n : UInt16} (small : n < 16) : isHexUnit (hexDigit n) = true := by
  have bound : n.toNat < 16 := UInt16.lt_iff_toNat_lt.mp small
  rw [← UInt16.ofNat_toNat (x := n)]
  generalize n.toNat = k at bound
  interval_cases k <;> rfl

theorem all_isHexUnit_hex (bytes : Bytes) : (hex bytes).all isHexUnit = true := by
  rw [List.all_eq_true]
  intro u member
  obtain ⟨b, -, digit⟩ := List.mem_flatMap.mp member
  have bound := b.toNat_lt
  have high : b.toUInt16 / 16 < 16 := by
    rw [UInt16.lt_iff_toNat_lt, UInt16.toNat_div, UInt8.toNat_toUInt16]
    change b.toNat / 16 < 16
    omega
  rcases List.mem_pair.mp digit with rfl | rfl
  · exact isHexUnit_hexDigit high
  · exact isHexUnit_hexDigit (nibble_mod _)

theorem hexValue_range {u : UInt16} (digit : isHexUnit u = true) :
    hexValue u < 16 ∧ hexDigit (hexValue u) = u := by
  have small : u.toNat < 103 := by
    simp only [isHexUnit, Bool.or_eq_true, Bool.and_eq_true, decide_eq_true_eq,
      UInt16.lt_iff_toNat_lt] at digit
    change (_ ∧ u.toNat < 58) ∨ _ ∧ u.toNat < 103 at digit
    omega
  rw [← UInt16.ofNat_toNat (x := u)] at digit ⊢
  generalize u.toNat = k at small digit ⊢
  interval_cases k <;> first | exact ⟨by decide, by decide⟩ | exact absurd digit (by decide)

theorem hex_ofHex {s : JsString} (even : s.length % 2 = 0) (digits : s.all isHexUnit = true) :
    hex (ofHex s) = s := by
  induction s using ofHex.induct with
  | case1 a b rest ih =>
    rw [List.all_cons, List.all_cons, Bool.and_eq_true, Bool.and_eq_true] at digits
    obtain ⟨left, left'⟩ := hexValue_range digits.1
    obtain ⟨right, right'⟩ := hexValue_range digits.2.1
    have high : (hexValue a * 16 + hexValue b).toUInt8.toUInt16 / 16 = hexValue a := by
      rw [UInt16.lt_iff_toNat_lt] at left right
      apply UInt16.toNat_inj.mp
      simp only [UInt8.toNat_toUInt16, UInt16.toNat_toUInt8, UInt16.toNat_add, UInt16.toNat_mul,
        UInt16.toNat_div]
      change ((hexValue a).toNat * 16 % 65536 + (hexValue b).toNat) % 65536 % 256 / 16 = _
      change _ < 16 at left
      change _ < 16 at right
      omega
    have low : (hexValue a * 16 + hexValue b).toUInt8.toUInt16 % 16 = hexValue b := by
      rw [UInt16.lt_iff_toNat_lt] at left right
      apply UInt16.toNat_inj.mp
      simp only [UInt8.toNat_toUInt16, UInt16.toNat_toUInt8, UInt16.toNat_add, UInt16.toNat_mul,
        UInt16.toNat_mod]
      change ((hexValue a).toNat * 16 % 65536 + (hexValue b).toNat) % 65536 % 256 % 16 = _
      change _ < 16 at left
      change _ < 16 at right
      omega
    have shorter : rest.length % 2 = 0 := by
      simp only [List.length_cons] at even
      omega
    have tail := ih shorter digits.2.2
    rw [ofHex, hex, List.flatMap_cons, ← hex, tail, high, low, left', right']
    rfl
  | case2 s short =>
    rcases s with _ | ⟨a, _ | ⟨b, rest⟩⟩
    · rfl
    · cases even
    · exact absurd rfl (short a b rest)

theorem length_ofHex (s : JsString) : (ofHex s).length = s.length / 2 := by
  induction s using ofHex.induct with
  | case1 a b rest ih =>
    rw [ofHex, List.length_cons, ih, List.length_cons, List.length_cons]
    omega
  | case2 s short =>
    rcases s with _ | ⟨a, _ | ⟨b, rest⟩⟩
    · rfl
    · simp [ofHex]
    · exact absurd rfl (short a b rest)

/-- Reads a SHA-256 value written as `/^[0-9a-f]{64}$/`. -/
def readHash (s : JsString) : Option Hash :=
  if written : s.length = 64 ∧ s.all isHexUnit = true then
    some ⟨ofHex s, by rw [length_ofHex, written.1]⟩
  else none

@[simp] theorem readHash_hex (h : Hash) : readHash h.hex = some h := by
  have written : h.hex.length = 64 ∧ h.hex.all isHexUnit = true :=
    ⟨by rw [Hash.hex, length_hex, h.length], all_isHexUnit_hex h.bytes⟩
  rw [readHash, dif_pos written]
  exact congrArg some (Hash.ext (ofHex_hex h.bytes))

theorem hex_of_readHash (read : readHash s = some h) : h.hex = s := by
  unfold readHash at read
  split_ifs at read with written
  cases read
  exact hex_ofHex (by rw [written.1]) written.2

theorem Hash.hex_injective : Function.Injective Hash.hex := fun _ _ same =>
  Hash.ext (Ecma.hex_injective same)

end Vaduno.Ecma
