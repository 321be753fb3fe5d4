import Vaduno.Ecma.Number

/-! ECMAScript strings, as sequences of UTF-16 code units, and the text of a number. A string may
hold lone surrogates, which is why these are not Lean strings. -/
namespace Vaduno.Ecma
open Binary64

abbrev JsString := List UInt16

instance : LawfulBEq JsString := inferInstance

/-- One character in UTF-16: itself, or a surrogate pair. -/
def encodeChar (c : Char) : JsString :=
  if c.toNat < 0x10000 then [c.toNat.toUInt16]
  else [(0xd800 + (c.toNat - 0x10000) / 0x400).toUInt16,
    (0xdc00 + (c.toNat - 0x10000) % 0x400).toUInt16]

def encode (s : String) : JsString := s.toList.flatMap encodeChar

instance : Coe String JsString := ⟨encode⟩

/-- The decimal digits of a natural number. -/
def natText (n : ℕ) : JsString := (Nat.toDigits 10 n).flatMap encodeChar

def intText (n : ℤ) : JsString :=
  if n < 0 then "-" ++ natText n.natAbs else natText n.natAbs

private theorem encodeChar_digit {c : Char} (digit : c.isDigit = true) :
    encodeChar c = [c.toNat.toUInt16] ∧ c.toNat.toUInt16.toNat = c.toNat ∧ 48 ≤ c.toNat ∧
      c.toNat < 58 := by
  have bounds : 48 ≤ c.toNat ∧ c.toNat ≤ 57 := by
    simpa [Char.isDigit, UInt32.le_iff_toNat_le] using digit
  refine ⟨by rw [encodeChar, if_pos (by omega)], ?_, by omega, by omega⟩
  rw [Nat.toUInt16, UInt16.toNat_ofNat']
  omega

private theorem toDigits_digit {n : ℕ} {c : Char} (member : c ∈ Nat.toDigits 10 n) :
    c.isDigit = true :=
  Nat.isDigit_of_mem_toDigits (by norm_num) le_rfl member

theorem natText_units (n : ℕ) :
    natText n = (Nat.toDigits 10 n).map fun c => c.toNat.toUInt16 := by
  have single := fun c member => (encodeChar_digit (toDigits_digit (n := n) (c := c) member)).1
  unfold natText
  generalize Nat.toDigits 10 n = digits at single
  induction digits with
  | nil => rfl
  | cons c rest ih =>
    rw [List.flatMap_cons, single c (by simp), ih fun d member => single d (by simp [member])]
    rfl

theorem natText_digit {n : ℕ} {u : UInt16} (member : u ∈ natText n) : 48 ≤ u ∧ u < 58 := by
  rw [natText_units, List.mem_map] at member
  obtain ⟨c, digit, rfl⟩ := member
  obtain ⟨-, same, low, high⟩ := encodeChar_digit (toDigits_digit digit)
  exact ⟨UInt16.le_iff_toNat_le.mpr (by rw [same]; exact low),
    UInt16.lt_iff_toNat_lt.mpr (by rw [same]; exact high)⟩

/-- The value of a run of decimal digits. -/
def digitsValue (digits : JsString) : ℕ :=
  digits.foldl (fun value u => 10 * value + (u.toNat - 48)) 0

theorem digitsValue_natText (n : ℕ) : digitsValue (natText n) = n := by
  have units : ∀ c ∈ Nat.toDigits 10 n, ∀ value : ℕ,
      10 * value + (c.toNat.toUInt16.toNat - 48) = 10 * value + (c.toNat - '0'.toNat) := by
    intro c member value
    rw [(encodeChar_digit (toDigits_digit member)).2.1]
    rfl
  rw [digitsValue, natText_units, List.foldl_map, List.foldl_ext _ _ _ fun value c member =>
    units c member value, ← Nat.ofDigitChars_eq_foldl]
  exact Nat.ofDigitChars_toDigits (by norm_num) le_rfl

theorem natText_injective : Function.Injective natText :=
  Function.LeftInverse.injective digitsValue_natText

/-- Text up to a separator that it does not contain is told from what follows. -/
theorem separated {α : Type} {sep : α} {a b x y : List α} (left : sep ∉ a) (right : sep ∉ b)
    (same : a ++ sep :: x = b ++ sep :: y) : a = b ∧ x = y := by
  induction a generalizing b with
  | nil =>
    cases b with
    | nil => exact ⟨rfl, (List.cons.inj same).2⟩
    | cons v more => exact absurd (by simp [(List.cons.inj same).1]) right
  | cons u rest ih =>
    cases b with
    | nil => exact absurd (by simp [(List.cons.inj same).1]) left
    | cons v more =>
      simp only [List.cons_append, List.cons.injEq, List.mem_cons, not_or] at same left right
      obtain ⟨rfl, tails⟩ := ih left.2 right.2 same.2
      exact ⟨by rw [same.1], tails⟩

theorem separated_iff {α : Type} {sep : α} {a b x y : List α} (left : sep ∉ a) (right : sep ∉ b) :
    a ++ sep :: x = b ++ sep :: y ↔ a = b ∧ x = y := by
  constructor
  · exact separated left right
  · rintro ⟨rfl, rfl⟩
    rfl

/-- Lines are told apart by the text they make. -/
theorem lines_injective {α : Type} {sep : α} {a b : List (List α)} (left : ∀ line ∈ a, sep ∉ line)
    (right : ∀ line ∈ b, sep ∉ line)
    (same : a.flatMap (· ++ [sep]) = b.flatMap (· ++ [sep])) : a = b := by
  induction a generalizing b with
  | nil =>
    cases b with
    | nil => rfl
    | cons line more => simp at same
  | cons line rest ih =>
    cases b with
    | nil => simp at same
    | cons line' more =>
      rw [List.forall_mem_cons] at left right
      simp only [List.flatMap_cons, List.append_assoc, List.singleton_append] at same
      obtain ⟨rfl, others⟩ := separated left.1 right.1 same
      rw [ih left.2 right.2 others]

theorem splitOn_lines {lines : List JsString} (plain : ∀ line ∈ lines, 10 ∉ line) :
    (lines.flatMap (· ++ [10])).splitOn 10 = lines ++ [[]] := by
  induction lines with
  | nil => rfl
  | cons line lines ih =>
    rw [List.forall_mem_cons] at plain
    rw [List.flatMap_cons, List.append_assoc, List.singleton_append,
      List.splitOn_append_cons_self_of_not_mem plain.1, ih plain.2]
    rfl

/-- The decimal `significand * 10 ^ scale`. -/
structure Decimal where
  significand : ℕ
  scale : ℤ

namespace Decimal

def val (d : Decimal) : ℚ := d.significand * 10 ^ d.scale

/-- The neighbours of `q` among the multiples of `10 ^ scale`, the closer one first. -/
def neighbours (q : ℚ) (scale : ℤ) : List Decimal :=
  let below : Decimal := ⟨⌊q / 10 ^ scale⌋₊, scale⟩
  let above : Decimal := ⟨⌈q / 10 ^ scale⌉₊, scale⟩
  if q - below.val < above.val - q then [below, above]
  else if above.val - q < q - below.val then [above, below]
  else if below.significand % 2 = 0 then [below, above] else [above, below]

/-- The first decimal, counting digits up, that rounds back to `q`. -/
def search (q : ℚ) : ℕ → ℤ → Option Decimal
  | 0, _ => none
  | fuel + 1, scale =>
    match (neighbours q scale).find? fun d => nearest d.val = q with
    | some d => some d
    | none => search q fuel (scale - 1)

/-- The finite decimal expansion of a positive binary fraction. -/
def expand (q : ℚ) : Decimal :=
  let places := Nat.log 2 q.den
  ⟨⌊q * 10 ^ places⌋₊, -places⟩

/-- The shortest decimal that reads back as `q`; seventeen digits are always enough, so the
expansion never runs. -/
def shortest (q : ℚ) : Decimal :=
  (search q 17 (Int.log 10 q)).getD (expand q)

/-- Drops the trailing zero of a significand that was rounded up to a power of ten. -/
def normalize (d : Decimal) : Decimal :=
  if d.significand = 10 then ⟨1, d.scale + 1⟩ else d

/-- `Number::toString`, past the sign: the digits placed around the decimal point, or in
exponent form outside `1e-7 ..< 1e21`. -/
def text (d : Decimal) : JsString :=
  let digits := natText d.significand
  let k := digits.length
  let n := d.scale + k
  if k ≤ n ∧ n ≤ 21 then digits ++ List.replicate (n - k).toNat 48
  else if 0 < n ∧ n ≤ 21 then digits.take n.toNat ++ "." ++ digits.drop n.toNat
  else if -6 < n ∧ n ≤ 0 then encode "0." ++ List.replicate (-n).toNat 48 ++ digits
  else
    let mantissa := if k = 1 then digits else digits.take 1 ++ "." ++ digits.drop 1
    mantissa ++ "e" ++ (if n - 1 < 0 then "-" else "+") ++ natText (n - 1).natAbs

end Decimal

/-- `String(x)` of a number. -/
def Number.toText : Number → JsString
  | nan => "NaN"
  | posInf => "Infinity"
  | negInf => "-Infinity"
  | fin d =>
    if d.val = 0 then "0"
    else if d.val < 0 then "-" ++ (Decimal.shortest (-d.val)).normalize.text
    else (Decimal.shortest d.val).normalize.text

end Vaduno.Ecma
