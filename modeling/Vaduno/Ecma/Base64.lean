import Vaduno.Ecma.Hex

/-! Base64 text of bytes, and numbers in big-endian bytes. -/
namespace Vaduno.Ecma

def base64Digit (n : ℕ) : UInt16 :=
  if n < 26 then (n + 65).toUInt16 else if n < 52 then (n + 71).toUInt16
  else if n < 62 then (n - 4).toUInt16 else if n = 62 then 43 else 47

/-- `Buffer.toString("base64")`. -/
def toBase64 : Bytes → JsString
  | a :: b :: c :: rest =>
    base64Digit (a.toNat / 4) :: base64Digit (a.toNat % 4 * 16 + b.toNat / 16) ::
      base64Digit (b.toNat % 16 * 4 + c.toNat / 64) :: base64Digit (c.toNat % 64) :: toBase64 rest
  | [a, b] =>
    [base64Digit (a.toNat / 4), base64Digit (a.toNat % 4 * 16 + b.toNat / 16),
      base64Digit (b.toNat % 16 * 4), 61]
  | [a] => [base64Digit (a.toNat / 4), base64Digit (a.toNat % 4 * 16), 61, 61]
  | [] => []

def isBase64Unit (u : UInt16) : Bool :=
  (65 ≤ u && u ≤ 90) || (97 ≤ u && u ≤ 122) || (48 ≤ u && u ≤ 57) || u = 43 || u = 47

/-- `/^[A-Za-z0-9+/]*={0,2}$/`, and not empty. -/
def isBase64 (s : JsString) : Bool :=
  s ≠ [] && [[], [61], [61, 61]].contains (s.dropWhile isBase64Unit)

def base64Value (u : UInt16) : ℕ :=
  if 65 ≤ u ∧ u ≤ 90 then u.toNat - 65 else if 97 ≤ u ∧ u ≤ 122 then u.toNat - 71
  else if 48 ≤ u ∧ u ≤ 57 then u.toNat + 4 else if u = 43 then 62 else 63

def joinSextets : List ℕ → Bytes
  | a :: b :: c :: d :: rest =>
    (a * 4 + b / 16).toUInt8 :: (b % 16 * 16 + c / 4).toUInt8 :: (c % 4 * 64 + d).toUInt8 ::
      joinSextets rest
  | [a, b, c] => [(a * 4 + b / 16).toUInt8, (b % 16 * 16 + c / 4).toUInt8]
  | [a, b] => [(a * 4 + b / 16).toUInt8]
  | _ => []

/-- `Buffer.from(text, "base64")`, for text of the alphabet with its padding. -/
def ofBase64 (s : JsString) : Bytes := joinSextets ((s.takeWhile (· ≠ 61)).map base64Value)

/-! ### Text with padding -/

section Padding
variable {text padding : JsString} (units : ∀ u ∈ text, isBase64Unit u = true)
  (pads : padding ∈ [[], [61], [61, 61]])
include units pads

theorem isBase64_padded (nonempty : text ≠ []) : isBase64 (text ++ padding) = true := by
  have left : (text ++ padding).dropWhile isBase64Unit = padding := by
    rw [List.dropWhile_append_of_pos units]
    simp only [List.mem_cons, List.not_mem_nil, or_false] at pads
    rcases pads with rfl | rfl | rfl <;> rfl
  rw [isBase64, left, Bool.and_eq_true, List.contains_iff_mem]
  exact ⟨decide_eq_true fun empty => nonempty (List.append_eq_nil_iff.mp empty).1, pads⟩

theorem ofBase64_padded : ofBase64 (text ++ padding) = joinSextets (text.map base64Value) := by
  have plain : ∀ u ∈ text, decide (u ≠ 61) = true := by
    intro u member
    refine decide_eq_true ?_
    rintro rfl
    exact absurd (units 61 member) (by decide)
  rw [ofBase64, List.takeWhile_append_of_pos plain]
  simp only [List.mem_cons, List.not_mem_nil, or_false] at pads
  rcases pads with rfl | rfl | rfl <;> simp

end Padding

/-- Whole groups of four sextets are whole groups of three bytes. -/
theorem joinSextets_append {front : List ℕ} (whole : front.length % 4 = 0) (rest : List ℕ) :
    joinSextets (front ++ rest) = joinSextets front ++ joinSextets rest := by
  induction front using joinSextets.induct with
  | case1 a b c d front ih =>
    rw [List.length_cons, List.length_cons, List.length_cons, List.length_cons] at whole
    simp only [List.cons_append, joinSextets]
    rw [ih (by omega)]
  | case2 a b c => simp at whole
  | case3 a b => simp at whole
  | case4 front more =>
    rcases front with _ | ⟨a, _ | ⟨b, _ | ⟨c, _ | ⟨d, front⟩⟩⟩⟩
    · rfl
    · simp at whole
    · simp at whole
    · simp at whole
    · exact (more a b c d front rfl).elim

theorem joinSextets_zeros (n : ℕ) : joinSextets (List.replicate (4 * n) 0) = List.replicate (3 * n) 0 := by
  induction n with
  | zero => rfl
  | succ n ih =>
    have sextets : List.replicate (4 * (n + 1)) 0 = 0 :: 0 :: 0 :: 0 :: List.replicate (4 * n) 0 := rfl
    have bytes : (List.replicate (3 * (n + 1)) 0 : Bytes) = 0 :: 0 :: 0 :: List.replicate (3 * n) 0 := rfl
    rw [sextets, bytes, joinSextets, ih]
    rfl

/-! ### Round trip -/

/-- The sextets of bytes, without padding. -/
def sextets : Bytes → List ℕ
  | a :: b :: c :: rest =>
    a.toNat / 4 :: (a.toNat % 4 * 16 + b.toNat / 16) :: (b.toNat % 16 * 4 + c.toNat / 64) ::
      c.toNat % 64 :: sextets rest
  | [a, b] => [a.toNat / 4, a.toNat % 4 * 16 + b.toNat / 16, b.toNat % 16 * 4]
  | [a] => [a.toNat / 4, a.toNat % 4 * 16]
  | [] => []

theorem toUInt8_of_eq {a : UInt8} {n : ℕ} (same : n = a.toNat) : n.toUInt8 = a := by
  subst same
  exact UInt8.ofNat_toNat

theorem joinSextets_sextets (bytes : Bytes) : joinSextets (sextets bytes) = bytes := by
  induction bytes using sextets.induct with
  | case1 a b c rest ih =>
    have upper := a.toNat_lt
    have middle := b.toNat_lt
    have lower := c.toNat_lt
    rw [sextets, joinSextets, ih, toUInt8_of_eq (a := a) (by omega), toUInt8_of_eq (a := b) (by omega),
      toUInt8_of_eq (a := c) (by omega)]
  | case2 a b =>
    have upper := a.toNat_lt
    have middle := b.toNat_lt
    rw [sextets, joinSextets, toUInt8_of_eq (a := a) (by omega), toUInt8_of_eq (a := b) (by omega)]
  | case3 a =>
    have upper := a.toNat_lt
    rw [sextets, joinSextets, toUInt8_of_eq (a := a) (by omega)]
  | case4 => rfl

theorem sextets_lt {bytes : Bytes} (member : n ∈ sextets bytes) : n < 64 := by
  induction bytes using sextets.induct with
  | case1 a b c rest ih =>
    have upper := a.toNat_lt
    have middle := b.toNat_lt
    have lower := c.toNat_lt
    simp only [sextets, List.mem_cons] at member
    rcases member with rfl | rfl | rfl | rfl | member
    · omega
    · omega
    · omega
    · omega
    · exact ih member
  | case2 a b =>
    have upper := a.toNat_lt
    have middle := b.toNat_lt
    simp only [sextets, List.mem_cons, List.not_mem_nil, or_false] at member
    omega
  | case3 a =>
    have upper := a.toNat_lt
    simp only [sextets, List.mem_cons, List.not_mem_nil, or_false] at member
    omega
  | case4 => cases member

theorem base64Digit_ne_pad (bound : n < 64) : base64Digit n ≠ 61 := by
  revert bound
  revert n
  decide

theorem isBase64Unit_base64Digit (bound : n < 64) : isBase64Unit (base64Digit n) = true := by
  revert bound
  revert n
  decide

/-- The text of bytes is the digits of their sextets, and then padding. -/
theorem toBase64_padded (bytes : Bytes) : ∃ padding ∈ [[], [61], [61, 61]],
    toBase64 bytes = (sextets bytes).map base64Digit ++ padding := by
  induction bytes using sextets.induct with
  | case1 a b c rest ih =>
    obtain ⟨padding, pads, text⟩ := ih
    exact ⟨padding, pads, by rw [toBase64, sextets, text]; rfl⟩
  | case2 a b => exact ⟨[61], by decide, rfl⟩
  | case3 a => exact ⟨[61, 61], by decide, rfl⟩
  | case4 => exact ⟨[], by decide, rfl⟩

theorem toBase64_unpadded (bytes : Bytes) :
    (toBase64 bytes).filter (· ≠ 61) = (sextets bytes).map base64Digit := by
  obtain ⟨padding, pads, text⟩ := toBase64_padded bytes
  have digits : ∀ u ∈ (sextets bytes).map base64Digit, decide (u ≠ 61) = true := by
    intro u member
    obtain ⟨n, listed, rfl⟩ := List.mem_map.mp member
    exact decide_eq_true (base64Digit_ne_pad (sextets_lt listed))
  have dropped : padding.filter (· ≠ 61) = [] := by
    simp only [List.mem_cons, List.not_mem_nil, or_false] at pads
    rcases pads with rfl | rfl | rfl <;> rfl
  rw [text, List.filter_append, dropped, List.append_nil, List.filter_eq_self.mpr digits]

theorem base64Value_base64Digit (bound : n < 64) : base64Value (base64Digit n) = n := by
  revert bound
  revert n
  decide

theorem sextets_values (bytes : Bytes) : ((sextets bytes).map base64Digit).map base64Value = sextets bytes := by
  conv_rhs => rw [← List.map_id (sextets bytes)]
  rw [List.map_map]
  exact List.map_congr_left fun n member => base64Value_base64Digit (sextets_lt member)

theorem toBase64_injective : Function.Injective toBase64 := by
  have read : ∀ bytes, joinSextets (((toBase64 bytes).filter (· ≠ 61)).map base64Value) = bytes := by
    intro bytes
    rw [toBase64_unpadded, sextets_values, joinSextets_sextets]
  intro a b same
  rw [← read a, same, read]

/-- The units of the text are ASCII, and no line break is among them. -/
theorem toBase64_units {bytes : Bytes} : ∀ u ∈ toBase64 bytes, 43 ≤ u ∧ u ≤ 122 := by
  have digit : ∀ n, 43 ≤ base64Digit n ∧ base64Digit n ≤ 122 := by
    intro n
    by_cases small : n < 64
    · revert small
      revert n
      decide
    · rw [base64Digit, if_neg (by omega), if_neg (by omega), if_neg (by omega), if_neg (by omega)]
      decide
  have pad : (43 : UInt16) ≤ 61 ∧ (61 : UInt16) ≤ 122 := by decide
  induction bytes using toBase64.induct with
  | case1 a b c rest ih =>
    simp only [toBase64, List.forall_mem_cons]
    exact ⟨digit _, digit _, digit _, digit _, ih⟩
  | case2 a b =>
    simp only [toBase64, List.forall_mem_cons]
    exact ⟨digit _, digit _, digit _, pad, nofun⟩
  | case3 a =>
    simp only [toBase64, List.forall_mem_cons]
    exact ⟨digit _, digit _, pad, pad, nofun⟩
  | case4 => exact nofun

/-- The number in a big-endian run of bytes. -/
def readBE (bytes : Bytes) : ℕ := bytes.foldl (fun n b => n * 256 + b.toNat) 0

end Vaduno.Ecma
