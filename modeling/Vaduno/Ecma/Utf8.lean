import Vaduno.Ecma.Hex

/-! The UTF-8 bytes of a string. A lone surrogate has none of its own and is written as the
replacement character; well-formed strings are told apart by their bytes. -/
namespace Vaduno.Ecma

/-- The character of one code unit. -/
def unitChar (u : UInt16) : Char :=
  if isLead u || isTrail u then '\ufffd' else Char.ofNat u.toNat

/-- The character of a surrogate pair. -/
def pairChar (u v : UInt16) : Char :=
  Char.ofNat (0x10000 + (u.toNat - 0xd800) * 0x400 + (v.toNat - 0xdc00))

def chars : JsString → List Char
  | [] => []
  | [u] => [unitChar u]
  | u :: v :: rest =>
    if isLead u && isTrail v then pairChar u v :: chars rest else unitChar u :: chars (v :: rest)

/-- `Buffer.from(s, "utf8")`. -/
def utf8 (s : JsString) : Bytes := (chars s).flatMap String.utf8EncodeChar

theorem length_chars_le (s : JsString) : (chars s).length ≤ s.length := by
  induction s using chars.induct with
  | case1 => exact le_rfl
  | case2 u => exact le_rfl
  | case3 u v rest pair ih =>
    rw [chars, if_pos pair, List.length_cons, List.length_cons, List.length_cons]
    omega
  | case4 u v rest unpaired ih =>
    rw [chars, if_neg unpaired, List.length_cons, List.length_cons]
    omega

theorem length_utf8_le (s : JsString) : (utf8 s).length ≤ 4 * s.length := by
  have short : ∀ c : Char, (String.utf8EncodeChar c).length ≤ 4 := by
    intro c
    rw [String.length_utf8EncodeChar]
    exact c.utf8Size_le_four
  have bytes : ∀ cs : List Char, (cs.flatMap String.utf8EncodeChar).length ≤ 4 * cs.length := by
    intro cs
    induction cs with
    | nil => exact le_rfl
    | cons c cs ih =>
      rw [List.flatMap_cons, List.length_append, List.length_cons]
      have := short c
      omega
  exact (bytes (chars s)).trans (Nat.mul_le_mul_left 4 (length_chars_le s))

theorem utf8_cancel {c d : Char} {x y : Bytes}
    (same : String.utf8EncodeChar c ++ x = String.utf8EncodeChar d ++ y) : c = d ∧ x = y := by
  have read := congrArg (fun bytes => bytes.toByteArray.utf8DecodeChar? 0) same
  simp only [List.toByteArray_append] at read
  rw [ByteArray.utf8DecodeChar?_utf8EncodeChar_append,
    ByteArray.utf8DecodeChar?_utf8EncodeChar_append] at read
  obtain rfl := Option.some.inj read
  exact ⟨rfl, List.append_cancel_left same⟩

theorem chars_of_utf8 {s t : JsString} (same : utf8 s = utf8 t) : chars s = chars t := by
  unfold utf8 at same
  generalize chars s = cs at same
  generalize chars t = ds at same
  induction cs generalizing ds with
  | nil =>
    cases ds with
    | nil => rfl
    | cons d ds =>
      have empty : String.utf8EncodeChar d = [] := (List.append_eq_nil_iff.mp same.symm).1
      exact absurd empty String.utf8EncodeChar_ne_nil
  | cons c cs ih =>
    cases ds with
    | nil => exact absurd (List.append_eq_nil_iff.mp same).1 String.utf8EncodeChar_ne_nil
    | cons d ds =>
      obtain ⟨rfl, rest⟩ := utf8_cancel same
      rw [ih _ rest]

theorem utf8_eq_iff {s t : JsString} : utf8 s = utf8 t ↔ chars s = chars t := by
  constructor
  · exact chars_of_utf8
  · intro same
    rw [utf8, same, utf8]

theorem toNat_ofNat_of_valid {n : ℕ} (valid : n.isValidChar) : (Char.ofNat n).toNat = n := by
  rw [Char.ofNat, dif_pos valid]
  rfl

theorem encodeChar_unitChar {u : UInt16} (lead : isLead u = false) (trail : isTrail u = false) :
    encodeChar (unitChar u) = [u] := by
  have bound := u.toNat_lt
  have valid : u.toNat.isValidChar := by
    simp only [isLead, isTrail, Bool.and_eq_false_iff, decide_eq_false_iff_not,
      UInt16.le_iff_toNat_le, UInt16.lt_iff_toNat_lt] at lead trail
    change ¬55296 ≤ u.toNat ∨ ¬u.toNat < 56320 at lead
    change ¬56320 ≤ u.toNat ∨ ¬u.toNat < 57344 at trail
    unfold Nat.isValidChar
    omega
  have value : (unitChar u).toNat = u.toNat := by
    rw [unitChar, lead, trail, if_neg (by decide), toNat_ofNat_of_valid valid]
  rw [encodeChar, value, if_pos (by omega), Nat.toUInt16, UInt16.ofNat_toNat]

theorem encodeChar_pairChar {u v : UInt16} (lead : isLead u = true) (trail : isTrail v = true) :
    encodeChar (pairChar u v) = [u, v] := by
  simp only [isLead, isTrail, Bool.and_eq_true, decide_eq_true_eq, UInt16.le_iff_toNat_le,
    UInt16.lt_iff_toNat_lt] at lead trail
  change 55296 ≤ u.toNat ∧ u.toNat < 56320 at lead
  change 56320 ≤ v.toNat ∧ v.toNat < 57344 at trail
  have value : (pairChar u v).toNat = 0x10000 + (u.toNat - 0xd800) * 0x400 + (v.toNat - 0xdc00) := by
    refine toNat_ofNat_of_valid ?_
    unfold Nat.isValidChar
    omega
  have first : 0xd800 + ((pairChar u v).toNat - 0x10000) / 0x400 = u.toNat := by
    rw [value]
    omega
  have second : 0xdc00 + ((pairChar u v).toNat - 0x10000) % 0x400 = v.toNat := by
    rw [value]
    omega
  rw [encodeChar, if_neg (by omega), first, second, Nat.toUInt16, UInt16.ofNat_toNat,
    UInt16.ofNat_toNat]

theorem encode_chars {s : JsString} (wellFormed : isWellFormed s = true) :
    (chars s).flatMap encodeChar = s := by
  induction s using isWellFormed.induct with
  | case1 => rfl
  | case2 u =>
    simp only [isWellFormed, Bool.and_eq_true, Bool.not_eq_true'] at wellFormed
    rw [chars, List.flatMap_singleton, encodeChar_unitChar wellFormed.1 wellFormed.2]
  | case3 u v rest pair ih =>
    simp only [isWellFormed, pair, if_true] at wellFormed
    obtain ⟨lead, trail⟩ := Bool.and_eq_true _ _ ▸ pair
    rw [chars, if_pos pair, List.flatMap_cons, encodeChar_pairChar lead trail, ih wellFormed]
    rfl
  | case4 u v rest unpaired ih =>
    rw [isWellFormed, if_neg unpaired] at wellFormed
    simp only [Bool.and_eq_true, Bool.not_eq_true'] at wellFormed
    rw [chars, if_neg unpaired, List.flatMap_cons, encodeChar_unitChar wellFormed.1.1 wellFormed.1.2,
      ih wellFormed.2]
    rfl

theorem wellFormed_encodeChar (c : Char) : isWellFormed (encodeChar c) = true := by
  have valid : c.toNat.isValidChar := c.valid
  unfold Nat.isValidChar at valid
  rw [encodeChar]
  split_ifs with single
  · have value : c.toNat.toUInt16.toNat = c.toNat := UInt16.toNat_ofNat_of_lt' (by change _ < 65536; omega)
    rw [isWellFormed, isLead, isTrail]
    simp only [UInt16.le_iff_toNat_le, UInt16.lt_iff_toNat_lt, value]
    change (!(decide (55296 ≤ c.toNat) && decide (c.toNat < 56320)) &&
      !(decide (56320 ≤ c.toNat) && decide (c.toNat < 57344))) = true
    simp only [Bool.and_eq_true, Bool.not_eq_true', Bool.and_eq_false_iff, decide_eq_false_iff_not]
    omega
  · have first : (0xd800 + (c.toNat - 0x10000) / 0x400).toUInt16.toNat = 0xd800 + (c.toNat - 0x10000) / 0x400 :=
      UInt16.toNat_ofNat_of_lt' (by change _ < 65536; omega)
    have second : (0xdc00 + (c.toNat - 0x10000) % 0x400).toUInt16.toNat = 0xdc00 + (c.toNat - 0x10000) % 0x400 :=
      UInt16.toNat_ofNat_of_lt' (by change _ < 65536; omega)
    have pair : (isLead (0xd800 + (c.toNat - 0x10000) / 0x400).toUInt16 &&
        isTrail (0xdc00 + (c.toNat - 0x10000) % 0x400).toUInt16) = true := by
      rw [isLead, isTrail]
      simp only [UInt16.le_iff_toNat_le, UInt16.lt_iff_toNat_lt, first, second]
      change (decide (55296 ≤ 0xd800 + (c.toNat - 0x10000) / 0x400) &&
        decide (0xd800 + (c.toNat - 0x10000) / 0x400 < 56320) &&
        (decide (56320 ≤ 0xdc00 + (c.toNat - 0x10000) % 0x400) &&
        decide (0xdc00 + (c.toNat - 0x10000) % 0x400 < 57344))) = true
      simp only [Bool.and_eq_true, decide_eq_true_eq]
      omega
    rw [isWellFormed, if_pos pair]
    rfl

/-- Text that was made of characters has no surrogate that stands alone. -/
theorem wellFormed_encoded (text : List Char) : isWellFormed (text.flatMap encodeChar) = true := by
  induction text with
  | nil => rfl
  | cons c rest ih =>
    rw [List.flatMap_cons]
    exact wellFormed_append (wellFormed_encodeChar c) ih

theorem utf8_injective {s t : JsString} (left : isWellFormed s = true) (right : isWellFormed t = true)
    (same : utf8 s = utf8 t) : s = t := by
  rw [← encode_chars left, chars_of_utf8 same, encode_chars right]

theorem chars_plain {u : UInt16} (plain : u < 0xd800) (rest : JsString) :
    chars (u :: rest) = unitChar u :: chars rest := by
  have lead : isLead u = false := by
    rw [isLead, Bool.and_eq_false_iff, decide_eq_false_iff_not]
    exact .inl (UInt16.not_le.mpr plain)
  cases rest with
  | nil => rfl
  | cons v rest => rw [chars, lead, Bool.false_and, if_neg Bool.false_ne_true]

theorem encodeChar_of_plain {u : UInt16} (plain : u < 0xd800) : encodeChar (unitChar u) = [u] := by
  apply encodeChar_unitChar
  · rw [isLead, Bool.and_eq_false_iff, decide_eq_false_iff_not]
    exact .inl (UInt16.not_le.mpr plain)
  · rw [isTrail, Bool.and_eq_false_iff, decide_eq_false_iff_not]
    exact .inl (UInt16.not_le.mpr (UInt16.lt_trans plain (by decide)))

/-! ### Lines -/

theorem chars_break (back : JsString) : chars (10 :: back) = '\n' :: chars back := by
  cases back <;> rfl

theorem chars_line (front back : JsString) : chars (front ++ 10 :: back) = chars front ++ '\n' :: chars back := by
  induction front using chars.induct with
  | case1 => exact chars_break back
  | case2 u =>
    have alone : ¬(isLead u && isTrail 10) = true := by
      rw [show isTrail 10 = false from rfl, Bool.and_false]
      exact Bool.false_ne_true
    rw [List.singleton_append, chars.eq_3, if_neg alone, chars_break]
    rfl
  | case3 u v rest pair ih =>
    rw [List.cons_append, List.cons_append, chars, if_pos pair, ih, chars, if_pos pair]
    rfl
  | case4 u v rest unpaired ih =>
    rw [List.cons_append, List.cons_append, chars, if_neg unpaired, ← List.cons_append, ih, chars,
      if_neg unpaired]
    rfl

theorem length_utf8_line (front back : JsString) :
    (utf8 (front ++ 10 :: back)).length = (utf8 front).length + 1 + (utf8 back).length := by
  unfold utf8
  rw [chars_line, List.flatMap_append, List.length_append, List.flatMap_cons, List.length_append]
  have one : (String.utf8EncodeChar '\n').length = 1 := rfl
  omega

theorem newline_of_unitChar {u : UInt16} (same : unitChar u = '\n') : u = 10 := by
  by_cases surrogate : (isLead u || isTrail u) = true
  · rw [unitChar, if_pos surrogate] at same
    exact absurd same (by decide)
  · obtain ⟨lead, trail⟩ : isLead u = false ∧ isTrail u = false := by simpa using surrogate
    have unit := encodeChar_unitChar lead trail
    rw [same] at unit
    exact (List.cons.inj unit).1.symm

theorem newline_ne_pairChar {u v : UInt16} (lead : isLead u = true) (trail : isTrail v = true) :
    pairChar u v ≠ '\n' := by
  intro same
  have pair := encodeChar_pairChar lead trail
  rw [same] at pair
  cases pair

theorem newline_mem_chars {s : JsString} : '\n' ∈ chars s ↔ 10 ∈ s := by
  constructor
  · induction s using chars.induct with
    | case1 => exact nofun
    | case2 u =>
      intro member
      rw [newline_of_unitChar (List.mem_singleton.mp member).symm]
      exact List.mem_singleton_self _
    | case3 u v rest pair ih =>
      obtain ⟨lead, trail⟩ := Bool.and_eq_true _ _ ▸ pair
      intro member
      rw [chars, if_pos pair] at member
      rcases List.mem_cons.mp member with first | later
      · exact absurd first.symm (newline_ne_pairChar lead trail)
      · exact List.mem_cons_of_mem _ (List.mem_cons_of_mem _ (ih later))
    | case4 u v rest unpaired ih =>
      intro member
      rw [chars, if_neg unpaired] at member
      rcases List.mem_cons.mp member with first | later
      · rw [newline_of_unitChar first.symm]
        exact List.mem_cons_self
      · exact List.mem_cons_of_mem _ (ih later)
  · intro member
    obtain ⟨front, back, rfl⟩ := List.append_of_mem member
    rw [chars_line]
    exact List.mem_append_right _ List.mem_cons_self

/-- Lines with the same characters have the same up to the first break, and after it. -/
theorem chars_line_eq_iff {a b x y : JsString} (left : 10 ∉ a) (right : 10 ∉ b) :
    chars (a ++ 10 :: x) = chars (b ++ 10 :: y) ↔ chars a = chars b ∧ chars x = chars y := by
  rw [chars_line, chars_line]
  exact separated_iff (mt newline_mem_chars.mp left) (mt newline_mem_chars.mp right)

theorem chars_injective {s t : JsString} (left : isWellFormed s = true) (right : isWellFormed t = true)
    (same : chars s = chars t) : s = t := by
  rw [← encode_chars left, same, encode_chars right]

/-- Bytes that begin with the text of some characters are not the text of others. -/
theorem chars_of_utf8_append {s : JsString} {front : List Char} {tail : Bytes}
    (same : utf8 s = front.flatMap String.utf8EncodeChar ++ tail) : front <+: chars s := by
  unfold utf8 at same
  generalize chars s = cs at same
  induction front generalizing cs with
  | nil => exact List.nil_prefix
  | cons d front ih =>
    cases cs with
    | nil =>
      rw [List.flatMap_cons, List.append_assoc] at same
      exact absurd (List.append_eq_nil_iff.mp same.symm).1 String.utf8EncodeChar_ne_nil
    | cons c cs =>
      rw [List.flatMap_cons, List.flatMap_cons, List.append_assoc] at same
      obtain ⟨rfl, rest⟩ := utf8_cancel same
      exact List.cons_prefix_cons.mpr ⟨rfl, ih _ rest⟩

end Vaduno.Ecma
