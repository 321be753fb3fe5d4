import Vaduno.Ecma.Utf8

/-! Reading UTF-8. What is no UTF-8 is read as replacement characters, one for each longest run of bytes
that could have begun a character. -/
namespace Vaduno.Ecma

/-- A character that has begun: how many bytes it lacks, the range of the next one, and its bits so far. -/
structure Partial where
  needed : ℕ
  lower : UInt8
  upper : UInt8
  code : ℕ

/-- What a byte begins. -/
inductive Start
  | unit (u : UInt16)
  | lead (begun : Partial)
  | invalid

def startOf (b : UInt8) : Start :=
  if b < 0x80 then .unit b.toUInt16
  else if b < 0xc2 then .invalid
  else if b < 0xe0 then .lead ⟨1, 0x80, 0xbf, b.toNat % 32⟩
  else if b < 0xf0 then
    .lead ⟨2, if b = 0xe0 then 0xa0 else 0x80, if b = 0xed then 0x9f else 0xbf, b.toNat % 16⟩
  else if b < 0xf5 then
    .lead ⟨3, if b = 0xf0 then 0x90 else 0x80, if b = 0xf4 then 0x8f else 0xbf, b.toNat % 8⟩
  else .invalid

def replacement : UInt16 := 0xfffd

/-- A byte that does not go on with a character begins the next one. -/
def readFrom : Option Partial → Bytes → JsString
  | none, [] => []
  | some _, [] => [replacement]
  | begun, b :: rest =>
    let fresh :=
      match startOf b with
      | .unit u => u :: readFrom none rest
      | .lead begun => readFrom (some begun) rest
      | .invalid => replacement :: readFrom none rest
    match begun with
    | none => fresh
    | some p =>
      if p.lower ≤ b ∧ b ≤ p.upper then
        let code := p.code * 64 + b.toNat % 64
        if p.needed = 1 then encodeChar (Char.ofNat code) ++ readFrom none rest
        else readFrom (some ⟨p.needed - 1, 0x80, 0xbf, code⟩) rest
      else replacement :: fresh

/-- `buffer.toString("utf8")`. -/
def readUtf8 (bytes : Bytes) : JsString := readFrom none bytes

/-! ### Text of ASCII characters -/

section Ascii
variable {s : JsString}

theorem utf8EncodeChar_unitChar {u : UInt16} (ascii : u < 128) : String.utf8EncodeChar (unitChar u) = [u.toUInt8] := by
  have small : u.toNat < 128 := UInt16.lt_iff_toNat_lt.mp ascii
  rw [← UInt16.ofNat_toNat (x := u)]
  generalize u.toNat = k at small
  interval_cases k <;> rfl

theorem utf8_ascii (ascii : ∀ u ∈ s, u < 128) : utf8 s = s.map UInt16.toUInt8 := by
  induction s using chars.induct with
  | case1 => rfl
  | case2 u =>
    rw [utf8, chars, List.flatMap_cons, utf8EncodeChar_unitChar (ascii u List.mem_cons_self)]
    rfl
  | case3 u v rest pair ih =>
    have first : u.toNat < 128 := UInt16.lt_iff_toNat_lt.mp (ascii u List.mem_cons_self)
    simp only [isLead, Bool.and_eq_true, decide_eq_true_eq, UInt16.le_iff_toNat_le] at pair
    have high : 55296 ≤ u.toNat := pair.1.1
    omega
  | case4 u v rest unpaired ih =>
    rw [List.forall_mem_cons] at ascii
    have tail := ih ascii.2
    rw [utf8] at tail
    rw [utf8, chars, if_neg unpaired, List.flatMap_cons, tail, utf8EncodeChar_unitChar ascii.1]
    rfl

theorem readUtf8_ascii (ascii : ∀ u ∈ s, u < 128) : readUtf8 (s.map UInt16.toUInt8) = s := by
  unfold readUtf8
  induction s with
  | nil => rfl
  | cons u rest ih =>
    rw [List.forall_mem_cons] at ascii
    have small : u.toNat < 128 := UInt16.lt_iff_toNat_lt.mp ascii.1
    have byte : u.toUInt8 < 0x80 := by
      rw [UInt8.lt_iff_toNat_lt, UInt16.toNat_toUInt8]
      change u.toNat % 256 < 128
      omega
    have back : u.toUInt8.toUInt16 = u := by
      rw [← UInt16.toNat_inj, UInt8.toNat_toUInt16, UInt16.toNat_toUInt8]
      omega
    rw [List.map_cons, readFrom, startOf, if_pos byte, back]
    exact congrArg (u :: ·) (ih ascii.2)

end Ascii
end Vaduno.Ecma
