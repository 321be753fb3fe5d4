import Vaduno.Ecma.Json
import Mathlib.Tactic.IntervalCases

/-! Reading a JSON string back. A quoted string ends where its closing quote stands, whatever
follows, and determines the string; it holds no lone surrogate, so encoding it as UTF-8 loses
nothing. -/
namespace Vaduno.Ecma

def hexValue (u : UInt16) : UInt16 := if u < 58 then u - 48 else u - 87

/-- The unit a one-letter escape stands for. -/
def shortEscape (u : UInt16) : UInt16 :=
  if u = 98 then 8 else if u = 116 then 9 else if u = 110 then 10 else if u = 102 then 12
  else if u = 114 then 13 else u

/-- The string up to the closing quote, and what follows the quote. -/
def unquote : JsString → JsString × JsString
  | [] => ([], [])
  | u :: rest =>
    if u = 34 then ([], rest)
    else if u = 92 then
      match rest with
      | 117 :: a :: b :: c :: d :: more =>
        let (s, after) := unquote more
        ((hexValue a * 0x1000 + hexValue b * 0x100 + hexValue c * 0x10 + hexValue d) :: s, after)
      | v :: more =>
        let (s, after) := unquote more
        (shortEscape v :: s, after)
      | [] => ([], [])
    else
      let (s, after) := unquote rest
      (u :: s, after)

theorem hexValue_hexDigit {n : UInt16} (small : n < 16) : hexValue (hexDigit n) = n := by
  have bound : n.toNat < 16 := UInt16.lt_iff_toNat_lt.mp small
  rw [← UInt16.ofNat_toNat (x := n)]
  generalize n.toNat = k at bound
  interval_cases k <;> rfl

theorem unquote_plain {u : UInt16} (quote : u ≠ 34) (backslash : u ≠ 92) (rest : JsString) :
    unquote (u :: rest) = (u :: (unquote rest).1, (unquote rest).2) := by
  conv_lhs => unfold unquote
  simp [quote, backslash]

theorem nibble_mod (n : UInt16) : n % 16 < 16 := by
  rw [UInt16.lt_iff_toNat_lt, UInt16.toNat_mod]
  exact Nat.mod_lt _ (by decide)

theorem nibble_top (u : UInt16) : u / 0x1000 < 16 := by
  have := u.toNat_lt
  rw [UInt16.lt_iff_toNat_lt, UInt16.toNat_div]
  change u.toNat / 4096 < 16
  omega

theorem unquote_unicodeEscape (u : UInt16) (rest : JsString) :
    unquote (unicodeEscape u ++ rest) = (u :: (unquote rest).1, (unquote rest).2) := by
  have value : u / 0x1000 * 0x1000 + u / 0x100 % 16 * 0x100 + u / 0x10 % 16 * 0x10 + u % 16 = u := by
    have := u.toNat_lt
    apply UInt16.toNat_inj.mp
    simp only [UInt16.toNat_add, UInt16.toNat_mul, UInt16.toNat_div, UInt16.toNat_mod,
      UInt16.reduceToNat]
    omega
  simp [unicodeEscape, unquote, hexValue_hexDigit, nibble_mod, nibble_top, value]

theorem unquote_escapeUnit (u : UInt16) (rest : JsString) :
    unquote (escapeUnit u ++ rest) = (u :: (unquote rest).1, (unquote rest).2) := by
  unfold escapeUnit
  split_ifs with b t n f r verbatim unicode
  · subst b; simp [unquote, shortEscape]
  · subst t; simp [unquote, shortEscape]
  · subst n; simp [unquote, shortEscape]
  · subst f; simp [unquote, shortEscape]
  · subst r; simp [unquote, shortEscape]
  · rcases verbatim with rfl | rfl <;> simp [unquote, shortEscape]
  · exact unquote_unicodeEscape u rest
  · exact unquote_plain (by grind) (by grind) rest

/-- A surrogate is no quote and no backslash, so a pair is read unit by unit. -/
theorem unquote_surrogate {u : UInt16} (surrogate : isLead u = true ∨ isTrail u = true)
    (rest : JsString) : unquote (u :: rest) = (u :: (unquote rest).1, (unquote rest).2) := by
  refine unquote_plain ?_ ?_ rest <;> rintro rfl <;> revert surrogate <;> decide

theorem unquote_close (rest : JsString) : unquote (34 :: rest) = ([], rest) := by
  conv_lhs => unfold unquote
  simp

theorem unquote_escape (s rest : JsString) : unquote (escape s ++ 34 :: rest) = (s, rest) := by
  induction s using escape.induct with
  | case1 => exact unquote_close rest
  | case2 u => rw [escape, unquote_escapeUnit, unquote_close]
  | case3 u v more pair ih =>
    obtain ⟨lead, trail⟩ := Bool.and_eq_true _ _ ▸ pair
    rw [escape, if_pos pair, List.cons_append, unquote_surrogate (.inl lead), List.cons_append,
      unquote_surrogate (.inr trail), ih]
  | case4 u v more unpaired ih =>
    rw [escape, if_neg unpaired, List.append_assoc, unquote_escapeUnit, ih]

/-- A quoted string determines itself and what follows it. -/
theorem quote_cancel {s t a b : JsString} (same : quote s ++ a = quote t ++ b) :
    s = t ∧ a = b := by
  have tails : escape s ++ 34 :: a = escape t ++ 34 :: b := by simpa [quote] using same
  have read := unquote_escape s a
  rw [tails, unquote_escape, Prod.mk.injEq] at read
  exact ⟨read.1.symm, read.2.symm⟩

/-- `String.prototype.isWellFormed`: no surrogate stands alone. -/
def isWellFormed : JsString → Bool
  | [] => true
  | [u] => !isLead u && !isTrail u
  | u :: v :: rest =>
    if isLead u && isTrail v then isWellFormed rest
    else !isLead u && !isTrail u && isWellFormed (v :: rest)

theorem wellFormed_cons {u : UInt16} (lead : isLead u = false) (trail : isTrail u = false)
    (rest : JsString) : isWellFormed (u :: rest) = isWellFormed rest := by
  cases rest <;> simp [isWellFormed, lead, trail]

theorem wellFormed_append {a b : JsString} (left : isWellFormed a = true)
    (right : isWellFormed b = true) : isWellFormed (a ++ b) = true := by
  induction a using isWellFormed.induct with
  | case1 => exact right
  | case2 u =>
    simp only [isWellFormed, Bool.and_eq_true, Bool.not_eq_true'] at left
    rwa [List.singleton_append, wellFormed_cons left.1 left.2]
  | case3 u v rest pair ih =>
    simp only [isWellFormed, pair, if_true] at left
    simpa [isWellFormed, pair] using ih left
  | case4 u v rest unpaired ih =>
    rw [isWellFormed, if_neg unpaired] at left
    simp only [Bool.and_eq_true, Bool.not_eq_true'] at left
    rw [List.cons_append, wellFormed_cons left.1.1 left.1.2]
    exact ih left.2

theorem wellFormed_of_plain {s : JsString} (plain : ∀ u ∈ s, u < 0xd800) :
    isWellFormed s = true := by
  induction s with
  | nil => rfl
  | cons u rest ih =>
    have small := UInt16.lt_iff_toNat_lt.mp (plain u (by simp))
    have lead : isLead u = false := by simp [isLead, UInt16.le_iff_toNat_le]; grind
    have trail : isTrail u = false := by simp [isTrail, UInt16.le_iff_toNat_le]; grind
    rw [wellFormed_cons lead trail]
    exact ih fun v member => plain v (by simp [member])

theorem hexDigit_plain {n : UInt16} (small : n < 16) : hexDigit n < 0xd800 := by
  have bound : n.toNat < 16 := UInt16.lt_iff_toNat_lt.mp small
  rw [← UInt16.ofNat_toNat (x := n)]
  generalize n.toNat = k at bound
  interval_cases k <;> decide

theorem wellFormed_escapeUnit (u : UInt16) : isWellFormed (escapeUnit u) = true := by
  unfold escapeUnit
  split_ifs with b t n f r verbatim unicode
  · rfl
  · rfl
  · rfl
  · rfl
  · rfl
  · rcases verbatim with rfl | rfl <;> rfl
  · refine wellFormed_of_plain fun v member => ?_
    simp only [unicodeEscape, List.mem_cons, List.not_mem_nil, or_false] at member
    rcases member with rfl | rfl | rfl | rfl | rfl | rfl
    · decide
    · decide
    · exact hexDigit_plain (nibble_top u)
    · exact hexDigit_plain (nibble_mod _)
    · exact hexDigit_plain (nibble_mod _)
    · exact hexDigit_plain (nibble_mod _)
  · simp only [not_or, Bool.not_eq_true] at unicode
    simp [isWellFormed, unicode.2.1, unicode.2.2]

theorem wellFormed_escape (s : JsString) : isWellFormed (escape s) = true := by
  induction s using escape.induct with
  | case1 => rfl
  | case2 u => exact wellFormed_escapeUnit u
  | case3 u v more pair ih =>
    rw [escape, if_pos pair]
    simpa [isWellFormed, pair] using ih
  | case4 u v more unpaired ih =>
    rw [escape, if_neg unpaired]
    exact wellFormed_append (wellFormed_escapeUnit u) ih

theorem wellFormed_quote (s : JsString) : isWellFormed (quote s) = true :=
  wellFormed_append (wellFormed_append (a := [34]) rfl (wellFormed_escape s)) rfl

theorem newline_ne_hexDigit {n : UInt16} (small : n < 16) : hexDigit n ≠ 10 := by
  have bound : n.toNat < 16 := UInt16.lt_iff_toNat_lt.mp small
  rw [← UInt16.ofNat_toNat (x := n)]
  generalize n.toNat = k at bound
  interval_cases k <;> decide

theorem newline_notMem_escapeUnit (u : UInt16) : 10 ∉ escapeUnit u := by
  unfold escapeUnit
  split_ifs with b t n f r verbatim unicode
  · decide
  · decide
  · decide
  · decide
  · decide
  · rcases verbatim with rfl | rfl <;> decide
  · simp only [unicodeEscape, List.mem_cons, List.not_mem_nil, or_false, not_or]
    exact ⟨by decide, by decide, (newline_ne_hexDigit (nibble_top u)).symm,
      (newline_ne_hexDigit (nibble_mod _)).symm, (newline_ne_hexDigit (nibble_mod _)).symm,
      (newline_ne_hexDigit (nibble_mod _)).symm⟩
  · exact fun member => n (List.mem_singleton.mp member).symm

theorem newline_notMem_quote (s : JsString) : 10 ∉ quote s := by
  have inside : 10 ∉ escape s := by
    induction s using escape.induct with
    | case1 => decide
    | case2 u => exact newline_notMem_escapeUnit u
    | case3 u v more pair ih =>
      rw [escape, if_pos pair, List.mem_cons, List.mem_cons, not_or, not_or]
      refine ⟨?_, ?_, ih⟩
      · rintro rfl
        cases pair
      · rintro rfl
        rw [Bool.and_eq_true] at pair
        cases pair.2
    | case4 u v more unpaired ih =>
      rw [escape, if_neg unpaired, List.mem_append, not_or]
      exact ⟨newline_notMem_escapeUnit u, ih⟩
  simp [quote, inside]

end Vaduno.Ecma
