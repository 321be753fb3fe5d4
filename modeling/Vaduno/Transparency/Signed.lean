import Vaduno.Transparency.Cosign
import Vaduno.Ecma.NumberText

/-! What a cosignature is for: the bytes under it fix the size and the root of one checkpoint. -/
namespace Vaduno.Transparency
open Ecma

/-- A code unit, where surrogates and all above are one. -/
def blur (u : UInt16) : UInt16 := if u < 0xd800 then u else 0xd800

theorem blur_eq_iff {u v : UInt16} (plain : v < 0xd800) : blur u = v ↔ u = v := by
  unfold blur
  split_ifs with low
  · exact Iff.rfl
  · constructor
    · rintro rfl
      exact absurd plain (by decide)
    · rintro rfl
      exact absurd plain low

theorem blur_plain {s : JsString} (plain : ∀ u ∈ s, u < 0xd800) : s.map blur = s := by
  conv_rhs => rw [← List.map_id s]
  exact List.map_congr_left fun u member => if_pos (plain u member)

/-- A text that blurs to a plain one is it. -/
theorem eq_of_blur {s t : JsString} (plain : ∀ u ∈ t, u < 0xd800) (same : s.map blur = t) : s = t := by
  induction s generalizing t with
  | nil => exact same
  | cons u rest ih =>
    subst same
    have head := (blur_eq_iff (plain _ List.mem_cons_self)).mp rfl
    have tail := ih (fun v member => plain v (List.mem_cons_of_mem _ member)) rfl
    rw [List.map_cons, ← head, ← tail]

theorem blur_chars (s : JsString) : ((chars s).flatMap encodeChar).map blur = s.map blur := by
  have unit : ∀ u, (encodeChar (unitChar u)).map blur = [blur u] := by
    intro u
    by_cases surrogate : isLead u = true ∨ isTrail u = true
    · have high : ¬u < 0xd800 := by
        simp only [isLead, isTrail, Bool.and_eq_true, decide_eq_true_eq, UInt16.le_iff_toNat_le,
          UInt16.lt_iff_toNat_lt] at surrogate ⊢
        change (55296 ≤ u.toNat ∧ u.toNat < 56320) ∨ (56320 ≤ u.toNat ∧ u.toNat < 57344) at surrogate
        change ¬u.toNat < 55296
        omega
      rw [unitChar, if_pos (by simpa using surrogate), blur, if_neg high]
      decide
    · rw [not_or, Bool.not_eq_true, Bool.not_eq_true] at surrogate
      rw [encodeChar_unitChar surrogate.1 surrogate.2]
      rfl
  induction s using chars.induct with
  | case1 => rfl
  | case2 u => rw [chars, List.flatMap_singleton, unit]; rfl
  | case3 u v rest pair ih =>
    obtain ⟨lead, trail⟩ := Bool.and_eq_true _ _ ▸ pair
    rw [chars, if_pos pair, List.flatMap_cons, encodeChar_pairChar lead trail, List.map_append, ih]
    rfl
  | case4 u v rest unpaired ih =>
    rw [chars, if_neg unpaired, List.flatMap_cons, List.map_append, unit, ih]
    rfl

/-- Texts of the same bytes differ in surrogates and above at most. -/
theorem blur_of_utf8 {s t : JsString} (same : utf8 s = utf8 t) : s.map blur = t.map blur := by
  rw [← blur_chars s, ← blur_chars t, chars_of_utf8 same]

theorem splitOn_blur {sep : UInt16} (plain : sep < 0xd800) (s : JsString) :
    (s.map blur).splitOn sep = (s.splitOn sep).map (List.map blur) := by
  induction s with
  | nil => rfl
  | cons u rest ih =>
    simp only [List.splitOn, List.map_cons, List.splitOnP_cons_eq_if_modifyHead, beq_iff_eq] at ih ⊢
    rw [ih]
    by_cases separator : u = sep
    · rw [if_pos separator, if_pos ((blur_eq_iff plain).mpr separator)]
      rfl
    · rw [if_neg separator, if_neg (mt (blur_eq_iff plain).mp separator)]
      cases rest.splitOnP (· == sep) <;> rfl

theorem plain_of_isTreeSize {s : JsString} (size : isTreeSize s = true) : ∀ u ∈ s, u < 0xd800 := by
  intro u member
  simp only [isTreeSize, Bool.or_eq_true, decide_eq_true_eq, Bool.and_eq_true, List.all_eq_true] at size
  rcases size with rfl | ⟨-, digits⟩
  · rw [List.mem_singleton.mp member]
    decide
  · have digit := digits u member
    simp only [isDigitUnit, Bool.and_eq_true, decide_eq_true_eq] at digit
    exact UInt16.lt_of_le_of_lt digit.2 (by decide)

theorem plain_of_isBase64 {s : JsString} (text : isBase64 s = true) : ∀ u ∈ s, u < 0xd800 := by
  intro u member
  rw [← List.takeWhile_append_dropWhile (p := isBase64Unit) (l := s)] at member
  rcases List.mem_append.mp member with front | back
  · have unit := List.all_eq_true.mp List.all_takeWhile u front
    simp only [isBase64Unit, Bool.or_eq_true, Bool.and_eq_true, decide_eq_true_eq,
      UInt16.le_iff_toNat_le, ← UInt16.toNat_inj] at unit
    rw [UInt16.lt_iff_toNat_lt]
    change u.toNat < 55296
    change (((65 ≤ u.toNat ∧ u.toNat ≤ 90 ∨ 97 ≤ u.toNat ∧ u.toNat ≤ 122) ∨
      48 ≤ u.toNat ∧ u.toNat ≤ 57) ∨ u.toNat = 43) ∨ u.toNat = 47 at unit
    omega
  · simp only [isBase64, Bool.and_eq_true, List.contains_iff_mem, List.mem_cons, List.not_mem_nil,
      or_false] at text
    rcases text.2 with padding | padding | padding <;> rw [padding] at back <;> simp at back
    · rw [back]
      decide
    · rw [back]
      decide

/-- Bodies of the same bytes are read as the same size and root. -/
theorem checkpoint_of_blur {body body' : JsString} (same : body.map blur = body'.map blur)
    (first : parseBody body = .ok c) (second : parseBody body' = .ok d) :
    c.treeSize = d.treeSize ∧ c.rootHash = d.rootHash := by
  obtain ⟨origin, size, root, extensions, lines, -, digits, -, base64, -, rfl⟩ := parseBody_ok first
  obtain ⟨origin', size', root', extensions', lines', -, digits', -, base64', -, rfl⟩ :=
    parseBody_ok second
  have blurred := congrArg (fun s => (s.splitOn 10).dropLast) same
  simp only [splitOn_blur (show (10 : UInt16) < 0xd800 by decide), ← List.map_dropLast, lines, lines',
    List.map_cons, List.cons.injEq] at blurred
  obtain ⟨-, sizes, roots, -⟩ := blurred
  rw [blur_plain (plain_of_isTreeSize digits')] at sizes
  rw [blur_plain (plain_of_isBase64 base64')] at roots
  obtain rfl := eq_of_blur (plain_of_isTreeSize digits') sizes
  obtain rfl := eq_of_blur (plain_of_isBase64 base64') roots
  exact ⟨rfl, rfl⟩

theorem newline_notMem_toText {t : Number} (safe : t.isSafeInteger = true) : 10 ∉ t.toText := by
  cases t with
  | fin d => exact fun member => absurd (numberUnits_toText d 10 member).1 (by decide)
  | _ => cases safe

/-- What is signed with an Ed25519 key fixes the size and the root. -/
theorem checkpoint_of_cosignaturePayload (first : parseBody body = .ok c)
    (second : parseBody body' = .ok d) (signed : cosignaturePayload body t = .ok payload)
    (signed' : cosignaturePayload body' t' = .ok payload) :
    c.treeSize = d.treeSize ∧ c.rootHash = d.rootHash := by
  unfold cosignaturePayload at signed signed'
  simp only [check_eq_ok, Bool.or_eq_true, Bool.not_eq_true', not_or, Bool.not_eq_false] at signed signed'
  obtain ⟨-, ⟨safe, -⟩, bytes⟩ := signed
  obtain ⟨-, ⟨safe', -⟩, bytes'⟩ := signed'
  have blurred := blur_of_utf8 (Except.ok.inj (bytes.trans bytes'.symm))
  simp only [List.append_assoc, List.map_append, List.append_cancel_left_eq] at blurred
  have free : ∀ {t : Number}, t.isSafeInteger = true → 10 ∉ t.toText.map blur := by
    intro t safe member
    obtain ⟨u, inside, same⟩ := List.mem_map.mp member
    rw [(blur_eq_iff (by decide)).mp same] at inside
    exact newline_notMem_toText safe inside
  exact checkpoint_of_blur (separated (free safe) (free safe') blurred).2 first second

theorem readBE_uint64BE {n : ℕ} (bound : n < 2 ^ 64) : readBE (uint64BE n) = n := by
  have range : List.range 8 = [0, 1, 2, 3, 4, 5, 6, 7] := rfl
  simp only [uint64BE, readBE, range, List.map_cons, List.map_nil, List.foldl_cons, List.foldl_nil,
    Nat.toUInt8, UInt8.toNat_ofNat']
  norm_num
  omega

theorem length_uint64BE (n : ℕ) : (uint64BE n).length = 8 := by
  rw [uint64BE, List.length_map, List.length_range]

/-- So does what is signed with an ML-DSA-44 key. -/
theorem checkpoint_of_mlDsa44CosignaturePayload
    (signed : mlDsa44CosignaturePayload name t c = .ok payload)
    (signed' : mlDsa44CosignaturePayload name' t' d = .ok payload) :
    c.treeSize = d.treeSize ∧ c.rootHash = d.rootHash := by
  unfold mlDsa44CosignaturePayload at signed signed'
  simp only [check_eq_ok, Bool.or_eq_true, Bool.not_eq_true', not_or, Bool.not_eq_false,
    decide_eq_true_eq] at signed signed'
  obtain ⟨-, -, ⟨safe, positive⟩, -, bytes⟩ := signed
  obtain ⟨-, -, ⟨safe', positive'⟩, -, bytes'⟩ := signed'
  obtain ⟨m, -, left, size⟩ := Number.natCast_of_not_lt (k := 0) safe (by norm_num) positive
  obtain ⟨n, -, right, size'⟩ := Number.natCast_of_not_lt (k := 0) safe' (by norm_num) positive'
  cases root : readHash c.rootHash with
  | none => rw [root] at bytes; cases bytes
  | some r =>
    cases root' : readHash d.rootHash with
    | none => rw [root'] at bytes'; cases bytes'
    | some r' =>
      rw [root] at bytes
      rw [root'] at bytes'
      have same := Except.ok.inj (bytes.trans bytes'.symm)
      obtain ⟨sizes, roots⟩ := List.append_inj' same (by rw [r.length, r'.length])
      have sizes := (List.append_inj' sizes (by rw [length_uint64BE, length_uint64BE])).2
      rw [size, size', Number.natCast_toNat left, Number.natCast_toNat right] at sizes
      have equal := congrArg readBE sizes
      rw [readBE_uint64BE (by omega), readBE_uint64BE (by omega)] at equal
      refine ⟨by rw [size, size', equal], ?_⟩
      rw [← hex_of_readHash root, ← hex_of_readHash root', Hash.hex, roots, Hash.hex]

end Vaduno.Transparency
