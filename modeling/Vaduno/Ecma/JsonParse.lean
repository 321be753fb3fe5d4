import Vaduno.Ecma.JsonText
import Vaduno.Ecma.NumberText

/-! `JSON.parse`, and that it reads back what `JSON.stringify` writes of a value that JSON can
hold. -/
namespace Vaduno.Ecma
open Binary64

/-- A value read from JSON. The negative zero stands on its own, since the number type has one
zero. -/
inductive JsonValue
  | null
  | boolean (b : Bool)
  | number (n : Number)
  | negZero
  | string (s : JsString)
  | array (items : List JsonValue)
  | object (props : List (JsString × JsonValue))

namespace JsonValue

mutual
/-- `JSON.stringify`. -/
def stringify : JsonValue → JsString
  | null => "null"
  | boolean b => if b then "true" else "false"
  | number n => if n.isFinite then n.toText else "null"
  | negZero => "0"
  | string s => quote s
  | array items => [91] ++ joinComma (itemTexts items) ++ [93]
  | object props => [123] ++ joinComma (propTexts props) ++ [125]

def itemTexts : List JsonValue → List JsString
  | [] => []
  | item :: rest => stringify item :: itemTexts rest

def propTexts : List (JsString × JsonValue) → List JsString
  | [] => []
  | (key, v) :: rest => (quote key ++ [58] ++ stringify v) :: propTexts rest
end

mutual
/-- A value that JSON holds as it is: every number finite and no negative zero. Property names are
distinct, as in every object. -/
inductive Faithful : JsonValue → Prop
  | null : Faithful null
  | boolean (b : Bool) : Faithful (boolean b)
  | number (d : Double) : Faithful (number (.fin d))
  | string (s : JsString) : Faithful (string s)
  | array (items : FaithfulItems list) : Faithful (array list)
  | object (values : FaithfulProps list) (distinct : (list.map Prod.fst).Nodup) :
    Faithful (object list)

inductive FaithfulItems : List JsonValue → Prop
  | nil : FaithfulItems []
  | cons (item : Faithful v) (rest : FaithfulItems more) : FaithfulItems (v :: more)

inductive FaithfulProps : List (JsString × JsonValue) → Prop
  | nil : FaithfulProps []
  | cons (value : Faithful v) (rest : FaithfulProps more) : FaithfulProps ((key, v) :: more)
end

end JsonValue

/-! ### Numbers -/

def isDigit (u : UInt16) : Bool := 48 ≤ u && u < 58

def isDigits (text : JsString) : Bool := !text.isEmpty && text.all isDigit

/-- The part before the point: no zero in front of other digits. -/
def isWhole : JsString → Bool
  | [48] => true
  | 48 :: _ => false
  | digits => isDigits digits

def isExponent : JsString → Bool
  | 43 :: digits | 45 :: digits => isDigits digits
  | digits => isDigits digits

def isUnsignedNumber (text : JsString) : Bool :=
  let (mantissa, exponent) := cut 101 text
  let (whole, fraction) := cut 46 mantissa
  isWhole whole && (!mantissa.contains 46 || isDigits fraction) &&
    (!text.contains 101 || isExponent exponent)

def exponentValue : JsString → ℤ
  | 43 :: digits => digitsValue digits
  | 45 :: digits => -digitsValue digits
  | digits => digitsValue digits

def magnitude (text : JsString) : ℚ :=
  let (mantissa, exponent) := cut 101 text
  let (whole, fraction) := cut 46 mantissa
  digitsValue (whole ++ fraction) * 10 ^ (exponentValue exponent - fraction.length)

/-- The number of a text of number units, if it is one. -/
def numberOf : JsString → Option JsonValue
  | 45 :: digits =>
    if isUnsignedNumber digits then
      let n := Number.round (magnitude digits)
      some (if n = 0 then .negZero else .number (-n))
    else none
  | text => if isUnsignedNumber text then some (.number (.round (magnitude text))) else none

/-- What numbers are made of; nothing that may follow a number is. -/
def isNumberUnit (u : UInt16) : Bool :=
  isDigit u || u = 43 || u = 45 || u = 46 || u = 69 || u = 101

/-- An exponent may be marked in either case. -/
def lowerMark (u : UInt16) : UInt16 := if u = 69 then 101 else u

def parseNumber (text : JsString) : Option (JsonValue × JsString) := do
  let (units, rest) := text.span isNumberUnit
  return (← numberOf (units.map lowerMark), rest)

/-! ### Strings -/

def hexDigitOf (u : UInt16) : Option UInt16 :=
  if isDigit u then some (u - 48)
  else if 97 ≤ u && u < 103 then some (u - 87)
  else if 65 ≤ u && u < 71 then some (u - 55)
  else none

/-- The unit a one-letter escape stands for, where there is such an escape. -/
def escapeOf (u : UInt16) : Option UInt16 :=
  if [98, 116, 110, 102, 114, 34, 92, 47].contains u then some (shortEscape u) else none

/-- The string up to the closing quote, and what follows the quote. -/
def parseString : JsString → Option (JsString × JsString)
  | [] => none
  | u :: rest =>
    if u = 34 then some ([], rest)
    else if u = 92 then
      match rest with
      | 117 :: a :: b :: c :: d :: more => do
        let unit := (← hexDigitOf a) * 0x1000 + (← hexDigitOf b) * 0x100 + (← hexDigitOf c) * 0x10 +
          (← hexDigitOf d)
        let (s, after) ← parseString more
        return (unit :: s, after)
      | v :: more => do
        let unit ← escapeOf v
        let (s, after) ← parseString more
        return (unit :: s, after)
      | [] => none
    else if u < 32 then none
    else do
      let (s, after) ← parseString rest
      return (u :: s, after)

/-! ### Values -/

def isSpace (u : UInt16) : Bool := u = 9 || u = 10 || u = 13 || u = 32

def skipSpace (text : JsString) : JsString := text.dropWhile isSpace

/-- What follows a word at the start of a text. -/
def afterWord (word text : JsString) : Option JsString :=
  if word.isPrefixOf text then some (text.drop word.length) else none

/-- Creates a property or writes over it. -/
def defineProp (props : List (JsString × JsonValue)) (key : JsString) (v : JsonValue) :
    List (JsString × JsonValue) :=
  if props.any (·.1 = key) then props.map fun p => if p.1 = key then (key, v) else p
  else props ++ [(key, v)]

def parseScalar (text : JsString) : Option (JsonValue × JsString) :=
  match afterWord "null" text, afterWord "true" text, afterWord "false" text with
  | some rest, _, _ => some (.null, rest)
  | _, some rest, _ => some (.boolean true, rest)
  | _, _, some rest => some (.boolean false, rest)
  | none, none, none => parseNumber text

mutual
/-- One value at the start of a text, and what follows it. The fuel bounds the steps, of which there
are fewer than units. -/
def parseValue : ℕ → JsString → Option (JsonValue × JsString)
  | 0, _ => none
  | fuel + 1, text =>
    match skipSpace text with
    | 34 :: rest => do
      let (s, after) ← parseString rest
      return (.string s, after)
    | 91 :: rest =>
      match skipSpace rest with
      | 93 :: after => some (.array [], after)
      | items => do
        let (items, after) ← parseItems fuel items
        return (.array items, after)
    | 123 :: rest =>
      match skipSpace rest with
      | 125 :: after => some (.object [], after)
      | props => do
        let (props, after) ← parseProps fuel [] props
        return (.object props, after)
    | scalar => parseScalar scalar

/-- The items of an array past its opening bracket. -/
def parseItems : ℕ → JsString → Option (List JsonValue × JsString)
  | 0, _ => none
  | fuel + 1, text => do
    let (item, rest) ← parseValue fuel text
    match skipSpace rest with
    | 44 :: more =>
      let (items, after) ← parseItems fuel more
      return (item :: items, after)
    | 93 :: after => return ([item], after)
    | _ => none

/-- The properties of an object past its opening brace, after the ones read so far. -/
def parseProps : ℕ → List (JsString × JsonValue) → JsString →
    Option (List (JsString × JsonValue) × JsString)
  | 0, _, _ => none
  | fuel + 1, read, text =>
    match skipSpace text with
    | 34 :: quoted => do
      let (key, rest) ← parseString quoted
      match skipSpace rest with
      | 58 :: rest =>
        let (v, rest) ← parseValue fuel rest
        match skipSpace rest with
        | 44 :: more => parseProps fuel (defineProp read key v) more
        | 125 :: after => return (defineProp read key v, after)
        | _ => none
      | _ => none
    | _ => none
end

/-- `JSON.parse`: `none` where it throws its `SyntaxError`. -/
def JsonValue.parse (text : JsString) : Option JsonValue :=
  match parseValue (text.length + 1) text with
  | some (v, rest) => if (skipSpace rest).isEmpty then some v else none
  | none => none

/-! ### Reading strings back -/

theorem hexDigitOf_hexDigit {n : UInt16} (small : n < 16) : hexDigitOf (hexDigit n) = some n := by
  have bound : n.toNat < 16 := UInt16.lt_iff_toNat_lt.mp small
  rw [← UInt16.ofNat_toNat (x := n)]
  generalize n.toNat = k at bound
  interval_cases k <;> rfl

/-- One more unit in front of a string that is read. -/
def prepend (u : UInt16) (read : JsString × JsString) : JsString × JsString := (u :: read.1, read.2)

theorem parseString_close (rest : JsString) : parseString (34 :: rest) = some ([], rest) := by
  unfold parseString
  simp

theorem parseString_plain {u : UInt16} (quote : u ≠ 34) (backslash : u ≠ 92) (visible : ¬u < 32)
    (rest : JsString) : parseString (u :: rest) = (parseString rest).map (prepend u) := by
  conv_lhs => unfold parseString
  rw [if_neg quote, if_neg backslash, if_neg visible]
  cases parseString rest <;> rfl

theorem parseString_unicodeEscape (u : UInt16) (rest : JsString) :
    parseString (unicodeEscape u ++ rest) = (parseString rest).map (prepend u) := by
  have value : u / 0x1000 * 0x1000 + u / 0x100 % 16 * 0x100 + u / 0x10 % 16 * 0x10 + u % 16 = u := by
    have := u.toNat_lt
    apply UInt16.toNat_inj.mp
    simp only [UInt16.toNat_add, UInt16.toNat_mul, UInt16.toNat_div, UInt16.toNat_mod,
      UInt16.reduceToNat]
    omega
  conv_lhs => unfold unicodeEscape parseString
  simp only [List.cons_append, List.nil_append, hexDigitOf_hexDigit, nibble_mod, nibble_top,
    Option.bind_eq_bind, Option.bind_some, value]
  cases parseString rest <;> rfl

theorem parseString_short {u v : UInt16} (rest : JsString) (escaped : escapeOf v = some u)
    (other : v ≠ 117) : parseString (92 :: v :: rest) = (parseString rest).map (prepend u) := by
  conv_lhs => unfold parseString
  rw [if_neg (by decide), if_pos rfl]
  split
  · rename_i same
    cases same
    exact absurd rfl other
  · rename_i same
    cases same
    rw [escaped]
    cases parseString rest <;> rfl
  · rename_i empty
    cases empty

theorem parseString_escapeUnit (u : UInt16) (rest : JsString) :
    parseString (escapeUnit u ++ rest) = (parseString rest).map (prepend u) := by
  unfold escapeUnit
  split_ifs with b t n f r verbatim unicode
  · exact parseString_short rest (by rw [b]; rfl) (by decide)
  · exact parseString_short rest (by rw [t]; rfl) (by decide)
  · exact parseString_short rest (by rw [n]; rfl) (by decide)
  · exact parseString_short rest (by rw [f]; rfl) (by decide)
  · exact parseString_short rest (by rw [r]; rfl) (by decide)
  · rcases verbatim with rfl | rfl
    · exact parseString_short rest rfl (by decide)
    · exact parseString_short rest rfl (by decide)
  · exact parseString_unicodeEscape u rest
  · rw [not_or] at verbatim unicode
    exact parseString_plain verbatim.1 verbatim.2 unicode.1 rest

/-- A surrogate is no quote, no backslash and no control character. -/
theorem parseString_surrogate {u : UInt16} (surrogate : isLead u = true ∨ isTrail u = true)
    (rest : JsString) : parseString (u :: rest) = (parseString rest).map (prepend u) := by
  have high : 0xd800 ≤ u := by
    rcases surrogate with lead | trail
    · exact of_decide_eq_true (Bool.and_eq_true _ _ ▸ lead).1
    · exact UInt16.le_trans (by decide) (of_decide_eq_true (Bool.and_eq_true _ _ ▸ trail).1)
  refine parseString_plain ?_ ?_ (fun low => ?_) rest
  · rintro rfl
    exact absurd high (by decide)
  · rintro rfl
    exact absurd high (by decide)
  · exact absurd (UInt16.lt_of_le_of_lt high low) (by decide)

theorem parseString_escape (s rest : JsString) : parseString (escape s ++ 34 :: rest) = some (s, rest) := by
  induction s using escape.induct with
  | case1 => exact parseString_close rest
  | case2 u =>
    rw [escape, parseString_escapeUnit, parseString_close]
    rfl
  | case3 u v more pair ih =>
    obtain ⟨lead, trail⟩ := Bool.and_eq_true _ _ ▸ pair
    rw [escape, if_pos pair, List.cons_append, parseString_surrogate (.inl lead), List.cons_append,
      parseString_surrogate (.inr trail), ih]
    rfl
  | case4 u v more unpaired ih =>
    rw [escape, if_neg unpaired, List.append_assoc, parseString_escapeUnit, ih]
    rfl

/-! ### Reading numbers back -/

theorem isDigits_of_digits {text : JsString} (only : Digits text) (nonempty : text ≠ []) :
    isDigits text = true := by
  rw [isDigits, Bool.and_eq_true, Bool.not_eq_true', List.isEmpty_eq_false_iff, List.all_eq_true]
  refine ⟨nonempty, fun u member => ?_⟩
  obtain ⟨low, high⟩ := only u member
  simp [isDigit, low, high]

theorem isWhole_leading {u : UInt16} {tail : JsString} (only : Digits (u :: tail)) (other : u ≠ 48) :
    isWhole (u :: tail) = true := by
  unfold isWhole
  split
  · rfl
  · rename_i same
    cases same
    exact absurd rfl other
  · exact isDigits_of_digits only (List.cons_ne_nil _ _)

theorem natText_leading {n : ℕ} (positive : 0 < n) : ∃ u tail, natText n = u :: tail ∧ u ≠ 48 := by
  induction n using Nat.strong_induction_on with
  | _ n ih =>
    by_cases small : n < 10
    · refine ⟨n.digitChar.toNat.toUInt16, [], ?_, ?_⟩
      · rw [natText_units, Nat.toDigits_of_lt_base small]
        rfl
      · interval_cases n <;> decide
    · obtain ⟨u, tail, head, other⟩ := ih (n / 10) (by omega) (by omega)
      rw [natText_units] at head
      rw [natText_units, Nat.toDigits_of_base_le (by norm_num) (by omega), List.map_append, head]
      exact ⟨u, _, rfl, other⟩

/-- A number text is put together from a whole part, a fraction and an exponent. -/
def layout (whole fraction exponent : JsString) : JsString :=
  whole ++ (if fraction = [] then [] else 46 :: fraction) ++
    (if exponent = [] then [] else 101 :: exponent)

def SignedExponent (exponent : JsString) : Prop :=
  exponent = [] ∨ ∃ sign digits, exponent = sign :: digits ∧ (sign = 43 ∨ sign = 45) ∧
    Digits digits ∧ digits ≠ []

theorem signedExponent (e : ℤ) :
    SignedExponent (encode (if e < 0 then "-" else "+") ++ natText e.natAbs) := by
  refine .inr ⟨if e < 0 then 45 else 43, natText e.natAbs, ?_, ?_, digits_natText _, natText_ne_nil _⟩
  · split_ifs <;> simp [encode, encodeChar]
  · split_ifs <;> simp

/-- The parts of a well-formed number text. -/
structure Parts (text whole fraction exponent : JsString) : Prop where
  digits : Digits whole
  leading : isWhole whole = true
  places : Digits fraction
  signed : SignedExponent exponent
  laid : text = layout whole fraction exponent

theorem parts_text (d : Decimal) (positive : 0 < d.significand) :
    ∃ whole fraction exponent, Parts d.text whole fraction exponent := by
  have only := digits_natText d.significand
  obtain ⟨u, tail, head, other⟩ := natText_leading positive
  have zero : Digits [48] := digits_zeros 1
  have point : ∀ a b : JsString, a ++ encode "." ++ b = a ++ 46 :: b := by
    simp [encode, encodeChar]
  unfold Decimal.text
  rw [head] at only ⊢
  dsimp only
  by_cases integral : ((u :: tail).length : ℤ) ≤ d.scale + (u :: tail).length ∧
      d.scale + (u :: tail).length ≤ 21
  · rw [if_pos integral]
    refine ⟨u :: tail ++ List.replicate (d.scale + (u :: tail).length - (u :: tail).length).toNat 48, [],
      [], only.append (digits_zeros _), isWhole_leading (only.append (digits_zeros _)) other,
      by simp [Digits], .inl rfl, ?_⟩
    simp [layout]
  rw [if_neg integral]
  by_cases fixed : 0 < d.scale + (u :: tail).length ∧ d.scale + (u :: tail).length ≤ 21
  · obtain ⟨n, places⟩ : ∃ n, (d.scale + ((u :: tail).length : ℕ)).toNat = n + 1 :=
      ⟨(d.scale + ((u :: tail).length : ℕ)).toNat - 1, by omega⟩
    have short : n < tail.length := by
      simp only [List.length_cons] at integral fixed places
      omega
    have drops : tail.drop n ≠ [] := by simpa using short
    rw [if_pos fixed, places, point]
    refine ⟨u :: tail.take n, tail.drop n, [], only.take (n + 1), isWhole_leading (only.take (n + 1)) other,
      only.drop (n + 1), .inl rfl, ?_⟩
    simp [layout, drops]
  rw [if_neg fixed]
  by_cases small : -6 < d.scale + (u :: tail).length ∧ d.scale + (u :: tail).length ≤ 0
  · rw [if_pos small]
    refine ⟨[48], List.replicate (-(d.scale + (u :: tail).length)).toNat 48 ++ u :: tail, [], zero, rfl,
      (digits_zeros _).append only, .inl rfl, ?_⟩
    simp [layout, encode, encodeChar]
  rw [if_neg small]
  have signed := signedExponent (d.scale + (u :: tail).length - 1)
  have marked : ∀ a b c : JsString, a ++ encode "e" ++ b ++ c = a ++ 101 :: (b ++ c) := by
    simp [encode, encodeChar]
  have nonempty : encode (if d.scale + (u :: tail).length - 1 < 0 then "-" else "+") ++
      natText (d.scale + (u :: tail).length - 1).natAbs ≠ [] := by
    simp [natText_ne_nil]
  rw [marked]
  by_cases single : (u :: tail).length = 1
  · rw [if_pos single]
    refine ⟨_, [], _, only, isWhole_leading only other, by simp [Digits], signed, ?_⟩
    rw [layout, if_pos rfl, if_neg nonempty]
    simp
  · rw [if_neg single, point]
    have long : tail ≠ [] := by
      rintro rfl
      exact single rfl
    refine ⟨[u], tail, _, only.take 1, isWhole_leading (only.take 1) other, only.drop 1, signed, ?_⟩
    rw [layout, if_neg long, if_neg nonempty]
    simp

namespace Parts
variable {text whole fraction exponent : JsString} (parts : Parts text whole fraction exponent)
include parts

theorem cut_exponent :
    cut 101 text = (whole ++ (if fraction = [] then [] else 46 :: fraction), exponent) := by
  have free : 101 ∉ whole ++ (if fraction = [] then [] else 46 :: fraction) := by
    split_ifs
    · simpa using parts.digits.no_exponent
    · simp [parts.digits.no_exponent, parts.places.no_exponent]
  rw [parts.laid, layout]
  by_cases unmarked : exponent = []
  · rw [if_pos unmarked, List.append_nil, cut_free free, unmarked]
  · rw [if_neg unmarked, cut_append _ free]

theorem cut_point :
    cut 46 (whole ++ (if fraction = [] then [] else 46 :: fraction)) = (whole, fraction) := by
  by_cases integral : fraction = []
  · rw [if_pos integral, List.append_nil, cut_free parts.digits.no_point, integral]
  · rw [if_neg integral, cut_append _ parts.digits.no_point]

theorem isUnsignedNumber : isUnsignedNumber text = true := by
  unfold Ecma.isUnsignedNumber
  rw [parts.cut_exponent]
  dsimp only
  rw [parts.cut_point]
  dsimp only
  rw [parts.leading, Bool.true_and, Bool.and_eq_true]
  constructor
  · by_cases integral : fraction = []
    · have free := parts.digits.no_point
      simp [integral, free]
    · simp [isDigits_of_digits parts.places integral]
  · rcases parts.signed with rfl | ⟨sign, digits, rfl, signs, only, nonempty⟩
    · have free : 101 ∉ text := by
        rw [parts.laid, layout, if_pos rfl, List.append_nil]
        split_ifs
        · simpa using parts.digits.no_exponent
        · simp [parts.digits.no_exponent, parts.places.no_exponent]
      simp [free]
    · have marked : isExponent (sign :: digits) = true := by
        rcases signs with rfl | rfl
        · exact isDigits_of_digits only nonempty
        · exact isDigits_of_digits only nonempty
      rw [marked, Bool.or_true]

theorem magnitude : magnitude text = readDecimal text := by
  have same : exponentValue exponent = readExponent exponent := by
    rcases parts.signed with rfl | ⟨sign, digits, rfl, rfl | rfl, -, -⟩
    · rfl
    · rfl
    · rfl
  unfold Ecma.magnitude readDecimal
  rw [parts.cut_exponent]
  dsimp only
  rw [same]

/-- What a text put together so is made of. -/
theorem units : ∀ u ∈ text, isNumberUnit u = true ∧ u ≠ 69 := by
  have digit : ∀ {digits : JsString}, Digits digits → ∀ u ∈ digits, isNumberUnit u = true ∧ u ≠ 69 := by
    intro digits only u member
    obtain ⟨low, high⟩ := only u member
    refine ⟨by simp [isNumberUnit, isDigit, low, high], ?_⟩
    rintro rfl
    exact absurd high (by decide)
  have mark : ∀ u : UInt16, u ∈ [43, 45, 46, 101] → isNumberUnit u = true ∧ u ≠ 69 := by
    simp only [List.mem_cons, List.not_mem_nil, or_false]
    rintro u (rfl | rfl | rfl | rfl)
    all_goals decide
  intro u member
  rw [parts.laid, layout, List.mem_append, List.mem_append] at member
  rcases member with (member | member) | member
  · exact digit parts.digits u member
  · split_ifs at member
    · exact absurd member (List.not_mem_nil)
    · rcases List.mem_cons.mp member with rfl | member
      · exact mark _ (by simp)
      · exact digit parts.places u member
  · split_ifs at member
    · exact absurd member (List.not_mem_nil)
    · rcases List.mem_cons.mp member with rfl | member
      · exact mark _ (by simp)
      rcases parts.signed with rfl | ⟨sign, digits, rfl, signs, only, -⟩
      · exact absurd member (List.not_mem_nil)
      rcases List.mem_cons.mp member with rfl | member
      · rcases signs with rfl | rfl
        · exact mark _ (by simp)
        · exact mark _ (by simp)
      · exact digit only u member

end Parts

theorem round_of_nearest {q : ℚ} {d : Double} (reads : nearest q = d.val) :
    Number.round q = .fin d := by
  have bounded : |nearest q| < 2 ^ (1024 : ℤ) := by
    rw [reads]
    exact abs_lt_of_representable d.held
  rw [Number.round, dif_pos bounded]
  exact congrArg Number.fin (Double.ext reads)

/-- The shortest decimal of a positive number has a significand. -/
theorem significand_pos {q : ℚ} (held : Representable q) (positive : 0 < q) :
    0 < (Decimal.shortest q).normalize.significand := by
  rw [Nat.pos_iff_ne_zero]
  intro none
  have reads := shortest_reads held positive
  rw [Decimal.val, none, Nat.cast_zero, zero_mul, nearest_zero] at reads
  exact absurd reads positive.ne

theorem numberOf_unsigned {d : Decimal} (positive : 0 < d.significand) :
    numberOf d.text = some (.number (.round d.val)) := by
  obtain ⟨whole, fraction, exponent, parts⟩ := parts_text d positive
  unfold numberOf
  split
  · rename_i digits text
    exact absurd text (text_ne_minus d digits)
  · rw [if_pos parts.isUnsignedNumber, parts.magnitude, readDecimal_text]

theorem numberOf_signed {d : Decimal} {x : Double} (positive : 0 < d.significand)
    (reads : nearest d.val = x.val) (other : x.val ≠ 0) :
    numberOf (45 :: d.text) = some (.number (-.fin x)) := by
  obtain ⟨whole, fraction, exponent, parts⟩ := parts_text d positive
  have nonzero : Number.fin x ≠ 0 := by
    intro zero
    have held : Representable (0 : ℚ) := by simpa using representable_intCast (n := 0) (by norm_num)
    rw [show (0 : Number) = .fin ⟨0, held⟩ from by
      rw [← Number.round_of_representable held]; rfl] at zero
    exact other (congrArg Double.val (Number.fin.inj zero))
  change (if Ecma.isUnsignedNumber d.text = true then some (if Number.round (Ecma.magnitude d.text) = 0
    then JsonValue.negZero else .number (-Number.round (Ecma.magnitude d.text))) else none) = _
  rw [if_pos parts.isUnsignedNumber, parts.magnitude, readDecimal_text, round_of_nearest reads,
    if_neg nonzero]

theorem representable_neg {q : ℚ} (held : Representable q) : Representable (-q) := by
  obtain ⟨m, e, narrow, low, high, val⟩ := held
  exact ⟨-m, e, by rwa [abs_neg], low, high, by rw [val]; push_cast; ring⟩

/-- The text of a finite number is made of number units and is read as the number. -/
theorem numberOf_toText (d : Double) :
    numberOf (Number.fin d).toText = some (.number (.fin d)) ∧
      ∀ u ∈ (Number.fin d).toText, isNumberUnit u = true ∧ u ≠ 69 := by
  have minus : ∀ text, encode "-" ++ text = 45 :: text := by simp [encode, encodeChar]
  unfold Number.toText
  dsimp only
  split_ifs with zero negative
  · have digit : Digits [48] := digits_zeros 1
    have parts : Parts [48] [48] [] [] := ⟨digit, rfl, by simp [Digits], .inl rfl, rfl⟩
    refine ⟨?_, parts.units⟩
    change (if Ecma.isUnsignedNumber [48] = true then some (JsonValue.number (.round (Ecma.magnitude [48])))
      else none) = _
    have reads : nearest (readDecimal [48]) = d.val := by
      rw [readDecimal_whole digit, zero]
      exact nearest_zero
    rw [if_pos parts.isUnsignedNumber, parts.magnitude, round_of_nearest reads]
  · have held := representable_neg d.held
    have positive : 0 < -d.val := by linarith
    have reads := shortest_reads held positive
    have significand := significand_pos held positive
    rw [minus]
    refine ⟨?_, fun u member => ?_⟩
    · rw [numberOf_signed (x := ⟨-d.val, held⟩) significand reads positive.ne']
      change some (JsonValue.number (.round (- -d.val))) = _
      rw [neg_neg, Number.round_fin]
    · obtain ⟨whole, fraction, exponent, parts⟩ := parts_text _ significand
      rcases List.mem_cons.mp member with rfl | member
      · exact ⟨rfl, by decide⟩
      · exact parts.units u member
  · have positive : 0 < d.val := lt_of_le_of_ne (not_lt.mp negative) (Ne.symm zero)
    have significand := significand_pos d.held positive
    obtain ⟨whole, fraction, exponent, parts⟩ := parts_text _ significand
    refine ⟨?_, parts.units⟩
    rw [numberOf_unsigned significand, round_of_nearest (shortest_reads d.held positive)]

/-- Where a value may end: whatever comes next goes on with no number. -/
def Ends (rest : JsString) : Prop := ∀ u ∈ rest.head?, isNumberUnit u = false

theorem parseNumber_toText (d : Double) {rest : JsString} (ends : Ends rest) :
    parseNumber ((Number.fin d).toText ++ rest) = some (.number (.fin d), rest) := by
  obtain ⟨reads, units⟩ := numberOf_toText d
  have stops : rest.takeWhile isNumberUnit = [] ∧ rest.dropWhile isNumberUnit = rest := by
    cases rest with
    | nil => exact ⟨rfl, rfl⟩
    | cons u more =>
      have other := ends u rfl
      simp [other]
  have lowered : (Number.fin d).toText.map lowerMark = (Number.fin d).toText := by
    refine (List.map_congr_left fun u member => ?_).trans (List.map_id _)
    exact if_neg (units u member).2
  unfold parseNumber
  rw [List.span_eq_takeWhile_dropWhile, List.takeWhile_append_of_pos fun u member => (units u member).1,
    List.dropWhile_append_of_pos fun u member => (units u member).1, stops.1, stops.2,
    List.append_nil]
  dsimp only
  rw [lowered, reads]
  rfl

/-! ### Reading values back -/

/-- A text that no space stands in front of. -/
theorem skipSpace_cons {u : UInt16} (visible : isSpace u = false) (rest : JsString) :
    skipSpace (u :: rest) = u :: rest := by
  rw [skipSpace, List.dropWhile_cons, visible]
  rfl

/-- A text whose first unit starts a number or a word. -/
structure Scalar (text : JsString) : Prop where
  nonempty : text ≠ []
  head : ∀ u ∈ text.head?, isSpace u = false ∧ u ≠ 34 ∧ u ≠ 91 ∧ u ≠ 123

theorem scalar_cons {u : UInt16} {tail : JsString}
    (plain : isSpace u = false ∧ u ≠ 34 ∧ u ≠ 91 ∧ u ≠ 123) : Scalar (u :: tail) where
  nonempty := List.cons_ne_nil u tail
  head v first := by
    cases first
    exact plain

theorem parseValue_scalar {text : JsString} (scalar : Scalar text) (fuel : ℕ) (rest : JsString) :
    parseValue (fuel + 1) (text ++ rest) = parseScalar (text ++ rest) := by
  obtain ⟨u, tail, rfl⟩ := List.exists_cons_of_ne_nil scalar.nonempty
  obtain ⟨visible, quote, bracket, brace⟩ := scalar.head u rfl
  rw [parseValue, List.cons_append, skipSpace_cons visible]
  split
  · rename_i same
    exact absurd (List.cons.inj same).1 quote
  · rename_i same
    exact absurd (List.cons.inj same).1 bracket
  · rename_i same
    exact absurd (List.cons.inj same).1 brace
  · rfl

theorem afterWord_append (word rest : JsString) : afterWord word (word ++ rest) = some rest := by
  simp [afterWord]

theorem afterWord_none {word text : JsString} (differ : text.head? ≠ word.head?)
    (nonempty : word ≠ []) : afterWord word text = none := by
  rw [afterWord, if_neg]
  intro starts
  obtain ⟨rest, rfl⟩ := List.isPrefixOf_iff_prefix.mp starts
  obtain ⟨u, tail, rfl⟩ := List.exists_cons_of_ne_nil nonempty
  exact differ rfl

theorem parseScalar_number (d : Double) {rest : JsString} (ends : Ends rest) :
    parseScalar ((Number.fin d).toText ++ rest) = some (.number (.fin d), rest) := by
  obtain ⟨reads, units⟩ := numberOf_toText d
  obtain ⟨u, tail, head⟩ : ∃ u tail, (Number.fin d).toText = u :: tail := by
    refine List.exists_cons_of_ne_nil fun empty => ?_
    rw [empty] at reads
    cases reads
  have unit := (units u (by simp [head])).1
  have none : ∀ word : JsString, word ≠ [] → word.head? ≠ some u →
      afterWord word ((Number.fin d).toText ++ rest) = Option.none := by
    intro word nonempty differ
    refine afterWord_none (fun same => differ ?_) nonempty
    rw [← same, head]
    rfl
  unfold parseScalar
  rw [none "null" (by decide) ?_, none "true" (by decide) ?_, none "false" (by decide) ?_]
  · exact parseNumber_toText d ends
  all_goals
    intro same
    cases same
    exact absurd unit (by decide)

theorem scalar_number (d : Double) : Scalar (Number.fin d).toText := by
  obtain ⟨reads, units⟩ := numberOf_toText d
  refine ⟨fun empty => ?_, fun u first => ?_⟩
  · rw [empty] at reads
    cases reads
  · have unit := (units u (List.mem_of_mem_head? first)).1
    refine ⟨?_, ?_, ?_, ?_⟩
    · by_contra space
      rw [Bool.not_eq_false, isSpace] at space
      simp only [Bool.or_eq_true, decide_eq_true_eq] at space
      rcases space with ((rfl | rfl) | rfl) | rfl <;> exact absurd unit (by decide)
    all_goals
      rintro rfl
      exact absurd unit (by decide)

theorem defineProp_append {read : List (JsString × JsonValue)} {key : JsString}
    (fresh : key ∉ read.map Prod.fst) (v : JsonValue) :
    defineProp read key v = read ++ [(key, v)] := by
  rw [defineProp, if_neg]
  intro found
  obtain ⟨p, member, same⟩ := List.any_eq_true.mp found
  exact fresh (List.mem_map.mpr ⟨p, member, of_decide_eq_true same⟩)

theorem ends_cons {u : UInt16} (other : isNumberUnit u = false) (rest : JsString) :
    Ends (u :: rest) := by
  rintro v ⟨⟩
  exact other

namespace JsonValue

/-! ### Line breaks

`JSON.stringify` with a gap writes each item and each property on a line of its own. -/

/-- What stands between two tokens: nothing where no gap is asked for. -/
def lineBreak (gap indent : JsString) : JsString := if gap = [] then [] else 10 :: indent

mutual
/-- `JSON.stringify(v, null, gap)` at an indentation. -/
def indented (gap indent : JsString) : JsonValue → JsString
  | array items =>
    if items.isEmpty then [91, 93]
    else [91] ++ lineBreak gap (indent ++ gap) ++ indentedItems gap (indent ++ gap) items ++
      lineBreak gap indent ++ [93]
  | object props =>
    if props.isEmpty then [123, 125]
    else [123] ++ lineBreak gap (indent ++ gap) ++ indentedProps gap (indent ++ gap) props ++
      lineBreak gap indent ++ [125]
  | scalar => stringify scalar

def indentedItems (gap indent : JsString) : List JsonValue → JsString
  | [] => []
  | item :: rest => indented gap indent item ++
      (if rest.isEmpty then [] else [44] ++ lineBreak gap indent) ++ indentedItems gap indent rest

def indentedProps (gap indent : JsString) : List (JsString × JsonValue) → JsString
  | [] => []
  | (key, v) :: rest => quote key ++ [58] ++ (if gap = [] then [] else [32]) ++ indented gap indent v ++
      (if rest.isEmpty then [] else [44] ++ lineBreak gap indent) ++ indentedProps gap indent rest
end

theorem joinComma_cons (text : JsString) {rest : List JsString} (more : rest ≠ []) :
    joinComma (text :: rest) = text ++ 44 :: joinComma rest := by
  obtain ⟨next, others, rfl⟩ := List.exists_cons_of_ne_nil more
  simp [joinComma, encode, encodeChar]

mutual
/-- Without a gap the text is the compact one. -/
theorem indented_compact (indent : JsString) : (v : JsonValue) → indented [] indent v = stringify v
  | null => rfl
  | boolean _ => rfl
  | number _ => rfl
  | negZero => rfl
  | string _ => rfl
  | array [] => rfl
  | array (item :: rest) => by
    rw [indented, stringify, indentedItems_compact (indent ++ []) (item :: rest)]
    simp [lineBreak]
  | object [] => rfl
  | object (p :: rest) => by
    rw [indented, stringify, indentedProps_compact (indent ++ []) (p :: rest)]
    simp [lineBreak]

theorem indentedItems_compact (indent : JsString) :
    (items : List JsonValue) → indentedItems [] indent items = joinComma (itemTexts items)
  | [] => rfl
  | [item] => by
    rw [indentedItems, indentedItems, indented_compact indent item]
    simp [itemTexts, joinComma]
  | item :: next :: rest => by
    have texts : itemTexts (item :: next :: rest) = item.stringify :: itemTexts (next :: rest) := rfl
    have more : itemTexts (next :: rest) ≠ [] := List.cons_ne_nil next.stringify (itemTexts rest)
    rw [indentedItems, indented_compact indent item, indentedItems_compact indent (next :: rest), texts,
      joinComma_cons _ more]
    simp [lineBreak]

theorem indentedProps_compact (indent : JsString) :
    (props : List (JsString × JsonValue)) → indentedProps [] indent props = joinComma (propTexts props)
  | [] => rfl
  | [(key, v)] => by
    rw [indentedProps, indentedProps, indented_compact indent v]
    simp [propTexts, joinComma]
  | (key, v) :: (other, w) :: rest => by
    have texts : propTexts ((key, v) :: (other, w) :: rest) =
        (quote key ++ [58] ++ v.stringify) :: propTexts ((other, w) :: rest) := rfl
    have more : propTexts ((other, w) :: rest) ≠ [] :=
      List.cons_ne_nil (quote other ++ [58] ++ w.stringify) (propTexts rest)
    rw [indentedProps, indented_compact indent v, indentedProps_compact indent ((other, w) :: rest),
      texts, joinComma_cons _ more]
    simp [lineBreak]
end

/-- A text that the parser passes over. -/
def Spaces (text : JsString) : Prop := ∀ u ∈ text, isSpace u = true

theorem Spaces.append {text more : JsString} (spaces : Spaces text) (others : Spaces more) :
    Spaces (text ++ more) := by
  intro u member
  rcases List.mem_append.mp member with first | second
  · exact spaces u first
  · exact others u second

theorem skipSpace_append {spaces : JsString} (only : Spaces spaces) (text : JsString) :
    skipSpace (spaces ++ text) = skipSpace text :=
  List.dropWhile_append_of_pos only

theorem spaces_lineBreak {gap indent : JsString} (only : Spaces indent) :
    Spaces (lineBreak gap indent) := by
  unfold lineBreak
  split_ifs
  · exact fun u member => absurd member List.not_mem_nil
  · rintro u (_ | ⟨_, member⟩)
    · rfl
    · exact only u member

/-- A closing bracket ends a value, on its line or on the next. -/
theorem ends_lineBreak (gap indent : JsString) {u : UInt16} (other : isNumberUnit u = false)
    (rest : JsString) : Ends (lineBreak gap indent ++ u :: rest) := by
  unfold lineBreak
  split_ifs
  · exact ends_cons other rest
  · exact ends_cons rfl _

theorem parseValue_space {spaces : JsString} (only : Spaces spaces) (fuel : ℕ) (text : JsString) :
    parseValue fuel (spaces ++ text) = parseValue fuel text := by
  cases fuel with
  | zero => rfl
  | succ fuel => rw [parseValue, parseValue, skipSpace_append only]

theorem parseItems_space {spaces : JsString} (only : Spaces spaces) (fuel : ℕ) (text : JsString) :
    parseItems fuel (spaces ++ text) = parseItems fuel text := by
  cases fuel with
  | zero => rfl
  | succ fuel => rw [parseItems, parseItems, parseValue_space only]

theorem parseProps_space {spaces : JsString} (only : Spaces spaces) (fuel : ℕ)
    (read : List (JsString × JsonValue)) (text : JsString) :
    parseProps fuel read (spaces ++ text) = parseProps fuel read text := by
  cases fuel with
  | zero => rfl
  | succ fuel => rw [parseProps, parseProps, skipSpace_append only]

/-- A value starts with no space and closes no array. -/
theorem indented_head (gap indent : JsString) (v : JsonValue) :
    ∃ u tail, indented gap indent v = u :: tail ∧ isSpace u = false ∧ u ≠ 93 := by
  cases v with
  | null => exact ⟨_, _, rfl, by decide, by decide⟩
  | boolean b => cases b <;> exact ⟨_, _, rfl, by decide, by decide⟩
  | number n =>
    cases n with
    | fin d =>
      obtain ⟨nonempty, first⟩ := scalar_number d
      obtain ⟨u, tail, head⟩ := List.exists_cons_of_ne_nil nonempty
      refine ⟨u, tail, head, (first u (by simp [head])).1, ?_⟩
      rintro rfl
      exact absurd ((numberOf_toText d).2 93 (by simp [head])).1 (by decide)
    | _ => exact ⟨_, _, rfl, by decide, by decide⟩
  | negZero => exact ⟨_, _, rfl, by decide, by decide⟩
  | string s => exact ⟨34, escape s ++ [34], by simp [indented, stringify, quote], by decide, by decide⟩
  | array items =>
    rw [indented]
    split_ifs
    · exact ⟨91, _, rfl, by decide, by decide⟩
    · exact ⟨91, _, by simp; rfl, by decide, by decide⟩
  | object props =>
    rw [indented]
    split_ifs
    · exact ⟨123, _, rfl, by decide, by decide⟩
    · exact ⟨123, _, by simp; rfl, by decide, by decide⟩

theorem skipSpace_indented (gap indent : JsString) (v : JsonValue) (rest : JsString) :
    skipSpace (indented gap indent v ++ rest) = indented gap indent v ++ rest ∧
      (indented gap indent v ++ rest).head? ≠ some 93 := by
  obtain ⟨u, tail, head, visible, other⟩ := indented_head gap indent v
  rw [head, List.cons_append]
  exact ⟨skipSpace_cons visible _, fun same => other (Option.some.inj same)⟩

theorem parseValue_word {word : JsString} {v : JsonValue} (scalar : Scalar word)
    (reads : ∀ rest, parseScalar (word ++ rest) = some (v, rest)) (fuel : ℕ) (rest : JsString) :
    parseValue (fuel + 1) (word ++ rest) = some (v, rest) := by
  rw [parseValue_scalar scalar, reads]

theorem parseValue_quoted {key : JsString} {fuel : ℕ} {text rest : JsString}
    (read : parseString text = some (key, rest)) :
    parseValue (fuel + 1) (34 :: text) = some (.string key, rest) := by
  change (parseString text).bind (fun read => some (JsonValue.string read.1, read.2)) = _
  rw [read]
  rfl

theorem parseValue_items {items : List JsonValue} {fuel : ℕ} {text body rest : JsString}
    (starts : skipSpace text = body) (other : body.head? ≠ some 93)
    (read : parseItems fuel body = some (items, rest)) :
    parseValue (fuel + 1) (91 :: text) = some (.array items, rest) := by
  change (match skipSpace text with
    | 93 :: after => some (array [], after)
    | items => (parseItems fuel items).bind fun read => some (.array read.1, read.2)) = _
  rw [starts]
  split
  · exact absurd rfl other
  · rw [read]
    rfl

theorem parseValue_props {props : List (JsString × JsonValue)} {fuel : ℕ} {text body rest : JsString}
    (starts : skipSpace text = body) (other : body.head? ≠ some 125)
    (read : parseProps fuel [] body = some (props, rest)) :
    parseValue (fuel + 1) (123 :: text) = some (.object props, rest) := by
  change (match skipSpace text with
    | 125 :: after => some (object [], after)
    | props => (parseProps fuel [] props).bind fun read => some (.object read.1, read.2)) = _
  rw [starts]
  split
  · exact absurd rfl other
  · rw [read]
    rfl

theorem parseItems_last {v : JsonValue} {fuel : ℕ} {text after rest : JsString}
    (read : parseValue fuel text = some (v, after)) (closes : skipSpace after = 93 :: rest) :
    parseItems (fuel + 1) text = some ([v], rest) := by
  rw [parseItems, read]
  change (match skipSpace after with
    | 44 :: more => (parseItems fuel more).bind fun read => some (v :: read.1, read.2)
    | 93 :: after => some ([v], after)
    | _ => none) = _
  rw [closes]
  rfl

theorem parseItems_more {v : JsonValue} {items : List JsonValue} {fuel : ℕ} {text more rest : JsString}
    (read : parseValue fuel text = some (v, 44 :: more))
    (others : parseItems fuel more = some (items, rest)) :
    parseItems (fuel + 1) text = some (v :: items, rest) := by
  rw [parseItems, read]
  change (parseItems fuel more).bind (fun read => some (v :: read.1, read.2)) = _
  rw [others]
  rfl

theorem parseProps_last {key : JsString} {v : JsonValue} {before : List (JsString × JsonValue)}
    {fuel : ℕ} {text value after rest : JsString} (named : parseString text = some (key, 58 :: value))
    (read : parseValue fuel value = some (v, after)) (closes : skipSpace after = 125 :: rest) :
    parseProps (fuel + 1) before (34 :: text) = some (defineProp before key v, rest) := by
  change (parseString text).bind _ = _
  rw [named]
  change (parseValue fuel value).bind _ = _
  rw [read]
  change (match skipSpace after with
    | 44 :: more => parseProps fuel (defineProp before key v) more
    | 125 :: after => some (defineProp before key v, after)
    | _ => none) = _
  rw [closes]
  rfl

theorem parseProps_more {key : JsString} {v : JsonValue} {before : List (JsString × JsonValue)}
    {fuel : ℕ} {text value more : JsString} (named : parseString text = some (key, 58 :: value))
    (read : parseValue fuel value = some (v, 44 :: more)) :
    parseProps (fuel + 1) before (34 :: text) = parseProps fuel (defineProp before key v) more := by
  change (parseString text).bind _ = _
  rw [named]
  change (parseValue fuel value).bind _ = _
  rw [read]
  rfl

theorem fresh_of_nodup {read more : List (JsString × JsonValue)} {key : JsString} {v : JsonValue}
    (distinct : ((read ++ (key, v) :: more).map Prod.fst).Nodup) : key ∉ read.map Prod.fst := by
  rw [List.map_append, List.map_cons, List.nodup_append] at distinct
  exact fun member => distinct.2.2 key member key (List.mem_cons_self ..) rfl

section Gap
variable {gap : JsString}

theorem indentedItems_cons (indent : JsString) (v : JsonValue) (more : List JsonValue)
    (rest : JsString) :
    indentedItems gap indent (v :: more) ++ rest = indented gap indent v ++
      ((if more.isEmpty then [] else [44] ++ lineBreak gap indent) ++
        (indentedItems gap indent more ++ rest)) := by
  rw [indentedItems, List.append_assoc, List.append_assoc]

/-- What follows the quote in front of a name. -/
theorem indentedProps_cons (indent key : JsString) (v : JsonValue)
    (more : List (JsString × JsonValue)) (rest : JsString) :
    indentedProps gap indent ((key, v) :: more) ++ rest = 34 :: (escape key ++ 34 :: 58 ::
      ((if gap = [] then [] else [32]) ++ (indented gap indent v ++
        ((if more.isEmpty then [] else [44] ++ lineBreak gap indent) ++
          (indentedProps gap indent more ++ rest))))) := by
  simp [indentedProps, quote]

theorem spaces_colon : Spaces (if gap = [] then [] else [32]) := by
  split_ifs
  · exact fun u member => absurd member List.not_mem_nil
  · rintro u (_ | ⟨_, member⟩)
    · rfl
    · cases member

mutual
/-- A value is read back from its text, wherever the text ends. -/
theorem parseValue_indented (gapped : Spaces gap) : {v : JsonValue} → v.Faithful → {indent : JsString} → Spaces indent →
    {fuel : ℕ} → {rest : JsString} → (indented gap indent v).length < fuel → Ends rest →
    parseValue fuel (indented gap indent v ++ rest) = some (v, rest)
  | _, .null, _, _, fuel + 1, rest, _, _ =>
    parseValue_word (scalar_cons (by decide)) (fun _ => rfl) fuel rest
  | _, .boolean b, _, _, fuel + 1, rest, _, _ => by
    cases b
    · exact parseValue_word (scalar_cons (by decide)) (fun _ => rfl) fuel rest
    · exact parseValue_word (scalar_cons (by decide)) (fun _ => rfl) fuel rest
  | _, .number d, _, _, fuel + 1, rest, _, ends =>
    (parseValue_scalar (scalar_number d) fuel rest).trans (parseScalar_number d ends)
  | _, .string s, indent, _, fuel + 1, rest, _, _ => by
    have text : indented gap indent (.string s) ++ rest = 34 :: (escape s ++ 34 :: rest) := by
      simp [indented, stringify, quote]
    rw [text]
    exact parseValue_quoted (parseString_escape s rest)
  | _, .array .nil, _, _, fuel + 1, rest, _, _ => rfl
  | _, .array (@FaithfulItems.cons v more item others), indent, only, fuel + 1, rest, enough, _ => by
    have text : indented gap indent (.array (v :: more)) ++ rest =
        91 :: (lineBreak gap (indent ++ gap) ++ (indentedItems gap (indent ++ gap) (v :: more) ++
          (lineBreak gap indent ++ 93 :: rest))) := by
      simp [indented]
    have begins := skipSpace_indented gap (indent ++ gap) v
      ((if more.isEmpty then [] else [44] ++ lineBreak gap (indent ++ gap)) ++
        (indentedItems gap (indent ++ gap) more ++ (lineBreak gap indent ++ 93 :: rest)))
    rw [← indentedItems_cons] at begins
    have inner := only.append gapped
    rw [text]
    refine parseValue_items ((skipSpace_append (spaces_lineBreak inner) _).trans begins.1) begins.2
      (parseItems_indented gapped (.cons item others) inner only (List.cons_ne_nil _ _) ?_)
    rw [indented, if_neg (by simp)] at enough
    simp only [List.length_append, List.length_singleton] at enough
    omega
  | _, .object .nil _, _, _, fuel + 1, rest, _, _ => rfl
  | _, .object (@FaithfulProps.cons v more key value others) distinct, indent, only, fuel + 1, rest,
    enough, _ => by
    have text : indented gap indent (.object ((key, v) :: more)) ++ rest =
        123 :: (lineBreak gap (indent ++ gap) ++ (indentedProps gap (indent ++ gap) ((key, v) :: more) ++
          (lineBreak gap indent ++ 125 :: rest))) := by
      simp [indented]
    have begins := @indentedProps_cons gap (indent ++ gap) key v more
      (lineBreak gap indent ++ 125 :: rest)
    have inner := only.append gapped
    rw [text]
    refine parseValue_props ((skipSpace_append (spaces_lineBreak inner) _).trans ?_) ?_
      (parseProps_indented gapped (.cons value others) inner only (List.cons_ne_nil _ _) distinct ?_)
    · rw [begins]
      exact skipSpace_cons rfl _
    · rw [begins]
      exact fun same => absurd (Option.some.inj same) (by decide)
    · rw [indented, if_neg (by simp)] at enough
      simp only [List.length_append, List.length_singleton] at enough
      omega

theorem parseItems_indented (gapped : Spaces gap) : {items : List JsonValue} → FaithfulItems items → {indent : JsString} →
    Spaces indent → {outer : JsString} → Spaces outer → {fuel : ℕ} → {rest : JsString} → items ≠ [] →
    (indentedItems gap indent items).length + 1 < fuel →
    parseItems fuel (indentedItems gap indent items ++ (lineBreak gap outer ++ 93 :: rest)) =
      some (items, rest)
  | _, .nil, _, _, _, _, _, _, nonempty, _ => absurd rfl nonempty
  | _, @FaithfulItems.cons v _ item .nil, indent, only, outer, closing, fuel + 1, rest, _, enough => by
    have text : indentedItems gap indent [v] = indented gap indent v := by simp [indentedItems]
    rw [text] at enough ⊢
    refine parseItems_last (parseValue_indented gapped item only (by omega) (ends_lineBreak gap outer rfl rest)) ?_
    rw [skipSpace_append (spaces_lineBreak closing), skipSpace_cons rfl]
  | _, @FaithfulItems.cons v _ item (@FaithfulItems.cons w more next others), indent, only, outer, closing,
    fuel + 1, rest, _, enough => by
    have text : indentedItems gap indent (v :: w :: more) = indented gap indent v ++
        44 :: (lineBreak gap indent ++ indentedItems gap indent (w :: more)) := by
      rw [indentedItems]
      simp
    rw [text] at enough ⊢
    simp only [List.length_append, List.length_cons] at enough
    rw [List.append_assoc, List.cons_append, List.append_assoc]
    refine parseItems_more (parseValue_indented gapped item only (by omega) (ends_cons rfl _)) ?_
    rw [parseItems_space (spaces_lineBreak only)]
    exact parseItems_indented gapped (.cons next others) only closing (List.cons_ne_nil _ _) (by omega)

theorem parseProps_indented (gapped : Spaces gap) : {props : List (JsString × JsonValue)} → FaithfulProps props →
    {indent : JsString} → Spaces indent → {outer : JsString} → Spaces outer → {fuel : ℕ} →
    {rest : JsString} → {read : List (JsString × JsonValue)} → props ≠ [] →
    ((read ++ props).map Prod.fst).Nodup → (indentedProps gap indent props).length + 1 < fuel →
    parseProps fuel read (indentedProps gap indent props ++ (lineBreak gap outer ++ 125 :: rest)) =
      some (read ++ props, rest)
  | _, .nil, _, _, _, _, _, _, _, nonempty, _, _ => absurd rfl nonempty
  | _, @FaithfulProps.cons v _ key value .nil, indent, only, outer, closing, fuel + 1, rest, read, _,
    distinct, enough => by
    have length : (indented gap indent v).length < fuel := by
      rw [indentedProps] at enough
      simp only [List.length_append] at enough
      omega
    have reads : parseValue fuel ((if gap = [] then [] else [32]) ++ (indented gap indent v ++
        (lineBreak gap outer ++ 125 :: rest))) = some (v, lineBreak gap outer ++ 125 :: rest) := by
      rw [parseValue_space spaces_colon]
      exact parseValue_indented gapped value only length (ends_lineBreak gap outer rfl rest)
    have closes : skipSpace (lineBreak gap outer ++ 125 :: rest) = 125 :: rest := by
      rw [skipSpace_append (spaces_lineBreak closing), skipSpace_cons rfl]
    rw [indentedProps_cons]
    exact (parseProps_last (parseString_escape _ _) reads closes).trans
      (by rw [defineProp_append (fresh_of_nodup distinct)])
  | _, @FaithfulProps.cons v _ key value (@FaithfulProps.cons w more other next others),
    indent, only, outer, closing, fuel + 1, rest, read, _, distinct, enough => by
    rw [indentedProps] at enough
    simp only [List.length_append, List.isEmpty_cons, Bool.false_eq_true, if_false,
      List.length_singleton] at enough
    have reads : parseValue fuel ((if gap = [] then [] else [32]) ++ (indented gap indent v ++
        (44 :: (lineBreak gap indent ++ (indentedProps gap indent ((other, w) :: more) ++
          (lineBreak gap outer ++ 125 :: rest)))))) =
        some (v, 44 :: (lineBreak gap indent ++ (indentedProps gap indent ((other, w) :: more) ++
          (lineBreak gap outer ++ 125 :: rest)))) := by
      rw [parseValue_space spaces_colon]
      exact parseValue_indented gapped value only (by omega) (ends_cons rfl _)
    rw [indentedProps_cons]
    refine (parseProps_more (parseString_escape _ _) reads).trans ?_
    rw [defineProp_append (fresh_of_nodup distinct), parseProps_space (spaces_lineBreak only),
      parseProps_indented gapped (.cons next others) only closing (List.cons_ne_nil _ _) (by simpa using distinct)
        (by omega)]
    simp
end

/-- `JSON.parse(JSON.stringify(v, null, gap))` is the value again. -/
theorem parse_indented (gapped : Spaces gap) {v : JsonValue} (faithful : v.Faithful) : parse (indented gap [] v) = some v := by
  have none : Spaces [] := fun u member => absurd member List.not_mem_nil
  have read := @parseValue_indented gap gapped v faithful [] none _ [] (Nat.lt_succ_self _)
    (fun _ first => by cases first)
  rw [List.append_nil] at read
  rw [parse, read]
  rfl

end Gap

/-- `JSON.parse(JSON.stringify(v))` is the value again. -/
theorem parse_stringify {v : JsonValue} (faithful : v.Faithful) : parse v.stringify = some v := by
  rw [← indented_compact []]
  exact parse_indented (fun u member => absurd member List.not_mem_nil) faithful

end JsonValue

end Vaduno.Ecma
