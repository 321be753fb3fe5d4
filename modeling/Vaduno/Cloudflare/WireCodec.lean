import Vaduno.Ecma.JsonParse

/-! The wire codec of the signer host: a caller's value as JSON, bigints tagged and objects that look
like a tag escaped, so that the host polices the request that was presented. -/
namespace Vaduno.Cloudflare
open Ecma

/-- What names a property that is not among an object's listed ones. -/
inductive PropertyKey
  | name (s : JsString)
  | symbol (description : JsString)
  deriving DecidableEq

/-- A value as a caller can hold it. An array has holes and, besides its items, own properties under
other names; an object has own properties that `Object.keys` does not list. The negative zero stands
on its own. `exotic` is an object that is no plain record, seen through `Object.prototype.toString`,
and `enclosing` a reference back to an array or object around it. -/
inductive WireValue
  | undefined
  | null
  | boolean (b : Bool)
  | number (n : Number)
  | negZero
  | bigint (n : ℤ)
  | string (s : JsString)
  | symbol
  | function
  | array (items : List (Option WireValue)) (others : List (PropertyKey × WireValue))
  | record (props : List (JsString × WireValue)) (others : List (PropertyKey × WireValue))
  | exotic (tag : JsString)
  | enclosing (levels : ℕ)

inductive WireError
  /-- `WireCodecError`. -/
  | codec (message : JsString)
  /-- The engine's `RangeError`: the recursion never ends, so it runs out of stack. -/
  | range

def bigintTag : JsString := "$vadunoBigint"

def escapeTag : JsString := "$vadunoEscape"

/-- `Object.hasOwn(v, name)`. -/
def hasOwn (props : List (JsString × WireValue)) (others : List (PropertyKey × WireValue))
    (name : JsString) : Bool :=
  props.any (·.1 = name) || others.any (·.1 = .name name)

/-- Where the first hole of an array is. -/
def firstHole (items : List (Option WireValue)) : Option ℕ := items.findIdx? Option.isNone

def unfaithful (kind : JsString) : WireError :=
  .codec ("a value of type " ++ kind ++
    " cannot cross the wire faithfully (JSON would silently change the signed bytes)")

mutual
/-- A value as JSON, or the refusal of one that JSON would mangle. -/
def encodeWire : WireValue → Except WireError JsonValue
  | .null => .ok .null
  | .boolean b => .ok (.boolean b)
  | .string s => .ok (.string s)
  | .number n =>
    if n.isFinite then .ok (.number n)
    else .error (.codec
      ("a non-finite number (" ++ n.toText ++ ") cannot cross the wire faithfully"))
  | .negZero => .error (.codec
      "negative zero cannot cross the wire faithfully (JSON silently writes it as 0)")
  | .bigint n => .ok (.object [(bigintTag, .string (intText n))])
  | .array items _ =>
    match firstHole items with
    | some i => .error (.codec ("a sparse array (hole at index " ++ natText i ++
        ") cannot cross the wire faithfully (JSON silently writes the hole as null)"))
    | none => return .array (← encodeItems items)
  | .record props others => do
    let out ← encodeProps props
    if hasOwn props others bigintTag || hasOwn props others escapeTag then
      return .object [(escapeTag, .object out)]
    else return .object out
  | .undefined => .error (unfaithful "undefined")
  | .symbol => .error (unfaithful "symbol")
  | .function => .error (unfaithful "function")
  | .exotic tag => .error (unfaithful tag)
  | .enclosing _ => .error .range

def encodeItems : List (Option WireValue) → Except WireError (List JsonValue)
  | [] => .ok []
  | none :: rest => encodeItems rest
  | some item :: rest => return (← encodeWire item) :: (← encodeItems rest)

def encodeProps : List (JsString × WireValue) → Except WireError (List (JsString × JsonValue))
  | [] => .ok []
  | (key, v) :: rest => return (key, ← encodeWire v) :: (← encodeProps rest)
end

/-- The integer of a text that `/^-?\d+$/` accepts. -/
def bigintOf : JsString → Option ℤ
  | 45 :: digits => if isDigits digits then some (-digitsValue digits) else none
  | digits => if isDigits digits then some (digitsValue digits) else none

/-- The integer of a bigint tag. -/
def decodeBigint : JsonValue → Except WireError WireValue
  | .string raw =>
    match bigintOf raw with
    | some n => .ok (.bigint n)
    | none => .error (.codec "malformed bigint tag on the wire")
  | _ => .error (.codec "malformed bigint tag on the wire")

mutual
/-- The value that was presented, from its JSON. -/
def decodeWire : JsonValue → Except WireError WireValue
  | .null => .ok .null
  | .boolean b => .ok (.boolean b)
  | .string s => .ok (.string s)
  | .number n =>
    if n.isFinite then .ok (.number n) else .error (.codec "non-finite number on the wire")
  | .negZero => .error (.codec "negative zero on the wire")
  | .array items => return .array (← decodeItems items) []
  | .object props => decodeObject props

/-- An object with the one name of a tag stands for what it tags. -/
def decodeObject : List (JsString × JsonValue) → Except WireError WireValue
  | [] => .ok (.record [] [])
  | [(key, v)] =>
    if key = bigintTag then decodeBigint v
    else if key = escapeTag then decodeEscaped v
    else return .record [(key, ← decodeWire v)] []
  | (key, v) :: (next, w) :: rest =>
    return .record ((key, ← decodeWire v) :: (next, ← decodeWire w) :: (← decodeProps rest)) []

/-- Exactly one level is unwrapped; the inner object's own names are literal. -/
def decodeEscaped : JsonValue → Except WireError WireValue
  | .object inner => return .record (← decodeProps inner) []
  | _ => .error (.codec "malformed escape tag on the wire")

def decodeItems : List JsonValue → Except WireError (List (Option WireValue))
  | [] => .ok []
  | item :: rest => return some (← decodeWire item) :: (← decodeItems rest)

def decodeProps : List (JsString × JsonValue) → Except WireError (List (JsString × WireValue))
  | [] => .ok []
  | (key, v) :: rest => return (key, ← decodeWire v) :: (← decodeProps rest)
end

/-! ### What the codec carries -/

mutual
/-- What `Object.keys` and the items of an array show of a value. -/
def WireValue.visible : WireValue → WireValue
  | .array items _ => .array (visibleItems items) []
  | .record props _ => .record (visibleProps props) []
  | v => v

def visibleItems : List (Option WireValue) → List (Option WireValue)
  | [] => []
  | none :: rest => none :: visibleItems rest
  | some item :: rest => some item.visible :: visibleItems rest

def visibleProps : List (JsString × WireValue) → List (JsString × WireValue)
  | [] => []
  | (key, v) :: rest => (key, v.visible) :: visibleProps rest
end

mutual
/-- The names of an object's properties are distinct, at every level. -/
inductive Proper : WireValue → Prop
  | array (items : ProperItems list) : Proper (.array list others)
  | record (props : ProperProps list) (distinct : (list.map Prod.fst).Nodup) :
    Proper (.record list others)
  | scalar (noArray : ∀ items others, v ≠ .array items others)
    (noRecord : ∀ props others, v ≠ .record props others) : Proper v

inductive ProperItems : List (Option WireValue) → Prop
  | nil : ProperItems []
  | hole (rest : ProperItems more) : ProperItems (none :: more)
  | cons (item : Proper v) (rest : ProperItems more) : ProperItems (some v :: more)

inductive ProperProps : List (JsString × WireValue) → Prop
  | nil : ProperProps []
  | cons (value : Proper v) (rest : ProperProps more) : ProperProps ((key, v) :: more)
end

mutual
/-- Everything visible of a value is a kind of value the codec accepts. -/
inductive Accepted : WireValue → Prop
  | null : Accepted .null
  | boolean (b : Bool) : Accepted (.boolean b)
  | number (d : Double) : Accepted (.number (.fin d))
  | bigint (n : ℤ) : Accepted (.bigint n)
  | string (s : JsString) : Accepted (.string s)
  | array (items : AcceptedItems list) : Accepted (.array list others)
  | record (props : AcceptedProps list) : Accepted (.record list others)

inductive AcceptedItems : List (Option WireValue) → Prop
  | nil : AcceptedItems []
  | cons (item : Accepted v) (rest : AcceptedItems more) : AcceptedItems (some v :: more)

inductive AcceptedProps : List (JsString × WireValue) → Prop
  | nil : AcceptedProps []
  | cons (value : Accepted v) (rest : AcceptedProps more) : AcceptedProps ((key, v) :: more)
end

theorem Proper.items {items : List (Option WireValue)} {others : List (PropertyKey × WireValue)}
    (proper : Proper (.array items others)) : ProperItems items := by
  cases proper with
  | array items => exact items
  | scalar noArray => exact absurd rfl (noArray _ _)

theorem Proper.props {props : List (JsString × WireValue)} {others : List (PropertyKey × WireValue)}
    (proper : Proper (.record props others)) :
    ProperProps props ∧ (props.map Prod.fst).Nodup := by
  cases proper with
  | record props distinct => exact ⟨props, distinct⟩
  | scalar _ noRecord => exact absurd rfl (noRecord _ _)

theorem bigintOf_intText (n : ℤ) : bigintOf (intText n) = some n := by
  have only := digits_natText n.natAbs
  have valid := isDigits_of_digits only (natText_ne_nil n.natAbs)
  unfold intText
  split_ifs with negative
  · have signed : encode "-" ++ natText n.natAbs = 45 :: natText n.natAbs := by
      simp [encode, encodeChar]
    rw [signed]
    change (if isDigits (natText n.natAbs) = true then some (-(digitsValue (natText n.natAbs) : ℤ))
      else none) = some n
    rw [if_pos valid, digitsValue_natText]
    congr 1
    omega
  · unfold bigintOf
    split
    · rename_i digits text
      exact absurd (only 45 (by simp [text])) (by decide)
    · rw [if_pos valid, digitsValue_natText]
      congr 1
      omega

/-- An object that is neither tag is decoded property by property. -/
theorem decodeWire_object {props : List (JsString × JsonValue)} {out : List (JsString × WireValue)}
    (plain : bigintTag ∉ props.map Prod.fst) (unescaped : escapeTag ∉ props.map Prod.fst)
    (decoded : decodeProps props = .ok out) : decodeWire (.object props) = .ok (.record out []) := by
  rw [decodeWire]
  match props, plain, unescaped, decoded with
  | [], _, _, decoded =>
    rw [decodeProps] at decoded
    cases decoded
    rw [decodeObject]
  | [(key, v)], plain, unescaped, decoded =>
    rw [decodeProps] at decoded
    obtain ⟨w, value, decoded⟩ := bind_ok decoded
    cases decoded
    rw [decodeObject, if_neg, if_neg, value]
    · rfl
    · rintro rfl
      simp at unescaped
    · rintro rfl
      simp at plain
  | (key, v) :: (next, w) :: rest, _, _, decoded =>
    rw [decodeProps] at decoded
    obtain ⟨first, value, decoded⟩ := bind_ok decoded
    obtain ⟨more, others, decoded⟩ := bind_ok decoded
    cases decoded
    rw [decodeProps] at others
    obtain ⟨second, value', others⟩ := bind_ok others
    obtain ⟨last, others', same⟩ := bind_ok others
    cases same
    rw [decodeObject, value, value', others']
    rfl

theorem encodeProps_names {props : List (JsString × WireValue)} {out : List (JsString × JsonValue)}
    (encoded : encodeProps props = .ok out) : out.map Prod.fst = props.map Prod.fst := by
  induction props generalizing out with
  | nil =>
    rw [encodeProps] at encoded
    cases encoded
    rfl
  | cons p rest ih =>
    obtain ⟨key, v⟩ := p
    rw [encodeProps] at encoded
    obtain ⟨w, -, encoded⟩ := bind_ok encoded
    obtain ⟨more, others, encoded⟩ := bind_ok encoded
    cases encoded
    rw [List.map_cons, List.map_cons, ih others]

/-- An encoding, by what is encoded. -/
theorem encodeWire_array {items : List (Option WireValue)} {others : List (PropertyKey × WireValue)}
    {w : JsonValue} (encoded : encodeWire (.array items others) = .ok w) :
    firstHole items = none ∧ ∃ out, encodeItems items = .ok out ∧ w = .array out := by
  rw [encodeWire] at encoded
  cases hole : firstHole items with
  | some i =>
    rw [hole] at encoded
    cases encoded
  | none =>
    rw [hole] at encoded
    obtain ⟨out, items, encoded⟩ := bind_ok encoded
    cases encoded
    exact ⟨rfl, out, items, rfl⟩

theorem encodeWire_record {props : List (JsString × WireValue)} {others : List (PropertyKey × WireValue)}
    {w : JsonValue} (encoded : encodeWire (.record props others) = .ok w) :
    ∃ out, encodeProps props = .ok out ∧
      (w = .object [(escapeTag, .object out)] ∧
          (hasOwn props others bigintTag || hasOwn props others escapeTag) = true ∨
        w = .object out ∧ bigintTag ∉ props.map Prod.fst ∧ escapeTag ∉ props.map Prod.fst) := by
  have absent : ∀ name, hasOwn props others name = false → name ∉ props.map Prod.fst := by
    intro name unowned member
    obtain ⟨p, held, rfl⟩ := List.mem_map.mp member
    rw [hasOwn, Bool.or_eq_false_iff, List.any_eq_false] at unowned
    exact unowned.1 p held (decide_eq_true rfl)
  rw [encodeWire] at encoded
  obtain ⟨out, props, encoded⟩ := bind_ok encoded
  split_ifs at encoded with tagged
  · cases encoded
    exact ⟨out, props, .inl ⟨rfl, tagged⟩⟩
  · cases encoded
    rw [Bool.not_eq_true, Bool.or_eq_false_iff] at tagged
    exact ⟨out, props, .inr ⟨rfl, absent _ tagged.1, absent _ tagged.2⟩⟩

theorem items_of_firstHole {items : List (Option WireValue)} (full : firstHole items = none) :
    none ∉ items := by
  intro member
  have := List.findIdx?_eq_none_iff.mp full none member
  cases this

mutual
/-- What the codec accepts reaches the host as all that is visible of it. -/
theorem decode_encode : {v : WireValue} → Proper v → {w : JsonValue} → encodeWire v = .ok w →
    w.Faithful ∧ decodeWire w = .ok v.visible ∧ Accepted v
  | .null, _, _, rfl => ⟨.null, rfl, .null⟩
  | .boolean b, _, _, rfl => ⟨.boolean b, rfl, .boolean b⟩
  | .string s, _, _, rfl => ⟨.string s, rfl, .string s⟩
  | .number n, _, w, encoded => by
    cases n with
    | fin d =>
      cases encoded
      exact ⟨.number d, rfl, .number d⟩
    | _ => cases encoded
  | .bigint n, _, w, encoded => by
    cases encoded
    refine ⟨.object (.cons (.string _) .nil) (List.nodup_singleton _), ?_, .bigint n⟩
    rw [decodeWire, decodeObject, if_pos rfl, decodeBigint, bigintOf_intText]
    rfl
  | .array items others, proper, w, encoded => by
    obtain ⟨full, out, each, rfl⟩ := encodeWire_array encoded
    obtain ⟨faithful, decoded, accepted⟩ :=
      decode_encodeItems proper.items (items_of_firstHole full) each
    refine ⟨.array faithful, ?_, .array accepted⟩
    rw [decodeWire, decoded]
    rfl
  | .record props others, proper, w, encoded => by
    obtain ⟨out, each, shape⟩ := encodeWire_record encoded
    obtain ⟨faithful, decoded, accepted⟩ := decode_encodeProps proper.props.1 each
    have names := encodeProps_names each
    have object : JsonValue.Faithful (.object out) := .object faithful (names ▸ proper.props.2)
    rcases shape with ⟨rfl, -⟩ | ⟨rfl, plain, unescaped⟩
    · refine ⟨.object (.cons object .nil) (List.nodup_singleton _), ?_, .record accepted⟩
      rw [decodeWire, decodeObject, if_neg (by decide), if_pos rfl, decodeEscaped, decoded]
      rfl
    · rw [← names] at plain unescaped
      exact ⟨object, decodeWire_object plain unescaped decoded, .record accepted⟩
  | .undefined, _, _, encoded => by cases encoded
  | .negZero, _, _, encoded => by cases encoded
  | .symbol, _, _, encoded => by cases encoded
  | .function, _, _, encoded => by cases encoded
  | .exotic tag, _, _, encoded => by cases encoded
  | .enclosing levels, _, _, encoded => by cases encoded

theorem decode_encodeItems : {items : List (Option WireValue)} → ProperItems items → none ∉ items →
    {out : List JsonValue} → encodeItems items = .ok out →
    JsonValue.FaithfulItems out ∧ decodeItems out = .ok (visibleItems items) ∧ AcceptedItems items
  | [], _, _, _, rfl => ⟨.nil, rfl, .nil⟩
  | none :: rest, _, full, _, _ => absurd (List.mem_cons_self ..) full
  | some item :: rest, .cons proper others, full, out, encoded => by
    rw [encodeItems] at encoded
    obtain ⟨w, first, encoded⟩ := bind_ok encoded
    obtain ⟨more, following, encoded⟩ := bind_ok encoded
    cases encoded
    obtain ⟨faithful, decoded, accepted⟩ := decode_encode proper first
    obtain ⟨faithful', decoded', accepted'⟩ :=
      decode_encodeItems others (fun member => full (List.mem_cons_of_mem _ member)) following
    refine ⟨.cons faithful faithful', ?_, .cons accepted accepted'⟩
    rw [decodeItems, decoded, decoded']
    rfl

theorem decode_encodeProps : {props : List (JsString × WireValue)} → ProperProps props →
    {out : List (JsString × JsonValue)} → encodeProps props = .ok out →
    JsonValue.FaithfulProps out ∧ decodeProps out = .ok (visibleProps props) ∧ AcceptedProps props
  | [], _, _, rfl => ⟨.nil, rfl, .nil⟩
  | (key, v) :: rest, .cons proper others, out, encoded => by
    rw [encodeProps] at encoded
    obtain ⟨w, first, encoded⟩ := bind_ok encoded
    obtain ⟨more, following, encoded⟩ := bind_ok encoded
    cases encoded
    obtain ⟨faithful, decoded, accepted⟩ := decode_encode proper first
    obtain ⟨faithful', decoded', accepted'⟩ := decode_encodeProps others following
    refine ⟨.cons faithful faithful', ?_, .cons accepted accepted'⟩
    rw [decodeProps, decoded, decoded']
    rfl
end

mutual
/-- The codec accepts every value whose visible parts are of the kinds it knows. -/
theorem encodeWire_accepted : {v : WireValue} → Accepted v → ∃ w, encodeWire v = .ok w
  | _, .null => ⟨_, rfl⟩
  | _, .boolean _ => ⟨_, rfl⟩
  | _, .number _ => ⟨_, rfl⟩
  | _, .bigint _ => ⟨_, rfl⟩
  | _, .string _ => ⟨_, rfl⟩
  | _, .array accepted => by
    obtain ⟨out, encoded, full⟩ := encodeItems_accepted accepted
    refine ⟨.array out, ?_⟩
    rw [encodeWire, full, encoded]
    rfl
  | _, @Accepted.record props others accepted => by
    obtain ⟨out, encoded⟩ := encodeProps_accepted accepted
    rw [encodeWire, encoded]
    by_cases tagged : (hasOwn props others bigintTag || hasOwn props others escapeTag) = true
    · exact ⟨_, if_pos tagged⟩
    · exact ⟨_, if_neg tagged⟩

theorem encodeItems_accepted : {items : List (Option WireValue)} → AcceptedItems items →
    ∃ out, encodeItems items = .ok out ∧ firstHole items = none
  | _, .nil => ⟨[], rfl, rfl⟩
  | _, .cons accepted others => by
    obtain ⟨w, first⟩ := encodeWire_accepted accepted
    obtain ⟨more, following, full⟩ := encodeItems_accepted others
    refine ⟨w :: more, ?_, ?_⟩
    · rw [encodeItems, first, following]
      rfl
    · rw [firstHole] at full ⊢
      simpa [List.findIdx?_cons] using full

theorem encodeProps_accepted : {props : List (JsString × WireValue)} → AcceptedProps props →
    ∃ out, encodeProps props = .ok out
  | _, .nil => ⟨[], rfl⟩
  | _, @AcceptedProps.cons _ _ key accepted others => by
    obtain ⟨w, first⟩ := encodeWire_accepted accepted
    obtain ⟨more, following⟩ := encodeProps_accepted others
    refine ⟨(key, w) :: more, ?_⟩
    rw [encodeProps, first, following]
    rfl
end

/-- What becomes of a value at the host: it is refused, or it arrives. -/
def Carried (v : WireValue) : Prop :=
  ∀ w, encodeWire v = .ok w → (JsonValue.parse w.stringify).map decodeWire = some (.ok v)

/-- Of an accepted value all that is visible arrives, so that the value itself arrives exactly if
nothing of it is out of sight: no named property of an array, and no property of an object that
`Object.keys` passes over. Every other value is refused. -/
theorem carried_iff (v : WireValue) (proper : Proper v) :
    Carried v ↔ v.visible = v ∨ ¬Accepted v := by
  constructor
  · intro carried
    by_contra lost
    rw [not_or, not_not] at lost
    obtain ⟨w, encoded⟩ := encodeWire_accepted lost.2
    obtain ⟨faithful, decoded, -⟩ := decode_encode proper encoded
    have arrived := carried w encoded
    rw [JsonValue.parse_stringify faithful, Option.map_some, decoded] at arrived
    exact lost.1 (Except.ok.inj (Option.some.inj arrived))
  · intro faithful w encoded
    obtain ⟨held, decoded, accepted⟩ := decode_encode proper encoded
    rcases faithful with whole | refused
    · rw [JsonValue.parse_stringify held, Option.map_some, decoded, whole]
    · exact absurd accepted refused

/-- Typed data with an amount, and an object that looks like the codec's own tag around it. -/
def typedData : WireValue :=
  .record [("value", .bigint (-250)), (bigintTag, .array [some .null, some (.string "7")] [])] []

theorem typedData_proper : Proper typedData := by
  have scalar : ∀ {v}, (∀ items others, v ≠ .array items others) →
      (∀ props others, v ≠ .record props others) → Proper v := .scalar
  refine .record (.cons (scalar (by nofun) (by nofun)) (.cons (.array (.cons (scalar (by nofun) (by nofun))
    (.cons (scalar (by nofun) (by nofun)) .nil))) .nil)) ?_
  decide

theorem typedData_carried : Proper typedData ∧ Carried typedData :=
  ⟨typedData_proper, (carried_iff typedData typedData_proper).mpr (.inl rfl)⟩

/-- An empty list that carries a note. -/
def notedList : WireValue := .array [] [(.name "note", .string "for another")]

/-- The note is lost on the way, and nothing is refused. -/
theorem note_lost : Proper notedList ∧ ¬Carried notedList := by
  have proper : Proper notedList := .array .nil
  refine ⟨proper, fun carried => ?_⟩
  have encoded : encodeWire notedList = .ok (.array []) := rfl
  obtain ⟨faithful, decoded, -⟩ := decode_encode proper encoded
  have arrived := carried _ encoded
  rw [JsonValue.parse_stringify faithful, Option.map_some, decoded] at arrived
  exact absurd (Except.ok.inj (Option.some.inj arrived)) nofun

end Vaduno.Cloudflare
