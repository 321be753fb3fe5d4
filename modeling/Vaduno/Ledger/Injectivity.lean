import Vaduno.Ledger.Canonical
import Vaduno.Sample

/-! Which values canonical JSON tells apart. A JavaScript array may carry named properties beside its
items; it is read at its indices alone, and so these are what the text does not commit to. -/
namespace Vaduno.Ledger
open Ecma

/-- A value, where arrays have their named properties too. -/
inductive Value
  | undefined
  | null
  | boolean (b : Bool)
  | number (n : Number)
  | bigint (n : ℤ)
  | string (s : JsString)
  | symbol
  | array (items : List Value) (named : List (JsString × Value))
  | object (props : List (JsString × Value))
  | foreign (instanceOf : Option JsString) (text : Conversion) (json : Option (Option JsString))

namespace Value

mutual
/-- What the serializer reads: of an array, the items up to its length. -/
def read : Value → JsValue
  | undefined => .undefined
  | null => .null
  | boolean b => .boolean b
  | number n => .number n
  | bigint n => .bigint n
  | string s => .string s
  | symbol => .symbol
  | array items _ => .array (readItems items)
  | object props => .object (readProps props)
  | foreign instanceOf text json => .foreign instanceOf text json

def readItems : List Value → List JsValue
  | [] => []
  | item :: rest => item.read :: readItems rest

def readProps : List (JsString × Value) → List (JsString × JsValue)
  | [] => []
  | (key, v) :: rest => (key, v.read) :: readProps rest
end

def propertyLe (a b : JsString × Value) : Bool := !decide (b.1 < a.1)

mutual
/-- The value with properties in key order and undefined ones left out. -/
def ordered : Value → Value
  | array items named => array (orderedItems items) ((orderedProps named).insertionSort (propertyLe · ·))
  | object props => object ((orderedProps props).insertionSort (propertyLe · ·))
  | v => v

def orderedItems : List Value → List Value
  | [] => []
  | item :: rest => item.ordered :: orderedItems rest

def orderedProps : List (JsString × Value) → List (JsString × Value)
  | [] => []
  | (_, undefined) :: rest => orderedProps rest
  | (key, v) :: rest => (key, v.ordered) :: orderedProps rest
end

/-- Equal up to the order of keys and to undefined properties. -/
def Same (v w : Value) : Prop := v.ordered = w.ordered

mutual
/-- The value without the named properties of its arrays. -/
def bare : Value → Value
  | array items _ => array (bareItems items) []
  | object props => object (bareProps props)
  | v => v

def bareItems : List Value → List Value
  | [] => []
  | item :: rest => item.bare :: bareItems rest

def bareProps : List (JsString × Value) → List (JsString × Value)
  | [] => []
  | (key, v) :: rest => (key, v.bare) :: bareProps rest
end

/-! ### Values of JSON -/

mutual
def ofJson : JsonValue → Value
  | .null => null
  | .boolean b => boolean b
  | .number n => number n
  | .negZero => number 0
  | .string s => string s
  | .array items => array (ofJsonItems items) []
  | .object props => object (ofJsonProps props)

def ofJsonItems : List JsonValue → List Value
  | [] => []
  | item :: rest => ofJson item :: ofJsonItems rest

def ofJsonProps : List (JsString × JsonValue) → List (JsString × Value)
  | [] => []
  | (key, v) :: rest => (key, ofJson v) :: ofJsonProps rest
end

mutual
def toJson : Value → JsonValue
  | boolean b => .boolean b
  | number n => .number n
  | string s => .string s
  | array items _ => .array (toJsonItems items)
  | object props => .object (toJsonProps props)
  | _ => .null

def toJsonItems : List Value → List JsonValue
  | [] => []
  | item :: rest => item.toJson :: toJsonItems rest

def toJsonProps : List (JsString × Value) → List (JsString × JsonValue)
  | [] => []
  | (key, v) :: rest => (key, v.toJson) :: toJsonProps rest
end

mutual
theorem toJson_ofJson : {j : JsonValue} → j.Faithful → (ofJson j).toJson = j
  | _, .null => rfl
  | _, .boolean _ => rfl
  | _, .number _ => rfl
  | _, .string _ => rfl
  | _, .array items => by rw [ofJson, toJson, toJsonItems_ofJsonItems items]
  | _, .object values _ => by rw [ofJson, toJson, toJsonProps_ofJsonProps values]

theorem toJsonItems_ofJsonItems : {items : List JsonValue} → JsonValue.FaithfulItems items →
    toJsonItems (ofJsonItems items) = items
  | _, .nil => rfl
  | _, .cons item rest => by rw [ofJsonItems, toJsonItems, toJson_ofJson item, toJsonItems_ofJsonItems rest]

theorem toJsonProps_ofJsonProps : {props : List (JsString × JsonValue)} → JsonValue.FaithfulProps props →
    toJsonProps (ofJsonProps props) = props
  | _, .nil => rfl
  | _, .cons value rest => by rw [ofJsonProps, toJsonProps, toJson_ofJson value, toJsonProps_ofJsonProps rest]
end

theorem ofJson_inj {j k : JsonValue} (left : j.Faithful) (right : k.Faithful) : ofJson j = ofJson k ↔ j = k := by
  constructor
  · intro same
    rw [← toJson_ofJson left, same, toJson_ofJson right]
  · rintro rfl
    rfl

theorem ofJsonProps_eq_map (members : List (JsString × JsonValue)) :
    ofJsonProps members = members.map fun m => (m.1, ofJson m.2) := by
  induction members with
  | nil => rfl
  | cons m rest ih => rw [ofJsonProps, ih, List.map_cons]

theorem ofJsonProps_sorted (members : List (JsString × JsonValue)) :
    ofJsonProps (members.insertionSort (memberLe · ·)) =
      (ofJsonProps members).insertionSort (propertyLe · ·) := by
  rw [ofJsonProps_eq_map, ofJsonProps_eq_map]
  exact List.map_insertionSort _ _ _ _ fun a _ b _ => Iff.rfl

mutual
/-- The JSON value that a value stands for is the value without what the serializer passes over. -/
theorem ordered_bare : (v : Value) → {j : JsonValue} → canonical v.read = some j → v.bare.ordered = ofJson j
  | null, j, stands => by
    cases stands
    rfl
  | boolean b, j, stands => by
    cases stands
    rfl
  | number n, j, stands => by
    rw [read, canonical] at stands
    split_ifs at stands
    cases stands
    rfl
  | string s, j, stands => by
    cases stands
    rfl
  | array items named, j, stands => by
    rw [read, canonical] at stands
    cases inner : canonicalItems (readItems items) with
    | none =>
      rw [inner] at stands
      cases stands
    | some js =>
      rw [inner] at stands
      cases stands
      rw [bare, ordered, orderedItems_bareItems items inner, ofJson]
      rfl
  | object props, j, stands => by
    rw [read, canonical] at stands
    cases inner : canonicalProps (readProps props) with
    | none =>
      rw [inner] at stands
      cases stands
    | some members =>
      rw [inner] at stands
      cases stands
      rw [bare, ordered, orderedProps_bareProps props inner, ofJson, ofJsonProps_sorted]
  | undefined, _, stands => nomatch stands
  | bigint _, _, stands => nomatch stands
  | symbol, _, stands => nomatch stands
  | foreign .., _, stands => nomatch stands

theorem orderedItems_bareItems : (items : List Value) → {js : List JsonValue} →
    canonicalItems (readItems items) = some js → orderedItems (bareItems items) = ofJsonItems js
  | [], js, stands => by
    cases stands
    rfl
  | item :: rest, js, stands => by
    rw [readItems, canonicalItems] at stands
    cases first : canonical item.read with
    | none =>
      rw [first] at stands
      cases stands
    | some j =>
      cases others : canonicalItems (readItems rest) with
      | none =>
        rw [first, others] at stands
        cases stands
      | some more =>
        rw [first, others] at stands
        cases stands
        rw [bareItems, orderedItems, ordered_bare item first, orderedItems_bareItems rest others, ofJsonItems]

theorem orderedProps_bareProps : (props : List (JsString × Value)) → {members : List (JsString × JsonValue)} →
    canonicalProps (readProps props) = some members → orderedProps (bareProps props) = ofJsonProps members
  | [], members, stands => by
    cases stands
    rfl
  | (key, v) :: rest, members, stands => by
    by_cases absent : v = .undefined
    · subst absent
      exact orderedProps_bareProps rest stands
    · have own : canonicalProps (readProps ((key, v) :: rest)) =
          (do return (key, ← canonical v.read) :: (← canonicalProps (readProps rest))) := by
        cases v with
        | undefined => exact absurd rfl absent
        | _ => rw [readProps, canonicalProps]; nofun
      have own' : orderedProps (bareProps ((key, v) :: rest)) =
          (key, v.bare.ordered) :: orderedProps (bareProps rest) := by
        cases v with
        | undefined => exact absurd rfl absent
        | _ => rw [bareProps, orderedProps]; nofun
      rw [own] at stands
      cases first : canonical v.read with
      | none =>
        rw [first] at stands
        cases stands
      | some j =>
        cases others : canonicalProps (readProps rest) with
        | none =>
          rw [first, others] at stands
          cases stands
        | some more =>
          rw [first, others] at stands
          cases stands
          rw [own', ordered_bare v first, orderedProps_bareProps rest others, ofJsonProps]
end

theorem bareProps_eq_map (props : List (JsString × Value)) :
    bareProps props = props.map fun p => (p.1, p.2.bare) := by
  induction props with
  | nil => rfl
  | cons p rest ih => rw [bareProps, ih, List.map_cons]

theorem bareProps_sorted (props : List (JsString × Value)) :
    bareProps (props.insertionSort (propertyLe · ·)) = (bareProps props).insertionSort (propertyLe · ·) := by
  rw [bareProps_eq_map, bareProps_eq_map]
  exact List.map_insertionSort _ _ _ _ fun a _ b _ => Iff.rfl

mutual
theorem bare_ordered : (v : Value) → v.ordered.bare = v.bare.ordered
  | undefined | null | boolean _ | number _ | bigint _ | string _ | symbol | foreign .. => rfl
  | array items named => by rw [ordered, bare, bare, ordered, bareItems_ordered items]; rfl
  | object props => by rw [ordered, bare, bare, ordered, bareProps_sorted, bareProps_ordered props]

theorem bareItems_ordered : (items : List Value) → bareItems (orderedItems items) = orderedItems (bareItems items)
  | [] => rfl
  | item :: rest => by
    rw [orderedItems, bareItems, bareItems, orderedItems, bare_ordered item, bareItems_ordered rest]

theorem bareProps_ordered : (props : List (JsString × Value)) →
    bareProps (orderedProps props) = orderedProps (bareProps props)
  | [] => rfl
  | (key, v) :: rest => by
    have others := bareProps_ordered rest
    cases v with
    | undefined => exact others
    | _ =>
      rw [orderedProps, bareProps, bareProps, orderedProps, others]
      · exact congrArg (fun x => (key, x) :: _) (bare_ordered _)
      · nofun
      · nofun
end

/-- Values that are the same are so without the named properties of their arrays. -/
theorem Same.bare {v w : Value} (same : v.Same w) : v.bare.Same w.bare := by
  rw [Same, ← bare_ordered, ← bare_ordered, same]

/-- `canonicalJson` of a value. -/
def canonicalJson (v : Value) : Throwing JsString := Ledger.canonicalJson v.read

end Value

/-- A value whose objects have distinct keys, as objects have. -/
structure PlainValue where
  value : Value
  distinct : Proper value.read

/-- The texts of two values are equal exactly where the values are, and so are the digests that are
made of them under a domain. -/
def Separated (platform : Platform) (v w : Value) (s t : JsString) : Prop :=
  (s = t ↔ v.Same w) ∧ ∀ domain, isWellFormed domain = true →
    (platform.sha256Hex (domain ++ s) = platform.sha256Hex (domain ++ t) ↔ v.Same w)

section
variable {v w : PlainValue} (left : v.value.canonicalJson = .ok s) (right : w.value.canonicalJson = .ok t)
include left right

/-- Texts are equal exactly where the values are that the serializer reads. -/
theorem canonicalJson_eq_iff_bare : s = t ↔ v.value.bare.Same w.value.bare := by
  obtain ⟨j, stands, faithful, -⟩ := canonicalJson_ok left v.distinct
  obtain ⟨k, stands', faithful', -⟩ := canonicalJson_ok right w.distinct
  rw [canonicalJson_eq_iff left right v.distinct w.distinct, stands, stands', Option.some.injEq, Value.Same,
    Value.ordered_bare _ stands, Value.ordered_bare _ stands', Value.ofJson_inj faithful faithful']

theorem hash_eq_iff {platform : Platform} (collisionFree : Enforce.CollisionFree platform) {domain : JsString}
    (wellFormed : isWellFormed domain = true) :
    platform.sha256Hex (domain ++ s) = platform.sha256Hex (domain ++ t) ↔ s = t := by
  have formed := wellFormed_append wellFormed (wellFormed_canonicalJson left v.distinct)
  have formed' := wellFormed_append wellFormed (wellFormed_canonicalJson right w.distinct)
  constructor
  · intro same
    exact List.append_cancel_left (collisionFree _ _ formed formed' same)
  · rintro rfl
    rfl

/-- Values are told apart unless they differ in the named properties of arrays alone. -/
theorem separated_iff_named {platform : Platform} (collisionFree : Enforce.CollisionFree platform) :
    Separated platform v.value w.value s t ↔ (v.value.bare.Same w.value.bare → v.value.Same w.value) := by
  have texts := canonicalJson_eq_iff_bare left right
  have hashes := fun domain (formed : isWellFormed domain = true) => hash_eq_iff left right collisionFree formed
  constructor
  · rintro ⟨apart, -⟩ agree
    exact apart.mp (texts.mpr agree)
  · intro named
    have same : s = t ↔ v.value.Same w.value := texts.trans ⟨named, Value.Same.bare⟩
    exact ⟨same, fun domain formed => (hashes domain formed).trans same⟩

end
namespace Sample

/-- `Object.assign([1], { limit: 5 })`, and the array alone. -/
def limited : PlainValue := ⟨.array [.number 1] [("limit", .number 5)], trivial, trivial⟩
def unlimited : PlainValue := ⟨.array [.number 1] [], trivial, trivial⟩

def withUndefined : PlainValue := ⟨.object [([97], .boolean true), ([98], .undefined)],
  by simp [Value.read, Value.readProps, Proper, ProperProps]⟩
def withoutUndefined : PlainValue := ⟨.object [([97], .boolean true)],
  by simp [Value.read, Value.readProps, Proper, ProperProps]⟩

theorem texts : limited.value.canonicalJson.toOption = some (encode "[1]") ∧
    unlimited.value.canonicalJson.toOption = some (encode "[1]") ∧
    withUndefined.value.canonicalJson.toOption = some (encode "\x7b\"a\":true\x7d") ∧
    withoutUndefined.value.canonicalJson.toOption = some (encode "\x7b\"a\":true\x7d") := by
  decide +kernel

/-- The named property of an array is in no text. -/
theorem array_property_lost : limited.value.canonicalJson = .ok (encode "[1]") ∧
    unlimited.value.canonicalJson = .ok (encode "[1]") ∧ ¬limited.value.Same unlimited.value := by
  refine ⟨of_toOption texts.1, of_toOption texts.2.1, ?_⟩
  intro same
  have named := congrArg (fun v => match v with | .array _ named => named.length | _ => 0) same
  exact absurd named (by decide)

theorem separated_of_undefined : Separated Vaduno.Sample.platform withUndefined.value withoutUndefined.value
    (encode "\x7b\"a\":true\x7d") (encode "\x7b\"a\":true\x7d") := by
  apply (separated_iff_named (of_toOption texts.2.2.1) (of_toOption texts.2.2.2)
    Vaduno.Sample.platform_collisionFree).mpr
  exact fun _ => rfl

end Sample
end Vaduno.Ledger
