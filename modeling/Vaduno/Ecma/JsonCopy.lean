import Vaduno.Ecma.JsonFile

/-! A copy of a value through its JSON: `JSON.parse(JSON.stringify(v))`. It differs from the value in the numbers
that JSON cannot hold, and is its own copy. -/
namespace Vaduno.Ecma
namespace JsonValue

mutual
/-- What is left of a value in its JSON. -/
def plain : JsonValue → JsonValue
  | number n => if n.isFinite then number n else null
  | negZero => number 0
  | array items => array (plainItems items)
  | object props => object (plainProps props)
  | v => v

def plainItems : List JsonValue → List JsonValue
  | [] => []
  | item :: rest => plain item :: plainItems rest

def plainProps : List (JsString × JsonValue) → List (JsString × JsonValue)
  | [] => []
  | (key, v) :: rest => (key, plain v) :: plainProps rest
end

mutual
/-- Every object in the value has distinct names, as objects have. -/
def Distinct : JsonValue → Prop
  | array items => DistinctItems items
  | object props => (props.map Prod.fst).Nodup ∧ DistinctProps props
  | _ => True

def DistinctItems : List JsonValue → Prop
  | [] => True
  | item :: rest => Distinct item ∧ DistinctItems rest

def DistinctProps : List (JsString × JsonValue) → Prop
  | [] => True
  | (_, v) :: rest => Distinct v ∧ DistinctProps rest
end

mutual
/-- How deep arrays and objects are nested in a value. -/
def nesting : JsonValue → ℕ
  | array items => nestingItems items + 1
  | object props => nestingProps props + 1
  | _ => 0

def nestingItems : List JsonValue → ℕ
  | [] => 0
  | item :: rest => max (nesting item) (nestingItems rest)

def nestingProps : List (JsString × JsonValue) → ℕ
  | [] => 0
  | (_, v) :: rest => max (nesting v) (nestingProps rest)
end

theorem zero_fin : (0 : Number) = .fin ⟨((0 : ℤ) : ℚ), Binary64.representable_intCast (by decide)⟩ :=
  Number.intCast_def (by decide)

theorem isFinite_fin {n : Number} (finite : n.isFinite = true) : ∃ d, n = .fin d := by
  cases n with
  | fin d => exact ⟨d, rfl⟩
  | _ => cases finite

mutual
theorem stringify_plain : (v : JsonValue) → (plain v).stringify = v.stringify
  | null | boolean _ | string _ => rfl
  | number n => by
    unfold plain
    split_ifs with finite
    · rfl
    · simp [stringify, finite]
  | negZero => by
    have text : (0 : Number).toText = encode "0" := by decide +kernel
    rw [plain, stringify, text, zero_fin]
    rfl
  | array items => by rw [plain, stringify, stringify, itemTexts_plain items]
  | object props => by rw [plain, stringify, stringify, propTexts_plain props]

theorem itemTexts_plain : (items : List JsonValue) → itemTexts (plainItems items) = itemTexts items
  | [] => rfl
  | item :: rest => by rw [plainItems, itemTexts, itemTexts, stringify_plain item, itemTexts_plain rest]

theorem propTexts_plain : (props : List (JsString × JsonValue)) → propTexts (plainProps props) = propTexts props
  | [] => rfl
  | (key, v) :: rest => by rw [plainProps, propTexts, propTexts, stringify_plain v, propTexts_plain rest]
end

theorem plainProps_names (props : List (JsString × JsonValue)) :
    (plainProps props).map Prod.fst = props.map Prod.fst := by
  induction props with
  | nil => rfl
  | cons head rest ih => rw [plainProps, List.map_cons, List.map_cons, ih]

theorem plainProps_length (props : List (JsString × JsonValue)) : (plainProps props).length = props.length := by
  have same := congrArg List.length (plainProps_names props)
  rwa [List.length_map, List.length_map] at same

mutual
theorem plain_faithful : (v : JsonValue) → v.Distinct → (plain v).Faithful
  | null, _ => .null
  | boolean b, _ => .boolean b
  | string s, _ => .string s
  | number n, _ => by
    unfold plain
    split_ifs with finite
    · obtain ⟨d, rfl⟩ := isFinite_fin finite
      exact .number d
    · exact .null
  | negZero, _ => by
    rw [plain, zero_fin]
    exact .number _
  | array items, distinct => .array (plainItems_faithful items distinct)
  | object props, distinct =>
    .object (plainProps_faithful props distinct.2) (by rw [plainProps_names]; exact distinct.1)

theorem plainItems_faithful : (items : List JsonValue) → DistinctItems items → FaithfulItems (plainItems items)
  | [], _ => .nil
  | item :: rest, distinct => .cons (plain_faithful item distinct.1) (plainItems_faithful rest distinct.2)

theorem plainProps_faithful : (props : List (JsString × JsonValue)) → DistinctProps props →
    FaithfulProps (plainProps props)
  | [], _ => .nil
  | (_, v) :: rest, distinct => .cons (plain_faithful v distinct.1) (plainProps_faithful rest distinct.2)
end

mutual
theorem nesting_plain : (v : JsonValue) → (plain v).nesting = v.nesting
  | null | boolean _ | string _ | negZero => rfl
  | number n => by
    unfold plain
    split_ifs <;> rfl
  | array items => by rw [plain, nesting, nesting, nestingItems_plain items]
  | object props => by rw [plain, nesting, nesting, nestingProps_plain props]

theorem nestingItems_plain : (items : List JsonValue) → nestingItems (plainItems items) = nestingItems items
  | [] => rfl
  | item :: rest => by rw [plainItems, nestingItems, nestingItems, nesting_plain item, nestingItems_plain rest]

theorem nestingProps_plain : (props : List (JsString × JsonValue)) →
    nestingProps (plainProps props) = nestingProps props
  | [] => rfl
  | (_, v) :: rest => by rw [plainProps, nestingProps, nestingProps, nesting_plain v, nestingProps_plain rest]
end

/-- The copy of a value is what is left of it in its JSON. -/
theorem parse_stringify_plain {v : JsonValue} (distinct : v.Distinct) : parse v.stringify = some v.plain := by
  rw [← stringify_plain, parse_stringify (plain_faithful v distinct)]

/-! ### Copies on a stack of some depth -/

/-- `JSON.stringify(v)`, or `none` where it throws because the stack does not suffice. -/
def stringifyWithin (stack : ℕ) (v : JsonValue) : Option JsString :=
  if v.nesting ≤ stack then some v.stringify else none

/-- `JSON.parse(JSON.stringify(v))`, or `none` where it throws. -/
def copyWithin (stack : ℕ) (v : JsonValue) : Option JsonValue := (stringifyWithin stack v).bind parse

/-- A value that is its own copy. -/
structure Stable (stack : ℕ) (v : JsonValue) : Prop where
  faithful : v.Faithful
  shallow : v.nesting ≤ stack

variable {stack : ℕ} {v w : JsonValue}

theorem stringifyWithin_plain {s : JsString} (distinct : v.Distinct) (written : stringifyWithin stack v = some s) :
    parse s = some v.plain ∧ Stable stack v.plain ∧ v.plain.stringify = s := by
  unfold stringifyWithin at written
  split_ifs at written with shallow
  cases written
  exact ⟨parse_stringify_plain distinct, ⟨plain_faithful v distinct, (nesting_plain v).le.trans shallow⟩,
    stringify_plain v⟩

theorem Stable.stringifyWithin (stable : Stable stack v) : v.stringifyWithin stack = some v.stringify :=
  if_pos stable.shallow

theorem copyWithin_some (distinct : v.Distinct) (copied : copyWithin stack v = some w) :
    w = v.plain ∧ Stable stack w := by
  obtain ⟨s, written, read⟩ := Option.bind_eq_some_iff.mp copied
  obtain ⟨plain, stable, -⟩ := stringifyWithin_plain distinct written
  obtain rfl := Option.some.inj (read.symm.trans plain)
  exact ⟨rfl, stable⟩

theorem Stable.copyWithin (stable : Stable stack v) : v.copyWithin stack = some v := by
  rw [JsonValue.copyWithin, stable.stringifyWithin]
  exact parse_stringify stable.faithful

theorem distinct_get {name : JsString} {v w : JsonValue} (distinct : v.Distinct) (got : v.get name = some w) :
    w.Distinct := by
  cases v with
  | object props =>
    obtain ⟨p, found, rfl⟩ := Option.map_eq_some_iff.mp got
    have each : ∀ {props : List (JsString × JsonValue)}, DistinctProps props → ∀ p ∈ props, p.2.Distinct := by
      intro props all
      induction props with
      | nil => exact fun p listed => absurd listed List.not_mem_nil
      | cons head rest ih => exact List.forall_mem_cons.mpr ⟨all.1, ih all.2⟩
    exact each distinct.2 p (List.mem_of_find?_eq_some found)
  | _ => cases got

theorem distinct_mem {items : List JsonValue} (distinct : (array items).Distinct) : ∀ item ∈ items, item.Distinct := by
  have each : ∀ {items : List JsonValue}, DistinctItems items → ∀ item ∈ items, item.Distinct := by
    intro items all
    induction items with
    | nil => exact fun item listed => absurd listed List.not_mem_nil
    | cons head rest ih => exact List.forall_mem_cons.mpr ⟨all.1, ih all.2⟩
  exact each distinct

end JsonValue
end Vaduno.Ecma
