import Vaduno.Ledger.Canonical

/-! What canonical JSON accepts: finite numbers, and nothing but JSON's own types down to the depth
limit. It does not depend on the path that errors name, and it is what plain JSON writes and reads
back. -/
namespace Vaduno.Ledger
open Ecma

mutual
/-- Whether a value at some depth has a text. -/
def accepts (depth : ℕ) : JsValue → Bool
  | .null | .boolean _ | .string _ => depth ≤ canonicalMaxDepth
  | .number n => depth ≤ canonicalMaxDepth && n.isFinite
  | .array items => depth ≤ canonicalMaxDepth && acceptsItems (depth + 1) items
  | .object props => depth ≤ canonicalMaxDepth && acceptsProps (depth + 1) props
  | .undefined | .bigint _ | .symbol | .foreign .. => false

def acceptsItems (depth : ℕ) : List JsValue → Bool
  | [] => true
  | item :: rest => accepts depth item && acceptsItems depth rest

def acceptsProps (depth : ℕ) : List (JsString × JsValue) → Bool
  | [] => true
  | (_, .undefined) :: rest => acceptsProps depth rest
  | (_, v) :: rest => accepts depth v && acceptsProps depth rest
end

theorem acceptsProps_cons {v : JsValue} (present : v ≠ .undefined) :
    acceptsProps depth ((key, v) :: rest) = (accepts depth v && acceptsProps depth rest) := by
  cases v with
  | undefined => exact absurd rfl present
  | _ => rw [acceptsProps]; exact present

theorem serializeProps_cons {v : JsValue} (present : v ≠ .undefined) :
    serializeProps depth path ((key, v) :: rest) =
      (key, some <$> serialize depth (path ++ "." ++ key) v) :: serializeProps depth path rest := by
  cases v with
  | undefined => exact absurd rfl present
  | _ => rw [serializeProps]; exact present

theorem joinMembers_isOk {members : List (JsString × Throwing (Option JsString))}
    (each : ∀ p ∈ members, ∃ text, p.2 = .ok text) : ∃ texts, joinMembers members = .ok texts := by
  induction members with
  | nil => exact ⟨[], rfl⟩
  | cons head rest ih =>
    obtain ⟨key, text⟩ := head
    rw [List.forall_mem_cons] at each
    obtain ⟨⟨text', rfl⟩, later⟩ := each
    obtain ⟨texts, joined⟩ := ih later
    cases text' with
    | none => exact ⟨texts, joined⟩
    | some t =>
      refine ⟨(quote key ++ ":" ++ t) :: texts, ?_⟩
      rw [joinMembers, ok_bind, joined]
      rfl

theorem withinDepth_eq (path : JsString) (text : Throwing JsString) :
    (∃ t, withinDepth depth path text = .ok t) ↔ depth ≤ canonicalMaxDepth ∧ ∃ t, text = .ok t := by
  unfold withinDepth
  split_ifs with deep
  · exact iff_of_false nofun fun both => absurd both.1 (Nat.not_le.mpr deep)
  · exact ⟨fun text => ⟨Nat.not_lt.mp deep, text⟩, And.right⟩

mutual
theorem serialize_iff : (v : JsValue) → (depth : ℕ) → (path : JsString) →
    ((∃ t, serialize depth path v = .ok t) ↔ accepts depth v = true)
  | .null, depth, path => by simp [serialize, withinDepth_eq, accepts]
  | .boolean b, depth, path => by simp [serialize, withinDepth_eq, accepts]
  | .string s, depth, path => by simp [serialize, withinDepth_eq, accepts]
  | .number n, depth, path => by
    rw [serialize, withinDepth_eq, accepts, Bool.and_eq_true, decide_eq_true_eq]
    refine and_congr_right fun _ => ?_
    split_ifs with finite
    · exact iff_of_true ⟨_, rfl⟩ finite
    · exact iff_of_false nofun finite
  | .array items, depth, path => by
    rw [serialize, withinDepth_eq, accepts, Bool.and_eq_true, decide_eq_true_eq,
      ← serializeItems_iff items (depth + 1) path 0]
    refine and_congr_right fun _ => ?_
    cases serializeItems (depth + 1) path 0 items with
    | error e => exact iff_of_false nofun nofun
    | ok texts => exact iff_of_true ⟨_, rfl⟩ ⟨_, rfl⟩
  | .object props, depth, path => by
    rw [serialize, withinDepth_eq, accepts, Bool.and_eq_true, decide_eq_true_eq,
      ← serializeProps_iff props (depth + 1) path]
    refine and_congr_right fun _ => ?_
    have sorted := List.perm_insertionSort (keyLe · ·) (serializeProps (depth + 1) path props)
    cases joined : joinMembers ((serializeProps (depth + 1) path props).insertionSort (keyLe · ·)) with
    | error e =>
      refine iff_of_false nofun fun each => ?_
      obtain ⟨texts, joined'⟩ := joinMembers_isOk fun p member => each p (sorted.subset member)
      cases joined.symm.trans joined'
    | ok texts =>
      exact iff_of_true ⟨_, rfl⟩ fun p member => joinMembers_ok joined p (sorted.mem_iff.mpr member)
  | .undefined, depth, path => by simp [serialize, withinDepth_eq, accepts]
  | .bigint _, depth, path => by simp [serialize, withinDepth_eq, accepts]
  | .symbol, depth, path => by simp [serialize, withinDepth_eq, accepts]
  | .foreign none _ _, depth, path => by simp [serialize, withinDepth_eq, accepts]
  | .foreign (some _) _ _, depth, path => by simp [serialize, withinDepth_eq, accepts]

theorem serializeItems_iff : (items : List JsValue) → (depth : ℕ) → (path : JsString) → (index : ℕ) →
    ((∃ texts, serializeItems depth path index items = .ok texts) ↔ acceptsItems depth items = true)
  | [], depth, path, index => iff_of_true ⟨_, rfl⟩ rfl
  | item :: rest, depth, path, index => by
    rw [acceptsItems, Bool.and_eq_true, ← serialize_iff item depth (path ++ "[" ++ natText index ++ "]"),
      ← serializeItems_iff rest depth path (index + 1), serializeItems]
    cases serialize depth (path ++ "[" ++ natText index ++ "]") item with
    | error e => exact iff_of_false nofun fun both => nomatch both.1
    | ok t =>
      cases serializeItems depth path (index + 1) rest with
      | error e => exact iff_of_false nofun fun both => nomatch both.2
      | ok texts => exact iff_of_true ⟨_, rfl⟩ ⟨⟨_, rfl⟩, _, rfl⟩

theorem serializeProps_iff : (props : List (JsString × JsValue)) → (depth : ℕ) → (path : JsString) →
    ((∀ p ∈ serializeProps depth path props, ∃ text, p.2 = .ok text) ↔ acceptsProps depth props = true)
  | [], depth, path => iff_of_true (List.forall_mem_nil _) rfl
  | (key, v) :: rest, depth, path => by
    have others := serializeProps_iff rest depth path
    by_cases absent : v = .undefined
    · subst absent
      rw [serializeProps, acceptsProps, List.forall_mem_cons, others]
      exact and_iff_right ⟨_, rfl⟩
    · rw [serializeProps_cons absent, acceptsProps_cons absent, List.forall_mem_cons, others,
        Bool.and_eq_true, ← serialize_iff v depth (path ++ "." ++ key)]
      refine and_congr_left fun _ => ?_
      cases serialize depth (path ++ "." ++ key) v with
      | error e => exact iff_of_false nofun nofun
      | ok t => exact iff_of_true ⟨_, rfl⟩ ⟨_, rfl⟩
end

/-- Canonical JSON accepts a value exactly where its numbers, types and depth are those of JSON. -/
theorem canonicalJson_iff (v : JsValue) : (∃ t, canonicalJson v = .ok t) ↔ accepts 0 v = true :=
  serialize_iff v 0 "$"

/-! ### The plain text of an accepted value -/

mutual
/-- The JSON value that plain JSON writes of a value, members in their own order. -/
def plain : JsValue → Option JsonValue
  | .null => some .null
  | .boolean b => some (.boolean b)
  | .number n => if n.isFinite then some (.number n) else none
  | .string s => some (.string s)
  | .array items => .array <$> plainItems items
  | .object props => .object <$> plainProps props
  | .undefined | .bigint _ | .symbol | .foreign .. => none

def plainItems : List JsValue → Option (List JsonValue)
  | [] => some []
  | item :: rest => return (← plain item) :: (← plainItems rest)

def plainProps : List (JsString × JsValue) → Option (List (JsString × JsonValue))
  | [] => some []
  | (_, .undefined) :: rest => plainProps rest
  | (key, v) :: rest => return (key, ← plain v) :: (← plainProps rest)
end

theorem plainProps_cons {v : JsValue} (present : v ≠ .undefined) :
    plainProps ((key, v) :: rest) = (do return (key, ← plain v) :: (← plainProps rest)) := by
  cases v with
  | undefined => exact absurd rfl present
  | _ => rw [plainProps]; exact present

mutual
/-- A value with the members of its objects in key order. -/
def sorted : JsonValue → JsonValue
  | .array items => .array (sortedItems items)
  | .object props => .object ((sortedProps props).insertionSort (memberLe · ·))
  | j => j

def sortedItems : List JsonValue → List JsonValue
  | [] => []
  | item :: rest => sorted item :: sortedItems rest

def sortedProps : List (JsString × JsonValue) → List (JsString × JsonValue)
  | [] => []
  | (key, v) :: rest => (key, sorted v) :: sortedProps rest
end

mutual
/-- A JSON value as `JSON.parse` gives it. -/
def valueOf : JsonValue → JsValue
  | .null => .null
  | .boolean b => .boolean b
  | .number n => .number n
  | .negZero => .number 0
  | .string s => .string s
  | .array items => .array (valueOfItems items)
  | .object props => .object (valueOfProps props)

def valueOfItems : List JsonValue → List JsValue
  | [] => []
  | item :: rest => valueOf item :: valueOfItems rest

def valueOfProps : List (JsString × JsonValue) → List (JsString × JsValue)
  | [] => []
  | (key, v) :: rest => (key, valueOf v) :: valueOfProps rest
end

theorem canonicalProps_cons {v : JsValue} (present : v ≠ .undefined) :
    canonicalProps ((key, v) :: rest) = (do return (key, ← canonical v) :: (← canonicalProps rest)) := by
  cases v with
  | undefined => exact absurd rfl present
  | _ => rw [canonicalProps]; exact present

mutual
/-- What a value stands for is what plain JSON writes of it, with members in key order. -/
theorem canonical_eq_sorted : (v : JsValue) → canonical v = (plain v).map sorted
  | .null | .boolean _ | .string _ | .undefined | .bigint _ | .symbol | .foreign .. => rfl
  | .number n => by
    rw [canonical, plain]
    split_ifs <;> rfl
  | .array items => by
    rw [canonical, plain, canonicalItems_eq_sorted items]
    cases plainItems items <;> rfl
  | .object props => by
    rw [canonical, plain, canonicalProps_eq_sorted props]
    cases plainProps props <;> rfl

theorem canonicalItems_eq_sorted : (items : List JsValue) →
    canonicalItems items = (plainItems items).map sortedItems
  | [] => rfl
  | item :: rest => by
    rw [canonicalItems, plainItems, canonical_eq_sorted item, canonicalItems_eq_sorted rest]
    cases plain item <;> cases plainItems rest <;> rfl

theorem canonicalProps_eq_sorted : (props : List (JsString × JsValue)) →
    canonicalProps props = (plainProps props).map sortedProps
  | [] => rfl
  | (key, v) :: rest => by
    have others := canonicalProps_eq_sorted rest
    by_cases absent : v = .undefined
    · subst absent
      exact others
    · rw [canonicalProps_cons absent, plainProps_cons absent, canonical_eq_sorted v, others]
      cases plain v <;> cases plainProps rest <;> rfl
end

mutual
theorem plain_valueOf : {j : JsonValue} → j.Faithful → plain (valueOf j) = some j
  | _, .null => rfl
  | _, .boolean _ => rfl
  | _, .number _ => rfl
  | _, .string _ => rfl
  | _, .array items => by
    rw [valueOf, plain, plainItems_valueOfItems items]
    rfl
  | _, .object values _ => by
    rw [valueOf, plain, plainProps_valueOfProps values]
    rfl

theorem plainItems_valueOfItems : {items : List JsonValue} → JsonValue.FaithfulItems items →
    plainItems (valueOfItems items) = some items
  | _, .nil => rfl
  | _, .cons item rest => by
    rw [valueOfItems, plainItems, plain_valueOf item, plainItems_valueOfItems rest]
    rfl

theorem plainProps_valueOfProps : {props : List (JsString × JsonValue)} → JsonValue.FaithfulProps props →
    plainProps (valueOfProps props) = some props
  | _, .nil => rfl
  | _, @JsonValue.FaithfulProps.cons v more key value rest => by
    have present : valueOf v ≠ .undefined := by cases v <;> nofun
    rw [valueOfProps, plainProps_cons present, plain_valueOf value, plainProps_valueOfProps rest]
    rfl
end

theorem canonical_valueOf {j : JsonValue} (faithful : j.Faithful) : canonical (valueOf j) = some (sorted j) := by
  rw [canonical_eq_sorted, plain_valueOf faithful]
  rfl

/-! What is written of a value is written of its parts. -/

theorem plain_number : plain (.number n) = some j ↔ n.isFinite = true ∧ j = .number n := by
  rw [plain]
  split_ifs with finite
  · simp [finite, eq_comm]
  · simp [finite]

theorem plain_array : plain (.array items) = some j ↔ ∃ js, plainItems items = some js ∧ .array js = j := by
  rw [plain]
  exact Option.map_eq_some_iff

theorem plain_object : plain (.object props) = some j ↔ ∃ ms, plainProps props = some ms ∧ .object ms = j := by
  rw [plain]
  exact Option.map_eq_some_iff

theorem plainItems_cons : plainItems (item :: rest) = some js ↔
    ∃ j more, plain item = some j ∧ plainItems rest = some more ∧ j :: more = js := by
  rw [plainItems]
  cases plain item <;> cases plainItems rest <;> simp

theorem plainProps_cons_some {v : JsValue} (present : v ≠ .undefined) :
    plainProps ((key, v) :: rest) = some ms ↔
      ∃ j more, plain v = some j ∧ plainProps rest = some more ∧ (key, j) :: more = ms := by
  rw [plainProps_cons present]
  cases plain v <;> cases plainProps rest <;> simp

mutual
theorem plain_of_accepts : (v : JsValue) → {depth : ℕ} → accepts depth v = true → ∃ j, plain v = some j
  | .null, _, _ => ⟨_, rfl⟩
  | .boolean b, _, _ => ⟨_, rfl⟩
  | .string s, _, _ => ⟨_, rfl⟩
  | .number n, depth, accepted => by
    rw [accepts, Bool.and_eq_true] at accepted
    exact ⟨.number n, plain_number.mpr ⟨accepted.2, rfl⟩⟩
  | .array items, depth, accepted => by
    rw [accepts, Bool.and_eq_true] at accepted
    obtain ⟨js, inner⟩ := plainItems_of_accepts items accepted.2
    exact ⟨.array js, plain_array.mpr ⟨js, inner, rfl⟩⟩
  | .object props, depth, accepted => by
    rw [accepts, Bool.and_eq_true] at accepted
    obtain ⟨ms, inner⟩ := plainProps_of_accepts props accepted.2
    exact ⟨.object ms, plain_object.mpr ⟨ms, inner, rfl⟩⟩
  | .undefined, _, accepted => nomatch accepted
  | .bigint _, _, accepted => nomatch accepted
  | .symbol, _, accepted => nomatch accepted
  | .foreign .., _, accepted => nomatch accepted

theorem plainItems_of_accepts : (items : List JsValue) → {depth : ℕ} → acceptsItems depth items = true →
    ∃ js, plainItems items = some js
  | [], _, _ => ⟨_, rfl⟩
  | item :: rest, depth, accepted => by
    rw [acceptsItems, Bool.and_eq_true] at accepted
    obtain ⟨j, first⟩ := plain_of_accepts item accepted.1
    obtain ⟨more, others⟩ := plainItems_of_accepts rest accepted.2
    exact ⟨j :: more, plainItems_cons.mpr ⟨j, more, first, others, rfl⟩⟩

theorem plainProps_of_accepts : (props : List (JsString × JsValue)) → {depth : ℕ} →
    acceptsProps depth props = true → ∃ ms, plainProps props = some ms
  | [], _, _ => ⟨_, rfl⟩
  | (key, v) :: rest, depth, accepted => by
    by_cases absent : v = .undefined
    · subst absent
      exact plainProps_of_accepts rest accepted
    · rw [acceptsProps_cons absent, Bool.and_eq_true] at accepted
      obtain ⟨j, first⟩ := plain_of_accepts v accepted.1
      obtain ⟨more, others⟩ := plainProps_of_accepts rest accepted.2
      exact ⟨(key, j) :: more, (plainProps_cons_some absent).mpr ⟨j, more, first, others, rfl⟩⟩
end

mutual
/-- Plain JSON writes the text of the value. -/
theorem stringify_plain : (v : JsValue) → {j : JsonValue} → plain v = some j →
    v.stringify = .ok (some j.stringify)
  | .null, _, rfl => rfl
  | .boolean b, _, rfl => rfl
  | .number n, _, written => by
    obtain ⟨-, rfl⟩ := plain_number.mp written
    rfl
  | .string s, _, rfl => rfl
  | .array items, j, written => by
    obtain ⟨js, inner, rfl⟩ := plain_array.mp written
    rw [JsValue.stringify, stringifyItems_plain items inner]
    rfl
  | .object props, j, written => by
    obtain ⟨ms, inner, rfl⟩ := plain_object.mp written
    rw [JsValue.stringify, stringifyProps_plain props inner]
    rfl
  | .undefined, _, written => nomatch written
  | .bigint _, _, written => nomatch written
  | .symbol, _, written => nomatch written
  | .foreign .., _, written => nomatch written

theorem stringifyItems_plain : (items : List JsValue) → {js : List JsonValue} → plainItems items = some js →
    JsValue.stringifyItems items = .ok (JsonValue.itemTexts js)
  | [], _, rfl => rfl
  | item :: rest, js, written => by
    obtain ⟨j, more, first, others, rfl⟩ := plainItems_cons.mp written
    rw [JsValue.stringifyItems, stringify_plain item first, stringifyItems_plain rest others]
    rfl

theorem stringifyProps_plain : (props : List (JsString × JsValue)) → {ms : List (JsString × JsonValue)} →
    plainProps props = some ms → JsValue.stringifyProps props = .ok (JsonValue.propTexts ms)
  | [], _, rfl => rfl
  | (key, v) :: rest, ms, written => by
    by_cases absent : v = .undefined
    · subst absent
      rw [JsValue.stringifyProps]
      exact stringifyProps_plain rest written
    · obtain ⟨j, more, first, others, rfl⟩ := (plainProps_cons_some absent).mp written
      rw [JsValue.stringifyProps, stringify_plain v first]
      simp only [ok_bind]
      rw [stringifyProps_plain rest others]
      rfl
end

theorem plainProps_names {props : List (JsString × JsValue)} {ms : List (JsString × JsonValue)}
    (written : plainProps props = some ms) : (ms.map Prod.fst).Sublist (props.map Prod.fst) := by
  induction props generalizing ms with
  | nil =>
    cases written
    exact List.Sublist.refl _
  | cons p rest ih =>
    obtain ⟨key, v⟩ := p
    by_cases absent : v = .undefined
    · subst absent
      exact (ih written).cons key
    · obtain ⟨j, more, -, others, rfl⟩ := (plainProps_cons_some absent).mp written
      exact (ih others).cons_cons key

mutual
theorem faithful_plain : (v : JsValue) → {j : JsonValue} → plain v = some j → Proper v → j.Faithful
  | .null, _, rfl, _ => .null
  | .boolean b, _, rfl, _ => .boolean b
  | .number n, _, written, _ => by
    obtain ⟨finite, rfl⟩ := plain_number.mp written
    cases n with
    | fin d => exact .number d
    | _ => cases finite
  | .string s, _, rfl, _ => .string s
  | .array items, j, written, proper => by
    obtain ⟨js, inner, rfl⟩ := plain_array.mp written
    exact .array (faithful_plainItems items inner proper)
  | .object props, j, written, proper => by
    obtain ⟨ms, inner, rfl⟩ := plain_object.mp written
    exact .object (faithful_plainProps props inner proper.2) (proper.1.sublist (plainProps_names inner))
  | .undefined, _, written, _ => nomatch written
  | .bigint _, _, written, _ => nomatch written
  | .symbol, _, written, _ => nomatch written
  | .foreign .., _, written, _ => nomatch written

theorem faithful_plainItems : (items : List JsValue) → {js : List JsonValue} → plainItems items = some js →
    ProperItems items → JsonValue.FaithfulItems js
  | [], _, rfl, _ => .nil
  | item :: rest, js, written, proper => by
    obtain ⟨j, more, first, others, rfl⟩ := plainItems_cons.mp written
    exact .cons (faithful_plain item first proper.1) (faithful_plainItems rest others proper.2)

theorem faithful_plainProps : (props : List (JsString × JsValue)) → {ms : List (JsString × JsonValue)} →
    plainProps props = some ms → ProperProps props → JsonValue.FaithfulProps ms
  | [], _, rfl, _ => .nil
  | (key, v) :: rest, ms, written, proper => by
    by_cases absent : v = .undefined
    · subst absent
      exact faithful_plainProps rest written proper.2
    · obtain ⟨j, more, first, others, rfl⟩ := (plainProps_cons_some absent).mp written
      exact .cons (faithful_plain v first proper.1) (faithful_plainProps rest others proper.2)
end

mutual
theorem accepts_plain : (v : JsValue) → {j : JsonValue} → plain v = some j → (depth : ℕ) →
    accepts depth (valueOf j) = accepts depth v
  | .null, _, rfl, _ => rfl
  | .boolean b, _, rfl, _ => rfl
  | .number n, _, written, _ => by
    obtain ⟨-, rfl⟩ := plain_number.mp written
    rfl
  | .string s, _, rfl, _ => rfl
  | .array items, j, written, depth => by
    obtain ⟨js, inner, rfl⟩ := plain_array.mp written
    rw [valueOf, accepts, accepts, accepts_plainItems items inner]
  | .object props, j, written, depth => by
    obtain ⟨ms, inner, rfl⟩ := plain_object.mp written
    rw [valueOf, accepts, accepts, accepts_plainProps props inner]
  | .undefined, _, written, _ => nomatch written
  | .bigint _, _, written, _ => nomatch written
  | .symbol, _, written, _ => nomatch written
  | .foreign .., _, written, _ => nomatch written

theorem accepts_plainItems : (items : List JsValue) → {js : List JsonValue} → plainItems items = some js →
    (depth : ℕ) → acceptsItems depth (valueOfItems js) = acceptsItems depth items
  | [], _, rfl, _ => rfl
  | item :: rest, js, written, depth => by
    obtain ⟨j, more, first, others, rfl⟩ := plainItems_cons.mp written
    rw [valueOfItems, acceptsItems, acceptsItems, accepts_plain item first, accepts_plainItems rest others]

theorem accepts_plainProps : (props : List (JsString × JsValue)) → {ms : List (JsString × JsonValue)} →
    plainProps props = some ms → (depth : ℕ) → acceptsProps depth (valueOfProps ms) = acceptsProps depth props
  | [], _, rfl, _ => rfl
  | (key, v) :: rest, ms, written, depth => by
    by_cases absent : v = .undefined
    · subst absent
      exact accepts_plainProps rest written depth
    · obtain ⟨j, more, first, others, rfl⟩ := (plainProps_cons_some absent).mp written
      have present : valueOf j ≠ .undefined := by cases j <;> nofun
      rw [valueOfProps, acceptsProps_cons present, acceptsProps_cons absent, accepts_plain v first,
        accepts_plainProps rest others]
end

mutual
theorem proper_valueOf : {j : JsonValue} → j.Faithful → Proper (valueOf j)
  | _, .null => trivial
  | _, .boolean _ => trivial
  | _, .number _ => trivial
  | _, .string _ => trivial
  | _, .array items => proper_valueOfItems items
  | _, .object values distinct => by
    obtain ⟨names, proper⟩ := proper_valueOfProps values
    exact ⟨names ▸ distinct, proper⟩

theorem proper_valueOfItems : {items : List JsonValue} → JsonValue.FaithfulItems items →
    ProperItems (valueOfItems items)
  | _, .nil => trivial
  | _, .cons item rest => ⟨proper_valueOf item, proper_valueOfItems rest⟩

theorem proper_valueOfProps : {props : List (JsString × JsonValue)} → JsonValue.FaithfulProps props →
    props.map Prod.fst = (valueOfProps props).map Prod.fst ∧ ProperProps (valueOfProps props)
  | _, .nil => ⟨rfl, trivial⟩
  | _, @JsonValue.FaithfulProps.cons v more key value rest => by
    obtain ⟨names, proper⟩ := proper_valueOfProps rest
    rw [valueOfProps, List.map_cons, List.map_cons, names]
    exact ⟨rfl, proper_valueOf value, proper⟩
end

/-! ### Members in key order -/

theorem sortedProps_eq_map (ms : List (JsString × JsonValue)) :
    sortedProps ms = ms.map fun m => (m.1, sorted m.2) := by
  induction ms with
  | nil => rfl
  | cons m rest ih => rw [sortedProps, ih, List.map_cons]

theorem acceptsProps_valueOfProps (depth : ℕ) (ms : List (JsString × JsonValue)) :
    acceptsProps depth (valueOfProps ms) = ms.all fun m => accepts depth (valueOf m.2) := by
  induction ms with
  | nil => rfl
  | cons m rest ih =>
    have present : valueOf m.2 ≠ .undefined := by cases m.2 <;> nofun
    rw [valueOfProps, acceptsProps_cons present, ih, List.all_cons]

mutual
theorem accepts_sorted : (j : JsonValue) → (depth : ℕ) →
    accepts depth (valueOf (sorted j)) = accepts depth (valueOf j)
  | .null, _ | .boolean _, _ | .number _, _ | .negZero, _ | .string _, _ => rfl
  | .array items, depth => by rw [sorted, valueOf, valueOf, accepts, accepts, acceptsItems_sorted items]
  | .object props, depth => by
    have order := List.perm_insertionSort (memberLe · ·) (sortedProps props)
    rw [sorted, valueOf, valueOf, accepts, accepts, acceptsProps_valueOfProps, order.all_eq,
      ← acceptsProps_valueOfProps, acceptsProps_sorted props]

theorem acceptsItems_sorted : (items : List JsonValue) → (depth : ℕ) →
    acceptsItems depth (valueOfItems (sortedItems items)) = acceptsItems depth (valueOfItems items)
  | [], _ => rfl
  | item :: rest, depth => by
    rw [sortedItems, valueOfItems, valueOfItems, acceptsItems, acceptsItems, accepts_sorted item,
      acceptsItems_sorted rest]

theorem acceptsProps_sorted : (props : List (JsString × JsonValue)) → (depth : ℕ) →
    acceptsProps depth (valueOfProps (sortedProps props)) = acceptsProps depth (valueOfProps props)
  | [], _ => rfl
  | (key, v) :: rest, depth => by
    have present : ∀ j : JsonValue, valueOf j ≠ .undefined := fun j => by cases j <;> nofun
    rw [sortedProps, valueOfProps, valueOfProps, acceptsProps_cons (present _), acceptsProps_cons (present _),
      accepts_sorted v, acceptsProps_sorted rest]
end

theorem sortedProps_sorted (ms : List (JsString × JsonValue)) :
    sortedProps (ms.insertionSort (memberLe · ·)) = (sortedProps ms).insertionSort (memberLe · ·) := by
  rw [sortedProps_eq_map, sortedProps_eq_map]
  exact List.map_insertionSort _ _ _ _ fun a _ b _ => Iff.rfl

mutual
theorem sorted_sorted : (j : JsonValue) → sorted (sorted j) = sorted j
  | .null | .boolean _ | .number _ | .negZero | .string _ => rfl
  | .array items => by rw [sorted, sorted, sortedItems_sortedItems items]
  | .object props => by
    have ordered := List.pairwise_insertionSort (memberLe · ·) (sortedProps props)
    rw [sorted, sorted, sortedProps_sorted, sortedProps_sortedProps props, ordered.insertionSort_eq]

theorem sortedItems_sortedItems : (items : List JsonValue) → sortedItems (sortedItems items) = sortedItems items
  | [] => rfl
  | item :: rest => by rw [sortedItems, sortedItems, sorted_sorted item, sortedItems_sortedItems rest]

theorem sortedProps_sortedProps : (props : List (JsString × JsonValue)) →
    sortedProps (sortedProps props) = sortedProps props
  | [] => rfl
  | (key, v) :: rest => by rw [sortedProps, sortedProps, sorted_sorted v, sortedProps_sortedProps rest]
end

/-! ### Values with one text -/

/-- A value that stands for the same JSON value, and is accepted, has the same text. -/
theorem canonicalJson_of_canonical {v w : JsValue} (text : canonicalJson v = .ok t) (proper : Proper v)
    (proper' : Proper w) (same : canonical w = canonical v) (accepted : accepts 0 w = true) :
    canonicalJson w = .ok t := by
  obtain ⟨t', text'⟩ := (canonicalJson_iff w).mpr accepted
  rw [text', (canonicalJson_eq_iff text' text proper' proper).mpr same]

/-- What plain JSON writes of an accepted value. -/
theorem plain_of_canonicalJson {v : JsValue} (text : canonicalJson v = .ok t) (proper : Proper v) :
    ∃ j, plain v = some j ∧ j.Faithful := by
  obtain ⟨j, written⟩ := plain_of_accepts v ((canonicalJson_iff v).mp ⟨t, text⟩)
  exact ⟨j, written, faithful_plain v written proper⟩

/-- An accepted value that plain JSON has written and read has the text it had. -/
theorem canonicalJson_valueOf {v : JsValue} {j : JsonValue} (text : canonicalJson v = .ok t)
    (proper : Proper v) (written : plain v = some j) : canonicalJson (valueOf j) = .ok t := by
  have faithful := faithful_plain v written proper
  apply canonicalJson_of_canonical text proper (proper_valueOf faithful)
  · rw [canonical_valueOf faithful, canonical_eq_sorted, written]
    rfl
  · rw [accepts_plain v written]
    exact (canonicalJson_iff v).mp ⟨t, text⟩

/-- Canonical JSON that is read is a value with that text. -/
theorem canonicalJson_parse {v : JsValue} (text : canonicalJson v = .ok t) (proper : Proper v) :
    ∃ j, JsonValue.parse t = some j ∧ canonicalJson (valueOf j) = .ok t := by
  obtain ⟨k, stands, faithful, rfl⟩ := canonicalJson_ok text proper
  obtain ⟨j, written, faithful'⟩ := plain_of_canonicalJson text proper
  obtain rfl : sorted j = k := by
    rw [canonical_eq_sorted, written] at stands
    exact Option.some.inj stands
  refine ⟨sorted j, JsonValue.parse_stringify faithful, ?_⟩
  apply canonicalJson_of_canonical text proper (proper_valueOf faithful)
  · rw [canonical_valueOf faithful, sorted_sorted, stands]
  · rw [accepts_sorted, accepts_plain v written]
    exact (canonicalJson_iff v).mp ⟨_, text⟩

end Vaduno.Ledger
