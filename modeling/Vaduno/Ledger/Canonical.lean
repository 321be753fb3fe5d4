import Vaduno.Ecma.JsonParse
import Vaduno.Ledger.Hash

/-! What canonical JSON commits to: the JSON value that a value stands for, the members of its objects
in key order and absent ones left out. Values with one canonical text stand for one JSON value. -/
namespace Vaduno.Ledger
open Ecma

/-- Comparison of members by key. -/
def memberLe (a b : JsString × JsonValue) : Bool := !decide (b.1 < a.1)

mutual
/-- The JSON value that a value stands for, if it stands for one. -/
def canonical : JsValue → Option JsonValue
  | .null => some .null
  | .boolean b => some (.boolean b)
  | .number n => if n.isFinite then some (.number n) else none
  | .string s => some (.string s)
  | .array items => .array <$> canonicalItems items
  | .object props => (canonicalProps props).map fun members => .object (members.insertionSort (memberLe · ·))
  | .undefined | .bigint _ | .symbol | .foreign .. => none

def canonicalItems : List JsValue → Option (List JsonValue)
  | [] => some []
  | item :: rest => return (← canonical item) :: (← canonicalItems rest)

def canonicalProps : List (JsString × JsValue) → Option (List (JsString × JsonValue))
  | [] => some []
  | (_, .undefined) :: rest => canonicalProps rest
  | (key, v) :: rest => return (key, ← canonical v) :: (← canonicalProps rest)
end

mutual
/-- The keys of every object in a value are distinct, as those of an object are. -/
def Proper : JsValue → Prop
  | .array items => ProperItems items
  | .object props => (props.map Prod.fst).Nodup ∧ ProperProps props
  | _ => True

def ProperItems : List JsValue → Prop
  | [] => True
  | item :: rest => Proper item ∧ ProperItems rest

def ProperProps : List (JsString × JsValue) → Prop
  | [] => True
  | (_, v) :: rest => Proper v ∧ ProperProps rest
end

/-! ### Members in key order -/

theorem jsString_le_total (a b : JsString) : ¬b < a ∨ ¬a < b := by
  by_contra both
  rw [not_or, not_not, not_not] at both
  exact List.lt_asymm both.1 both.2

instance : Std.Total (memberLe · ·) :=
  ⟨fun a b => by simpa [memberLe] using jsString_le_total a.1 b.1⟩

instance : IsTrans (JsString × JsonValue) (memberLe · ·) :=
  ⟨fun a b c first second => by
    simp only [memberLe, Bool.not_eq_true', decide_eq_false_iff_not] at first second ⊢
    exact List.le_trans first second⟩

instance : Std.Total (keyLe · ·) :=
  ⟨fun a b => by simpa [keyLe] using jsString_le_total a.1 b.1⟩

instance : IsTrans (JsString × Throwing (Option JsString)) (keyLe · ·) :=
  ⟨fun a b c first second => by
    simp only [keyLe, Bool.not_eq_true', decide_eq_false_iff_not] at first second ⊢
    exact List.le_trans first second⟩

/-- The member that is written, if it is present. -/
def written (member : JsString × Throwing (Option JsString)) : Option (JsString × JsString) :=
  match member.2 with
  | .ok (some text) => some (member.1, text)
  | _ => none

theorem joinMembers_texts {members : List (JsString × Throwing (Option JsString))}
    (joined : joinMembers members = .ok texts) :
    texts = (members.filterMap written).map fun p => quote p.1 ++ ":" ++ p.2 := by
  induction members generalizing texts with
  | nil =>
    cases joined
    rfl
  | cons head rest ih =>
    obtain ⟨key, text⟩ := head
    cases text with
    | error e => cases joined
    | ok text =>
      cases text with
      | none => exact ih joined
      | some text =>
        cases more : joinMembers rest with
        | error e =>
          simp only [joinMembers, ok_bind, more] at joined
          cases joined
        | ok others =>
          simp only [joinMembers, ok_bind, more] at joined
          cases joined
          rw [ih more]
          rfl

theorem propTexts_eq_map (members : List (JsString × JsonValue)) :
    JsonValue.propTexts members = members.map fun m => quote m.1 ++ [58] ++ m.2.stringify := by
  induction members with
  | nil => rfl
  | cons m rest ih => rw [JsonValue.propTexts, ih, List.map_cons]

theorem faithfulProps_iff {members : List (JsString × JsonValue)} :
    JsonValue.FaithfulProps members ↔ ∀ m ∈ members, m.2.Faithful := by
  induction members with
  | nil => exact iff_of_true .nil nofun
  | cons m rest ih =>
    rw [List.forall_mem_cons, ← ih]
    constructor
    · intro all
      cases all with
      | cons value others => exact ⟨value, others⟩
    · rintro ⟨value, others⟩
      exact .cons value others

/-- Sorting what is written is writing what is sorted. -/
theorem written_sorted {members : List (JsString × Throwing (Option JsString))}
    {values : List (JsString × JsonValue)} (distinct : (values.map Prod.fst).Nodup)
    (same : members.filterMap written = values.map fun m => (m.1, m.2.stringify)) :
    (members.insertionSort (keyLe · ·)).filterMap written =
      (values.insertionSort (memberLe · ·)).map fun m => (m.1, m.2.stringify) := by
  have left : ((members.insertionSort (keyLe · ·)).filterMap written).Perm
      (values.map fun m => (m.1, m.2.stringify)) := by
    rw [← same]
    exact (List.perm_insertionSort _ _).filterMap written
  have right := (List.perm_insertionSort (memberLe · ·) values).map fun m => (m.1, m.2.stringify)
  have keys : ((values.map fun m => (m.1, m.2.stringify)).map Prod.fst).Nodup := by
    rw [List.map_map]
    exact distinct
  refine @List.Perm.eq_of_pairwise _ (fun a b => ¬b.1 < a.1) _ _ ?_ ?_ ?_ (left.trans right.symm)
  · intro a b listed listed' first second
    exact List.inj_on_of_nodup_map keys (left.subset listed) (right.subset listed')
      (List.le_antisymm first second)
  · refine List.Pairwise.filterMap written ?_ (List.pairwise_insertionSort (keyLe · ·) members)
    intro a b ordered x image y image'
    have key : ∀ {m x}, written m = some x → x.1 = m.1 := by
      rintro ⟨k, _ | _ | text⟩ x image <;> cases image
      rfl
    rw [key image, key image']
    simpa [keyLe] using ordered
  · refine List.Pairwise.map _ ?_ (List.pairwise_insertionSort (memberLe · ·) values)
    intro a b ordered
    simpa [memberLe] using ordered

/-! ### The text of a value -/

theorem withinDepth_ok (within : withinDepth depth path text = .ok t) : text = .ok t := by
  unfold withinDepth at within
  split at within
  · cases within
  · exact within

mutual
/-- Canonical JSON is the plain JSON of the value that is stood for. -/
theorem canonical_of_serialize : (v : JsValue) → {depth : ℕ} → {path t : JsString} →
    serialize depth path v = .ok t → Proper v →
      ∃ j, canonical v = some j ∧ j.Faithful ∧ j.stringify = t
  | .null, _, _, _, text, _ => by
    cases withinDepth_ok text
    exact ⟨.null, rfl, .null, rfl⟩
  | .boolean b, _, _, _, text, _ => by
    cases withinDepth_ok text
    exact ⟨.boolean b, rfl, .boolean b, by cases b <;> rfl⟩
  | .number n, _, _, _, text, _ => by
    have text := withinDepth_ok text
    simp only at text
    split at text
    · rename_i finite
      cases text
      cases n with
      | fin d =>
        exact ⟨.number (.fin d), by rw [canonical, if_pos finite], .number d,
          by rw [JsonValue.stringify, if_pos finite]⟩
      | _ => cases finite
    · cases text
  | .string s, _, _, _, text, _ => by
    cases withinDepth_ok text
    exact ⟨.string s, rfl, .string s, rfl⟩
  | .array items, depth, path, t, text, proper => by
    have text := withinDepth_ok text
    simp only at text
    cases items' : serializeItems (depth + 1) path 0 items with
    | error e =>
      rw [items'] at text
      cases text
    | ok texts =>
      rw [items'] at text
      cases text
      obtain ⟨js, same, faithful, rfl⟩ := canonical_of_serializeItems items items' proper
      refine ⟨.array js, ?_, .array faithful, rfl⟩
      rw [canonical, same]
      rfl
  | .object props, depth, path, t, text, proper => by
    have text := withinDepth_ok text
    simp only at text
    cases joined : joinMembers ((serializeProps (depth + 1) path props).insertionSort (keyLe · ·)) with
    | error e =>
      rw [joined] at text
      cases text
    | ok texts =>
      rw [joined] at text
      cases text
      have sorted := List.perm_insertionSort (keyLe · ·) (serializeProps (depth + 1) path props)
      obtain ⟨members, same, faithful, texts', keys⟩ := canonical_of_serializeProps props
        (fun p member => joinMembers_ok joined p (sorted.mem_iff.mpr member)) proper.2
      have distinct : (members.map Prod.fst).Nodup := proper.1.sublist keys
      have order := List.perm_insertionSort (memberLe · ·) members
      refine ⟨.object (members.insertionSort (memberLe · ·)), by rw [canonical, same]; rfl, .object ?_ ?_, ?_⟩
      · exact faithfulProps_iff.mpr fun m member => faithfulProps_iff.mp faithful m (order.subset member)
      · exact (order.map Prod.fst).nodup_iff.mpr distinct
      · rw [joinMembers_texts joined, written_sorted distinct texts', JsonValue.stringify, propTexts_eq_map,
          List.map_map]
        rfl
  | .undefined, _, _, _, text, _ => nomatch withinDepth_ok text
  | .bigint _, _, _, _, text, _ => nomatch withinDepth_ok text
  | .symbol, _, _, _, text, _ => nomatch withinDepth_ok text
  | .foreign none _ _, _, _, _, text, _ => nomatch withinDepth_ok text
  | .foreign (some _) _ _, _, _, _, text, _ => nomatch withinDepth_ok text

theorem canonical_of_serializeItems : (items : List JsValue) → {depth : ℕ} → {path : JsString} → {index : ℕ} →
    {texts : List JsString} → serializeItems depth path index items = .ok texts → ProperItems items →
      ∃ js, canonicalItems items = some js ∧ JsonValue.FaithfulItems js ∧ JsonValue.itemTexts js = texts
  | [], _, _, _, _, text, _ => by
    cases text
    exact ⟨[], rfl, .nil, rfl⟩
  | item :: rest, depth, path, index, texts, text, proper => by
    cases first : serialize depth (path ++ "[" ++ natText index ++ "]") item with
    | error e =>
      rw [serializeItems, first] at text
      cases text
    | ok t =>
      cases others : serializeItems depth path (index + 1) rest with
      | error e =>
        rw [serializeItems, first, others] at text
        cases text
      | ok more =>
        rw [serializeItems, first, others] at text
        cases text
        obtain ⟨j, same, faithful, rfl⟩ := canonical_of_serialize item first proper.1
        obtain ⟨js, same', faithful', rfl⟩ := canonical_of_serializeItems rest others proper.2
        refine ⟨j :: js, ?_, .cons faithful faithful', rfl⟩
        rw [canonicalItems, same, same']
        rfl

theorem canonical_of_serializeProps : (props : List (JsString × JsValue)) → {depth : ℕ} → {path : JsString} →
    (∀ p ∈ serializeProps depth path props, ∃ text, p.2 = .ok text) → ProperProps props →
      ∃ members, canonicalProps props = some members ∧ JsonValue.FaithfulProps members ∧
        (serializeProps depth path props).filterMap written =
          members.map (fun m => (m.1, m.2.stringify)) ∧
        (members.map Prod.fst).Sublist (props.map Prod.fst)
  | [], _, _, _, _ => ⟨[], rfl, .nil, rfl, List.Sublist.refl _⟩
  | (key, v) :: rest, depth, path, texts, proper => by
    by_cases absent : v = .undefined
    · subst absent
      rw [serializeProps] at texts ⊢
      rw [List.forall_mem_cons] at texts
      obtain ⟨members, same, faithful, written, keys⟩ := canonical_of_serializeProps rest texts.2 proper.2
      refine ⟨members, by rw [canonicalProps, same], faithful, ?_, keys.cons key⟩
      rw [List.filterMap_cons_none rfl, written]
    · have own : serializeProps depth path ((key, v) :: rest) =
          (key, some <$> serialize depth (path ++ "." ++ key) v) :: serializeProps depth path rest := by
        cases v with
        | undefined => exact absurd rfl absent
        | _ => rw [serializeProps]; nofun
      rw [own] at texts ⊢
      rw [List.forall_mem_cons] at texts
      obtain ⟨⟨text, text'⟩, others⟩ := texts
      obtain ⟨members, same, faithful, written, keys⟩ := canonical_of_serializeProps rest others proper.2
      cases value : serialize depth (path ++ "." ++ key) v with
      | error e =>
        rw [value] at text'
        cases text'
      | ok t =>
        obtain ⟨j, same', faithful', rfl⟩ := canonical_of_serialize v value proper.1
        refine ⟨(key, j) :: members, ?_, .cons faithful' faithful, ?_, keys.cons_cons key⟩
        · rw [canonicalProps, same, same']
          · rfl
          · exact absent
        · have image : Ledger.written (key, some <$> Except.ok j.stringify) = some (key, j.stringify) := rfl
          rw [List.filterMap_cons_some image, written]
          rfl
end

/-- What is accepted stands for a JSON value, and the text is that value's own. -/
theorem canonicalJson_ok {v : JsValue} (text : canonicalJson v = .ok t) (proper : Proper v) :
    ∃ j, canonical v = some j ∧ j.Faithful ∧ j.stringify = t :=
  canonical_of_serialize v text proper

/-- Canonical texts are equal exactly where the JSON values are. -/
theorem canonicalJson_eq_iff {v w : JsValue} (left : canonicalJson v = .ok s) (right : canonicalJson w = .ok t)
    (proper : Proper v) (proper' : Proper w) : s = t ↔ canonical v = canonical w := by
  obtain ⟨j, stands, faithful, rfl⟩ := canonicalJson_ok left proper
  obtain ⟨j', stands', faithful', rfl⟩ := canonicalJson_ok right proper'
  rw [stands, stands', Option.some.injEq]
  constructor
  · intro same
    have read := congrArg JsonValue.parse same
    rw [JsonValue.parse_stringify faithful, JsonValue.parse_stringify faithful'] at read
    exact Option.some.inj read
  · rintro rfl
    rfl

/-! ### The pieces of a text -/

/-- What JSON texts are put together from, numbers and strings apart. -/
def words : List JsString := ["null", "true", "false", [91], [93], [123], [125], [58], [44]]

/-- What holds of every piece of a JSON text and of texts put together from such. -/
structure Pieces (P : JsString → Prop) : Prop where
  empty : P []
  append : ∀ {a b : JsString}, P a → P b → P (a ++ b)
  word : ∀ s ∈ words, P s
  number : ∀ d : Double, P (Number.fin d).toText
  quote : ∀ s : JsString, P (quote s)

namespace Pieces
variable {P : JsString → Prop}

theorem joinComma (pieces : Pieces P) {texts : List JsString} (each : ∀ text ∈ texts, P text) : P (joinComma texts) := by
  induction texts with
  | nil => exact pieces.empty
  | cons text rest ih =>
    rw [List.forall_mem_cons] at each
    rcases eq_or_ne rest [] with rfl | more
    · exact each.1
    · rw [JsonValue.joinComma_cons text more]
      apply pieces.append each.1
      exact pieces.append (pieces.word [44] (by decide)) (ih each.2)

mutual
theorem stringify (pieces : Pieces P) : {j : JsonValue} → j.Faithful → P j.stringify
  | _, .null => pieces.word _ (by decide)
  | _, .boolean true => pieces.word _ (by decide)
  | _, .boolean false => pieces.word _ (by decide)
  | _, .number d => by
    have finite : (Number.fin d).isFinite = true := rfl
    rw [JsonValue.stringify, if_pos finite]
    exact pieces.number d
  | _, .string s => pieces.quote s
  | _, .array items => by
    have inside := pieces.joinComma (pieces.itemTexts items)
    apply pieces.append
    · exact pieces.append (pieces.word [91] (by decide)) inside
    · exact pieces.word [93] (by decide)
  | _, .object values _ => by
    have inside := pieces.joinComma (pieces.propTexts values)
    apply pieces.append
    · exact pieces.append (pieces.word [123] (by decide)) inside
    · exact pieces.word [125] (by decide)

theorem itemTexts (pieces : Pieces P) : {items : List JsonValue} → JsonValue.FaithfulItems items →
    ∀ text ∈ JsonValue.itemTexts items, P text
  | _, .nil => nofun
  | _, .cons item rest => by
    rw [JsonValue.itemTexts, List.forall_mem_cons]
    exact ⟨pieces.stringify item, pieces.itemTexts rest⟩

theorem propTexts (pieces : Pieces P) : {props : List (JsString × JsonValue)} → JsonValue.FaithfulProps props →
    ∀ text ∈ JsonValue.propTexts props, P text
  | _, .nil => nofun
  | _, @JsonValue.FaithfulProps.cons v more key value rest => by
    rw [JsonValue.propTexts, List.forall_mem_cons]
    constructor
    · apply pieces.append
      · exact pieces.append (pieces.quote key) (pieces.word [58] (by decide))
      · exact pieces.stringify value
    · exact pieces.propTexts rest
end

end Pieces

theorem newline_notMem_stringify {j : JsonValue} (faithful : j.Faithful) : 10 ∉ j.stringify := by
  refine Pieces.stringify (P := fun s => 10 ∉ s) ?_ faithful
  constructor
  · decide
  · exact fun left right => by simp [left, right]
  · decide
  · exact fun d member => absurd (numberUnits_toText d 10 member).1 (by decide)
  · exact newline_notMem_quote

/-- Canonical JSON is one line. -/
theorem newline_notMem_canonicalJson {v : JsValue} (text : canonicalJson v = .ok t) (proper : Proper v) :
    10 ∉ t := by
  obtain ⟨j, -, faithful, rfl⟩ := canonicalJson_ok text proper
  exact newline_notMem_stringify faithful

/-- No surrogate stands alone in a text of JSON. -/
theorem wellFormed_stringify {j : JsonValue} (faithful : j.Faithful) : isWellFormed j.stringify = true := by
  refine Pieces.stringify (P := fun s => isWellFormed s = true) ?_ faithful
  constructor
  · rfl
  · exact wellFormed_append
  · decide
  · exact fun d => wellFormed_of_plain (numberUnits_toText d).plain
  · exact wellFormed_quote

theorem wellFormed_canonicalJson {v : JsValue} (text : canonicalJson v = .ok t) (proper : Proper v) :
    isWellFormed t = true := by
  obtain ⟨j, -, faithful, rfl⟩ := canonicalJson_ok text proper
  exact wellFormed_stringify faithful

end Vaduno.Ledger
