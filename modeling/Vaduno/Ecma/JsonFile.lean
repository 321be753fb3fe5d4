import Mathlib.Data.List.Sort
import Vaduno.Ecma.JsonParse
import Vaduno.Keyed

/-! Tables kept in a file of JSON: one object of entries under a name, read whole before a call looks
at it and written whole after a call has changed it. A file that only such a table has written is read
back as the table, in some order of its rows. -/
namespace Vaduno.Ecma
namespace JsonValue

/-- A property of a value, where it is an object with the property. -/
def get (name : JsString) : JsonValue → Option JsonValue
  | object props => (props.find? (·.1 = name)).map Prod.snd
  | _ => none

def truthy : JsonValue → Bool
  | null | negZero => false
  | boolean b => b
  | number n => !(n.isNaN || n = 0)
  | string s => !s.isEmpty
  | array _ | object _ => true

def text : Option JsonValue → JsString
  | some (string s) => s
  | _ => []

def optionalText : Option JsonValue → Option JsString
  | some (string s) => some s
  | _ => none

/-- What a value counts as in arithmetic: `null` is zero there. -/
def toNumber : Option JsonValue → Number
  | some (number n) => n
  | some null | some negZero => 0
  | some (boolean b) => if b then 1 else 0
  | _ => .nan

/-- `{ ...v, name: w }`. -/
def withProp (v : JsonValue) (name : JsString) (w : JsonValue) : JsonValue :=
  match v with
  | object props => object (defineProp props name w)
  | other => other

end JsonValue

/-! ### The order of properties -/

section Order
variable {α β : Type} (key : α → JsString)

/-- The index that a property name stands for, if it stands for one. -/
def arrayIndex (name : JsString) : Option ℕ :=
  let n := digitsValue name
  if name = natText n && n < 2 ^ 32 - 1 then some n else none

/-- The order in which an object gives its properties: indices first, from the least on, and then the
names as they were created. -/
def ownOrder (rows : List α) : List α :=
  (rows.filter fun a => (arrayIndex (key a)).isSome).insertionSort
      (fun a b => (arrayIndex (key a)).getD 0 ≤ (arrayIndex (key b)).getD 0) ++
    rows.filter fun a => !(arrayIndex (key a)).isSome

theorem ownOrder_perm (rows : List α) : (ownOrder key rows).Perm rows :=
  ((List.perm_insertionSort _ _).append_right _).trans (List.filter_append_perm _ rows)

theorem ownOrder_map {key' : β → JsString} {f : α → β} (same : ∀ a, key' (f a) = key a)
    (rows : List α) : ownOrder key' (rows.map f) = (ownOrder key rows).map f := by
  unfold ownOrder
  rw [List.map_append, List.filter_map, List.filter_map, Function.comp_def, Function.comp_def]
  simp only [same]
  rw [List.map_insertionSort _ (fun a b => (arrayIndex (key' a)).getD 0 ≤ (arrayIndex (key' b)).getD 0)
    f _ fun a _ b _ => by rw [same, same]]

end Order

/-! ### Entries -/

abbrev Entries := List (JsString × JsonValue)

namespace Entries
variable (entries : Entries)

/-- What stands under a name, where that is truthy. -/
def find (name : JsString) : Option JsonValue :=
  ((entries.find? (·.1 = name)).map Prod.snd).filter JsonValue.truthy

/-- `Object.entries`. -/
def inOrder : Entries := ownOrder Prod.fst entries

/-- `Object.values`. -/
def values : List JsonValue := entries.inOrder.map Prod.snd

def delete (name : JsString) : Entries := entries.filter (·.1 ≠ name)

theorem foldl_delete (old : Entries) : old.foldl (fun data e => data.delete e.1) entries =
    entries.filter fun e => decide (e.1 ∉ old.map Prod.fst) := by
  induction old generalizing entries with
  | nil => simp
  | cons e rest ih =>
    rw [List.foldl_cons, ih, delete, List.filter_filter]
    refine List.filter_congr fun p _ => ?_
    simp only [List.map_cons, List.mem_cons, not_or, Bool.decide_and]
    rw [Bool.and_comm]

end Entries

/-- `Object.assign` onto an object that has nothing, not even a prototype. -/
def assigned : JsonValue → Entries
  | .object props => Entries.inOrder props
  | .array items => items.zipIdx.map fun p => (natText p.2, p.1)
  | .string s => s.zipIdx.map fun p => (natText p.2, .string [p.1])
  | _ => []

/-- `JSON.stringify({ [name]: entries, … }, null, 2)`. -/
def fileText (tables : List (JsString × Entries)) : JsString :=
  JsonValue.indented [32, 32] [] (.object (tables.map fun t => (t.1, .object t.2.inOrder)))

/-- What a file holds; a file that is not there holds nothing. `unreadable` is the error for what
cannot be read as JSON, or has no properties to ask for. -/
def loadEntries (unreadable : Thrown) (name : JsString) : Option JsString → Throwing Entries
  | none => .ok []
  | some raw =>
    match JsonValue.parse raw with
    | none | some .null => .error unreadable
    | some parsed => .ok ((parsed.get name).elim [] assigned)

/-- Properties that are always there and one that may be missing, under names of their own. -/
theorem distinct_optional {α : Type} {front : Entries} {names : List JsString} {name : JsString}
    {value : α → JsonValue} (same : front.map Prod.fst = names) (distinct : (names ++ [name]).Nodup)
    (o : Option α) : ((front ++ o.toList.map fun a => (name, value a)).map Prod.fst).Nodup := by
  rw [List.map_append, same]
  cases o with
  | none => simpa using distinct.sublist (List.sublist_append_left names [name])
  | some a => exact distinct

theorem faithful_props {props : Entries} (faithful : ∀ p ∈ props, p.2.Faithful) :
    JsonValue.FaithfulProps props := by
  induction props with
  | nil => exact .nil
  | cons p rest ih =>
    obtain ⟨name, v⟩ := p
    exact .cons (faithful (name, v) (by simp)) (ih fun q member => faithful q (List.mem_cons_of_mem _ member))

/-- What was written under a name is read back under it. -/
theorem loadEntries_fileText {tables : List (JsString × Entries)} {name : JsString} {entries : Entries}
    (names : (tables.map Prod.fst).Nodup)
    (faithful : ∀ t ∈ tables, (JsonValue.object t.2.inOrder).Faithful)
    (member : (name, entries) ∈ tables) (unreadable : Thrown) :
    loadEntries unreadable name (some (fileText tables)) = .ok entries.inOrder.inOrder := by
  have gap : JsonValue.Spaces [32, 32] := by
    rintro u (_ | ⟨_, _ | ⟨_, none⟩⟩)
    · rfl
    · rfl
    · cases none
  have same : (tables.map fun t => (t.1, JsonValue.object t.2.inOrder)).map Prod.fst =
      tables.map Prod.fst := by
    rw [List.map_map]
    rfl
  have whole : (JsonValue.object (tables.map fun t => (t.1, .object t.2.inOrder))).Faithful := by
    refine .object (faithful_props fun p listed => ?_) (same ▸ names)
    obtain ⟨t, written, rfl⟩ := List.mem_map.mp listed
    exact faithful t written
  have found : JsonValue.get name (.object (tables.map fun t => (t.1, .object t.2.inOrder))) =
      some (.object entries.inOrder) := by
    rw [JsonValue.get, List.find?_map]
    have first : tables.find? ((fun p : JsString × JsonValue => decide (p.1 = name)) ∘
        fun t => (t.1, JsonValue.object t.2.inOrder)) = some (name, entries) := by
      cases held : tables.find? ((fun p : JsString × JsonValue => decide (p.1 = name)) ∘
        fun t => (t.1, JsonValue.object t.2.inOrder)) with
      | none => simpa using List.find?_eq_none.mp held (name, entries) member
      | some t =>
        have own : t.1 = name := by simpa using List.find?_some held
        exact congrArg some (List.inj_on_of_nodup_map names (List.mem_of_find?_eq_some held) member own)
    rw [first]
    rfl
  rw [loadEntries, fileText, JsonValue.parse_indented gap whole]
  dsimp only
  rw [found]
  rfl

/-! ### Tables in a file -/

/-- How rows are written into a file of entries. -/
structure Layout (α : Type) where
  name : JsString
  key : α → JsString
  value : α → List (JsString × JsonValue)

namespace Layout
variable {α : Type} (layout : Layout α)

def entry (a : α) : JsString × JsonValue := (layout.key a, .object (layout.value a))

/-- The file holds the rows, in some order. -/
def Holds (content : Option JsString) (rows : List α) : Prop :=
  content = none ∧ rows = [] ∨
    ∃ order : List α, order.Perm rows ∧ content = some (fileText [(layout.name, order.map layout.entry)])

variable {layout} {rows : List α}

theorem holds_none : layout.Holds none [] := .inl ⟨rfl, rfl⟩

theorem holds_fileText {order : List α} (perm : order.Perm rows) :
    layout.Holds (some (fileText [(layout.name, order.map layout.entry)])) rows :=
  .inr ⟨order, perm, rfl⟩

theorem inOrder_entry (order : List α) :
    Entries.inOrder (order.map layout.entry) = (ownOrder layout.key order).map layout.entry :=
  @ownOrder_map α _ layout.key Prod.fst layout.entry (fun _ => rfl) order

/-- The entries of rows under keys of their own are carried by JSON. -/
theorem faithful_entries {order : List α} (perm : order.Perm rows)
    (distinct : (rows.map layout.key).Nodup)
    (faithful : ∀ a ∈ rows, (JsonValue.object (layout.value a)).Faithful) :
    (JsonValue.object (Entries.inOrder (order.map layout.entry))).Faithful := by
  have sorted := (ownOrder_perm layout.key order).trans perm
  rw [inOrder_entry]
  refine .object (faithful_props fun p member => ?_) ?_
  · obtain ⟨a, held, rfl⟩ := List.mem_map.mp member
    exact faithful a (sorted.mem_iff.mp held)
  · rw [List.map_map]
    exact (sorted.map layout.key).nodup_iff.mpr distinct

/-- The file is read back. -/
theorem Holds.load {content : Option JsString} (holds : layout.Holds content rows)
    (distinct : (rows.map layout.key).Nodup)
    (faithful : ∀ a ∈ rows, (JsonValue.object (layout.value a)).Faithful) (unreadable : Thrown) :
    ∃ order : List α, order.Perm rows ∧
      loadEntries unreadable layout.name content = .ok (order.map layout.entry) := by
  rcases holds with ⟨rfl, rfl⟩ | ⟨order, perm, rfl⟩
  · exact ⟨[], .nil, rfl⟩
  have sorted := (ownOrder_perm layout.key order).trans perm
  refine ⟨ownOrder layout.key (ownOrder layout.key order), (ownOrder_perm _ _).trans sorted, ?_⟩
  have whole : ∀ t ∈ [(layout.name, order.map layout.entry)],
      (JsonValue.object (Entries.inOrder t.2)).Faithful := by
    intro t member
    cases List.mem_singleton.mp member
    exact faithful_entries perm distinct faithful
  have single : ([(layout.name, order.map layout.entry)].map Prod.fst).Nodup :=
    List.nodup_singleton layout.name
  rw [loadEntries_fileText single whole List.mem_cons_self, inOrder_entry, inOrder_entry]

theorem delete_entry (order : List α) (name : JsString) :
    Entries.delete (order.map layout.entry) name =
      (order.filter (layout.key · ≠ name)).map layout.entry := by
  rw [Entries.delete, List.filter_map]
  rfl

section Rows
variable {order : List α} (perm : order.Perm rows) (distinct : (rows.map layout.key).Nodup)
include perm

theorem find?_perm {κ : Type} [DecidableEq κ] {key : α → κ} (distinct : (rows.map key).Nodup) (k : κ) :
    order.find? (key · = k) = rows.find? (key · = k) := by
  let table : Keyed key := ⟨rows, distinct⟩
  let other : Keyed key := ⟨order, (perm.map key).nodup_iff.mpr distinct⟩
  have same : ∀ a, other.find k = some a ↔ table.find k = some a := fun a => by
    rw [Keyed.find_eq_some, Keyed.find_eq_some, perm.mem_iff]
  exact Option.ext same

include distinct

/-- An entry is found under the key of its row. -/
theorem find_entry (name : JsString) : Entries.find (order.map layout.entry) name =
    (rows.find? (layout.key · = name)).map fun a => .object (layout.value a) := by
  rw [Entries.find, List.find?_map, ← find?_perm perm distinct]
  change Option.filter _ ((Option.map layout.entry (order.find? (layout.key · = name))).map Prod.snd) = _
  cases order.find? (layout.key · = name) <;> rfl

omit distinct in
/-- A new row goes to the end. -/
theorem define_fresh {a : α} (fresh : ∀ b ∈ rows, layout.key b ≠ layout.key a) :
    defineProp (order.map layout.entry) (layout.key a) (.object (layout.value a)) =
      (order ++ [a]).map layout.entry := by
  rw [defineProp_append, List.map_append]
  · rfl
  · rw [List.map_map]
    intro member
    obtain ⟨b, held, same⟩ := List.mem_map.mp member
    exact fresh b (perm.mem_iff.mp held) same

/-- A row that changes keeps its place. -/
theorem define_known {a : α} {f : α → α} (held : a ∈ rows) (keeps : layout.key (f a) = layout.key a) :
    defineProp (order.map layout.entry) (layout.key a) (.object (layout.value (f a))) =
      (order.map fun b => if layout.key b = layout.key a then f b else b).map layout.entry := by
  have found : (order.map layout.entry).any (·.1 = layout.key a) = true := by
    rw [List.any_eq_true]
    exact ⟨layout.entry a, List.mem_map_of_mem (perm.mem_iff.mpr held), by simp [entry]⟩
  rw [defineProp, if_pos found, List.map_map, List.map_map]
  refine List.map_congr_left fun b member => ?_
  change (if layout.key b = layout.key a then _ else layout.entry b) = layout.entry (if _ then f b else b)
  split_ifs with same
  · obtain rfl := List.inj_on_of_nodup_map distinct (perm.mem_iff.mp member) held same
    rw [entry, keeps]
  · rfl

omit perm distinct in
/-- A row under a key of a table, new or not. -/
theorem define_put {table : Keyed layout.key} (perm : order.Perm table.rows) (a : α) :
    ∃ next : List α, next.Perm (table.put a).rows ∧
      defineProp (order.map layout.entry) (layout.key a) (.object (layout.value a)) =
        next.map layout.entry := by
  unfold Keyed.put
  split
  · rename_i free
    exact ⟨order ++ [a], perm.append_right [a], define_fresh perm (Keyed.find_eq_none.mp free)⟩
  · rename_i held found
    obtain ⟨member, same⟩ := Keyed.find_eq_some.mp found
    have known := @define_known _ layout _ _ perm table.distinct held
      (fun q => if layout.key q = layout.key a then a else q) member
    rw [if_pos same, same] at known
    exact ⟨_, perm.map _, known rfl⟩

/-- Deleting the chosen entries one after the other leaves the other rows. -/
theorem delete_rows (gone : α → Bool) :
    (((ownOrder layout.key order).filter gone).map layout.entry).foldl
        (fun data e => Entries.delete data e.1) (order.map layout.entry) =
      (order.filter fun a => !gone a).map layout.entry := by
  rw [Entries.foldl_delete, List.filter_map, List.map_map]
  refine congrArg _ (List.filter_congr fun a member => ?_)
  have sorted := ownOrder_perm layout.key order
  rw [Function.comp_apply, Bool.eq_iff_iff, decide_eq_true_eq, Bool.not_eq_true', ← Bool.not_eq_true,
    not_iff_not]
  constructor
  · intro among
    obtain ⟨b, chosen, same⟩ := List.mem_map.mp among
    obtain ⟨other, gone⟩ := List.mem_filter.mp chosen
    obtain rfl := List.inj_on_of_nodup_map distinct ((sorted.trans perm).mem_iff.mp other)
      (perm.mem_iff.mp member) same
    exact gone
  · intro gone
    exact List.mem_map.mpr ⟨a, List.mem_filter.mpr ⟨sorted.mem_iff.mpr member, gone⟩, rfl⟩

end Rows
end Layout
end Vaduno.Ecma
