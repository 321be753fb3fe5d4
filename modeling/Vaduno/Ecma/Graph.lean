import Vaduno.Ecma.Value

/-! Values on a heap. Objects are known by their addresses, so that one can be shared or lie within itself;
a value that is neither endless nor circular reads as a tree. -/
namespace Vaduno.Ecma

/-- A value as it stands in a variable or a property. -/
inductive GraphValue
  | undefined
  | null
  | boolean (b : Bool)
  | number (n : Number)
  | bigint (n : ℤ)
  | string (s : JsString)
  | symbol
  | function
  | ref (address : ℕ)

/-- What an object is: an array, a plain object, or an instance of the named class. -/
inductive GraphNode
  | array (items : List GraphValue)
  | object (props : List (JsString × GraphValue))
  | foreign (name : JsString)

abbrev Heap := ℕ → GraphNode

namespace GraphValue

/-- The tree a value reads as within some levels of objects. -/
def read (heap : Heap) : ℕ → GraphValue → Option JsValue
  | _, undefined => some .undefined
  | _, null => some .null
  | _, boolean b => some (.boolean b)
  | _, number n => some (.number n)
  | _, bigint n => some (.bigint n)
  | _, string s => some (.string s)
  | _, symbol => some .symbol
  | _, function => some (.foreign none (.text "function") none)
  | 0, ref _ => none
  | levels + 1, ref address =>
    match heap address with
    | .array items => (items.mapM (read heap levels)).map .array
    | .object props => (props.mapM fun p => (read heap levels p.2).map (p.1, ·)).map .object
    | .foreign name => some (.foreign (some name) (.text "[object Object]") none)

/-- The value is a tree. -/
def Stands (heap : Heap) (v : GraphValue) (tree : JsValue) : Prop := ∃ levels, v.read heap levels = some tree

theorem mapM_mono {α β : Type} {f g : α → Option β} {items : List α} {results : List β}
    (more : ∀ a b, f a = some b → g a = some b) (read : items.mapM f = some results) :
    items.mapM g = some results := by
  induction items generalizing results with
  | nil => exact read
  | cons item rest ih =>
    rw [List.mapM_cons, Option.bind_eq_bind, Option.bind_eq_some_iff] at read ⊢
    obtain ⟨first, head, read⟩ := read
    rw [Option.bind_eq_bind, Option.bind_eq_some_iff] at read
    obtain ⟨others, tail, read⟩ := read
    refine ⟨first, more item first head, ?_⟩
    rw [Option.bind_eq_bind, Option.bind_eq_some_iff]
    exact ⟨others, ih tail, read⟩

/-- Looking further down does not change what is seen. -/
theorem read_succ (heap : Heap) (levels : ℕ) (v : GraphValue) (tree : JsValue)
    (seen : v.read heap levels = some tree) : v.read heap (levels + 1) = some tree := by
  induction levels generalizing v tree with
  | zero =>
    cases v with
    | ref address => cases seen
    | _ => exact seen
  | succ levels ih =>
    cases v with
    | ref address =>
      rw [read] at seen ⊢
      cases held : heap address with
      | array items =>
        rw [held] at seen
        obtain ⟨trees, each, whole⟩ := Option.map_eq_some_iff.mp seen
        exact Option.map_eq_some_iff.mpr ⟨trees, mapM_mono ih each, whole⟩
      | object props =>
        rw [held] at seen
        obtain ⟨trees, each, whole⟩ := Option.map_eq_some_iff.mp seen
        refine Option.map_eq_some_iff.mpr ⟨trees, mapM_mono ?_ each, whole⟩
        intro p member named
        obtain ⟨tree, under, rfl⟩ := Option.map_eq_some_iff.mp named
        exact Option.map_eq_some_iff.mpr ⟨tree, ih p.2 tree under, rfl⟩
      | foreign name =>
        rw [held] at seen
        exact seen
    | _ => exact seen

theorem read_mono {heap : Heap} {levels more : ℕ} {v : GraphValue} {tree : JsValue} (further : levels ≤ more)
    (seen : v.read heap levels = some tree) : v.read heap more = some tree := by
  induction further with
  | refl => exact seen
  | step _ ih => exact read_succ heap _ v tree ih

/-- A value is at most one tree. -/
theorem Stands.unique {heap : Heap} {v : GraphValue} {tree tree' : JsValue} (stands : v.Stands heap tree)
    (stands' : v.Stands heap tree') : tree = tree' := by
  obtain ⟨levels, seen⟩ := stands
  obtain ⟨levels', seen'⟩ := stands'
  have both := read_mono (le_max_left levels levels') seen
  rw [read_mono (le_max_right levels levels') seen'] at both
  exact (Option.some.inj both).symm

end GraphValue
end Vaduno.Ecma
