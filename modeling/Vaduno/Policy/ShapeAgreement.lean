import Vaduno.Policy.IntentShape
import Vaduno.Ledger.Accept
import Vaduno.Ledger.Verify

/-! The inspection of an intent against the serializer of the ledger. What one walk can do is said once;
that it stays within its budget, that its copy can always be recorded, and that a value without problems
can be recorded as it is, follow level by level. -/
namespace Vaduno.Policy.IntentShape
open Ecma Ledger

/-! ### What a walk does to its state -/

/-- The state with a node counted. -/
def counted (s : WalkState) : WalkState := { s with nodes := s.nodes + 1 }

/-- What a part of the walk may have done: it visited nodes, and found at most one problem for each of them. -/
structure Walked (s s' : WalkState) : Prop where
  build : s'.build = s.build
  nodes : s.nodes ≤ s'.nodes
  budget : s.nodes ≤ maxWalkNodes → s'.nodes ≤ maxWalkNodes
  total : s.totalProblems ≤ s'.totalProblems
  found : s'.totalProblems + s.nodes ≤ s.totalProblems + s'.nodes
  retained : s.problems.length ≤ maxReportedProblems → s'.problems.length ≤ maxReportedProblems

theorem Walked.refl (s : WalkState) : Walked s s :=
  ⟨rfl, le_rfl, id, le_rfl, le_rfl, id⟩

theorem Walked.trans {a b c : WalkState} (first : Walked a b) (second : Walked b c) : Walked a c where
  build := second.build.trans first.build
  nodes := first.nodes.trans second.nodes
  budget within := second.budget (first.budget within)
  total := first.total.trans second.total
  found := by
    have := first.found
    have := second.found
    omega
  retained few := second.retained (first.retained few)

/-- The walk of a value that the budget reaches. -/
def Walks (visit : Visit) : Prop := ∀ v path s, s.nodes < maxWalkNodes → Walked s (visit v path s).2

section Flagged
variable (s : WalkState) (path problem : JsString) (kind : ProblemKind)

theorem flag_nodes : (flag s path problem kind).2.nodes = s.nodes := rfl

theorem flag_build : (flag s path problem kind).2.build = s.build := rfl

theorem flag_total : (flag s path problem kind).2.totalProblems = s.totalProblems + 1 := rfl

theorem flag_retained (few : s.problems.length ≤ maxReportedProblems) :
    (flag s path problem kind).2.problems.length ≤ maxReportedProblems := by
  change (if s.problems.length < maxReportedProblems then _ else _ : List IntentShapeProblem).length ≤ _
  split_ifs with room
  · rw [List.length_append, List.length_singleton]
    exact room
  · exact few

/-- A problem uses up the node that it was found at. -/
theorem flag_walked {t : WalkState} (room : s.nodes < maxWalkNodes) (below : Walked (counted s) t) :
    Walked s (flag t path problem kind).2 where
  build := below.build
  nodes := (Nat.le_succ _).trans below.nodes
  budget _ := below.budget room
  total := below.total.trans (Nat.le_succ _)
  found := by
    have found : t.totalProblems + (s.nodes + 1) ≤ s.totalProblems + t.nodes := below.found
    rw [flag_total, flag_nodes]
    omega
  retained few := flag_retained _ _ _ _ (below.retained few)

end Flagged

theorem counted_walked {s t : WalkState} (room : s.nodes < maxWalkNodes) (below : Walked (counted s) t) :
    Walked s t where
  build := below.build
  nodes := (Nat.le_succ _).trans below.nodes
  budget _ := below.budget room
  total := below.total
  found := by
    have found : t.totalProblems + (s.nodes + 1) ≤ s.totalProblems + t.nodes := below.found
    omega
  retained := below.retained

section Properties
variable {visit : Visit} {path key : JsString} {v : GraphValue} {rest : List (JsString × GraphValue)} {s : WalkState}

theorem walkProps_absent (room : s.nodes < maxWalkNodes) :
    walkProps visit path ((key, .undefined) :: rest) s = walkProps visit path rest s := by
  rw [walkProps, if_pos room]

theorem walkProps_present (room : s.nodes < maxWalkNodes) (present : v ≠ .undefined) :
    walkProps visit path ((key, v) :: rest) s =
      ((key, (visit v (childPath path ("." ++ key)) s).1) ::
          (walkProps visit path rest (visit v (childPath path ("." ++ key)) s).2).1,
        (walkProps visit path rest (visit v (childPath path ("." ++ key)) s).2).2) := by
  cases v with
  | undefined => exact absurd rfl present
  | _ =>
    rw [walkProps, if_pos room]
    nofun

theorem walkProps_spent (spent : ¬s.nodes < maxWalkNodes) :
    walkProps visit path ((key, v) :: rest) s = ([], (key, v) :: rest, s) := by
  cases v with
  | undefined => rw [walkProps, if_neg spent]
  | _ =>
    rw [walkProps, if_neg spent]
    nofun

end Properties

section Loops
variable {visit : Visit} (walks : Walks visit) (path : JsString)
include walks

theorem walkItems_walked (i : ℕ) (items : List GraphValue) (s : WalkState) :
    Walked s (walkItems visit path i items s).2.2 := by
  induction items generalizing i s with
  | nil => exact .refl s
  | cons item rest ih =>
    rw [walkItems]
    split_ifs with room
    · exact (walks item _ s room).trans (ih (i + 1) _)
    · exact .refl s

theorem walkProps_walked (props : List (JsString × GraphValue)) (s : WalkState) :
    Walked s (walkProps visit path props s).2.2 := by
  induction props generalizing s with
  | nil => exact .refl s
  | cons p rest ih =>
    obtain ⟨key, v⟩ := p
    by_cases room : s.nodes < maxWalkNodes
    · by_cases absent : v = .undefined
      · subst absent
        rw [walkProps_absent room]
        exact ih s
      · rw [walkProps_present room absent]
        exact (walks v _ s room).trans (ih _)
    · rw [walkProps_spent room]
      exact .refl s

end Loops

/-! ### What a walk can do -/

section Containers
variable (visit : Visit) (path : JsString) (s : WalkState)

/-- An array is copied up to what is skipped, and what is skipped is one problem. -/
theorem walkArray_cases (items : List GraphValue) : ∃ out unreached reached,
    walkItems visit path 0 (items.take maxContainerEntries) s = (out, unreached, reached) ∧
    ((∃ problem, walkArray visit items path s =
        (if reached.build then .array (out ++ [(flag reached path problem .oversize).1]) else .null,
          (flag reached path problem .oversize).2)) ∨
      items.length ≤ maxContainerEntries ∧ unreached = [] ∧
        walkArray visit items path s = (if reached.build then .array out else .null, reached)) := by
  rcases looped : walkItems visit path 0 (items.take maxContainerEntries) s with ⟨out, unreached, reached⟩
  refine ⟨out, unreached, reached, rfl, ?_⟩
  rw [walkArray, looped]
  dsimp only
  by_cases skipped : 0 < (items.drop maxContainerEntries).length + unreached.length
  · rw [if_pos skipped]
    exact .inl ⟨_, rfl⟩
  · rw [if_neg skipped]
    refine .inr ⟨?_, List.length_eq_zero_iff.mp (by omega), rfl⟩
    rw [List.length_drop] at skipped
    omega

/-- So is a plain object. -/
theorem walkObject_cases (props : List (JsString × GraphValue)) : ∃ out unreached reached,
    walkProps visit path (props.take maxContainerEntries) s = (out, unreached, reached) ∧
    ((∃ problem, walkObject visit props path s =
        (if reached.build then .object (define out "<truncated>" (flag reached path problem .oversize).1) else .null,
          (flag reached path problem .oversize).2)) ∨
      props.length ≤ maxContainerEntries ∧ unreached = [] ∧
        walkObject visit props path s = (if reached.build then .object out else .null, reached)) := by
  rcases looped : walkProps visit path (props.take maxContainerEntries) s with ⟨out, unreached, reached⟩
  refine ⟨out, unreached, reached, rfl, ?_⟩
  rw [walkObject, looped]
  dsimp only
  by_cases skipped : 0 < (props.drop maxContainerEntries).length + unreached.length
  · rw [if_pos skipped]
    exact .inl ⟨_, rfl⟩
  · rw [if_neg skipped]
    refine .inr ⟨?_, List.length_eq_zero_iff.mp (by omega), rfl⟩
    rw [List.length_drop] at skipped
    omega

end Containers

/-- A value that is written as it is, at every depth that can be written at. -/
structure Scalar (heap : Heap) (v : GraphValue) (tree : JsValue) : Prop where
  read : ∀ levels, v.read heap levels = some tree
  accepted : ∀ depth ≤ canonicalMaxDepth, accepts depth tree = true

section Cases
variable {heap : Heap} {ancestors : List ℕ} {v : GraphValue} {path : JsString} {s : WalkState}

/-- A walk within its budget flags the value, takes it as it is, or goes on below it. -/
theorem walk_cases (room : s.nodes < maxWalkNodes) (levels : ℕ) :
    (∃ problem kind, walk heap levels ancestors v path s = flag (counted s) path problem kind) ∨
    ∃ below, levels = below + 1 ∧
      ((∃ tree, Scalar heap v tree ∧ walk heap levels ancestors v path s = (tree, counted s)) ∨
      ∃ address, v = .ref address ∧
        ((∃ items, heap address = .array items ∧ walk heap levels ancestors v path s =
          walkArray (walk heap below (address :: ancestors)) items path (counted s)) ∨
        ∃ props, heap address = .object props ∧ walk heap levels ancestors v path s =
          walkObject (walk heap below (address :: ancestors)) props path (counted s))) := by
  have within : ¬maxWalkNodes < (counted s).nodes := Nat.not_lt.mpr room
  cases levels with
  | zero =>
    left
    rw [walk]
    exact ⟨_, _, if_neg within⟩
  | succ below =>
    cases v with
    | null =>
      refine .inr ⟨below, rfl, .inl ⟨.null, ⟨fun levels => by cases levels <;> rfl, by simp [accepts]⟩, ?_⟩⟩
      rw [walk]
      exact if_neg within
    | string text =>
      refine .inr ⟨below, rfl, .inl ⟨.string text, ⟨fun levels => by cases levels <;> rfl, by simp [accepts]⟩, ?_⟩⟩
      rw [walk]
      exact if_neg within
    | boolean b =>
      refine .inr ⟨below, rfl, .inl ⟨.boolean b, ⟨fun levels => by cases levels <;> rfl, by simp [accepts]⟩, ?_⟩⟩
      rw [walk]
      exact if_neg within
    | number n =>
      by_cases finite : n.isFinite = true
      · have stands : ∀ levels, GraphValue.read heap levels (.number n) = some (.number n) :=
          fun levels => by cases levels <;> rfl
        refine .inr ⟨below, rfl, .inl ⟨.number n, ⟨stands, by simp [accepts, finite]⟩, ?_⟩⟩
        rw [walk]
        exact (if_neg within).trans (if_pos finite)
      · left
        rw [walk]
        exact ⟨_, _, (if_neg within).trans (if_neg finite)⟩
    | bigint n =>
      left
      rw [walk]
      exact ⟨_, _, if_neg within⟩
    | undefined =>
      left
      rw [walk]
      exact ⟨_, _, if_neg within⟩
    | function =>
      left
      rw [walk]
      exact ⟨_, _, if_neg within⟩
    | symbol =>
      left
      rw [walk]
      exact ⟨_, _, if_neg within⟩
    | ref address =>
      rw [walk]
      by_cases circular : ancestors.contains address = true
      · exact .inl ⟨_, _, (if_neg within).trans (if_pos circular)⟩
      · cases held : heap address with
        | array items =>
          refine .inr ⟨below, rfl, .inr ⟨address, rfl, .inl ⟨items, held, ?_⟩⟩⟩
          exact (if_neg within).trans (if_neg circular)
        | object props =>
          refine .inr ⟨below, rfl, .inr ⟨address, rfl, .inr ⟨props, held, ?_⟩⟩⟩
          exact (if_neg within).trans (if_neg circular)
        | foreign name =>
          refine .inl ⟨clamp name 40 ++ " is not a plain object", .unrepresentable, ?_⟩
          exact (if_neg within).trans (if_neg circular)

end Cases

section Bounded
variable {heap : Heap} {visit : Visit} {path : JsString} {s : WalkState}

theorem walkArray_walked (walks : Walks visit) (room : s.nodes < maxWalkNodes) (items : List GraphValue) :
    Walked s (walkArray visit items path (counted s)).2 := by
  obtain ⟨out, unreached, reached, looped, either⟩ := walkArray_cases visit path (counted s) items
  have below := walkItems_walked walks path 0 (items.take maxContainerEntries) (counted s)
  rw [looped] at below
  obtain ⟨problem, same⟩ | ⟨-, -, same⟩ := either
  · rw [same]
    exact flag_walked _ _ _ _ room below
  · rw [same]
    exact counted_walked room below

theorem walkObject_walked (walks : Walks visit) (room : s.nodes < maxWalkNodes) (props : List (JsString × GraphValue)) :
    Walked s (walkObject visit props path (counted s)).2 := by
  obtain ⟨out, unreached, reached, looped, either⟩ := walkObject_cases visit path (counted s) props
  have below := walkProps_walked walks path (props.take maxContainerEntries) (counted s)
  rw [looped] at below
  obtain ⟨problem, same⟩ | ⟨-, -, same⟩ := either
  · rw [same]
    exact flag_walked _ _ _ _ room below
  · rw [same]
    exact counted_walked room below

/-- The walk visits no more than its budget and finds no more than it visits. -/
theorem walk_walks (heap : Heap) (levels : ℕ) (ancestors : List ℕ) : Walks (walk heap levels ancestors) := by
  induction levels generalizing ancestors with
  | zero =>
    intro v path s room
    obtain ⟨problem, kind, same⟩ | ⟨below, deeper, -⟩ := walk_cases room 0
    · rw [same]
      exact flag_walked _ _ _ _ room (.refl _)
    · cases deeper
  | succ levels ih =>
    intro v path s room
    obtain ⟨problem, kind, same⟩ | ⟨below, deeper, inside⟩ := walk_cases room (levels + 1)
    · rw [same]
      exact flag_walked _ _ _ _ room (.refl _)
    · obtain rfl := Nat.succ.inj deeper
      obtain ⟨tree, -, same⟩ | ⟨address, -, ⟨items, -, same⟩ | ⟨props, -, same⟩⟩ := inside
      · rw [same]
        exact counted_walked room (.refl _)
      · rw [same]
        exact walkArray_walked (ih _) room items
      · rw [same]
        exact walkObject_walked (ih _) room props

/-! ### The copy -/

/-- What a visit gives can be written at a depth. -/
def Writes (depth : ℕ) (visit : Visit) : Prop :=
  ∀ v path s, s.nodes < maxWalkNodes → accepts depth (visit v path s).1 = true

theorem walkItems_writes {depth : ℕ} (writes : Writes depth visit) (i : ℕ) (items : List GraphValue) (s : WalkState) :
    ∀ item ∈ (walkItems visit path i items s).1, accepts depth item = true := by
  induction items generalizing i s with
  | nil => exact List.forall_mem_nil _
  | cons item rest ih =>
    rw [walkItems]
    split_ifs with room
    · exact List.forall_mem_cons.mpr ⟨writes item _ s room, ih (i + 1) _⟩
    · exact List.forall_mem_nil _

theorem acceptsItems_of_each {depth : ℕ} {items : List JsValue} (each : ∀ item ∈ items, accepts depth item = true) :
    acceptsItems depth items = true := by
  induction items with
  | nil => rfl
  | cons item rest ih =>
    rw [List.forall_mem_cons] at each
    rw [acceptsItems, Bool.and_eq_true]
    exact ⟨each.1, ih each.2⟩

theorem acceptsProps_of_each {depth : ℕ} {props : List (JsString × JsValue)}
    (each : ∀ p ∈ props, accepts depth p.2 = true) : acceptsProps depth props = true := by
  induction props with
  | nil => rfl
  | cons p rest ih =>
    obtain ⟨key, v⟩ := p
    rw [List.forall_mem_cons] at each
    have present : v ≠ .undefined := by
      rintro rfl
      cases each.1
    rw [acceptsProps_cons present, Bool.and_eq_true]
    exact ⟨each.1, ih each.2⟩

theorem walkProps_writes {depth : ℕ} (writes : Writes depth visit) (props : List (JsString × GraphValue))
    (s : WalkState) :
    ∀ p ∈ (walkProps visit path props s).1, accepts depth p.2 = true := by
  induction props generalizing s with
  | nil => exact List.forall_mem_nil _
  | cons p rest ih =>
    obtain ⟨key, v⟩ := p
    by_cases room : s.nodes < maxWalkNodes
    · by_cases absent : v = .undefined
      · subst absent
        rw [walkProps_absent room]
        exact ih s
      · rw [walkProps_present room absent]
        exact List.forall_mem_cons.mpr ⟨writes v _ s room, ih _⟩
    · rw [walkProps_spent room]
      exact List.forall_mem_nil _

theorem define_writes {depth : ℕ} {props : List (JsString × JsValue)} (each : ∀ p ∈ props, accepts depth p.2 = true)
    (key : JsString) {v : JsValue} (written : accepts depth v = true) :
    ∀ p ∈ define props key v, accepts depth p.2 = true := by
  rw [define]
  split_ifs with there
  · intro p member
    obtain ⟨q, listed, rfl⟩ := List.mem_map.mp member
    split_ifs
    · exact written
    · exact each q listed
  · intro p member
    rcases List.mem_append.mp member with listed | new
    · exact each p listed
    · obtain rfl := List.mem_singleton.mp new
      exact written

theorem flag_writes (s : WalkState) (path problem : JsString) (kind : ProblemKind) {depth : ℕ}
    (shallow : depth ≤ canonicalMaxDepth) : accepts depth (flag s path problem kind).1 = true :=
  decide_eq_true shallow

theorem walkArray_writes {depth : ℕ} (deep : depth + 1 ≤ canonicalMaxDepth) (writes : Writes (depth + 1) visit)
    (items : List GraphValue) :
    accepts depth (walkArray visit items path s).1 = true := by
  obtain ⟨out, unreached, reached, looped, either⟩ := walkArray_cases visit path s items
  have each : ∀ item ∈ (walkItems visit path 0 (items.take maxContainerEntries) s).1, accepts (depth + 1) item = true :=
    walkItems_writes writes 0 _ s
  rw [looped] at each
  have array : ∀ copies : List JsValue, (∀ item ∈ copies, accepts (depth + 1) item = true) →
      accepts depth (if reached.build then .array copies else .null) = true := by
    intro copies written
    cases reached.build with
    | true =>
      rw [if_pos rfl, accepts, Bool.and_eq_true, decide_eq_true_eq]
      exact ⟨Nat.le_of_succ_le deep, acceptsItems_of_each written⟩
    | false => exact decide_eq_true (Nat.le_of_succ_le deep)
  obtain ⟨problem, same⟩ | ⟨-, -, same⟩ := either
  · rw [same]
    refine array _ fun item member => ?_
    rcases List.mem_append.mp member with copied | marker
    · exact each item copied
    · obtain rfl := List.mem_singleton.mp marker
      exact flag_writes _ _ _ _ deep
  · rw [same]
    exact array _ each

theorem walkObject_writes {depth : ℕ} (deep : depth + 1 ≤ canonicalMaxDepth) (writes : Writes (depth + 1) visit)
    (props : List (JsString × GraphValue)) :
    accepts depth (walkObject visit props path s).1 = true := by
  obtain ⟨out, unreached, reached, looped, either⟩ := walkObject_cases visit path s props
  have each : ∀ p ∈ (walkProps visit path (props.take maxContainerEntries) s).1, accepts (depth + 1) p.2 = true :=
    walkProps_writes writes _ s
  rw [looped] at each
  have object : ∀ copies : List (JsString × JsValue), (∀ p ∈ copies, accepts (depth + 1) p.2 = true) →
      accepts depth (if reached.build then .object copies else .null) = true := by
    intro copies written
    cases reached.build with
    | true =>
      rw [if_pos rfl, accepts, Bool.and_eq_true, decide_eq_true_eq]
      exact ⟨Nat.le_of_succ_le deep, acceptsProps_of_each written⟩
    | false => exact decide_eq_true (Nat.le_of_succ_le deep)
  obtain ⟨problem, same⟩ | ⟨-, -, same⟩ := either
  · rw [same]
    exact object _ (define_writes each _ (flag_writes _ _ _ _ deep))
  · rw [same]
    exact object _ each

/-- What the walk gives can be written at the depth it stands at, the markers of what is too deep included. -/
theorem walk_writes (heap : Heap) (levels : ℕ) (few : levels ≤ canonicalMaxDepth) (ancestors : List ℕ) :
    Writes (canonicalMaxDepth - levels) (walk heap levels ancestors) := by
  induction levels generalizing ancestors with
  | zero =>
    intro v path s room
    obtain ⟨problem, kind, same⟩ | ⟨below, deeper, -⟩ := walk_cases room 0
    · rw [same]
      exact flag_writes _ _ _ _ le_rfl
    · cases deeper
  | succ levels ih =>
    intro v path s room
    have shallow : canonicalMaxDepth - (levels + 1) ≤ canonicalMaxDepth := Nat.sub_le _ _
    have next : canonicalMaxDepth - levels = canonicalMaxDepth - (levels + 1) + 1 := by omega
    have writes := fun ancestors => ih (by omega) ancestors
    rw [next] at writes
    obtain ⟨problem, kind, same⟩ | ⟨below, deeper, inside⟩ := walk_cases room (levels + 1)
    · rw [same]
      exact flag_writes _ _ _ _ shallow
    · obtain rfl := Nat.succ.inj deeper
      obtain ⟨tree, scalar, same⟩ | ⟨address, -, ⟨items, -, same⟩ | ⟨props, -, same⟩⟩ := inside
      · rw [same]
        exact scalar.accepted _ shallow
      · rw [same]
        exact walkArray_writes (by omega) (writes _) items
      · rw [same]
        exact walkObject_writes (by omega) (writes _) props

/-! ### Values without problems -/

/-- A visit that finds nothing has seen a tree that can be written, and copies it if it copies. -/
def Clean (heap : Heap) (levels : ℕ) (visit : Visit) : Prop :=
  ∀ v path s, s.nodes < maxWalkNodes → (visit v path s).2.totalProblems = s.totalProblems →
    ∃ tree, v.read heap levels = some tree ∧ accepts (canonicalMaxDepth - levels) tree = true ∧
      (s.build = true → plain (visit v path s).1 = plain tree)

theorem walkItems_clean {levels : ℕ} (walks : Walks visit) (clean : Clean heap levels visit) (i : ℕ)
    (items : List GraphValue) (s : WalkState) (whole : (walkItems visit path i items s).2.1 = [])
    (quiet : (walkItems visit path i items s).2.2.totalProblems = s.totalProblems) :
    ∃ trees, items.mapM (GraphValue.read heap levels) = some trees ∧
      acceptsItems (canonicalMaxDepth - levels) trees = true ∧
      (s.build = true → plainItems (walkItems visit path i items s).1 = plainItems trees) := by
  induction items generalizing i s with
  | nil => exact ⟨[], rfl, rfl, fun _ => rfl⟩
  | cons item rest ih =>
    rw [walkItems] at whole quiet ⊢
    split_ifs at whole quiet ⊢ with room
    · have first := walks item (childPath path ("[" ++ natText i ++ "]")) s room
      have later := walkItems_walked walks path (i + 1) rest (visit item (childPath path ("[" ++ natText i ++ "]")) s).2
      have quiet' : (visit item (childPath path ("[" ++ natText i ++ "]")) s).2.totalProblems = s.totalProblems :=
        le_antisymm (quiet ▸ later.total) first.total
      obtain ⟨tree, seen, accepted, copied⟩ := clean item _ s room quiet'
      obtain ⟨trees, others, more, copies⟩ := ih (i + 1) _ whole (quiet.trans quiet'.symm)
      refine ⟨tree :: trees, ?_, ?_, fun build => ?_⟩
      · rw [List.mapM_cons, seen, others]
        rfl
      · rw [acceptsItems, accepted, more]
        rfl
      · rw [plainItems, plainItems, copied build, copies (first.build.trans build)]

theorem walkProps_clean {levels : ℕ} (walks : Walks visit) (clean : Clean heap levels visit)
    (props : List (JsString × GraphValue)) (s : WalkState) (whole : (walkProps visit path props s).2.1 = [])
    (quiet : (walkProps visit path props s).2.2.totalProblems = s.totalProblems) :
    ∃ trees, props.mapM (fun p => (GraphValue.read heap levels p.2).map (p.1, ·)) = some trees ∧
      acceptsProps (canonicalMaxDepth - levels) trees = true ∧
      (s.build = true → plainProps (walkProps visit path props s).1 = plainProps trees) := by
  induction props generalizing s with
  | nil => exact ⟨[], rfl, rfl, fun _ => rfl⟩
  | cons p rest ih =>
    obtain ⟨key, v⟩ := p
    by_cases room : s.nodes < maxWalkNodes
    · by_cases absent : v = .undefined
      · subst absent
        rw [walkProps_absent room] at whole quiet ⊢
        obtain ⟨trees, others, more, copies⟩ := ih s whole quiet
        refine ⟨(key, .undefined) :: trees, ?_, more, copies⟩
        rw [List.mapM_cons, others]
        cases levels <;> rfl
      · rw [walkProps_present room absent] at whole quiet ⊢
        have first := walks v (childPath path ("." ++ key)) s room
        have later := walkProps_walked walks path rest (visit v (childPath path ("." ++ key)) s).2
        have quiet' : (visit v (childPath path ("." ++ key)) s).2.totalProblems = s.totalProblems :=
          le_antisymm (quiet ▸ later.total) first.total
        obtain ⟨tree, seen, accepted, copied⟩ := clean v _ s room quiet'
        obtain ⟨trees, others, more, copies⟩ := ih _ whole (quiet.trans quiet'.symm)
        have present : tree ≠ .undefined := by
          rintro rfl
          cases accepted
        refine ⟨(key, tree) :: trees, ?_, ?_, fun build => ?_⟩
        · rw [List.mapM_cons, seen, others]
          rfl
        · rw [acceptsProps_cons present, accepted, more]
          rfl
        · obtain ⟨json, plainly⟩ := plain_of_accepts tree accepted
          have same := copied build
          have present' : (visit v (childPath path ("." ++ key)) s).1 ≠ .undefined := by
            intro lost
            rw [lost, plainly] at same
            cases same
          rw [plainProps_cons present, plainProps_cons present', same, copies (first.build.trans build)]
    · rw [walkProps_spent room] at whole
      cases whole

theorem walkArray_clean {levels : ℕ} (few : levels + 1 ≤ canonicalMaxDepth) (walks : Walks visit)
    (clean : Clean heap levels visit) {items : List GraphValue} {address : ℕ} (held : heap address = .array items)
    (quiet : (walkArray visit items path s).2.totalProblems = s.totalProblems) :
    ∃ tree, (GraphValue.ref address).read heap (levels + 1) = some tree ∧
      accepts (canonicalMaxDepth - (levels + 1)) tree = true ∧
      (s.build = true → plain (walkArray visit items path s).1 = plain tree) := by
  obtain ⟨out, unreached, reached, looped, either⟩ := walkArray_cases visit path s items
  have below := walkItems_walked walks path 0 (items.take maxContainerEntries) s
  rw [looped] at below
  obtain ⟨problem, same⟩ | ⟨capped, rfl, same⟩ := either
  · rw [same] at quiet
    exact absurd quiet (Nat.ne_of_gt (Nat.lt_succ_of_le below.total))
  · rw [List.take_of_length_le capped] at looped
    rw [same] at quiet
    obtain ⟨trees, seen, accepted, copied⟩ :=
      walkItems_clean walks clean 0 items s (by rw [looped]) (by rw [looped]; exact quiet)
    rw [looped] at copied
    refine ⟨.array trees, ?_, ?_, fun build => ?_⟩
    · rw [GraphValue.read, held]
      exact Option.map_eq_some_iff.mpr ⟨trees, seen, rfl⟩
    · rw [accepts, Bool.and_eq_true, decide_eq_true_eq, show canonicalMaxDepth - (levels + 1) + 1 =
        canonicalMaxDepth - levels by omega]
      exact ⟨Nat.sub_le _ _, accepted⟩
    · rw [same]
      dsimp only
      rw [if_pos (below.build.trans build), plain, plain, copied build]

theorem walkObject_clean {levels : ℕ} (few : levels + 1 ≤ canonicalMaxDepth) (walks : Walks visit)
    (clean : Clean heap levels visit) {props : List (JsString × GraphValue)} {address : ℕ}
    (held : heap address = .object props) (quiet : (walkObject visit props path s).2.totalProblems = s.totalProblems) :
    ∃ tree, (GraphValue.ref address).read heap (levels + 1) = some tree ∧
      accepts (canonicalMaxDepth - (levels + 1)) tree = true ∧
      (s.build = true → plain (walkObject visit props path s).1 = plain tree) := by
  obtain ⟨out, unreached, reached, looped, either⟩ := walkObject_cases visit path s props
  have below := walkProps_walked walks path (props.take maxContainerEntries) s
  rw [looped] at below
  obtain ⟨problem, same⟩ | ⟨capped, rfl, same⟩ := either
  · rw [same] at quiet
    exact absurd quiet (Nat.ne_of_gt (Nat.lt_succ_of_le below.total))
  · rw [List.take_of_length_le capped] at looped
    rw [same] at quiet
    obtain ⟨trees, seen, accepted, copied⟩ :=
      walkProps_clean walks clean props s (by rw [looped]) (by rw [looped]; exact quiet)
    rw [looped] at copied
    refine ⟨.object trees, ?_, ?_, fun build => ?_⟩
    · rw [GraphValue.read, held]
      exact Option.map_eq_some_iff.mpr ⟨trees, seen, rfl⟩
    · rw [accepts, Bool.and_eq_true, decide_eq_true_eq, show canonicalMaxDepth - (levels + 1) + 1 =
        canonicalMaxDepth - levels by omega]
      exact ⟨Nat.sub_le _ _, accepted⟩
    · rw [same]
      dsimp only
      rw [if_pos (below.build.trans build), plain, plain, copied build]

theorem walk_clean (heap : Heap) (levels : ℕ) (few : levels ≤ canonicalMaxDepth) (ancestors : List ℕ) :
    Clean heap levels (walk heap levels ancestors) := by
  induction levels generalizing ancestors with
  | zero =>
    intro v path s room quiet
    obtain ⟨problem, kind, same⟩ | ⟨below, deeper, -⟩ := walk_cases room 0
    · rw [same, flag_total] at quiet
      exact absurd quiet (Nat.succ_ne_self _)
    · cases deeper
  | succ levels ih =>
    intro v path s room quiet
    obtain ⟨problem, kind, same⟩ | ⟨below, deeper, inside⟩ := walk_cases room (levels + 1)
    · rw [same, flag_total] at quiet
      exact absurd quiet (Nat.succ_ne_self _)
    · obtain rfl := Nat.succ.inj deeper
      obtain ⟨tree, scalar, same⟩ | ⟨address, rfl, ⟨items, held, same⟩ | ⟨props, held, same⟩⟩ := inside
      · exact ⟨tree, scalar.read _, scalar.accepted _ (Nat.sub_le _ _), fun _ => by rw [same]⟩
      · rw [same] at quiet ⊢
        exact walkArray_clean few (walk_walks heap levels _) (ih (by omega) _) held quiet
      · rw [same] at quiet ⊢
        exact walkObject_clean few (walk_walks heap levels _) (ih (by omega) _) held quiet

/-! ### The two walks -/

/-- A visit does to the state what it does whether or not it copies. -/
def Blind (visit : Visit) : Prop :=
  ∀ v path s b, (visit v path { s with build := b }).2 = { (visit v path s).2 with build := b }

theorem walkItems_blind (blind : Blind visit) (i : ℕ) (items : List GraphValue) (s : WalkState) (b : Bool) :
    (walkItems visit path i items { s with build := b }).2 =
      ((walkItems visit path i items s).2.1, { (walkItems visit path i items s).2.2 with build := b }) := by
  induction items generalizing i s with
  | nil => rfl
  | cons item rest ih =>
    rw [walkItems, walkItems]
    by_cases room : s.nodes < maxWalkNodes
    · rw [if_pos room, if_pos (show ({ s with build := b } : WalkState).nodes < maxWalkNodes from room)]
      dsimp only
      rw [blind]
      exact ih (i + 1) _
    · rw [if_neg room, if_neg (show ¬({ s with build := b } : WalkState).nodes < maxWalkNodes from room)]

theorem walkProps_blind (blind : Blind visit) (props : List (JsString × GraphValue)) (s : WalkState) (b : Bool) :
    (walkProps visit path props { s with build := b }).2 =
      ((walkProps visit path props s).2.1, { (walkProps visit path props s).2.2 with build := b }) := by
  induction props generalizing s with
  | nil => rfl
  | cons p rest ih =>
    obtain ⟨key, v⟩ := p
    by_cases room : s.nodes < maxWalkNodes
    · have room' : ({ s with build := b } : WalkState).nodes < maxWalkNodes := room
      by_cases absent : v = .undefined
      · subst absent
        rw [walkProps_absent room, walkProps_absent room']
        exact ih s
      · rw [walkProps_present room absent, walkProps_present room' absent]
        dsimp only
        rw [blind]
        exact ih _
    · have spent : ¬({ s with build := b } : WalkState).nodes < maxWalkNodes := room
      rw [walkProps_spent room, walkProps_spent spent]

theorem walkArray_blind (blind : Blind visit) (items : List GraphValue) (s : WalkState) (b : Bool) :
    (walkArray visit items path { s with build := b }).2 = { (walkArray visit items path s).2 with build := b } := by
  have same := @walkItems_blind visit path blind 0 (items.take maxContainerEntries) s b
  rcases looped : walkItems visit path 0 (items.take maxContainerEntries) s with ⟨out, unreached, reached⟩
  rcases looped' : walkItems visit path 0 (items.take maxContainerEntries) { s with build := b } with
    ⟨out', unreached', reached'⟩
  rw [looped, looped'] at same
  cases same
  rw [walkArray, walkArray, looped, looped']
  dsimp only
  split_ifs
  · rfl
  · rfl

theorem walkObject_blind (blind : Blind visit) (props : List (JsString × GraphValue)) (s : WalkState) (b : Bool) :
    (walkObject visit props path { s with build := b }).2 = { (walkObject visit props path s).2 with build := b } := by
  have same := @walkProps_blind visit path blind (props.take maxContainerEntries) s b
  rcases looped : walkProps visit path (props.take maxContainerEntries) s with ⟨out, unreached, reached⟩
  rcases looped' : walkProps visit path (props.take maxContainerEntries) { s with build := b } with
    ⟨out', unreached', reached'⟩
  rw [looped, looped'] at same
  cases same
  rw [walkObject, walkObject, looped, looped']
  dsimp only
  split_ifs
  · rfl
  · rfl

theorem walk_blind (heap : Heap) (levels : ℕ) (ancestors : List ℕ) : Blind (walk heap levels ancestors) := by
  induction levels generalizing ancestors with
  | zero =>
    intro v path s b
    rw [walk, walk]
    dsimp only
    split_ifs
    · rfl
    · rfl
  | succ levels ih =>
    intro v path s b
    rw [walk.eq_def heap (levels + 1) ancestors v path s, walk.eq_def heap (levels + 1) ancestors v path]
    dsimp only
    by_cases spent : maxWalkNodes < s.nodes + 1
    · rw [if_pos spent, if_pos spent]
      rfl
    · rw [if_neg spent, if_neg spent]
      cases v with
      | number n =>
        dsimp only
        split_ifs
        · rfl
        · rfl
      | ref address =>
        dsimp only
        split_ifs
        · rfl
        · cases heap address with
          | array items => exact walkArray_blind (ih _) items (counted s) b
          | object props => exact walkObject_blind (ih _) props (counted s) b
          | foreign name => rfl
      | _ => rfl

end Bounded

/-! ### The rows -/

/-- A row can be written if its data can be, a level below it. -/
theorem unhashed_written {entry : LedgerEntry} (finite : entry.seq.isFinite = true)
    (data : accepts 1 entry.data = true) : ∃ text, canonicalJson entry.unhashed = .ok text := by
  rw [canonicalJson_iff, LedgerEntry.unhashed, accepts, Bool.and_eq_true]
  refine ⟨rfl, acceptsProps_of_each ?_⟩
  have texts : ∀ {name : JsString} (text : Option JsString), ∀ p ∈ LedgerEntry.optional name text,
      accepts (0 + 1) p.2 = true := by
    intro name text p member
    cases text with
    | none => cases member
    | some text =>
      obtain rfl := List.mem_singleton.mp member
      rfl
  simp only [LedgerEntry.members, List.mem_cons, List.mem_append, List.not_mem_nil, or_false]
  rintro p (rfl | rfl | rfl | (member | member) | rfl | rfl)
  · rw [accepts, finite]
    rfl
  · rfl
  · rfl
  · exact texts _ p member
  · exact texts _ p member
  · exact data
  · rfl

/-- The data of the row for an intent with problems. -/
def sanitizedData (report : IntentShapeReport) (sanitized : JsValue) : JsValue :=
  .object ([(encode "intent", sanitized), (encode "intentSanitized", .boolean true),
    (encode "problems", .array (report.problems.map fun p => .string (p.path ++ ": " ++ p.problem))),
    (encode "problemsTotal", .number (report.totalProblems : ℤ))] ++
    if report.problems.length < report.totalProblems then [(encode "problemsTruncated", .boolean true)] else [])

theorem sanitizedData_written {report : IntentShapeReport} {sanitized : JsValue} (written : accepts 2 sanitized = true)
    (few : report.totalProblems ≤ maxWalkNodes) : accepts 1 (sanitizedData report sanitized) = true := by
  rw [sanitizedData, accepts, Bool.and_eq_true]
  refine ⟨rfl, acceptsProps_of_each ?_⟩
  intro p member
  rcases List.mem_append.mp member with told | truncated
  · simp only [List.mem_cons, List.not_mem_nil, or_false] at told
    obtain rfl | rfl | rfl | rfl := told
    · exact written
    · rfl
    · rw [accepts, Bool.and_eq_true]
      refine ⟨rfl, acceptsItems_of_each ?_⟩
      intro item listed
      obtain ⟨problem, -, rfl⟩ := List.mem_map.mp listed
      rfl
    · have narrow : report.totalProblems < 2 ^ 53 := lt_of_le_of_lt few (by norm_num [maxWalkNodes])
      rw [accepts, Number.intCast_def (Number.natCast_narrow narrow)]
      rfl
  · split_ifs at truncated
    · obtain rfl := List.mem_singleton.mp truncated
      rfl
    · cases truncated

section Report
variable (heap : Heap) (v : GraphValue)

/-- What one pass over an intent gives, and the state it ends in. -/
def pass (build : Bool) : JsValue × WalkState := walk heap (maxIntentDepth + 1) [] v "$" (freshState build)

theorem pass_walked (build : Bool) : Walked (freshState build) (pass heap v build).2 :=
  walk_walks heap _ [] v _ _ (show 0 < maxWalkNodes by decide)

/-- Building the copy changes nothing about what is found. -/
theorem pass_total : (pass heap v true).2.totalProblems = (pass heap v false).2.totalProblems := by
  have same : (pass heap v true).2 = { (pass heap v false).2 with build := true } :=
    walk_blind heap _ [] v "$" (freshState false) true
  rw [same]

/-- The report is empty, or what the pass that builds gives. -/
theorem inspectIntentShape_cases :
    ((pass heap v true).2.totalProblems = 0 ∧ inspectIntentShape heap v = ⟨[], 0, none, false, none, false, false⟩) ∨
    0 < (pass heap v true).2.totalProblems ∧ (inspectIntentShape heap v).sanitized = some (pass heap v true).1 ∧
      (inspectIntentShape heap v).totalProblems = (pass heap v true).2.totalProblems ∧
      (inspectIntentShape heap v).problems = (pass heap v true).2.problems := by
  rw [pass_total]
  by_cases none : (pass heap v false).2.totalProblems = 0
  · refine .inl ⟨none, ?_⟩
    exact if_pos none
  · refine .inr ⟨Nat.pos_of_ne_zero none, ?_⟩
    have reported : inspectIntentShape heap v = _ := if_neg none
    rw [reported]
    exact ⟨rfl, pass_total heap v, rfl⟩

end Report

/-- The inspection agrees with the serializer. A value without problems is a tree that every row can carry as
it is, and that the copy would not differ from; of any other value every row can carry the copy and the
problems; neither pass visits more nodes than its budget, and no more problems are kept than that many; and a
copy is made only where there are problems. -/
theorem inspection_agrees (heap : Heap) (v : GraphValue) :
    ((inspectIntentShape heap v).totalProblems = 0 → ∃ tree, v.Stands heap tree ∧
      plain (pass heap v true).1 = plain tree ∧
      ∀ entry : LedgerEntry, entry.seq.isFinite = true → entry.data = .object [("intent", tree)] →
        ∃ text, canonicalJson entry.unhashed = .ok text) ∧
    (0 < (inspectIntentShape heap v).totalProblems → ∃ copy, (inspectIntentShape heap v).sanitized = some copy ∧
      ∀ entry : LedgerEntry, entry.seq.isFinite = true →
        entry.data = sanitizedData (inspectIntentShape heap v) copy →
        ∃ text, canonicalJson entry.unhashed = .ok text) ∧
    (∀ build, (pass heap v build).2.nodes ≤ maxWalkNodes) ∧
    (inspectIntentShape heap v).problems.length ≤ maxReportedProblems ∧
    ((inspectIntentShape heap v).sanitized.isSome = true → 0 < (inspectIntentShape heap v).totalProblems) := by
  have walked := pass_walked heap v true
  have shallow : maxIntentDepth + 1 ≤ canonicalMaxDepth := by decide
  have depth : canonicalMaxDepth - (maxIntentDepth + 1) = 2 := by decide
  have bounded : ∀ build, (pass heap v build).2.nodes ≤ maxWalkNodes :=
    fun build => (pass_walked heap v build).budget (Nat.zero_le _)
  have few : (pass heap v true).2.totalProblems ≤ maxWalkNodes := by
    have found : (pass heap v true).2.totalProblems + 0 ≤ 0 + (pass heap v true).2.nodes := walked.found
    have within := bounded true
    omega
  obtain ⟨none, reported⟩ | ⟨some_problem, sanitized, total, problems⟩ := inspectIntentShape_cases heap v
  · rw [reported]
    refine ⟨fun _ => ?_, fun impossible => absurd impossible (lt_irrefl 0), bounded, Nat.zero_le _, nofun⟩
    obtain ⟨tree, seen, accepted, copied⟩ :=
      walk_clean heap _ shallow [] v "$" (freshState true) (by decide) none
    rw [depth] at accepted
    refine ⟨tree, ⟨_, seen⟩, copied rfl, fun entry finite data => unhashed_written finite ?_⟩
    rw [data, accepts, Bool.and_eq_true]
    refine ⟨rfl, acceptsProps_of_each fun p member => ?_⟩
    obtain rfl := List.mem_singleton.mp member
    exact accepted
  · rw [total, sanitized, problems]
    refine ⟨fun none => absurd none (Nat.ne_of_gt some_problem), fun _ => ⟨_, rfl, fun entry finite data => ?_⟩,
      bounded, walked.retained (Nat.zero_le _), fun _ => some_problem⟩
    have written := walk_writes heap _ shallow [] v "$" (freshState true) (by decide)
    rw [depth] at written
    refine unhashed_written finite ?_
    rw [data]
    exact sanitizedData_written written (by rw [total]; exact few)

end Vaduno.Policy.IntentShape
