import Mathlib.Data.Nat.Log
import Mathlib.Tactic.Linarith

/-! Merkle trees over any node function. A tree is defined by splitting its leaves at a power of two,
from the root down; verifiers walk it from a leaf up, level by level. Joining neighbours is the step
that ties the two together: it halves the leaves and changes neither the root nor the proofs. -/
namespace Vaduno.Merkle
variable {H : Type}

/-- The largest power of two strictly below `n`, for `n` from two on. -/
def split (n : ℕ) : ℕ := 2 ^ Nat.log 2 (n - 1)

theorem split_pos (n : ℕ) : 0 < split n := Nat.two_pow_pos _

theorem split_lt (large : 2 ≤ n) : split n < n := by
  have below : split n ≤ n - 1 := Nat.pow_log_le_self 2 (by omega)
  omega

theorem le_two_mul_split (large : 2 ≤ n) : n ≤ 2 * split n := by
  have above : n - 1 < 2 ^ (Nat.log 2 (n - 1) + 1) := Nat.lt_pow_succ_log_self (by omega) _
  rw [pow_succ] at above
  unfold split
  omega

theorem split_half (large : 3 ≤ n) : split n = 2 * split ((n + 1) / 2) := by
  have halves : (n + 1) / 2 - 1 = (n - 1) / 2 := by omega
  rw [split, Nat.log_of_one_lt_of_le (by omega) (by omega), pow_succ, split, halves, mul_comm]

theorem split_eq (k : ℕ) (below : 2 ^ k < n) (above : n ≤ 2 ^ (k + 1)) : split n = 2 ^ k := by
  have exponent : Nat.log 2 (n - 1) = k := by
    refine Nat.log_eq_of_pow_le_of_lt_pow ?_ ?_ <;> omega
  rw [split, exponent]

theorem split_one_or_even (n : ℕ) : split n = 1 ∨ split n % 2 = 0 := by
  unfold split
  cases Nat.log 2 (n - 1) with
  | zero => exact .inl rfl
  | succ k => exact .inr (by rw [pow_succ]; omega)

theorem split_two : split 2 = 1 := split_eq 0 (by decide) (by decide)

section Tree
variable (node : H → H → H)

/-- The next level: neighbours are joined, and a last one without a neighbour moves up. -/
def pairUp : List H → List H
  | x :: y :: rest => node x y :: pairUp rest
  | xs => xs

/-- The neighbours that are joined. -/
def neighbours : List H → List (H × H)
  | x :: y :: rest => (x, y) :: neighbours rest
  | _ => []

theorem length_pairUp (xs : List H) : (pairUp node xs).length = (xs.length + 1) / 2 := by
  induction xs using pairUp.induct with
  | case1 x y rest ih =>
    rw [pairUp, List.length_cons, ih, List.length_cons, List.length_cons]
    omega
  | case2 xs single =>
    rcases xs with _ | ⟨x, _ | ⟨y, rest⟩⟩
    · simp [pairUp]
    · simp [pairUp]
    · exact absurd rfl (single x y rest)

theorem pairUp_append (xs ys : List H) (even : xs.length % 2 = 0) :
    pairUp node (xs ++ ys) = pairUp node xs ++ pairUp node ys := by
  induction xs using pairUp.induct with
  | case1 x y rest ih =>
    rw [List.length_cons, List.length_cons] at even
    simp only [List.cons_append, pairUp, ih (by omega)]
  | case2 xs single =>
    rcases xs with _ | ⟨x, _ | ⟨y, rest⟩⟩
    · rfl
    · cases even
    · exact absurd rfl (single x y rest)

/-- A node with a right neighbour below. -/
theorem getElem?_pairUp_node {xs : List H} (left : xs[2 * j]? = some x)
    (right : xs[2 * j + 1]? = some y) : (pairUp node xs)[j]? = some (node x y) := by
  induction xs using pairUp.induct generalizing j with
  | case1 a b rest ih =>
    cases j with
    | zero =>
      cases left
      cases right
      rfl
    | succ j => exact ih left right
  | case2 xs single =>
    rcases xs with _ | ⟨a, _ | ⟨b, rest⟩⟩
    · cases left
    · cases right
    · exact absurd rfl (single a b rest)

/-- The last node, when it has no neighbour below. -/
theorem getElem?_pairUp_last {xs : List H} (left : xs[2 * j]? = some x)
    (last : xs.length = 2 * j + 1) : (pairUp node xs)[j]? = some x := by
  induction xs using pairUp.induct generalizing j with
  | case1 a b rest ih =>
    cases j with
    | zero => cases last
    | succ j =>
      refine ih left ?_
      rw [List.length_cons, List.length_cons] at last
      omega
  | case2 xs single =>
    rcases xs with _ | ⟨a, _ | ⟨b, rest⟩⟩
    · cases left
    · cases j with
      | zero => exact left
      | succ j => cases left
    · exact absurd rfl (single a b rest)

/-- The root, by the split; a tree without leaves has the root `empty`. -/
def root (empty : H) (xs : List H) : H :=
  if xs.length ≤ 1 then xs.headD empty
  else
    node (root empty (xs.take (split xs.length))) (root empty (xs.drop (split xs.length)))
termination_by xs.length
decreasing_by
  · have := split_lt (n := xs.length) (by omega)
    simp only [List.length_take]
    omega
  · have := split_pos xs.length
    simp only [List.length_drop]
    omega

/-- The nodes beside the way up from a leaf, from the leaf on. -/
def siblings (xs : List H) (i : ℕ) : List H :=
  if xs.length ≤ 1 then []
  else
    (if i % 2 = 1 then xs[i - 1]? else xs[i + 1]?).toList ++ siblings (pairUp node xs) (i / 2)
termination_by xs.length
decreasing_by
  rw [length_pairUp]
  omega

/-- Every pair that is joined somewhere in the tree over these leaves. -/
def joins (xs : List H) : List (H × H) :=
  if xs.length ≤ 1 then [] else neighbours xs ++ joins (pairUp node xs)
termination_by xs.length
decreasing_by
  rw [length_pairUp]
  omega

/-- No other pair joins to the same node as one of these. -/
def Binding (pairs : List (H × H)) : Prop :=
  ∀ p ∈ pairs, ∀ a b, node a b = node p.1 p.2 → a = p.1 ∧ b = p.2

variable {node} {empty : H}

theorem Binding.neighbours {xs : List H} (binding : Binding node (joins node xs))
    (large : 2 ≤ xs.length) : Binding node (neighbours xs) := by
  rw [joins, if_neg (by omega)] at binding
  exact fun p member => binding p (List.mem_append_left _ member)

theorem Binding.pairUp {xs : List H} (binding : Binding node (joins node xs))
    (large : 2 ≤ xs.length) : Binding node (joins node (pairUp node xs)) := by
  rw [joins, if_neg (by omega)] at binding
  exact fun p member => binding p (List.mem_append_right _ member)

theorem mem_neighbours {xs : List H} (left : xs[2 * j]? = some x) (right : xs[2 * j + 1]? = some y) :
    (x, y) ∈ neighbours xs := by
  induction xs using neighbours.induct generalizing j with
  | case1 a b rest ih =>
    cases j with
    | zero =>
      cases left
      cases right
      exact List.mem_cons_self
    | succ j => exact List.mem_cons_of_mem _ (ih left right)
  | case2 xs single =>
    rcases xs with _ | ⟨a, _ | ⟨b, rest⟩⟩
    · cases left
    · cases right
    · exact absurd rfl (single a b rest)

theorem root_single (x : H) : root node empty [x] = x := by
  rw [root]
  rfl

theorem root_split {xs : List H} (large : 2 ≤ xs.length) : root node empty xs =
    node (root node empty (xs.take (split xs.length)))
      (root node empty (xs.drop (split xs.length))) := by
  conv_lhs => rw [root]
  rw [if_neg (by omega)]

/-- Halving the leaves leaves a split tree split where it was. -/
theorem pairUp_split (node : H → H → H) {xs : List H} (large : 3 ≤ xs.length) :
    pairUp node (xs.take (split xs.length)) =
        (pairUp node xs).take (split (pairUp node xs).length) ∧
      pairUp node (xs.drop (split xs.length)) =
        (pairUp node xs).drop (split (pairUp node xs).length) := by
  have half := split_half large
  have below := split_lt (n := xs.length) (by omega)
  have joined : pairUp node xs = pairUp node (xs.take (split xs.length)) ++
      pairUp node (xs.drop (split xs.length)) := by
    rw [← pairUp_append, List.take_append_drop]
    rw [List.length_take]
    omega
  have length : (pairUp node (xs.take (split xs.length))).length =
      split (pairUp node xs).length := by
    rw [length_pairUp, length_pairUp, List.length_take]
    omega
  rw [joined]
  constructor
  · rw [← joined, ← length, joined, List.take_left]
  · rw [← joined, ← length, joined, List.drop_left]

theorem root_pairUp (xs : List H) : root node empty (pairUp node xs) = root node empty xs := by
  induction length : xs.length using Nat.strong_induction_on generalizing xs with
  | _ n ih =>
    subst length
    rcases Nat.lt_or_ge xs.length 3 with small | large
    · rcases xs with _ | ⟨x, _ | ⟨y, _ | ⟨z, rest⟩⟩⟩
      · rfl
      · rfl
      · rw [root_split (show 2 ≤ [x, y].length from Nat.le_refl 2),
          show split [x, y].length = 1 from split_two]
        exact (root_single _).trans (congrArg₂ node (root_single x).symm (root_single y).symm)
      · simp only [List.length_cons] at small
        omega
    · have taken := split_lt (n := xs.length) (by omega)
      have positive := split_pos xs.length
      obtain ⟨left, right⟩ := pairUp_split node large
      have many : 2 ≤ (pairUp node xs).length := by
        rw [length_pairUp]
        omega
      rw [root_split many, ← left, ← right, ih _ _ _ rfl, ih _ _ _ rfl]
      · exact (root_split (by omega)).symm
      · rw [List.length_drop]
        omega
      · rw [List.length_take]
        omega

theorem siblings_single {xs : List H} (small : xs.length ≤ 1) : siblings node xs i = [] := by
  rw [siblings, if_pos small]

theorem siblings_level {xs : List H} (large : 2 ≤ xs.length) : siblings node xs i =
    (if i % 2 = 1 then xs[i - 1]? else xs[i + 1]?).toList ++ siblings node (pairUp node xs) (i / 2) := by
  rw [siblings, if_neg (by omega)]

/-- The siblings by the split: those in the leaf's own part, then the root of the other. -/
theorem siblings_split (empty : H) {xs : List H} (large : 2 ≤ xs.length) (bound : i < xs.length) :
    siblings node xs i =
      if i < split xs.length then
        siblings node (xs.take (split xs.length)) i ++ [root node empty (xs.drop (split xs.length))]
      else
        siblings node (xs.drop (split xs.length)) (i - split xs.length) ++
          [root node empty (xs.take (split xs.length))] := by
  induction length : xs.length using Nat.strong_induction_on generalizing xs i with
  | _ n ih =>
    subst length
    rcases Nat.lt_or_ge xs.length 3 with small | large
    · rcases xs with _ | ⟨x, _ | ⟨y, _ | ⟨z, rest⟩⟩⟩
      · simp at large
      · simp at large
      · rw [siblings_level (show 2 ≤ [x, y].length from Nat.le_refl 2),
          siblings_single (show (pairUp node [x, y]).length ≤ 1 from Nat.le_refl 1)]
        rcases i with _ | _ | i
        · simp [split_two, siblings_single, root_single]
        · simp [split_two, siblings_single, root_single]
        · simp only [List.length_cons, List.length_nil] at bound
          omega
      · simp only [List.length_cons] at small
        omega
    · have taken := split_lt (n := xs.length) (by omega)
      have positive := split_pos xs.length
      have half := split_half large
      have above := le_two_mul_split (n := xs.length) (by omega)
      have halved := length_pairUp node xs
      obtain ⟨left, right⟩ := pairUp_split node large
      have below := ih (pairUp node xs).length (by omega) (i := i / 2) (by omega) (by omega) rfl
      rw [siblings_level (by omega), below, ← left, ← right, root_pairUp, root_pairUp]
      have sizes : split (pairUp node xs).length = split xs.length / 2 := by
        rw [halved]
        omega
      rw [sizes]
      by_cases inLeft : i < split xs.length
      · have inLeft' : i / 2 < split xs.length / 2 := by omega
        rw [if_pos inLeft, if_pos inLeft', ← List.append_assoc,
          siblings_level (show 2 ≤ (xs.take _).length by rw [List.length_take]; omega)]
        have beside : (if i % 2 = 1 then (xs.take (split xs.length))[i - 1]? else
            (xs.take (split xs.length))[i + 1]?) =
            if i % 2 = 1 then xs[i - 1]? else xs[i + 1]? := by
          split_ifs with odd
          · exact List.getElem?_take_of_lt (by omega)
          · exact List.getElem?_take_of_lt (by omega)
        rw [beside]
      · have inRight' : ¬i / 2 < split xs.length / 2 := by omega
        rw [if_neg inLeft, if_neg inRight', ← List.append_assoc]
        congr 1
        have index : i / 2 - split xs.length / 2 = (i - split xs.length) / 2 := by omega
        rw [index]
        rcases Nat.lt_or_ge (split xs.length + 1) xs.length with many | one
        · rw [siblings_level (show 2 ≤ (xs.drop _).length by rw [List.length_drop]; omega)]
          have beside : (if (i - split xs.length) % 2 = 1 then
              (xs.drop (split xs.length))[i - split xs.length - 1]? else
              (xs.drop (split xs.length))[i - split xs.length + 1]?) =
              if i % 2 = 1 then xs[i - 1]? else xs[i + 1]? := by
            rw [List.getElem?_drop, List.getElem?_drop]
            split_ifs <;> first | omega | (congr 1; omega)
          rw [beside]
        · -- a part of one leaf: nothing beside it, and it stays what it is
          have single : (xs.drop (split xs.length)).length ≤ 1 := by
            rw [List.length_drop]
            omega
          rw [siblings_single single, siblings_single (by rw [length_pairUp]; omega),
            if_neg (by omega), List.getElem?_eq_none (by omega)]
          rfl

/-- The root that a path leads to, from node `i` of a level whose last node is `last`. -/
def climb (node : H → H → H) (i last : ℕ) (r : H) (path : List H) : Option H :=
  if last = 0 then if path = [] then some r else none
  else if i % 2 = 1 ∨ i < last then
    match path with
    | [] => none
    | p :: rest => climb node (i / 2) (last / 2) (if i % 2 = 1 then node p r else node r p) rest
  else climb node (i / 2) (last / 2) r path
termination_by last

theorem climb_top : climb node i 0 r path = if path = [] then some r else none := by
  rw [climb.eq_def, if_pos rfl]

/-- What one level does to a node of it: joined with its sibling, or moved up. -/
theorem level_cases (node : H → H → H) {xs : List H} (large : 2 ≤ xs.length) (found : xs[i]? = some r) :
    (∃ p, i % 2 = 1 ∧ xs[i - 1]? = some p ∧ (p, r) ∈ neighbours xs ∧
      (pairUp node xs)[i / 2]? = some (node p r)) ∨
    (∃ p, i % 2 = 0 ∧ i < xs.length - 1 ∧ xs[i + 1]? = some p ∧ (r, p) ∈ neighbours xs ∧
      (pairUp node xs)[i / 2]? = some (node r p)) ∨
    (i % 2 = 0 ∧ i = xs.length - 1 ∧ xs[i + 1]? = none ∧ (pairUp node xs)[i / 2]? = some r) := by
  have bound : i < xs.length := (List.getElem?_eq_some_iff.mp found).1
  rcases Nat.mod_two_eq_zero_or_one i with even | odd
  · rcases Nat.lt_or_ge (i + 1) xs.length with inside | last
    · obtain ⟨p, right⟩ : ∃ p, xs[i + 1]? = some p := ⟨_, List.getElem?_eq_getElem inside⟩
      have index : 2 * (i / 2) = i := by omega
      rw [← index] at found right
      exact .inr (.inl ⟨p, even, by omega, by rwa [← index], mem_neighbours found right,
        getElem?_pairUp_node node found right⟩)
    · refine .inr (.inr ⟨even, by omega, List.getElem?_eq_none last, ?_⟩)
      have index : 2 * (i / 2) = i := by omega
      exact getElem?_pairUp_last node (by rwa [index]) (by omega)
  · obtain ⟨p, left⟩ : ∃ p, xs[i - 1]? = some p := ⟨_, List.getElem?_eq_getElem (by omega)⟩
    have index : 2 * (i / 2) = i - 1 := by omega
    have next : 2 * (i / 2) + 1 = i := by omega
    rw [← next] at found
    rw [← index] at left
    exact .inl ⟨p, odd, by rwa [← index], mem_neighbours left found,
      getElem?_pairUp_node node left found⟩

theorem last_pairUp (xs : List H) : (pairUp node xs).length - 1 = (xs.length - 1) / 2 := by
  rw [length_pairUp]
  omega

/-- From every leaf, its siblings lead to the root. -/
theorem climb_siblings {xs : List H} (found : xs[i]? = some r) :
    climb node i (xs.length - 1) r (siblings node xs i) = some (root node empty xs) := by
  induction length : xs.length using Nat.strong_induction_on generalizing xs i r with
  | _ n ih =>
    subst length
    have bound : i < xs.length := (List.getElem?_eq_some_iff.mp found).1
    rcases Nat.lt_or_ge xs.length 2 with small | large
    · obtain ⟨x, rfl⟩ : ∃ x, xs = [x] := List.length_eq_one_iff.mp (by omega)
      obtain rfl : i = 0 := by simpa using bound
      cases found
      rw [siblings_single (show [r].length ≤ 1 from Nat.le_refl 1), root_single]
      exact climb_top
    · have lower : ∀ q, (pairUp node xs)[i / 2]? = some q →
          climb node (i / 2) ((xs.length - 1) / 2) q (siblings node (pairUp node xs) (i / 2)) =
            some (root node empty xs) := fun q next => by
        have led := ih (pairUp node xs).length (by rw [length_pairUp]; omega) next rfl
        rwa [last_pairUp, root_pairUp] at led
      rw [climb.eq_def, if_neg (by omega), siblings_level large]
      rcases level_cases node large found with
        ⟨p, odd, left, beside, next⟩ | ⟨p, even, inside, right, beside, next⟩ | ⟨even, last, alone, next⟩
      · rw [if_pos (.inl odd), if_pos odd, left]
        simpa [odd] using lower _ next
      · rw [if_pos (.inr inside), if_neg (by omega), right]
        simpa [even] using lower _ next
      · rw [if_neg (by omega), if_neg (by omega), alone]
        exact lower _ next

/-- Only its siblings lead from a leaf to the root, and they do not lead there from anything else. -/
theorem climb_sound {xs : List H} (binding : Binding node (joins node xs)) (bound : i < xs.length)
    (led : climb node i (xs.length - 1) r path = some (root node empty xs)) :
    xs[i]? = some r ∧ path = siblings node xs i := by
  induction length : xs.length using Nat.strong_induction_on generalizing xs i r path with
  | _ n ih =>
    subst length
    obtain ⟨x, found⟩ : ∃ x, xs[i]? = some x := ⟨_, List.getElem?_eq_getElem bound⟩
    rcases Nat.lt_or_ge xs.length 2 with small | large
    · obtain ⟨y, rfl⟩ : ∃ x, xs = [x] := List.length_eq_one_iff.mp (by omega)
      obtain rfl : i = 0 := by simpa using bound
      replace led := climb_top.symm.trans led
      rw [root_single] at led
      split_ifs at led with ended
      cases led
      exact ⟨rfl, ended.trans (siblings_single (show [r].length ≤ 1 from Nat.le_refl 1)).symm⟩
    · have lower : ∀ {q tail}, climb node (i / 2) ((xs.length - 1) / 2) q tail =
          some (root node empty xs) →
          (pairUp node xs)[i / 2]? = some q ∧ tail = siblings node (pairUp node xs) (i / 2) :=
        fun {q tail} led => by
          rw [← last_pairUp, ← root_pairUp] at led
          exact ih (pairUp node xs).length (by rw [length_pairUp]; omega) (binding.pairUp large)
            (by rw [length_pairUp]; omega) led rfl
      rw [climb.eq_def, if_neg (by omega)] at led
      rw [siblings_level large]
      rcases level_cases node large found with
        ⟨p, odd, left, beside, next⟩ | ⟨p, even, inside, right, beside, next⟩ | ⟨even, last, alone, next⟩
      · rw [if_pos (.inl odd)] at led
        rw [if_pos odd, left]
        cases path with
        | nil => cases led
        | cons q tail =>
          obtain ⟨same, rfl⟩ := lower led
          rw [next, if_pos odd] at same
          obtain ⟨rfl, rfl⟩ := binding.neighbours large _ beside _ _ (Option.some.inj same).symm
          exact ⟨found, rfl⟩
      · rw [if_pos (.inr inside)] at led
        rw [if_neg (by omega), right]
        cases path with
        | nil => cases led
        | cons q tail =>
          obtain ⟨same, rfl⟩ := lower led
          rw [next, if_neg (by omega)] at same
          obtain ⟨rfl, rfl⟩ := binding.neighbours large _ beside _ _ (Option.some.inj same).symm
          exact ⟨found, rfl⟩
      · rw [if_neg (by omega)] at led
        rw [if_neg (by omega), alone]
        obtain ⟨same, rfl⟩ := lower led
        rw [next] at same
        cases same
        exact ⟨found, rfl⟩

/-! ### Two trees, one a prefix of the other -/

theorem take_pairUp (node : H → H → H) (xs : List H) (j : ℕ) :
    (pairUp node xs).take j = pairUp node (xs.take (2 * j)) := by
  rcases Nat.lt_or_ge (2 * j) xs.length with inside | beyond
  · have joined := pairUp_append node (xs.take (2 * j)) (xs.drop (2 * j))
      (by rw [List.length_take]; omega)
    have length : (pairUp node (xs.take (2 * j))).length = j := by
      rw [length_pairUp, List.length_take]
      omega
    rw [List.take_append_drop] at joined
    rw [joined]
    exact List.take_left' length
  · rw [List.take_of_length_le beyond, List.take_of_length_le]
    rw [length_pairUp]
    omega

theorem pairUp_injective {xs ys : List H} (binding : Binding node (neighbours xs))
    (lengths : xs.length = ys.length) (same : pairUp node xs = pairUp node ys) : xs = ys := by
  induction xs using pairUp.induct generalizing ys with
  | case1 x y rest ih =>
    rcases ys with _ | ⟨a, _ | ⟨b, others⟩⟩
    · cases lengths
    · simp at lengths
    · obtain ⟨head, tail⟩ := List.cons.inj same
      obtain ⟨rfl, rfl⟩ := binding (x, y) List.mem_cons_self a b head.symm
      rw [ih (fun p member => binding p (List.mem_cons_of_mem _ member)) (by simpa using lengths) tail]
  | case2 xs single =>
    rcases xs with _ | ⟨x, _ | ⟨y, rest⟩⟩
    · exact (List.eq_nil_of_length_eq_zero lengths.symm).symm
    · obtain ⟨a, rfl⟩ := List.length_eq_one_iff.mp lengths.symm
      exact same
    · exact absurd rfl (single x y rest)

theorem neighbours_take (xs : List H) (j : ℕ) (p : H × H)
    (member : p ∈ neighbours (xs.take (2 * j))) : p ∈ neighbours xs := by
  induction xs using neighbours.induct generalizing j with
  | case1 x y rest ih =>
    cases j with
    | zero => cases member
    | succ j =>
      rcases List.mem_cons.mp member with rfl | later
      · exact List.mem_cons_self
      · exact List.mem_cons_of_mem _ (ih j later)
  | case2 xs single =>
    rcases xs with _ | ⟨x, _ | ⟨y, rest⟩⟩
    · rwa [List.take_nil] at member
    · rcases j with _ | j
      · cases member
      · rwa [List.take_of_length_le (by simp only [List.length_singleton]; omega)] at member
    · exact absurd rfl (single x y rest)

theorem take_of_pairUp {xs ys : List H} (binding : Binding node (neighbours xs))
    (left : 2 * j ≤ xs.length) (right : 2 * j ≤ ys.length)
    (same : (pairUp node xs).take j = (pairUp node ys).take j) :
    xs.take (2 * j) = ys.take (2 * j) := by
  rw [take_pairUp, take_pairUp] at same
  refine pairUp_injective (fun p member => binding p (neighbours_take xs j p member)) ?_ same
  rw [List.length_take, List.length_take]
  omega

/-- The roots of an old and a new tree that a path leads to, from node `i`, the last of the old
level, where the new level's last node is `last`. -/
def climbBoth (node : H → H → H) (i last : ℕ) (fr sr : H) (path : List H) : Option (H × H) :=
  if last = 0 then if path = [] then some (fr, sr) else none
  else if i % 2 = 1 ∨ i < last then
    match path with
    | [] => none
    | c :: rest =>
      if i % 2 = 1 then climbBoth node (i / 2) (last / 2) (node c fr) (node c sr) rest
      else climbBoth node (i / 2) (last / 2) fr (node sr c) rest
  else climbBoth node (i / 2) (last / 2) fr sr path
termination_by last

theorem climbBoth_top :
    climbBoth node i 0 fr sr path = if path = [] then some (fr, sr) else none := by
  rw [climbBoth.eq_def, if_pos rfl]

/-- What a level of the old tree does to its last node. -/
theorem old_level (node : H → H → H) {xs : List H} (length : xs.length = i + 1) (found : xs[i]? = some r) :
    (i % 2 = 1 → ∀ p, xs[i - 1]? = some p →
      (p, r) ∈ neighbours xs ∧ (pairUp node xs)[i / 2]? = some (node p r)) ∧
      (i % 2 = 0 → (pairUp node xs)[i / 2]? = some r) ∧
      (pairUp node xs).length = i / 2 + 1 := by
  refine ⟨fun odd p left => ?_, fun even => ?_, ?_⟩
  · have index : 2 * (i / 2) = i - 1 := by omega
    have next : 2 * (i / 2) + 1 = i := by omega
    rw [← next] at found
    rw [← index] at left
    exact ⟨mem_neighbours left found, getElem?_pairUp_node node left found⟩
  · have index : 2 * (i / 2) = i := by omega
    exact getElem?_pairUp_last node (by rwa [index]) (by omega)
  · rw [length_pairUp]
    omega

theorem climbBoth_siblings {xs ys : List H} (length : xs.length = i + 1)
    (old : xs[i]? = some fr) (new : ys[i]? = some sr) (agree : xs.take i = ys.take i) :
    climbBoth node i (ys.length - 1) fr sr (siblings node ys i) =
      some (root node empty xs, root node empty ys) := by
  induction size : ys.length using Nat.strong_induction_on generalizing xs ys i fr sr with
  | _ n ih =>
    subst size
    have bound : i < ys.length := (List.getElem?_eq_some_iff.mp new).1
    rcases Nat.lt_or_ge ys.length 2 with small | large
    · obtain ⟨y, rfl⟩ : ∃ x, ys = [x] := List.length_eq_one_iff.mp (by omega)
      obtain rfl : i = 0 := by simpa using bound
      obtain ⟨x, rfl⟩ := List.length_eq_one_iff.mp length
      cases old
      cases new
      rw [siblings_single (show [sr].length ≤ 1 from Nat.le_refl 1), root_single, root_single]
      exact climbBoth_top
    · obtain ⟨joined, moved, width⟩ := old_level node length old
      have agree' : (pairUp node xs).take (i / 2) = (pairUp node ys).take (i / 2) := by
        rw [take_pairUp, take_pairUp, ← Nat.min_eq_left (show 2 * (i / 2) ≤ i by omega),
          ← List.take_take, ← List.take_take, agree]
      have lower : ∀ p q, (pairUp node xs)[i / 2]? = some p → (pairUp node ys)[i / 2]? = some q →
          climbBoth node (i / 2) ((ys.length - 1) / 2) p q (siblings node (pairUp node ys) (i / 2)) =
            some (root node empty xs, root node empty ys) := fun p q old new => by
        have led := ih (pairUp node ys).length (by rw [length_pairUp]; omega) width old new agree' rfl
        rwa [last_pairUp, root_pairUp, root_pairUp] at led
      rw [climbBoth.eq_def, if_neg (by omega), siblings_level large]
      rcases level_cases node large new with
        ⟨p, odd, left, beside, next⟩ | ⟨p, even, inside, right, beside, next⟩ | ⟨even, last, alone, next⟩
      · have shared : xs[i - 1]? = some p := by
          rw [← List.getElem?_take_of_lt (show i - 1 < i by omega), agree,
            List.getElem?_take_of_lt (by omega), left]
        rw [if_pos (.inl odd), if_pos odd, left]
        simpa [odd] using lower _ _ (joined odd p shared).2 next
      · rw [if_pos (.inr inside), if_neg (by omega), right]
        simpa [even] using lower _ _ (moved even) next
      · rw [if_neg (by omega), if_neg (by omega), alone]
        exact lower _ _ (moved even) next

/-- A path that leads to both roots starts from nodes of both trees, and the trees agree on
everything before them. -/
theorem climbBoth_sound {xs ys : List H} (oldBinding : Binding node (joins node xs))
    (newBinding : Binding node (joins node ys)) (length : xs.length = i + 1) (bound : i < ys.length)
    (led : climbBoth node i (ys.length - 1) fr sr path =
      some (root node empty xs, root node empty ys)) :
    xs[i]? = some fr ∧ ys[i]? = some sr ∧ xs.take i = ys.take i := by
  induction size : ys.length using Nat.strong_induction_on generalizing xs ys i fr sr path with
  | _ n ih =>
    subst size
    obtain ⟨x, old⟩ : ∃ x, xs[i]? = some x := ⟨_, List.getElem?_eq_getElem (by omega)⟩
    obtain ⟨y, new⟩ : ∃ y, ys[i]? = some y := ⟨_, List.getElem?_eq_getElem bound⟩
    rcases Nat.lt_or_ge ys.length 2 with small | large
    · obtain ⟨b, rfl⟩ : ∃ x, ys = [x] := List.length_eq_one_iff.mp (by omega)
      obtain rfl : i = 0 := by simpa using bound
      obtain ⟨a, rfl⟩ := List.length_eq_one_iff.mp length
      replace led := climbBoth_top.symm.trans led
      rw [root_single, root_single] at led
      split_ifs at led
      cases led
      exact ⟨rfl, rfl, rfl⟩
    · obtain ⟨joined, moved, width⟩ := old_level node length old
      have oldUp : Binding node (joins node (pairUp node xs)) := by
        rcases Nat.lt_or_ge xs.length 2 with single | many
        · obtain ⟨a, rfl⟩ := List.length_eq_one_iff.mp (show xs.length = 1 by omega)
          exact oldBinding
        · exact oldBinding.pairUp many
      have lower : ∀ {p q tail}, climbBoth node (i / 2) ((ys.length - 1) / 2) p q tail =
          some (root node empty xs, root node empty ys) →
          (pairUp node xs)[i / 2]? = some p ∧ (pairUp node ys)[i / 2]? = some q ∧
            xs.take (2 * (i / 2)) = ys.take (2 * (i / 2)) := fun {p q tail} led => by
        rw [← last_pairUp, ← root_pairUp xs, ← root_pairUp ys] at led
        obtain ⟨old, new, agree⟩ := ih (pairUp node ys).length (by rw [length_pairUp]; omega)
          oldUp (newBinding.pairUp large) width (by rw [length_pairUp]; omega) led rfl
        exact ⟨old, new, (take_of_pairUp (newBinding.neighbours large) (by omega) (by omega)
          agree.symm).symm⟩
      rw [climbBoth.eq_def, if_neg (by omega)] at led
      rcases level_cases node large new with
        ⟨p, odd, left, beside, next⟩ | ⟨p, even, inside, right, beside, next⟩ | ⟨even, last, alone, next⟩
      · rw [if_pos (.inl odd)] at led
        cases path with
        | nil => cases led
        | cons c tail =>
          simp only [if_pos odd] at led
          obtain ⟨first, second, agree⟩ := lower led
          obtain ⟨q, shared⟩ : ∃ q, xs[i - 1]? = some q := ⟨_, List.getElem?_eq_getElem (by omega)⟩
          obtain ⟨above, parent⟩ := joined odd q shared
          rw [parent] at first
          rw [next] at second
          obtain ⟨rfl, rfl⟩ := oldBinding.neighbours (by omega) _ above _ _
            (Option.some.inj first).symm
          obtain ⟨rfl, rfl⟩ := newBinding.neighbours large _ beside _ _
            (Option.some.inj second).symm
          have before : 2 * (i / 2) = i - 1 := by omega
          have successor : i = i - 1 + 1 := by omega
          rw [before] at agree
          refine ⟨old, new, ?_⟩
          rw [successor, List.take_add_one, List.take_add_one, agree, shared, left]
      · rw [if_pos (.inr inside)] at led
        cases path with
        | nil => cases led
        | cons c tail =>
          simp only [if_neg (show ¬i % 2 = 1 by omega)] at led
          obtain ⟨first, second, agree⟩ := lower led
          rw [moved even] at first
          rw [next] at second
          obtain ⟨rfl, rfl⟩ := newBinding.neighbours large _ beside _ _
            (Option.some.inj second).symm
          have before : 2 * (i / 2) = i := by omega
          rw [before] at agree
          exact ⟨old.trans first, new, agree⟩
      · rw [if_neg (by omega)] at led
        obtain ⟨first, second, agree⟩ := lower led
        rw [moved even] at first
        rw [next] at second
        have before : 2 * (i / 2) = i := by omega
        rw [before] at agree
        exact ⟨old.trans first, new.trans second, agree⟩

/-- The roots of the first `m` and of all `n` leaves that a path leads to. It starts from the last
subtree that the old tree holds whole. -/
def walk (node : H → H → H) (m n : ℕ) (path : List H) : Option (H × H) :=
  if m % 2 = 0 ∧ m ≠ 0 then walk node (m / 2) ((n + 1) / 2) path
  else
    match path with
    | [] => none
    | r :: rest => climbBoth node (m - 1) (n - 1) r r rest
termination_by m

/-- What `walk` needs of the new tree. -/
def consistencyNodes (node : H → H → H) (xs : List H) (m : ℕ) : List H :=
  if m % 2 = 0 ∧ m ≠ 0 then consistencyNodes node (pairUp node xs) (m / 2)
  else xs[m - 1]?.toList ++ siblings node xs (m - 1)
termination_by m

theorem walk_sound {xs ys : List H} (oldBinding : Binding node (joins node xs))
    (newBinding : Binding node (joins node ys)) (positive : 1 ≤ xs.length) (le : xs.length ≤ ys.length)
    (led : walk node xs.length ys.length path = some (root node empty xs, root node empty ys)) :
    xs = ys.take xs.length := by
  induction size : xs.length using Nat.strong_induction_on generalizing xs ys with
  | _ m ih =>
    subst size
    rw [walk.eq_def] at led
    split_ifs at led with even
    · have halved := length_pairUp node xs
      have halved' := length_pairUp node ys
      have half : xs.length / 2 = (pairUp node xs).length := by omega
      rw [← root_pairUp xs, ← root_pairUp ys, half, ← halved'] at led
      have same := ih (pairUp node xs).length (by omega) (oldBinding.pairUp (by omega))
        (newBinding.pairUp (by omega)) (by omega) (by omega) led rfl
      rw [← half] at same
      have agree' : (pairUp node xs).take (xs.length / 2) = (pairUp node ys).take (xs.length / 2) := by
        rw [List.take_of_length_le (by omega)]
        exact same
      have agree := take_of_pairUp (oldBinding.neighbours (by omega)) (by omega) (by omega) agree'
      have whole : 2 * (xs.length / 2) = xs.length := by omega
      rwa [whole, List.take_length] at agree
    · cases path with
      | nil => cases led
      | cons r rest =>
        obtain ⟨old, new, agree⟩ := climbBoth_sound oldBinding newBinding (by omega) (by omega) led
        have successor : xs.length = xs.length - 1 + 1 := by omega
        calc xs = xs.take (xs.length - 1 + 1) := by rw [← successor, List.take_length]
          _ = ys.take (xs.length - 1 + 1) := by
            rw [List.take_add_one, List.take_add_one, agree, old, new]
          _ = ys.take xs.length := by rw [← successor]

theorem walk_consistencyNodes (ys : List H) (positive : 1 ≤ m) (le : m ≤ ys.length) :
    walk node m ys.length (consistencyNodes node ys m) =
      some (root node empty (ys.take m), root node empty ys) := by
  induction m using Nat.strong_induction_on generalizing ys with
  | _ m ih =>
    rw [walk.eq_def, consistencyNodes]
    split_ifs with even
    · have halved := length_pairUp node ys
      have whole : 2 * (m / 2) = m := by omega
      have led := ih (m / 2) (by omega) (pairUp node ys) (by omega) (by omega)
      rwa [take_pairUp, whole, root_pairUp, root_pairUp, halved] at led
    · obtain ⟨r, found⟩ : ∃ r, ys[m - 1]? = some r := ⟨_, List.getElem?_eq_getElem (by omega)⟩
      rw [found]
      refine climbBoth_siblings ?_ ?_ found ?_
      · rw [List.length_take]
        omega
      · rw [List.getElem?_take_of_lt (by omega)]
        exact found
      · rw [List.take_take, Nat.min_eq_left (by omega)]

/-- A consistency proof by the split. Where `complete`, the old tree's root is known already. -/
def subproof (node : H → H → H) (empty : H) (xs : List H) (m : ℕ) (complete : Bool) : List H :=
  if xs.length ≤ max m 1 then if complete then [] else [root node empty xs]
  else if m ≤ split xs.length then
    subproof node empty (xs.take (split xs.length)) m complete ++
      [root node empty (xs.drop (split xs.length))]
  else
    subproof node empty (xs.drop (split xs.length)) (m - split xs.length) false ++
      [root node empty (xs.take (split xs.length))]
termination_by xs.length
decreasing_by
  · have := split_lt (n := xs.length) (by omega)
    simp only [List.length_take]
    omega
  · have := split_pos xs.length
    simp only [List.length_drop]
    omega

theorem subproof_done {xs : List H} (done : xs.length ≤ max m 1) :
    subproof node empty xs m complete = if complete then [] else [root node empty xs] := by
  rw [subproof.eq_def, if_pos done]

theorem subproof_split {xs : List H} (more : max m 1 < xs.length) :
    subproof node empty xs m complete =
      if m ≤ split xs.length then
        subproof node empty (xs.take (split xs.length)) m complete ++
          [root node empty (xs.drop (split xs.length))]
      else
        subproof node empty (xs.drop (split xs.length)) (m - split xs.length) false ++
          [root node empty (xs.take (split xs.length))] := by
  rw [subproof.eq_def, if_neg (by omega)]

/-- An even part of the leaves is found again one level up. -/
theorem subproof_pairUp {xs : List H} (even : m % 2 = 0) (positive : m ≠ 0) (le : m ≤ xs.length) :
    subproof node empty (pairUp node xs) (m / 2) complete = subproof node empty xs m complete := by
  induction size : xs.length using Nat.strong_induction_on generalizing xs m complete with
  | _ n ih =>
    subst size
    have halved := length_pairUp node xs
    rcases Nat.lt_or_ge m xs.length with more | all
    · have large : 3 ≤ xs.length := by omega
      have half := split_half large
      have taken := split_lt (n := xs.length) (by omega)
      have above := le_two_mul_split (n := xs.length) (by omega)
      have sizes : split (pairUp node xs).length = split xs.length / 2 := by
        rw [halved]
        omega
      obtain ⟨left, right⟩ := pairUp_split node large
      have upper : subproof node empty (pairUp node xs) (m / 2) complete = _ :=
        subproof_split (by omega)
      have whole : subproof node empty xs m complete = _ := subproof_split (by omega)
      rw [upper, whole, ← left, ← right, root_pairUp, root_pairUp, sizes]
      by_cases inLeft : m ≤ split xs.length
      · have inLeft' : m / 2 ≤ split xs.length / 2 := by omega
        rw [if_pos inLeft, if_pos inLeft', ih _ _ even positive _ rfl]
        · rw [List.length_take]
          omega
        · rw [List.length_take]
          omega
      · have inRight' : ¬m / 2 ≤ split xs.length / 2 := by omega
        have index : m / 2 - split xs.length / 2 = (m - split xs.length) / 2 := by omega
        rw [if_neg inLeft, if_neg inRight', index, ih _ _ (by omega) (by omega) _ rfl]
        · rw [List.length_drop]
          omega
        · rw [List.length_drop]
          omega
    · rw [subproof_done (by omega), subproof_done (by omega), root_pairUp]

/-- An odd part ends in a single leaf. -/
theorem subproof_odd {xs : List H} (odd : m % 2 = 1) (more : m < xs.length ∨ xs.length = 1)
    (le : m ≤ xs.length) : subproof node empty xs m false =
      xs[m - 1]?.toList ++ siblings node xs (m - 1) := by
  induction size : xs.length using Nat.strong_induction_on generalizing xs m with
  | _ n ih =>
    subst size
    rcases more with more | one
    · have large : 2 ≤ xs.length := by omega
      have taken := split_lt large
      have positive := split_pos xs.length
      have above := le_two_mul_split large
      have parity := split_one_or_even xs.length
      have beside : siblings node xs (m - 1) = _ := siblings_split empty large (by omega)
      rw [subproof_split (by omega), beside]
      by_cases inLeft : m ≤ split xs.length
      · have bound : m - 1 < split xs.length := by omega
        have own := ih (xs.take (split xs.length)).length (by rw [List.length_take]; omega) odd
          (by rw [List.length_take]; omega) (by rw [List.length_take]; omega) rfl
        rw [if_pos inLeft, if_pos bound, own, List.getElem?_take_of_lt bound, List.append_assoc]
      · have bound : ¬m - 1 < split xs.length := by omega
        have index : m - split xs.length - 1 = m - 1 - split xs.length := by omega
        have found : split xs.length + (m - split xs.length - 1) = m - 1 := by omega
        have odd' : (m - split xs.length) % 2 = 1 := by omega
        have own := ih (xs.drop (split xs.length)).length (by rw [List.length_drop]; omega) odd'
          (by rw [List.length_drop]; omega) (by rw [List.length_drop]; omega) rfl
        rw [if_neg inLeft, if_neg bound, own, List.getElem?_drop, found, index, List.append_assoc]
    · obtain ⟨x, rfl⟩ := List.length_eq_one_iff.mp one
      obtain rfl : m = 1 := by omega
      rw [subproof_done (Nat.le_refl 1), siblings_single (show [x].length ≤ 1 from Nat.le_refl 1),
        root_single]
      rfl

/-- Without the old root, a proof is exactly what the walk needs. -/
theorem subproof_false (node : H → H → H) (empty : H) (xs : List H) (positive : 1 ≤ m) (more : m < xs.length) :
    subproof node empty xs m false = consistencyNodes node xs m := by
  induction m using Nat.strong_induction_on generalizing xs with
  | _ m ih =>
    rw [consistencyNodes]
    split_ifs with even
    · rw [← subproof_pairUp even.1 even.2 more.le]
      exact ih (m / 2) (by omega) (pairUp node xs) (by omega) (by rw [length_pairUp]; omega)
    · exact subproof_odd (by omega) (.inl more) more.le

/-- With the old root known, its node is left out exactly where it stands by itself. -/
theorem subproof_true (node : H → H → H) (empty : H) (xs : List H) (positive : 1 ≤ m) (more : m < xs.length) :
    (m.isPowerOfTwo → root node empty (xs.take m) :: subproof node empty xs m true =
        subproof node empty xs m false) ∧
      (¬m.isPowerOfTwo → subproof node empty xs m true = subproof node empty xs m false) := by
  induction size : xs.length using Nat.strong_induction_on generalizing xs with
  | _ n ih =>
    subst size
    have large : 2 ≤ xs.length := by omega
    have taken := split_lt large
    have above := le_two_mul_split large
    have length : (xs.take (split xs.length)).length = split xs.length := by
      rw [List.length_take]
      omega
    rw [subproof_split (show max m 1 < xs.length by omega),
      subproof_split (show max m 1 < xs.length by omega)]
    by_cases inLeft : m ≤ split xs.length
    · rw [if_pos inLeft, if_pos inLeft]
      rcases Nat.lt_or_ge m (split xs.length) with inside | all
      · obtain ⟨alone, shared⟩ := ih _ (by omega) (xs.take (split xs.length)) (by omega) length
        rw [List.take_take, Nat.min_eq_left inLeft] at alone
        exact ⟨fun power => by rw [← alone power]; rfl, fun other => by rw [shared other]⟩
      · obtain rfl : m = split xs.length := by omega
        rw [subproof_done (by omega), subproof_done (by omega)]
        exact ⟨fun _ => rfl, fun other => absurd ⟨_, rfl⟩ other⟩
    · rw [if_neg inLeft, if_neg inLeft]
      refine ⟨?_, fun _ => rfl⟩
      rintro ⟨i, rfl⟩
      have lower := (Nat.pow_lt_pow_iff_right (by omega)).mp (Nat.lt_of_not_ge inLeft)
      have upper : 2 ^ i < 2 ^ (Nat.log 2 (xs.length - 1) + 1) := by
        rw [pow_succ]
        unfold split at above
        omega
      have upper' := (Nat.pow_lt_pow_iff_right (by omega)).mp upper
      omega

theorem length_siblings (node : H → H → H) {xs : List H} (k : ℕ) (le : xs.length ≤ 2 ^ k) :
    (siblings node xs i).length ≤ k := by
  induction k generalizing xs i with
  | zero =>
    rw [siblings_single (by simpa using le)]
    exact Nat.zero_le 0
  | succ k ih =>
    rcases Nat.lt_or_ge xs.length 2 with small | large
    · rw [siblings_single (by omega)]
      exact Nat.zero_le _
    · have upper : (siblings node (pairUp node xs) (i / 2)).length ≤ k :=
        ih (by rw [length_pairUp]; omega)
      rw [siblings_level large, List.length_append]
      have one : (if i % 2 = 1 then xs[i - 1]? else xs[i + 1]?).toList.length ≤ 1 :=
        Option.length_toList_le
      omega

theorem length_consistencyNodes {xs : List H} (k : ℕ) (le : xs.length ≤ 2 ^ k) :
    (consistencyNodes node xs m).length ≤ k + 1 := by
  induction m using Nat.strong_induction_on generalizing xs k with
  | _ m ih =>
    rw [consistencyNodes]
    split_ifs with even
    · refine ih (m / 2) (by omega) k ?_
      rw [length_pairUp]
      omega
    · rw [List.length_append]
      have one : (xs[m - 1]?).toList.length ≤ 1 := Option.length_toList_le
      have rest := length_siblings node (i := m - 1) k le
      omega

/-- Trees of one size with one root have the same leaves. -/
theorem root_injective {xs ys : List H} (binding : Binding node (joins node xs))
    (lengths : xs.length = ys.length) (positive : 1 ≤ xs.length)
    (same : root node empty xs = root node empty ys) : xs = ys := by
  induction size : xs.length using Nat.strong_induction_on generalizing xs ys with
  | _ n ih =>
    subst size
    rcases Nat.lt_or_ge xs.length 2 with small | large
    · obtain ⟨x, rfl⟩ := List.length_eq_one_iff.mp (show xs.length = 1 by omega)
      obtain ⟨y, rfl⟩ := List.length_eq_one_iff.mp lengths.symm
      rw [root_single, root_single] at same
      rw [same]
    · rw [← root_pairUp xs, ← root_pairUp ys] at same
      refine pairUp_injective (binding.neighbours large) lengths
        (ih _ ?_ (binding.pairUp large) ?_ ?_ same rfl)
      · rw [length_pairUp]
        omega
      · rw [length_pairUp, length_pairUp, lengths]
      · rw [length_pairUp]
        omega

end Tree
end Vaduno.Merkle
