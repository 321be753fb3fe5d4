import Vaduno.Transparency.Merkle

/-! Roots and proofs of the log's tree are those of the general tree, its verifiers accept what the
general walks lead to, and so proofs are complete and sound. -/
namespace Vaduno.Transparency
open Ecma
variable {sha256 : Bytes → Hash} {xs : List Hash}

/-- The leaves of the general tree as the code holds them. -/
abbrev hexes (xs : List Hash) : List JsString := xs.map Hash.hex

/-- The root of the general tree. -/
abbrev treeRoot (sha256 : Bytes → Hash) (xs : List Hash) : Hash :=
  Merkle.root (interior sha256) (sha256 []) xs

/-- The leaves from `start` up to `stop`. -/
def slice (xs : List Hash) (start stop : ℕ) : List Hash := (xs.take stop).drop start

theorem length_slice (bound : stop ≤ xs.length) : (slice xs start stop).length = stop - start := by
  rw [slice, List.length_drop, List.length_take, Nat.min_eq_left bound]

theorem take_slice (xs : List Hash) (le : start + k ≤ stop) :
    (slice xs start stop).take k = slice xs start (start + k) := by
  rw [slice, slice, List.take_drop, List.take_take, Nat.min_eq_left le]

theorem drop_slice (xs : List Hash) : (slice xs start stop).drop k = slice xs (start + k) stop := by
  rw [slice, slice, List.drop_drop]

theorem slice_whole (xs : List Hash) (n : ℕ) : slice xs 0 n = xs.take n := rfl

theorem subtreeRoot_hexes (bound : stop ≤ xs.length) :
    subtreeRoot sha256 (hexes xs) start stop = .ok (treeRoot sha256 (slice xs start stop)).hex := by
  induction size : stop - start using Nat.strong_induction_on generalizing start stop with
  | _ n ih =>
    have length : (slice xs start stop).length = stop - start := length_slice bound
    rw [subtreeRoot]
    split_ifs with none single
    · have empty : slice xs start stop = [] := List.eq_nil_of_length_eq_zero (by omega)
      rw [empty, treeRoot, Merkle.root]
      rfl
    · obtain ⟨x, alone⟩ := List.length_eq_one_iff.mp (length.trans single)
      have found : xs[start]? = some x := by
        have first : (slice xs start stop)[0]? = some x := by rw [alone]; rfl
        rwa [slice, List.getElem?_drop, Nat.add_zero, List.getElem?_take_of_lt (by omega)] at first
      rw [alone, treeRoot, Merkle.root_single, List.getD_eq_getElem?_getD, List.getElem?_map, found]
      rfl
    · have large : 2 ≤ stop - start := by omega
      have below := Merkle.split_lt large
      have positive := Merkle.split_pos (stop - start)
      rw [splitPoint_eq large]
      have left : subtreeRoot sha256 (hexes xs) start (start + Merkle.split (stop - start)) = _ :=
        ih (Merkle.split (stop - start)) (by omega) (by omega) (by omega)
      have right : subtreeRoot sha256 (hexes xs) (start + Merkle.split (stop - start)) stop = _ :=
        ih (stop - (start + Merkle.split (stop - start))) (by omega) bound rfl
      have whole : treeRoot sha256 (slice xs start stop) = _ := Merkle.root_split (by omega)
      dsimp only
      rw [left, right, whole, length, take_slice xs (by omega), drop_slice]
      change nodeHash sha256 _ _ = _
      rw [nodeHash, unhex_hex, unhex_hex]
      rfl

theorem rootFromLeafHashes_hexes (bound : n ≤ xs.length) :
    rootFromLeafHashes sha256 (hexes xs) (some n) = .ok (treeRoot sha256 (xs.take n)).hex := by
  have enough : ¬(hexes xs).length < n := by
    rw [List.length_map]
    omega
  rw [rootFromLeafHashes]
  exact (if_neg enough).trans (subtreeRoot_hexes bound)

theorem auditPath_hexes (bound : stop ≤ xs.length) (inside : m < stop - start) :
    auditPath sha256 (hexes xs) start stop m path = .ok (path ++
      (hexes (Merkle.siblings (interior sha256) (slice xs start stop) m)).reverse) := by
  induction size : stop - start using Nat.strong_induction_on generalizing start stop m path with
  | _ n ih =>
    have length : (slice xs start stop).length = stop - start := length_slice bound
    rw [auditPath]
    by_cases large : 1 < stop - start
    · have below := Merkle.split_lt large
      have positive := Merkle.split_pos (stop - start)
      have parts : Merkle.siblings (interior sha256) (slice xs start stop) m = _ :=
        Merkle.siblings_split (sha256 []) (by omega) (by omega)
      rw [length, take_slice xs (by omega), drop_slice] at parts
      rw [if_pos large, splitPoint_eq large, parts]
      dsimp only
      by_cases inLeft : m < Merkle.split (stop - start)
      · rw [if_pos inLeft, if_pos inLeft, subtreeRoot_hexes bound]
        change auditPath sha256 (hexes xs) start _ m _ = _
        rw [ih (Merkle.split (stop - start)) (by omega) (by omega) (by omega) (by omega)]
        simp
      · rw [if_neg inLeft, if_neg inLeft, subtreeRoot_hexes (by omega)]
        change auditPath sha256 (hexes xs) _ stop _ _ = _
        rw [ih (stop - (start + Merkle.split (stop - start))) (by omega) bound (by omega) rfl]
        simp
    · rw [if_neg large, Merkle.siblings_single (by omega)]
      simp

theorem subproof_hexes (bound : stop ≤ xs.length) (positive : 1 ≤ m) (le : m ≤ stop - start) :
    subproof sha256 (hexes xs) m start stop complete out = .ok (out ++
      hexes (Merkle.subproof (interior sha256) (sha256 []) (slice xs start stop) m complete)) := by
  induction size : stop - start using Nat.strong_induction_on
    generalizing start stop m complete out with
  | _ n ih =>
    have length : (slice xs start stop).length = stop - start := length_slice bound
    rw [subproof]
    by_cases all : m = stop - start
    · rw [if_pos all, Merkle.subproof_done (by omega), subtreeRoot_hexes bound]
      cases complete
      · rfl
      · simp
    · have large : 2 ≤ stop - start := by omega
      have below := Merkle.split_lt large
      have left := Merkle.split_pos (stop - start)
      have parts : Merkle.subproof (interior sha256) (sha256 []) (slice xs start stop) m complete = _ :=
        Merkle.subproof_split (by omega)
      rw [length, take_slice xs (by omega), drop_slice] at parts
      rw [if_neg all, if_neg (by omega), splitPoint_eq large, parts]
      dsimp only
      by_cases inLeft : m ≤ Merkle.split (stop - start)
      · rw [if_pos inLeft, if_pos inLeft,
          ih (Merkle.split (stop - start)) (by omega) (by omega) positive (by omega) (by omega),
          subtreeRoot_hexes bound, hexes, hexes, List.map_append, ← List.append_assoc]
        rfl
      · rw [if_neg inLeft, if_neg inLeft,
          ih (stop - (start + Merkle.split (stop - start))) (by omega) bound (by omega) (by omega) rfl,
          subtreeRoot_hexes (by omega), hexes, hexes, List.map_append, ← List.append_assoc]
        rfl

/-! ### The verifiers' loops -/

/-- Where the verifiers shift both numbers until the first is odd, the walks move a last node up. -/
theorem shiftWhileEven_last (node : Hash → Hash → Hash) (positive : n ≠ 0) :
    ∃ k, k % 2 = 1 ∧ shiftWhileEven n n = (k, k) ∧
      (∀ r path, Merkle.climb node n n r path = Merkle.climb node k k r path) ∧
      ∀ fr sr path, Merkle.climbBoth node n n fr sr path = Merkle.climbBoth node k k fr sr path := by
  induction n using Nat.strong_induction_on with
  | _ n ih =>
    rcases Nat.mod_two_eq_zero_or_one n with even | odd
    · obtain ⟨k, odd, shifted, same, both⟩ := ih (n / 2) (by omega) (by omega)
      have moves : ¬(n % 2 = 1 ∨ n < n) := by omega
      refine ⟨k, odd, ?_, fun r path => ?_, fun fr sr path => ?_⟩
      · rw [shiftWhileEven, if_pos ⟨even, positive⟩, shifted]
      · rw [Merkle.climb.eq_def, if_neg positive, if_neg moves, same]
      · rw [Merkle.climbBoth.eq_def, if_neg positive, if_neg moves, both]
    · refine ⟨n, odd, ?_, fun _ _ => rfl, fun _ _ _ => rfl⟩
      rw [shiftWhileEven, if_neg (by omega)]

theorem climb_nil (node : Hash → Hash → Hash) (le : i ≤ last) (more : last ≠ 0) :
    Merkle.climb node i last r [] = none := by
  induction last using Nat.strong_induction_on generalizing i with
  | _ last ih =>
    rw [Merkle.climb.eq_def, if_neg more]
    by_cases takes : i % 2 = 1 ∨ i < last
    · rw [if_pos takes]
    · rw [if_neg takes]
      refine ih (last / 2) ?_ ?_ ?_ <;> omega

theorem climbBoth_nil (node : Hash → Hash → Hash) (le : i ≤ last) (more : last ≠ 0) :
    Merkle.climbBoth node i last fr sr [] = none := by
  induction last using Nat.strong_induction_on generalizing i with
  | _ last ih =>
    rw [Merkle.climbBoth.eq_def, if_neg more]
    by_cases takes : i % 2 = 1 ∨ i < last
    · rw [if_pos takes]
    · rw [if_neg takes]
      refine ih (last / 2) ?_ ?_ ?_ <;> omega

theorem inclusionSteps_hexes (le : fn ≤ sn) :
    inclusionSteps sha256 root fn sn r (hexes path) =
      .ok ((Merkle.climb (interior sha256) fn sn r path).any (·.hex = root)) := by
  induction path generalizing fn sn r with
  | nil =>
    by_cases top : sn = 0
    · subst top
      rw [Merkle.climb_top]
      rfl
    · rw [climb_nil _ le top]
      simp [inclusionSteps, top]
  | cons p rest ih =>
    rw [hexes, List.map_cons, inclusionSteps, unhex_hex]
    change (if sn = 0 then _ else _) = _
    by_cases top : sn = 0
    · subst top
      rw [if_pos rfl, Merkle.climb_top]
      rfl
    · rw [if_neg top]
      by_cases takes : fn % 2 = 1 ∨ fn < sn
      · rw [Merkle.climb.eq_def, if_neg top, if_pos takes]
        by_cases odd : fn % 2 = 1
        · rw [if_pos (.inl odd), if_neg (by omega)]
          simp only [if_pos odd]
          exact ih (by omega)
        · rw [if_neg (by omega)]
          simp only [if_neg odd]
          exact ih (by omega)
      · -- a last node without a neighbour: it moves up to where it has one
        obtain rfl : fn = sn := by omega
        obtain ⟨k, odd, shifted, same, -⟩ := shiftWhileEven_last (interior sha256) top
        rw [if_pos (.inr rfl), if_pos (by omega), shifted, same, Merkle.climb.eq_def,
          if_neg (by omega), if_pos (.inl odd)]
        simp only [if_pos odd]
        exact ih le_rfl

theorem consistencySteps_eq (le : fn ≤ sn) :
    consistencySteps sha256 firstHash secondHash fn sn fr sr path = true ↔
      Merkle.climbBoth (interior sha256) fn sn fr sr path = some (firstHash, secondHash) := by
  induction path generalizing fn sn fr sr with
  | nil =>
    by_cases top : sn = 0
    · subst top
      rw [Merkle.climbBoth_top]
      simp [consistencySteps]
    · rw [climbBoth_nil _ le top]
      simp [consistencySteps, top]
  | cons c rest ih =>
    rw [consistencySteps]
    by_cases top : sn = 0
    · subst top
      rw [if_pos rfl, Merkle.climbBoth_top]
      simp
    · rw [if_neg top]
      by_cases takes : fn % 2 = 1 ∨ fn < sn
      · rw [Merkle.climbBoth.eq_def, if_neg top, if_pos takes]
        by_cases odd : fn % 2 = 1
        · rw [if_pos (.inl odd), if_neg (by omega)]
          simp only [if_pos odd]
          exact ih (by omega)
        · rw [if_neg (by omega)]
          simp only [if_neg odd]
          exact ih (by omega)
      · obtain rfl : fn = sn := by omega
        obtain ⟨k, odd, shifted, -, both⟩ := shiftWhileEven_last (interior sha256) top
        rw [if_pos (.inr rfl), if_pos (by omega), shifted, both, Merkle.climbBoth.eq_def,
          if_neg (by omega), if_pos (.inl odd)]
        simp only [if_pos odd]
        exact ih le_rfl

theorem shiftWhileOdd_le (le : fn ≤ sn) : (shiftWhileOdd fn sn).1 ≤ (shiftWhileOdd fn sn).2 := by
  induction fn using Nat.strong_induction_on generalizing sn with
  | _ fn ih =>
    rw [shiftWhileOdd]
    split_ifs with odd
    · exact ih (fn / 2) (by omega) (by omega)
    · exact le

/-- The walk starts where the shifts by the odd bits end. -/
theorem walk_shiftWhileOdd (node : Hash → Hash → Hash) (positive : 1 ≤ m) (le : m ≤ n) :
    Merkle.walk node m n (r :: rest) =
      Merkle.climbBoth node (shiftWhileOdd (m - 1) (n - 1)).1 (shiftWhileOdd (m - 1) (n - 1)).2
        r r rest := by
  induction m using Nat.strong_induction_on generalizing n with
  | _ m ih =>
    rw [Merkle.walk.eq_def, shiftWhileOdd]
    by_cases even : m % 2 = 0
    · have first : (m - 1) / 2 = m / 2 - 1 := by omega
      have second : (n - 1) / 2 = (n + 1) / 2 - 1 := by omega
      rw [if_pos ⟨even, by omega⟩, if_pos (by omega), first, second]
      exact ih (m / 2) (by omega) (by omega) (by omega)
    · rw [if_neg (fun both => even both.1), if_neg (by omega)]

/-! ### What the verifiers accept -/

theorem safeSize_iff {x : Number} : safeSize x = true ↔ ∃ n : ℕ, 1 ≤ n ∧ n < 2 ^ 53 ∧ x = (n : ℤ) := by
  rw [safeSize, Bool.and_eq_true, decide_eq_true_eq]
  constructor
  · rintro ⟨safe, positive⟩
    exact Number.natCast_of_le safe (k := 1) (by decide) positive
  · rintro ⟨n, positive, bound, rfl⟩
    exact ⟨Number.isSafeInteger_natCast bound, (Number.natCast_le (m := 1) (by decide) bound).mpr positive⟩

theorem mapM_unhex (ps : List Hash) (what : JsString) :
    (hexes ps).mapM (fun p => unhex p what) = .ok ps := by
  induction ps with
  | nil => rfl
  | cons p rest ih =>
    rw [hexes, List.map_cons, List.mapM_cons, unhex_hex, ih]
    rfl

theorem hexes_of_mapM (read : path.mapM (fun p => unhex p what) = .ok ps) : path = hexes ps := by
  induction path generalizing ps with
  | nil =>
    cases read
    rfl
  | cons s rest ih =>
    rw [List.mapM_cons] at read
    cases first : unhex s what with
    | error e => rw [first] at read; cases read
    | ok p =>
      cases others : rest.mapM (fun p => unhex p what) with
      | error e => rw [first, others] at read; cases read
      | ok qs =>
        rw [first, others] at read
        cases read
        rw [ih others, hexes, hexes, List.map_cons, hex_of_unhex first]

/-- The verifier's verdict on a proof whose hashes have been read. -/
def Accepted (sha256 : Bytes → Hash) (m n : ℕ) (firstHash secondHash : Hash) (path : List Hash) :
    Prop :=
  if m = n then path = [] ∧ firstHash = secondHash
  else path ≠ [] ∧
    Merkle.walk (interior sha256) m n (if m &&& (m - 1) = 0 then firstHash :: path else path) =
      some (firstHash, secondHash)

theorem verifyConsistency_hexes {m n : ℕ} (positive : 1 ≤ m) (le : m ≤ n) (bound : n < 2 ^ 53)
    (short : path.length ≤ maxConsistencyPath) :
    verifyConsistency sha256 firstHash.hex secondHash.hex ⟨(m : ℤ), (n : ℤ), hexes path⟩ = true ↔
      Accepted sha256 m n firstHash secondHash path := by
  have first : safeSize (m : ℤ) = true := safeSize_iff.mpr ⟨m, positive, by omega, rfl⟩
  have second : safeSize (n : ℤ) = true := safeSize_iff.mpr ⟨n, by omega, bound, rfl⟩
  have ordered : ¬((n : ℤ) : Number) < (m : ℤ) := by
    rw [Number.natCast_lt bound (by omega)]
    omega
  rw [verifyConsistency, first, second, if_neg (by simpa using ordered),
    if_neg (by simpa using short), unhex_hex, unhex_hex, Accepted]
  change passed (if _ then _ else _) = true ↔ _
  rw [if_congr (Number.natCast_inj (by omega) bound) rfl rfl, List.length_map]
  by_cases same : m = n
  · rw [if_pos same, if_pos same]
    simp [passed]
  · rw [if_neg same, if_neg same]
    by_cases none : path = []
    · subst none
      simp [passed]
    · rw [if_neg (by simpa using none), mapM_unhex, Number.natCast_toNat bound, Number.natCast_toNat (by omega)]
      rw [ok_bind]
      dsimp only
      generalize started : (if m &&& (m - 1) = 0 then firstHash :: path else path) = whole
      cases whole with
      | nil =>
        split_ifs at started
        exact absurd started none
      | cons r rest =>
        rw [walk_shiftWhileOdd _ positive le]
        change consistencySteps sha256 firstHash secondHash _ _ r r rest = true ↔ _
        rw [consistencySteps_eq (shiftWhileOdd_le (by omega))]
        exact (and_iff_right none).symm

/-- What is accepted is well formed. -/
theorem verifyConsistency_read (accepted : verifyConsistency sha256 first second proof = true) :
    ∃ (m n : ℕ) (firstHash secondHash : Hash) (path : List Hash), 1 ≤ m ∧ m ≤ n ∧ n < 2 ^ 53 ∧
      path.length ≤ maxConsistencyPath ∧ firstHash.hex = first ∧ secondHash.hex = second ∧
      proof = ⟨(m : ℤ), (n : ℤ), hexes path⟩ := by
  obtain ⟨a, b, path⟩ := proof
  unfold verifyConsistency at accepted
  by_cases sizes : (!safeSize a || !safeSize b || decide (b < a)) = true
  · rw [if_pos sizes] at accepted
    cases accepted
  by_cases long : maxConsistencyPath < path.length
  · rw [if_neg sizes, if_pos long] at accepted
    cases accepted
  rw [if_neg sizes, if_neg long] at accepted
  simp only [Bool.or_eq_true, Bool.not_eq_true', decide_eq_true_eq, not_or, Bool.not_eq_false]
    at sizes
  obtain ⟨⟨safe, safe'⟩, ordered⟩ := sizes
  obtain ⟨m, positive, small, rfl⟩ := safeSize_iff.mp safe
  obtain ⟨n, -, bound, rfl⟩ := safeSize_iff.mp safe'
  rw [Number.natCast_lt bound small] at ordered
  cases old : unhex first "first root" with
  | error e => rw [old] at accepted; cases accepted
  | ok firstHash =>
    cases new : unhex second "second root" with
    | error e => rw [old, new] at accepted; cases accepted
    | ok secondHash =>
      rw [old, new] at accepted
      change passed (ite _ _ (ite _ _ _)) = true at accepted
      have nodes : ∃ nodes, path = hexes nodes := by
        cases path with
        | nil => exact ⟨[], rfl⟩
        | cons p rest =>
          split_ifs at accepted with same none
          · simp [passed] at accepted
          · cases none
          · cases read : (p :: rest).mapM fun p => unhex p "consistency path node" with
            | error e => rw [read] at accepted; cases accepted
            | ok nodes => exact ⟨nodes, hexes_of_mapM read⟩
      obtain ⟨nodes, rfl⟩ := nodes
      rw [List.length_map] at long
      exact ⟨m, n, firstHash, secondHash, nodes, positive, by omega, bound, by omega,
        hex_of_unhex old, hex_of_unhex new, rfl⟩

theorem inclusionSteps_read (accepted : inclusionSteps sha256 root fn sn r path = .ok true) :
    ∃ nodes, path = hexes nodes := by
  induction path generalizing fn sn r with
  | nil => exact ⟨[], rfl⟩
  | cons s rest ih =>
    rw [inclusionSteps] at accepted
    cases read : unhex s "inclusion path node" with
    | error e => rw [read] at accepted; cases accepted
    | ok p =>
      rw [read] at accepted
      change ite _ _ (ite _ _ _) = _ at accepted
      have tail : ∃ nodes, rest = hexes nodes := by
        by_cases top : sn = 0
        · rw [if_pos top] at accepted
          cases accepted
        · rw [if_neg top] at accepted
          split at accepted
          · exact ih accepted
          · exact ih accepted
      obtain ⟨nodes, rfl⟩ := tail
      exact ⟨p :: nodes, congrArg (· :: hexes nodes) (hex_of_unhex read).symm⟩

/-- The inclusion verifier follows the climb from the leaf. -/
theorem verifyInclusion_iff : verifyInclusion sha256 leaf proof root = true ↔
    ∃ (i n : ℕ) (r rootHash : Hash) (path : List Hash), i < n ∧ n < 2 ^ 53 ∧
      path.length ≤ maxInclusionPath ∧ r.hex = leaf ∧ rootHash.hex = root ∧
      proof = ⟨(i : ℤ), (n : ℤ), hexes path⟩ ∧
      Merkle.climb (interior sha256) i (n - 1) r path = some rootHash := by
  constructor
  · intro accepted
    obtain ⟨index, size, path⟩ := proof
    unfold verifyInclusion at accepted
    split_ifs at accepted with sizes long outside
    simp only [Bool.or_eq_true, Bool.not_eq_true', decide_eq_true_eq, not_or, Bool.not_eq_false]
      at sizes long outside
    obtain ⟨⟨safe, safe'⟩, nonneg⟩ := sizes
    obtain ⟨n, positive, bound, rfl⟩ := safeSize_iff.mp safe
    obtain ⟨i, narrow, rfl⟩ := Number.isSafeInteger_iff.mp safe'
    change ¬((i : Number) < ((0 : ℤ) : Number)) at nonneg
    rw [Number.intCast_lt narrow.le (by norm_num)] at nonneg
    lift i to ℕ using by omega
    rw [Nat.abs_cast] at narrow
    have small : i < 2 ^ 53 := by exact_mod_cast narrow
    rw [Number.natCast_le bound small] at outside
    cases read : unhex leaf "leaf hash" with
    | error e => rw [read] at accepted; cases accepted
    | ok r =>
      rw [read, Number.natCast_toNat small, Number.natCast_toNat bound] at accepted
      change passed (inclusionSteps sha256 root i (n - 1) r path) = true at accepted
      have verdict : inclusionSteps sha256 root i (n - 1) r path = .ok true := by
        cases steps : inclusionSteps sha256 root i (n - 1) r path with
        | error e => rw [steps] at accepted; cases accepted
        | ok verdict =>
          rw [steps] at accepted
          exact congrArg Except.ok accepted
      obtain ⟨nodes, rfl⟩ := inclusionSteps_read verdict
      rw [inclusionSteps_hexes (by omega), Except.ok.injEq, Option.any_eq_true] at verdict
      obtain ⟨rootHash, led, same⟩ := verdict
      rw [List.length_map] at long
      exact ⟨i, n, r, rootHash, nodes, by omega, bound, by omega, hex_of_unhex read,
        of_decide_eq_true same, rfl, led⟩
  · rintro ⟨i, n, r, rootHash, path, inside, bound, short, rfl, rfl, rfl, led⟩
    have size : safeSize (n : ℤ) = true := safeSize_iff.mpr ⟨n, by omega, bound, rfl⟩
    have small : i < 2 ^ 53 := by omega
    have nonneg : ¬((i : ℤ) : Number) < 0 := by
      change ¬((i : ℤ) : Number) < ((0 : ℤ) : Number)
      rw [Number.intCast_lt (Number.natCast_narrow small) (by norm_num)]
      omega
    have below : ¬((n : ℤ) : Number) ≤ (i : ℤ) := by
      rw [Number.natCast_le bound small]
      omega
    rw [verifyInclusion, size, Number.isSafeInteger_natCast small, if_neg (by simpa using nonneg),
      if_neg (by simpa using short), if_neg below, unhex_hex, Number.natCast_toNat small,
      Number.natCast_toNat bound]
    change passed (inclusionSteps sha256 _ i (n - 1) r (hexes path)) = true
    rw [inclusionSteps_hexes (by omega), led]
    exact decide_eq_true rfl

end Vaduno.Transparency
