import Vaduno.Transparency.MerkleProofs

/-! Inclusion and consistency proofs are complete, and they are sound as far as nothing collides with
what the trees concerned have hashed. -/
namespace Vaduno.Transparency
open Ecma
variable {sha256 : Bytes → Hash} {xs ys : List Hash}

/-- Nothing else hashes to what one of these hashes to. -/
def NoCollision (sha256 : Bytes → Hash) (inputs : List Bytes) : Prop :=
  ∀ x ∈ inputs, ∀ y, sha256 y = sha256 x → y = x

/-- All that is hashed in computing the root of a tree from its leaves. -/
def treeInputs (sha256 : Bytes → Hash) (xs : List Hash) : List Bytes :=
  (Merkle.joins (interior sha256) xs).map fun p => nodePrefix :: (p.1.bytes ++ p.2.bytes)

theorem NoCollision.left {xs ys : List Bytes} (free : NoCollision sha256 (xs ++ ys)) : NoCollision sha256 xs :=
  fun x member => free x (List.mem_append_left _ member)

theorem NoCollision.right {xs ys : List Bytes} (free : NoCollision sha256 (xs ++ ys)) : NoCollision sha256 ys :=
  fun x member => free x (List.mem_append_right _ member)

theorem NoCollision.binding (free : NoCollision sha256 (treeInputs sha256 xs)) :
    Merkle.Binding (interior sha256) (Merkle.joins (interior sha256) xs) := by
  intro p member a b same
  have input := free _ (List.mem_map.mpr ⟨p, member, rfl⟩) _ same
  have parts := List.append_inj (List.cons.inj input).2 (by rw [a.length, p.1.length])
  exact ⟨Hash.ext parts.1, Hash.ext parts.2⟩

theorem root_of_hexes (rooted : rootFromLeafHashes sha256 (hexes xs) none = .ok root) :
    (treeRoot sha256 xs).hex = root := by
  have whole : rootFromLeafHashes sha256 (hexes xs) (some xs.length) = .ok root := by
    rw [← rooted, rootFromLeafHashes, rootFromLeafHashes]
    simp
  rw [rootFromLeafHashes_hexes le_rfl, List.take_length] at whole
  exact Except.ok.inj whole

/-! ### A tree of two leaves -/

/-- The hash of the leaf `a`. -/
def hashA : Hash := ⟨[0x02, 0x2a, 0x69, 0x79, 0xe6, 0xda, 0xb7, 0xaa, 0x5a, 0xe4, 0xc3, 0xe5, 0xe4, 0x5f, 0x7e, 0x97,
    0x71, 0x12, 0xa7, 0xe6, 0x35, 0x93, 0x82, 0x0d, 0xbe, 0xc1, 0xec, 0x73, 0x8a, 0x24, 0xf9, 0x3c], rfl⟩

/-- The hash of the leaf `b`. -/
def hashB : Hash := ⟨[0x57, 0xeb, 0x35, 0x61, 0x5d, 0x47, 0xf3, 0x4e, 0xc7, 0x14, 0xca, 0xcd, 0xf5, 0xfd, 0x74, 0x60,
    0x8a, 0x5e, 0x8e, 0x10, 0x27, 0x24, 0xe8, 0x0b, 0x24, 0xb2, 0x87, 0xc0, 0xc2, 0x7b, 0x6a, 0x31], rfl⟩

def hashAB : Hash := ⟨[0xb1, 0x37, 0x98, 0x5f, 0xf4, 0x84, 0xfb, 0x60, 0x0d, 0xb9, 0x31, 0x07, 0xc7, 0x7b, 0x03, 0x65,
    0xc8, 0x0d, 0x78, 0xf5, 0xb4, 0x29, 0xde, 0xd0, 0xfd, 0x97, 0x36, 0x1d, 0x07, 0x79, 0x99, 0xeb], rfl⟩

/-- SHA-256 on the inputs of this tree. -/
def sampleSha256 (input : Bytes) : Hash :=
  if input = [leafPrefix, 0x61] then hashA
  else if input = [leafPrefix, 0x62] then hashB
  else if input = nodePrefix :: (hashA.bytes ++ hashB.bytes) then hashAB
  else ⟨List.replicate 32 0, rfl⟩

theorem interior_sample : interior sampleSha256 hashA hashB = hashAB := by decide

theorem noCollision_sample : NoCollision sampleSha256 (treeInputs sampleSha256 [hashA, hashB]) := by
  have joined : Merkle.joins (interior sampleSha256) [hashA, hashB] = [(hashA, hashB)] := by
    rw [Merkle.joins, if_neg (by decide), Merkle.pairUp, Merkle.pairUp, Merkle.joins, if_pos (by decide)]
    · rfl
    · simp
  intro x member y same
  rw [treeInputs, joined] at member
  obtain rfl := List.mem_singleton.mp member
  change sampleSha256 y = interior sampleSha256 hashA hashB at same
  rw [interior_sample] at same
  unfold sampleSha256 at same
  split_ifs at same with a b ab
  · exact absurd same (by decide)
  · exact absurd same (by decide)
  · exact ab
  · exact absurd same (by decide)

theorem walk_sample : Merkle.walk (interior sampleSha256) 1 2 [hashA, hashB] = some (hashA, hashAB) := by
  rw [Merkle.walk.eq_def, if_neg (by decide)]
  change Merkle.climbBoth (interior sampleSha256) 0 1 hashA hashA [hashB] = _
  rw [Merkle.climbBoth.eq_def, if_neg (by decide), if_pos (by decide)]
  change Merkle.climbBoth (interior sampleSha256) 0 0 hashA (interior sampleSha256 hashA hashB) [] = _
  rw [Merkle.climbBoth_top, interior_sample]
  rfl

theorem treeRoot_sample : treeRoot sampleSha256 [hashA, hashB] = hashAB := by
  rw [treeRoot, Merkle.root_split (by decide), ← interior_sample]
  change interior sampleSha256 (Merkle.root _ _ ([hashA, hashB].take (Merkle.split 2)))
    (Merkle.root _ _ ([hashA, hashB].drop (Merkle.split 2))) = _
  rw [Merkle.split_two]
  exact congrArg₂ _ (Merkle.root_single _) (Merkle.root_single _)

/-! ### Consistency -/

theorem proveConsistency_hexes {m n : ℕ} (positive : 1 ≤ m) (le : m ≤ n) (enough : n ≤ xs.length)
    (bound : n < 2 ^ 53) :
    proveConsistency sha256 (hexes xs) (m : ℤ) (n : ℤ) = .ok ⟨(m : ℤ), (n : ℤ),
      hexes (Merkle.subproof (interior sha256) (sha256 []) (xs.take n) m true)⟩ := by
  have first : ¬((m : ℤ) : Number) < 1 := by
    change ¬((m : ℤ) : Number) < ((1 : ℕ) : ℤ)
    rw [Number.natCast_lt (by omega) (by norm_num)]
    omega
  have ordered : ¬((n : ℤ) : Number) < (m : ℤ) := by
    rw [Number.natCast_lt bound (by omega)]
    omega
  have range : ¬(hexes xs).length < n := by
    rw [List.length_map]
    omega
  rw [proveConsistency, Number.isInteger_natCast (show m < 2 ^ 53 by omega), Number.isInteger_natCast bound,
    if_neg (by simpa using ⟨first, ordered⟩), Number.natCast_toNat bound,
    Number.natCast_toNat (by omega), if_neg range, subproof_hexes enough positive (by omega)]
  rfl

theorem accepted_subproof (sha256 : Bytes → Hash) (xs : List Hash) (positive : 1 ≤ m) (le : m ≤ xs.length) :
    Accepted sha256 m xs.length (treeRoot sha256 (xs.take m)) (treeRoot sha256 xs)
      (Merkle.subproof (interior sha256) (sha256 []) xs m true) := by
  unfold Accepted
  by_cases same : m = xs.length
  · rw [if_pos same, Merkle.subproof_done (by omega), same, List.take_length]
    exact ⟨rfl, rfl⟩
  · rw [if_neg same]
    have more : m < xs.length := by omega
    have led : Merkle.walk (interior sha256) m xs.length _ = some (_, treeRoot sha256 xs) :=
      Merkle.walk_consistencyNodes xs positive le
    rw [← Merkle.subproof_false _ (sha256 []) xs positive more] at led
    obtain ⟨alone, shared⟩ := Merkle.subproof_true (interior sha256) (sha256 []) xs positive more
    constructor
    · rw [Merkle.subproof_split (by omega)]
      split_ifs <;> simp
    · split_ifs with power
      · rw [alone ((Nat.and_sub_one_eq_zero_iff_isPowerOfTwo (by omega)).mp power)]
        exact led
      · rw [shared fun power' => power ((Nat.and_sub_one_eq_zero_iff_isPowerOfTwo (by omega)).mpr power')]
        exact led

theorem length_subproof (positive : 1 ≤ m) (le : m ≤ xs.length) (bound : xs.length < 2 ^ 53) :
    (Merkle.subproof (interior sha256) (sha256 []) xs m true).length ≤ maxConsistencyPath := by
  rcases le.eq_or_lt with all | more
  · rw [Merkle.subproof_done (by omega)]
    exact Nat.zero_le _
  · have whole : (Merkle.consistencyNodes (interior sha256) xs m).length ≤ 53 + 1 :=
      Merkle.length_consistencyNodes 53 bound.le
    rw [← Merkle.subproof_false _ (sha256 []) xs positive more] at whole
    obtain ⟨alone, shared⟩ := Merkle.subproof_true (interior sha256) (sha256 []) xs positive more
    unfold maxConsistencyPath
    by_cases power : m.isPowerOfTwo
    · rw [← alone power, List.length_cons] at whole
      omega
    · rw [shared power]
      omega

/-- An accepted proof between the roots of two trees makes the first a prefix of the second. -/
theorem prefix_of_accepted (old : NoCollision sha256 (treeInputs sha256 xs))
    (new : NoCollision sha256 (treeInputs sha256 ys)) (positive : 1 ≤ xs.length)
    (le : xs.length ≤ ys.length)
    (accepted : Accepted sha256 xs.length ys.length (treeRoot sha256 xs) (treeRoot sha256 ys) path) :
    xs <+: ys := by
  unfold Accepted at accepted
  by_cases same : xs.length = ys.length
  · rw [if_pos same] at accepted
    rw [Merkle.root_injective old.binding same positive accepted.2]
  · rw [if_neg same] at accepted
    rw [Merkle.walk_sound old.binding new.binding positive le accepted.2]
    exact List.take_prefix _ _

theorem prefix_of_verifyConsistency {proof : ConsistencyProof}
    (old : NoCollision sha256 (treeInputs sha256 xs))
    (new : NoCollision sha256 (treeInputs sha256 ys))
    (oldRoot : rootFromLeafHashes sha256 (hexes xs) none = .ok first)
    (newRoot : rootFromLeafHashes sha256 (hexes ys) none = .ok second)
    (oldSize : proof.first = (xs.length : ℤ)) (newSize : proof.second = (ys.length : ℤ))
    (accepted : verifyConsistency sha256 first second proof = true) : xs <+: ys := by
  obtain ⟨m, n, firstHash, secondHash, path, positive, le, bound, short, rfl, rfl, rfl⟩ :=
    verifyConsistency_read accepted
  obtain rfl := Number.natCast_eq_of_lt (by omega) oldSize
  obtain rfl := Number.natCast_eq_of_lt bound newSize
  obtain rfl := Hash.hex_injective (root_of_hexes oldRoot)
  obtain rfl := Hash.hex_injective (root_of_hexes newRoot)
  rw [verifyConsistency_hexes positive le bound short] at accepted
  exact prefix_of_accepted old new positive le accepted

/-- Consistency proofs are complete and sound. -/
theorem consistency_complete_sound (sha256 : Bytes → Hash) :
    (∀ (leaves : List Hash) (m n : ℕ), 1 ≤ m → m ≤ n → n ≤ leaves.length → n < 2 ^ 53 →
      ∃ proof first second,
        proveConsistency sha256 (hexes leaves) (m : ℤ) (n : ℤ) = .ok proof ∧
        rootFromLeafHashes sha256 (hexes leaves) (some m) = .ok first ∧
        rootFromLeafHashes sha256 (hexes leaves) (some n) = .ok second ∧
        verifyConsistency sha256 first second proof = true) ∧
    ∀ (A B : List Hash) (first second : JsString) (proof : ConsistencyProof),
      NoCollision sha256 (treeInputs sha256 A ++ treeInputs sha256 B) →
      rootFromLeafHashes sha256 (hexes A) none = .ok first →
      rootFromLeafHashes sha256 (hexes B) none = .ok second →
      proof.first = (A.length : ℤ) → proof.second = (B.length : ℤ) →
      verifyConsistency sha256 first second proof = true → A <+: B := by
  constructor
  · intro leaves m n positive le enough bound
    have length : (leaves.take n).length = n := by
      rw [List.length_take, Nat.min_eq_left enough]
    have short : (leaves.take n).take m = leaves.take m := by
      rw [List.take_take, Nat.min_eq_left le]
    refine ⟨_, _, _, proveConsistency_hexes positive le enough bound,
      rootFromLeafHashes_hexes (le.trans enough), rootFromLeafHashes_hexes enough, ?_⟩
    rw [verifyConsistency_hexes positive le bound (length_subproof positive (by omega) (by omega))]
    have accepted := accepted_subproof sha256 (leaves.take n) positive (by omega)
    rwa [length, short] at accepted
  · intro A B first second proof free oldRoot newRoot oldSize newSize accepted
    exact prefix_of_verifyConsistency free.left free.right oldRoot newRoot oldSize newSize accepted

theorem consistency_complete_sound_two :
    (∃ proof, proveConsistency sampleSha256 (hexes [hashA, hashB]) ((1 : ℕ) : ℤ) ((2 : ℕ) : ℤ) =
      .ok proof) ∧ [hashA] <+: [hashA, hashB] := by
  have sound := consistency_complete_sound sampleSha256
  obtain ⟨proof, -, -, proved, -⟩ := sound.1 [hashA, hashB] 1 2 le_rfl (by decide) le_rfl (by decide)
  refine ⟨⟨proof, proved⟩, ?_⟩
  refine sound.2 [hashA] [hashA, hashB] hashA.hex hashAB.hex ⟨((1 : ℕ) : ℤ), ((2 : ℕ) : ℤ), hexes [hashB]⟩
    ?_ ?_ ?_ rfl rfl ?_
  · have single : treeInputs sampleSha256 [hashA] = [] := by
      rw [treeInputs, Merkle.joins, if_pos (by decide)]
      rfl
    rw [single]
    exact noCollision_sample
  · rw [rootFromLeafHashes, subtreeRoot]
    rfl
  · rw [← treeRoot_sample]
    exact rootFromLeafHashes_hexes le_rfl
  · rw [verifyConsistency_hexes le_rfl (by decide) (by decide) (by decide), Accepted, if_neg (by decide)]
    exact ⟨by decide, walk_sample⟩

/-! ### Inclusion -/

theorem proveInclusion_hexes {i : ℕ} (inside : i < size.getD xs.length)
    (enough : size.getD xs.length ≤ xs.length) (bound : size.getD xs.length < 2 ^ 53) :
    proveInclusion sha256 (hexes xs) (i : ℤ) size =
      .ok ⟨(i : ℤ), ((size.getD xs.length : ℕ) : ℤ),
        hexes (Merkle.siblings (interior sha256) (xs.take (size.getD xs.length)) i)⟩ := by
  generalize total : size.getD xs.length = n at inside enough bound ⊢
  have narrow : i < 2 ^ 53 := by omega
  have nonneg : ¬((i : ℤ) : Number) < 0 := by
    change ¬((i : ℤ) : Number) < ((0 : ℕ) : ℤ)
    rw [Number.natCast_lt narrow (by norm_num)]
    omega
  have below : ¬((n : ℤ) : Number) ≤ (i : ℤ) := by
    rw [Number.natCast_le bound narrow]
    omega
  rw [proveInclusion, List.length_map, total]
  rw [if_neg (by omega), Number.isInteger_natCast narrow,
    if_neg (by simpa using ⟨nonneg, below⟩), Number.natCast_toNat narrow,
    auditPath_hexes enough (by omega)]
  change Except.ok (InclusionProof.mk _ _ ([] ++ List.reverse _).reverse) = _
  rw [List.nil_append, List.reverse_reverse, slice_whole]

/-- Inclusion proofs are complete, and whatever is accepted is the proof of the leaf in its place. -/
theorem inclusion_complete_sound (sha256 : Bytes → Hash) :
    (∀ (leaves : List Hash) (i : ℕ) (size : Option ℕ), i < size.getD leaves.length →
      size.getD leaves.length ≤ leaves.length → size.getD leaves.length < 2 ^ 53 →
      ∃ leaf proof root, leaves[i]? = some leaf ∧
        proveInclusion sha256 (hexes leaves) (i : ℤ) size = .ok proof ∧
        rootFromLeafHashes sha256 (hexes leaves) size = .ok root ∧
        verifyInclusion sha256 leaf.hex proof root = true) ∧
    ∀ (leaves : List Hash) (leafHashHex root : JsString) (proof : InclusionProof),
      NoCollision sha256 (treeInputs sha256 leaves) →
      rootFromLeafHashes sha256 (hexes leaves) none = .ok root →
      proof.treeSize = (leaves.length : ℤ) → verifyInclusion sha256 leafHashHex proof root = true →
      ∃ (i : ℕ) (leaf : Hash), proof.leafIndex = (i : ℤ) ∧ leaves[i]? = some leaf ∧
        leafHashHex = leaf.hex ∧ proveInclusion sha256 (hexes leaves) (i : ℤ) none = .ok proof := by
  constructor
  · intro leaves i size inside enough bound
    obtain ⟨leaf, found⟩ : ∃ leaf, leaves[i]? = some leaf :=
      ⟨_, List.getElem?_eq_getElem (inside.trans_le enough)⟩
    have rooted : rootFromLeafHashes sha256 (hexes leaves) size =
        .ok (treeRoot sha256 (leaves.take (size.getD leaves.length))).hex := by
      rw [← rootFromLeafHashes_hexes enough, rootFromLeafHashes, rootFromLeafHashes]
      simp
    refine ⟨leaf, _, _, found, proveInclusion_hexes inside enough bound, rooted, ?_⟩
    generalize size.getD leaves.length = n at inside enough bound
    have length : (leaves.take n).length = n := by
      rw [List.length_take, Nat.min_eq_left enough]
    have taken : (leaves.take n)[i]? = some leaf := by rw [List.getElem?_take_of_lt inside, found]
    have led : Merkle.climb (interior sha256) i _ leaf _ = some (treeRoot sha256 (leaves.take n)) :=
      Merkle.climb_siblings taken
    rw [length] at led
    have short : (Merkle.siblings (interior sha256) (leaves.take n) i).length ≤ maxInclusionPath :=
      (Merkle.length_siblings (interior sha256) 53 (by rw [length]; exact bound.le)).trans (by decide)
    exact verifyInclusion_iff.mpr ⟨i, n, leaf, _, _, inside, bound, short, rfl, rfl, rfl, led⟩
  · intro leaves leafHashHex root proof free rooted sized accepted
    obtain ⟨i, n, leaf, rootHash, path, inside, bound, short, rfl, rfl, rfl, led⟩ :=
      verifyInclusion_iff.mp accepted
    obtain rfl := Number.natCast_eq_of_lt bound sized
    obtain rfl := Hash.hex_injective (root_of_hexes rooted)
    obtain ⟨found, rfl⟩ := Merkle.climb_sound free.binding inside led
    have proved : proveInclusion sha256 (hexes leaves) (i : ℤ) none = _ :=
      proveInclusion_hexes inside le_rfl bound
    rw [Option.getD_none, List.take_length] at proved
    exact ⟨i, leaf, rfl, found, rfl, proved⟩

theorem inclusion_complete_sound_two :
    (∃ proof, proveInclusion sampleSha256 (hexes [hashA, hashB]) ((1 : ℕ) : ℤ) none = .ok proof) ∧
      ∃ (i : ℕ) (leaf : Hash), [hashA, hashB][i]? = some leaf ∧ hashA.hex = leaf.hex := by
  have sound := inclusion_complete_sound sampleSha256
  obtain ⟨-, proof, -, -, proved, -⟩ := sound.1 [hashA, hashB] 1 none (by decide) le_rfl (by decide)
  refine ⟨⟨proof, proved⟩, ?_⟩
  have rooted : rootFromLeafHashes sampleSha256 (hexes [hashA, hashB]) none = .ok hashAB.hex := by
    rw [← treeRoot_sample]
    exact rootFromLeafHashes_hexes le_rfl
  have led : Merkle.climb (interior sampleSha256) 0 1 hashA [hashB] = some hashAB := by
    rw [Merkle.climb.eq_def, if_neg (by decide), if_pos (by decide)]
    change Merkle.climb (interior sampleSha256) 0 0 (interior sampleSha256 hashA hashB) [] = _
    rw [Merkle.climb_top, interior_sample]
    rfl
  have accepted : verifyInclusion sampleSha256 hashA.hex
      ⟨((0 : ℕ) : ℤ), ((2 : ℕ) : ℤ), hexes [hashB]⟩ hashAB.hex = true :=
    verifyInclusion_iff.mpr ⟨0, 2, hashA, hashAB, [hashB], by decide, by decide, by decide, rfl, rfl,
      rfl, led⟩
  obtain ⟨i, leaf, -, found, same, -⟩ :=
    sound.2 [hashA, hashB] hashA.hex hashAB.hex _ noCollision_sample rooted rfl accepted
  exact ⟨i, leaf, found, same⟩

end Vaduno.Transparency
