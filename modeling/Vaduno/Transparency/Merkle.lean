import Vaduno.Ecma.Hex
import Vaduno.Ecma.Value
import Vaduno.Merkle

/-! The Merkle tree of a transparency log: roots and proofs over hashed leaves, and the verifiers that
read proofs from outside. Hashes are lower-case hex at this boundary. -/
namespace Vaduno.Transparency
open Ecma

def leafPrefix : UInt8 := 0
def nodePrefix : UInt8 := 1

def maxInclusionPath : ℕ := 64
def maxConsistencyPath : ℕ := 130

def safeSize (n : Number) : Bool := n.isSafeInteger && decide (1 ≤ n)

def unhex (s what : JsString) : Throwing Hash :=
  match readHash s with
  | some h => .ok h
  | none => .error (.error (what ++ " is not a 64-char lowercase hex sha256"))

@[simp] theorem unhex_hex (h : Hash) (what : JsString) : unhex h.hex what = .ok h := by
  rw [unhex, readHash_hex]

theorem hex_of_unhex (read : unhex s what = .ok h) : h.hex = s := by
  unfold unhex at read
  split at read
  · cases read
    exact hex_of_readHash ‹_›
  · cases read

def doubleBelow (n k : ℕ) (positive : 0 < k) : ℕ :=
  if k * 2 < n then doubleBelow n (k * 2) (by omega) else k
termination_by n - k

def splitPoint (n : ℕ) : ℕ := doubleBelow n 1 Nat.one_pos

theorem splitPoint_eq (large : 2 ≤ n) : splitPoint n = Merkle.split n := by
  have doubled : ∀ k positive i, k = 2 ^ i → k < n → doubleBelow n k positive = Merkle.split n := by
    intro k positive
    induction k, positive using doubleBelow.induct n with
    | case1 k positive more ih =>
      intro i power _
      rw [doubleBelow, if_pos more]
      exact ih (i + 1) (by rw [power, pow_succ]) more
    | case2 k positive done =>
      intro i power below
      rw [doubleBelow, if_neg done, power]
      exact (Merkle.split_eq i (by omega) (by rw [pow_succ]; omega)).symm
  exact doubled 1 Nat.one_pos 0 rfl large

structure InclusionProof where
  leafIndex : Number
  treeSize : Number
  path : List JsString
  deriving DecidableEq

structure ConsistencyProof where
  first : Number
  second : Number
  path : List JsString
  deriving DecidableEq

def treeSizeError (n available : ℕ) : Thrown :=
  .error ("tree size " ++ natText n ++ " out of range (have " ++ natText available ++ " leaves)")

section Sha256
variable (sha256 : Bytes → Hash)

def emptyTreeRoot : JsString := (sha256 []).hex

def leafHash (data : Bytes) : JsString := (sha256 (leafPrefix :: data)).hex

/-- The hash that an interior node is. -/
def interior (left right : Hash) : Hash := sha256 (nodePrefix :: (left.bytes ++ right.bytes))

def nodeHash (leftHex rightHex : JsString) : Throwing JsString := do
  let left ← unhex leftHex "left node"
  let right ← unhex rightHex "right node"
  return (interior sha256 left right).hex

def subtreeRoot (leaves : List JsString) (start stop : ℕ) : Throwing JsString :=
  if stop - start = 0 then .ok (emptyTreeRoot sha256)
  -- every caller has checked the range
  else if stop - start = 1 then .ok (leaves.getD start "undefined")
  else do
    let k := splitPoint (stop - start)
    let left ← subtreeRoot leaves start (start + k)
    let right ← subtreeRoot leaves (start + k) stop
    nodeHash sha256 left right
termination_by stop - start
decreasing_by
  · have := Merkle.split_lt (n := stop - start) (by omega)
    rw [splitPoint_eq (by omega)]
    omega
  · have := Merkle.split_pos (stop - start)
    rw [splitPoint_eq (by omega)]
    omega

def rootFromLeafHashes (leafHashes : List JsString) (size : Option ℕ) : Throwing JsString :=
  let n := size.getD leafHashes.length
  if leafHashes.length < n then .error (treeSizeError n leafHashes.length)
  else subtreeRoot sha256 leafHashes 0 n

def auditPath (leafHashes : List JsString) (start stop m : ℕ) (path : List JsString) :
    Throwing (List JsString) :=
  if 1 < stop - start then do
    let k := splitPoint (stop - start)
    if m < k then
      auditPath leafHashes start (start + k) m (path ++ [← subtreeRoot sha256 leafHashes (start + k) stop])
    else
      auditPath leafHashes (start + k) stop (m - k)
        (path ++ [← subtreeRoot sha256 leafHashes start (start + k)])
  else .ok path
termination_by stop - start
decreasing_by
  · have := Merkle.split_lt (n := stop - start) (by omega)
    rw [splitPoint_eq (by omega)]
    omega
  · have := Merkle.split_pos (stop - start)
    rw [splitPoint_eq (by omega)]
    omega

def proveInclusion (leafHashes : List JsString) (leafIndex : Number) (treeSize : Option ℕ) :
    Throwing InclusionProof :=
  let n := treeSize.getD leafHashes.length
  if n < 1 ∨ leafHashes.length < n then .error (treeSizeError n leafHashes.length)
  else if !leafIndex.isInteger || decide (leafIndex < 0) || decide (((n : ℤ) : Number) ≤ leafIndex) then
    .error (.error ("leaf index " ++ leafIndex.toText ++ " out of range for tree size " ++ natText n))
  else do
    let path ← auditPath sha256 leafHashes 0 n leafIndex.toInt.toNat []
    return ⟨leafIndex, (n : ℤ), path.reverse⟩

def subproof (leaves : List JsString) (m start stop : ℕ) (complete : Bool) (out : List JsString) :
    Throwing (List JsString) :=
  if m = stop - start then
    if !complete then return out ++ [← subtreeRoot sha256 leaves start stop] else .ok out
  -- every caller has checked the range
  else if stop - start < 2 then .ok out
  else do
    let k := splitPoint (stop - start)
    if m ≤ k then
      let out ← subproof leaves m start (start + k) complete out
      return out ++ [← subtreeRoot sha256 leaves (start + k) stop]
    else
      let out ← subproof leaves (m - k) (start + k) stop false out
      return out ++ [← subtreeRoot sha256 leaves start (start + k)]
termination_by stop - start
decreasing_by
  · have := Merkle.split_lt (n := stop - start) (by omega)
    rw [splitPoint_eq (by omega)]
    omega
  · have := Merkle.split_pos (stop - start)
    rw [splitPoint_eq (by omega)]
    omega

def proveConsistency (leafHashes : List JsString) (first second : Number) :
    Throwing ConsistencyProof :=
  if !first.isInteger || !second.isInteger || decide (first < 1) || decide (second < first) then
    .error (.error ("invalid consistency range " ++ first.toText ++ " -> " ++ second.toText))
  else if leafHashes.length < second.toInt.toNat then
    .error (treeSizeError second.toInt.toNat leafHashes.length)
  else do
    let path ← subproof sha256 leafHashes first.toInt.toNat 0 second.toInt.toNat true []
    return ⟨first, second, path⟩

/-- Shifts both until the first is odd or zero. -/
def shiftWhileEven (fn sn : ℕ) : ℕ × ℕ :=
  if fn % 2 = 0 ∧ fn ≠ 0 then shiftWhileEven (fn / 2) (sn / 2) else (fn, sn)
termination_by fn

def shiftWhileOdd (fn sn : ℕ) : ℕ × ℕ :=
  if fn % 2 = 1 then shiftWhileOdd (fn / 2) (sn / 2) else (fn, sn)
termination_by fn

def inclusionSteps (rootHashHex : JsString) (fn sn : ℕ) (r : Hash) : List JsString → Throwing Bool
  | [] => .ok (sn = 0 && r.hex = rootHashHex)
  | pHex :: rest => do
    let p ← unhex pHex "inclusion path node"
    if sn = 0 then .ok false
    else if fn % 2 = 1 ∨ fn = sn then
      let (fn, sn) := if fn % 2 = 0 then shiftWhileEven fn sn else (fn, sn)
      inclusionSteps rootHashHex (fn / 2) (sn / 2) (interior sha256 p r) rest
    else inclusionSteps rootHashHex (fn / 2) (sn / 2) (interior sha256 r p) rest

/-- Whether a verification came to `true`; one that throws has failed. -/
def passed : Throwing Bool → Bool
  | .ok verdict => verdict
  | .error _ => false

def verifyInclusion (leafHashHex : JsString) (proof : InclusionProof) (rootHashHex : JsString) : Bool :=
  if !safeSize proof.treeSize || !proof.leafIndex.isSafeInteger || decide (proof.leafIndex < 0) then false
  else if maxInclusionPath < proof.path.length then false
  else if proof.treeSize ≤ proof.leafIndex then false
  else passed do
    let r ← unhex leafHashHex "leaf hash"
    inclusionSteps sha256 rootHashHex proof.leafIndex.toInt.toNat (proof.treeSize.toInt.toNat - 1) r
      proof.path

def consistencySteps (firstHash secondHash : Hash) (fn sn : ℕ) (fr sr : Hash) : List Hash → Bool
  | [] => fr = firstHash && sr = secondHash && sn = 0
  | c :: rest =>
    if sn = 0 then false
    else if fn % 2 = 1 ∨ fn = sn then
      let (fn, sn) := if fn % 2 = 0 then shiftWhileEven fn sn else (fn, sn)
      consistencySteps firstHash secondHash (fn / 2) (sn / 2) (interior sha256 c fr)
        (interior sha256 c sr) rest
    else consistencySteps firstHash secondHash (fn / 2) (sn / 2) fr (interior sha256 sr c) rest

def verifyConsistency (firstHashHex secondHashHex : JsString) (proof : ConsistencyProof) : Bool :=
  if !safeSize proof.first || !safeSize proof.second || decide (proof.second < proof.first) then false
  else if maxConsistencyPath < proof.path.length then false
  else passed do
    let firstHash ← unhex firstHashHex "first root"
    let secondHash ← unhex secondHashHex "second root"
    if proof.first = proof.second then .ok (proof.path.length = 0 && firstHash = secondHash)
    else if proof.path.length = 0 then .ok false
    else do
      let path ← proof.path.mapM fun p => unhex p "consistency path node"
      let first := proof.first.toInt.toNat
      let second := proof.second.toInt.toNat
      let path := if first &&& (first - 1) = 0 then firstHash :: path else path
      let (fn, sn) := shiftWhileOdd (first - 1) (second - 1)
      match path with
      | [] => .ok false
      | r :: rest => .ok (consistencySteps sha256 firstHash secondHash fn sn r r rest)

end Sha256
end Vaduno.Transparency
