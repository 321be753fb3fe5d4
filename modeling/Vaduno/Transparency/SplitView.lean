import Vaduno.Transparency.Domains

/-! Tree heads of a log gathered from its witnesses, and the check for two that cannot both be of one
log. A conflict is looked for among the heads of one size, whatever log they name. -/
namespace Vaduno.Transparency.SplitView
open Ecma Ledger

/-- A tree head before it is signed. -/
structure UnsignedTreeHead where
  logId : JsString
  treeSize : Number
  rootHash : JsString
  timestamp : JsString
  deriving DecidableEq

structure SignedTreeHead extends UnsignedTreeHead where
  signature : JsString
  deriving DecidableEq

def UnsignedTreeHead.json (head : UnsignedTreeHead) : JsValue :=
  .object [("logId", .string head.logId), ("treeSize", .number head.treeSize),
    ("rootHash", .string head.rootHash), ("timestamp", .string head.timestamp)]

structure SplitViewResult where
  consistent : Bool
  conflict : Option (SignedTreeHead × SignedTreeHead)
  unverified : List SignedTreeHead
  deriving DecidableEq

/-- Whether the signature verifies; whatever throws on the way does not. `edVerify` is
`verify(null, payload, createPublicKey(pem), Buffer.from(signature, "base64"))`. -/
def verifyTreeHead (edVerify : (payload : Bytes) → (publicKeyPem signature : JsString) → Throwing Bool)
    (sth : SignedTreeHead) (publicKeyPem : JsString) : Bool :=
  match sthPayload sth.json with
  | .error _ => false
  | .ok payload =>
    match edVerify payload publicKeyPem sth.signature with
    | .error _ => false
    | .ok verified => verified

/-- The loop over the heads; `bySize` holds the last verified head of each size. -/
def compareHeads (verifies : SignedTreeHead → Bool) (bySize : Number → Option SignedTreeHead) :
    List SignedTreeHead → SplitViewResult
  | [] => ⟨true, none, []⟩
  | h :: rest =>
    if verifies h = false then
      let result := compareHeads verifies bySize rest
      { result with unverified := h :: result.unverified }
    else
      match bySize h.treeSize with
      | some seen =>
        if seen.rootHash ≠ h.rootHash then ⟨false, some (seen, h), []⟩
        else compareHeads verifies (Function.update bySize h.treeSize (some h)) rest
      | none => compareHeads verifies (Function.update bySize h.treeSize (some h)) rest

def detectSplitView (edVerify : Bytes → JsString → JsString → Throwing Bool)
    (heads : List SignedTreeHead) (publicKeyPem : JsString) : SplitViewResult :=
  compareHeads (verifyTreeHead edVerify · publicKeyPem) (fun _ => none) heads

/-! ### What the loop finds -/

/-- Heads of one size have one root. -/
def Agree (heads : List SignedTreeHead) : Prop :=
  ∀ a ∈ heads, ∀ b ∈ heads, a.treeSize = b.treeSize → a.rootHash = b.rootHash

/-- The last head of a size. -/
def lastOfSize (heads : List SignedTreeHead) (size : Number) : Option SignedTreeHead :=
  heads.reverse.find? (·.treeSize = size)

/-- The first head that disagrees with an earlier one of its size, and the last of those. -/
def FirstClash (heads : List SignedTreeHead) (a b : SignedTreeHead) : Prop :=
  ∃ earlier later, heads = earlier ++ b :: later ∧ Agree earlier ∧
    lastOfSize earlier b.treeSize = some a ∧ a.rootHash ≠ b.rootHash

theorem lastOfSize_mem (last : lastOfSize heads size = some a) : a ∈ heads ∧ a.treeSize = size := by
  constructor
  · exact List.mem_reverse.mp (List.mem_of_find?_eq_some last)
  · simpa using List.find?_some last

theorem lastOfSize_append (heads : List SignedTreeHead) (h : SignedTreeHead) :
    lastOfSize (heads ++ [h]) = Function.update (lastOfSize heads) h.treeSize (some h) := by
  funext size
  unfold lastOfSize
  rw [List.reverse_append, List.reverse_singleton, List.singleton_append, List.find?_cons]
  by_cases same : h.treeSize = size
  · subst same
    simp
  · rw [Function.update_of_ne (Ne.symm same)]
    simp [same]

theorem agree_append (agree : Agree heads)
    (joins : ∀ a, lastOfSize heads h.treeSize = some a → a.rootHash = h.rootHash) : Agree (heads ++ [h]) := by
  have old : ∀ a ∈ heads, a.treeSize = h.treeSize → a.rootHash = h.rootHash := by
    intro a member size
    cases last : lastOfSize heads h.treeSize with
    | none => exact absurd size (by simpa using List.find?_eq_none.mp last a (List.mem_reverse.mpr member))
    | some c =>
      obtain ⟨listed, size'⟩ := lastOfSize_mem last
      rw [agree a member c listed (size.trans size'.symm), joins c last]
  intro a first b second size
  rw [List.mem_append, List.mem_singleton] at first second
  rcases first with first | rfl
  · rcases second with second | rfl
    · exact agree a first b second size
    · exact old a first size
  · rcases second with second | rfl
    · exact (old b second size.symm).symm
    · rfl

/-- The loop stops at the first clash among the heads that verify, after those it has seen. -/
theorem compareHeads_spec (verifies : SignedTreeHead → Bool) (rest : List SignedTreeHead) :
    ∀ seen, Agree seen →
      let result := compareHeads verifies (lastOfSize seen) rest
      let heads := seen ++ rest.filter verifies
      (result.consistent = true ∧ result.conflict = none ∧ Agree heads) ∨
        ∃ a b, result.consistent = false ∧ result.conflict = some (a, b) ∧ FirstClash heads a b := by
  induction rest with
  | nil =>
    intro seen agree
    simpa [compareHeads] using agree
  | cons h rest ih =>
    intro seen agree
    by_cases verified : verifies h = true
    · have heads : seen ++ (h :: rest).filter verifies = (seen ++ [h]) ++ rest.filter verifies := by
        rw [List.filter_cons_of_pos verified, List.append_assoc]
        rfl
      have onward : (∀ a, lastOfSize seen h.treeSize = some a → a.rootHash = h.rootHash) →
          compareHeads verifies (lastOfSize seen) (h :: rest) =
            compareHeads verifies (lastOfSize (seen ++ [h])) rest := by
        intro joins
        rw [lastOfSize_append, compareHeads, if_neg (by simp [verified])]
        cases last : lastOfSize seen h.treeSize with
        | none => rfl
        | some a => simp [joins a last]
      by_cases joins : ∀ a, lastOfSize seen h.treeSize = some a → a.rootHash = h.rootHash
      · rw [onward joins, heads]
        exact ih (seen ++ [h]) (agree_append agree joins)
      · push Not at joins
        obtain ⟨a, last, apart⟩ := joins
        have stops : compareHeads verifies (lastOfSize seen) (h :: rest) = ⟨false, some (a, h), []⟩ := by
          rw [compareHeads, if_neg (by simp [verified]), last]
          simp [apart]
        rw [stops]
        refine .inr ⟨a, h, rfl, rfl, seen, rest.filter verifies, ?_, agree, last, apart⟩
        rw [List.filter_cons_of_pos verified]
    · have skips : (h :: rest).filter verifies = rest.filter verifies := List.filter_cons_of_neg verified
      rw [skips, compareHeads, if_pos (by simpa using verified)]
      exact ih seen agree

theorem FirstClash.not_agree (clash : FirstClash heads a b) : ¬Agree heads := by
  obtain ⟨earlier, later, rfl, -, last, apart⟩ := clash
  obtain ⟨listed, size⟩ := lastOfSize_mem last
  exact fun agree => apart (agree a (by simp [listed]) b (by simp) size)

/-- There is one first clash at most. -/
theorem FirstClash.unique (first : FirstClash heads a b) (second : FirstClash heads a' b') : a = a' ∧ b = b' := by
  obtain ⟨earlier, later, rfl, agree, last, apart⟩ := first
  obtain ⟨earlier', later', same, agree', last', apart'⟩ := second
  rcases List.append_eq_append_iff.mp same with ⟨more, rfl, rests⟩ | ⟨more, rfl, rests⟩
  · cases more with
    | nil =>
      obtain ⟨rfl, -⟩ := List.cons.inj rests
      rw [List.append_nil, last] at last'
      exact ⟨Option.some.inj last', rfl⟩
    | cons h more =>
      obtain ⟨rfl, -⟩ := List.cons.inj rests
      obtain ⟨listed, size⟩ := lastOfSize_mem last
      exact absurd (agree' a (by simp [listed]) b (by simp) size) apart
  · cases more with
    | nil =>
      obtain ⟨rfl, -⟩ := List.cons.inj rests
      rw [List.append_nil, last'] at last
      exact ⟨(Option.some.inj last).symm, rfl⟩
    | cons h more =>
      obtain ⟨rfl, -⟩ := List.cons.inj rests
      obtain ⟨listed, size⟩ := lastOfSize_mem last'
      exact absurd (agree a' (by simp [listed]) b' (by simp) size) apart'

/-! ### What is reported -/

section
variable (edVerify : Bytes → JsString → JsString → Throwing Bool) (heads : List SignedTreeHead)
  (publicKeyPem : JsString)

def verifiedHeads : List SignedTreeHead := heads.filter (verifyTreeHead edVerify · publicKeyPem)

/-- Two signed heads of one log, one size and two roots. -/
structure Equivocation (a b : SignedTreeHead) : Prop where
  first : a ∈ verifiedHeads edVerify heads publicKeyPem
  second : b ∈ verifiedHeads edVerify heads publicKeyPem
  log : a.logId = b.logId
  size : a.treeSize = b.treeSize
  roots : a.rootHash ≠ b.rootHash

/-- What is reported is equivocation, all of it is reported, and unverified heads change nothing. -/
structure ReportsEquivocation : Prop where
  complete : (∃ a b, Equivocation edVerify heads publicKeyPem a b) ↔
    (detectSplitView edVerify heads publicKeyPem).consistent = false
  sound : (detectSplitView edVerify heads publicKeyPem).consistent = false →
    ∃ a b, (detectSplitView edVerify heads publicKeyPem).conflict = some (a, b) ∧
      Equivocation edVerify heads publicKeyPem a b
  blind : ∀ others, verifiedHeads edVerify others publicKeyPem = verifiedHeads edVerify heads publicKeyPem →
    (detectSplitView edVerify others publicKeyPem).conflict =
        (detectSplitView edVerify heads publicKeyPem).conflict ∧
      (detectSplitView edVerify others publicKeyPem).consistent =
        (detectSplitView edVerify heads publicKeyPem).consistent

theorem detectSplitView_spec :
    ((detectSplitView edVerify heads publicKeyPem).consistent = true ∧
      (detectSplitView edVerify heads publicKeyPem).conflict = none ∧
      Agree (verifiedHeads edVerify heads publicKeyPem)) ∨
    ∃ a b, (detectSplitView edVerify heads publicKeyPem).consistent = false ∧
      (detectSplitView edVerify heads publicKeyPem).conflict = some (a, b) ∧
      FirstClash (verifiedHeads edVerify heads publicKeyPem) a b :=
  compareHeads_spec (verifyTreeHead edVerify · publicKeyPem) heads [] (List.forall_mem_nil _)

variable {edVerify heads publicKeyPem}

theorem detectSplitView_blind {others : List SignedTreeHead}
    (same : verifiedHeads edVerify others publicKeyPem = verifiedHeads edVerify heads publicKeyPem) :
    (detectSplitView edVerify others publicKeyPem).conflict =
        (detectSplitView edVerify heads publicKeyPem).conflict ∧
      (detectSplitView edVerify others publicKeyPem).consistent =
        (detectSplitView edVerify heads publicKeyPem).consistent := by
  obtain ⟨fine, found, agree⟩ | ⟨a, b, split, found, clash⟩ :=
    detectSplitView_spec edVerify heads publicKeyPem
  · obtain ⟨fine', found', -⟩ | ⟨a', b', -, -, clash'⟩ :=
      detectSplitView_spec edVerify others publicKeyPem
    · exact ⟨found'.trans found.symm, fine'.trans fine.symm⟩
    · exact absurd agree (same ▸ clash').not_agree
  · obtain ⟨-, -, agree'⟩ | ⟨a', b', split', found', clash'⟩ :=
      detectSplitView_spec edVerify others publicKeyPem
    · exact absurd (same ▸ agree') clash.not_agree
    · obtain ⟨rfl, rfl⟩ := clash.unique (same ▸ clash')
      exact ⟨found'.trans found.symm, split'.trans split.symm⟩

/-- The report is right exactly where the first two signed heads that clash are of one log. -/
theorem reportsEquivocation_iff : ReportsEquivocation edVerify heads publicKeyPem ↔
    ∀ a b, FirstClash (verifiedHeads edVerify heads publicKeyPem) a b → a.logId = b.logId := by
  obtain ⟨fine, found, agree⟩ | ⟨a, b, split, found, clash⟩ :=
    detectSplitView_spec edVerify heads publicKeyPem
  · have none : ¬∃ a b, Equivocation edVerify heads publicKeyPem a b := by
      rintro ⟨a, b, real⟩
      exact real.roots (agree a real.first b real.second real.size)
    refine iff_of_true ⟨iff_of_false none ?_, ?_, fun _ => detectSplitView_blind⟩ ?_
    · simp [fine]
    · simp [fine]
    · exact fun a b clash => absurd agree clash.not_agree
  · obtain ⟨earlier, later, listed, -, last, apart⟩ := id clash
    obtain ⟨listed', size⟩ := lastOfSize_mem last
    have real : a.logId = b.logId → Equivocation edVerify heads publicKeyPem a b := fun log =>
      ⟨by simp [listed, listed'], by simp [listed], log, size, apart⟩
    constructor
    · intro reports a' b' clash'
      obtain ⟨rfl, rfl⟩ := clash.unique clash'
      obtain ⟨c, d, found', real'⟩ := reports.sound split
      obtain ⟨rfl, rfl⟩ := Prod.mk.inj (Option.some.inj (found.symm.trans found'))
      exact real'.log
    · intro one
      have pair := real (one a b clash)
      exact ⟨iff_of_true ⟨a, b, pair⟩ split, fun _ => ⟨a, b, found, pair⟩, fun _ => detectSplitView_blind⟩

end

namespace Sample

/-- One operator's key, and a head of each of two logs that it signed. -/
def operatorPem : JsString := Transparency.Sample.ascii "-----BEGIN PUBLIC KEY-----
MCowBQYDK2VwAyEAgHUY5755kv1/qOnWZhjkjaGd3viAsCakhtFqc20B0fQ=
-----END PUBLIC KEY-----
"

def headOfA : SignedTreeHead where
  logId := "log-a"
  treeSize := 1
  rootHash := "6e340b9cffb37a989ca544e6bb780a2c78901d3fb33738768511a30617afa01d"
  timestamp := "2026-01-01T00:00:00.000Z"
  signature := "VqoUMrX98nkXOShaTyDwYrd58tW8gRZ7STYvPdpLXlXRDV6QrwEQ3fQgfx4dRCHHKzL6XhXOV2/T+0IPX0dyCQ=="

def headOfB : SignedTreeHead where
  logId := "log-b"
  treeSize := 1
  rootHash := "e3b0c44298fc1c149afbf4c8996fb92427ae41e4649b934ca495991b7852b855"
  timestamp := "2026-01-01T00:00:00.000Z"
  signature := "QkIS33jXucCBmL+2jjv/Btk4fsnnby+/ADccrZy/BI9SS/Mccs/nphtiQDFcOti+cNrwGWys9xurCk57qH76AQ=="

/-- The signatures that were made with the key. -/
def operatorVerify (payload : Bytes) (publicKeyPem signature : JsString) : Throwing Bool :=
  .ok (publicKeyPem = operatorPem && [headOfA, headOfB].any fun h =>
    signature = h.signature && (sthPayload h.json).toOption = some payload)

theorem two_logs_clash : ¬ReportsEquivocation operatorVerify [headOfA, headOfB] operatorPem := by
  intro reports
  have accused : (detectSplitView operatorVerify [headOfA, headOfB] operatorPem).conflict =
        some (headOfA, headOfB) ∧
      (detectSplitView operatorVerify [headOfA, headOfB] operatorPem).consistent = false ∧
      headOfA.logId ≠ headOfB.logId := by decide +kernel
  obtain ⟨a, b, found, real⟩ := reports.sound accused.2.1
  obtain ⟨rfl, rfl⟩ := Prod.mk.inj (Option.some.inj (accused.1.symm.trans found))
  exact accused.2.2 real.log

end Sample
end Vaduno.Transparency.SplitView
