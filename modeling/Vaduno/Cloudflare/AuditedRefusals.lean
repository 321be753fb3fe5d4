import Vaduno.Cloudflare.TimeBounds
import Vaduno.Guard.Resolution

/-! Which requests the signer answers for: with a signature, or with a refusal of its own that has a row in the
ledger. What puts a refusal's message together reads the request once more, outside of anything that would
record the attempt, and there is no text for some of the values that can be read. -/
namespace Vaduno

/-! ### Runs -/

namespace Async
variable {Op : Type} {Ans : Op → Type} {ε α Φ : Type} {M N : Monitor Ans Φ}

/-- A run in what a monitor describes: the operations that were asked for, what they came to, and the phase in
the end. -/
inductive Ran (M : Monitor Ans Φ) : Async Ans ε α → Φ → List Op → Except ε α → Φ → Prop
  | done {result : Except ε α} {φ : Φ} : Ran M (done result) φ [] result φ
  | await {op : Op} {next : Ans op → Async Ans ε α} {ans : Ans op} {φ φ' ψ : Φ} {ops : List Op}
      {result : Except ε α} (moved : M.step φ op ans φ') (ran : Ran M (next ans) φ' ops result ψ) :
      Ran M (await op next) φ (op :: ops) result ψ

variable {p : Async Ans ε α} {φ ψ : Φ} {ops : List Op} {result : Except ε α} {post : Φ → Except ε α → Prop}

theorem Ran.settles (ran : Ran M p φ ops result ψ) (meets : p.Meets M post φ) : post ψ result := by
  induction ran with
  | done => exact meets
  | await moved _ ih => exact ih (meets.2 _ _ moved)

theorem Ran.widen (ran : Ran M p φ ops result ψ) (wider : ∀ φ op ans φ', M.step φ op ans φ' → N.step φ op ans φ') :
    Ran N p φ ops result ψ := by
  induction ran with
  | done => exact .done
  | await moved _ ih => exact .await (wider _ _ _ _ moved) ih

end Async
end Vaduno

namespace Vaduno.Cloudflare
open Ecma Guard
open Policy (member)

/-! ### The guard that is asked -/

/-- What the outside of a guard with a working ledger answers. -/
def Works : (op : Op) → op.Answer → Prop
  | .append .., appended => appended = .ok ()
  | _, _ => True

/-- The world of `Guard.Resolution`, with a working ledger. -/
def working : Async.Monitor Op.Answer Prop where
  allowed := world.allowed
  step ran op ans ran' := world.step ran op ans ran' ∧ Works op ans

/-- What the intent is taken for: an intent, or one whose values cannot all be recorded. -/
def Takes (intent : PaymentIntent) : Intake → Prop
  | .unclonable .. => False
  | .malformed intentId .. | .unidentified intentId .. => intentId = intent.id
  | .sound _ own => own = intent

def statusText : OriginalStatus → JsString
  | .executed => "executed"
  | .failed => "failed"
  | .unresolved => "unresolved"

def reasonsOf (policyResult : PolicyResult) : List RefusalReason :=
  policyResult.reasons.map fun r => ⟨r.code, r.message⟩

/-- The result of `authorize()` as the signer looks at it. -/
def verdictOf : GuardResult → SignerVerdict
  | .authorized .. => .authorized
  | .replayed _ _ original => .replayed (statusText original.status)
  | .denied _ policyResult => .refused "denied" (reasonsOf policyResult)
  | .approvalRejected _ policyResult => .refused "approval_rejected" (reasonsOf policyResult)
  | .failed _ policyResult _ => .refused "failed" (reasonsOf policyResult)
  | .executed .. => .unexpected "\"executed\""

/-- The intents that rows were appended for. -/
def recordedIds (ops : List Op) : List JsString :=
  ops.filterMap fun
    | .append _ _ refs => refs.intentId
    | _ => none

section Environment
variable (platform : Platform) (guard : VadunoGuard)

/-- A call of `authorize()`: its answer, and the intents of the rows that it appended. -/
def Authorizes (intent : PaymentIntent) (answer : Throwing SignerVerdict) (ids : List JsString) : Prop :=
  ∃ intake ops result ran, Takes intent intake ∧
    Async.Ran working (guard.run platform .authorize intake) False ops result ran ∧
    answer = result.map verdictOf ∧ ids = recordedIds ops

/-- What a resolver may declare for an authorization. -/
abbrev Resolver := AuthCaptureContext → Throwing JsValue → Prop

/-- What the signer's operations answer, and the intents that rows have been appended for since the request.
The inner account does not fail, and the clock that the guard settles by can be written down. -/
def attended (resolver : Resolver) : Async.Monitor SignerOp.Answer (List JsString) where
  allowed _ _ := True
  step ids op ans ids' :=
    match op, ans with
    | .authorize intent, answer => ∃ rows, Authorizes platform guard intent answer rows ∧ ids' = ids ++ rows
    | .resolveAuthCapture context, declared => resolver context declared ∧ ids' = ids
    | .settle .., settled => settled = .ok () ∧ ids' = ids
    | .releaseSpend _, released => released = .ok () ∧ ids' = ids
    | .signTypedData _, signed => (∃ signature, signed = .ok signature) ∧ ids' = ids
    | .now, _ | .randomHex _, _ => ids' = ids

end Environment

/-- A signature, or a refusal of the signer's own; and the attempt has a row. -/
def Accounted (ids : List JsString) : Except SignerError JsString → Prop
  | .ok _ => ids ≠ []
  | .error (.refused _ _ intentId _) => intentId ∈ ids
  | .error (.thrown _) => False

/-! ### Snapshots -/

/-- What `structuredClone` gives: no symbols and no functions, and what converting an instance throws is an
error of the engine's. -/
inductive Cloned : JsValue → Prop
  | undefined : Cloned .undefined
  | null : Cloned .null
  | boolean (b : Bool) : Cloned (.boolean b)
  | number (n : Number) : Cloned (.number n)
  | bigint (n : ℤ) : Cloned (.bigint n)
  | string (s : JsString) : Cloned (.string s)
  | array {items : List JsValue} (each : ∀ v ∈ items, Cloned v) : Cloned (.array items)
  | object {props : List (JsString × JsValue)} (each : ∀ p ∈ props, Cloned p.2) : Cloned (.object props)
  | texted (name text : JsString) (json : Option (Option JsString)) : Cloned (.foreign (some name) (.text text) json)
  | textless (name : JsString) (json : Option (Option JsString)) : Cloned (.foreign (some name) (.throws 0) json)

structure TypedDataRequest.Cloned (typed : TypedDataRequest) : Prop where
  domain : Cloudflare.Cloned typed.domain
  types : ∀ entry ∈ typed.types, Cloudflare.Cloned entry.2
  primaryType : Cloudflare.Cloned typed.primaryType
  message : Cloudflare.Cloned typed.message

theorem names_itemTexts {items : List JsValue} (each : ∀ v ∈ items, v.Tame) : Ecma.Names (JsValue.itemTexts items) := by
  induction items with
  | nil => exact .ok _
  | cons item rest ih =>
    obtain ⟨first, others⟩ := List.forall_mem_cons.mp each
    cases item with
    | null | undefined => exact (ih others).bind fun _ => .ok _
    | _ => exact first.bind fun _ => (ih others).bind fun _ => .ok _

namespace Cloned
variable {v : JsValue}

theorem tame (cloned : Cloned v) : v.Tame := by
  induction cloned with
  | array _ ih =>
    rw [JsValue.Tame, JsValue.toText]
    exact (names_itemTexts ih).bind fun _ => .ok _
  | object =>
    rw [JsValue.Tame, JsValue.toText]
    split_ifs
    · exact .of_named named_typeError
    · exact .ok _
  | textless => exact .of_named named_typeError
  | _ => exact .ok _

theorem stringOf (cloned : Cloned v) : v.stringOf = v.toText := by
  cases cloned <;> rfl

theorem member (cloned : Cloned v) (name : JsString) : Cloned (Policy.member name v) := by
  cases cloned with
  | object each =>
    rename_i props
    rw [Policy.member]
    cases found : props.lookup name with
    | none => exact .undefined
    | some inner =>
      obtain ⟨before, after, rfl, -⟩ := List.lookup_eq_some_iff.mp found
      exact each (name, inner) (by simp)
  | _ => exact .undefined

end Cloned

theorem names_foldlM {f : β → α → Throwing β} {items : List α} (each : ∀ b, ∀ a ∈ items, Ecma.Names (f b a)) (b : β) :
    Ecma.Names (items.foldlM f b) := by
  induction items generalizing b with
  | nil => exact .ok _
  | cons item rest ih =>
    rw [List.foldlM_cons]
    exact (each b item (by simp)).bind fun next => ih (fun b a listed => each b a (List.mem_cons_of_mem _ listed)) next

/-- What is relied on of the package for typed data: what it throws has a text. -/
structure Viem.Tame (viem : Viem) : Prop where
  digest : ∀ typed, typed.Cloned → Ecma.Names (viem.hashTypedData typed)
  domain : ∀ v, Cloned v → Ecma.Names (viem.getTypesForEIP712Domain v)

section Snapshot
variable {viem : Viem} {typed : TypedDataRequest}

theorem declaration_cloned {types : List (JsString × JsValue)} (cloned : ∀ entry ∈ types, Cloned entry.2)
    {name : JsString} {fields : List JsValue} (declared : declaration types name = some fields) :
    ∀ field ∈ fields, Cloned field := by
  unfold declaration at declared
  split at declared
  · rename_i own found
    obtain rfl : own = fields := Option.some.inj declared
    obtain ⟨before, after, rfl, -⟩ := List.lookup_eq_some_iff.mp found
    cases cloned (name, .array own) (by simp) with
    | array each => exact each
  · cases declared

theorem names_fieldName {field : JsValue} (cloned : Cloned field) : Ecma.Names (fieldName field) :=
  (cloned.member _).tame.stringOf

theorem names_fieldType {field : JsValue} (cloned : Cloned field) : Ecma.Names (fieldType field) := by
  unfold fieldType
  split
  · exact .ok _
  · exact .ok _
  · exact (cloned.member _).tame.stringOf

theorem names_resolveStructRef (types : List (JsString × JsValue)) (type : JsString) :
    Ecma.Names (resolveStructRef types type) := by
  have resolves : ∀ levels length, Ecma.Names (resolveFrom types type levels length) := by
    intro levels
    induction levels with
    | zero => exact fun _ => .error _
    | succ levels ih =>
      intro length
      rw [resolveFrom]
      split
      · exact .ok _
      · split_ifs
        · exact .ok _
        · split
          · exact .ok _
          · exact .ok _
          · exact ih _
  exact resolves _ _

theorem names_visit {types : List (JsString × JsValue)} (cloned : ∀ entry ∈ types, Cloned entry.2)
    (primaryType : JsString) (levels : ℕ) (name : JsString) (struct : StructRecord) :
    Ecma.Names (visit types primaryType levels name struct) := by
  induction levels generalizing name struct with
  | zero =>
    rw [visit]
    split_ifs
    · exact .ok _
    · exact .error _
  | succ levels ih =>
    rw [visit]
    split_ifs
    · exact .ok _
    · split
      · exact .ok _
      · rename_i fields declared
        have each := declaration_cloned cloned declared
        refine (Names.mapM fun field listed => names_fieldName (each field listed)).bind fun names => ?_
        refine names_foldlM (fun struct field listed => ?_) _
        refine (names_fieldType (each field listed)).bind fun type => (names_resolveStructRef _ type).bind fun ref => ?_
        cases ref with
        | none => exact .ok _
        | some ref =>
          dsimp only
          split_ifs
          · exact ih ref struct
          · exact .ok _

theorem names_committedDomainFields (tame : viem.Tame) (cloned : typed.Cloned) :
    Ecma.Names (committedDomainFields viem.getTypesForEIP712Domain typed) := by
  unfold committedDomainFields
  split
  · rename_i fields declared
    have each := declaration_cloned cloned.types declared
    refine Names.mapM fun field listed => (names_fieldName (each field listed)).bind fun _ => ?_
    exact ((each field listed).member _).tame.stringOf.bind fun _ => .ok _
  · exact tame.domain _ cloned.domain

theorem names_committedFieldSet (tame : viem.Tame) (cloned : typed.Cloned) :
    Ecma.Names (committedFieldSet viem.getTypesForEIP712Domain typed) :=
  (names_committedDomainFields tame cloned).bind fun _ => cloned.primaryType.tame.stringOf.bind fun primaryType =>
    (names_visit cloned.types primaryType _ _ _).bind fun _ => .ok _

/-- Whether the domain is committed to is always found out. -/
theorem missingDomainCommitment_settles (tame : viem.Tame) (cloned : typed.Cloned) (needed : List RequiredField) :
    ∃ missing, missingDomainCommitment viem typed needed = .ok missing := by
  unfold missingDomainCommitment
  split
  · exact ⟨_, rfl⟩
  · rename_i err failed
    obtain ⟨text, named⟩ := names_committedDomainFields tame cloned err failed
    rw [named]
    exact ⟨_, rfl⟩

end Snapshot

/-! ### What cannot be put into words -/

/-- There is no text for a value. -/
def Textless (v : JsValue) : Prop := ∃ e, v.stringOf = .error e

theorem text_of_not_textless {v : JsValue} (texted : ¬Textless v) : ∃ text, v.stringOf = .ok text := by
  cases read : v.stringOf with
  | error e => exact absurd ⟨e, read⟩ texted
  | ok text => exact ⟨text, rfl⟩

/-- A field that a struct must declare. -/
abbrev Need := JsString × RequiredField

section Needs
variable (types : List (JsString × JsValue))

def declaredField (need : Need) : Option JsValue := (declaration types need.1).bind (findField · need.2.1)

/-- A struct declares a field with the type that it must have. -/
def DeclaredAs (need : Need) : Prop := ∃ field ∈ declaredField types need, (member "type" field).stringOf = .ok need.2.2

/-- Of the fields that are not declared as they must be, the first has a type for which there is no text. -/
def Blocked : List Need → Prop
  | [] => False
  | need :: rest => (∃ field ∈ declaredField types need, Textless (member "type" field)) ∨
      (DeclaredAs types need ∧ Blocked rest)

variable {types}

theorem blocked_append (first second : List Need) :
    Blocked types (first ++ second) ↔ Blocked types first ∨ ((∀ need ∈ first, DeclaredAs types need) ∧
      Blocked types second) := by
  induction first with
  | nil => simp [Blocked]
  | cons need rest ih =>
    simp only [List.cons_append, Blocked, ih, List.forall_mem_cons, and_or_left, or_assoc, and_assoc]

/-- What a check of the declarations comes to. -/
structure Checks (types : List (JsString × JsValue)) (needs : List Need) (checked : Throwing (Option JsString)) :
    Prop where
  throws : (∃ e, checked = .error e) ↔ Blocked types needs
  passes : checked = .ok none ↔ ∀ need ∈ needs, DeclaredAs types need

theorem Checks.undeclared {need : Need} {rest : List Need} (undeclared : declaredField types need = none)
    (message : JsString) : Checks types (need :: rest) (.ok (some message)) := by
  refine ⟨⟨nofun, ?_⟩, ⟨nofun, fun all => ?_⟩⟩
  · rintro (⟨_, same, -⟩ | ⟨⟨_, same, -⟩, -⟩) <;>
      exact absurd (undeclared ▸ same) (Option.not_mem_none _)
  · obtain ⟨_, same, -⟩ := all need (List.mem_cons_self ..)
    exact absurd (undeclared ▸ same) (Option.not_mem_none _)

theorem missingOf_checks (cloned : ∀ entry ∈ types, Cloned entry.2) {structName : JsString} {fields : List JsValue}
    (declared : declaration types structName = some fields) (required : List RequiredField) :
    Checks types (required.map (structName, ·)) (missingOf structName fields required) := by
  induction required with
  | nil =>
    refine ⟨iff_of_false ?_ ?_, iff_of_true rfl (List.forall_mem_nil _)⟩
    · rintro ⟨e, ⟨⟩⟩
    · exact id
  | cons head rest ih =>
    obtain ⟨name, type⟩ := head
    have field : declaredField types (structName, name, type) = findField fields name := by
      simp [declaredField, declared]
    rw [missingOf, List.map_cons]
    cases found : findField fields name with
    | none =>
      rw [found] at field
      exact .undeclared field _
    | some own =>
      rw [found] at field
      have own_cloned : Cloned (member "type" own) :=
        (declaration_cloned cloned declared own (List.mem_of_find?_eq_some found)).member _
      have declaredAs : DeclaredAs types (structName, name, type) ↔ (member "type" own).stringOf = .ok type := by
        simp [DeclaredAs, field]
      have blocked : Blocked types ((structName, name, type) :: rest.map (structName, ·)) ↔
          Textless (member "type" own) ∨ ((member "type" own).stringOf = .ok type ∧
            Blocked types (rest.map (structName, ·))) := by
        rw [Blocked, declaredAs]
        simp [field]
      have all : (∀ need ∈ (structName, name, type) :: rest.map (structName, ·), DeclaredAs types need) ↔
          (member "type" own).stringOf = .ok type ∧ ∀ need ∈ rest.map (structName, ·), DeclaredAs types need := by
        rw [List.forall_mem_cons, declaredAs]
      dsimp only
      cases read : (member "type" own).stringOf with
      | error e =>
        refine ⟨iff_of_true ⟨e, rfl⟩ (blocked.mpr (.inl ⟨e, read⟩)), iff_of_false ?_ fun every => ?_⟩
        · rintro ⟨⟩
        have same := (all.mp every).1
        rw [read] at same
        cases same
      | ok text =>
        have texted : ¬Textless (member "type" own) := by
          rintro ⟨e, thrown⟩
          rw [read] at thrown
          cases thrown
        simp only [texted, read, Except.ok.injEq, false_or] at blocked all
        rw [ok_bind]
        split_ifs with other
        · -- the type has a text, so the message is put together
          rw [← own_cloned.stringOf, read, ok_bind]
          constructor
          · refine iff_of_false ?_ fun later => other (blocked.mp later).1
            rintro ⟨e, ⟨⟩⟩
          · refine iff_of_false ?_ fun every => other (all.mp every).1
            rintro ⟨⟩
        · have same : text = type := not_not.mp other
          exact ⟨ih.throws.trans ((and_iff_right same).symm.trans blocked.symm),
            ih.passes.trans ((and_iff_right same).symm.trans all.symm)⟩

theorem missingCommitment_checks (cloned : ∀ entry ∈ types, Cloned entry.2) (structName : JsString)
    {required : List RequiredField} (some : required ≠ []) :
    Checks types (required.map (structName, ·)) (missingCommitment types structName required) := by
  unfold missingCommitment
  split
  · rename_i undeclared
    obtain ⟨first, rest, rfl⟩ := List.exists_cons_of_ne_nil some
    have field : declaredField types (structName, first) = none := by simp [declaredField, undeclared]
    exact .undeclared field _
  · rename_i fields declared
    exact missingOf_checks cloned declared required

/-- The second check is made where the first one passes. -/
theorem Checks.throws_orElse {first second : Throwing (Option JsString)} {needs needs' : List Need}
    (checks : Checks types needs first) (throws : (∃ e, second = .error e) ↔ Blocked types needs') :
    (∃ e, orElse first second = .error e) ↔ Blocked types (needs ++ needs') := by
  rw [blocked_append, ← checks.throws, ← checks.passes, ← throws]
  rcases first with e | _ | message
  · exact iff_of_true ⟨e, rfl⟩ (.inl ⟨e, rfl⟩)
  · rw [show orElse (.ok none) second = second from rfl]
    simp
  · rw [show orElse (.ok (some message)) second = .ok (some message) from rfl]
    simp

end Needs

/-- The needs of the witness, where its type is declared. -/
def witnessNeeds (types : List (JsString × JsValue)) : List Need :=
  match witnessType types with
  | .string name => if name.isEmpty then [] else [(name, encode "to", encode "address")]
  | _ => []

theorem witnessCommitment_throws {types : List (JsString × JsValue)} (cloned : ∀ entry ∈ types, Cloned entry.2) :
    (∃ e, witnessCommitment types = .error e) ↔ Blocked types (witnessNeeds types) := by
  unfold witnessCommitment witnessNeeds
  cases witnessType types with
  | string name =>
    dsimp only
    split_ifs
    · simp [Blocked]
    · exact (missingCommitment_checks cloned name (List.cons_ne_nil _ _)).throws
  | _ => simp [Blocked]

section Illegible
variable (platform : Platform) (viem : Viem) (signer : GuardedSigner) (typed : TypedDataRequest)

/-- The facts of an EIP-3009 authorization can be read. -/
def readsEip3009 : Bool :=
  (asChainId (member "chainId" typed.domain)).isSome &&
    (normAddress platform (member "verifyingContract" typed.domain)).isSome &&
    (normAddress platform (member "from" typed.message)).isSome &&
    (normAddress platform (member "to" typed.message)).isSome &&
    (bytes32 platform (member "nonce" typed.message)).isSome

/-- The facts of a Permit2 authorization can be read. -/
def readsPermit2 : Bool :=
  (asChainId (member "chainId" typed.domain)).isSome &&
    (normAddress platform (member "token" (member "permitted" typed.message))).isSome &&
    (normAddress platform (member "to" (member "witness" typed.message))).isSome &&
    (asBigInt (member "nonce" typed.message)).isSome

/-- Where the facts of a payment of a known shape can be read, what must be declared, in the order in which it is
checked. -/
def needsOf : Option (List Need) :=
  match typed.primaryType with
  | .string primaryType =>
    if primaryType = "TransferWithAuthorization" ∨ primaryType = "ReceiveWithAuthorization" then
      if readsEip3009 platform typed then some (eip3009Required.map (primaryType, ·)) else none
    else if primaryType = "PermitWitnessTransferFrom" then
      if readsPermit2 platform typed then
        some (permitRequired.map (encode "PermitWitnessTransferFrom", ·) ++
          ([(encode "token", encode "address"), (encode "amount", encode "uint256")].map
            (encode "TokenPermissions", ·) ++ witnessNeeds typed.types))
      else none
    else none
  | _ => none

/-- What is put into words before the attempt is recorded has no text. -/
inductive Illegible : Prop
  /-- The type of a field that has to be declared. -/
  | fieldType {needs : List Need} (known : needsOf platform typed = some needs)
      (bound : missingDomainCommitment viem typed domainRequired = .ok none) (blocked : Blocked typed.types needs)
  | primaryType (textless : Textless typed.primaryType)
  /-- What names no collector is shown as JSON. -/
  | json (anonymous : collectorInUnpoliceableShape platform typed signer.collectors = none)
      (unwritable : ∃ e, typed.primaryType.stringify = .error e)

variable {platform viem signer typed}

/-- The structs are checked where the domain is committed to. -/
theorem domain_first (tame : viem.Tame) (cloned : typed.Cloned) (structs : Throwing (Option JsString)) :
    (∃ e, orElse (missingDomainCommitment viem typed domainRequired) structs = .error e) ↔
      missingDomainCommitment viem typed domainRequired = .ok none ∧ ∃ e, structs = .error e := by
  obtain ⟨missing, settled⟩ := missingDomainCommitment_settles tame cloned domainRequired
  rw [settled]
  cases missing with
  | none => rw [show orElse (.ok none) structs = structs from rfl, and_iff_right rfl]
  | some message =>
    rw [show orElse (.ok (some message)) structs = .ok (some message) from rfl]
    simp

theorem extractEip3009_throws (tame : viem.Tame) (cloned : typed.Cloned) {primaryType : JsString}
    (primary : typed.primaryType = .string primaryType)
    (authorization : primaryType = "TransferWithAuthorization" ∨ primaryType = "ReceiveWithAuthorization")
    (collectors : List JsString) :
    (∃ e, extractEip3009 platform viem typed collectors primaryType = .error e) ↔
      ∃ needs, needsOf platform typed = some needs ∧ missingDomainCommitment viem typed domainRequired = .ok none ∧
        Blocked typed.types needs := by
  have checks : Checks typed.types (eip3009Required.map (primaryType, ·)) _ :=
    missingCommitment_checks cloned.types primaryType (List.cons_ne_nil _ _)
  rw [needsOf, primary]
  simp only [if_pos authorization]
  unfold extractEip3009
  dsimp only
  split
  · rename_i chainId asset payer payee nonce
    have reads : readsEip3009 platform typed = true := by simp [readsEip3009, chainId, asset, payer, payee, nonce]
    simp only [reads, if_true, Option.some.injEq, exists_eq_left']
    rw [← checks.throws, ← domain_first tame cloned]
    cases orElse (missingDomainCommitment viem typed domainRequired)
        (missingCommitment typed.types primaryType eip3009Required) with
    | error e => exact iff_of_true ⟨e, rfl⟩ ⟨e, rfl⟩
    | ok uncommitted => exact iff_of_false (by rintro ⟨e, ⟨⟩⟩) (by rintro ⟨e, ⟨⟩⟩)
  · rename_i unread
    have reads : ¬readsEip3009 platform typed = true := by
      intro reads
      simp only [readsEip3009, Bool.and_eq_true, Option.isSome_iff_exists] at reads
      obtain ⟨⟨⟨⟨⟨_, chainId⟩, _, asset⟩, _, payer⟩, _, payee⟩, _, nonce⟩ := reads
      exact unread _ _ _ _ _ chainId asset payer payee nonce
    simp [reads]

theorem extractPermit2_throws (tame : viem.Tame) (cloned : typed.Cloned)
    (primary : typed.primaryType = .string "PermitWitnessTransferFrom") (collectors : List JsString) :
    (∃ e, extractPermit2 platform viem typed collectors = .error e) ↔
      ∃ needs, needsOf platform typed = some needs ∧ missingDomainCommitment viem typed domainRequired = .ok none ∧
        Blocked typed.types needs := by
  have permit : Checks typed.types (permitRequired.map (encode "PermitWitnessTransferFrom", ·)) _ :=
    missingCommitment_checks cloned.types _ (List.cons_ne_nil _ _)
  have tokens : Checks typed.types ([(encode "token", encode "address"), (encode "amount", encode "uint256")].map
      (encode "TokenPermissions", ·)) _ := missingCommitment_checks cloned.types _ (List.cons_ne_nil _ _)
  have structs := permit.throws_orElse (tokens.throws_orElse (witnessCommitment_throws cloned.types))
  have other : ¬(encode "PermitWitnessTransferFrom" = encode "TransferWithAuthorization" ∨
      encode "PermitWitnessTransferFrom" = encode "ReceiveWithAuthorization") := by decide
  rw [needsOf, primary]
  simp only [if_neg other, if_true]
  unfold extractPermit2
  dsimp only
  split
  · rename_i chainId asset payee nonce
    have reads : readsPermit2 platform typed = true := by simp [readsPermit2, chainId, asset, payee, nonce]
    simp only [reads, if_true, Option.some.injEq, exists_eq_left']
    rw [← structs, ← domain_first tame cloned]
    cases orElse (missingDomainCommitment viem typed domainRequired) _ with
    | error e => exact iff_of_true ⟨e, rfl⟩ ⟨e, rfl⟩
    | ok uncommitted => exact iff_of_false (by rintro ⟨e, ⟨⟩⟩) (by rintro ⟨e, ⟨⟩⟩)
  · rename_i unread
    have reads : ¬readsPermit2 platform typed = true := by
      intro reads
      simp only [readsPermit2, Bool.and_eq_true, Option.isSome_iff_exists] at reads
      obtain ⟨⟨⟨⟨_, chainId⟩, _, asset⟩, _, payee⟩, _, nonce⟩ := reads
      exact unread _ _ _ _ chainId asset payee nonce
    simp [reads]

/-- The facts of a payment cannot be extracted exactly where a type stands in the way. -/
theorem extractPayment_throws (tame : viem.Tame) (cloned : typed.Cloned) (collectors : List JsString) :
    (∃ e, extractPayment platform viem typed collectors = .error e) ↔
      ∃ needs, needsOf platform typed = some needs ∧ missingDomainCommitment viem typed domainRequired = .ok none ∧
        Blocked typed.types needs := by
  cases primary : typed.primaryType with
  | string primaryType =>
    unfold extractPayment
    rw [primary]
    dsimp only
    split_ifs with authorization permit
    · exact extractEip3009_throws tame cloned primary authorization collectors
    · subst permit
      exact extractPermit2_throws tame cloned primary collectors
    · simp [needsOf, primary, authorization, permit]
  | _ => simp [extractPayment, needsOf, primary]

end Illegible

/-! ### The receiver behind a collector -/

/-- Whom a Permit2 signature empowers is configured. -/
def Entitled (signer : GuardedSigner) (p : ExtractedPayment) : Prop :=
  p.kind = .permit2 → ∃ spender ∈ p.spender, spender ∈ signer.permit2Spenders

/-- An expiry that is read lies ahead, no further than configured. -/
def Pending (signer : GuardedSigner) (p : ExtractedPayment) (nowSec : ℤ) : Prop :=
  ∀ expiry ∈ p.validBefore, nowSec < expiry ∧ ∀ m ∈ signer.maxValiditySeconds, expiry - startsAt p nowSec ≤ m

/-- In the second that the clock shows, a payment passes all that is checked before its collector. -/
structure Passes (viem : Viem) (signer : GuardedSigner) (typed : TypedDataRequest) (p : ExtractedPayment)
    (nowSec : ℤ) : Prop where
  committed : p.uncommitted = none
  own : p.payer.filter (· ≠ signer.address) = none
  pending : Pending signer p nowSec
  entitled : Entitled signer p
  hashed : ∃ digest, viem.hashTypedData typed = .ok digest
  recorded : ∃ committed, committedFieldSet viem.getTypesForEIP712Domain typed = .ok committed

/-- What the resolver is asked about a payment behind a collector. -/
def contextOf (signer : GuardedSigner) (p : ExtractedPayment) : Option AuthCaptureContext :=
  match p.collector, p.value, p.validBefore with
  | some collector, some value, some validBefore =>
    if signer.resolves then some ⟨p.chainId, p.asset, p.payer, value, validBefore, p.nonce, collector⟩ else none
  | _, _, _ => none

/-- The resolver may be asked about a request. -/
def Consults (platform : Platform) (viem : Viem) (signer : GuardedSigner) (typed : TypedDataRequest)
    (context : AuthCaptureContext) : Prop :=
  ∃ p nowSec, extractPayment platform viem typed signer.collectors = .ok (some p) ∧
    Passes viem signer typed p nowSec ∧ contextOf signer p = some context

/-- What is declared, if anything is, names a receiver that has a text. -/
def Receivable (answer : Throwing JsValue) : Prop :=
  isDeclaration (answer.toOption.getD .null) = true → ¬Textless (member "receiver" (answer.toOption.getD .null))

/-! ### The rows of an attempt -/

section Accounted
variable {platform : Platform} {viem : Viem} {guard : VadunoGuard} {signer : GuardedSigner} {resolver : Resolver}
  {typed : TypedDataRequest} {ids : List JsString}

/-- The guard begins by recording what it has received. -/
theorem ran_receive {refs : Ledger.Refs} {received : JsValue} {rest : Program GuardResult}
    {M : Async.Monitor Op.Answer Φ} {φ ψ : Φ} {ops : List Op} {result : Throwing GuardResult}
    (ran : Async.Ran M (VadunoGuard.receive refs received rest) φ ops result ψ) :
    ∃ later, ops = .append .intentReceived received refs :: later := by
  change Async.Ran M (.await (.append .intentReceived received refs) _) φ ops result ψ at ran
  cases ran with
  | await => exact ⟨_, rfl⟩

/-- Every call of the guard is answered, and has left a row. -/
theorem authorizes_records (tame : TameParts platform guard) {intent : PaymentIntent}
    {answer : Throwing SignerVerdict} {rows : List JsString}
    (authorizes : Authorizes platform guard intent answer rows) :
    (∃ verdict, answer = .ok verdict) ∧ intent.id ∈ rows := by
  obtain ⟨intake, ops, result, ran, takes, run, rfl, rfl⟩ := authorizes
  constructor
  · have wide : Async.Ran world _ False ops result ran := run.widen fun _ _ _ _ moved => moved.1
    obtain ⟨settled, rfl, -⟩ := wide.settles (VadunoGuard.run_resolves tame intake)
    exact ⟨_, rfl⟩
  · have begun : ∃ received refs later, ops = .append .intentReceived received refs :: later ∧
        refs.intentId = some intent.id := by
      cases intake with
      | unclonable => exact absurd takes id
      | malformed intentId agentId received reasons =>
        obtain ⟨later, rfl⟩ := ran_receive run
        exact ⟨_, _, later, rfl, congrArg some takes⟩
      | unidentified intentId agentId received offenders =>
        obtain ⟨later, rfl⟩ := ran_receive run
        exact ⟨_, _, later, rfl, congrArg some takes⟩
      | sound received own =>
        obtain ⟨later, rfl⟩ := ran_receive run
        exact ⟨_, _, later, rfl, congrArg (some ∘ PaymentIntent.id) takes⟩
    obtain ⟨received, refs, later, rfl, named⟩ := begun
    simp [recordedIds, named]

/-- A part of the gate that accounts for the attempt, however it comes out. -/
abbrev Accounts (platform : Platform) (guard : VadunoGuard) (resolver : Resolver) (ids : List JsString)
    (p : SignerProgram JsString) : Prop := p.Meets (attended platform guard resolver) Accounted ids

theorem meets_ask {op : SignerOp} {f : op.Answer → SignerProgram α}
    {post : List JsString → Except SignerError α → Prop}
    (rest : ∀ ans ids', (attended platform guard resolver).step ids op ans ids' →
      (f ans).Meets (attended platform guard resolver) post ids') :
    (op.ask >>= f).Meets (attended platform guard resolver) post ids :=
  ⟨trivial, rest⟩

/-- Once the guard has been asked, the attempt has a row. -/
theorem asked_records (tame : TameParts platform guard) {intent : PaymentIntent} {f : SignerVerdict → SignerProgram α}
    {post : List JsString → Except SignerError α → Prop}
    (rest : ∀ verdict ids', intent.id ∈ ids' → (f verdict).Meets (attended platform guard resolver) post ids') :
    (SignerOp.ask (.authorize intent) >>= fun answer => orThrown answer >>= f).Meets
      (attended platform guard resolver) post ids := by
  refine meets_ask fun answer ids' moved => ?_
  obtain ⟨rows, authorizes, rfl⟩ := moved
  obtain ⟨⟨verdict, rfl⟩, recorded⟩ := authorizes_records tame authorizes
  exact rest verdict _ (List.mem_append_right ids recorded)

theorem auditRefusal_records (tame : TameParts platform guard) (code : JsString) :
    (auditRefusal signer code).Meets (attended platform guard resolver)
      (fun ids r => ∃ intentId, r = .ok intentId ∧ intentId ∈ ids) ids := by
  refine meets_ask fun hex ids' unmoved => ?_
  obtain rfl : ids' = ids := unmoved
  refine (Async.meets_bind _ _ _).mpr ((Async.meets_tryCatch _ _ _).mpr (asked_records tame ?_))
  intro verdict ids' recorded
  cases verdict with
  | authorized =>
    refine meets_ask fun settled _ moved => ?_
    obtain ⟨rfl, rfl⟩ := moved
    refine meets_ask fun released _ moved => ?_
    obtain ⟨rfl, rfl⟩ := moved
    exact ⟨_, rfl, recorded⟩
  | _ => exact ⟨_, rfl, recorded⟩

theorem refuse_accounted (tame : TameParts platform guard) (code message : JsString) :
    Accounts platform guard resolver ids (refuse signer code message) := by
  refine Async.Meets.bind (auditRefusal_records tame code) ?_ ?_
  · rintro ids' _ ⟨intentId, ⟨⟩, recorded⟩
    exact recorded
  · rintro ids' _ ⟨_, ⟨⟩, -⟩

theorem refuseWith_accounted (tame : TameParts platform guard) (code : JsString) {message : Throwing JsString}
    (worded : ∃ text, message = .ok text) : Accounts platform guard resolver ids (refuseWith signer code message) := by
  obtain ⟨text, rfl⟩ := worded
  exact refuse_accounted tame code text

theorem askGuard_accounted (tame : TameParts platform guard) (intent : PaymentIntent) :
    Accounts platform guard resolver ids (askGuard platform typed intent) := by
  refine asked_records tame fun verdict ids' recorded => ?_
  have signed : ids' ≠ [] := List.ne_nil_of_mem recorded
  cases verdict with
  | authorized =>
    refine meets_ask fun answer _ moved => ?_
    obtain ⟨⟨signature, rfl⟩, rfl⟩ := moved
    refine meets_ask fun settled _ moved => ?_
    obtain ⟨rfl, rfl⟩ := moved
    exact signed
  | replayed original =>
    dsimp only
    split_ifs
    · refine meets_ask fun answer _ moved => ?_
      obtain ⟨⟨signature, rfl⟩, rfl⟩ := moved
      exact signed
    · exact recorded
  | refused status reasons => exact recorded
  | unexpected status => exact recorded

theorem priced_accounted (tame : TameParts platform guard) (p : ExtractedPayment) (digest payee : JsString) :
    Accounts platform guard resolver ids (priced platform signer typed p digest payee) := by
  unfold priced
  split
  · exact askGuard_accounted tame _
  · dsimp only
    split
    · exact refuse_accounted tame _ _
    · split_ifs
      · exact refuse_accounted tame _ _
      · split
        · exact askGuard_accounted tame _
        · split_ifs
          · exact refuse_accounted tame _ _
          · exact askGuard_accounted tame _

theorem orThrown_ok (a : α) (f : α → SignerProgram β) : (orThrown (.ok a) >>= f) = f a := rfl

theorem aliased_accounted (tame : TameParts platform guard) {p : ExtractedPayment} (digest : JsString)
    (receivable : ∀ context ∈ contextOf signer p, ∀ answer, resolver context answer → Receivable answer) :
    Accounts platform guard resolver ids (aliased platform viem signer typed p digest) := by
  unfold aliased
  split
  · exact priced_accounted tame p _ _
  · rename_i collector known
    split_ifs with unresolving
    · exact refuse_accounted tame _ _
    · split
      · rename_i value validBefore priced timed
        have asked : contextOf signer p =
            some ⟨p.chainId, p.asset, p.payer, value, validBefore, p.nonce, collector⟩ := by
          simp only [contextOf, known, priced, timed]
          simpa using unresolving
        refine meets_ask fun answer _ moved => ?_
        obtain ⟨declares, rfl⟩ := moved
        dsimp only
        have texted := fun declared => text_of_not_textless (receivable _ asked answer declares declared)
        split_ifs with undeclared mismatch
        · exact refuse_accounted tame _ _
        · obtain ⟨receiver, texted⟩ := texted (by simpa using undeclared)
          rw [texted]
          exact refuseWith_accounted tame _ ⟨_, rfl⟩
        · obtain ⟨receiver, texted⟩ := texted (by simpa using undeclared)
          rw [texted, orThrown_ok]
          split
          · exact refuse_accounted tame _ _
          · exact priced_accounted tame p _ _
      · exact refuse_accounted tame _ _

theorem identified_accounted (tame : TameParts platform guard) (viemTame : viem.Tame) (cloned : typed.Cloned)
    {p : ExtractedPayment}
    (rest : ∀ digest, viem.hashTypedData typed = .ok digest →
      (∃ committed, committedFieldSet viem.getTypesForEIP712Domain typed = .ok committed) →
      Accounts platform guard resolver ids (aliased platform viem signer typed p digest)) :
    Accounts platform guard resolver ids (identified platform viem signer typed p) := by
  unfold identified
  split
  · rename_i err failed
    obtain ⟨text, named⟩ := viemTame.digest typed cloned err failed
    rw [named]
    exact refuseWith_accounted tame _ ⟨_, rfl⟩
  · rename_i digest hashed
    split
    · rename_i err failed
      obtain ⟨text, named⟩ := names_committedFieldSet viemTame cloned err failed
      rw [named]
      exact refuseWith_accounted tame _ ⟨_, rfl⟩
    · rename_i committed recorded
      exact rest digest hashed ⟨committed, recorded⟩

theorem empowered_accounted (tame : TameParts platform guard) {p : ExtractedPayment}
    (rest : Entitled signer p → Accounts platform guard resolver ids (identified platform viem signer typed p)) :
    Accounts platform guard resolver ids (empowered platform viem signer typed p) := by
  unfold empowered
  split
  · rename_i kind
    exact rest fun permit => by rw [kind] at permit; cases permit
  · split
    · exact refuse_accounted tame _ _
    · rename_i spender known
      split_ifs with configured
      · exact rest fun _ => ⟨spender, known, configured⟩
      · exact refuse_accounted tame _ _

theorem timely_accounted (tame : TameParts platform guard) {p : ExtractedPayment} {nowSec : ℤ}
    (rest : Pending signer p nowSec → Accounts platform guard resolver ids (empowered platform viem signer typed p)) :
    Accounts platform guard resolver ids (timely platform viem signer typed p nowSec) := by
  unfold timely
  split
  · rename_i unread
    exact rest (by simp [Pending, unread])
  · rename_i expiry read
    split_ifs with expired
    · exact refuse_accounted tame _ _
    · split
      · exact refuse_accounted tame _ _
      · rename_i short
        refine rest fun e same => ?_
        obtain rfl : expiry = e := Option.some.inj (read.symm.trans same)
        refine ⟨not_le.mp expired, fun m configured => ?_⟩
        exact not_lt.mp fun longer => Option.filter_eq_none_iff.mp short m configured (decide_eq_true longer)

theorem policed_accounted (tame : TameParts platform guard) (viemTame : viem.Tame) (cloned : typed.Cloned)
    {p : ExtractedPayment} (receivable : ∀ nowSec, Passes viem signer typed p nowSec →
      ∀ context ∈ contextOf signer p, ∀ answer, resolver context answer → Receivable answer) :
    Accounts platform guard resolver ids (policed platform viem signer typed p) := by
  unfold policed
  split
  · exact refuse_accounted tame _ _
  · rename_i committed
    split
    · exact refuse_accounted tame _ _
    · rename_i own
      refine meets_ask fun ms ids' unmoved => ?_
      obtain rfl : ids' = ids := unmoved
      refine timely_accounted tame fun pending => empowered_accounted tame fun entitled =>
        identified_accounted tame viemTame cloned fun digest hashed recorded => aliased_accounted tame digest ?_
      exact receivable _ ⟨committed, own, pending, entitled, ⟨digest, hashed⟩, recorded⟩

theorem unrecognized_accounted (tame : TameParts platform guard) (texted : ¬Textless typed.primaryType)
    (written : collectorInUnpoliceableShape platform typed signer.collectors = none →
      ¬∃ e, typed.primaryType.stringify = .error e) :
    Accounts platform guard resolver ids (unrecognized platform signer typed) := by
  have shown : ∃ text, primaryTypeText typed = .ok text := by
    unfold primaryTypeText
    split
    · exact ⟨_, rfl⟩
    · exact ⟨_, rfl⟩
    · exact text_of_not_textless texted
  obtain ⟨text, shown⟩ := shown
  unfold unrecognized
  split
  · rw [shown]
    exact refuse_accounted tame _ _
  · rename_i anonymous
    cases json : typed.primaryType.stringify with
    | error e => exact absurd ⟨e, json⟩ (written anonymous)
    | ok json =>
      rw [shown]
      exact refuse_accounted tame _ _

/-! ### What escapes -/

/-- What throws is no answer to the attempt. -/
theorem orThrown_escapes {r : Throwing α} {f : α → SignerProgram JsString} (throws : ∃ e, r = .error e) :
    ¬Accounts platform guard resolver ids (orThrown r >>= f) := by
  obtain ⟨e, rfl⟩ := throws
  exact id

theorem unknown_accounts (ran : extractPayment platform viem typed signer.collectors = .ok none) :
    Accounts platform guard resolver ids (gatedSignTypedData platform viem signer (some typed)) ↔
      Accounts platform guard resolver ids (unrecognized platform signer typed) := by
  change Accounts _ _ _ _ (orThrown (extractPayment platform viem typed signer.collectors) >>= _) ↔ _
  rw [ran]
  rfl

theorem known_accounts {p : ExtractedPayment}
    (ran : extractPayment platform viem typed signer.collectors = .ok (some p)) :
    Accounts platform guard resolver ids (gatedSignTypedData platform viem signer (some typed)) ↔
      Accounts platform guard resolver ids (policed platform viem signer typed p) := by
  change Accounts _ _ _ _ (orThrown (extractPayment platform viem typed signer.collectors) >>= _) ↔ _
  rw [ran]
  rfl

/-- A request without a text for its primary type is of no known shape. -/
theorem textless_unknown (unreadable : Textless typed.primaryType ∨ ∃ e, typed.primaryType.stringify = .error e)
    (collectors : List JsString) : extractPayment platform viem typed collectors = .ok none := by
  unfold extractPayment
  split
  · rename_i primaryType primary
    rw [primary] at unreadable
    rcases unreadable with ⟨e, failed⟩ | ⟨e, failed⟩ <;> cases failed
  · rfl

theorem textless_escapes (textless : Textless typed.primaryType) :
    ¬Accounts platform guard resolver ids (unrecognized platform signer typed) := by
  have untold : ∃ e, primaryTypeText typed = .error e := by
    obtain ⟨e, failed⟩ := textless
    unfold primaryTypeText
    split
    · rename_i same
      rw [same] at failed
      cases failed
    · rename_i same
      rw [same] at failed
      cases failed
    · exact ⟨e, failed⟩
  unfold unrecognized
  split
  · exact orThrown_escapes untold
  · cases typed.primaryType.stringify with
    | error e => exact orThrown_escapes ⟨e, rfl⟩
    | ok json =>
      change ¬Accounts _ _ _ _ (orThrown (primaryTypeText typed) >>= _)
      exact orThrown_escapes untold

theorem illegible_escapes (tame : viem.Tame) (cloned : typed.Cloned)
    (illegible : Illegible platform viem signer typed) :
    ¬Accounts platform guard resolver ids (gatedSignTypedData platform viem signer (some typed)) := by
  cases illegible with
  | fieldType known bound blocked =>
    exact orThrown_escapes ((extractPayment_throws tame cloned _).mpr ⟨_, known, bound, blocked⟩)
  | primaryType textless =>
    rw [unknown_accounts (textless_unknown (.inl textless) _)]
    exact textless_escapes textless
  | json anonymous unwritable =>
    rw [unknown_accounts (textless_unknown (.inr unwritable) _), unrecognized, anonymous]
    exact orThrown_escapes unwritable

theorem timely_pending {p : ExtractedPayment} {nowSec : ℤ} (pending : Pending signer p nowSec) :
    timely platform viem signer typed p nowSec = empowered platform viem signer typed p := by
  unfold timely
  cases read : p.validBefore with
  | none => rfl
  | some expiry =>
    obtain ⟨ahead, short⟩ := pending expiry read
    have none_over : (signer.maxValiditySeconds.filter fun m => decide (m < expiry - startsAt p nowSec)) = none :=
      Option.filter_eq_none_iff.mpr fun m configured => by simpa using short m configured
    simp only [if_neg (not_le.mpr ahead), none_over]

theorem empowered_entitled {p : ExtractedPayment} (entitled : Entitled signer p) :
    empowered platform viem signer typed p = identified platform viem signer typed p := by
  unfold empowered
  cases kind : p.kind with
  | eip3009 => rfl
  | permit2 =>
    obtain ⟨spender, known, configured⟩ := entitled kind
    rw [Option.mem_def.mp known]
    exact if_neg (not_not.mpr configured)

theorem identified_recorded {p : ExtractedPayment} {digest : JsString} {committed : CommittedFields}
    (hashed : viem.hashTypedData typed = .ok digest)
    (recorded : committedFieldSet viem.getTypesForEIP712Domain typed = .ok committed) :
    identified platform viem signer typed p = aliased platform viem signer typed p digest := by
  rw [identified, hashed]
  dsimp only
  rw [recorded]

theorem aliased_escapes {p : ExtractedPayment} {digest : JsString} {context : AuthCaptureContext}
    {answer : Throwing JsValue} (asked : contextOf signer p = some context) (declares : resolver context answer)
    (textless : ¬Receivable answer) :
    ¬Accounts platform guard resolver ids (aliased platform viem signer typed p digest) := by
  unfold contextOf at asked
  split at asked
  · rename_i collector value validBefore known priced timed
    rw [Option.ite_none_right_eq_some] at asked
    obtain ⟨resolves, same⟩ := asked
    obtain rfl := Option.some.inj same
    obtain ⟨declared, untold⟩ := Classical.not_imp.mp textless
    obtain ⟨e, failed⟩ := not_not.mp untold
    unfold aliased
    simp only [known, priced, timed, resolves, Bool.not_true, Bool.false_eq_true, if_false]
    intro accounts
    have answered := accounts.2 answer ids ⟨declares, rfl⟩
    change Accounts _ _ _ _ (ite _ _ (ite _ _ _)) at answered
    rw [if_neg (by simp [declared])] at answered
    -- the receiver is named in the message and, where the nonce fits, as the payee
    split_ifs at answered with mismatch
    · refine orThrown_escapes ⟨e, ?_⟩ answered
      rw [failed]
      rfl
    · exact orThrown_escapes ⟨e, failed⟩ answered
  · cases asked

theorem consulted_escapes {context : AuthCaptureContext} {answer : Throwing JsValue}
    (consults : Consults platform viem signer typed context) (declares : resolver context answer)
    (textless : ¬Receivable answer) :
    ¬Accounts platform guard resolver ids (gatedSignTypedData platform viem signer (some typed)) := by
  obtain ⟨p, nowSec, extracted, passes, asked⟩ := consults
  obtain ⟨digest, hashed⟩ := passes.hashed
  obtain ⟨committed, recorded⟩ := passes.recorded
  rw [known_accounts extracted, policed, passes.committed, passes.own]
  intro accounts
  have shown : 1000 * nowSec / 1000 = nowSec := Int.mul_ediv_cancel_left _ (by decide)
  have gated : Accounts platform guard resolver ids (timely platform viem signer typed p nowSec) :=
    shown ▸ accounts.2 (1000 * nowSec) ids rfl
  rw [timely_pending passes.pending, empowered_entitled passes.entitled, identified_recorded hashed recorded] at gated
  exact aliased_escapes asked declares textless gated

end Accounted

section Main
variable {platform : Platform} {viem : Viem} {guard : VadunoGuard} {signer : GuardedSigner} {resolver : Resolver}
  {typed : TypedDataRequest}

/-- Every run ends with a signature or with a refusal of the signer's, and with a row for the attempt, exactly
where the request is legible and whatever the resolver may declare for it names a receiver that has a text. -/
theorem attempts_accounted (tame : TameParts platform guard) (viemTame : viem.Tame) (cloned : typed.Cloned) :
    Accounts platform guard resolver [] (gatedSignTypedData platform viem signer (some typed)) ↔
      ¬Illegible platform viem signer typed ∧ ∀ context, Consults platform viem signer typed context →
        ∀ answer, resolver context answer → Receivable answer := by
  constructor
  · intro accounts
    refine ⟨fun illegible => illegible_escapes viemTame cloned illegible accounts, ?_⟩
    intro context consults answer declares
    exact not_not.mp fun textless => consulted_escapes consults declares textless accounts
  · rintro ⟨legible, receivable⟩
    cases extracted : extractPayment platform viem typed signer.collectors with
    | error e =>
      obtain ⟨needs, known, bound, blocked⟩ := (extractPayment_throws viemTame cloned _).mp ⟨e, extracted⟩
      exact absurd (.fieldType known bound blocked) legible
    | ok extraction =>
      cases extraction with
      | none =>
        refine (unknown_accounts extracted).mpr (unrecognized_accounted tame ?_ ?_)
        · exact fun textless => legible (.primaryType textless)
        · exact fun anonymous unwritable => legible (.json anonymous unwritable)
      | some p =>
        refine (known_accounts extracted).mpr (policed_accounted tame viemTame cloned ?_)
        exact fun nowSec passes context asked => receivable context ⟨p, nowSec, extracted, passes, asked⟩

end Main

/-! ### A primary type without JSON -/

namespace AuditedRefusals.Sample
open TimeBounds.Sample

theorem viem_tame : viem.Tame where
  digest typed _ := by
    unfold viem
    dsimp only
    split
    · split_ifs
      · exact .ok _
      · exact .error _
    · exact .of_named named_typeError
  domain _ _ := .ok _

theorem field_cloned (name type : String) : Cloned (field name type) := .object (by simp [Cloned.string])

theorem transfer_cloned (validBefore : String) : (transfer validBefore).Cloned where
  domain := .object (by simp [Cloned.string, Cloned.number])
  types := by
    simp only [transfer, List.mem_singleton, forall_eq]
    exact .array (by simp [field_cloned])
  primaryType := .string _
  message := .object (by simp [Cloned.string])

/-- A resolver that declares nothing. -/
def silent : Resolver := fun _ answer => answer = .ok .null

theorem transfer_accounted :
    Accounts Sample.platform Guard.Resolution.paying silent [] (gatedSignTypedData Sample.platform viem signer
      (some (transfer "1700000000"))) := by
  refine (attempts_accounted Guard.Resolution.tame viem_tame (transfer_cloned _)).mpr ⟨?_, ?_⟩
  · intro illegible
    cases illegible with
    | fieldType known bound blocked =>
      obtain ⟨e, failed⟩ := (extractPayment_throws viem_tame (transfer_cloned _) []).mpr ⟨_, known, bound, blocked⟩
      have extracted := computed.1.1
      rw [failed] at extracted
      cases extracted
    | primaryType textless =>
      obtain ⟨_, failed⟩ := textless
      cases failed
    | json _ unwritable =>
      obtain ⟨_, failed⟩ := unwritable
      cases failed
  · rintro context - answer rfl declared
    cases declared

/-- Nothing but a primary type, and that a bigint. -/
def numbered : TypedDataRequest := ⟨.undefined, [], .bigint 1, .undefined⟩

/-- The call rejects with the engine's error, and nothing was asked that could have recorded the attempt. -/
theorem numbered_escapes : numbered.Cloned ∧
    gatedSignTypedData Sample.platform viem signer (some numbered) = throw (.thrown .typeError) ∧
    ¬Accounts Sample.platform Guard.Resolution.paying silent []
      (gatedSignTypedData Sample.platform viem signer (some numbered)) := by
  have thrown : gatedSignTypedData Sample.platform viem signer (some numbered) = throw (.thrown .typeError) := rfl
  refine ⟨⟨.undefined, by simp [numbered], .bigint 1, .undefined⟩, thrown, ?_⟩
  rw [thrown]
  exact id

end AuditedRefusals.Sample

end Vaduno.Cloudflare
