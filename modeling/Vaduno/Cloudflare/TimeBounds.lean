import Vaduno.Cloudflare.GuardedSigner
import Vaduno.Sample

/-! When what the signer signs is bounded in time. The gate compares times that it reads as plain integers;
the encoder of the digest reads more than that, and an expiry that only the encoder reads goes unchecked. -/
namespace Vaduno

/-! ### Operations that a program comes to -/

namespace Async
variable {Op : Type} {Ans : Op → Type} {ε α β : Type}

/-- In some run, with answers that may be given, the program asks for an operation. -/
inductive Reaches (answers : (op : Op) → Ans op → Prop) (goal : Op) : Async Ans ε α → Prop
  | here {next : Ans goal → Async Ans ε α} : Reaches answers goal (await goal next)
  | later {op : Op} {next : Ans op → Async Ans ε α} {ans : Ans op} (answered : answers op ans)
      (reaches : Reaches answers goal (next ans)) : Reaches answers goal (await op next)

variable {answers answers' : (op : Op) → Ans op → Prop} {goal : Op} {kind : Op → Prop} {p : Async Ans ε α}
  {post : Except ε α → Prop}

/-- A program that asks for operations of a kind reaches no others. -/
theorem Reaches.of_kind (reaches : Reaches answers goal p) (asks : p.Asks kind post) : kind goal := by
  induction reaches with
  | here => exact asks.1
  | later _ _ ih => exact ih (asks.2 _ _ trivial)

/-- Which answers may be given to other operations makes no difference. -/
theorem Reaches.transfer (reaches : Reaches answers goal p) (asks : p.Asks kind post)
    (given : ∀ op, kind op → ∀ ans, answers' op ans) : Reaches answers' goal p := by
  induction reaches with
  | here => exact .here
  | later _ _ ih => exact .later (given _ asks.1 _) (ih (asks.2 _ _ trivial))

theorem reaches_perform {op : Op} {f : Ans op → Async Ans ε β} (other : op ≠ goal) :
    Reaches answers goal (perform op >>= f) ↔ ∃ ans, answers op ans ∧ Reaches answers goal (f ans) := by
  constructor
  · intro reaches
    cases reaches with
    | here => exact absurd rfl other
    | later answered reaches => exact ⟨_, answered, reaches⟩
  · rintro ⟨ans, answered, reaches⟩
    exact .later answered reaches

end Async
end Vaduno

namespace Vaduno.Cloudflare
open Ecma
open Policy (member)

/-! ### What is asked once the times have been checked -/

/-- An operation that neither reads the clock nor signs anything but the request. -/
def Calm (typed : TypedDataRequest) : SignerOp → Prop
  | .now => False
  | .signTypedData other => other = typed
  | _ => True

section Calm
variable {typed : TypedDataRequest}

/-- A program that asks only for such operations. -/
abbrev IsCalm (typed : TypedDataRequest) (p : SignerProgram α) : Prop := p.Asks (Calm typed) fun _ => True

theorem calm_bind {p : SignerProgram α} {f : α → SignerProgram β} (first : IsCalm typed p)
    (rest : ∀ a, IsCalm typed (f a)) : IsCalm typed (p >>= f) :=
  Async.Meets.bind first (fun _ a _ => rest a) fun _ _ _ => trivial

theorem calm_ask {op : SignerOp} {f : op.Answer → SignerProgram β} (calm : Calm typed op)
    (rest : ∀ a, IsCalm typed (f a)) : IsCalm typed (op.ask >>= f) :=
  ⟨calm, fun ans _ _ => rest ans⟩

theorem calm_tryCatch {p : SignerProgram α} {handler : SignerError → SignerProgram α} (body : IsCalm typed p)
    (handled : ∀ e, IsCalm typed (handler e)) : IsCalm typed (tryCatch p handler) :=
  Async.Meets.tryCatch body (fun _ _ _ => trivial) fun _ e _ => handled e

theorem calm_orThrown (r : Throwing α) : IsCalm typed (orThrown r) := by
  cases r <;> trivial

variable (signer : GuardedSigner)

theorem calm_auditRefusal (code : JsString) : IsCalm typed (auditRefusal signer code) := by
  refine calm_ask trivial fun hex => calm_bind ?_ fun _ => trivial
  refine calm_tryCatch ?_ fun _ => trivial
  refine calm_ask trivial fun verdict => calm_bind (calm_orThrown _) fun verdict => ?_
  cases verdict with
  | authorized =>
    refine calm_ask trivial fun _ => calm_bind (calm_orThrown _) fun _ => ?_
    exact calm_ask trivial fun _ => calm_orThrown _
  | _ => trivial

theorem calm_refuse (code message : JsString) : IsCalm typed (refuse signer code message : SignerProgram α) :=
  calm_bind (calm_auditRefusal signer code) fun _ => trivial

theorem calm_refuseWith (code : JsString) (message : Throwing JsString) :
    IsCalm typed (refuseWith signer code message : SignerProgram α) :=
  calm_bind (calm_orThrown _) fun _ => calm_refuse signer code _

variable (platform : Platform) (viem : Viem)

theorem calm_askGuard (intent : PaymentIntent) : IsCalm typed (askGuard platform typed intent) := by
  refine calm_ask trivial fun _ => calm_bind (calm_orThrown _) fun verdict => ?_
  cases verdict with
  | authorized =>
    refine calm_ask rfl fun signed => ?_
    cases signed with
    | error err =>
      refine calm_bind (calm_orThrown _) fun msg => calm_ask trivial fun _ => calm_bind (calm_orThrown _) fun _ => ?_
      exact calm_ask trivial fun _ => calm_bind (calm_orThrown _) fun _ => trivial
    | ok signature => exact calm_ask trivial fun _ => calm_bind (calm_orThrown _) fun _ => trivial
  | replayed original =>
    dsimp only
    split_ifs
    · exact calm_ask rfl fun _ => calm_orThrown _
    · trivial
  | refused status reasons => trivial
  | unexpected status => trivial

theorem calm_priced (p : ExtractedPayment) (digest payee : JsString) :
    IsCalm typed (priced platform signer typed p digest payee) := by
  unfold priced
  split
  · exact calm_askGuard platform _
  · dsimp only
    split
    · exact calm_refuse signer _ _
    · split_ifs
      · exact calm_refuse signer _ _
      · split
        · exact calm_askGuard platform _
        · split_ifs
          · exact calm_refuse signer _ _
          · exact calm_askGuard platform _

theorem calm_aliased (p : ExtractedPayment) (digest : JsString) :
    IsCalm typed (aliased platform viem signer typed p digest) := by
  unfold aliased
  split
  · exact calm_priced signer platform p _ _
  · split_ifs
    · exact calm_refuse signer _ _
    · split
      · refine calm_ask trivial fun answer => ?_
        dsimp only
        split_ifs
        · exact calm_refuse signer _ _
        · exact calm_refuseWith signer _ _
        · refine calm_bind (calm_orThrown _) fun receiver => ?_
          split
          · exact calm_refuse signer _ _
          · exact calm_priced signer platform p _ _
      · exact calm_refuse signer _ _

theorem calm_identified (p : ExtractedPayment) : IsCalm typed (identified platform viem signer typed p) := by
  unfold identified
  split
  · exact calm_refuseWith signer _ _
  · split
    · exact calm_refuseWith signer _ _
    · exact calm_aliased signer platform viem p _

theorem calm_empowered (p : ExtractedPayment) : IsCalm typed (empowered platform viem signer typed p) := by
  unfold empowered
  split
  · exact calm_identified signer platform viem p
  · split
    · exact calm_refuse signer _ _
    · split_ifs
      · exact calm_identified signer platform viem p
      · exact calm_refuse signer _ _

end Calm
/-! ### Times -/

section Times
variable (typed : TypedDataRequest)

def isPermit : Bool :=
  match typed.primaryType with
  | .string primaryType => decide (primaryType = "PermitWitnessTransferFrom")
  | _ => false

/-- The field that holds the expiry. -/
def expiryName : JsString := if isPermit typed then "deadline" else "validBefore"

def expiryField : JsValue := member (expiryName typed) typed.message

/-- The field that holds the start, which a permit does not have. -/
def validAfterField : Option JsValue :=
  if isPermit typed then none else some (member "validAfter" typed.message)

/-- What the struct of the primary type declares a field as. -/
def Declares (name type : JsString) : Prop :=
  ∃ primary fields field, typed.primaryType = .string primary ∧ declaration typed.types primary = some fields ∧
    findField fields name = some field ∧ (member "type" field).stringOf = .ok type

end Times

/-- What is relied on of the encoder: an integer field is encoded as the `BigInt` of its value, in range, and
a digest is computed over each declared field's encoding. -/
structure Viem.Encodes (viem : Viem) : Prop where
  integers : ∀ v, viem.encodeUint256 v = (toBigInt v).toOption.filter fun n => decide (0 ≤ n) && decide (n < 2 ^ 256)
  covers : ∀ typed digest name, viem.hashTypedData typed = .ok digest → Declares typed name "uint256" →
    (viem.encodeUint256 (member name typed.message)).isSome

/-- The second that the clock shows when it is read, and any answer to other operations. -/
def Clock (nowSec : ℤ) : (op : SignerOp) → op.Answer → Prop
  | .now, ms => ms / 1000 = nowSec
  | _, _ => True

section Bounds
variable (platform : Platform) (viem : Viem) (signer : GuardedSigner) (typed : TypedDataRequest)

/-- In some run in which the clock shows the second, a request is presented and the account signs it. -/
def Signs (nowSec : ℤ) : Prop :=
  Async.Reaches (Clock nowSec) (.signTypedData typed) (gatedSignTypedData platform viem signer (some typed))

/-- The encoded start of the window: the clock's reading where there is none, or zero. -/
def opensAt (nowSec : ℤ) : ℤ :=
  match (validAfterField typed).bind viem.encodeUint256 with
  | some validAfter => if 0 < validAfter then validAfter else nowSec
  | none => nowSec

/-- The encoded expiry lies ahead, and the encoded window is no longer than configured. -/
def TimeBounded (nowSec : ℤ) : Prop :=
  ∃ expiry, viem.encodeUint256 (expiryField typed) = some expiry ∧ nowSec < expiry ∧
    ∀ m ∈ signer.maxValiditySeconds, expiry - opensAt viem typed nowSec ≤ m

/-- The gate reads the expiry; and, where a longest window is configured, it reads the start too, or that is
encoded as zero or as no more than the longest window ahead of the expiry. -/
def TimesRead : Prop :=
  ∃ expiry, asBigInt (expiryField typed) = some expiry ∧
    ∀ m ∈ signer.maxValiditySeconds, ∀ v ∈ validAfterField typed, asBigInt v = none →
      ∀ validAfter, viem.encodeUint256 v = some validAfter → 0 < validAfter → expiry - validAfter ≤ m

end Bounds

/-! ### The gate's reader and the encoder's -/

theorem digitValue_decimal {u : UInt16} (digit : isDigit u = true) :
    digitValue u = u.toNat - 48 ∧ isDigitBelow 10 u = true ∧ Mandate.isSpaceUnit u = false := by
  simp only [isDigit, Bool.and_eq_true, decide_eq_true_eq, UInt16.le_iff_toNat_le, UInt16.lt_iff_toNat_lt,
    UInt16.reduceToNat] at digit
  have small : u < 58 := UInt16.lt_iff_toNat_lt.mpr digit.2
  have value : digitValue u = u.toNat - 48 := if_pos small
  refine ⟨value, ?_, ?_⟩
  · rw [isDigitBelow, value]
    simp only [isHexUnit, Bool.and_eq_true, Bool.or_eq_true, decide_eq_true_eq, UInt16.le_iff_toNat_le,
      UInt16.lt_iff_toNat_lt, UInt16.reduceToNat]
    omega
  · simp only [Mandate.isSpaceUnit, Bool.or_eq_false_iff, Bool.and_eq_false_iff, decide_eq_false_iff_not,
      UInt16.le_iff_toNat_le, ← UInt16.toNat_inj, UInt16.reduceToNat]
    omega

theorem readRadix_digits {s : JsString} (digits : isDigits s = true) : readRadix 10 s = some (digitsValue s : ℤ) := by
  rw [isDigits, Bool.and_eq_true, List.all_eq_true] at digits
  have below : s.all (isDigitBelow 10) = true :=
    List.all_eq_true.mpr fun u listed => (digitValue_decimal (digits.2 u listed)).2.1
  have value : s.foldl (fun value u => 10 * value + digitValue u) 0 = digitsValue s :=
    List.foldl_ext _ _ 0 fun value u listed => by rw [(digitValue_decimal (digits.2 u listed)).1]
  rw [readRadix, digits.1, below, value]
  rfl

/-- White space is not cut from digits, and no mark of another base is read into them. -/
theorem stringToBigInt_digits {s : JsString} (digits : isDigits s = true) :
    stringToBigInt s = some (digitsValue s : ℤ) := by
  have read := readRadix_digits digits
  rw [isDigits, Bool.and_eq_true, List.all_eq_true] at digits
  have solid : ∀ u ∈ s, Mandate.isSpaceUnit u = false := fun u listed => (digitValue_decimal (digits.2 u listed)).2.2
  have front : s.dropWhile Mandate.isSpaceUnit = s := by
    cases s with
    | nil => rfl
    | cons u rest => exact List.dropWhile_cons_of_neg (by simp [solid u])
  have back : s.rdropWhile Mandate.isSpaceUnit = s :=
    List.rdropWhile_eq_self_iff.mpr fun nonempty => by simp [solid _ (List.getLast_mem nonempty)]
  have not_mark : ∀ u, isDigit u = false → u ∉ s := fun u other listed => by simp [digits.2 u listed] at other
  unfold stringToBigInt
  rw [front, back]
  split
  · simp at digits
  · exact absurd (by simp) (not_mark 120 rfl)
  · exact absurd (by simp) (not_mark 88 rfl)
  · exact absurd (by simp) (not_mark 111 rfl)
  · exact absurd (by simp) (not_mark 79 rfl)
  · exact absurd (by simp) (not_mark 98 rfl)
  · exact absurd (by simp) (not_mark 66 rfl)
  · exact absurd (by simp) (not_mark 43 rfl)
  · exact absurd (by simp) (not_mark 45 rfl)
  · exact read

/-- What the gate reads is what the encoder reads. -/
theorem toBigInt_of_asBigInt {v : JsValue} {n : ℤ} (read : asBigInt v = some n) : toBigInt v = .ok n := by
  cases v with
  | bigint m => exact congrArg Except.ok (Option.some.inj read)
  | number x =>
    rw [asBigInt, Option.ite_none_right_eq_some] at read
    obtain ⟨safe, value⟩ := read
    obtain ⟨m, narrow, rfl⟩ := Number.isSafeInteger_iff.mp safe
    have whole : (m : Number).isInteger = true := by
      rw [Number.intCast_def narrow.le]
      simp [Number.isInteger, Rat.isInt]
    rw [toBigInt, if_pos whole, Option.some.inj value]
  | string s =>
    rw [asBigInt, Option.ite_none_right_eq_some] at read
    obtain ⟨digits, value⟩ := read
    rw [← Option.some.inj value]
    change (match stringToBigInt s with | some n => _ | none => _) = _
    rw [stringToBigInt_digits digits]
    rfl
  | _ => cases read

/-- An integer that the gate reads is encoded as itself, if it is encoded. -/
theorem Viem.Encodes.agrees {viem : Viem} (encodes : viem.Encodes) {v : JsValue} {n : ℤ} (read : asBigInt v = some n)
    (encoded : (viem.encodeUint256 v).isSome) : viem.encodeUint256 v = some n := by
  rw [encodes.integers, toBigInt_of_asBigInt read, Except.toOption, Option.filter_some] at encoded ⊢
  exact if_pos (Option.isSome_ite.mp encoded)

/-! ### What is extracted of a request -/

section Extraction
variable {platform : Platform} {viem : Viem} {typed : TypedDataRequest} {collectors : List JsString}
  {p : ExtractedPayment}

theorem orElse_none {first second : Throwing (Option JsString)} (ran : orElse first second = .ok none) :
    first = .ok none ∧ second = .ok none := by
  rcases first with e | _ | message
  · cases ran
  · exact ⟨rfl, ran⟩
  · cases ran

theorem missingOf_none {structName : JsString} {fields : List JsValue} {required : List RequiredField}
    (ran : missingOf structName fields required = .ok none) {name type : JsString} (listed : (name, type) ∈ required) :
    ∃ field, findField fields name = some field ∧ (member "type" field).stringOf = .ok type := by
  induction required with
  | nil => cases listed
  | cons head rest ih =>
    obtain ⟨first, expected⟩ := head
    rw [missingOf] at ran
    cases found : findField fields first with
    | none =>
      rw [found] at ran
      cases ran
    | some field =>
      rw [found] at ran
      obtain ⟨declared, read, ran⟩ := bind_ok ran
      split_ifs at ran with other
      · obtain ⟨_, -, ran⟩ := bind_ok ran
        cases ran
      · rcases List.mem_cons.mp listed with same | later
        · cases same
          exact ⟨field, found, by rw [read, not_not.mp other]⟩
        · exact ih ran later

theorem missingCommitment_none {structName : JsString} {required : List RequiredField}
    (ran : missingCommitment typed.types structName required = .ok none)
    (primary : typed.primaryType = .string structName) {name type : JsString} (listed : (name, type) ∈ required) :
    Declares typed name type := by
  unfold missingCommitment at ran
  split at ran
  · cases ran
  · rename_i fields declared
    obtain ⟨field, found, read⟩ := missingOf_none ran listed
    exact ⟨structName, fields, field, primary, declared, found, read⟩

/-- What is extracted of the times of a request, and that a payment without a complaint commits to them. -/
structure Timed (typed : TypedDataRequest) (p : ExtractedPayment) : Prop where
  validBefore : p.validBefore = asBigInt (expiryField typed)
  validAfter : p.validAfter = (validAfterField typed).bind asBigInt
  expiry_declared : p.uncommitted = none → Declares typed (expiryName typed) "uint256"
  start_declared : p.uncommitted = none → ∀ v ∈ validAfterField typed,
    v = member "validAfter" typed.message ∧ Declares typed "validAfter" "uint256"

theorem extractEip3009_timed {primaryType : JsString} (primary : typed.primaryType = .string primaryType)
    (authorization : isPermit typed = false)
    (ran : extractEip3009 platform viem typed collectors primaryType = .ok (some p)) : Timed typed p := by
  unfold extractEip3009 at ran
  dsimp only at ran
  split at ran
  · obtain ⟨uncommitted, checked, ran⟩ := bind_ok ran
    cases ran
    have declared : ∀ name, uncommitted = none → (name, encode "uint256") ∈ eip3009Required →
        Declares typed name "uint256" := by
      rintro name rfl listed
      exact missingCommitment_none (orElse_none checked).2 primary listed
    refine ⟨?_, ?_, fun none => ?_, fun none v present => ?_⟩
    · simp [expiryField, expiryName, authorization]
    · simp [validAfterField, authorization]
    · rw [expiryName, authorization]
      exact declared _ none (by decide)
    · rw [validAfterField, authorization] at present
      exact ⟨(Option.some.inj present).symm, declared _ none (by decide)⟩
  · cases ran

theorem extractPermit2_timed (primary : typed.primaryType = .string "PermitWitnessTransferFrom")
    (ran : extractPermit2 platform viem typed collectors = .ok (some p)) : Timed typed p := by
  have permit : isPermit typed = true := by simp [isPermit, primary]
  unfold extractPermit2 at ran
  dsimp only at ran
  split at ran
  · obtain ⟨uncommitted, checked, ran⟩ := bind_ok ran
    cases ran
    refine ⟨?_, ?_, fun none => ?_, fun none v present => ?_⟩
    · simp [expiryField, expiryName, permit]
    · simp [validAfterField, permit]
    · rw [expiryName, permit]
      dsimp only at none
      rw [none] at checked
      exact missingCommitment_none (orElse_none (orElse_none checked).2).1 primary (by decide)
    · rw [validAfterField, permit] at present
      cases present
  · cases ran

theorem extractPayment_timed (ran : extractPayment platform viem typed collectors = .ok (some p)) :
    Timed typed p := by
  unfold extractPayment at ran
  split at ran
  · rename_i primaryType primary
    split_ifs at ran with authorization permit
    · refine extractEip3009_timed primary ?_ ran
      simp only [isPermit, primary, decide_eq_false_iff_not]
      rcases authorization with rfl | rfl <;> decide
    · rw [permit] at primary
      exact extractPermit2_timed primary ran
    · cases ran
  · cases ran

end Extraction

/-! ### What a signing comes through -/

section Gate
variable {answers : (op : SignerOp) → op.Answer → Prop} {platform : Platform} {viem : Viem} {signer : GuardedSigner}
  {typed : TypedDataRequest} {goal : SignerOp}

/-- A refusal signs nothing. -/
theorem refuse_unsigned {code message : JsString} :
    ¬Async.Reaches answers (.signTypedData typed) (refuse signer code message : SignerProgram α) := by
  intro reaches
  have same : ∀ other, typed = other := by
    intro other
    have calm : IsCalm other (refuse signer code message : SignerProgram α) := calm_refuse signer _ _
    exact reaches.of_kind calm
  have clash := (same { typed with primaryType := .null }).symm.trans (same { typed with primaryType := .undefined })
  cases congrArg TypedDataRequest.primaryType clash

theorem refuseWith_unsigned {code : JsString} {message : Throwing JsString} :
    ¬Async.Reaches answers (.signTypedData typed) (refuseWith signer code message : SignerProgram α) := by
  intro reaches
  cases message with
  | error e => cases reaches
  | ok message => exact refuse_unsigned reaches

theorem orThrown_reaches {r : Throwing α} {f : α → SignerProgram β}
    (reaches : Async.Reaches answers goal (orThrown r >>= f)) : ∃ a, r = .ok a ∧ Async.Reaches answers goal (f a) := by
  cases r with
  | error e => cases reaches
  | ok a => exact ⟨a, rfl, reaches⟩

theorem unrecognized_unsigned :
    ¬Async.Reaches answers (.signTypedData typed) (unrecognized platform signer typed) := by
  intro reaches
  unfold unrecognized at reaches
  split at reaches
  · obtain ⟨_, -, reaches⟩ := orThrown_reaches reaches
    exact refuse_unsigned reaches
  · obtain ⟨_, -, reaches⟩ := orThrown_reaches reaches
    obtain ⟨_, -, reaches⟩ := orThrown_reaches reaches
    exact refuse_unsigned reaches

/-- What is signed has a digest. -/
theorem empowered_hashed {p : ExtractedPayment}
    (reaches : Async.Reaches answers (.signTypedData typed) (empowered platform viem signer typed p)) :
    ∃ digest, viem.hashTypedData typed = .ok digest := by
  have identified_hashed : Async.Reaches answers (.signTypedData typed) (identified platform viem signer typed p) →
      ∃ digest, viem.hashTypedData typed = .ok digest := by
    intro reaches
    unfold identified at reaches
    split at reaches
    · exact absurd reaches refuseWith_unsigned
    · exact ⟨_, by assumption⟩
  unfold empowered at reaches
  split at reaches
  · exact identified_hashed reaches
  · split at reaches
    · exact absurd reaches refuse_unsigned
    · split_ifs at reaches
      · exact identified_hashed reaches
      · exact absurd reaches refuse_unsigned

/-- An expiry that is read has to pass both checks; one that is not read passes as it is. -/
theorem timely_signed {p : ExtractedPayment} {nowSec : ℤ} :
    Async.Reaches answers (.signTypedData typed) (timely platform viem signer typed p nowSec) ↔
      (∀ expiry ∈ p.validBefore, nowSec < expiry ∧
        ∀ m ∈ signer.maxValiditySeconds, expiry - startsAt p nowSec ≤ m) ∧
      Async.Reaches answers (.signTypedData typed) (empowered platform viem signer typed p) := by
  unfold timely
  split
  · rename_i unread
    simp [unread]
  · rename_i expiry read
    simp only [read, Option.mem_some_iff, forall_eq']
    split_ifs with expired
    · exact ⟨fun reaches => absurd reaches refuse_unsigned, fun bounded => absurd bounded.1.1 (not_lt.mpr expired)⟩
    · split
      · rename_i m long
        obtain ⟨configured, longer⟩ := Option.filter_eq_some_iff.mp long
        refine ⟨fun reaches => absurd reaches refuse_unsigned, fun bounded => ?_⟩
        exact absurd (bounded.1.2 m configured) (not_le.mpr (of_decide_eq_true longer))
      · rename_i short
        refine ⟨fun reaches => ⟨⟨not_le.mp expired, fun m configured => ?_⟩, reaches⟩, And.right⟩
        exact not_lt.mp fun longer => Option.filter_eq_none_iff.mp short m configured (decide_eq_true longer)

theorem now_unsigned : SignerOp.now ≠ .signTypedData typed := nofun

variable (platform viem signer typed) in
theorem signs_iff (nowSec : ℤ) : Signs platform viem signer typed nowSec ↔
    ∃ p, extractPayment platform viem typed signer.collectors = .ok (some p) ∧ p.uncommitted = none ∧
      p.payer.filter (· ≠ signer.address) = none ∧
      Async.Reaches (Clock nowSec) (.signTypedData typed) (timely platform viem signer typed p nowSec) := by
  constructor
  · intro signs
    obtain ⟨extracted, ran, reaches⟩ := orThrown_reaches signs
    cases extracted with
    | none => exact absurd reaches unrecognized_unsigned
    | some p =>
      refine ⟨p, ran, ?_⟩
      change Async.Reaches _ _ (policed platform viem signer typed p) at reaches
      unfold policed at reaches
      split at reaches
      · exact absurd reaches refuse_unsigned
      · rename_i committed
        split at reaches
        · exact absurd reaches refuse_unsigned
        · rename_i own
          obtain ⟨ms, shown, reaches⟩ := (Async.reaches_perform now_unsigned).mp reaches
          have second : ms / 1000 = nowSec := shown
          exact ⟨committed, own, second ▸ reaches⟩
  · rintro ⟨p, ran, committed, own, reaches⟩
    have policed_reaches : Async.Reaches (Clock nowSec) (.signTypedData typed)
        (policed platform viem signer typed p) := by
      rw [policed, committed, own]
      have shown : 1000 * nowSec / 1000 = nowSec := Int.mul_ediv_cancel_left _ (by decide)
      exact (Async.reaches_perform now_unsigned).mpr ⟨1000 * nowSec, shown, shown.symm ▸ reaches⟩
    change Async.Reaches _ _ (orThrown (extractPayment platform viem typed signer.collectors) >>= _)
    rw [ran]
    exact policed_reaches

/-- Signs nothing but the request. -/
abbrev Own (typed : TypedDataRequest) (op : SignerOp) : Prop := ∀ other, op = .signTypedData other → other = typed

theorem own_of_calm {op : SignerOp} (calm : Calm typed op) : Own typed op := by
  rintro other rfl
  exact calm

variable (platform viem signer typed) in
theorem gatedSignTypedData_own :
    (gatedSignTypedData platform viem signer (some typed)).Asks (Own typed) fun _ => True := by
  have refused : ∀ code message, (refuse signer code message : SignerProgram JsString).Asks (Own typed) fun _ => True :=
    fun code message => (calm_refuse signer code message).widen fun _ => own_of_calm
  refine Async.Meets.bind ((calm_orThrown _).widen fun _ => own_of_calm) (fun _ extracted _ => ?_) fun _ _ _ => trivial
  cases extracted with
  | none =>
    have calm : IsCalm typed (unrecognized platform signer typed) := by
      unfold unrecognized
      split
      · exact calm_bind (calm_orThrown _) fun _ => calm_refuse signer _ _
      · exact calm_bind (calm_orThrown _) fun _ => calm_bind (calm_orThrown _) fun _ => calm_refuse signer _ _
    exact calm.widen fun _ => own_of_calm
  | some p =>
    change (policed platform viem signer typed p).Asks _ _
    unfold policed
    split
    · exact refused _ _
    · split
      · exact refused _ _
      · refine ⟨(by rintro _ ⟨⟩), fun ms _ _ => ?_⟩
        change (timely platform viem signer typed p (ms / 1000)).Asks _ _
        unfold timely
        have calm : IsCalm typed (empowered platform viem signer typed p) := calm_empowered signer platform viem p
        have own := calm.widen fun _ => own_of_calm
        split
        · exact own
        · split_ifs
          · exact refused _ _
          · split
            · exact refused _ _
            · exact own

/-- Nothing but the snapshot itself is ever signed. -/
theorem signs_snapshot {other : TypedDataRequest}
    (reaches : Async.Reaches answers (.signTypedData other) (gatedSignTypedData platform viem signer (some typed))) :
    other = typed :=
  reaches.of_kind (gatedSignTypedData_own platform viem signer typed) other rfl

end Gate

/-! ### The encoded window -/

section Main
variable {platform : Platform} {viem : Viem} {signer : GuardedSigner} {typed : TypedDataRequest}

theorem signs_bounded_of_read (encodes : viem.Encodes) (read : TimesRead viem signer typed) {nowSec : ℤ}
    (signs : Signs platform viem signer typed nowSec) : TimeBounded viem signer typed nowSec := by
  obtain ⟨p, extracted, committed, -, reaches⟩ := (signs_iff ..).mp signs
  obtain ⟨checked, reaches⟩ := timely_signed.mp reaches
  obtain ⟨digest, hashed⟩ := empowered_hashed reaches
  have timed := extractPayment_timed extracted
  obtain ⟨expiry, expiry_read, unread_start⟩ := read
  have expiry_encoded := encodes.agrees expiry_read
    (encodes.covers typed digest _ hashed (timed.expiry_declared committed))
  obtain ⟨ahead, short⟩ := checked expiry (timed.validBefore.trans expiry_read)
  refine ⟨expiry, expiry_encoded, ahead, fun m configured => ?_⟩
  have checked := short m configured
  rw [startsAt, timed.validAfter] at checked
  unfold opensAt
  cases present : validAfterField typed with
  | none => simpa [present] using checked
  | some v =>
    rw [present] at checked
    cases start : asBigInt v with
    | some validAfter =>
      obtain ⟨rfl, declared⟩ := timed.start_declared committed v present
      have encoded := encodes.agrees start (encodes.covers typed digest _ hashed declared)
      simpa [start, encoded] using checked
    | none =>
      simp only [Option.bind_some, start] at checked
      simp only [Option.bind_some]
      cases encoded : viem.encodeUint256 v with
      | none => exact checked
      | some validAfter =>
        dsimp only
        split_ifs with later
        · exact unread_start m configured v present start validAfter encoded later
        · exact checked

theorem read_of_signs_bounded (encodes : viem.Encodes) (signable : ∃ nowSec, Signs platform viem signer typed nowSec)
    (bounded : ∀ nowSec, Signs platform viem signer typed nowSec → TimeBounded viem signer typed nowSec) :
    TimesRead viem signer typed := by
  obtain ⟨nowSec, signs⟩ := signable
  obtain ⟨p, extracted, committed, own, reaches⟩ := (signs_iff ..).mp signs
  have timed := extractPayment_timed extracted
  obtain ⟨expiry, expiry_encoded, -, short⟩ := bounded nowSec signs
  cases read : asBigInt (expiryField typed) with
  | none =>
    -- nothing looks at the clock any more, so the request is signed when the expiry has come as well
    have late : Signs platform viem signer typed expiry := by
      refine (signs_iff ..).mpr ⟨p, extracted, committed, own, timely_signed.mpr ⟨?_, ?_⟩⟩
      · intro other present
        rw [timed.validBefore, read] at present
        exact absurd present (Option.not_mem_none _)
      · refine (timely_signed.mp reaches).2.transfer (calm_empowered signer platform viem p) ?_
        intro op calm ans
        cases op with
        | now => exact absurd calm id
        | _ => trivial
    obtain ⟨_, again, ahead, -⟩ := bounded expiry late
    obtain rfl := Option.some.inj (expiry_encoded.symm.trans again)
    exact absurd ahead (lt_irrefl _)
  | some _ =>
    obtain ⟨digest, hashed⟩ := empowered_hashed (timely_signed.mp reaches).2
    have encoded := encodes.agrees read (encodes.covers typed digest _ hashed (timed.expiry_declared committed))
    obtain rfl := Option.some.inj (expiry_encoded.symm.trans encoded)
    refine ⟨expiry, read, fun m configured v present _ validAfter start later => ?_⟩
    have window := short m configured
    rw [opensAt, present, Option.bind_some, start] at window
    simpa [later] using window

/-- Every signing of a request that can be signed is bounded in time exactly when the gate reads its times. -/
theorem signatures_time_bounded (encodes : viem.Encodes)
    (signable : ∃ nowSec, Signs platform viem signer typed nowSec) :
    (∀ nowSec, Signs platform viem signer typed nowSec → TimeBounded viem signer typed nowSec) ↔
      TimesRead viem signer typed :=
  ⟨read_of_signs_bounded encodes signable, fun read _ signs => signs_bounded_of_read encodes read signs⟩

end Main

/-! ### An expiry in two spellings -/

namespace TimeBounds.Sample

def encodeUint256 (v : JsValue) : Option ℤ :=
  (toBigInt v).toOption.filter fun n => decide (0 ≤ n) && decide (n < 2 ^ 256)

/-- A field that is not an integer, or whose value is encoded as one. -/
def encodes (typed : TypedDataRequest) (field : JsValue) : Bool :=
  match member "name" field with
  | .string name => decide ((member "type" field).stringOf.toOption ≠ some (encode "uint256")) ||
      (encodeUint256 (member name typed.message)).isSome
  | _ => true

/-- The digest of the transfer below; both spellings of its expiry are encoded alike. -/
def digest : JsString := "0x7f41512aeb7fbaf5a94b1b4690478c211ca0fa7a13a4671ea91fa713ffaa30a3"

def viem : Viem where
  hashTypedData typed :=
    match typed.primaryType with
    | .string primary =>
      if ((declaration typed.types primary).getD []).all (encodes typed) then .ok digest
      else .error (.error "Cannot convert to a BigInt")
    | _ => .error .typeError
  getTypesForEIP712Domain _ := .ok [⟨encode "name", encode "string"⟩, ⟨encode "version", encode "string"⟩,
    ⟨encode "chainId", encode "uint256"⟩, ⟨encode "verifyingContract", encode "address"⟩]
  getAddress := .ok
  encodeAbiParameters _ := .error .typeError
  keccak256 _ := []
  encodeUint256 := encodeUint256

theorem viem_encodes : viem.Encodes where
  integers _ := rfl
  covers := by
    rintro typed digest name hashed ⟨primary, fields, field, named, declared, found, type⟩
    simp only [viem, named, declared, Option.getD_some] at hashed
    split_ifs at hashed with all
    have own : encodes typed field = true := List.all_eq_true.mp all field (List.mem_of_find?_eq_some found)
    have same := List.find?_some found
    split at same
    · rename_i other read
      obtain rfl := of_decide_eq_true same
      rw [encodes, read, type] at own
      have encoded : (encodeUint256 (member other typed.message)).isSome = true := by simpa [Except.toOption] using own
      exact encoded
    · cases same

def payer : JsString := "0x1111111111111111111111111111111111111111"
def payee : JsString := "0x2222222222222222222222222222222222222222"
def usdc : JsString := "0x833589fcd6edb6e08f4c7c32d4f71b54bda02913"

def signer : GuardedSigner where
  address := payer
  agentId := "agent-1"
  registry := [⟨8453, usdc, encode "USDC", 6⟩]
  currencyDecimals := none
  maxValiditySeconds := some 3600
  validity_positive := by simp
  collectors := []
  permit2Spenders := []
  resolves := false

def field (name type : String) : JsValue :=
  .object [(encode "name", .string (encode name)), (encode "type", .string (encode type))]

def transfer (validBefore : String) : TypedDataRequest where
  domain := .object [(encode "name", .string "USD Coin"), (encode "version", .string "2"),
    (encode "chainId", .number 8453), (encode "verifyingContract", .string usdc)]
  types := [(encode "TransferWithAuthorization", .array [field "from" "address", field "to" "address",
    field "value" "uint256", field "validAfter" "uint256", field "validBefore" "uint256", field "nonce" "bytes32"])]
  primaryType := .string "TransferWithAuthorization"
  message := .object [(encode "from", .string payer), (encode "to", .string payee),
    (encode "value", .string "10000"), (encode "validAfter", .string "0"),
    (encode "validBefore", .string (encode validBefore)),
    (encode "nonce", .string "0x3333333333333333333333333333333333333333333333333333333333333333")]

/-- What there is to know of the payment of the transfer. -/
def Known (expiry : Option ℤ) (p : ExtractedPayment) : Prop :=
  p.kind = .eip3009 ∧ p.uncommitted = none ∧ p.payer = some payer ∧ p.collector = none ∧ p.chainId = 8453 ∧
    p.asset = usdc ∧ p.value = some 10000 ∧ p.validAfter = some 0 ∧ p.validBefore = expiry

instance (expiry : Option ℤ) (p : ExtractedPayment) : Decidable (Known expiry p) := by
  unfold Known
  infer_instance

/-- What is computed of the transfer, with its expiry in a spelling. -/
def Computed (validBefore : String) (expiry : Option ℤ) : Prop :=
  ((extractPayment Vaduno.Sample.platform viem (transfer validBefore) []).toOption.any fun extracted =>
    extracted.any fun p => decide (Known expiry p)) = true ∧
  (viem.hashTypedData (transfer validBefore)).toOption = some digest ∧
  (committedFieldSet viem.getTypesForEIP712Domain (transfer validBefore)).toOption.isSome = true ∧
  viem.encodeUint256 (expiryField (transfer validBefore)) = some 1700000000 ∧
  asBigInt (expiryField (transfer validBefore)) = expiry

theorem computed : Computed "1700000000" (some 1700000000) ∧ Computed "0x6553f100" none ∧
    (validAfterField (transfer "1700000000")).all (fun v => (asBigInt v).isSome) = true ∧
    signer.minorDecimals Vaduno.Sample.platform (encode "USDC") = some 6 ∧
    ((6 : Number).isInteger && !decide ((6 : Number) < 0) && !decide ((36 : Number) < 6)) = true ∧
    ¬scaleToMinor 10000 (6 : Number).toInt.toNat 6 > maxSafeInteger := by
  unfold Computed
  decide +kernel

theorem empowered_reaches {nowSec : ℤ} {validBefore : String} {expiry : Option ℤ} {p : ExtractedPayment}
    (known : Known expiry p) (facts : Computed validBefore expiry) :
    Async.Reaches (Clock nowSec) (.signTypedData (transfer validBefore))
      (empowered Vaduno.Sample.platform viem signer (transfer validBefore) p) := by
  obtain ⟨kind, -, -, collector, chainId, asset, value, -, -⟩ := known
  obtain ⟨-, hashed, recorded, -, -⟩ := facts
  obtain ⟨committed, recorded⟩ := Option.isSome_iff_exists.mp recorded
  rw [empowered, kind]
  dsimp only
  rw [identified, of_toOption hashed]
  dsimp only
  rw [of_toOption recorded]
  dsimp only
  rw [aliased, collector]
  dsimp only
  obtain ⟨-, -, -, minor, usable, representable⟩ := computed
  have listed : signer.known p = some ⟨8453, usdc, encode "USDC", 6⟩ := by
    simp [GuardedSigner.known, signer, chainId, asset]
  have usable' : (!(6 : Number).isInteger || decide ((6 : Number) < 0) || decide ((36 : Number) < 6)) = false := by
    simpa using usable
  rw [priced, listed]
  dsimp only
  rw [show Vaduno.Sample.platform.toUpperCase (encode "USDC") = encode "USDC" from rfl, minor]
  dsimp only
  rw [usable', value]
  simp only [Bool.false_eq_true, if_false]
  rw [show (some (10000 : ℤ)).filter (fun value => decide (0 ≤ value)) = some 10000 from rfl]
  dsimp only
  rw [if_neg representable]
  -- the guard lets it pass
  exact .later (show Clock nowSec (.authorize _) (.ok .authorized) from trivial) .here

theorem transfer_signed {nowSec : ℤ} {validBefore : String} {expiry : Option ℤ} (facts : Computed validBefore expiry)
    (pending : ∀ e ∈ expiry, nowSec < e ∧ e - nowSec ≤ 3600) :
    Signs Vaduno.Sample.platform viem signer (transfer validBefore) nowSec := by
  obtain ⟨extracted, ran, found⟩ := (Option.any_eq_true _ _).mp facts.1
  obtain ⟨p, rfl, known⟩ := (Option.any_eq_true _ _).mp found
  have known : Known expiry p := of_decide_eq_true known
  obtain ⟨-, committed, own, -, -, -, -, start, stop⟩ := id known
  refine (signs_iff ..).mpr ⟨p, of_toOption ran, committed, by rw [own]; rfl, timely_signed.mpr ⟨?_, ?_⟩⟩
  · intro e read
    rw [stop] at read
    refine ⟨(pending e read).1, fun m configured => ?_⟩
    cases configured
    rw [startsAt, start]
    exact (pending e read).2
  · exact empowered_reaches known facts

theorem decimal_signed : Signs Vaduno.Sample.platform viem signer (transfer "1700000000") 1699999000 := by
  refine transfer_signed computed.1 fun e read => ?_
  cases read
  decide

/-- With the expiry in decimal, the transfer is signed in time, and never out of it. -/
theorem decimal_bounded : Signs Vaduno.Sample.platform viem signer (transfer "1700000000") 1699999000 ∧
    ∀ nowSec, Signs Vaduno.Sample.platform viem signer (transfer "1700000000") nowSec →
      TimeBounded viem signer (transfer "1700000000") nowSec := by
  refine ⟨decimal_signed, (signatures_time_bounded viem_encodes ⟨_, decimal_signed⟩).mpr ?_⟩
  refine ⟨1700000000, computed.1.2.2.2.2, fun m _ v present unread => ?_⟩
  have read := (Option.all_eq_true _ _).mp computed.2.2.1 v present
  rw [unread] at read
  cases read

/-- The same transfer with its expiry in hexadecimal is still signed when that has come. -/
theorem hexadecimal_signed_late : Signs Vaduno.Sample.platform viem signer (transfer "0x6553f100") 1700000000 ∧
    ¬TimeBounded viem signer (transfer "0x6553f100") 1700000000 := by
  refine ⟨transfer_signed computed.2.1 fun e read => absurd read (Option.not_mem_none e), ?_⟩
  rintro ⟨expiry, encoded, ahead, -⟩
  obtain ⟨-, -, -, expired, -⟩ := computed.2.1
  rw [expired] at encoded
  have same : 1700000000 = expiry := Option.some.inj encoded
  rw [← same] at ahead
  exact lt_irrefl _ ahead

end TimeBounds.Sample

end Vaduno.Cloudflare
