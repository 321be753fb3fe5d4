import Vaduno.Keyed
import Vaduno.Enforce.SpendLimiter
import Vaduno.Ledger.Hash
import Vaduno.Ecma.NumberText
import Vaduno.Ecma.JsonText

/-! The consume-once registry: claims keyed on a mandate and a use key, with the budget counted
inside the claiming step. The contract is stated once; the in-memory, file and Postgres stores
each keep it. -/
namespace Vaduno.Enforce
open Ecma Ledger

inductive OutcomeStatus
  | executed
  | failed
  deriving DecidableEq

/-- The terminal outcome of a claimed use. -/
structure StoredOutcome where
  status : OutcomeStatus
  settledAt : JsString
  error : Option JsString
  deriving DecidableEq

inductive ClaimStatus
  | pending
  | settled
  deriving DecidableEq

structure UseClaim where
  mandateId : JsString
  /-- The idempotency key of the use: the intent id. -/
  useKey : JsString
  intentDigest : JsString
  claimedAt : JsString
  status : ClaimStatus
  outcome : Option StoredOutcome
  deriving DecidableEq

/-- The first outcome wins: a claim that has one keeps it. -/
def UseClaim.settle (outcome : StoredOutcome) (claim : UseClaim) : UseClaim :=
  if claim.status = .settled then claim
  else { claim with status := .settled, outcome := some outcome }

inductive ClaimResult
  | winner (used : ℕ)
  | duplicate (existing : UseClaim)
  | exhausted (used : ℕ)
  deriving DecidableEq

section Digest
variable (platform : Platform)

def textOrNull : Option JsString → JsValue
  | some s => .string s
  | none => .null

/-- The fields of an intent that a claimed use covers. -/
def digestFields (intent : PaymentIntent) : JsValue :=
  .object [("amountMinor", .number intent.amount.amountMinor),
    ("currency", .string intent.amount.currency),
    ("merchantId", .string intent.merchant.id),
    ("merchantUrl", textOrNull intent.merchant.url),
    ("rail", .string intent.rail),
    ("mandateId", textOrNull intent.mandateId)]

def intentDigest (intent : PaymentIntent) : Throwing JsString :=
  return platform.sha256Hex ("vaduno-consume-digest/v1\n" ++ (← canonicalJson (digestFields intent)))

/-- The JSON of an optional text. -/
def textOrNullJson : Option JsString → JsString
  | some s => quote s
  | none => "null"

/-- One member of a JSON object. -/
def jsonMember (key text : JsString) : JsString := quote key ++ ":" ++ text

/-- The canonical JSON of the digest fields. -/
def digestText (intent : PaymentIntent) : JsString :=
  "\x7b" ++ joinComma [jsonMember "amountMinor" intent.amount.amountMinor.toText,
    jsonMember "currency" (quote intent.amount.currency),
    jsonMember "mandateId" (textOrNullJson intent.mandateId),
    jsonMember "merchantId" (quote intent.merchant.id),
    jsonMember "merchantUrl" (textOrNullJson intent.merchant.url),
    jsonMember "rail" (quote intent.rail)] ++ "\x7d"

theorem sort_digestFields (a b c d e f : Throwing (Option JsString)) :
    [(encode "amountMinor", a), ("currency", b), ("merchantId", c), ("merchantUrl", d),
      ("rail", e), ("mandateId", f)].insertionSort (keyLe · ·) =
    [(encode "amountMinor", a), ("currency", b), ("mandateId", f), ("merchantId", c),
      ("merchantUrl", d), ("rail", e)] := by
  rfl

theorem canonicalJson_digestFields (intent : PaymentIntent)
    (finite : intent.amount.amountMinor.isFinite = true) :
    canonicalJson (digestFields intent) = .ok (digestText intent) := by
  obtain ⟨_, _, ⟨merchantId, url⟩, ⟨amountMinor, currency⟩, _, rail, _, mandateId, _⟩ := intent
  change amountMinor.isFinite = true at finite
  cases url <;> cases mandateId <;>
  · simp only [canonicalJson, digestFields, serialize, serializeProps, textOrNull, withinDepth,
      canonicalMaxDepth, finite]
    rw [sort_digestFields]
    simp only [joinMembers, digestText, textOrNullJson]
    rfl

/-- An amount that JSON cannot represent has no digest. -/
theorem canonicalJson_infinite (intent : PaymentIntent)
    (infinite : intent.amount.amountMinor.isFinite = false) :
    ∃ thrown, canonicalJson (digestFields intent) = .error thrown := by
  obtain ⟨_, _, ⟨merchantId, url⟩, ⟨amountMinor, currency⟩, _, rail, _, mandateId, _⟩ := intent
  change amountMinor.isFinite = false at infinite
  cases url <;> cases mandateId <;>
  · simp only [canonicalJson, digestFields, serialize, serializeProps, textOrNull, withinDepth,
      canonicalMaxDepth, infinite]
    rw [sort_digestFields]
    exact ⟨_, rfl⟩

/-- A JSON text or null up to a comma determines itself and what follows. -/
theorem textOrNullJson_cancel {a b : Option JsString} {x y : JsString}
    (same : textOrNullJson a ++ 44 :: x = textOrNullJson b ++ 44 :: y) : a = b ∧ x = y := by
  cases a with
  | none =>
    cases b with
    | none => exact ⟨rfl, (List.cons.inj (List.append_cancel_left same)).2⟩
    | some t => exact absurd (List.cons.inj same).1 (by decide)
  | some s =>
    cases b with
    | none => exact absurd (List.cons.inj same).1 (by decide)
    | some t =>
      obtain ⟨rfl, rest⟩ := quote_cancel same
      exact ⟨rfl, (List.cons.inj rest).2⟩

theorem joinComma_append (a b : JsString) (rest : List JsString) (z : JsString) :
    joinComma (a :: b :: rest) ++ z = a ++ 44 :: (joinComma (b :: rest) ++ z) := by
  change (a ++ [44] ++ joinComma (b :: rest)) ++ z = _
  simp only [List.append_assoc, List.cons_append, List.nil_append]

theorem jsonMember_cancel {key a b x y : JsString}
    (same : jsonMember key a ++ x = jsonMember key b ++ y) : a ++ x = b ++ y := by
  simp only [jsonMember, List.append_assoc] at same
  exact List.append_cancel_left (List.append_cancel_left same)

/-- The digest text determines every field it covers. -/
theorem digestText_injective {a b : PaymentIntent}
    (finite : a.amount.amountMinor.isFinite = true) (finite' : b.amount.amountMinor.isFinite = true)
    (same : digestText a = digestText b) :
    a.amount = b.amount ∧ a.merchant = b.merchant ∧ a.rail = b.rail ∧
      a.mandateId = b.mandateId := by
  obtain ⟨_, _, ⟨merchantId, url⟩, ⟨amountMinor, currency⟩, _, rail, _, mandateId, _⟩ := a
  obtain ⟨_, _, ⟨merchantId', url'⟩, ⟨amountMinor', currency'⟩, _, rail', _, mandateId', _⟩ := b
  cases amountMinor with
  | fin m =>
    cases amountMinor' with
    | fin m' =>
      simp only [digestText, List.append_assoc] at same
      have same := List.append_cancel_left same
      simp only [joinComma_append] at same
      obtain ⟨amounts, after⟩ := separated (comma_notMem_toText m) (comma_notMem_toText m')
        (jsonMember_cancel same)
      obtain ⟨currencies, rest⟩ := quote_cancel (jsonMember_cancel after)
      obtain ⟨mandates, after⟩ :=
        textOrNullJson_cancel (jsonMember_cancel (List.cons.inj rest).2)
      obtain ⟨merchants, rest⟩ := quote_cancel (jsonMember_cancel after)
      obtain ⟨urls, after⟩ := textOrNullJson_cancel (jsonMember_cancel (List.cons.inj rest).2)
      obtain ⟨rails, -⟩ := quote_cancel (jsonMember_cancel after)
      simp only [toText_injective amounts, currencies, mandates, merchants, urls, rails, and_self]
    | _ => exact absurd finite' (by simp [Number.isFinite])
  | _ => exact absurd finite (by simp [Number.isFinite])

theorem wellFormed_joinComma : ∀ {items : List JsString},
    (∀ item ∈ items, isWellFormed item = true) → isWellFormed (joinComma items) = true
  | [], _ => rfl
  | [item], each => each item (List.mem_singleton.mpr rfl)
  | item :: next :: rest, each =>
    wellFormed_append (wellFormed_append (each item List.mem_cons_self) (by decide))
      (wellFormed_joinComma fun other member => each other (List.mem_cons_of_mem _ member))

theorem wellFormed_textOrNullJson (text : Option JsString) :
    isWellFormed (textOrNullJson text) = true := by
  cases text with
  | none => decide
  | some s => exact wellFormed_quote s

theorem wellFormed_digestText (intent : PaymentIntent) :
    isWellFormed (digestText intent) = true := by
  have amount : isWellFormed intent.amount.amountMinor.toText = true := by
    cases held : intent.amount.amountMinor with
    | fin d =>
      exact wellFormed_of_plain (numberUnits_toText d).plain
    | _ => decide
  have member : ∀ key text, isWellFormed text = true → isWellFormed (jsonMember key text) = true :=
    fun key text wellFormed =>
      wellFormed_append (wellFormed_append (wellFormed_quote key) (by decide)) wellFormed
  refine wellFormed_append (wellFormed_append (by decide) (wellFormed_joinComma ?_)) (by decide)
  simp only [List.mem_cons, List.not_mem_nil, or_false]
  rintro item (rfl | rfl | rfl | rfl | rfl | rfl)
  · exact member _ _ amount
  · exact member _ _ (wellFormed_quote _)
  · exact member _ _ (wellFormed_textOrNullJson _)
  · exact member _ _ (wellFormed_quote _)
  · exact member _ _ (wellFormed_textOrNullJson _)
  · exact member _ _ (wellFormed_quote _)

/-- Two intents that ask for the same payment: every field the digest covers agrees. -/
structure SamePayment (a b : PaymentIntent) : Prop where
  amount : a.amount = b.amount
  merchant : a.merchant = b.merchant
  rail : a.rail = b.rail
  mandateId : a.mandateId = b.mandateId

theorem intentDigest_finite (intent : PaymentIntent)
    (finite : intent.amount.amountMinor.isFinite = true) : intentDigest platform intent =
      .ok (platform.sha256Hex ("vaduno-consume-digest/v1\n" ++ digestText intent)) := by
  simp only [intentDigest, canonicalJson_digestFields intent finite]
  rfl

theorem finite_of_intentDigest (digested : intentDigest platform intent = .ok digest) :
    intent.amount.amountMinor.isFinite = true := by
  cases finite : intent.amount.amountMinor.isFinite with
  | true => rfl
  | false =>
    obtain ⟨thrown, failed⟩ := canonicalJson_infinite intent finite
    simp only [intentDigest, failed] at digested
    cases digested

theorem intentDigest_congr (same : SamePayment a b) :
    intentDigest platform a = intentDigest platform b := by
  simp only [intentDigest, digestFields, same.amount, same.merchant, same.rail, same.mandateId]

/-- SHA-256 tells apart the texts it is given here, which are all well-formed. -/
def CollisionFree : Prop := ∀ s t, isWellFormed s = true → isWellFormed t = true →
  platform.sha256Hex s = platform.sha256Hex t → s = t

theorem samePayment_of_intentDigest {platform : Platform} (collisionFree : CollisionFree platform)
    (left : intentDigest platform a = .ok digest) (right : intentDigest platform b = .ok digest) :
    SamePayment a b := by
  have finite := finite_of_intentDigest platform left
  have finite' := finite_of_intentDigest platform right
  have wellFormed : ∀ intent : PaymentIntent,
      isWellFormed (encode "vaduno-consume-digest/v1\n" ++ digestText intent) = true :=
    fun intent => wellFormed_append (by decide) (wellFormed_digestText intent)
  rw [intentDigest_finite platform a finite] at left
  rw [intentDigest_finite platform b finite'] at right
  have hashes := (Except.ok.inj left).trans (Except.ok.inj right).symm
  have texts := collisionFree _ _ (wellFormed a) (wellFormed b) hashes
  obtain ⟨amount, merchant, rail, mandateId⟩ :=
    digestText_injective finite finite' (List.append_cancel_left texts)
  exact ⟨amount, merchant, rail, mandateId⟩

end Digest

section Contract
variable (platform : Platform) {σ : Type}

/-- What one claim may answer, and what the store then holds: the duplicate check, the budget check
and the insert are a single step. -/
inductive Claims (get : σ → JsString → JsString → Option UseClaim) (countClaims : σ → JsString → ℕ)
    (s : σ) (claim : UseClaim) (maxUses : JsValue) : Throwing ClaimResult → σ → Prop
  | duplicate {existing} (found : get s claim.mandateId claim.useKey = some existing) :
      Claims get countClaims s claim maxUses (.ok (.duplicate existing)) s
  | unusable {thrown} (fresh : get s claim.mandateId claim.useKey = none)
      (fails : platform.reaches (countClaims s claim.mandateId : ℤ) maxUses = .error thrown) :
      Claims get countClaims s claim maxUses (.error thrown) s
  | exhausted (fresh : get s claim.mandateId claim.useKey = none)
      (full : platform.reaches (countClaims s claim.mandateId : ℤ) maxUses = .ok true) :
      Claims get countClaims s claim maxUses
        (.ok (.exhausted (countClaims s claim.mandateId))) s
  | winner {s'} (fresh : get s claim.mandateId claim.useKey = none)
      (room : platform.reaches (countClaims s claim.mandateId : ℤ) maxUses = .ok false)
      (held : ∀ mandateId useKey, get s' mandateId useKey =
        if mandateId = claim.mandateId ∧ useKey = claim.useKey then
          some { claim with status := .pending }
        else get s mandateId useKey)
      (counted : ∀ mandateId, countClaims s' mandateId =
        countClaims s mandateId + if mandateId = claim.mandateId then 1 else 0) :
      Claims get countClaims s claim maxUses
        (.ok (.winner (countClaims s claim.mandateId + 1))) s'

/-- Atomic consume-once registry. -/
structure ConsumeStore (σ : Type) where
  claim : σ → UseClaim → JsValue → Throwing ClaimResult × σ
  settle : σ → JsString → JsString → StoredOutcome → σ
  get : σ → JsString → JsString → Option UseClaim
  countClaims : σ → JsString → ℕ
  claims : ∀ s c maxUses, Claims platform get countClaims s c maxUses
    (claim s c maxUses).1 (claim s c maxUses).2
  settles : ∀ s mandateId useKey outcome mandateId' useKey',
    get (settle s mandateId useKey outcome) mandateId' useKey' =
      if mandateId' = mandateId ∧ useKey' = useKey then
        (get s mandateId' useKey').map (UseClaim.settle outcome)
      else get s mandateId' useKey'
  settle_counts : ∀ s mandateId useKey outcome mandateId',
    countClaims (settle s mandateId useKey outcome) mandateId' = countClaims s mandateId'

end Contract

section Stores
variable (platform : Platform) {κ : Type} [DecidableEq κ] (key : JsString → JsString → κ)

/-- The claims of a store, one for each key. -/
abbrev ClaimTable : Type := Keyed fun c : UseClaim => key c.mandateId c.useKey

variable {key}

def ClaimTable.countClaims (table : ClaimTable key) (mandateId : JsString) : ℕ :=
  table.rows.countP (·.mandateId = mandateId)

def ClaimTable.claim (table : ClaimTable key) (claim : UseClaim) (maxUses : JsValue) :
    Throwing ClaimResult × ClaimTable key :=
  match found : table.find (key claim.mandateId claim.useKey) with
  | some existing => (.ok (.duplicate existing), table)
  | none =>
    let used := table.countClaims claim.mandateId
    match platform.reaches (used : ℤ) maxUses with
    | .error thrown => (.error thrown, table)
    | .ok true => (.ok (.exhausted used), table)
    | .ok false => (.ok (.winner (used + 1)), table.insert { claim with status := .pending } found)

theorem UseClaim.settle_pair (outcome : StoredOutcome) (c : UseClaim) :
    (c.settle outcome).mandateId = c.mandateId ∧ (c.settle outcome).useKey = c.useKey := by
  unfold UseClaim.settle
  split_ifs <;> exact ⟨rfl, rfl⟩

def ClaimTable.settle (table : ClaimTable key) (mandateId useKey : JsString)
    (outcome : StoredOutcome) : ClaimTable key :=
  table.alter (key mandateId useKey) (UseClaim.settle outcome) fun c => by
    rw [(UseClaim.settle_pair outcome c).1, (UseClaim.settle_pair outcome c).2]

/-- A table whose key tells pairs apart keeps the contract. -/
def ClaimTable.store
    (injective : ∀ {m k m' k'}, key m k = key m' k' → m = m' ∧ k = k') :
    ConsumeStore platform (ClaimTable key) where
  claim := ClaimTable.claim platform
  settle := ClaimTable.settle
  get table mandateId useKey := table.find (key mandateId useKey)
  countClaims := ClaimTable.countClaims
  claims table c maxUses := by
    unfold ClaimTable.claim
    split
    · rename_i existing found
      exact .duplicate found
    · rename_i fresh
      dsimp only
      split
      · rename_i fails
        exact .unusable fresh fails
      · rename_i full
        exact .exhausted fresh full
      · rename_i room
        refine .winner fresh room (fun mandateId useKey => ?_) fun mandateId => ?_
        · rw [Keyed.find_insert]
          refine if_congr ⟨fun same => ?_, ?_⟩ rfl rfl
          · obtain ⟨mandates, keys⟩ := injective same
            exact ⟨mandates.symm, keys.symm⟩
          · rintro ⟨rfl, rfl⟩
            rfl
        · simp [ClaimTable.countClaims, Keyed.insert, List.countP_cons, eq_comm]
  settles table mandateId useKey outcome mandateId' useKey' := by
    rw [ClaimTable.settle, Keyed.find_alter]
    refine if_congr ⟨injective, ?_⟩ rfl rfl
    rintro ⟨rfl, rfl⟩
    rfl
  settle_counts table mandateId useKey outcome mandateId' :=
    Keyed.countP_alter _ _ _ _ _ fun c => by rw [(UseClaim.settle_pair outcome c).1]

/-- The composite key of the map and of the file; the length prefix keeps two pairs apart. -/
def claimKey (mandateId useKey : JsString) : JsString :=
  natText mandateId.length ++ ":" ++ mandateId ++ ":" ++ useKey

theorem claimKey_injective (same : claimKey m k = claimKey m' k') : m = m' ∧ k = k' :=
  scopeKey_injective same

/-- The single-process store: a map by composite key. -/
def memoryConsumeStore : ConsumeStore platform (ClaimTable claimKey) :=
  ClaimTable.store platform claimKey_injective

/-- The store of one file: every mutation loads the record, changes it and saves it, all under the
file's lock. -/
def fileConsumeStore : ConsumeStore platform (ClaimTable claimKey) :=
  ClaimTable.store platform claimKey_injective

/-- The store of one table whose primary key is the pair, each claim a transaction under the
advisory lock of its mandate. -/
def postgresConsumeStore : ConsumeStore platform (ClaimTable Prod.mk) :=
  ClaimTable.store platform Prod.mk.inj

end Stores
end Vaduno.Enforce
