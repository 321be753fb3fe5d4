import Vaduno.Enforce.ConsumeStore

/-! The fingerprint that ties a human's decision to the money fields of one payment. Two intents with
one fingerprint ask for the same payment. -/
namespace Vaduno.Approval
open Ecma Ledger Enforce

/-- The fields of an intent that a decision covers. -/
def fingerprintFields (platform : Platform) (intent : PaymentIntent) : JsValue :=
  .object [("amountMinor", .number intent.amount.amountMinor),
    ("currency", .string (platform.toUpperCase intent.amount.currency)),
    ("merchantId", .string intent.merchant.id),
    ("merchantUrl", textOrNull intent.merchant.url),
    ("rail", .string intent.rail)]

def approvalFingerprint (platform : Platform) (intent : PaymentIntent) : Throwing JsString :=
  return platform.sha256Hex
    ("vaduno-approval-fingerprint/v1\n" ++ (← canonicalJson (fingerprintFields platform intent)))

variable {platform : Platform} {intent : PaymentIntent}

/-- The canonical JSON of the fields. -/
def fingerprintText (platform : Platform) (intent : PaymentIntent) : JsString :=
  "\x7b" ++ joinComma [jsonMember "amountMinor" intent.amount.amountMinor.toText,
    jsonMember "currency" (quote (platform.toUpperCase intent.amount.currency)),
    jsonMember "merchantId" (quote intent.merchant.id),
    jsonMember "merchantUrl" (textOrNullJson intent.merchant.url),
    jsonMember "rail" (quote intent.rail)] ++ "\x7d"

theorem sort_fingerprintFields (a b c d e : Throwing (Option JsString)) :
    [(encode "amountMinor", a), ("currency", b), ("merchantId", c), ("merchantUrl", d),
      ("rail", e)].insertionSort (keyLe · ·) =
    [(encode "amountMinor", a), ("currency", b), ("merchantId", c), ("merchantUrl", d),
      ("rail", e)] := by
  rfl

theorem canonicalJson_fingerprintFields (finite : intent.amount.amountMinor.isFinite = true) :
    canonicalJson (fingerprintFields platform intent) = .ok (fingerprintText platform intent) := by
  obtain ⟨_, _, ⟨merchantId, url⟩, ⟨amountMinor, currency⟩, _, rail, _, _, _⟩ := intent
  change amountMinor.isFinite = true at finite
  cases url with
  | none =>
    simp only [canonicalJson, fingerprintFields, serialize, serializeProps, textOrNull, withinDepth,
      canonicalMaxDepth, finite]
    rw [sort_fingerprintFields]
    simp only [joinMembers, fingerprintText, textOrNullJson]
    rfl
  | some url =>
    simp only [canonicalJson, fingerprintFields, serialize, serializeProps, textOrNull, withinDepth,
      canonicalMaxDepth, finite]
    rw [sort_fingerprintFields]
    simp only [joinMembers, fingerprintText, textOrNullJson]
    rfl

/-- An amount that JSON cannot represent has no fingerprint. -/
theorem finite_of_fingerprint {fingerprint : JsString}
    (made : approvalFingerprint platform intent = .ok fingerprint) :
    intent.amount.amountMinor.isFinite = true := by
  obtain ⟨_, _, ⟨merchantId, url⟩, ⟨amountMinor, currency⟩, _, rail, _, _, _⟩ := intent
  by_contra infinite
  rw [Bool.not_eq_true] at infinite
  change amountMinor.isFinite = false at infinite
  cases url with
  | none =>
    simp only [approvalFingerprint, canonicalJson, fingerprintFields, serialize, serializeProps,
      textOrNull, withinDepth, canonicalMaxDepth, infinite] at made
    rw [sort_fingerprintFields] at made
    cases made
  | some url =>
    simp only [approvalFingerprint, canonicalJson, fingerprintFields, serialize, serializeProps,
      textOrNull, withinDepth, canonicalMaxDepth, infinite] at made
    rw [sort_fingerprintFields] at made
    cases made

theorem approvalFingerprint_finite (finite : intent.amount.amountMinor.isFinite = true) :
    approvalFingerprint platform intent = .ok (platform.sha256Hex
      ("vaduno-approval-fingerprint/v1\n" ++ fingerprintText platform intent)) := by
  simp only [approvalFingerprint, canonicalJson_fingerprintFields finite]
  rfl

theorem wellFormed_fingerprintText : isWellFormed (fingerprintText platform intent) = true := by
  have amount : isWellFormed intent.amount.amountMinor.toText = true := by
    cases held : intent.amount.amountMinor with
    | fin d =>
      exact wellFormed_of_plain (numberUnits_toText d).plain
    | _ => decide
  have member : ∀ key text, isWellFormed text = true → isWellFormed (jsonMember key text) = true :=
    fun key text wellFormed =>
      wellFormed_append (wellFormed_append (wellFormed_quote key) (by decide)) wellFormed
  refine wellFormed_append (wellFormed_append (by decide) (wellFormed_joinComma ?_)) (by decide)
  simp only [List.mem_cons, List.not_mem_nil, or_false]
  rintro item (rfl | rfl | rfl | rfl | rfl)
  · exact member _ _ amount
  · exact member _ _ (wellFormed_quote _)
  · exact member _ _ (wellFormed_quote _)
  · exact member _ _ (wellFormed_textOrNullJson _)
  · exact member _ _ (wellFormed_quote _)

/-- Two intents that ask for the same payment, the currency in any letter case. -/
structure SameMoney (platform : Platform) (a b : PaymentIntent) : Prop where
  amountMinor : a.amount.amountMinor = b.amount.amountMinor
  currency : platform.toUpperCase a.amount.currency = platform.toUpperCase b.amount.currency
  merchant : a.merchant = b.merchant
  rail : a.rail = b.rail

theorem fingerprintText_injective {a b : PaymentIntent}
    (finite : a.amount.amountMinor.isFinite = true) (finite' : b.amount.amountMinor.isFinite = true)
    (same : fingerprintText platform a = fingerprintText platform b) : SameMoney platform a b := by
  obtain ⟨_, _, ⟨merchantId, url⟩, ⟨amountMinor, currency⟩, _, rail, _, _, _⟩ := a
  obtain ⟨_, _, ⟨merchantId', url'⟩, ⟨amountMinor', currency'⟩, _, rail', _, _, _⟩ := b
  cases amountMinor with
  | fin m =>
    cases amountMinor' with
    | fin m' =>
      simp only [fingerprintText, List.append_assoc] at same
      have same := List.append_cancel_left same
      simp only [joinComma_append] at same
      obtain ⟨amounts, after⟩ := separated (comma_notMem_toText m) (comma_notMem_toText m')
        (jsonMember_cancel same)
      obtain ⟨currencies, rest⟩ := quote_cancel (jsonMember_cancel after)
      obtain ⟨merchants, rest⟩ := quote_cancel (jsonMember_cancel (List.cons.inj rest).2)
      obtain ⟨urls, after⟩ := textOrNullJson_cancel (jsonMember_cancel (List.cons.inj rest).2)
      obtain ⟨rails, -⟩ := quote_cancel (jsonMember_cancel after)
      refine ⟨congrArg Number.fin (toText_injective amounts), currencies, ?_, rails⟩
      change MerchantRef.mk merchantId url = MerchantRef.mk merchantId' url'
      rw [merchants, urls]
    | _ => exact absurd finite' (by simp [Number.isFinite])
  | _ => exact absurd finite (by simp [Number.isFinite])

theorem sameMoney_of_fingerprint {a b : PaymentIntent} {fingerprint : JsString}
    (collisionFree : CollisionFree platform)
    (left : approvalFingerprint platform a = .ok fingerprint)
    (right : approvalFingerprint platform b = .ok fingerprint) : SameMoney platform a b := by
  have finite := finite_of_fingerprint left
  have finite' := finite_of_fingerprint right
  rw [approvalFingerprint_finite finite] at left
  rw [approvalFingerprint_finite finite'] at right
  have hashes := (Except.ok.inj left).trans (Except.ok.inj right).symm
  have texts := collisionFree _ _ (wellFormed_append (by decide) wellFormed_fingerprintText)
    (wellFormed_append (by decide) wellFormed_fingerprintText) hashes
  exact fingerprintText_injective finite finite' (List.append_cancel_left texts)

end Vaduno.Approval
