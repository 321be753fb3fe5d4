import Vaduno.X402.Parse

/-! A result of either parser, written as JSON, is read back by the same parser where its metadata is its own copy. -/
namespace Vaduno.X402
open Ecma JsonValue

/-! ### Results as JSON -/

/-- An object with properties, and others that are there when their value is. -/
def record (required : List (JsString × JsonValue)) (others : List (JsString × Option JsonValue)) : JsonValue :=
  .object (required ++ others.filterMap fun p => p.2.map (p.1, ·))

def Extra.toJson (extra : Extra) : JsonValue := .object extra.props

def PaymentRequirements.toJson (r : PaymentRequirements) : JsonValue :=
  record [("scheme", .string r.scheme.1), ("network", .string r.network.1),
      ("maxAmountRequired", .string r.maxAmountRequired.1), ("resource", .string r.resource.1),
      ("payTo", .string r.payTo.1), ("asset", .string r.asset.1)]
    [("description", r.description.map .string), ("mimeType", r.mimeType.map .string),
      ("maxTimeoutSeconds", r.maxTimeoutSeconds.map Subtype.val), ("extra", r.extra.map Extra.toJson)]

def PaymentRequiredBody.toJson (b : PaymentRequiredBody) : JsonValue :=
  record [("x402Version", .number 1), ("accepts", .array (b.accepts.items.map PaymentRequirements.toJson))]
    [("error", b.error.map .string)]

def ResourceInfo.toJson (info : ResourceInfo) : JsonValue :=
  record [("url", .string info.url.1)]
    [("description", info.description.map .string), ("mimeType", info.mimeType.map .string)]

def PaymentRequirementsV2.toJson (r : PaymentRequirementsV2) : JsonValue :=
  record [("scheme", .string r.scheme.1), ("network", .string r.network.1), ("amount", .string r.amount.1),
      ("payTo", .string r.payTo.1), ("asset", .string r.asset.1), ("maxTimeoutSeconds", .number r.maxTimeoutSeconds.1)]
    [("extra", r.extra.map Extra.toJson)]

def X402Extensions.toJson (extensions : X402Extensions) : JsonValue := .object extensions.entries

def PaymentRequiredV2.toJson (b : PaymentRequiredV2) : JsonValue :=
  record [("x402Version", .number 2), ("resource", b.resource.toJson),
      ("accepts", .array (b.accepts.items.map PaymentRequirementsV2.toJson))]
    [("error", b.error.map .string), ("extensions", b.extensions.map X402Extensions.toJson)]

/-! ### Reading a result back -/

section Again
variable {stack : ℕ} {o : JsonValue} {index : ℕ}

theorem str_again {k : JsString} {s : NonEmpty} (text : o.get k = some (.string s.1)) : str index o k = .ok s := by
  rw [str, text]
  exact dif_neg s.2

theorem optionalText_again {text : Option JsString} (own : o.get k = text.map .string) :
    optionalText (o.get k) = text := by
  rw [own]
  cases text <;> rfl

theorem numberField_again {k : JsString} {n : Option JsonNumber} (own : o.get k = n.map Subtype.val) :
    numberField o k = n := by
  rcases n with _ | ⟨v, number⟩
  · rw [numberField, own]
    rfl
  · cases v with
    | number n =>
      rw [numberField, own]
      rfl
    | negZero =>
      rw [numberField, own]
      rfl
    | _ => exact absurd number (by rw [typeOf]; decide)

theorem validateExtra_again {extra : Extra} (stable : Stable stack extra.toJson) :
    validateExtra stack extra.toJson index = .ok extra := by
  have copied : copyWithin stack extra.toJson = some (.object extra.props) := stable.copyWithin
  have typed : extraTexts.find? (fun k => !textOrAbsent (.object extra.props) k) = none :=
    List.find?_eq_none.mpr fun k listed => by simp [extra.texts k listed]
  unfold validateExtra
  dsimp only
  rw [if_neg (by simp [Extra.toJson, isPlainObject]), copied]
  dsimp only
  split
  · rename_i k untyped
    rw [typed] at untyped
    cases untyped
  · rw [dif_pos extra.decimals]

theorem extraField_again {extra : Option Extra} (own : o.get "extra" = extra.map Extra.toJson)
    (stable : ∀ e ∈ extra, Stable stack e.toJson) : extraField stack o index = .ok extra := by
  rw [extraField, own]
  cases extra with
  | none => rfl
  | some extra =>
    change some <$> validateExtra stack extra.toJson index = _
    rw [validateExtra_again (stable extra rfl)]
    rfl

/-- Where each entry is read back, so are all of them. -/
theorem validateAll_again {validate : JsonValue → ℕ → Parsed α} {toJson : α → JsonValue} {items : List α}
    (again : ∀ item ∈ items, ∀ index, validate (toJson item) index = .ok item) (index : ℕ) :
    ∃ sized, validateAll validate index (items.map toJson) = .ok ⟨items, sized⟩ := by
  induction items generalizing index with
  | nil => exact ⟨rfl, rfl⟩
  | cons item rest ih =>
    obtain ⟨sized, read⟩ := ih (fun item listed => again item (List.mem_cons_of_mem _ listed)) (index + 1)
    refine ⟨by simp, ?_⟩
    change (validate (toJson item) index >>= fun item => validateAll validate (index + 1) (rest.map toJson) >>= _) = _
    rw [again item List.mem_cons_self]
    change (validateAll validate (index + 1) (rest.map toJson) >>= _) = _
    rw [read]
    rfl

theorem acceptsField_again {carrier : JsString} {validate : JsonValue → ℕ → Parsed α} {toJson : α → JsonValue}
    {accepts : Accepts α} (own : o.get "accepts" = some (.array (accepts.items.map toJson)))
    (again : ∀ item ∈ accepts.items, ∀ index, validate (toJson item) index = .ok item) :
    acceptsField carrier validate o = .ok accepts := by
  obtain ⟨sized, read⟩ := validateAll_again again 0
  rw [acceptsField, own]
  dsimp only
  rw [dif_neg (by simpa using accepts.bounded), read]
  exact dif_neg accepts.nonempty

theorem validateRequirement_again {r : PaymentRequirements} (stable : ∀ e ∈ r.extra, Stable stack e.toJson) :
    validateRequirement stack r.toJson index = .ok r := by
  have present : r.toJson.get "description" = r.description.map .string ∧
      r.toJson.get "mimeType" = r.mimeType.map .string ∧
      r.toJson.get "maxTimeoutSeconds" = r.maxTimeoutSeconds.map Subtype.val ∧
      r.toJson.get "extra" = r.extra.map Extra.toJson := by
    obtain ⟨scheme, network, maxAmountRequired, resource, payTo, asset, description, mimeType, timeout, extra⟩ := r
    cases description <;> cases mimeType <;> cases timeout <;> cases extra <;> exact ⟨rfl, rfl, rfl, rfl⟩
  obtain ⟨description, mimeType, timeout, extra⟩ := present
  have scheme : str index r.toJson "scheme" = .ok r.scheme := str_again rfl
  have network : str index r.toJson "network" = .ok r.network := str_again rfl
  have amount : str index r.toJson "maxAmountRequired" = .ok r.maxAmountRequired := str_again rfl
  have resource : str index r.toJson "resource" = .ok r.resource := str_again rfl
  have payTo : str index r.toJson "payTo" = .ok r.payTo := str_again rfl
  have asset : str index r.toJson "asset" = .ok r.asset := str_again rfl
  unfold validateRequirement
  rw [if_neg (show ¬(!isObjectLike r.toJson) = true by simp [PaymentRequirements.toJson, record, isObjectLike]), scheme,
    network, amount, resource, payTo, asset, extraField_again extra stable, optionalText_again description,
    optionalText_again mimeType, numberField_again timeout]
  rfl

theorem classify_one : classifyX402Version (some (.number 1)) = .v1 := by
  rw [classifyX402Version, if_pos (by decide +kernel), if_pos rfl]

theorem classify_two : classifyX402Version (some (.number 2)) = .v2 := by
  rw [classifyX402Version, if_pos (by decide +kernel), if_neg (by decide +kernel), if_pos rfl]

theorem detectV2Entry_again (items : List PaymentRequirements) (index : ℕ) :
    detectV2Entry index (items.map PaymentRequirements.toJson) = none := by
  induction items generalizing index with
  | nil => rfl
  | cons r rest ih =>
    have amount : r.toJson.get "maxAmountRequired" = some (.string r.maxAmountRequired.1) := rfl
    rw [List.map_cons, detectV2Entry, amount]
    exact ih (index + 1)

/-- Where every metadata is its own copy, a body is read back from its JSON. -/
theorem parsePaymentRequired_again {b : PaymentRequiredBody}
    (stable : ∀ r ∈ b.accepts.items, ∀ e ∈ r.extra, Stable stack e.toJson) :
    parsePaymentRequired stack b.toJson = .ok b := by
  have version : classifyX402Version (b.toJson.get "x402Version") = .v1 := by
    have declared : b.toJson.get "x402Version" = some (.number 1) := rfl
    rw [declared, classify_one]
  have accepts : b.toJson.get "accepts" = some (.array (b.accepts.items.map PaymentRequirements.toJson)) := rfl
  have present : b.toJson.get "resource" = none ∧ b.toJson.get "error" = b.error.map .string := by
    obtain ⟨accepts, error⟩ := b
    cases error <;> exact ⟨rfl, rfl⟩
  have shape : detectV2Shape b.toJson = none := by
    rw [detectV2Shape, present.1, accepts]
    exact detectV2Entry_again _ 0
  have read : acceptsField "402 body" (validateRequirement stack) b.toJson = .ok b.accepts :=
    acceptsField_again accepts fun r listed index => validateRequirement_again (stable r listed)
  unfold parsePaymentRequired
  rw [if_neg (show ¬(!isObjectLike b.toJson) = true by simp [PaymentRequiredBody.toJson, record, isObjectLike]),
    version]
  dsimp only
  rw [parseBody, shape]
  dsimp only
  rw [read, optionalText_again present.2]
  rfl

theorem textField_again {k : JsString} {text : Option JsString} (own : o.get k = text.map .string) :
    textField o k = .ok text := by
  rw [textField, own]
  cases text <;> rfl

theorem validateResourceInfo_again (info : ResourceInfo) : validateResourceInfo (some info.toJson) = .ok info := by
  have url : urlField info.toJson = .ok info.url := by
    have text : info.toJson.get "url" = some (.string info.url.1) := rfl
    rw [urlField, text]
    exact dif_neg info.url.2
  have present : info.toJson.get "description" = info.description.map .string ∧
      info.toJson.get "mimeType" = info.mimeType.map .string := by
    obtain ⟨url, description, mimeType⟩ := info
    cases description <;> cases mimeType <;> exact ⟨rfl, rfl⟩
  change (urlField info.toJson >>= fun url => textField info.toJson "description" >>= fun description =>
    textField info.toJson "mimeType" >>= fun mimeType => _) = _
  rw [url, textField_again present.1, textField_again present.2]
  rfl

theorem validateRequirementV2_again {r : PaymentRequirementsV2} (stable : ∀ e ∈ r.extra, Stable stack e.toJson) :
    validateRequirementV2 stack r.toJson index = .ok r := by
  have present : r.toJson.get "maxAmountRequired" = none ∧ r.toJson.get "resource" = none ∧
      r.toJson.get "extra" = r.extra.map Extra.toJson := by
    obtain ⟨scheme, network, amount, payTo, asset, timeout, extra⟩ := r
    cases extra <;> exact ⟨rfl, rfl, rfl⟩
  obtain ⟨maxAmountRequired, resource, extra⟩ := present
  have network : chainField r.toJson index = .ok r.network := by
    have nonempty : r.network.1 ≠ [] := by
      intro empty
      have valid := r.network.2
      rw [empty] at valid
      exact absurd valid (by decide)
    have read : str index r.toJson "network" = .ok ⟨r.network.1, nonempty⟩ := str_again rfl
    rw [chainField, read]
    exact dif_pos r.network.2
  have timeout : timeoutField r.toJson index = .ok r.maxTimeoutSeconds := by
    have declared : r.toJson.get "maxTimeoutSeconds" = some (.number r.maxTimeoutSeconds.1) := rfl
    rw [timeoutField, declared]
    exact dif_pos r.maxTimeoutSeconds.2
  have scheme : str index r.toJson "scheme" = .ok r.scheme := str_again rfl
  have amount : str index r.toJson "amount" = .ok r.amount := str_again rfl
  have payTo : str index r.toJson "payTo" = .ok r.payTo := str_again rfl
  have asset : str index r.toJson "asset" = .ok r.asset := str_again rfl
  unfold validateRequirementV2
  rw [if_neg (show ¬(!isPlainObject r.toJson) = true by simp [PaymentRequirementsV2.toJson, record, isPlainObject]),
    maxAmountRequired, resource, if_neg (by simp), if_neg (by simp), network, timeout, scheme, amount, payTo, asset,
    extraField_again extra stable]
  rfl

theorem validateExtensions_again {extensions : X402Extensions} (stable : Stable stack extensions.toJson)
    (small : extensions.toJson.stringify.length ≤ maxExtensionsJsonChars) :
    validateExtensions stack extensions.toJson = .ok extensions := by
  have read : JsonValue.parse extensions.toJson.stringify = some (.object extensions.entries) :=
    parse_stringify stable.faithful
  have valid : extensions.entries.findSome? extensionProblem = none :=
    List.findSome?_eq_none_iff.mpr extensions.valid
  unfold validateExtensions
  dsimp only
  rw [if_neg (by simp [X402Extensions.toJson, isPlainObject]), stable.stringifyWithin]
  dsimp only
  rw [if_neg (not_lt.mpr small), read]
  dsimp only
  rw [dif_neg (not_lt.mpr extensions.few)]
  split
  · rename_i detail problem
    rw [valid] at problem
    cases problem
  · rfl

/-- Where the metadata and the extensions are their own copies, a payload is read back from its JSON. -/
theorem parsePaymentRequiredV2_again {b : PaymentRequiredV2}
    (stable : ∀ r ∈ b.accepts.items, ∀ e ∈ r.extra, Stable stack e.toJson)
    (stable' : ∀ e ∈ b.extensions, Stable stack e.toJson ∧ e.toJson.stringify.length ≤ maxExtensionsJsonChars) :
    parsePaymentRequiredV2 stack b.toJson = .ok b := by
  have version : classifyX402Version (b.toJson.get "x402Version") = .v2 := by
    have declared : b.toJson.get "x402Version" = some (.number 2) := rfl
    rw [declared, classify_two]
  have resource : b.toJson.get "resource" = some b.resource.toJson := rfl
  have accepts : b.toJson.get "accepts" = some (.array (b.accepts.items.map PaymentRequirementsV2.toJson)) := rfl
  have present : b.toJson.get "error" = b.error.map .string ∧
      b.toJson.get "extensions" = b.extensions.map X402Extensions.toJson := by
    obtain ⟨resource, accepts, error, extensions⟩ := b
    cases error <;> cases extensions <;> exact ⟨rfl, rfl⟩
  have read : acceptsField "PAYMENT-REQUIRED payload" (validateRequirementV2 stack) b.toJson = .ok b.accepts :=
    acceptsField_again accepts fun r listed index => validateRequirementV2_again (stable r listed)
  have extensions : extensionsField stack b.toJson = .ok b.extensions := by
    rw [extensionsField, present.2]
    cases own : b.extensions with
    | none => rfl
    | some extensions =>
      change some <$> validateExtensions stack extensions.toJson = _
      rw [validateExtensions_again (stable' extensions own).1 (stable' extensions own).2]
      rfl
  unfold parsePaymentRequiredV2
  rw [if_neg (show ¬(!isPlainObject b.toJson) = true by simp [PaymentRequiredV2.toJson, record, isPlainObject]),
    version]
  dsimp only
  rw [parsePayload, resource, validateResourceInfo_again, read, extensions, optionalText_again present.1]
  rfl

end Again
end Vaduno.X402
