import Vaduno.X402.RoundTrip

/-! What acceptance implies of the value that was read, and which errors there are. -/
namespace Vaduno.X402
open Ecma JsonValue

/-! ### What a result has been read from -/

/-- The value of a field, which `null` leaves out. -/
def given (o : JsonValue) (k : JsString) : Option JsonValue :=
  match o.get k with
  | none | some .null => none
  | some v => some v

/-- The metadata is the plain copy of what is given, and its own copy. -/
structure ExtraRead (stack : ℕ) (o : JsonValue) (extra : Option Extra) : Prop where
  copied : extra.map Extra.toJson = (given o "extra").map plain
  stable : ∀ e ∈ extra, Stable stack e.toJson

structure RequirementRead (stack : ℕ) (o : JsonValue) (r : PaymentRequirements) : Prop where
  scheme : o.get "scheme" = some (.string r.scheme.1)
  network : o.get "network" = some (.string r.network.1)
  maxAmountRequired : o.get "maxAmountRequired" = some (.string r.maxAmountRequired.1)
  resource : o.get "resource" = some (.string r.resource.1)
  payTo : o.get "payTo" = some (.string r.payTo.1)
  asset : o.get "asset" = some (.string r.asset.1)
  description : r.description = optionalText (o.get "description")
  mimeType : r.mimeType = optionalText (o.get "mimeType")
  maxTimeoutSeconds : r.maxTimeoutSeconds = numberField o "maxTimeoutSeconds"
  extra : ExtraRead stack o r.extra

structure RequirementReadV2 (stack : ℕ) (o : JsonValue) (r : PaymentRequirementsV2) : Prop where
  scheme : o.get "scheme" = some (.string r.scheme.1)
  network : o.get "network" = some (.string r.network.1)
  amount : o.get "amount" = some (.string r.amount.1)
  payTo : o.get "payTo" = some (.string r.payTo.1)
  asset : o.get "asset" = some (.string r.asset.1)
  maxTimeoutSeconds : o.get "maxTimeoutSeconds" = some (.number r.maxTimeoutSeconds.1)
  extra : ExtraRead stack o r.extra
  /-- Nothing of the first version is mixed in. -/
  unmixed : o.get "maxAmountRequired" = none ∧ o.get "resource" = none

/-- The entries are read one by one from a list of between one and thirty-two. -/
structure AcceptsRead (read : JsonValue → α → Prop) (b : JsonValue) (items : List α) : Prop where
  list : ∃ raw, b.get "accepts" = some (.array raw) ∧ List.Forall₂ read raw items
  nonempty : 1 ≤ items.length
  bounded : items.length ≤ 32

structure BodyRead (stack : ℕ) (b : JsonValue) (r : PaymentRequiredBody) : Prop where
  version : b.get "x402Version" = none ∨ b.get "x402Version" = some (.number 1)
  accepts : AcceptsRead (RequirementRead stack) b r.accepts.items
  error : r.error = optionalText (b.get "error")

structure ResourceRead (o : JsonValue) (info : ResourceInfo) : Prop where
  url : o.get "url" = some (.string info.url.1)
  description : o.get "description" = info.description.map .string
  mimeType : o.get "mimeType" = info.mimeType.map .string

structure ExtensionsRead (stack : ℕ) (b : JsonValue) (extensions : Option X402Extensions) : Prop where
  copied : extensions.map X402Extensions.toJson = (given b "extensions").map plain
  stable : ∀ e ∈ extensions, Stable stack e.toJson
  small : ∀ e ∈ extensions, e.toJson.stringify.length ≤ maxExtensionsJsonChars

structure PayloadRead (stack : ℕ) (b : JsonValue) (r : PaymentRequiredV2) : Prop where
  version : b.get "x402Version" = some (.number 2)
  resource : ∃ raw, b.get "resource" = some raw ∧ ResourceRead raw r.resource
  accepts : AcceptsRead (RequirementReadV2 stack) b r.accepts.items
  error : r.error = optionalText (b.get "error")
  extensions : ExtensionsRead stack b r.extensions

section Read
variable {stack : ℕ} {o : JsonValue} {index : ℕ}

theorem str_ok {k : JsString} {s : NonEmpty} (ran : str index o k = .ok s) : o.get k = some (.string s.1) := by
  unfold str at ran
  dsimp only at ran
  split at ran
  · rename_i text own
    split_ifs at ran
    cases ran
    exact own
  · cases ran

theorem validateExtra_ok {raw : JsonValue} {extra : Extra} (distinct : raw.Distinct)
    (ran : validateExtra stack raw index = .ok extra) : extra.toJson = raw.plain ∧ Stable stack extra.toJson := by
  unfold validateExtra at ran
  dsimp only at ran
  split_ifs at ran
  split at ran
  · cases ran
  · rename_i props copied
    split at ran
    · cases ran
    · split_ifs at ran
      cases ran
      exact copyWithin_some distinct copied
  · cases ran

theorem extraField_ok {extra : Option Extra} (distinct : o.Distinct) (ran : extraField stack o index = .ok extra) :
    ExtraRead stack o extra := by
  unfold extraField at ran
  split at ran
  · rename_i absent
    cases ran
    exact ⟨by rw [given, absent]; rfl, fun e none => absurd none (Option.not_mem_none e)⟩
  · rename_i null
    cases ran
    exact ⟨by rw [given, null]; rfl, fun e none => absurd none (Option.not_mem_none e)⟩
  · rename_i raw other own
    cases validated : validateExtra stack raw index with
    | error e =>
      rw [validated] at ran
      cases ran
    | ok extra =>
      rw [validated] at ran
      cases ran
      obtain ⟨copied, stable⟩ := validateExtra_ok (distinct_get distinct own) validated
      refine ⟨?_, fun e own => ?_⟩
      · have present : given o "extra" = some raw := by
          rw [given, own]
          cases raw <;> first | rfl | exact absurd rfl other
        rw [present, Option.map_some, Option.map_some, copied]
      · cases own
        exact stable

theorem validateAll_ok {validate : JsonValue → ℕ → Parsed α} {raw : List JsonValue}
    {items : { items : List α // items.length = raw.length }} (ran : validateAll validate index raw = .ok items) :
    List.Forall₂ (fun r item => ∃ i, validate r i = .ok item) raw items.1 := by
  induction raw generalizing index with
  | nil =>
    cases ran
    exact .nil
  | cons r rest ih =>
    obtain ⟨item, first, ran⟩ := bind_ok ran
    obtain ⟨others, later, ran⟩ := bind_ok ran
    cases ran
    exact .cons ⟨index, first⟩ (ih later)

theorem acceptsField_ok {carrier : JsString} {validate : JsonValue → ℕ → Parsed α} {accepts : Accepts α}
    {read : JsonValue → α → Prop} (distinct : o.Distinct)
    (each : ∀ r item i, r.Distinct → validate r i = .ok item → read r item)
    (ran : acceptsField carrier validate o = .ok accepts) : AcceptsRead read o accepts.items := by
  unfold acceptsField at ran
  split at ran
  · rename_i raw own
    split_ifs at ran
    obtain ⟨items, validated, ran⟩ := bind_ok ran
    split_ifs at ran with empty
    · cases ran
      have all := validateAll_ok validated
      have distinct := distinct_mem (distinct_get distinct own)
      refine ⟨⟨raw, own, ?_⟩, List.length_pos_of_ne_nil empty, items.2.le.trans (not_lt.mp ‹_›)⟩
      refine ((List.forall₂_and_left _ _).mpr ⟨distinct, all⟩).imp ?_
      rintro r item ⟨distinct, i, validated⟩
      exact each r item i distinct validated
  · cases ran

theorem validateRequirement_ok {r : PaymentRequirements} (distinct : o.Distinct)
    (ran : validateRequirement stack o index = .ok r) : RequirementRead stack o r := by
  unfold validateRequirement at ran
  split_ifs at ran
  obtain ⟨scheme, ofScheme, ran⟩ := bind_ok ran
  obtain ⟨network, ofNetwork, ran⟩ := bind_ok ran
  obtain ⟨amount, ofAmount, ran⟩ := bind_ok ran
  obtain ⟨resource, ofResource, ran⟩ := bind_ok ran
  obtain ⟨payTo, ofPayTo, ran⟩ := bind_ok ran
  obtain ⟨asset, ofAsset, ran⟩ := bind_ok ran
  obtain ⟨extra, ofExtra, ran⟩ := bind_ok ran
  cases ran
  exact ⟨str_ok ofScheme, str_ok ofNetwork, str_ok ofAmount, str_ok ofResource, str_ok ofPayTo, str_ok ofAsset, rfl,
    rfl, rfl, extraField_ok distinct ofExtra⟩

theorem classify_one_of_v1 {v : Option JsonValue} (version : classifyX402Version v = .v1) : v = some (.number 1) := by
  unfold classifyX402Version at version
  split at version
  · cases version
  · split_ifs at version with whole one
    rw [one]
  all_goals cases version

theorem classify_none_of_absent {v : Option JsonValue} (version : classifyX402Version v = .absent) : v = none := by
  unfold classifyX402Version at version
  split at version
  · rfl
  · split_ifs at version
  all_goals cases version

theorem classify_two_of_v2 {v : Option JsonValue} (version : classifyX402Version v = .v2) : v = some (.number 2) := by
  unfold classifyX402Version at version
  split at version
  · cases version
  · split_ifs at version with whole one two
    rw [two]
  all_goals cases version

theorem parsePaymentRequired_ok {r : PaymentRequiredBody} (distinct : o.Distinct)
    (ran : parsePaymentRequired stack o = .ok r) : BodyRead stack o r := by
  unfold parsePaymentRequired at ran
  split_ifs at ran
  have fields : parseBody stack o = .ok r →
      AcceptsRead (RequirementRead stack) o r.accepts.items ∧ r.error = optionalText (o.get "error") := by
    intro ran
    unfold parseBody at ran
    split at ran
    · cases ran
    · obtain ⟨accepts, read, ran⟩ := bind_ok ran
      cases ran
      exact ⟨acceptsField_ok distinct (fun r item i distinct => validateRequirement_ok distinct) read, rfl⟩
  split at ran
  · cases ran
  · cases ran
  · cases ran
  · rename_i absent
    obtain ⟨accepts, error⟩ := fields ran
    exact ⟨.inl (classify_none_of_absent absent), accepts, error⟩
  · rename_i one
    obtain ⟨accepts, error⟩ := fields ran
    exact ⟨.inr (classify_one_of_v1 one), accepts, error⟩

theorem textField_ok {k : JsString} {text : Option JsString} (ran : textField o k = .ok text) :
    o.get k = text.map .string := by
  unfold textField at ran
  split at ran
  · cases ran
    assumption
  · cases ran
    assumption
  · cases ran

theorem validateResourceInfo_ok {raw : Option JsonValue} {info : ResourceInfo}
    (ran : validateResourceInfo raw = .ok info) : ∃ v, raw = some v ∧ ResourceRead v info := by
  unfold validateResourceInfo at ran
  split at ran
  · rename_i props
    obtain ⟨url, ofUrl, ran⟩ := bind_ok ran
    obtain ⟨description, ofDescription, ran⟩ := bind_ok ran
    obtain ⟨mimeType, ofMimeType, ran⟩ := bind_ok ran
    cases ran
    refine ⟨_, rfl, ?_, textField_ok ofDescription, textField_ok ofMimeType⟩
    unfold urlField at ofUrl
    dsimp only at ofUrl
    split at ofUrl
    · rename_i s own
      split_ifs at ofUrl
      cases ofUrl
      exact own
    · cases ofUrl
  · cases ran

theorem chainField_ok {network : { s : JsString // isChainId s = true }} (ran : chainField o index = .ok network) :
    o.get "network" = some (.string network.1) := by
  obtain ⟨text, read, ran⟩ := bind_ok ran
  split_ifs at ran
  cases ran
  exact str_ok read

theorem timeoutField_ok {timeout : { n : Number // n.isFinite = true ∧ 0 < n }}
    (ran : timeoutField o index = .ok timeout) : o.get "maxTimeoutSeconds" = some (.number timeout.1) := by
  unfold timeoutField at ran
  dsimp only at ran
  split at ran
  · rename_i n own
    split_ifs at ran
    cases ran
    exact own
  · cases ran

theorem validateRequirementV2_ok {r : PaymentRequirementsV2} (distinct : o.Distinct)
    (ran : validateRequirementV2 stack o index = .ok r) : RequirementReadV2 stack o r := by
  unfold validateRequirementV2 at ran
  split_ifs at ran with _ priced placed
  obtain ⟨network, ofNetwork, ran⟩ := bind_ok ran
  obtain ⟨timeout, ofTimeout, ran⟩ := bind_ok ran
  obtain ⟨scheme, ofScheme, ran⟩ := bind_ok ran
  obtain ⟨amount, ofAmount, ran⟩ := bind_ok ran
  obtain ⟨payTo, ofPayTo, ran⟩ := bind_ok ran
  obtain ⟨asset, ofAsset, ran⟩ := bind_ok ran
  obtain ⟨extra, ofExtra, ran⟩ := bind_ok ran
  cases ran
  exact ⟨str_ok ofScheme, chainField_ok ofNetwork, str_ok ofAmount, str_ok ofPayTo, str_ok ofAsset,
    timeoutField_ok ofTimeout, extraField_ok distinct ofExtra, by simpa using priced, by simpa using placed⟩

theorem validateExtensions_ok {raw : JsonValue} {extensions : X402Extensions} (distinct : raw.Distinct)
    (ran : validateExtensions stack raw = .ok extensions) : extensions.toJson = raw.plain ∧
      Stable stack extensions.toJson ∧ extensions.toJson.stringify.length ≤ maxExtensionsJsonChars := by
  unfold validateExtensions at ran
  dsimp only at ran
  split_ifs at ran
  split at ran
  · cases ran
  · rename_i serialized written
    obtain ⟨copied, stable, same⟩ := stringifyWithin_plain distinct written
    split_ifs at ran with large
    split at ran
    · cases ran
    · rename_i entries read
      split_ifs at ran
      split at ran
      · cases ran
      · cases ran
        have own : JsonValue.object entries = raw.plain := Option.some.inj (read.symm.trans copied)
        refine ⟨own, ?_, ?_⟩
        · change Stable stack (.object entries)
          rw [own]
          exact stable
        · change (JsonValue.object entries).stringify.length ≤ _
          rw [own, same]
          exact not_lt.mp large
    · cases ran

theorem extensionsField_ok {extensions : Option X402Extensions} (distinct : o.Distinct)
    (ran : extensionsField stack o = .ok extensions) : ExtensionsRead stack o extensions := by
  unfold extensionsField at ran
  split at ran
  · rename_i absent
    cases ran
    exact ⟨by rw [given, absent]; rfl, fun e none => absurd none (Option.not_mem_none e),
      fun e none => absurd none (Option.not_mem_none e)⟩
  · rename_i null
    cases ran
    exact ⟨by rw [given, null]; rfl, fun e none => absurd none (Option.not_mem_none e),
      fun e none => absurd none (Option.not_mem_none e)⟩
  · rename_i raw other own
    cases validated : validateExtensions stack raw with
    | error e =>
      rw [validated] at ran
      cases ran
    | ok extensions =>
      rw [validated] at ran
      cases ran
      obtain ⟨copied, stable, small⟩ := validateExtensions_ok (distinct_get distinct own) validated
      refine ⟨?_, fun e own => ?_, fun e own => ?_⟩
      · have present : given o "extensions" = some raw := by
          rw [given, own]
          cases raw <;> first | rfl | exact absurd rfl other
        rw [present, Option.map_some, Option.map_some, copied]
      · cases own
        exact stable
      · cases own
        exact small

theorem parsePaymentRequiredV2_ok {r : PaymentRequiredV2} (distinct : o.Distinct)
    (ran : parsePaymentRequiredV2 stack o = .ok r) : PayloadRead stack o r := by
  unfold parsePaymentRequiredV2 at ran
  split_ifs at ran
  split at ran
  · rename_i two
    obtain ⟨resource, ofResource, ran⟩ := bind_ok ran
    obtain ⟨accepts, ofAccepts, ran⟩ := bind_ok ran
    obtain ⟨extensions, ofExtensions, ran⟩ := bind_ok ran
    cases ran
    exact ⟨classify_two_of_v2 two, validateResourceInfo_ok ofResource,
      acceptsField_ok distinct (fun r item i distinct => validateRequirementV2_ok distinct) ofAccepts, rfl,
      extensionsField_ok distinct ofExtensions⟩
  all_goals cases ran

end Read

/-! ### Failures -/

/-- One of the package's own errors. -/
def X402Failure.Documented : X402Failure → Prop
  | protocol _ | versionUnsupported .. => True
  | thrown _ => False

/-- What fails, fails with one of them. -/
def FailsDocumented (p : Parsed α) : Prop := ∀ e, p = .error e → e.Documented

section Failures
variable {stack : ℕ} {o : JsonValue} {index : ℕ}

theorem fails_ok (a : α) : FailsDocumented (.ok a : Parsed α) := by
  intro e same
  cases same

theorem fails_protocol (detail : JsString) : FailsDocumented (.error (.protocol detail) : Parsed α) := by
  rintro e same
  cases same
  trivial

theorem fails_version (version : Number) (detail : JsString) :
    FailsDocumented (.error (.versionUnsupported version detail) : Parsed α) := by
  rintro e same
  cases same
  trivial

theorem fails_bind {p : Parsed α} {f : α → Parsed β} (first : FailsDocumented p)
    (rest : ∀ a, FailsDocumented (f a)) : FailsDocumented (p >>= f) := by
  cases p with
  | error e => exact fun e' same => first e' (by cases same; rfl)
  | ok a => exact rest a

theorem fails_map {p : Parsed α} {f : α → β} (fails : FailsDocumented p) : FailsDocumented (f <$> p) := by
  cases p with
  | error e => exact fun e' same => fails e' (by cases same; rfl)
  | ok a => exact fails_ok (f a)

theorem fails_str (k : JsString) : FailsDocumented (str index o k) := by
  unfold str
  dsimp only
  split
  · split_ifs
    · exact fails_protocol _
    · exact fails_ok _
  · exact fails_protocol _

theorem fails_extraField : FailsDocumented (extraField stack o index) := by
  have validated : ∀ raw, FailsDocumented (validateExtra stack raw index) := by
    intro raw
    unfold validateExtra
    dsimp only
    split_ifs
    · exact fails_protocol _
    · split
      · exact fails_protocol _
      · split
        · exact fails_protocol _
        · split_ifs
          · exact fails_ok _
          · exact fails_protocol _
      · exact fails_protocol _
  unfold extraField
  split
  · exact fails_ok _
  · exact fails_ok _
  · exact fails_map (validated _)

theorem fails_validateAll {validate : JsonValue → ℕ → Parsed α} (each : ∀ r i, FailsDocumented (validate r i))
    (raw : List JsonValue) (index : ℕ) : FailsDocumented (validateAll validate index raw) := by
  induction raw generalizing index with
  | nil => exact fails_ok _
  | cons r rest ih => exact fails_bind (each r index) fun _ => fails_bind (ih (index + 1)) fun _ => fails_ok _

theorem fails_acceptsField {carrier : JsString} {validate : JsonValue → ℕ → Parsed α}
    (each : ∀ r i, FailsDocumented (validate r i)) : FailsDocumented (acceptsField carrier validate o) := by
  unfold acceptsField
  split
  · split_ifs
    · exact fails_protocol _
    · refine fails_bind (fails_validateAll each _ 0) fun items => ?_
      split_ifs
      · exact fails_protocol _
      · exact fails_ok _
  · exact fails_protocol _

theorem fails_validateRequirement : FailsDocumented (validateRequirement stack o index) := by
  unfold validateRequirement
  split_ifs
  · exact fails_protocol _
  · exact fails_bind (fails_str _) fun _ => fails_bind (fails_str _) fun _ => fails_bind (fails_str _) fun _ =>
      fails_bind (fails_str _) fun _ => fails_bind (fails_str _) fun _ => fails_bind (fails_str _) fun _ =>
      fails_bind fails_extraField fun _ => fails_ok _

theorem fails_parsePaymentRequired : FailsDocumented (parsePaymentRequired stack o) := by
  have body : FailsDocumented (parseBody stack o) := by
    unfold parseBody
    split
    · exact fails_version _ _
    · exact fails_bind (fails_acceptsField fun r i => fails_validateRequirement) fun _ => fails_ok _
  unfold parsePaymentRequired
  split_ifs
  · exact fails_protocol _
  · split
    · exact fails_protocol _
    · exact fails_version _ _
    · exact fails_version _ _
    · exact body
    · exact body

theorem fails_validateResourceInfo (raw : Option JsonValue) : FailsDocumented (validateResourceInfo raw) := by
  have text : ∀ o k, FailsDocumented (textField o k) := by
    intro o k
    unfold textField
    split
    · exact fails_ok _
    · exact fails_ok _
    · exact fails_protocol _
  unfold validateResourceInfo
  split
  · refine fails_bind ?_ fun _ => fails_bind (text _ _) fun _ => fails_bind (text _ _) fun _ => fails_ok _
    unfold urlField
    dsimp only
    split
    · split_ifs
      · exact fails_protocol _
      · exact fails_ok _
    · exact fails_protocol _
  · exact fails_protocol _

theorem fails_validateRequirementV2 : FailsDocumented (validateRequirementV2 stack o index) := by
  have chain : FailsDocumented (chainField o index) := by
    refine fails_bind (fails_str _) fun network => ?_
    split_ifs
    · exact fails_ok _
    · exact fails_protocol _
  have timeout : FailsDocumented (timeoutField o index) := by
    unfold timeoutField
    dsimp only
    split
    · split_ifs
      · exact fails_ok _
      · exact fails_protocol _
    · exact fails_protocol _
  unfold validateRequirementV2
  split_ifs
  · exact fails_protocol _
  · exact fails_protocol _
  · exact fails_protocol _
  · exact fails_bind chain fun _ => fails_bind timeout fun _ => fails_bind (fails_str _) fun _ =>
      fails_bind (fails_str _) fun _ => fails_bind (fails_str _) fun _ => fails_bind (fails_str _) fun _ =>
      fails_bind fails_extraField fun _ => fails_ok _

/-- What has been written can be read, so reading it does not fail. -/
theorem fails_validateExtensions {raw : JsonValue} (distinct : raw.Distinct) :
    FailsDocumented (validateExtensions stack raw) := by
  unfold validateExtensions
  dsimp only
  split_ifs
  · exact fails_protocol _
  · split
    · exact fails_protocol _
    · rename_i serialized written
      split_ifs
      · exact fails_protocol _
      · split
        · rename_i unread
          rw [(stringifyWithin_plain distinct written).1] at unread
          cases unread
        · split_ifs
          · exact fails_protocol _
          · split
            · exact fails_protocol _
            · exact fails_ok _
        · exact fails_protocol _

theorem fails_parsePaymentRequiredV2 (distinct : o.Distinct) : FailsDocumented (parsePaymentRequiredV2 stack o) := by
  have extensions : FailsDocumented (extensionsField stack o) := by
    unfold extensionsField
    split
    · exact fails_ok _
    · exact fails_ok _
    · rename_i own
      exact fails_map (fails_validateExtensions (distinct_get distinct own))
  unfold parsePaymentRequiredV2
  split_ifs
  · exact fails_protocol _
  · split
    · exact fails_bind (fails_validateResourceInfo _) fun _ => fails_bind
        (fails_acceptsField fun r i => fails_validateRequirementV2) fun _ => fails_bind extensions fun _ => fails_ok _
    · exact fails_protocol _
    · exact fails_protocol _
    · exact fails_version _ _
    · exact fails_protocol _

end Failures

/-! ### Both parsers -/

/-- A JSON value, in which every object has distinct names. -/
abbrev JsonDocument := { v : JsonValue // v.Distinct }

section Parsers
variable {stack : ℕ} {body : JsonValue}

theorem parsers_disjoint {r : PaymentRequiredBody} {r' : PaymentRequiredV2} (distinct : body.Distinct)
    (first : parsePaymentRequired stack body = .ok r) (second : parsePaymentRequiredV2 stack body = .ok r') :
    False := by
  have two := (parsePaymentRequiredV2_ok distinct second).version
  rcases (parsePaymentRequired_ok distinct first).version with absent | one
  · rw [absent] at two
    cases two
  · rw [one] at two
    have same : (1 : Number) = 2 := by injection (Option.some.inj two)
    exact absurd same (by decide +kernel)

/-- Every entry has been read from one of the list. -/
theorem AcceptsRead.of_mem {read : JsonValue → α → Prop} {b : JsonValue} {items : List α} {item : α}
    (accepts : AcceptsRead read b items) (listed : item ∈ items) : ∃ raw, read raw item := by
  obtain ⟨raw, -, each⟩ := accepts.list
  clear accepts
  induction each with
  | nil => exact absurd listed List.not_mem_nil
  | cons first _ ih =>
    rcases List.mem_cons.mp listed with rfl | later
    · exact ⟨_, first⟩
    · exact ih later

theorem reparse_body {r : PaymentRequiredBody} (read : BodyRead stack body r) :
    parsePaymentRequired stack r.toJson = .ok r := by
  refine parsePaymentRequired_again fun item listed => ?_
  obtain ⟨raw, entry⟩ := read.accepts.of_mem listed
  exact entry.extra.stable

theorem reparse_payload {r : PaymentRequiredV2} (read : PayloadRead stack body r) :
    parsePaymentRequiredV2 stack r.toJson = .ok r := by
  refine parsePaymentRequiredV2_again (fun item listed => ?_) fun e own => ?_
  · obtain ⟨raw, entry⟩ := read.accepts.of_mem listed
    exact entry.extra.stable
  · exact ⟨read.extensions.stable e own, read.extensions.small e own⟩

end Parsers

/-- No document is accepted by both parsers. What one of them accepts has its version, a list of between one and
thirty-two entries, and the fields that the result is made of; and the result, parsed again, is itself. Whatever is
not accepted is refused with one of the package's own errors. -/
theorem parsers_partition (stack : ℕ) (body : JsonDocument) :
    ¬(∃ r r', parsePaymentRequired stack body.1 = .ok r ∧ parsePaymentRequiredV2 stack body.1 = .ok r') ∧
      (∀ r, parsePaymentRequired stack body.1 = .ok r →
        BodyRead stack body.1 r ∧ parsePaymentRequired stack r.toJson = .ok r) ∧
      (∀ r, parsePaymentRequiredV2 stack body.1 = .ok r →
        PayloadRead stack body.1 r ∧ parsePaymentRequiredV2 stack r.toJson = .ok r) ∧
      (∀ e, parsePaymentRequired stack body.1 = .error e ∨ parsePaymentRequiredV2 stack body.1 = .error e →
        e.Documented) := by
  refine ⟨?_, fun r ran => ?_, fun r ran => ?_, fun e ran => ?_⟩
  · rintro ⟨r, r', first, second⟩
    exact parsers_disjoint body.2 first second
  · have read := parsePaymentRequired_ok body.2 ran
    exact ⟨read, reparse_body read⟩
  · have read := parsePaymentRequiredV2_ok body.2 ran
    exact ⟨read, reparse_payload read⟩
  · rcases ran with first | second
    · exact fails_parsePaymentRequired e first
    · exact fails_parsePaymentRequiredV2 body.2 e second

end Vaduno.X402
