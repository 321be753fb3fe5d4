import Vaduno.Policy.Evaluation
import Vaduno.Sample

/-! Merchants on the lists of a policy. An entry is about hosts or about ids, and what it is about
decides alone which field of a merchant it is compared with. -/
namespace Vaduno.Policy
open Ecma Enforce

section Entries
variable (platform : Platform)

/-- The text of a host-form entry, without what marks it as one. -/
def hostText (pattern : JsString) : JsString :=
  let raw := platform.trim pattern
  if (encode "host:").isPrefixOf (platform.toLowerCase raw) then platform.trim (raw.drop 5) else raw

/-- The host of an entry. -/
def entryHost (pattern : JsString) : JsString := normalizeHost platform (hostText platform pattern)

/-- The id of an entry. -/
def entryId (pattern : JsString) : JsString :=
  let lower := platform.toLowerCase (platform.trim pattern)
  if (encode "id:").isPrefixOf lower then platform.trim (lower.drop 3) else lower

/-- A host is another one, or lies below it. -/
def AtOrBelow (host top : JsString) : Prop := host = top ∨ (encode "." ++ top) <:+ host

/-- The host of a merchant, where its URL has one. -/
def merchantHost (merchant : MerchantRef) : Option JsString :=
  (merchant.url.bind platform.hostname).map (normalizeHost platform)

variable {platform} {merchant : MerchantRef} {pattern : JsString}

theorem isHostForm_iff : isHostForm platform pattern = true ↔
    ¬(encode "id:").isPrefixOf (platform.toLowerCase (platform.trim pattern)) = true ∧
      ((encode "host:").isPrefixOf (platform.toLowerCase (platform.trim pattern)) = true ∨
        46 ∈ platform.trim pattern) := by
  rw [isHostForm]
  split_ifs with id host
  · exact iff_of_false nofun fun both => both.1 id
  · exact iff_of_true rfl ⟨id, .inl host⟩
  · simp [id, host]

/-- A host-form entry is about hosts alone. -/
theorem matches_by_host (form : isHostForm platform pattern = true) :
    merchantMatches platform merchant pattern = true ↔ entryHost platform pattern ≠ [] ∧
      ∃ host, parsedHost platform merchant.url = some host ∧ AtOrBelow host (entryHost platform pattern) := by
  obtain ⟨id, host⟩ := isHostForm_iff.mp form
  have compared : merchantMatches platform merchant pattern = (parsedHost platform merchant.url).any fun host =>
      if entryHost platform pattern = [] then false
      else decide (host = entryHost platform pattern) || (encode "." ++ entryHost platform pattern).isSuffixOf host := by
    rw [merchantMatches, if_neg id]
    dsimp only
    rw [entryHost, hostText]
    by_cases forced : (encode "host:").isPrefixOf (platform.toLowerCase (platform.trim pattern)) = true
    · rw [if_pos forced, forced]
      cases parsedHost platform merchant.url <;> rfl
    · have dotted : (platform.trim pattern).contains 46 = true := by
        simpa using host.resolve_left forced
      rw [if_neg forced]
      rw [Bool.not_eq_true] at forced
      rw [forced, dotted]
      cases parsedHost platform merchant.url <;> rfl
  rw [compared]
  cases parsedHost platform merchant.url with
  | none => simp
  | some host =>
    by_cases empty : entryHost platform pattern = []
    · simp [empty]
    · simp [empty, AtOrBelow]

/-- An entry of the other form is about ids alone. -/
theorem matches_by_id (form : isHostForm platform pattern = false) :
    merchantMatches platform merchant pattern = true ↔
      platform.toLowerCase (platform.trim merchant.id) = entryId platform pattern := by
  rw [merchantMatches, entryId]
  dsimp only
  by_cases id : (encode "id:").isPrefixOf (platform.toLowerCase (platform.trim pattern)) = true
  · rw [if_pos id, if_pos id]
    exact decide_eq_true_iff
  · have unhosted : ¬isHostForm platform pattern = true := by
      rw [form]
      nofun
    rw [isHostForm_iff, not_and, not_or] at unhosted
    obtain ⟨unforced, plain⟩ := unhosted id
    rw [Bool.not_eq_true] at unforced
    have bare : (platform.trim pattern).contains 46 = false := by simpa using plain
    rw [if_neg id, if_neg id, unforced]
    simp only [Bool.false_eq_true, if_false, Bool.not_false, Bool.true_and, bare]
    exact decide_eq_true_iff

/-! ### Hosts -/

/-- A merchant has a usable host exactly if its URL parses to one that is not empty. -/
theorem parsedHost_iff (empty : platform.hostname [] = none) {host : JsString} :
    parsedHost platform merchant.url = some host ↔ merchantHost platform merchant = some host ∧ host ≠ [] := by
  rw [parsedHost, merchantHost]
  cases merchant.url with
  | none => simp
  | some url =>
    simp only [Option.bind_eq_bind, Option.bind_some]
    by_cases blank : url = []
    · subst blank
      simp [empty]
    · simp only [if_neg blank]
      cases platform.hostname url with
      | none => simp
      | some hostname =>
        by_cases bare : normalizeHost platform hostname = []
        · simp [bare]
        · simp [bare]
          rintro rfl
          exact bare

/-- The velocity key of a merchant with a usable host is made of that host. -/
theorem merchantKeyOf_host (empty : platform.hostname [] = none) {host : JsString}
    (parsed : parsedHost platform merchant.url = some host) : merchantKeyOf platform merchant = "host:" ++ host := by
  obtain ⟨known, nonempty⟩ := (parsedHost_iff empty).mp parsed
  rw [merchantHost, Option.map_eq_some_iff] at known
  obtain ⟨hostname, found, rfl⟩ := known
  rw [merchantKeyOf, found]
  exact if_neg nonempty

theorem AtOrBelow.suffix {host top : JsString} (below : AtOrBelow host top) : top <:+ host := by
  obtain rfl | below := below
  · exact List.suffix_refl _
  · exact (List.suffix_append (encode ".") top).trans below

/-- A policy that blocks a host denies what has no usable one. -/
theorem unverifiable_denied {answer : (op : Op) → op.Answer} {intent : PaymentIntent} {policy : SpendPolicy}
    {countsMerchants : Bool} {result : PolicyResult}
    (decided : evaluation platform answer intent policy countsMerchants = .ok result)
    (listed : pattern ∈ policy.merchants.block.getD []) (form : isHostForm platform pattern = true)
    (absent : parsedHost platform intent.merchant.url = none) : result.decision = .deny := by
  have violated : ((policy.merchants.block.getD []).any (isHostForm platform) &&
      (parsedHost platform intent.merchant.url).isNone) = true := by
    rw [absent, List.any_eq_true.mpr ⟨pattern, listed, form⟩]
    rfl
  apply denied_of_merchant decided
  rw [merchantReasons, violated]
  simp [reasonIf]

/-- An entry that blocks a merchant denies it. -/
theorem blocked_denied {answer : (op : Op) → op.Answer} {intent : PaymentIntent} {policy : SpendPolicy}
    {countsMerchants : Bool} {result : PolicyResult}
    (decided : evaluation platform answer intent policy countsMerchants = .ok result)
    (listed : pattern ∈ policy.merchants.block.getD [])
    (same : merchantMatches platform intent.merchant pattern = true) : result.decision = .deny := by
  have blocked : (policy.merchants.block.getD []).any (merchantMatches platform intent.merchant) = true :=
    List.any_eq_true.mpr ⟨pattern, listed, same⟩
  apply denied_of_merchant decided
  rw [merchantReasons, blocked]
  simp [reasonIf]

end Entries

/-- Merchant lists match whole labels of hosts. A host-form entry with a host matches what is at or below
it, and one without matches nothing; an entry of the other form matches an id; an entry's form alone says
which of a merchant's fields it looks at; a blocked host denies where there is no usable host; and merchants
that match entries of which neither ends in the other have different velocity keys. -/
theorem merchant_lists_match {platform : Platform} (empty : platform.hostname [] = none) :
    (∀ merchant pattern, isHostForm platform pattern = true →
      (merchantMatches platform merchant pattern = true ↔ entryHost platform pattern ≠ [] ∧
        ∃ host, merchantHost platform merchant = some host ∧ AtOrBelow host (entryHost platform pattern))) ∧
    (∀ merchant pattern, isHostForm platform pattern = false →
      (merchantMatches platform merchant pattern = true ↔
        platform.toLowerCase (platform.trim merchant.id) = entryId platform pattern)) ∧
    (∀ pattern id id' url url', if isHostForm platform pattern then
        merchantMatches platform ⟨id, url⟩ pattern = merchantMatches platform ⟨id', url⟩ pattern
      else merchantMatches platform ⟨id, url⟩ pattern = merchantMatches platform ⟨id, url'⟩ pattern) ∧
    (∀ answer intent policy countsMerchants result pattern,
      evaluation platform answer intent policy countsMerchants = .ok result →
      pattern ∈ policy.merchants.block.getD [] → isHostForm platform pattern = true →
      (∀ url, intent.merchant.url = some url → platform.hostname url = none) → result.decision = .deny) ∧
    ∀ a b p q, isHostForm platform p = true → isHostForm platform q = true →
      merchantMatches platform a p = true → merchantMatches platform b q = true →
      ¬entryHost platform p <:+ entryHost platform q → ¬entryHost platform q <:+ entryHost platform p →
      merchantKeyOf platform a ≠ merchantKeyOf platform b := by
  refine ⟨?_, fun merchant pattern form => matches_by_id form, ?_, ?_, ?_⟩
  · intro merchant pattern form
    rw [matches_by_host form]
    refine and_congr_right fun hosted => exists_congr fun host => ?_
    rw [parsedHost_iff empty, and_assoc]
    refine and_congr_right fun _ => and_iff_right_of_imp ?_
    rintro below rfl
    exact hosted (List.suffix_nil.mp below.suffix)
  · intro pattern id id' url url'
    split_ifs with form
    · rw [Bool.eq_iff_iff, matches_by_host form, matches_by_host form]
    · rw [Bool.not_eq_true] at form
      rw [Bool.eq_iff_iff, matches_by_id form, matches_by_id form]
  · intro answer intent policy countsMerchants result pattern decided listed form unparsed
    apply unverifiable_denied decided listed form
    cases parsed : parsedHost platform intent.merchant.url with
    | none => rfl
    | some host =>
      obtain ⟨known, -⟩ := (parsedHost_iff empty).mp parsed
      rw [merchantHost, Option.map_eq_some_iff] at known
      obtain ⟨hostname, found, -⟩ := known
      obtain ⟨url, given, found⟩ := Option.bind_eq_some_iff.mp found
      rw [unparsed url given] at found
      cases found
  · intro a b p q left right matched matched' apart apart' same
    obtain ⟨-, host, parsed, below⟩ := (matches_by_host left).mp matched
    obtain ⟨-, host', parsed', below'⟩ := (matches_by_host right).mp matched'
    rw [merchantKeyOf_host empty parsed, merchantKeyOf_host empty parsed'] at same
    obtain rfl := List.append_cancel_left same
    exact (List.suffix_or_suffix_of_suffix below.suffix below'.suffix).elim apart apart'

namespace Merchants

/-- A platform whose URL parser reads two URLs. -/
def platform : Platform :=
  { Vaduno.Sample.platform with
    hostname := fun url =>
      if url = encode "http://a../" then some "a.."
      else if url = encode "https://pay.example.com/" then some "pay.example.com"
      else none }

theorem checked : isHostForm platform "." = true ∧
    merchantMatches platform ⟨"a", some "http://a../"⟩ "." = false ∧
    merchantHost platform ⟨"a", some "http://a../"⟩ = some "a." ∧
    (encode "." ++ entryHost platform ".").isSuffixOf "a." = true ∧
    isHostForm platform "example.com" = true ∧ entryHost platform "example.com" = encode "example.com" ∧
    merchantHost platform ⟨"a", some "https://pay.example.com/"⟩ = some "pay.example.com" ∧
    (encode "." ++ encode "example.com").isSuffixOf "pay.example.com" = true ∧ encode "example.com" ≠ [] ∧
    platform.hostname [] = none := by
  decide +kernel

end Merchants

/-- An entry that names no host, and a host that ends in an empty label: the host ends in a dot and the
entry, and the entry does not match. -/
theorem empty_entry_unmatched : isHostForm Merchants.platform "." = true ∧
    ¬(merchantMatches Merchants.platform ⟨"a", some "http://a../"⟩ "." = true ↔
      ∃ host, merchantHost Merchants.platform ⟨"a", some "http://a../"⟩ = some host ∧
        AtOrBelow host (entryHost Merchants.platform ".")) := by
  obtain ⟨form, unmatched, host, below, -⟩ := Merchants.checked
  refine ⟨form, fun same => ?_⟩
  have matched := same.mpr ⟨_, host, .inr (List.isSuffixOf_iff_suffix.mp below)⟩
  rw [unmatched] at matched
  cases matched

theorem subdomain_matched :
    merchantMatches Merchants.platform ⟨"a", some "https://pay.example.com/"⟩ "example.com" = true := by
  obtain ⟨-, -, -, -, form, host, parsed, below, hosted, empty⟩ := Merchants.checked
  refine ((merchant_lists_match empty).1 _ _ form).mpr ⟨?_, _, parsed, ?_⟩
  · rw [host]
    exact hosted
  · rw [host]
    exact .inr (List.isSuffixOf_iff_suffix.mp below)

end Vaduno.Policy
