import Vaduno.Policy.Merchants
import Vaduno.Policy.Networks

/-! Hosts under their canonical names. The URL parser gives the host of a payment in one form, whatever
its spelling; the entries of a policy are compared as they are written. -/
namespace Vaduno.Policy
open Ecma Enforce

/-- Four numbers with dots between them. -/
def quad (a b c d : ℕ) : JsString := natText a ++ 46 :: (natText b ++ 46 :: (natText c ++ 46 :: natText d))

/-- What is relied on of the URL parser: the host it gives is in a canonical form, which is in lower case. -/
structure HostParser (platform : Platform) where
  /-- The canonical form of a host, where the text names one. -/
  canonical : JsString → Option JsString
  /-- A host has a name: the root of all names is none. -/
  hosted : ∀ {text host}, canonical text = some host → stripDot host ≠ []
  /-- Every host stands in some URL. -/
  reached : ∀ {text host}, canonical text = some host → ∃ url, platform.hostname url = some host
  lower : ∀ {url host}, platform.hostname url = some host → platform.toLowerCase host = host
  empty : platform.hostname [] = none
  /-- What stands above a host is a host, unless the whole is an address. -/
  parent : ∀ {url host below top}, platform.hostname url = some host → stripDot host = below ++ 46 :: top →
    top ≠ [] → (¬∃ a b c d, a < 256 ∧ b < 256 ∧ c < 256 ∧ d < 256 ∧ stripDot host = quad a b c d) →
      ∃ url' host', platform.hostname url' = some host' ∧ stripDot host' = top
  /-- Every address is a host, in dotted decimal. -/
  address : ∀ a b c d, a < 256 → b < 256 → c < 256 → d < 256 → ∃ url, platform.hostname url = some (quad a b c d)

section Guarded
variable {platform : Platform}

/-- An entry that speaks for a host and what lies below it: as a block it denies every payment there, and as
an allowance it lets through nothing else. -/
structure Guards (platform : Platform) (pattern top : JsString) : Prop where
  block : ∀ answer intent policy countsMerchants result host,
    evaluation platform answer intent policy countsMerchants = .ok result →
    pattern ∈ policy.merchants.block.getD [] → merchantHost platform intent.merchant = some host →
    AtOrBelow host top → result.decision = .deny
  allow : ∀ merchant, merchantMatches platform merchant pattern = true →
    ∃ host, merchantHost platform merchant = some host ∧ AtOrBelow host top

theorem guards_of_canonical (empty : platform.hostname [] = none) {pattern top : JsString}
    (form : isHostForm platform pattern = true) (hosted : top ≠ []) (same : entryHost platform pattern = top) :
    Guards platform pattern top := by
  subst same
  constructor
  · intro answer intent policy countsMerchants result host decided listed known below
    refine blocked_denied decided listed ((matches_by_host form).mpr ⟨hosted, host, ?_, below⟩)
    refine (parsedHost_iff empty).mpr ⟨known, ?_⟩
    rintro rfl
    exact hosted (List.suffix_nil.mp below.suffix)
  · intro merchant matched
    obtain ⟨-, host, parsed, below⟩ := (matches_by_host form).mp matched
    exact ⟨host, ((parsedHost_iff empty).mp parsed).1, below⟩

/-- A policy of one block entry, and a payment at some URL. -/
def blocking (pattern : JsString) : SpendPolicy :=
  { Vaduno.Sample.policy with merchants := ⟨none, some [pattern]⟩ }

def paymentAt (url : JsString) : PaymentIntent :=
  { Vaduno.Sample.intent "i-1" with merchant := ⟨"a", some url⟩ }

/-- Only a merchant rule stands between such a payment and its approval. -/
theorem paymentAt_allowed {pattern url : JsString}
    (clear : merchantReasons platform (paymentAt url) (blocking pattern) = []) :
    evaluation platform Vaduno.Sample.outside (paymentAt url) (blocking pattern) true =
      .ok ⟨.allow, [], "p-1", 1⟩ := by
  have amount : amountReasons (paymentAt url) = [] := by
    have valid : amountValid (Vaduno.Sample.intent "i-1") = true := by decide +kernel
    rw [amountReasons, show amountValid (paymentAt url) = true from valid]
    rfl
  have currency : currencyReasons platform (paymentAt url) (blocking pattern) = [] := by
    rw [currencyReasons]
    exact if_neg (by simp [paymentAt, blocking, Vaduno.Sample.policy, Vaduno.Sample.intent])
  have networks : networkReasons platform (paymentAt url) (blocking pattern) = .ok [] := rfl
  have categories : categoryReasons platform (paymentAt url) (blocking pattern) = [] := by
    simp [categoryReasons, paymentAt, blocking, Vaduno.Sample.intent, Vaduno.Sample.policy, reasonIf]
  have uncapped : perTransactionReasons platform (paymentAt url) (blocking pattern) = .ok [] := by
    rw [perTransactionReasons]
    exact if_pos (Bool.or_true _)
  have ruled : ∀ nowMs, staticReasons platform (paymentAt url) (blocking pattern) nowMs = .ok [] := by
    intro nowMs
    rw [staticReasons, amount, currency, clear, networks, ok_bind, uncapped, ok_bind, categories]
    rfl
  have advised : ∀ nowMs, windowsVerdict platform Vaduno.Sample.outside (paymentAt url) (blocking pattern) true nowMs =
      .ok [] := fun nowMs => rfl
  rw [evaluation_eq, ruled, ok_bind, advised]
  rfl

theorem merchantHost_at (parser : HostParser platform) {id url host : JsString}
    (found : platform.hostname url = some host) : merchantHost platform ⟨id, some url⟩ = some (stripDot host) := by
  rw [merchantHost, Option.bind_some, found, Option.map_some, normalizeHost, parser.lower found]

/-- A block entry that keeps a payment out matches it. -/
theorem matches_of_guards (parser : HostParser platform) {pattern top url host : JsString}
    (guards : Guards platform pattern top) (found : platform.hostname url = some host)
    (hosted : stripDot host ≠ []) (below : AtOrBelow (stripDot host) top) :
    merchantMatches platform ⟨"a", some url⟩ pattern = true := by
  have known : merchantHost platform ⟨"a", some url⟩ = some (stripDot host) := merchantHost_at parser found
  by_contra unmatched
  rw [Bool.not_eq_true] at unmatched
  have parsed : parsedHost platform (some url) = some (stripDot host) :=
    (@parsedHost_iff platform ⟨"a", some url⟩ parser.empty _).mpr ⟨known, hosted⟩
  have clear : merchantReasons platform (paymentAt url) (blocking pattern) = [] := by
    have usable : (((blocking pattern).merchants.block.getD []).any (isHostForm platform) &&
        (parsedHost platform (paymentAt url).merchant.url).isNone) = false := by
      rw [show parsedHost platform (paymentAt url).merchant.url = some (stripDot host) from parsed]
      exact Bool.and_false _
    have unblocked : ((blocking pattern).merchants.block.getD []).any
        (merchantMatches platform (paymentAt url).merchant) = false := by
      change [pattern].any (merchantMatches platform ⟨"a", some url⟩) = false
      rw [List.any_cons, unmatched]
      rfl
    rw [merchantReasons, usable, unblocked]
    rfl
  have denied := guards.block _ _ _ _ _ _ (paymentAt_allowed clear) List.mem_cons_self known below
  cases denied

theorem count_quad (a b c d : ℕ) : (quad a b c d).count 46 = 3 := by
  have plain : ∀ n, (natText n).count 46 = 0 := fun n =>
    List.count_eq_zero.mpr (digits_natText n).no_point
  simp [quad, plain]

theorem quad_apart {a b c d a' : ℕ} (other : a ≠ a') : quad a b c d ≠ quad a' b c d := by
  intro same
  exact other (natText_injective (separated (digits_natText a).no_point (digits_natText a').no_point same).1)

/-- What ends in a dot and an address has more dots than an address. -/
theorem quad_not_below {a b c d a' b' c' d' : ℕ} : ¬(encode "." ++ quad a b c d) <:+ quad a' b' c' d' := by
  rintro ⟨front, same⟩
  have dots := congrArg (List.count 46) same
  rw [List.count_append, List.count_append, count_quad, count_quad, show (encode ".").count 46 = 1 by decide] at dots
  omega

theorem stripDot_quad (a b c d : ℕ) : stripDot (quad a b c d) = quad a b c d := by
  rw [stripDot, if_neg]
  intro dotted
  have final : (quad a b c d).getLast? = (natText d).getLast? := by
    have shape : quad a b c d = (natText a ++ 46 :: (natText b ++ 46 :: (natText c ++ [46]))) ++ natText d := by
      simp [quad]
    rw [shape, List.getLast?_append_of_ne_nil _ (natText_ne_nil d)]
  rw [final] at dotted
  exact (digits_natText d).no_point (List.mem_of_mem_getLast? dotted)

/-- What an address lies below is what every address lies below that differs in the first number alone. -/
theorem quad_below {a b c d a' : ℕ} {top : JsString} (below : (encode "." ++ top) <:+ quad a b c d) :
    (encode "." ++ top) <:+ quad a' b c d := by
  rw [show encode "." = [46] by decide] at below ⊢
  let rest := natText b ++ 46 :: (natText c ++ 46 :: natText d)
  have own : (46 :: rest) <:+ quad a b c d := List.suffix_append _ _
  have inner : ([46] ++ top) <:+ 46 :: rest := by
    obtain inner | ⟨front, outer⟩ := List.suffix_or_suffix_of_suffix below own
    · exact inner
    · cases front with
      | nil => exact outer ▸ List.suffix_refl _
      | cons u more =>
        -- a longer one would put a dot among the digits of the first number
        obtain ⟨before, whole⟩ := below
        rw [← outer, show quad a b c d = natText a ++ 46 :: rest from rfl, ← List.append_assoc] at whole
        have digits := List.append_cancel_right whole
        have point : u = 46 := by
          rw [List.cons_append, List.singleton_append] at outer
          exact (List.cons.inj outer).1
        refine absurd ?_ (digits_natText a).no_point
        rw [← digits, point]
        simp
  exact inner.trans (List.suffix_append _ _)

/-- An entry that matches a merchant matches every one at a host that is at or below its own. -/
theorem matches_at (parser : HostParser platform) {pattern url host : JsString}
    (form : isHostForm platform pattern = true) (named : entryHost platform pattern ≠ [])
    (found : platform.hostname url = some host) (below : AtOrBelow (stripDot host) (entryHost platform pattern)) :
    merchantMatches platform ⟨"a", some url⟩ pattern = true := by
  refine (matches_by_host form).mpr ⟨named, stripDot host, ?_, below⟩
  refine (@parsedHost_iff platform ⟨"a", some url⟩ parser.empty _).mpr ⟨merchantHost_at parser found, ?_⟩
  intro bare
  rw [bare] at below
  exact named (List.suffix_nil.mp below.suffix)

/-- An entry that guards a host is written as the host. -/
theorem canonical_of_guards (parser : HostParser platform) {pattern text host : JsString}
    (form : isHostForm platform pattern = true) (valid : parser.canonical text = some host)
    (guards : Guards platform pattern (stripDot host)) : entryHost platform pattern = stripDot host := by
  by_contra other
  have hosted := parser.hosted valid
  obtain ⟨url, found⟩ := parser.reached valid
  have matched := matches_of_guards parser guards found hosted (.inl rfl)
  obtain ⟨named, host', parsed, below⟩ := (matches_by_host form).mp matched
  have known := ((@parsedHost_iff platform ⟨"a", some url⟩ parser.empty _).mp parsed).1
  rw [merchantHost_at parser found, Option.some.injEq] at known
  subst known
  have under := below.resolve_left (Ne.symm other)
  by_cases address : ∃ a b c d, a < 256 ∧ b < 256 ∧ c < 256 ∧ d < 256 ∧ stripDot host = quad a b c d
  · -- an address that differs in its first number matches the entry as well
    obtain ⟨a, b, c, d, -, second, third, fourth, same⟩ := address
    obtain ⟨a', first, apart⟩ : ∃ a' < 256, a' ≠ a := by
      by_cases zero : a = 0
      · exact ⟨1, by norm_num, by omega⟩
      · exact ⟨0, by norm_num, Ne.symm zero⟩
    obtain ⟨url', found'⟩ := parser.address a' b c d first second third fourth
    rw [same] at under
    have matched' := matches_at parser form named found' (.inr (by rw [stripDot_quad]; exact quad_below under))
    obtain ⟨host', known', below'⟩ := guards.allow _ matched'
    rw [merchantHost_at parser found', stripDot_quad, Option.some.injEq] at known'
    subst known'
    rw [same] at below'
    obtain equal | below' := below'
    · exact quad_apart apart equal
    · exact quad_not_below below'
  · obtain ⟨front, shape⟩ := under
    have split : stripDot host = front ++ 46 :: entryHost platform pattern := by
      rw [← shape, show encode "." = [46] by decide]
      rfl
    obtain ⟨url', host', found', top⟩ := parser.parent found split named address
    have matched' := matches_at parser form named found' (.inl top)
    obtain ⟨host'', known', below'⟩ := guards.allow _ matched'
    rw [merchantHost_at parser found', top, Option.some.injEq] at known'
    subst known'
    have longer := below'.suffix.length_le
    rw [split, List.length_append, List.length_cons] at longer
    omega

end Guarded

/-- An entry speaks for the host it names if and only if it is written as the host is known: in lower case
and in canonical form already, up to a dot at the end. -/
theorem host_entry_guards_iff {platform : Platform} (parser : HostParser platform) {pattern host : JsString}
    (form : isHostForm platform pattern = true) (valid : parser.canonical (hostText platform pattern) = some host) :
    Guards platform pattern (stripDot host) ↔ entryHost platform pattern = stripDot host := by
  constructor
  · exact canonical_of_guards parser form valid
  · exact guards_of_canonical parser.empty form (parser.hosted valid)

namespace Hosts

def isHostUnit (u : UInt16) : Bool := 97 ≤ u && u ≤ 122 || 48 ≤ u && u ≤ 57 || u == 45 || u == 46

/-- The hosts of ASCII are their own forms, and there is one other. -/
def canonical (text : JsString) : Option JsString :=
  if text = encode "bücher.example" then some "xn--bcher-kva.example"
  else if text.all isHostUnit then some text
  else none

def platform : Platform :=
  { Networks.platform with
    hostname := fun url => if (encode "https://").isPrefixOf url then canonical (url.drop 8) else none }

theorem hostname_at (text : JsString) : platform.hostname (encode "https://" ++ text) = canonical text := by
  have marked : (encode "https://").isPrefixOf (encode "https://" ++ text) = true :=
    List.isPrefixOf_iff_prefix.mpr (List.prefix_append _ _)
  have rest : (encode "https://" ++ text).drop 8 = text := List.drop_left' (by decide)
  change (if (encode "https://").isPrefixOf (encode "https://" ++ text) then
    canonical ((encode "https://" ++ text).drop 8) else none) = canonical text
  rw [if_pos marked, rest]

theorem canonical_plain {text : JsString} (plain : text.all isHostUnit = true) : canonical text = some text := by
  rw [canonical, if_neg, if_pos plain]
  rintro rfl
  revert plain
  decide +kernel

theorem plain_of_canonical {text host : JsString} (found : canonical text = some host) :
    host.all isHostUnit = true := by
  rw [canonical] at found
  split_ifs at found with unicode plain
  · cases found
    decide +kernel
  · cases found
    exact plain

theorem plain_of_hostname {url host : JsString} (found : platform.hostname url = some host) :
    host.all isHostUnit = true := by
  change (if (encode "https://").isPrefixOf url then canonical (url.drop 8) else none) = some host at found
  split_ifs at found
  exact plain_of_canonical found

theorem lowerUnit_plain {u : UInt16} (plain : isHostUnit u = true) : lowerUnit u = u := by
  rw [lowerUnit, if_neg]
  simp only [isHostUnit, Bool.or_eq_true, Bool.and_eq_true, decide_eq_true_eq, beq_iff_eq,
    UInt16.le_iff_toNat_le, ← UInt16.toNat_inj, UInt16.reduceToNat] at plain ⊢
  omega

theorem stripDot_dotted (host : JsString) : stripDot (host ++ [46]) = host := by
  rw [stripDot, List.getLast?_concat, if_pos rfl, List.dropLast_concat]

theorem plain_natText (n : ℕ) : (natText n).all isHostUnit = true := by
  refine List.all_eq_true.mpr fun u member => ?_
  have digit := natText_digit member
  simp only [isHostUnit, Bool.or_eq_true, Bool.and_eq_true, decide_eq_true_eq, beq_iff_eq,
    UInt16.le_iff_toNat_le, UInt16.lt_iff_toNat_lt, ← UInt16.toNat_inj, UInt16.reduceToNat] at digit ⊢
  omega

theorem plain_quad (a b c d : ℕ) : (quad a b c d).all isHostUnit = true := by
  have point : isHostUnit 46 = true := by decide
  simp [quad, List.all_append, List.all_cons, plain_natText, point]

def parser : HostParser platform where
  canonical text := (canonical text).filter fun host => stripDot host ≠ []
  hosted found := by
    rw [Option.filter_eq_some_iff] at found
    exact of_decide_eq_true found.2
  reached found := by
    rw [Option.filter_eq_some_iff] at found
    exact ⟨_, (hostname_at _).trans found.1⟩
  lower found := (List.map_congr_left fun u member =>
    lowerUnit_plain (List.all_eq_true.mp (plain_of_hostname found) u member)).trans (List.map_id _)
  empty := by decide
  parent := by
    intro url host below top found shape named address
    have plain : (stripDot host).all isHostUnit = true := by
      refine List.all_eq_true.mpr fun u member => List.all_eq_true.mp (plain_of_hostname found) u ?_
      rw [stripDot] at member
      split_ifs at member
      · exact List.mem_of_mem_dropLast member
      · exact member
    rw [shape, List.all_append, List.all_cons, Bool.and_eq_true, Bool.and_eq_true] at plain
    refine ⟨encode "https://" ++ (top ++ [46]), top ++ [46], ?_, stripDot_dotted top⟩
    rw [hostname_at, canonical_plain]
    rw [List.all_append, plain.2.2]
    rfl
  address a b c d _ _ _ _ := ⟨_, (hostname_at _).trans (canonical_plain (plain_quad a b c d))⟩

theorem checked : isHostForm platform "bücher.example" = true ∧
    parser.canonical (hostText platform "bücher.example") = some "xn--bcher-kva.example" ∧
    merchantHost platform ⟨"a", some "https://bücher.example"⟩ = some "xn--bcher-kva.example" ∧
    merchantReasons platform (paymentAt "https://bücher.example") (blocking "bücher.example") = [] ∧
    stripDot "xn--bcher-kva.example" = encode "xn--bcher-kva.example" ∧
    parser.canonical (hostText platform "example.com.") = some "example.com." ∧
    isHostForm platform "example.com." = true ∧
    entryHost platform "example.com." = stripDot "example.com." := by
  decide +kernel

end Hosts

/-- A block entry with a letter outside of ASCII: the payment to its host is allowed. -/
theorem unicode_entry_unblocked :
    Hosts.parser.canonical (hostText Hosts.platform "bücher.example") = some "xn--bcher-kva.example" ∧
    merchantHost Hosts.platform ⟨"a", some "https://bücher.example"⟩ = some "xn--bcher-kva.example" ∧
    evaluation Hosts.platform Vaduno.Sample.outside (paymentAt "https://bücher.example") (blocking "bücher.example") true =
      .ok ⟨.allow, [], "p-1", 1⟩ ∧
    ¬Guards Hosts.platform "bücher.example" (stripDot "xn--bcher-kva.example") := by
  obtain ⟨-, valid, known, clear, bare, -⟩ := Hosts.checked
  have allowed := paymentAt_allowed clear
  refine ⟨valid, known, allowed, fun guards => ?_⟩
  rw [bare] at guards
  have denied := guards.block _ _ _ _ _ _ allowed List.mem_cons_self known (.inl rfl)
  cases denied

theorem dotted_entry_guards : Guards Hosts.platform "example.com." (stripDot "example.com.") := by
  obtain ⟨-, -, -, -, -, valid, form, same⟩ := Hosts.checked
  exact (host_entry_guards_iff Hosts.parser form valid).mpr same

end Vaduno.Policy
