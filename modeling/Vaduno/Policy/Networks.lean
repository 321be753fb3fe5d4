import Mathlib.Data.List.DropRight
import Vaduno.Mandate.Pq
import Vaduno.Policy.Evaluation
import Vaduno.Sample

/-! Settlement networks. An id comes from a counterparty that is not trusted, in any letter case, with
space around it, as a CAIP-2 id or as a curated name. What it names is told apart from how it is
spelled, and the lists of a policy are about what is named. -/
namespace Vaduno.Policy
open Ecma Enforce
open Mandate (isSpaceUnit)

/-! ### Trimming and folding -/

/-- Text without the white space around it. -/
def trimmed (s : JsString) : JsString := (s.dropWhile isSpaceUnit).rdropWhile isSpaceUnit

/-- Text with no white space around it. -/
structure Bare (s : JsString) : Prop where
  head : ∀ u ∈ s.head?, isSpaceUnit u = false
  last : ∀ u ∈ s.getLast?, isSpaceUnit u = false

def lowerUnit (u : UInt16) : UInt16 := if 65 ≤ u && u ≤ 90 then u + 32 else u

/-- A unit that trimming and folding leave alone. -/
def isFoldedUnit (u : UInt16) : Bool := u < 128 && lowerUnit u == u && !isSpaceUnit u

/-- How the language trims text, and what is relied on of its lower-casing. -/
structure Folds (platform : Platform) : Prop where
  trim : ∀ s, platform.trim s = trimmed s
  toLowerCase_ascii : ∀ s : JsString, (∀ u ∈ s, u < 128) → platform.toLowerCase s = s.map lowerUnit
  toLowerCase_twice : ∀ s, platform.toLowerCase (platform.toLowerCase s) = platform.toLowerCase s
  /-- White space has no case, and nothing becomes white space. -/
  toLowerCase_bare : ∀ s, Bare s → Bare (platform.toLowerCase s)

theorem trimmed_bare {s : JsString} (bare : Bare s) : trimmed s = s := by
  have front : s.dropWhile isSpaceUnit = s := by
    cases s with
    | nil => rfl
    | cons u rest =>
      rw [List.dropWhile_cons_of_neg]
      simpa using bare.head u rfl
  rw [trimmed, front, List.rdropWhile_eq_self_iff]
  intro nonempty
  simpa using bare.last _ (List.getLast?_eq_some_getLast nonempty)

theorem bare_trimmed (s : JsString) : Bare (trimmed s) := by
  constructor
  · intro u first
    -- what is left at the front after both ends were cut stood at the front after the first cut
    obtain ⟨rest, shape⟩ : ∃ rest, trimmed s = u :: rest := by
      cases held : trimmed s with
      | nil => simp [held] at first
      | cons v rest => exact ⟨rest, by simpa [held] using first⟩
    have front : (s.dropWhile isSpaceUnit).head? = some u := by
      obtain ⟨more, whole⟩ : trimmed s <+: s.dropWhile isSpaceUnit := List.rdropWhile_prefix _ _
      rw [← whole, shape]
      rfl
    have kept := List.head?_dropWhile_not isSpaceUnit s
    rw [front] at kept
    simpa using kept
  · intro u final
    have nonempty : trimmed s ≠ [] := by
      intro empty
      simp [empty] at final
    have kept := List.rdropWhile_last_not isSpaceUnit (s.dropWhile isSpaceUnit) nonempty
    rw [List.getLast?_eq_some_getLast nonempty] at final
    cases final
    exact Bool.eq_false_iff.mpr kept

theorem trimmed_padded {before body after : JsString} (bare : Bare body)
    (front : ∀ u ∈ before, isSpaceUnit u = true) (back : ∀ u ∈ after, isSpaceUnit u = true) :
    trimmed (before ++ body ++ after) = body := by
  have right : (body ++ after).rdropWhile isSpaceUnit = body := by
    have backwards : ∀ u ∈ after.reverse, isSpaceUnit u = true := fun u member => back u (List.mem_reverse.mp member)
    have own : body.rdropWhile isSpaceUnit = body :=
      List.rdropWhile_eq_self_iff.mpr fun nonempty => by
        simpa using bare.last _ (List.getLast?_eq_some_getLast nonempty)
    rw [List.rdropWhile, List.reverse_append, List.dropWhile_append_of_pos backwards]
    exact own
  rw [trimmed, List.append_assoc, List.dropWhile_append_of_pos front]
  cases body with
  | nil =>
    rw [List.nil_append, List.dropWhile_eq_nil_iff.mpr back]
    rfl
  | cons u rest =>
    rw [List.cons_append, List.dropWhile_cons_of_neg]
    · exact right
    · simpa using bare.head u rfl

/-- Text is what is left of it after trimming, between white space. -/
theorem padded_trimmed (s : JsString) : ∃ before after, s = before ++ trimmed s ++ after ∧
    (∀ u ∈ before, isSpaceUnit u = true) ∧ ∀ u ∈ after, isSpaceUnit u = true := by
  refine ⟨s.takeWhile isSpaceUnit, (s.dropWhile isSpaceUnit).rtakeWhile isSpaceUnit, ?_, ?_, ?_⟩
  · rw [List.append_assoc, trimmed, List.rdropWhile_append_rtakeWhile, List.takeWhile_append_dropWhile]
  · exact fun u member => List.mem_takeWhile_imp member
  · exact fun u member => List.mem_rtakeWhile_imp member

/-! ### What an id names -/

/-- A network, whatever its spelling. -/
inductive Chain
  | eip155 (id : ℕ)
  /-- A chain of another namespace. -/
  | caip2 (ns reference : JsString)
  /-- A rail's own name. -/
  | named (name : JsString)

/-- The curated names, with the chains that they name. -/
def curatedChains : List (JsString × ℕ) :=
  [("base", 8453), ("base-sepolia", 84532), ("avalanche", 43114), ("avalanche-fuji", 43113),
    ("polygon", 137), ("polygon-amoy", 80002), ("iotex", 4689), ("sei", 1329), ("sei-testnet", 1328)]

/-- The shape of a CAIP-2 id in lower case. -/
structure Caip2 (ns reference : JsString) : Prop where
  ns_length : 3 ≤ ns.length ∧ ns.length ≤ 8
  reference_length : 1 ≤ reference.length ∧ reference.length ≤ 32
  ns_units : ∀ u ∈ ns, isLowerAlphanumeric u = true ∨ u = 45
  reference_units : ∀ u ∈ reference, isLowerAlphanumeric u = true ∨ u = 45 ∨ u = 95

/-- The chain that an id in lower case names. An `eip155` reference is a decimal number, with any zeros
in front of it. -/
inductive Names : JsString → Chain → Prop
  | curated {name id} (listed : (name, id) ∈ curatedChains) : Names name (.eip155 id)
  | eip155 {digits} (shape : Caip2 "eip155" digits) (decimal : Digits digits) :
      Names ("eip155" ++ 58 :: digits) (.eip155 (digitsValue digits))
  | caip2 {ns reference} (shape : Caip2 ns reference) (other : ns ≠ encode "eip155") :
      Names (ns ++ 58 :: reference) (.caip2 ns reference)
  | named {name} (nonempty : name ≠ []) (plain : 58 ∉ name) (uncurated : name ∉ curatedChains.map Prod.fst) :
      Names name (.named name)

/-- An id spells a chain in any letter case, with any white space around it. -/
def Spells (platform : Platform) (text : JsString) (chain : Chain) : Prop :=
  ∃ before body after, text = before ++ body ++ after ∧ (∀ u ∈ before, isSpaceUnit u = true) ∧
    (∀ u ∈ after, isSpaceUnit u = true) ∧ Bare body ∧ Names (platform.toLowerCase body) chain

/-- The form that ids are compared in. -/
def Chain.text : Chain → JsString
  | eip155 id => "eip155:" ++ natText id
  | caip2 ns reference => ns ++ ":" ++ reference
  | named name => name

theorem v1NetworkAliases_eq :
    v1NetworkAliases = curatedChains.map fun entry => (entry.1, (Chain.eip155 entry.2).text) := by
  decide +kernel

theorem curated_plain : ∀ name ∈ curatedChains.map Prod.fst, name ≠ [] ∧ 58 ∉ name := by decide +kernel

theorem curated_nodup : (curatedChains.map Prod.fst).Nodup ∧ (curatedChains.map Prod.snd).Nodup := by
  decide +kernel

theorem cut_parts {sep : UInt16} {v : JsString} (member : sep ∈ v) : v = (cut sep v).1 ++ sep :: (cut sep v).2 := by
  induction v with
  | nil => cases member
  | cons u rest ih =>
    rw [cut]
    split_ifs with same
    · rw [same]
      rfl
    · have later : sep ∈ rest := (List.mem_cons.mp member).resolve_left fun first => same first.symm
      rw [List.cons_append, ← ih later]

theorem Caip2.colon {ns reference : JsString} (shape : Caip2 ns reference) : 58 ∉ ns :=
  fun member => absurd (shape.ns_units 58 member) (by decide)

theorem caip2_iff {v ns reference : JsString} :
    Policy.caip2 v = some (ns, reference) ↔ v = ns ++ 58 :: reference ∧ Caip2 ns reference := by
  have checked : ∀ {a b : JsString}, cut 58 v = (a, b) → (Policy.caip2 v = some (ns, reference) ↔
      58 ∈ v ∧ Caip2 a b ∧ (a, b) = (ns, reference)) := by
    intro a b parts
    simp only [Policy.caip2, parts, Bool.and_eq_true, List.contains_iff_mem, decide_eq_true_eq, List.all_eq_true,
      Bool.or_eq_true, beq_iff_eq, Option.ite_none_right_eq_some, Option.some.injEq]
    constructor
    · rintro ⟨⟨⟨⟨⟨⟨⟨colon, low⟩, high⟩, low'⟩, high'⟩, units⟩, units'⟩, same⟩
      exact ⟨colon, ⟨⟨low, high⟩, ⟨low', high'⟩, units, fun u member => or_assoc.mp (units' u member)⟩, same⟩
    · rintro ⟨colon, ⟨⟨low, high⟩, ⟨low', high'⟩, units, units'⟩, same⟩
      exact ⟨⟨⟨⟨⟨⟨⟨colon, low⟩, high⟩, low'⟩, high'⟩, units⟩, fun u member => or_assoc.mpr (units' u member)⟩, same⟩
  constructor
  · intro read
    obtain ⟨colon, shape, same⟩ := (checked rfl).mp read
    obtain ⟨rfl, rfl⟩ := Prod.mk.inj same
    exact ⟨cut_parts colon, shape⟩
  · rintro ⟨rfl, shape⟩
    exact (checked (cut_append reference shape.colon)).mpr ⟨by simp, shape, rfl⟩

/-! ### Normal forms -/

/-- The part of the normalization that comes after trimming and folding. -/
def normFolded (v : JsString) : Option JsString :=
  if v = [] then none
  else if !v.contains 58 then some ((v1NetworkAliases.lookup v).getD v)
  else do
    let (ns, reference) ← Policy.caip2 v
    if ns = encode "eip155" then
      if !(reference.all fun u => 48 ≤ u && u ≤ 57) then none
      else some ("eip155:" ++ natText (digitsValue reference))
    else some (ns ++ ":" ++ reference)

theorem normNetwork_string (platform : Platform) (value : JsString) :
    normNetwork platform (.string value) = normFolded (platform.toLowerCase (platform.trim value)) := by
  rw [normNetwork, normFolded]
  generalize platform.toLowerCase (platform.trim value) = v
  dsimp only
  by_cases empty : v = []
  · rw [if_pos empty, if_pos empty]
    rfl
  rw [if_neg empty, if_neg empty]
  by_cases plain : (!v.contains 58) = true
  · rw [if_pos plain, if_pos plain]
    rfl
  rw [if_neg plain, if_neg plain]
  cases Policy.caip2 v with
  | none => rfl
  | some parts =>
    change (if parts.1 = encode "eip155" then _ else _) = if parts.1 = encode "eip155" then _ else _
    split_ifs
    · rfl
    · rfl
    · rfl

theorem lookup_curated : ∀ entry ∈ curatedChains,
    v1NetworkAliases.lookup entry.1 = some (Chain.eip155 entry.2).text := by
  decide +kernel

theorem lookup_uncurated {name : JsString} (uncurated : name ∉ curatedChains.map Prod.fst) :
    v1NetworkAliases.lookup name = none := by
  rw [List.lookup_eq_none_iff, v1NetworkAliases_eq, List.forall_mem_map]
  intro entry member
  have other : name ≠ entry.1 := fun same => uncurated (same ▸ List.mem_map_of_mem member)
  simpa using other

theorem decimal_iff {digits : JsString} :
    (!(digits.all fun u => 48 ≤ u && u ≤ 57)) = true ↔ ¬Digits digits := by
  have bound : ∀ u : UInt16, u ≤ 57 ↔ u < 58 := by
    intro u
    rw [UInt16.le_iff_toNat_le, UInt16.lt_iff_toNat_lt]
    exact Nat.lt_succ_iff.symm
  simp [Digits, bound]

theorem normFolded_of_names {v : JsString} {chain : Chain} (names : Names v chain) :
    normFolded v = some chain.text := by
  cases names with
  | @curated name id listed =>
    obtain ⟨nonempty, plain⟩ := curated_plain v (List.mem_map_of_mem listed)
    rw [normFolded, if_neg nonempty, if_pos (by simpa using plain), lookup_curated _ listed]
    rfl
  | @eip155 digits shape decimal =>
    have parts := caip2_iff.mpr ⟨rfl, shape⟩
    rw [normFolded, if_neg (by simp), if_neg (by simp), parts, Option.bind_eq_bind, Option.bind_some]
    dsimp only
    rw [if_pos rfl, if_neg (fun bad => decimal_iff.mp bad decimal)]
    rfl
  | @caip2 ns reference shape other =>
    have parts := caip2_iff.mpr ⟨rfl, shape⟩
    rw [normFolded, if_neg (by simp), if_neg (by simp), parts, Option.bind_eq_bind, Option.bind_some]
    dsimp only
    rw [if_neg other]
    rfl
  | named nonempty plain uncurated =>
    rw [normFolded, if_neg nonempty, if_pos (by simpa using plain), lookup_uncurated uncurated]
    rfl

/-- What is normalized is what names a chain, and its normal form is the chain's. -/
theorem normFolded_iff {v t : JsString} : normFolded v = some t ↔ ∃ chain, Names v chain ∧ chain.text = t := by
  constructor
  · intro normal
    rw [normFolded] at normal
    split_ifs at normal with empty plain
    · have plain' : 58 ∉ v := by simpa using plain
      by_cases curated : v ∈ curatedChains.map Prod.fst
      · obtain ⟨⟨name, id⟩, listed, rfl⟩ := List.mem_map.mp curated
        rw [lookup_curated _ listed] at normal
        exact ⟨_, .curated listed, Option.some.inj normal⟩
      · rw [lookup_uncurated curated] at normal
        exact ⟨_, .named empty plain' curated, Option.some.inj normal⟩
    · obtain ⟨⟨ns, reference⟩, parts, formed⟩ := Option.bind_eq_some_iff.mp normal
      clear normal
      obtain ⟨rfl, shape⟩ := caip2_iff.mp parts
      dsimp only at formed
      split_ifs at formed with own decimal
      · subst own
        have digits : Digits reference := not_not.mp fun bad => decimal (decimal_iff.mpr bad)
        exact ⟨_, .eip155 shape digits, Option.some.inj formed⟩
      · exact ⟨_, .caip2 shape own, Option.some.inj formed⟩
  · rintro ⟨chain, names, rfl⟩
    exact normFolded_of_names names

/-! ### Chains and their forms -/

/-- A chain that some id names. -/
def Chain.Valid : Chain → Prop
  | eip155 _ => True
  | caip2 ns reference => Caip2 ns reference ∧ ns ≠ encode "eip155"
  | named name => 58 ∉ name

theorem Names.valid {v : JsString} {chain : Chain} (names : Names v chain) : chain.Valid := by
  cases names with
  | curated listed => trivial
  | eip155 shape decimal => trivial
  | caip2 shape other => exact ⟨shape, other⟩
  | named nonempty plain uncurated => exact plain

theorem Chain.text_eip155 (id : ℕ) : (Chain.eip155 id).text = encode "eip155" ++ 58 :: natText id := by
  rw [text, show encode "eip155:" = encode "eip155" ++ [58] by decide, List.append_assoc]
  rfl

theorem Chain.text_caip2 (ns reference : JsString) : (Chain.caip2 ns reference).text = ns ++ 58 :: reference := by
  rw [text, show encode ":" = [58] by decide, List.append_assoc]
  rfl

/-- Chains are told apart by their forms. -/
theorem Chain.text_injective {a b : Chain} (left : a.Valid) (right : b.Valid) (same : a.text = b.text) : a = b := by
  have colon : 58 ∉ encode "eip155" := by decide
  cases a with
  | eip155 id =>
    rw [text_eip155] at same
    cases b with
    | eip155 id' =>
      rw [text_eip155] at same
      rw [natText_injective (separated colon colon same).2]
    | caip2 ns reference =>
      rw [text_caip2] at same
      exact absurd (separated colon right.1.colon same).1.symm right.2
    | named name => exact absurd (show 58 ∈ name by rw [← show _ = name from same]; simp) right
  | caip2 ns reference =>
    rw [text_caip2] at same
    cases b with
    | eip155 id =>
      rw [text_eip155] at same
      exact absurd (separated left.1.colon colon same).1 left.2
    | caip2 ns' reference' =>
      rw [text_caip2] at same
      obtain ⟨rfl, rfl⟩ := separated left.1.colon right.1.colon same
      rfl
    | named name => exact absurd (show 58 ∈ name by rw [← show _ = name from same]; simp) right
  | named name =>
    cases b with
    | eip155 id =>
      rw [text_eip155] at same
      exact absurd (show 58 ∈ name by rw [show name = _ from same]; simp) left
    | caip2 ns reference =>
      rw [text_caip2] at same
      exact absurd (show 58 ∈ name by rw [show name = _ from same]; simp) left
    | named name' => exact congrArg _ same

theorem digitsValue_lt {digits : JsString} (decimal : Digits digits) : digitsValue digits < 10 ^ digits.length := by
  suffices grows : ∀ value, digits.foldl (fun value u => 10 * value + (u.toNat - 48)) value <
      (value + 1) * 10 ^ digits.length by simpa [digitsValue] using grows 0
  induction digits with
  | nil => simp
  | cons u rest ih =>
    intro value
    have unit := (decimal u List.mem_cons_self).2
    rw [UInt16.lt_iff_toNat_lt] at unit
    change u.toNat < 58 at unit
    have later := ih (fun v member => decimal v (List.mem_cons_of_mem u member)) (10 * value + (u.toNat - 48))
    rw [List.foldl_cons, List.length_cons, pow_succ]
    calc _ < (10 * value + (u.toNat - 48) + 1) * 10 ^ rest.length := later
      _ ≤ (10 * (value + 1)) * 10 ^ rest.length := Nat.mul_le_mul_right _ (by omega)
      _ = (value + 1) * (10 ^ rest.length * 10) := by ring

/-- A number is not written with more digits than it was read from. -/
theorem length_natText_le {digits : JsString} (decimal : Digits digits) (nonempty : 1 ≤ digits.length) :
    (natText (digitsValue digits)).length ≤ digits.length := by
  rw [natText_units, List.length_map]
  exact (Nat.length_toDigits_le_iff (by norm_num) nonempty).mpr (digitsValue_lt decimal)

theorem digits_alphanumeric {digits : JsString} (decimal : Digits digits) :
    ∀ u ∈ digits, isLowerAlphanumeric u = true := by
  intro u member
  obtain ⟨low, high⟩ := decimal u member
  rw [UInt16.le_iff_toNat_le] at low
  rw [UInt16.lt_iff_toNat_lt] at high
  rw [isLowerAlphanumeric, Bool.or_eq_true, Bool.and_eq_true, Bool.and_eq_true]
  right
  rw [decide_eq_true_eq, decide_eq_true_eq, UInt16.le_iff_toNat_le, UInt16.le_iff_toNat_le]
  exact ⟨low, Nat.le_of_lt_succ high⟩

theorem curated_short : ∀ entry ∈ curatedChains, (natText entry.2).length ≤ 32 := by decide +kernel

/-- The form of a chain with a number names it. -/
theorem Names.form {v : JsString} {id : ℕ} (names : Names v (.eip155 id)) :
    Names (Chain.eip155 id).text (.eip155 id) := by
  have short : (natText id).length ≤ 32 := by
    cases names with
    | curated listed => exact curated_short _ listed
    | eip155 shape decimal => exact (length_natText_le decimal shape.reference_length.1).trans shape.reference_length.2
  have decimal := digits_natText id
  have shape : Caip2 "eip155" (natText id) := by
    constructor
    · decide
    · exact ⟨List.length_pos_iff.mpr (natText_ne_nil id), short⟩
    · have units : ((encode "eip155").all isLowerAlphanumeric) = true := by decide
      exact fun u member => .inl (List.all_eq_true.mp units u member)
    · exact fun u member => .inl (digits_alphanumeric decimal u member)
  have whole := Names.eip155 shape decimal
  rwa [digitsValue_natText, ← Chain.text_eip155] at whole

/-! ### Ids and their forms -/

section Forms
variable {platform : Platform} (folds : Folds platform)
include folds

/-- An id has a normal form exactly if it spells a chain, and the form is the chain's. -/
theorem normNetwork_iff {text t : JsString} :
    normNetwork platform (.string text) = some t ↔ ∃ chain, Spells platform text chain ∧ chain.text = t := by
  rw [normNetwork_string, folds.trim, normFolded_iff]
  constructor
  · rintro ⟨chain, names, formed⟩
    obtain ⟨before, after, shape, front, back⟩ := padded_trimmed text
    exact ⟨chain, ⟨before, trimmed text, after, shape, front, back, bare_trimmed text, names⟩, formed⟩
  · rintro ⟨chain, ⟨before, body, after, rfl, front, back, bare, names⟩, formed⟩
    rw [trimmed_padded bare front back]
    exact ⟨chain, names, formed⟩

theorem normNetwork_of_spells {text : JsString} {chain : Chain} (spells : Spells platform text chain) :
    normNetwork platform (.string text) = some chain.text :=
  (normNetwork_iff folds).mpr ⟨chain, spells, rfl⟩

/-- Two ids have one normal form exactly if they spell one chain. -/
theorem normNetwork_eq_iff {a b : JsString} {chain chain' : Chain} (left : Spells platform a chain)
    (right : Spells platform b chain') :
    normNetwork platform (.string a) = normNetwork platform (.string b) ↔ chain = chain' := by
  have valid : ∀ {text : JsString} {c : Chain}, Spells platform text c → c.Valid := by
    rintro text c ⟨_, _, _, -, -, -, -, names⟩
    exact names.valid
  rw [normNetwork_of_spells folds left, normNetwork_of_spells folds right, Option.some.injEq]
  constructor
  · exact Chain.text_injective (valid left) (valid right)
  · rintro rfl
    rfl

omit folds in
theorem isFoldedUnit_digit {u : UInt16} (digit : 48 ≤ u ∧ u < 58) : isFoldedUnit u = true := by
  simp only [UInt16.le_iff_toNat_le, UInt16.lt_iff_toNat_lt, UInt16.reduceToNat] at digit
  have upper : (65 ≤ u && u ≤ 90) = false := by
    simp only [Bool.and_eq_false_iff, decide_eq_false_iff_not, UInt16.le_iff_toNat_le, UInt16.reduceToNat]
    omega
  have space : isSpaceUnit u = false := by
    simp only [isSpaceUnit, Bool.or_eq_false_iff, Bool.and_eq_false_iff, decide_eq_false_iff_not,
      UInt16.le_iff_toNat_le, ← UInt16.toNat_inj, UInt16.reduceToNat]
    omega
  have ascii : u < 128 := by
    simp only [UInt16.lt_iff_toNat_lt, UInt16.reduceToNat]
    omega
  simp [isFoldedUnit, lowerUnit, upper, space, ascii]

/-- Text of folded units is trimmed and folded. -/
theorem folded_units {s : JsString} (units : s.all isFoldedUnit = true) :
    Bare s ∧ platform.toLowerCase s = s := by
  have each : ∀ u ∈ s, u < 128 ∧ lowerUnit u = u ∧ isSpaceUnit u = false := by
    intro u member
    simpa [isFoldedUnit, and_assoc] using List.all_eq_true.mp units u member
  constructor
  · constructor
    · exact fun u first => (each u (List.mem_of_mem_head? first)).2.2
    · exact fun u final => (each u (List.mem_of_mem_getLast? final)).2.2
  · rw [folds.toLowerCase_ascii _ fun u member => (each u member).1]
    exact (List.map_congr_left fun u member => (each u member).2.1).trans (List.map_id s)

theorem folded_form (id : ℕ) : Bare (Chain.eip155 id).text ∧
    platform.toLowerCase (Chain.eip155 id).text = (Chain.eip155 id).text := by
  apply folded_units folds
  have checked : ((encode "eip155").all isFoldedUnit && isFoldedUnit 58) = true := by decide
  rw [Bool.and_eq_true] at checked
  rw [Chain.text_eip155, List.all_append, List.all_cons, checked.1, checked.2, List.all_eq_true.mpr]
  · rfl
  · exact fun u member => isFoldedUnit_digit (natText_digit member)

omit folds in
/-- Other ids are their own forms once they are folded. -/
theorem Names.own {v : JsString} {chain : Chain} (names : Names v chain) (other : ∀ id, chain ≠ .eip155 id) :
    chain.text = v := by
  cases names with
  | curated listed => exact absurd rfl (other _)
  | eip155 shape decimal => exact absurd rfl (other _)
  | caip2 shape _ => exact Chain.text_caip2 _ _
  | named nonempty plain uncurated => rfl

theorem normNetwork_twice {value : JsValue} {t : JsString} (normal : normNetwork platform value = some t) :
    normNetwork platform (.string t) = some t := by
  obtain ⟨text, rfl⟩ : ∃ text, value = .string text := by
    cases value with
    | string text => exact ⟨text, rfl⟩
    | _ => cases normal
  rw [normNetwork_string, folds.trim] at normal
  obtain ⟨chain, names, rfl⟩ := normFolded_iff.mp normal
  rw [normNetwork_string, folds.trim]
  by_cases numbered : ∃ id, chain = .eip155 id
  · obtain ⟨id, rfl⟩ := numbered
    obtain ⟨bare, lower⟩ := folded_form folds id
    rw [trimmed_bare bare, lower]
    exact normFolded_of_names names.form
  · have own := names.own fun id same => numbered ⟨id, same⟩
    rw [own, trimmed_bare (folds.toLowerCase_bare _ (bare_trimmed text)), folds.toLowerCase_twice, normal, own]

omit folds in
theorem curated_checked : (∀ entry ∈ curatedChains, entry.1.all isFoldedUnit = true) ∧
    ∀ a ∈ curatedChains, ∀ b ∈ curatedChains, a.2 = b.2 → a.1 = b.1 := by
  decide +kernel

theorem spells_curated {entry : JsString × ℕ} (listed : entry ∈ curatedChains) :
    Spells platform entry.1 (.eip155 entry.2) := by
  obtain ⟨bare, lower⟩ := folded_units folds (curated_checked.1 entry listed)
  refine ⟨[], entry.1, [], (List.append_nil _).symm, List.forall_mem_nil _, List.forall_mem_nil _, bare, ?_⟩
  rw [lower]
  exact .curated listed

/-- Different curated names have different normal forms. -/
theorem curated_apart {a b : JsString × ℕ} (left : a ∈ curatedChains) (right : b ∈ curatedChains)
    (other : a.1 ≠ b.1) : normNetwork platform (.string a.1) ≠ normNetwork platform (.string b.1) := by
  intro same
  have chains := (normNetwork_eq_iff folds (spells_curated folds left) (spells_curated folds right)).mp same
  exact other (curated_checked.2 a left b right (Chain.eip155.inj chains))

end Forms

/-! ### The lists of a policy -/

def networkCodes : List JsString :=
  ["NETWORK_POLICY_INVALID", "NETWORK_UNPARSEABLE", "NETWORK_MISSING", "NETWORK_BLOCKED", "NETWORK_NOT_ALLOWED"]

/-- The network that an intent states. -/
def stated (intent : PaymentIntent) : JsValue := (intent.network.map JsValue.string).getD .undefined

/-- A policy that has a list of networks, of either kind. -/
def Constrained (policy : SpendPolicy) : Prop :=
  policy.networks.allow.isSome = true ∨ policy.networks.block.isSome = true

section Lists
variable {platform : Platform} {intent : PaymentIntent} {policy : SpendPolicy}

/-- A network that some list refuses, and one without a normal form, give a reason. -/
theorem network_refused {reasons : List PolicyReason} (constrained : Constrained policy)
    (ruled : networkReasons platform intent policy = .ok reasons)
    (refused : ∀ network, normNetwork platform (stated intent) = some network →
      (∃ entry ∈ policy.networks.block.getD [], normNetwork platform entry = some network) ∨
      ∃ allow, policy.networks.allow = some allow ∧ ∀ entry ∈ allow, normNetwork platform entry ≠ some network) :
    ∃ reason ∈ reasons, reason.code ∈ networkCodes := by
  have declared : ¬(policy.networks.allow.isNone && policy.networks.block.isNone) = true := by
    obtain allow | block := constrained
    · cases held : policy.networks.allow with
      | none => simp [held] at allow
      | some _ => exact Bool.false_ne_true
    · cases held : policy.networks.block with
      | none => simp [held] at block
      | some _ => simp
  rw [networkReasons, if_neg declared] at ruled
  dsimp only at ruled
  by_cases unusable : List.filter (fun n => (normNetwork platform n).isNone)
      (policy.networks.allow.getD [] ++ policy.networks.block.getD []) ≠ []
  · rw [if_pos unusable] at ruled
    obtain ⟨entries, -, ruled⟩ := bind_ok ruled
    cases ruled
    exact ⟨_, List.mem_singleton_self _, by simp [networkCodes]⟩
  rw [if_neg unusable] at ruled
  rw [← stated] at ruled
  cases normal : normNetwork platform (stated intent) with
  | none =>
    rw [normal] at ruled
    dsimp only at ruled
    split_ifs at ruled
    · obtain ⟨entry, -, ruled⟩ := bind_ok ruled
      cases ruled
      exact ⟨_, List.mem_singleton_self _, by simp [networkCodes]⟩
    · obtain ⟨entry, -, ruled⟩ := bind_ok ruled
      cases ruled
      exact ⟨_, List.mem_singleton_self _, by simp [networkCodes]⟩
  | some network =>
    rw [normal] at ruled
    cases ruled
    obtain ⟨entry, member, same⟩ | ⟨allow, listed, apart⟩ := refused network normal
    · have blocked : ((policy.networks.block.getD []).any fun n => normNetwork platform n == some network) = true :=
        List.any_eq_true.mpr ⟨entry, member, by simp [same]⟩
      rw [blocked]
      exact ⟨_, List.mem_append_left _ List.mem_cons_self, by simp [networkCodes]⟩
    · have missing : (!allow.any fun n => normNetwork platform n == some network) = true := by
        simpa using apart
      rw [listed]
      dsimp only
      rw [missing]
      exact ⟨_, List.mem_append_right _ List.mem_cons_self, by simp [networkCodes]⟩

theorem entryJson_text (text : Option JsString) : ∃ json, entryJson ((text.map JsValue.string).getD .undefined) = .ok json := by
  cases text with
  | none => exact ⟨_, rfl⟩
  | some text => exact ⟨_, rfl⟩

theorem mapM_total {α β : Type} {f : α → Throwing β} {items : List α} (each : ∀ item ∈ items, ∃ b, f item = .ok b) :
    ∃ bs, items.mapM f = .ok bs := by
  induction items with
  | nil => exact ⟨[], rfl⟩
  | cons item rest ih =>
    rw [List.forall_mem_cons] at each
    obtain ⟨⟨b, first⟩, others⟩ := each
    obtain ⟨bs, later⟩ := ih others
    refine ⟨b :: bs, ?_⟩
    rw [List.mapM_cons, first, later]
    rfl

/-- The rules for networks do not throw where every entry is text. -/
theorem networkReasons_total
    (texts : ∀ entry ∈ policy.networks.allow.getD [] ++ policy.networks.block.getD [], ∃ text, entry = .string text) :
    ∃ reasons, networkReasons platform intent policy = .ok reasons := by
  rw [networkReasons]
  by_cases free : (policy.networks.allow.isNone && policy.networks.block.isNone) = true
  · rw [if_pos free]
    exact ⟨_, rfl⟩
  rw [if_neg free]
  dsimp only
  by_cases unusable : List.filter (fun n => (normNetwork platform n).isNone)
      (policy.networks.allow.getD [] ++ policy.networks.block.getD []) ≠ []
  · rw [if_pos unusable]
    obtain ⟨entries, written⟩ : ∃ entries, (List.filter (fun n => (normNetwork platform n).isNone)
        (policy.networks.allow.getD [] ++ policy.networks.block.getD [])).mapM entryJson = .ok entries := by
      refine mapM_total fun entry member => ?_
      obtain ⟨text, rfl⟩ := texts entry (List.mem_of_mem_filter member)
      exact entryJson_text (some text)
    rw [written]
    exact ⟨_, rfl⟩
  rw [if_neg unusable]
  obtain ⟨json, written⟩ := entryJson_text intent.network
  rw [written]
  split
  · split_ifs
    · exact ⟨_, rfl⟩
    · exact ⟨_, rfl⟩
  · exact ⟨_, rfl⟩

end Lists

/-- A reason of the network rules is a reason of the evaluation, which denies. -/
theorem network_reason_denies {platform : Platform} {answer : (op : Op) → op.Answer} {intent : PaymentIntent}
    {policy : SpendPolicy} {countsMerchants : Bool} {result : PolicyResult}
    (decided : evaluation platform answer intent policy countsMerchants = .ok result)
    (given : ∀ reasons, networkReasons platform intent policy = .ok reasons →
      ∃ reason ∈ reasons, reason.code ∈ networkCodes) :
    result.decision = .deny ∧ ∃ reason ∈ result.reasons, reason.code ∈ networkCodes := by
  obtain ⟨reasons, advice, ruled, -, -⟩ := evaluation_ok decided
  obtain ⟨networks, amounts, named, -, rfl⟩ := staticReasons_ok ruled
  obtain ⟨reason, member, code⟩ := given networks named
  obtain ⟨denied, reported⟩ := denied_of_reason reason decided fun reasons' ruled' => by
    rw [ruled] at ruled'
    cases ruled'
    simp [member]
  exact ⟨denied, reason, reported, code⟩

/-- A policy's lists are about the chains that ids spell. A blocked chain is denied in every spelling, and
so is an id that spells none; an allow list lets through only what has the normal form of an entry; an id
has a normal form exactly if it spells a chain, chains are told apart by theirs, the curated names among
them, and a normal form is its own. -/
theorem networks_not_respelled {platform : Platform} (folds : Folds platform) :
    (∀ answer intent policy countsMerchants result,
      evaluation platform answer intent policy countsMerchants = .ok result →
      (∀ text entry chain, intent.network = some text → .string entry ∈ policy.networks.block.getD [] →
        Spells platform text chain → Spells platform entry chain → result.decision = .deny) ∧
      (Constrained policy → (∀ text chain, intent.network = some text → ¬Spells platform text chain) →
        result.decision = .deny) ∧
      ∀ allow, policy.networks.allow = some allow → (∀ reason ∈ result.reasons, reason.code ∉ networkCodes) →
        ∃ text network, intent.network = some text ∧ normNetwork platform (.string text) = some network ∧
          ∃ entry ∈ allow, normNetwork platform entry = some network) ∧
    (∀ intent policy, (∀ entry ∈ policy.networks.allow.getD [] ++ policy.networks.block.getD [],
        ∃ text, entry = .string text) → ∃ reasons, networkReasons platform intent policy = .ok reasons) ∧
    (∀ text form, normNetwork platform (.string text) = some form ↔
      ∃ chain, Spells platform text chain ∧ chain.text = form) ∧
    (∀ a b chain chain', Spells platform a chain → Spells platform b chain' →
      (normNetwork platform (.string a) = normNetwork platform (.string b) ↔ chain = chain')) ∧
    (∀ a ∈ v1NetworkAliases, ∀ b ∈ v1NetworkAliases, a.1 ≠ b.1 →
      normNetwork platform (.string a.1) ≠ normNetwork platform (.string b.1)) ∧
    ∀ value form, normNetwork platform value = some form → normNetwork platform (.string form) = some form := by
  refine ⟨?_, fun intent policy => networkReasons_total, fun text form => normNetwork_iff folds,
    fun a b chain chain' => normNetwork_eq_iff folds, ?_, fun value form => normNetwork_twice folds⟩
  · intro answer intent policy countsMerchants result decided
    refine ⟨?_, ?_, ?_⟩
    · intro text entry chain named listed spells spelt
      have constrained : Constrained policy := by
        right
        cases held : policy.networks.block with
        | none => simp [held] at listed
        | some block => rfl
      have form : normNetwork platform (stated intent) = some chain.text := by
        rw [stated, named]
        exact normNetwork_of_spells folds spells
      refine (network_reason_denies decided fun reasons ruled => ?_).1
      refine network_refused constrained ruled fun network normal => .inl ⟨_, listed, ?_⟩
      rw [normNetwork_of_spells folds spelt, ← normal, form]
    · intro constrained unspelt
      refine (network_reason_denies decided fun reasons ruled => ?_).1
      refine network_refused constrained ruled fun network normal => ?_
      cases named : intent.network with
      | none =>
        rw [stated, named] at normal
        cases normal
      | some text =>
        rw [stated, named] at normal
        obtain ⟨chain, spells, -⟩ := (normNetwork_iff folds).mp normal
        exact absurd spells (unspelt text chain named)
    · intro allow listed clean
      by_contra outside
      obtain ⟨-, reason, reported, code⟩ := network_reason_denies decided fun reasons ruled => by
        refine network_refused (.inl (by rw [listed]; rfl)) ruled fun network normal => .inr ⟨allow, listed, ?_⟩
        intro entry member same
        cases named : intent.network with
        | none =>
          rw [stated, named] at normal
          cases normal
        | some text =>
          rw [stated, named] at normal
          exact outside ⟨text, network, named, normal, entry, member, same⟩
      exact clean reason reported code
  · rw [v1NetworkAliases_eq]
    intro a left b right other
    obtain ⟨a', left', rfl⟩ := List.mem_map.mp left
    obtain ⟨b', right', rfl⟩ := List.mem_map.mp right
    exact curated_apart folds left' right' other

namespace Networks

/-- A platform that trims as the language does and folds the letters of ASCII. -/
def platform : Platform :=
  { Vaduno.Sample.platform with
    toLowerCase := List.map lowerUnit
    trim := trimmed }

theorem lowerUnit_upper {u : UInt16} (upper : (65 ≤ u && u ≤ 90) = true) :
    lowerUnit (u + 32) = u + 32 ∧ isSpaceUnit (u + 32) = false := by
  rw [Bool.and_eq_true, decide_eq_true_eq, decide_eq_true_eq, UInt16.le_iff_toNat_le, UInt16.le_iff_toNat_le] at upper
  have sum : (u + 32).toNat = u.toNat + 32 := by
    rw [UInt16.toNat_add]
    exact Nat.mod_eq_of_lt (by have := upper.2; simp only [UInt16.reduceToNat] at this ⊢; omega)
  simp only [UInt16.reduceToNat] at upper
  constructor
  · rw [lowerUnit, if_neg]
    simp only [Bool.and_eq_true, decide_eq_true_eq, UInt16.le_iff_toNat_le, sum, UInt16.reduceToNat]
    omega
  · simp only [isSpaceUnit, Bool.or_eq_false_iff, Bool.and_eq_false_iff, decide_eq_false_iff_not,
      UInt16.le_iff_toNat_le, ← UInt16.toNat_inj, sum, UInt16.reduceToNat]
    omega

theorem lowerUnit_kept (u : UInt16) : lowerUnit (lowerUnit u) = lowerUnit u ∧
    (isSpaceUnit u = false → isSpaceUnit (lowerUnit u) = false) := by
  by_cases upper : (65 ≤ u && u ≤ 90) = true
  · obtain ⟨twice, space⟩ := lowerUnit_upper upper
    rw [show lowerUnit u = u + 32 from if_pos upper]
    exact ⟨twice, fun _ => space⟩
  · rw [show lowerUnit u = u from if_neg upper]
    exact ⟨if_neg upper, id⟩

theorem folds : Folds platform where
  trim s := rfl
  toLowerCase_ascii s _ := rfl
  toLowerCase_twice s := by
    change (s.map lowerUnit).map lowerUnit = s.map lowerUnit
    rw [List.map_map]
    exact List.map_congr_left fun u _ => (lowerUnit_kept u).1
  toLowerCase_bare s bare := by
    constructor
    · intro u first
      obtain ⟨v, held, rfl⟩ := Option.map_eq_some_iff.mp (List.head?_map ▸ first)
      exact (lowerUnit_kept v).2 (bare.head v held)
    · intro u final
      obtain ⟨v, held, rfl⟩ := Option.map_eq_some_iff.mp (List.getLast?_map ▸ final)
      exact (lowerUnit_kept v).2 (bare.last v held)

/-- A policy that blocks one chain, and a payment on it that spells it otherwise. -/
def policy : SpendPolicy :=
  { Vaduno.Sample.policy with networks := ⟨none, some [.string "EIP155:0084532"]⟩ }

def intent : PaymentIntent := { Vaduno.Sample.intent "i-1" with network := some " Base-Sepolia " }

theorem checked : trimmed " Base-Sepolia " = encode "Base-Sepolia" ∧
    trimmed "EIP155:0084532" = encode "EIP155:0084532" ∧
    platform.toLowerCase "Base-Sepolia" = encode "base-sepolia" ∧
    platform.toLowerCase "EIP155:0084532" = encode "eip155" ++ 58 :: encode "0084532" ∧
    (encode "base-sepolia", 84532) ∈ curatedChains ∧ digitsValue "0084532" = 84532 ∧
    ((encode "0084532").all fun u => 48 ≤ u && u < 58) = true ∧
    ((encode "eip155").all isLowerAlphanumeric) = true ∧
    (evaluation platform Vaduno.Sample.outside intent policy true).toOption.isSome = true := by
  decide +kernel

theorem intent_spells : Spells platform " Base-Sepolia " (.eip155 84532) := by
  obtain ⟨body, -, lower, -, listed, -⟩ := checked
  have shape : encode " Base-Sepolia " = [32] ++ encode "Base-Sepolia" ++ [32] := by decide
  refine ⟨[32], "Base-Sepolia", [32], shape, List.forall_mem_singleton.mpr (by decide),
    List.forall_mem_singleton.mpr (by decide), ?_, ?_⟩
  · rw [← body]
    exact bare_trimmed _
  · rw [lower]
    exact .curated listed

theorem entry_spells : Spells platform "EIP155:0084532" (.eip155 84532) := by
  obtain ⟨-, body, -, lower, -, value, decimal, letters, -⟩ := checked
  have digits : Digits (encode "0084532") := by
    intro u member
    simpa using List.all_eq_true.mp decimal u member
  refine ⟨[], "EIP155:0084532", [], (List.append_nil _).symm, List.forall_mem_nil _, List.forall_mem_nil _, ?_, ?_⟩
  · rw [← body]
    exact bare_trimmed _
  · rw [lower, ← value]
    refine .eip155 ⟨by decide, by decide, ?_, ?_⟩ digits
    · exact fun u member => .inl (List.all_eq_true.mp letters u member)
    · exact fun u member => .inl (digits_alphanumeric digits u member)

end Networks

/-- A chain that is blocked by its number, with zeros in front, is blocked by its name. -/
theorem named_chain_denied : ∃ result,
    evaluation Networks.platform Vaduno.Sample.outside Networks.intent Networks.policy true = .ok result ∧
      result.decision = .deny := by
  obtain ⟨result, decided⟩ := Option.isSome_iff_exists.mp Networks.checked.2.2.2.2.2.2.2.2
  have denied := ((networks_not_respelled Networks.folds).1 _ _ _ _ _ (of_toOption decided)).1 " Base-Sepolia "
    "EIP155:0084532" (.eip155 84532) rfl List.mem_cons_self Networks.intent_spells Networks.entry_spells
  exact ⟨result, of_toOption decided, denied⟩

end Vaduno.Policy
