import Vaduno.Policy.Engine

/-! The record of what an EIP-712 digest covers: the fields of the domain, and those of the structs that
are met on the way from the primary type. References are resolved as the hasher of the typed data resolves
them, of which the record's walk is a copy. -/
namespace Vaduno.Cloudflare
open Ecma
open Policy (member)

/-- A request to sign typed data; `types` has its own properties. -/
structure TypedDataRequest where
  domain : JsValue
  types : List (JsString × JsValue)
  primaryType : JsValue
  message : JsValue

/-- The fields of a struct, where the name is declared as a list. What `types` inherits is no list. -/
def declaration (types : List (JsString × JsValue)) (name : JsString) : Option (List JsValue) :=
  match types.lookup name with
  | some (.array fields) => some fields
  | _ => none

/-- `String(f?.name)`. -/
def fieldName (field : JsValue) : Throwing JsString := (member "name" field).stringOf

/-- `String(f?.type ?? "")`. -/
def fieldType (field : JsValue) : Throwing JsString :=
  match member "type" field with
  | .undefined | .null => .ok []
  | type => type.stringOf

def structNestingLimit : ℕ := 32
def arrayNestingLimit : ℕ := 32

/-- Where a unit is last. -/
def lastIndexOf (u : UInt16) (s : JsString) : Option ℕ := (s.reverse.findIdx? (· = u)).map (s.length - 1 - ·)

section Types
variable (types : List (JsString × JsValue))

/-- The declared name that the first `length` units of a type are, found without slicing. -/
def declaredPrefix (type : JsString) (length : ℕ) : Option JsString :=
  (types.map Prod.fst).find? fun key =>
    decide (key.length = length) && key.isPrefixOf type && (declaration types key).isSome

/-- The loop over the array suffixes of a type, for as many levels as are left. -/
def resolveFrom (type : JsString) : ℕ → ℕ → Throwing (Option JsString)
  | 0, _ => .error (.error ("type reference \"" ++ type.take 40 ++ "…\" nests more than " ++
      natText arrayNestingLimit ++ " array levels; the committed-field record cannot be derived for it"))
  | levels + 1, length =>
    match declaredPrefix types type length with
    | some hit => .ok (some hit)
    | none =>
      if length = 0 ∨ type[length - 1]? ≠ some 93 then .ok none
      else
        match lastIndexOf 91 (type.take length) with
        | none | some 0 => .ok none
        | some (i + 1) => resolveFrom type levels (i + 1)

/-- The key of `types` that a field of the type hashes against, if there is one. -/
def resolveStructRef (type : JsString) : Throwing (Option JsString) :=
  resolveFrom types type (arrayNestingLimit + 1) type.length

/-- The structs that were recorded, in the order they were met in. -/
abbrev StructRecord := List (JsString × List JsString)

/-- `Object.hasOwn(struct, name)`. -/
def StructRecord.has (struct : StructRecord) (name : JsString) : Bool := struct.any (·.1 = name)

/-- Records a struct and all that it refers to, unless it has been recorded, with as many levels of
references left. -/
def visit (primaryType : JsString) : ℕ → JsString → StructRecord → Throwing StructRecord
  | 0, name, struct =>
    if struct.has name then .ok struct
    else .error (.error ("struct references from \"" ++ primaryType.take 40 ++ "\" nest more than " ++
      natText structNestingLimit ++ " levels deep; the committed-field record cannot be derived " ++
      "without silently omitting the structs past that depth"))
  | levels + 1, name, struct =>
    if struct.has name then .ok struct
    else
      match declaration types name with
      | none => .ok struct
      | some fields => do
        let names ← fields.mapM fieldName
        fields.foldlM (fun struct field => do
          match ← resolveStructRef types (← fieldType field) with
          | some ref => if ref ≠ "EIP712Domain" then visit primaryType levels ref struct else return struct
          | none => return struct) (struct ++ [(name, names)])

end Types

/-- What the digest covers. -/
structure CommittedFields where
  domain : List JsString
  struct : StructRecord

structure TypeField where
  name : JsString
  type : JsString

section Domain
-- `getTypesForEIP712Domain`: the fields that are inferred of a domain
variable (inferDomain : JsValue → Throwing (List TypeField))

def committedDomainFields (typed : TypedDataRequest) : Throwing (List TypeField) :=
  match declaration typed.types "EIP712Domain" with
  | some fields => fields.mapM fun field =>
      return ⟨← fieldName field, ← (member "type" field).stringOf⟩
  | none => inferDomain typed.domain

def committedFieldSet (typed : TypedDataRequest) : Throwing CommittedFields := do
  let domain ← committedDomainFields inferDomain typed
  let primaryType ← typed.primaryType.stringOf
  let struct ← visit typed.types primaryType (structNestingLimit + 1) primaryType []
  return ⟨domain.map TypeField.name, struct⟩

end Domain

/-! ### References as the hasher resolves them -/

/-- How the hasher of typed data takes the element type of an array type: at the last bracket that opens,
whatever lies between it and the bracket at the end. Nothing is known of types in which no bracket opens
after some name. -/
structure Hasher where
  element : JsString → Option JsString
  plain : ∀ type : JsString, type.getLast? ≠ some 93 → element type = none
  strips : ∀ (type : JsString) (i : ℕ), type.getLast? = some 93 → lastIndexOf 91 type = some i → 0 < i →
    element type = some (type.take i)

section References
variable (hasher : Hasher) (types : List (JsString × JsValue))

/-- A type names a struct: by its own name or, where that is not declared, by its element type. A name
that is declared as something other than a list has no hash. -/
inductive Names : JsString → JsString → Prop
  | declared {type : JsString} (listed : (declaration types type).isSome) : Names type type
  | element {type inner name : JsString} (other : declaration types type = none)
      (stripped : hasher.element type = some inner) (names : Names inner name) : Names type name

/-- A struct has a field of a type that names another. -/
def Refers (name ref : JsString) : Prop :=
  ∃ fields, declaration types name = some fields ∧ ∃ field ∈ fields, ∃ type, fieldType field = .ok type ∧
    Names hasher types type ref

/-- The structs that are met on the way from one of them, where only some references are followed. -/
inductive Reached (follows : JsString → Prop) (primary : JsString) : JsString → Prop
  | primary (listed : (declaration types primary).isSome) : Reached follows primary primary
  | field {name ref : JsString} (reached : Reached follows primary name) (refers : Refers hasher types name ref)
      (followed : follows ref) : Reached follows primary ref

/-- Stripping a type comes to another one. -/
inductive Strips (type : JsString) : JsString → Prop
  | whole : Strips type type
  | suffix {inner : JsString} {i : ℕ} (strips : Strips type inner) (ends : inner.getLast? = some 93)
      (opens : lastIndexOf 91 inner = some i) : Strips type (inner.take i)

/-- Wherever an array suffix ends, it opens after some name. -/
def Regular (type : JsString) : Prop :=
  ∀ inner, Strips type inner → inner.getLast? = some 93 → ∃ i, lastIndexOf 91 inner = some i ∧ 0 < i

/-- The types of all fields are regular. -/
def RegularTypes : Prop :=
  ∀ name fields, declaration types name = some fields → ∀ field ∈ fields, ∀ type, fieldType field = .ok type →
    Regular type

end References

section Resolve
variable {hasher : Hasher} {types : List (JsString × JsValue)}

theorem declaration_mem {name : JsString} {fields : List JsValue} (listed : declaration types name = some fields) :
    (name, .array fields) ∈ types := by
  unfold declaration at listed
  split at listed
  · rename_i found
    cases listed
    obtain ⟨front, back, rfl, -⟩ := List.lookup_eq_some_iff.mp found
    simp
  · cases listed

theorem declaredPrefix_iff {type : JsString} {length : ℕ} (within : length ≤ type.length) {key : JsString} :
    declaredPrefix types type length = some key ↔
      key = type.take length ∧ (declaration types (type.take length)).isSome := by
  have candidate : ∀ key : JsString,
      (fun key : JsString =>
        decide (key.length = length) && key.isPrefixOf type && (declaration types key).isSome) key = true ↔
        key = type.take length ∧ (declaration types (type.take length)).isSome := by
    intro key
    dsimp only
    rw [Bool.and_eq_true, Bool.and_eq_true, decide_eq_true_eq, List.isPrefixOf_iff_prefix, List.prefix_iff_eq_take]
    constructor
    · rintro ⟨⟨rfl, same⟩, listed⟩
      rw [← same]
      exact ⟨rfl, listed⟩
    · rintro ⟨rfl, listed⟩
      rw [List.length_take, Nat.min_eq_left within]
      exact ⟨⟨rfl, rfl⟩, listed⟩
  constructor
  · intro found
    have accepted := List.find?_some found
    exact (candidate key).mp accepted
  · rintro ⟨rfl, listed⟩
    obtain ⟨fields, declared⟩ := Option.isSome_iff_exists.mp listed
    cases found : declaredPrefix types type length with
    | none =>
      have refused := List.find?_eq_none.mp found _ (List.mem_map_of_mem (declaration_mem declared))
      exact absurd ((candidate _).mpr ⟨rfl, listed⟩) refused
    | some other =>
      have accepted := List.find?_some found
      rw [((candidate other).mp accepted).1]

theorem lastIndexOf_le {u : UInt16} {s : JsString} {i : ℕ} (found : lastIndexOf u s = some i) : i ≤ s.length := by
  obtain ⟨j, -, rfl⟩ := Option.map_eq_some_iff.mp found
  omega

theorem Strips.trans {type inner last : JsString} (first : Strips type inner) (second : Strips inner last) :
    Strips type last := by
  induction second with
  | whole => exact first
  | suffix _ ends opens ih => exact .suffix ih ends opens

/-- A type that is declared names itself alone. -/
theorem names_declared {type name : JsString} (listed : (declaration types type).isSome) :
    Names hasher types type name ↔ name = type := by
  constructor
  · intro names
    cases names with
    | declared => rfl
    | element other =>
      rw [other] at listed
      cases listed
  · rintro rfl
    exact .declared listed

/-- Any other type names what its element type names. -/
theorem names_other {type name : JsString} (other : declaration types type = none) :
    Names hasher types type name ↔ ∃ inner, hasher.element type = some inner ∧ Names hasher types inner name := by
  constructor
  · intro names
    cases names with
    | declared listed =>
      rw [other] at listed
      cases listed
    | element _ stripped names => exact ⟨_, stripped, names⟩
  · rintro ⟨inner, stripped, names⟩
    exact .element other stripped names

/-- The walk over the suffixes finds what the hasher finds. -/
theorem resolveFrom_ok {type : JsString} {levels length : ℕ} {found : Option JsString}
    (resolved : resolveFrom types type levels length = .ok found) (within : length ≤ type.length)
    (regular : Regular (type.take length)) {name : JsString} :
    Names hasher types (type.take length) name ↔ found = some name := by
  induction levels generalizing length with
  | zero => cases resolved
  | succ levels ih =>
    rw [resolveFrom] at resolved
    cases hit : declaredPrefix types type length with
    | some key =>
      rw [hit] at resolved
      cases resolved
      obtain ⟨rfl, listed⟩ := (declaredPrefix_iff within).mp hit
      rw [names_declared listed, Option.some.injEq, eq_comm]
    | none =>
      have other : declaration types (type.take length) = none := by
        by_contra listed
        have refound := (declaredPrefix_iff within).mpr ⟨rfl, Option.isSome_iff_ne_none.mpr listed⟩
        rw [hit] at refound
        cases refound
      rw [hit] at resolved
      rw [names_other other]
      dsimp only at resolved
      have last : (type.take length).getLast? = some 93 ↔ ¬(length = 0 ∨ type[length - 1]? ≠ some 93) := by
        rw [List.getLast?_take, not_or, not_not]
        split_ifs with empty
        · exact iff_of_false nofun fun nonempty => nonempty.1 empty
        · rw [List.getElem?_eq_getElem (by omega)]
          exact (and_iff_right empty).symm
      split_ifs at resolved with ends
      · cases resolved
        rw [hasher.plain _ (mt last.mp (not_not.mpr ends))]
        refine iff_of_false ?_ nofun
        rintro ⟨inner, ⟨⟩, -⟩
      · obtain ⟨i, opens, after⟩ := regular _ .whole (last.mpr ends)
        obtain ⟨j, rfl⟩ : ∃ j, i = j + 1 := ⟨i - 1, by omega⟩
        rw [opens] at resolved
        have shorter : j + 1 ≤ length := (lastIndexOf_le opens).trans (List.length_take_le _ _)
        have stripped := hasher.strips _ _ (last.mpr ends) opens after
        rw [List.take_take, Nat.min_eq_left shorter] at stripped
        have tail : Regular (type.take (j + 1)) := by
          intro inner strips
          refine regular inner (Strips.trans ?_ strips)
          have step := Strips.suffix .whole (last.mpr ends) opens
          rwa [List.take_take, Nat.min_eq_left shorter] at step
        rw [← ih resolved (shorter.trans within) tail]
        constructor
        · rintro ⟨inner, same, names⟩
          rw [stripped] at same
          cases same
          exact names
        · exact fun names => ⟨_, stripped, names⟩

theorem resolveStructRef_ok {type : JsString} {found : Option JsString}
    (resolved : resolveStructRef types type = .ok found) (regular : Regular type) {name : JsString} :
    Names hasher types type name ↔ found = some name := by
  have whole : Regular (type.take type.length) →
      ∀ {name}, Names hasher types (type.take type.length) name ↔ found = some name := resolveFrom_ok resolved le_rfl
  rw [List.take_length] at whole
  exact whole regular

end Resolve
/-! ### The walk -/

namespace StructRecord
variable {struct more : StructRecord} {name : JsString}

theorem has_iff : struct.has name = true ↔ ∃ names, (name, names) ∈ struct := by
  rw [has, List.any_eq_true]
  constructor
  · rintro ⟨⟨key, names⟩, listed, same⟩
    obtain rfl : key = name := of_decide_eq_true same
    exact ⟨names, listed⟩
  · rintro ⟨names, listed⟩
    exact ⟨_, listed, decide_eq_true rfl⟩

theorem has_mono (kept : struct <+: more) (has : struct.has name = true) : more.has name = true := by
  obtain ⟨names, listed⟩ := has_iff.mp has
  exact has_iff.mpr ⟨names, kept.subset listed⟩

end StructRecord

section Walk
variable {hasher : Hasher} {types : List (JsString × JsValue)} {primary : JsString}

/-- The domain's type is recorded on its own, and references to it are not followed. -/
def Followed (ref : JsString) : Prop := ref ≠ encode "EIP712Domain"

/-- What a part of the walk adds to a record: structs that are reached, with their fields, and of each
whatever it refers to. -/
structure Adds (hasher : Hasher) (types : List (JsString × JsValue)) (primary : JsString)
    (before after : StructRecord) : Prop where
  kept : before <+: after
  fields : ∀ p ∈ after, p ∈ before ∨ Reached hasher types Followed primary p.1 ∧
    ∃ fields, declaration types p.1 = some fields ∧ fields.mapM fieldName = .ok p.2
  closed : ∀ name, after.has name = true → before.has name = false → ∀ ref, Refers hasher types name ref →
    Followed ref → after.has ref = true
  distinct : (before.map Prod.fst).Nodup → (after.map Prod.fst).Nodup

theorem Adds.nothing (struct : StructRecord) : Adds hasher types primary struct struct where
  kept := List.prefix_rfl
  fields _ listed := .inl listed
  closed name has absent := by
    rw [has] at absent
    cases absent
  distinct := id

theorem Adds.trans {before mid after : StructRecord} (first : Adds hasher types primary before mid)
    (second : Adds hasher types primary mid after) : Adds hasher types primary before after where
  kept := first.kept.trans second.kept
  fields p listed := (second.fields p listed).elim (first.fields p) .inr
  closed name has absent ref refers followed := by
    cases already : mid.has name with
    | true => exact StructRecord.has_mono second.kept (first.closed name already absent ref refers followed)
    | false => exact second.closed name has already ref refers followed
  distinct := second.distinct ∘ first.distinct

/-- A struct that is declared is recorded. -/
def Settles (types : List (JsString × JsValue)) (struct : StructRecord) (name : JsString) : Prop :=
  (declaration types name).isSome → struct.has name = true

theorem names_listed {type name : JsString} (names : Names hasher types type name) :
    (declaration types name).isSome := by
  induction names with
  | declared listed => exact listed
  | element _ _ _ ih => exact ih

section Fields
variable {name : JsString} {fields : List JsValue} (listed : declaration types name = some fields)
  (reached : Reached hasher types Followed primary name) (regular : RegularTypes types)
  {next : JsString → StructRecord → Throwing StructRecord}
  (visits : ∀ ref before after, next ref before = .ok after →
    ((declaration types ref).isSome → Reached hasher types Followed primary ref) →
      Adds hasher types primary before after ∧ Settles types after ref)
include listed reached regular visits

/-- One field of a struct: what it refers to is visited. -/
theorem field_adds {field : JsValue} (own : field ∈ fields) {before after : StructRecord}
    (ran : (do
      match ← resolveStructRef types (← fieldType field) with
      | some ref => if ref ≠ encode "EIP712Domain" then next ref before else return before
      | none => return before) = .ok after) :
    Adds hasher types primary before after ∧ ∀ type, fieldType field = .ok type → ∀ ref,
      Names hasher types type ref → Followed ref → after.has ref = true := by
  obtain ⟨type, typed, ran⟩ := bind_ok ran
  obtain ⟨found, resolved, ran⟩ := bind_ok ran
  have names : ∀ ref, Names hasher types type ref ↔ found = some ref := fun ref =>
    resolveStructRef_ok resolved (regular name fields listed field own type typed)
  cases found with
  | none =>
    cases ran
    refine ⟨.nothing _, fun type' typed' ref named => ?_⟩
    rw [typed] at typed'
    cases typed'
    cases (names ref).mp named
  | some ref =>
    have named : Names hasher types type ref := (names ref).mpr rfl
    have only : ∀ type', fieldType field = .ok type' → ∀ ref', Names hasher types type' ref' → ref' = ref := by
      intro type' typed' ref' named'
      rw [typed] at typed'
      cases typed'
      exact (Option.some.inj ((names ref').mp named')).symm
    dsimp only at ran
    split_ifs at ran with followed
    · have reaches : Reached hasher types Followed primary ref :=
        .field reached ⟨fields, listed, field, own, type, typed, named⟩ followed
      obtain ⟨adds, settles⟩ := visits ref before after ran fun _ => reaches
      refine ⟨adds, fun type' typed' ref' named' _ => ?_⟩
      rw [only type' typed' ref' named']
      exact settles (names_listed named)
    · cases ran
      refine ⟨.nothing _, fun type' typed' ref' named' other => ?_⟩
      rw [only type' typed' ref' named'] at other
      exact absurd other followed

/-- All fields of a struct. -/
theorem fields_add {some : List JsValue} (own : ∀ field ∈ some, field ∈ fields) {before after : StructRecord}
    (ran : some.foldlM (fun struct field => do
      match ← resolveStructRef types (← fieldType field) with
      | .some ref => if ref ≠ encode "EIP712Domain" then next ref struct else return struct
      | none => return struct) before = .ok after) :
    Adds hasher types primary before after ∧ ∀ field ∈ some, ∀ type, fieldType field = .ok type → ∀ ref,
      Names hasher types type ref → Followed ref → after.has ref = true := by
  induction some generalizing before with
  | nil =>
    cases ran
    exact ⟨.nothing _, List.forall_mem_nil _⟩
  | cons field rest ih =>
    rw [List.forall_mem_cons] at own
    rw [List.foldlM_cons] at ran
    obtain ⟨mid, ran, others⟩ := bind_ok ran
    obtain ⟨first, settled⟩ := field_adds listed reached regular visits own.1 ran
    obtain ⟨second, settled'⟩ := ih own.2 others
    refine ⟨first.trans second, List.forall_mem_cons.mpr ⟨?_, settled'⟩⟩
    exact fun type typed ref named followed => StructRecord.has_mono second.kept (settled type typed ref named followed)

end Fields

/-- A visit records the struct and all that is reached from it. -/
theorem visit_adds (regular : RegularTypes types) {levels : ℕ} {name primaryType : JsString}
    {before after : StructRecord} (ran : visit types primaryType levels name before = .ok after)
    (reached : (declaration types name).isSome → Reached hasher types Followed primary name) :
    Adds hasher types primary before after ∧ Settles types after name := by
  induction levels generalizing name before after with
  | zero =>
    rw [visit] at ran
    split_ifs at ran with already
    cases ran
    exact ⟨.nothing _, fun _ => already⟩
  | succ levels ih =>
    rw [visit] at ran
    split_ifs at ran with already
    · cases ran
      exact ⟨.nothing _, fun _ => already⟩
    cases listed : declaration types name with
    | none =>
      rw [listed] at ran
      cases ran
      refine ⟨.nothing _, fun declared => ?_⟩
      rw [listed] at declared
      cases declared
    | some fields =>
      rw [listed] at ran reached
      obtain ⟨names, named, ran⟩ := bind_ok ran
      obtain ⟨adds, settled⟩ := fields_add listed (reached rfl) regular (fun ref before after => ih) (fun _ => id) ran
      have own : (name, names) ∈ after := adds.kept.subset (List.mem_append_right _ List.mem_cons_self)
      refine ⟨⟨?_, ?_, ?_, ?_⟩, fun _ => StructRecord.has_iff.mpr ⟨names, own⟩⟩
      · exact (List.prefix_append _ _).trans adds.kept
      · intro p member
        rcases adds.fields p member with earlier | added
        · rcases List.mem_append.mp earlier with old | new
          · exact .inl old
          · rw [List.mem_singleton.mp new]
            exact .inr ⟨reached rfl, fields, listed, named⟩
        · exact .inr added
      · intro struct has absent ref refers followed
        by_cases same : struct = name
        · subst same
          obtain ⟨fields', listed', field, member, type, typed, named'⟩ := refers
          rw [listed] at listed'
          cases listed'
          exact settled field member type typed ref named' followed
        · refine adds.closed struct has ?_ ref refers followed
          rw [StructRecord.has, List.any_append, ← StructRecord.has, absent]
          simpa using Ne.symm same
      · intro distinct
        refine adds.distinct ?_
        rw [List.map_append, List.nodup_append]
        refine ⟨distinct, List.nodup_singleton _, ?_⟩
        rintro key earlier _ last rfl
        obtain rfl := List.mem_singleton.mp last
        obtain ⟨⟨_, old⟩, member, rfl⟩ := List.mem_map.mp earlier
        exact already (StructRecord.has_iff.mpr ⟨old, member⟩)

/-- The record of a request has exactly the structs that are reached, with their fields. -/
theorem visit_exact (regular : RegularTypes types) {levels : ℕ} {struct : StructRecord}
    (ran : visit types primary levels primary [] = .ok struct) :
    (∀ name, struct.has name = true ↔ Reached hasher types Followed primary name) ∧
      (∀ p ∈ struct, ∃ fields, declaration types p.1 = some fields ∧ fields.mapM fieldName = .ok p.2) ∧
      (struct.map Prod.fst).Nodup := by
  have added : Adds hasher types primary [] struct ∧ Settles types struct primary := visit_adds regular ran .primary
  obtain ⟨adds, settles⟩ := added
  have none : ∀ name, StructRecord.has [] name = false := fun _ => rfl
  refine ⟨fun name => ⟨fun has => ?_, fun reached => ?_⟩, fun p member => ?_, adds.distinct List.nodup_nil⟩
  · obtain ⟨names, member⟩ := StructRecord.has_iff.mp has
    exact ((adds.fields _ member).resolve_left (List.not_mem_nil)).1
  · induction reached with
    | primary listed => exact settles listed
    | field _ refers followed ih => exact adds.closed _ ih (none _) _ refers followed
  · exact ((adds.fields p member).resolve_left (List.not_mem_nil)).2

end Walk

/-- Where the array suffixes of all field types open after some name, the record has the structs that the
hasher reaches from the primary type without going through the domain's type, each once and with all its
fields. -/
theorem committedFieldSet_exact (hasher : Hasher) {inferDomain : JsValue → Throwing (List TypeField)}
    {typed : TypedDataRequest} (regular : RegularTypes typed.types) {committed : CommittedFields}
    (ran : committedFieldSet inferDomain typed = .ok committed) :
    ∃ primary, typed.primaryType.stringOf = .ok primary ∧
      (∀ name, committed.struct.has name = true ↔ Reached hasher typed.types Followed primary name) ∧
      (∀ p ∈ committed.struct, ∃ fields, declaration typed.types p.1 = some fields ∧
        fields.mapM fieldName = .ok p.2) ∧
      (committed.struct.map Prod.fst).Nodup := by
  obtain ⟨domain, -, ran⟩ := bind_ok ran
  obtain ⟨primary, named, ran⟩ := bind_ok ran
  obtain ⟨struct, visited, ran⟩ := bind_ok ran
  cases ran
  exact ⟨primary, named, visit_exact regular visited⟩

namespace CommittedFields.Sample

/-- A hasher that takes what comes before the last bracket. -/
def hasher : Hasher where
  element type :=
    if type.getLast? = some 93 then some (type.take ((lastIndexOf 91 type).getD (type.length - 1))) else none
  plain _ other := if_neg other
  strips type i ends opens _ := by
    rw [if_pos ends, opens]
    rfl

def field (name type : JsString) : JsValue := .object [(encode "name", .string name), (encode "type", .string type)]

/-- A struct with a field of the domain's type. -/
def nested : TypedDataRequest where
  domain := .object []
  types := [("Payment", .array [field "to" "address", field "at" "EIP712Domain"]),
    ("EIP712Domain", .array [field "name" "string"])]
  primaryType := .string "Payment"
  message := .object []

/-- An array of a struct without a name. -/
def nameless : TypedDataRequest where
  domain := .object []
  types := [("Payment", .array [field "parts" "[]"]), ([], .array [field "amount" "uint256"])]
  primaryType := .string "Payment"
  message := .object []

/-- A struct with a field of arrays of arrays of another. -/
def split : TypedDataRequest where
  domain := .object []
  types := [("Payment", .array [field "parts" "Part[2][]"]), ("Part", .array [field "amount" "uint256"])]
  primaryType := .string "Payment"
  message := .object []

def noDomain : JsValue → Throwing (List TypeField) := fun _ => .ok []

theorem records :
    ((committedFieldSet noDomain nested).toOption.any fun c =>
      decide (c.struct = [(encode "Payment", [encode "to", encode "at"])])) = true ∧
    ((committedFieldSet noDomain nameless).toOption.any fun c =>
      decide (c.struct = [(encode "Payment", [encode "parts"])])) = true ∧
    ((committedFieldSet noDomain split).toOption.any fun c =>
      decide (c.struct = [(encode "Payment", [encode "parts"]), (encode "Part", [encode "amount"])])) = true := by
  decide +kernel

/-- The domain's type is reached through a field, and so is a struct without a name through an array of it;
the record has neither. -/
theorem reached_not_recorded :
    (∃ committed, committedFieldSet noDomain nested = .ok committed ∧
      committed.struct.has "EIP712Domain" = false ∧
      Reached hasher nested.types (fun _ => True) "Payment" "EIP712Domain") ∧
    ∃ committed, committedFieldSet noDomain nameless = .ok committed ∧ committed.struct.has [] = false ∧
      Reached hasher nameless.types (fun _ => True) "Payment" [] := by
  obtain ⟨first, second, -⟩ := records
  obtain ⟨committed, ran, only⟩ := (Option.any_eq_true _ _).mp first
  obtain ⟨committed', ran', only'⟩ := (Option.any_eq_true _ _).mp second
  refine ⟨⟨committed, of_toOption ran, ?_, ?_⟩, committed', of_toOption ran', ?_, ?_⟩
  · rw [of_decide_eq_true only]
    decide
  · refine .field (.primary (by decide)) ⟨_, rfl, field "at" "EIP712Domain", by simp, _, rfl, ?_⟩ trivial
    exact .declared (by decide)
  · rw [of_decide_eq_true only']
    decide
  · refine .field (.primary (by decide)) ⟨_, rfl, field "parts" "[]", by simp, _, rfl, ?_⟩ trivial
    exact .element (by decide) (show hasher.element "[]" = some [] by decide) (.declared (by decide))

theorem regular_of_plain {type : JsString} (plain : type.getLast? ≠ some 93) : Regular type := by
  have only : ∀ inner, Strips type inner → inner = type := by
    intro inner strips
    induction strips with
    | whole => rfl
    | suffix _ ends _ ih =>
      rw [ih] at ends
      exact absurd ends plain
  intro inner strips ends
  rw [only inner strips] at ends
  exact absurd ends plain

theorem regular_of_suffix {type : JsString} {i : ℕ} (opens : lastIndexOf 91 type = some i) (after : 0 < i)
    (rest : Regular (type.take i)) : Regular type := by
  have strips_cases : ∀ inner, Strips type inner → inner = type ∨ Strips (type.take i) inner := by
    intro inner strips
    induction strips with
    | whole => exact .inl rfl
    | suffix _ ends opens' ih =>
      rcases ih with rfl | further
      · rw [opens] at opens'
        cases opens'
        exact .inr .whole
      · exact .inr (.suffix further ends opens')
  intro inner strips ends
  rcases strips_cases inner strips with rfl | further
  · exact ⟨i, opens, after⟩
  · exact rest inner further ends

theorem split_regular : RegularTypes split.types := by
  intro name fields listed field own type typed
  have member := declaration_mem listed
  rw [split, List.mem_cons, List.mem_singleton] at member
  rcases member with same | same
  · cases same
    obtain rfl := List.mem_singleton.mp own
    cases typed
    refine regular_of_suffix (i := 7) (by decide) (by decide) ?_
    refine regular_of_suffix (i := 4) (by decide) (by decide) ?_
    exact regular_of_plain (by decide)
  · cases same
    obtain rfl := List.mem_singleton.mp own
    cases typed
    exact regular_of_plain (by decide)

theorem split_recorded : ∃ committed, committedFieldSet noDomain split = .ok committed ∧
    committed.struct = [(encode "Payment", [encode "parts"]), (encode "Part", [encode "amount"])] ∧
    ∃ primary, split.primaryType.stringOf = .ok primary ∧
      ∀ name, committed.struct.has name = true ↔ Reached hasher split.types Followed primary name := by
  obtain ⟨committed, ran, only⟩ := (Option.any_eq_true _ _).mp records.2.2
  obtain ⟨primary, named, exactly, -⟩ := committedFieldSet_exact hasher split_regular (of_toOption ran)
  exact ⟨committed, of_toOption ran, of_decide_eq_true only, primary, named, exactly⟩

end CommittedFields.Sample
end Vaduno.Cloudflare
