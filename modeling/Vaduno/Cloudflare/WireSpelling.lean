import Vaduno.Cloudflare.WireCodec
import Vaduno.Ecma.IntegerText

/-! The spellings of a value on the wire. Of all that the host decodes, the canonical spellings are
the ones that encoding the decoded value gives back. -/
namespace Vaduno.Cloudflare
open Ecma

/-- The text of an integer with no zero in front of other digits and no sign on a zero. -/
def isIntegerText : JsString → Bool
  | 45 :: digits => isWhole digits && digits ≠ [48]
  | digits => isWhole digits

mutual
/-- A canonical spelling: the texts of bigint tags are those of integers, and an object is escaped
exactly if one of its names is the name of a tag. -/
inductive Canonical : JsonValue → Prop
  | null : Canonical .null
  | boolean (b : Bool) : Canonical (.boolean b)
  | number (n : Number) : Canonical (.number n)
  | string (s : JsString) : Canonical (.string s)
  | array (items : CanonicalItems list) : Canonical (.array list)
  | bigint (integer : isIntegerText raw = true) : Canonical (.object [(bigintTag, .string raw)])
  | escaped (values : CanonicalProps props)
    (tagged : bigintTag ∈ props.map Prod.fst ∨ escapeTag ∈ props.map Prod.fst) :
    Canonical (.object [(escapeTag, .object props)])
  | plain (values : CanonicalProps props) (noBigint : bigintTag ∉ props.map Prod.fst)
    (noEscape : escapeTag ∉ props.map Prod.fst) : Canonical (.object props)

inductive CanonicalItems : List JsonValue → Prop
  | nil : CanonicalItems []
  | cons (item : Canonical v) (rest : CanonicalItems more) : CanonicalItems (v :: more)

inductive CanonicalProps : List (JsString × JsonValue) → Prop
  | nil : CanonicalProps []
  | cons (value : Canonical v) (rest : CanonicalProps more) : CanonicalProps ((key, v) :: more)
end

mutual
/-- Equal up to the order of the names of objects. -/
inductive Reordered : JsonValue → JsonValue → Prop
  | same (v : JsonValue) : Reordered v v
  | array (items : ReorderedItems list list') : Reordered (.array list) (.array list')
  | object (values : ReorderedProps props props') (order : props'.Perm props'') :
    Reordered (.object props) (.object props'')

inductive ReorderedItems : List JsonValue → List JsonValue → Prop
  | nil : ReorderedItems [] []
  | cons (item : Reordered v v') (rest : ReorderedItems more more') :
    ReorderedItems (v :: more) (v' :: more')

inductive ReorderedProps : List (JsString × JsonValue) → List (JsString × JsonValue) → Prop
  | nil : ReorderedProps [] []
  | cons (value : Reordered v v') (rest : ReorderedProps more more') :
    ReorderedProps ((key, v) :: more) ((key, v') :: more')
end

theorem Canonical.object {props : List (JsString × JsonValue)} (canonical : Canonical (.object props)) :
    (∃ raw, props = [(bigintTag, .string raw)] ∧ isIntegerText raw = true) ∨
      (∃ inner, props = [(escapeTag, .object inner)] ∧ CanonicalProps inner ∧
        (bigintTag ∈ inner.map Prod.fst ∨ escapeTag ∈ inner.map Prod.fst)) ∨
      CanonicalProps props ∧ ¬(bigintTag ∈ props.map Prod.fst ∨ escapeTag ∈ props.map Prod.fst) := by
  cases canonical with
  | bigint integer => exact .inl ⟨_, rfl, integer⟩
  | escaped values tagged => exact .inr (.inl ⟨_, rfl, values, tagged⟩)
  | plain values noBigint noEscape => exact .inr (.inr ⟨values, not_or.mpr ⟨noBigint, noEscape⟩⟩)

theorem tags_differ : bigintTag ≠ escapeTag := by decide

/-! ### Integers -/

theorem isWhole_natText (n : ℕ) : isWhole (natText n) = true := by
  rcases Nat.eq_zero_or_pos n with rfl | positive
  · rfl
  · obtain ⟨u, tail, text, other⟩ := natText_leading positive
    have only := digits_natText n
    rw [text] at only ⊢
    exact isWhole_leading only other

theorem isIntegerText_intText (n : ℤ) : isIntegerText (intText n) = true := by
  unfold intText
  split_ifs with negative
  · have signed : encode "-" ++ natText n.natAbs = 45 :: natText n.natAbs := by
      simp [encode, encodeChar]
    have nonzero : natText n.natAbs ≠ [48] := by
      intro zero
      have value := digitsValue_natText n.natAbs
      rw [zero] at value
      change 0 = n.natAbs at value
      omega
    rw [signed]
    exact Bool.and_eq_true_iff.mpr ⟨isWhole_natText _, decide_eq_true nonzero⟩
  · unfold isIntegerText
    split
    · rename_i digits text
      exact absurd (digits_natText n.natAbs 45 (by simp [text])) (by decide)
    · exact isWhole_natText _

/-- An integer's text is the only such text that it is read from. -/
theorem intText_of_bigintOf {raw : JsString} (read : bigintOf raw = some n)
    (integer : isIntegerText raw = true) : intText n = raw := by
  unfold bigintOf at read
  unfold isIntegerText at integer
  split at read
  · rename_i digits
    obtain ⟨whole, nonzero⟩ := Bool.and_eq_true_iff.mp integer
    split_ifs at read with valid
    cases read
    have text := natText_digitsValue whole
    have positive : 0 < digitsValue digits := by
      by_contra zero
      rw [Nat.eq_zero_of_not_pos zero] at text
      exact of_decide_eq_true nonzero text.symm
    have negative : -(digitsValue digits : ℤ) < 0 := by omega
    rw [intText, if_pos negative, Int.natAbs_neg, Int.natAbs_natCast, text]
    simp [encode, encodeChar]
  · rename_i unsigned
    split at integer
    · rename_i digits
      exact absurd rfl (unsigned digits)
    · split_ifs at read with valid
      cases read
      rw [intText, if_neg (by omega), Int.natAbs_natCast, natText_digitsValue integer]

/-! ### Decoding and encoding again -/

/-- What an object was decoded to, by the three kinds of objects there are on the wire. -/
theorem decodeWire_object_ok {props : List (JsString × JsonValue)}
    (decoded : decodeWire (.object props) = .ok x) :
    (∃ raw n, props = [(bigintTag, .string raw)] ∧ bigintOf raw = some n ∧ x = .bigint n) ∨
      (∃ inner out, props = [(escapeTag, .object inner)] ∧ decodeProps inner = .ok out ∧
        x = .record out []) ∨
      (∀ v, props ≠ [(bigintTag, v)]) ∧ (∀ v, props ≠ [(escapeTag, v)]) ∧
        ∃ out, decodeProps props = .ok out ∧ x = .record out [] := by
  rw [decodeWire] at decoded
  rcases props with _ | ⟨⟨key, v⟩, _ | ⟨⟨next, w⟩, rest⟩⟩
  · rw [decodeObject] at decoded
    cases decoded
    exact .inr (.inr ⟨(by rintro _ ⟨⟩), (by rintro _ ⟨⟩), [], rfl, rfl⟩)
  · rw [decodeObject] at decoded
    split_ifs at decoded with bigint escape
    · subst bigint
      left
      unfold decodeBigint at decoded
      split at decoded
      · rename_i raw
        split at decoded
        · rename_i n read
          cases decoded
          exact ⟨raw, n, rfl, read, rfl⟩
        · cases decoded
      · cases decoded
    · subst escape
      right
      left
      unfold decodeEscaped at decoded
      split at decoded
      · rename_i inner
        obtain ⟨out, values, decoded⟩ := bind_ok decoded
        cases decoded
        exact ⟨inner, out, rfl, values, rfl⟩
      · cases decoded
    · obtain ⟨value, first, decoded⟩ := bind_ok decoded
      cases decoded
      refine .inr (.inr ⟨?_, ?_, [(key, value)], ?_, rfl⟩)
      · intro w same
        cases same
        exact bigint rfl
      · intro w same
        cases same
        exact escape rfl
      · rw [decodeProps, first]
        rfl
  · rw [decodeObject] at decoded
    obtain ⟨first, value, decoded⟩ := bind_ok decoded
    obtain ⟨second, value', decoded⟩ := bind_ok decoded
    obtain ⟨last, others, decoded⟩ := bind_ok decoded
    cases decoded
    refine .inr (.inr ⟨(by rintro _ ⟨⟩), (by rintro _ ⟨⟩), _, ?_, rfl⟩)
    rw [decodeProps, value, decodeProps, value', others]
    rfl

theorem hasOwn_plain {props : List (JsString × WireValue)} :
    hasOwn props [] name = true ↔ name ∈ props.map Prod.fst := by
  rw [hasOwn, List.any_nil, Bool.or_false, List.any_eq_true, List.mem_map]
  exact exists_congr fun p => and_congr_right' decide_eq_true_iff

/-- The record that stands for an object's properties is written back under the same names. -/
theorem encodeWire_plainRecord {props : List (JsString × WireValue)} {out : List (JsString × JsonValue)}
    (encoded : encodeProps props = .ok out) :
    encodeWire (.record props []) = .ok
      (if bigintTag ∈ out.map Prod.fst ∨ escapeTag ∈ out.map Prod.fst
        then .object [(escapeTag, .object out)] else .object out) := by
  rw [encodeWire, encoded, encodeProps_names encoded]
  have tagged : (hasOwn props [] bigintTag || hasOwn props [] escapeTag) = true ↔
      bigintTag ∈ props.map Prod.fst ∨ escapeTag ∈ props.map Prod.fst := by
    rw [Bool.or_eq_true, hasOwn_plain, hasOwn_plain]
  by_cases tags : bigintTag ∈ props.map Prod.fst ∨ escapeTag ∈ props.map Prod.fst
  · rw [if_pos tags]
    exact if_pos (tagged.mpr tags)
  · rw [if_neg tags]
    exact if_neg (fun held => tags (tagged.mp held))

theorem canonical_object {props : List (JsString × JsonValue)} (values : CanonicalProps props) :
    Canonical (if bigintTag ∈ props.map Prod.fst ∨ escapeTag ∈ props.map Prod.fst
      then .object [(escapeTag, .object props)] else .object props) := by
  split_ifs with tagged
  · exact .escaped values tagged
  · rw [not_or] at tagged
    exact .plain values tagged.1 tagged.2

mutual
/-- Whatever was decoded has one canonical spelling, and that is how it is encoded. -/
theorem reencode : {w : JsonValue} → {x : WireValue} → decodeWire w = .ok x →
    ∃ w', encodeWire x = .ok w' ∧ Canonical w' ∧ (Canonical w → w' = w)
  | .null, _, rfl => ⟨_, rfl, .null, fun _ => rfl⟩
  | .boolean b, _, rfl => ⟨_, rfl, .boolean b, fun _ => rfl⟩
  | .string s, _, rfl => ⟨_, rfl, .string s, fun _ => rfl⟩
  | .number n, x, decoded => by
    rw [decodeWire] at decoded
    split_ifs at decoded with finite
    cases decoded
    exact ⟨.number n, if_pos finite, .number n, fun _ => rfl⟩
  | .negZero, _, decoded => by cases decoded
  | .array items, x, decoded => by
    rw [decodeWire] at decoded
    obtain ⟨out, each, decoded⟩ := bind_ok decoded
    cases decoded
    obtain ⟨items', encoded, full, canonical, same⟩ := reencodeItems each
    refine ⟨.array items', ?_, .array canonical, ?_⟩
    · rw [encodeWire, full, encoded]
      rfl
    · rintro (_ | _ | _ | _ | given)
      rw [same given]
  | .object props, x, decoded => by
    rcases decodeWire_object_ok decoded with ⟨raw, n, rfl, read, rfl⟩ | ⟨inner, out, rfl, each, rfl⟩ |
      ⟨noBigint, noEscape, out, each, rfl⟩
    · refine ⟨_, rfl, .bigint (isIntegerText_intText n), fun given => ?_⟩
      rcases given.object with ⟨raw', same, integer⟩ | ⟨inner, same, -⟩ | ⟨-, untagged⟩
      · cases same
        rw [intText_of_bigintOf read integer]
      · exact absurd (congrArg Prod.fst (List.singleton_inj.mp same)) tags_differ
      · exact absurd (.inl List.mem_cons_self) untagged
    · obtain ⟨inner', encoded, canonical, same⟩ := reencodeProps each
      refine ⟨_, encodeWire_plainRecord encoded, canonical_object canonical, fun given => ?_⟩
      rcases given.object with ⟨raw, other, -⟩ | ⟨_, escaped, values, tagged⟩ | ⟨-, untagged⟩
      · exact absurd (congrArg Prod.fst (List.singleton_inj.mp other)).symm tags_differ
      · cases escaped
        rw [same values, if_pos tagged]
      · exact absurd (.inr List.mem_cons_self) untagged
    · obtain ⟨props', encoded, canonical, same⟩ := reencodeProps each
      refine ⟨_, encodeWire_plainRecord encoded, canonical_object canonical, fun given => ?_⟩
      rcases given.object with ⟨raw, bigint, -⟩ | ⟨inner, escaped, -⟩ | ⟨values, untagged⟩
      · exact absurd bigint (noBigint _)
      · exact absurd escaped (noEscape _)
      · rw [same values, if_neg untagged]

theorem reencodeItems : {items : List JsonValue} → {xs : List (Option WireValue)} →
    decodeItems items = .ok xs → ∃ items', encodeItems xs = .ok items' ∧ firstHole xs = none ∧
      CanonicalItems items' ∧ (CanonicalItems items → items' = items)
  | [], _, rfl => ⟨[], rfl, rfl, .nil, fun _ => rfl⟩
  | item :: rest, xs, decoded => by
    rw [decodeItems] at decoded
    obtain ⟨x, first, decoded⟩ := bind_ok decoded
    obtain ⟨more, following, decoded⟩ := bind_ok decoded
    cases decoded
    obtain ⟨item', encoded, canonical, same⟩ := reencode first
    obtain ⟨rest', encoded', full, canonical', same'⟩ := reencodeItems following
    refine ⟨item' :: rest', ?_, ?_, .cons canonical canonical', ?_⟩
    · rw [encodeItems, encoded, encoded']
      rfl
    · rw [firstHole] at full ⊢
      simpa [List.findIdx?_cons] using full
    · rintro (_ | ⟨given, given'⟩)
      rw [same given, same' given']

theorem reencodeProps : {props : List (JsString × JsonValue)} → {xs : List (JsString × WireValue)} →
    decodeProps props = .ok xs → ∃ props', encodeProps xs = .ok props' ∧ CanonicalProps props' ∧
      (CanonicalProps props → props' = props)
  | [], _, rfl => ⟨[], rfl, .nil, fun _ => rfl⟩
  | (key, v) :: rest, xs, decoded => by
    rw [decodeProps] at decoded
    obtain ⟨x, first, decoded⟩ := bind_ok decoded
    obtain ⟨more, following, decoded⟩ := bind_ok decoded
    cases decoded
    obtain ⟨v', encoded, canonical, same⟩ := reencode first
    obtain ⟨rest', encoded', canonical', same'⟩ := reencodeProps following
    refine ⟨(key, v') :: rest', ?_, .cons canonical canonical', ?_⟩
    · rw [encodeProps, encoded, encoded']
      rfl
    · rintro (_ | ⟨given, given'⟩)
      rw [same given, same' given']
end

/-! ### The order of names -/

theorem canonicalProps_iff {props : List (JsString × JsonValue)} :
    CanonicalProps props ↔ ∀ p ∈ props, Canonical p.2 := by
  induction props with
  | nil => exact ⟨fun _ => List.forall_mem_nil _, fun _ => .nil⟩
  | cons p rest ih =>
    rw [List.forall_mem_cons, ← ih]
    constructor
    · rintro (_ | ⟨value, others⟩)
      exact ⟨value, others⟩
    · exact fun values => .cons values.1 values.2

theorem CanonicalProps.perm {props props' : List (JsString × JsonValue)} (values : CanonicalProps props)
    (order : props.Perm props') : CanonicalProps props' :=
  canonicalProps_iff.mpr fun p member => canonicalProps_iff.mp values p (order.mem_iff.mpr member)

theorem ReorderedProps.names {props props' : List (JsString × JsonValue)}
    (reordered : ReorderedProps props props') : props'.map Prod.fst = props.map Prod.fst := by
  induction props generalizing props' with
  | nil =>
    cases reordered
    rfl
  | cons p rest ih =>
    obtain _ | ⟨value, others⟩ := reordered
    rw [List.map_cons, List.map_cons, ih others]

/-- The one property of an object stays its one property. -/
theorem ReorderedProps.single {key : JsString} {v : JsonValue} {props props' : List (JsString × JsonValue)}
    (reordered : ReorderedProps [(key, v)] props) (order : props.Perm props') :
    ∃ v', props' = [(key, v')] ∧ Reordered v v' := by
  obtain _ | ⟨value, ⟨⟩⟩ := reordered
  exact ⟨_, List.perm_singleton.mp order.symm, value⟩

theorem Reordered.string {s : JsString} (reordered : Reordered (.string s) v) : v = .string s := by
  cases reordered
  rfl

theorem Reordered.object_inv {props : List (JsString × JsonValue)} (reordered : Reordered (.object props) v) :
    v = .object props ∨ ∃ props' props'', v = .object props'' ∧ ReorderedProps props props' ∧
      props'.Perm props'' := by
  cases reordered with
  | same => exact .inl rfl
  | object values order => exact .inr ⟨_, _, rfl, values, order⟩

mutual
/-- Whether a spelling is canonical does not depend on the order of names. -/
theorem Reordered.canonical : {w w' : JsonValue} → Reordered w w' → Canonical w → Canonical w'
  | _, _, .same _, canonical => canonical
  | _, _, .array items, .array canonical => .array (items.canonical canonical)
  | .object props, .object props', .object values order, canonical => by
    rcases canonical.object with ⟨raw, rfl, integer⟩ | ⟨inner, rfl, inside, tagged⟩ | ⟨each, untagged⟩
    · obtain ⟨v, rfl, text⟩ := values.single order
      rw [text.string]
      exact .bigint integer
    · obtain ⟨v, rfl, object⟩ := values.single order
      rcases object.object_inv with rfl | ⟨inner', inner'', rfl, values', order'⟩
      · exact .escaped inside tagged
      · have names := (order'.map Prod.fst).symm
        rw [values'.names] at names
        refine .escaped ((values'.canonical inside).perm order') ?_
        rwa [names.mem_iff, names.mem_iff]
    · have names := (order.map Prod.fst).symm
      rw [values.names] at names
      rw [not_or, ← names.mem_iff, ← names.mem_iff] at untagged
      exact .plain ((values.canonical each).perm order) untagged.1 untagged.2

theorem ReorderedItems.canonical : {items items' : List JsonValue} → ReorderedItems items items' →
    CanonicalItems items → CanonicalItems items'
  | _, _, .nil, _ => .nil
  | _, _, .cons item rest, .cons canonical others => .cons (item.canonical canonical) (rest.canonical others)

theorem ReorderedProps.canonical : {props props' : List (JsString × JsonValue)} →
    ReorderedProps props props' → CanonicalProps props → CanonicalProps props'
  | _, _, .nil, _ => .nil
  | _, _, .cons value rest, .cons canonical others => .cons (value.canonical canonical) (rest.canonical others)
end

/-- What the host decodes is encoded as it was spelled, up to the order of names, exactly if the
spelling is canonical. -/
theorem reencoded_iff {w : JsonValue} {x : WireValue} (decoded : decodeWire w = .ok x) :
    (∃ w', encodeWire x = .ok w' ∧ Reordered w' w) ↔ Canonical w := by
  obtain ⟨w', encoded, canonical, same⟩ := reencode decoded
  constructor
  · rintro ⟨other, encoded', reordered⟩
    rw [encoded] at encoded'
    cases encoded'
    exact reordered.canonical canonical
  · intro given
    exact ⟨w', encoded, same given ▸ .same w⟩

/-- A value has no second canonical spelling. -/
theorem canonical_unique {w w' : JsonValue} {x : WireValue} (decoded : decodeWire w = .ok x)
    (decoded' : decodeWire w' = .ok x) (canonical : Canonical w) (canonical' : Canonical w') : w = w' := by
  obtain ⟨v, encoded, -, same⟩ := reencode decoded
  obtain ⟨v', encoded', -, same'⟩ := reencode decoded'
  rw [encoded] at encoded'
  cases encoded'
  rw [← same canonical, same' canonical']

/-- A payment of 250 units in a field that is named like a tag. -/
def escapedAmount : JsonValue :=
  .object [(escapeTag, .object [(bigintTag, .object [(bigintTag, .string "250")])])]

theorem escapedAmount_kept : decodeWire escapedAmount = .ok (.record [(bigintTag, .bigint 250)] []) ∧
    ∃ w', encodeWire (.record [(bigintTag, .bigint 250)] []) = .ok w' ∧ Reordered w' escapedAmount := by
  have decoded : decodeWire escapedAmount = .ok (.record [(bigintTag, .bigint 250)] []) := rfl
  refine ⟨decoded, (reencoded_iff decoded).mpr (.escaped (.cons (.bigint ?_) .nil) (.inl List.mem_cons_self))⟩
  decide

/-- The same amount with a zero in front of its digits. -/
def paddedAmount : JsonValue := .object [(bigintTag, .string "0250")]

/-- It is read as the same amount, and not written so again. -/
theorem paddedAmount_respelled : decodeWire paddedAmount = .ok (.bigint 250) ∧
    ¬∃ w', encodeWire (.bigint 250) = .ok w' ∧ Reordered w' paddedAmount := by
  have decoded : decodeWire paddedAmount = .ok (.bigint 250) := rfl
  refine ⟨decoded, fun ⟨w', encoded, reordered⟩ => ?_⟩
  cases encoded
  rcases (reordered.canonical (.bigint (isIntegerText_intText 250))).object with
    ⟨raw, same, integer⟩ | ⟨inner, same, -⟩ | ⟨-, untagged⟩
  · cases same
    exact absurd integer (by decide)
  · exact absurd (congrArg Prod.fst (List.singleton_inj.mp same)) tags_differ
  · exact absurd (.inl List.mem_cons_self) untagged

end Vaduno.Cloudflare
