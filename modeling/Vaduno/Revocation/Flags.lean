import Vaduno.Machine
import Vaduno.Revocation.Bitstring

/-! A status list as a plain list of booleans. Up to the number of entries that an index of 32 bits
reaches, a bitstring answers every sequence of calls as the list of its flags does, and up to the
bound on inflating it comes back from its encoded form. -/
namespace Vaduno.Revocation
open Ecma

/-- A call of a bitstring. -/
inductive BitOp
  | set (index : Number) (value : Bool)
  | get (index : Number)
  | setIndices

inductive BitAnswer
  | done
  | bit (b : Bool)
  | indices (ns : List ℕ)

namespace Flags

/-- The entry of an index, if there is one. -/
def locate (flags : List Bool) (index : Number) : Throwing ℕ :=
  if !index.isSafeInteger || decide (index < 0) || decide (((flags.length : ℤ) : Number) ≤ index) then
    bitstringError ("index " ++ index.toText ++ " is outside the bitstring (length " ++
      natText flags.length ++ ")")
  else .ok index.toInt.toNat

theorem locate_natCast {flags : List Bool} {n : ℕ} (inside : n < flags.length)
    (small : flags.length < 2 ^ 53) : locate flags (n : ℤ) = .ok n := by
  rw [locate, Bitstring.index_inside inside small, if_neg (by decide),
    Number.natCast_toNat (inside.trans small)]

def perform (flags : List Bool) : BitOp → Throwing BitAnswer × List Bool
  | .set index value =>
    match locate flags index with
    | .ok n => (.ok .done, flags.set n value)
    | .error e => (.error e, flags)
  | .get index => ((locate flags index).map fun n => .bit (flags.getD n false), flags)
  | .setIndices => (.ok (.indices ((List.range flags.length).filter fun n => flags.getD n false)), flags)

end Flags

namespace Bitstring

def perform (bits : Bitstring) : BitOp → Throwing BitAnswer × Bitstring
  | .set index value =>
    match bits.put index value with
    | .ok changed => (.ok .done, changed)
    | .error e => (.error e, bits)
  | .get index => ((bits.get index).map .bit, bits)
  | .setIndices => (.ok (.indices bits.setIndices), bits)

/-- The booleans that the bytes stand for. -/
def flags (bits : Bitstring) : List Bool := (List.range bits.length).map fun n => bits.Has n

/-- What can be built: a new list, a decoded one, and what calls make of these. -/
inductive Constructible (zlib : Zlib) : Bitstring → Prop
  | new (made : ofEntries entries = .ok bits) : Constructible zlib bits
  | decoded (read : decode zlib encoded = .ok bits) : Constructible zlib bits
  | performed (built : Constructible zlib bits) (op : BitOp) : Constructible zlib (bits.perform op).2

variable {bits : Bitstring} {n m : ℕ}

theorem length_flags (bits : Bitstring) : bits.flags.length = bits.length := by
  rw [flags, List.length_map, List.length_range]

theorem getD_flags (inside : n < bits.length) : bits.flags.getD n false = decide (bits.Has n) := by
  simp [flags, inside]

/-! ### Changing a flag -/

theorem clear_and_ne_zero (a : UInt8) (n m : ℕ) :
    (a &&& ~~~mask n) &&& mask m ≠ 0 ↔ a &&& mask m ≠ 0 ∧ m % 8 ≠ n % 8 := by
  have masks : ∀ i < 8, ∀ j < 8, (~~~(0b10000000 >>> Nat.toUInt8 i) &&& 0b10000000 >>> Nat.toUInt8 j : UInt8) =
      (if j = i then 0 else 0b10000000 >>> Nat.toUInt8 j : UInt8) := by decide
  have rest := masks _ (Nat.mod_lt n (by decide)) _ (Nat.mod_lt m (by decide))
  change ~~~mask n &&& mask m = if m % 8 = n % 8 then 0 else mask m at rest
  rw [UInt8.and_assoc, rest]
  split_ifs with same
  · simp [same]
  · simp [same]

/-- Writing an entry gives that entry the value and leaves the others. -/
theorem has_put (inside : n < bits.length) (value : Bool) :
    (Bitstring.mk (bits.bytes.modify (n / 8) fun byte =>
      if value then byte ||| mask n else byte &&& ~~~mask n)).Has m ↔
      if m = n then value = true else bits.Has m := by
  have held : n / 8 < bits.bytes.length := by
    unfold length at inside
    omega
  cases value with
  | true =>
    simp only [if_true]
    rw [has_modify inside]
    by_cases same : m = n
    · simp [same]
    · simp [same]
  | false =>
    simp only [Bool.false_eq_true, if_false]
    unfold Has
    rw [List.getElem?_modify]
    by_cases byte : n / 8 = m / 8
    · simp only [if_pos byte]
      rw [← byte, List.getElem?_eq_getElem held]
      simp only [Option.map_eq_map, Option.map_some, Option.some.injEq, exists_eq_left',
        clear_and_ne_zero]
      have places : m % 8 ≠ n % 8 ↔ m ≠ n := by omega
      by_cases same : m = n
      · simp [same]
      · simp [same, places]
    · have other : m ≠ n := fun equal => byte (by rw [equal])
      simp [byte, other]

theorem flags_put (inside : n < bits.length) (value : Bool) :
    (Bitstring.mk (bits.bytes.modify (n / 8) fun byte =>
      if value then byte ||| mask n else byte &&& ~~~mask n)).flags = bits.flags.set n value := by
  have size : (Bitstring.mk (bits.bytes.modify (n / 8) fun byte =>
      if value then byte ||| mask n else byte &&& ~~~mask n)).length = bits.length := by
    rw [length, length, List.length_modify]
  refine List.ext_getElem (by rw [length_flags, size, List.length_set, length_flags]) ?_
  intro i left right
  rw [List.length_set, length_flags] at right
  rw [List.getElem_set]
  simp only [flags, List.getElem_map, List.getElem_range, has_put inside]
  by_cases same : i = n
  · simp [same]
  · simp [same, Ne.symm same]

/-! ### The flags that are set -/

/-- The entries that a further byte adds to a list come after those of the list. -/
theorem filter_has_append (front : Bytes) (v : UInt8) :
    (List.range (Bitstring.mk (front ++ [v])).length).filter (fun n => decide ((Bitstring.mk (front ++ [v])).Has n)) =
      (List.range (Bitstring.mk front).length).filter (fun n => decide ((Bitstring.mk front).Has n)) ++
        ((List.range 8).filter fun bit => decide (v &&& mask bit ≠ 0)).map (front.length * 8 + ·) := by
  have size : (Bitstring.mk (front ++ [v])).length = (Bitstring.mk front).length + 8 := by
    simp only [length, List.length_append, List.length_singleton]
    omega
  rw [size, List.range_add, List.filter_append, List.filter_map]
  congr 1
  · refine List.filter_congr fun n inside => decide_eq_decide.mpr ?_
    have held : n / 8 < front.length := by
      rw [List.mem_range, length] at inside
      change n < front.length * 8 at inside
      omega
    unfold Has
    rw [List.getElem?_append_left held]
  · refine congrArg _ (List.filter_congr fun bit inside => decide_eq_decide.mpr ?_)
    rw [List.mem_range] at inside
    have byte : (front.length * 8 + bit) / 8 = front.length := by omega
    have place : mask (front.length * 8 + bit) = mask bit := by
      unfold mask
      rw [show (front.length * 8 + bit) % 8 = bit % 8 by omega]
    change (∃ byte, (front ++ [v])[(front.length * 8 + bit) / 8]? = some byte ∧
      byte &&& mask (front.length * 8 + bit) ≠ 0) ↔ _
    rw [byte, List.getElem?_concat_length, place]
    simp

theorem setIndices_filter (bits : Bitstring) :
    bits.setIndices = (List.range bits.length).filter fun n => bits.Has n := by
  obtain ⟨bytes⟩ := bits
  induction bytes using List.reverseRecOn with
  | nil => rfl
  | append_singleton front v ih =>
    rw [filter_has_append, ← ih]
    unfold setIndices
    rw [List.zipIdx_append, List.flatMap_append, List.zipIdx_singleton, List.flatMap_singleton, Nat.zero_add]
    congr 1
    change (if v = 0 then [] else _) = _
    split_ifs with zero
    · simp [zero]
    · rfl

theorem setIndices_flags (bits : Bitstring) :
    bits.setIndices = (List.range bits.flags.length).filter fun n => bits.flags.getD n false := by
  rw [setIndices_filter, length_flags]
  refine List.filter_congr fun n inside => ?_
  rw [getD_flags (List.mem_range.mp inside)]

/-! ### Calls -/

/-- Up to `2 ^ 32` entries, an index stands for the entry of that number. -/
theorem locate_flags (narrow : bits.length ≤ 2 ^ 32) (index : Number) :
    Flags.locate bits.flags index = bits.locate index := by
  rw [Flags.locate, locate, length_flags]
  split_ifs with outside
  · rfl
  · simp only [Bool.or_eq_true, Bool.not_eq_true', decide_eq_true_eq, not_or, Bool.not_eq_false] at outside
    obtain ⟨⟨safe, nonneg⟩, below⟩ := outside
    obtain ⟨k, -, small, rfl⟩ := Number.natCast_of_not_lt (k := 0) safe (by norm_num) nonneg
    have inside : k < bits.length := by
      by_contra beyond
      exact below (Number.intCast_mono (by exact_mod_cast not_lt.mp beyond))
    rw [Number.natCast_toNat small, Nat.mod_eq_of_lt (inside.trans_le narrow)]

theorem perform_length (bits : Bitstring) (op : BitOp) : (bits.perform op).2.length = bits.length := by
  cases op with
  | set index value =>
    rw [perform, put]
    cases bits.locate index with
    | error e => rfl
    | ok n =>
      change length ⟨_⟩ = _
      rw [length, length, List.length_modify]
  | get index => rfl
  | setIndices => rfl

/-- One call is answered as the list of flags answers it, and leaves the flags that it leaves. -/
theorem perform_flags (narrow : bits.length ≤ 2 ^ 32) (op : BitOp) :
    (bits.perform op).1 = (Flags.perform bits.flags op).1 ∧
      (bits.perform op).2.flags = (Flags.perform bits.flags op).2 := by
  cases op with
  | set index value =>
    rw [perform, Flags.perform, locate_flags narrow, put]
    cases located : bits.locate index with
    | error e => exact ⟨rfl, rfl⟩
    | ok n => exact ⟨rfl, flags_put (lt_of_locate located) value⟩
  | get index =>
    rw [perform, Flags.perform, locate_flags narrow, get]
    cases located : bits.locate index with
    | error e => exact ⟨rfl, rfl⟩
    | ok n =>
      refine ⟨?_, rfl⟩
      change Except.ok (BitAnswer.bit (decide (bits.Has n))) = Except.ok (BitAnswer.bit _)
      rw [getD_flags (lt_of_locate located)]
  | setIndices =>
    refine ⟨?_, rfl⟩
    rw [perform, Flags.perform, setIndices_flags]

/-! ### The encoded form -/

/-- What is documented of compression: it inverts, up to the bound on what inflates. -/
structure Documented (zlib : Zlib) : Prop where
  inverts : ∀ bytes, bytes.length ≤ maxDecodedBytes → zlib.gunzipSync (zlib.gzipSync bytes) = .ok bytes
  bounded : ∀ packed bytes, zlib.gunzipSync packed = .ok bytes → bytes.length ≤ maxDecodedBytes

theorem decode_ok (read : decode zlib encoded = .ok bits) :
    bits.bytes ≠ [] ∧ ∃ packed, zlib.gunzipSync packed = .ok bits.bytes := by
  unfold decode at read
  split at read
  · cases read
  · rename_i first body
    by_cases multibase : first ≠ 117
    · rw [if_pos multibase] at read
      cases read
    rw [if_neg multibase] at read
    by_cases alphabet : (!isBase64url body) = true
    · rw [if_pos alphabet] at read
      cases read
    rw [if_neg alphabet] at read
    cases inflated : zlib.gunzipSync (ofBase64url body) with
    | error err =>
      rw [inflated] at read
      change (errText err >>= _) = _ at read
      cases text : errText err with
      | error e => rw [text] at read; cases read
      | ok message => rw [text] at read; cases read
    | ok raw =>
      rw [inflated] at read
      change (if raw = [] then _ else _) = _ at read
      split_ifs at read with empty
      · cases read
      · cases read
        exact ⟨empty, _, inflated⟩

theorem Constructible.nonempty (built : Constructible zlib bits) : bits.bytes ≠ [] := by
  induction built with
  | new made => exact (ofEntries_eq_ok made).1
  | decoded read => exact (decode_ok read).1
  | @performed bits built op ih =>
    have size := perform_length bits op
    intro empty
    rw [length, length, empty, List.length_nil, Nat.zero_mul, eq_comm, mul_eq_zero] at size
    exact ih (List.length_eq_zero_iff.mp (size.resolve_right (by decide)))

/-- A list comes back from its encoded form exactly where it is within the bound on inflating. -/
theorem decode_encode_iff (documented : Documented zlib) (nonempty : bits.bytes ≠ []) :
    decode zlib (encode zlib bits) = .ok bits ↔ bits.bytes.length ≤ maxDecodedBytes := by
  constructor
  · intro read
    obtain ⟨-, packed, inflated⟩ := decode_ok read
    exact documented.bounded _ _ inflated
  · intro short
    exact decode_encode nonempty (documented.inverts _ short)

/-- The codec is exact: calls are answered as a list of booleans answers them, up to `2 ^ 32` entries;
a list comes back from its encoded form, up to 16 MiB; and no index that is taken lies outside. -/
structure Exact (zlib : Zlib) : Prop where
  new : ∀ entries bits, ofEntries entries = .ok bits → bits.flags = List.replicate bits.length false
  calls : ∀ bits, Constructible zlib bits → bits.length ≤ 2 ^ 32 → ∀ ops,
    (Machine.play perform bits ops).1 = (Machine.play Flags.perform bits.flags ops).1 ∧
      (Machine.play perform bits ops).2.flags = (Machine.play Flags.perform bits.flags ops).2
  roundTrip : ∀ bits, Constructible zlib bits →
    (decode zlib (encode zlib bits) = .ok bits ↔ bits.bytes.length ≤ maxDecodedBytes)
  inside : ∀ encoded bits, decode zlib encoded = .ok bits → bits.bytes ≠ [] ∧
    bits.bytes.length ≤ maxDecodedBytes ∧ ∀ index n, bits.locate index = .ok n → n / 8 < bits.bytes.length

theorem flags_new (made : ofEntries entries = .ok bits) : bits.flags = List.replicate bits.length false := by
  refine List.eq_replicate_iff.mpr ⟨length_flags bits, fun b member => ?_⟩
  obtain ⟨n, -, rfl⟩ := List.mem_map.mp member
  exact decide_eq_false ((ofEntries_eq_ok made).2 n)

theorem play_flags (narrow : bits.length ≤ 2 ^ 32) (ops : List BitOp) :
    (Machine.play perform bits ops).1 = (Machine.play Flags.perform bits.flags ops).1 ∧
      (Machine.play perform bits ops).2.flags = (Machine.play Flags.perform bits.flags ops).2 := by
  have step : ∀ (bits : Bitstring) (flags : List Bool) op, bits.length ≤ 2 ^ 32 ∧ bits.flags = flags → True →
      (bits.perform op).1 = (Flags.perform flags op).1 ∧
        (bits.perform op).2.length ≤ 2 ^ 32 ∧ (bits.perform op).2.flags = (Flags.perform flags op).2 := by
    rintro bits _ op ⟨narrow, rfl⟩ -
    obtain ⟨answer, left⟩ := perform_flags narrow op
    exact ⟨answer, (perform_length bits op).trans_le narrow, left⟩
  obtain ⟨answers, -, left⟩ := Machine.play_alike step ⟨narrow, rfl⟩ (.always (fun _ _ => trivial) bits ops)
  exact ⟨List.forall₂_eq_eq_eq ▸ answers, left⟩

theorem bitstring_exact {zlib : Zlib} (documented : Documented zlib) : Exact zlib where
  new _ _ made := flags_new made
  calls _ _ narrow ops := play_flags narrow ops
  roundTrip _ built := decode_encode_iff documented built.nonempty
  inside _ bits read := by
    obtain ⟨nonempty, packed, inflated⟩ := decode_ok read
    refine ⟨nonempty, documented.bounded _ _ inflated, fun index n located => ?_⟩
    have inside := lt_of_locate located
    unfold length at inside
    omega

/-- Beyond `2 ^ 32` entries, setting the entry of index `2 ^ 32` sets the entry of index 0. -/
theorem calls_differ (wide : 2 ^ 32 < bits.length) (small : bits.length < 2 ^ 53) (clear : ¬bits.Has 0) :
    (Machine.play perform bits [.set ((2 ^ 32 : ℕ) : ℤ) true, .get ((0 : ℕ) : ℤ)]).1 ≠
      (Machine.play Flags.perform bits.flags [.set ((2 ^ 32 : ℕ) : ℤ) true, .get ((0 : ℕ) : ℤ)]).1 := by
  have wrapped := locate_natCast wide small
  rw [Nat.mod_self] at wrapped
  have first : 0 < bits.length := by omega
  have misread : (Machine.play perform bits [.set ((2 ^ 32 : ℕ) : ℤ) true, .get ((0 : ℕ) : ℤ)]).1 =
      [.ok .done, .ok (.bit true)] := by
    have set : bits.perform (.set ((2 ^ 32 : ℕ) : ℤ) true) = (.ok .done,
        ⟨bits.bytes.modify (0 / 8) fun byte => if true then byte ||| mask 0 else byte &&& ~~~mask 0⟩) := by
      rw [perform, put, wrapped]
      rfl
    have size := perform_length bits (.set ((2 ^ 32 : ℕ) : ℤ) true)
    have shown := (has_put first true).mpr ((if_pos (rfl : 0 = 0)).mpr rfl)
    rw [set] at size
    have read := locate_natCast (first.trans_eq size.symm) (size.trans_lt small)
    rw [Machine.play, Machine.play, Machine.play, set]
    change [Except.ok BitAnswer.done, Except.map _ (get _ _)] = _
    rw [get, read]
    change [Except.ok BitAnswer.done, Except.ok (.bit (decide (Has _ (0 % 2 ^ 32))))] = _
    rw [Nat.zero_mod, decide_eq_true shown]
  have kept : (Machine.play Flags.perform bits.flags [.set ((2 ^ 32 : ℕ) : ℤ) true, .get ((0 : ℕ) : ℤ)]).1 =
      [.ok .done, .ok (.bit false)] := by
    have size := length_flags bits
    have set : Flags.perform bits.flags (.set ((2 ^ 32 : ℕ) : ℤ) true) =
        (.ok .done, bits.flags.set (2 ^ 32) true) := by
      rw [Flags.perform, Flags.locate_natCast (wide.trans_eq size.symm) (size.trans_lt small)]
    have size' : (bits.flags.set (2 ^ 32) true).length = bits.length := by rw [List.length_set, size]
    rw [Machine.play, Machine.play, Machine.play, set]
    change [Except.ok BitAnswer.done, Except.map _ (Flags.locate (bits.flags.set (2 ^ 32) true) _)] = _
    rw [Flags.locate_natCast (first.trans_eq size'.symm) (size'.trans_lt small)]
    change [Except.ok BitAnswer.done, Except.ok (.bit ((bits.flags.set (2 ^ 32) true).getD 0 false))] = _
    rw [List.getD_eq_getElem?_getD, List.getElem?_set_ne (by decide), ← List.getD_eq_getElem?_getD,
      getD_flags first, decide_eq_false clear]
  rw [misread, kept]
  simp

namespace Sample

/-- The compressed form of the one byte `0x80`. -/
def packedByte : Bytes :=
  [0x1f, 0x8b, 8, 0, 0, 0, 0, 0, 0, 3, 0x6b, 0, 0, 0xad, 0x6c, 0xba, 0x3f, 1, 0, 0, 0]

/-- Compression as the library performs it on that byte. -/
def zlib : Zlib where
  gzipSync bytes := if bytes = [0x80] then packedByte else 0 :: bytes
  gunzipSync packed :=
    if packed = packedByte then .ok [0x80]
    else if packed.length ≤ maxDecodedBytes + 1 ∧ packed.head? = some 0 then .ok packed.tail
    else .error (.error "incorrect header check")

theorem documented : Documented zlib where
  inverts bytes short := by
    by_cases known : bytes = [0x80]
    · subst known
      rfl
    · have other : (0 :: bytes : Bytes) ≠ packedByte := by
        intro same
        exact absurd (List.cons.inj same).1 (by decide)
      have packed : zlib.gzipSync bytes = 0 :: bytes := if_neg known
      rw [packed]
      change (if (0 :: bytes : Bytes) = packedByte then Except.ok [0x80]
        else if (0 :: bytes).length ≤ maxDecodedBytes + 1 ∧ (0 :: bytes).head? = some 0 then Except.ok bytes
        else _) = _
      rw [if_neg other, if_pos ⟨Nat.succ_le_succ short, rfl⟩]
  bounded packed bytes inflated := by
    change (if packed = packedByte then _ else if _ then _ else _) = Except.ok bytes at inflated
    split_ifs at inflated with known small
    · cases inflated
      decide
    · cases inflated
      rw [List.length_tail]
      omega

theorem documented_exact : Documented zlib ∧ Exact zlib := ⟨documented, bitstring_exact documented⟩

/-- A new list of so many bytes. -/
def blank (size : ℕ) : Bitstring := ⟨List.replicate size 0⟩

theorem length_blank (size : ℕ) : (blank size).bytes.length = size ∧ (blank size).length = size * 8 := by
  have bytes : (blank size).bytes.length = size := List.length_replicate
  exact ⟨bytes, congrArg (· * 8) bytes⟩

theorem ofEntries_natCast {size : ℕ} (some : 0 < size) (small : 8 * size < 2 ^ 53) :
    ofEntries ((8 * size : ℕ) : ℤ) = .ok (blank size) := by
  have positive : ¬(((8 * size : ℕ) : ℤ) : Number) ≤ 0 := by
    intro below
    have := (Number.natCast_le (n := 0) small (by norm_num)).mp below
    omega
  rw [ofEntries, Number.isSafeInteger_natCast small, decide_eq_false positive, if_neg (by decide),
    Number.toInt_intCast (Number.natCast_narrow small), if_neg (by omega), blank]
  congr 3
  omega

theorem blank_refused {size : ℕ} (some : 0 < size) (long : maxDecodedBytes < size) :
    decode zlib (encode zlib (blank size)) ≠ .ok (blank size) := by
  intro read
  have nonempty : (blank size).bytes ≠ [] := by
    intro empty
    have none := (length_blank size).1
    rw [empty, List.length_nil] at none
    omega
  have short := (decode_encode_iff documented nonempty).mp read
  rw [(length_blank size).1] at short
  omega

theorem blank_misread {size : ℕ} (wide : 2 ^ 32 < size * 8) (small : 8 * size < 2 ^ 53) :
    (Machine.play perform (blank size) [.set ((2 ^ 32 : ℕ) : ℤ) true, .get ((0 : ℕ) : ℤ)]).1 ≠
      (Machine.play Flags.perform (blank size).flags [.set ((2 ^ 32 : ℕ) : ℤ) true, .get ((0 : ℕ) : ℤ)]).1 := by
  have made : ofEntries ((8 * size : ℕ) : ℤ) = .ok (blank size) := ofEntries_natCast (by omega) small
  refine calls_differ ?_ ?_ ((ofEntries_eq_ok made).2 0)
  · rwa [(length_blank size).2]
  · rwa [(length_blank size).2, mul_comm]

/-- Lists of `2 ^ 24 + 1` bytes and of `2 ^ 29 + 1` bytes can be built. The first does not come back
from its encoded form; in the second, setting the entry of index `2 ^ 32` sets the entry of index 0. -/
theorem long_lists_differ :
    (ofEntries ((8 * (2 ^ 24 + 1) : ℕ) : ℤ) = .ok (blank (2 ^ 24 + 1)) ∧
      decode zlib (encode zlib (blank (2 ^ 24 + 1))) ≠ .ok (blank (2 ^ 24 + 1))) ∧
    ofEntries ((8 * (2 ^ 29 + 1) : ℕ) : ℤ) = .ok (blank (2 ^ 29 + 1)) ∧
      (Machine.play perform (blank (2 ^ 29 + 1)) [.set ((2 ^ 32 : ℕ) : ℤ) true, .get ((0 : ℕ) : ℤ)]).1 ≠
        (Machine.play Flags.perform (blank (2 ^ 29 + 1)).flags
          [.set ((2 ^ 32 : ℕ) : ℤ) true, .get ((0 : ℕ) : ℤ)]).1 := by
  refine ⟨⟨ofEntries_natCast ?_ ?_, blank_refused ?_ ?_⟩, ofEntries_natCast ?_ ?_, blank_misread ?_ ?_⟩ <;>
    decide

end Sample

end Bitstring
end Vaduno.Revocation
