import Vaduno.Ecma.Binary64

/-! The ECMAScript `number` type: binary64 with one NaN and two infinities. The two zeros are
one value here, since no comparison, sum or decimal text below tells them apart. -/
namespace Vaduno.Ecma
open Binary64

/-- A finite number: a rational that binary64 holds. -/
@[ext] structure Double where
  val : ℚ
  held : Representable val

instance : DecidableEq Double := fun a b =>
  decidable_of_iff (a.val = b.val) (by cases a; cases b; simp)

inductive Number
  | nan
  | negInf
  | fin (d : Double)
  | posInf
  deriving DecidableEq

namespace Number

/-- The exact result `q` of an operation, rounded; past the largest float it overflows. -/
def round (q : ℚ) : Number :=
  if bounded : |nearest q| < 2 ^ (1024 : ℤ) then fin ⟨nearest q, nearest_representable bounded⟩
  else if 0 < q then posInf else negInf

instance : IntCast Number := ⟨fun n => round n⟩
instance : OfNat Number n := ⟨((n : ℤ) : Number)⟩

def add : Number → Number → Number
  | nan, _ | _, nan => nan
  | posInf, negInf | negInf, posInf => nan
  | posInf, _ | _, posInf => posInf
  | negInf, _ | _, negInf => negInf
  | fin a, fin b => round (a.val + b.val)

def neg : Number → Number
  | nan => nan
  | negInf => posInf
  | posInf => negInf
  | fin a => round (-a.val)

def mul : Number → Number → Number
  | nan, _ | _, nan => nan
  | fin a, fin b => round (a.val * b.val)
  | fin a, posInf | posInf, fin a =>
    if a.val = 0 then nan else if 0 < a.val then posInf else negInf
  | fin a, negInf | negInf, fin a =>
    if a.val = 0 then nan else if 0 < a.val then negInf else posInf
  | posInf, posInf | negInf, negInf => posInf
  | posInf, negInf | negInf, posInf => negInf

def sub : Number → Number → Number
  | nan, _ | _, nan => nan
  | posInf, posInf | negInf, negInf => nan
  | posInf, _ | _, negInf => posInf
  | negInf, _ | _, posInf => negInf
  | fin a, fin b => round (a.val - b.val)

instance : Add Number := ⟨add⟩
instance : Sub Number := ⟨sub⟩
instance : Mul Number := ⟨mul⟩
instance : Neg Number := ⟨neg⟩

/-- The `<=` of the language: false whenever one side is NaN. -/
def le : Number → Number → Bool
  | nan, _ | _, nan => false
  | negInf, _ | _, posInf => true
  | fin a, fin b => a.val ≤ b.val
  | _, _ => false

/-- The `<` of the language: false whenever one side is NaN. -/
def lt : Number → Number → Bool
  | nan, _ | _, nan => false
  | fin a, fin b => a.val < b.val
  | negInf, negInf | posInf, _ | _, negInf => false
  | _, _ => true

instance : LE Number := ⟨fun a b => le a b⟩
instance : LT Number := ⟨fun a b => lt a b⟩
instance : DecidableLE Number := fun a b => inferInstanceAs (Decidable (le a b = true))
instance : DecidableLT Number := fun a b => inferInstanceAs (Decidable (lt a b = true))

/-- `Number.isFinite`. -/
def isFinite : Number → Bool
  | fin _ => true
  | _ => false

/-- `Number.isNaN`. -/
def isNaN : Number → Bool
  | nan => true
  | _ => false

/-- `Number.isInteger`. -/
def isInteger : Number → Bool
  | fin d => d.val.isInt
  | _ => false

/-- `Number.isSafeInteger`: an integer of magnitude at most `2 ^ 53 - 1`. -/
def isSafeInteger : Number → Bool
  | fin d => d.val.isInt && |d.val| ≤ 2 ^ 53 - 1
  | _ => false

/-- The whole part of a finite number, `0` for the rest: the integer that a safe one holds. -/
def toInt : Number → ℤ
  | fin d => ⌊d.val⌋
  | _ => 0

/-- `Math.floor`. -/
def floor : Number → Number
  | fin d => (⌊d.val⌋ : ℤ)
  | x => x

theorem le_def (a b : Number) : a ≤ b ↔ le a b = true := Iff.rfl

theorem lt_def (a b : Number) : a < b ↔ lt a b = true := Iff.rfl

@[simp] theorem fin_le (a b : Double) : fin a ≤ fin b ↔ a.val ≤ b.val := by
  simp [le_def, le]

@[simp] theorem fin_lt (a b : Double) : fin a < fin b ↔ a.val < b.val := by
  simp [lt_def, lt]

theorem le_trans {a b c : Number} (first : a ≤ b) (second : b ≤ c) : a ≤ c := by
  cases a <;> cases b <;> cases c <;> simp_all [le_def, le]
  linarith

theorem lt_of_lt_of_le {a b c : Number} (first : a < b) (second : b ≤ c) : a < c := by
  cases a <;> cases b <;> cases c <;> simp_all [le_def, le, lt_def, lt]
  linarith

theorem not_le_of_lt {a b : Number} (ordered : a < b) : ¬b ≤ a := by
  cases a <;> cases b <;> simp_all [le_def, le, lt_def, lt]

theorem le_refl {a : Number} (number : a.isNaN = false) : a ≤ a := by
  cases a <;> simp_all [le_def, le, isNaN]

theorem le_antisymm {a b : Number} (first : a ≤ b) (second : b ≤ a) : a = b := by
  cases a <;> cases b <;> simp_all [le_def, le]
  exact Double.ext (first.antisymm second)

theorem le_of_not_lt {a b : Number} (left : a.isNaN = false) (right : b.isNaN = false)
    (above : ¬a < b) : b ≤ a := by
  cases a <;> cases b <;> simp_all [le_def, le, lt_def, lt, isNaN]

theorem lt_of_not_le {a b : Number} (left : a.isNaN = false) (right : b.isNaN = false)
    (above : ¬b ≤ a) : a < b := by
  cases a <;> cases b <;> simp_all [le_def, le, lt_def, lt, isNaN]

theorem le_of_lt {a b : Number} (ordered : a < b) : a ≤ b := by
  cases a <;> cases b <;> simp_all [le_def, le, lt_def, lt]
  linarith

theorem lt_of_le_of_lt {a b c : Number} (first : a ≤ b) (second : b < c) : a < c := by
  cases a <;> cases b <;> cases c <;> simp_all [le_def, le, lt_def, lt]
  linarith

theorem isNaN_of_isFinite {a : Number} (finite : a.isFinite = true) : a.isNaN = false := by
  cases a <;> simp_all [isFinite, isNaN]

theorem isNaN_of_isSafeInteger {a : Number} (safe : a.isSafeInteger = true) : a.isNaN = false := by
  cases a <;> simp_all [isSafeInteger, isNaN]

theorem round_of_representable {q : ℚ} (held : Representable q) : round q = fin ⟨q, held⟩ := by
  have exact := nearest_of_representable held
  rw [round, dif_pos (by rw [exact]; exact abs_lt_of_representable held)]
  congr

theorem round_fin (d : Double) : round d.val = fin d := round_of_representable d.held

private theorem overflow_up {q : ℚ} (unbounded : ¬|nearest q| < 2 ^ (1024 : ℤ)) (pos : 0 < q) :
    2 ^ (1024 : ℤ) ≤ nearest q := by
  rwa [abs_of_nonneg (nearest_nonneg pos.le), not_lt] at unbounded

private theorem overflow_down {q : ℚ} (unbounded : ¬|nearest q| < 2 ^ (1024 : ℤ))
    (nonpos : ¬0 < q) : nearest q ≤ -2 ^ (1024 : ℤ) := by
  rw [abs_of_nonpos (nearest_nonpos (not_lt.mp nonpos)), not_lt] at unbounded
  linarith

/-- Rounding the exact results of two operations keeps their order. -/
theorem round_mono {p q : ℚ} (ordered : p ≤ q) : round p ≤ round q := by
  have rounded := nearest_mono ordered
  unfold round
  split_ifs with pHeld qHeld qPos pPos qHeld qPos qHeld qPos
  · exact (fin_le _ _).mpr rounded
  · rfl
  · exact absurd (rounded.trans (overflow_down qHeld qPos)) (by linarith [(abs_lt.mp pHeld).1])
  · exact absurd ((overflow_up pHeld pPos).trans rounded) (by linarith [(abs_lt.mp qHeld).2])
  · rfl
  · exact absurd (pPos.trans_le ordered) qPos
  · rfl
  · rfl
  · rfl

theorem intCast_def {n : ℤ} (narrow : |n| ≤ 2 ^ 53) :
    (n : Number) = fin ⟨n, representable_intCast narrow⟩ :=
  round_of_representable (representable_intCast narrow)

theorem intCast_mono {m n : ℤ} (ordered : m ≤ n) : (m : Number) ≤ n :=
  round_mono (by exact_mod_cast ordered)

theorem intCast_lt {m n : ℤ} (left : |m| ≤ 2 ^ 53) (right : |n| ≤ 2 ^ 53) :
    (m : Number) < n ↔ m < n := by
  rw [intCast_def left, intCast_def right, fin_lt, Int.cast_lt]

theorem intCast_le {m n : ℤ} (left : |m| ≤ 2 ^ 53) (right : |n| ≤ 2 ^ 53) :
    (m : Number) ≤ n ↔ m ≤ n := by
  rw [intCast_def left, intCast_def right, fin_le, Int.cast_le]

theorem toInt_intCast {n : ℤ} (narrow : |n| ≤ 2 ^ 53) : (n : Number).toInt = n := by
  simp [intCast_def narrow, toInt]

/-- A safe integer is the number of an exact integer below `2 ^ 53`. -/
theorem isSafeInteger_iff {x : Number} :
    x.isSafeInteger = true ↔ ∃ n : ℤ, |n| < 2 ^ 53 ∧ x = n := by
  constructor
  · intro safe
    cases x with
    | fin d =>
      simp only [isSafeInteger, Bool.and_eq_true, decide_eq_true_eq] at safe
      have whole : d.val = d.val.num :=
        (Rat.coe_int_num_of_den_eq_one (by simpa [Rat.isInt] using safe.1)).symm
      have narrow : |d.val.num| < 2 ^ 53 := by
        have small := safe.2
        rw [whole] at small
        have : |d.val.num| ≤ 2 ^ 53 - 1 := by exact_mod_cast small
        omega
      refine ⟨d.val.num, narrow, ?_⟩
      rw [intCast_def narrow.le]
      exact congrArg fin (Double.ext whole)
    | _ => simp [isSafeInteger] at safe
  · rintro ⟨n, narrow, rfl⟩
    have small : |(n : ℚ)| ≤ 2 ^ 53 - 1 := by exact_mod_cast (by omega : |n| ≤ 2 ^ 53 - 1)
    simp [intCast_def narrow.le, isSafeInteger, small, Rat.isInt]

theorem add_intCast {m n : ℤ} (left : |m| ≤ 2 ^ 53) (right : |n| ≤ 2 ^ 53) :
    (m : Number) + n = ((m + n : ℤ) : Number) := by
  rw [intCast_def left, intCast_def right]
  change round (m + n) = round ((m + n : ℤ) : ℚ)
  rw [Int.cast_add]

/-- Adding what is not negative never lowers a number that is not NaN. -/
theorem le_add_intCast {k n : ℤ} {t : Number} (kept : |k| ≤ 2 ^ 53) (above : (k : Number) ≤ t)
    (nonneg : 0 ≤ n) (narrow : |n| ≤ 2 ^ 53) : (k : Number) ≤ t + n := by
  rw [intCast_def narrow]
  cases t with
  | fin d =>
    rw [intCast_def kept, fin_le] at above
    refine round_mono ?_
    have : (0 : ℚ) ≤ n := by exact_mod_cast nonneg
    change (k : ℚ) ≤ d.val + n
    linarith
  | posInf => rw [intCast_def kept]; rfl
  | _ => rw [intCast_def kept] at above; cases above

theorem natCast_narrow {n : ℕ} (bound : n < 2 ^ 53) : |(n : ℤ)| ≤ 2 ^ 53 := by
  rw [Nat.abs_cast]
  exact_mod_cast bound.le

theorem natCast_toNat {n : ℕ} (bound : n < 2 ^ 53) : ((n : ℤ) : Number).toInt.toNat = n := by
  rw [toInt_intCast (natCast_narrow bound), Int.toNat_natCast]

theorem natCast_inj {m n : ℕ} (left : m < 2 ^ 53) (right : n < 2 ^ 53) :
    ((m : ℤ) : Number) = (n : ℤ) ↔ m = n := by
  refine ⟨fun same => ?_, fun same => by rw [same]⟩
  rw [← natCast_toNat left, same, natCast_toNat right]

theorem natCast_le {m n : ℕ} (left : m < 2 ^ 53) (right : n < 2 ^ 53) :
    ((m : ℤ) : Number) ≤ (n : ℤ) ↔ m ≤ n := by
  rw [intCast_le (natCast_narrow left) (natCast_narrow right), Int.ofNat_le]

theorem natCast_lt {m n : ℕ} (left : m < 2 ^ 53) (right : n < 2 ^ 53) :
    ((m : ℤ) : Number) < (n : ℤ) ↔ m < n := by
  rw [intCast_lt (natCast_narrow left) (natCast_narrow right), Int.ofNat_lt]

theorem isSafeInteger_natCast {n : ℕ} (bound : n < 2 ^ 53) : ((n : ℤ) : Number).isSafeInteger = true := by
  refine isSafeInteger_iff.mpr ⟨n, ?_, rfl⟩
  rw [Nat.abs_cast]
  exact_mod_cast bound

theorem isInteger_natCast {n : ℕ} (bound : n < 2 ^ 53) : ((n : ℤ) : Number).isInteger = true := by
  rw [intCast_def (natCast_narrow bound)]
  simp [isInteger, Rat.isInt]

/-- A safe integer that is not below a natural number is one itself. -/
theorem natCast_of_le {x : Number} (safe : x.isSafeInteger = true) {k : ℕ} (small : k < 2 ^ 53)
    (above : ((k : ℤ) : Number) ≤ x) : ∃ n : ℕ, k ≤ n ∧ n < 2 ^ 53 ∧ x = (n : ℤ) := by
  obtain ⟨i, narrow, rfl⟩ := isSafeInteger_iff.mp safe
  have le := (intCast_le (natCast_narrow small) narrow.le).mp above
  lift i to ℕ using by omega
  rw [Nat.abs_cast] at narrow
  exact ⟨i, by exact_mod_cast le, by exact_mod_cast narrow, rfl⟩

theorem natCast_of_not_lt {x : Number} (safe : x.isSafeInteger = true) {k : ℕ} (small : k < 2 ^ 53)
    (above : ¬x < ((k : ℤ) : Number)) : ∃ n : ℕ, k ≤ n ∧ n < 2 ^ 53 ∧ x = (n : ℤ) := by
  refine natCast_of_le safe small ?_
  obtain ⟨i, narrow, rfl⟩ := isSafeInteger_iff.mp safe
  rw [intCast_lt narrow.le (natCast_narrow small), not_lt] at above
  exact intCast_mono above

/-- The number of an integer past the safe range is not that of a safe one. -/
theorem natCast_eq_of_lt {m n : ℕ} (bound : m < 2 ^ 53) (same : ((m : ℤ) : Number) = (n : ℤ)) :
    n = m := by
  rcases lt_or_ge n (2 ^ 53) with small | large
  · exact ((natCast_inj bound small).mp same).symm
  · have beyond : ((2 ^ 53 : ℤ) : Number) ≤ (n : ℤ) := intCast_mono (by exact_mod_cast large)
    have below : ((m : ℤ) : Number) < ((2 ^ 53 : ℤ) : Number) :=
      (intCast_lt (natCast_narrow bound) (by norm_num)).mpr (by exact_mod_cast bound)
    rw [← same] at beyond
    exact absurd beyond (not_le_of_lt below)

/-- A running total agrees with the exact sum until it leaves the safe range, and stays out. -/
structure Tracks (total : Number) (exact : ℤ) : Prop where
  exactly : exact < 2 ^ 53 → total = exact
  beyond : 2 ^ 53 ≤ exact → ((2 ^ 53 : ℤ) : Number) ≤ total

theorem tracks_zero : Tracks 0 0 where
  exactly _ := rfl
  beyond large := by omega

theorem Tracks.add (tracks : Tracks total exact) (nonneg : 0 ≤ exact) (positive : 0 ≤ n)
    (narrow : n < 2 ^ 53) : Tracks (total + (n : ℤ)) (exact + n) := by
  have added : |n| ≤ 2 ^ 53 := by rw [abs_of_nonneg positive]; omega
  rcases lt_or_ge exact (2 ^ 53) with small | large
  · have held : |exact| ≤ 2 ^ 53 := by rw [abs_of_nonneg nonneg]; omega
    rw [tracks.exactly small, add_intCast held added]
    exact ⟨fun _ => rfl, intCast_mono⟩
  · refine ⟨fun _ => by omega, fun _ => ?_⟩
    exact le_add_intCast (by norm_num) (tracks.beyond large) positive added

/-- A limit the exact sum exceeds is exceeded by the running total too. -/
theorem Tracks.lt {limit : ℤ} (tracks : Tracks total exact) (cap : |limit| < 2 ^ 53)
    (exceeded : limit < exact) : (limit : Number) < total := by
  have next : |limit + 1| ≤ 2 ^ 53 := by
    have := abs_lt.mp cap
    exact abs_le.mpr (by omega)
  have above : (limit : Number) < ((limit + 1 : ℤ) : Number) :=
    (intCast_lt cap.le next).mpr (by omega)
  refine lt_of_lt_of_le above ?_
  rcases lt_or_ge exact (2 ^ 53) with small | large
  · rw [tracks.exactly small]
    exact intCast_mono (by omega)
  · refine le_trans (intCast_mono ?_) (tracks.beyond large)
    have := abs_lt.mp cap
    omega

theorem Tracks.lt_iff {limit : ℤ} (tracks : Tracks total exact) (cap : |limit| < 2 ^ 53) :
    (limit : Number) < total ↔ limit < exact := by
  refine ⟨fun past => ?_, tracks.lt cap⟩
  by_contra! within
  have bound := abs_lt.mp cap
  rw [tracks.exactly (by omega)] at past
  exact not_le_of_lt past (intCast_mono within)

/-- A running total that is no safe integer has left the safe range. -/
theorem Tracks.large (tracks : Tracks total exact) (nonneg : 0 ≤ exact)
    (coarse : total.isSafeInteger = false) : 2 ^ 53 ≤ exact := by
  by_contra! small
  rw [tracks.exactly small, isSafeInteger_iff.mpr ⟨exact, by rwa [abs_of_nonneg nonneg], rfl⟩] at coarse
  cases coarse

end Number
end Vaduno.Ecma
