import Mathlib.Data.List.TakeWhile
import Vaduno.Ledger.Append
import Vaduno.Sample

/-! One chain for any number of writers. A row that a store takes goes onto the end: no two rows are numbered alike or
come after the same one, so that the rows verify at any time. -/
namespace Vaduno.Ledger
open Ecma Async

/-! ### Chains -/

section Chains
variable {platform : Platform} {rows before : List LedgerEntry} {entry : LedgerEntry} {expected : ExpectedTip}

/-- The rows are numbered from zero on. -/
def Numbered (rows : List LedgerEntry) : Prop :=
  rows.map (·.seq) = (List.range rows.length).map fun k : ℕ => ((k : ℤ) : Number)

/-- The rows verify, and they are numbered from zero on. Past `2 ^ 53` no number has a successor. -/
structure Linear (platform : Platform) (rows : List LedgerEntry) : Prop where
  verified : (verify platform none rows).ok = true
  numbered : Numbered rows
  narrow : rows.length ≤ 2 ^ 53 + 1

theorem Linear.scanned (linear : Linear platform rows) : scan platform genesis rows = .ok (lastTip rows) := by
  obtain ⟨tip, scanned, -⟩ := verify_ok_iff.mp linear.verified
  rw [scanned, scan_tip scanned, lastTip]

theorem lastTip_concat : lastTip (rows ++ [entry]) = entry.tip := by
  rw [lastTip, List.getLast?_concat]
  rfl

theorem numbered_concat : Numbered (rows ++ [entry]) ↔
    Numbered rows ∧ entry.seq = ((rows.length : ℤ) : Number) := by
  rw [Numbered, List.length_append, List.length_singleton, List.range_succ, List.map_append, List.map_append,
    List.map_singleton, List.map_singleton]
  constructor
  · intro same
    obtain ⟨front, own⟩ := List.append_inj' same rfl
    exact ⟨front, List.singleton_inj.mp own⟩
  · rintro ⟨front, own⟩
    rw [show rows.map (·.seq) = _ from front, own]

theorem Numbered.earlier (numbered : Numbered rows) (earlier : before <+: rows) : Numbered before := by
  obtain ⟨rest, rfl⟩ := earlier
  rw [Numbered, List.length_append, List.range_add, List.map_append, List.map_append] at numbered
  exact List.append_inj_left numbered (by simp)

/-- The tip of a chain has the number of its last row, or the one before the first. -/
theorem Numbered.lastTip_seq (numbered : Numbered rows) : (lastTip rows).seq = ((rows.length - 1 : ℤ) : Number) := by
  induction rows using List.reverseRecOn with
  | nil => decide +kernel
  | append_singleton rows last _ =>
    rw [lastTip_concat, List.length_append, List.length_singleton]
    simpa [LedgerEntry.tip] using (numbered_concat.mp numbered).2

theorem nextSeq_eq : nextSeq (rows.getLast?.map LedgerEntry.tip) = (lastTip rows).seq + 1 := by
  rw [nextSeq, lastTip]
  cases rows.getLast? with
  | none => decide +kernel
  | some last => rfl

theorem tipHash_eq : tipHash (rows.getLast?.map LedgerEntry.tip) = (lastTip rows).hash := by
  rw [tipHash, lastTip]
  cases rows.getLast? <;> rfl

/-- The number after the tip of a chain is a whole one that is not beyond its length: past `2 ^ 53` it is the tip's
own. -/
theorem Numbered.nextSeq (numbered : Numbered rows) (narrow : rows.length ≤ 2 ^ 53 + 1) :
    ∃ k : ℕ, k ≤ rows.length ∧ k ≤ 2 ^ 53 ∧ (lastTip rows).seq + 1 = ((k : ℤ) : Number) := by
  have held : |(rows.length - 1 : ℤ)| ≤ 2 ^ 53 := abs_le.mpr (by omega)
  have next : (lastTip rows).seq + 1 = ((rows.length : ℤ) : Number) := by
    rw [numbered.lastTip_seq]
    change ((rows.length - 1 : ℤ) : Number) + ((1 : ℤ) : Number) = _
    rw [Number.add_intCast held (by norm_num)]
    simp
  rcases Nat.lt_or_ge (2 ^ 53) rows.length with past | within
  · have length : rows.length = 2 ^ 53 + 1 := by omega
    refine ⟨2 ^ 53, past.le, le_refl _, ?_⟩
    rw [next, length]
    decide +kernel
  · exact ⟨rows.length, le_refl _, within, next⟩

/-- A row that was hashed onto a tip. -/
structure Chained (platform : Platform) (record : Record) (tip : Option LedgerTip) (entry : LedgerEntry) : Prop where
  seq : entry.seq = Ledger.nextSeq tip
  prevHash : entry.prevHash = tipHash tip
  hashed : entryHash platform entry = .ok entry.hash
  type : entry.type = record.type
  data : entry.data = record.data
  refs : entry.refs = record.refs

theorem chained_of_chain {record : Record} {tip : Option LedgerTip} {timestamp : JsString}
    (chains : chain platform record tip timestamp = .ok entry) : Chained platform record tip entry := by
  obtain ⟨hash, hashed, same⟩ := bind_ok chains
  cases same
  exact ⟨rfl, rfl, hashed, rfl, rfl, rfl⟩

theorem sub_intCast {m n : ℤ} (left : |m| ≤ 2 ^ 53) (right : |n| ≤ 2 ^ 53) :
    (m : Number) - n = ((m - n : ℤ) : Number) := by
  rw [Number.intCast_def left, Number.intCast_def right]
  change Number.round (m - n) = Number.round ((m - n : ℤ) : ℚ)
  rw [Int.cast_sub]

theorem intCast_inj {m n : ℤ} (left : |m| ≤ 2 ^ 53) (right : |n| ≤ 2 ^ 53) (same : (m : Number) = n) : m = n := by
  rw [← Number.toInt_intCast left, same, Number.toInt_intCast right]

/-- A row with the next number and the hash of the tip makes the chain longer. -/
theorem Linear.concat (linear : Linear platform rows) (room : rows.length ≤ 2 ^ 53)
    (seq : entry.seq = ((rows.length : ℤ) : Number)) (prevHash : entry.prevHash = (lastTip rows).hash)
    (hashed : entryHash platform entry = .ok entry.hash) : Linear platform (rows ++ [entry]) := by
  have tip : |(rows.length - 1 : ℤ)| ≤ 2 ^ 53 := abs_le.mpr (by omega)
  have own : |(rows.length : ℤ)| ≤ 2 ^ 53 := abs_le.mpr (by omega)
  have next : (lastTip rows).seq + 1 = entry.seq := by
    rw [linear.numbered.lastTip_seq, seq]
    change ((rows.length - 1 : ℤ) : Number) + ((1 : ℤ) : Number) = _
    rw [Number.add_intCast tip (by norm_num)]
    simp
  have sound : problemOf platform (lastTip rows) entry = none := by
    refine problemOf_none.mpr ⟨?_, ?_, prevHash, hashed⟩
    · rw [linear.numbered.lastTip_seq, seq, Number.intCast_le own tip]
      omega
    · rw [next, seq, Number.intCast_lt own own]
      exact lt_irrefl _
  constructor
  · refine verify_ok_iff.mpr ⟨entry.tip, scan_append.mpr ⟨lastTip rows, linear.scanned, ?_⟩, ?_⟩
    · exact scan_cons.mpr ⟨sound, rfl⟩
    · intro head none
      cases none
  · exact numbered_concat.mpr ⟨linear.numbered, seq⟩
  · rw [List.length_append, List.length_singleton]
    omega

theorem sameNumber_iff {a b : Number} : sameNumber a b = true ↔ a.isNaN = false ∧ a = b := by
  simp [sameNumber]

theorem insertRow_last (below : ∀ row ∈ rows, row.seq < entry.seq) : insertRow entry rows = rows ++ [entry] := by
  have all : ∀ row ∈ rows, decide (row.seq < entry.seq) = true := fun row member => decide_eq_true (below row member)
  have front : rows.takeWhile (fun row => decide (row.seq < entry.seq)) = rows := List.takeWhile_eq_self_iff.mpr all
  have back : rows.dropWhile (fun row => decide (row.seq < entry.seq)) = [] := List.dropWhile_eq_nil_iff.mpr all
  rw [insertRow, front, back]

theorem Numbered.row (numbered : Numbered rows) {k : ℕ} (inside : k < rows.length) :
    ∃ row ∈ rows, row.seq = ((k : ℤ) : Number) := by
  have listed : ((k : ℤ) : Number) ∈ rows.map (·.seq) := by
    rw [show rows.map (·.seq) = _ from numbered]
    exact List.mem_map_of_mem (List.mem_range.mpr inside)
  obtain ⟨row, member, own⟩ := List.mem_map.mp listed
  exact ⟨row, member, own⟩

theorem Numbered.of_mem (numbered : Numbered rows) {row : LedgerEntry} (member : row ∈ rows) :
    ∃ k : ℕ, k < rows.length ∧ row.seq = ((k : ℤ) : Number) := by
  have listed : row.seq ∈ rows.map (·.seq) := List.mem_map_of_mem member
  rw [show rows.map (·.seq) = _ from numbered] at listed
  obtain ⟨k, inside, own⟩ := List.mem_map.mp listed
  exact ⟨k, List.mem_range.mp inside, own.symm⟩

/-- A store of either kind takes a row only onto the end of its chain, if the row was hashed onto a tip that the chain
had at some time. -/
theorem Linear.take {record : Record} {kind : StoreKind} {rows' : List LedgerEntry} (linear : Linear platform rows)
    (earlier : before <+: rows) (chained : Chained platform record (before.getLast?.map LedgerEntry.tip) entry)
    (took : kind.take rows entry ⟨entry.seq - 1, entry.prevHash⟩ = some rows') :
    rows' = rows ++ [entry] ∧ Linear platform rows' := by
  have within : before.length ≤ rows.length := earlier.length_le
  obtain ⟨k, most, held, next⟩ := (linear.numbered.earlier earlier).nextSeq (within.trans linear.narrow)
  have seq : entry.seq = ((k : ℤ) : Number) := by rw [chained.seq, nextSeq_eq, next]
  have own : |(k : ℤ)| ≤ 2 ^ 53 := abs_le.mpr (by omega)
  have tip : |(rows.length - 1 : ℤ)| ≤ 2 ^ 53 := abs_le.mpr (by have := linear.narrow; omega)
  have onto : ∀ {k : ℕ}, k ≤ 2 ^ 53 → k = rows.length → entry.seq = ((k : ℤ) : Number) →
      entry.prevHash = (lastTip rows).hash → Linear platform (rows ++ [entry]) := by
    rintro k held rfl seq prevHash
    exact linear.concat held seq prevHash chained.hashed
  cases kind with
  | compares =>
    rw [StoreKind.take] at took
    split_ifs at took with compared
    cases took
    rw [Bool.and_eq_true, sameNumber_iff, decide_eq_true_eq] at compared
    obtain ⟨⟨-, number⟩, hash⟩ := compared
    refine ⟨rfl, onto held ?_ seq hash.symm⟩
    rw [linear.numbered.lastTip_seq, seq] at number
    change _ = ((k : ℤ) : Number) - ((1 : ℤ) : Number) at number
    rw [sub_intCast own (by norm_num)] at number
    have := intCast_inj tip (abs_le.mpr (by omega)) number
    omega
  | constrained =>
    rw [StoreKind.take] at took
    split_ifs at took with taken
    cases took
    simp only [List.any_eq_true, not_exists, not_and, Bool.or_eq_true, not_or] at taken
    have whole : k = rows.length := by
      by_contra other
      obtain ⟨row, member, numbered⟩ := linear.numbered.row (lt_of_le_of_ne (most.trans within) other)
      refine (taken row member).1 (sameNumber_iff.mpr ⟨?_, numbered.trans seq.symm⟩)
      rw [numbered, Number.intCast_def own]
      rfl
    have same : before = rows := earlier.eq_of_length (by omega)
    have last : insertRow entry rows = rows ++ [entry] := insertRow_last fun row member => by
      obtain ⟨j, inside, numbered⟩ := linear.numbered.of_mem member
      rw [numbered, seq, Number.intCast_lt (abs_le.mpr (by omega)) own]
      omega
    rw [last]
    exact ⟨rfl, onto held whole seq (by rw [chained.prevHash, tipHash_eq, same])⟩

end Chains

/-! ### One writer -/

/-- The row says what was to be recorded. -/
structure Record.Written (record : Record) (entry : LedgerEntry) : Prop where
  type : entry.type = record.type
  data : entry.data = record.data
  refs : entry.refs = record.refs

theorem Chained.written {platform : Platform} {record : Record} {tip : Option LedgerTip} {entry : LedgerEntry}
    (chained : Chained platform record tip entry) : record.Written entry :=
  ⟨chained.type, chained.data, chained.refs⟩

/-- What a writer has read of the tip, the row that the store took from it, and whether the store failed it. -/
structure Writer where
  tip : Option (Option LedgerTip)
  written : Option LedgerEntry
  failed : Bool

namespace Writer

def start : Writer := ⟨none, none, false⟩

def advance (w : Writer) : (op : LedgerOp) → op.Answer → Writer
  | .last, .ok found => { w with tip := some (found.map LedgerEntry.tip) }
  | .append _ _, .ok (.conflict tip) => { w with tip := some tip }
  | .append entry _, .ok .ok => { w with written := some entry }
  | .append _ _, .error _ => { w with failed := true }
  | _, _ => w

end Writer

/-- A writer asks for one row at a time, hashed onto the tip it has read last, and for none once one was taken or the
store has failed it. -/
def writing (platform : Platform) (record : Record) : Monitor LedgerOp.Answer Writer where
  allowed w
    | .append entry expected => w.written = none ∧ w.failed = false ∧ expected = ⟨entry.seq - 1, entry.prevHash⟩ ∧
      ∃ tip, w.tip = some tip ∧ Chained platform record tip entry
    | _ => True
  step w op ans w' := w' = w.advance op ans

/-- A writer reports the row that was taken, and an error where none is known to have been. -/
structure Reports (w : Writer) (r : Throwing LedgerEntry) : Prop where
  written : r.toOption = w.written
  sound : w.written ≠ none → w.failed = false

section Meets
variable {platform : Platform} {record : Record} {w : Writer}

theorem reports_error {e : Thrown} (unwritten : w.written = none) : Reports w (.error e) where
  written := unwritten.symm
  sound some := absurd unwritten some

theorem attempt_meets (attempts : ℕ) {tip : Option LedgerTip} : (AuditLedger.attempt platform record attempts tip).Meets
    (writing platform record) Reports ⟨some tip, none, false⟩ := by
  induction attempts generalizing tip with
  | zero => exact reports_error rfl
  | succ attempts ih =>
    unfold AuditLedger.attempt
    refine meets_orThrow_bind.mpr ⟨trivial, ?_⟩
    rintro timestamp w rfl
    cases timestamp with
    | error e => exact reports_error rfl
    | ok timestamp =>
      change (Async.settled (chain platform record tip timestamp) >>= _).Meets _ _ (Writer.mk (some tip) none false)
      cases chains : chain platform record tip timestamp with
      | error e => exact reports_error rfl
      | ok entry =>
        have chained := chained_of_chain chains
        refine meets_orThrow_bind.mpr ⟨⟨rfl, rfl, rfl, tip, rfl, chained⟩, ?_⟩
        rintro answered w rfl
        rcases answered with e | result
        · exact reports_error rfl
        · cases result with
          | ok => exact ⟨rfl, fun _ => rfl⟩
          | conflict tip => exact ih
          | missing => exact reports_error rfl

theorem append_meets :
    (AuditLedger.append platform record).Meets (writing platform record) Reports .start := by
  unfold AuditLedger.append
  refine (meets_bracket _ _ _ _).mpr ⟨trivial, ?_⟩
  rintro _ w rfl
  have left : ∀ (w : Writer) (r : Throwing LedgerEntry), Reports w r →
      (writing platform record).allowed w .leave ∧ ∀ ans w', (writing platform record).step w .leave ans w' →
        Reports w' r := by
    rintro w r reports
    refine ⟨trivial, ?_⟩
    rintro ans w' rfl
    exact reports
  refine meets_orThrow_bind.mpr ⟨trivial, ?_⟩
  rintro found w rfl
  cases found with
  | error e => exact left _ _ (reports_error rfl)
  | ok found => exact (attempt_meets _).mono left

end Meets

/-! ### Any number of writers -/

section Runs
variable {ι : Type} [DecidableEq ι] {platform : Platform} {kind : StoreKind} {records : ι → Record}
  {start : List LedgerEntry} {s s' : Shared ι} {events : List (ι × Event LedgerOp.Answer)} {writers : ι → Writer}
  {i j : ι} {op : LedgerOp} {ans : op.Answer} {entry : LedgerEntry}

/-- The rows that were taken from one writer. -/
def Shared.rowsOf (s : Shared ι) (i : ι) : List LedgerEntry := (s.log.filter fun e => decide (e.1 = i)).map (·.2)

theorem Shared.rowsOf_taken (taken : s'.log = s.log ++ [(i, entry)]) :
    s'.rowsOf j = s.rowsOf j ++ if i = j then [entry] else [] := by
  rw [rowsOf, taken, List.filter_append, List.map_append, rowsOf, List.filter_singleton]
  by_cases same : i = j <;> simp [same]

theorem Shared.mem_rowsOf : entry ∈ s.rowsOf i ↔ (i, entry) ∈ s.log := by
  simp [rowsOf]

/-- Writers that append to the rows of one store, each of them a row. -/
def appending (platform : Platform) (records : ι → Record) (rows : List LedgerEntry) :
    Pool LedgerOp.Answer Thrown LedgerEntry (Shared ι) ι :=
  ⟨⟨rows, []⟩, fun i => AuditLedger.append platform (records i)⟩

/-- The store failed this writer. -/
def Failed (events : List (ι × Event LedgerOp.Answer)) (i : ι) : Prop :=
  ∃ entry expected e, (i, ⟨.append entry expected, .error e⟩) ∈ events

/-- The rows are a chain of what was taken, and each writer knows a tip that the chain has had. -/
structure OneChain (platform : Platform) (records : ι → Record) (start : List LedgerEntry)
    (events : List (ι × Event LedgerOp.Answer)) (s : Shared ι) (writers : ι → Writer) : Prop where
  linear : Linear platform s.rows
  grown : s.rows = start ++ s.log.map (·.2)
  read : ∀ i tip, (writers i).tip = some tip → s.Had tip
  written : ∀ i, ∀ entry ∈ s.rowsOf i, (records i).Written entry
  once : ∀ i, (s.rowsOf i).length ≤ 1
  own : ∀ i, (writers i).failed = false → s.rowsOf i = (writers i).written.toList
  failed : ∀ i, (writers i).failed = true → Failed events i

namespace OneChain
variable (chain : OneChain platform records start events s writers)
include chain

/-- An answer with which no row is taken. -/
theorem answered (still : ((writers i).advance op ans).written = (writers i).written)
    (read : ∀ tip, ((writers i).advance op ans).tip = some tip → s.Had tip)
    (own : ((writers i).advance op ans).failed = false → (writers i).failed = false)
    (failed : ((writers i).advance op ans).failed = true → Failed (events ++ [(i, ⟨op, ans⟩)]) i) :
    OneChain platform records start (events ++ [(i, ⟨op, ans⟩)]) s
      (Function.update writers i ((writers i).advance op ans)) where
  linear := chain.linear
  grown := chain.grown
  written := chain.written
  once := chain.once
  read j tip known := by
    rcases eq_or_ne j i with rfl | other
    · rw [Function.update_self] at known
      exact read tip known
    · rw [Function.update_of_ne other] at known
      exact chain.read j tip known
  own j sound := by
    rcases eq_or_ne j i with rfl | other
    · rw [Function.update_self] at sound ⊢
      rw [still]
      exact chain.own j (own sound)
    · rw [Function.update_of_ne other] at sound ⊢
      exact chain.own j sound
  failed j lost := by
    rcases eq_or_ne j i with rfl | other
    · rw [Function.update_self] at lost
      exact failed lost
    · rw [Function.update_of_ne other] at lost
      obtain ⟨entry, expected, e, member⟩ := chain.failed j lost
      exact ⟨entry, expected, e, List.mem_append_left _ member⟩

/-- A row is taken from a writer of which the store had none. -/
theorem taken {expected : ExpectedTip} {tip : Option LedgerTip} (unwritten : (writers i).written = none)
    (sound : (writers i).failed = false) (same : expected = ⟨entry.seq - 1, entry.prevHash⟩)
    (known : (writers i).tip = some tip) (chained : Chained platform (records i) tip entry)
    (takes : s.Takes kind i entry expected s') (still : ((writers i).advance op ans).tip = (writers i).tip)
    (own : ((writers i).advance op ans).failed = false → ((writers i).advance op ans).written = some entry)
    (failed : ((writers i).advance op ans).failed = true → Failed (events ++ [(i, ⟨op, ans⟩)]) i) :
    OneChain platform records start (events ++ [(i, ⟨op, ans⟩)]) s'
      (Function.update writers i ((writers i).advance op ans)) := by
  obtain ⟨before, earlier, rfl⟩ := chain.read i tip known
  subst same
  obtain ⟨took, logged⟩ := takes
  obtain ⟨rows, linear⟩ := chain.linear.take earlier chained took
  have none : s.rowsOf i = [] := by rw [chain.own i sound, unwritten]; rfl
  constructor
  · exact linear
  · rw [rows, logged, chain.grown]
    simp
  · intro j tip known
    have had : s.Had tip := by
      rcases eq_or_ne j i with rfl | other
      · rw [Function.update_self, still] at known
        exact chain.read j tip known
      · rw [Function.update_of_ne other] at known
        exact chain.read j tip known
    obtain ⟨before, earlier, same⟩ := had
    rw [Shared.Had, rows]
    exact ⟨before, earlier.trans (List.prefix_append _ _), same⟩
  · intro j row member
    rw [Shared.rowsOf_taken logged, List.mem_append] at member
    rcases member with member | member
    · exact chain.written j row member
    · split_ifs at member with same
      · subst same
        rw [List.mem_singleton.mp member]
        exact chained.written
      · cases member
  · intro j
    rw [Shared.rowsOf_taken logged]
    rcases eq_or_ne j i with rfl | other
    · simp [none]
    · simpa [other.symm] using chain.once j
  · intro j sound
    rw [Shared.rowsOf_taken logged]
    rcases eq_or_ne j i with rfl | other
    · rw [Function.update_self] at sound ⊢
      simp [none, own sound]
    · rw [Function.update_of_ne other] at sound ⊢
      simpa [other.symm] using chain.own j sound
  · intro j lost
    rcases eq_or_ne j i with rfl | other
    · rw [Function.update_self] at lost
      exact failed lost
    · rw [Function.update_of_ne other] at lost
      obtain ⟨entry, expected, e, member⟩ := chain.failed j lost
      exact ⟨entry, expected, e, List.mem_append_left _ member⟩

/-- What was known of a failure stays known. -/
theorem failed_later (lost : (writers i).failed = true) : Failed (events ++ [(i, ⟨op, ans⟩)]) i := by
  obtain ⟨entry, expected, e, member⟩ := chain.failed i lost
  exact ⟨entry, expected, e, List.mem_append_left _ member⟩

/-- What one answer to one writer does. -/
theorem step (allowed : (writing platform (records i)).allowed (writers i) op) (serves : Serves kind s i op ans s') :
    OneChain platform records start (events ++ [(i, ⟨op, ans⟩)]) s'
      (Function.update writers i ((writers i).advance op ans)) := by
  cases op with
  | enter | leave =>
    obtain rfl : s' = s := serves
    exact chain.answered rfl (chain.read i) id chain.failed_later
  | nowIso =>
    obtain rfl : s' = s := serves
    exact chain.answered rfl (chain.read i) id chain.failed_later
  | last =>
    cases ans with
    | error e =>
      obtain rfl : s' = s := serves
      exact chain.answered rfl (chain.read i) id chain.failed_later
    | ok found =>
      obtain ⟨rfl, had⟩ := serves
      refine chain.answered rfl (fun tip known => ?_) id chain.failed_later
      rw [← Option.some.inj known]
      exact had
  | append entry expected =>
    obtain ⟨unwritten, sound, same, tip, known, chained⟩ := allowed
    rcases ans with e | result
    · have failed : Failed (events ++ [(i, ⟨.append entry expected, .error e⟩)]) i := ⟨entry, expected, e, by simp⟩
      rcases serves with rfl | takes
      · exact chain.answered rfl (chain.read i) (fun _ => sound) fun _ => failed
      · exact chain.taken unwritten sound same known chained takes rfl (fun no => by cases no) fun _ => failed
    · cases result with
      | missing => exact serves.elim
      | conflict real =>
        obtain ⟨rfl, had⟩ := serves
        refine chain.answered rfl (fun tip known => ?_) id chain.failed_later
        rw [← Option.some.inj known]
        exact had
      | ok =>
        exact chain.taken unwritten sound same known chained serves rfl (fun _ => rfl) chain.failed_later

end OneChain

end Runs

/-! ### Two writers that read one tip -/

namespace Linear.Sample

/-- A table that answers at once. -/
def oracle (s : Shared Bool) (i : Bool) : (op : LedgerOp) → op.Answer × Shared Bool
  | .enter | .leave => ((), s)
  | .last => (.ok s.rows.getLast?, s)
  | .nowIso => (.ok "now", s)
  | .append entry _ => (.ok (supabaseAppend s.rows entry).1, s.answered i entry (supabaseAppend s.rows entry))

def records (i : Bool) : Record := ⟨if i then .guardFrozen else .guardUnfrozen, .null, ⟨none, none⟩⟩

/-- Both have read that there is no row yet; the second one loses, and comes after the first. -/
def schedule : List Bool := [false, true, false, true, false, true, false, true, false, true, true, true]

def played : List (Bool × Event LedgerOp.Answer) × Pool LedgerOp.Answer Thrown LedgerEntry (Shared Bool) Bool :=
  Pool.play oracle schedule (appending Vaduno.Sample.platform records [])

def isWritten : LedgerProgram LedgerEntry → Bool
  | .done (.ok _) => true
  | _ => false

theorem both_written : (isWritten (played.2.threads false) && isWritten (played.2.threads true)) = true ∧
    played.2.world.rows.length = 2 := by
  decide +kernel

end Linear.Sample
end Vaduno.Ledger
