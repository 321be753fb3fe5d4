import Vaduno.Enforce.ConsumeStore
import Vaduno.Ledger.Canonical
import Vaduno.Ledger.Entry

/-! The audit chain as its verifier reads it: every hash and link is derived again, and a head that was
retained outside fixes where the chain has to end. -/
namespace Vaduno.Ledger
open Ecma

def genesisHash : JsString := List.replicate 64 48

namespace LedgerEntry

/-- The properties that the hash commits to. -/
def members (entry : LedgerEntry) : List (JsString × JsValue) :=
  (encode "seq", .number entry.seq) :: (encode "timestamp", .string entry.timestamp) ::
    (encode "type", .string entry.type.text) ::
    (optional "intentId" entry.refs.intentId ++ optional "agentId" entry.refs.agentId ++
    [(encode "data", entry.data), (encode "prevHash", .string entry.prevHash)])

/-- The row without its hash. -/
def unhashed (entry : LedgerEntry) : JsValue := .object entry.members

theorem object_eq (entry : LedgerEntry) :
    entry.object = .object (entry.members ++ [(encode "hash", .string entry.hash)]) := by
  simp [object, members]

/-- The names of a row's properties, whichever of the optional ones it has. -/
def names : List JsString := ["seq", "timestamp", "type", "intentId", "agentId", "data", "prevHash"]

theorem names_sublist (entry : LedgerEntry) : (entry.members.map Prod.fst).Sublist names := by
  obtain ⟨⟨timestamp, type, ⟨intentId, agentId⟩, data⟩, seq, prevHash, hash⟩ := entry
  have plain : ∀ {name : JsString} {text : Option JsString},
      ((optional name text).map Prod.fst).Sublist [name] := by
    intro name text
    cases text
    · exact List.nil_sublist _
    · exact List.Sublist.refl _
  simp only [members, List.map_cons, List.map_append, names]
  refine ((List.Sublist.cons_cons _ (((plain.append plain).append (List.Sublist.refl _)))).cons_cons _).cons_cons _

theorem proper_unhashed {entry : LedgerEntry} (proper : Proper entry.data) : Proper entry.unhashed := by
  refine ⟨List.Nodup.sublist entry.names_sublist (by decide), ?_⟩
  have texts : ∀ {name : JsString} {text : Option JsString} {rest : List (JsString × JsValue)},
      ProperProps rest → ProperProps (optional name text ++ rest) := by
    intro name text rest more
    cases text
    · exact more
    · exact ⟨trivial, more⟩
  refine ⟨trivial, trivial, trivial, ?_⟩
  rw [List.append_assoc]
  exact texts (texts ⟨proper, trivial, trivial⟩)

end LedgerEntry

/-- Where a chain ends. -/
structure LedgerTip where
  seq : Number
  hash : JsString

def genesis : LedgerTip := ⟨-1, genesisHash⟩

def LedgerEntry.tip (entry : LedgerEntry) : LedgerTip := ⟨entry.seq, entry.hash⟩

structure LedgerHead extends LedgerTip where
  entries : ℕ

structure VerifyResult where
  ok : Bool
  entries : ℕ
  /-- The number of the first bad row, if a row is bad. -/
  firstBadSeq : Option Number
  problem : Option JsString

section
variable (platform : Platform)

def entryHash (entry : LedgerEntry) : Throwing JsString :=
  platform.sha256Hex <$> canonicalJson entry.unhashed

/-- What is wrong with a row that comes after `tip`. -/
def problemOf (tip : LedgerTip) (entry : LedgerEntry) : Option JsString :=
  if entry.seq ≤ tip.seq then
    some ("duplicate or regressed seq: expected " ++ (tip.seq + 1).toText ++ ", got " ++ entry.seq.toText ++
      " (fork — a second writer, not a deletion)")
  else if tip.seq + 1 < entry.seq then
    some ("sequence gap: expected " ++ (tip.seq + 1).toText ++ ", got " ++ entry.seq.toText ++
      " (entries missing)")
  else if entry.prevHash ≠ tip.hash then
    some "prevHash does not match previous entry's hash (chain broken)"
  else
    match entryHash platform entry with
    | .error _ => some "entry is not canonicalizable (rejected)"
    | .ok recomputed =>
      if recomputed ≠ entry.hash then some "entry hash does not match entry contents (tampered)" else none

/-- The loop over the rows: where the chain ends, or the first bad row. -/
def scan (tip : LedgerTip) : List LedgerEntry → Except (Number × JsString) LedgerTip
  | [] => .ok tip
  | entry :: rest =>
    match problemOf platform tip entry with
    | some problem => .error (entry.seq, problem)
    | none => scan entry.tip rest

def verify (expected : Option LedgerHead) (entries : List LedgerEntry) : VerifyResult :=
  match scan platform genesis entries with
  | .error (seq, problem) => ⟨false, entries.length, some seq, some problem⟩
  | .ok tip =>
    match expected with
    | none => ⟨true, entries.length, none, none⟩
    | some head =>
      if entries.length ≠ head.entries ∨ tip.hash ≠ head.hash then
        ⟨false, entries.length, none, some ("chain tip (seq " ++ tip.seq.toText ++ ", " ++
          natText entries.length ++ " entries) does not match retained head (seq " ++ head.seq.toText ++ ", " ++
          natText head.entries ++ " entries) — truncated or rewritten")⟩
      else ⟨true, entries.length, none, none⟩

/-- The head of a chain, which is refused where the rows are not as many as its last one says. -/
def head (entries : List LedgerEntry) : Throwing LedgerHead :=
  match entries.getLast? with
  | none => .ok { genesis with entries := 0 }
  | some last =>
    if ((entries.length : ℤ) : Number) ≠ last.seq + 1 then
      .error (.error ("head() refused: " ++ natText entries.length ++ " entries but tip seq " ++
        last.seq.toText ++ " — chain is forked or truncated (concurrent writers?); run verify() and " ++
        "repair before retaining a head"))
    else .ok { last.tip with entries := entries.length }

end

/-! ### The rows of a verified chain -/

variable {platform : Platform} {tip : LedgerTip} {entries : List LedgerEntry}

theorem problemOf_none {entry : LedgerEntry} : problemOf platform tip entry = none ↔
    ¬entry.seq ≤ tip.seq ∧ ¬tip.seq + 1 < entry.seq ∧ entry.prevHash = tip.hash ∧
      entryHash platform entry = .ok entry.hash := by
  unfold problemOf
  split_ifs with regressed gap broken
  · simp [regressed]
  · simp [gap]
  · simp [broken]
  · rw [not_not] at broken
    cases hashed : entryHash platform entry with
    | error e => simp
    | ok recomputed =>
      by_cases tampered : recomputed = entry.hash
      · simp [regressed, gap, broken, tampered]
      · simp [tampered]

theorem scan_cons {entry : LedgerEntry} {rest : List LedgerEntry} {last : LedgerTip} :
    scan platform tip (entry :: rest) = .ok last ↔
      problemOf platform tip entry = none ∧ scan platform entry.tip rest = .ok last := by
  rw [scan]
  cases problemOf platform tip entry <;> simp

theorem scan_append {more : List LedgerEntry} {last : LedgerTip} :
    scan platform tip (entries ++ more) = .ok last ↔
      ∃ middle, scan platform tip entries = .ok middle ∧ scan platform middle more = .ok last := by
  induction entries generalizing tip with
  | nil => simp [scan]
  | cons entry rest ih =>
    rw [List.cons_append, scan_cons, ih]
    simp only [scan_cons, and_assoc, exists_and_left]

theorem scan_tip {last : LedgerTip} (scanned : scan platform tip entries = .ok last) :
    last = (entries.getLast?.map LedgerEntry.tip).getD tip := by
  induction entries generalizing tip with
  | nil =>
    cases scanned
    rfl
  | cons entry rest ih =>
    rw [ih (scan_cons.mp scanned).2, List.getLast?_cons]
    cases rest.getLast? <;> rfl

theorem isFinite_seq {entry : LedgerEntry} {digest : JsString} (hashed : entryHash platform entry = .ok digest) :
    entry.seq.isFinite = true := by
  rw [entryHash] at hashed
  cases text : canonicalJson entry.unhashed with
  | error e =>
    rw [text] at hashed
    cases hashed
  | ok json => exact isFinite_of_canonicalJson "seq" text List.mem_cons_self

/-- Numbers in a verified chain only grow. -/
theorem scan_ascending {last : LedgerTip} (scanned : scan platform tip entries = .ok last)
    (number : tip.seq.isNaN = false) :
    (∀ entry ∈ entries, tip.seq < entry.seq) ∧ entries.Pairwise (·.seq < ·.seq) := by
  induction entries generalizing tip with
  | nil => exact ⟨List.forall_mem_nil _, .nil⟩
  | cons entry rest ih =>
    obtain ⟨sound, later⟩ := scan_cons.mp scanned
    obtain ⟨fresh, -, -, hashed⟩ := problemOf_none.mp sound
    have number' := Number.isNaN_of_isFinite (isFinite_seq hashed)
    obtain ⟨above, ascending⟩ := ih later number'
    have first : tip.seq < entry.seq := Number.lt_of_not_le number number' fresh
    constructor
    · rw [List.forall_mem_cons]
      exact ⟨first, fun e member => Number.lt_of_lt_of_le first (Number.le_of_lt (above e member))⟩
    · exact List.pairwise_cons.mpr ⟨above, ascending⟩

theorem verify_ok_iff {expected : Option LedgerHead} : (verify platform expected entries).ok = true ↔
    ∃ tip, scan platform genesis entries = .ok tip ∧
      ∀ head ∈ expected, entries.length = head.entries ∧ tip.hash = head.hash := by
  unfold verify
  cases scan platform genesis entries with
  | error e => simp
  | ok tip =>
    cases expected with
    | none => simp
    | some head =>
      simp only
      split_ifs with other
      · have apart : ¬(entries.length = head.entries ∧ tip.hash = head.hash) := not_and_or.mpr other
        simpa using apart
      · simpa [not_or] using other

end Vaduno.Ledger
