import Vaduno.Ecma.Utf8Read
import Vaduno.Enforce.FileMutex
import Vaduno.Transparency.Merkle

/-! The leaf file of a transparency log: one hash a line. A process may stop between any two bytes that it
writes; the next reader of the file completes a hash that lacks its newline, and cuts off a shorter rest.
Operations may fail too, and then leave what they would have left had the process stopped. -/
namespace Vaduno.Transparency
open Ecma
open Enforce (SystemError)

/-! ### The store -/

inductive FileOp
  /-- `mkdir(dirname(filePath), { recursive: true })`. -/
  | makeDir
  | readFile
  | appendFile (text : JsString)
  | truncate (length : ℕ)
  /-- `open(filePath, "r")`. -/
  | openRead
  /-- `(await fh.stat()).size`. -/
  | size
  /-- One byte into a buffer of one zero byte. -/
  | readByte (position : ℕ)
  | close
  /-- The store's `dirEnsured`, read and written. -/
  | dirEnsured
  | setDirEnsured (ensured : Bool)

@[reducible] def FileOp.Answer : FileOp → Type
  | makeDir | appendFile _ | truncate _ | openRead | close => Except SystemError Unit
  | readFile => Except SystemError JsString
  | size => Except SystemError ℕ
  | readByte _ => Except SystemError UInt8
  | dirEnsured => Bool
  | setDirEnsured _ => Unit

inductive TreeError
  | system (e : SystemError)
  /-- `new Error(message)`. -/
  | error (message : JsString)

/-- `err.code === "ENOENT"`. -/
def TreeError.missing : TreeError → Bool
  | .system e => decide (e.code = "ENOENT")
  | .error _ => false

abbrev TreeProgram : Type → Type := Async FileOp.Answer TreeError

abbrev FileOp.ask (op : FileOp) : TreeProgram op.Answer := Async.perform op

/-- Fails with what an operation was refused with. -/
def orSystem : Except SystemError α → TreeProgram α
  | .ok a => return a
  | .error e => throw (.system e)

/-- `LEAF_LINE.test(line)`. -/
def isLeafLine (line : JsString) : Bool := decide (line.length = 64) && line.all isHexUnit

/-- `line.replace(/\r$/, "")`. -/
def dropReturn (line : JsString) : JsString := if line.getLast? = some 13 then line.dropLast else line

namespace JsonlTreeStore
variable (filePath : JsString)

def ensureDir : TreeProgram Unit := do
  if ← FileOp.ask .dirEnsured then return ()
  else do
    orSystem (← FileOp.ask .makeDir)
    FileOp.ask (.setDirEnsured true)

/-- `raw.lastIndexOf("\n") + 1`. -/
def lastLineStart (raw : JsString) : ℕ := raw.length - (raw.reverse.takeWhile (· ≠ 10)).length

/-- Repairs a torn tail, and gives back the text that the file has then. -/
def repair (raw : JsString) : TreeProgram JsString :=
  if raw.length > 0 ∧ raw.getLast? ≠ some 10 then
    let keep := lastLineStart raw
    if isLeafLine (dropReturn (raw.drop keep)) then do
      orSystem (← FileOp.ask (.appendFile "\n"))
      return raw ++ "\n"
    else do
      orSystem (← FileOp.ask (.truncate (utf8 (raw.take keep)).length))
      return raw.take keep
  else return raw

def linesOf (raw : JsString) : List JsString :=
  ((raw.splitOn 10).map dropReturn).filter (·.length > 0)

/-- The lines, if each is a leaf hash. -/
def checkLines (lines : List JsString) : TreeProgram (List JsString) :=
  match lines.findIdx? fun line => !isLeafLine line with
  | some i => throw (.error (filePath ++ ": line " ++ natText (i + 1) ++
      " is not a leaf hash — tree file is corrupted"))
  | none => return lines

def load : TreeProgram (List JsString) :=
  tryCatch (do
      let raw ← repair (← orSystem (← FileOp.ask .readFile))
      checkLines filePath (linesOf raw))
    fun e => if e.missing then return [] else throw e

/-- What is read of an open file: whether it ends with a newline, or holds nothing. -/
def lastByteTerminates : TreeProgram Bool := do
  let size ← orSystem (← FileOp.ask .size)
  if size = 0 then return true
  else do
    let byte ← orSystem (← FileOp.ask (.readByte (size - 1)))
    return decide (byte = 10)

/-- The handle is closed whatever was read; a failed close takes the place of it. -/
def tailIsTerminated : TreeProgram Bool := do
  match ← FileOp.ask .openRead with
  | .error e => if (TreeError.system e).missing then return true else throw (.system e)
  | .ok _ =>
    let found ← Async.outcomeOf (tryCatch lastByteTerminates
      fun e => if e.missing then return true else throw e)
    orSystem (← FileOp.ask .close)
    Async.settled found

/-- A torn tail is repaired before anything is appended to it. -/
def repairTail : TreeProgram Unit := do
  if ← tailIsTerminated then return ()
  else do
    let _ ← load filePath
    return ()

/-- The append of a line, tried again where the directory has gone. -/
def appendLine (line : JsString) : TreeProgram Unit := do
  match ← FileOp.ask (.appendFile line) with
  | .ok _ => return ()
  | .error e =>
    if (TreeError.system e).missing then do
      FileOp.ask (.setDirEnsured false)
      ensureDir
      orSystem (← FileOp.ask (.appendFile line))
    else throw (.system e)

def append (leafHashHex : JsString) : TreeProgram Unit :=
  if isLeafLine leafHashHex then do
    repairTail filePath
    ensureDir
    appendLine (leafHashHex ++ "\n")
  else throw (.error ("refusing to append non-hash leaf line: " ++ leafHashHex.take 80))

def all : TreeProgram (List JsString) := load filePath

end JsonlTreeStore

/-! ### The disk -/

inductive FilePlace
  | nowhere
  | directory
  | file (bytes : Bytes)

/-- What the file's path leads to, and the store's note of its directory. -/
structure Disk where
  place : FilePlace
  ensured : Bool

namespace Disk

def missingFile : SystemError := ⟨"ENOENT", "no such file or directory"⟩

/-- What the file holds; nothing, where there is none. -/
def bytes (disk : Disk) : Bytes :=
  match disk.place with
  | .file bytes => bytes
  | _ => []

/-- The disk with some more bytes in the file, which needs a directory. -/
def extended (disk : Disk) (more : Bytes) : Option Disk :=
  match disk.place with
  | .nowhere => none
  | .directory => some { disk with place := .file more }
  | .file bytes => some { disk with place := .file (bytes ++ more) }

def made (disk : Disk) : Disk :=
  match disk.place with
  | .nowhere => { disk with place := .directory }
  | _ => disk

/-- What an operation answers, and leaves, where nothing fails. -/
def perform (disk : Disk) : (op : FileOp) → op.Answer × Disk
  | .makeDir => (.ok (), disk.made)
  | .readFile =>
    match disk.place with
    | .file bytes => (.ok (readUtf8 bytes), disk)
    | _ => (.error missingFile, disk)
  | .appendFile text =>
    match disk.extended (utf8 text) with
    | some disk' => (.ok (), disk')
    | none => (.error missingFile, disk)
  | .truncate length =>
    match disk.place with
    | .file bytes =>
      (.ok (), { disk with place := .file (bytes.take length ++ List.replicate (length - bytes.length) 0) })
    | _ => (.error missingFile, disk)
  | .openRead =>
    match disk.place with
    | .file _ => (.ok (), disk)
    | _ => (.error missingFile, disk)
  | .size => (.ok disk.bytes.length, disk)
  | .readByte position => (.ok (disk.bytes[position]?.getD 0), disk)
  | .close => (.ok (), disk)
  | .dirEnsured => (disk.ensured, disk)
  | .setDirEnsured ensured => ((), { disk with ensured })

/-- What an operation may leave that stops, or fails, before it is done. -/
def Interrupted (disk : Disk) : FileOp → Disk → Prop
  | .makeDir, disk' => disk' = disk ∨ disk' = disk.made
  | .appendFile text, disk' => disk' = disk ∨ ∃ more, more <+: utf8 text ∧ disk.extended more = some disk'
  | .truncate length, disk' =>
    disk' = disk ∨ ∃ bytes kept, disk.place = .file bytes ∧ length ≤ kept ∧
      disk' = { disk with place := .file (bytes.take kept) }
  | _, disk' => disk' = disk

end Disk

/-- The answer of an operation that fails. -/
def FileOp.failed (e : SystemError) : (op : FileOp) → Option op.Answer
  | .makeDir | .appendFile _ | .truncate _ | .openRead | .close => some (.error e)
  | .readFile => some (.error e)
  | .size => some (.error e)
  | .readByte _ => some (.error e)
  | .dirEnsured | .setDirEnsured _ => none

/-- An operation is answered as it should be or, where faults may happen, fails. -/
def Answered (faulty : Prop) (disk : Disk) (op : FileOp) (ans : op.Answer) (disk' : Disk) : Prop :=
  disk.perform op = (ans, disk') ∨
    faulty ∧ ∃ e : SystemError, e.code ≠ "ENOENT" ∧ op.failed e = some ans ∧ disk.Interrupted op disk'

/-- The runs of a program, which settle or, where faults may happen, stop at some operation. -/
inductive Run (faulty : Prop) : Disk → TreeProgram α → Option (Except TreeError α) → Disk → Prop
  | settled {disk : Disk} {result : Except TreeError α} : Run faulty disk (.done result) (some result) disk
  | answered {disk disk' last : Disk} {op : FileOp} {next : op.Answer → TreeProgram α} {ans : op.Answer}
      {outcome : Option (Except TreeError α)} (answer : Answered faulty disk op ans disk')
      (rest : Run faulty disk' (next ans) outcome last) : Run faulty disk (.await op next) outcome last
  | stopped {disk disk' : Disk} {op : FileOp} {next : op.Answer → TreeProgram α} (may : faulty)
      (interrupted : disk.Interrupted op disk') : Run faulty disk (.await op next) none disk'

/-- A program may be stopped at each operation, which must leave the disk good. -/
def device (faulty : Prop) (good : Disk → Prop) : Async.Monitor FileOp.Answer Disk where
  allowed disk op := faulty → ∀ disk', disk.Interrupted op disk' → good disk'
  step := Answered faulty

/-- What a run ends in, settled or stopped. -/
def Ends (good : Disk → Prop) (post : Disk → Except TreeError α → Prop) (last : Disk) :
    Option (Except TreeError α) → Prop
  | some result => post last result
  | none => good last

theorem Run.of_meets {faulty : Prop} {good : Disk → Prop} {post : Disk → Except TreeError α → Prop}
    {p : TreeProgram α} {disk last : Disk} {outcome : Option (Except TreeError α)}
    (meets : p.Meets (device faulty good) post disk) (run : Run faulty disk p outcome last) :
    Ends good post last outcome := by
  induction run with
  | settled => exact meets
  | answered answer rest ih => exact ih (meets.2 _ _ answer)
  | stopped may interrupted => exact meets.1 may _ interrupted

/-- The run in which nothing fails. -/
def runOn (disk : Disk) : TreeProgram α → Except TreeError α × Disk
  | .done result => (result, disk)
  | .await op next => runOn (disk.perform op).2 (next (disk.perform op).1)

theorem run_runOn {faulty : Prop} (disk : Disk) (p : TreeProgram α) :
    Run faulty disk p (some (runOn disk p).1) (runOn disk p).2 := by
  induction p generalizing disk with
  | done result => exact .settled
  | await op next ih => exact .answered (.inl rfl) (ih _ _)

/-! ### The leaves in a text -/

/-- The text that is written for leaves. -/
def leafText (leaves : List JsString) : JsString := leaves.flatMap (· ++ [10])

/-- What may be left of the text: less than a hash after the lines, or a last line without its newline. -/
def Surviving (text : JsString) (leaves : List JsString) : Prop :=
  (∃ rest : JsString, rest.length < 64 ∧ rest.all isHexUnit = true ∧ text = leafText leaves ++ rest) ∨
    text ++ [10] = leafText leaves

theorem isHexUnit_small {u : UInt16} (digit : isHexUnit u = true) : u < 128 ∧ u ≠ 10 ∧ u ≠ 13 := by
  have small : u.toNat < 103 ∧ 48 ≤ u.toNat := by
    simp only [isHexUnit, Bool.or_eq_true, Bool.and_eq_true, decide_eq_true_eq, UInt16.lt_iff_toNat_lt,
      UInt16.le_iff_toNat_le] at digit
    change 48 ≤ u.toNat ∧ u.toNat < 58 ∨ 97 ≤ u.toNat ∧ u.toNat < 103 at digit
    omega
  refine ⟨UInt16.lt_iff_toNat_lt.mpr (by change u.toNat < 128; omega), ?_, ?_⟩ <;>
  · rintro rfl
    exact absurd small.2 (by decide)

theorem digits_small {s : JsString} (digits : s.all isHexUnit = true) : ∀ u ∈ s, u < 128 ∧ u ≠ 10 ∧ u ≠ 13 :=
  fun u member => isHexUnit_small (List.all_eq_true.mp digits u member)

theorem isLeafLine_iff {line : JsString} : isLeafLine line = true ↔ line.length = 64 ∧ line.all isHexUnit = true := by
  rw [isLeafLine, Bool.and_eq_true, decide_eq_true_eq]

/-- Digits end with no carriage return. -/
theorem dropReturn_digits {s : JsString} (digits : s.all isHexUnit = true) : dropReturn s = s := by
  refine if_neg fun last => ?_
  exact (digits_small digits 13 (List.mem_of_getLast? last)).2.2 rfl

theorem leafText_append (leaves more : List JsString) : leafText (leaves ++ more) = leafText leaves ++ leafText more :=
  List.flatMap_append

theorem leafText_concat (leaves : List JsString) (leaf : JsString) :
    leafText (leaves ++ [leaf]) = leafText leaves ++ (leaf ++ [10]) := by
  rw [leafText_append]
  simp [leafText]

section Leaves
variable {leaves : List JsString} (proper : ∀ leaf ∈ leaves, isLeafLine leaf = true)
include proper

theorem leafText_ascii : ∀ u ∈ leafText leaves, u < 128 := by
  intro u member
  obtain ⟨leaf, listed, within⟩ := List.mem_flatMap.mp member
  rcases List.mem_append.mp within with digit | newline
  · exact (digits_small (isLeafLine_iff.mp (proper leaf listed)).2 u digit).1
  · rw [List.mem_singleton.mp newline]
    decide

theorem length_leafText : (leafText leaves).length = 65 * leaves.length := by
  induction leaves with
  | nil => rfl
  | cons leaf rest ih =>
    rw [List.forall_mem_cons] at proper
    have first : (leafText (leaf :: rest)).length = leaf.length + 1 + (leafText rest).length := by
      rw [leafText, List.flatMap_cons, List.length_append, List.length_append]
      rfl
    rw [first, ih proper.2, (isLeafLine_iff.mp proper.1).1, List.length_cons]
    omega

theorem surviving_ascii {text : JsString} (left : Surviving text leaves) : ∀ u ∈ text, u < 128 := by
  intro u member
  rcases left with ⟨rest, -, digits, rfl⟩ | whole
  · rcases List.mem_append.mp member with line | digit
    · exact leafText_ascii proper u line
    · exact (digits_small digits u digit).1
  · exact leafText_ascii proper u (whole ▸ List.mem_append_left _ member)

/-- A last line without its newline is that of the last leaf. -/
theorem leaves_of_unterminated {text : JsString} (whole : text ++ [10] = leafText leaves) :
    ∃ front leaf, leaves = front ++ [leaf] ∧ text = leafText front ++ leaf ∧ isLeafLine leaf = true := by
  rcases List.eq_nil_or_concat leaves with rfl | ⟨front, leaf, rfl⟩
  · cases List.append_eq_nil_iff.mp whole |>.2
  · rw [List.concat_eq_append] at whole proper ⊢
    rw [leafText_concat, ← List.append_assoc] at whole
    exact ⟨front, leaf, rfl, List.append_cancel_right whole, proper leaf (by simp)⟩

/-- However much of the text survives, it is that of the first leaves. -/
theorem surviving_take (kept : ℕ) : Surviving ((leafText leaves).take kept) (leaves.take ((kept + 1) / 65)) := by
  induction leaves generalizing kept with
  | nil => exact .inl ⟨[], by decide, rfl, by simp [leafText]⟩
  | cons leaf rest ih =>
    rw [List.forall_mem_cons] at proper
    obtain ⟨length, digits⟩ := isLeafLine_iff.mp proper.1
    have text : leafText (leaf :: rest) = leaf ++ (10 :: leafText rest) := by simp [leafText]
    rw [text]
    by_cases short : kept < 64
    · -- The cut is inside the first line.
      have none : (kept + 1) / 65 = 0 := by omega
      rw [none, List.take_zero, List.take_append_of_le_length (by omega)]
      refine .inl ⟨leaf.take kept, ?_, ?_, rfl⟩
      · rw [List.length_take]
        omega
      · rw [List.all_eq_true] at digits ⊢
        exact fun u member => digits u (List.mem_of_mem_take member)
    · by_cases exactly : kept = 64
      · -- The cut is just before the first newline.
        subst exactly
        refine .inr ?_
        rw [List.take_append_of_le_length (by omega), List.take_of_length_le (by omega)]
        simp [leafText]
      · obtain ⟨more, rfl⟩ : ∃ more, kept = more + 65 := ⟨kept - 65, by omega⟩
        have count : (more + 65 + 1) / 65 = (more + 1) / 65 + 1 := by omega
        have cut : (leaf ++ (10 :: leafText rest)).take (more + 65) = leaf ++ (10 :: (leafText rest).take more) := by
          rw [List.take_append, List.take_of_length_le (by omega), length]
          rfl
        rw [count, cut, List.take_succ_cons]
        rcases ih proper.2 more with ⟨tail, shorter, hexadecimal, same⟩ | whole
        · refine .inl ⟨tail, shorter, hexadecimal, ?_⟩
          rw [same]
          simp [leafText]
        · refine .inr ?_
          rw [List.append_assoc, List.cons_append, whole]
          simp [leafText]

/-- A rest that ends as lines do is no rest. -/
theorem eq_leafText_of_terminated {text : JsString} (left : Surviving text leaves)
    (terminated : ∀ u ∈ text.getLast?, u = 10) : text = leafText leaves := by
  rcases left with ⟨rest, -, digits, rfl⟩ | whole
  · rcases List.eq_nil_or_concat rest with rfl | ⟨front, u, rfl⟩
    · exact List.append_nil _
    · rw [List.concat_eq_append] at digits terminated
      have last := terminated u (by simp)
      exact absurd last (digits_small digits u (by simp)).2.1
  · obtain ⟨front, leaf, rfl, rfl, line⟩ := leaves_of_unterminated proper whole
    obtain ⟨length, digits⟩ := isLeafLine_iff.mp line
    rcases List.eq_nil_or_concat leaf with rfl | ⟨start, u, rfl⟩
    · cases length
    · rw [List.concat_eq_append] at digits terminated
      have last := terminated u (by simp)
      exact absurd last (digits_small digits u (by simp)).2.1

end Leaves

/-! ### Loading -/

namespace JsonlTreeStore

theorem leafText_getLast (leaves : List JsString) : ∀ u ∈ (leafText leaves).getLast?, u = 10 := by
  intro u last
  rcases List.eq_nil_or_concat leaves with rfl | ⟨front, leaf, rfl⟩
  · cases last
  · rw [List.concat_eq_append, leafText_concat, ← List.append_assoc, List.getLast?_concat] at last
    exact (Option.some.inj last).symm

theorem lastLineStart_lines {leaves : List JsString} {rest : JsString} (digits : rest.all isHexUnit = true) :
    lastLineStart (leafText leaves ++ rest) = (leafText leaves).length := by
  have own : ∀ u ∈ rest.reverse, decide (u ≠ 10) = true := fun u member =>
    decide_eq_true (digits_small digits u (List.mem_reverse.mp member)).2.1
  have lines : (leafText leaves).reverse.takeWhile (· ≠ 10) = [] := by
    cases ending : (leafText leaves).reverse with
    | nil => rfl
    | cons u more =>
      have last : (leafText leaves).getLast? = some u := by rw [List.getLast?_eq_head?_reverse, ending, List.head?_cons]
      rw [leafText_getLast leaves u last]
      rfl
  rw [lastLineStart, List.reverse_append, List.takeWhile_append_of_pos own, lines, List.append_nil,
    List.length_append, List.length_reverse]
  omega

section Lines
variable {leaves : List JsString} (proper : ∀ leaf ∈ leaves, isLeafLine leaf = true)
include proper

theorem linesOf_leafText : linesOf (leafText leaves) = leaves := by
  have plain : ∀ leaf ∈ leaves, 10 ∉ leaf := fun leaf listed newline =>
    (digits_small (isLeafLine_iff.mp (proper leaf listed)).2 10 newline).2.1 rfl
  have kept : leaves.map dropReturn = leaves := by
    conv_rhs => rw [← List.map_id leaves]
    exact List.map_congr_left fun leaf listed => dropReturn_digits (isLeafLine_iff.mp (proper leaf listed)).2
  have nonempty : ∀ leaf ∈ leaves, decide (leaf.length > 0) = true := by
    intro leaf listed
    rw [(isLeafLine_iff.mp (proper leaf listed)).1]
    rfl
  rw [linesOf, leafText, splitOn_lines plain, List.map_append, kept, List.filter_append,
    List.filter_eq_self.mpr nonempty]
  exact List.append_nil _

theorem checkLines_leaves (filePath : JsString) : checkLines filePath leaves = return leaves := by
  have none : (leaves.findIdx? fun line => !isLeafLine line) = none := by
    rw [List.findIdx?_eq_none_iff]
    intro leaf listed
    rw [proper leaf listed]
    rfl
  rw [checkLines, none]

end Lines

end JsonlTreeStore
end Vaduno.Transparency
