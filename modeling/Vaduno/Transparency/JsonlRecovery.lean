import Vaduno.Machine
import Vaduno.Transparency.JsonlTree

/-! What a leaf file holds whatever happens: the text of some leaves, cut off somewhere. Each part of the
store keeps that at every point where it may stop, and leaves the whole text where it succeeds. -/
namespace Vaduno.Transparency
open Ecma
open Enforce (SystemError)
namespace JsonlTreeStore

/-! ### What a call leaves -/

/-- The file may be that of the leaves, cut off somewhere. -/
def Holds (leaves : List JsString) (disk : Disk) : Prop :=
  ∃ text : JsString, disk.bytes = text.map UInt16.toUInt8 ∧ Surviving text leaves

/-- The file is that of the leaves. -/
def Complete (leaves : List JsString) (disk : Disk) : Prop :=
  disk.bytes = (leafText leaves).map UInt16.toUInt8

theorem Complete.holds {leaves : List JsString} {disk : Disk} (complete : Complete leaves disk) : Holds leaves disk :=
  ⟨leafText leaves, complete, .inl ⟨[], by decide, rfl, (List.append_nil _).symm⟩⟩

section Steps
variable {faulty : Prop} {good : Disk → Prop} {disk : Disk}

/-- An operation is answered as it should be, or fails. -/
theorem meets_op {op : FileOp} {next : op.Answer → TreeProgram α}
    {post : Disk → Except TreeError α → Prop}
    (stopped : faulty → ∀ disk', disk.Interrupted op disk' → good disk')
    (performed : (next (disk.perform op).1).Meets (device faulty good) post (disk.perform op).2)
    (failed : faulty → ∀ e ans disk', e.code ≠ encode "ENOENT" → op.failed e = some ans →
      disk.Interrupted op disk' → (next ans).Meets (device faulty good) post disk') :
    (FileOp.ask op >>= next).Meets (device faulty good) post disk := by
  refine ⟨stopped, fun ans disk' answer => ?_⟩
  rcases answer with same | ⟨may, e, other, refused, interrupted⟩
  · have answered := congrArg Prod.fst same
    have left := congrArg Prod.snd same
    subst answered left
    exact performed
  · exact failed may e ans disk' other refused interrupted

/-- How a part of the store fares on its way: it fails for faults alone, and never for a missing file. -/
def Fares (faulty : Prop) (good : Disk → Prop) (well : Disk → α → Prop) (disk : Disk) : Except TreeError α → Prop
  | .ok a => well disk a
  | .error e => faulty ∧ e.missing = false ∧ good disk

theorem system_not_missing {e : SystemError} (other : e.code ≠ encode "ENOENT") :
    (TreeError.system e).missing = false := decide_eq_false other

/-- An operation that only looks at the disk. -/
theorem meets_look {op : FileOp} {next : op.Answer → TreeProgram α} {well : Disk → α → Prop}
    (looks : ∀ disk', disk.Interrupted op disk' → disk' = disk) (fine : good disk)
    (performed : (next (disk.perform op).1).Meets (device faulty good) (Fares faulty good well) (disk.perform op).2)
    (failed : ∀ e ans, op.failed e = some ans → next ans = throw (.system e)) :
    (FileOp.ask op >>= next).Meets (device faulty good) (Fares faulty good well) disk := by
  refine meets_op ?_ performed ?_
  · intro _ disk' interrupted
    rwa [looks disk' interrupted]
  · intro may e ans disk' other refused interrupted
    rw [failed e ans refused, looks disk' interrupted]
    exact ⟨may, system_not_missing other, fine⟩

theorem Fares.mono {well well' : Disk → α → Prop} {r : Except TreeError α} (fares : Fares faulty good well disk r)
    (stronger : ∀ a, well disk a → well' disk a) : Fares faulty good well' disk r := by
  cases r with
  | ok a => exact stronger a fares
  | error e => exact fares

/-- What follows a part that fares well. -/
theorem meets_then {p : TreeProgram α} {f : α → TreeProgram β} {well : Disk → α → Prop} {well' : Disk → β → Prop}
    (first : p.Meets (device faulty good) (Fares faulty good well) disk)
    (next : ∀ disk' a, well disk' a → (f a).Meets (device faulty good) (Fares faulty good well') disk') :
    (p >>= f).Meets (device faulty good) (Fares faulty good well') disk := by
  rw [Async.meets_bind]
  refine first.mono fun disk' r fares => ?_
  cases r with
  | ok a => exact next disk' a fares
  | error e => exact fares

theorem meets_weaken {good' : Disk → Prop} {p : TreeProgram α} {well : Disk → α → Prop}
    (meets : p.Meets (device faulty good) (Fares faulty good well) disk) (weaker : ∀ disk, good disk → good' disk) :
    p.Meets (device faulty good') (Fares faulty good' well) disk := by
  induction p generalizing disk with
  | done r =>
    cases r with
    | ok a => exact meets
    | error e => exact ⟨meets.1, meets.2.1, weaker disk meets.2.2⟩
  | await op next ih =>
    exact ⟨fun may disk' interrupted => weaker disk' (meets.1 may disk' interrupted),
      fun ans disk' answered => ih ans (meets.2 ans disk' answered)⟩

theorem rethrows {a : α} (e : TreeError) (other : e.missing = false) :
    (if e.missing then return a else throw e : TreeProgram α) = throw e := by
  rw [other]
  rfl

/-- A handler for a missing file leaves alone what is thrown for faults. -/
theorem meets_missing {p : TreeProgram α} {a : α} {well : Disk → α → Prop}
    (meets : p.Meets (device faulty good) (Fares faulty good well) disk) :
    (tryCatch p fun e => if e.missing then return a else throw e).Meets (device faulty good)
      (Fares faulty good well) disk := by
  rw [Async.meets_tryCatch]
  refine meets.mono fun disk' r fares => ?_
  cases r with
  | ok a => exact fares
  | error e =>
    rw [Async.Caught, rethrows e fares.2.1]
    exact fares

end Steps

section Repair
variable {faulty : Prop} {disk : Disk} {leaves : List JsString} {text : JsString}
  (proper : ∀ leaf ∈ leaves, isLeafLine leaf = true)

theorem holds_text (left : Surviving text leaves) (place : disk.place = .file (text.map UInt16.toUInt8)) :
    Holds leaves disk := ⟨text, by rw [Disk.bytes, place], left⟩

/-- The missing newline, written or not. -/
theorem append_newline_meets (place : disk.place = .file (text.map UInt16.toUInt8))
    (whole : text ++ [10] = leafText leaves) :
    (do
        orSystem (← FileOp.ask (.appendFile "\n"))
        return text ++ encode "\n").Meets (device faulty (Holds leaves))
      (Fares faulty (Holds leaves) fun disk' raw => raw = leafText leaves ∧ Complete leaves disk') disk := by
  have newline : utf8 (encode "\n") = [10] := by decide
  have written : ((leafText leaves).map UInt16.toUInt8) = text.map UInt16.toUInt8 ++ [10] := by
    rw [← whole, List.map_append]
    rfl
  have stopped : ∀ disk', disk.Interrupted (.appendFile "\n") disk' → Holds leaves disk' := by
    rintro disk' (rfl | ⟨more, part, extended⟩)
    · exact holds_text (.inr whole) place
    · rw [Disk.extended, place] at extended
      cases extended
      rw [newline, List.prefix_cons_iff] at part
      rcases part with rfl | ⟨more, rfl, none⟩
      · exact ⟨text, List.append_nil _, .inr whole⟩
      · rw [List.prefix_nil.mp none]
        exact Complete.holds written.symm
  refine meets_op (fun _ => stopped) ?_ ?_
  · simp only [Disk.perform, Disk.extended, place, newline]
    exact ⟨whole, written.symm⟩
  · rintro may e ans disk' other ⟨⟩ interrupted
    exact ⟨may, system_not_missing other, stopped disk' interrupted⟩

include proper

/-- The rest, cut off or not. -/
theorem truncate_meets {rest : JsString} (digits : rest.all isHexUnit = true) (short : rest.length < 64)
    (place : disk.place = .file ((leafText leaves ++ rest).map UInt16.toUInt8)) :
    (do
        orSystem (← FileOp.ask (.truncate (utf8 (leafText leaves)).length))
        return leafText leaves).Meets (device faulty (Holds leaves))
      (Fares faulty (Holds leaves) fun disk' raw => raw = leafText leaves ∧ Complete leaves disk') disk := by
  have length : (utf8 (leafText leaves)).length = (leafText leaves).length := by
    rw [utf8_ascii (leafText_ascii proper), List.length_map]
  have stopped : ∀ disk', disk.Interrupted (.truncate (utf8 (leafText leaves)).length) disk' →
      Holds leaves disk' := by
    rintro disk' (rfl | ⟨bytes, kept, held, enough, rfl⟩)
    · exact holds_text (.inl ⟨rest, short, digits, rfl⟩) place
    · rw [place] at held
      cases held
      rw [length] at enough
      refine ⟨(leafText leaves ++ rest).take kept, List.map_take.symm, .inl
        ⟨rest.take (kept - (leafText leaves).length), ?_, ?_, ?_⟩⟩
      · rw [List.length_take]
        omega
      · rw [List.all_eq_true] at digits ⊢
        exact fun u member => digits u (List.mem_of_mem_take member)
      · rw [List.take_append, List.take_of_length_le enough]
  refine meets_op (fun _ => stopped) ?_ ?_
  · have cut : ((leafText leaves ++ rest).map UInt16.toUInt8).take (leafText leaves).length ++
        List.replicate ((leafText leaves).length - ((leafText leaves ++ rest).map UInt16.toUInt8).length) 0 =
          (leafText leaves).map UInt16.toUInt8 := by
      rw [← List.map_take, List.take_left, List.length_map, List.length_append, Nat.sub_add_eq, Nat.sub_self,
        Nat.zero_sub]
      exact List.append_nil _
    simp only [Disk.perform, place, length]
    exact ⟨rfl, cut⟩
  · rintro may e ans disk' other ⟨⟩ interrupted
    exact ⟨may, system_not_missing other, stopped disk' interrupted⟩

/-- A repair that is stopped leaves a file of the same leaves. -/
theorem repair_meets (place : disk.place = .file (text.map UInt16.toUInt8)) (left : Surviving text leaves) :
    (repair text).Meets (device faulty (Holds leaves))
      (Fares faulty (Holds leaves) fun disk' raw => raw = leafText leaves ∧ Complete leaves disk') disk := by
  by_cases torn : text.length > 0 ∧ text.getLast? ≠ some 10
  · rw [repair, if_pos torn]
    dsimp only
    rcases left with ⟨rest, short, digits, rfl⟩ | whole
    · have broken : ¬isLeafLine (dropReturn rest) = true := by
        rw [dropReturn_digits digits, isLeafLine_iff]
        omega
      rw [lastLineStart_lines digits, List.drop_left, List.take_left, if_neg broken]
      exact truncate_meets proper digits short place
    · obtain ⟨front, leaf, rfl, rfl, line⟩ := leaves_of_unterminated proper whole
      have digits := (isLeafLine_iff.mp line).2
      rw [lastLineStart_lines digits, List.drop_left, dropReturn_digits digits, if_pos line]
      exact append_newline_meets place whole
  · rw [repair, if_neg torn]
    have terminated : ∀ u ∈ text.getLast?, u = 10 := by
      intro u last
      by_contra other
      refine torn ⟨List.length_pos_of_mem (List.mem_of_getLast? last), fun newline => other ?_⟩
      exact Option.some.inj (last.symm.trans newline)
    have same := eq_leafText_of_terminated proper left terminated
    exact ⟨same, by rw [Complete, Disk.bytes, place, same]⟩

/-- Nothing survives of no leaves alone. -/
theorem leaves_of_nothing (holds : Holds leaves disk) (empty : disk.bytes = []) : leaves = [] := by
  obtain ⟨text, held, left⟩ := holds
  rw [empty] at held
  obtain rfl := List.map_eq_nil_iff.mp held.symm
  have same := eq_leafText_of_terminated proper left nofun
  cases leaves with
  | nil => rfl
  | cons leaf rest => simp [leafText] at same

/-- Loading gives the leaves and leaves their whole text. -/
theorem load_meets (filePath : JsString) (holds : Holds leaves disk) :
    (load filePath).Meets (device faulty (Holds leaves))
      (Fares faulty (Holds leaves) fun disk' loaded => loaded = leaves ∧ Complete leaves disk') disk := by
  cases place : disk.place with
  | file bytes =>
    obtain ⟨text, held, left⟩ := holds
    rw [Disk.bytes, place] at held
    subst held
    have read : readUtf8 (text.map UInt16.toUInt8) = text := readUtf8_ascii (surviving_ascii proper left)
    refine meets_missing (meets_look (fun _ same => same) (holds_text left place) ?_ (by rintro e ans ⟨⟩; rfl))
    simp only [Disk.perform, place, read]
    change (repair text >>= fun raw => checkLines filePath (linesOf raw)).Meets _ _ _
    refine meets_then (repair_meets proper place left) ?_
    rintro disk' raw ⟨rfl, complete⟩
    rw [linesOf_leafText proper, checkLines_leaves proper]
    exact ⟨rfl, complete⟩
  | nowhere | directory =>
    have empty : disk.bytes = [] := by rw [Disk.bytes, place]
    obtain rfl := leaves_of_nothing proper holds empty
    rw [load, Async.meets_tryCatch]
    refine meets_op ?_ ?_ ?_
    · rintro _ disk' rfl
      exact holds
    · simp only [Disk.perform, place]
      exact ⟨rfl, empty⟩
    · rintro may e ans disk' other ⟨⟩ rfl
      have thrown : (if (TreeError.system e).missing then return [] else throw (TreeError.system e) :
          TreeProgram (List JsString)) = throw (.system e) := rethrows _ (system_not_missing other)
      change Async.Meets _ _ (if (TreeError.system e).missing then return [] else throw (TreeError.system e)) _
      rw [thrown]
      exact ⟨may, system_not_missing other, holds⟩

end Repair

section Append
variable {faulty : Prop} {good : Disk → Prop} {disk : Disk} {leaves : List JsString}

/-- The last byte of a file that holds leaves is a newline just where the last line is whole. -/
theorem complete_of_newline (proper : ∀ leaf ∈ leaves, isLeafLine leaf = true) (holds : Holds leaves disk)
    (terminated : disk.bytes.length = 0 ∨ disk.bytes[disk.bytes.length - 1]?.getD 0 = 10) : Complete leaves disk := by
  obtain ⟨text, held, left⟩ := holds
  have ascii := surviving_ascii proper left
  rw [held, ← List.getLast?_eq_getElem?, List.getLast?_map, List.length_map] at terminated
  have same := eq_leafText_of_terminated proper left fun u last => by
    rcases terminated with empty | newline
    · rw [List.length_eq_zero_iff.mp empty] at last
      cases last
    · rw [last] at newline
      have byte : u.toUInt8 = 10 := newline
      have small : u.toNat < 128 := UInt16.lt_iff_toNat_lt.mp (ascii u (List.mem_of_getLast? last))
      have value := congrArg UInt8.toNat byte
      rw [UInt16.toNat_toUInt8] at value
      change u.toNat % 256 = 10 at value
      rw [← UInt16.toNat_inj]
      change u.toNat = 10
      omega
  rw [Complete, held, same]

theorem lastByteTerminates_meets (fine : good disk) (proper : ∀ leaf ∈ leaves, isLeafLine leaf = true)
    (holds : Holds leaves disk) :
    lastByteTerminates.Meets (device faulty good)
      (Fares faulty good fun disk' found => disk' = disk ∧ (found = true → Complete leaves disk)) disk := by
  refine meets_look (fun _ same => same) fine ?_ (by rintro e ans ⟨⟩; rfl)
  change (if disk.bytes.length = 0 then (pure true : TreeProgram Bool) else _).Meets _ _ disk
  split
  · rename_i empty
    exact ⟨rfl, fun _ => complete_of_newline proper holds (.inl empty)⟩
  · refine meets_look (fun _ same => same) fine ⟨rfl, fun newline => ?_⟩ (by rintro e ans ⟨⟩; rfl)
    exact complete_of_newline proper holds (.inr (of_decide_eq_true newline))

/-- A probe only looks, and finds a newline at the end of whole lines alone. -/
theorem tailIsTerminated_meets (fine : good disk) (proper : ∀ leaf ∈ leaves, isLeafLine leaf = true)
    (holds : Holds leaves disk) :
    tailIsTerminated.Meets (device faulty good)
      (Fares faulty good fun disk' found => disk' = disk ∧ (found = true → Complete leaves disk)) disk := by
  refine meets_op ?_ ?_ ?_
  · rintro _ disk' rfl
    exact fine
  · cases place : disk.place with
    | file bytes =>
      simp only [Disk.perform, place]
      rw [Async.meets_bind, Async.meets_outcomeOf]
      refine (meets_missing (lastByteTerminates_meets fine proper holds)).mono fun disk' found fares => ?_
      have reached : good disk' := by
        cases found with
        | ok found =>
          rw [fares.1]
          exact fine
        | error e => exact fares.2.2
      refine meets_op ?_ fares ?_
      · rintro _ last rfl
        exact reached
      · rintro may e ans last other ⟨⟩ rfl
        exact ⟨may, system_not_missing other, reached⟩
    | nowhere | directory =>
      have empty : disk.bytes = [] := by rw [Disk.bytes, place]
      simp only [Disk.perform, place]
      exact ⟨rfl, fun _ => complete_of_newline proper holds (.inl (by rw [empty]; rfl))⟩
  · rintro may e ans disk' other ⟨⟩ rfl
    have thrown : (if (TreeError.system e).missing then return true else throw (TreeError.system e) :
        TreeProgram Bool) = throw (.system e) := rethrows _ (system_not_missing other)
    change Async.Meets _ _ (if (TreeError.system e).missing then return true else throw (TreeError.system e)) _
    rw [thrown]
    exact ⟨may, system_not_missing other, fine⟩

/-- The directory is there afterwards, unless the store had noted that before. -/
theorem ensureDir_meets (fine : ∀ disk' : Disk, disk'.bytes = disk.bytes → good disk') :
    ensureDir.Meets (device faulty good)
      (Fares faulty good fun disk' _ => disk'.bytes = disk.bytes ∧ (disk.ensured = false → disk'.place ≠ .nowhere))
      disk := by
  have made : disk.made.bytes = disk.bytes ∧ disk.made.place ≠ .nowhere := by
    unfold Disk.made Disk.bytes
    cases place : disk.place <;> simp [place]
  have stopped : ∀ disk', disk.Interrupted .makeDir disk' → good disk' := by
    rintro disk' (rfl | rfl)
    · exact fine _ rfl
    · exact fine _ made.1
  refine meets_op ?_ ?_ (by rintro may e ans disk' other ⟨⟩)
  · rintro _ disk' rfl
    exact fine _ rfl
  · change (if disk.ensured then (pure () : TreeProgram Unit) else _).Meets _ _ disk
    split
    · rename_i ensured
      exact ⟨rfl, fun none => absurd ensured (by rw [none]; decide)⟩
    · refine meets_op (fun _ => stopped) ?_ ?_
      · refine meets_op ?_ ⟨made.1, fun _ => made.2⟩ (by rintro may e ans disk' other ⟨⟩)
        rintro _ disk' rfl
        exact fine _ made.1
      · rintro may e ans disk' other ⟨⟩ interrupted
        exact ⟨may, system_not_missing other, stopped disk' interrupted⟩

/-- The file is that of the leaves, with or without one more, and may be cut off. -/
def Grown (leaves : List JsString) (leaf : JsString) (disk : Disk) : Prop :=
  Holds leaves disk ∨ Holds (leaves ++ [leaf]) disk

section Line
variable {leaf : JsString} (proper : ∀ leaf ∈ leaves, isLeafLine leaf = true) (line : isLeafLine leaf = true)
include proper line in
theorem proper_concat : ∀ l ∈ leaves ++ [leaf], isLeafLine l = true := by
  rw [List.forall_mem_append]
  exact ⟨proper, fun l last => List.mem_singleton.mp last ▸ line⟩

include line in
theorem utf8_line : utf8 (leaf ++ encode "\n") = (leaf ++ [10]).map UInt16.toUInt8 := by
  refine utf8_ascii fun u member => ?_
  rcases List.mem_append.mp member with digit | newline
  · exact (digits_small (isLeafLine_iff.mp line).2 u digit).1
  · rw [List.mem_singleton.mp newline]
    decide

include proper line in
/-- Some bytes of a line after whole lines. -/
theorem grown_of_part {more : Bytes} (part : more <+: utf8 (leaf ++ encode "\n")) {disk' : Disk}
    (bytes : disk'.bytes = (leafText leaves).map UInt16.toUInt8 ++ more) : Grown leaves leaf disk' := by
  rw [utf8_line line] at part
  obtain ⟨rest, whole⟩ := part
  have more_eq : more = ((leaf ++ [10]).take more.length).map UInt16.toUInt8 := by
    rw [List.map_take, ← whole, List.take_left]
  have survives := surviving_take (proper_concat proper line) ((leafText leaves).length + more.length)
  rw [leafText_concat, List.take_length_add_append, length_leafText proper, add_assoc,
    Nat.mul_add_div (by decide)] at survives
  have held : disk'.bytes = (leafText leaves ++ (leaf ++ [10]).take more.length).map UInt16.toUInt8 := by
    rw [bytes, List.map_append, ← more_eq]
  rcases Nat.eq_zero_or_pos ((more.length + 1) / 65) with none | some
  · rw [none, add_zero, List.take_left] at survives
    exact .inl ⟨_, held, survives⟩
  · have all : (leaves ++ [leaf]).take (leaves.length + (more.length + 1) / 65) = leaves ++ [leaf] := by
      refine List.take_of_length_le ?_
      rw [List.length_append, List.length_singleton]
      omega
    rw [all] at survives
    exact .inr ⟨_, held, survives⟩

end Line
/-- What follows the append of a line to whole lines. -/
theorem meets_line {leaf : JsString} (proper : ∀ leaf ∈ leaves, isLeafLine leaf = true)
    (line : isLeafLine leaf = true) (complete : Complete leaves disk) {next : Except SystemError Unit → TreeProgram α}
    {well : Disk → α → Prop}
    (written : ∀ disk', Complete (leaves ++ [leaf]) disk' →
      (next (.ok ())).Meets (device faulty (Grown leaves leaf)) (Fares faulty (Grown leaves leaf) well) disk')
    (absent : disk.place = .nowhere →
      (next (.error Disk.missingFile)).Meets (device faulty (Grown leaves leaf)) (Fares faulty (Grown leaves leaf) well)
        disk)
    (failed : ∀ e : SystemError, e.code ≠ encode "ENOENT" → next (.error e) = throw (.system e)) :
    (FileOp.ask (.appendFile (leaf ++ "\n")) >>= next).Meets (device faulty (Grown leaves leaf))
      (Fares faulty (Grown leaves leaf) well) disk := by
  have bytes : ∀ more disk', disk.extended more = some disk' →
      disk'.bytes = (leafText leaves).map UInt16.toUInt8 ++ more := by
    intro more disk' extended
    unfold Complete at complete
    unfold Disk.extended at extended
    unfold Disk.bytes at complete ⊢
    cases place : disk.place with
    | nowhere =>
      rw [place] at extended
      cases extended
    | directory | file _ =>
      rw [place] at extended complete
      cases extended
      simp [← complete]
  have stopped : ∀ disk', disk.Interrupted (.appendFile (leaf ++ "\n")) disk' → Grown leaves leaf disk' := by
    rintro disk' (rfl | ⟨more, part, extended⟩)
    · exact .inl complete.holds
    · exact grown_of_part proper line part (bytes more disk' extended)
  refine meets_op (fun _ => stopped) ?_ ?_
  · cases extended : disk.extended (utf8 (leaf ++ encode "\n")) with
    | some disk' =>
      simp only [Disk.perform, extended]
      refine written disk' ?_
      rw [Complete, bytes _ disk' extended, utf8_line line, leafText_concat, List.map_append, List.map_append,
        List.map_append]
    | none =>
      simp only [Disk.perform, extended]
      refine absent ?_
      unfold Disk.extended at extended
      split at extended
      · assumption
      · cases extended
      · cases extended
  · rintro may e ans disk' other ⟨⟩ interrupted
    rw [failed e other]
    exact ⟨may, system_not_missing other, stopped disk' interrupted⟩

theorem repairTail_meets {leaf : JsString} (filePath : JsString) (proper : ∀ leaf ∈ leaves, isLeafLine leaf = true)
    (holds : Holds leaves disk) :
    (repairTail filePath).Meets (device faulty (Grown leaves leaf))
      (Fares faulty (Grown leaves leaf) fun disk' _ => Complete leaves disk') disk := by
  refine meets_then (tailIsTerminated_meets (.inl holds) proper holds) ?_
  rintro _ found ⟨rfl, terminated⟩
  split
  · rename_i whole
    exact terminated whole
  · exact meets_then (meets_weaken (load_meets proper filePath holds) fun _ => .inl) fun disk' _ loaded => loaded.2

/-- A leaf that is appended follows the leaves that the file held. -/
theorem append_meets {leaf : JsString} (filePath : JsString) (proper : ∀ leaf ∈ leaves, isLeafLine leaf = true)
    (line : isLeafLine leaf = true) (holds : Holds leaves disk) :
    (append filePath leaf).Meets (device faulty (Grown leaves leaf))
      (Fares faulty (Grown leaves leaf) fun disk' _ => Complete (leaves ++ [leaf]) disk') disk := by
  have same : ∀ {disk disk' : Disk}, Complete leaves disk → disk'.bytes = disk.bytes → Grown leaves leaf disk' :=
    fun complete bytes => .inl (Complete.holds (bytes.trans complete))
  rw [append, if_pos line]
  refine meets_then (repairTail_meets filePath proper holds) fun disk₁ _ complete => ?_
  refine meets_then (ensureDir_meets fun _ => same complete) fun disk₂ _ made => ?_
  have complete₂ : Complete leaves disk₂ := made.1.trans complete
  refine meets_line proper line complete₂ (fun _ written => written) ?_ ?_
  · -- The directory had gone, and is made again.
    intro absent
    refine meets_op ?_ ?_ (by rintro may e ans disk' other ⟨⟩)
    · rintro _ disk' rfl
      exact .inl complete₂.holds
    · refine meets_then (ensureDir_meets fun _ => same complete₂) fun disk₃ _ made' => ?_
      refine meets_line proper line (made'.1.trans complete₂) (fun _ written => written) ?_ fun _ _ => rfl
      exact fun absent => absurd absent (made'.2 rfl)
  · exact fun e other => if_neg (by rw [system_not_missing other]; decide)

end Append
/-! ### Runs -/

/-- What a store is asked. -/
inductive TreeCall
  | append (leafHashHex : JsString)
  | all

namespace TreeCall

def program (filePath : JsString) : TreeCall → TreeProgram (Option (List JsString))
  | append leafHashHex => do
    JsonlTreeStore.append filePath leafHashHex
    return none
  | all => some <$> JsonlTreeStore.all filePath

/-- The leaf that a call appends; a call with another text is refused. -/
def leaf : TreeCall → Option JsString
  | append leafHashHex => if isLeafLine leafHashHex then some leafHashHex else none
  | all => none

/-- What `appendLeaves` asks for data. -/
def batch (sha256 : Bytes → Hash) (datas : List JsString) : List TreeCall :=
  all :: datas.map (fun data => append (leafHash sha256 (utf8 data))) ++ [all]

end TreeCall

/-- The leaves that calls append. -/
def written (calls : List TreeCall) : List JsString := calls.filterMap TreeCall.leaf

/-- The disk after calls of which none fails. -/
def after (filePath : JsString) (disk : Disk) (calls : List TreeCall) : Disk :=
  (Machine.play (fun disk call => runOn disk (call.program filePath)) disk calls).2

/-- The bytes that are written for leaves. -/
def stream (leaves : List JsString) : Bytes := utf8 (leafText leaves)

theorem written_proper (calls : List TreeCall) : ∀ leaf ∈ written calls, isLeafLine leaf = true := by
  intro leaf listed
  obtain ⟨call, -, found⟩ := List.mem_filterMap.mp listed
  cases call with
  | append leafHashHex =>
    rw [TreeCall.leaf] at found
    split_ifs at found with line
    cases found
    exact line
  | all => cases found

theorem written_batch (sha256 : Bytes → Hash) (datas : List JsString) :
    written (TreeCall.batch sha256 datas) = datas.map fun data => leafHash sha256 (utf8 data) := by
  have hashes : ∀ data, isLeafLine (leafHash sha256 (utf8 data)) = true := fun data =>
    isLeafLine_iff.mpr ⟨by rw [leafHash, Hash.hex, length_hex, Hash.length], all_isHexUnit_hex _⟩
  have appended : ∀ data, TreeCall.leaf (.append (leafHash sha256 (utf8 data))) = some (leafHash sha256 (utf8 data)) :=
    fun data => if_pos (hashes data)
  have none : TreeCall.all.leaf = none := rfl
  rw [written, TreeCall.batch, List.cons_append, List.filterMap_cons_none none, List.filterMap_append,
    List.filterMap_map, List.filterMap_cons_none none, List.filterMap_nil, List.append_nil]
  simp only [Function.comp_def, appended]
  exact congrFun List.filterMap_eq_map' datas

section Calls
variable {disk : Disk} {leaves : List JsString}

/-- Without faults all goes well. -/
theorem runOn_fares {good : Disk → Prop} {p : TreeProgram α} {well : Disk → α → Prop}
    (meets : p.Meets (device False good) (Fares False good well) disk) :
    ∃ a, (runOn disk p).1 = .ok a ∧ well (runOn disk p).2 a := by
  have ended := Run.of_meets meets (run_runOn disk p)
  cases result : (runOn disk p).1 with
  | ok a =>
    rw [result] at ended
    exact ⟨a, rfl, ended⟩
  | error e =>
    rw [result] at ended
    exact ended.1.elim

variable (filePath : JsString) (proper : ∀ leaf ∈ leaves, isLeafLine leaf = true)
include proper

theorem all_exact (holds : Holds leaves disk) :
    (runOn disk (all filePath)).1 = .ok leaves ∧ Complete leaves (runOn disk (all filePath)).2 := by
  obtain ⟨loaded, result, rfl, complete⟩ := runOn_fares (load_meets proper filePath holds)
  exact ⟨result, complete⟩

/-- One call adds its leaf, if it has one; a call that is refused leaves the disk alone. -/
theorem call_adds (call : TreeCall) (holds : Holds leaves disk) :
    Complete (leaves ++ written [call]) (runOn disk (call.program filePath)).2 ∨
      written [call] = [] ∧ (runOn disk (call.program filePath)).2 = disk := by
  cases call with
  | append leafHashHex =>
    by_cases line : isLeafLine leafHashHex = true
    · have one : written [.append leafHashHex] = [leafHashHex] := by simp [written, TreeCall.leaf, line]
      have meets : ((TreeCall.append leafHashHex).program filePath).Meets (device False (Grown leaves leafHashHex))
          (Fares False (Grown leaves leafHashHex) fun disk' _ => Complete (leaves ++ [leafHashHex]) disk') disk :=
        meets_then (append_meets filePath proper line holds) fun _ _ complete => complete
      obtain ⟨_, -, complete⟩ := runOn_fares meets
      rw [one]
      exact .inl complete
    · have refused : append filePath leafHashHex =
          throw (.error ("refusing to append non-hash leaf line: " ++ leafHashHex.take 80)) := if_neg line
      refine .inr ⟨by simp [written, TreeCall.leaf, line], ?_⟩
      rw [TreeCall.program, refused]
      rfl
  | all =>
    have meets : (TreeCall.all.program filePath).Meets (device False (Holds leaves))
        (Fares False (Holds leaves) fun disk' _ => Complete leaves disk') disk :=
      meets_then (load_meets proper filePath holds) fun _ _ loaded => loaded.2
    obtain ⟨_, -, complete⟩ := runOn_fares meets
    have none : leaves ++ written [TreeCall.all] = leaves := List.append_nil leaves
    rw [none]
    exact .inl complete

/-- A run of calls adds their leaves. -/
theorem after_adds (calls : List TreeCall) (holds : Holds leaves disk) :
    Holds (leaves ++ written calls) (after filePath disk calls) ∧
      (Complete leaves disk → Complete (leaves ++ written calls) (after filePath disk calls)) := by
  induction calls generalizing leaves disk with
  | nil =>
    have none : leaves ++ written [] = leaves := List.append_nil leaves
    rw [none]
    exact ⟨holds, id⟩
  | cons call rest ih =>
    have added : leaves ++ written (call :: rest) = leaves ++ written [call] ++ written rest := by
      rw [List.append_assoc, written, written, written, ← List.filterMap_append, List.singleton_append]
    have more : ∀ leaf ∈ leaves ++ written [call], isLeafLine leaf = true :=
      List.forall_mem_append.mpr ⟨proper, written_proper [call]⟩
    change Holds _ (after filePath (runOn disk (call.program filePath)).2 rest) ∧
      (_ → Complete _ (after filePath (runOn disk (call.program filePath)).2 rest))
    rw [added]
    rcases call_adds filePath proper call holds with complete | ⟨none, same⟩
    · have all := ih more complete.holds
      exact ⟨all.1, fun _ => all.2 complete⟩
    · rw [none, List.append_nil, same]
      exact ih proper holds

end Calls

theorem complete_iff {leaves : List JsString} {disk : Disk} (proper : ∀ leaf ∈ leaves, isLeafLine leaf = true) :
    Complete leaves disk ↔ disk.bytes = stream leaves := by
  rw [Complete, stream, utf8_ascii (leafText_ascii proper)]

/-- However much of what was written survives, the file is read as that many of the first leaves, and later
leaves follow these, also when the reading itself is stopped or fails. -/
theorem leaves_recovered (filePath : JsString) {fresh : Disk} (empty : fresh.bytes = []) (calls : List TreeCall) :
    (after filePath fresh calls).bytes = stream (written calls) ∧
    ∀ {kept : ℕ} {reopened : Disk}, reopened.bytes = (stream (written calls)).take kept →
      (runOn reopened (all filePath)).1 = .ok ((written calls).take ((kept + 1) / 65)) ∧
      ∀ {outcome last}, Run True reopened (all filePath) outcome last →
        (∀ leaves, outcome = some (.ok leaves) → leaves = (written calls).take ((kept + 1) / 65)) ∧
        ∀ {again : Disk} (more : List TreeCall), again.bytes = last.bytes →
          (runOn (after filePath again more) (all filePath)).1 =
            .ok ((written calls).take ((kept + 1) / 65) ++ written more) ∧
          (runOn (after filePath again more) (all filePath)).2.bytes =
            stream ((written calls).take ((kept + 1) / 65) ++ written more) := by
  have proper := written_proper calls
  refine ⟨?_, fun {kept reopened} cut => ?_⟩
  · have nothing : Complete [] fresh := empty
    exact (complete_iff proper).mp ((after_adds filePath (List.forall_mem_nil _) calls nothing.holds).2 nothing)
  have first : ∀ leaf ∈ (written calls).take ((kept + 1) / 65), isLeafLine leaf = true :=
    fun leaf listed => proper leaf (List.mem_of_mem_take listed)
  have holds : Holds ((written calls).take ((kept + 1) / 65)) reopened := by
    refine ⟨(leafText (written calls)).take kept, ?_, surviving_take proper kept⟩
    rw [cut, stream, utf8_ascii (leafText_ascii proper), List.map_take]
  refine ⟨(all_exact filePath first holds).1, fun {outcome last} run => ?_⟩
  have ended := Run.of_meets (load_meets first filePath holds) run
  have left : Holds ((written calls).take ((kept + 1) / 65)) last ∧
      ∀ leaves, outcome = some (.ok leaves) → leaves = (written calls).take ((kept + 1) / 65) := by
    rcases outcome with _ | e | loaded
    · exact ⟨ended, nofun⟩
    · exact ⟨ended.2.2, nofun⟩
    · refine ⟨ended.2.holds, ?_⟩
      rintro leaves ⟨⟩
      exact ended.1
  refine ⟨left.2, fun {again} more same => ?_⟩
  have both : ∀ leaf ∈ (written calls).take ((kept + 1) / 65) ++ written more, isLeafLine leaf = true :=
    List.forall_mem_append.mpr ⟨first, written_proper more⟩
  have held : Holds ((written calls).take ((kept + 1) / 65)) again := by
    obtain ⟨text, bytes, survives⟩ := left.1
    exact ⟨text, same.trans bytes, survives⟩
  obtain ⟨loaded, complete⟩ := all_exact filePath both (after_adds filePath first more held).1
  exact ⟨loaded, (complete_iff both).mp complete⟩

/-- A hash that lost its newline is kept, and the next one follows it. -/
theorem newline_recovered :
    let leaf : JsString := List.replicate 64 97
    let calls : List TreeCall := [.append leaf, .all]
    let reopened : Disk := ⟨.file ((stream (written calls)).take 64), false⟩
    (after "log" ⟨.nowhere, false⟩ calls).bytes = stream (written calls) ∧
      (runOn reopened (all "log")).1 = .ok ((written calls).take 1) ∧
      (runOn (after "log" reopened [.append leaf]) (all "log")).1 =
        .ok ((written calls).take 1 ++ written [.append leaf]) := by
  intro leaf calls reopened
  obtain ⟨whole, cut⟩ := leaves_recovered "log" (show (⟨.nowhere, false⟩ : Disk).bytes = [] from rfl) calls
  have kept : reopened.bytes = (stream (written calls)).take 64 := rfl
  obtain ⟨loaded, more⟩ := cut kept
  have stopped : Run True reopened (all "log") none reopened := .stopped trivial rfl
  exact ⟨whole, loaded, ((more stopped).2 [.append leaf] rfl).1⟩

end JsonlTreeStore
end Vaduno.Transparency
