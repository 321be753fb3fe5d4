import Vaduno.Ledger.Stored
import Vaduno.Ledger.Verify
import Vaduno.Sample

/-! What a retained head fixes. The rows behind it are derived backwards: the hash of the last one is in the
head, and with its text each row gives the hash of the one before it. -/
namespace Vaduno.Ledger
open Ecma Enforce

/-- Members under distinct keys have one order. -/
theorem insertionSort_of_perm {ms ns : List (JsString × JsonValue)} (perm : ms.Perm ns)
    (distinct : (ms.map Prod.fst).Nodup) :
    ms.insertionSort (memberLe · ·) = ns.insertionSort (memberLe · ·) := by
  have left := List.perm_insertionSort (memberLe · ·) ms
  have right := List.perm_insertionSort (memberLe · ·) ns
  refine @List.Perm.eq_of_pairwise _ (memberLe · ·) _ _ ?_ (List.pairwise_insertionSort _ ms)
    (List.pairwise_insertionSort _ ns) ((left.trans perm).trans right.symm)
  intro a b listed listed' first second
  have below : ¬b.1 < a.1 := by simpa [memberLe] using first
  have above : ¬a.1 < b.1 := by simpa [memberLe] using second
  exact List.inj_on_of_nodup_map distinct (left.subset listed) (perm.symm.subset (right.subset listed'))
    (List.le_antisymm below above)

/-- Two rows that are one JSON value up to the order of members, hash included. -/
def SameRow (entry other : LedgerEntry) : Prop :=
  ∃ j, canonical entry.object = some j ∧ canonical other.object = some j

/-- What a row is, and its members without the hash, as JSON. -/
theorem canonical_object {entry : LedgerEntry} (text : canonicalJson entry.unhashed = .ok t)
    (proper : Proper entry.data) :
    ∃ ms, canonical entry.unhashed = some (.object ((sortedProps ms).insertionSort (memberLe · ·))) ∧
      canonical entry.object = some (.object ((sortedProps ms ++
        [(encode "hash", JsonValue.string entry.hash)]).insertionSort (memberLe · ·))) ∧
      ((sortedProps ms ++ [(encode "hash", JsonValue.string entry.hash)]).map Prod.fst).Nodup := by
  obtain ⟨k, written, -⟩ := plain_of_canonicalJson text (LedgerEntry.proper_unhashed proper)
  obtain ⟨ms, members, rfl⟩ := plain_object.mp written
  have whole : plain entry.object = some (.object (ms ++ [(encode "hash", .string entry.hash)])) := by
    rw [LedgerEntry.object_eq]
    exact plain_object.mpr ⟨_, plainProps_append members rfl, rfl⟩
  have split : sortedProps (ms ++ [(encode "hash", JsonValue.string entry.hash)]) =
      sortedProps ms ++ [(encode "hash", .string entry.hash)] := by
    simp only [sortedProps_eq_map, List.map_append]
    rfl
  refine ⟨ms, ?_, ?_, ?_⟩
  · rw [canonical_eq_sorted, written]
    rfl
  · rw [canonical_eq_sorted, whole, ← split]
    rfl
  · have names : ((sortedProps ms).map Prod.fst) = ms.map Prod.fst := by
      rw [sortedProps_eq_map, List.map_map]
      rfl
    have listed : (LedgerEntry.names ++ [encode "hash"]).Nodup := by decide
    rw [List.map_append, names]
    exact listed.sublist (((plainProps_names members).trans entry.names_sublist).append (List.Sublist.refl _))

section
variable {platform : Platform} (collisionFree : CollisionFree platform) {entry other : LedgerEntry}
  (proper : Proper entry.data) (proper' : Proper other.data)
include collisionFree proper proper'

/-- Rows with one hash are one row, and come after the same hash. -/
theorem sameRow_of_hash (own : entryHash platform entry = .ok entry.hash)
    (own' : entryHash platform other = .ok other.hash) (same : entry.hash = other.hash) :
    SameRow entry other ∧ entry.prevHash = other.prevHash := by
  obtain ⟨t, text, digest⟩ := text_of_entryHash own
  obtain ⟨t', text', digest'⟩ := text_of_entryHash own'
  have object := LedgerEntry.proper_unhashed proper
  have object' := LedgerEntry.proper_unhashed proper'
  obtain rfl : t = t' := collisionFree t t' (wellFormed_canonicalJson text object)
    (wellFormed_canonicalJson text' object') ((digest.trans same).trans digest'.symm)
  constructor
  · obtain ⟨ms, rest, whole, distinct⟩ := canonical_object text proper
    obtain ⟨ns, rest', whole', -⟩ := canonical_object text' proper'
    have values := (canonicalJson_eq_iff text text' object object').mp rfl
    rw [rest, rest', Option.some.injEq, JsonValue.object.injEq] at values
    have perm : (sortedProps ms).Perm (sortedProps ns) :=
      ((List.perm_insertionSort _ _).symm.trans (List.Perm.of_eq values)).trans (List.perm_insertionSort _ _)
    refine ⟨_, whole, ?_⟩
    rw [whole', ← same, insertionSort_of_perm (perm.append_right _) distinct]
  · have listed : (encode "prevHash", JsValue.string entry.prevHash) ∈ entry.members := by simp [LedgerEntry.members]
    have there : (encode "prevHash", JsValue.string other.prevHash) ∈ other.members := by simp [LedgerEntry.members]
    have found := string_member text text' object object' listed
    have pair := List.inj_on_of_nodup_map object'.1 found there rfl
    exact JsValue.string.inj (Prod.mk.inj pair).2

end

/-- Chains of one length that end at one hash are one chain. -/
theorem sameRows_of_scan {platform : Platform} (collisionFree : CollisionFree platform)
    {start last last' : LedgerTip} {entries others : List LedgerEntry}
    (proper : ∀ entry ∈ entries ++ others, Proper entry.data)
    (scanned : scan platform start entries = .ok last) (scanned' : scan platform start others = .ok last')
    (length : entries.length = others.length) (hash : last.hash = last'.hash) :
    List.Forall₂ SameRow entries others := by
  induction entries using List.reverseRecOn generalizing others last last' with
  | nil =>
    obtain rfl := List.length_eq_zero_iff.mp length.symm
    exact .nil
  | append_singleton entries entry ih =>
    obtain rfl | ⟨others, other, rfl⟩ := List.eq_nil_or_concat others
    · simp at length
    rw [List.concat_eq_append] at *
    obtain ⟨middle, before, here⟩ := scan_append.mp scanned
    obtain ⟨middle', before', here'⟩ := scan_append.mp scanned'
    obtain ⟨sound, ended⟩ := scan_cons.mp here
    obtain ⟨sound', ended'⟩ := scan_cons.mp here'
    obtain ⟨-, -, linked, own⟩ := problemOf_none.mp sound
    obtain ⟨-, -, linked', own'⟩ := problemOf_none.mp sound'
    cases ended
    cases ended'
    obtain ⟨same, previous⟩ :=
      sameRow_of_hash collisionFree (proper entry (by simp)) (proper other (by simp)) own own' hash
    have front : List.Forall₂ SameRow entries others := by
      refine ih (fun e member => proper e ?_) before before' (by simpa using length) ?_
      · simp only [List.mem_append] at member ⊢
        exact member.imp .inl .inl
      · rw [← linked, ← linked', previous]
    exact List.rel_append front (.cons same .nil)

variable {platform : Platform}

theorem head_ok {entries : List LedgerEntry} {retained : LedgerHead} (headed : head entries = .ok retained) :
    retained.entries = entries.length ∧
      retained.toLedgerTip = (entries.getLast?.map LedgerEntry.tip).getD genesis := by
  unfold head at headed
  cases last : entries.getLast? with
  | none =>
    rw [last] at headed
    cases headed
    rw [List.getLast?_eq_none_iff.mp last]
    exact ⟨rfl, rfl⟩
  | some entry =>
    rw [last] at headed
    dsimp only at headed
    split_ifs at headed
    cases headed
    exact ⟨rfl, rfl⟩

/-- A head that was taken of a verified chain is a head of that chain alone: rows that verify against it are as
many, and each is the same JSON value as the row in its place. -/
theorem retained_head_pins (collisionFree : CollisionFree platform) {expected : Option LedgerHead}
    {entries others : List LedgerEntry} {retained : LedgerHead}
    (proper : ∀ entry ∈ entries ++ others, Proper entry.data)
    (verified : (verify platform expected entries).ok = true) (headed : head entries = .ok retained)
    (answered : (verify platform (some retained) others).ok = true) :
    others.length = entries.length ∧ List.Forall₂ SameRow entries others := by
  obtain ⟨tip, scanned, -⟩ := verify_ok_iff.mp verified
  obtain ⟨tip', scanned', matching⟩ := verify_ok_iff.mp answered
  obtain ⟨count, end_⟩ := head_ok headed
  obtain ⟨length, hash⟩ := matching retained rfl
  have tips : tip = retained.toLedgerTip := (scan_tip scanned).trans end_.symm
  have same : tip.hash = tip'.hash := by rw [hash, tips]
  exact ⟨length.trans count, sameRows_of_scan collisionFree proper scanned scanned' (count.symm.trans length.symm) same⟩

namespace Head

/-- A first row with its own hash. -/
def row : LedgerEntry :=
  let blank : LedgerEntry := ⟨⟨"2026-01-01T00:00:00.000Z", .policyUpdated, ⟨none, none⟩, .null⟩, 0, genesisHash, []⟩
  { blank with hash := (entryHash Sample.platform blank).toOption.getD [] }

def retained : LedgerHead := { row.tip with entries := 1 }

theorem row_checked : (verify Sample.platform none [row]).ok = true ∧ ¬((1 : ℤ) : Number) ≠ row.seq + 1 ∧
    (verify Sample.platform (some retained) [row]).ok = true := by
  decide +kernel

theorem row_pinned : [row].length = [row].length ∧ List.Forall₂ SameRow [row] [row] := by
  obtain ⟨verified, counted, answered⟩ := row_checked
  have headed : head [row] = .ok retained := if_neg counted
  refine retained_head_pins Sample.platform_collisionFree (fun entry member => ?_) verified headed answered
  obtain rfl : entry = row := by simpa using member
  trivial

end Head
end Vaduno.Ledger
