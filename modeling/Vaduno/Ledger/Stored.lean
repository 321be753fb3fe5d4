import Vaduno.Ecma.Utf8
import Vaduno.Ledger.Accept
import Vaduno.Ledger.Verify
import Vaduno.Mandate.Pq
import Vaduno.Postgres.SpendLimiter
import Vaduno.Sample

/-! What the ledger stores keep of a row, and what they give back: a line of JSON in a file, or the
columns of a table. A row is hashed again from what was given back. -/
namespace Vaduno.Ledger
open Ecma

/-! ### Lines in a file -/

namespace JsonlLedgerStore

/-- The line that is appended for a row. -/
def writeLine (entry : LedgerEntry) : Throwing JsString := do
  return (← entry.object.stringify).getD "undefined" ++ [10]

/-- What the file holds after its rows were appended one by one. -/
def file : List LedgerEntry → Throwing JsString
  | [] => .ok []
  | entry :: rest => return (← writeLine entry) ++ (← file rest)

/-- Text that goes through UTF-8. -/
def onDisk (raw : JsString) : JsString := (chars raw).flatMap encodeChar

/-- The rows of a file; `none` where a line does not parse. -/
def load (raw : JsString) : Option (List JsonValue) :=
  ((raw.splitOn 10).filter fun line => !line.all Mandate.isSpaceUnit).mapM JsonValue.parse

end JsonlLedgerStore

/-- `const { hash, ...rest } = entry`. -/
def withoutHash : JsonValue → JsonValue
  | .object props => .object (props.filter fun p => p.1 ≠ encode "hash")
  | j => j

/-- A row that was read from JSON, without its hash. -/
def unhashedOf (row : JsonValue) : JsValue := valueOf (withoutHash row)

theorem plainProps_append {front back : List (JsString × JsValue)} {ms ns : List (JsString × JsonValue)}
    (first : plainProps front = some ms) (second : plainProps back = some ns) :
    plainProps (front ++ back) = some (ms ++ ns) := by
  induction front generalizing ms with
  | nil =>
    cases first
    exact second
  | cons p rest ih =>
    obtain ⟨key, v⟩ := p
    by_cases absent : v = .undefined
    · subst absent
      exact ih first
    · obtain ⟨j, more, own, others, rfl⟩ := (plainProps_cons_some absent).mp first
      exact (plainProps_cons_some absent).mpr ⟨j, more ++ ns, own, ih others, rfl⟩

section
variable {entry : LedgerEntry} (text : canonicalJson entry.unhashed = .ok t) (proper : Proper entry.data)
include text proper

/-- The line of an accepted row is a JSON value that reads as the row, its hash at the end. -/
theorem writeLine_ok : ∃ props, (JsonValue.object props).Faithful ∧
    JsonlLedgerStore.writeLine entry = .ok ((JsonValue.object props).stringify ++ [10]) ∧
    canonicalJson (unhashedOf (.object props)) = .ok t := by
  have proper' := LedgerEntry.proper_unhashed proper
  obtain ⟨k, written, faithful⟩ := plain_of_canonicalJson text proper'
  obtain ⟨ms, members, rfl⟩ := plain_object.mp written
  have names := (plainProps_names members).trans entry.names_sublist
  have own : ∀ m ∈ ms, m.1 ≠ encode "hash" := by
    intro m member same
    have listed := names.subset (List.mem_map_of_mem (f := Prod.fst) member)
    rw [same] at listed
    exact absurd listed (by decide)
  have whole : plain entry.object = some (.object (ms ++ [(encode "hash", .string entry.hash)])) := by
    rw [LedgerEntry.object_eq]
    exact plain_object.mpr ⟨_, plainProps_append members rfl, rfl⟩
  have kept : withoutHash (.object (ms ++ [(encode "hash", .string entry.hash)])) = .object ms := by
    rw [withoutHash, List.filter_append, List.filter_eq_self.mpr fun m member => by simpa using own m member]
    simp
  refine ⟨ms ++ [(encode "hash", .string entry.hash)], ?_, ?_, ?_⟩
  · apply faithful_plain _ whole
    rw [LedgerEntry.object_eq]
    have distinct : ((entry.members ++ [(encode "hash", JsValue.string entry.hash)]).map Prod.fst).Nodup := by
      have listed : (LedgerEntry.names ++ [encode "hash"]).Nodup := by decide
      rw [List.map_append]
      exact listed.sublist (entry.names_sublist.append (List.Sublist.refl _))
    have values : ∀ {props : List (JsString × JsValue)}, ProperProps props →
        ProperProps (props ++ [(encode "hash", JsValue.string entry.hash)]) := by
      intro props each
      induction props with
      | nil => exact ⟨trivial, trivial⟩
      | cons p rest ih => exact ⟨each.1, ih each.2⟩
    exact ⟨distinct, values proper'.2⟩
  · rw [JsonlLedgerStore.writeLine, stringify_plain _ whole]
    rfl
  · rw [unhashedOf, kept]
    exact canonicalJson_valueOf text proper' written

end

/-- Rows that were given back for rows that were stored: each has the text that was hashed. -/
def SameTexts (entries : List LedgerEntry) (rows : List JsonValue) : Prop :=
  List.Forall₂ (fun entry row => canonicalJson (unhashedOf row) = canonicalJson entry.unhashed) entries rows

/-- Rows whose hashes were computed. -/
def Hashed (platform : Platform) (entries : List LedgerEntry) : Prop :=
  ∀ entry ∈ entries, (∃ digest, entryHash platform entry = .ok digest) ∧ Proper entry.data

theorem text_of_entryHash {platform : Platform} {entry : LedgerEntry} {digest : JsString}
    (hashed : entryHash platform entry = .ok digest) :
    ∃ t, canonicalJson entry.unhashed = .ok t ∧ platform.sha256Hex t = digest := by
  rw [entryHash] at hashed
  cases text : canonicalJson entry.unhashed with
  | error e =>
    rw [text] at hashed
    cases hashed
  | ok t =>
    rw [text] at hashed
    exact ⟨t, rfl, Except.ok.inj hashed⟩

/-- A file of rows is the lines of as many JSON objects, which read as the rows. -/
theorem file_ok {platform : Platform} {entries : List LedgerEntry} (hashed : Hashed platform entries) :
    ∃ rows : List (List (JsString × JsonValue)), (∀ row ∈ rows, (JsonValue.object row).Faithful) ∧
      JsonlLedgerStore.file entries =
        .ok ((rows.map fun row => (JsonValue.object row).stringify).flatMap (· ++ [10])) ∧
      SameTexts entries (rows.map .object) := by
  induction entries with
  | nil => exact ⟨[], List.forall_mem_nil _, rfl, .nil⟩
  | cons entry rest ih =>
    obtain ⟨⟨⟨digest, own⟩, proper⟩, others⟩ := List.forall_mem_cons.mp hashed
    obtain ⟨t, text, -⟩ := text_of_entryHash own
    obtain ⟨props, faithful, line, read⟩ := writeLine_ok text proper
    obtain ⟨rows, each, written, same⟩ := ih others
    refine ⟨props :: rows, List.forall_mem_cons.mpr ⟨faithful, each⟩, ?_, .cons (read.trans text.symm) same⟩
    rw [JsonlLedgerStore.file, line, written]
    rfl

theorem load_lines {rows : List (List (JsString × JsonValue))}
    (faithful : ∀ row ∈ rows, (JsonValue.object row).Faithful) :
    JsonlLedgerStore.load ((rows.map fun row => (JsonValue.object row).stringify).flatMap (· ++ [10])) =
      some (rows.map .object) := by
  have single : ∀ line ∈ rows.map fun row => (JsonValue.object row).stringify, 10 ∉ line := by
    rw [List.forall_mem_map]
    exact fun row member => newline_notMem_stringify (faithful row member)
  have shown : ∀ line ∈ rows.map fun row => (JsonValue.object row).stringify,
      (!line.all Mandate.isSpaceUnit) = true := by
    rw [List.forall_mem_map]
    intro row member
    rfl
  have parsed : (rows.map fun row => (JsonValue.object row).stringify).mapM JsonValue.parse =
      some (rows.map .object) := by
    clear single shown
    induction rows with
    | nil => rfl
    | cons row rest ih =>
      rw [List.forall_mem_cons] at faithful
      rw [List.map_cons, List.mapM_cons, JsonValue.parse_stringify faithful.1, ih faithful.2]
      rfl
  rw [JsonlLedgerStore.load, splitOn_lines single, List.filter_append, List.filter_eq_self.mpr shown,
    show List.filter (fun line => !List.all line Mandate.isSpaceUnit) [([] : JsString)] = [] from rfl,
    List.append_nil, parsed]

/-- Lines of JSON come back from the disk as they went. -/
theorem onDisk_lines {rows : List (List (JsString × JsonValue))}
    (faithful : ∀ row ∈ rows, (JsonValue.object row).Faithful) :
    JsonlLedgerStore.onDisk ((rows.map fun row => (JsonValue.object row).stringify).flatMap (· ++ [10])) =
      (rows.map fun row => (JsonValue.object row).stringify).flatMap (· ++ [10]) := by
  apply encode_chars
  induction rows with
  | nil => rfl
  | cons row rest ih =>
    rw [List.forall_mem_cons] at faithful
    rw [List.map_cons, List.flatMap_cons]
    exact wellFormed_append (wellFormed_append (wellFormed_stringify faithful.1) rfl) (ih faithful.2)

/-- Rows in a file re-hash to what they were. -/
theorem jsonl_rehashes {platform : Platform} {entries : List LedgerEntry} (hashed : Hashed platform entries) :
    ∃ raw rows, JsonlLedgerStore.file entries = .ok raw ∧
      JsonlLedgerStore.load (JsonlLedgerStore.onDisk raw) = some rows ∧ SameTexts entries rows := by
  obtain ⟨rows, faithful, written, same⟩ := file_ok hashed
  refine ⟨_, _, written, ?_, same⟩
  rw [onDisk_lines faithful, load_lines faithful]

/-! ### Columns of a table -/

/-- What a database does with the text that goes into a TEXT column, and with the JSON text that goes
into a JSONB column: it keeps a value of it, or refuses. -/
structure Database where
  text : JsString → Option JsString
  jsonb : JsString → Option JsonValue
  text_kept : ∀ {s kept}, isWellFormed s = true → text s = some kept → kept = s
  text_formed : ∀ {s kept}, text s = some kept → isWellFormed kept = true
  /-- JSON values are kept up to the order of members. -/
  jsonb_kept : ∀ {j k}, j.Faithful → jsonb j.stringify = some k → k.Faithful ∧ sorted k = sorted j

/-- A row of `vaduno_ledger`. -/
structure LedgerRow where
  seq : ℤ
  timestamp : JsString
  type : EntryType
  intentId : Option JsString
  agentId : Option JsString
  data : JsonValue
  prevHash : JsString
  hash : JsString

/-- A column that may be null. -/
def Database.optionalText (db : Database) : Option JsString → Option (Option JsString)
  | none => some none
  | some s => some <$> db.text s

/-- The row that is persisted, unless the database refuses it. `data` has to be there: the column is
`NOT NULL`. -/
def Database.insert (db : Database) (entry : LedgerEntry) : Option LedgerRow := do
  let seq ← (Postgres.bigint entry.seq).toOption
  let json ← entry.data.stringify.toOption.join
  return {
    seq := seq
    timestamp := ← db.text entry.timestamp
    type := entry.type
    intentId := ← db.optionalText entry.refs.intentId
    agentId := ← db.optionalText entry.refs.agentId
    data := ← db.jsonb json
    prevHash := ← db.text entry.prevHash
    hash := ← db.text entry.hash }

/-- A row of the table as a row of the ledger, with the number that was read. -/
def LedgerRow.entry (row : LedgerRow) (seq : Number) : LedgerEntry where
  seq := seq
  timestamp := row.timestamp
  type := row.type
  refs := ⟨row.intentId, row.agentId⟩
  data := valueOf row.data
  prevHash := row.prevHash
  hash := row.hash

namespace PostgresLedgerStore

def toEntry (row : LedgerRow) : Throwing LedgerEntry := do
  return row.entry (← Postgres.toSafeInt row.seq "seq")

end PostgresLedgerStore

namespace SupabaseLedgerStore

/-- The number is a JSON number in the answer, and is read as the nearest one. -/
def rowToEntry (row : LedgerRow) : LedgerEntry := row.entry row.seq

end SupabaseLedgerStore

theorem canonicalProps_replace {front back : List (JsString × JsValue)} {v w : JsValue} (present : v ≠ .undefined)
    (present' : w ≠ .undefined) (same : canonical w = canonical v) :
    canonicalProps (front ++ (key, w) :: back) = canonicalProps (front ++ (key, v) :: back) := by
  induction front with
  | nil => rw [List.nil_append, List.nil_append, canonicalProps_cons present, canonicalProps_cons present', same]
  | cons p rest ih =>
    obtain ⟨name, u⟩ := p
    rw [List.cons_append, List.cons_append]
    by_cases absent : u = .undefined
    · subst absent
      exact ih
    · rw [canonicalProps_cons absent, canonicalProps_cons absent, ih]

theorem acceptsProps_replace {front back : List (JsString × JsValue)} {v w : JsValue} (present : v ≠ .undefined)
    (present' : w ≠ .undefined) (same : accepts depth w = accepts depth v) :
    acceptsProps depth (front ++ (key, w) :: back) = acceptsProps depth (front ++ (key, v) :: back) := by
  induction front with
  | nil => rw [List.nil_append, List.nil_append, acceptsProps_cons present, acceptsProps_cons present', same]
  | cons p rest ih =>
    obtain ⟨name, u⟩ := p
    rw [List.cons_append, List.cons_append]
    by_cases absent : u = .undefined
    · subst absent
      exact ih
    · rw [acceptsProps_cons absent, acceptsProps_cons absent, ih]

theorem plain_of_member {props : List (JsString × JsValue)} {v : JsValue} (written : plainProps props = some ms)
    (present : v ≠ .undefined) (member : (key, v) ∈ props) : ∃ j, plain v = some j ∧ (key, j) ∈ ms := by
  induction props generalizing ms with
  | nil => cases member
  | cons p rest ih =>
    obtain ⟨name, u⟩ := p
    by_cases absent : u = .undefined
    · subst absent
      obtain same | later := List.mem_cons.mp member
      · exact absurd (Prod.mk.inj same).2 present
      · exact ih written later
    · obtain ⟨j, more, own, others, rfl⟩ := (plainProps_cons_some absent).mp written
      obtain same | later := List.mem_cons.mp member
      · cases same
        exact ⟨j, own, List.mem_cons_self⟩
      · obtain ⟨k, kept, listed⟩ := ih others later
        exact ⟨k, kept, List.mem_cons_of_mem _ listed⟩

namespace LedgerEntry

/-- The properties that come before the data. -/
def front (entry : LedgerEntry) : List (JsString × JsValue) :=
  (encode "seq", .number entry.seq) :: (encode "timestamp", .string entry.timestamp) ::
    (encode "type", .string entry.type.text) ::
    (optional "intentId" entry.refs.intentId ++ optional "agentId" entry.refs.agentId)

theorem members_eq (entry : LedgerEntry) : entry.members =
    entry.front ++ (encode "data", entry.data) :: [(encode "prevHash", .string entry.prevHash)] := by
  simp [members, front]

end LedgerEntry

theorem valueOf_present (j : JsonValue) : valueOf j ≠ .undefined := by
  cases j <;> exact fun same => by cases same

section
variable {entry : LedgerEntry} (text : canonicalJson entry.unhashed = .ok t) (proper : Proper entry.data)
include text proper

theorem plain_data (present : entry.data ≠ .undefined) : ∃ j, plain entry.data = some j ∧ j.Faithful := by
  obtain ⟨k, written, -⟩ := plain_of_canonicalJson text (LedgerEntry.proper_unhashed proper)
  obtain ⟨ms, members, -⟩ := plain_object.mp written
  have member : (encode "data", entry.data) ∈ entry.members := by
    rw [LedgerEntry.members_eq]
    exact List.mem_append_right _ List.mem_cons_self
  obtain ⟨j, own, -⟩ := plain_of_member members present member
  exact ⟨j, own, faithful_plain _ own proper⟩

/-- A row has its text also with the data that a JSONB column gives back. -/
theorem canonicalJson_replaced {j k : JsonValue} (present : entry.data ≠ .undefined)
    (written : plain entry.data = some j) (faithful : k.Faithful) (same : sorted k = sorted j) :
    canonicalJson { entry with data := valueOf k }.unhashed = .ok t := by
  have alike : canonical (valueOf k) = canonical entry.data := by
    rw [canonical_valueOf faithful, canonical_eq_sorted, written, same]
    rfl
  have accepted : ∀ depth, accepts depth (valueOf k) = accepts depth entry.data := by
    intro depth
    rw [← accepts_sorted, same, accepts_sorted, accepts_plain entry.data written]
  apply canonicalJson_of_canonical text (LedgerEntry.proper_unhashed proper)
  · exact LedgerEntry.proper_unhashed (proper_valueOf faithful)
  · rw [LedgerEntry.unhashed, LedgerEntry.unhashed, canonical, canonical, LedgerEntry.members_eq,
      LedgerEntry.members_eq]
    exact congrArg _ (canonicalProps_replace present (valueOf_present k) alike)
  · have whole := (canonicalJson_iff entry.unhashed).mp ⟨t, text⟩
    rw [LedgerEntry.unhashed, accepts, LedgerEntry.members_eq] at whole ⊢
    rw [← whole]
    exact congrArg _ (acceptsProps_replace present (valueOf_present k) (accepted 1))

end

/-! ### Rows that read back -/

/-- The texts that are hashed and go into columns of their own. -/
def LedgerEntry.columns (entry : LedgerEntry) : List JsString :=
  entry.timestamp :: entry.prevHash :: (entry.refs.intentId.toList ++ entry.refs.agentId.toList)

/-- None of them has a surrogate that stands alone. -/
def LedgerEntry.WellFormedColumns (entry : LedgerEntry) : Prop :=
  ∀ text ∈ entry.columns, isWellFormed text = true

theorem Database.optionalText_kept {db : Database} {text kept : Option JsString}
    (wellFormed : ∀ s ∈ text.toList, isWellFormed s = true) (stored : db.optionalText text = some kept) :
    kept = text := by
  cases text with
  | none =>
    cases stored
    rfl
  | some s =>
    obtain ⟨s', own, rfl⟩ := Option.map_eq_some_iff.mp stored
    rw [db.text_kept (wellFormed s (List.mem_singleton_self s)) own]

theorem Database.optionalText_formed {db : Database} {text kept : Option JsString}
    (stored : db.optionalText text = some kept) : ∀ s ∈ kept.toList, isWellFormed s = true := by
  cases text with
  | none =>
    cases stored
    exact List.forall_mem_nil _
  | some s =>
    obtain ⟨s', own, rfl⟩ := Option.map_eq_some_iff.mp stored
    exact List.forall_mem_singleton.mpr (db.text_formed own)

theorem Database.insert_some {db : Database} {entry : LedgerEntry} {row : LedgerRow} :
    db.insert entry = some row ↔ ∃ json, Postgres.bigint entry.seq = .ok row.seq ∧
      entry.data.stringify = .ok (some json) ∧ db.text entry.timestamp = some row.timestamp ∧
      entry.type = row.type ∧ db.optionalText entry.refs.intentId = some row.intentId ∧
      db.optionalText entry.refs.agentId = some row.agentId ∧ db.jsonb json = some row.data ∧
      db.text entry.prevHash = some row.prevHash ∧ db.text entry.hash = some row.hash := by
  have held : ∀ {r : Throwing ℤ} {p : ℤ}, r.toOption = some p ↔ r = .ok p :=
    fun {r p} => ⟨of_toOption, fun same => by rw [same]; rfl⟩
  have written : ∀ {r : Throwing (Option JsString)} {json : JsString},
      r.toOption.join = some json ↔ r = .ok (some json) := by
    intro r json
    rw [Option.join_eq_some_iff]
    exact ⟨of_toOption, fun same => by rw [same]; rfl⟩
  obtain ⟨seq, timestamp, type, intentId, agentId, data, prevHash, hash⟩ := row
  rw [insert]
  simp only [Option.bind_eq_bind, Option.bind_eq_some_iff, Option.pure_def, Option.some.injEq, LedgerRow.mk.injEq,
    held, written]
  constructor
  · rintro ⟨_, own, json, text, _, first, _, second, _, third, _, fourth, _, fifth, _, sixth, rfl, rfl, rfl, rfl,
      rfl, rfl, rfl, rfl⟩
    exact ⟨json, own, text, first, rfl, second, third, fourth, fifth, sixth⟩
  · rintro ⟨json, own, text, first, rfl, second, third, fourth, fifth, sixth⟩
    exact ⟨_, own, json, text, _, first, _, second, _, third, _, fourth, _, fifth, _, sixth, rfl, rfl, rfl, rfl,
      rfl, rfl, rfl, rfl⟩

theorem member_of_plain {props : List (JsString × JsValue)} (written : plainProps props = some ms)
    (member : (key, j) ∈ ms) : ∃ v, (key, v) ∈ props ∧ plain v = some j := by
  induction props generalizing ms with
  | nil =>
    cases written
    cases member
  | cons p rest ih =>
    obtain ⟨name, u⟩ := p
    by_cases absent : u = .undefined
    · subst absent
      obtain ⟨v, listed, own⟩ := ih written member
      exact ⟨v, List.mem_cons_of_mem _ listed, own⟩
    · obtain ⟨k, more, own, others, rfl⟩ := (plainProps_cons_some absent).mp written
      obtain same | later := List.mem_cons.mp member
      · cases same
        exact ⟨u, List.mem_cons_self, own⟩
      · obtain ⟨v, listed, own⟩ := ih others later
        exact ⟨v, List.mem_cons_of_mem _ listed, own⟩

/-- Texts among the properties of objects with one canonical text are the same texts. -/
theorem string_member {props props' : List (JsString × JsValue)} (text : canonicalJson (.object props) = .ok t)
    (text' : canonicalJson (.object props') = .ok t) (proper : Proper (.object props))
    (proper' : Proper (.object props')) (member : (name, .string s) ∈ props) : (name, .string s) ∈ props' := by
  have same := (canonicalJson_eq_iff text text' proper proper').mp rfl
  obtain ⟨j, written, -⟩ := plain_of_canonicalJson text proper
  obtain ⟨j', written', -⟩ := plain_of_canonicalJson text' proper'
  obtain ⟨ms, inner, rfl⟩ := plain_object.mp written
  obtain ⟨ms', inner', rfl⟩ := plain_object.mp written'
  rw [canonical_eq_sorted, canonical_eq_sorted, written, written'] at same
  have ordered : (sortedProps ms).insertionSort (memberLe · ·) = (sortedProps ms').insertionSort (memberLe · ·) :=
    JsonValue.object.inj (Option.some.inj same)
  have listed : (name, JsonValue.string s) ∈ sortedProps ms' := by
    obtain ⟨k, own, listed⟩ := plain_of_member inner (JsValue.noConfusion ·) member
    cases own
    rw [← (List.perm_insertionSort (memberLe · ·) (sortedProps ms')).mem_iff, ← ordered,
      (List.perm_insertionSort (memberLe · ·) (sortedProps ms)).mem_iff, sortedProps_eq_map]
    exact List.mem_map.mpr ⟨_, listed, rfl⟩
  rw [sortedProps_eq_map] at listed
  obtain ⟨⟨key, k⟩, found, image⟩ := List.mem_map.mp listed
  obtain ⟨rfl, image⟩ := Prod.mk.inj image
  obtain ⟨v, present, own⟩ := member_of_plain inner' found
  cases k with
  | string s' =>
    cases image
    cases v with
    | string s'' =>
      cases own
      exact present
    | number n =>
      obtain ⟨-, same⟩ := plain_number.mp own
      cases same
    | array items =>
      obtain ⟨_, -, same⟩ := plain_array.mp own
      cases same
    | object props =>
      obtain ⟨_, -, same⟩ := plain_object.mp own
      cases same
    | _ => cases own
  | _ => cases image

theorem bigint_reads {n : Number} {p : ℤ} (finite : n.isFinite = true) (bound : Postgres.bigint n = .ok p) :
    (p : Number) = n := by
  cases n with
  | fin d =>
    rw [Postgres.bigint] at bound
    split at bound
    · cases bound
    · rename_i q read
      split_ifs at bound
      cases bound
      exact round_readInteger read
  | _ => cases finite

section
variable {entry : LedgerEntry} (text : canonicalJson entry.unhashed = .ok t) (proper : Proper entry.data)
variable {db : Database} {row : LedgerRow} (inserted : db.insert entry = some row)
include text proper inserted

theorem faithful_data : ∃ j, plain entry.data = some j ∧ entry.data ≠ .undefined ∧ row.data.Faithful ∧
    sorted row.data = sorted j := by
  obtain ⟨json, -, written, -, -, -, -, stored, -, -⟩ := Database.insert_some.mp inserted
  have present : entry.data ≠ .undefined := by
    intro absent
    rw [absent] at written
    cases written
  obtain ⟨j, own, faithful⟩ := plain_data text proper present
  rw [stringify_plain _ own] at written
  cases written
  exact ⟨j, own, present, db.jsonb_kept faithful stored⟩

/-- A row whose texts are well formed comes back with its text. -/
theorem rehash_kept (formed : entry.WellFormedColumns) : canonicalJson (row.entry entry.seq).unhashed = .ok t := by
  obtain ⟨j, written, present, faithful, same⟩ := faithful_data text proper inserted
  obtain ⟨json, -, -, timestamp, type, intentId, agentId, -, prevHash, -⟩ := Database.insert_some.mp inserted
  rw [LedgerEntry.WellFormedColumns, LedgerEntry.columns, List.forall_mem_cons, List.forall_mem_cons,
    List.forall_mem_append] at formed
  obtain ⟨first, second, third, fourth⟩ := formed
  have back : (row.entry entry.seq).unhashed = { entry with data := valueOf row.data }.unhashed := by
    rw [LedgerEntry.unhashed, LedgerEntry.unhashed, LedgerEntry.members, LedgerEntry.members, LedgerRow.entry]
    rw [db.text_kept first timestamp, db.text_kept second prevHash, db.optionalText_kept third intentId,
      db.optionalText_kept fourth agentId, type]
  rw [back]
  exact canonicalJson_replaced text proper present written faithful same

/-- A row that comes back with its text had nothing but well-formed texts. -/
theorem formed_of_rehash {seq : Number} (back : canonicalJson (row.entry seq).unhashed = .ok t) :
    entry.WellFormedColumns := by
  obtain ⟨j, -, -, faithful, -⟩ := faithful_data text proper inserted
  obtain ⟨json, -, -, timestamp, -, intentId, agentId, -, prevHash, -⟩ := Database.insert_some.mp inserted
  have held : ∀ {name s : JsString}, name ≠ encode "data" → name ≠ encode "type" →
      (name, JsValue.string s) ∈ entry.members → isWellFormed s = true := by
    intro name s other other' member
    have listed : (name, JsValue.string s) ∈ (row.entry seq).members := string_member text back
      (LedgerEntry.proper_unhashed proper) (LedgerEntry.proper_unhashed (proper_valueOf faithful)) member
    have texts : ∀ {key : String} {column : Option JsString}, (∀ s ∈ column.toList, isWellFormed s = true) →
        (name, JsValue.string s) ∈ LedgerEntry.optional key column → isWellFormed s = true := by
      intro key column each listed
      cases column with
      | none => cases listed
      | some s' =>
        cases List.mem_singleton.mp listed
        exact each _ (List.mem_singleton_self _)
    simp only [LedgerEntry.members, List.mem_cons, List.mem_append, List.not_mem_nil, or_false, Prod.mk.injEq,
      JsValue.string.injEq, reduceCtorEq, and_false, false_or] at listed
    obtain ⟨-, rfl⟩ | ⟨same, -⟩ | ⟨same | same⟩ | ⟨same, -⟩ | ⟨-, rfl⟩ := listed
    · exact db.text_formed timestamp
    · exact absurd same other'
    · exact texts (Database.optionalText_formed intentId) same
    · exact texts (Database.optionalText_formed agentId) same
    · exact absurd same other
    · exact db.text_formed prevHash
  have named : ∀ {key : String} {column : Option JsString} {s : JsString}, s ∈ column.toList →
      (encode key, JsValue.string s) ∈ LedgerEntry.optional key column := by
    intro key column s listed
    cases column with
    | none => cases listed
    | some s' =>
      rw [List.mem_singleton.mp listed]
      exact List.mem_cons_self
  intro s member
  rw [LedgerEntry.columns, List.mem_cons, List.mem_cons, List.mem_append] at member
  obtain rfl | rfl | listed | listed := member
  · apply @held (encode "timestamp") _ (by decide) (by decide)
    simp [LedgerEntry.members]
  · apply @held (encode "prevHash") _ (by decide) (by decide)
    simp [LedgerEntry.members]
  · apply @held (encode "intentId") _ (by decide) (by decide)
    simp [LedgerEntry.members, named listed]
  · apply @held (encode "agentId") _ (by decide) (by decide)
    simp [LedgerEntry.members, named listed]

end

/-- What a table persisted of each row reads back as a row with the text that was hashed, and so with
its hash. -/
def Rehashes (platform : Platform) (db : Database) (read : LedgerRow → Throwing LedgerEntry)
    (entry : LedgerEntry) : Prop :=
  ∀ row, db.insert entry = some row → ∃ back, read row = .ok back ∧
    canonicalJson back.unhashed = canonicalJson entry.unhashed ∧ entryHash platform back = entryHash platform entry

section
variable {platform : Platform} {db : Database} {entry : LedgerEntry}
variable (hashed : entryHash platform entry = .ok digest) (proper : Proper entry.data)
include hashed proper

theorem supabase_rehashes_iff :
    Rehashes platform db (fun row => .ok (SupabaseLedgerStore.rowToEntry row)) entry ↔
      ∀ row, db.insert entry = some row → entry.WellFormedColumns := by
  obtain ⟨t, text, -⟩ := text_of_entryHash hashed
  constructor
  · intro rehashes row inserted
    obtain ⟨back, read, same, -⟩ := rehashes row inserted
    cases read
    exact formed_of_rehash text proper inserted (same.trans text)
  · intro formed row inserted
    obtain ⟨json, bound, -⟩ := Database.insert_some.mp inserted
    have kept := rehash_kept text proper inserted (formed row inserted)
    rw [← bigint_reads (isFinite_seq hashed) bound] at kept
    refine ⟨_, rfl, kept.trans text.symm, ?_⟩
    rw [entryHash, entryHash, SupabaseLedgerStore.rowToEntry, kept, text]

theorem postgres_rehashes_iff : Rehashes platform db PostgresLedgerStore.toEntry entry ↔
    ∀ row, db.insert entry = some row → entry.seq.isSafeInteger = true ∧ entry.WellFormedColumns := by
  obtain ⟨t, text, -⟩ := text_of_entryHash hashed
  refine forall_congr' fun row => forall_congr' fun inserted => ?_
  obtain ⟨json, bound, -⟩ := Database.insert_some.mp inserted
  have number := bigint_reads (isFinite_seq hashed) bound
  have read : PostgresLedgerStore.toEntry row = if entry.seq.isSafeInteger = true then .ok (row.entry entry.seq)
      else .error (.error ("@vaduno/postgres: " ++ encode "seq" ++ " is not a safe integer (got " ++
        intText row.seq ++ ")")) := by
    rw [PostgresLedgerStore.toEntry, Postgres.toSafeInt, number]
    split_ifs <;> rfl
  rw [read]
  split_ifs with safe
  · constructor
    · rintro ⟨back, ⟨⟩, rest⟩
      exact ⟨safe, formed_of_rehash text proper inserted (rest.1.trans text)⟩
    · rintro ⟨-, formed⟩
      have kept := rehash_kept text proper inserted formed
      refine ⟨_, rfl, kept.trans text.symm, ?_⟩
      rw [entryHash, entryHash, kept, text]
  · exact iff_of_false (by rintro ⟨_, ⟨⟩, _⟩) fun both => safe both.1

end

/-- What is stored re-hashes to what it was: the lines of a file, canonical JSON that is read, and what
the tables of the two databases persisted. -/
structure StoredRehash (platform : Platform) (postgres supabase : Database) (entries : List LedgerEntry) : Prop where
  jsonl : ∃ raw rows, JsonlLedgerStore.file entries = .ok raw ∧
    JsonlLedgerStore.load (JsonlLedgerStore.onDisk raw) = some rows ∧ SameTexts entries rows
  canonical : ∀ v t, Proper v → canonicalJson v = .ok t →
    ∃ j, JsonValue.parse t = some j ∧ canonicalJson (valueOf j) = .ok t
  postgres : ∀ entry ∈ entries, Rehashes platform postgres PostgresLedgerStore.toEntry entry
  supabase : ∀ entry ∈ entries,
    Rehashes platform supabase (fun row => .ok (SupabaseLedgerStore.rowToEntry row)) entry

/-- It does exactly where no text that a table persisted has a surrogate that stands alone, and no number
that Postgres persisted is above the safe integers. -/
theorem stored_rehash_iff {platform : Platform} {postgres supabase : Database} {entries : List LedgerEntry}
    (hashed : Hashed platform entries) : StoredRehash platform postgres supabase entries ↔
      (∀ entry ∈ entries, ∀ row, postgres.insert entry = some row →
        entry.seq.isSafeInteger = true ∧ entry.WellFormedColumns) ∧
      ∀ entry ∈ entries, ∀ row, supabase.insert entry = some row → entry.WellFormedColumns := by
  constructor
  · intro stored
    constructor
    · intro entry member
      obtain ⟨⟨digest, own⟩, proper⟩ := hashed entry member
      exact (postgres_rehashes_iff own proper).mp (stored.postgres entry member)
    · intro entry member
      obtain ⟨⟨digest, own⟩, proper⟩ := hashed entry member
      exact (supabase_rehashes_iff own proper).mp (stored.supabase entry member)
  · rintro ⟨first, second⟩
    constructor
    · exact jsonl_rehashes hashed
    · exact fun v t proper text => canonicalJson_parse text proper
    · intro entry member
      obtain ⟨⟨digest, own⟩, proper⟩ := hashed entry member
      exact (postgres_rehashes_iff own proper).mpr (first entry member)
    · intro entry member
      obtain ⟨⟨digest, own⟩, proper⟩ := hashed entry member
      exact (supabase_rehashes_iff own proper).mpr (second entry member)

namespace Sample

/-- A database that refuses the character that PostgreSQL cannot hold, and whose client sends text as
UTF-8. -/
def database : Database where
  text s := if 0 ∈ s then none else some (JsonlLedgerStore.onDisk s)
  jsonb := JsonValue.parse
  text_kept := by
    intro s kept wellFormed stored
    split_ifs at stored
    exact (Option.some.inj stored).symm.trans (encode_chars wellFormed)
  text_formed := by
    intro s kept stored
    split_ifs at stored
    exact Option.some.inj stored ▸ wellFormed_encoded (chars s)
  jsonb_kept := by
    intro j k faithful stored
    rw [JsonValue.parse_stringify faithful] at stored
    cases stored
    exact ⟨faithful, rfl⟩

/-- The first row of a ledger, about an intent with some id. -/
def received (intentId : JsString) : LedgerEntry where
  seq := 0
  timestamp := "2026-01-01T00:00:00.000Z"
  type := .intentReceived
  refs := ⟨some intentId, none⟩
  data := .object [("amountMinor", .number 500)]
  prevHash := genesisHash
  hash := ""

theorem received_hashed (platform : Platform) {intentId : JsString}
    (accepted : accepts 0 (received intentId).unhashed = true) : Hashed platform [received intentId] := by
  rw [Hashed, List.forall_mem_singleton]
  constructor
  · obtain ⟨t, text⟩ := (canonicalJson_iff (received intentId).unhashed).mpr accepted
    exact ⟨platform.sha256Hex t, by rw [entryHash, text]; rfl⟩
  · exact ⟨List.nodup_singleton _, trivial, trivial⟩

theorem received_checked : (accepts 0 (received [0xd800]).unhashed = true ∧
    (database.insert (received [0xd800])).isSome = true ∧
    ¬∀ text ∈ (received [0xd800]).columns, isWellFormed text = true) ∧
    accepts 0 (received "pay-1").unhashed = true ∧ (received "pay-1").seq.isSafeInteger = true ∧
    ∀ text ∈ (received "pay-1").columns, isWellFormed text = true := by
  decide +kernel

/-- An intent id that is half a surrogate pair is another one in the table. -/
theorem lone_surrogate_rehashes_otherwise :
    ¬StoredRehash Vaduno.Sample.platform database database [received [0xd800]] := by
  obtain ⟨accepted, persisted, formless⟩ := received_checked.1
  intro stored
  obtain ⟨⟨digest, own⟩, proper⟩ := received_hashed Vaduno.Sample.platform accepted _ List.mem_cons_self
  obtain ⟨row, inserted⟩ := Option.isSome_iff_exists.mp persisted
  have formed := (postgres_rehashes_iff own proper).mp (stored.postgres _ List.mem_cons_self) row inserted
  exact formless formed.2

theorem received_rehashes : StoredRehash Vaduno.Sample.platform database database [received "pay-1"] := by
  obtain ⟨accepted, formed⟩ := received_checked.2
  refine (stored_rehash_iff (received_hashed Vaduno.Sample.platform accepted)).mpr ?_
  rw [List.forall_mem_singleton, List.forall_mem_singleton]
  exact ⟨fun _ _ => formed, fun _ _ => formed.2⟩

end Sample

end Vaduno.Ledger
