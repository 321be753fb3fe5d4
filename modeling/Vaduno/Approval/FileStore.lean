import Vaduno.Approval.Store
import Vaduno.Ecma.JsonFile

/-! The queue over a file that an agent and a dashboard share. Every call reads the whole file and
writes it whole under the lock, so that the queue is the text; what it holds is what the queue in memory
would hold after the same calls. -/
namespace Vaduno.Approval
open Ecma

/-! ### Items and decisions in the file -/

/-- JSON has no other numbers: they are written as `null`. -/
def finiteJson (n : Number) : JsonValue := if n.isFinite then .number n else .null

def amountProps (amount : Money) : Entries :=
  [("amountMinor", finiteJson amount.amountMinor), ("currency", .string amount.currency)]

def optionalProp (name : JsString) (text : Option JsString) : Entries :=
  text.toList.map fun s => (name, .string s)

def merchantProps (merchant : MerchantRef) : Entries :=
  [(encode "id", JsonValue.string merchant.id)] ++ optionalProp "url" merchant.url

def reasonProps (r : PolicyReason) : Entries :=
  [("code", .string r.code), ("message", .string r.message)]

def pendingProps (item : PendingApproval) : Entries :=
  let shown : Entries := [
    ("intentId", .string item.intentId),
    ("agentId", .string item.agentId),
    ("amount", .object (amountProps item.amount)),
    ("merchant", .object (merchantProps item.merchant)),
    ("policyReasons", .array (item.policyReasons.map fun r => .object (reasonProps r))),
    ("requestedAt", .string item.requestedAt)]
  shown ++ optionalProp "fingerprint" item.fingerprint

def responseProps (r : ApprovalResponse) : Entries :=
  [(encode "approved", JsonValue.boolean r.approved)] ++ optionalProp "approver" r.approver ++
    optionalProp "note" r.note

def decisionProps (d : ApprovalDecision) : Entries :=
  responseProps d.toApprovalResponse ++ [(encode "decidedAt", JsonValue.string d.decidedAt)] ++
    optionalProp "fingerprint" d.fingerprint

def numberOf : Option JsonValue → Number
  | some (.number n) => n
  | _ => .nan

def amountOf (v : Option JsonValue) : Money where
  amountMinor := numberOf (v.bind (·.get "amountMinor"))
  currency := JsonValue.text (v.bind (·.get "currency"))

def merchantOf (v : Option JsonValue) : MerchantRef where
  id := JsonValue.text (v.bind (·.get "id"))
  url := JsonValue.optionalText (v.bind (·.get "url"))

def reasonsOf : Option JsonValue → List PolicyReason
  | some (.array items) => items.map fun v =>
    ⟨JsonValue.text (v.get "code"), JsonValue.text (v.get "message")⟩
  | _ => []

/-- An entry as a listing gives it; only the store writes the file, and it writes items. -/
def itemOf (v : JsonValue) : PendingApproval where
  intentId := JsonValue.text (v.get "intentId")
  agentId := JsonValue.text (v.get "agentId")
  amount := amountOf (v.get "amount")
  merchant := merchantOf (v.get "merchant")
  policyReasons := reasonsOf (v.get "policyReasons")
  requestedAt := JsonValue.text (v.get "requestedAt")
  fingerprint := JsonValue.optionalText (v.get "fingerprint")

def decisionOf (v : JsonValue) : ApprovalDecision where
  approved := (v.get "approved").any JsonValue.truthy
  approver := JsonValue.optionalText (v.get "approver")
  note := JsonValue.optionalText (v.get "note")
  decidedAt := JsonValue.text (v.get "decidedAt")
  fingerprint := JsonValue.optionalText (v.get "fingerprint")

def pendingItems : Layout PendingApproval where
  name := "pending"
  key := PendingApproval.intentId
  value := pendingProps

def decisions : Layout FiledDecision where
  name := "decisions"
  key := Prod.fst
  value d := decisionProps d.2

/-! ### The store -/

/-- What the file holds; `none` where there is none. -/
abbrev ApprovalFile := Option JsString

namespace ApprovalFile
variable (unreadable : Thrown) (file : ApprovalFile)

def load : Throwing (Entries × Entries) := do
  let pending ← loadEntries unreadable pendingItems.name file
  let decided ← loadEntries unreadable decisions.name file
  return (pending, decided)

def save (pending decided : Entries) : ApprovalFile :=
  some (fileText [(pendingItems.name, pending), (decisions.name, decided)])

def enqueue (item : PendingApproval) : Throwing ApprovalFile := do
  let (pending, decided) ← file.load unreadable
  match decided.find item.intentId with
  | some _ => return file
  | none => return save (defineProp pending item.intentId (.object (pendingProps item))) decided

def listPending : Throwing (List PendingApproval) := do
  let (pending, _) ← file.load unreadable
  return pending.values.map itemOf

def resolve (intentId : JsString) (response : ApprovalResponse) (decidedAt : Throwing JsString) :
    Throwing ApprovalFile := do
  let (pending, decided) ← file.load unreadable
  match decided.find intentId, pending.find intentId with
  | none, some item =>
    let decidedAt ← decidedAt
    let decision : ApprovalDecision :=
      { response with decidedAt, fingerprint := (itemOf item).fingerprint }
    return save (pending.delete intentId)
      (defineProp decided intentId (.object (decisionProps decision)))
  | _, _ => return file

def getDecision (intentId : JsString) : Throwing (Option ApprovalDecision) := do
  let (_, decided) ← file.load unreadable
  return (decided.find intentId).map decisionOf

end ApprovalFile

/-! ### In and out -/

/-- An item as the file gives it back. -/
def PendingApproval.carried (item : PendingApproval) : PendingApproval :=
  { item with amount := amountOf (some (.object (amountProps item.amount))) }

theorem carried_of_finite {item : PendingApproval} (finite : item.amount.amountMinor.isFinite = true) :
    item.carried = item := by
  obtain ⟨intentId, agentId, ⟨amountMinor, currency⟩, merchant, reasons, requestedAt, fingerprint⟩ := item
  have same : amountOf (some (.object (amountProps ⟨amountMinor, currency⟩))) = ⟨amountMinor, currency⟩ := by
    unfold amountProps finiteJson
    rw [if_pos finite]
    rfl
  rw [PendingApproval.carried, same]

theorem merchantOf_props (merchant : MerchantRef) :
    merchantOf (some (.object (merchantProps merchant))) = merchant := by
  obtain ⟨id, url⟩ := merchant
  cases url with
  | none => rfl
  | some url => rfl

theorem reasonsOf_props (reasons : List PolicyReason) :
    reasonsOf (some (.array (reasons.map fun r => .object (reasonProps r)))) = reasons := by
  dsimp only [reasonsOf]
  rw [List.map_map]
  exact (List.map_congr_left fun r _ => rfl).trans (List.map_id reasons)

theorem itemOf_props (item : PendingApproval) : itemOf (.object (pendingProps item)) = item.carried := by
  obtain ⟨intentId, agentId, amount, merchant, reasons, requestedAt, fingerprint⟩ := item
  have read : ∀ fingerprint, PendingApproval.mk intentId agentId
      (amountOf (some (.object (amountProps amount)))) (merchantOf (some (.object (merchantProps merchant))))
      (reasonsOf (some (.array (reasons.map fun r => .object (reasonProps r))))) requestedAt fingerprint =
        (PendingApproval.mk intentId agentId amount merchant reasons requestedAt fingerprint).carried := by
    intro fingerprint
    rw [merchantOf_props, reasonsOf_props]
    rfl
  cases fingerprint with
  | none => exact read none
  | some f => exact read (some f)

theorem decisionOf_props (d : ApprovalDecision) : decisionOf (.object (decisionProps d)) = d := by
  obtain ⟨⟨approved, approver, note⟩, decidedAt, fingerprint⟩ := d
  cases approver <;> cases note <;> cases fingerprint <;> rfl

theorem faithful_finite (n : Number) : (finiteJson n).Faithful := by
  unfold finiteJson
  cases n with
  | fin d => exact .number d
  | _ => exact .null

theorem optionalProp_names (name : JsString) (text : Option JsString) :
    ((optionalProp name text).map Prod.fst).Sublist [name] := by
  cases text with
  | none => exact List.nil_sublist _
  | some s => exact List.Sublist.refl _

theorem faithful_optional {name : JsString} {text : Option JsString} {p : JsString × JsonValue}
    (member : p ∈ optionalProp name text) : p.2.Faithful := by
  obtain ⟨s, -, rfl⟩ := List.mem_map.mp member
  exact .string s

theorem faithful_reasons (reasons : List PolicyReason) :
    JsonValue.FaithfulItems (reasons.map fun r => .object (reasonProps r)) := by
  induction reasons with
  | nil => exact .nil
  | cons r rest ih =>
    have reason : (JsonValue.object (reasonProps r)).Faithful :=
      .object (.cons (.string r.code) (.cons (.string r.message) .nil))
        (show [encode "code", encode "message"].Nodup by decide)
    exact .cons reason ih

theorem faithful_merchant (merchant : MerchantRef) :
    (JsonValue.object (merchantProps merchant)).Faithful := by
  refine .object (faithful_props fun p member => ?_)
    (@distinct_optional _ _ [encode "id"] _ _ rfl (by decide) merchant.url)
  rcases List.mem_append.mp member with member | member
  · cases List.mem_singleton.mp member
    exact .string merchant.id
  · exact faithful_optional member

theorem faithful_pending (item : PendingApproval) :
    (JsonValue.object (pendingProps item)).Faithful := by
  refine .object (faithful_props fun p member => ?_)
    (@distinct_optional _ _ [encode "intentId", encode "agentId", encode "amount", encode "merchant",
      encode "policyReasons", encode "requestedAt"] _ _ rfl (by decide) item.fingerprint)
  rcases List.mem_append.mp member with member | member
  · simp only [List.mem_cons, List.not_mem_nil, or_false] at member
    rcases member with rfl | rfl | rfl | rfl | rfl | rfl
    · exact .string item.intentId
    · exact .string item.agentId
    · exact .object (.cons (faithful_finite _) (.cons (.string item.amount.currency) .nil))
        (show [encode "amountMinor", encode "currency"].Nodup by decide)
    · exact faithful_merchant item.merchant
    · exact .array (faithful_reasons item.policyReasons)
    · exact .string item.requestedAt
  · exact faithful_optional member

theorem decisionNames (d : ApprovalDecision) : ((decisionProps d).map Prod.fst).Nodup := by
  have among : ((decisionProps d).map Prod.fst).Sublist
      ([encode "approved"] ++ [encode "approver"] ++ [encode "note"] ++ [encode "decidedAt"] ++
        [encode "fingerprint"]) := by
    simp only [decisionProps, responseProps, List.map_append]
    exact ((((List.Sublist.refl _).append (optionalProp_names _ _)).append
      (optionalProp_names _ _)).append (List.Sublist.refl _)).append (optionalProp_names _ _)
  exact List.Nodup.sublist among (by decide)

theorem faithful_decision (d : ApprovalDecision) : (JsonValue.object (decisionProps d)).Faithful := by
  refine .object (faithful_props fun p member => ?_) (decisionNames d)
  simp only [decisionProps, responseProps, List.mem_append, List.mem_singleton] at member
  rcases member with (((rfl | member) | member) | rfl) | member
  · exact .boolean d.approved
  · exact faithful_optional member
  · exact faithful_optional member
  · exact .string d.decidedAt
  · exact faithful_optional member

/-! ### The file against the maps in memory -/

/-- The file holds what the maps hold, each in some order. -/
def Written (file : ApprovalFile) (m : MemoryApprovalStore) : Prop :=
  file = none ∧ m.pending.rows = [] ∧ m.decisions.rows = [] ∨
    ∃ (ps : List PendingApproval) (ds : List FiledDecision), ps.Perm m.pending.rows ∧
      ds.Perm m.decisions.rows ∧ file = ApprovalFile.save (ps.map pendingItems.entry) (ds.map decisions.entry)

theorem written_save {m : MemoryApprovalStore} {ps : List PendingApproval} {ds : List FiledDecision}
    (pending : ps.Perm m.pending.rows) (decided : ds.Perm m.decisions.rows) :
    Written (ApprovalFile.save (ps.map pendingItems.entry) (ds.map decisions.entry)) m :=
  .inr ⟨ps, ds, pending, decided, rfl⟩

section Refinement
variable {file : ApprovalFile} {m : MemoryApprovalStore} (written : Written file m) (unreadable : Thrown)
include written

/-- What was written is read back. -/
theorem Written.load : ∃ (ps : List PendingApproval) (ds : List FiledDecision),
    ps.Perm m.pending.rows ∧ ds.Perm m.decisions.rows ∧
      file.load unreadable = .ok (ps.map pendingItems.entry, ds.map decisions.entry) := by
  rcases written with ⟨rfl, noPending, noDecisions⟩ | ⟨ps, ds, pending, decided, rfl⟩
  · exact ⟨[], [], noPending ▸ .nil, noDecisions ▸ .nil, rfl⟩
  have names : ([(pendingItems.name, ps.map pendingItems.entry),
      (decisions.name, ds.map decisions.entry)].map Prod.fst).Nodup :=
    show [encode "pending", encode "decisions"].Nodup by decide
  have faithful : ∀ t ∈ [(pendingItems.name, ps.map pendingItems.entry),
      (decisions.name, ds.map decisions.entry)], (JsonValue.object (Entries.inOrder t.2)).Faithful := by
    intro t member
    simp only [List.mem_cons, List.not_mem_nil, or_false] at member
    rcases member with rfl | rfl
    · exact Layout.faithful_entries pending m.pending.distinct fun item _ => faithful_pending item
    · exact Layout.faithful_entries decided m.decisions.distinct fun d _ => faithful_decision d.2
  refine ⟨ownOrder pendingItems.key (ownOrder pendingItems.key ps),
    ownOrder decisions.key (ownOrder decisions.key ds),
    ((ownOrder_perm _ _).trans (ownOrder_perm _ _)).trans pending,
    ((ownOrder_perm _ _).trans (ownOrder_perm _ _)).trans decided, ?_⟩
  have pendingRead := loadEntries_fileText names faithful List.mem_cons_self unreadable
  have decidedRead := loadEntries_fileText names faithful
    (List.mem_cons_of_mem _ List.mem_cons_self) unreadable
  rw [ApprovalFile.load, ApprovalFile.save, pendingRead, ok_bind, decidedRead, ok_bind,
    Layout.inOrder_entry, Layout.inOrder_entry, Layout.inOrder_entry, Layout.inOrder_entry]
  rfl

omit written in
theorem find_item {ps : List PendingApproval} (perm : ps.Perm m.pending.rows) (id : JsString) :
    Entries.find (ps.map pendingItems.entry) id =
      (m.pending.find id).map fun item => .object (pendingProps item) :=
  pendingItems.find_entry perm m.pending.distinct id

omit written in
theorem find_filed {ds : List FiledDecision} (perm : ds.Perm m.decisions.rows) (id : JsString) :
    Entries.find (ds.map decisions.entry) id =
      (m.decisions.find id).map fun d => .object (decisionProps d.2) :=
  decisions.find_entry perm m.decisions.distinct id

theorem Written.getDecision (id : JsString) :
    file.getDecision unreadable id = .ok (m.getDecision id) := by
  obtain ⟨ps, ds, -, decided, loaded⟩ := written.load unreadable
  rw [ApprovalFile.getDecision, loaded, ok_bind]
  dsimp only
  rw [find_filed decided, Option.map_map]
  exact congrArg Except.ok (Option.map_congr fun d _ => decisionOf_props d.2)

theorem Written.listPending : ∃ order : List PendingApproval, order.Perm m.pending.rows ∧
    file.listPending unreadable = .ok (order.map PendingApproval.carried) := by
  obtain ⟨ps, ds, pending, -, loaded⟩ := written.load unreadable
  refine ⟨ownOrder pendingItems.key ps, (ownOrder_perm _ _).trans pending, ?_⟩
  rw [ApprovalFile.listPending, loaded, ok_bind]
  dsimp only
  rw [Entries.values, Layout.inOrder_entry, List.map_map, List.map_map]
  exact congrArg Except.ok (List.map_congr_left fun item _ => itemOf_props item)

theorem Written.enqueue (item : PendingApproval) :
    Written ((file.enqueue unreadable item).toOption.getD file) (m.enqueue item) := by
  obtain ⟨ps, ds, pending, decided, loaded⟩ := written.load unreadable
  unfold ApprovalFile.enqueue MemoryApprovalStore.enqueue
  rw [loaded, ok_bind]
  dsimp only
  rw [find_filed decided]
  cases m.decisions.find item.intentId with
  | some d => exact written
  | none =>
    obtain ⟨next, perm, defined⟩ := @Layout.define_put _ pendingItems _ _ pending item
    change Written (ApprovalFile.save (defineProp _ (pendingItems.key item)
      (.object (pendingItems.value item))) _) _
    rw [defined]
    exact written_save perm decided

theorem Written.resolve (id : JsString) (response : ApprovalResponse) (decidedAt : Throwing JsString) :
    Written ((file.resolve unreadable id response decidedAt).toOption.getD file)
      (m.resolve id response decidedAt) := by
  obtain ⟨ps, ds, pending, decided, loaded⟩ := written.load unreadable
  unfold ApprovalFile.resolve MemoryApprovalStore.resolve
  rw [loaded, ok_bind]
  dsimp only
  rw [find_filed decided, find_item pending]
  cases m.decisions.find id with
  | some d => exact written
  | none =>
    cases held : m.pending.find id with
    | none => exact written
    | some item =>
      cases decidedAt with
      | error thrown => exact written
      | ok decidedAt =>
        have read : (itemOf (.object (pendingProps item))).fingerprint = item.fingerprint :=
          (congrArg PendingApproval.fingerprint (itemOf_props item)).trans rfl
        let d : ApprovalDecision := { response with decidedAt, fingerprint := item.fingerprint }
        obtain ⟨next, perm, defined⟩ := @Layout.define_put _ decisions _ _ decided (id, d)
        have left : Entries.delete (ps.map pendingItems.entry) id =
            (ps.filter (pendingItems.key · ≠ id)).map pendingItems.entry := Layout.delete_entry ps id
        change Written (ApprovalFile.save (Entries.delete (ps.map pendingItems.entry) id)
          (defineProp _ id (.object (decisionProps { d with
            fingerprint := (itemOf (.object (pendingProps item))).fingerprint })))) _
        rw [read, left]
        change Written (ApprovalFile.save _ (defineProp _ (decisions.key (id, d))
          (.object (decisions.value (id, d))))) _
        rw [defined]
        exact written_save (pending.filter _) perm

end Refinement

/-! ### The queue -/

/-- A file that only the store has written. -/
structure FileApprovalStore where
  file : ApprovalFile
  written : ∃ m, Written file m

section Store
variable (unreadable : Thrown)

namespace FileApprovalStore
variable (s : FileApprovalStore)

def listPending : List PendingApproval := (s.file.listPending unreadable).toOption.getD []

def getDecision (id : JsString) : Option ApprovalDecision :=
  (s.file.getDecision unreadable id).toOption.getD none

def enqueue (item : PendingApproval) : FileApprovalStore where
  file := (s.file.enqueue unreadable item).toOption.getD s.file
  written := by
    obtain ⟨m, written⟩ := s.written
    exact ⟨_, written.enqueue unreadable item⟩

def resolve (id : JsString) (response : ApprovalResponse) (decidedAt : Throwing JsString) :
    FileApprovalStore where
  file := (s.file.resolve unreadable id response decidedAt).toOption.getD s.file
  written := by
    obtain ⟨m, written⟩ := s.written
    exact ⟨_, written.resolve unreadable id response decidedAt⟩

end FileApprovalStore

/-- The queue in the file shows and answers what the queue in memory does. -/
theorem Written.observed {s : FileApprovalStore} {m : MemoryApprovalStore} (written : Written s.file m) :
    (∀ id, pendingOf (FileApprovalStore.listPending unreadable) s id =
        (pendingOf MemoryApprovalStore.listPending m id).map PendingApproval.carried) ∧
      FileApprovalStore.getDecision unreadable s = m.getDecision := by
  constructor
  · intro id
    obtain ⟨order, perm, listed⟩ := written.listPending unreadable
    rw [pendingOf, FileApprovalStore.listPending, listed]
    change (order.map PendingApproval.carried).find? _ = _
    rw [List.find?_map]
    exact congrArg (Option.map _) (Layout.find?_perm perm m.pending.distinct id)
  · funext id
    rw [FileApprovalStore.getDecision, written.getDecision]
    rfl

/-- A response decides in the file what it decides in memory: a decision has the fingerprint of the
item, which the file carries. -/
theorem Written.decided {s : FileApprovalStore} {m : MemoryApprovalStore} (written : Written s.file m)
    (id : JsString) (response : ApprovalResponse) (decidedAt : Throwing JsString) :
    decided (FileApprovalStore.listPending unreadable) (FileApprovalStore.getDecision unreadable) s id
        response decidedAt =
      decided MemoryApprovalStore.listPending MemoryApprovalStore.getDecision m id response decidedAt := by
  obtain ⟨pending, decision⟩ := written.observed unreadable
  unfold Approval.decided
  rw [pending, decision]
  cases m.getDecision id with
  | some d => rfl
  | none =>
    cases pendingOf MemoryApprovalStore.listPending m id with
    | none => rfl
    | some item => cases decidedAt <;> rfl

def fileApprovalStore : ApprovalStore FileApprovalStore where
  start := ⟨none, .empty, .inl ⟨rfl, rfl, rfl⟩⟩
  enqueue := FileApprovalStore.enqueue unreadable
  listPending := FileApprovalStore.listPending unreadable
  resolve := FileApprovalStore.resolve unreadable
  getDecision := FileApprovalStore.getDecision unreadable
  start_pending _ := rfl
  start_decision _ := rfl
  enqueue_pending s item id finite := by
    obtain ⟨m, written⟩ := s.written
    obtain ⟨before, decision⟩ := written.observed unreadable
    obtain ⟨after, -⟩ := @Written.observed unreadable (s.enqueue unreadable item) _
      (written.enqueue unreadable item)
    rw [after, before, decision, m.enqueue_pending]
    split_ifs with own
    · exact congrArg some (carried_of_finite finite)
    · rfl
  enqueue_decision s item id := by
    obtain ⟨m, written⟩ := s.written
    obtain ⟨-, before⟩ := written.observed unreadable
    obtain ⟨-, after⟩ := @Written.observed unreadable (s.enqueue unreadable item) _
      (written.enqueue unreadable item)
    rw [after, before, m.enqueue_decision]
  resolve_pending s id response decidedAt id' := by
    obtain ⟨m, written⟩ := s.written
    obtain ⟨before, -⟩ := written.observed unreadable
    obtain ⟨after, -⟩ := @Written.observed unreadable (s.resolve unreadable id response decidedAt) _
      (written.resolve unreadable id response decidedAt)
    rw [after, before, written.decided unreadable, m.resolve_pending]
    split_ifs
    · rfl
    · rfl
  resolve_decision s id response decidedAt id' := by
    obtain ⟨m, written⟩ := s.written
    obtain ⟨-, before⟩ := written.observed unreadable
    obtain ⟨-, after⟩ := @Written.observed unreadable (s.resolve unreadable id response decidedAt) _
      (written.resolve unreadable id response decidedAt)
    rw [after, before, written.decided unreadable, m.resolve_decision]

end Store
end Vaduno.Approval
