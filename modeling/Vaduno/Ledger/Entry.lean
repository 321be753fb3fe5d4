import Vaduno.Ledger.Hash
import Vaduno.Runtime

/-! The rows of the audit ledger, as stores keep them and as hashes and leaves commit to them. -/
namespace Vaduno.Ledger
open Ecma

def EntryType.text : EntryType → JsString
  | intentReceived => "intent_received"
  | policyDecision => "policy_decision"
  | approvalRequested => "approval_requested"
  | approvalResolved => "approval_resolved"
  | mandateIssued => "mandate_issued"
  | mandateConsumed => "mandate_consumed"
  | mandateReplayed => "mandate_replayed"
  | mandateRevoked => "mandate_revoked"
  | mandateUnsuspended => "mandate_unsuspended"
  | mandateIndexAssigned => "mandate_index_assigned"
  | agentRevoked => "agent_revoked"
  | agentRevokePartial => "agent_revoke_partial"
  | agentUnblocked => "agent_unblocked"
  | revocationFanout => "revocation_fanout"
  | statusListPublished => "status_list_published"
  | executionStarted => "execution_started"
  | executionResult => "execution_result"
  | policyUpdated => "policy_updated"
  | guardFrozen => "guard_frozen"
  | guardUnfrozen => "guard_unfrozen"
  | riskScored => "risk_scored"

/-- A row in its place in the chain. -/
structure LedgerEntry extends Entry where
  seq : Number
  prevHash : JsString
  hash : JsString

namespace LedgerEntry

def optional (name : JsString) : Option JsString → List (JsString × JsValue)
  | none => []
  | some text => [(name, .string text)]

/-- The row as the object that is serialized. -/
def object (entry : LedgerEntry) : JsValue :=
  .object ([(encode "seq", .number entry.seq), (encode "timestamp", .string entry.timestamp),
    (encode "type", .string entry.type.text)] ++
    optional "intentId" entry.refs.intentId ++ optional "agentId" entry.refs.agentId ++
    [(encode "data", entry.data), (encode "prevHash", .string entry.prevHash),
    (encode "hash", .string entry.hash)])

end LedgerEntry
end Vaduno.Ledger
