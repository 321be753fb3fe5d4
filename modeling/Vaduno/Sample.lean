import Vaduno.Mandate.Consume

/-! One small deployment, for the theorems to be applied to: a platform that behaves as the real one
does on the texts that occur here, a policy, a mandate, an intent, and an outside in which nothing
answers that is not given an answer. -/
namespace Vaduno.Sample
open Ecma Enforce Mandate

/-- The text that the intent below is digested as, and its SHA-256. -/
def digested : JsString :=
  "vaduno-consume-digest/v1\n\x7b\"amountMinor\":500,\"currency\":\"USD\",\"mandateId\":\"m-1\",\"merchantId\":\"openai\",\"merchantUrl\":null,\"rail\":\"card\"\x7d"

def digest : JsString := "8e0261740d6a362332bf80ab49c16517ec61f1c5b3dca68f281b23a1a651c875"

/-- The texts here are upper case already where case matters, and carry no space to trim. Every
other text is hashed to itself, marked. -/
def platform : Platform where
  toLowerCase := id
  toUpperCase := id
  trim := id
  dateParse text :=
    if text = encode "2026-01-01T00:00:00.000Z" then 1767225600000
    else if text = encode "2027-01-01T00:00:00.000Z" then 1798761600000
    else .nan
  toISOString ms :=
    if ms = 1780000000000 then .ok "2026-05-28T20:26:40.000Z"
    else .error (.error "Invalid time value")
  hostname _ := none
  sha256Hex text := if text = digested then digest else "~" ++ text
  stringToNumber _ := .nan

theorem platform_collisionFree : CollisionFree platform := by
  intro s t _ _ same
  simp only [platform] at same
  have unmarked : ∀ text, digest ≠ encode "~" ++ text := fun text equal => by
    have first : digest.head? = some 56 := by decide +kernel
    rw [equal] at first
    cases first
  split_ifs at same with left right right
  · rw [left, right]
  · exact absurd same (unmarked t)
  · exact absurd same.symm (unmarked s)
  · exact List.append_cancel_left same

def mandate (maxUses : Number) : AnyMandate where
  id := "m-1"
  issuer := "alice"
  agentId := "agent-1"
  constraints := {
    maxAmountMinor := .number 1000
    currency := "USD"
    merchants := none
    categories := none
    validFrom := "2026-01-01T00:00:00.000Z"
    expiresAt := "2027-01-01T00:00:00.000Z"
    maxUses := .number maxUses
    contextHash := none }
  createdAt := "2026-01-01T00:00:00.000Z"
  signatureData := .null

def manager : MandateManager where
  signatureProblem _ := none
  ledger := true

def intent (id : JsString) : PaymentIntent where
  id := id
  agentId := "agent-1"
  merchant := ⟨"openai", none⟩
  amount := ⟨500, "USD"⟩
  category := none
  rail := "card"
  network := none
  mandateId := some "m-1"
  context := none

def policy : SpendPolicy where
  id := "p-1"
  version := 1
  currency := "USD"
  limits := ⟨.undefined, .undefined, .undefined, .undefined⟩
  merchants := ⟨none, none⟩
  networks := ⟨none, none⟩
  categories := ⟨none, none⟩
  rails := none
  approval := ⟨.undefined, false⟩
  velocity := ⟨.undefined, .undefined⟩
  expiresAt := none

/-- An outside with a clock, an unfrozen guard and a ledger that takes every row, where everything
else is out of order. -/
def outside : (op : Op) → op.Answer
  | .now => (1780000000000 : Number)
  | .nowIso => .ok "2026-05-28T20:26:40.000Z"
  | .policy => policy
  | .frozen => none
  | .hydrated | .hydrateFailed => false
  | .executed => []
  | .append .. => .ok ()
  | .ledgerAll | .ledgerTrail _ => .ok []
  | .totalsSince .. => .ok ⟨0, 0⟩
  | .merchantCountSince .. => .ok (0 : Number)
  | .mandateState _ => none
  | .reserve _ | .getClaim .. | .claimUse .. | .requestApproval _ | .checkRevocation _
  | .runExecutor _ | .innerSign _ | .commitSpend _ | .releaseSpend _ | .settleClaim .. =>
    .error (.error "unavailable")
  | .setFrozen _ | .degrade _ | .recordExecuted _ | .enter _ | .leave _ | .mirrorUses .. => ()

end Vaduno.Sample
