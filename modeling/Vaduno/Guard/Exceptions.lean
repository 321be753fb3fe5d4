import Vaduno.Ecma.Throwing
import Vaduno.Guard.Pipeline
import Vaduno.Ledger.Accept

/-! What the pure parts of the pipeline throw. Where the amounts of the policy and of the mandate convert,
everything thrown has a text. -/
namespace Vaduno.Guard
open Ecma Enforce Mandate Policy Ledger

/-! ### Canonical JSON -/

theorem names_joinMembers {members : List (JsString × Throwing (Option JsString))}
    (each : ∀ m ∈ members, Names m.2) : Names (joinMembers members) := by
  induction members with
  | nil => exact .ok _
  | cons m rest ih =>
    obtain ⟨first, others⟩ := List.forall_mem_cons.mp each
    rw [joinMembers]
    refine first.bind fun text => ?_
    cases text with
    | none => exact ih others
    | some text => exact (ih others).bind fun _ => .ok _

theorem names_withinDepth {text : Throwing JsString} (names : Names text) :
    Names (withinDepth depth path text) := by
  unfold withinDepth
  split_ifs
  · exact .error _
  · exact names

mutual
theorem names_serialize : (v : JsValue) → (depth : ℕ) → (path : JsString) → Names (serialize depth path v)
  | .null, _, _ | .string _, _, _ | .boolean _, _, _ => by
    rw [serialize]
    exact names_withinDepth (.ok _)
  | .number n, _, _ => by
    rw [serialize]
    refine names_withinDepth ?_
    split_ifs
    · exact .ok _
    · exact .error _
  | .bigint _, _, _ | .undefined, _, _ | .symbol, _, _ | .foreign none _ _, _, _ | .foreign (some _) _ _, _, _ => by
    rw [serialize]
    exact names_withinDepth (.error _)
  | .array items, depth, path => by
    rw [serialize]
    exact names_withinDepth ((names_serializeItems items (depth + 1) path 0).bind fun _ => .ok _)
  | .object props, depth, path => by
    rw [serialize]
    refine names_withinDepth (Names.bind (names_joinMembers fun m member => ?_) fun _ => .ok _)
    rw [List.mem_insertionSort] at member
    exact names_serializeProps props (depth + 1) path m member

theorem names_serializeItems : (items : List JsValue) → (depth : ℕ) → (path : JsString) → (index : ℕ) →
    Names (serializeItems depth path index items)
  | [], _, _, _ => .ok _
  | item :: rest, depth, path, index => by
    rw [serializeItems]
    exact (names_serialize item depth _).bind fun _ =>
      (names_serializeItems rest depth path (index + 1)).bind fun _ => .ok _

theorem names_serializeProps : (props : List (JsString × JsValue)) → (depth : ℕ) → (path : JsString) →
    ∀ m ∈ serializeProps depth path props, Names m.2
  | [], _, _ => by
    rw [serializeProps]
    exact List.forall_mem_nil _
  | (key, v) :: rest, depth, path => by
    have others := names_serializeProps rest depth path
    by_cases absent : v = .undefined
    · subst absent
      rw [serializeProps, List.forall_mem_cons]
      exact ⟨.ok _, others⟩
    · rw [serializeProps_cons absent, List.forall_mem_cons]
      exact ⟨(names_serialize v depth _).map _, others⟩
end

theorem names_intentDigest (platform : Platform) (intent : PaymentIntent) :
    Names (intentDigest platform intent) :=
  (names_serialize _ 0 _).bind fun _ => .ok _

/-! ### The policy and the mandate -/

/-- The amounts of a policy convert. -/
structure TamePolicy (policy : SpendPolicy) : Prop where
  perTransaction : policy.limits.perTransactionMinor.Tame
  perDay : policy.limits.perDayMinor.Tame
  perWeek : policy.limits.perWeekMinor.Tame
  perMonth : policy.limits.perMonthMinor.Tame
  above : policy.approval.aboveMinor.Tame

structure TameMandate (mandate : AnyMandate) : Prop where
  amount : mandate.constraints.maxAmountMinor.Tame
  uses : mandate.constraints.maxUses.Tame

section
variable {platform : Platform} {intent : PaymentIntent} {policy : SpendPolicy}

theorem names_reaches {limit : JsValue} (tame : limit.Tame) (n : Number) : Names (platform.reaches n limit) :=
  (tame.toNumber _).bind fun _ => .ok _

theorem names_exceeds {limit : JsValue} (tame : limit.Tame) (n : Number) : Names (platform.exceeds n limit) :=
  (tame.toNumber _).bind fun _ => .ok _

theorem names_entryJson (entry : JsValue) : Names (entryJson entry) := by
  cases entry with
  | undefined => exact .ok _
  | _ => exact (JsValue.names_stringify _).bind fun _ => .ok _

theorem names_networkReasons : Names (networkReasons platform intent policy) := by
  unfold networkReasons
  split
  · exact .ok _
  · dsimp only
    split
    · exact (Names.mapM fun _ _ => names_entryJson _).bind fun _ => .ok _
    · split
      · split
        · exact (names_entryJson _).bind fun _ => .ok _
        · exact (names_entryJson _).bind fun _ => .ok _
      · exact .ok _

theorem names_perTransactionReasons (tame : TamePolicy policy) :
    Names (perTransactionReasons platform intent policy) := by
  unfold perTransactionReasons
  dsimp only
  split_ifs
  · exact .ok _
  · exact (names_exceeds tame.perTransaction _).bind fun _ => tame.perTransaction.bind fun _ => .ok _

theorem names_staticReasons (tame : TamePolicy policy) (nowMs : Number) :
    Names (staticReasons platform intent policy nowMs) := by
  unfold staticReasons
  exact names_networkReasons.bind fun _ => (names_perTransactionReasons tame).bind fun _ => .ok _

theorem names_approvalDecision (tame : TamePolicy policy) : Names (approvalDecision platform intent policy) := by
  unfold approvalDecision
  dsimp only
  split_ifs
  · exact .ok _
  · exact .ok _
  · refine (names_reaches tame.above _).bind fun reached => ?_
    split_ifs
    · exact tame.above.bind fun _ => .ok _
    · exact .ok _

theorem names_windowConfigError {w : SpendWindow} (start : w.windowMs.Tame) (cap : w.capMinor.Tame)
    (count : w.maxCount.Tame) : Names (windowConfigError w) := by
  unfold windowConfigError
  split
  · exact start.bind fun _ => .ok _
  · split
    · exact cap.bind fun _ => .ok _
    · split
      · exact count.bind fun _ => .ok _
      · split
        · exact .ok _
        · split
          · exact (JsValue.names_stringify _).bind fun _ => .ok _
          · exact .ok _

/-- Only the amounts of a window can be anything but numbers. -/
theorem tame_policyWindows (tame : TamePolicy policy) :
    ∀ w ∈ policyWindows policy, w.windowMs.Tame ∧ w.capMinor.Tame ∧ w.maxCount.Tame := by
  have amounts : ∀ {cap : JsValue} {windowMs code}, cap.Tame → ∀ w ∈ amountWindow cap windowMs code,
      w.windowMs.Tame ∧ w.capMinor.Tame ∧ w.maxCount.Tame := by
    intro cap windowMs code convert w member
    unfold amountWindow at member
    split_ifs at member
    · cases member
    · obtain rfl := List.mem_singleton.mp member
      exact ⟨JsValue.tame_number _, convert, JsValue.tame_undefined⟩
  have counts : ∀ {code dimension} {limits : List JsValue}, ∀ w ∈ limits.map (countWindow code dimension),
      w.windowMs.Tame ∧ w.capMinor.Tame ∧ w.maxCount.Tame := by
    intro code dimension limits w member
    obtain ⟨limit, -, rfl⟩ := List.mem_map.mp member
    exact ⟨JsValue.tame_number _, JsValue.tame_undefined, JsValue.tame_number _⟩
  intro w member
  simp only [policyWindows, List.mem_append] at member
  obtain (((day | week) | month) | guardWide) | merchant := member
  · exact amounts tame.perDay w day
  · exact amounts tame.perWeek w week
  · exact amounts tame.perMonth w month
  · exact counts w guardWide
  · exact counts w merchant

theorem names_misconfigured (tame : TamePolicy policy) : Names (misconfigured (policyWindows policy)) := by
  refine Names.bind (Names.mapM fun w member => ?_) fun _ => .ok _
  obtain ⟨start, cap, count⟩ := tame_policyWindows tame w member
  exact (names_windowConfigError start cap count).bind fun _ => .ok _

theorem names_checkConstraints {mandate : AnyMandate} (tame : TameMandate mandate) (uses nowMs : Number) :
    Names (checkConstraints platform mandate intent uses nowMs) := by
  unfold checkConstraints
  dsimp only
  split
  · exact .ok _
  · split
    · exact .ok _
    · split
      · exact .ok _
      · refine (names_reaches tame.uses _).bind fun exhausted => ?_
        split
        · exact tame.uses.bind fun _ => .ok _
        · split
          · exact .ok _
          · split
            · exact .ok _
            · refine (names_exceeds tame.amount _).bind fun above => ?_
              split
              · exact tame.amount.bind fun _ => .ok _
              · split
                · exact .ok _
                · split
                  · exact .ok _
                  · split <;> exact .ok _

end
end Vaduno.Guard
