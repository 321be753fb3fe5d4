import Vaduno.Policy.Engine

/-! An evaluation against a history and a clock that answer each question in one way. The rules that
need no history come first, then the windows; any reason denies, and only without one is it asked
whether a human has to approve. -/
namespace Vaduno.Policy
open Ecma Enforce Program

/-- Each element of a list has its result, where none of them throws. -/
theorem mapM_ok {ι κ : Type} {f : ι → Throwing κ} {items : List ι} {i : ι} {results : List κ}
    (ran : items.mapM f = .ok results) (member : i ∈ items) : ∃ k, k ∈ results ∧ f i = .ok k := by
  induction items generalizing results with
  | nil => cases member
  | cons j rest ih =>
    rw [List.mapM_cons] at ran
    obtain ⟨first, head, ran⟩ := bind_ok ran
    obtain ⟨more, others, ran⟩ := bind_ok ran
    cases ran
    rcases List.mem_cons.mp member with rfl | later
    · exact ⟨first, List.mem_cons_self, head⟩
    · obtain ⟨k, given, ran⟩ := ih others later
      exact ⟨k, List.mem_cons_of_mem first given, ran⟩

/-- Each result is that of some element. -/
theorem of_mem_mapM {ι κ : Type} {f : ι → Throwing κ} {items : List ι} {results : List κ}
    (ran : items.mapM f = .ok results) {k : κ} (given : k ∈ results) : ∃ i ∈ items, f i = .ok k := by
  induction items generalizing results with
  | nil =>
    cases ran
    cases given
  | cons j rest ih =>
    rw [List.mapM_cons] at ran
    obtain ⟨first, head, ran⟩ := bind_ok ran
    obtain ⟨more, others, ran⟩ := bind_ok ran
    cases ran
    rcases List.mem_cons.mp given with rfl | later
    · exact ⟨j, List.mem_cons_self, head⟩
    · obtain ⟨i, member, ran⟩ := ih others later
      exact ⟨i, List.mem_cons_of_mem j member, ran⟩

section Evaluation
variable (platform : Platform) (answer : (op : Op) → op.Answer) (intent : PaymentIntent)
  (policy : SpendPolicy) (countsMerchants : Bool)

/-- What an intent is decided to be, unless the evaluation throws. -/
def evaluation : Throwing PolicyResult :=
  (evaluatePolicy platform intent policy countsMerchants).answeredBy answer

/-- One window against the history. -/
def advisedBy (nowMs : Number) (w : SpendWindow) : Throwing (List PolicyReason) :=
  (windowAdvice platform intent policy countsMerchants nowMs w).answeredBy answer

/-- The windows, or what is wrong with the first malformed one. -/
def windowsVerdict (nowMs : Number) : Throwing (List PolicyReason) := do
  match ← misconfigured (policyWindows policy) with
  | some reason => return [reason]
  | none => return (← (policyWindows policy).mapM (advisedBy platform answer intent policy countsMerchants nowMs)).flatten

variable {platform answer intent policy countsMerchants}

theorem windowsAdvice_answeredBy (nowMs : Number) (windows : List SpendWindow) :
    (windowsAdvice platform intent policy countsMerchants nowMs windows).answeredBy answer =
      (windows.mapM (advisedBy platform answer intent policy countsMerchants nowMs)).map List.flatten := by
  induction windows with
  | nil => rfl
  | cons w rest ih =>
    rw [windowsAdvice, Async.answeredBy_bind, List.mapM_cons]
    change (advisedBy platform answer intent policy countsMerchants nowMs w >>= _) = _
    cases advisedBy platform answer intent policy countsMerchants nowMs w with
    | error thrown => rfl
    | ok reasons =>
      rw [ok_bind, ok_bind, Async.answeredBy_bind, ih]
      cases rest.mapM (advisedBy platform answer intent policy countsMerchants nowMs) with
      | error thrown => rfl
      | ok more => rfl

/-- The evaluation in three parts. -/
theorem evaluation_eq : evaluation platform answer intent policy countsMerchants =
    (staticReasons platform intent policy (answer .now) >>= fun reasons =>
      windowsVerdict platform answer intent policy countsMerchants (answer .now) >>= fun advice =>
        if reasons ++ advice ≠ [] then .ok ⟨.deny, reasons ++ advice, policy.id, policy.version⟩
        else approvalDecision platform intent policy) := by
  rw [evaluation, evaluatePolicy, Async.answeredBy_bind, Async.answeredBy_perform, ok_bind,
    Async.answeredBy_bind, Async.answeredBy_settled]
  refine congrArg _ (funext fun reasons => ?_)
  dsimp only
  rw [Async.answeredBy_bind, Async.answeredBy_settled, windowsVerdict]
  cases misconfigured (policyWindows policy) with
  | error thrown => rfl
  | ok problem =>
    rw [ok_bind, ok_bind]
    cases problem with
    | some reason =>
      change Async.answeredBy answer (if reasons ++ [reason] ≠ [] then _ else _) =
        if reasons ++ [reason] ≠ [] then _ else _
      split_ifs
      · rfl
      · rfl
    | none =>
      dsimp only
      rw [Async.answeredBy_bind, windowsAdvice_answeredBy]
      cases (policyWindows policy).mapM (advisedBy platform answer intent policy countsMerchants (answer .now)) with
      | error thrown => rfl
      | ok advice =>
        change Async.answeredBy answer (if reasons ++ advice.flatten ≠ [] then _ else _) =
          if reasons ++ advice.flatten ≠ [] then _ else _
        split_ifs
        · rfl
        · rfl

/-- The windows of a policy are enforced exactly if each of them can be. -/
theorem misconfigured_none_iff {windows : List SpendWindow} :
    misconfigured windows = .ok none ↔ ∀ w ∈ windows, WellFormed w := by
  constructor
  · intro passed w member
    obtain ⟨problems, checked, unfound⟩ := bind_ok passed
    obtain ⟨problem, given, ran⟩ := mapM_ok checked member
    obtain ⟨found, problem', ran⟩ := bind_ok ran
    cases ran
    have absent := List.findSome?_eq_none_iff.mp (Except.ok.inj unfound) _ given
    rw [Option.map_eq_none_iff] at absent
    subst absent
    exact (windowConfigError_none_iff w).mp problem'
  · intro valid
    have checked : (windows.mapM fun w => do return (w, ← windowConfigError w) :
        Throwing (List (SpendWindow × Option JsString))) = .ok (windows.map (·, none)) := by
      induction windows with
      | nil => rfl
      | cons w rest ih =>
        rw [List.mapM_cons, (windowConfigError_none_iff w).mpr (valid w (by simp)),
          ih fun v member => valid v (List.mem_cons_of_mem w member)]
        rfl
    rw [misconfigured, checked, ok_bind, List.findSome?_map]
    exact congrArg Except.ok (List.findSome?_eq_none_iff.mpr fun w _ => rfl)

theorem windowsVerdict_of_wellFormed (valid : ∀ w ∈ policyWindows policy, WellFormed w) (nowMs : Number) :
    windowsVerdict platform answer intent policy countsMerchants nowMs =
      ((policyWindows policy).mapM (advisedBy platform answer intent policy countsMerchants nowMs)).map
        List.flatten := by
  rw [windowsVerdict, misconfigured_none_iff.mpr valid, ok_bind]
  rfl

theorem approvalDecision_not_deny {result : PolicyResult}
    (decided : approvalDecision platform intent policy = .ok result) : result.decision ≠ .deny := by
  unfold approvalDecision at decided
  by_cases always : policy.approval.always = true
  · rw [if_pos always] at decided
    cases decided
    nofun
  rw [if_neg always] at decided
  by_cases absent : isUndefined policy.approval.aboveMinor = true
  · rw [if_pos absent] at decided
    cases decided
    nofun
  rw [if_neg absent] at decided
  obtain ⟨reached, -, decided⟩ := bind_ok decided
  cases reached with
  | true =>
    obtain ⟨text, -, decided⟩ := bind_ok decided
    cases decided
    nofun
  | false =>
    cases decided
    nofun

theorem evaluation_ok {result : PolicyResult}
    (decided : evaluation platform answer intent policy countsMerchants = .ok result) :
    ∃ reasons advice, staticReasons platform intent policy (answer .now) = .ok reasons ∧
      windowsVerdict platform answer intent policy countsMerchants (answer .now) = .ok advice ∧
      (if reasons ++ advice ≠ [] then .ok ⟨.deny, reasons ++ advice, policy.id, policy.version⟩
        else approvalDecision platform intent policy) = .ok result := by
  rw [evaluation_eq] at decided
  obtain ⟨reasons, ruled, decided⟩ := bind_ok decided
  obtain ⟨advice, advised, decided⟩ := bind_ok decided
  exact ⟨reasons, advice, ruled, advised, decided⟩

/-- The parts of the rules that need no history. -/
theorem staticReasons_ok {nowMs : Number} {reasons : List PolicyReason}
    (ruled : staticReasons platform intent policy nowMs = .ok reasons) :
    ∃ networks amounts, networkReasons platform intent policy = .ok networks ∧
      perTransactionReasons platform intent policy = .ok amounts ∧
      reasons = amountReasons intent ++ expiryReasons platform policy nowMs ++
        currencyReasons platform intent policy ++ railReasons platform intent policy ++ networks ++
        merchantReasons platform intent policy ++ categoryReasons platform intent policy ++ amounts := by
  obtain ⟨networks, named, ruled⟩ := bind_ok ruled
  obtain ⟨amounts, capped, ruled⟩ := bind_ok ruled
  exact ⟨networks, amounts, named, capped, (Except.ok.inj ruled).symm⟩

/-- Any reason among the rules that need no history denies. -/
theorem denied_of_reason {result : PolicyResult} (reason : PolicyReason)
    (decided : evaluation platform answer intent policy countsMerchants = .ok result)
    (given : ∀ reasons, staticReasons platform intent policy (answer .now) = .ok reasons → reason ∈ reasons) :
    result.decision = .deny ∧ reason ∈ result.reasons := by
  obtain ⟨reasons, advice, ruled, -, decided⟩ := evaluation_ok decided
  have member := List.mem_append_left advice (given reasons ruled)
  rw [if_pos (List.ne_nil_of_mem member)] at decided
  cases decided
  exact ⟨rfl, member⟩

/-- So does any merchant rule that is violated. -/
theorem denied_of_merchant {result : PolicyResult}
    (decided : evaluation platform answer intent policy countsMerchants = .ok result)
    (violated : merchantReasons platform intent policy ≠ []) : result.decision = .deny := by
  obtain ⟨reason, member⟩ := List.exists_mem_of_ne_nil _ violated
  refine (denied_of_reason reason decided fun reasons ruled => ?_).1
  obtain ⟨networks, amounts, -, -, rfl⟩ := staticReasons_ok ruled
  simp [member]

end Evaluation
end Vaduno.Policy
