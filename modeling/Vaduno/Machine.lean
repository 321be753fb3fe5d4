import Mathlib.Data.List.Forall2

/-! Machines that take one call at a time: each call is answered and leads to a next state. What one
call preserves, a run of any length preserves; and two machines that answer each permitted call alike
answer whole runs alike. -/
namespace Vaduno.Machine
variable {σ τ Call Ans Ans' : Type}

/-- The answers of a run, and the state it ends in. -/
def play (step : σ → Call → Ans × σ) : σ → List Call → List Ans × σ
  | s, [] => ([], s)
  | s, call :: calls =>
    let rest := play step (step s call).2 calls
    ((step s call).1 :: rest.1, rest.2)

/-- Every call of a run is made in a state that permits it. -/
def Permitted (step : σ → Call → Ans × σ) (permits : σ → Call → Prop) : σ → List Call → Prop
  | _, [] => True
  | s, call :: calls => permits s call ∧ Permitted step permits (step s call).2 calls

variable {step : σ → Call → Ans × σ} {permits : σ → Call → Prop}

theorem Permitted.always (all : ∀ s call, permits s call) (s : σ) (calls : List Call) :
    Permitted step permits s calls := by
  induction calls generalizing s with
  | nil => trivial
  | cons call calls ih => exact ⟨all s call, ih _⟩

theorem Permitted.mono {permits' : σ → Call → Prop} (weaker : ∀ s call, permits s call → permits' s call)
    {s : σ} {calls : List Call} (permitted : Permitted step permits s calls) :
    Permitted step permits' s calls := by
  induction calls generalizing s with
  | nil => trivial
  | cons call calls ih => exact ⟨weaker s call permitted.1, ih permitted.2⟩

/-- An invariant of one call is an invariant of every run. -/
theorem play_invariant {I : σ → Prop} (kept : ∀ s call, I s → permits s call → I (step s call).2)
    {s : σ} (holds : I s) {calls : List Call} (permitted : Permitted step permits s calls) :
    I (play step s calls).2 := by
  induction calls generalizing s with
  | nil => exact holds
  | cons call calls ih => exact ih (kept s call holds permitted.1) permitted.2

/-- Two machines that answer each permitted call alike, and stay related, answer every run alike. -/
theorem play_alike {other : τ → Call → Ans' × τ} {R : σ → τ → Prop} {alike : Ans → Ans' → Prop}
    (steps : ∀ s t call, R s t → permits s call →
      alike (step s call).1 (other t call).1 ∧ R (step s call).2 (other t call).2)
    {s : σ} {t : τ} (related : R s t) {calls : List Call} (permitted : Permitted step permits s calls) :
    List.Forall₂ alike (play step s calls).1 (play other t calls).1 ∧
      R (play step s calls).2 (play other t calls).2 := by
  induction calls generalizing s t with
  | nil => exact ⟨.nil, related⟩
  | cons call calls ih =>
    obtain ⟨first, next⟩ := steps s t call related permitted.1
    obtain ⟨others, last⟩ := ih next permitted.2
    exact ⟨.cons first others, last⟩

end Vaduno.Machine
