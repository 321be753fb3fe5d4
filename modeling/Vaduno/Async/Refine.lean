import Vaduno.Async.Program

/-! Carrying a program out in another system: each operation it asks for is a program there, which hands on something
of its own. What holds of the program under its monitor holds of what is carried out, under a monitor of the other
system whose phases follow. -/
namespace Vaduno.Async
variable {Op Op' : Type} {Ans : Op → Type} {Ans' : Op' → Type} {ε ε' α σ : Type}

/-- The program with its operations carried out by `impl`, what it comes to, and what was handed on. -/
def carry (impl : σ → (op : Op) → Async Ans' ε' (Ans op × σ)) : Async Ans ε α → σ → Async Ans' ε' (Except ε α × σ)
  | done result, s => pure (result, s)
  | await op next, s => impl s op >>= fun answered => (next answered.1).carry impl answered.2

variable {Φ Ψ : Type} {M : Monitor Ans Φ} {N : Monitor Ans' Ψ}

/-- What carrying out one operation has to come to: an answer that the program's monitor foresees. -/
def Serves (M : Monitor Ans Φ) (R : Φ → σ → Ψ → Prop) (φ : Φ) (op : Op) (ψ : Ψ) : Except ε' (Ans op × σ) → Prop
  | .ok (ans, s) => ∃ φ', M.step φ op ans φ' ∧ R φ' s ψ
  | .error _ => False

/-- What the carried program comes to. -/
def Carried (R : Φ → σ → Ψ → Prop) (post : Φ → Except ε α → Prop) (ψ : Ψ) : Except ε' (Except ε α × σ) → Prop
  | .ok (result, s) => ∃ φ, R φ s ψ ∧ post φ result
  | .error _ => False

theorem Meets.carry {impl : σ → (op : Op) → Async Ans' ε' (Ans op × σ)} {post : Φ → Except ε α → Prop}
    {p : Async Ans ε α} {φ : Φ} {s : σ} {ψ : Ψ} (meets : p.Meets M post φ) (R : Φ → σ → Ψ → Prop)
    (serves : ∀ φ s ψ op, R φ s ψ → M.allowed φ op → (impl s op).Meets N (Serves M R φ op) ψ)
    (related : R φ s ψ) : (p.carry impl s).Meets N (Carried R post) ψ := by
  induction p generalizing φ s ψ with
  | done result => exact ⟨φ, related, meets⟩
  | await op next ih =>
    refine Meets.bind (serves φ s ψ op related meets.1) ?_ ?_
    · rintro ψ' ⟨ans, s'⟩ ⟨φ', moved, related'⟩
      exact ih ans (meets.2 ans φ' moved) related'
    · rintro ψ' e failed
      cases failed

end Vaduno.Async
