import Mathlib.Logic.Function.Basic

/-! Asynchronous programs: a computation either has settled, with a value or an exception, or
awaits the answer to one operation. Everything between two awaits is pure. Programs are reasoned
about through monitors, which say what may be asked in each phase and where an answer leads. -/
namespace Vaduno

inductive Async {Op : Type} (Ans : Op → Type) (ε α : Type)
  | done (result : Except ε α)
  | await (op : Op) (next : Ans op → Async Ans ε α)

namespace Async
variable {Op : Type} {Ans : Op → Type} {ε α β : Type}

def bind : Async Ans ε α → (α → Async Ans ε β) → Async Ans ε β
  | done (.ok a), f => f a
  | done (.error e), _ => done (.error e)
  | await op next, f => await op fun ans => (next ans).bind f

/-- `try p catch (e) { handler(e) }`. -/
def catching : Async Ans ε α → (ε → Async Ans ε α) → Async Ans ε α
  | done (.ok a), _ => done (.ok a)
  | done (.error e), handler => handler e
  | await op next, handler => await op fun ans => (next ans).catching handler

instance : Monad (Async Ans ε) where
  pure a := done (.ok a)
  bind := bind

instance : MonadExceptOf ε (Async Ans ε) where
  throw e := done (.error e)
  tryCatch := catching

/-- Asks for one operation and returns its answer. -/
def perform (op : Op) : Async Ans ε (Ans op) := await op fun ans => done (.ok ans)

/-- A settled result, thrown if it is an exception. -/
def settled (result : Except ε α) : Async Ans ε α := done result

/-- What the program comes to in a surrounding that answers each operation in one way. -/
def answeredBy (answer : (op : Op) → Ans op) : Async Ans ε α → Except ε α
  | done result => result
  | await op next => (next (answer op)).answeredBy answer

/-- What the program comes to in a surrounding that keeps a state, and the state that is left. -/
def follow {Φ : Type} (oracle : Φ → (op : Op) → Ans op × Φ) : Async Ans ε α → Φ → Except ε α × Φ
  | done result, φ => (result, φ)
  | await op next, φ => (next (oracle φ op).1).follow oracle (oracle φ op).2

section AnsweredBy
variable (answer : (op : Op) → Ans op)

@[simp] theorem answeredBy_pure (a : α) : (pure a : Async Ans ε α).answeredBy answer = .ok a := rfl

@[simp] theorem answeredBy_settled (result : Except ε α) :
    (settled result : Async Ans ε α).answeredBy answer = result := rfl

@[simp] theorem answeredBy_perform (op : Op) :
    (perform op : Async Ans ε (Ans op)).answeredBy answer = .ok (answer op) := rfl

@[simp] theorem answeredBy_bind (p : Async Ans ε α) (f : α → Async Ans ε β) :
    (p >>= f).answeredBy answer = p.answeredBy answer >>= fun a => (f a).answeredBy answer := by
  induction p with
  | done result => cases result <;> rfl
  | await op next ih => exact ih (answer op)

end AnsweredBy

/-- Which operations a phase allows, and which phases an answer leads to. An answer that leads
nowhere is one that the environment never gives. -/
structure Monitor (Ans : Op → Type) (Φ : Type) where
  allowed : Φ → Op → Prop
  step : Φ → (op : Op) → Ans op → Φ → Prop

variable {Φ : Type} {M : Monitor Ans Φ}

/-- Every operation the program asks for is allowed in the phase it is asked in, and the program
settles in a phase that fits its result. -/
def Meets (M : Monitor Ans Φ) (post : Φ → Except ε α → Prop) : Async Ans ε α → Φ → Prop
  | done result, φ => post φ result
  | await op next, φ =>
    M.allowed φ op ∧ ∀ ans φ', M.step φ op ans φ' → (next ans).Meets M post φ'

/-- What is left to show of a program once its first part has settled. -/
def Then (M : Monitor Ans Φ) (post : Φ → Except ε β → Prop) (f : α → Async Ans ε β) (φ : Φ) :
    Except ε α → Prop
  | .ok a => (f a).Meets M post φ
  | .error e => post φ (.error e)

/-- What is left to show of a program once a fallible operation has been answered. -/
def ThenOk (M : Monitor Ans Φ) (post : Φ → Except ε β → Prop) (f : α → Async Ans ε β) (φ : Φ) :
    Except ε (Except ε α) → Prop
  | .ok (.ok a) => (f a).Meets M post φ
  | .ok (.error e) | .error e => post φ (.error e)

/-- What is left to show of a program whose exceptions are caught. -/
def Caught (M : Monitor Ans Φ) (post : Φ → Except ε α → Prop) (handler : ε → Async Ans ε α)
    (φ : Φ) : Except ε α → Prop
  | .ok a => post φ (.ok a)
  | .error e => (handler e).Meets M post φ

@[simp] theorem meets_done (post : Φ → Except ε α → Prop) (result : Except ε α) (φ : Φ) :
    (done result : Async Ans ε α).Meets M post φ ↔ post φ result := Iff.rfl

@[simp] theorem meets_pure (post : Φ → Except ε α → Prop) (a : α) (φ : Φ) :
    (pure a : Async Ans ε α).Meets M post φ ↔ post φ (.ok a) := Iff.rfl

@[simp] theorem meets_throw (post : Φ → Except ε α → Prop) (e : ε) (φ : Φ) :
    (throw e : Async Ans ε α).Meets M post φ ↔ post φ (.error e) := Iff.rfl

theorem meets_perform (post : Φ → Except ε (Ans op) → Prop) (φ : Φ) :
    (perform op : Async Ans ε (Ans op)).Meets M post φ ↔
      M.allowed φ op ∧ ∀ ans φ', M.step φ op ans φ' → post φ' (.ok ans) := Iff.rfl

theorem Meets.mono {post post' : Φ → Except ε α → Prop} {p : Async Ans ε α} {φ : Φ}
    (meets : p.Meets M post φ) (weaker : ∀ φ r, post φ r → post' φ r) : p.Meets M post' φ := by
  induction p generalizing φ with
  | done result => exact weaker φ result meets
  | await op next ih =>
    exact ⟨meets.1, fun ans φ' moved => ih ans (meets.2 ans φ' moved)⟩

/-- A program that meets a monitor settles well in every surrounding that the monitor foresees. -/
theorem Meets.follow {oracle : Φ → (op : Op) → Ans op × Φ} {post : Φ → Except ε α → Prop} {p : Async Ans ε α} {φ : Φ}
    (meets : p.Meets M post φ) (agrees : ∀ φ op, M.step φ op (oracle φ op).1 (oracle φ op).2) :
    post (p.follow oracle φ).2 (p.follow oracle φ).1 := by
  induction p generalizing φ with
  | done result => exact meets
  | await op next ih => exact ih _ (meets.2 _ _ (agrees φ op))

theorem meets_bind {post : Φ → Except ε β → Prop} (p : Async Ans ε α)
    (f : α → Async Ans ε β) (φ : Φ) :
    (p >>= f).Meets M post φ ↔ p.Meets M (Then M post f) φ := by
  induction p generalizing φ with
  | done result => cases result <;> rfl
  | await op next ih =>
    exact and_congr Iff.rfl (forall₂_congr fun ans φ' => imp_congr Iff.rfl (ih ans φ'))

theorem meets_tryCatch {post : Φ → Except ε α → Prop} (p : Async Ans ε α)
    (handler : ε → Async Ans ε α) (φ : Φ) :
    (tryCatch p handler).Meets M post φ ↔ p.Meets M (Caught M post handler) φ := by
  induction p generalizing φ with
  | done result => cases result <;> rfl
  | await op next ih =>
    exact and_congr Iff.rfl (forall₂_congr fun ans φ' => imp_congr Iff.rfl (ih ans φ'))

@[simp] theorem meets_settled (post : Φ → Except ε α → Prop) (result : Except ε α) (φ : Φ) :
    (settled result : Async Ans ε α).Meets M post φ ↔ post φ result := Iff.rfl

theorem meets_map {post : Φ → Except ε β → Prop} (p : Async Ans ε α) (f : α → β) (φ : Φ) :
    (f <$> p).Meets M post φ ↔ p.Meets M (fun φ r => post φ (r.map f)) φ := by
  induction p generalizing φ with
  | done result => cases result <;> rfl
  | await op next ih =>
    exact and_congr Iff.rfl (forall₂_congr fun ans φ' => imp_congr Iff.rfl (ih ans φ'))

theorem meets_map_bind {γ : Type} {post : Φ → Except ε γ → Prop} {p : Async Ans ε α} {g : α → β}
    {f : β → Async Ans ε γ} {φ : Φ} :
    (g <$> p >>= f).Meets M post φ ↔ (p >>= fun a => f (g a)).Meets M post φ := by
  rw [meets_bind, meets_map, meets_bind]
  have same : (fun φ r => Then M post f φ (Except.map g r)) = Then M post fun a => f (g a) := by
    funext φ r
    cases r <;> rfl
  rw [same]

/-! ### Fallible operations and exclusion -/

/-- Awaits an operation that can fail, failing with what it threw. -/
protected def orThrow (p : Async Ans ε (Except ε α)) : Async Ans ε α := p >>= settled

/-- What `p` comes to, exceptions included. -/
protected def outcomeOf (p : Async Ans ε α) : Async Ans ε (Except ε α) :=
  tryCatch (Except.ok <$> p) fun thrown => return .error thrown

theorem answeredBy_outcomeOf (answer : (op : Op) → Ans op) (p : Async Ans ε α) :
    p.outcomeOf.answeredBy answer = .ok (p.answeredBy answer) := by
  induction p with
  | done result => cases result <;> rfl
  | await op next ih => exact ih (answer op)

/-- Runs `p` between two operations, the second of them asked however `p` settles. -/
def bracket (enter leave : Op) (p : Async Ans ε α) : Async Ans ε α := do
  let _ ← perform enter
  let outcome ← p.outcomeOf
  let _ ← perform leave
  settled outcome

protected theorem meets_orThrow {post : Φ → Except ε α → Prop} (p : Async Ans ε (Except ε α)) (φ : Φ) :
    p.orThrow.Meets M post φ ↔ p.Meets M (fun φ r => post φ (r.bind id)) φ := by
  induction p generalizing φ with
  | done result => cases result <;> rfl
  | await op next ih =>
    exact and_congr Iff.rfl (forall₂_congr fun ans φ' => imp_congr Iff.rfl (ih ans φ'))

theorem meets_orThrow_bind {post : Φ → Except ε β → Prop} {p : Async Ans ε (Except ε α)}
    {f : α → Async Ans ε β} {φ : Φ} :
    (p.orThrow >>= f).Meets M post φ ↔ p.Meets M (ThenOk M post f) φ := by
  rw [meets_bind, Async.meets_orThrow]
  have same : (fun φ r => Then M post f φ (Except.bind r id)) = ThenOk M post f := by
    funext φ r
    rcases r with e | e | a <;> rfl
  rw [same]

protected theorem meets_outcomeOf {post : Φ → Except ε (Except ε α) → Prop} (p : Async Ans ε α) (φ : Φ) :
    p.outcomeOf.Meets M post φ ↔ p.Meets M (fun φ r => post φ (.ok r)) φ := by
  induction p generalizing φ with
  | done result => cases result <;> rfl
  | await op next ih =>
    exact and_congr Iff.rfl (forall₂_congr fun ans φ' => imp_congr Iff.rfl (ih ans φ'))

/-- What `p` comes to is passed on once the second operation has been answered. -/
theorem meets_bracket {post : Φ → Except ε α → Prop} (enter leave : Op) (p : Async Ans ε α)
    (φ : Φ) : (bracket enter leave p).Meets M post φ ↔
      M.allowed φ enter ∧ ∀ ans φ', M.step φ enter ans φ' →
        p.Meets M (fun φ r => M.allowed φ leave ∧
          ∀ ans φ', M.step φ leave ans φ' → post φ' r) φ' := by
  refine and_congr Iff.rfl (forall₂_congr fun ans φ' => imp_congr Iff.rfl ?_)
  change (p.outcomeOf >>= _).Meets M post φ' ↔ _
  rw [meets_bind, Async.meets_outcomeOf]
  rfl

/-- The monitor that remembers whether an answer of a kind has come; its phase says that one has. -/
def Monitor.heard (kind : (op : Op) → Ans op → Prop) : Monitor Ans Prop where
  allowed _ _ := True
  step φ op ans φ' := φ' = (φ ∨ kind op ans)

/-- The monitor of an environment that gives answers of a kind only. -/
def Monitor.told (kind : (op : Op) → Ans op → Prop) : Monitor Ans Unit where
  allowed _ _ := True
  step _ op ans _ := kind op ans

section Heard
variable {kind : (op : Op) → Ans op → Prop}

/-- Every program meets a monitor that only listens, and what it has heard stays heard. -/
theorem meets_heard (p : Async Ans ε α) {heard φ : Prop} (before : heard → φ) :
    p.Meets (.heard kind) (fun φ _ => heard → φ) φ := by
  induction p generalizing φ with
  | done result => exact before
  | await op next ih =>
    refine ⟨trivial, fun ans φ' moved => ?_⟩
    rw [show φ' = (φ ∨ kind op ans) from moved]
    exact ih ans fun already => .inl (before already)

/-- Running `p` first loses nothing. -/
theorem heard_bind {post : Prop → Except ε β → Prop} {p : Async Ans ε α} {f : α → Async Ans ε β}
    {φ : Prop} (value : ∀ φ' a, (φ → φ') → (f a).Meets (.heard kind) post φ')
    (thrown : ∀ φ' e, post φ' (.error e)) : (p >>= f).Meets (.heard kind) post φ := by
  have listened : p.Meets (.heard kind) (fun φ' _ => φ → φ') φ := meets_heard p id
  refine (meets_bind p f φ).mpr (listened.mono fun φ' r kept => ?_)
  cases r with
  | ok a => exact value φ' a kept
  | error e => exact thrown φ' e

end Heard

/-- The monitor that watches nothing. -/
def Monitor.blind (Ans : Op → Type) (Φ : Type) : Monitor Ans Φ where
  allowed _ _ := True
  step φ _ _ φ' := φ' = φ

theorem meets_blind (p : Async Ans ε α) (φ : Φ) :
    p.Meets (.blind Ans Φ) (fun _ _ => True) φ := by
  induction p with
  | done result => trivial
  | await op next ih =>
    refine ⟨trivial, fun ans φ' unmoved => ?_⟩
    cases unmoved
    exact ih ans

/-- An operation that is allowed and leads nowhere else. -/
def Monitor.Quiet (M : Monitor Ans Φ) (φ : Φ) (op : Op) : Prop :=
  M.allowed φ op ∧ ∀ ans φ', M.step φ op ans φ' → φ' = φ

theorem Monitor.Quiet.perform {post : Φ → Except ε (Ans op) → Prop} (quiet : M.Quiet φ op)
    (answered : ∀ ans, post φ (.ok ans)) : (perform op : Async Ans ε (Ans op)).Meets M post φ :=
  ⟨quiet.1, fun ans φ' moved => by
    rw [quiet.2 ans φ' moved]
    exact answered ans⟩

/-- A program that meets one monitor meets every monitor that the first one's phases follow. -/
theorem Meets.simulate {Ψ : Type} {N : Monitor Ans Ψ} {post : Φ → Except ε α → Prop}
    {p : Async Ans ε α} {φ : Φ} {ψ : Ψ} (meets : p.Meets M post φ) (R : Φ → Ψ → Prop)
    (related : R φ ψ) (allows : ∀ φ ψ op, R φ ψ → M.allowed φ op → N.allowed ψ op)
    (follows : ∀ φ ψ op ans ψ', R φ ψ → M.allowed φ op → N.step ψ op ans ψ' →
      ∃ φ', M.step φ op ans φ' ∧ R φ' ψ') :
    p.Meets N (fun ψ r => ∃ φ, R φ ψ ∧ post φ r) ψ := by
  induction p generalizing φ ψ with
  | done result => exact ⟨φ, related, meets⟩
  | await op next ih =>
    refine ⟨allows φ ψ op related meets.1, fun ans ψ' moved => ?_⟩
    obtain ⟨φ', step, related'⟩ := follows φ ψ op ans ψ' related meets.1 moved
    exact ih ans (meets.2 ans φ' step) related'

/-- Two monitors at once. -/
def Monitor.both {Ψ : Type} (M : Monitor Ans Φ) (N : Monitor Ans Ψ) : Monitor Ans (Φ × Ψ) where
  allowed s op := M.allowed s.1 op ∧ N.allowed s.2 op
  step s op ans s' := M.step s.1 op ans s'.1 ∧ N.step s.2 op ans s'.2

theorem Meets.both {Ψ : Type} {N : Monitor Ans Ψ} {post : Φ → Except ε α → Prop}
    {post' : Ψ → Except ε α → Prop} {p : Async Ans ε α} {φ : Φ} {ψ : Ψ} (first : p.Meets M post φ)
    (second : p.Meets N post' ψ) : p.Meets (M.both N) (fun s r => post s.1 r ∧ post' s.2 r) (φ, ψ) := by
  induction p generalizing φ ψ with
  | done result => exact ⟨first, second⟩
  | await op next ih =>
    exact ⟨⟨first.1, second.1⟩, fun ans s' moved => ih ans (first.2 ans s'.1 moved.1) (second.2 ans s'.2 moved.2)⟩

/-- A program that asks only for operations of one kind, whatever they answer. -/
abbrev Asks (kind : Op → Prop) (post : Except ε α → Prop) (p : Async Ans ε α) : Prop :=
  p.Meets (Φ := Unit) ⟨fun _ => kind, fun _ _ _ _ => True⟩ (fun _ => post) ()

/-- Where every operation of the kind is quiet, such a program leaves the phase as it is. -/
theorem Asks.meets {kind : Op → Prop} {post : Except ε α → Prop} {p : Async Ans ε α} {φ : Φ}
    (asks : p.Asks kind post) (quiet : ∀ op, kind op → M.Quiet φ op) :
    p.Meets M (fun φ' r => φ' = φ ∧ post r) φ := by
  refine (Meets.simulate asks (fun _ φ' => φ' = φ) rfl ?_ ?_).mono ?_
  · rintro _ _ op rfl asked
    exact (quiet op asked).1
  · rintro _ _ op ans φ' rfl asked moved
    exact ⟨(), trivial, (quiet op asked).2 ans φ' moved⟩
  · rintro φ' r ⟨_, unmoved, settled⟩
    exact ⟨unmoved, settled⟩

theorem Asks.widen {kind kind' : Op → Prop} {post : Except ε α → Prop} {p : Async Ans ε α}
    (asks : p.Asks kind post) (wider : ∀ op, kind op → kind' op) : p.Asks kind' post :=
  (asks.meets fun op asked => ⟨wider op asked, fun _ _ _ => rfl⟩).mono fun _ _ settled => settled.2

/-- What is so of the results of a program whatever it is answered is so under a monitor that allows
everything. -/
theorem Asks.always {post : Except ε α → Prop} {p : Async Ans ε α} {φ : Φ}
    (asks : p.Asks (fun _ => True) post) (allows : ∀ φ op, M.allowed φ op) :
    p.Meets M (fun _ r => post r) φ := by
  refine (Meets.simulate asks (fun _ _ => True) trivial ?_ ?_).mono ?_
  · exact fun _ φ op _ _ => allows φ op
  · exact fun _ _ _ _ _ _ _ _ => ⟨(), trivial, trivial⟩
  · rintro φ r ⟨_, -, settled⟩
    exact settled

/-- The rule for sequencing: a specification of the first part, then the rest from every phase it
can settle in. -/
theorem Meets.bind {mid : Φ → Except ε α → Prop} {post : Φ → Except ε β → Prop}
    {p : Async Ans ε α} {f : α → Async Ans ε β} {φ : Φ} (first : p.Meets M mid φ)
    (value : ∀ φ a, mid φ (.ok a) → (f a).Meets M post φ)
    (thrown : ∀ φ e, mid φ (.error e) → post φ (.error e)) : (p >>= f).Meets M post φ := by
  refine (meets_bind p f φ).mpr (first.mono fun φ r settled => ?_)
  cases r with
  | ok a => exact value φ a settled
  | error e => exact thrown φ e settled

theorem Meets.tryCatch {mid post : Φ → Except ε α → Prop} {p : Async Ans ε α}
    {handler : ε → Async Ans ε α} {φ : Φ} (body : p.Meets M mid φ)
    (value : ∀ φ a, mid φ (.ok a) → post φ (.ok a))
    (thrown : ∀ φ e, mid φ (.error e) → (handler e).Meets M post φ) :
    (tryCatch p handler).Meets M post φ := by
  refine (meets_tryCatch p handler φ).mpr (body.mono fun φ r settled => ?_)
  cases r with
  | ok a => exact value φ a settled
  | error e => exact thrown φ e settled

section Asking
variable {kind : Op → Prop}

theorem Asks.perform {op : Op} (asked : kind op) :
    (perform op : Async Ans ε (Ans op)).Asks kind fun _ => True :=
  ⟨asked, fun _ _ _ => trivial⟩

theorem Asks.bind {p : Async Ans ε α} {f : α → Async Ans ε β} (first : p.Asks kind fun _ => True)
    (rest : ∀ a, (f a).Asks kind fun _ => True) : (p >>= f).Asks kind fun _ => True :=
  Meets.bind first (fun _ a _ => rest a) fun _ _ _ => trivial

theorem Asks.orThrow {p : Async Ans ε (Except ε α)} (asks : p.Asks kind fun _ => True) :
    p.orThrow.Asks kind fun _ => True :=
  (Async.meets_orThrow p ()).mpr asks

theorem Asks.outcomeOf {p : Async Ans ε α} (asks : p.Asks kind fun _ => True) :
    p.outcomeOf.Asks kind fun _ => True :=
  (Async.meets_outcomeOf p ()).mpr asks

theorem Asks.map {p : Async Ans ε α} (f : α → β) (asks : p.Asks kind fun _ => True) :
    (f <$> p).Asks kind fun _ => True :=
  (meets_map p f ()).mpr asks

theorem Asks.tryCatch {p : Async Ans ε α} {handler : ε → Async Ans ε α}
    (body : p.Asks kind fun _ => True) (caught : ∀ e, (handler e).Asks kind fun _ => True) :
    (tryCatch p handler).Asks kind fun _ => True :=
  Meets.tryCatch body (fun _ _ _ => trivial) fun _ e _ => caught e

/-- A quiet fallible operation, and then the rest. -/
theorem Meets.quiet_bind {post : Φ → Except ε β → Prop} {p : Async Ans ε (Except ε α)}
    {f : α → Async Ans ε β} {φ : Φ} (quiet : p.Meets M (fun φ' _ => φ' = φ) φ)
    (value : ∀ a, (f a).Meets M post φ) (thrown : ∀ e, post φ (.error e)) :
    (p.orThrow >>= f).Meets M post φ := by
  refine meets_orThrow_bind.mpr (quiet.mono ?_)
  rintro φ' (e | e | a) rfl
  · exact thrown e
  · exact thrown e
  · exact value a

end Asking
end Async
end Vaduno
