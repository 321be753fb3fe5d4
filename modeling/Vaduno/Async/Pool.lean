import Vaduno.Async.Program

/-! Any number of asynchronous programs over one shared world. A schedule lets one thread at a
time receive the answer it awaits; nothing else is assumed about the order. -/
namespace Vaduno
namespace Async
variable {Op : Type} {Ans : Op → Type} {ε α World ι Φ : Type}

/-- Two threads can be told apart by number. -/
instance twoThreads : @NeZero Nat Zero.ofOfNat0 2 := inferInstance

/-- An operation together with the answer it got. -/
abbrev Event (Ans : Op → Type) := (op : Op) × Ans op

/-- How the world answers a thread, and what answering does to it. -/
abbrev Answers (Ans : Op → Type) (World ι : Type) :=
  World → ι → (op : Op) → Ans op → World → Prop

structure Pool (Ans : Op → Type) (ε α World ι : Type) where
  world : World
  threads : ι → Async Ans ε α

variable [DecidableEq ι]

/-- The runs of a pool, with the events in the order they happened. -/
inductive Run (answers : Answers Ans World ι) (init : Pool Ans ε α World ι) :
    List (ι × Event Ans) → Pool Ans ε α World ι → Prop
  | start : Run answers init [] init
  | step {events pool i op next ans world} (earlier : Run answers init events pool)
      (awaits : pool.threads i = await op next) (answered : answers pool.world i op ans world) :
      Run answers init (events ++ [(i, ⟨op, ans⟩)])
        ⟨world, Function.update pool.threads i (next ans)⟩

variable {answers : Answers Ans World ι} {init pool : Pool Ans ε α World ι}
  {events : List (ι × Event Ans)}

theorem Run.trans {mid : Pool Ans ε α World ι} {later : List (ι × Event Ans)}
    (first : Run answers init events mid) (second : Run answers mid later pool) :
    Run answers init (events ++ later) pool := by
  induction second with
  | start => simpa using first
  | step earlier awaits answered ih =>
    rw [← List.append_assoc]
    exact ih.step awaits answered

/-- Lets the threads of a schedule take their steps in order, the oracle answering. A thread that
has settled is passed over. -/
def Pool.play (oracle : World → ι → (op : Op) → Ans op × World) :
    List ι → Pool Ans ε α World ι → List (ι × Event Ans) × Pool Ans ε α World ι
  | [], pool => ([], pool)
  | i :: rest, pool =>
    match pool.threads i with
    | done _ => Pool.play oracle rest pool
    | await op next =>
      let answer := oracle pool.world i op
      let played := Pool.play oracle rest
        ⟨answer.2, Function.update pool.threads i (next answer.1)⟩
      ((i, ⟨op, answer.1⟩) :: played.1, played.2)

theorem Pool.run_play {oracle : World → ι → (op : Op) → Ans op × World}
    (agrees : ∀ world i op, answers world i op (oracle world i op).1 (oracle world i op).2)
    (schedule : List ι) (pool : Pool Ans ε α World ι) :
    Run answers pool (Pool.play oracle schedule pool).1 (Pool.play oracle schedule pool).2 := by
  induction schedule generalizing pool with
  | nil => exact .start
  | cons i rest ih =>
    rw [Pool.play]
    split
    · exact ih pool
    · rename_i op next awaits
      exact (Run.step .start awaits (agrees pool.world i op)).trans (ih _)

/-- Like `play`, with an oracle that answers only what can be answered; a thread that awaits anything
else is passed over. -/
def Pool.attempt (oracle : World → ι → (op : Op) → Option (Ans op × World)) :
    List ι → Pool Ans ε α World ι → Pool Ans ε α World ι
  | [], pool => pool
  | i :: rest, pool =>
    match pool.threads i with
    | done _ => Pool.attempt oracle rest pool
    | await op next =>
      match oracle pool.world i op with
      | none => Pool.attempt oracle rest pool
      | some answer => Pool.attempt oracle rest
          ⟨answer.2, Function.update pool.threads i (next answer.1)⟩

/-- Only the threads of the schedule take steps. -/
theorem Pool.run_attempt_within {oracle : World → ι → (op : Op) → Option (Ans op × World)}
    (agrees : ∀ {world i op ans world'}, oracle world i op = some (ans, world') →
      answers world i op ans world')
    (schedule : List ι) (pool : Pool Ans ε α World ι) :
    ∃ events, Run answers pool events (Pool.attempt oracle schedule pool) ∧ ∀ e ∈ events, e.1 ∈ schedule := by
  induction schedule generalizing pool with
  | nil => exact ⟨[], .start, by simp⟩
  | cons i rest ih =>
    have later : ∀ pool, ∃ events, Run answers pool events (Pool.attempt oracle rest pool) ∧
        ∀ e ∈ events, e.1 ∈ i :: rest := fun pool => by
      obtain ⟨events, run, within⟩ := ih pool
      exact ⟨events, run, fun e member => List.mem_cons_of_mem _ (within e member)⟩
    rw [Pool.attempt]
    split
    · exact later pool
    · rename_i op next awaits
      split
      · exact later pool
      · rename_i answer answered
        obtain ⟨events, run, within⟩ := later ⟨answer.2, Function.update pool.threads i (next answer.1)⟩
        refine ⟨_, (Run.step .start awaits (agrees answered)).trans run, ?_⟩
        simpa using within

theorem Pool.run_attempt {oracle : World → ι → (op : Op) → Option (Ans op × World)}
    (agrees : ∀ {world i op ans world'}, oracle world i op = some (ans, world') →
      answers world i op ans world')
    (schedule : List ι) (pool : Pool Ans ε α World ι) :
    ∃ events, Run answers pool events (Pool.attempt oracle schedule pool) := by
  obtain ⟨events, run, -⟩ := Pool.run_attempt_within @agrees schedule pool
  exact ⟨events, run⟩

theorem Pool.threads_attempt {oracle : World → ι → (op : Op) → Option (Ans op × World)}
    {schedule : List ι} {pool : Pool Ans ε α World ι} (idle : i ∉ schedule) :
    (Pool.attempt oracle schedule pool).threads i = pool.threads i := by
  induction schedule generalizing pool with
  | nil => rfl
  | cons j rest ih =>
    rw [List.mem_cons, not_or] at idle
    rw [Pool.attempt]
    split
    · exact ih idle.2
    · split
      · exact ih idle.2
      · rw [ih idle.2]
        exact Function.update_of_ne idle.1 _ _

theorem Pool.threads_play {oracle : World → ι → (op : Op) → Ans op × World} {schedule : List ι}
    {pool : Pool Ans ε α World ι} (idle : i ∉ schedule) :
    (Pool.play oracle schedule pool).2.threads i = pool.threads i := by
  induction schedule generalizing pool with
  | nil => rfl
  | cons j rest ih =>
    rw [List.mem_cons, not_or] at idle
    rw [Pool.play]
    split
    · exact ih idle.2
    · rw [ih idle.2]
      exact Function.update_of_ne idle.1 _ _

/-- Every answer of a played schedule is the oracle's. -/
theorem Pool.answer_of_play {oracle : World → ι → (op : Op) → Ans op × World} {schedule : List ι}
    {pool : Pool Ans ε α World ι} (member : e ∈ (Pool.play oracle schedule pool).1) :
    ∃ world, e.2.2 = (oracle world e.1 e.2.1).1 := by
  induction schedule generalizing pool with
  | nil => cases member
  | cons i rest ih =>
    rw [Pool.play] at member
    split at member
    · exact ih member
    · rcases List.mem_cons.mp member with rfl | later
      · exact ⟨_, rfl⟩
      · exact ih later

/-- The invariant rule. Each thread meets its own monitor; the invariant ties the events, the
world and the phases together, and one answered operation keeps it. -/
theorem Run.invariant (run : Run answers init events pool) (M : ι → Monitor Ans Φ)
    (post : ι → Φ → Except ε α → Prop) (I : List (ι × Event Ans) → World → (ι → Φ) → Prop)
    {phases : ι → Φ} (meets : ∀ i, (init.threads i).Meets (M i) (post i) (phases i))
    (holds : I [] init.world phases)
    (keeps : ∀ events world phases i op ans world', I events world phases →
      (M i).allowed (phases i) op → answers world i op ans world' →
      ∃ φ, (M i).step (phases i) op ans φ ∧
        I (events ++ [(i, ⟨op, ans⟩)]) world' (Function.update phases i φ)) :
    ∃ phases, I events pool.world phases ∧
      ∀ i, (pool.threads i).Meets (M i) (post i) (phases i) := by
  induction run with
  | start => exact ⟨phases, holds, meets⟩
  | @step events pool i op next ans world earlier awaits answered ih =>
    obtain ⟨phases, inv, meets⟩ := ih
    have asked := meets i
    rw [awaits] at asked
    obtain ⟨φ, moved, inv'⟩ := keeps events pool.world phases i op ans world inv asked.1 answered
    refine ⟨Function.update phases i φ, inv', fun j => ?_⟩
    rcases eq_or_ne j i with rfl | other
    · simpa using asked.2 ans φ moved
    · simpa [other] using meets j

/-- Watching one thread beside the events: its own steps keep the invariant in the phases they lead to,
everybody else's steps keep it as it is. -/
theorem Run.observe (run : Run answers init events pool) (i : ι) {M : Monitor Ans Φ}
    {post : Φ → Except ε α → Prop} {φ : Φ} (I : List (ι × Event Ans) → World → Φ → Prop)
    (meets : (init.threads i).Meets M post φ) (holds : I [] init.world φ)
    (own : ∀ {events world φ op ans world'}, I events world φ → M.allowed φ op → answers world i op ans world' →
      ∃ φ', M.step φ op ans φ' ∧ I (events ++ [(i, ⟨op, ans⟩)]) world' φ')
    (others : ∀ {events world φ j op ans world'}, j ≠ i → I events world φ → answers world j op ans world' →
      I (events ++ [(j, ⟨op, ans⟩)]) world' φ) :
    ∃ φ, I events pool.world φ ∧ (pool.threads i).Meets M post φ := by
  induction run with
  | start => exact ⟨φ, holds, meets⟩
  | @step events pool j op next ans world earlier awaits answered ih =>
    obtain ⟨φ, inv, meets⟩ := ih
    rcases eq_or_ne i j with rfl | other
    · rw [awaits] at meets
      obtain ⟨φ', moved, inv'⟩ := own inv meets.1 answered
      exact ⟨φ', inv', by simpa using meets.2 ans φ' moved⟩
    · exact ⟨φ, others (Ne.symm other) inv answered, by simpa [other] using meets⟩

/-- Watching one thread, whatever the events were. -/
theorem Run.watch (run : Run answers init events pool) (i : ι) {M : Monitor Ans Φ}
    {post : Φ → Except ε α → Prop} {φ : Φ} (I : World → Φ → Prop)
    (meets : (init.threads i).Meets M post φ) (holds : I init.world φ)
    (own : ∀ {world φ op ans world'}, I world φ → M.allowed φ op → answers world i op ans world' →
      ∃ φ', M.step φ op ans φ' ∧ I world' φ')
    (others : ∀ {world φ j op ans world'}, j ≠ i → I world φ → answers world j op ans world' →
      I world' φ) :
    ∃ φ, I pool.world φ ∧ (pool.threads i).Meets M post φ :=
  run.observe i (fun _ => I) meets holds own others

/-- A fact that an answer of a kind establishes, and that every step keeps, holds once a thread has
settled well that settles well only after such an answer. -/
theorem Run.heard (run : Run answers init events pool) (i : ι) (kind : (op : Op) → Ans op → Prop)
    (well : Except ε α → Prop) (P : World → Prop)
    (meets : (init.threads i).Meets (.heard kind) (fun φ r => well r → φ) False)
    (establishes : ∀ {world op ans world'}, answers world i op ans world' → kind op ans → P world')
    (keeps : ∀ {world j op ans world'}, P world → answers world j op ans world' → P world')
    (settled : pool.threads i = done r) (good : well r) : P pool.world := by
  obtain ⟨φ, held, rest⟩ := run.watch i (fun world φ => φ → P world) meets (fun none => none.elim)
    (fun {world φ op ans world'} before _ answered => ⟨φ ∨ kind op ans, rfl, by
      rintro (already | now)
      · exact keeps (before already) answered
      · exact establishes answered now⟩)
    (fun _ before answered already => keeps (before already) answered)
  rw [settled] at rest
  exact held (rest good)

/-- While a fact holds that makes the outside give one thread answers of a kind only, what the thread
settles with is what a program can make of such answers. -/
theorem Run.told (run : Run answers init events pool) (i : ι) (kind : (op : Op) → Ans op → Prop)
    (post : Except ε α → Prop) (P : World → Prop)
    (meets : (init.threads i).Meets (.told kind) (fun _ => post) ()) (holds : P init.world)
    (keeps : ∀ {world j op ans world'}, P world → answers world j op ans world' → P world')
    (tells : ∀ {world op ans world'}, P world → answers world i op ans world' → kind op ans)
    (settled : pool.threads i = done r) : post r := by
  obtain ⟨_, -, rest⟩ := run.watch i (fun world _ => P world) meets holds
    (fun held _ answered => ⟨(), tells held answered, keeps held answered⟩)
    (fun _ held answered => keeps held answered)
  rw [settled] at rest
  exact rest

/-- Answers that are the only ones an invariant leaves to be given. -/
theorem Run.restrict (run : Run answers init events pool) (M : ι → Monitor Ans Φ)
    (post : ι → Φ → Except ε α → Prop) (I : List (ι × Event Ans) → World → (ι → Φ) → Prop)
    (phases : ι → Φ) (meets : ∀ i, (init.threads i).Meets (M i) (post i) (phases i))
    (holds : I [] init.world phases)
    (keeps : ∀ events world phases i op ans world', I events world phases →
      (M i).allowed (phases i) op → answers world i op ans world' →
      ∃ φ, (M i).step (phases i) op ans φ ∧
        I (events ++ [(i, ⟨op, ans⟩)]) world' (Function.update phases i φ))
    {narrow : Answers Ans World ι}
    (leaves : ∀ events world phases i op ans world', I events world phases →
      (M i).allowed (phases i) op → answers world i op ans world' → narrow world i op ans world') :
    Run narrow init events pool := by
  induction run with
  | start => exact .start
  | @step events pool i op next ans world earlier awaits answered ih =>
    obtain ⟨phases, inv, rest⟩ := earlier.invariant M post I meets holds keeps
    have asked := rest i
    rw [awaits] at asked
    exact .step ih awaits (leaves _ _ _ _ _ _ _ inv asked.1 answered)

theorem Run.mono {wide : Answers Ans World ι} (run : Run answers init events pool)
    (wider : ∀ {world i op ans world'}, answers world i op ans world' → wide world i op ans world') :
    Run wide init events pool := by
  induction run with
  | start => exact .start
  | step earlier awaits answered ih => exact .step ih awaits (wider answered)

end Async
end Vaduno
