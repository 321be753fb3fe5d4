import Vaduno.Async.Pool
import Vaduno.Ecma.IntegerText
import Vaduno.Ecma.Value

/-! The lock file that the file stores are written under: acquiring it, the reclaim of a file whose
holder seems gone, and the release, as the file operations they perform. Times are milliseconds. -/
namespace Vaduno.Enforce
open Ecma

structure FileMutexOpts where
  /-- How long one acquire may wait. -/
  budgetMs : Option ℤ
  retries : Option ℤ
  delayMs : Option ℤ
  staleMs : Option ℤ

namespace FileMutex

def heartbeatDivisor : ℤ := 3
def budgetHeadroomMs : ℤ := 5000
def releaseRetryMs : ℤ := 1000

/-- Unlink errors that mean that another handle is momentarily open. -/
def releaseTransient : List JsString := ["EBUSY", "EPERM", "EACCES"]

/-- Errors of the exclusive create that mean that somebody else holds the lock. -/
def contended : List JsString := ["EEXIST", "EPERM", "EACCES"]

/-- One heartbeat period plus slack; the quotient is rounded up. -/
def confirmWindowMs (staleMs : ℤ) : ℤ := max 50 ((staleMs + heartbeatDivisor - 1) / heartbeatDivisor + 50)

end FileMutex

namespace FileMutexOpts
open FileMutex
variable (opts : FileMutexOpts)

def stale : ℤ := opts.staleMs.getD 30000

def budget : ℤ :=
  opts.budgetMs.getD
    (if opts.retries.isSome || opts.delayMs.isSome then opts.retries.getD 50 * opts.delayMs.getD 20
    else opts.stale + confirmWindowMs opts.stale + budgetHeadroomMs)

end FileMutexOpts

/-- An error of the file system. -/
structure SystemError where
  code : JsString
  message : JsString

inductive MutexOp
  /-- `mkdir(dirname(lockPath), { recursive: true })`. -/
  | makeDir
  /-- `open(lockPath, "wx")`. -/
  | create
  /-- `fd.writeFile(token)` and `fd.close()`. -/
  | writeToken (token : JsString)
  /-- `stat(lockPath)`, for the time of the last change. -/
  | stat
  /-- The wall clock and the monotonic clock, read together. -/
  | time
  | readFile
  /-- `rm(lockPath, { force: true })`. -/
  | remove
  /-- `fn()`, with the heartbeat going until it is over. -/
  | work
  /-- The attempts that follow the last one modelled. -/
  | rest
  deriving DecidableEq

@[reducible] def MutexOp.Answer : MutexOp → Type
  | makeDir | create | writeToken _ | remove => Except SystemError Unit
  | stat => Except SystemError ℤ
  | time => ℤ × ℤ
  | readFile => Except SystemError JsString
  | work => Throwing Unit
  | rest => Empty

abbrev MutexProgram : Type → Type := Async MutexOp.Answer Thrown

abbrev MutexOp.ask (op : MutexOp) : MutexProgram op.Answer := Async.perform op

/-- What was seen of a file that looked stale. -/
structure Flag where
  mtimeMs : ℤ
  atMs : ℤ

namespace FileMutex
variable (opts : FileMutexOpts) (lockPath token : JsString)

def rethrow (e : SystemError) : MutexProgram α := throw (.error e.message)

def endless : MutexProgram α := do
  let never ← MutexOp.ask .rest
  nomatch never

/-- The unlinks of a stale file, up to a number of them: whether the file is gone. -/
def removeUntil (deadlineMs : ℤ) : ℕ → MutexProgram Bool
  | 0 => endless
  | more + 1 => do
    match ← MutexOp.ask .remove with
    | .ok _ => return true
    | .error e =>
      if e.code ∉ releaseTransient then return false
      else do
        let clocks ← MutexOp.ask .time
        if clocks.2 ≥ deadlineMs then return false else removeUntil deadlineMs more

def removeLockfileWithRetry (unlinks : ℕ) : MutexProgram Bool := do
  let clocks ← MutexOp.ask .time
  removeUntil (clocks.2 + releaseRetryMs) unlinks

/-- An acquire in its loop. -/
structure Attempt where
  startMs : ℤ
  attempts : ℕ
  lastCode : JsString

/-- Gives up where the budget is spent; tries again, after a nap, where it is not. -/
def waitFor (attempt : Attempt) (again : MutexProgram Unit) : MutexProgram Unit := do
  let clocks ← MutexOp.ask .time
  if clocks.2 - attempt.startMs ≥ opts.budget then
    throw (.error ("FileMutex: could not acquire lock " ++ lockPath ++ " within its " ++
      intText opts.budget ++ "ms budget (" ++ natText attempt.attempts ++ " attempts over " ++
      intText (clocks.2 - attempt.startMs) ++ "ms" ++
      (if attempt.lastCode = [] then [] else encode ", last errno " ++ attempt.lastCode) ++ ")"))
  else again

/-- What follows a create that somebody else's file has refused: the file is removed only where it has
looked stale, untouched, for the whole confirmation window. -/
def reclaim (unlinks : ℕ) (attempt : Attempt) (flagged : Option Flag)
    (again : Option Flag → MutexProgram Unit) : MutexProgram Unit := do
  match ← MutexOp.ask .stat with
  | .error _ => waitFor opts lockPath attempt (again none)
  | .ok mtimeMs => do
    let clocks ← MutexOp.ask .time
    if clocks.1 - mtimeMs > opts.stale then
      match flagged with
      | none => waitFor opts lockPath attempt (again (some ⟨mtimeMs, clocks.2⟩))
      | some flag =>
        if flag.mtimeMs ≠ mtimeMs then
          waitFor opts lockPath attempt (again (some ⟨mtimeMs, clocks.2⟩))
        else if clocks.2 - flag.atMs ≥ confirmWindowMs opts.stale then do
          let gone ← removeLockfileWithRetry unlinks
          if gone then again none else waitFor opts lockPath attempt (again (some flag))
        else waitFor opts lockPath attempt (again (some flag))
    else waitFor opts lockPath attempt (again none)

/-- The loop of an acquire, up to a number of attempts. -/
def acquireLoop (unlinks : ℕ) (startMs : ℤ) : ℕ → ℕ → Option Flag → MutexProgram Unit
  | 0, _, _ => endless
  | more + 1, attempts, flagged => do
    let refused := fun e : SystemError =>
      if e.code ∈ contended then
        reclaim opts lockPath unlinks ⟨startMs, attempts + 1, e.code⟩ flagged
          fun flagged => acquireLoop unlinks startMs more (attempts + 1) flagged
      else rethrow e
    match ← MutexOp.ask .create with
    | .error e => refused e
    | .ok _ =>
      match ← MutexOp.ask (.writeToken token) with
      | .error e => refused e
      | .ok _ => return ()

def acquire (unlinks more : ℕ) : MutexProgram Unit := do
  let clocks ← MutexOp.ask .time
  match ← MutexOp.ask .makeDir with
  | .error e => rethrow e
  | .ok _ => acquireLoop opts lockPath token unlinks clocks.2 more 0 none

/-- The tries of a release, up to a number of them: the file goes only if it carries the own token. -/
def releaseUntil (deadlineMs : ℤ) : ℕ → MutexProgram Unit
  | 0 => endless
  | more + 1 => do
    let failed := fun e : SystemError =>
      if e.code ∉ releaseTransient then return ()
      else do
        let clocks ← MutexOp.ask .time
        if clocks.2 ≥ deadlineMs then return () else releaseUntil deadlineMs more
    match ← MutexOp.ask .readFile with
    | .error e => failed e
    | .ok current =>
      if current = token then do
        match ← MutexOp.ask .remove with
        | .ok _ => return ()
        | .error e => failed e
      else return ()

def release (unlinks : ℕ) : MutexProgram Unit :=
  if token = [] then return ()
  else do
    let clocks ← MutexOp.ask .time
    releaseUntil token (clocks.2 + releaseRetryMs) unlinks

/-- One call, past its instance's queue: the token that the instance holds meanwhile is the call's own. -/
def run (unlinks more : ℕ) : MutexProgram Unit := do
  acquire opts lockPath token unlinks more
  let outcome ← MutexOp.ask .work
  release token unlinks
  Async.settled outcome

end FileMutex
end Vaduno.Enforce
