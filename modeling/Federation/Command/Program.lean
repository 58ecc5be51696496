import Federation.Error
import Federation.Log.Basic

/-!
Programs that talk to a log. A program is its next call on the log and what it does with each
answer, or a result; what other writers do between two calls is left to whoever runs it.
-/
namespace Federation

inductive Program (α : Type) where
  | done (result : Except Error α)
  | latest (q : Query) (next : Except LogError Nat → Program α)
  | filter (q : Query) (next : Except LogError (List LogEntry) → Program α)
  | push (p : Batch) (next : Except LogError (List LogEntry) → Program α)

namespace Program

def bind : Program α → (α → Program β) → Program β
  | .done (.ok a), f => f a
  | .done (.error e), _ => .done (.error e)
  | .latest q next, f => .latest q fun r => bind (next r) f
  | .filter q next, f => .filter q fun r => bind (next r) f
  | .push p next, f => .push p fun r => bind (next r) f

instance : Monad Program where
  pure a := .done (.ok a)
  bind := bind

def fail (e : Error) : Program α := .done (.error e)

def refuse (r : Refusal) : Program α := fail (.refused r)

/-- Goes on with another program where this one fails. -/
def orElse : Program α → (Error → Program α) → Program α
  | .done (.ok a), _ => .done (.ok a)
  | .done (.error e), f => f e
  | .latest q next, f => .latest q fun r => orElse (next r) f
  | .filter q next, f => .filter q fun r => orElse (next r) f
  | .push p next, f => .push p fun r => orElse (next r) f

/-- Attempts, numbered from `i` on; `n` more follow as long as another writer comes first. -/
def retry (attempt : Nat → Program α) : (n i : Nat) → Program α
  | 0, i => attempt i
  | n + 1, i =>
    (attempt i).orElse fun e => if e.isConflict then retry attempt n (i + 1) else fail e

/-- Runs with nobody else at the log; `clock` gives the stamp of a push by how many events precede
it. -/
def run (clock : Nat → Stamp) : Program α → Log → Except Error α × Log
  | .done r, log => (r, log)
  | .latest q next, log => run clock (next (log.latest q)) log
  | .filter q next, log => run clock (next (log.filter q)) log
  | .push p next, log =>
    match log.push (clock log.events.length) p with
    | .ok (events, log) => run clock (next (.ok events)) log
    | .error e => run clock (next (.error e)) log

@[simp] theorem run_done (clock : Nat → Stamp) (r : Except Error α) (log : Log) :
    (done r).run clock log = (r, log) := rfl

/-- What follows a program begins where that program left the log, unless it failed. -/
theorem run_bind (clock : Nat → Stamp) (p : Program α) (f : α → Program β) (log : Log) :
    (p.bind f).run clock log =
      match p.run clock log with
      | (.ok a, log) => (f a).run clock log
      | (.error e, log) => (.error e, log) := by
  induction p generalizing log with
  | done r => cases r <;> rfl
  | latest q next ih => exact ih _ _
  | filter q next ih => exact ih _ _
  | push p next ih =>
    simp only [bind, run]
    split <;> exact ih _ _

theorem run_orElse (clock : Nat → Stamp) (p : Program α) (f : Error → Program α) (log : Log) :
    (p.orElse f).run clock log =
      match p.run clock log with
      | (.ok a, log) => (.ok a, log)
      | (.error e, log) => (f e).run clock log := by
  induction p generalizing log with
  | done r => cases r <;> rfl
  | latest q next ih => exact ih _ _
  | filter q next ih => exact ih _ _
  | push p next ih =>
    simp only [orElse, run]
    split <;> exact ih _ _

end Program
end Federation
