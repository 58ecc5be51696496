import Federation.Log.Error
import Federation.Log.Query

/-!
State rebuilt from stored events. A fold recognises the events it knows and lets each change a
state; a written model keeps beside that state how far it has read.
-/
namespace Federation

/-- How events change a state. An event that is not recognised is passed over. -/
structure Fold (σ ε : Type) where
  recognise : LogEntry → Except Json.Fault (Option ε)
  apply : σ → EventStream → ε → σ

namespace Fold

/-- The state after the events up to the first whose payload cannot be read, and what is wrong
with it. -/
def run (f : Fold σ ε) (s : σ) : List LogEntry → σ × Option Json.Fault
  | [] => (s, none)
  | e :: es =>
    match f.recognise e with
    | .error fault => (s, some fault)
    | .ok none => run f s es
    | .ok (some ev) => run f (f.apply s e.stream ev) es

/-- Two stretches of events fold like one, up to the first event that cannot be read. -/
theorem run_append (f : Fold σ ε) (s : σ) (es fs : List LogEntry) :
    f.run s (es ++ fs) =
      match f.run s es with
      | (t, none) => f.run t fs
      | (t, some fault) => (t, some fault) := by
  induction es generalizing s with
  | nil => rfl
  | cons e es ih =>
    simp only [List.cons_append, run]
    split <;> simp_all

end Fold

/-- How far a model has read, and where. -/
structure Base where
  streamId : String
  resourceOwner : String
  instanceId : String
  processed : Nat := 0
  changeDate : Option Timestamp := none
  deriving DecidableEq, Repr

namespace Base

/-- A name that was left empty is taken from the first event read. -/
def orFirst (s first : String) : String := if s = "" then first else s

def advance (b : Base) (events : List LogEntry) : Base :=
  match events.head?, events.getLast? with
  | some first, some last =>
    { streamId := orFirst b.streamId first.stream.id
      resourceOwner := orFirst b.resourceOwner first.stream.resourceOwner
      instanceId := orFirst b.instanceId first.stream.instanceId
      processed := last.sequence
      changeDate := some last.createdAt }
  | _, _ => b

end Base

/-- A state with its bookkeeping and the events appended since the last reduction. -/
structure Model (σ : Type) where
  base : Base
  state : σ
  buffer : List LogEntry := []

namespace Model

def append (m : Model σ) (events : List LogEntry) : Model σ :=
  { m with buffer := m.buffer ++ events }

/-- Folds the buffered events. Where one cannot be read, the state keeps those before it, the rest
is dropped and the bookkeeping stays. -/
def reduce (f : Fold σ ε) (m : Model σ) : Model σ × Except LogError Unit :=
  match f.run m.state m.buffer with
  | (s, none) => ({ base := m.base.advance m.buffer, state := s }, .ok ())
  | (s, some fault) => ({ base := m.base, state := s }, .error (.malformed fault))

end Model
end Federation
