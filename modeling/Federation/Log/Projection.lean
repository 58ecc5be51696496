import Federation.Log.Basic
import Federation.Log.Fold

/-!
Models are loaded from a log, one alone or several at once. A projection says which events a model
wants and what they do to it. Several models share one question to the log, for all that any of them
wants, and each is handed its part of the answer.
-/
namespace Federation

universe u

structure Projection (σ ε : Type) where
  query : Base → σ → Query
  fold : Fold σ ε

namespace Projection

/-- What a model wants of a log. -/
def ask (p : Projection σ ε) (m : Model σ) : Query := p.query m.base m.state

/-- The model after further events. -/
def read (p : Projection σ ε) (m : Model σ) (events : List LogEntry) :
    Model σ × Except LogError Unit := (m.append events).reduce p.fold

/-- Reads what a log holds for a model. A query without alternatives asks nothing of the log. -/
def load (p : Projection σ ε) (m : Model σ) (log : Log) : Model σ × Except LogError Unit :=
  let q := p.ask m
  if q.alternatives.isEmpty then (m, .ok ())
  else
    match log.filter q with
    | .error e => (m, .error e)
    | .ok events => p.read m events

end Projection

/-- A model of one of several views. -/
structure Projected {ι : Type u} (S : ι → Type) where
  view : ι
  model : Model (S view)

namespace Projected

variable {ι : Type u} {S E : ι → Type} (p : (i : ι) → Projection (S i) (E i))

def query (l : Projected S) : Query := (p l.view).ask l.model

def read (l : Projected S) (events : List LogEntry) : Projected S × Except LogError Unit :=
  let (m, result) := (p l.view).read l.model events
  (⟨l.view, m⟩, result)

/-- Loads a model alone. -/
def load (l : Projected S) (log : Log) : Projected S × Except LogError Unit :=
  let (m, result) := (p l.view).load l.model log
  (⟨l.view, m⟩, result)

/-- Hands each model its part of the events, until one cannot be read. -/
def distribute (events : List LogEntry) :
    List (Projected S) → List (Projected S) × Except LogError Unit
  | [] => ([], .ok ())
  | l :: ls =>
    match l.read p ((l.query p).select events) with
    | (l, .error e) => (l :: ls, .error e)
    | (l, .ok ()) =>
      let (rest, result) := distribute events ls
      (l :: rest, result)

/-- What any of some models wants. -/
def combined (ls : List (Projected S)) : Query := ls.foldl (fun q l => q.merge (l.query p)) ⟨[]⟩

/-- Loads several models with one question to the log. -/
def loadAll (ls : List (Projected S)) (log : Log) : List (Projected S) × Except LogError Unit :=
  let q := combined p ls
  if q.alternatives.isEmpty then (ls, .ok ())
  else
    match log.filter q with
    | .error e => (ls, .error e)
    | .ok events => distribute p events ls

end Projected
end Federation
