import Federation.Log.Entry

/-!
Batches of events to append, all or none.
-/
namespace Federation

/-- A stream must still end at a sequence; one without events is at zero. -/
structure Expectation where
  stream : EventStream
  expected : Nat
  deriving DecidableEq, Repr

structure Batch where
  creator : String
  expectations : List Expectation := []
  events : List Draft := []
  deriving Repr

namespace Batch

def expect (p : Batch) (a : EventStream) (sequence : Nat) : Batch :=
  { p with expectations := p.expectations ++ [⟨a, sequence⟩] }

def append (p : Batch) (e : Draft) : Batch := { p with events := p.events ++ [e] }

def containsType (p : Batch) (type : String) : Bool := p.events.any fun e => e.type == type

end Batch
end Federation
