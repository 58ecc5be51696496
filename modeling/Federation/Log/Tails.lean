import Federation.Log.Entry

/-!
Where streams end: the last sequence of each stream that has events, kept up to date as events are
numbered.
-/
namespace Federation

structure Tails where
  ends : List (StreamName × Nat) := []
  deriving DecidableEq, Repr

namespace Tails

/-- A stream without events ends at zero. -/
def get (t : Tails) (name : StreamName) : Nat := (t.ends.lookup name).getD 0

/-- The new end of a stream takes the place of its earlier one. -/
def put (t : Tails) (name : StreamName) (sequence : Nat) : Tails :=
  ⟨(name, sequence) :: t.ends.filter fun e => e.1 ≠ name⟩

theorem get_put (t : Tails) (name : StreamName) (sequence : Nat) (other : StreamName) :
    (t.put name sequence).get other = if name = other then sequence else t.get other := by
  by_cases h : name = other
  · simp [put, get, h]
  · have hl : ∀ es : List (StreamName × Nat),
        (es.filter fun e => e.1 ≠ name).lookup other = es.lookup other := by
      intro es
      induction es with
      | nil => rfl
      | cons e es ih => grind
    have h' : (other == name) = false := beq_false_of_ne (Ne.symm h)
    simp only [put, get, List.lookup_cons, h', hl, if_neg h]

end Tails
end Federation
