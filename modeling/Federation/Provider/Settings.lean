import Federation.Cipher.Sealed
import Federation.Provider.Description

/-!
The settings of a provider: a value for each field of its kind and, where the kind has one, a
secret. The secret is text in a desired configuration, an encrypted value in an event, and a value
that may be missing in what a history has left. A revision gives new values to some of the fields
and perhaps a new secret.
-/
namespace Federation

structure Settings (S : Type) (k : Kind) where
  plain : Record Field.Value k.fields
  secret : k.hasSecret = true → S

structure Revision (S : Type) (k : Kind) where
  plain : Patch Field.Value k.fields
  secret : k.hasSecret = true → Option S

/-- What a kind has in place of a secret, if what would be its secret can be had. -/
def Kind.withSecret (k : Kind) (s : Except ε S) : Except ε (k.hasSecret = true → S) :=
  if h : k.hasSecret = true then s.map fun v _ => v else .ok fun h' => absurd h' h

namespace Settings

/-- Fields that were never set, with a given secret. -/
def initial (secret : S) (k : Kind) : Settings S k := ⟨fun f _ => f.shape.initial, fun _ => secret⟩

def map (f : S → T) (s : Settings S k) : Settings T k := ⟨s.plain, fun h => f (s.secret h)⟩

/-- The secret, if the kind has one. -/
def secret? (s : Settings S k) : Option S :=
  if h : k.hasSecret = true then some (s.secret h) else none

/-- The revision that leads here from anywhere. -/
def toRevision (s : Settings S k) : Revision S k :=
  ⟨fun f h => some (s.plain f h), fun h => some (s.secret h)⟩

def revise (s : Settings S k) (r : Revision S k) : Settings S k :=
  ⟨s.plain.patch r.plain, fun h => (r.secret h).getD (s.secret h)⟩

/-- The fields of a bundle. -/
def bundle (s : Settings S k) (b : Bundle) (h : .bundle b ∈ k.items) :
    Record Field.Value b.fields :=
  s.plain.restrict (Kind.mem_fields_of_bundle h)

/-- A field that every kind of the caller's choice has. -/
def get (s : Settings S k) (f : Field) : f.Value :=
  if h : f ∈ k.fields then s.plain f h else f.shape.initial

theorem revise_toRevision (s t : Settings S k) : s.revise t.toRevision = t := rfl

end Settings

namespace Revision

/-- The revision that changes nothing. -/
def empty : Revision S k := ⟨Patch.empty, fun _ => none⟩

def map (f : S → T) (r : Revision S k) : Revision T k := ⟨r.plain, fun h => (r.secret h).map f⟩

def give (r : Revision S k) (f : Field) (v : f.Value) : Revision S k :=
  ⟨r.plain.give f v, r.secret⟩

def giveSome (r : Revision S k) (f : Field) (v : Option f.Value) : Revision S k :=
  ⟨r.plain.giveSome f v, r.secret⟩

def giveSecret (r : Revision S k) (v : S) : Revision S k := ⟨r.plain, fun _ => some v⟩

def giveSomeSecret (r : Revision S k) : Option S → Revision S k
  | some v => r.giveSecret v
  | none => r

def secret? (r : Revision S k) : Option S := if h : k.hasSecret = true then r.secret h else none

end Revision
end Federation
