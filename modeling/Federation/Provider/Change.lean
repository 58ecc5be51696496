import Federation.Cipher.Basic
import Federation.Error
import Federation.Provider.Settings

/-!
The least list of changes that leads from stored settings to desired ones. A field is listed if it
differs, a bundle with those of its fields that differ, and a secret whenever one is given, since a
stored one cannot be compared with it.
-/
namespace Federation

namespace Changes

/-- At most one change: that of a value which is not what it should be. -/
def ofValue (same : Bool) (desired : V) (change : V → C) : List C :=
  if same then [] else [change desired]

/-- At most one change: that of a secret which is given. -/
def ofSecret (cipher : Cipher) (nonce : Nonce) (text : String) (change : Sealed → C) :
    Except CipherError (List C) :=
  if text = "" then .ok []
  else (cipher.protectText nonce text).map fun v => [change v]

/-- At most one change: that of a bundle in which something differs. -/
def ofBundle (delta : Patch Field.Value fs) (change : Patch Field.Value fs → C) : List C :=
  if delta.isZero then [] else [change delta]

end Changes

/-- A new value for an item of a kind. -/
inductive Change (k : Kind) where
  | field (f : Field) (h : .field f ∈ k.items) (v : f.Value)
  | secret (h : k.hasSecret = true) (v : Sealed)
  | bundle (b : Bundle) (h : .bundle b ∈ k.items) (delta : Patch Field.Value b.fields)

theorem Kind.mem_changeOrder {k : Kind} {i : Item} : i ∈ k.changeOrder ↔ i ∈ k.items :=
  (List.isPerm_iff.1 k.changeOrder_perm).mem_iff

theorem Kind.hasSecret_of_mem {k : Kind} (h : .secret ∈ k.items) : k.hasSecret = true := by
  simpa [hasSecret] using h

namespace Settings

/-- The changes that an item needs. -/
def itemChanges (cipher : Cipher) (nonce : Nonce) (s : Settings (Option Sealed) k)
    (desired : Settings String k) : (i : Item) → i ∈ k.items → Except CipherError (List (Change k))
  | .field f, h =>
    let v := desired.plain f (Kind.mem_fields_of_field h)
    .ok (Changes.ofValue (s.plain f (Kind.mem_fields_of_field h) = v) v (.field f h))
  | .secret, h =>
    Changes.ofSecret cipher nonce (desired.secret (Kind.hasSecret_of_mem h))
      (.secret (Kind.hasSecret_of_mem h))
  | .bundle b, h => .ok (Changes.ofBundle ((s.bundle b h).diff (desired.bundle b h)) (.bundle b h))

/-- All changes, in the order of the kind. -/
def changes (cipher : Cipher) (nonce : Nonce) (s : Settings (Option Sealed) k)
    (desired : Settings String k) : Except CipherError (List (Change k)) := do
  let lists ← k.changeOrder.attach.mapM fun i =>
    s.itemChanges cipher nonce desired i.1 (Kind.mem_changeOrder.1 i.2)
  return lists.flatten

end Settings

namespace Revision

/-- The revision with one more change. A change of a bundle takes the place of an earlier one. -/
def change (r : Revision Sealed k) : Change k → Revision Sealed k
  | .field f _ v => r.give f v
  | .secret _ v => r.giveSecret v
  | .bundle b _ delta =>
    ⟨fun f h => if hb : f ∈ b.fields then delta f hb else r.plain f h, r.secret⟩

/-- All changes in one revision; there must be some. -/
def ofChanges (cs : List (Change k)) : Except Refusal (Revision Sealed k) :=
  if cs.isEmpty then .error .nothingChanged else .ok (cs.foldl change empty)

end Revision
end Federation
