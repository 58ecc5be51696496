import Federation.Provider.Settings

/-!
How settings and revisions are written as members of a JSON object, and read back. The members of a
bundle share the object with the others, except in a desired configuration, where each bundle is an
object of its own.
-/
namespace Federation

open Json (Schema Layout Member Fault)

namespace Field

/-- In the event of a provider that is added. -/
def addedSchema (f : Field) : Schema f.Value :=
  .member f.key f.shape.reader (if f.isOptional then some f.shape.initial else none)

/-- Where a field that is left out has its initial value. -/
def desiredSchema (f : Field) : Schema f.Value := .defaulted f.key f.shape.reader f.shape.initial

/-- Where a field that is left out stays as it is. -/
def changedSchema (f : Field) : Schema (Option f.Value) := .optional f.key f.shape.reader

def entry (f : Field) (v : f.Value) : Except Fault (String × Json) :=
  (f.shape.write v).map fun j => (f.key, j)

end Field

namespace Bundle

def layout (b : Bundle) : Layout (Record Field.Value b.fields) where
  title := b.title
  own := b.fields.flatMap fun f => f.desiredSchema.members
  read o look := Record.ofFunction (fun f => f.desiredSchema.read o look) b.fields

def patchLayout (b : Bundle) : Layout (Patch Field.Value b.fields) where
  title := b.patchTitle
  own := b.fields.flatMap fun f => f.changedSchema.members
  read o look := Record.ofFunction (fun f => f.changedSchema.read o look) b.fields

/-- A bundle that is left out has all its fields initial. -/
def schema (b : Bundle) : Schema (Record Field.Value b.fields) :=
  .defaulted b.key b.layout.decode fun f _ => f.shape.initial

def toJson (b : Bundle) (r : Record Field.Value b.fields) : Except Fault Json :=
  (r.toListM Field.entry).map .ofEntries

def patchToJson (b : Bundle) (p : Patch Field.Value b.fields) : Except Fault Json :=
  (p.toListM Field.entry).map .ofEntries

end Bundle

namespace Kind

/-- The members of an object, by what they stand for. -/
def members (k : Kind) (field : Field → List Member) (secret : List Member)
    (bundle : Bundle → List Member) : List Member :=
  k.items.flatMap fun
    | .field f => field f
    | .secret => secret
    | .bundle b => bundle b

/-- The members of each bundle that shares the object. -/
def sharedMembers (k : Kind) (field : Field → List Member) : List (List Member) :=
  k.items.filterMap fun
    | .bundle b => some (b.fields.flatMap field)
    | _ => none

end Kind

namespace Settings

def secretSchema (k : Kind) : Schema Sealed := .required k.secretKey Sealed.reader

/-- The settings in the event of a provider that is added, under its id. -/
def addedLayout (k : Kind) : Layout (String × Settings Sealed k) where
  title := k.title ++ "IdpAdded"
  own := (Schema.required "id" .text).members
    ++ k.members (fun f => f.addedSchema.members) (secretSchema k).members fun _ => []
  shared := k.sharedMembers fun f => f.addedSchema.members
  read o look := do
    let id ← (Schema.required "id" .text).read o look
    let plain ← Record.ofFunction (fun f => f.addedSchema.read o look) k.fields
    let secret ← k.withSecret ((secretSchema k).read o look)
    return (id, ⟨plain, secret⟩)

def addedToJson (id : String) (s : Settings Sealed k) : Except Fault Json := do
  let plain ← s.plain.toListM Field.entry
  let secret := s.secret?.toList.map fun v => (k.secretKey, v.toJson)
  return .ofEntries (("id", .string id) :: (plain ++ secret))

/-- The secret of a desired configuration. -/
def textSchema (k : Kind) : Schema String := .defaulted k.secretKey .text ""

/-- The items of a desired configuration, one after another. -/
def itemsSchema : (items : List Item) → Schema (Record Field.Value (items.flatMap Item.fields))
  | [] => .pure fun _ h => nomatch h
  | .field f :: items =>
    (f.desiredSchema.and (itemsSchema items)).map fun (v, r) => r.cons v
  | .secret :: items => itemsSchema items
  | .bundle b :: items => (b.schema.and (itemsSchema items)).map fun (r, s) => r.append s

def desiredLayout (k : Kind) : Layout (Settings String k) where
  title := k.title ++ "IdpConfig"
  own := k.members (fun f => f.desiredSchema.members) (textSchema k).members fun b =>
    b.schema.members
  read o look := do
    let plain ← (itemsSchema k.items).read o look
    let secret ← k.withSecret ((textSchema k).read o look)
    return ⟨plain, secret⟩

end Settings

namespace Revision

def secretSchema (k : Kind) : Schema (Option Sealed) := .optional k.secretKey Sealed.reader

/-- The revision in the event of a provider that is changed, under its id. -/
def layout (k : Kind) : Layout (String × Revision Sealed k) where
  title := k.title ++ "IdpChanged"
  own := (Schema.required "id" .text).members
    ++ k.members (fun f => f.changedSchema.members) (secretSchema k).members fun _ => []
  shared := k.sharedMembers fun f => f.changedSchema.members
  read o look := do
    let id ← (Schema.required "id" .text).read o look
    let plain ← Record.ofFunction (fun f => f.changedSchema.read o look) k.fields
    let secret ← k.withSecret ((secretSchema k).read o look)
    return (id, ⟨plain, secret⟩)

def toJson (id : String) (r : Revision Sealed k) : Except Fault Json := do
  let plain ← r.plain.toListM Field.entry
  let secret := r.secret?.toList.map fun v => (k.secretKey, v.toJson)
  return .ofEntries (("id", .string id) :: (plain ++ secret))

end Revision
end Federation
