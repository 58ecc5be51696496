import Federation.Json.Fault

/-!
Readers of JSON values: single values, names of variants, and records.

A record is an object read member by member. Faults are reported in a fixed order: first values of
the wrong type, by key; then missing members, as declared; then the same for each group of members
that shares the object with the record's own. A record without such groups may also be written as
an array of its members in declared order.
-/
namespace Federation.Json

/-- A value read straight from a document, or one that was set aside until its place was known; an
array that is too long is reported differently for the two. -/
inductive Origin where
  | document | buffered
  deriving DecidableEq, Repr

abbrev Reader (α : Type) := Origin → Json → Except Fault α

namespace Reader

def text : Reader String
  | _, .string s => .ok s
  | _, j => .error (.wrongType j .string)

def flag : Reader Bool
  | _, .bool b => .ok b
  | _, j => .error (.wrongType j .boolean)

/-- A whole number of at most `bits` bits. -/
def unsigned (bits : Nat) : Reader Nat
  | _, .number (.whole n) =>
    if 0 ≤ n ∧ n.toNat < Nat.pow 2 bits then .ok n.toNat else .error (.outOfRange n bits)
  | _, j => .error (.wrongType j (.unsigned bits))

def items (r : Reader α) (o : Origin) : List Json → Except Fault (List α)
  | [] => .ok []
  | j :: js => do
    let a ← r o j
    let as ← items r o js
    return a :: as

def list (r : Reader α) : Reader (List α)
  | o, .array js => items r o js
  | _, j => .error (.wrongType j .sequence)

/-- Null stands for absence. -/
def option (r : Reader α) : Reader (Option α)
  | _, .null => .ok none
  | o, j => (r o j).map some

def any : Reader Json := fun _ j => .ok j

def map (f : α → β) (r : Reader α) : Reader β := fun o j => (r o j).map f

def named (variants : List (String × α)) (name : String) : Except Fault α :=
  match variants.lookup name with
  | some a => .ok a
  | none => .error (.unknownVariant name (variants.map Prod.fst))

/-- The name of a variant, plain or as the only key of an object whose value is null. -/
def variant (variants : List (String × α)) : Reader α
  | _, .string s => named variants s
  | _, .object [(k, .null)] => named variants k
  | _, .object [(k, v)] => do
    let _ ← named variants k
    throw (.wrongType v .unit)
  | _, .object _ => .error .notOneKey
  | _, j => .error (.wrongType j .nameOrMap)

/-- The name of a variant where nothing else can stand. -/
def variantName (variants : List (String × α)) : Reader α
  | _, .string s => named variants s
  | _, j => .error (.wrongType j .variantName)

end Reader

def fault? (r : Except Fault α) : Option Fault :=
  match r with
  | .ok _ => none
  | .error e => some e

structure Member where
  key : String
  required : Bool
  fault : Origin → Json → Option Fault

/-- Members of an object and what they mean together. -/
structure Schema (α : Type) where
  members : List Member
  read : Origin → (String → Option Json) → Except Fault α

namespace Schema

/-- A member of its own; `absent` is the value of one that is left out. -/
def member (key : String) (r : Reader α) (absent : Option α) : Schema α where
  members := [⟨key, absent.isNone, fun o j => fault? (r o j)⟩]
  read o look :=
    match look key with
    | some j => r o j
    | none =>
      match absent with
      | some a => .ok a
      | none => .error (.missing key)

def required (key : String) (r : Reader α) : Schema α := member key r none

def defaulted (key : String) (r : Reader α) (a : α) : Schema α := member key r (some a)

/-- Left out and null mean the same. -/
def optional (key : String) (r : Reader α) : Schema (Option α) := member key r.option (some none)

def pure (a : α) : Schema α := ⟨[], fun _ _ => .ok a⟩

def map (f : α → β) (s : Schema α) : Schema β := ⟨s.members, fun o look => (s.read o look).map f⟩

def and (s : Schema α) (t : Schema β) : Schema (α × β) where
  members := s.members ++ t.members
  read o look := do
    let a ← s.read o look
    let b ← t.read o look
    return (a, b)

end Schema

/-- How a record is laid out in JSON. -/
structure Layout (α : Type) where
  title : String
  own : List Member
  /-- Groups of members that share the object, each read after the record's own. -/
  shared : List (List Member) := []
  read : Origin → (String → Option Json) → Except Fault α

namespace Layout

def ofSchema (title : String) (s : Schema α) : Layout α where
  title := title
  own := s.members
  read := s.read

def map (f : α → β) (l : Layout α) : Layout β where
  title := l.title
  own := l.own
  shared := l.shared
  read o look := (l.read o look).map f

/-- A record that consists of another whose members all share its object. -/
def wrap (title : String) (l : Layout α) : Layout α where
  title := title
  own := []
  shared := l.own :: l.shared
  read _ look := l.read .buffered look

def typeFault (o : Origin) (members : List Member) (entries : Entries) : Option Fault :=
  entries.findSome? fun e =>
    (members.find? fun m => m.key = e.1).bind fun m => m.fault o e.2

def missingFault (members : List Member) (entries : Entries) : Option Fault :=
  members.findSome? fun m =>
    if m.required ∧ (entries.lookup m.key).isNone then some (.missing m.key) else none

def groupFault (o : Origin) (members : List Member) (entries : Entries) : Option Fault :=
  (typeFault o members entries).or (missingFault members entries)

def objectFault (l : Layout α) (o : Origin) (entries : Entries) : Option Fault :=
  (groupFault o l.own entries).or
    (l.shared.findSome? fun members => groupFault .buffered members entries)

/-- The first fault of an array, by position; `seen` members precede. -/
def itemsFault (title : String) (o : Origin) (total seen : Nat) :
    List Member → List Json → Option Fault
  | [], [] => none
  | [], items =>
    some (.length (seen + items.length)
      (match o with | .document => .fewer | .buffered => .exactly seen))
  | m :: ms, [] =>
    if m.required then some (.length seen (.record title total))
    else itemsFault title o total (seen + 1) ms []
  | m :: ms, j :: js => (m.fault o j).or (itemsFault title o total (seen + 1) ms js)

def decode (l : Layout α) : Reader α
  | o, .object entries =>
    match l.objectFault o entries with
    | some e => .error e
    | none => l.read o fun key => entries.lookup key
  | o, .array items =>
    if l.shared.isEmpty then
      match itemsFault l.title o l.own.length 0 l.own items with
      | some e => .error e
      | none => l.read o fun key => ((l.own.map Member.key).zip items).lookup key
    else .error (.wrongType (.array items) (.record l.title))
  | _, j => .error (.wrongType j (.record l.title))

end Layout
end Federation.Json
