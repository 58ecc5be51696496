/-!
JSON values as an event log keeps them. Whole numbers between `-2^63` and `2^64 - 1` are exact;
every other number is a binary64, kept as its bits. An object is a list of entries, and every
object this library builds lists its keys in increasing order, each once.
-/
namespace Federation

inductive Number where
  | whole (n : Int)
  | real (bits : UInt64)
  deriving DecidableEq, Repr, Inhabited

namespace Number

/-- The bits of the two zeros are all clear, the sign apart. -/
def isZeroBits (bits : UInt64) : Bool := bits.toNat % 0x8000000000000000 == 0

/-- A whole number never equals a binary64; the two zeros of the latter are equal. -/
def same : Number → Number → Bool
  | .whole a, .whole b => a == b
  | .real a, .real b => a == b || (isZeroBits a && isZeroBits b)
  | _, _ => false

end Number

inductive Json where
  | null
  | bool (b : Bool)
  | number (n : Number)
  | string (s : String)
  | array (items : List Json)
  | object (entries : List (String × Json))
  deriving Repr, Inhabited

/-- The entries of an object. -/
abbrev Entries := List (String × Json)

namespace Json

mutual

/-- Equality of stored values. -/
def same : Json → Json → Bool
  | .null, .null => true
  | .bool a, .bool b => a == b
  | .number a, .number b => a.same b
  | .string a, .string b => a == b
  | .array a, .array b => sameItems a b
  | .object a, .object b => sameEntries a b
  | _, _ => false

def sameItems : List Json → List Json → Bool
  | [], [] => true
  | a :: as, b :: bs => same a b && sameItems as bs
  | _, _ => false

def sameEntries : List (String × Json) → List (String × Json) → Bool
  | [], [] => true
  | (k, a) :: as, (l, b) :: bs => k == l && same a b && sameEntries as bs
  | _, _ => false

end

def whole (n : Int) : Json := .number (.whole n)

def nat (n : Nat) : Json := whole n

def strings (xs : List String) : Json := .array (xs.map .string)

end Json

namespace Entries

/-- Puts an entry at its place in the order of keys; an entry of the same key gives way. -/
def insert (key : String) (value : Json) : Entries → Entries
  | [] => [(key, value)]
  | (k, v) :: rest =>
    if key < k then (key, value) :: (k, v) :: rest
    else if key = k then (key, value) :: rest
    else (k, v) :: insert key value rest

/-- Later entries win over earlier ones of the same key. -/
def ofList (entries : List (String × Json)) : Entries :=
  entries.foldl (fun es e => es.insert e.1 e.2) []

end Entries

namespace Json

/-- The object with the given entries, its keys in increasing order. -/
def ofEntries (entries : List (String × Json)) : Json := .object (Entries.ofList entries)

def get? (key : String) : Json → Option Json
  | .object entries => entries.lookup key
  | _ => none

end Json
end Federation
