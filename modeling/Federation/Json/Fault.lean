import Federation.Decimal.Shortest
import Federation.Json.Basic
import Federation.Text.Base64
import Federation.Text.Quoted
import Federation.Text.Uuid
import Federation.Timestamp

/-!
Why a JSON value cannot be read as what is wanted, and how that is said.
-/
namespace Federation

namespace Json

/-- How a message refers to a value. -/
def describe : Json → String
  | .null => "null"
  | .bool b => "boolean `" ++ (if b then "true" else "false") ++ "`"
  | .number (.whole n) => "integer `" ++ Int.repr n ++ "`"
  | .number (.real bits) => "floating point `" ++ Binary64.text bits ++ "`"
  | .string s => "string " ++ Text.quoted s
  | .array _ => "sequence"
  | .object _ => "map"

/-- What a reader asked for. -/
inductive Wanted where
  | string | boolean | sequence | unit
  | unsigned (bits : Nat)
  | record (title : String)
  | tagged (title : String)
  | variantName | nameOrMap
  | uuid | timestamp
  deriving DecidableEq, Repr

def Wanted.text : Wanted → String
  | .string => "a string"
  | .boolean => "a boolean"
  | .sequence => "a sequence"
  | .unit => "unit"
  | .unsigned bits => "u" ++ Nat.repr bits
  | .record title => "struct " ++ title
  | .tagged title => "internally tagged enum " ++ title
  | .variantName => "variant identifier"
  | .nameOrMap => "string or map"
  | .uuid => "a UUID string"
  | .timestamp => "an RFC 3339 formatted date and time string"

/-- How many elements an array should have had. -/
inductive Count where
  | record (title : String) (n : Nat)
  | exactly (n : Nat)
  | fewer
  deriving DecidableEq, Repr

def elements (n : Nat) : String := Nat.repr n ++ (if n = 1 then " element" else " elements")

def Count.text : Count → String
  | .record title n => "struct " ++ title ++ " with " ++ elements n
  | .exactly n => elements n ++ " in sequence"
  | .fewer => "fewer elements in array"

inductive Fault where
  | wrongType (found : Json) (wanted : Wanted)
  | outOfRange (found : Int) (bits : Nat)
  | notOneKey
  | missing (key : String)
  | unknownVariant (name : String) (known : List String)
  | length (n : Nat) (count : Count)
  | base64 (fault : Base64.Fault)
  | uuid (fault : Uuid.Fault)
  | timestamp (fault : Timestamp.Fault)
  /-- Whole nanoseconds beyond 64 bits cannot be written. -/
  | tooManyNanos
  deriving Repr

/-- Two names are joined by "or", more are listed. -/
def oneOf (names : List String) : String :=
  let marked := names.map fun s => "`" ++ s ++ "`"
  match marked with
  | [a] => a
  | [a, b] => a ++ " or " ++ b
  | _ => "one of " ++ ", ".intercalate marked

def Fault.message : Fault → String
  | .wrongType found wanted => "invalid type: " ++ found.describe ++ ", expected " ++ wanted.text
  | .outOfRange n bits =>
    "invalid value: integer `" ++ Int.repr n ++ "`, expected " ++ (Wanted.unsigned bits).text
  | .notOneKey => "invalid value: map, expected map with a single key"
  | .missing key => "missing field `" ++ key ++ "`"
  | .unknownVariant name known => "unknown variant `" ++ name ++ "`, expected " ++ oneOf known
  | .length n count => "invalid length " ++ Nat.repr n ++ ", expected " ++ count.text
  | .base64 f => f.message
  | .uuid f => "UUID parsing failed: " ++ f.message
  | .timestamp f => f.message
  | .tooManyNanos => "out of range integral type conversion attempted"

end Json
end Federation
