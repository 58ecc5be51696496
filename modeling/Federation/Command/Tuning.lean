import Federation.Duration
import Federation.Json.Read

/-!
How patient commands are, and where that is configured: in a document, or by two variables of the
environment.
-/
namespace Federation

structure Tuning where
  /-- How often a command starts again after another writer came first. -/
  retries : UInt32 := 3
  /-- The time allowed for each call on the log; none is no limit. -/
  timeout : Option Duration := some ⟨10000000000⟩
  deriving DecidableEq, Repr

namespace Tuning

/-- A limit of nothing is no limit. -/
def limitOfMillis (ms : Nat) : Option Duration := if ms = 0 then none else some (.ofMillis ms)

def schema : Json.Schema Tuning :=
  ((Json.Schema.defaulted "max_push_retries" (.map UInt32.ofNat (.unsigned 32)) 3).and
    (Json.Schema.defaulted "storage_timeout"
      (.map (fun ms => ms.bind limitOfMillis) (.option (.unsigned 64)))
      ({} : Tuning).timeout)).map
    fun (retries, timeout) => ⟨retries, timeout⟩

def reader : Json.Reader Tuning := (Json.Layout.ofSchema "CommandsConfig" schema).decode

/-- Why text is no whole number of a width. -/
inductive NumeralFault where
  | empty | notDigit | tooLarge
  deriving DecidableEq, Repr

def NumeralFault.message : NumeralFault → String
  | .empty => "cannot parse integer from empty string"
  | .notDigit => "invalid digit found in string"
  | .tooLarge => "number too large to fit in target type"

def digits (bits n : Nat) : List Char → Except NumeralFault Nat
  | [] => .ok n
  | c :: cs =>
    if c.isDigit then
      let n := n * 10 + (c.toNat - 48)
      if n < Nat.pow 2 bits then digits bits n cs else .error .tooLarge
    else .error .notDigit

/-- Decimal digits after at most one plus sign. -/
def numeral (bits : Nat) (s : String) : Except NumeralFault Nat :=
  match s.toList with
  | [] => .error .empty
  | ['+'] => .error .notDigit
  | '+' :: cs => digits bits 0 cs
  | cs => digits bits 0 cs

/-- A variable of the environment whose text is no number. -/
structure Fault where
  variableName : String
  text : String
  cause : NumeralFault
  deriving DecidableEq, Repr

def Fault.message (f : Fault) : String := "invalid " ++ f.variableName ++ ": " ++ f.text

def retriesVariable : String := "IDPSTORE_MAX_PUSH_RETRIES"

def timeoutVariable : String := "IDPSTORE_STORAGE_TIMEOUT_MS"

/-- A variable that is not set leaves the usual value. -/
def setting (name : String) (bits : Nat) (usual : α) (f : Nat → α) :
    Option String → Except Fault α
  | none => .ok usual
  | some text =>
    match numeral bits text with
    | .ok n => .ok (f n)
    | .error cause => .error ⟨name, text, cause⟩

/-- Reads the values of the two variables. -/
def ofEnvironment (retries timeout : Option String) : Except Fault Tuning := do
  let r ← setting retriesVariable 32 ({} : Tuning).retries UInt32.ofNat retries
  let t ← setting timeoutVariable 64 ({} : Tuning).timeout limitOfMillis timeout
  return ⟨r, t⟩

end Tuning
end Federation
