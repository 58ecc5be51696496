import Federation.Error
import Federation.Text.Utf8

/-!
Machine credentials that a first run is asked for, and those that it made.
-/
namespace Federation

/-- Which credentials are wanted. -/
structure Wanted where
  token : Bool := false
  key : Bool := false
  deriving DecidableEq, Repr

structure Credentials where
  token : Option String := none
  key : Option Bytes := none
  deriving DecidableEq, Repr

/-- Nothing that is wanted may be missing. -/
def Credentials.check (made : Credentials) (wanted : Wanted) : Except Refusal Unit :=
  if (wanted.token && made.token.isNone) || (wanted.key && made.key.isNone) then
    .error .credentialsMissing
  else .ok ()

end Federation
