import Federation.Cipher.Error
import Federation.Log.Error
import Federation.Provider.Kind
import Federation.Provider.Status

/-!
Why a command on providers fails: it was understood and refused, a secret could not be made or read,
the log failed, or no kind was given.
-/
namespace Federation

inductive Refusal where
  /-- There is no active provider of this id. -/
  | unknown (id : String)
  | taken (id : String)
  | inactive (id : String) (status : Status)
  | migrated (id : String)
  | migratedAlready (id : String)
  | empty (label : String)
  | otherKind (id : String) (actual wanted : Kind)
  | nothingChanged
  | credentialsMissing
  deriving DecidableEq, Repr

/-- Classes of refusals. -/
inductive Refusal.Code where
  | notFound | alreadyExists | preconditionFailed | invalidArgument | noChanges
  deriving DecidableEq, Repr

def Refusal.Code.name : Refusal.Code → String
  | .notFound => "not_found"
  | .alreadyExists => "already_exists"
  | .preconditionFailed => "precondition_failed"
  | .invalidArgument => "invalid_argument"
  | .noChanges => "no_changes"

namespace Refusal

def code : Refusal → Code
  | .unknown _ => .notFound
  | .taken _ => .alreadyExists
  | .inactive .. | .migrated _ | .migratedAlready _ | .credentialsMissing => .preconditionFailed
  | .empty _ | .otherKind .. => .invalidArgument
  | .nothingChanged => .noChanges

def reason : Refusal → String
  | .unknown id => "identity provider " ++ id ++ " not found"
  | .taken id => "identity provider " ++ id ++ " already exists"
  | .inactive id status => "identity provider " ++ id ++ " is not active (" ++ status.title ++ ")"
  | .migrated id => "identity provider " ++ id ++ " was migrated"
  | .migratedAlready id => "identity provider " ++ id ++ " was already migrated"
  | .empty label => label ++ " must not be empty"
  | .otherKind id actual wanted =>
    "identity provider " ++ id ++ " is " ++ actual.name ++ ", not " ++ wanted.name
  | .nothingChanged => "no changes"
  | .credentialsMissing => "credential materialization incomplete"

def message (r : Refusal) : String := r.code.name ++ ": " ++ r.reason

end Refusal

inductive Error where
  | refused (r : Refusal)
  | cipher (e : CipherError)
  | log (e : LogError)
  | noKind
  deriving Repr

namespace Error

def message : Error → String
  | .refused r => r.message
  | .cipher e => e.message
  | .log e => e.message
  | .noKind => "unknown identity provider kind: " ++ Kind.nameOf none

/-- Did another writer come first? -/
def isConflict : Error → Bool
  | .log e => e.isConflict
  | _ => false

/-- What cannot be written is malformed. -/
def ofFault (r : Except Json.Fault α) : Except Error α := r.mapError fun f => .log (.malformed f)

def ofCipher (r : Except CipherError α) : Except Error α := r.mapError .cipher

end Error
end Federation
