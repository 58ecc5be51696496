import Federation.Log.Query

/-!
Queries as statements on a table of events. What a query asks for becomes a condition, a disjunction
of conjunctions of tests; the values it mentions are bound to numbered placeholders and are no part
of the text.
-/
namespace Federation.Sql

/-- The columns that tests are about. -/
inductive Column where
  | instanceId | resourceOwner | streamType | streamId | eventType | payload
  deriving DecidableEq, Repr

def Column.name : Column → String
  | .instanceId => "instance_id"
  | .resourceOwner => "resource_owner"
  | .streamType => "aggregate_type"
  | .streamId => "aggregate_id"
  | .eventType => "event_type"
  | .payload => "payload"

/-- What can be bound to a placeholder. -/
inductive Parameter where
  | text (s : String)
  | texts (ss : List String)
  | document (entries : Entries)
  deriving Repr

inductive Test where
  | equals (column : Column) (s : String)
  | anyOf (column : Column) (ss : List String)
  | contains (column : Column) (entries : Entries)
  deriving Repr

namespace Test

def parameter : Test → Parameter
  | .equals _ s => .text s
  | .anyOf _ ss => .texts ss
  | .contains _ entries => .document entries

/-- The test with its parameter at a placeholder. -/
def text (n : Nat) : Test → String
  | .equals column _ => column.name ++ " = $" ++ Nat.repr n
  | .anyOf column _ => column.name ++ " = ANY($" ++ Nat.repr n ++ ")"
  | .contains column _ => column.name ++ " @> $" ++ Nat.repr n

/-- A filter that is absent is no test. -/
def ofText (column : Column) (s : Option String) : List Test := (s.map (equals column)).toList

def ofTexts (column : Column) (ss : List String) : List Test :=
  if ss.isEmpty then [] else [anyOf column ss]

def ofEntries (column : Column) (entries : Entries) : List Test :=
  if entries.isEmpty then [] else [contains column entries]

end Test

/-- The tests of one alternative. -/
def tests (q : Alternative) : List Test :=
  Test.ofText .instanceId q.instanceId ++ Test.ofText .resourceOwner q.resourceOwner
    ++ Test.ofTexts .streamType q.streamTypes ++ Test.ofTexts .streamId q.streamIds
    ++ Test.ofTexts .eventType q.eventTypes ++ Test.ofEntries .payload q.eventData

/-- The alternatives of a query. -/
def condition (q : Query) : List (List Test) := q.alternatives.map tests

/-- The parameters in the order of their placeholders. -/
def parameters (q : Query) : List Parameter := (condition q).flatten.map Test.parameter

/-- All of some tests, whose placeholders are numbered from `n` on. -/
def conjunction : Nat → List Test → String
  | _, [] => ""
  | n, t :: ts => " AND " ++ t.text n ++ conjunction (n + 1) ts

/-- One of some alternatives. -/
def alternatives : Nat → List (List Test) → List String
  | _, [] => []
  | n, ts :: rest => ("(TRUE" ++ conjunction n ts ++ ")") :: alternatives (n + ts.length) rest

def whereText (q : Query) : String := " OR ".intercalate (alternatives 1 (condition q))

def columns : String :=
  "position, id, instance_id, resource_owner, aggregate_type, aggregate_id, sequence, event_type, "
    ++ "payload, creator, created_at"

/-- The events that a query wants. -/
def selectEvents (table : String) (q : Query) : String :=
  "SELECT " ++ columns ++ " FROM " ++ table ++ " WHERE " ++ whereText q ++ " ORDER BY position"

/-- The highest sequence among the events that a query wants. -/
def selectLatest (table : String) (q : Query) : String :=
  "SELECT COALESCE(MAX(sequence), 0) FROM " ++ table ++ " WHERE " ++ whereText q

end Federation.Sql
