import Federation.Sql.Select
import Federation.Proofs.Sql.Containment
import Mathlib.Data.List.SplitBy

/-!
Conditions of statements: how their text is read, and when they hold of a row. A text is cut into
tokens, and these are read with AND before OR and with brackets before both. The text of a query is
read as the disjunction of conjunctions that it was made from.
-/
namespace Federation.Sql

lemma intercalate_alternatives (n : Nat) (ts us : List Test) (rest : List (List Test)) :
    " OR ".intercalate (alternatives n (ts :: us :: rest)) =
      ("(TRUE" ++ conjunction n ts ++ ")") ++ " OR " ++
        " OR ".intercalate (alternatives (n + ts.length) (us :: rest)) := by
  rw [alternatives, alternatives, String.intercalate_cons_cons]

inductive Token where
  | column (c : Column)
  | placeholder (n : Nat)
  | truth | and | or | any | equals | contains | opening | closing
  deriving DecidableEq, Repr

namespace Token

/-- The tokens that are always spelled alike. -/
def spelled : List (String × Token) :=
  [("TRUE", .truth), ("AND", .and), ("OR", .or), ("ANY", .any), ("=", .equals), ("@>", .contains),
    ("(", .opening), (")", .closing)]
    ++ [Column.instanceId, .resourceOwner, .streamType, .streamId, .eventType, .payload].map
      fun c => (c.name, .column c)

def isWordChar (c : Char) : Bool := c.isAlphanum || c == '_'

/-- Do two neighbours belong to one token? -/
def joins (a b : Char) : Bool := (a == '$' || isWordChar a) && isWordChar b || a == '@' && b == '>'

def ofRun? : List Char → Option Token
  | '$' :: ds =>
    if !ds.isEmpty && ds.all Char.isDigit then some (.placeholder (Nat.ofDigitChars 10 ds 0))
    else none
  | cs => spelled.lookup (String.ofList cs)

/-- The tokens of a text; a blank is none. -/
def read? (s : List Char) : Option (List Token) :=
  ((s.splitBy joins).filter (· ≠ [' '])).mapM ofRun?

end Token

/-- A condition on a row, with the numbers of placeholders. -/
inductive Condition where
  | truth
  | equals (column : Column) (n : Nat)
  | anyOf (column : Column) (n : Nat)
  | contains (column : Column) (n : Nat)
  | both (c d : Condition)
  | either (c d : Condition)
  deriving DecidableEq, Repr

namespace Condition

/-- A condition under an operator that stands between it and an earlier one, if there is one. -/
def after (op : Condition → Condition → Condition) (earlier : Option Condition) (c : Condition) :
    Condition :=
  match earlier with
  | none => c
  | some b => op b c

/-- What was read of the text, or of a bracket, before an operand: whole alternatives, and the
conjuncts of one that is not yet complete. -/
structure Level where
  alternatives : Option Condition := none
  conjuncts : Option Condition := none

mutual

/-- Reads on from where an operand is due. Brackets that are open wait in `outer`. -/
def operand? (outer : List Level) (l : Level) : List Token → Option Condition
  | .opening :: ts => operand? (l :: outer) {} ts
  | .truth :: ts => operator? outer l.alternatives (after .both l.conjuncts .truth) ts
  | .column c :: .equals :: .placeholder n :: ts =>
    operator? outer l.alternatives (after .both l.conjuncts (.equals c n)) ts
  | .column c :: .equals :: .any :: .opening :: .placeholder n :: .closing :: ts =>
    operator? outer l.alternatives (after .both l.conjuncts (.anyOf c n)) ts
  | .column c :: .contains :: .placeholder n :: ts =>
    operator? outer l.alternatives (after .both l.conjuncts (.contains c n)) ts
  | _ => none

/-- Reads on from where an operator is due, after the conjuncts `c`. -/
def operator? (outer : List Level) (alternatives : Option Condition) (c : Condition) :
    List Token → Option Condition
  | [] => if outer.isEmpty then some (after .either alternatives c) else none
  | .and :: ts => operand? outer ⟨alternatives, some c⟩ ts
  | .or :: ts => operand? outer ⟨some (after .either alternatives c), none⟩ ts
  | .closing :: ts =>
    match outer with
    | [] => none
    | l :: outer =>
      operator? outer l.alternatives (after .both l.conjuncts (after .either alternatives c)) ts
  | _ => none

end

/-- The condition that a text states. -/
def read? (s : String) : Option Condition := do operand? [] {} (← Token.read? s.toList)

example : read? "TRUE OR TRUE AND (TRUE OR event_type = ANY($12))" =
    some (.either .truth (.both .truth (.either .truth (.anyOf .eventType 12)))) := by decide

end Condition

namespace Token

variable {s t : List Char} {ts us : List Token}

/-- No token reaches from one text into the next. -/
def Apart (s t : List Char) : Prop := ∀ a ∈ s.getLast?, ∀ b ∈ t.head?, joins a b = false

/-- A token of its own, or none. -/
def isBreak (c : Char) : Bool := c == ' ' || c == '(' || c == ')'

lemma apart_of_getLast? (h : s.getLast?.all isBreak = true) : Apart s t := by
  intro a ha b _
  rw [Option.mem_def.mp ha, Option.all_some] at h
  simp only [isBreak, Bool.or_eq_true, beq_iff_eq] at h
  rcases h with (rfl | rfl) | rfl <;> simp [joins, isWordChar]

lemma apart_of_head? (h : t.head?.all isBreak = true) : Apart s t := by
  intro a _ b hb
  rw [Option.mem_def.mp hb, Option.all_some] at h
  simp only [isBreak, Bool.or_eq_true, beq_iff_eq] at h
  rcases h with (rfl | rfl) | rfl <;> simp [joins, isWordChar]

lemma read?_append (hs : read? s = some ts) (ht : read? t = some us) (h : Apart s t) :
    read? (s ++ t) = some (ts ++ us) := by
  unfold read? at *
  rw [List.splitBy_append h, List.filter_append, List.mapM_append, hs, ht]
  rfl

lemma read?_placeholder (n : Nat) : read? ('$' :: Nat.toDigits 10 n) = some [.placeholder n] := by
  have hd : ∀ c ∈ Nat.toDigits 10 n, c.isDigit = true := fun c hc =>
    Nat.isDigit_of_mem_toDigits (by decide) (by decide) hc
  have hw : ∀ c ∈ Nat.toDigits 10 n, isWordChar c = true := fun c hc => by
    simp [isWordChar, Char.isAlphanum, hd c hc]
  have hc : ('$' :: Nat.toDigits 10 n).IsChain fun a b => joins a b = true := by
    refine List.Pairwise.isChain (List.pairwise_cons.mpr ⟨fun b hb => ?_, ?_⟩)
    · simp [joins, hw b hb]
    · exact List.pairwise_of_forall_mem_list fun a ha b hb => by simp [joins, hw a ha, hw b hb]
  rw [read?, List.splitBy_of_isChain (List.cons_ne_nil _ _) hc]
  have ho : ofRun? ('$' :: Nat.toDigits 10 n) = some (.placeholder n) := by
    simp [ofRun?, Nat.toDigits_ne_nil]
    exact hd
  simp [ho]

lemma read?_name (c : Column) : read? c.name.toList = some [.column c] := by
  cases c <;> decide

/-- A column, an operator in blanks or brackets, and a placeholder. -/
lemma read?_bound (c : Column) {op : String} (ho : read? op.toList = some ts)
    (hh : op.toList.head? = some ' ') (hl : op.toList.getLast?.all isBreak = true) (n : Nat) :
    read? (" AND " ++ c.name ++ op ++ "$" ++ Nat.repr n).toList =
      some (.and :: .column c :: (ts ++ [.placeholder n])) := by
  have hs : (" AND " ++ c.name ++ op ++ "$" ++ Nat.repr n).toList =
      " AND ".toList ++ (c.name.toList ++ (op.toList ++ '$' :: Nat.toDigits 10 n)) := by
    simp
  have ha : read? " AND ".toList = some [.and] := by decide
  have hn : (op.toList ++ '$' :: Nat.toDigits 10 n).head? = some ' ' := by
    rw [List.head?_append, hh, Option.some_or]
  have hb := read?_append ho (read?_placeholder n) (apart_of_getLast? hl)
  have hc := read?_append (read?_name c) hb (apart_of_head? (by rw [hn]; decide))
  rw [hs]
  exact read?_append ha hc (apart_of_getLast? (by decide))

end Token

namespace Test

/-- What a test is read as. -/
def condition (n : Nat) : Test → Condition
  | .equals column _ => .equals column n
  | .anyOf column _ => .anyOf column n
  | .contains column _ => .contains column n

def tokens (n : Nat) : Test → List Token
  | .equals column _ => [.column column, .equals, .placeholder n]
  | .anyOf column _ => [.column column, .equals, .any, .opening, .placeholder n, .closing]
  | .contains column _ => [.column column, .contains, .placeholder n]

lemma operand?_tokens (outer : List Condition.Level) (l : Condition.Level) (n : Nat) (t : Test)
    (ts : List Token) : Condition.operand? outer l (t.tokens n ++ ts) =
      Condition.operator? outer l.alternatives (.after .both l.conjuncts (t.condition n)) ts := by
  cases t <;> rfl

lemma read?_text (n : Nat) (t : Test) :
    Token.read? (" AND " ++ t.text n).toList = some (.and :: t.tokens n) := by
  cases t with
  | equals c s =>
    have ht : " AND " ++ (equals c s).text n = " AND " ++ c.name ++ " = " ++ "$" ++ Nat.repr n := by
      apply String.toList_inj.mp
      simp [text]
    have ho : Token.read? " = ".toList = some [.equals] := by decide
    rw [ht]
    exact Token.read?_bound c ho (by decide) (by decide) n
  | anyOf c ss =>
    have ht : " AND " ++ (anyOf c ss).text n =
        " AND " ++ c.name ++ " = ANY(" ++ "$" ++ Nat.repr n ++ ")" := by
      apply String.toList_inj.mp
      simp [text]
    have ho : Token.read? " = ANY(".toList = some [.equals, .any, .opening] := by decide
    have hc : Token.read? ")".toList = some [.closing] := by decide
    rw [ht, String.toList_append]
    exact Token.read?_append (Token.read?_bound c ho (by decide) (by decide) n) hc
      (Token.apart_of_head? (by decide))
  | contains c es =>
    have ht : " AND " ++ (contains c es).text n =
        " AND " ++ c.name ++ " @> " ++ "$" ++ Nat.repr n := by
      apply String.toList_inj.mp
      simp [text]
    have ho : Token.read? " @> ".toList = some [.contains] := by decide
    rw [ht]
    exact Token.read?_bound c ho (by decide) (by decide) n

end Test

namespace Condition

/-- The condition `c` and after it some tests, numbered from `n` on. -/
def conjunction (c : Condition) : Nat → List Test → Condition
  | _, [] => c
  | n, t :: ts => (both c (t.condition n)).conjunction (n + 1) ts

/-- One of some alternatives, the first of which are read. -/
def disjunction (read : Option Condition) : Nat → List Test → List (List Test) → Condition
  | n, ts, [] => after .either read (truth.conjunction n ts)
  | n, ts, us :: rest =>
    disjunction (some (after .either read (truth.conjunction n ts))) (n + ts.length) us rest

end Condition

namespace Token

def conjunction : Nat → List Test → List Token
  | _, [] => []
  | n, t :: ts => .and :: t.tokens n ++ conjunction (n + 1) ts

def alternative (n : Nat) (ts : List Test) : List Token :=
  .opening :: .truth :: (conjunction n ts ++ [.closing])

def disjunction : Nat → List Test → List (List Test) → List Token
  | n, ts, [] => alternative n ts
  | n, ts, us :: rest => alternative n ts ++ .or :: disjunction (n + ts.length) us rest

lemma apart_conjunction (s : List Char) (n : Nat) (ts : List Test) :
    Apart s (Sql.conjunction n ts).toList := by
  apply apart_of_head?
  cases ts with
  | nil => rfl
  | cons t ts => simp [Sql.conjunction, isBreak]

lemma read?_conjunction (n : Nat) (ts : List Test) :
    read? (Sql.conjunction n ts).toList = some (conjunction n ts) := by
  induction ts generalizing n with
  | nil => rfl
  | cons t ts ih =>
    rw [Sql.conjunction, String.toList_append]
    exact read?_append (t.read?_text n) (ih (n + 1)) (apart_conjunction _ _ _)

lemma read?_alternative (n : Nat) (ts : List Test) :
    read? ("(TRUE" ++ Sql.conjunction n ts ++ ")").toList = some (alternative n ts) := by
  have hf : read? ("(TRUE" ++ Sql.conjunction n ts).toList =
      some ([.opening, .truth] ++ conjunction n ts) := by
    rw [String.toList_append]
    exact read?_append (by decide) (read?_conjunction n ts) (apart_conjunction _ _ _)
  have hc : read? ")".toList = some [.closing] := by decide
  rw [String.toList_append]
  exact read?_append hf hc (apart_of_head? (by decide))

lemma read?_disjunction (n : Nat) (ts : List Test) (rest : List (List Test)) :
    read? (" OR ".intercalate (alternatives n (ts :: rest))).toList =
      some (disjunction n ts rest) := by
  induction rest generalizing n ts with
  | nil =>
    rw [alternatives, alternatives, String.intercalate_singleton]
    exact read?_alternative n ts
  | cons us rest ih =>
    have hf : read? (("(TRUE" ++ Sql.conjunction n ts ++ ")") ++ " OR ").toList =
        some (alternative n ts ++ [.or]) := by
      rw [String.toList_append]
      exact read?_append (read?_alternative n ts) (by decide) (apart_of_head? (by decide))
    have hb : (("(TRUE" ++ Sql.conjunction n ts ++ ")") ++ " OR ").toList.getLast? = some ' ' := by
      rw [String.toList_append]
      exact List.getLast?_append_of_ne_nil _ (by decide)
    rw [intercalate_alternatives, String.toList_append,
      read?_append hf (ih (n + ts.length) us) (apart_of_getLast? (by rw [hb]; decide))]
    simp [disjunction]

end Token

namespace Condition

lemma operator?_conjunction (outer : List Level) (a : Option Condition) (c : Condition) (n : Nat)
    (ts : List Test) (us : List Token) :
    operator? outer a c (Token.conjunction n ts ++ us) =
      operator? outer a (c.conjunction n ts) us := by
  induction ts generalizing c n with
  | nil => rfl
  | cons t ts ih =>
    rw [Token.conjunction, List.append_assoc, List.cons_append, operator?, t.operand?_tokens, ih]
    rfl

/-- A bracket is an operand. -/
lemma operand?_alternative (outer : List Level) (l : Level) (n : Nat) (ts : List Test)
    (us : List Token) : operand? outer l (Token.alternative n ts ++ us) =
      operator? outer l.alternatives (after .both l.conjuncts (truth.conjunction n ts)) us := by
  rw [Token.alternative, List.cons_append, List.cons_append, List.append_assoc, operand?, operand?,
    operator?_conjunction]
  rfl

lemma operand?_disjunction (a : Option Condition) (n : Nat) (ts : List Test)
    (rest : List (List Test)) :
    operand? [] ⟨a, none⟩ (Token.disjunction n ts rest) = some (disjunction a n ts rest) := by
  induction rest generalizing a n ts with
  | nil =>
    rw [Token.disjunction, ← List.append_nil (Token.alternative n ts), operand?_alternative]
    rfl
  | cons us rest ih =>
    rw [Token.disjunction, operand?_alternative, operator?, ih]
    rfl

/-- The text of a query is read as what it was made from. -/
lemma read?_whereText {q : Query} {ts : List Test} {rest : List (List Test)}
    (h : condition q = ts :: rest) : read? (whereText q) = some (disjunction none 1 ts rest) := by
  rw [read?, whereText, h, Token.read?_disjunction]
  exact operand?_disjunction none 1 ts rest

end Condition
end Federation.Sql
