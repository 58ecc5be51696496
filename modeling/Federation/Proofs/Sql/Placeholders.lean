import Federation.Proofs.Sql.Condition
import Mathlib.Data.List.TakeWhile

/-!
Values in statements. A statement is built by writing pieces of text and binding values, in any
order; to bind a value is to write the next placeholder. The text of a query is built so that it
tells which filters the query has, and nothing of their values.
-/
namespace Federation.Sql

namespace Column

/-- The columns in the order of their filters. -/
def order : List Column :=
  [.instanceId, .resourceOwner, .streamType, .streamId, .eventType, .payload]

/-- The test of a column for a value. -/
def test (c : Column) : Parameter → Test
  | .text s => .equals c s
  | .texts ss => .anyOf c ss
  | .document entries => .contains c entries

/-- What the filter of a column writes before its placeholder. -/
def lead (c : Column) : String :=
  match c with
  | .instanceId | .resourceOwner => " AND " ++ c.name ++ " = "
  | .streamType | .streamId | .eventType => " AND " ++ c.name ++ " = ANY("
  | .payload => " AND " ++ c.name ++ " @> "

/-- What it writes behind its placeholder. -/
def closing : Column → String
  | .streamType | .streamId | .eventType => ")"
  | _ => ""

@[simp] lemma parameter_test (c : Column) (p : Parameter) : (c.test p).parameter = p := by
  cases p <;> rfl

end Column

/-- The value that a filter asks of a column, if there is such a filter. -/
def asked? (q : Alternative) : Column → Option Parameter
  | .instanceId => q.instanceId.map .text
  | .resourceOwner => q.resourceOwner.map .text
  | .streamType => if q.streamTypes.isEmpty then none else some (.texts q.streamTypes)
  | .streamId => if q.streamIds.isEmpty then none else some (.texts q.streamIds)
  | .eventType => if q.eventTypes.isEmpty then none else some (.texts q.eventTypes)
  | .payload => if q.eventData.isEmpty then none else some (.document q.eventData)

/-- Which filters there are. -/
def shape (q : Alternative) (c : Column) : Bool := (asked? q c).isSome

/-- The test of a column, if there is such a filter. -/
def testsOn (q : Alternative) (c : Column) : List Test := ((asked? q c).map c.test).toList

lemma testsOn_text (c : Column) (s : Option String) :
    ((s.map Parameter.text).map c.test).toList = Test.ofText c s := by
  cases s <;> rfl

lemma testsOn_texts (c : Column) (ss : List String) :
    ((if ss.isEmpty then none else some (Parameter.texts ss)).map c.test).toList =
      Test.ofTexts c ss := by
  cases ss <;> rfl

lemma testsOn_entries (c : Column) (entries : Entries) :
    ((if entries.isEmpty then none else some (Parameter.document entries)).map c.test).toList =
      Test.ofEntries c entries := by
  cases entries <;> rfl

/-- The tests of an alternative are those of its columns. -/
lemma tests_eq (q : Alternative) : tests q = Column.order.flatMap (testsOn q) := by
  simp only [tests, Column.order, testsOn, asked?, List.flatMap_cons, List.flatMap_nil,
    testsOn_text, testsOn_texts, testsOn_entries, List.append_assoc, List.append_nil]

lemma parameters_testsOn (q : Alternative) (cs : List Column) :
    (cs.flatMap (testsOn q)).map Test.parameter = cs.filterMap (asked? q) := by
  induction cs with
  | nil => rfl
  | cons c cs ih =>
    rw [List.flatMap_cons, List.map_append, ih, List.filterMap_cons, testsOn]
    cases asked? q c <;> simp

/-- The values of the filters of a query, in their order. -/
def present (q : Query) : List Parameter :=
  q.alternatives.flatMap fun a => Column.order.filterMap (asked? a)

lemma parameters_eq (q : Query) : parameters q = present q := by
  rw [parameters, condition, ← List.flatMap_def, List.map_flatMap, present]
  simp only [tests_eq, parameters_testsOn]

/-- What is written of a filter is the text of its test. -/
lemma text_test {q : Alternative} {c : Column} {p : Parameter} (h : asked? q c = some p) (n : Nat) :
    " AND " ++ (c.test p).text n = c.lead ++ "$" ++ Nat.repr n ++ c.closing := by
  cases c with
  | instanceId | resourceOwner =>
    obtain ⟨s, -, rfl⟩ := Option.map_eq_some_iff.mp h
    simp [Column.test, Test.text, Column.lead, Column.closing, String.append_assoc]
  | _ =>
    simp only [asked?] at h
    split at h
    · cases h
    · cases h
      simp [Column.test, Test.text, Column.lead, Column.closing, String.append_assoc]

lemma conjunction_append (n : Nat) (ts us : List Test) :
    conjunction n (ts ++ us) = conjunction n ts ++ conjunction (n + ts.length) us := by
  induction ts generalizing n with
  | nil => exact String.empty_append.symm
  | cons t ts ih =>
    simp only [List.cons_append, conjunction, ih, List.length_cons, String.append_assoc]
    rw [Nat.add_right_comm, Nat.add_assoc]

/-- A text under construction, and the values bound in it. -/
structure Statement where
  text : String
  parameters : List Parameter := []

namespace Statement

def push (s : Statement) (t : String) : Statement := { s with text := s.text ++ t }

/-- Binds a value to the next placeholder. -/
def bind (s : Statement) (p : Parameter) : Statement :=
  ⟨s.text ++ "$" ++ Nat.repr (s.parameters.length + 1), s.parameters ++ [p]⟩

def filter (q : Alternative) (s : Statement) (c : Column) : Statement :=
  match asked? q c with
  | none => s
  | some p => ((s.push c.lead).bind p).push c.closing

def item (s : Statement) (q : Alternative) : Statement :=
  (Column.order.foldl (filter q) ((s.push "(").push "TRUE")).push ")"

def disjunction (s : Statement) : List Alternative → Statement
  | [] => s
  | [q] => s.item q
  | q :: r :: rest => ((s.item q).push " OR ").disjunction (r :: rest)

def events (table : String) (q : Query) : Statement :=
  (disjunction ⟨"SELECT " ++ columns ++ " FROM " ++ table ++ " WHERE ", []⟩ q.alternatives).push
    " ORDER BY position"

def latest (table : String) (q : Query) : Statement :=
  disjunction ⟨"SELECT COALESCE(MAX(sequence), 0) FROM " ++ table ++ " WHERE ", []⟩ q.alternatives

variable {s t : Statement} {q r : Alternative}

lemma filter_eq (q : Alternative) (s : Statement) (c : Column) : filter q s c =
    ⟨s.text ++ conjunction (s.parameters.length + 1) (testsOn q c),
      s.parameters ++ (testsOn q c).map Test.parameter⟩ := by
  unfold filter testsOn
  cases h : asked? q c with
  | none => simp [conjunction]
  | some p => simp [conjunction, push, bind, text_test h, String.append_assoc]

lemma foldl_filter (q : Alternative) (s : Statement) (cs : List Column) :
    cs.foldl (filter q) s =
      ⟨s.text ++ conjunction (s.parameters.length + 1) (cs.flatMap (testsOn q)),
        s.parameters ++ (cs.flatMap (testsOn q)).map Test.parameter⟩ := by
  induction cs generalizing s with
  | nil => simp [conjunction]
  | cons c cs ih =>
    rw [List.foldl_cons, ih, filter_eq, List.flatMap_cons, conjunction_append]
    simp [String.append_assoc, Nat.add_right_comm]

lemma item_eq (s : Statement) (q : Alternative) : s.item q =
    ⟨s.text ++ ("(TRUE" ++ conjunction (s.parameters.length + 1) (tests q) ++ ")"),
      s.parameters ++ (tests q).map Test.parameter⟩ := by
  rw [item, foldl_filter, ← tests_eq]
  simp [push, String.append_assoc]

/-- What is built is the text of a query with its values. -/
lemma disjunction_eq (s : Statement) (qs : List Alternative) : s.disjunction qs =
    ⟨s.text ++ " OR ".intercalate (alternatives (s.parameters.length + 1) (qs.map tests)),
      s.parameters ++ (qs.map tests).flatten.map Test.parameter⟩ := by
  induction qs generalizing s with
  | nil => simp [disjunction, alternatives]
  | cons q qs ih =>
    cases qs with
    | nil => simp [disjunction, item_eq, alternatives]
    | cons r rest =>
      simp only [disjunction, ih, item_eq, List.map_cons, intercalate_alternatives]
      simp [push, String.append_assoc, Nat.add_right_comm]

lemma events_eq (table : String) (q : Query) :
    events table q = ⟨selectEvents table q, Sql.parameters q⟩ :=
  congrArg (push · " ORDER BY position") (disjunction_eq _ q.alternatives)

lemma latest_eq (table : String) (q : Query) :
    latest table q = ⟨selectLatest table q, Sql.parameters q⟩ :=
  disjunction_eq _ q.alternatives

/-- Two statements that differ at most in their values. -/
structure Alike (s t : Statement) : Prop where
  text : s.text = t.text
  count : s.parameters.length = t.parameters.length

namespace Alike

lemma push (h : s.Alike t) (text : String) : (s.push text).Alike (t.push text) :=
  ⟨congrArg (· ++ text) h.text, h.count⟩

lemma bind (h : s.Alike t) (p p' : Parameter) : (s.bind p).Alike (t.bind p') := by
  refine ⟨?_, by simp [Statement.bind, h.count]⟩
  rw [Statement.bind, Statement.bind, h.text, h.count]

lemma filter (h : s.Alike t) {c : Column} (hc : shape q c = shape r c) :
    (Statement.filter q s c).Alike (Statement.filter r t c) := by
  unfold Statement.filter
  unfold shape at hc
  cases hq : asked? q c <;> cases hr : asked? r c <;> rw [hq, hr] at hc
  · exact h
  · cases hc
  · cases hc
  · exact ((h.push _).bind _ _).push _

lemma foldl_filter (h : s.Alike t) (hc : ∀ c, shape q c = shape r c) (cs : List Column) :
    (cs.foldl (Statement.filter q) s).Alike (cs.foldl (Statement.filter r) t) := by
  induction cs generalizing s t with
  | nil => exact h
  | cons c cs ih => exact ih (h.filter (hc c))

lemma item (h : s.Alike t) (hc : ∀ c, shape q c = shape r c) : (s.item q).Alike (t.item r) :=
  (foldl_filter ((h.push _).push _) hc _).push _

lemma disjunction (h : s.Alike t) {qs rs : List Alternative} (hs : qs.map shape = rs.map shape) :
    (s.disjunction qs).Alike (t.disjunction rs) := by
  induction qs generalizing s t rs with
  | nil =>
    rw [List.map_eq_nil_iff.mp hs.symm]
    exact h
  | cons q qs ih =>
    cases rs with
    | nil => cases hs
    | cons r rs =>
      obtain ⟨hq, hs⟩ := List.cons.inj hs
      have hi := h.item (congrFun hq)
      -- both end here, or both go on with OR
      cases qs <;> cases rs
      · exact hi
      · cases hs
      · cases hs
      · exact ih (hi.push _) hs

end Alike
end Statement

/-- The numbers of the placeholders in a text, as they are written. -/
def placeholders : List Char → List (List Char)
  | [] => []
  | c :: cs => if c = '$' then cs.takeWhile Char.isDigit :: placeholders cs else placeholders cs

/-- Is the text without placeholders, and does it not go on with the number of one? -/
def isPlain (t : String) : Bool := !t.toList.contains '$' && !t.toList.head?.any Char.isDigit

lemma not_mem_of_isPlain {t : String} (h : isPlain t = true) : '$' ∉ t.toList := by
  simpa using (Bool.and_eq_true_iff.mp h).1

lemma isDigit_of_isPlain {t : String} (h : isPlain t = true) :
    ∀ c ∈ t.toList.head?, c.isDigit = false := by
  intro c hc
  have hd := (Bool.and_eq_true_iff.mp h).2
  rw [Option.mem_def.mp hc] at hd
  simpa using hd

lemma placeholders_of_not_mem {cs : List Char} (h : '$' ∉ cs) : placeholders cs = [] := by
  induction cs with
  | nil => rfl
  | cons c cs ih =>
    obtain ⟨hc, hcs⟩ := not_or.mp (mt List.mem_cons.mpr h)
    rw [placeholders, if_neg (Ne.symm hc), ih hcs]

lemma takeWhile_isDigit_append {cs ds : List Char} (h : ∀ c ∈ ds.head?, c.isDigit = false) :
    (cs ++ ds).takeWhile Char.isDigit = cs.takeWhile Char.isDigit := by
  induction cs with
  | nil =>
    cases ds with
    | nil => rfl
    | cons d ds => exact List.takeWhile_cons_of_neg (by simp [h d rfl])
  | cons c cs ih => simp only [List.cons_append, List.takeWhile_cons, ih]

lemma placeholders_append {cs ds : List Char} (h : ∀ c ∈ ds.head?, c.isDigit = false) :
    placeholders (cs ++ ds) = placeholders cs ++ placeholders ds := by
  induction cs with
  | nil => rfl
  | cons c cs ih =>
    simp only [List.cons_append, placeholders, takeWhile_isDigit_append h, ih]
    split <;> rfl

lemma placeholders_placeholder (n : Nat) :
    placeholders ('$' :: Nat.toDigits 10 n) = [Nat.toDigits 10 n] := by
  have hd : ∀ c ∈ Nat.toDigits 10 n, c.isDigit = true := fun c hc =>
    Nat.isDigit_of_mem_toDigits (by decide) (by decide) hc
  have hn : '$' ∉ Nat.toDigits 10 n := fun h => Bool.false_ne_true (hd _ h)
  rw [placeholders, if_pos rfl, placeholders_of_not_mem hn, List.takeWhile_eq_self_iff.mpr hd]

namespace Column

lemma isPlain_lead (c : Column) : isPlain c.lead = true := by cases c <;> decide

lemma isPlain_closing (c : Column) : isPlain c.closing = true := by cases c <;> decide

end Column

namespace Statement

variable {s : Statement}

/-- The placeholders count up from one, and each has a value. -/
def Counted (s : Statement) : Prop :=
  placeholders s.text.toList = (List.range' 1 s.parameters.length).map (Nat.toDigits 10)

namespace Counted

lemma start {text : String} (h : '$' ∉ text.toList) : Counted ⟨text, []⟩ :=
  placeholders_of_not_mem h

lemma push (h : s.Counted) {t : String} (ht : isPlain t = true) : (s.push t).Counted := by
  rw [Counted, Statement.push, String.toList_append, placeholders_append (isDigit_of_isPlain ht),
    placeholders_of_not_mem (not_mem_of_isPlain ht), List.append_nil]
  exact h

lemma bind (h : s.Counted) (p : Parameter) : (s.bind p).Counted := by
  have ht : (s.bind p).text.toList =
      s.text.toList ++ '$' :: Nat.toDigits 10 (s.parameters.length + 1) := by
    simp [Statement.bind]
  rw [Counted, ht, placeholders_append (by simp), h, placeholders_placeholder]
  simp [Statement.bind, List.range'_concat, Nat.add_comm]

lemma filter (h : s.Counted) (q : Alternative) (c : Column) : (Statement.filter q s c).Counted := by
  unfold Statement.filter
  split
  · exact h
  · exact ((h.push c.isPlain_lead).bind _).push c.isPlain_closing

lemma foldl_filter (h : s.Counted) (q : Alternative) (cs : List Column) :
    (cs.foldl (Statement.filter q) s).Counted := by
  induction cs generalizing s with
  | nil => exact h
  | cons c cs ih => exact ih (h.filter q c)

lemma item (h : s.Counted) (q : Alternative) : (s.item q).Counted :=
  (foldl_filter ((h.push (by decide)).push (by decide)) q _).push (by decide)

lemma disjunction (h : s.Counted) (qs : List Alternative) : (s.disjunction qs).Counted := by
  induction qs generalizing s with
  | nil => exact h
  | cons q qs ih =>
    cases qs with
    | nil => exact h.item q
    | cons r rest => exact ih ((h.item q).push (by decide))

end Counted
end Statement

/-- Two queries with the same filters, whatever these ask for, have the same texts. In a text the
placeholders count up from one, in their order, to the number of the filters, and their values are
those that the filters ask for, in the order of the filters. Each value is bound where its
placeholder is written. -/
theorem values_bound {table : String} (ht : '$' ∉ table.toList) (q : Query) :
    (∀ r : Query, q.alternatives.map shape = r.alternatives.map shape →
      selectEvents table q = selectEvents table r ∧ selectLatest table q = selectLatest table r) ∧
    placeholders (selectEvents table q).toList =
      (List.range' 1 (present q).length).map (Nat.toDigits 10) ∧
    placeholders (selectLatest table q).toList =
      (List.range' 1 (present q).length).map (Nat.toDigits 10) ∧
    parameters q = present q ∧
    Statement.events table q = ⟨selectEvents table q, parameters q⟩ ∧
    Statement.latest table q = ⟨selectLatest table q, parameters q⟩ := by
  have he : '$' ∉ ("SELECT " ++ columns ++ " FROM " ++ table ++ " WHERE ").toList := by
    have hc : '$' ∉ columns.toList := not_mem_of_isPlain (by decide +kernel)
    simp [ht, hc]
  have hl : '$' ∉ ("SELECT COALESCE(MAX(sequence), 0) FROM " ++ table ++ " WHERE ").toList := by
    simp [ht]
  have hevents : (Statement.events table q).Counted :=
    ((Statement.Counted.start he).disjunction _).push (by decide)
  have hlatest : (Statement.latest table q).Counted := (Statement.Counted.start hl).disjunction _
  rw [Statement.Counted, Statement.events_eq, parameters_eq] at hevents
  rw [Statement.Counted, Statement.latest_eq, parameters_eq] at hlatest
  refine ⟨fun r hr => ⟨?_, ?_⟩, hevents, hlatest, parameters_eq q, Statement.events_eq table q,
    Statement.latest_eq table q⟩
  · have ha : (Statement.events table q).Alike (Statement.events table r) :=
      (Statement.Alike.disjunction ⟨rfl, rfl⟩ hr).push _
    rw [Statement.events_eq, Statement.events_eq] at ha
    exact ha.text
  · have ha : (Statement.latest table q).Alike (Statement.latest table r) :=
      Statement.Alike.disjunction ⟨rfl, rfl⟩ hr
    rw [Statement.latest_eq, Statement.latest_eq] at ha
    exact ha.text

/-- The events of a stream, or all events of an owner. -/
def Statement.sample (id owner : String) : Query :=
  ⟨[{ streamIds := [id] }, { resourceOwner := some owner }]⟩

/-- A value that looks like a part of a statement makes no difference to its text. -/
theorem values_bound_sample :
    '$' ∉ "events".toList ∧
    selectEvents "events" (Statement.sample "id" "owner") =
      selectEvents "events" (Statement.sample "$2) OR (TRUE" "$1") ∧
    placeholders (selectEvents "events" (Statement.sample "id" "owner")).toList =
      [['1'], ['2']] := by
  have ht : '$' ∉ "events".toList := not_mem_of_isPlain (by decide)
  have hs : (Statement.sample "id" "owner").alternatives.map shape =
      (Statement.sample "$2) OR (TRUE" "$1").alternatives.map shape := by
    refine congrArg₂ List.cons ?_ (congrArg₂ List.cons ?_ rfl) <;> funext c <;> cases c <;> rfl
  obtain ⟨htext, hplaces, -⟩ := values_bound ht (Statement.sample "id" "owner")
  exact ⟨ht, (htext _ hs).1, hplaces⟩

end Federation.Sql
