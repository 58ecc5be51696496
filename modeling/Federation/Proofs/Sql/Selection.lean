import Federation.Proofs.Log.Numbering
import Federation.Proofs.Sql.Condition
import Mathlib.Data.List.Nodup
import Mathlib.Data.List.Perm.Basic

/-!
What a table of events answers, beside a log in memory. The condition of a query holds of the rows
that the query wants if containment of values takes the place of their equality: it misses nothing
that is wanted, and it selects no more where neither containers nor binary64s are compared.
-/
namespace Federation

namespace Alternative

/-- Has the payload a member that agrees with the one asked for? -/
def holdsBy (agree : Json → Json → Bool) (payload : Json) (entry : String × Json) : Bool :=
  match payload.get? entry.1 with
  | some v => agree v entry.2
  | none => false

/-- The events wanted, up to what it takes for values to agree. -/
def wantsBy (agree : Json → Json → Bool) (q : Alternative) (e : LogEntry) : Bool :=
  agrees q.instanceId e.stream.instanceId
    && agrees q.resourceOwner e.stream.resourceOwner
    && allows q.streamTypes e.stream.type
    && allows q.streamIds e.stream.id
    && allows q.eventTypes e.type
    && q.eventData.all (holdsBy agree e.payload)

variable {agree other : Json → Json → Bool} {q : Alternative} {e : LogEntry}

/-- Values that agree in one way need only agree in the other. -/
lemma wantsBy_mono (h : ∀ x ∈ q.eventData, ∀ v, e.payload.get? x.1 = some v →
      agree v x.2 = true → other v x.2 = true) (hw : q.wantsBy agree e = true) :
    q.wantsBy other e = true := by
  simp only [wantsBy, Bool.and_eq_true, List.all_eq_true] at hw ⊢
  refine ⟨hw.1, fun x hx => ?_⟩
  have hm := hw.2 x hx
  unfold holdsBy at hm ⊢
  split at hm
  · next v hv => exact h x hx v hv hm
  · contradiction

end Alternative

namespace Query

def wantsBy (agree : Json → Json → Bool) (q : Query) (e : LogEntry) : Bool :=
  q.alternatives.any fun item => item.wantsBy agree e

/-- No two containers and no binary64 are compared to tell whether the event is wanted. -/
def Flat (q : Query) (e : LogEntry) : Prop :=
  ∀ item ∈ q.alternatives, ∀ x ∈ item.eventData, ∀ v, e.payload.get? x.1 = some v → v.Flat x.2

variable {agree other : Json → Json → Bool} {q : Query} {e : LogEntry}

lemma wantsBy_same (q : Query) (e : LogEntry) : q.wantsBy Json.same e = q.wants e := rfl

lemma wantsBy_mono (h : ∀ item ∈ q.alternatives, ∀ x ∈ item.eventData, ∀ v,
      e.payload.get? x.1 = some v → agree v x.2 = true → other v x.2 = true)
    (hw : q.wantsBy agree e = true) : q.wantsBy other e = true := by
  obtain ⟨item, hi, hw⟩ := List.any_eq_true.mp hw
  exact List.any_eq_true.mpr ⟨item, hi, Alternative.wantsBy_mono (h item hi) hw⟩

lemma wantsBy_contains_of_wants (hd : e.payload.Distinct) (h : q.wants e = true) :
    q.wantsBy Json.contains e = true := by
  rw [← wantsBy_same] at h
  exact wantsBy_mono (fun _ _ _ _ _ hv => Json.contains_of_same (hd.get? hv)) h

lemma wantsBy_contains_of_flat (h : q.Flat e) : q.wantsBy Json.contains e = q.wants e := by
  have hc : ∀ item ∈ q.alternatives, ∀ x ∈ item.eventData, ∀ v, e.payload.get? x.1 = some v →
      v.contains x.2 = v.same x.2 := fun item hi x hx v hv =>
    Json.contains_of_flat (h item hi x hx v hv)
  rw [← wantsBy_same, Bool.eq_iff_iff]
  constructor
  · exact wantsBy_mono fun item hi x hx v hv hw => hc item hi x hx v hv ▸ hw
  · exact wantsBy_mono fun item hi x hx v hv hw => (hc item hi x hx v hv).symm ▸ hw

end Query

namespace Sql

namespace Column

/-- The text in a column of the event's row. -/
def text? (e : LogEntry) : Column → Option String
  | .instanceId => some e.stream.instanceId
  | .resourceOwner => some e.stream.resourceOwner
  | .streamType => some e.stream.type
  | .streamId => some e.stream.id
  | .eventType => some e.type
  | .payload => none

def document? (e : LogEntry) : Column → Option Json
  | .payload => some e.payload
  | _ => none

end Column

/-- Placeholders are numbered from one. -/
def bound? (ps : List Parameter) : Nat → Option Parameter
  | 0 => none
  | n + 1 => ps[n]?

/-- Does a condition hold of the event's row? It does neither where a column or a parameter is not
of the type that the operator takes. -/
def Condition.holds? (ps : List Parameter) (e : LogEntry) : Condition → Option Bool
  | .truth => some true
  | .equals c n =>
    match c.text? e, bound? ps n with
    | some s, some (.text w) => some (s == w)
    | _, _ => none
  | .anyOf c n =>
    match c.text? e, bound? ps n with
    | some s, some (.texts ws) => some (ws.contains s)
    | _, _ => none
  | .contains c n =>
    match c.document? e, bound? ps n with
    | some j, some (.document entries) => some (j.contains (.object entries))
    | _, _ => none
  | .both c d => do return (← c.holds? ps e) && (← d.holds? ps e)
  | .either c d => do return (← c.holds? ps e) || (← d.holds? ps e)

/-- The rows of which a condition holds. -/
def Condition.rows? (c : Condition) (ps : List Parameter) :
    List LogEntry → Option (List LogEntry)
  | [] => some []
  | e :: es => do
    let kept ← c.holds? ps e
    let rest ← c.rows? ps es
    return if kept then e :: rest else rest

/-- The rows that the statements of a query select. -/
def selected? (q : Query) (rows : List LogEntry) : Option (List LogEntry) := do
  (← Condition.read? (whereText q)).rows? (parameters q) rows

/-- The answer to a query from a table of some rows, in the order of positions. -/
def filter? (q : Query) (rows : List LogEntry) : Option (List LogEntry) :=
  if q.alternatives.isEmpty then some []
  else (selected? q rows).map (List.mergeSort · fun e f => e.position ≤ f.position)

/-- The highest sequence of the rows selected, or zero. -/
def latest? (q : Query) (rows : List LogEntry) : Option Nat :=
  if q.alternatives.isEmpty then some 0
  else (selected? q rows).map fun es => (es.map LogEntry.sequence).max?.getD 0

/-- The tests have their values at the placeholders from `n` on. -/
def Bound (ps : List Parameter) (n : Nat) (ts : List Test) : Prop :=
  ∀ i t, ts[i]? = some t → bound? ps (n + i) = some t.parameter

variable {ps : List Parameter} {e : LogEntry} {n : Nat} {t : Test} {ts us : List Test}

lemma Bound.cons (h : Bound ps n (t :: ts)) :
    bound? ps n = some t.parameter ∧ Bound ps (n + 1) ts := by
  refine ⟨h 0 t rfl, fun i u hu => ?_⟩
  rw [Nat.add_right_comm]
  exact h (i + 1) u hu

lemma Bound.append (h : Bound ps n (ts ++ us)) : Bound ps n ts ∧ Bound ps (n + ts.length) us := by
  constructor
  · intro i t ht
    have hi : i < ts.length := (List.getElem?_eq_some_iff.mp ht).1
    exact h i t (by rw [List.getElem?_append_left hi, ht])
  · intro i t ht
    rw [Nat.add_assoc]
    exact h _ t (by rw [List.getElem?_append_right (by omega), Nat.add_sub_cancel_left, ht])

lemma bound_map (ts : List Test) : Bound (ts.map Test.parameter) 1 ts := by
  intro i t ht
  rw [Nat.add_comm, bound?, List.getElem?_map, ht]
  rfl

namespace Test

/-- The test of the event's row, its value in the place of the placeholder. -/
def holds? (e : LogEntry) : Test → Option Bool
  | .equals c w => (c.text? e).map (· == w)
  | .anyOf c ws => (c.text? e).map ws.contains
  | .contains c entries => (c.document? e).map fun j => j.contains (.object entries)

lemma holds?_condition (h : bound? ps n = some t.parameter) :
    (t.condition n).holds? ps e = t.holds? e := by
  cases t with
  | equals c w =>
    cases hc : c.text? e <;> simp [condition, Condition.holds?, h, parameter, holds?, hc]
  | anyOf c ws =>
    cases hc : c.text? e <;> simp [condition, Condition.holds?, h, parameter, holds?, hc]
  | contains c entries =>
    cases hc : c.document? e <;> simp [condition, Condition.holds?, h, parameter, holds?, hc]

/-- Do all of some tests hold, and `b`? -/
def all? (e : LogEntry) (b : Bool) (ts : List Test) : Option Bool :=
  ts.foldlM (fun b t => (t.holds? e).map (b && ·)) b

lemma all?_append {b b' : Bool} (h : all? e b ts = some b') :
    all? e b (ts ++ us) = all? e b' us := by
  rw [all?, List.foldlM_append]
  exact congrArg (· >>= fun b => all? e b us) h

lemma all?_ofText {c : Column} {s : String} (hc : c.text? e = some s) (b : Bool)
    (wanted : Option String) :
    all? e b (ofText c wanted) = some (b && Alternative.agrees wanted s) := by
  cases wanted <;> simp [all?, ofText, holds?, hc, Alternative.agrees]

lemma all?_ofTexts {c : Column} {s : String} (hc : c.text? e = some s) (b : Bool)
    (wanted : List String) :
    all? e b (ofTexts c wanted) = some (b && Alternative.allows wanted s) := by
  cases wanted <;> simp [all?, ofTexts, holds?, hc, Alternative.allows]

lemma all?_ofEntries (b : Bool) (entries : Entries) :
    all? e b (ofEntries .payload entries) =
      some (b && entries.all (Alternative.holdsBy Json.contains e.payload)) := by
  cases entries with
  | nil => simp [all?, ofEntries]
  | cons x entries =>
    simp only [all?, ofEntries, List.isEmpty_cons, Bool.false_eq_true, if_false, List.foldlM_cons,
      List.foldlM_nil, holds?, Column.document?, Option.map_some,
      Json.contains_object (List.cons_ne_nil x entries)]
    rfl

/-- The tests of an alternative hold of the events that it wants by containment. -/
lemma all?_tests (q : Alternative) (e : LogEntry) :
    all? e true (tests q) = some (q.wantsBy Json.contains e) := by
  unfold tests
  simp only [List.append_assoc]
  rw [all?_append (all?_ofText rfl true _), all?_append (all?_ofText rfl _ _),
    all?_append (all?_ofTexts rfl _ _), all?_append (all?_ofTexts rfl _ _),
    all?_append (all?_ofTexts rfl _ _), all?_ofEntries]
  rfl

end Test

namespace Condition

lemma holds?_conjunction {c : Condition} {b b' : Bool} (hc : c.holds? ps e = some b)
    (hb : Bound ps n ts) (ht : Test.all? e b ts = some b') :
    (c.conjunction n ts).holds? ps e = some b' := by
  induction ts generalizing c b n with
  | nil => exact hc.trans ht
  | cons t ts ih =>
    obtain ⟨hp, hb⟩ := hb.cons
    obtain ⟨d, hd, ht⟩ := Option.bind_eq_some_iff.mp ht
    refine ih ?_ hb ht
    rw [holds?, hc, t.holds?_condition hp]
    obtain ⟨a, ha, rfl⟩ := Option.map_eq_some_iff.mp hd
    rw [ha]
    rfl

/-- What was read so far counts as `b`. -/
lemma holds?_disjunction {read : Option Condition} {b : Bool}
    (hr : ∀ c a, c.holds? ps e = some a → (after .either read c).holds? ps e = some (b || a))
    (q : Alternative) (qs : List Alternative)
    (hb : Bound ps n (tests q ++ (qs.map tests).flatten)) :
    (disjunction read n (tests q) (qs.map tests)).holds? ps e =
      some (b || (q :: qs).any fun item => item.wantsBy Json.contains e) := by
  induction qs generalizing read b n q with
  | nil =>
    have hq := holds?_conjunction (c := .truth) rfl hb.append.1 (Test.all?_tests q e)
    simpa [disjunction] using hr _ _ hq
  | cons r qs ih =>
    obtain ⟨hb, hbs⟩ := hb.append
    have hq := holds?_conjunction (c := .truth) rfl hb (Test.all?_tests q e)
    have hr' : ∀ c a, c.holds? ps e = some a →
        (after .either (some (after .either read (truth.conjunction n (tests q)))) c).holds? ps e =
          some ((b || q.wantsBy Json.contains e) || a) := by
      intro c a hc
      rw [after, holds?, hr _ _ hq, hc]
      rfl
    rw [List.map_cons, disjunction, ih hr' r hbs, Bool.or_assoc]
    rfl

/-- The condition of a query holds of the rows that the query wants by containment. -/
lemma holds?_whereText {q : Query} (hq : q.alternatives ≠ []) :
    ∃ c, read? (whereText q) = some c ∧
      ∀ e, c.holds? (parameters q) e = some (q.wantsBy Json.contains e) := by
  obtain ⟨item, items, hi⟩ := List.exists_cons_of_ne_nil hq
  have hc : condition q = tests item :: items.map tests := by rw [condition, hi, List.map_cons]
  refine ⟨_, read?_whereText hc, fun e => ?_⟩
  have hb : Bound (parameters q) 1 (tests item ++ (items.map tests).flatten) := by
    rw [parameters, hc]
    exact bound_map _
  rw [holds?_disjunction (b := false) (fun c a hc => by simpa [after] using hc) item items hb,
    Query.wantsBy, hi, Bool.false_or]

lemma rows?_eq {c : Condition} {p : LogEntry → Bool} (h : ∀ e, c.holds? ps e = some (p e))
    (rows : List LogEntry) : c.rows? ps rows = some (rows.filter p) := by
  induction rows with
  | nil => rfl
  | cons e rows ih =>
    rw [rows?, h, ih, List.filter_cons]
    rfl

end Condition

section Answers

variable {rows es : List LogEntry}

/-- Events in the order of their positions are what rows are sorted to. -/
lemma mergeSort_eq (hr : rows.Perm es) (hp : es.Pairwise fun e f => e.position < f.position) :
    rows.mergeSort (fun e f => e.position ≤ f.position) = es := by
  have hs : (rows.mergeSort fun e f => e.position ≤ f.position).Pairwise
      fun e f => e.position ≤ f.position := by
    have h : (rows.mergeSort fun e f => e.position ≤ f.position).Pairwise
        fun e f => decide (e.position ≤ f.position) = true :=
      List.pairwise_mergeSort (fun _ _ _ => by simpa using Nat.le_trans)
        (fun _ _ => by simpa using Nat.le_total _ _) rows
    simpa using h
  have hm := (List.mergeSort_perm rows fun e f => e.position ≤ f.position).trans hr
  refine hm.eq_of_pairwise (fun e f he hf hef hfe => ?_) hs (hp.imp Nat.le_of_lt)
  have hn : (es.map LogEntry.position).Nodup := List.pairwise_map.mpr (hp.imp Nat.ne_of_lt)
  exact List.inj_on_of_nodup_map hn (hm.mem_iff.mp he) hf (by omega)

lemma wantsBy_of_isEmpty {agree : Json → Json → Bool} {q : Query}
    (h : q.alternatives.isEmpty = true) : q.wantsBy agree = fun _ => false := by
  have hn : q.alternatives = [] := by simpa using h
  funext e
  rw [Query.wantsBy, hn, List.any_nil]

lemma selected?_eq {q : Query} (h : ¬ q.alternatives.isEmpty = true) (rows : List LogEntry) :
    selected? q rows = some (rows.filter (q.wantsBy Json.contains)) := by
  obtain ⟨c, hc, hh⟩ := Condition.holds?_whereText (q := q) (by simpa using h)
  rw [selected?, hc]
  exact Condition.rows?_eq hh rows

lemma filter?_eq (q : Query) (hr : rows.Perm es)
    (hp : es.Pairwise fun e f => e.position < f.position) :
    filter? q rows = some (es.filter (q.wantsBy Json.contains)) := by
  unfold filter?
  split
  · next h =>
    rw [wantsBy_of_isEmpty h]
    simp
  · next h =>
    rw [selected?_eq h, Option.map_some, mergeSort_eq (hr.filter _) (hp.filter _)]

lemma latest?_eq (q : Query) (hr : rows.Perm es) :
    latest? q rows = some ((es.filter (q.wantsBy Json.contains)).foldl
      (fun m e => max m e.sequence) 0) := by
  unfold latest?
  split
  · next h =>
    rw [wantsBy_of_isEmpty h]
    simp
  · next h =>
    have hp := (hr.filter (q.wantsBy Json.contains)).map LogEntry.sequence
    rw [selected?_eq h, Option.map_some, ← List.foldl_map, ← hp.foldl_eq, List.foldl_max,
      Nat.zero_max]

end Answers

/-- A query without alternatives is answered without a statement. The statements of any other state
one condition, and it holds of the events wanted up to containment. -/
theorem table_answers (table : String) (q : Query) {rows : List LogEntry} {log : Log}
    (ha : log.available = true) (hr : rows.Perm log.events)
    (hp : log.events.Pairwise fun e f => e.position < f.position) :
    (q.alternatives ≠ [] → ∃ w c,
      selectEvents table q =
        "SELECT " ++ columns ++ " FROM " ++ table ++ " WHERE " ++ w ++ " ORDER BY position" ∧
      selectLatest table q = "SELECT COALESCE(MAX(sequence), 0) FROM " ++ table ++ " WHERE " ++ w ∧
      Condition.read? w = some c ∧
      ∀ e, c.holds? (parameters q) e = some (q.wantsBy Json.contains e) ∧
        (q.Flat e → c.holds? (parameters q) e = some (q.wants e)) ∧
        (e.payload.Distinct → q.wants e = true → c.holds? (parameters q) e = some true)) ∧
    filter? q rows = some (log.events.filter (q.wantsBy Json.contains)) ∧
    ((∀ e ∈ log.events, q.Flat e) →
      (filter? q rows).map .ok = some (log.filter q) ∧
      (latest? q rows).map .ok = some (log.latest q)) := by
  refine ⟨fun hq => ?_, filter?_eq q hr hp, fun hf => ?_⟩
  · obtain ⟨c, hc, hh⟩ := Condition.holds?_whereText hq
    refine ⟨whereText q, c, rfl, rfl, hc, fun e => ⟨hh e, fun hf => ?_, fun hd hw => ?_⟩⟩
    · rw [hh, Query.wantsBy_contains_of_flat hf]
    · rw [hh, Query.wantsBy_contains_of_wants hd hw]
  · have hs : log.events.filter (q.wantsBy Json.contains) = q.select log.events :=
      List.filter_congr fun e he => Query.wantsBy_contains_of_flat (hf e he)
    rw [filter?_eq q hr hp, latest?_eq q hr, hs, Log.filter_eq ha, Log.latest_eq ha]
    exact ⟨rfl, rfl⟩

namespace Rows

/-- A query for the events whose payload has a member `data` of some value. -/
def asking (v : Json) : Query := ⟨[{ eventData := [("data", v)] }]⟩

def holding (position : Nat) (v : Json) : LogEntry where
  id := ⟨0⟩
  position := position
  stream := ⟨"idp-1", "instance", "org", "instance-1"⟩
  sequence := position
  type := "idp.oauth.added"
  payload := .object [("data", v)]
  creator := "editor"
  createdAt := ⟨0, 0⟩

/-- Does the statement for one value select the row of another? -/
def selects (asked held : Json) : Option Bool := do
  (← Condition.read? (whereText (asking asked))).holds? (parameters (asking asked)) (holding 1 held)

def wants (asked held : Json) : Bool := (asking asked).wants (holding 1 held)

end Rows

open Rows in
theorem table_answers_number :
    filter? (asking (.whole 3)) [holding 2 (.whole 3), holding 1 (.string "3")] =
        some [holding 2 (.whole 3)] ∧
      latest? (asking (.whole 3)) [holding 2 (.whole 3), holding 1 (.string "3")] = some 2 ∧
      ∃ w c, selectLatest "events" (asking (.whole 3)) =
          "SELECT COALESCE(MAX(sequence), 0) FROM events WHERE " ++ w ∧
        Condition.read? w = some c ∧
        c.holds? (parameters (asking (.whole 3))) (holding 2 (.whole 3)) = some true ∧
        c.holds? (parameters (asking (.whole 3))) (holding 1 (.string "3")) = some false := by
  have hf : ∀ n, (asking (.whole 3)).Flat (holding n (.whole 3)) ∧
      (asking (.whole 3)).Flat (holding n (.string "3")) := by
    simp [Query.Flat, asking, holding, Json.get?, Json.Flat, Json.whole]
  obtain ⟨hq, -, hl⟩ := @table_answers "events" (asking (.whole 3))
    [holding 2 (.whole 3), holding 1 (.string "3")]
    { events := [holding 1 (.string "3"), holding 2 (.whole 3)] } rfl (.swap _ _ _) (by decide)
  obtain ⟨w, c, -, ht, hc, hh⟩ := hq (by decide)
  obtain ⟨hs, hn⟩ := hl (by simp [hf])
  refine ⟨?_, ?_, w, c, ht, hc, (hh _).2.1 (hf 2).1, (hh _).2.1 (hf 1).2⟩
  · obtain ⟨es, he, hs⟩ := Option.map_eq_some_iff.mp hs
    rw [he, Except.ok.inj hs]
    rfl
  · obtain ⟨n, he, hn⟩ := Option.map_eq_some_iff.mp hn
    rw [he, Except.ok.inj hn]
    rfl

open Rows in
/-- Further members, further items and another way to write a number do no harm to containment. -/
theorem more_selected_than_wanted :
    (selects (.object [("b", .whole 1)]) (.object [("b", .whole 1), ("c", .whole 2)]) = some true ∧
      wants (.object [("b", .whole 1)]) (.object [("b", .whole 1), ("c", .whole 2)]) = false) ∧
    (selects (.strings ["x"]) (.strings ["x", "y"]) = some true ∧
      wants (.strings ["x"]) (.strings ["x", "y"]) = false) ∧
    (selects (.number (.real 0x3FF0000000000000)) (.whole 1) = some true ∧
      wants (.number (.real 0x3FF0000000000000)) (.whole 1) = false) := by
  decide +kernel

end Sql
end Federation
