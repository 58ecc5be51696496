import Federation.Proofs.Log.Numbering

/-!
Whole runs of calls on a log, and what holds of the log after every one of them: how its events are
numbered, which pushes go through, what a push that is refused leaves behind, and what readers see.
-/
namespace Federation

/-- A call on a log; its reach can be switched off and on between calls. -/
inductive Call where
  | push (stamp : Stamp) (p : Batch)
  | filter (q : Query)
  | latest (q : Query)
  | switch (available : Bool)

inductive Reply where
  | pushed (r : Except LogError (List LogEntry))
  | found (r : Except LogError (List LogEntry))
  | latest (r : Except LogError Nat)
  | switched

namespace Log

def call (log : Log) : Call → Reply × Log
  | .push stamp p =>
    match log.push stamp p with
    | .ok (stored, later) => (.pushed (.ok stored), later)
    | .error e => (.pushed (.error e), log)
  | .filter q => (.found (log.filter q), log)
  | .latest q => (.latest (log.latest q), log)
  | .switch available => (.switched, { log with available := available })

/-- The replies to calls made one after another, and the log after them. -/
def calls : Log → List Call → List Reply × Log
  | log, [] => ([], log)
  | log, c :: cs =>
    let (reply, later) := log.call c
    let (replies, last) := later.calls cs
    (reply :: replies, last)

lemma calls_append (log : Log) (cs ds : List Call) :
    log.calls (cs ++ ds) =
      ((log.calls cs).1 ++ ((log.calls cs).2.calls ds).1, ((log.calls cs).2.calls ds).2) := by
  induction cs generalizing log with
  | nil => rfl
  | cons c cs ih => simp only [List.cons_append, calls, ih]

lemma length_replies (log : Log) (cs : List Call) : (log.calls cs).1.length = cs.length := by
  induction cs generalizing log with
  | nil => rfl
  | cons c cs ih => simp [calls, ih]

lemma Sound.push {log later : Log} {stamp : Stamp} {p : Batch} {stored : List LogEntry}
    (h : log.Sound) (hp : log.push stamp p = .ok (stored, later)) : later.Sound := by
  obtain ⟨-, -, hs, he, -⟩ := push_eq_ok_iff.mp hp
  have hn := store_numbered stamp p.creator p.events [] (by rwa [List.append_nil])
  rwa [hs, ← he] at hn

lemma Sound.call {log : Log} (h : log.Sound) (c : Call) : (log.call c).2.Sound := by
  cases c with
  | push stamp p =>
    simp only [Log.call]
    split
    · next hp => exact h.push hp
    · exact h
  | filter q => exact h
  | latest q => exact h
  | switch available => exact h

/-- The numbering outlasts every run. -/
lemma Sound.calls {log : Log} (h : log.Sound) (cs : List Call) : (log.calls cs).2.Sound := by
  induction cs generalizing log with
  | nil => exact h
  | cons c cs ih => exact ih (h.call c)

lemma call_of_refused {log : Log} {stamp : Stamp} {p : Batch} {e : LogError}
    (h : log.push stamp p = .error e) : log.call (.push stamp p) = (.pushed (.error e), log) := by
  simp only [call, h]

/-- A push goes through exactly where the log can be reached and each expectation names the number
of events that its stream holds. -/
lemma push_ok_iff {log : Log} (h : log.Sound) (stamp : Stamp) (p : Batch) :
    (∃ stored later, log.push stamp p = .ok (stored, later)) ↔
      log.available = true ∧
        ∀ c ∈ p.expectations, c.expected = (streamOf log.events c.stream.name).length := by
  have ht : (∀ c ∈ p.expectations, log.tail c.stream.name = c.expected) ↔
      ∀ c ∈ p.expectations, c.expected = (streamOf log.events c.stream.name).length := by
    simp only [tail_eq h, eq_comm]
  constructor
  · rintro ⟨stored, later, hp⟩
    obtain ⟨ha, hc, -⟩ := push_eq_ok_iff.mp hp
    exact ⟨ha, ht.mp hc⟩
  · rintro ⟨ha, hc⟩
    exact ⟨_, ⟨_, _, log.available⟩, push_eq_ok_iff.mpr ⟨ha, ht.mpr hc, rfl, rfl, rfl⟩⟩

/-- A push that goes through appends its own events, in order, and nothing else. -/
lemma push_appends {log later : Log} {stamp : Stamp} {p : Batch} {stored : List LogEntry}
    (hp : log.push stamp p = .ok (stored, later)) :
    later.events = log.events ++ stored ∧ stored.map LogEntry.draft = p.events ∧
      ∀ e ∈ stored, e.creator = p.creator ∧ e.createdAt = stamp.time := by
  obtain ⟨-, -, hs, he, -⟩ := push_eq_ok_iff.mp hp
  have hd := store_drafts stamp p.creator log.events.length p.events [] log.tails
  have hm := store_marks stamp p.creator log.events.length p.events [] log.tails
    (fun _ he => nomatch he)
  rw [hs] at hd hm
  exact ⟨he, hd, hm⟩

/-- The one event of a push comes next in its stream. -/
lemma push_single {log later : Log} {stamp : Stamp} {creator : String}
    {expectations : List Expectation} {d : Draft} {stored : List LogEntry}
    (hp : log.push stamp ⟨creator, expectations, [d]⟩ = .ok (stored, later)) :
    ∃ e, stored = [e] ∧ e.draft = d ∧ e.sequence = log.tail d.stream.name + 1 ∧
      later.events = log.events ++ [e] := by
  obtain ⟨-, -, hs, he, -⟩ := push_eq_ok_iff.mp hp
  simp only [store, Prod.mk.injEq] at hs
  obtain ⟨rfl, -⟩ := hs
  exact ⟨_, rfl, rfl, rfl, he⟩

end Log

namespace Query

lemma foldl_max_spec (es : List LogEntry) (n : Nat) :
    n ≤ es.foldl (fun m e => max m e.sequence) n ∧
      (∀ e ∈ es, e.sequence ≤ es.foldl (fun m e => max m e.sequence) n) ∧
      (es.foldl (fun m e => max m e.sequence) n = n ∨
        ∃ e ∈ es, e.sequence = es.foldl (fun m e => max m e.sequence) n) := by
  induction es generalizing n with
  | nil => simp
  | cons e es ih =>
    obtain ⟨hle, hall, h⟩ := ih (max n e.sequence)
    simp only [List.foldl_cons, List.forall_mem_cons]
    refine ⟨by omega, ⟨by omega, hall⟩, ?_⟩
    rcases h with h | ⟨f, hf, h⟩
    · rcases Nat.le_total n e.sequence with hn | hn
      · exact .inr ⟨e, List.mem_cons_self, by omega⟩
      · exact .inl (by omega)
    · exact .inr ⟨f, List.mem_cons_of_mem _ hf, h⟩

/-- The greatest sequence among the events wanted, or zero where there are none. -/
lemma latest_spec (q : Query) (es : List LogEntry) :
    (es.filter q.wants = [] ∧ q.latest es = 0) ∨
      ∃ e ∈ es.filter q.wants, e.sequence = q.latest es ∧
        ∀ f ∈ es.filter q.wants, f.sequence ≤ q.latest es := by
  unfold latest select
  obtain ⟨-, hall, h⟩ := foldl_max_spec (es.filter q.wants) 0
  rcases h with h | ⟨e, he, h⟩
  · rcases hs : es.filter q.wants with _ | ⟨e, rest⟩
    · exact .inl ⟨rfl, rfl⟩
    · rw [hs] at hall h
      have he := hall e List.mem_cons_self
      exact .inr ⟨e, List.mem_cons_self, by omega, hall⟩
  · exact .inr ⟨e, he, h, hall⟩

end Query

namespace Log

/-- After every run of calls that starts with an empty log: positions count the events and sequences
those of each stream; a push goes through exactly where the log can be reached and every expectation
is the number of events of its stream, and then appends its events as it returns them; a push that
is refused changes no reply to a later call; and readers see the events they want in the order in
which they were appended, and the greatest of their sequences. -/
theorem numbered_after_calls (before : List Call) :
    let log := (({} : Log).calls before).2
    log.events.map LogEntry.position = List.range' 1 log.events.length ∧
    (∀ name, (streamOf log.events name).map LogEntry.sequence =
      List.range' 1 (streamOf log.events name).length) ∧
    (∀ stamp p, (∃ stored later, log.push stamp p = .ok (stored, later)) ↔
      log.available = true ∧
        ∀ c ∈ p.expectations, c.expected = (streamOf log.events c.stream.name).length) ∧
    (∀ stamp p stored later, log.push stamp p = .ok (stored, later) →
      later.events = log.events ++ stored ∧ stored.map LogEntry.draft = p.events ∧
        ∀ e ∈ stored, e.creator = p.creator ∧ e.createdAt = stamp.time) ∧
    (∀ stamp p e, log.push stamp p = .error e → ∀ after,
      (({} : Log).calls (before ++ .push stamp p :: after)).1.eraseIdx before.length =
          (({} : Log).calls (before ++ after)).1 ∧
        (({} : Log).calls (before ++ .push stamp p :: after)).2 =
          (({} : Log).calls (before ++ after)).2) ∧
    (log.available = true → ∀ q, log.filter q = .ok (log.events.filter q.wants) ∧
      ∃ n, log.latest q = .ok n ∧
        ((log.events.filter q.wants = [] ∧ n = 0) ∨
          ∃ e ∈ log.events.filter q.wants, e.sequence = n ∧
            ∀ f ∈ log.events.filter q.wants, f.sequence ≤ n)) ∧
    (log.available = false → ∀ q, log.filter q = .error (.unavailable .memory) ∧
      log.latest q = .error (.unavailable .memory)) := by
  intro log
  have hs : log.Sound := sound_empty.calls before
  refine ⟨hs.positions, hs.sequences, push_ok_iff hs, fun _ _ _ _ => push_appends, ?_, ?_, ?_⟩
  · intro stamp p e he after
    have hc : log.call (.push stamp p) = (.pushed (.error e), log) := call_of_refused he
    rw [calls_append, calls_append]
    simp only [calls, show (({} : Log).calls before).2 = log from rfl, hc]
    have hl := length_replies {} before
    constructor
    · rw [List.eraseIdx_append_of_length_le (by omega)]
      simp [hl]
    · trivial
  · intro ha q
    refine ⟨?_, q.latest log.events, ?_, q.latest_spec log.events⟩
    · exact filter_eq ha q
    · exact latest_eq ha q
  · intro ha q
    constructor <;> simp [filter, latest, reached, ha, bind, Except.bind]

end Log
end Federation
