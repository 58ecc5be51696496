import Federation.Log.Basic
import Mathlib.Tactic.Lemma

/-!
How a log numbers its events. Positions count all events and sequences those of one stream; the ends
of the streams, which are kept beside the events, agree with both after every push.
-/
namespace Federation

def LogEntry.draft (e : LogEntry) : Draft := ⟨e.stream, e.type, e.payload⟩

/-- The events of one stream, in the order in which they were appended. -/
def streamOf (events : List LogEntry) (name : StreamName) : List LogEntry :=
  events.filter fun e => e.streamName = name

lemma streamOf_append (es fs : List LogEntry) (name : StreamName) :
    streamOf (es ++ fs) name = streamOf es name ++ streamOf fs name := List.filter_append _ _

lemma streamOf_singleton (e : LogEntry) (name : StreamName) :
    streamOf [e] name = if e.streamName = name then [e] else [] := by
  by_cases h : e.streamName = name <;> simp [streamOf, h]

/-- Events that count up from one, in the log and in each stream, with the ends of their streams. -/
structure Numbered (events : List LogEntry) (tails : Tails) : Prop where
  positions : events.map LogEntry.position = List.range' 1 events.length
  sequences : ∀ name, (streamOf events name).map LogEntry.sequence =
    List.range' 1 (streamOf events name).length
  ends : ∀ name, tails.get name = (streamOf events name).length

namespace Numbered

lemma nil : Numbered [] {} := ⟨rfl, fun _ => rfl, fun _ => rfl⟩

/-- One more event, numbered after those before it. -/
lemma snoc {events : List LogEntry} {tails : Tails} {e : LogEntry} (h : Numbered events tails)
    (hp : e.position = events.length + 1) (hs : e.sequence = tails.get e.streamName + 1) :
    Numbered (events ++ [e]) (tails.put e.streamName e.sequence) := by
  refine ⟨?_, fun name => ?_, fun name => ?_⟩
  · simp [h.positions, hp, List.range'_concat, Nat.add_comm]
  · rw [streamOf_append, streamOf_singleton]
    split
    · next hn =>
      subst hn
      simp only [List.map_append, List.map_singleton, List.length_append, List.length_singleton,
        List.range'_concat, h.sequences, hs, h.ends]
      rw [Nat.one_mul, Nat.add_comm]
    · simp [h.sequences]
  · rw [Tails.get_put, streamOf_append, streamOf_singleton, hs, h.ends, h.ends]
    split
    · next hn => simp [hn]
    · simp

/-- The sequence of an event is its place in its stream. -/
lemma sequence_getLast {events : List LogEntry} {tails : Tails} (h : Numbered events tails)
    {name : StreamName} {e : LogEntry} (he : (streamOf events name).getLast? = some e) :
    e.sequence = (streamOf events name).length := by
  have hl := congrArg List.getLast? (h.sequences name)
  rw [List.getLast?_map, he, List.getLast?_range'] at hl
  split at hl
  · next h0 => simp [List.length_eq_zero_iff.mp h0] at he
  · simp only [Option.map_some, Option.some.injEq] at hl
    omega

lemma sequence_pos {events : List LogEntry} {tails : Tails} (h : Numbered events tails)
    {e : LogEntry} (he : e ∈ events) : 0 < e.sequence := by
  have hm : e ∈ streamOf events e.streamName := List.mem_filter.mpr ⟨he, by simp⟩
  have hs := List.mem_map_of_mem (f := LogEntry.sequence) hm
  rw [h.sequences, List.mem_range'_1] at hs
  omega

end Numbered

namespace Log

/-- What a log keeps beside its events agrees with them. -/
def Sound (log : Log) : Prop := Numbered log.events log.tails

lemma sound_empty : Sound {} := Numbered.nil

lemma tail_eq {log : Log} (h : log.Sound) (name : StreamName) :
    log.tail name = (streamOf log.events name).length := h.ends name

/-- Events that are read of a stream are counted up. -/
lemma Sound.select_pairwise {log : Log} (h : log.Sound) {q : Query} {name : StreamName}
    (hq : ∀ e, q.wants e = true → e.streamName = name) :
    (q.select log.events).Pairwise fun e f => e.sequence < f.sequence := by
  have hs : ((streamOf log.events name).map LogEntry.sequence).Pairwise (· < ·) := by
    rw [h.sequences]
    exact List.pairwise_lt_range'
  have hf : q.select log.events = (streamOf log.events name).filter q.wants := by
    rw [Query.select, streamOf, List.filter_filter]
    refine List.filter_congr fun e _ => ?_
    cases hw : q.wants e with
    | false => rfl
    | true => simp [hq e hw]
  rw [hf]
  exact (List.pairwise_map.mp hs).filter _

lemma store_numbered (stamp : Stamp) (creator : String) {events : List LogEntry} (ps : List Draft)
    (stored : List LogEntry) {tails : Tails} (h : Numbered (events ++ stored) tails) :
    Numbered (events ++ (store stamp creator events.length stored tails ps).1)
      (store stamp creator events.length stored tails ps).2 := by
  induction ps generalizing stored tails with
  | nil => exact h
  | cons p ps ih =>
    apply ih
    rw [← List.append_assoc]
    exact h.snoc (by simp) rfl

lemma store_drafts (stamp : Stamp) (creator : String) (before : Nat) (ps : List Draft)
    (stored : List LogEntry) (tails : Tails) :
    (store stamp creator before stored tails ps).1.map LogEntry.draft =
      stored.map LogEntry.draft ++ ps := by
  induction ps generalizing stored tails with
  | nil => simp [store]
  | cons p ps ih => simp [store, ih, LogEntry.draft]

lemma store_marks (stamp : Stamp) (creator : String) (before : Nat) (ps : List Draft)
    (stored : List LogEntry) (tails : Tails)
    (h : ∀ e ∈ stored, e.creator = creator ∧ e.createdAt = stamp.time) :
    ∀ e ∈ (store stamp creator before stored tails ps).1,
      e.creator = creator ∧ e.createdAt = stamp.time := by
  induction ps generalizing stored tails with
  | nil => exact h
  | cons p ps ih =>
    apply ih
    intro e he
    rcases List.mem_append.mp he with he | he
    · exact h e he
    · simp [List.mem_singleton.mp he]

lemma filter_eq {log : Log} (h : log.available = true) (q : Query) :
    log.filter q = .ok (q.select log.events) := by
  simp [filter, reached, h, bind, Except.bind, pure, Except.pure]

lemma latest_eq {log : Log} (h : log.available = true) (q : Query) :
    log.latest q = .ok (q.latest log.events) := by
  simp [latest, reached, h, bind, Except.bind, pure, Except.pure]

lemma conflict?_eq_none_iff (log : Log) (p : Batch) :
    log.conflict? p = none ↔ ∀ c ∈ p.expectations, log.tail c.stream.name = c.expected := by
  simp [conflict?]

/-- A push goes through exactly where the log answers and each expectation holds. -/
lemma push_eq_ok_iff {log later : Log} {stamp : Stamp} {p : Batch} {stored : List LogEntry} :
    log.push stamp p = .ok (stored, later) ↔
      log.available = true ∧ (∀ c ∈ p.expectations, log.tail c.stream.name = c.expected) ∧
      store stamp p.creator log.events.length [] log.tails p.events = (stored, later.tails) ∧
      later.events = log.events ++ stored ∧ later.available = log.available := by
  rw [← conflict?_eq_none_iff]
  cases ha : log.available with
  | false => simp [push, reached, ha, bind, Except.bind]
  | true =>
    cases hc : log.conflict? p with
    | some e =>
      simp [push, reached, ha, hc, bind, Except.bind, throw, throwThe, MonadExceptOf.throw]
    | none =>
      simp only [push, reached, ha, hc, bind, Except.bind, pure, Except.pure, if_true, true_and,
        Except.ok.injEq, Prod.mk.injEq]
      obtain ⟨events, tails, available⟩ := later
      simp only [mk.injEq, Prod.ext_iff]
      grind

end Log
end Federation
