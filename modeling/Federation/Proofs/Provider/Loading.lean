import Federation.Proofs.Log.Calls
import Federation.Proofs.Provider.Batches
import Federation.Proofs.Provider.History

/-!
What a model asks of a log is enough. A model that is kept for one stream names in its query the
types of events that it knows; it comes to the same as if it had read the whole stream, and it knows
how far its query reaches.
-/
namespace Federation

/-- The last event wanted has the greatest sequence where these count up. -/
lemma Query.latest_eq_getLast {q : Query} {es : List LogEntry}
    (h : (q.select es).Pairwise fun e f => e.sequence < f.sequence) :
    q.latest es = ((q.select es).getLast?.map (·.sequence)).getD 0 := by
  rcases q.latest_spec es with ⟨hn, hl⟩ | ⟨e, he, hl, hall⟩
  · rw [hl, select, hn]
    rfl
  · rcases List.eq_nil_or_concat (q.select es) with hn | ⟨init, last, hc⟩
    · rw [← select, hn] at he
      exact absurd he List.not_mem_nil
    · rw [List.concat_eq_append] at hc
      rw [hc, List.pairwise_append] at h
      rw [hc, List.getLast?_append, List.getLast?_singleton]
      have hlast : last.sequence ≤ q.latest es :=
        hall last (by rw [← select, hc]; exact List.mem_append_right _ List.mem_cons_self)
      -- an earlier event than the last has a smaller sequence, so it is not the greatest
      have hmem : e ∈ init ++ [last] := hc ▸ he
      rcases List.mem_append.mp hmem with hi | hs
      · have := h.2.2 e hi last List.mem_cons_self
        simp only [Option.some_or, Option.map_some, Option.getD_some]
        omega
      · rw [List.mem_singleton.mp hs] at hl
        exact hl.symm

lemma Base.processed_advance (base : Base) (es : List LogEntry) :
    (base.advance es).processed = (es.getLast?.map (·.sequence)).getD base.processed := by
  cases es with
  | nil => rfl
  | cons first es =>
    simp only [advance, List.head?_cons, List.getLast?_cons, Option.map_some, Option.getD_some]

namespace View

/-- The view of one stream: of the provider of a kind, or else of whether there is a provider. -/
def ofStream (owner : Owner) (id : String) : Option Kind → View
  | some k => ofKind k owner id
  | none => ofRemoval owner id

variable {v : View} {owner : Owner} {id : String} {k? : Option Kind}

lemma ofStream_query (owner : Owner) (id : String) (k? : Option Kind) (base : Base) :
    (ofStream owner id k?).query base =
      ⟨[streamItem base owner.scope (ofStream owner id k?).readTags]⟩ := by
  cases k? <;> rfl

lemma ofStream_readTags_ne_nil (owner : Owner) (id : String) (k? : Option Kind) :
    (ofStream owner id k?).readTags ≠ [] := by
  cases k? with
  | some k => exact List.ne_nil_of_mem (Kind.removed_mem_readTags (k := k))
  | none => exact List.ne_nil_of_mem (Removal.mem_readTags .removed)

lemma run_of_read {base : Base} {s : v.State} {es : List LogEntry}
    (h : (v.read ⟨base, s, []⟩ es).2 = .ok ()) :
    v.fold.run s es = ((v.fold.run s es).1, none) := by
  obtain ⟨b, hb⟩ := v.read_run base s es
  rw [hb] at h
  rcases hr : v.fold.run s es with ⟨t, _ | fault⟩
  · rfl
  · rw [hr] at h
    cases h

/-- Events of types that a view does not know make no difference to it. -/
lemma run_known (v : View) (s : v.State) (es : List LogEntry) :
    v.fold.run s (es.filter fun e => e.type ∈ v.readTags.map Tag.name) = v.fold.run s es :=
  Fold.run_filter v.fold s fun e _ hn => by
    rw [recognise_eq]
    exact Event.recognise_unknown (by simpa using hn)

/-- What a view of a stream reads of a log: all that it knows of the stream. -/
lemma load_own {log : Log} (h : log.available = true) (owner : Owner) (id : String)
    (k? : Option Kind) :
    (ofStream owner id k?).load ((ofStream owner id k?).fresh (.ofOwner owner id)) log =
      (ofStream owner id k?).read ((ofStream owner id k?).fresh (.ofOwner owner id))
        ((log.own owner id).filter fun e =>
          e.type ∈ (ofStream owner id k?).readTags.map Tag.name) := by
  rw [load_fresh h, ofStream_query, Log.select_streamItem (ofStream_readTags_ne_nil owner id k?)]

/-- A view of a stream asks for the same after any events of the stream. -/
lemma query_advance {es : List LogEntry} (k? : Option Kind)
    (h : ∀ e ∈ es, e.stream = owner.stream id) :
    (ofStream owner id k?).query ((Base.ofOwner owner id).advance es) =
      (ofStream owner id k?).query (.ofOwner owner id) := by
  obtain ⟨processed, date, hb⟩ := Base.names_advance h
  rw [ofStream_query, ofStream_query, hb]
  rfl

lemma stream_of_wants {e : LogEntry}
    (h : ((ofStream owner id k?).query (.ofOwner owner id)).wants e = true) :
    e.stream = owner.stream id := by
  rw [ofStream_query] at h
  exact wants_stream (ofStream_readTags_ne_nil owner id k?) h

/-- How far a model has come is how far its query reaches. -/
lemma latest_of_load {log : Log} (h : log.Sound) (ha : log.available = true)
    (hv : v = ofStream owner id k?) (hok : (v.load (v.fresh (.ofOwner owner id)) log).2 = .ok ()) :
    log.latest (v.query (v.load (v.fresh (.ofOwner owner id)) log).1.base) =
      .ok (v.load (v.fresh (.ofOwner owner id)) log).1.base.processed := by
  subst hv
  have hstream : ∀ e ∈ ((ofStream owner id k?).query (.ofOwner owner id)).select log.events,
      e.stream = owner.stream id := fun e he => stream_of_wants (List.mem_filter.mp he).2
  have hcount := h.select_pairwise (q := (ofStream owner id k?).query (.ofOwner owner id))
    fun e he => by rw [LogEntry.streamName, stream_of_wants he]
  rw [load_fresh ha] at hok ⊢
  rw [read_fresh (run_of_read hok), query_advance k? hstream, Log.latest_eq ha,
    Query.latest_eq_getLast hcount, Base.processed_advance]
  rfl

end View

/-- After any calls on a log, a model of one stream that is loaded from the log has the state that
it would have if it had read every event of its owner in the stream, and fails where that would
fail. If it does not, what it has processed is the latest that its query finds in the log. -/
theorem loads_of_whole_streams (calls : List Call) (owner : Owner) (id : String)
    (k? : Option Kind) :
    let log := (({} : Log).calls calls).2
    let v := View.ofStream owner id k?
    let m := v.fresh (.ofOwner owner id)
    let loaded := v.load m log
    (log.available = true → loaded.1.state = (v.read m (log.own owner id)).1.state ∧
      loaded.2 = (v.read m (log.own owner id)).2) ∧
    (log.available = false → loaded = (m, .error (.unavailable .memory))) ∧
    (loaded.2 = .ok () → log.latest (v.query loaded.1.base) = .ok loaded.1.base.processed) := by
  intro log v m loaded
  have hs : log.Sound := Log.sound_empty.calls calls
  have hdown : log.available = false → loaded = (m, .error (.unavailable .memory)) := by
    intro ha
    simp only [loaded, View.load_def, View.asks, Bool.false_eq_true, if_false, Log.filter,
      Log.reached, ha, bind, Except.bind]
  refine ⟨fun ha => ?_, hdown, fun hok => ?_⟩
  · have hl : loaded = v.read m _ := View.load_own ha owner id k?
    obtain ⟨b, hb⟩ := v.read_run (.ofOwner owner id) v.initial (log.own owner id)
    obtain ⟨b', hb'⟩ := v.read_run (.ofOwner owner id) v.initial
      ((log.own owner id).filter fun e => e.type ∈ v.readTags.map Tag.name)
    rw [v.run_known] at hb'
    have hm : m = ⟨.ofOwner owner id, v.initial, []⟩ := rfl
    rw [hl, hm, hb, hb']
    exact ⟨rfl, rfl⟩
  · cases ha : log.available with
    | true => exact View.latest_of_load hs ha rfl hok
    | false =>
      rw [hdown ha] at hok
      cases hok

end Federation
