import Federation.Proofs.Log.Calls
import Federation.Proofs.Provider.Views

/-!
How logs that tell lives grow. Whoever finds a stream still at the end it had before finds
everything in it as it was; an event that takes a life further leaves all other lives alone.
-/
namespace Federation

namespace Log

variable {log now later : Log} {owner : Owner} {id : String} {life : Life}

/-- The log tells lives still, and holds all it held before. -/
structure Grows (log now : Log) : Prop where
  lawful : now.Lawful
  kept : log.events <+: now.events

lemma Lawful.grows (h : log.Lawful) : log.Grows log := ⟨h, List.prefix_rfl⟩

lemma Grows.trans (g : log.Grows now) (f : now.Grows later) : log.Grows later :=
  ⟨f.lawful, g.kept.trans f.kept⟩

/-- A stream that has come no further is as it was. -/
lemma Grows.streamOf_eq (g : log.Grows now) (h : log.Lawful) {name : StreamName}
    (ht : now.tail name = log.tail name) : streamOf now.events name = streamOf log.events name := by
  have hp : streamOf log.events name <+: streamOf now.events name := g.kept.filter _
  refine (hp.eq_of_length ?_).symm
  rw [← Log.tail_eq h.sound, ← Log.tail_eq g.lawful.sound, ht]

/-- Nothing else can be read of it either. -/
lemma Grows.select_eq (g : log.Grows now) (h : log.Lawful) {name : StreamName} {q : Query}
    (ht : now.tail name = log.tail name) (hq : ∀ e, q.wants e = true → e.streamName = name) :
    q.select now.events = q.select log.events := by
  have hs : ∀ es, q.select es = (streamOf es name).filter q.wants := by
    intro es
    rw [Query.select, streamOf, List.filter_filter]
    apply List.filter_congr
    intro e _
    cases hw : q.wants e with
    | true => simp [hq e hw]
    | false => simp
  rw [hs, hs, g.streamOf_eq h ht]

lemma about_append {es : List LogEntry} (h : later.events = log.events ++ es)
    (instanceId id : String) : later.about instanceId id = log.about instanceId id ++
      es.filter fun e => e.stream.instanceId = instanceId && e.stream.id = id := by
  rw [about, h, List.filter_append]
  rfl

/-- One life has come further, all others are where they were. -/
structure Advances (log : Log) (owner : Owner) (id : String) (next : Life) (later : Log) :
    Prop where
  grows : log.Grows later
  tells : later.Tells owner id next
  others : ∀ instanceId other, instanceId ≠ owner.instanceId ∨ other ≠ id →
    later.about instanceId other = log.about instanceId other

/-- What a log tells already counts as reached. -/
lemma Lawful.advances (h : log.Lawful) (t : log.Tells owner id life) :
    log.Advances owner id life log := ⟨h.grows, t, fun _ _ _ => rfl⟩

/-- An event that may come next in a life takes it there. -/
lemma Lawful.push (h : log.Lawful) (t : log.Tells owner id life) {ev : Event} {next : Life}
    (hm : life.Moves ev next) (hid : ev.id = id) {d : Draft}
    (hd : ev.draft (owner.stream id) = .ok d) {stamp : Stamp} {creator : String}
    {expectations : List Expectation} {stored : List LogEntry}
    (hp : log.push stamp ⟨creator, expectations, [d]⟩ = .ok (stored, later)) :
    log.Advances owner id next later := by
  obtain ⟨e, rfl, rfl, -, he⟩ := push_single hp
  have hr : Records owner id e ev := ⟨hid, hd⟩
  have hst := hr.stream
  have ht : later.Tells owner id next := by
    have hc := Chronicle.snoc t hm hr
    rw [Tells, about_append he]
    simpa [hst, Owner.stream] using hc
  have hf : ∀ instanceId other, instanceId ≠ owner.instanceId ∨ other ≠ id →
      later.about instanceId other = log.about instanceId other := by
    intro instanceId other hne
    have hno : ¬ (owner.instanceId = instanceId ∧ id = other) := fun hn =>
      hne.elim (fun h => h hn.1.symm) fun h => h hn.2.symm
    rw [about_append he]
    simp [hst, Owner.stream, hno]
  refine ⟨⟨⟨?_, h.sound.push hp, fun instanceId other => ?_⟩, he ▸ List.prefix_append _ _⟩, ht, hf⟩
  · obtain ⟨ha, -, -, -, hl⟩ := push_eq_ok_iff.mp hp
    rw [hl, ha]
  · by_cases hs : instanceId = owner.instanceId ∧ other = id
    · exact ⟨owner, next, hs.1.symm, hs.2 ▸ ht⟩
    · obtain ⟨o, l, rfl, hl⟩ := h.told instanceId other
      refine ⟨o, l, rfl, ?_⟩
      rw [Tells, hf _ _ (not_and_or.mp hs)]
      exact hl

end Log
end Federation
