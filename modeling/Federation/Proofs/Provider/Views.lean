import Federation.Proofs.Provider.Lawful
import Federation.Provider.Update

/-!
What views read in a log that tells lives: the state of a provider and, as long as it is active, how
far its stream has come. An event that takes a life further leaves such a log.
-/
namespace Federation

namespace Life

/-- Owners see nothing of the lives of others' providers. -/
def seenBy (owner other : Owner) (life : Life) : Life := if other = owner then life else vacant

@[simp] lemma seenBy_self (owner : Owner) (life : Life) : life.seenBy owner owner = life :=
  if_pos rfl

end Life

namespace Base

lemma orFirst_self (s : String) : orFirst s s = s := by
  unfold orFirst
  split <;> rfl

/-- Events of a stream tell its reader nothing new about whose it is. -/
lemma advance_ofOwner {owner : Owner} {id : String} {events : List LogEntry}
    (h : ∀ e ∈ events, e.stream = owner.stream id) {last : LogEntry}
    (hl : events.getLast? = some last) :
    (ofOwner owner id).advance events =
      ⟨id, owner.resourceOwner, owner.instanceId, last.sequence, some last.createdAt⟩ := by
  cases events with
  | nil => nomatch hl
  | cons first rest =>
    simp only [advance, List.head?_cons, hl, h first List.mem_cons_self, ofOwner, Owner.stream,
      orFirst_self]

lemma names_advance {owner : Owner} {id : String} {events : List LogEntry}
    (h : ∀ e ∈ events, e.stream = owner.stream id) :
    ∃ processed date, (ofOwner owner id).advance events =
      ⟨id, owner.resourceOwner, owner.instanceId, processed, date⟩ := by
  cases hl : events.getLast? with
  | none =>
    rw [List.getLast?_eq_none_iff.mp hl]
    exact ⟨_, _, rfl⟩
  | some last => exact ⟨_, _, advance_ofOwner h hl⟩

lemma stream_advance {owner : Owner} {id : String} {events : List LogEntry}
    (h : ∀ e ∈ events, e.stream = owner.stream id) :
    ((ofOwner owner id).advance events).stream owner.scope id = owner.stream id := by
  obtain ⟨_, _, hb⟩ := names_advance h
  rw [hb]
  rfl

end Base

namespace Provider

variable {k : Kind} {p : Provider k} {life : Life}

/-- Only the provider of its own kind shows a life as active, and it shows all of it. -/
lemma Shows.of_active (h : p.Shows life) (ha : p.status = .active) :
    ∃ m c, life = .live k m c ∧ p = ⟨.active, c.map some⟩ := by
  cases life with
  | vacant => simp [Shows, ha] at h
  | live j m c =>
    by_cases hj : j = k
    · subst hj
      refine ⟨m, c, rfl, ?_⟩
      have hset := (h.1 rfl).2
      cases p
      simp only at ha hset
      rw [ha, hset]
    · have hn := h.2 hj
      rw [ha] at hn
      split at hn <;> cases hn
  | gone => exact absurd ha h.1

end Provider

/-- The last event of a life is known to the kind that the provider has come to. -/
lemma Life.Moves.tag_mem_readTags {before : Life} {ev : Event} {k : Kind} {m : Bool}
    {s : Settings Sealed k} (h : before.Moves ev (.live k m s)) : ev.tag ∈ k.readTags := by
  cases h with
  | add => exact Kind.added_mem_readTags.mpr rfl
  | change => exact Kind.changed_mem_readTags.mpr rfl
  | migrate => exact Kind.migrated_mem_readTags.mpr (.inr rfl)

namespace View

/-- What a model that has reduced all it read makes of further events. -/
lemma read_reduced {v : View} {base : Base} {events : List LogEntry} {s t : v.State}
    (h : v.fold.run s events = (t, none)) :
    v.read ⟨base, s, []⟩ events = (⟨base.advance events, t, []⟩, .ok ()) := by
  simp only [read, Model.append, List.nil_append, Model.reduce, h]

lemma read_fresh {v : View} {base : Base} {events : List LogEntry} {s : v.State}
    (h : v.fold.run v.initial events = (s, none)) :
    v.read (v.fresh base) events = (⟨base.advance events, s, []⟩, .ok ()) := read_reduced h

/-- Every view asks for something. -/
lemma asks (v : View) (base : Base) : (v.query base).alternatives.isEmpty = false := by
  cases v <;> rfl

lemma load_fresh {log : Log} (h : log.available = true) (v : View) (base : Base) :
    v.load (v.fresh base) log = v.read (v.fresh base) ((v.query base).select log.events) := by
  simp only [load_def, asks, Bool.false_eq_true, if_false, Log.filter_eq h]
  rfl

/-- A model that has reduced all it read is loaded from what its view asks for. -/
lemma load_reduced {v : View} {base : Base} {s t : v.State} {log : Log}
    (ha : log.available = true)
    (h : v.fold.run s ((v.query base).select log.events) = (t, none)) :
    v.load ⟨base, s, []⟩ log =
      (⟨base.advance ((v.query base).select log.events), t, []⟩, .ok ()) := by
  simp only [load_def, asks, Bool.false_eq_true, if_false, Log.filter_eq ha]
  exact read_reduced h

end View

namespace Log

variable {log : Log} {owner other : Owner} {id : String} {life : Life}

/-- A fold makes the same of all events and of those whose tags it reads. -/
lemma Tells.run_select {f : Fold σ Event} {tags read : List Tag} {s₀ s : σ}
    (t : log.Tells owner id life)
    (hf : ∀ e, f.recognise e = Event.recognise read e.type e.payload)
    (hr : ∀ ev : Event, ev.isEarly = false → ev.tag ∈ read → ev.tag ∈ tags)
    (hs : f.run s₀ (log.about owner.instanceId id) = (s, none)) :
    f.run s₀ ((log.about owner.instanceId id).filter fun e => e.type ∈ tags.map Tag.name) =
      (s, none) := by
  rw [f.run_filter, hs]
  intro e he hn
  obtain ⟨ev, hev, hre⟩ := Chronicle.records t e he
  have ht : ev.tag ∉ read := by
    intro ht
    have hm := (hre.type_mem_names tags).mpr (hr ev hev ht)
    simp [hm] at hn
  rw [hf, hre.recognise hev, if_neg ht]

/-- A query for events of some tags. -/
lemma Tells.load_eq {v : View} {tags : List Tag} {s : v.State} (h : log.Lawful)
    (t : log.Tells owner id life) (hi : other.instanceId = owner.instanceId) (hne : tags ≠ [])
    (hq : v.query (.ofOwner other id) = ⟨[View.streamItem (.ofOwner other id) other.scope tags]⟩)
    (hr : ∀ e, v.fold.recognise e = Event.recognise tags e.type e.payload)
    (hs : v.fold.run v.initial (if other = owner then log.about owner.instanceId id else []) =
      (s, none)) :
    ∃ events, v.load (v.fresh (.ofOwner other id)) log =
        (⟨(Base.ofOwner other id).advance events, s, []⟩, .ok ()) ∧
      (∀ e ∈ events, e.stream = other.stream id) ∧
      events = if other = owner then
        (log.about owner.instanceId id).filter fun e => e.type ∈ tags.map Tag.name else [] := by
  refine ⟨_, ?_, ?_, rfl⟩
  · rw [View.load_fresh h.available, hq, t.select_streamItem hi hne]
    apply View.read_fresh
    split at hs
    · next ho => simp only [if_pos ho]; exact t.run_select hr (fun _ _ ht => ht) hs
    · next ho => simp only [if_neg ho]; exact hs
  · intro e he
    split at he
    · next ho => exact ho ▸ Chronicle.stream t e (List.mem_of_mem_filter he)
    · nomatch he

/-- A reader who has seen the last event of a stream knows how far the stream has come. -/
lemma Tells.processed_eq (t : log.Tells owner id life) (h : log.Lawful) {tags : List Tag}
    (hl : ∀ e, (log.about owner.instanceId id).getLast? = some e → e.type ∈ tags.map Tag.name) :
    ((Base.ofOwner owner id).advance ((log.about owner.instanceId id).filter
      fun e => e.type ∈ tags.map Tag.name)).processed = log.tail (owner.stream id).name := by
  have hso := t.streamOf_eq owner.scope
  rw [if_pos rfl] at hso
  rw [show (owner.stream id).name = ⟨owner.instanceId, owner.scope.streamType, id⟩ from rfl,
    Log.tail_eq h.sound, hso]
  rcases List.eq_nil_or_concat (log.about owner.instanceId id) with hn | ⟨es, e, hc⟩
  · rw [hn]
    rfl
  · rw [List.concat_eq_append] at hc
    have hlast : (log.about owner.instanceId id).getLast? = some e := by rw [hc]; simp
    have hfl : ((log.about owner.instanceId id).filter
        fun e => e.type ∈ tags.map Tag.name).getLast? = some e := by
      rw [hc, List.filter_append, List.filter_cons_of_pos (by simpa using hl e hlast)]
      simp
    rw [Base.advance_ofOwner (fun e he => Chronicle.stream t e (List.mem_of_mem_filter he)) hfl]
    have hq := h.sound.sequence_getLast (hso ▸ hlast)
    rw [hso] at hq
    exact hq

/-- What an owner reads of a provider of a kind. -/
lemma Lawful.load_provider (h : log.Lawful) (t : log.Tells owner id life)
    (hi : other.instanceId = owner.instanceId) (k : Kind) :
    ∃ (b : Base) (p : Provider k), (View.ofKind k other id).load
        ((View.ofKind k other id).fresh (.ofOwner other id)) log = (⟨b, p, []⟩, .ok ()) ∧
      p.Shows (life.seenBy owner other) ∧ b.stream other.scope id = other.stream id ∧
      (p.status = .active → b.processed = log.tail (other.stream id).name) := by
  have hne : k.readTags ≠ [] := List.ne_nil_of_mem Kind.removed_mem_readTags
  by_cases ho : other = owner
  · subst ho
    obtain ⟨p, hp, hs⟩ := Provider.run_chronicle (k := k) t
    obtain ⟨events, hl, hst, he⟩ := t.load_eq (v := View.ofKind k other id) (s := p) h rfl hne rfl
      (fun _ => rfl) (by rw [if_pos rfl]; exact hp)
    refine ⟨_, p, hl, by simpa using hs, Base.stream_advance hst, fun ha => ?_⟩
    obtain ⟨m, s, rfl, -⟩ := hs.of_active ha
    rw [if_pos rfl] at he
    rw [he]
    apply t.processed_eq h
    intro e hlast
    obtain ⟨before, ev, hm, hr⟩ := Chronicle.last_records t hlast
    rw [hr.type_mem_names]
    exact hm.tag_mem_readTags
  · obtain ⟨events, hl, hst, he⟩ := t.load_eq (v := View.ofKind k other id) (s := ({} : Provider k))
      h hi hne rfl (fun _ => rfl) (by rw [if_neg ho]; rfl)
    refine ⟨_, _, hl, ?_, Base.stream_advance hst, nofun⟩
    rw [Life.seenBy, if_neg ho]
    rfl

/-- The owner of an active provider reads all of it. -/
lemma Lawful.load_live (h : log.Lawful) {k : Kind} {m : Bool} {c : Settings Sealed k}
    (t : log.Tells owner id (.live k m c)) :
    ∃ b : Base, (View.ofKind k owner id).load
        ((View.ofKind k owner id).fresh (.ofOwner owner id)) log =
          (⟨b, (⟨.active, c.map some⟩ : Provider k), []⟩, .ok ()) ∧
      b.stream owner.scope id = owner.stream id ∧
      b.processed = log.tail (owner.stream id).name := by
  obtain ⟨b, p, hl, hs, hst, hb⟩ := h.load_provider t rfl k
  rw [Life.seenBy_self] at hs
  have ha := (hs.1 rfl).1
  obtain ⟨m, c, ⟨⟩, rfl⟩ := hs.of_active ha
  exact ⟨b, hl, hst, hb ha⟩

/-- Others than the owner, and readers of another kind, find no active provider. -/
lemma Lawful.load_inactive (h : log.Lawful) (t : log.Tells owner id life)
    (hi : other.instanceId = owner.instanceId) {k : Kind}
    (hn : ∀ m c, life.seenBy owner other ≠ .live k m c) :
    ∃ (b : Base) (p : Provider k), (View.ofKind k other id).load
        ((View.ofKind k other id).fresh (.ofOwner other id)) log = (⟨b, p, []⟩, .ok ()) ∧
      p.status ≠ .active := by
  obtain ⟨b, p, hl, hs, -, -⟩ := h.load_provider t hi k
  refine ⟨b, p, hl, fun ha => ?_⟩
  obtain ⟨m, c, hlife, -⟩ := hs.of_active ha
  exact hn m c hlife

/-- What an owner reads of the presence of a provider of any kind. -/
lemma Lawful.load_removal (h : log.Lawful) (t : log.Tells owner id life)
    (hi : other.instanceId = owner.instanceId) :
    ∃ b : Base, (View.ofRemoval other id).load
        ((View.ofRemoval other id).fresh (.ofOwner other id)) log =
          (⟨b, (life.seenBy owner other).presence, []⟩, .ok ()) ∧
      (other = owner → b.processed = log.tail (other.stream id).name) := by
  have hne : Removal.readTags ≠ [] := List.ne_nil_of_mem (Removal.mem_readTags .removed)
  by_cases ho : other = owner
  · subst ho
    obtain ⟨events, hl, -, he⟩ := t.load_eq (v := View.ofRemoval other id) (s := life.presence)
      h rfl hne rfl (fun _ => rfl) (by rw [if_pos rfl]; exact Removal.run_chronicle t)
    refine ⟨_, by simpa using hl, fun _ => ?_⟩
    rw [if_pos rfl] at he
    rw [he]
    apply t.processed_eq h
    intro e hlast
    obtain ⟨before, ev, hm, hr⟩ := Chronicle.last_records t hlast
    rw [hr.type_mem_names]
    exact Removal.mem_readTags _
  · obtain ⟨events, hl, -, he⟩ := t.load_eq (v := View.ofRemoval other id)
      (s := Status.unspecified) h hi hne rfl (fun _ => rfl) (by rw [if_neg ho]; rfl)
    rw [Life.seenBy, if_neg ho]
    exact ⟨_, hl, fun e => absurd e ho⟩

/-- What an id of an instance is found to stand for. -/
lemma Lawful.load_discovery (h : log.Lawful) (t : log.Tells owner id life) :
    ∃ b : Base, (View.discovery id).load
        ((View.discovery id).fresh (.ofInstance owner.instanceId id)) log =
          (⟨b, life.finding owner, []⟩, .ok ()) := by
  rw [View.load_fresh h.available, h.select_discovery]
  refine ⟨_, View.read_fresh (t.run_select (fun _ => rfl) ?_ (Discovery.run_chronicle t))⟩
  intro ev he ht
  exact (List.mem_append.mp ht).resolve_right (Discovery.not_early he)

end Log
end Federation
