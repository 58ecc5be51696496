import Federation.Proofs.Provider.Reading

/-!
Logs that tell lives. Whatever such a log holds under an id of an instance is the chronicle of one
provider of one owner, and its views read what that chronicle tells.
-/
namespace Federation

lemma Scope.streamType_inj {s t : Scope} : s.streamType = t.streamType ↔ s = t := by
  cases s <;> cases t <;> decide

lemma Owner.stream_inj {o p : Owner} {id : String} : o.stream id = p.stream id ↔ o = p := by
  obtain ⟨scope, instanceId, resourceOwner⟩ := o
  obtain ⟨scope', instanceId', resourceOwner'⟩ := p
  simp only [stream, EventStream.mk.injEq, Scope.streamType_inj, Owner.mk.injEq]
  tauto

lemma Owner.stream_eq_iff {o p : Owner} {id other : String} :
    o.stream id = p.stream other ↔ o = p ∧ id = other := by
  constructor
  · intro h
    obtain rfl : id = other := congrArg EventStream.id h
    exact ⟨Owner.stream_inj.mp h, rfl⟩
  · rintro ⟨rfl, rfl⟩
    rfl

lemma Query.wants_singleton {a : Alternative} {e : LogEntry} :
    (⟨[a]⟩ : Query).wants e = a.wants e := by
  simp [wants]

lemma View.wants_streamItem {base : Base} {scope : Scope} {tags : List Tag} (hne : tags ≠ [])
    {e : LogEntry} : (streamItem base scope tags).wants e = true ↔
      e.stream = ⟨base.streamId, scope.streamType, base.resourceOwner, base.instanceId⟩ ∧
        e.type ∈ tags.map Tag.name := by
  obtain ⟨_, _, ⟨sid, type, resourceOwner, instanceId⟩, _, _, _, _, _⟩ := e
  simp [streamItem, Alternative.wants, Alternative.agrees, Alternative.allows, hne]
  tauto

lemma View.wants_stream {owner : Owner} {id : String} {tags : List Tag} {e : LogEntry}
    (hne : tags ≠ [])
    (h : (⟨[streamItem (.ofOwner owner id) owner.scope tags]⟩ : Query).wants e = true) :
    e.stream = owner.stream id := by
  rw [Query.wants_singleton, wants_streamItem hne] at h
  exact h.1

lemma View.wants_idItem {base : Base} {scope : Scope} {tags : List Tag} (hne : tags ≠ [])
    {key id : String} {e : LogEntry} : (idItem base scope tags key id).wants e = true ↔
      e.stream.instanceId = base.instanceId ∧ e.stream.type = scope.streamType ∧
        e.type ∈ tags.map Tag.name ∧ Alternative.holds e.payload (key, .string id) = true := by
  simp [idItem, Alternative.wants, Alternative.agrees, Alternative.allows, hne]
  tauto

namespace Records

variable {owner : Owner} {id : String} {e : LogEntry} {ev : Event}

lemma holds_id (h : Records owner id e ev) (he : ev.isEarly = false) (other : String) :
    Alternative.holds e.payload ("id", .string other) = true ↔ id = other := by
  simp [Alternative.holds, h.payload_id he, Json.same]

/-- What looks for an id finds the entries of its own streams. -/
lemma wants_discovery (h : Records owner id e ev) (he : ev.isEarly = false)
    (instanceId other : String) :
    ((View.discovery other).query (.ofInstance instanceId other)).wants e = true ↔
      (e.stream.instanceId = instanceId ∧ e.stream.id = other) ∧
        e.type ∈ Discovery.tags.map Tag.name := by
  have hearly : e.type ∉ Discovery.earlyTags.map Tag.name := by
    rw [h.type_mem_names]
    exact Discovery.not_early he
  have htype : e.stream.type = "instance" ∨ e.stream.type = "org" := by
    rw [h.stream]
    cases hs : owner.scope <;> simp [Owner.stream, hs, Scope.streamType]
  have hid : e.stream.id = id := by rw [h.stream]; rfl
  simp only [View.query, Query.wants, List.flatMap_cons, List.flatMap_nil, List.any_append,
    List.any_cons, List.any_nil, Bool.or_eq_true,
    View.wants_idItem (show Discovery.tags ≠ [] by decide),
    View.wants_idItem (show Discovery.earlyTags ≠ [] by decide), hearly, h.holds_id he, hid]
  rcases htype with ht | ht <;> simp [Base.ofInstance, Scope.streamType, ht] <;> tauto

end Records

namespace Log

/-- The events under an id of an instance, in whatever streams. -/
def about (log : Log) (instanceId id : String) : List LogEntry :=
  log.events.filter fun e => e.stream.instanceId = instanceId && e.stream.id = id

/-- Everything under the id tells a life of this owner's provider. -/
def Tells (log : Log) (owner : Owner) (id : String) (life : Life) : Prop :=
  Chronicle owner id (log.about owner.instanceId id) life

/-- A log within reach that is numbered as it should be and tells a life under every id. -/
structure Lawful (log : Log) : Prop where
  available : log.available = true
  sound : log.Sound
  told : ∀ instanceId id, ∃ owner life, owner.instanceId = instanceId ∧ log.Tells owner id life

lemma lawful_empty : Lawful {} where
  available := rfl
  sound := sound_empty
  told instanceId _ := ⟨.ofInstance instanceId, .vacant, rfl, .nil⟩

variable {log : Log} {owner other : Owner} {id : String} {life : Life}

lemma mem_about {instanceId : String} {e : LogEntry} :
    e ∈ log.about instanceId id ↔
      e ∈ log.events ∧ e.stream.instanceId = instanceId ∧ e.stream.id = id := by
  simp [about]

lemma Lawful.records (h : log.Lawful) {e : LogEntry} (he : e ∈ log.events) :
    ∃ (owner : Owner) (ev : Event), ev.isEarly = false ∧ Records owner e.stream.id e ev := by
  obtain ⟨owner, life, hi, t⟩ := h.told e.stream.instanceId e.stream.id
  obtain ⟨ev, hev, hr⟩ := Chronicle.records t e (mem_about.mpr ⟨he, hi.symm, rfl⟩)
  exact ⟨owner, ev, hev, hr⟩

lemma Tells.of_vacant (t : log.Tells owner id .vacant) (hi : owner.instanceId = other.instanceId) :
    log.Tells other id .vacant := by
  rw [Tells, ← hi]
  exact Chronicle.of_vacant t other

/-- A choice among all events of those under the id. -/
lemma filter_about (instanceId id : String) {w g : LogEntry → Bool}
    (hw : ∀ e ∈ log.events, w e = true → e.stream.instanceId = instanceId ∧ e.stream.id = id)
    (hg : ∀ e ∈ log.about instanceId id, w e = g e) :
    log.events.filter w = (log.about instanceId id).filter g := by
  rw [about, List.filter_filter]
  apply List.filter_congr
  intro e he
  by_cases ha : e.stream.instanceId = instanceId ∧ e.stream.id = id
  · simp [hg e (mem_about.mpr ⟨he, ha⟩), ha]
  · cases hwe : w e with
    | true => exact absurd (hw e he hwe) ha
    | false => simpa using fun _ => not_and.mp ha

/-- Nothing under the id lies outside of the provider's own stream. -/
lemma Tells.streamOf_eq (t : log.Tells owner id life) (scope : Scope) :
    streamOf log.events ⟨owner.instanceId, scope.streamType, id⟩ =
      if scope = owner.scope then log.about owner.instanceId id else [] := by
  rw [streamOf, filter_about owner.instanceId id
    (g := fun _ => scope = owner.scope)]
  · split <;> simp [*]
  · intro e _ he
    simp only [LogEntry.streamName, EventStream.name, decide_eq_true_eq, StreamName.mk.injEq] at he
    exact ⟨he.1, he.2.2⟩
  · intro e he
    simp [LogEntry.streamName, EventStream.name, Chronicle.stream t e he, Owner.stream,
      Scope.streamType_inj, eq_comm]

lemma Tells.tail_eq (t : log.Tells owner id life) (hs : log.Sound) (scope : Scope) :
    log.tail ⟨owner.instanceId, scope.streamType, id⟩ =
      if scope = owner.scope then (log.about owner.instanceId id).length else 0 := by
  rw [Log.tail_eq hs, t.streamOf_eq scope]
  split <;> rfl

/-- An id is free where both of its streams are. -/
lemma Lawful.about_eq_nil (h : log.Lawful) (hs : log.tail (owner.stream id).name = 0)
    (hb : log.tail (owner.sibling id).name = 0) : log.about owner.instanceId id = [] := by
  obtain ⟨o, life, hi, t⟩ := h.told owner.instanceId id
  have hl := t.tail_eq h.sound o.scope
  rw [if_pos rfl, hi] at hl
  have h0 : log.tail ⟨owner.instanceId, o.scope.streamType, id⟩ = 0 := by
    by_cases hsc : o.scope = owner.scope
    · rw [hsc]
      exact hs
    · have : o.scope = owner.scope.other := by
        revert hsc
        cases o.scope <;> cases owner.scope <;> simp [Scope.other]
      rw [this]
      exact hb
  exact List.length_eq_zero_iff.mp (hl.symm.trans h0)

/-- The events of some tags that an owner finds in the stream of an id. -/
lemma Tells.select_streamItem (t : log.Tells owner id life)
    (hi : other.instanceId = owner.instanceId) {tags : List Tag} (hne : tags ≠ []) :
    (⟨[View.streamItem (.ofOwner other id) other.scope tags]⟩ : Query).select log.events =
      if other = owner then
        (log.about owner.instanceId id).filter fun e => e.type ∈ tags.map Tag.name
      else [] := by
  have hw : ∀ e, (⟨[View.streamItem (.ofOwner other id) other.scope tags]⟩ : Query).wants e =
      true ↔ e.stream = other.stream id ∧ e.type ∈ tags.map Tag.name := by
    intro e
    rw [Query.wants_singleton, View.wants_streamItem hne]
    rfl
  rw [Query.select, filter_about owner.instanceId id
    (g := fun e => other = owner && e.type ∈ tags.map Tag.name)]
  · by_cases ho : other = owner <;> simp [ho]
  · intro e _ he
    rw [((hw e).mp he).1]
    exact ⟨hi, rfl⟩
  · intro e he
    rw [Bool.eq_iff_iff, hw, Chronicle.stream t e he]
    simp only [Owner.stream_inj, Bool.and_eq_true, decide_eq_true_eq, eq_comm (a := owner)]

/-- Under an id are found the events by which it can be told what the id stands for. -/
lemma Lawful.select_discovery (h : log.Lawful) (instanceId id : String) :
    ((View.discovery id).query (.ofInstance instanceId id)).select log.events =
      (log.about instanceId id).filter fun e => e.type ∈ Discovery.tags.map Tag.name := by
  have hw : ∀ e ∈ log.events,
      ((View.discovery id).query (.ofInstance instanceId id)).wants e = true ↔
        (e.stream.instanceId = instanceId ∧ e.stream.id = id) ∧
          e.type ∈ Discovery.tags.map Tag.name := by
    intro e he
    obtain ⟨owner, ev, hev, hr⟩ := h.records he
    exact hr.wants_discovery hev instanceId id
  apply filter_about instanceId id
  · exact fun e he hwe => ((hw e he).mp hwe).1
  · intro e he
    obtain ⟨hem, hei⟩ := mem_about.mp he
    rw [Bool.eq_iff_iff, hw e hem, decide_eq_true_eq]
    exact and_iff_right hei

end Log
end Federation
