import Federation.Proofs.Provider.Drafts
import Federation.Proofs.Provider.Views

/-!
Histories in which old and new events stand together. Nothing is assumed of their order: whoever
wrote them, every event in the streams of an id can be read and names that id.
-/
namespace Federation

open Json (Schema Layout)

namespace Event

/-- The key under which a payload names the provider. -/
def idKey (ev : Event) : String := if ev.isEarly then "idpConfigId" else "id"

/-- A record that begins with a text has read that text. -/
lemma read_first {key : String} {t : Schema α} {f : String × α → β} {o : Json.Origin}
    {look : String → Option Json} {b : β}
    (h : (((Schema.required key .text).and t).map f).read o look = .ok b) :
    ∃ s a, look key = some (.string s) ∧ f (s, a) = b := by
  obtain ⟨⟨s, a⟩, h, hf⟩ := map_eq_ok.mp h
  exact ⟨s, a, Schema.read_text (Schema.read_and h).1, hf⟩

lemma read_added {k : Kind} {id : String} {s : Settings Sealed k} {o : Json.Origin}
    {look : String → Option Json} (h : (Settings.addedLayout k).read o look = .ok (id, s)) :
    look "id" = some (.string id) := by
  obtain ⟨id', hid, h⟩ := bind_eq_ok.mp h
  obtain ⟨plain, -, h⟩ := bind_eq_ok.mp h
  obtain ⟨secret, -, h⟩ := bind_eq_ok.mp h
  cases h
  exact Schema.read_text hid

lemma read_changed {k : Kind} {id : String} {r : Revision Sealed k} {o : Json.Origin}
    {look : String → Option Json} (h : (Revision.layout k).read o look = .ok (id, r)) :
    look "id" = some (.string id) := by
  obtain ⟨id', hid, h⟩ := bind_eq_ok.mp h
  obtain ⟨plain, -, h⟩ := bind_eq_ok.mp h
  obtain ⟨secret, -, h⟩ := bind_eq_ok.mp h
  cases h
  exact Schema.read_text hid

/-- An event has the id that its payload names. -/
lemma lookup_idKey {ev : Event} {es : Entries} (h : decode ev.tag (.object es) = .ok ev) :
    es.lookup ev.idKey = some (.string ev.id) := by
  obtain ⟨-, hr⟩ := Layout.decode_object.mp h
  cases ev with
  | added k id s =>
    obtain ⟨⟨_, _⟩, hs, he⟩ := map_eq_ok.mp hr
    cases he
    exact read_added hs
  | migrated t id s =>
    obtain ⟨⟨_, _⟩, hs, he⟩ := map_eq_ok.mp hr
    cases he
    exact read_added hs
  | changed k id r =>
    obtain ⟨⟨_, _⟩, hs, he⟩ := map_eq_ok.mp hr
    cases he
    exact read_changed hs
  | removed id =>
    obtain ⟨_, hs, he⟩ := map_eq_ok.mp hr
    cases he
    have hs : idSchema.read .document (fun key => es.lookup key) = .ok id := hs
    exact Schema.read_text hs
  | configRemoved id =>
    obtain ⟨_, hs, he⟩ := map_eq_ok.mp hr
    cases he
    have hs : earlyIdSchema.read .document (fun key => es.lookup key) = .ok id := hs
    exact Schema.read_text hs
  | configAdded id name protocol autoRegister =>
    obtain ⟨⟨⟨_, _⟩, _⟩, hs, he⟩ := map_eq_ok.mp hr
    cases he
    exact Schema.read_text (Schema.read_and (Schema.read_and hs).1).1
  | _ =>
    obtain ⟨_, _, hid, he⟩ := read_first hr
    cases he
    exact hid

end Event

/-- An entry that can be read as an event that names the id of the entry's stream. -/
structure Holds (e : LogEntry) (ev : Event) : Prop where
  type : e.type = ev.tag.name
  decoded : Event.decode ev.tag e.payload = .ok ev
  key : e.payload.get? ev.idKey = some (.string e.stream.id)

/-- The event that an entry holds, if it can be read as one. -/
def LogEntry.event? (e : LogEntry) : Option Event :=
  (Event.recognise Tag.all e.type e.payload).toOption.join

namespace Holds

variable {e : LogEntry} {ev : Event}

lemma names (h : Holds e ev) : ev.id = e.stream.id := by
  have hk := h.key
  have hd := h.decoded
  cases hp : e.payload with
  | object es =>
    rw [hp] at hk hd
    exact Json.string.inj (Option.some.inj ((Event.lookup_idKey hd).symm.trans hk))
  | _ =>
    rw [hp] at hk
    cases hk

lemma recognise (h : Holds e ev) (tags : List Tag) :
    Event.recognise tags e.type e.payload = .ok (if ev.tag ∈ tags then some ev else none) := by
  rw [h.type]
  exact Event.recognise_of_decode h.decoded tags

lemma event?_eq (h : Holds e ev) : e.event? = some ev := by
  rw [LogEntry.event?, h.recognise, if_pos (Tag.mem_all _)]
  rfl

lemma type_mem_names (h : Holds e ev) (tags : List Tag) :
    e.type ∈ tags.map Tag.name ↔ ev.tag ∈ tags := by
  rw [h.type, List.mem_map]
  constructor
  · rintro ⟨t, ht, hn⟩
    exact Tag.name_injective hn ▸ ht
  · exact fun ht => ⟨_, ht, rfl⟩

lemma holds_idKey (h : Holds e ev) (id : String) :
    Alternative.holds e.payload (ev.idKey, .string id) = true ↔ e.stream.id = id := by
  simp [Alternative.holds, h.key, Json.same]

lemma holds_modern (h : Holds e ev) (ht : ev.tag ∈ Discovery.tags) (id : String) :
    Alternative.holds e.payload ("id", .string id) = true ↔ e.stream.id = id := by
  have hk : ev.idKey = "id" := by
    have he : ∀ t ∈ Discovery.tags, Tag.early.contains t = false := by decide
    simp only [Event.idKey, Event.isEarly, he _ ht, Bool.false_eq_true, if_false]
  rw [← hk, h.holds_idKey]

lemma holds_early (h : Holds e ev) (ht : ev.tag ∈ Discovery.earlyTags) (id : String) :
    Alternative.holds e.payload ("idpConfigId", .string id) = true ↔ e.stream.id = id := by
  have hk : ev.idKey = "idpConfigId" := by
    have he : ∀ t ∈ Discovery.earlyTags, Tag.early.contains t = true := by decide
    simp only [Event.idKey, Event.isEarly, he _ ht, if_true]
  rw [← hk, h.holds_idKey]

end Holds

lemma Scope.isSome_ofStreamType? {type : String} : (ofStreamType? type).isSome = true ↔
    type = instanceWide.streamType ∨ type = organization.streamType := by
  unfold ofStreamType?
  split
  · simp [streamType, *]
  · split <;> simp [streamType, *]

namespace Fold

/-- A fold over entries is one over the events that they hold, those apart that it passes over. -/
lemma run_holds {f : Fold σ Event} {tags : List Tag} {a : EventStream}
    (hf : ∀ e, f.recognise e = Event.recognise tags e.type e.payload) (s : σ)
    {es : List LogEntry} (h : ∀ e ∈ es, e.stream = a ∧ ∃ ev, Holds e ev) :
    f.run s (es.filter fun e => e.type ∈ tags.map Tag.name) =
      (((es.filterMap LogEntry.event?).filter (·.tag ∈ tags)).foldl
        (fun s ev => f.apply s a ev) s, none) := by
  induction es generalizing s with
  | nil => rfl
  | cons e es ih =>
    obtain ⟨⟨ha, ev, he⟩, hes⟩ := List.forall_mem_cons.mp h
    rw [List.filterMap_cons_some he.event?_eq]
    by_cases ht : ev.tag ∈ tags
    · have htype := (he.type_mem_names tags).mpr ht
      rw [List.filter_cons_of_pos (by simpa using htype),
        List.filter_cons_of_pos (by simpa using ht)]
      simp only [run, hf, he.recognise, if_pos ht, List.foldl_cons, ← ih _ hes, ha]
    · have htype := mt (he.type_mem_names tags).mp ht
      rw [List.filter_cons_of_neg (by simpa using htype),
        List.filter_cons_of_neg (by simpa using ht), ih s hes]

end Fold

namespace Log

variable {log : Log} {owner : Owner} {instanceId id : String}

/-- The entries under an id in the streams of either scope. -/
def entries (log : Log) (instanceId id : String) : List LogEntry :=
  log.events.filter fun e => e.stream.instanceId = instanceId && e.stream.id = id
    && (Scope.ofStreamType? e.stream.type).isSome

/-- The entries of an owner's stream. -/
def own (log : Log) (owner : Owner) (id : String) : List LogEntry :=
  log.events.filter fun e => e.stream = owner.stream id

/-- The events in an owner's stream, in the order in which they were appended. -/
def history (log : Log) (owner : Owner) (id : String) : List Event :=
  (log.own owner id).filterMap LogEntry.event?

/-- Everything under an id is in one owner's stream and can be read as an event about it. -/
def Recounts (log : Log) (owner : Owner) (id : String) : Prop :=
  ∀ e ∈ log.entries owner.instanceId id, e.stream = owner.stream id ∧ ∃ ev, Holds e ev

/-- A log within reach in which every id has a history, unless its streams are about something other
than providers. -/
structure Historic (log : Log) : Prop where
  available : log.available = true
  sound : log.Sound
  recounts : ∀ instanceId id,
    (∀ e ∈ log.entries instanceId id, e.type ∉ Tag.all.map Tag.name) ∨
      ∃ owner, owner.instanceId = instanceId ∧ log.Recounts owner id

lemma mem_entries {e : LogEntry} : e ∈ log.entries instanceId id ↔
    e ∈ log.events ∧ e.stream.instanceId = instanceId ∧ e.stream.id = id ∧
      (Scope.ofStreamType? e.stream.type).isSome = true := by
  simp [entries, and_assoc]

lemma mem_own {e : LogEntry} :
    e ∈ log.own owner id ↔ e ∈ log.events ∧ e.stream = owner.stream id := by
  simp [own]

lemma mem_entries_of_own {e : LogEntry} (he : e ∈ log.own owner id) :
    e ∈ log.entries owner.instanceId id := by
  obtain ⟨he, hs⟩ := mem_own.mp he
  rw [mem_entries, hs]
  exact ⟨he, rfl, rfl, by simp [Owner.stream, Scope.ofStreamType?_streamType]⟩

/-- What an owner reads of some tags. -/
lemma select_streamItem {tags : List Tag} (hne : tags ≠ []) :
    (⟨[View.streamItem (.ofOwner owner id) owner.scope tags]⟩ : Query).select log.events =
      (log.own owner id).filter fun e => e.type ∈ tags.map Tag.name := by
  rw [Query.select, own, List.filter_filter]
  apply List.filter_congr
  intro e _
  rw [Bool.eq_iff_iff, Query.wants_singleton, View.wants_streamItem hne, Bool.and_eq_true,
    decide_eq_true_eq, decide_eq_true_eq, and_comm]
  rfl

namespace Recounts

variable (h : log.Recounts owner id)
include h

lemma entries_eq : log.entries owner.instanceId id = log.own owner id := by
  apply List.filter_congr
  intro e he
  rw [Bool.eq_iff_iff, decide_eq_true_eq]
  constructor
  · intro hm
    exact (h e (List.mem_filter.mpr ⟨he, hm⟩)).1
  · intro hs
    exact (List.mem_filter.mp (mem_entries_of_own (mem_own.mpr ⟨he, hs⟩))).2

lemma streamOf_eq : streamOf log.events (owner.stream id).name = log.own owner id := by
  apply List.filter_congr
  intro e he
  rw [decide_eq_decide]
  constructor
  · intro hn
    have hn : e.stream.name = (owner.stream id).name := hn
    simp only [EventStream.name, Owner.stream, StreamName.mk.injEq] at hn
    refine (h e (mem_entries.mpr ⟨he, hn.1, hn.2.2, ?_⟩)).1
    rw [hn.2.1]
    simp [Scope.ofStreamType?_streamType]
  · intro hs
    rw [LogEntry.streamName, hs]

lemma holds : ∀ e ∈ log.own owner id, e.stream = owner.stream id ∧ ∃ ev, Holds e ev :=
  fun e he => h e (mem_entries_of_own he)

/-- Nobody else has a history under the id. -/
lemma own_eq_nil {other : Owner} (hi : other.instanceId = owner.instanceId) (hne : other ≠ owner) :
    log.own other id = [] := by
  refine List.eq_nil_iff_forall_not_mem.mpr fun e he => hne ?_
  have hs := (h e (hi ▸ mem_entries_of_own he)).1
  exact Owner.stream_inj.mp ((mem_own.mp he).2.symm.trans hs)

/-- The last event of a history is that of the last entry. -/
lemma getLast?_history {last : Event} (hl : (log.history owner id).getLast? = some last) :
    ∃ e, (log.own owner id).getLast? = some e ∧ Holds e last := by
  rcases List.eq_nil_or_concat (log.own owner id) with hn | ⟨es, e, hc⟩
  · rw [history, hn] at hl
    cases hl
  · rw [List.concat_eq_append] at hc
    have he : e ∈ log.own owner id := by simp [hc]
    obtain ⟨-, ev, hev⟩ := h.holds e he
    rw [history, hc, List.filterMap_append, List.filterMap_cons_some hev.event?_eq] at hl
    simp only [List.filterMap_nil, List.getLast?_concat, Option.some.injEq] at hl
    exact ⟨e, by simp [hc], hl ▸ hev⟩

/-- A reader of some tags has read to the end of the stream if it knows the last event there, and
only then. -/
lemma processed_iff (hs : log.Sound) {tags : List Tag} {last : Event}
    (hl : (log.history owner id).getLast? = some last) :
    ((Base.ofOwner owner id).advance ((log.own owner id).filter
        fun e => e.type ∈ tags.map Tag.name)).processed = log.tail (owner.stream id).name ↔
      last.tag ∈ tags := by
  obtain ⟨e, he, hev⟩ := h.getLast?_history hl
  have hq := hs.sequence_getLast (h.streamOf_eq ▸ he)
  have ht := Log.tail_eq hs (owner.stream id).name
  have hst : ∀ f ∈ (log.own owner id).filter fun e => e.type ∈ tags.map Tag.name,
      f.stream = owner.stream id := fun f hf => (h.holds f (List.mem_of_mem_filter hf)).1
  have hmem : e ∈ log.own owner id := List.mem_of_getLast? he
  rw [ht, ← hq, ← hev.type_mem_names]
  cases hf : ((log.own owner id).filter fun e => e.type ∈ tags.map Tag.name).getLast? with
  | none =>
    have hn := List.getLast?_eq_none_iff.mp hf
    have hpos := hs.sequence_pos (mem_own.mp hmem).1
    have hno : e.type ∉ tags.map Tag.name := by
      simpa using List.filter_eq_nil_iff.mp hn e hmem
    rw [hn]
    exact ⟨fun h0 => absurd (show 0 = e.sequence from h0) (by omega), fun ht => absurd ht hno⟩
  | some l =>
    rw [Base.advance_ofOwner hst hf]
    obtain ⟨hl, hlt⟩ := List.mem_filter.mp (List.mem_of_getLast? hf)
    constructor
    · intro hle
      have hnd : ((log.own owner id).map LogEntry.sequence).Nodup := by
        rw [← h.streamOf_eq, hs.sequences]
        exact List.nodup_range'
      rw [← List.inj_on_of_nodup_map hnd hl hmem hle]
      simpa using hlt
    · intro ht
      obtain ⟨es, hes⟩ := List.getLast?_eq_some_iff.mp he
      rw [hes, List.filter_append, List.filter_cons_of_pos (by simpa using ht)] at hf
      simp only [List.filter_nil, List.getLast?_concat, Option.some.injEq] at hf
      rw [hf]

end Recounts

/-- An owner has everything under an id, or has no event there. -/
lemma Historic.own_cases (h : log.Historic) (owner : Owner) (id : String) :
    log.Recounts owner id ∨ ∀ e ∈ log.own owner id, e.type ∉ Tag.all.map Tag.name := by
  rcases h.recounts owner.instanceId id with hf | ⟨o, hi, hr⟩
  · exact .inr fun e he => hf e (mem_entries_of_own he)
  · by_cases ho : owner = o
    · exact .inl (ho ▸ hr)
    · rw [hr.own_eq_nil hi.symm ho]
      exact .inr nofun

lemma filter_foreign {es : List LogEntry} (h : ∀ e ∈ es, e.type ∉ Tag.all.map Tag.name)
    (tags : List Tag) : (es.filter fun e => e.type ∈ tags.map Tag.name) = [] := by
  refine List.filter_eq_nil_iff.mpr fun e he ht => h e he ?_
  exact List.map_subset _ (fun t _ => Tag.mem_all t) (by simpa using ht)

lemma history_foreign (h : ∀ e ∈ log.own owner id, e.type ∉ Tag.all.map Tag.name) :
    log.history owner id = [] := by
  refine List.filterMap_eq_nil_iff.mpr fun e he => ?_
  have hf : Tag.find? Tag.all e.type = none := by
    refine List.find?_eq_none.mpr fun t ht hn => h e he ?_
    exact List.mem_map.mpr ⟨t, ht, by simpa using hn⟩
  simp only [LogEntry.event?, Event.recognise, hf]
  rfl

/-- Where one owner has a history under an id no other has. -/
lemma Historic.history_eq_nil (h : log.Historic) {other : Owner}
    (hne : log.history owner id ≠ []) (hi : other.instanceId = owner.instanceId)
    (ho : other ≠ owner) : log.history other id = [] := by
  rcases h.own_cases owner id with hr | hn
  · rw [history, hr.own_eq_nil hi ho]
    rfl
  · exact absurd (history_foreign hn) hne

lemma Historic.id_eq (h : log.Historic) : ∀ ev ∈ log.history owner id, ev.id = id := by
  intro ev hev
  rcases h.own_cases owner id with hr | hn
  · obtain ⟨e, he, hee⟩ := List.mem_filterMap.mp hev
    obtain ⟨hs, ev', hh⟩ := hr.holds e he
    obtain rfl := Option.some.inj (hee.symm.trans hh.event?_eq)
    rw [hh.names, hs]
    rfl
  · rw [history_foreign hn] at hev
    cases hev

/-- What an owner's view makes of the history, and whether it has read all of the stream. -/
lemma Historic.load_stream (h : log.Historic) {v : View} {tags : List Tag} (hne : tags ≠ [])
    (hq : v.query (.ofOwner owner id) = ⟨[View.streamItem (.ofOwner owner id) owner.scope tags]⟩)
    (hf : ∀ e, v.fold.recognise e = Event.recognise tags e.type e.payload) :
    ∃ base, v.load (v.fresh (.ofOwner owner id)) log =
        (⟨base, ((log.history owner id).filter (·.tag ∈ tags)).foldl
          (fun s ev => v.fold.apply s (owner.stream id) ev) v.initial, []⟩, .ok ()) ∧
      ∀ last, (log.history owner id).getLast? = some last →
        (base.processed = log.tail (owner.stream id).name ↔ last.tag ∈ tags) := by
  rw [View.load_fresh h.available, hq, select_streamItem hne]
  rcases h.own_cases owner id with hr | hn
  · refine ⟨_, View.read_fresh (Fold.run_holds hf v.initial hr.holds), fun last hl => ?_⟩
    exact hr.processed_iff h.sound hl
  · rw [filter_foreign hn, history_foreign hn]
    exact ⟨_, View.read_fresh rfl, nofun⟩

/-- An entry of a stream that could be a provider's holds an event or nothing about providers. -/
lemma Historic.holds (h : log.Historic) {e : LogEntry} (he : e ∈ log.entries instanceId id) :
    e.type ∉ Tag.all.map Tag.name ∨ ∃ ev, Holds e ev := by
  rcases h.recounts instanceId id with hf | ⟨owner, rfl, hr⟩
  · exact .inl (hf e he)
  · exact .inr (hr e he).2

/-- Whoever looks for an id finds the entries in its own streams. -/
lemma Historic.wants_discovery (h : log.Historic) (instanceId id : String) {e : LogEntry}
    (he : e ∈ log.events) :
    ((View.discovery id).query (.ofInstance instanceId id)).wants e = true ↔
      e ∈ log.entries instanceId id ∧ e.type ∈ Discovery.readTags.map Tag.name := by
  have hw : ((View.discovery id).query (.ofInstance instanceId id)).wants e = true ↔
      e.stream.instanceId = instanceId ∧ (Scope.ofStreamType? e.stream.type).isSome = true ∧
        (e.type ∈ Discovery.tags.map Tag.name ∧
            Alternative.holds e.payload ("id", .string id) = true ∨
          e.type ∈ Discovery.earlyTags.map Tag.name ∧
            Alternative.holds e.payload ("idpConfigId", .string id) = true) := by
    simp only [View.query, Query.wants, List.flatMap_cons, List.flatMap_nil, List.any_append,
      List.any_cons, List.any_nil, Bool.or_eq_true,
      View.wants_idItem (show Discovery.tags ≠ [] by decide),
      View.wants_idItem (show Discovery.earlyTags ≠ [] by decide), Scope.isSome_ofStreamType?,
      Base.ofInstance]
    tauto
  rw [hw, mem_entries, Discovery.readTags, List.map_append, List.mem_append]
  by_cases hs : (Scope.ofStreamType? e.stream.type).isSome = true
  · rcases h.holds (mem_entries.mpr ⟨he, rfl, rfl, hs⟩) with hf | ⟨ev, hev⟩
    · have hn : ∀ tags, e.type ∉ List.map Tag.name tags := fun tags ht =>
        hf (List.map_subset _ (fun t _ => Tag.mem_all t) ht)
      simp [hn]
    · simp only [hev.type_mem_names, he, hs, true_and]
      constructor
      · rintro ⟨hi, ⟨ht, hk⟩ | ⟨ht, hk⟩⟩
        · exact ⟨⟨hi, (hev.holds_modern ht id).mp hk, trivial⟩, .inl ht⟩
        · exact ⟨⟨hi, (hev.holds_early ht id).mp hk, trivial⟩, .inr ht⟩
      · rintro ⟨⟨hi, hid, -⟩, ht | ht⟩
        · exact ⟨hi, .inl ⟨ht, (hev.holds_modern ht id).mpr hid⟩⟩
        · exact ⟨hi, .inr ⟨ht, (hev.holds_early ht id).mpr hid⟩⟩
  · simp [hs]

lemma Historic.select_discovery (h : log.Historic) (instanceId id : String) :
    ((View.discovery id).query (.ofInstance instanceId id)).select log.events =
      (log.entries instanceId id).filter fun e => e.type ∈ Discovery.readTags.map Tag.name := by
  rw [Query.select, entries, List.filter_filter]
  apply List.filter_congr
  intro e he
  rw [Bool.eq_iff_iff, h.wants_discovery instanceId id he, Bool.and_eq_true, decide_eq_true_eq,
    and_comm, entries, List.mem_filter]
  exact and_congr_right fun _ => and_iff_right he

/-- What is found under an id is what the history of some owner tells. -/
lemma Historic.load_discovery (h : log.Historic) (instanceId id : String) :
    ∃ (base : Base) (owner : Owner) (f : Finding), owner.instanceId = instanceId ∧
      (View.discovery id).load ((View.discovery id).fresh (.ofInstance instanceId id)) log =
        (⟨base, f, []⟩, .ok ()) ∧
      f = ((log.history owner id).filter (·.tag ∈ Discovery.readTags)).foldl
        (fun f ev => Discovery.apply id f (owner.stream id) ev) {} ∧
      ∀ other : Owner, other.instanceId = instanceId → other ≠ owner →
        log.history other id = [] := by
  rw [View.load_fresh h.available, h.select_discovery]
  rcases h.recounts instanceId id with hn | ⟨owner, rfl, hr⟩
  · have hnil : ∀ other : Owner, other.instanceId = instanceId → log.history other id = [] := by
      rintro other rfl
      exact history_foreign fun e he => hn e (mem_entries_of_own he)
    rw [filter_foreign hn]
    refine ⟨_, .ofInstance instanceId, {}, rfl, View.read_fresh rfl, ?_,
      fun other hi _ => hnil other hi⟩
    rw [hnil _ rfl]
    rfl
  · rw [hr.entries_eq]
    refine ⟨_, owner, _, rfl, View.read_fresh ?_, rfl, fun other hi hne => ?_⟩
    · exact Fold.run_holds (f := Discovery.fold id) (fun _ => rfl) _ hr.holds
    · rw [history, hr.own_eq_nil hi hne]
      rfl

/-- Who looks for an id finds it to stand for an active provider of a kind, in the hands of an
owner. -/
def Discovers (log : Log) (k : Kind) (owner : Owner) (id : String) : Prop :=
  ∃ m, (View.discovery id).load ((View.discovery id).fresh (.ofInstance owner.instanceId id)) log =
      (m, .ok ()) ∧
    (m.state : Finding).status = .active ∧ (m.state : Finding).provider = some (k, owner)

end Log

/-! A log from the early days, with the one event in which a provider was recorded. -/
namespace Early

def owner : Owner := .ofInstance "instance"

/-- The entry that recorded a provider of a protocol. -/
def entry (protocol : Protocol) : LogEntry where
  id := ⟨0⟩
  position := 1
  stream := owner.stream "id"
  sequence := 1
  type := Tag.configAdded.name
  payload := .ofEntries [("idpConfigId", .string "id"), ("name", .string "name"),
    ("type", .string protocol.name)]
  creator := "editor"
  createdAt := ⟨0, 0⟩

def log (protocol : Protocol) : Log where
  events := [entry protocol]
  tails := ({} : Tails).put (entry protocol).streamName 1

variable {protocol : Protocol}

lemma holds_entry : Holds (entry protocol) (.configAdded "id" "name" protocol false) where
  type := rfl
  decoded := by cases protocol <;> rfl
  key := by cases protocol <;> rfl

lemma historic_log : (log protocol).Historic where
  available := rfl
  sound := Numbered.nil.snoc (e := entry protocol) rfl rfl
  recounts := by
    intro instanceId id
    by_cases hid : instanceId = "instance" ∧ id = "id"
    · refine .inr ⟨owner, hid.1.symm, fun e he => ?_⟩
      obtain rfl : e = entry protocol := List.mem_singleton.mp (Log.mem_entries.mp he).1
      exact ⟨by rw [hid.2]; rfl, _, holds_entry⟩
    · refine .inl fun e he => absurd ?_ hid
      obtain ⟨he, hi, hs, -⟩ := Log.mem_entries.mp he
      obtain rfl : e = entry protocol := List.mem_singleton.mp he
      exact ⟨hi.symm, hs.symm⟩

lemma history_log :
    (log protocol).history owner "id" = [.configAdded "id" "name" protocol false] := by
  have ho : (log protocol).own owner "id" = [entry protocol] := rfl
  rw [Log.history, ho, List.filterMap_cons_some holds_entry.event?_eq]
  rfl

end Early
end Federation
