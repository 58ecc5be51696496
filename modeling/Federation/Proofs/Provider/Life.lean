import Federation.Proofs.Log.Numbering
import Federation.Proofs.Provider.Codec
import Federation.Provider.Owner

/-!
The lives of providers, as their events tell them. A life begins when a provider is added, its
settings may change, an OpenID Connect provider may once be turned into one of another kind, and
after a removal nothing follows.
-/
namespace Federation

/-- How far the life of a provider has come. -/
inductive Life where
  | vacant
  | live (k : Kind) (migrated : Bool) (settings : Settings Sealed k)
  | gone

lemma Event.isEarly_migrated (t : Target) (id : String) (s : Settings Sealed t.kind) :
    (migrated t id s).isEarly = false := by
  cases t <;> rfl

namespace Life

/-- What an event does to a life, where it may occur. -/
inductive Moves : Life → Event → Life → Prop where
  | add {k id s} : Moves vacant (.added k id s) (live k false s)
  | change {k m s id r} : Moves (live k m s) (.changed k id r) (live k m (s.revise r))
  | migrate {s t id s'} : Moves (live .oidc false s) (.migrated t id s') (live t.kind true s')
  | remove {k m s id} : Moves (live k m s) (.removed id) gone

lemma Moves.isEarly {life later : Life} {ev : Event} (h : Moves life ev later) :
    ev.isEarly = false := by
  cases h with
  | migrate => exact Event.isEarly_migrated _ _ _
  | _ => rfl

end Life

/-- An entry of a provider's own stream that holds an event about it. -/
structure Records (owner : Owner) (id : String) (e : LogEntry) (ev : Event) : Prop where
  names : ev.id = id
  draft : ev.draft (owner.stream id) = .ok e.draft

namespace Records

variable {owner : Owner} {id : String} {e : LogEntry} {ev : Event}

lemma payload_stream_type (h : Records owner id e ev) :
    ev.payload = .ok e.payload ∧ e.stream = owner.stream id ∧ e.type = ev.tag.name := by
  have hd := h.draft
  unfold Event.draft at hd
  cases hp : ev.payload with
  | error fault => simp [hp, Except.map] at hd
  | ok j =>
    simp only [hp, Except.map, Except.ok.injEq, LogEntry.draft, Draft.mk.injEq] at hd
    obtain ⟨hs, ht, hj⟩ := hd
    exact ⟨hj ▸ rfl, hs.symm, ht.symm⟩

lemma stream (h : Records owner id e ev) : e.stream = owner.stream id := h.payload_stream_type.2.1

lemma type (h : Records owner id e ev) : e.type = ev.tag.name := h.payload_stream_type.2.2

lemma recognise (h : Records owner id e ev) (he : ev.isEarly = false) (tags : List Tag) :
    Event.recognise tags e.type e.payload = .ok (if ev.tag ∈ tags then some ev else none) := by
  rw [h.type]
  exact Event.recognise_payload he h.payload_stream_type.1 tags

lemma payload_id (h : Records owner id e ev) (he : ev.isEarly = false) :
    e.payload.get? "id" = some (.string id) := by
  rw [(Event.decode_payload he h.payload_stream_type.1).2, h.names]

lemma type_mem_names (h : Records owner id e ev) (tags : List Tag) :
    e.type ∈ tags.map Tag.name ↔ ev.tag ∈ tags := by
  rw [h.type, List.mem_map]
  constructor
  · rintro ⟨t, ht, hn⟩
    exact Tag.name_injective hn ▸ ht
  · exact fun ht => ⟨_, ht, rfl⟩

end Records

/-- Entries that tell a life from its beginning. -/
inductive Chronicle (owner : Owner) (id : String) : List LogEntry → Life → Prop where
  | nil : Chronicle owner id [] .vacant
  | snoc {es life e ev later} : Chronicle owner id es life → life.Moves ev later →
      Records owner id e ev → Chronicle owner id (es ++ [e]) later

namespace Chronicle

variable {owner : Owner} {id : String} {es : List LogEntry} {life : Life}

lemma records (c : Chronicle owner id es life) :
    ∀ e ∈ es, ∃ ev, ev.isEarly = false ∧ Records owner id e ev := by
  induction c with
  | nil => exact fun e he => nomatch he
  | snoc c hm hr ih =>
    intro e he
    rcases List.mem_append.mp he with he | he
    · exact ih e he
    · exact List.mem_singleton.mp he ▸ ⟨_, hm.isEarly, hr⟩

lemma stream (c : Chronicle owner id es life) : ∀ e ∈ es, e.stream = owner.stream id := by
  intro e he
  obtain ⟨ev, -, hr⟩ := c.records e he
  exact hr.stream

lemma vacant_iff (c : Chronicle owner id es life) : life = .vacant ↔ es = [] := by
  cases c with
  | nil => simp
  | snoc c hm hr => cases hm <;> simp

/-- An empty chronicle is that of any owner. -/
lemma of_vacant (c : Chronicle owner id es .vacant) (other : Owner) :
    Chronicle other id es .vacant := by
  rw [c.vacant_iff.mp rfl]
  exact nil

lemma last_records (c : Chronicle owner id es life) {e : LogEntry} (he : es.getLast? = some e) :
    ∃ (before : Life) (ev : Event), before.Moves ev life ∧ Records owner id e ev := by
  cases c with
  | nil => nomatch he
  | snoc c hm hr =>
    rw [List.getLast?_concat, Option.some.injEq] at he
    exact ⟨_, _, hm, he ▸ hr⟩

end Chronicle

/-- A provider is added and changed some times; one of OpenID Connect is perhaps turned into another
kind and changed some more times; at last it is perhaps removed. -/
def Tag.story (k : Kind) (n : Nat) (turn : Option (Target × Nat)) (last : Bool) : List Tag :=
  (.added k :: List.replicate n (.changed k)) ++
    (match turn with
      | none => []
      | some (t, m) => .migrated t :: List.replicate m (.changed t.kind)) ++
    (if last then [.removed] else [])

/-- The tags of all lives that have begun. -/
def Tag.Spelled (tags : List Tag) : Prop :=
  ∃ k n turn last, (turn.isSome = true → k = .oidc) ∧ tags = Tag.story k n turn last

namespace Tag.Spelled

variable {tags : List Tag}

/-- Nothing follows a removal. -/
lemma removed_not_mem (h : Tag.Spelled tags) : Tag.removed ∉ tags.dropLast := by
  obtain ⟨k, n, turn, last, -, rfl⟩ := h
  have hb : Tag.removed ∉ story k n turn false := by
    cases turn <;> simp [story]
  cases last with
  | false => exact fun hm => hb (List.dropLast_subset _ hm)
  | true =>
    have hs : story k n turn true = story k n turn false ++ [.removed] := by simp [story]
    rwa [hs, List.dropLast_concat]

/-- A provider is added once. -/
lemma added_not_mem (h : Tag.Spelled tags) (j : Kind) : Tag.added j ∉ tags.tail := by
  obtain ⟨k, n, turn, last, -, rfl⟩ := h
  cases turn <;> cases last <;> simp [story]

end Tag.Spelled

namespace Life

/-- The tags of the events that have led to where a life is. -/
def Told : Life → List Tag → Prop
  | vacant, tags => tags = []
  | live k false _, tags => ∃ n, tags = Tag.story k n none false
  | live k true _, tags => ∃ n t m, k = t.kind ∧ tags = Tag.story .oidc n (some (t, m)) false
  | gone, tags => ∃ k n turn, (turn.isSome = true → k = .oidc) ∧ tags = Tag.story k n turn true

lemma Moves.told {life later : Life} {ev : Event} {tags : List Tag} (hm : life.Moves ev later)
    (h : life.Told tags) : later.Told (tags ++ [ev.tag]) := by
  cases hm with
  | add =>
    cases h
    exact ⟨0, rfl⟩
  | @change k m s =>
    cases m with
    | false =>
      obtain ⟨n, rfl⟩ := h
      exact ⟨n + 1, by simp [Tag.story, List.replicate_succ', Event.tag]⟩
    | true =>
      obtain ⟨n, t, m, rfl, rfl⟩ := h
      exact ⟨n, t, m + 1, rfl, by simp [Tag.story, List.replicate_succ', Event.tag]⟩
  | @migrate s t =>
    obtain ⟨n, rfl⟩ := h
    exact ⟨n, t, 0, rfl, by simp [Tag.story, Event.tag]⟩
  | @remove k m s =>
    cases m with
    | false =>
      obtain ⟨n, rfl⟩ := h
      exact ⟨k, n, none, by simp, by simp [Tag.story, Event.tag]⟩
    | true =>
      obtain ⟨n, t, m, rfl, rfl⟩ := h
      exact ⟨.oidc, n, some (t, m), fun _ => rfl, by simp [Tag.story, Event.tag]⟩

lemma Told.spelled {life : Life} {tags : List Tag} (h : life.Told tags) :
    tags = [] ∨ Tag.Spelled tags := by
  match life, h with
  | vacant, h => exact .inl h
  | live k false _, ⟨n, h⟩ => exact .inr ⟨k, n, none, false, by simp, h⟩
  | live k true _, ⟨n, t, m, _, h⟩ => exact .inr ⟨.oidc, n, some (t, m), false, fun _ => rfl, h⟩
  | gone, ⟨k, n, turn, hk, h⟩ => exact .inr ⟨k, n, turn, true, hk, h⟩

end Life

/-- The types of the entries of a chronicle are the tags of its life. -/
lemma Chronicle.told {owner : Owner} {id : String} {es : List LogEntry} {life : Life}
    (c : Chronicle owner id es life) :
    ∃ tags, es.map LogEntry.type = tags.map Tag.name ∧ life.Told tags := by
  induction c with
  | nil => exact ⟨[], rfl, rfl⟩
  | snoc c hm hr ih =>
    obtain ⟨tags, ht, h⟩ := ih
    exact ⟨_, by simp [ht, hr.type], hm.told h⟩

end Federation
