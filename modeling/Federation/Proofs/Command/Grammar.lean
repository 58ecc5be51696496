import Federation.Proofs.Command.Board

/-!
What commands can leave in the streams of an id. The log itself takes any event; that there is one
owner, one life and no second one comes of what the commands check and expect, whatever the order in
which they make their calls.
-/
namespace Federation

/-- The streams of an id, where all there is are the events of these tags in the owner's own. -/
structure Grammar (log : Log) (owner : Owner) (id : String) (tags : List Tag) : Prop where
  sibling : streamOf log.events (owner.sibling id).name = []
  spelled : tags = [] ∨ Tag.Spelled tags
  types : (streamOf log.events (owner.stream id).name).map LogEntry.type = tags.map Tag.name
  sequences : (streamOf log.events (owner.stream id).name).map LogEntry.sequence =
    List.range' 1 tags.length
  owned : ∀ e ∈ streamOf log.events (owner.stream id).name,
    e.stream.resourceOwner = owner.resourceOwner
  named : ∀ e ∈ streamOf log.events (owner.stream id).name,
    e.payload.get? "id" = some (.string e.stream.id)

namespace Log

variable {log now : Log} {owner : Owner} {id : String} {life : Life}

lemma Tells.streamOf_own (t : log.Tells owner id life) :
    streamOf log.events (owner.stream id).name = log.about owner.instanceId id := by
  rw [show (owner.stream id).name = ⟨owner.instanceId, owner.scope.streamType, id⟩ from rfl,
    t.streamOf_eq, if_pos rfl]

lemma Tells.streamOf_sibling (t : log.Tells owner id life) :
    streamOf log.events (owner.sibling id).name = [] := by
  rw [show (owner.sibling id).name = ⟨owner.instanceId, owner.scope.other.streamType, id⟩ from rfl,
    t.streamOf_eq, if_neg]
  cases owner.scope <;> decide

/-- A life is told in the tags of its events. -/
lemma Tells.grammar (t : log.Tells owner id life) (hs : log.Sound) :
    ∃ tags, Grammar log owner id tags := by
  obtain ⟨tags, ht, h⟩ := Chronicle.told t
  have hl := congrArg List.length ht
  simp only [List.length_map] at hl
  refine ⟨tags, t.streamOf_sibling, h.spelled, ?_, ?_, ?_, ?_⟩
  · rw [t.streamOf_own, ht]
  · rw [hs.sequences, t.streamOf_own, hl]
  · intro e he
    rw [t.streamOf_own] at he
    rw [Chronicle.stream t e he]
    rfl
  · intro e he
    rw [t.streamOf_own] at he
    obtain ⟨ev, hev, hr⟩ := Chronicle.records t e he
    rw [hr.payload_id hev, hr.stream]
    rfl

/-- Where there are events, whoever they are about later is the owner there is now. -/
lemma Grows.tells (g : log.Grows now) (t : log.Tells owner id life)
    (hne : log.about owner.instanceId id ≠ []) : ∃ next, now.Tells owner id next := by
  obtain ⟨other, next, hi, t'⟩ := g.lawful.told owner.instanceId id
  obtain ⟨e, he⟩ := List.exists_mem_of_ne_nil _ hne
  have hp : log.about owner.instanceId id <+: now.about owner.instanceId id := g.kept.filter _
  have hs := Chronicle.stream t e he
  have hs' := Chronicle.stream t' e (hi.symm ▸ hp.subset he)
  exact ⟨next, Owner.stream_inj.mp (hs'.symm.trans hs) ▸ t'⟩

end Log

/-- How the streams of an id may go on: after the events they had others that do not add the
provider, and none at all after its removal. -/
structure Continues (log later : Log) (owner : Owner) (id : String) (tags rest : List Tag) :
    Prop where
  kept : log.events <+: later.events
  grammar : Grammar later owner id (tags ++ rest)
  once : ∀ k, .added k ∉ rest
  closed : tags.getLast? = some .removed → rest = []

namespace Log

variable {log now : Log} {owner : Owner} {id : String} {life : Life} {tags : List Tag}

lemma Grows.continues (g : log.Grows now) (t : log.Tells owner id life)
    (hg : Grammar log owner id tags) (hne : tags ≠ []) :
    ∃ rest, Continues log now owner id tags rest := by
  have ha : log.about owner.instanceId id ≠ [] := by
    intro h0
    have ht := hg.types
    rw [t.streamOf_own, h0, List.map_nil] at ht
    exact hne (List.map_eq_nil_iff.mp ht.symm)
  obtain ⟨next, t'⟩ := g.tells t ha
  obtain ⟨all, hg'⟩ := t'.grammar g.lawful.sound
  have hp : tags <+: all := by
    rw [← List.prefix_map_iff_of_injective fun _ _ h => Tag.name_injective h, ← hg.types,
      ← hg'.types]
    exact (g.kept.filter _).map _
  obtain ⟨rest, rfl⟩ := hp
  have hs : Tag.Spelled (tags ++ rest) := hg'.spelled.resolve_left (by simp [hne])
  refine ⟨rest, g.kept, hg', fun k hk => ?_, fun hl => ?_⟩
  · apply hs.added_not_mem k
    rw [List.tail_append_of_ne_nil hne]
    exact List.mem_append_right _ hk
  · by_contra hr
    apply hs.removed_not_mem
    rw [List.dropLast_append_of_ne_nil hr]
    exact List.mem_append_left _ (List.mem_of_getLast? hl)

end Log

/-- Whatever commands make their calls on an empty log, in whatever order: all that an id has in its
streams is one life of one owner's provider, and if there is any, that life can only go on. -/
theorem streams_grammar (clock : Nat → Stamp) (commands : List Invocation) (schedule : List Nat)
    (instanceId id : String) : ∃ owner tags, owner.instanceId = instanceId ∧
      Grammar ((Board.start {} commands).run clock schedule).log owner id tags ∧
      (tags ≠ [] → ∀ more, ∃ rest, Continues ((Board.start {} commands).run clock schedule).log
        ((Board.start {} commands).run clock (schedule ++ more)).log owner id tags rest) := by
  have hf : ((Board.start {} commands).run clock schedule).Fair clock commands :=
    (Board.fair_start Log.lawful_empty commands).run schedule
  obtain ⟨owner, life, hi, t⟩ := hf.lawful.told instanceId id
  obtain ⟨tags, hg⟩ := t.grammar hf.lawful.sound
  refine ⟨owner, tags, hi, hg, fun hne more => ?_⟩
  rw [Board.run_append]
  exact (hf.run_grows more).continues t hg hne

end Federation
