import Federation.Proofs.Provider.History
import Mathlib.Data.List.Induction

/-!
What histories come to. Whether a provider stands is asked in different ways: its removal looks for
an event that added it, whoever looks for its id wants to be told its kind, and a reader of one kind
knows the events of that kind only. Here their answers are compared, event by event.
-/
namespace Federation

namespace Event

/-- Something has begun and nothing has been removed since. -/
def stands (begins : Event → Bool) : List Event → Bool
  | [] => false
  | ev :: h => if begins ev then h.all fun ev => !ev.isRemoved else stands begins h

/-- Something stands where it has begun and no removal came after a beginning. -/
lemma stands_iff {begins : Event → Bool} {h : List Event} : stands begins h = true ↔
    (∃ ev ∈ h, begins ev = true) ∧
      h.Pairwise fun ev later => begins ev = true → later.isRemoved = false := by
  induction h with
  | nil => simp [stands]
  | cons ev h ih =>
    rw [stands, List.pairwise_cons]
    cases hb : begins ev with
    | true =>
      simp only [if_true, List.all_eq_true, Bool.not_eq_true']
      refine ⟨fun hall => ⟨⟨ev, List.mem_cons_self, hb⟩, fun r hr _ => hall r hr, ?_⟩,
        fun hp r hr => hp.2.1 r hr trivial⟩
      exact List.pairwise_of_forall_mem_list fun _ _ r hr _ => hall r hr
    | false =>
      simp only [Bool.false_eq_true, if_false, ih, List.mem_cons, exists_eq_or_imp, hb, false_or,
        false_implies, implies_true, true_and]

lemma isRemoved_of_kind? {ev : Event} (h : ev.kind?.isSome = true) : ev.isRemoved = false := by
  cases ev <;> first | rfl | cases h

lemma isRemoved_of_isAdded {ev : Event} (h : ev.isAdded = true) : ev.isRemoved = false := by
  cases ev <;> first | rfl | cases h

end Event

namespace Status

/-- A status that some events make active and removals end. -/
def follow (begins : Event → Bool) (s : Status) (ev : Event) : Status :=
  if ev.isRemoved then s.transition .removed
  else if begins ev then s.transition .active
  else s

variable {begins : Event → Bool}

lemma transition_removed_ne_active (s : Status) : s.transition .removed ≠ .active := by
  cases s <;> decide

lemma foldl_follow_removed (h : List Event) :
    h.foldl (follow begins) .removed = .removed := by
  induction h with
  | nil => rfl
  | cons ev h ih =>
    rw [List.foldl_cons, show follow begins .removed ev = .removed from ?_, ih]
    unfold follow
    split
    · rfl
    · split <;> rfl

lemma foldl_follow_active (h : List Event) :
    h.foldl (follow begins) .active = .active ↔ (h.all fun ev => !ev.isRemoved) = true := by
  induction h with
  | nil => simp
  | cons ev h ih =>
    rw [List.foldl_cons, List.all_cons]
    cases hr : ev.isRemoved with
    | true =>
      rw [show follow begins .active ev = .removed by simp [follow, hr, transition],
        foldl_follow_removed]
      simp
    | false =>
      rw [show follow begins .active ev = .active by simp [follow, hr, transition], ih]
      simp

/-- What stands is active. -/
lemma foldl_follow (hb : ∀ ev, begins ev = true → ev.isRemoved = false) (h : List Event) :
    h.foldl (follow begins) .unspecified = .active ↔ Event.stands begins h = true := by
  induction h with
  | nil => simp [Event.stands]
  | cons ev h ih =>
    rw [List.foldl_cons, Event.stands]
    cases hev : begins ev with
    | true =>
      rw [show follow begins .unspecified ev = .active by
        simp [follow, hb ev hev, hev, transition], foldl_follow_active]
      simp
    | false =>
      rw [show follow begins .unspecified ev = .unspecified by
        unfold follow; split <;> simp [hev, transition], ih]
      simp

end Status

namespace Removal

lemma foldl_apply {id : String} {h : List Event} (hid : ∀ ev ∈ h, ev.id = id) (s : Status) :
    h.foldl (apply id) s = h.foldl (Status.follow Event.isAdded) s := by
  refine List.foldl_ext _ _ s fun s ev hev => ?_
  simp only [apply, hid ev hev, ne_eq, not_true_eq_false, if_false, Status.follow]
  cases ha : ev.isAdded with
  | true => simp [Event.isRemoved_of_isAdded ha]
  | false => simp

end Removal

namespace Discovery

variable {id : String} {owner : Owner}

lemma apply_of_owner {ev : Event} (hid : ev.id = id) (f : Finding) :
    apply id f (owner.stream id) ev =
      ⟨f.status.follow (fun ev => ev.kind?.isSome) ev,
        if ev.isRemoved then none else (ev.kind?.map fun k => (k, owner)).or f.provider⟩ := by
  simp only [apply, hid, ne_eq, not_true_eq_false, if_false, Status.follow, owner?_stream]
  split
  · rfl
  · rcases Option.eq_none_or_eq_some ev.kind? with hk | ⟨k, hk⟩ <;> simp [hk]

lemma status_foldl {h : List Event} (hid : ∀ ev ∈ h, ev.id = id) (f : Finding) :
    (h.foldl (fun f ev => apply id f (owner.stream id) ev) f).status =
      h.foldl (Status.follow fun ev => ev.kind?.isSome) f.status := by
  induction h generalizing f with
  | nil => rfl
  | cons ev h ih =>
    obtain ⟨he, hh⟩ := List.forall_mem_cons.mp hid
    rw [List.foldl_cons, List.foldl_cons, ih hh, apply_of_owner he]

/-- What is active is of the kind that was told last. -/
lemma provider_foldl {h : List Event} (hid : ∀ ev ∈ h, ev.id = id)
    (ha : (h.foldl (fun f ev => apply id f (owner.stream id) ev) {}).status = .active) :
    (h.foldl (fun f ev => apply id f (owner.stream id) ev) {}).provider =
      (h.filterMap Event.kind?).getLast?.map fun k => (k, owner) := by
  induction h using List.reverseRecOn with
  | nil => rfl
  | append_singleton h ev ih =>
    obtain ⟨hh, he⟩ := List.forall_mem_append.mp hid
    have he := List.forall_mem_singleton.mp he
    rw [List.foldl_append, List.foldl_cons, List.foldl_nil, apply_of_owner he] at ha ⊢
    simp only [Status.follow] at ha ⊢
    cases hr : ev.isRemoved with
    | true =>
      simp only [hr, if_true] at ha
      exact absurd ha (Status.transition_removed_ne_active _)
    | false =>
      simp only [hr, Bool.false_eq_true, if_false] at ha ⊢
      cases hk : ev.kind? with
      | some k => simp [hk]
      | none =>
        simp only [hk, Option.isSome_none, Bool.false_eq_true, if_false] at ha
        simp [hk, ih hh ha]

/-- Events that discovery does not read tell it nothing. -/
lemma foldl_filter {h : List Event} (hid : ∀ ev ∈ h, ev.id = id) (f : Finding) :
    (h.filter (·.tag ∈ readTags)).foldl (fun f ev => apply id f (owner.stream id) ev) f =
      h.foldl (fun f ev => apply id f (owner.stream id) ev) f := by
  rw [List.foldl_filter]
  refine List.foldl_ext _ _ f fun f ev hev => ?_
  split
  · rfl
  · next ht =>
    have ht : ev.tag ∉ readTags := by simpa using ht
    have hn : ev.isRemoved = false ∧ ev.kind? = none := by
      cases ev with
      | added k => exact absurd added_mem_readTags ht
      | migrated t => exact absurd migrated_mem_readTags ht
      | removed => exact absurd removed_mem_readTags ht
      | configAdded => exact absurd (show Tag.configAdded ∈ readTags by decide) ht
      | configRemoved => exact absurd (show Tag.configRemoved ∈ readTags by decide) ht
      | _ => exact ⟨rfl, rfl⟩
    rw [apply_of_owner (hid ev hev)]
    simp [Status.follow, hn.1, hn.2]

end Discovery

namespace Log

variable {log : Log} {owner : Owner} {id : String} {k : Kind}

/-- An id is found to stand for a provider if the owner's history has told of a kind and of no
removal since; the kind is the one told last. -/
lemma Historic.discovers_iff (h : log.Historic) : log.Discovers k owner id ↔
    Event.stands (fun ev => ev.kind?.isSome) (log.history owner id) = true ∧
      ((log.history owner id).filterMap Event.kind?).getLast? = some k := by
  obtain ⟨base, o, f, hi, hload, hf, hother⟩ := h.load_discovery owner.instanceId id
  rw [Discovery.foldl_filter h.id_eq] at hf
  have hstatus : f.status = .active ↔
      Event.stands (fun ev => ev.kind?.isSome) (log.history o id) = true := by
    rw [hf, Discovery.status_foldl h.id_eq]
    exact Status.foldl_follow (fun _ => Event.isRemoved_of_kind?) _
  have hprovider : f.status = .active →
      f.provider = ((log.history o id).filterMap Event.kind?).getLast?.map fun k => (k, o) :=
    hf ▸ Discovery.provider_foldl h.id_eq
  have hd : log.Discovers k owner id ↔ f.status = .active ∧ f.provider = some (k, owner) := by
    constructor
    · rintro ⟨m, hm, hs, hp⟩
      obtain rfl := (Prod.mk.inj (hload.symm.trans hm)).1
      exact ⟨hs, hp⟩
    · exact fun hf => ⟨_, hload, hf⟩
  rw [hd]
  by_cases ho : owner = o
  · subst ho
    rw [hstatus]
    refine and_congr_right fun hs => ?_
    rw [hprovider (hstatus.mpr hs), Option.map_eq_some_iff]
    simp only [Prod.mk.injEq, and_true, exists_eq_right]
  · rw [hother owner rfl ho]
    refine ⟨fun ⟨hs, hp⟩ => absurd ?_ ho, fun ⟨hs, _⟩ => nomatch hs⟩
    rw [hprovider hs] at hp
    obtain ⟨_, _, he⟩ := Option.map_eq_some_iff.mp hp
    exact (Prod.mk.inj he).2.symm

/-- Who is about to remove a provider finds one if the owner's history has told that one was added
and of no removal since, and has then read all of the stream. -/
lemma Historic.load_removal (h : log.Historic) (owner : Owner) (id : String) :
    ∃ (base : Base) (s : Status), (View.ofRemoval owner id).load
        ((View.ofRemoval owner id).fresh (.ofOwner owner id)) log = (⟨base, s, []⟩, .ok ()) ∧
      (s = .active ↔ Event.stands Event.isAdded (log.history owner id) = true) ∧
      (s = .active → base.processed = log.tail (owner.stream id).name) := by
  obtain ⟨base, hload, hp⟩ := h.load_stream (v := View.ofRemoval owner id)
    (List.ne_nil_of_mem (Removal.mem_readTags .removed)) rfl fun _ => rfl
  have hall : (log.history owner id).filter (·.tag ∈ Removal.readTags) = log.history owner id :=
    List.filter_eq_self.mpr fun ev _ => by simpa using Removal.mem_readTags ev.tag
  rw [hall] at hload
  have hs : (log.history owner id).foldl (Removal.apply id) .unspecified = .active ↔
      Event.stands Event.isAdded (log.history owner id) = true := by
    rw [Removal.foldl_apply h.id_eq]
    exact Status.foldl_follow (fun _ => Event.isRemoved_of_isAdded) _
  refine ⟨base, _, hload, hs, fun ha => ?_⟩
  cases hl : (log.history owner id).getLast? with
  | none =>
    have ha : Event.stands Event.isAdded (log.history owner id) = true := hs.mp ha
    rw [List.getLast?_eq_none_iff.mp hl] at ha
    cases ha
  | some last => exact (hp last hl).mpr (Removal.mem_readTags _)

end Log
end Federation
