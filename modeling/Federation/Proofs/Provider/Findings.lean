import Federation.Proofs.Provider.Replay

/-!
What an id is found to stand for, event by event. Events of any kind may come in any order, from
either scope and about other ids too. While the id stands for an active provider its kind and its
owner are known, and what was removed stays removed. But a removed provider is not forgotten for
good: an event that tells its kind once more is remembered.
-/
namespace Federation

namespace View

variable {v : View}

/-- A model reads batches of events one after another; what was wrong with each. -/
def readEach (v : View) : Model v.State → List (List LogEntry) →
    Model v.State × List (Except LogError Unit)
  | m, [] => (m, [])
  | m, es :: batches =>
    ((readEach v (v.read m es).1 batches).1,
      (v.read m es).2 :: (readEach v (v.read m es).1 batches).2)

/-- Batches that can be read come to the same as all their events in one. -/
lemma readEach_reduced {base : Base} {s t : v.State} {batches : List (List LogEntry)}
    (h : v.fold.run s batches.flatten = (t, none)) :
    v.readEach ⟨base, s, []⟩ batches =
      (⟨batches.foldl Base.advance base, t, []⟩, batches.map fun _ => .ok ()) := by
  induction batches generalizing base s with
  | nil =>
    obtain rfl : s = t := congrArg Prod.fst h
    rfl
  | cons es batches ih =>
    rw [List.flatten_cons, Fold.run_append] at h
    split at h
    · next u hu => rw [readEach, read_reduced hu, ih h, List.foldl_cons, List.map_cons]
    · next hu => cases h

end View

namespace Discovery

/-- What an event tells of an id: that its provider is gone, or which kind it has and whose it
is. -/
def word? (id : String) (a : EventStream) (ev : Event) : Option (Option (Kind × Owner)) :=
  if ev.id ≠ id then none
  else if ev.isRemoved then some none
  else
    match ev.kind?, owner? a with
    | some k, some owner => some (some (k, owner))
    | _, _ => none

/-- All that entries tell of an id, in their order. -/
def words (id : String) (es : List LogEntry) : List (Option (Kind × Owner)) :=
  es.filterMap fun e =>
    (Event.recognise readTags e.type e.payload).toOption.join.bind (word? id e.stream)

/-- What is known of an id after one more word. -/
def hear (f : Finding) (word : Option (Kind × Owner)) : Finding :=
  ⟨f.status.transition (if word.isSome then .active else .removed), word⟩

/-- What an id is found to stand for after some entries. -/
def found (id : String) (es : List LogEntry) : Finding := ((fold id).run {} es).1

variable {id : String} {es : List LogEntry} {f : Finding}

lemma apply_eq (id : String) (f : Finding) (a : EventStream) (ev : Event) :
    apply id f a ev = (word? id a ev).elim f (hear f) := by
  unfold apply word?
  split
  · rfl
  · split
    · rfl
    · cases ev.kind? <;> cases owner? a <;> rfl

lemma words_cons {e : LogEntry} {o : Option Event}
    (h : Event.recognise readTags e.type e.payload = .ok o) (es : List LogEntry) :
    words id (e :: es) = (o.bind (word? id e.stream)).toList ++ words id es := by
  have hw : (Event.recognise readTags e.type e.payload).toOption.join = o := by
    rw [h]
    rfl
  rw [words, List.filterMap_cons, hw]
  cases o.bind (word? id e.stream) <;> rfl

lemma run_words (hread : ∀ e ∈ es, ∃ o, Event.recognise readTags e.type e.payload = .ok o)
    (f : Finding) : (fold id).run f es = ((words id es).foldl hear f, none) := by
  induction es generalizing f with
  | nil => rfl
  | cons e es ih =>
    obtain ⟨⟨o, ho⟩, hes⟩ := List.forall_mem_cons.mp hread
    have hf : (fold id).recognise e = .ok o := ho
    rw [words_cons ho]
    cases o with
    | none =>
      simp only [Fold.run, hf]
      exact ih hes f
    | some ev =>
      have hap : (fold id).apply f e.stream ev = (word? id e.stream ev).elim f (hear f) :=
        apply_eq id f e.stream ev
      simp only [Fold.run, hf, hap, ih hes, Option.bind_some]
      cases word? id e.stream ev <;> rfl

lemma found_eq (hread : ∀ e ∈ es, ∃ o, Event.recognise readTags e.type e.payload = .ok o) :
    found id es = (words id es).foldl hear {} := congrArg Prod.fst (run_words hread {})

lemma found_append {seen later : List LogEntry}
    (hread : ∀ e ∈ seen ++ later, ∃ o, Event.recognise readTags e.type e.payload = .ok o) :
    found id (seen ++ later) = (words id later).foldl hear (found id seen) := by
  obtain ⟨hseen, hlater⟩ := List.forall_mem_append.mp hread
  rw [found, Fold.run_append, run_words hseen, found_eq hseen]
  exact congrArg Prod.fst (run_words hlater _)

/-- The last word is remembered, whatever the status. -/
lemma provider_heard (words : List (Option (Kind × Owner))) (f : Finding) :
    (words.foldl hear f).provider = words.getLast?.getD f.provider := by
  induction words generalizing f with
  | nil => rfl
  | cons word words ih =>
    rw [List.foldl_cons, ih, List.getLast?_cons, Option.getD_some]
    rfl

lemma removed_heard (h : f.status = .removed) (words : List (Option (Kind × Owner))) :
    (words.foldl hear f).status = .removed := by
  induction words generalizing f with
  | nil => exact h
  | cons word words ih => exact ih (by rw [hear, h, Status.transition_removed])

/-- Of what is active the kind and the owner are known, and of what was never active they are
not. -/
structure Sane (f : Finding) : Prop where
  active : f.status = .active → f.provider.isSome = true
  unseen : f.status = .unspecified → f.provider = none
  lasting : f.status ≠ .migrated

lemma Sane.unheard : Sane {} where
  active h := nomatch h
  unseen _ := rfl
  lasting h := nomatch h

lemma Sane.hear (h : Sane f) (word : Option (Kind × Owner)) : Sane (hear f word) := by
  cases hs : f.status with
  | migrated => exact absurd hs h.lasting
  | _ => cases word <;> constructor <;> simp [Discovery.hear, hs, Status.transition]

lemma Sane.heard (h : Sane f) (words : List (Option (Kind × Owner))) :
    Sane (words.foldl Discovery.hear f) := by
  induction words generalizing f with
  | nil => exact h
  | cons word words ih => exact ih (h.hear word)

/-- A removed provider is forgotten just where the last word is its removal. -/
lemma provider_eq_none_iff {words : List (Option (Kind × Owner))}
    (h : (words.foldl hear {}).status = .removed) :
    (words.foldl hear {}).provider = none ↔ words.getLast? = some none := by
  rw [provider_heard]
  cases hl : words.getLast? with
  | none =>
    -- without a word nothing is removed
    rw [List.getLast?_eq_none_iff.mp hl] at h
    cases h
  | some word => simp

end Discovery

/-- What is found under an id, after every event of any batches that can be read. While it is active
its kind and its owner are known; as long as it was never active they are not. Once removed it stays
removed, whatever follows; its kind and its owner are then those of the last word on it, so they are
forgotten if that was a removal, and only then. -/
theorem findings_settled {id : String} {batches : List (List LogEntry)}
    (hread : ∀ es ∈ batches, ∀ e ∈ es, ∃ o,
      Event.recognise Discovery.readTags e.type e.payload = .ok o) (base : Base) :
    (View.discovery id).readEach ((View.discovery id).fresh base) batches =
      (⟨batches.foldl Base.advance base, Discovery.found id batches.flatten, []⟩,
        batches.map fun _ => .ok ()) ∧
    ∀ seen later, batches.flatten = seen ++ later →
      Discovery.Sane (Discovery.found id seen) ∧
      ((Discovery.found id seen).status = .removed →
        ((Discovery.found id seen).provider = none ↔
          (Discovery.words id seen).getLast? = some none) ∧
        (Discovery.found id (seen ++ later)).status = .removed ∧
        (Discovery.found id (seen ++ later)).provider =
          (Discovery.words id later).getLast?.getD (Discovery.found id seen).provider) := by
  have hall : ∀ e ∈ batches.flatten, ∃ o,
      Event.recognise Discovery.readTags e.type e.payload = .ok o := by
    intro e he
    obtain ⟨es, hes, he⟩ := List.mem_flatten.mp he
    exact hread es hes e he
  refine ⟨View.readEach_reduced ?_, fun seen later hsplit => ?_⟩
  · rw [Discovery.found_eq hall]
    exact Discovery.run_words hall {}
  · rw [hsplit] at hall
    rw [Discovery.found_append hall,
      Discovery.found_eq (List.forall_mem_append.mp hall).1]
    refine ⟨Discovery.Sane.unheard.heard _, fun hrem => ⟨?_, ?_, ?_⟩⟩
    · exact Discovery.provider_eq_none_iff hrem
    · exact Discovery.removed_heard hrem _
    · exact Discovery.provider_heard _ _

namespace Early

/-- A provider comes and goes. -/
def passing : List (List LogEntry) :=
  [[entry .oidc, further "idp.unknown" []], [further Tag.configRemoved.name []]]

/-- It comes, goes and comes back. -/
def returning : List (List LogEntry) := passing ++ [[entry .oidc]]

end Early

theorem findings_settled_passing :
    (∀ es ∈ Early.passing, ∀ e ∈ es, ∃ o,
      Event.recognise Discovery.readTags e.type e.payload = .ok o) ∧
    ((View.discovery "id").readEach ((View.discovery "id").fresh (.ofInstance "instance" "id"))
        Early.passing).1.state = (⟨.removed, none⟩ : Finding) := by
  have hread : ∀ es ∈ Early.passing, ∀ e ∈ es, ∃ o,
      Event.recognise Discovery.readTags e.type e.payload = .ok o := by
    simp only [Early.passing, List.forall_mem_cons, List.not_mem_nil, false_imp_iff,
      implies_true, and_true]
    exact ⟨⟨⟨_, rfl⟩, ⟨_, rfl⟩⟩, ⟨_, rfl⟩⟩
  refine ⟨hread, ?_⟩
  obtain ⟨hall, h⟩ := @findings_settled "id" _ hread (.ofInstance "instance" "id")
  have hrem : (Discovery.found "id" Early.passing.flatten).status = .removed := rfl
  have hnone := ((h _ [] (List.append_nil _).symm).2 hrem).1.mpr rfl
  rw [hall]
  exact congrArg₂ Finding.mk hrem hnone

/-- A provider that comes back after its removal is found removed, with its kind and its owner. -/
theorem removed_provider_remembered :
    ((View.discovery "id").readEach ((View.discovery "id").fresh (.ofInstance "instance" "id"))
        Early.returning).1.state = (⟨.removed, some (.oidc, Early.owner)⟩ : Finding) := rfl

end Federation
