import Federation.Proofs.Command.Appending
import Federation.Proofs.Provider.Inquiry
import Federation.Proofs.Provider.Replay

/-!
Reading again. A model keeps no account of which events it has reduced: loaded a second time it
reduces the whole history once more, starting from what the first time has left. In a history that
commands have written this makes no difference.
-/
namespace Federation

namespace Revision

/-- One revision after the other. -/
def andThen (r later : Revision S k) : Revision S k :=
  ⟨fun f h => (later.plain f h).or (r.plain f h), fun h => (later.secret h).or (r.secret h)⟩

end Revision

namespace Settings

lemma revise_andThen (s : Settings S k) (r later : Revision S k) :
    s.revise (r.andThen later) = (s.revise r).revise later := by
  have hp : s.plain.patch (r.andThen later).plain = (s.plain.patch r.plain).patch later.plain := by
    funext f h
    simp only [Record.patch, Revision.andThen, Option.getD_or]
  rw [revise, hp]
  simp only [revise, Revision.andThen, Option.getD_or]

/-- What has been given may be given again. -/
lemma revise_revise (s : Settings S k) (r : Revision S k) :
    (s.revise r).revise r = s.revise r := by
  have ho (α : Type) (o : Option α) (a : α) : o.getD (o.getD a) = o.getD a := by
    cases o <;> rfl
  have hp : (s.plain.patch r.plain).patch r.plain = s.plain.patch r.plain := by
    funext f h
    exact ho _ _ _
  simp only [revise, hp, ho]

end Settings

/-- All that events write of a provider, the last of it last. -/
def Event.written (k : Kind) : List Event → Revision (Option Sealed) k
  | [] => .empty
  | ev :: h => (ev.writes k).andThen (written k h)

namespace Provider

variable {k : Kind} {p : Provider k} {h : List Event}

lemma apply_status (p : Provider k) (ev : Event) : (p.apply ev).status = p.status.after k ev := by
  by_cases hp : p.status = .removed
  · rw [apply_of_removed hp, hp]
    cases ev <;> rfl
  · rw [apply_of_ne hp]

lemma foldl_status (h : List Event) (p : Provider k) :
    (h.foldl (fun p ev => p.apply ev) p).status = h.foldl (Status.after k) p.status := by
  induction h generalizing p with
  | nil => rfl
  | cons ev h ih => rw [List.foldl_cons, ih, apply_status, List.foldl_cons]

/-- Who is not removed in the end has taken all that was written. -/
lemma foldl_settings (hq : (h.foldl (fun p ev => p.apply ev) p).status ≠ .removed) :
    (h.foldl (fun p ev => p.apply ev) p).settings = p.settings.revise (Event.written k h) := by
  induction h generalizing p with
  | nil => rfl
  | cons ev h ih =>
    have hp : p.status ≠ .removed := fun hp => hq (by rw [foldl_apply_of_removed hp, hp])
    simp only [List.foldl_cons] at hq ⊢
    rw [ih hq, apply_of_ne hp, Event.written, Settings.revise_andThen]

/-- A history that leaves the status of its provider alone leaves all of it alone. -/
lemma foldl_again (hp : h.foldl (fun p ev => p.apply ev) {} = p)
    (hs : h.foldl (Status.after k) p.status = p.status) :
    h.foldl (fun p ev => p.apply ev) p = p := by
  by_cases hr : p.status = .removed
  · exact foldl_apply_of_removed hr h
  · have hst : (h.foldl (fun p ev => p.apply ev) p).status = p.status :=
      (foldl_status h p).trans hs
    have hset : (h.foldl (fun p ev => p.apply ev) p).settings = p.settings := by
      rw [foldl_settings (hst ▸ hr), ← hp, foldl_settings (hp ▸ hr), Settings.revise_revise]
    generalize h.foldl (fun p ev => p.apply ev) p = q at hst hset
    cases p
    cases q
    cases hst
    cases hset
    rfl

end Provider

/-- The status of a provider that had one already when its life was told. -/
def Status.retold (k : Kind) (s : Status) : Life → Status
  | .vacant => s
  | .live _ m _ => if s = .active ∧ m = true ∧ k = .oidc then .migrated else s
  | .gone => .removed

namespace Status

variable {k : Kind} {s : Status}

lemma retold_ne_unspecified (hs : s ≠ .unspecified) (life : Life) :
    s.retold k life ≠ .unspecified := by
  cases life with
  | vacant => exact hs
  | live j m c =>
    rw [retold]
    split
    · exact nofun
    · exact hs
  | gone => exact nofun

lemma after_removed (hs : s ≠ .unspecified) (id : String) :
    s.after k (.removed id) = .removed := by
  cases s with
  | unspecified => exact absurd rfl hs
  | _ => rfl

end Status

namespace Provider

variable {k : Kind} {p : Provider k} {life later : Life} {ev : Event} {s : Status}

lemma retold_step (hm : life.Moves ev later) (hs : s ≠ .unspecified) :
    (if ev.tag ∈ k.readTags then (s.retold k life).after k ev else s.retold k life) =
      s.retold k later := by
  cases hm with
  | @add j =>
    simp only [Event.tag, Kind.added_mem_readTags, Status.retold]
    cases s <;> simp_all [Status.after]
  | change => cases s <;> simp [Status.retold, Status.after]
  | @migrate c t =>
    have ht := t.kind_ne_oidc
    simp only [Event.tag, Kind.migrated_mem_readTags, Status.retold]
    by_cases hk : k = .oidc
    · cases s <;> simp_all [Status.after]
    · cases s <;> simp_all [Status.after, eq_comm]
  | remove =>
    rw [Event.tag, if_pos Kind.removed_mem_readTags]
    exact Status.after_removed (Status.retold_ne_unspecified hs _) _

/-- The status that a history has left is where the history told once more leaves it. -/
lemma Shows.retold (h : p.Shows life) (hs : p.status ≠ .unspecified)
    (hm : ∀ m c, life = .live .oidc m c → m = false) : p.status.retold k life = p.status := by
  cases life with
  | vacant => rfl
  | live j m c =>
    by_cases hj : j = k
    · subst hj
      simp only [Status.retold, (h.1 rfl).1]
      split
      · next hc =>
        obtain ⟨-, hm', rfl⟩ := hc
        cases (hm m c rfl).symm.trans hm'
      · rfl
    · have hst := h.2 hj
      split at hst
      · simp [Status.retold, hst]
      · exact absurd hst hs
  | gone =>
    obtain ⟨ha, hm'⟩ := h
    cases hp : p.status <;> simp_all [Status.retold]

lemma run_retold {owner : Owner} {id : String} {es : List LogEntry}
    (c : Chronicle owner id es life) (hs : p.status ≠ .unspecified) :
    ∃ t, (fold k).run p es = (t, none) ∧ t.status = p.status.retold k life :=
  c.run_fold (f := fold k) (R := fun life t => t.status = p.status.retold k life)
    (fun _ => rfl) rfl fun life ev later t hm _ h => by
      rw [← retold_step hm hs, ← h]
      split
      · exact apply_status t ev
      · rfl

/-- A provider is as its history has left it when that history is told once more. -/
lemma run_again {owner : Owner} {id : String} {es : List LogEntry}
    (c : Chronicle owner id es life) (hp : (fold k).run {} es = (p, none)) :
    (fold k).run p es = (p, none) := by
  have hread : ∀ e ∈ es, ∃ o, Event.recognise k.readTags e.type e.payload = .ok o := by
    intro e he
    obtain ⟨ev, hev, hr⟩ := c.records e he
    exact ⟨_, hr.recognise hev _⟩
  rw [run_told hread, Prod.mk.injEq] at hp
  rw [run_told hread, foldl_again hp.1]
  by_cases hs : p.status = .unspecified
  · -- what no status has led to it leads to again
    calc (told k es).foldl (Status.after k) p.status
        = (told k es).foldl (Status.after k) .unspecified := by rw [hs]
      _ = ((told k es).foldl (fun p ev => p.apply ev) ({} : Provider k)).status :=
        (foldl_status _ ({} : Provider k)).symm
      _ = p.status := by rw [hp.1]
  · obtain ⟨q, hq, hshows⟩ := run_chronicle (k := k) c
    rw [run_told hread, hp.1, Prod.mk.injEq] at hq
    obtain rfl := hq.1
    obtain ⟨t, ht, hst⟩ := run_retold c hs
    rw [run_told hread, Prod.mk.injEq] at ht
    rw [← foldl_status, ht.1, hst]
    exact hshows.retold hs fun m c' hl => Chronicle.not_migrated (hl ▸ c)

end Provider

namespace Removal

/-- The presence of a provider that was known already when its life was told. -/
def retold (s : Status) : Life → Status
  | .gone => .removed
  | _ => s

lemma retold_step {life later : Life} {ev : Event} {s : Status} (hm : life.Moves ev later)
    (hs : s = .active ∨ s = .removed) : apply ev.id (retold s life) ev = retold s later := by
  cases hm <;> rcases hs with rfl | rfl <;>
    simp [apply, retold, Event.isAdded, Event.isRemoved, Status.transition]

lemma run_again {owner : Owner} {id : String} {es : List LogEntry} {life : Life}
    (c : Chronicle owner id es life) :
    (fold id).run life.presence es = (life.presence, none) := by
  by_cases hv : life = .vacant
  · rw [c.vacant_iff.mp hv]
    rfl
  have hs : life.presence = .active ∨ life.presence = .removed := by
    cases life <;> simp_all [Life.presence]
  obtain ⟨t, ht, hst⟩ := c.run_fold (f := fold id) (fun _ => rfl)
    (R := fun l t => t = retold life.presence l) (s := life.presence) rfl
    fun l ev _ t hm hid h => by
      rw [if_pos (mem_readTags _), ← retold_step hm hs, h, hid]
      rfl
  rw [ht, hst]
  cases life <;> rfl

end Removal

namespace Discovery

/-- What an id stands for, where something was known already when its life was told. -/
def retold (owner : Owner) (f : Finding) : Life → Finding
  | .vacant => f
  | .live k _ _ => ⟨f.status, some (k, owner)⟩
  | .gone => ⟨.removed, none⟩

lemma retold_step {owner : Owner} {life later : Life} {ev : Event} {f : Finding}
    (hm : life.Moves ev later) (hs : f.status = .active ∨ f.status = .removed) :
    (if ev.tag ∈ readTags then apply ev.id (retold owner f life) (owner.stream ev.id) ev
      else retold owner f life) = retold owner f later := by
  cases hm <;> rcases hs with hs | hs <;>
    simp [Event.tag, added_mem_readTags, changed_not_mem_readTags, migrated_mem_readTags,
      removed_mem_readTags, apply, retold, Event.isRemoved, Event.kind?, owner?_stream, hs,
      Status.transition]

lemma run_again {owner : Owner} {id : String} {es : List LogEntry} {life : Life}
    (c : Chronicle owner id es life) :
    (fold id).run (life.finding owner) es = (life.finding owner, none) := by
  by_cases hv : life = .vacant
  · rw [c.vacant_iff.mp hv]
    rfl
  have hs : (life.finding owner).status = .active ∨ (life.finding owner).status = .removed := by
    cases life <;> simp_all [Life.finding]
  obtain ⟨t, ht, hst⟩ := c.run_fold (f := fold id) (fun _ => rfl)
    (R := fun l t => t = retold owner (life.finding owner) l) (s := life.finding owner) rfl
    fun l ev _ t hm hid h => by rw [← retold_step hm hs, h, hid]; rfl
  rw [ht, hst]
  cases life <;> simp_all [retold, Life.finding]

end Discovery

namespace Base

/-- A model that has been told whose events it reads learns nothing new from them. -/
lemma advance_again (b : Base) (es more : List LogEntry) :
    (b.advance es).advance (es ++ more) = b.advance (es ++ more) := by
  have ho (s first : String) : orFirst (orFirst s first) first = orFirst s first := by
    unfold orFirst
    split_ifs <;> rfl
  cases es with
  | nil => rfl
  | cons e es =>
    obtain ⟨last, hl⟩ := Option.ne_none_iff_exists'.mp
      (mt List.getLast?_eq_none_iff.mp (List.cons_ne_nil e es))
    obtain ⟨last', hl'⟩ := Option.ne_none_iff_exists'.mp
      (mt List.getLast?_eq_none_iff.mp (List.cons_ne_nil e (es ++ more)))
    simp only [advance, List.cons_append, List.head?_cons, hl, hl', ho]

lemma instanceId_advance {b : Base} {es : List LogEntry}
    (h : ∀ e ∈ es, e.stream.instanceId = b.instanceId) :
    (b.advance es).instanceId = b.instanceId := by
  unfold advance
  split
  · next first _ hf _ =>
    rw [h first (List.mem_of_mem_head? hf)]
    exact orFirst_self _
  · rfl

end Base

namespace View

lemma instanceId_of_wants_discovery {base : Base} {id : String} {e : LogEntry}
    (h : ((discovery id).query base).wants e = true) :
    e.stream.instanceId = base.instanceId := by
  simp only [query, Query.wants, List.any_eq_true, List.mem_flatMap] at h
  obtain ⟨item, ⟨scope, -, hitem⟩, hw⟩ := h
  simp only [List.mem_cons, List.not_mem_nil, or_false] at hitem
  rcases hitem with rfl | rfl
  · exact ((wants_idItem (by decide)).mp hw).1
  · exact ((wants_idItem (by decide)).mp hw).1

end View

namespace Fold

/-- A history that may be folded once more onto what it has come to. -/
def Repeats (f : Fold σ ε) (start : σ) (es : List LogEntry) : Prop :=
  ∃ s, f.run start es = (s, none) ∧ f.run s es = (s, none)

/-- After a history that may be folded once more, what follows goes on from where it did. -/
lemma Repeats.run_append {f : Fold σ ε} {start t : σ} {es more : List LogEntry}
    (h : f.Repeats start es) (ht : f.run start (es ++ more) = (t, none)) :
    ∃ s, f.run start es = (s, none) ∧ f.run s (es ++ more) = (t, none) := by
  obtain ⟨s, hs, ha⟩ := h
  rw [Fold.run_append, hs] at ht
  exact ⟨s, hs, by rw [Fold.run_append, ha]; exact ht⟩

end Fold

namespace Log

variable {log : Log} {f : Fold σ Event} {tags : List Tag} {start : σ}

lemma Tells.repeats_select {owner : Owner} {id : String} {life : Life} {read : List Tag}
    (t : log.Tells owner id life)
    (hf : ∀ e, f.recognise e = Event.recognise read e.type e.payload)
    (hr : ∀ ev : Event, ev.isEarly = false → ev.tag ∈ read → ev.tag ∈ tags)
    (h : f.Repeats start (log.about owner.instanceId id)) :
    f.Repeats start
      ((log.about owner.instanceId id).filter fun e => e.type ∈ tags.map Tag.name) := by
  obtain ⟨s, hs, ha⟩ := h
  exact ⟨s, t.run_select hf hr hs, t.run_select hf hr ha⟩

/-- Views of one stream may read it again if they may read a chronicle again. -/
lemma Lawful.repeats_stream (h : log.Lawful) (other : Owner) (id : String) (hne : tags ≠ [])
    (hf : ∀ e, f.recognise e = Event.recognise tags e.type e.payload)
    (hc : ∀ es life, Chronicle other id es life → f.Repeats start es) :
    f.Repeats start ((⟨[View.streamItem (.ofOwner other id) other.scope tags]⟩ : Query).select
      log.events) := by
  obtain ⟨owner, life, hi, t⟩ := h.told other.instanceId id
  rw [t.select_streamItem hi.symm hne]
  split
  · next ho =>
    subst ho
    exact t.repeats_select hf (fun _ _ ht => ht) (hc _ _ t)
  · exact ⟨start, rfl, rfl⟩

end Log

namespace Inquiry

variable {q : Inquiry} {log now : Log}

/-- A model that has read what it asks for asks for the same again. -/
lemma query_advance {es : List LogEntry} (h : ∀ e ∈ es, q.query.wants e = true) :
    q.view.query (q.base.advance es) = q.query := by
  cases q with
  | provider k owner id =>
    obtain ⟨_, _, hb⟩ := Base.names_advance fun e he =>
      View.wants_stream (List.ne_nil_of_mem Kind.removed_mem_readTags) (h e he)
    rw [base, hb]
    rfl
  | removal owner id =>
    obtain ⟨_, _, hb⟩ := Base.names_advance fun e he =>
      View.wants_stream (List.ne_nil_of_mem (Removal.mem_readTags .removed)) (h e he)
    rw [base, hb]
    rfl
  | discovery instanceId id =>
    have hi : ((Base.ofInstance instanceId id).advance es).instanceId = instanceId :=
      Base.instanceId_advance fun e he => View.instanceId_of_wants_discovery (h e he)
    simp only [view, base, View.query, View.idItem, hi]
    rfl

/-- All that is read of a log may be read again. -/
lemma repeats (q : Inquiry) (h : log.Lawful) :
    q.view.fold.Repeats q.view.initial (q.query.select log.events) := by
  cases q with
  | provider k other id =>
    refine h.repeats_stream (f := Provider.fold k) other id
      (List.ne_nil_of_mem Kind.removed_mem_readTags) (fun _ => rfl) fun es life c => ?_
    obtain ⟨p, hp, -⟩ := Provider.run_chronicle (k := k) c
    exact ⟨p, hp, Provider.run_again c hp⟩
  | removal other id =>
    refine h.repeats_stream (f := Removal.fold id) other id
      (List.ne_nil_of_mem (Removal.mem_readTags .removed)) (fun _ => rfl) fun es life c => ?_
    exact ⟨_, Removal.run_chronicle c, Removal.run_again c⟩
  | discovery instanceId id =>
    obtain ⟨owner, life, rfl, t⟩ := h.told instanceId id
    rw [show (Inquiry.discovery owner.instanceId id).query =
      (View.discovery id).query (.ofInstance owner.instanceId id) from rfl, h.select_discovery]
    refine t.repeats_select (f := Discovery.fold id) (fun _ => rfl)
      (fun ev he ht => (List.mem_append.mp ht).resolve_right (Discovery.not_early he)) ?_
    exact ⟨_, Discovery.run_chronicle t, Discovery.run_again t⟩

/-- A model that was loaded from a log is loaded again, when the log has grown, with the same result
as one that has read nothing yet. -/
lemma load_again (q : Inquiry) (h : log.Lawful) (hn : now.Lawful)
    (hp : log.events <+: now.events) : ∃ m n, q.load log = (m, .ok ()) ∧
      q.load now = (n, .ok ()) ∧ q.view.load m now = (n, .ok ()) := by
  obtain ⟨more, hmore⟩ : q.query.select log.events <+: q.query.select now.events := hp.filter _
  obtain ⟨t, ht, -⟩ := q.repeats hn
  obtain ⟨s, hs, hagain⟩ := (q.repeats h).run_append (hmore ▸ ht)
  have hw : ∀ e ∈ q.query.select log.events, q.query.wants e = true :=
    fun e he => (List.mem_filter.mp he).2
  have hq := query_advance hw
  have hrun : q.view.fold.run s ((q.view.query (q.base.advance (q.query.select log.events))).select
      now.events) = (t, none) := by
    rw [hq, ← hmore]
    exact hagain
  refine ⟨_, _, View.load_reduced h.available hs, View.load_reduced hn.available ht, ?_⟩
  refine (View.load_reduced hn.available hrun).trans ?_
  rw [hq, ← hmore, Base.advance_again, hmore]
  rfl

end Inquiry

/-- Reading a log again does no harm. Of two logs that commands have left, whatever the order of
their calls, let one begin with all the events of the other: a model that was loaded from the
shorter and is loaded again from the longer has the state and the bookkeeping of one that is loaded
from the longer alone. -/
theorem reloading_harmless {clock clock' : Nat → Stamp} {commands commands' : List Invocation}
    {schedule schedule' : List Nat}
    (h : ((Board.start {} commands).run clock schedule).log.events <+:
      ((Board.start {} commands').run clock' schedule').log.events) (q : Inquiry) :
    ∃ m n, q.load ((Board.start {} commands).run clock schedule).log = (m, .ok ()) ∧
      q.load ((Board.start {} commands').run clock' schedule').log = (n, .ok ()) ∧
      q.view.load m ((Board.start {} commands').run clock' schedule').log = (n, .ok ()) :=
  q.load_again (Board.lawful_run clock commands schedule)
    (Board.lawful_run clock' commands' schedule') h

namespace Sample

/-- A provider comes and goes. -/
def passing : List Invocation :=
  [⟨plainService, .add (.ofInstance "instance") "id" ⟨.google, withSecret "secret"⟩⟩,
    ⟨plainService, .remove (.ofInstance "instance") "id"⟩]

end Sample

/-- Who has seen the provider added and looks again sees it removed. -/
theorem reloading_harmless_removed :
    ((Board.start {} Sample.passing).run Sample.stopped [0, 0]).log.events <+:
      ((Board.start {} Sample.passing).run Sample.stopped [0, 0, 1, 1]).log.events ∧
    ((Board.start {} Sample.passing).run Sample.stopped [0, 0, 1, 1]).log.events.map
      LogEntry.type = ["idp.google.added", "idp.removed"] ∧
    ∃ m n, (Inquiry.provider .google (.ofInstance "instance") "id").load
        ((Board.start {} Sample.passing).run Sample.stopped [0, 0]).log = (m, .ok ()) ∧
      (m.state : Provider .google).status = .active ∧
      (Inquiry.provider .google (.ofInstance "instance") "id").view.load m
        ((Board.start {} Sample.passing).run Sample.stopped [0, 0, 1, 1]).log = (n, .ok ()) ∧
      (n.state : Provider .google).status = .removed := by
  have hf : ((Board.start {} Sample.passing).run Sample.stopped [0, 0]).Fair Sample.stopped
      Sample.passing := (Board.fair_start Log.lawful_empty Sample.passing).run [0, 0]
  have hp := (hf.run_grows [1, 1]).kept
  rw [← Board.run_append] at hp
  obtain ⟨m, n, hm, hn, hmn⟩ := reloading_harmless hp
    (.provider .google (.ofInstance "instance") "id")
  refine ⟨hp, by decide +kernel, m, n, hm, ?_, hmn, ?_⟩
  · cases hm
    decide +kernel
  · cases hn
    decide +kernel

end Federation
