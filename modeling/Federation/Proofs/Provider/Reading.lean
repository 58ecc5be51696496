import Federation.Proofs.Provider.Life
import Federation.Provider.View

/-!
What the views make of a life. The provider of a kind, the question whether a provider exists and
what an id stands for are read by different folds; each of them says of a chronicle what its life
has come to.
-/
namespace Federation

namespace Fold

/-- Entries that are not recognised may be left out. -/
lemma run_filter (f : Fold σ ε) {w : LogEntry → Bool} (s : σ) {es : List LogEntry}
    (h : ∀ e ∈ es, w e = false → f.recognise e = .ok none) :
    f.run s (es.filter w) = f.run s es := by
  induction es generalizing s with
  | nil => rfl
  | cons e es ih =>
    have ih := fun s => ih s fun e he => h e (List.mem_cons_of_mem _ he)
    cases hw : w e with
    | true => simp only [List.filter_cons, hw, if_true, run, ih]
    | false =>
      have he := h e List.mem_cons_self hw
      rw [List.filter_cons_of_neg (by simp [hw]), ih, run, he]

end Fold

namespace Chronicle

variable {owner : Owner} {id : String} {es : List LogEntry} {life : Life}

/-- What a fold keeps at each step of a life holds of what it makes of a chronicle. -/
lemma run_fold {f : Fold σ Event} {tags : List Tag}
    (hf : ∀ e, f.recognise e = Event.recognise tags e.type e.payload)
    {R : Life → σ → Prop} {s : σ} (start : R .vacant s)
    (step : ∀ life ev later s, Life.Moves life ev later → ev.id = id → R life s →
      R later (if ev.tag ∈ tags then f.apply s (owner.stream id) ev else s))
    (c : Chronicle owner id es life) : ∃ t, f.run s es = (t, none) ∧ R life t := by
  induction c with
  | nil => exact ⟨s, rfl, start⟩
  | @snoc es life e ev later c hm hr ih =>
    obtain ⟨t, ht, hR⟩ := ih
    refine ⟨_, ?_, step life ev later t hm hr.names hR⟩
    rw [Fold.run_append, ht]
    simp only [Fold.run, hf, hr.recognise hm.isEarly]
    by_cases ht : ev.tag ∈ tags
    · simp only [if_pos ht, hr.stream]
    · simp only [if_neg ht]

end Chronicle

namespace Settings

lemma revise_map (s : Settings S k) (r : Revision S k) (f : S → T) :
    (s.map f).revise (r.map f) = (s.revise r).map f := by
  have hs : (fun h => ((r.secret h).map f).getD (f (s.secret h))) =
      fun h => f ((r.secret h).getD (s.secret h)) := by
    funext h
    cases r.secret h <;> rfl
  simp only [Settings.map, Revision.map, revise, hs]

end Settings

namespace Kind

lemma added_mem_readTags {j k : Kind} : .added j ∈ k.readTags ↔ j = k := by
  cases k <;> simp [readTags, tags, earlyTags]

lemma changed_mem_readTags {j k : Kind} : .changed j ∈ k.readTags ↔ j = k := by
  cases k <;> simp [readTags, tags, earlyTags]

lemma migrated_mem_readTags {t : Target} {k : Kind} :
    .migrated t ∈ k.readTags ↔ k = .oidc ∨ k = t.kind := by
  cases k <;> cases t <;> simp [readTags, tags, earlyTags, Target.kind]

lemma removed_mem_readTags {k : Kind} : .removed ∈ k.readTags := by
  cases k <;> simp [readTags, tags]

end Kind

namespace Event

variable {k : Kind}

@[simp] lemma writes_added (id : String) (s : Settings Sealed k) :
    (added k id s).writes k = (s.map some).toRevision := dif_pos rfl

@[simp] lemma writes_changed (id : String) (r : Revision Sealed k) :
    (changed k id r).writes k = r.map some := dif_pos rfl

@[simp] lemma writes_migrated (t : Target) (id : String) (s : Settings Sealed t.kind) :
    (migrated t id s).writes t.kind = (s.map some).toRevision := dif_pos rfl

lemma writes_migrated_of_ne {t : Target} (h : t.kind ≠ k) (id : String)
    (s : Settings Sealed t.kind) : (migrated t id s).writes k = .empty := dif_neg h

end Event

lemma Target.kind_ne_oidc (t : Target) : t.kind ≠ .oidc := by cases t <;> decide

namespace Provider

variable {k : Kind}

/-- What the provider of a kind shows of a life. -/
def Shows (p : Provider k) : Life → Prop
  | .vacant => p.status = .unspecified
  | .live j migrated s =>
    (∀ h : j = k, p.status = .active ∧ p.settings = (h ▸ s).map some) ∧
      (j ≠ k → p.status = if migrated = true ∧ k = .oidc then .migrated else .unspecified)
  | .gone => p.status ≠ .active ∧ p.status ≠ .migrated

lemma shows_step {life later : Life} {ev : Event} {p : Provider k} (hm : life.Moves ev later)
    (h : p.Shows life) : (if ev.tag ∈ k.readTags then p.apply ev else p).Shows later := by
  cases hm with
  | @add j id s =>
    simp only [Event.tag, Kind.added_mem_readTags]
    split
    · next hj =>
      subst hj
      simp only [Shows] at h
      refine ⟨fun _ => ?_, fun hn => absurd rfl hn⟩
      simp [apply, h, Event.asks, Event.writes, Status.transition, Settings.revise_toRevision]
    · next hj => exact ⟨fun e => absurd e hj, fun _ => by simpa [Shows] using h⟩
  | @change j m s id r =>
    simp only [Event.tag, Kind.changed_mem_readTags]
    split
    · next hj =>
      subst hj
      obtain ⟨ha, hs⟩ := h.1 rfl
      refine ⟨fun _ => ?_, fun hn => absurd rfl hn⟩
      simp [apply, ha, hs, Event.asks, Event.writes, Settings.revise_map]
    · next hj => exact ⟨fun e => absurd e hj, h.2⟩
  | @migrate s t id s' =>
    simp only [Event.tag, Kind.migrated_mem_readTags]
    by_cases ho : k = .oidc
    · subst ho
      obtain ⟨ha, -⟩ := h.1 rfl
      refine ⟨fun e => absurd e t.kind_ne_oidc, fun hn => ?_⟩
      simp [apply, ha, Event.asks, t.kind_ne_oidc, Status.transition]
    · have hu := h.2 (Ne.symm ho)
      simp only [Bool.false_eq_true, false_and, if_false] at hu
      simp only [ho, false_or]
      split
      · next ht =>
        subst ht
        refine ⟨fun _ => ?_, fun hn => absurd rfl hn⟩
        simp [apply, hu, Event.asks, Event.writes, Status.transition, Settings.revise_toRevision]
      · next ht => exact ⟨fun e => absurd e.symm ht, fun _ => by simp [ho, hu]⟩
  | @remove j m s id =>
    simp only [Event.tag, Kind.removed_mem_readTags, if_true]
    by_cases hj : j = k
    · subst hj
      obtain ⟨ha, -⟩ := h.1 rfl
      simp [Shows, apply, ha, Event.asks, Status.transition]
    · have hu := h.2 hj
      split at hu <;> simp [Shows, apply, hu, Event.asks, Status.transition]

/-- The fold of a kind shows the life that a chronicle tells. -/
lemma run_chronicle {owner : Owner} {id : String} {es : List LogEntry} {life : Life}
    (c : Chronicle owner id es life) :
    ∃ p, (fold k).run {} es = (p, none) ∧ p.Shows life :=
  c.run_fold (f := fold k) (R := fun life p => p.Shows life) (fun _ => rfl) rfl
    fun _ _ _ _ hm _ h => shows_step hm h

end Provider

namespace Life

/-- Whether a provider exists, as its removal asks. -/
def presence : Life → Status
  | vacant => .unspecified
  | live .. => .active
  | gone => .removed

/-- What the id of a life stands for. -/
def finding (owner : Owner) : Life → Finding
  | vacant => {}
  | live k _ _ => ⟨.active, some (k, owner)⟩
  | gone => ⟨.removed, none⟩

end Life

namespace Removal

lemma mem_readTags (t : Tag) : t ∈ readTags := by
  cases t with
  | added k => cases k <;> decide
  | changed k => cases k <;> decide
  | migrated t => cases t <;> decide
  | _ => decide

lemma presence_step {life later : Life} {ev : Event} (hm : life.Moves ev later) :
    apply ev.id life.presence ev = later.presence := by
  cases hm <;> simp [apply, Event.isAdded, Event.isRemoved, Life.presence, Status.transition]

lemma run_chronicle {owner : Owner} {id : String} {es : List LogEntry} {life : Life}
    (c : Chronicle owner id es life) : (fold id).run .unspecified es = (life.presence, none) := by
  obtain ⟨s, hs, h⟩ := c.run_fold (f := fold id) (fun _ => rfl)
    (R := fun life s => s = life.presence) (s := .unspecified) rfl fun life ev _ s hm hid h => by
      rw [if_pos (mem_readTags _), ← presence_step hm, h, hid]
      rfl
  rw [hs, h]

end Removal

namespace Discovery

lemma added_mem_readTags {k : Kind} : .added k ∈ readTags := by cases k <;> decide

lemma changed_not_mem_readTags {k : Kind} : .changed k ∉ readTags := by cases k <;> decide

lemma migrated_mem_readTags {t : Target} : .migrated t ∈ readTags := by cases t <;> decide

lemma removed_mem_readTags : Tag.removed ∈ readTags := by decide

lemma not_early {ev : Event} (h : ev.isEarly = false) : ev.tag ∉ earlyTags := by
  intro ht
  simp only [earlyTags, List.mem_cons, List.not_mem_nil, or_false] at ht
  rcases ht with ht | ht <;> simp [Event.isEarly, ht, Tag.early] at h

lemma owner?_stream (owner : Owner) (id : String) : owner? (owner.stream id) = some owner := by
  simp [owner?, Owner.stream, Scope.ofStreamType?_streamType]

lemma finding_step {owner : Owner} {life later : Life} {ev : Event} (hm : life.Moves ev later) :
    (if ev.tag ∈ readTags then apply ev.id (life.finding owner) (owner.stream ev.id) ev
      else life.finding owner) = later.finding owner := by
  cases hm <;>
    simp [Event.tag, added_mem_readTags, changed_not_mem_readTags, migrated_mem_readTags,
      removed_mem_readTags, apply, Event.isRemoved, Event.kind?, owner?_stream, Life.finding,
      Status.transition]

lemma run_chronicle {owner : Owner} {id : String} {es : List LogEntry} {life : Life}
    (c : Chronicle owner id es life) : (fold id).run {} es = (life.finding owner, none) := by
  obtain ⟨s, hs, h⟩ := c.run_fold (f := fold id) (fun _ => rfl)
    (R := fun life s => s = life.finding owner) (s := {}) rfl
    fun life ev later s hm hid h => by rw [← finding_step hm, h, hid]; rfl
  rw [hs, h]

end Discovery

end Federation
