import Federation.Proofs.Log.Numbering
import Federation.Provider.View

/-!
One question to the log for several models. Each of them comes to what it would come to alone, up to
the first that could not be loaded alone either.
-/
namespace Federation

universe u

namespace Query

/-- A query selects the same from all that a wider one selects. -/
lemma select_select {q r : Query} (h : ∀ a ∈ q.alternatives, a ∈ r.alternatives)
    (es : List LogEntry) : q.select (r.select es) = q.select es := by
  rw [select, select, select, List.filter_filter]
  refine List.filter_congr fun e _ => ?_
  cases hq : q.wants e with
  | false => rfl
  | true =>
    obtain ⟨a, ha, hw⟩ := List.any_eq_true.mp hq
    exact List.any_eq_true.mpr ⟨a, h a ha, hw⟩

lemma select_of_isEmpty {q : Query} (h : q.alternatives.isEmpty = true) (es : List LogEntry) :
    q.select es = [] := by
  rw [select, List.filter_eq_nil_iff]
  intro e _
  rw [wants, List.isEmpty_iff.mp h]
  exact Bool.false_ne_true

end Query

namespace Log

/-- The one error of a log that is not available. -/
lemma filter_of_not_available {log : Log} (h : log.available = false) (q : Query) :
    log.filter q = .error (.unavailable .memory) := by
  simp [filter, reached, h, bind, Except.bind]

end Log

namespace Projection

variable {σ ε : Type} {p : Projection σ ε} {m : Model σ} {log : Log}

/-- A model with nothing left to fold stays as it is when it reads nothing. -/
lemma read_nil (h : m.buffer = []) : p.read m [] = (m, .ok ()) := by
  cases m
  simp only at h
  subst h
  rfl

lemma load_of_isEmpty (h : (p.ask m).alternatives.isEmpty = true) : p.load m log = (m, .ok ()) :=
  if_pos h

lemma load_of_available (ha : log.available = true) (h : m.buffer = []) :
    p.load m log = p.read m ((p.ask m).select log.events) := by
  unfold load
  dsimp only
  split
  · next he => rw [Query.select_of_isEmpty he, read_nil h]
  · rw [Log.filter_eq ha]

lemma load_of_not_available (ha : log.available = false)
    (h : (p.ask m).alternatives.isEmpty = false) :
    p.load m log = (m, .error (.unavailable .memory)) := by
  unfold load
  dsimp only
  rw [Log.filter_of_not_available ha, h]
  rfl

end Projection

namespace Projected

variable {ι : Type u} {S E : ι → Type} {p : (i : ι) → Projection (S i) (E i)}
  {l : Projected S} {ls : List (Projected S)} {log : Log}

/-- Loads models alone, one after another, until one cannot be loaded. -/
def loadEach (p : (i : ι) → Projection (S i) (E i)) (log : Log) :
    List (Projected S) → List (Projected S) × Except LogError Unit
  | [] => ([], .ok ())
  | l :: ls =>
    match l.load p log with
    | (l, .error e) => (l :: ls, .error e)
    | (l, .ok ()) =>
      let (rest, result) := loadEach p log ls
      (l :: rest, result)

lemma combined_alternatives :
    (combined p ls).alternatives = ls.flatMap fun l => (l.query p).alternatives := by
  have h : ∀ q : Query, (ls.foldl (fun q l => q.merge (l.query p)) q).alternatives =
      q.alternatives ++ ls.flatMap fun l => (l.query p).alternatives := by
    induction ls with
    | nil => exact fun q => (List.append_nil _).symm
    | cons l ls ih =>
      intro q
      rw [List.foldl_cons, ih, List.flatMap_cons, Query.merge, List.append_assoc]
  exact h ⟨[]⟩

lemma combined_isEmpty : (combined p ls).alternatives.isEmpty = true ↔
    ∀ l ∈ ls, (l.query p).alternatives.isEmpty = true := by
  simp only [combined_alternatives, List.isEmpty_iff, List.flatMap_eq_nil_iff]

/-- Where every model reads its part of the answer as it would read its own answer, so do all. -/
lemma distribute_eq {events : List LogEntry}
    (h : ∀ l ∈ ls, l.read p ((l.query p).select events) = l.load p log) :
    distribute p events ls = loadEach p log ls := by
  induction ls with
  | nil => rfl
  | cons l ls ih =>
    obtain ⟨hl, hls⟩ := List.forall_mem_cons.mp h
    rw [distribute, loadEach, hl]
    obtain ⟨m, result⟩ := l.load p log
    cases result with
    | error e => rfl
    | ok => exact congrArg (fun rest : _ × _ => (m :: rest.1, rest.2)) (ih hls)

lemma load_of_isEmpty (h : (l.query p).alternatives.isEmpty = true) :
    l.load p log = (l, .ok ()) := by
  rw [load, Projection.load_of_isEmpty h]

/-- Where no model wants anything all are as they were. -/
lemma loadEach_of_isEmpty (h : ∀ l ∈ ls, (l.query p).alternatives.isEmpty = true) :
    loadEach p log ls = (ls, .ok ()) := by
  induction ls with
  | nil => rfl
  | cons l ls ih =>
    obtain ⟨hl, hls⟩ := List.forall_mem_cons.mp h
    rw [loadEach, load_of_isEmpty hl, ih hls]

/-- A log out of reach leaves all as they were and refuses the first that wants anything. -/
lemma loadEach_of_not_available (ha : log.available = false)
    (h : ∃ l ∈ ls, (l.query p).alternatives.isEmpty = false) :
    loadEach p log ls = (ls, .error (.unavailable .memory)) := by
  induction ls with
  | nil => nomatch h
  | cons l ls ih =>
    cases he : (l.query p).alternatives.isEmpty with
    | true =>
      obtain ⟨m, hm, hn⟩ := h
      rcases List.mem_cons.mp hm with rfl | hm
      · rw [he] at hn
        cases hn
      · rw [loadEach, load_of_isEmpty he, ih ⟨m, hm, hn⟩]
    | false =>
      have hload : l.load p log = (l, .error (.unavailable .memory)) := by
        rw [load, Projection.load_of_not_available ha he]
      rw [loadEach, hload]

lemma loadAll_eq (h : ∀ l ∈ ls, l.model.buffer = []) : loadAll p ls log = loadEach p log ls := by
  unfold loadAll
  dsimp only
  split
  · next he => exact (loadEach_of_isEmpty (combined_isEmpty.mp he)).symm
  · next he =>
    cases ha : log.available with
    | true =>
      rw [Log.filter_eq ha]
      refine distribute_eq fun l hl => ?_
      -- what the model wants is among what any of them wants
      have hsub : ∀ a ∈ (l.query p).alternatives, a ∈ (combined p ls).alternatives := by
        intro a hal
        rw [combined_alternatives]
        exact List.mem_flatMap.mpr ⟨l, hl, hal⟩
      rw [Query.select_select hsub, read, load, Projection.load_of_available ha (h l hl)]
      rfl
    | false =>
      rw [Log.filter_of_not_available ha]
      refine (loadEach_of_not_available ha ?_).symm
      simpa only [combined_isEmpty, Classical.not_forall, exists_prop, Bool.not_eq_true] using he

lemma loadEach_of_ok (h : ∀ l ∈ ls, (l.load p log).2 = .ok ()) :
    loadEach p log ls = (ls.map fun l => (l.load p log).1, .ok ()) := by
  induction ls with
  | nil => rfl
  | cons l ls ih =>
    obtain ⟨hl, hls⟩ := List.forall_mem_cons.mp h
    have hload : l.load p log = ((l.load p log).1, .ok ()) := Prod.ext rfl hl
    rw [loadEach, hload, ih hls]
    rfl

/-- The first model that cannot be loaded alone is where the loading ends. -/
lemma loadEach_of_error {before after : List (Projected S)} {e : LogError}
    (h : ∀ l ∈ before, (l.load p log).2 = .ok ()) (he : (l.load p log).2 = .error e) :
    loadEach p log (before ++ l :: after) =
      (before.map (fun l => (l.load p log).1) ++ (l.load p log).1 :: after, .error e) := by
  induction before with
  | nil =>
    have hload : l.load p log = ((l.load p log).1, .error e) := Prod.ext rfl he
    rw [List.nil_append, loadEach, hload]
    rfl
  | cons b before ih =>
    obtain ⟨hb, hbefore⟩ := List.forall_mem_cons.mp h
    have hload : b.load p log = ((b.load p log).1, .ok ()) := Prod.ext rfl hb
    rw [List.cons_append, loadEach, hload, ih hbefore]
    rfl

end Projected

/-- One load for several models is as good as a load for each. On any log, for any models of any
views that have nothing left to fold: if each could be loaded alone, each comes to just that model.
If one could not, those before the first such one come to what they come to alone, that one comes to
what its own load leaves, with its error, and those after it are as they were. -/
theorem loads_shared {ι : Type u} {S E : ι → Type} (p : (i : ι) → Projection (S i) (E i))
    {ls : List (Projected S)} (hbuffer : ∀ l ∈ ls, l.model.buffer = []) (log : Log) :
    ((∀ l ∈ ls, (l.load p log).2 = .ok ()) →
      Projected.loadAll p ls log = (ls.map fun l => (l.load p log).1, .ok ())) ∧
    ∀ before l after e, ls = before ++ l :: after →
      (∀ b ∈ before, (b.load p log).2 = .ok ()) → (l.load p log).2 = .error e →
        Projected.loadAll p ls log =
          (before.map (fun b => (b.load p log).1) ++ (l.load p log).1 :: after, .error e) := by
  rw [Projected.loadAll_eq hbuffer]
  refine ⟨Projected.loadEach_of_ok, ?_⟩
  rintro before l after e rfl
  exact Projected.loadEach_of_error

/-! A log whose second entry, an early one, has a payload that cannot be read, and some readers. -/
namespace Broken

def owner : Owner := .ofInstance "instance"

def entry (sequence : Nat) (tag : Tag) (payload : Json) : LogEntry where
  id := ⟨sequence⟩
  position := sequence
  stream := owner.stream "id"
  sequence := sequence
  type := tag.name
  payload := payload
  creator := "editor"
  createdAt := ⟨0, 0⟩

def log : Log where
  events := [
    entry 1 .configAdded (.ofEntries [("idpConfigId", .string "id"), ("name", .string "name")]),
    entry 2 .oidcConfigAdded .null]

/-- A model of the provider's owner, with nothing read. -/
def model (v : View) : Loaded := ⟨v, v.fresh (.ofOwner owner "id")⟩

/-- Neither discovery nor the readers of JWT look at the second entry. -/
def before : List Loaded :=
  [model (.discovery "id"), model (.ofKind .jwt owner "id"), model (.discovery "id")]

def after : List Loaded := [model (.ofKind .oidc owner "id"), model (.discovery "id")]

def models : List Loaded := before ++ model (.ofRemoval owner "id") :: after

/-- The start of the stream with its first entry read. -/
def base : Base := { Base.ofOwner owner "id" with processed := 1, changeDate := some ⟨0, 0⟩ }

end Broken

open Broken in
/-- Who is about to remove the provider fails alone, and all are loaded up to there. -/
theorem loads_shared_views :
    (∀ l ∈ models, l.model.buffer = []) ∧
    Loaded.loadAll models log =
      ([.mk (.discovery "id") ⟨base, ⟨.active, some (.oidc, owner)⟩, []⟩,
        .mk (.ofKind .jwt owner "id") ⟨base,
          ({} : Provider .jwt).apply (.configAdded "id" "name" .oidc false), []⟩,
        .mk (.discovery "id") ⟨base, ⟨.active, some (.oidc, owner)⟩, []⟩,
        .mk (.ofRemoval owner "id") ⟨.ofOwner owner "id", Status.active, []⟩] ++ after,
        .error (.malformed (.wrongType .null (.record "LegacyOidcConfigAdded")))) := by
  have hbuffer : ∀ l ∈ models, l.model.buffer = [] := by
    simp only [models, before, after, List.cons_append, List.nil_append, List.forall_mem_cons]
    exact ⟨rfl, rfl, rfl, rfl, rfl, rfl, List.forall_mem_nil _⟩
  have hbefore : ∀ b ∈ before, (b.load View.projection log).2 = .ok () := by
    simp only [before, List.forall_mem_cons]
    exact ⟨rfl, rfl, rfl, List.forall_mem_nil _⟩
  exact ⟨hbuffer, (loads_shared View.projection hbuffer log).2 before
    (model (.ofRemoval owner "id")) after _ rfl hbefore rfl⟩

end Federation
