import Federation.Proofs.Provider.Findings
import Mathlib.Data.List.TakeWhile

/-!
Models that are handed their events in batches. As long as all events can be read it does not matter
for the state where the batches are split. An event that cannot be read costs the rest of its batch
and leaves the bookkeeping as it was; what came before it counts, and later batches go on from
there.
-/
namespace Federation

namespace Fold

variable {f : Fold σ ε} {e : LogEntry} {es seen rest : List LogEntry} {fault : Json.Fault}

/-- The events before the first that cannot be read. -/
def accepted (f : Fold σ ε) (es : List LogEntry) : List LogEntry :=
  es.takeWhile fun e => (f.recognise e).isOk

lemma accepted_cons_of_ok {o : Option ε} (h : f.recognise e = .ok o) :
    f.accepted (e :: es) = e :: f.accepted es :=
  List.takeWhile_cons_of_pos (by rw [h]; rfl)

lemma accepted_cons_of_error (h : f.recognise e = .error fault) : f.accepted (e :: es) = [] :=
  List.takeWhile_cons_of_neg (by rw [h]; exact Bool.false_ne_true)

lemma ok_of_mem_accepted (h : e ∈ f.accepted es) : ∃ o, f.recognise e = .ok o := by
  have hok := List.mem_takeWhile_imp h
  cases hr : f.recognise e with
  | ok o => exact ⟨o, rfl⟩
  | error fault =>
    rw [hr] at hok
    cases hok

/-- Only the accepted events change the state. -/
lemma run_accepted (f : Fold σ ε) (s : σ) (es : List LogEntry) :
    f.run s (f.accepted es) = ((f.run s es).1, none) := by
  induction es generalizing s with
  | nil => rfl
  | cons e es ih =>
    cases h : f.recognise e with
    | error fault => simp only [accepted_cons_of_error h, run, h]
    | ok o =>
      rw [accepted_cons_of_ok h]
      cases o <;> simp only [run, h, ih]

lemma accepted_of_ok (h : ∀ e ∈ es, ∃ o, f.recognise e = .ok o) : f.accepted es = es :=
  List.takeWhile_eq_self_iff.mpr fun e he => by
    obtain ⟨o, ho⟩ := h e he
    rw [ho]
    rfl

lemma run_of_ok (h : ∀ e ∈ es, ∃ o, f.recognise e = .ok o) (s : σ) :
    f.run s es = ((f.run s es).1, none) := by
  have ha := f.run_accepted s es
  rwa [accepted_of_ok h] at ha

/-- The fold of a batch stops at the first event that cannot be read. -/
lemma run_stopped (h : ∀ e ∈ seen, ∃ o, f.recognise e = .ok o) (he : f.recognise e = .error fault)
    (s : σ) : f.run s (seen ++ e :: rest) = ((f.run s seen).1, some fault) := by
  rw [run_append, run_of_ok h]
  simp only [run, he]

lemma run_append_of_ok (h : ∀ e ∈ seen, ∃ o, f.recognise e = .ok o) (s : σ) :
    f.run s (seen ++ es) = f.run (f.run s seen).1 es := by
  rw [run_append, run_of_ok h]

end Fold

namespace Base

lemma foldl_orFirst_of_ne {given : String} (h : given ≠ "") (names : List String) :
    names.foldl orFirst given = given := by
  induction names with
  | nil => rfl
  | cons n names ih => rw [List.foldl_cons, orFirst, if_neg h, ih]

lemma foldl_orFirst_empty (names : List String) :
    names.foldl orFirst "" = (names.find? (· ≠ "")).getD "" := by
  induction names with
  | nil => rfl
  | cons n names ih =>
    rw [List.foldl_cons, orFirst, if_pos rfl]
    by_cases hn : n = ""
    · rw [hn, ih, List.find?_cons_of_neg (by simp)]
    · rw [foldl_orFirst_of_ne hn, List.find?_cons_of_pos (by simpa using hn), Option.getD_some]

/-- Is a name that was given neither at the start nor by the first batch given by a later one? The
names are those in the first events of the batches. -/
def Late (given : String) : List String → Prop
  | [] => False
  | first :: later => given = "" ∧ first = "" ∧ ∃ n ∈ later, n ≠ ""

/-- What becomes of a name in several batches, and in one of all their events. Nothing but a late
name tells them apart: the one batch leaves it open, and the batches take the first given. -/
structure Named (given : String) (names : List String) (each whole : String) : Prop where
  same : each = whole ↔ ¬ Late given names
  late : Late given names → whole = "" ∧ names.find? (· ≠ "") = some each

lemma named_foldl (given : String) (names : List String) :
    Named given names (names.foldl orFirst given) (names.head?.toList.foldl orFirst given) := by
  cases names with
  | nil => exact ⟨iff_of_true rfl id, nofun⟩
  | cons first later =>
    by_cases h : given = "" ∧ first = ""
    · obtain ⟨rfl, rfl⟩ := h
      have heach : ("" :: later).foldl orFirst "" = (later.find? (· ≠ "")).getD "" :=
        foldl_orFirst_empty later
      cases hm : later.find? (· ≠ "") with
      | none =>
        have hl : ¬ Late "" ("" :: later) := fun ⟨_, _, n, hn, hne⟩ =>
          hne (by simpa using List.find?_eq_none.mp hm n hn)
        rw [hm, Option.getD_none] at heach
        exact ⟨iff_of_true heach hl, fun h => absurd h hl⟩
      | some m =>
        have hne : m ≠ "" := by simpa using List.find?_some hm
        rw [hm, Option.getD_some] at heach
        rw [heach]
        refine ⟨iff_of_false hne fun hl => hl ?_, fun _ => ⟨rfl, ?_⟩⟩
        · exact ⟨rfl, rfl, m, List.mem_of_find?_eq_some hm, hne⟩
        · rw [List.find?_cons_of_neg (by simp), hm]
    · have hl : ¬ Late given (first :: later) := fun hl => h ⟨hl.1, hl.2.1⟩
      have hg : orFirst given first ≠ "" := by
        unfold orFirst
        split
        · next hg => exact fun hf => h ⟨hg, hf⟩
        · assumption
      exact ⟨iff_of_true (foldl_orFirst_of_ne hg later) hl, fun h => absurd h hl⟩

/-- The first events of the batches that have one. -/
def firsts (batches : List (List LogEntry)) : List LogEntry := batches.filterMap List.head?

lemma head?_flatten (batches : List (List LogEntry)) :
    batches.flatten.head? = (firsts batches).head? := by
  rw [firsts, List.head?_filterMap, List.head?_flatten]

lemma foldl_advance (base : Base) (batches : List (List LogEntry)) :
    batches.foldl advance base =
      { streamId := ((firsts batches).map (·.stream.id)).foldl orFirst base.streamId
        resourceOwner :=
          ((firsts batches).map (·.stream.resourceOwner)).foldl orFirst base.resourceOwner
        instanceId := ((firsts batches).map (·.stream.instanceId)).foldl orFirst base.instanceId
        processed := (batches.flatten.getLast?.map (·.sequence)).getD base.processed
        changeDate := (batches.flatten.getLast?.map (·.createdAt)).or base.changeDate } := by
  induction batches generalizing base with
  | nil => rfl
  | cons es batches ih =>
    cases es with
    | nil => exact ih base
    | cons first es =>
      -- the last event of all is that of the later batches, if they have any
      rw [List.foldl_cons, ih, List.flatten_cons, List.getLast?_append]
      have hl : (first :: es).getLast? = some ((first :: es).getLast (List.cons_ne_nil _ _)) :=
        List.getLast?_eq_getLast_of_ne_nil _
      simp only [advance, List.head?_cons, hl, firsts, List.filterMap_cons]
      cases batches.flatten.getLast? <;> rfl

lemma advance_flatten (base : Base) (batches : List (List LogEntry)) :
    base.advance batches.flatten =
      { streamId :=
          ((firsts batches).map (·.stream.id)).head?.toList.foldl orFirst base.streamId
        resourceOwner := ((firsts batches).map (·.stream.resourceOwner)).head?.toList.foldl orFirst
          base.resourceOwner
        instanceId := ((firsts batches).map (·.stream.instanceId)).head?.toList.foldl orFirst
          base.instanceId
        processed := (batches.flatten.getLast?.map (·.sequence)).getD base.processed
        changeDate := (batches.flatten.getLast?.map (·.createdAt)).or base.changeDate } := by
  have h := foldl_advance base [batches.flatten]
  have hf : firsts [batches.flatten] = (firsts batches).head?.toList := by
    rw [← head?_flatten]
    cases batches.flatten <;> rfl
  rw [List.foldl_cons, List.foldl_nil, hf, List.flatten_singleton] at h
  rw [h]
  cases firsts batches <;> rfl

end Base

namespace View

/-- The tags of the events that matter to a view. -/
def readTags : View → List Tag
  | .provider k _ _ => k.readTags
  | .removal _ _ => Removal.readTags
  | .discovery _ => Discovery.readTags

/-- The event matters to the view by its type, but its payload cannot be read. -/
def Misreads (v : View) (e : LogEntry) (fault : Json.Fault) : Prop :=
  ∃ t ∈ v.readTags, e.type = t.name ∧ Event.decode t e.payload = .error fault

/-- All events that matter to the view can be read. -/
def Reads (v : View) (es : List LogEntry) : Prop := ∀ e ∈ es, ∀ fault, ¬ v.Misreads e fault

variable {v : View} {base : Base} {s : v.State} {e : LogEntry} {es seen rest : List LogEntry}
  {fault : Json.Fault}

lemma recognise_eq (v : View) (e : LogEntry) :
    v.fold.recognise e = Event.recognise v.readTags e.type e.payload := by
  cases v <;> rfl

lemma recognise_eq_error : v.fold.recognise e = .error fault ↔ v.Misreads e fault := by
  rw [recognise_eq]
  constructor
  · intro h
    unfold Event.recognise at h
    split at h
    · cases h
    · next t ht =>
      have hn : t.name = e.type := by simpa using List.find?_some ht
      exact ⟨t, List.mem_of_find?_eq_some ht, hn.symm, map_eq_error.mp h⟩
  · rintro ⟨t, ht, hn, hd⟩
    rw [hn, Event.recognise, Tag.find?_name, if_pos ht]
    exact map_eq_error.mpr hd

lemma Reads.recognise (h : v.Reads es) : ∀ e ∈ es, ∃ o, v.fold.recognise e = .ok o := by
  intro e he
  cases hr : v.fold.recognise e with
  | ok o => exact ⟨o, rfl⟩
  | error fault => exact absurd (recognise_eq_error.mp hr) (h e he fault)

/-- The batch is lost from the event on that cannot be read. -/
lemma read_stopped (hs : v.Reads seen) (he : v.Misreads e fault) :
    v.read ⟨base, s, []⟩ (seen ++ e :: rest) =
      (⟨base, (v.fold.run s seen).1, []⟩, .error (.malformed fault)) := by
  have hr : v.fold.run s (seen ++ e :: rest) = ((v.fold.run s seen).1, some fault) :=
    Fold.run_stopped hs.recognise (recognise_eq_error.mpr he) s
  simp only [read, Model.append, List.nil_append, Model.reduce, hr]

/-- Whatever a batch holds, its events are folded as far as they can be read. -/
lemma read_run (v : View) (base : Base) (s : v.State) (es : List LogEntry) :
    ∃ b, v.read ⟨base, s, []⟩ es = (⟨b, (v.fold.run s es).1, []⟩,
      (v.fold.run s es).2.elim (.ok ()) fun fault => .error (.malformed fault)) := by
  simp only [read, Model.append, List.nil_append, Model.reduce]
  split
  · next t h => exact ⟨base.advance es, by rw [h]; rfl⟩
  · next t fault h => exact ⟨base, by rw [h]; rfl⟩

/-- Of several batches the accepted events are what becomes of the state. -/
lemma readEach_accepted (v : View) (base : Base) (s : v.State) (batches : List (List LogEntry)) :
    ∃ b, (v.readEach ⟨base, s, []⟩ batches).1 =
      ⟨b, (v.fold.run s (batches.flatMap v.fold.accepted)).1, []⟩ := by
  induction batches generalizing base s with
  | nil => exact ⟨base, rfl⟩
  | cons es batches ih =>
    obtain ⟨b, hb⟩ := v.read_run base s es
    obtain ⟨b', hb'⟩ := ih b (v.fold.run s es).1
    refine ⟨b', ?_⟩
    rw [readEach, hb, hb', List.flatMap_cons, Fold.run_append, Fold.run_accepted]

lemma readEach_append (v : View) (m : Model v.State) (before after : List (List LogEntry)) :
    v.readEach m (before ++ after) =
      ((v.readEach (v.readEach m before).1 after).1,
        (v.readEach m before).2 ++ (v.readEach (v.readEach m before).1 after).2) := by
  induction before generalizing m with
  | nil => rfl
  | cons es before ih => simp only [List.cons_append, readEach, ih]

end View

/-- Batches come to the same state as all their events in one, if these can be read, and to the same
place. The names of the stream differ only where one is late: the batches take it then, and the one
batch leaves it open. At an event that cannot be read, the batch ends with its fault: the state is
that of the accepted events so far, the bookkeeping that before the batch, and the batches that
follow are read from there. -/
theorem batches_folded (v : View) (base : Base) (s : v.State) (batches : List (List LogEntry)) :
    (v.Reads batches.flatten → ∃ each whole t,
      v.readEach ⟨base, s, []⟩ batches = (⟨each, t, []⟩, batches.map fun _ => .ok ()) ∧
      v.read ⟨base, s, []⟩ batches.flatten = (⟨whole, t, []⟩, .ok ()) ∧
      each.processed = whole.processed ∧ each.changeDate = whole.changeDate ∧
      Base.Named base.streamId ((Base.firsts batches).map (·.stream.id))
        each.streamId whole.streamId ∧
      Base.Named base.resourceOwner ((Base.firsts batches).map (·.stream.resourceOwner))
        each.resourceOwner whole.resourceOwner ∧
      Base.Named base.instanceId ((Base.firsts batches).map (·.stream.instanceId))
        each.instanceId whole.instanceId) ∧
    ∀ before seen e rest after fault, batches = before ++ (seen ++ e :: rest) :: after →
      v.Reads seen → v.Misreads e fault →
      let m := (v.readEach ⟨base, s, []⟩ before).1
      let stopped : Model v.State :=
        ⟨m.base, (v.fold.run s (before.flatMap v.fold.accepted ++ seen)).1, []⟩
      v.read m (seen ++ e :: rest) = (stopped, .error (.malformed fault)) ∧
      v.readEach ⟨base, s, []⟩ batches = ((v.readEach stopped after).1,
        (v.readEach ⟨base, s, []⟩ before).2 ++
          .error (.malformed fault) :: (v.readEach stopped after).2) := by
  refine ⟨fun h => ?_, ?_⟩
  · have hr := Fold.run_of_ok h.recognise s
    refine ⟨_, _, _, View.readEach_reduced hr, View.read_reduced hr, ?_⟩
    rw [Base.foldl_advance, Base.advance_flatten]
    exact ⟨rfl, rfl, Base.named_foldl _ _, Base.named_foldl _ _, Base.named_foldl _ _⟩
  · rintro before seen e rest after fault rfl hs he
    obtain ⟨b, hb⟩ := v.readEach_accepted base s before
    have hok : ∀ e ∈ before.flatMap v.fold.accepted, ∃ o, v.fold.recognise e = .ok o := by
      intro e he
      obtain ⟨es, -, he⟩ := List.mem_flatMap.mp he
      exact Fold.ok_of_mem_accepted he
    intro m stopped
    have hread : v.read m (seen ++ e :: rest) = (stopped, .error (.malformed fault)) := by
      simp only [m, stopped, hb, Fold.run_append_of_ok hok]
      exact View.read_stopped hs he
    refine ⟨hread, ?_⟩
    rw [View.readEach_append, View.readEach, hread]

/-- Two batches about a removed provider, of which only the second says whose it is. -/
def Base.unnamed : List (List LogEntry) :=
  [[{ Early.further Tag.configRemoved.name [] with stream.resourceOwner := "" }],
    [Early.further Tag.configRemoved.name []]]

/-- The owner is late: one batch of both would leave it empty. -/
theorem late_owner_taken :
    (View.discovery "id").Reads Base.unnamed.flatten ∧
    ((View.discovery "id").readEach ((View.discovery "id").fresh (.ofInstance "instance" "id"))
        Base.unnamed).1.base.resourceOwner = "instance" ∧
    ((View.discovery "id").read ((View.discovery "id").fresh (.ofInstance "instance" "id"))
        Base.unnamed.flatten).1.base.resourceOwner = "" := by
  refine ⟨fun e he fault hm => ?_, by decide, by decide⟩
  have herr := View.recognise_eq_error.mpr hm
  simp only [Base.unnamed, List.flatten_cons, List.flatten_nil, List.append_nil, List.cons_append,
    List.nil_append, List.mem_cons, List.not_mem_nil, or_false] at he
  obtain rfl | rfl := he <;> cases herr

end Federation
