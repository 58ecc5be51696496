import Federation.Proofs.Sql.LockOrder
import Mathlib.Logic.Relation

/-!
Pushes under way at one table, each in a transaction of its own. A transaction asks for the lock of
every stream it touches before it stores an event, and keeps its locks to its end. Where lock texts
tell streams apart no transactions wait for each other in a circle; where they do not, two may.
-/
namespace Federation

/-- What a transaction asks of the database. -/
inductive Request where
  | lock (text : String)
  | insert (d : Draft)
  | commit

/-- A push locks, then stores, then is done. -/
def Batch.requests (table : String) (p : Batch) : List Request :=
  (p.locks table).map .lock ++ (p.events.map .insert ++ [.commit])

/-- The first request for one text comes before the first request for another. -/
def asksBefore (texts : List String) (a b : String) : Prop :=
  a ∈ texts ∧ b ∈ texts ∧ texts.idxOf a < texts.idxOf b

/-- The streams that a push expects something of or stores an event in. -/
def Batch.Touches (p : Batch) (k : StreamName) : Prop :=
  (∃ c ∈ p.expectations, c.stream.name = k) ∨ ∃ e ∈ p.events, e.stream.name = k

/-- A transaction under way: the locks it holds, and the requests it has still to make. -/
structure Session where
  held : List String
  rest : List Request

/-- The next request is made, if it can be granted. -/
def Session.advance (s : Session) (free : String → Bool) : Session :=
  match s.rest with
  | .lock text :: rest => if free text then ⟨text :: s.held, rest⟩ else s
  | .insert _ :: rest => ⟨s.held, rest⟩
  | .commit :: rest => ⟨[], rest⟩
  | [] => s

/-- The lock that is asked for next. -/
def Session.awaited (s : Session) : Option String :=
  match s.rest with
  | .lock text :: _ => some text
  | _ => none

inductive Move where
  | go (i : Nat)
  /-- The transaction ends before its time, for whatever reason. -/
  | quit (i : Nat)

abbrev Sessions := List Session

namespace Sessions

def start (table : String) (ps : List Batch) : Sessions := ps.map fun p => ⟨[], p.requests table⟩

/-- Is a lock free for a session? It may have it already. -/
def free (ss : Sessions) (i : Nat) (text : String) : Bool :=
  (ss.eraseIdx i).all fun s => !s.held.contains text

def step (ss : Sessions) : Move → Sessions
  | .go i => ss.modify i fun s => s.advance (ss.free i)
  | .quit i => ss.modify i fun _ => ⟨[], []⟩

def run (ss : Sessions) (moves : List Move) : Sessions := moves.foldl step ss

/-- A session cannot go on for a lock that another one holds. -/
def Waits (ss : Sessions) (i j : Nat) : Prop :=
  i ≠ j ∧ ∃ s t text, ss[i]? = some s ∧ ss[j]? = some t ∧ Session.awaited s = some text ∧
    text ∈ Session.held t

/-- A session waits for others that wait for it. -/
def Deadlocked (ss : Sessions) : Prop := ∃ i, Relation.TransGen ss.Waits i i

end Sessions

variable {table : String} {ps : List Batch} {p q : Batch} {ss : Sessions} {s t : Session}

namespace Batch

lemma locked_before_insert {before after : List Request} {d : Draft}
    (h : p.requests table = before ++ .insert d :: after) {k : StreamName} (hk : p.Touches k) :
    .lock (k.lockText table) ∈ before := by
  have hlock : Request.lock (k.lockText table) ∈ (p.locks table).map Request.lock :=
    List.mem_map_of_mem (List.mem_map_of_mem (mem_streams.mpr hk))
  rcases List.append_eq_append_iff.mp h with ⟨more, rfl, -⟩ | ⟨more, hlocks, hmore⟩
  · exact List.mem_append_left _ hlock
  · cases more with
    | nil => exact (hlocks.trans (List.append_nil _)) ▸ hlock
    | cons r more =>
      obtain rfl := (List.cons.inj hmore).1
      have hm : Request.insert d ∈ (p.locks table).map Request.lock := by simp [hlocks]
      simp at hm

lemma before_of_asksBefore {a b : String} (h : asksBefore (p.locks table) a b) :
    ∃ k ∈ p.streams, ∃ l ∈ p.streams, k.before l = true ∧ k.lockText table = a ∧
      l.lockText table = b := by
  obtain ⟨ha, hb, hlt⟩ := h
  have hi := List.idxOf_lt_length_of_mem ha
  have hj := List.idxOf_lt_length_of_mem hb
  have hia := List.getElem_idxOf hi
  have hjb := List.getElem_idxOf hj
  simp only [locks, List.length_map] at hi hj
  simp only [locks, List.getElem_map] at hia hjb
  exact ⟨_, List.getElem_mem _, _, List.getElem_mem _,
    List.pairwise_iff_getElem.mp p.ordered_streams _ _ hi hj hlt, hia, hjb⟩

end Batch

namespace Session

variable {ks : List StreamName}

/-- A session has locked some of its streams, in order, and the others are what it asks for next. -/
def Locking (table : String) (ks : List StreamName) (s : Session) : Prop :=
  ∃ done todo tail, ks = done ++ todo ∧
    (∀ text ∈ s.held, ∃ k ∈ done, k.lockText table = text) ∧
    s.rest = todo.map (fun k => .lock (k.lockText table)) ++ tail ∧ ∀ text, .lock text ∉ tail

lemma locking_start (table : String) (p : Batch) :
    Locking table p.streams ⟨[], p.requests table⟩ :=
  ⟨[], p.streams, _, rfl, nofun, by rw [Batch.requests, Batch.locks, List.map_map]; rfl, by simp⟩

lemma locking_quit (table : String) (ks : List StreamName) : Locking table ks ⟨[], []⟩ :=
  ⟨ks, [], [], (List.append_nil _).symm, nofun, rfl, nofun⟩

lemma Locking.advance (h : s.Locking table ks) (free : String → Bool) :
    (s.advance free).Locking table ks := by
  obtain ⟨done, todo, tail, rfl, hheld, hrest, htail⟩ := h
  cases todo with
  | cons k todo =>
    simp only [Session.advance, hrest, List.map_cons, List.cons_append]
    split
    · refine ⟨done ++ [k], todo, tail, by simp, fun text ht => ?_, rfl, htail⟩
      rcases List.mem_cons.mp ht with rfl | ht
      · exact ⟨k, by simp, rfl⟩
      · obtain ⟨l, hl, htext⟩ := hheld text ht
        exact ⟨l, List.mem_append_left _ hl, htext⟩
    · exact ⟨done, k :: todo, tail, rfl, hheld, hrest, htail⟩
  | nil =>
    cases tail with
    | nil =>
      simp only [Session.advance, hrest, List.map_nil, List.nil_append]
      exact ⟨done, [], [], rfl, hheld, hrest, htail⟩
    | cons r tail =>
      have ht : ∀ text, Request.lock text ∉ tail := fun text hm =>
        htail text (List.mem_cons_of_mem _ hm)
      simp only [Session.advance, hrest, List.map_nil, List.nil_append]
      cases r with
      | lock text => exact absurd List.mem_cons_self (htail text)
      | insert d => exact ⟨done, [], tail, rfl, hheld, rfl, ht⟩
      | commit => exact ⟨done, [], tail, rfl, nofun, rfl, ht⟩

/-- What a session waits for is a stream that comes after all it has locked. -/
lemma Locking.awaited (h : s.Locking table ks) (ho : StreamName.Ordered ks) {text : String}
    (ht : s.awaited = some text) : ∃ l ∈ ks, l.lockText table = text ∧
      ∀ u ∈ s.held, ∃ k ∈ ks, k.lockText table = u ∧ k.before l = true := by
  obtain ⟨done, todo, tail, rfl, hheld, hrest, htail⟩ := h
  cases todo with
  | nil =>
    cases tail with
    | nil => simp [Session.awaited, hrest] at ht
    | cons r tail =>
      cases r with
      | lock text => exact absurd List.mem_cons_self (htail text)
      | _ => simp [Session.awaited, hrest] at ht
  | cons l todo =>
    have hl : l.lockText table = text := by simpa [Session.awaited, hrest] using ht
    refine ⟨l, by simp, hl, fun u hu => ?_⟩
    obtain ⟨k, hk, hku⟩ := hheld u hu
    exact ⟨k, List.mem_append_left _ hk, hku,
      (List.pairwise_append.mp ho).2.2 k hk l List.mem_cons_self⟩

end Session

namespace Sessions

/-- Each session locks the streams of its push in their order. -/
def Locking (table : String) (ps : List Batch) (ss : Sessions) : Prop :=
  ∀ (i : Nat) (s : Session), ss[i]? = some s →
    ∃ p, ps[i]? = some p ∧ s.Locking table (Batch.streams p)

lemma locking_start (table : String) (ps : List Batch) : (start table ps).Locking table ps := by
  intro i s hs
  simp only [start, List.getElem?_map, Option.map_eq_some_iff] at hs
  obtain ⟨p, hp, rfl⟩ := hs
  exact ⟨p, hp, Session.locking_start table p⟩

lemma Locking.modify (h : ss.Locking table ps) {f : Session → Session}
    (hf : ∀ {s : Session} {ks : List StreamName}, s.Locking table ks → (f s).Locking table ks)
    (i : Nat) : Locking table ps (ss.modify i f) := by
  intro j s hs
  rw [List.getElem?_modify, Option.map_eq_map, Option.map_eq_some_iff] at hs
  obtain ⟨t, ht, rfl⟩ := hs
  obtain ⟨p, hp, hl⟩ := h j t ht
  refine ⟨p, hp, ?_⟩
  split
  · exact hf hl
  · exact hl

lemma Locking.step (h : ss.Locking table ps) (m : Move) : (ss.step m).Locking table ps := by
  cases m with
  | go i => exact h.modify (fun hl => hl.advance _) i
  | quit i => exact h.modify (fun _ => Session.locking_quit table _) i

lemma Locking.run (h : ss.Locking table ps) (moves : List Move) :
    (ss.run moves).Locking table ps :=
  List.foldlRecOn moves Sessions.step h fun _ h m _ => h.step m

/-- The next request of a session is the lock of a stream. -/
def Awaits (table : String) (ss : Sessions) (i : Nat) (k : StreamName) : Prop :=
  ∃ s : Session, ss[i]? = some s ∧ s.awaited = some (k.lockText table)

lemma Locking.awaits (h : ss.Locking table ps) {i j : Nat} (hw : ss.Waits i j) :
    ∃ k ∈ ps.flatMap Batch.streams, ss.Awaits table i k := by
  obtain ⟨-, s, t, text, hs, -, hhead, -⟩ := hw
  obtain ⟨p, hp, hl⟩ := h i s hs
  obtain ⟨k, hk, rfl, -⟩ := hl.awaited p.ordered_streams hhead
  exact ⟨k, List.mem_flatMap.mpr ⟨p, List.mem_of_getElem? hp, hk⟩, s, hs, hhead⟩

/-- Who holds what another one waits for waits itself for a stream that comes later. -/
lemma Locking.before (h : ss.Locking table ps)
    (hd : StreamName.ToldApart table (ps.flatMap Batch.streams)) {i j : Nat} {k l : StreamName}
    (hk : k ∈ ps.flatMap Batch.streams) (hl : l ∈ ps.flatMap Batch.streams)
    (hw : ss.Waits i j) (hi : ss.Awaits table i k) (hj : ss.Awaits table j l) :
    k.before l = true := by
  obtain ⟨-, s, t, text, hs, ht, hhead, hheld⟩ := hw
  obtain ⟨s', hs', hi⟩ := hi
  obtain ⟨t', ht', hj⟩ := hj
  obtain rfl := Option.some.inj (hs.symm.trans hs')
  obtain rfl := Option.some.inj (ht.symm.trans ht')
  obtain rfl : text = k.lockText table := Option.some.inj (hhead.symm.trans hi)
  obtain ⟨p, hp, hlock⟩ := h j t ht
  have hmem : ∀ m ∈ p.streams, m ∈ ps.flatMap Batch.streams := fun m hm =>
    List.mem_flatMap.mpr ⟨p, List.mem_of_getElem? hp, hm⟩
  obtain ⟨l', hl', hlt, hb⟩ := hlock.awaited p.ordered_streams hj
  obtain ⟨k', hk', hkt, hb⟩ := hb _ hheld
  rwa [hd k' (hmem k' hk') k hk hkt, hd l' (hmem l' hl') l hl hlt] at hb

/-- Along a chain of sessions that wait the streams they wait for come ever later. -/
lemma Locking.before_of_chain (h : ss.Locking table ps)
    (hd : StreamName.ToldApart table (ps.flatMap Batch.streams)) {i j : Nat} {k l : StreamName}
    (hk : k ∈ ps.flatMap Batch.streams) (hl : l ∈ ps.flatMap Batch.streams)
    (hw : Relation.TransGen ss.Waits i j) (hi : ss.Awaits table i k) (hj : ss.Awaits table j l) :
    k.before l = true := by
  induction hw generalizing l with
  | single hw => exact h.before hd hk hl hw hi hj
  | tail _ hw ih =>
    obtain ⟨m, hm, hmid⟩ := h.awaits hw
    exact StreamName.before_trans (ih hm hmid) (h.before hd hm hl hw hmid hj)

lemma Locking.not_deadlocked (h : ss.Locking table ps)
    (hd : StreamName.ToldApart table (ps.flatMap Batch.streams)) : ¬ ss.Deadlocked := by
  rintro ⟨i, hc⟩
  obtain ⟨j, hw, -⟩ := Relation.TransGen.head'_iff.mp hc
  obtain ⟨k, hk, hi⟩ := h.awaits hw
  exact k.not_before_self (h.before_of_chain hd hk hk hc hi hi)

end Sessions

/-- A push asks for the locks of all streams it touches before it stores an event. Where lock texts
tell the streams of some pushes apart, no two pushes ask for two locks in opposite order, and in no
run of their transactions do some wait for each other in a circle. -/
theorem locks_told_apart (table : String) (ps : List Batch)
    (hd : StreamName.ToldApart table (ps.flatMap Batch.streams)) :
    (∀ p ∈ ps, ∀ before d after, p.requests table = before ++ .insert d :: after →
      ∀ k, p.Touches k → .lock (k.lockText table) ∈ before) ∧
    (∀ p ∈ ps, ∀ q ∈ ps, ∀ a b, asksBefore (p.locks table) a b →
      ¬ asksBefore (q.locks table) b a) ∧
    ∀ moves, ¬ ((Sessions.start table ps).run moves).Deadlocked := by
  refine ⟨fun p _ before d after h k hk => Batch.locked_before_insert h hk, ?_, fun moves => ?_⟩
  · intro p hp q hq a b hab hba
    have hmem : ∀ {p}, p ∈ ps → ∀ k ∈ p.streams, k ∈ ps.flatMap Batch.streams := fun hp k hk =>
      List.mem_flatMap.mpr ⟨_, hp, hk⟩
    obtain ⟨k, hk, l, hl, hkl, rfl, rfl⟩ := Batch.before_of_asksBefore hab
    obtain ⟨l', hl', k', hk', hlk, hlt, hkt⟩ := Batch.before_of_asksBefore hba
    rw [hd l' (hmem hq l' hl') l (hmem hp l hl) hlt, hd k' (hmem hq k' hk') k (hmem hp k hk) hkt]
      at hlk
    exact k.not_before_self (StreamName.before_trans hkl hlk)
  · exact ((Sessions.locking_start table ps).run moves).not_deadlocked hd

namespace Crossing

def push (names : List StreamName) : Batch where
  creator := "editor"
  events := names.map fun k => ⟨⟨k.id, k.type, "owner", k.instanceId⟩, "type", .null⟩

/-- A stream whose instance has slashes. -/
def long : StreamName := ⟨"i/org/x", "org", "y"⟩

/-- A stream with the same lock text, for the slashes are in its id. -/
def short : StreamName := ⟨"i", "org", "x/org/y"⟩

/-- A stream between the two. -/
def between : StreamName := ⟨"i!", "org", "z"⟩

end Crossing

open Crossing in
theorem locks_told_apart_plain :
    StreamName.ToldApart "events" ([push [short, between], push [between, short]].flatMap
      Batch.streams) ∧
    ∀ moves, ¬ ((Sessions.start "events" [push [short, between], push [between, short]]).run
      moves).Deadlocked := by
  have hd : StreamName.ToldApart "events" ([push [short, between], push [between, short]].flatMap
      Batch.streams) := StreamName.toldApart_of_plain _ (by decide)
  exact ⟨hd, (locks_told_apart "events" _ hd).2.2⟩

open Crossing in
/-- Streams of one lock text on both sides of a third one: two pushes ask for two locks in opposite
order, and each can come to wait for the other. -/
theorem crossing_pushes_deadlock :
    asksBefore ((push [long, between]).locks "events") (between.lockText "events")
      (short.lockText "events") ∧
    asksBefore ((push [short, between]).locks "events") (short.lockText "events")
      (between.lockText "events") ∧
    ((Sessions.start "events" [push [long, between], push [short, between]]).run
      [.go 0, .go 1]).Deadlocked := by
  refine ⟨⟨by decide, by decide, by decide⟩, ⟨by decide, by decide, by decide⟩, 0, ?_⟩
  refine .tail (.single ⟨by decide, _, _, short.lockText "events", rfl, rfl, ?_, ?_⟩)
    (⟨by decide, _, _, between.lockText "events", rfl, rfl, ?_, ?_⟩ : Sessions.Waits _ 1 0)
  all_goals decide

end Federation
