import Federation.Proofs.Command.Board
import Mathlib.Data.List.Induction

/-!
Whatever the order in which commands make their calls, those that succeed might have run one after
another: each of them alone at the log, at the step where it returned.
-/
namespace Federation

namespace Board

/-- The board when a number of calls of the schedule are made. -/
def after (clock : Nat → Stamp) (b : Board) (schedule : List Nat) (n : Nat) : Board :=
  b.run clock (schedule.take n)

variable {clock : Nat → Stamp} {b : Board} {schedule : List Nat}

lemma after_length : b.after clock schedule schedule.length = b.run clock schedule := by
  rw [after, List.take_length]

lemma after_append_of_le {n : Nat} (h : n ≤ schedule.length) (rest : List Nat) :
    b.after clock (schedule ++ rest) n = b.after clock schedule n := by
  rw [after, after, List.take_append_of_le_length h]

lemma after_append_singleton (k : Nat) :
    b.after clock (schedule ++ [k]) (schedule.length + 1) =
      (b.run clock schedule).step clock k := by
  rw [after, List.take_of_length_le (by simp), run_append]
  rfl

end Board

/-- A task that returned, the step of the schedule where it did so, and the command with what it
had drawn at random by then. -/
structure Turn where
  place : Nat
  task : Nat
  invocation : Invocation
  answer : Answer

namespace Turn

/-- The turns that are over when a number of calls are made. -/
def before (turns : List Turn) (n : Nat) : List Turn := turns.filter fun t => t.place < n

lemma before_of_forall {turns : List Turn} {n : Nat} (h : ∀ t ∈ turns, t.place < n) :
    before turns n = turns := List.filter_eq_self.mpr fun t ht => by simpa using h t ht

lemma before_append_of_le {t : Turn} {n : Nat} (h : n ≤ t.place) (turns : List Turn) :
    before (turns ++ [t]) n = before turns n := by
  simp [before, List.filter_append, Nat.not_lt.mpr h]

end Turn

namespace Invocation

lemma inTurn_append (clock : Nat → Stamp) (is js : List Invocation) (log : Log) :
    inTurn clock (is ++ js) log =
      ((inTurn clock is log).1 ++ (inTurn clock js (inTurn clock is log).2).1,
        (inTurn clock js (inTurn clock is log).2).2) := by
  induction is generalizing log with
  | nil => rfl
  | cons i is ih => simp only [List.cons_append, inTurn, ih]

end Invocation

/-- The turns in which the tasks of a board succeeded, and what they would do one after another. -/
structure Serial (clock : Nat → Stamp) (log : Log) (commands : List Invocation)
    (schedule : List Nat) (turns : List Turn) : Prop where
  ordered : turns.Pairwise fun t u => t.place < u.place ∧ t.task ≠ u.task
  own : ∀ t ∈ turns, schedule[t.place]? = some t.task
  command : ∀ t ∈ turns, ∃ i n, commands[t.task]? = some i ∧ t.invocation = i.later n
  pending : ∀ t ∈ turns,
    ((Board.start log commands).after clock schedule t.place).result? t.task = none
  returned : ∀ t ∈ turns, ((Board.start log commands).after clock schedule
    (t.place + 1)).result? t.task = some (.ok t.answer)
  complete : ∀ k a, ((Board.start log commands).run clock schedule).result? k = some (.ok a) →
    ∃ t ∈ turns, t.task = k ∧ t.answer = a
  pushed : ∀ n < schedule.length,
    ((Board.start log commands).after clock schedule (n + 1)).log ≠
      ((Board.start log commands).after clock schedule n).log → ∃ t ∈ turns, t.place = n
  alone : ∀ n ≤ schedule.length,
    Invocation.inTurn clock ((Turn.before turns n).map Turn.invocation) log =
      ((Turn.before turns n).map fun t => .ok t.answer,
        ((Board.start log commands).after clock schedule n).log)

namespace Serial

variable {clock : Nat → Stamp} {log : Log} {commands : List Invocation} {schedule : List Nat}
  {turns : List Turn}

lemma nil (h : log.Lawful) : Serial clock log commands [] [] where
  ordered := List.Pairwise.nil
  own := by simp
  command := by simp
  pending := by simp
  returned := by simp
  complete := by
    intro k a hr
    have ht := Board.result?_eq_some.mp hr
    simp only [Board.run, List.foldl_nil, Board.start, List.getElem?_map,
      Option.map_eq_some_iff] at ht
    obtain ⟨i, -, hi⟩ := ht
    have ha : i.program.Atomic clock _ log := i.atomic h
    obtain ⟨e, he⟩ := hi ▸ ha
    cases he
  pushed := by simp
  alone := by
    intro n _
    simp only [Turn.before, List.filter_nil, List.map_nil, Invocation.inTurn, Board.after,
      List.take_nil, Board.run, List.foldl_nil, Board.start]

lemma place_lt (h : Serial clock log commands schedule turns) {t : Turn} (ht : t ∈ turns) :
    t.place < schedule.length := (List.getElem?_eq_some_iff.mp (h.own t ht)).1

lemma returned_run (h : Serial clock log commands schedule turns) {t : Turn} (ht : t ∈ turns) :
    ((Board.start log commands).run clock schedule).result? t.task = some (.ok t.answer) := by
  have hs : schedule = schedule.take (t.place + 1) ++ schedule.drop (t.place + 1) :=
    (List.take_append_drop _ _).symm
  rw [hs, Board.run_append]
  exact Board.result?_run (h.returned t ht) _

section Append

variable (h : Serial clock log commands schedule turns) (k : Nat)
include h

/-! The turns that are there stay as they are when one more call is made. -/

lemma own_append : ∀ t ∈ turns, (schedule ++ [k])[t.place]? = some t.task := by
  intro t ht
  rw [List.getElem?_append_left (h.place_lt ht), h.own t ht]

lemma pending_append : ∀ t ∈ turns, ((Board.start log commands).after clock (schedule ++ [k])
    t.place).result? t.task = none := by
  intro t ht
  rw [Board.after_append_of_le (Nat.le_of_lt (h.place_lt ht))]
  exact h.pending t ht

lemma returned_append : ∀ t ∈ turns, ((Board.start log commands).after clock (schedule ++ [k])
    (t.place + 1)).result? t.task = some (.ok t.answer) := by
  intro t ht
  rw [Board.after_append_of_le (h.place_lt ht)]
  exact h.returned t ht

/-- A call that changes the log is the last one or belongs to a turn. -/
lemma pushed_append {n : Nat} (hn : n < (schedule ++ [k]).length)
    (hne : ((Board.start log commands).after clock (schedule ++ [k]) (n + 1)).log ≠
      ((Board.start log commands).after clock (schedule ++ [k]) n).log) :
    (∃ t ∈ turns, t.place = n) ∨ n = schedule.length := by
  rcases Nat.lt_succ_iff_lt_or_eq.mp (by simpa using hn) with hlt | rfl
  · rw [Board.after_append_of_le hlt, Board.after_append_of_le (Nat.le_of_lt hlt)] at hne
    exact .inl (h.pushed n hlt hne)
  · exact .inr rfl

/-- All turns one after another lead to the log of the board. -/
lemma alone_run : Invocation.inTurn clock (turns.map Turn.invocation) log =
    (turns.map fun t => .ok t.answer, ((Board.start log commands).run clock schedule).log) := by
  have hall := h.alone _ (Nat.le_refl _)
  rwa [Turn.before_of_forall fun t ht => h.place_lt ht, Board.after_length] at hall

end Append

/-- A step that settles no task adds no turn. -/
lemma wait (h : Serial clock log commands schedule turns) {k : Nat}
    (hl : (((Board.start log commands).run clock schedule).step clock k).log =
      ((Board.start log commands).run clock schedule).log)
    (hr : ∀ j a, (((Board.start log commands).run clock schedule).step clock k).result? j =
      some (.ok a) → ((Board.start log commands).run clock schedule).result? j = some (.ok a)) :
    Serial clock log commands (schedule ++ [k]) turns where
  ordered := h.ordered
  own := h.own_append k
  command := h.command
  pending := h.pending_append k
  returned := h.returned_append k
  complete := by
    intro j a hj
    rw [Board.run_append] at hj
    exact h.complete j a (hr j a hj)
  pushed := by
    intro n hn hne
    rcases h.pushed_append k hn hne with ht | rfl
    · exact ht
    · rw [Board.after_append_singleton, Board.after_append_of_le (Nat.le_refl _),
        Board.after_length] at hne
      exact absurd hl hne
  alone := by
    intro n hn
    rcases Nat.le_succ_iff.mp (by simpa using hn) with hle | rfl
    · rw [Board.after_append_of_le hle]
      exact h.alone n hle
    · rw [Turn.before_of_forall fun t ht => Nat.lt_succ_of_lt (h.place_lt ht),
        Board.after_append_singleton, hl, h.alone_run]

/-- A step that settles a task adds the turn of that task. -/
lemma turn (h : Serial clock log commands schedule turns) {t : Turn} {i : Invocation} {n : Nat}
    (hp : t.place = schedule.length) (hi : commands[t.task]? = some i)
    (hd : t.invocation = i.later n)
    (hn : ((Board.start log commands).run clock schedule).result? t.task = none)
    (ha : (((Board.start log commands).run clock schedule).step clock t.task).result? t.task =
      some (.ok t.answer))
    (hr : Program.Returns clock t.invocation.program
      ((Board.start log commands).run clock schedule).log t.answer
      (((Board.start log commands).run clock schedule).step clock t.task).log) :
    Serial clock log commands (schedule ++ [t.task]) (turns ++ [t]) where
  ordered := by
    refine List.pairwise_append.mpr ⟨h.ordered, List.pairwise_singleton _ _, fun u hu v hv => ?_⟩
    obtain rfl := List.mem_singleton.mp hv
    refine ⟨hp ▸ h.place_lt hu, fun he => ?_⟩
    have hu' := h.returned_run hu
    rw [he, hn] at hu'
    cases hu'
  own := by
    refine List.forall_mem_append.mpr ⟨h.own_append _, List.forall_mem_singleton.mpr ?_⟩
    rw [hp, List.getElem?_concat_length]
  command := List.forall_mem_append.mpr
    ⟨h.command, List.forall_mem_singleton.mpr ⟨i, n, hi, hd⟩⟩
  pending := by
    refine List.forall_mem_append.mpr ⟨h.pending_append _, List.forall_mem_singleton.mpr ?_⟩
    rw [Board.after_append_of_le (Nat.le_of_eq hp), hp, Board.after_length]
    exact hn
  returned := by
    refine List.forall_mem_append.mpr ⟨h.returned_append _, List.forall_mem_singleton.mpr ?_⟩
    rw [hp, Board.after_append_singleton]
    exact ha
  complete := by
    intro j a hj
    rw [Board.run_append] at hj
    by_cases he : j = t.task
    · subst he
      refine ⟨t, List.mem_append_right _ (List.mem_singleton.mpr rfl), rfl, ?_⟩
      exact Except.ok.inj (Option.some.inj (ha.symm.trans hj))
    · obtain ⟨u, hu, hk, ha'⟩ := h.complete j a ((Board.result?_step_of_ne he).symm.trans hj)
      exact ⟨u, List.mem_append_left _ hu, hk, ha'⟩
  pushed := by
    intro m hm hne
    rcases h.pushed_append _ hm hne with ⟨u, hu, hpu⟩ | rfl
    · exact ⟨u, List.mem_append_left _ hu, hpu⟩
    · exact ⟨t, List.mem_append_right _ (List.mem_singleton.mpr rfl), hp⟩
  alone := by
    intro m hm
    rcases Nat.le_succ_iff.mp (by simpa using hm) with hle | rfl
    · rw [Board.after_append_of_le hle, Turn.before_append_of_le (hp ▸ hle)]
      exact h.alone m hle
    · have hall : Turn.before (turns ++ [t]) (schedule.length + 1) = turns ++ [t] :=
        Turn.before_of_forall <| List.forall_mem_append.mpr
          ⟨fun u hu => Nat.lt_succ_of_lt (h.place_lt hu),
            List.forall_mem_singleton.mpr (hp ▸ Nat.lt_succ_self _)⟩
      rw [hall, Board.after_append_singleton, List.map_append, Invocation.inTurn_append,
        h.alone_run, List.map_append]
      simp only [List.map_cons, List.map_nil, Invocation.inTurn]
      rw [show t.invocation.program.run clock _ = _ from hr]

/-- A further step keeps the commands in series. -/
lemma step (h : Serial clock log commands schedule turns) (hl : log.Lawful) (k : Nat) :
    ∃ later, Serial clock log commands (schedule ++ [k]) later := by
  have hf : ((Board.start log commands).run clock schedule).Fair clock commands :=
    (Board.fair_start hl commands).run schedule
  rcases hf.step_cases k with ⟨i, a, hi, ha, hn, hr⟩ | ⟨hw, hr⟩
  · obtain ⟨n, hd⟩ := ha.returns
    exact ⟨_, h.turn (t := ⟨schedule.length, k, i.later n, a⟩) rfl hi rfl hn hr hd⟩
  · exact ⟨turns, h.wait hw hr⟩

end Serial

/-- From a log that commands have left, however many commands make their calls in whatever order,
those that succeed are in series. -/
theorem commands_serial (clock₀ clock : Nat → Stamp) (earlier commands : List Invocation)
    (past schedule : List Nat) :
    ∃ turns,
      Serial clock ((Board.start {} earlier).run clock₀ past).log commands schedule turns := by
  have hl := Board.lawful_run clock₀ earlier past
  induction schedule using List.reverseRecOn with
  | nil => exact ⟨[], Serial.nil hl⟩
  | append_singleton schedule k ih =>
    obtain ⟨turns, h⟩ := ih
    exact h.step hl k

end Federation
