import Federation.Proofs.Command.Invocation

/-!
Commands that are under way at the same log. At each step one of them makes its next call, in
whatever order; where such a call settles its command, the command might as well have run there
alone.
-/
namespace Federation

/-- A log, and the tasks that are under way at it. -/
structure Board where
  log : Log
  tasks : List (Program Answer)

namespace Board

def start (log : Log) (commands : List Invocation) : Board := ⟨log, commands.map Invocation.program⟩

/-- One task makes its next call on the log. A task that is done makes none. -/
def step (clock : Nat → Stamp) (b : Board) (k : Nat) : Board :=
  match b.tasks[k]? with
  | none => b
  | some p => ⟨(p.step clock b.log).2, b.tasks.set k (p.step clock b.log).1⟩

/-- The tasks make their calls in the order of a schedule. -/
def run (clock : Nat → Stamp) (b : Board) (schedule : List Nat) : Board :=
  schedule.foldl (step clock) b

/-- What a task has returned, if it is done. -/
def result? (b : Board) (k : Nat) : Option (Except Error Answer) :=
  match b.tasks[k]? with
  | some (.done r) => some r
  | _ => none

variable {clock : Nat → Stamp} {commands : List Invocation} {b : Board}

lemma run_append (schedule rest : List Nat) :
    b.run clock (schedule ++ rest) = (b.run clock schedule).run clock rest := List.foldl_append

lemma result?_eq_some {k : Nat} {r : Except Error Answer} :
    b.result? k = some r ↔ b.tasks[k]? = some (.done r) := by
  unfold result?
  split
  · next r' h => simp [h]
  · next h => exact ⟨nofun, fun hk => absurd hk (h r)⟩

lemma step_of_none {k : Nat} (h : b.tasks[k]? = none) : b.step clock k = b := by
  simp only [step, h]

lemma step_of_some {k : Nat} {p : Program Answer} (h : b.tasks[k]? = some p) :
    b.step clock k = ⟨(p.step clock b.log).2, b.tasks.set k (p.step clock b.log).1⟩ := by
  simp only [step, h]

lemma tasks_step_self {k : Nat} {p : Program Answer} (h : b.tasks[k]? = some p) :
    (b.step clock k).tasks[k]? = some (p.step clock b.log).1 := by
  obtain ⟨hk, -⟩ := List.getElem?_eq_some_iff.mp h
  simp [step_of_some h, hk]

lemma tasks_step_of_ne {j k : Nat} (h : j ≠ k) : (b.step clock k).tasks[j]? = b.tasks[j]? := by
  unfold step
  split
  · rfl
  · exact List.getElem?_set_ne (Ne.symm h)

lemma result?_step_of_ne {j k : Nat} (h : j ≠ k) : (b.step clock k).result? j = b.result? j := by
  unfold result?
  rw [tasks_step_of_ne h]

/-- A task that is done stays as it is. -/
lemma result?_step {j k : Nat} {r : Except Error Answer} (h : b.result? j = some r) :
    (b.step clock k).result? j = some r := by
  rw [result?_eq_some] at h ⊢
  by_cases hj : j = k
  · subst hj
    exact tasks_step_self h
  · rw [tasks_step_of_ne hj, h]

lemma result?_run {j : Nat} {r : Except Error Answer} (h : b.result? j = some r)
    (schedule : List Nat) : (b.run clock schedule).result? j = some r := by
  induction schedule generalizing b with
  | nil => exact h
  | cons k schedule ih => exact ih (result?_step h)

/-- Each task has settled its command or may still do so at once. -/
structure Fair (clock : Nat → Stamp) (commands : List Invocation) (b : Board) : Prop where
  lawful : b.log.Lawful
  task : ∀ {k : Nat} {p : Program Answer}, b.tasks[k]? = some p → ∃ i, commands[k]? = some i ∧
    ((∃ a, p = .done (.ok a)) ∨ p.Atomic clock (i.Attempted clock) b.log)

lemma fair_start {log : Log} (h : log.Lawful) (commands : List Invocation) :
    Fair clock commands (start log commands) where
  lawful := h
  task := by
    intro k p hp
    simp only [start, List.getElem?_map, Option.map_eq_some_iff] at hp
    obtain ⟨i, hi, rfl⟩ := hp
    exact ⟨i, hi, .inr (i.atomic h)⟩

/-- At a step a task settles its command, or the log stays as it is and no task is settled. -/
lemma Fair.step_cases (h : b.Fair clock commands) (k : Nat) :
    (∃ i a, commands[k]? = some i ∧ i.Attempted clock b.log a (b.step clock k).log ∧
      b.result? k = none ∧ (b.step clock k).result? k = some (.ok a)) ∨
    ((b.step clock k).log = b.log ∧ ∀ j a, (b.step clock k).result? j = some (.ok a) →
      b.result? j = some (.ok a)) := by
  cases hp : b.tasks[k]? with
  | none =>
    rw [step_of_none hp]
    exact .inr ⟨rfl, fun _ _ hr => hr⟩
  | some p =>
    have hself : (b.step clock k).tasks[k]? = some (p.step clock b.log).1 := tasks_step_self hp
    obtain ⟨i, hi, ⟨a, rfl⟩ | ha⟩ := h.task hp
    · refine .inr ⟨by rw [step_of_some hp]; rfl, fun j c hr => ?_⟩
      by_cases hj : j = k
      · subst hj
        rw [result?_eq_some.mpr hself] at hr
        rw [result?_eq_some.mpr hp, hr]
      · rwa [result?_step_of_ne hj] at hr
    · rcases ha.step_cases h.lawful with ⟨a, hd, hs⟩ | ⟨hl, ha'⟩
      · refine .inl ⟨i, a, hi, by rw [step_of_some hp]; exact hs, ?_, ?_⟩
        · by_contra hn
          obtain ⟨r, hr⟩ := Option.ne_none_iff_exists'.mp hn
          rw [result?_eq_some, hp, Option.some.injEq] at hr
          subst hr
          obtain ⟨e, rfl⟩ := ha
          nomatch hd
        · rw [result?_eq_some, hself, hd]
      · refine .inr ⟨by rw [step_of_some hp]; exact hl, fun j c hr => ?_⟩
        by_cases hj : j = k
        · subst hj
          rw [result?_eq_some, hself, Option.some.injEq] at hr
          rw [hr] at ha'
          obtain ⟨e, he⟩ := ha'
          nomatch he
        · rwa [result?_step_of_ne hj] at hr

lemma Fair.grows (h : b.Fair clock commands) (k : Nat) : b.log.Grows (b.step clock k).log := by
  rcases h.step_cases k with ⟨i, a, -, ha, -, -⟩ | ⟨hl, -⟩
  · exact ha.grows h.lawful
  · exact hl ▸ h.lawful.grows

lemma Fair.step (h : b.Fair clock commands) (k : Nat) : (b.step clock k).Fair clock commands where
  lawful := (h.grows k).lawful
  task := by
    intro j p hp
    by_cases hj : j = k
    · subst hj
      cases hq : b.tasks[j]? with
      | none =>
        rw [step_of_none hq, hq] at hp
        nomatch hp
      | some q =>
        rw [tasks_step_self hq, Option.some.injEq] at hp
        obtain ⟨i, hi, ⟨a, rfl⟩ | ha⟩ := h.task hq
        · exact ⟨i, hi, .inl ⟨a, hp.symm⟩⟩
        · refine ⟨i, hi, (ha.step_cases h.lawful).imp ?_ ?_⟩
          · rintro ⟨a, hd, -⟩
            exact ⟨a, hp ▸ hd⟩
          · rintro ⟨-, ha'⟩
            exact (hp ▸ ha').grows (h.grows j)
    · rw [tasks_step_of_ne hj] at hp
      obtain ⟨i, hi, ha⟩ := h.task hp
      exact ⟨i, hi, ha.imp_right fun ha => ha.grows (h.grows k)⟩

lemma Fair.run (h : b.Fair clock commands) (schedule : List Nat) :
    (b.run clock schedule).Fair clock commands := by
  induction schedule generalizing b with
  | nil => exact h
  | cons k schedule ih => exact ih (h.step k)

lemma Fair.run_grows (h : b.Fair clock commands) (schedule : List Nat) :
    b.log.Grows (b.run clock schedule).log := by
  induction schedule generalizing b with
  | nil => exact h.lawful.grows
  | cons k schedule ih => exact (h.grows k).trans (ih (h.step k))

/-- Whatever commands do to an empty log, in whatever order of their calls, it tells lives. -/
lemma lawful_run (clock : Nat → Stamp) (commands : List Invocation) (schedule : List Nat) :
    ((start {} commands).run clock schedule).log.Lawful :=
  ((fair_start Log.lawful_empty commands).run schedule).lawful

end Board
end Federation
