import Federation.Proofs.Command.Retrying
import Federation.Proofs.Command.Serial

/-!
Commands in each other's way. Where an attempt meets with a conflict, another command has added an
event under the same id since the attempt read. So a command gives up only after others have got
ahead as often as it has tried, and one that adds a provider meets with no second conflict.
-/
namespace Federation

namespace Log

/-- Where a log within reach refuses a push, some stream is not where it was expected. -/
lemma push_eq_error {log : Log} (h : log.available = true) {stamp : Stamp} {p : Batch}
    {e : LogError} (hp : log.push stamp p = .error e) :
    e.isConflict = true ∧ ∃ c ∈ p.expectations, log.tail c.stream.name ≠ c.expected := by
  cases hc : log.conflict? p with
  | none =>
    simp [push, reached, h, hc, bind, Except.bind, pure, Except.pure] at hp
  | some f =>
    simp only [push, reached, h, hc, bind, Except.bind, throw, throwThe, MonadExceptOf.throw,
      if_true, Except.error.injEq] at hp
    obtain ⟨c, hm, hf⟩ := List.exists_of_findSome?_eq_some hc
    dsimp only at hf
    split at hf
    · cases hf
    · next hne =>
      cases hf
      exact ⟨hp ▸ rfl, c, hm, hne⟩

end Log

lemma getElem?_concat_cases {xs : List α} {x y : α} {n : Nat} (h : (xs ++ [x])[n]? = some y) :
    (n < xs.length ∧ xs[n]? = some y) ∨ (n = xs.length ∧ x = y) := by
  have hn := (List.getElem?_eq_some_iff.mp h).1
  rw [List.length_append, List.length_singleton] at hn
  rcases Nat.lt_succ_iff_lt_or_eq.mp hn with hlt | rfl
  · exact .inl ⟨hlt, by rwa [List.getElem?_append_left hlt] at h⟩
  · exact .inr ⟨rfl, by simpa using h⟩

namespace Board

variable {clock : Nat → Stamp} {commands : List Invocation} {b : Board} {schedule : List Nat}

/-- At its next call a task learns that another writer came first. -/
def Refuses (clock : Nat → Stamp) (b : Board) (k : Nat) : Prop :=
  ∃ p next e, b.tasks[k]? = some (.push p next) ∧
    b.log.push (clock b.log.events.length) p = .error e ∧ e.isConflict = true

/-- At its next call a task adds an event to one of the streams. -/
def Stores (clock : Nat → Stamp) (b : Board) (k : Nat) (streams : Scope → StreamName) : Prop :=
  ∃ p next stored later, b.tasks[k]? = some (.push p next) ∧
    b.log.push (clock b.log.events.length) p = .ok (stored, later) ∧
    ∃ e ∈ stored, ∃ scope, e.streamName = streams scope

lemma Refuses.push {k : Nat} {p : Program Answer} (h : b.Refuses clock k)
    (hp : b.tasks[k]? = some p) : ∃ q next, p = .push q next := by
  obtain ⟨q, next, -, hq, -, -⟩ := h
  exact ⟨q, next, Option.some.inj (hp.symm.trans hq)⟩

lemma run_concat (k : Nat) : b.run clock (schedule ++ [k]) = (b.run clock schedule).step clock k :=
  run_append schedule [k]

lemma tasks_run_concat {k : Nat} {p : Program Answer}
    (h : (b.run clock schedule).tasks[k]? = some p) :
    (b.run clock (schedule ++ [k])).tasks[k]? =
      some (p.step clock (b.run clock schedule).log).1 := by
  rw [run_concat, tasks_step_self h]

/-- Only a task that adds to a stream moves its end. -/
lemma stores_of_tail {k : Nat} {streams : Scope → StreamName} {scope : Scope} (h : b.log.Sound)
    (hne : (b.step clock k).log.tail (streams scope) ≠ b.log.tail (streams scope)) :
    b.Stores clock k streams := by
  cases hp : b.tasks[k]? with
  | none => exact absurd (by rw [step_of_none hp]) hne
  | some p =>
    rw [step_of_some hp] at hne
    cases p with
    | push p next =>
      cases hr : b.log.push (clock b.log.events.length) p with
      | error e => exact absurd (by simp only [Program.step, hr]) hne
      | ok r =>
        obtain ⟨stored, later⟩ := r
        refine ⟨p, next, stored, later, hp, hr, ?_⟩
        by_contra hn
        refine hne ?_
        have hnone : streamOf stored (streams scope) = [] := by
          refine List.filter_eq_nil_iff.mpr fun e he hs => hn ⟨e, he, scope, ?_⟩
          simpa using hs
        simp only [Program.step, hr]
        rw [Log.tail_eq (h.push hr), Log.tail_eq h, (Log.push_appends hr).1, streamOf_append,
          hnone, List.append_nil]
    | _ => exact absurd rfl hne

lemma after_succ {n k : Nat} (h : schedule[n]? = some k) :
    b.after clock schedule (n + 1) = (b.after clock schedule n).step clock k := by
  rw [after, List.take_add_one, h, run_append]
  rfl

lemma Fair.after (h : b.Fair clock commands) (n : Nat) :
    (b.after clock schedule n).Fair clock commands := h.run _

lemma Fair.after_grows (h : b.Fair clock commands) {m n : Nat} (hle : m ≤ n) :
    (b.after clock schedule m).log.Grows (b.after clock schedule n).log := by
  obtain ⟨d, rfl⟩ := Nat.exists_eq_add_of_le hle
  rw [Board.after, Board.after, List.take_add, run_append]
  exact (h.run _).run_grows _

/-- What has changed has changed at some step. -/
lemma exists_change (f : Nat → Nat) {m n : Nat} (hle : m ≤ n) (hne : f n ≠ f m) :
    ∃ l, m ≤ l ∧ l < n ∧ f (l + 1) ≠ f l := by
  induction n with
  | zero => exact absurd (by rw [Nat.le_zero.mp hle]) hne
  | succ n ih =>
    rcases Nat.le_succ_iff.mp hle with hmn | rfl
    · by_cases hf : f n = f m
      · exact ⟨n, hmn, Nat.lt_succ_self n, hf ▸ hne⟩
      · obtain ⟨l, hl, hln, h⟩ := ih hmn hf
        exact ⟨l, hl, Nat.lt_succ_of_lt hln, h⟩
    · exact absurd rfl hne

/-- Whoever finds a stream at another end than at a call of its own that read only, and has made no
call since, has seen another task add to it. -/
lemma Fair.exists_rival (h : b.Fair clock commands) {k load push : Nat}
    {streams : Scope → StreamName} {scope : Scope} (hlt : load < push)
    (hpush : push ≤ schedule.length)
    (hread : (b.after clock schedule (load + 1)).log = (b.after clock schedule load).log)
    (still : ∀ n, load < n → n < push → schedule[n]? ≠ some k)
    (hne : (b.after clock schedule push).log.tail (streams scope) ≠
      (b.after clock schedule load).log.tail (streams scope)) :
    ∃ rival, load < rival ∧ rival < push ∧ ∃ j, j ≠ k ∧ schedule[rival]? = some j ∧
      (b.after clock schedule rival).Stores clock j streams := by
  rw [← hread] at hne
  obtain ⟨rival, hl, hp, hc⟩ := exists_change
    (fun n => (b.after clock schedule n).log.tail (streams scope)) hlt hne
  have hj := List.getElem?_eq_getElem (Nat.lt_of_lt_of_le hp hpush)
  rw [after_succ hj] at hc
  exact ⟨rival, hl, hp, _, fun he => still rival hl hp (he ▸ hj), hj,
    stores_of_tail (h.after rival).lawful.sound hc⟩

/-- What a task stores under an id is there ever after. -/
lemma Fair.about_ne_nil (h : b.Fair clock commands) {rival later j : Nat} {c : Command}
    (hj : schedule[rival]? = some j)
    (hs : (b.after clock schedule rival).Stores clock j c.stream) (hlt : rival < later) :
    (b.after clock schedule later).log.about c.subject.1 c.subject.2 ≠ [] := by
  obtain ⟨p, next, stored, now, hp, hok, e, he, scope, hn⟩ := hs
  have hlog : (b.after clock schedule (rival + 1)).log = now := by
    rw [after_succ hj, step_of_some hp]
    simp only [Program.step, hok]
  have hnow : e ∈ (b.after clock schedule (rival + 1)).log.events := by
    rw [hlog, (Log.push_appends hok).1]
    exact List.mem_append_right _ he
  refine List.ne_nil_of_mem (List.mem_filter.mpr ⟨(h.after_grows hlt).kept.subset hnow, ?_⟩)
  have hi : e.stream.instanceId = c.subject.1 := congrArg StreamName.instanceId hn
  have hid : e.stream.id = c.subject.2 := congrArg StreamName.id hn
  simp [hi, hid]

end Board

/-- Where in a schedule an attempt reads, where another task comes first and where the attempt
learns of it. -/
structure Conflict where
  load : Nat
  rival : Nat
  push : Nat

/-- An attempt of a task meets with a conflict. Attempts are numbered by how many came before. -/
structure Conflict.Befalls (clock : Nat → Stamp) (b : Board) (schedule : List Nat) (k : Nat)
    (i : Invocation) (attempt : Nat) (c : Conflict) : Prop where
  begun : ∃ p, i.left? attempt = some p ∧ (b.after clock schedule c.load).tasks[k]? = some p
  loads : schedule[c.load]? = some k
  pushes : schedule[c.push]? = some k
  still : ∀ n, c.load < n → n < c.push → schedule[n]? ≠ some k
  refused : (b.after clock schedule c.push).Refuses clock k
  between : c.load < c.rival ∧ c.rival < c.push
  rival : ∃ j, j ≠ k ∧ schedule[c.rival]? = some j ∧
    (b.after clock schedule c.rival).Stores clock j i.command.stream
  free : i.command.Free (b.after clock schedule c.load).log

/-- The conflicts that the attempts of a task meet with, one attempt after another. -/
structure Conflicts (clock : Nat → Stamp) (b : Board) (schedule : List Nat) (k : Nat)
    (i : Invocation) (conflicts : List Conflict) : Prop where
  befall : ∀ (n : Nat) (c : Conflict), conflicts[n]? = some c → c.Befalls clock b schedule k i n
  ordered : conflicts.Pairwise fun c d => c.push < d.load
  complete : ∀ n, schedule[n]? = some k → (b.after clock schedule n).Refuses clock k →
    ∃ c ∈ conflicts, c.push = n

/-- A task has read at one of its calls and is to push next. -/
structure Pressing (clock : Nat → Stamp) (b : Board) (schedule : List Nat) (k : Nat)
    (i : Invocation) (attempt load : Nat) : Prop where
  begun : ∃ p, i.left? attempt = some p ∧ (b.after clock schedule load).tasks[k]? = some p
  loads : schedule[load]? = some k
  still : ∀ n, load < n → schedule[n]? ≠ some k
  read : (b.after clock schedule (load + 1)).log = (b.after clock schedule load).log
  free : i.command.Free (b.after clock schedule load).log
  pushes : ∃ (f : Nat → Program Details) (s : Service) (expectations : List Expectation)
    (d : Draft), i.command.attempt? i.service = some f ∧
      (b.run clock schedule).tasks[k]? = some (Answer.details <$> Program.resume f
        (i.service.tuning.retries.toNat - attempt) attempt (s.push expectations d)) ∧
      i.Met (b.after clock schedule load).log expectations

/-- How far a task has come. -/
inductive Stage (clock : Nat → Stamp) (b : Board) (schedule : List Nat) (k : Nat)
    (i : Invocation) (conflicts : List Conflict) : Prop
  /-- It changes nothing any more and meets with no conflict. -/
  | calm {p : Program Answer} (task : (b.run clock schedule).tasks[k]? = some p)
    (calm : p.Calm i.Answers)
  /-- Its next attempt begins. -/
  | ready {p : Program Answer} (patient : conflicts.length ≤ i.service.tuning.retries.toNat)
    (left : i.left? conflicts.length = some p) (task : (b.run clock schedule).tasks[k]? = some p)
  | pressing {load : Nat} (patient : conflicts.length ≤ i.service.tuning.retries.toNat)
    (pressing : Pressing clock b schedule k i conflicts.length load)
    (late : ∀ c ∈ conflicts, c.push < load)
  /-- It has given up. -/
  | beaten {e : Error} (task : (b.run clock schedule).tasks[k]? = some (.done (.error e)))
    (conflict : e.isConflict = true)
    (impatient : conflicts.length = i.service.tuning.retries.toNat + 1)

section

variable {clock : Nat → Stamp} {commands : List Invocation} {b : Board} {schedule : List Nat}
  {k : Nat} {i : Invocation} {conflicts : List Conflict} {attempt : Nat} {c : Conflict}

lemma Conflict.Befalls.push_lt (h : c.Befalls clock b schedule k i attempt) :
    c.push < schedule.length := (List.getElem?_eq_some_iff.mp h.pushes).1

/-- What has befallen a task has befallen it, whatever comes after. -/
lemma Conflict.Befalls.append (h : c.Befalls clock b schedule k i attempt) (rest : List Nat) :
    c.Befalls clock b (schedule ++ rest) k i attempt := by
  have hp := h.push_lt
  have hr := h.between
  constructor
  case begun =>
    rw [Board.after_append_of_le (by omega)]
    exact h.begun
  case loads =>
    rw [List.getElem?_append_left (by omega)]
    exact h.loads
  case pushes =>
    rw [List.getElem?_append_left hp]
    exact h.pushes
  case still =>
    intro n hl hn
    rw [List.getElem?_append_left (by omega)]
    exact h.still n hl hn
  case refused =>
    rw [Board.after_append_of_le (by omega)]
    exact h.refused
  case between => exact hr
  case rival =>
    rw [List.getElem?_append_left (by omega), Board.after_append_of_le (by omega)]
    exact h.rival
  case free =>
    rw [Board.after_append_of_le (by omega)]
    exact h.free

lemma Conflicts.nil : Conflicts clock b [] k i [] where
  befall := by simp
  ordered := List.Pairwise.nil
  complete := by simp

lemma Conflicts.push_lt (h : Conflicts clock b schedule k i conflicts) (hc : c ∈ conflicts) :
    c.push < schedule.length := by
  obtain ⟨n, hn⟩ := List.mem_iff_getElem?.mp hc
  exact (h.befall n c hn).push_lt

section Append

variable (h : Conflicts clock b schedule k i conflicts)
include h

/-- A call at which the task meets with no conflict. -/
lemma Conflicts.wait {j : Nat} (hj : j = k → ¬ (b.run clock schedule).Refuses clock k) :
    Conflicts clock b (schedule ++ [j]) k i conflicts where
  befall n c hn := (h.befall n c hn).append [j]
  ordered := h.ordered
  complete := by
    intro n hn hr
    rcases getElem?_concat_cases hn with ⟨hlt, hn⟩ | ⟨rfl, he⟩
    · rw [Board.after_append_of_le (Nat.le_of_lt hlt)] at hr
      exact h.complete n hn hr
    · rw [Board.after_append_of_le (Nat.le_refl _), Board.after_length] at hr
      exact absurd hr (hj he)

/-- A call at which the task meets with one more conflict. -/
lemma Conflicts.snoc (hc : c.Befalls clock b (schedule ++ [k]) k i conflicts.length)
    (hlate : ∀ d ∈ conflicts, d.push < c.load) (hp : c.push = schedule.length) :
    Conflicts clock b (schedule ++ [k]) k i (conflicts ++ [c]) where
  befall := by
    intro n d hn
    rcases getElem?_concat_cases hn with ⟨-, hn⟩ | ⟨rfl, rfl⟩
    · exact (h.befall n d hn).append [k]
    · exact hc
  ordered := List.pairwise_append.mpr ⟨h.ordered, List.pairwise_singleton _ _, fun d hd e he =>
    List.mem_singleton.mp he ▸ hlate d hd⟩
  complete := by
    intro n hn hr
    rcases getElem?_concat_cases hn with ⟨hlt, hn⟩ | ⟨rfl, -⟩
    · rw [Board.after_append_of_le (Nat.le_of_lt hlt)] at hr
      obtain ⟨d, hd, he⟩ := h.complete n hn hr
      exact ⟨d, List.mem_append_left _ hd, he⟩
    · exact ⟨c, List.mem_append_right _ (List.mem_singleton.mpr rfl), hp⟩

end Append

/-- Other tasks leave it where it is. -/
lemma Pressing.other {load j : Nat} (h : Pressing clock b schedule k i attempt load) (hj : j ≠ k) :
    Pressing clock b (schedule ++ [j]) k i attempt load := by
  have hlt := (List.getElem?_eq_some_iff.mp h.loads).1
  have hload : b.after clock (schedule ++ [j]) load = b.after clock schedule load :=
    Board.after_append_of_le (Nat.le_of_lt hlt) [j]
  have hnext : b.after clock (schedule ++ [j]) (load + 1) = b.after clock schedule (load + 1) :=
    Board.after_append_of_le hlt [j]
  constructor
  case begun => exact hload ▸ h.begun
  case loads =>
    rw [List.getElem?_append_left hlt]
    exact h.loads
  case still =>
    intro n hn hk
    rcases getElem?_concat_cases hk with ⟨-, hk⟩ | ⟨-, he⟩
    · exact h.still n hn hk
    · exact hj he
  case read => exact hload ▸ hnext ▸ h.read
  case free => exact hload ▸ h.free
  case pushes =>
    rw [hload, Board.run_concat, Board.tasks_step_of_ne (Ne.symm hj)]
    exact h.pushes

lemma Stage.other {j : Nat} (h : Stage clock b schedule k i conflicts) (hj : j ≠ k) :
    Stage clock b (schedule ++ [j]) k i conflicts := by
  have htask : (b.run clock (schedule ++ [j])).tasks[k]? = (b.run clock schedule).tasks[k]? := by
    rw [Board.run_concat, Board.tasks_step_of_ne (Ne.symm hj)]
  cases h with
  | calm task hc => exact .calm (htask.trans task) hc
  | ready hn hleft task => exact .ready hn hleft (htask.trans task)
  | pressing hn hp hlate => exact .pressing hn (hp.other hj) hlate
  | beaten task he hn => exact .beaten (htask.trans task) he hn

/-- A task whose next attempt begins reads, and then it is done or about to push. -/
lemma Stage.begin (hf : b.Fair clock commands) {p : Program Answer}
    (hn : conflicts.length ≤ i.service.tuning.retries.toNat)
    (hleft : i.left? conflicts.length = some p)
    (task : (b.run clock schedule).tasks[k]? = some p)
    (hlate : ∀ c ∈ conflicts, c.push < schedule.length) :
    Stage clock b (schedule ++ [k]) k i conflicts := by
  obtain ⟨f, hattempt, rfl⟩ := Option.map_eq_some_iff.mp hleft
  have hbegun : (b.after clock (schedule ++ [k]) schedule.length) = b.run clock schedule := by
    rw [Board.after_append_of_le (Nat.le_refl _), Board.after_length]
  rw [Program.retry_eq] at task
  obtain ⟨hreads, hpoised⟩ := i.poised clock (hf.run schedule).lawful hattempt conflicts.length
  have hstep := Board.tasks_run_concat task
  rw [Program.step_map, Program.step_resume _ _ _ hreads.ne_done] at hstep
  -- what is left to do if the attempt fails stays behind whatever the attempt comes to
  rcases hpoised with ⟨r, hr, hans⟩ | ⟨hfree, s, expectations, d, hp, hmet⟩
  · rw [hr, Program.resume_local _ _ _ (Error.Local.of_map hans.isLocal)] at hstep
    exact .calm hstep (Program.Calm.map hans)
  · rw [hp] at hstep
    refine .pressing hn ⟨?_, ?_, ?_, ?_, ?_, f, s, expectations, d, hattempt, hstep, ?_⟩ hlate
    · rw [hbegun]
      exact ⟨_, hleft, Program.retry_eq .. ▸ task⟩
    · exact List.getElem?_concat_length
    · intro n hlt hk
      rcases getElem?_concat_cases hk with ⟨hn, -⟩ | ⟨hn, -⟩ <;> omega
    · rw [Board.after_append_singleton, hbegun, Board.step_of_some task]
      exact (hreads.resume ..).log_step
    · exact hbegun ▸ hfree
    · exact hbegun ▸ hmet

/-- What is pressing is refused only because another task has come first. -/
lemma Pressing.befalls (hf : b.Fair clock commands) {load : Nat}
    (h : Pressing clock b schedule k i attempt load) (hr : (b.run clock schedule).Refuses clock k) :
    ∃ rival,
      Conflict.Befalls clock b (schedule ++ [k]) k i attempt ⟨load, rival, schedule.length⟩ := by
  obtain ⟨f, s, expectations, d, -, task, hmet⟩ := h.pushes
  obtain ⟨p, next, e, htask, hp, -⟩ := id hr
  obtain ⟨next', hnext⟩ := Program.resume_push Answer.details f _ _ _ _
  obtain rfl := (Program.push.inj (Option.some.inj
    ((task.trans (congrArg some hnext)).symm.trans htask))).1
  obtain ⟨-, c, hc, hne⟩ := Log.push_eq_error (hf.run schedule).lawful.available hp
  -- the expectation that fails was met when the attempt read
  obtain ⟨htail, scope, hname⟩ := hmet c hc
  rw [← htail, hname, ← Board.after_length] at hne
  have hlt := (List.getElem?_eq_some_iff.mp h.loads).1
  obtain ⟨rival, hl, hr', hrival⟩ := hf.exists_rival hlt (Nat.le_refl _) h.read
    (fun n hn _ => h.still n hn) hne
  have hload : b.after clock (schedule ++ [k]) load = b.after clock schedule load :=
    Board.after_append_of_le (Nat.le_of_lt hlt) [k]
  refine ⟨rival, ?_⟩
  constructor
  case begun => exact hload ▸ h.begun
  case loads =>
    rw [List.getElem?_append_left hlt]
    exact h.loads
  case pushes => exact List.getElem?_concat_length
  case still =>
    intro n hn hm
    rw [List.getElem?_append_left hm]
    exact h.still n hn
  case refused =>
    rw [Board.after_append_of_le (Nat.le_refl _), Board.after_length]
    exact hr
  case between => exact ⟨hl, hr'⟩
  case rival =>
    rw [List.getElem?_append_left hr', Board.after_append_of_le (Nat.le_of_lt hr')]
    exact hrival
  case free => exact hload ▸ h.free

/-- What is pressing goes through, or the attempt has failed. -/
lemma Pressing.step_cases (hf : b.Fair clock commands) {load : Nat}
    (h : Pressing clock b schedule k i attempt load) :
    (¬ (b.run clock schedule).Refuses clock k ∧ ∃ d,
      (b.run clock (schedule ++ [k])).tasks[k]? = some (.done (.ok (.details d)))) ∨
    (b.run clock schedule).Refuses clock k ∧ ∃ f e, e.isConflict = true ∧
      i.command.attempt? i.service = some f ∧
      (b.run clock (schedule ++ [k])).tasks[k]? = some (Answer.details <$> Program.resume f
        (i.service.tuning.retries.toNat - attempt) attempt (.fail e)) := by
  obtain ⟨f, s, expectations, d, hattempt, task, -⟩ := h.pushes
  have hstep := Board.tasks_run_concat task
  obtain ⟨next, hnext⟩ := Program.resume_push Answer.details f _ _ _ _
  have hpush := task.trans (congrArg some hnext)
  rw [Program.step_map, Program.step_resume _ _ _ (by rintro r ⟨⟩)] at hstep
  cases hp : (b.run clock schedule).log.push (clock (b.run clock schedule).log.events.length)
      ⟨s.editor, expectations, [d]⟩ with
  | ok r =>
    obtain ⟨stored, later⟩ := r
    obtain ⟨e, rfl, -, -, -⟩ := Log.push_single hp
    refine .inl ⟨?_, ⟨e.sequence, e.createdAt, e.stream.resourceOwner⟩, ?_⟩
    · rintro ⟨q, n, e, hq, he, -⟩
      cases hpush.symm.trans hq
      cases hp.symm.trans he
    · simp only [Service.push, Program.step, hp] at hstep
      rw [Details.ofStored, List.getLast?_singleton, Program.resume_ok] at hstep
      exact hstep
  | error e =>
    have he := (Log.push_eq_error (hf.run schedule).lawful.available hp).1
    simp only [Service.push, Program.step, hp] at hstep
    exact .inr ⟨⟨_, _, e, hpush, hp, he⟩, f, .log e, he, hattempt, hstep⟩

/-- One more call of any task. -/
lemma Conflicts.step (hf : b.Fair clock commands) (h : Conflicts clock b schedule k i conflicts)
    (hs : Stage clock b schedule k i conflicts) (j : Nat) :
    ∃ later, Conflicts clock b (schedule ++ [j]) k i later ∧
      Stage clock b (schedule ++ [j]) k i later := by
  by_cases hj : j = k
  · subst hj
    -- a conflict is met with where a push is pressing, and nowhere else
    cases hs with
    | calm task hc =>
      refine ⟨conflicts, h.wait fun _ hr => ?_, .calm (Board.tasks_run_concat task) hc.step⟩
      obtain ⟨q, next, rfl⟩ := hr.push task
      exact hc
    | ready hn hleft task =>
      refine ⟨conflicts, h.wait fun _ hr => ?_, .begin hf hn hleft task fun _ => h.push_lt⟩
      obtain ⟨q, next, rfl⟩ := hr.push task
      exact Invocation.reads_of_left hleft
    | pressing hn hp hlate =>
      rcases hp.step_cases hf with ⟨hr, d, task⟩ | ⟨hr, f, e, he, hattempt, task⟩
      · exact ⟨conflicts, h.wait fun _ => hr, .calm task (i.answers_details d)⟩
      · obtain ⟨rival, hc⟩ := hp.befalls hf hr
        refine ⟨_, h.snoc hc hlate rfl, ?_⟩
        cases hm : i.service.tuning.retries.toNat - conflicts.length with
        | zero =>
          rw [hm] at task
          refine .beaten task he ?_
          rw [List.length_append, List.length_singleton]
          omega
        | succ m =>
          rw [hm, Program.resume_conflict _ _ _ he] at task
          refine .ready ?_ ?_ task
          · rw [List.length_append, List.length_singleton]
            omega
          · rw [List.length_append, List.length_singleton, Invocation.left?, hattempt]
            rw [show i.service.tuning.retries.toNat - (conflicts.length + 1) = m by omega]
            rfl
    | beaten task he hn =>
      refine ⟨conflicts, h.wait fun _ hr => ?_, .beaten (Board.tasks_run_concat task) he hn⟩
      obtain ⟨q, next, hq⟩ := hr.push task
      cases hq
  · exact ⟨conflicts, h.wait fun he => absurd he hj, hs.other hj⟩

/-- The command that came first has taken the id. -/
lemma Conflicts.length_le_one (hf : b.Fair clock commands)
    (h : Conflicts clock b schedule k i conflicts) {owner : Owner} {id : String} {config : Config}
    (hi : i.command = .add owner id config) : conflicts.length ≤ 1 := by
  by_contra hn
  have h1 : 1 < conflicts.length := Nat.lt_of_not_le hn
  have h0 : 0 < conflicts.length := Nat.zero_lt_of_lt h1
  have hfirst := h.befall 0 _ (List.getElem?_eq_getElem h0)
  have hsecond := h.befall 1 _ (List.getElem?_eq_getElem h1)
  have hlate := List.pairwise_iff_getElem.mp h.ordered 0 1 h0 h1 Nat.zero_lt_one
  obtain ⟨j, -, hj, hs⟩ := hfirst.rival
  have htaken := hf.about_ne_nil hj hs (Nat.lt_trans hfirst.between.2 hlate)
  have hfree := hsecond.free
  rw [hi] at htaken hfree
  exact htaken hfree

lemma Conflicts.rivals (h : Conflicts clock b schedule k i conflicts) :
    (conflicts.map Conflict.rival).Pairwise (· < ·) := by
  refine List.pairwise_map.mpr (List.Pairwise.imp_of_mem ?_ h.ordered)
  intro c d hc hd hlt
  obtain ⟨m, hm⟩ := List.mem_iff_getElem?.mp hc
  obtain ⟨n, hn⟩ := List.mem_iff_getElem?.mp hd
  exact Nat.lt_trans (h.befall m c hm).between.2
    (Nat.lt_trans hlt (h.befall n d hn).between.1)

/-- What a command has come to does not depend on others, or it is a conflict and all of its
attempts have met with one. -/
lemma Stage.answer (h : Stage clock b schedule k i conflicts) {r : Except Error Answer}
    (hr : (b.run clock schedule).result? k = some r) :
    i.Answers r ∨ conflicts.length = i.service.tuning.retries.toNat + 1 := by
  rw [Board.result?_eq_some] at hr
  cases h with
  | calm task hc =>
    cases task.symm.trans hr
    exact .inl hc
  | beaten task he hn => exact .inr hn
  | ready hn hleft task =>
    exact absurd (Option.some.inj (task.symm.trans hr))
      ((Invocation.reads_of_left hleft).ne_done r)
  | pressing hn hp hlate =>
    obtain ⟨f, s, expectations, d, -, task, -⟩ := hp.pushes
    obtain ⟨next, hnext⟩ := Program.resume_push Answer.details f _ _ _ _
    cases (task.trans (congrArg some hnext)).symm.trans hr

end

/-- What the conflicts of a command are about: the progress of others. -/
structure Contested (clock : Nat → Stamp) (b : Board) (schedule : List Nat) (k : Nat)
    (i : Invocation) (conflicts : List Conflict) : Prop
    extends Conflicts clock b schedule k i conflicts where
  rivals : (conflicts.map Conflict.rival).Pairwise (· < ·)
  answer : ∀ r, (b.run clock schedule).result? k = some r →
    i.Answers r ∨ conflicts.length = i.service.tuning.retries.toNat + 1
  limit : ∀ e, (b.run clock schedule).result? k = some (.error e) → e.isConflict = true →
    conflicts.length = i.service.tuning.retries.toNat + 1
  addition : ∀ owner id config, i.command = .add owner id config → conflicts.length ≤ 1 ∧
    (1 ≤ i.service.tuning.retries.toNat → ∀ r, (b.run clock schedule).result? k = some r →
      (∃ d, r = .ok (.details d)) ∨ r = .error (.refused (.taken id)) ∨
        ∃ e, r = .error e ∧ e.isConflict = false ∧ config.Fails i.service (owner.stream id) e)

/-- In a log that commands have left, whatever the order in which commands make their calls: every
attempt that meets with a conflict has read before another command added an event under the same id
and pushed after it; a command reports a conflict only when each of its attempts has met with one;
and a command that adds a provider meets with one conflict at most, so that it reports none if it
may try again. -/
theorem conflicts_contested (clock₀ clock : Nat → Stamp) (earlier commands : List Invocation)
    (past schedule : List Nat) (k : Fin commands.length) :
    ∃ conflicts, Contested clock
      (Board.start ((Board.start {} earlier).run clock₀ past).log commands) schedule k
      (commands.get k) conflicts := by
  generalize hb : Board.start ((Board.start {} earlier).run clock₀ past).log commands = b
  have hf : b.Fair clock commands :=
    hb ▸ Board.fair_start (Board.lawful_run clock₀ earlier past) commands
  have hrun : ∃ conflicts, Conflicts clock b schedule k (commands.get k) conflicts ∧
      Stage clock b schedule k (commands.get k) conflicts := by
    induction schedule using List.reverseRecOn with
    | nil =>
      have task : b.tasks[k.val]? = some (commands.get k).program := by simp [← hb, Board.start]
      refine ⟨[], .nil, ?_⟩
      rcases (commands.get k).program_cases with hleft | hc
      · exact .ready (Nat.zero_le _) hleft task
      · exact .calm task hc
    | append_singleton schedule j ih =>
      obtain ⟨conflicts, h, hs⟩ := ih
      exact h.step hf hs j
  obtain ⟨conflicts, h, hs⟩ := hrun
  refine ⟨conflicts, h, h.rivals, fun r => hs.answer, fun e hr he => ?_, fun owner id config hi =>
    ⟨h.length_le_one hf hi, fun hn r hr => ?_⟩⟩
  · refine (hs.answer hr).resolve_left fun ha => ?_
    rw [ha.isLocal e rfl] at he
    cases he
  · refine Invocation.Answers.of_add ((hs.answer hr).resolve_right fun hl => ?_) hi
    have := h.length_le_one hf hi
    omega

end Federation
