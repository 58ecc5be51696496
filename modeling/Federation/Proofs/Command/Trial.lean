import Federation.Command.Channel
import Federation.Proofs.Command.Invocation
import Federation.Proofs.Log.Calls
import Mathlib.Data.List.Induction

/-!
Programs at a log that fails them. Other writers may do anything between two of a program's calls,
and any of its calls may be given up before it reaches the log: because the program was cancelled,
because the call took too long or because the log was out of reach.
-/
namespace Federation

/-- Nothing is lost, and what was numbered as it should be still is. -/
structure Log.Extends (log now : Log) : Prop where
  kept : log.events <+: now.events
  sound : log.Sound → now.Sound

namespace Log

variable {log now later : Log}

lemma Extends.refl (log : Log) : log.Extends log := ⟨List.prefix_rfl, id⟩

lemma Extends.trans (h : log.Extends now) (g : now.Extends later) : log.Extends later :=
  ⟨h.kept.trans g.kept, g.sound ∘ h.sound⟩

lemma extends_push {stamp : Stamp} {p : Batch} {stored : List LogEntry}
    (h : log.push stamp p = .ok (stored, later)) : log.Extends later :=
  ⟨(push_appends h).1 ▸ List.prefix_append _ _, fun hs => hs.push h⟩

lemma extends_call (log : Log) (c : Call) : log.Extends (log.call c).2 := by
  refine ⟨?_, fun h => h.call c⟩
  cases c with
  | push stamp p =>
    simp only [call]
    split
    · next h => exact (extends_push h).kept
    · exact List.prefix_rfl
  | _ => exact List.prefix_rfl

end Log

namespace Program

variable {clock : Nat → Stamp} {S T : Log → α → Log → Prop} {log now later : Log}

/-- The next call is not made, and its answer is an error. -/
def giveUp : Program α → LogError → Program α
  | .done r, _ => .done r
  | .latest _ next, e => next (.error e)
  | .filter _ next, e => next (.error e)
  | .push _ next, e => next (.error e)

/-- What a program has come to, once it is over. -/
def result? : Program α → Option (Except Error α)
  | .done r => some r
  | _ => none

lemma result?_eq_some {p : Program α} {r : Except Error α} : p.result? = some r ↔ p = .done r := by
  cases p <;> simp [result?]

lemma extends_step (clock : Nat → Stamp) (p : Program α) (log : Log) :
    log.Extends (p.step clock log).2 := by
  cases p with
  | push p next =>
    simp only [step]
    split
    · next h => exact Log.extends_push h
    · exact Log.Extends.refl log
  | _ => exact Log.Extends.refl log

/-- Whatever others have added when a call is made, that call either settles the program in the way
that `S` says of the log then, or leaves the log alone; and a call that is given up settles
nothing. -/
def Clean (clock : Nat → Stamp) (S : Log → α → Log → Prop) : Program α → Log → Prop
  | .done r, _ => ∃ e, r = .error e
  | .latest q next, log => ∀ now, log.Extends now →
      (Settled S (next (now.latest q)) now now ∨ Clean clock S (next (now.latest q)) now) ∧
      ∀ e, Clean clock S (next (.error e)) now
  | .filter q next, log => ∀ now, log.Extends now →
      (Settled S (next (now.filter q)) now now ∨ Clean clock S (next (now.filter q)) now) ∧
      ∀ e, Clean clock S (next (.error e)) now
  | .push p next, log => ∀ now, log.Extends now →
      (∀ stored later, now.push (clock now.events.length) p = .ok (stored, later) →
        Settled S (next (.ok stored)) now later) ∧
      ∀ e, Clean clock S (next (.error e)) now

lemma clean_fail (e : Error) (log : Log) : (fail e).Clean clock S log := ⟨e, rfl⟩

lemma Clean.extends {p : Program α} (h : p.Clean clock S log) (g : log.Extends now) :
    p.Clean clock S now := by
  cases p with
  | done r => exact h
  | latest q next => exact fun later f => h later (g.trans f)
  | filter q next => exact fun later f => h later (g.trans f)
  | push p next => exact fun later f => h later (g.trans f)

lemma Clean.giveUp {p : Program α} (h : p.Clean clock S log) (e : LogError) :
    (p.giveUp e).Clean clock S log := by
  cases p with
  | done r => exact h
  | latest q next => exact (h log (Log.Extends.refl log)).2 e
  | filter q next => exact (h log (Log.Extends.refl log)).2 e
  | push p next => exact (h log (Log.Extends.refl log)).2 e

/-- What a clean program does with its next call. -/
lemma Clean.step_cases {p : Program α} (h : p.Clean clock S log) :
    Settled S (p.step clock log).1 log (p.step clock log).2 ∨
      (p.step clock log).2 = log ∧ (p.step clock log).1.Clean clock S log := by
  cases p with
  | done r => exact .inr ⟨rfl, h⟩
  | latest q next => exact (h log (Log.Extends.refl log)).1.imp id fun h => ⟨rfl, h⟩
  | filter q next => exact (h log (Log.Extends.refl log)).1.imp id fun h => ⟨rfl, h⟩
  | push p next =>
    obtain ⟨hok, herr⟩ := h log (Log.Extends.refl log)
    simp only [step]
    cases hp : log.push (clock log.events.length) p with
    | ok r => exact .inl (hok r.1 r.2 hp)
    | error e => exact .inr ⟨rfl, herr e⟩

lemma Clean.imp {p : Program α} (hST : ∀ log a later, S log a later → T log a later)
    (h : p.Clean clock S log) : p.Clean clock T log := by
  induction p generalizing log with
  | done r => exact h
  | latest q next ih =>
    exact fun now g => ⟨(h now g).1.imp (Settled.imp hST) (ih _), fun e => ih _ ((h now g).2 e)⟩
  | filter q next ih =>
    exact fun now g => ⟨(h now g).1.imp (Settled.imp hST) (ih _), fun e => ih _ ((h now g).2 e)⟩
  | push p next ih =>
    exact fun now g => ⟨fun stored later hp => ((h now g).1 stored later hp).imp hST,
      fun e => ih _ ((h now g).2 e)⟩

lemma Clean.orElse {p : Program α} {f : Error → Program α} (h : p.Clean clock S log)
    (hf : ∀ e now, log.Extends now → (f e).Clean clock S now) :
    (p.orElse f).Clean clock S log := by
  induction p generalizing log with
  | done r =>
    obtain ⟨e, rfl⟩ := h
    exact hf e log (Log.Extends.refl log)
  | latest q next ih =>
    exact fun now g => ⟨(h now g).1.imp (Settled.orElse · f)
      fun h => ih _ h fun e later k => hf e later (g.trans k),
      fun e => ih _ ((h now g).2 e) fun e later k => hf e later (g.trans k)⟩
  | filter q next ih =>
    exact fun now g => ⟨(h now g).1.imp (Settled.orElse · f)
      fun h => ih _ h fun e later k => hf e later (g.trans k),
      fun e => ih _ ((h now g).2 e) fun e later k => hf e later (g.trans k)⟩
  | push p next ih =>
    exact fun now g => ⟨fun stored later hp => ((h now g).1 stored later hp).orElse f,
      fun e => ih _ ((h now g).2 e) fun e later k => hf e later (g.trans k)⟩

/-- Attempts one after another, each clean. -/
lemma clean_retry {attempt : Nat → Program α}
    (h : ∀ i now, log.Extends now → (attempt i).Clean clock S now) (n i : Nat) :
    (retry attempt n i).Clean clock S log := by
  induction n generalizing i log with
  | zero => exact h i log (Log.Extends.refl log)
  | succ n ih =>
    refine (h i log (Log.Extends.refl log)).orElse fun e now g => ?_
    split
    · exact ih (fun i later k => h i later (g.trans k)) (i + 1)
    · exact clean_fail e now

lemma Clean.map {p : Program α} {S : Log → β → Log → Prop} {f : α → β}
    (h : p.Clean clock (fun log a later => S log (f a) later) log) :
    (f <$> p).Clean clock S log := by
  induction p generalizing log with
  | done r =>
    obtain ⟨e, rfl⟩ := h
    exact ⟨e, rfl⟩
  | latest q next ih =>
    exact fun now g => ⟨(h now g).1.imp Settled.map (ih _), fun e => ih _ ((h now g).2 e)⟩
  | filter q next ih =>
    exact fun now g => ⟨(h now g).1.imp Settled.map (ih _), fun e => ih _ ((h now g).2 e)⟩
  | push p next ih =>
    exact fun now g => ⟨fun stored later hp => ((h now g).1 stored later hp).map,
      fun e => ih _ ((h now g).2 e)⟩

lemma clean_done_bind {r : Except Error β} {f : β → Program α}
    (h : ∀ b, r = .ok b → (f b).Clean clock S log) :
    (.done r >>= f : Program α).Clean clock S log := by
  cases r with
  | ok b => exact h b rfl
  | error e => exact clean_fail e log

lemma settled_or_clean (r : Except Error α) (h : ∀ a, r = .ok a → S log a log) :
    Settled S (.done r) log log ∨ (done r).Clean clock S log := by
  cases r with
  | ok a => exact .inl ⟨a, rfl, h a rfl⟩
  | error e => exact .inr (clean_fail e log)

/-- A program goes on with what it read of the log as it was at some later time. -/
lemma clean_load_bind {v : View} {base : Base} {f : Model v.State → Program α}
    (hf : ∀ seen m, log.Extends seen → v.gather base (seen.filter (v.query base)) = .ok m →
      Settled S (f m) seen seen ∨ (f m).Clean clock S seen) :
    (Service.load v base >>= f).Clean clock S log := by
  rw [load_eq]
  intro seen g
  refine ⟨?_, fun e => clean_fail (.log e) seen⟩
  change Settled S (.done (v.gather base (seen.filter (v.query base))) >>= f) seen seen ∨
    Clean clock S (.done (v.gather base (seen.filter (v.query base))) >>= f) seen
  cases hg : v.gather base (seen.filter (v.query base)) with
  | error e => exact .inr (clean_fail e seen)
  | ok m => exact hf seen m g hg

lemma clean_latest_bind {q : Query} {f : Nat → Program α}
    (hf : ∀ seen n, log.Extends seen → (f n).Clean clock S seen) :
    (Service.latest q >>= f).Clean clock S log := by
  intro seen g
  refine ⟨.inr ?_, fun e => clean_fail (.log e) seen⟩
  change Clean clock S (.done ((seen.latest q).mapError .log) >>= f) seen
  exact clean_done_bind fun n _ => hf seen n g

end Program

/-- What comes next while a program is under way. -/
inductive Happening where
  /-- The program makes its next call. -/
  | call
  | giveUp (e : LogError)
  /-- Someone else calls on the log, or its reach changes. -/
  | other (c : Call)

/-- A program under way at a log, and the events that it has added itself. -/
structure Trial (α : Type) where
  program : Program α
  log : Log
  own : List LogEntry := []

namespace Trial

def meet (clock : Nat → Stamp) (t : Trial α) : Happening → Trial α
  | .call =>
    let (program, log) := t.program.step clock t.log
    ⟨program, log, t.own ++ log.events.drop t.log.events.length⟩
  | .giveUp e => { t with program := t.program.giveUp e }
  | .other c => { t with log := (t.log.call c).2 }

def run (clock : Nat → Stamp) (t : Trial α) (happenings : List Happening) : Trial α :=
  happenings.foldl (meet clock) t

variable {clock : Nat → Stamp} {t : Trial α}

lemma run_append (hs ks : List Happening) :
    t.run clock (hs ++ ks) = (t.run clock hs).run clock ks := List.foldl_append

lemma run_concat (hs : List Happening) (h : Happening) :
    t.run clock (hs ++ [h]) = (t.run clock hs).meet clock h := by
  simp [run]

/-- The events of a program are in the log, in the order in which it added them, after those that
were there before. -/
lemma kept_run {p : Program α} {log : Log} (hs : List Happening) :
    (log.events ++ ((⟨p, log, []⟩ : Trial α).run clock hs).own).Sublist
      ((⟨p, log, []⟩ : Trial α).run clock hs).log.events := by
  induction hs using List.reverseRecOn with
  | nil => simp [run]
  | append_singleton hs h ih =>
    rw [run_concat]
    generalize (⟨p, log, []⟩ : Trial α).run clock hs = t at ih ⊢
    cases h with
    | call =>
      obtain ⟨added, ha⟩ := (t.program.extends_step clock t.log).kept
      simp only [meet, ← ha, List.drop_left, ← List.append_assoc]
      exact ih.append_right added
    | giveUp e => exact ih
    | other c => exact ih.trans (Log.extends_call t.log c).kept.sublist

/-- At the call after `before` a trial came to its result and added all that it ever adds. -/
structure SettledAt (clock : Nat → Stamp) (S : Log → α → Log → Prop) (t : Trial α)
    (before : List Happening) (a : α) (own : List LogEntry) : Prop where
  settles : S (t.run clock before).log a (t.run clock (before ++ [.call])).log
  added : (t.run clock (before ++ [.call])).log.events = (t.run clock before).log.events ++ own

end Trial

namespace Program

variable {clock : Nat → Stamp} {S : Log → α → Log → Prop} {p : Program α} {log : Log}

/-- A clean program has added nothing and is clean still, or it has come to its result. -/
lemma Clean.run (h : p.Clean clock S log) (hs : List Happening) :
    (∃ a before after, hs = before ++ .call :: after ∧
      ((⟨p, log, []⟩ : Trial α).run clock hs).program = .done (.ok a) ∧
      (⟨p, log, []⟩ : Trial α).SettledAt clock S before a
        ((⟨p, log, []⟩ : Trial α).run clock hs).own) ∨
    ((⟨p, log, []⟩ : Trial α).run clock hs).own = [] ∧
      ((⟨p, log, []⟩ : Trial α).run clock hs).program.Clean clock S
        ((⟨p, log, []⟩ : Trial α).run clock hs).log := by
  induction hs using List.reverseRecOn with
  | nil => exact .inr ⟨rfl, h⟩
  | append_singleton hs x ih =>
    rw [Trial.run_concat]
    rcases ih with ⟨a, before, after, hsplit, hd, hset⟩ | ⟨hown, hc⟩
    · refine .inl ⟨a, before, after ++ [x], by simp [hsplit], ?_, ?_⟩
      · cases x <;> simp [Trial.meet, hd, step, Program.giveUp]
      · cases x <;> simpa [Trial.meet, hd, step, Program.giveUp] using hset
    · generalize ht : (⟨p, log, []⟩ : Trial α).run clock hs = t at hown hc ⊢
      cases x with
      | giveUp e => exact .inr ⟨hown, hc.giveUp e⟩
      | other c => exact .inr ⟨hown, hc.extends (t.log.extends_call c)⟩
      | call =>
        obtain ⟨added, ha⟩ := (t.program.extends_step clock t.log).kept
        rcases hc.step_cases with ⟨a, hd, hset⟩ | ⟨hl, hc'⟩
        · refine .inl ⟨a, hs, [], rfl, hd, ?_, ?_⟩
          · rw [Trial.run_concat, ht]
            exact hset
          · rw [Trial.run_concat, ht]
            simp only [Trial.meet, hown, List.nil_append, ← ha, List.drop_left]
        · refine .inr ⟨?_, ?_⟩
          · simp only [Trial.meet, hl, hown, List.drop_length, List.append_nil]
          · simp only [Trial.meet, hl]
            exact hc'

/-- Only the call that settles a clean program changes the log. -/
lemma Clean.meet_call (h : p.Clean clock S log) (hs : List Happening) :
    (((⟨p, log, []⟩ : Trial α).run clock hs).meet clock .call).log =
        ((⟨p, log, []⟩ : Trial α).run clock hs).log ∨
      ∃ a, S ((⟨p, log, []⟩ : Trial α).run clock hs).log a
        (((⟨p, log, []⟩ : Trial α).run clock hs).meet clock .call).log := by
  rcases h.run hs with ⟨a, -, -, -, hd, -⟩ | ⟨-, hc⟩
  · exact .inl (by simp only [Trial.meet, hd, step])
  · rcases hc.step_cases with ⟨a, -, hset⟩ | ⟨hl, -⟩
    · exact .inr ⟨a, hset⟩
    · exact .inl hl

end Program

namespace Trial

variable {clock : Nat → Stamp}

/-- A rival that goes ahead is one of the others at the log. -/
lemma run_rival (clock : Nat → Stamp) (c : Channel) : (c.rival clock).2.swallow = c.swallow ∧
    ∃ hs, ∀ (p : Program α) (own : List LogEntry),
      (⟨p, c.log, own⟩ : Trial α).run clock hs = ⟨p, (c.rival clock).2.log, own⟩ := by
  unfold Channel.rival
  cases c.rivals with
  | nil => exact ⟨rfl, [], fun _ _ => rfl⟩
  | cons q qs =>
    simp only
    cases hp : c.log.push (clock c.log.events.length) q with
    | ok r =>
      refine ⟨rfl, [.other (.push (clock c.log.events.length) q)], fun p own => ?_⟩
      simp only [run, List.foldl_cons, List.foldl_nil, meet, Log.call, hp]
    | error e => exact ⟨rfl, [], fun _ _ => rfl⟩

lemma exists_append {t : Trial α} {out : Except Error α × Channel} (first : List Happening)
    (h : ∃ hs, ((t.run clock first).run clock hs).program = .done out.1 ∧
      ((t.run clock first).run clock hs).log = out.2.log) :
    ∃ hs, (t.run clock hs).program = .done out.1 ∧ (t.run clock hs).log = out.2.log := by
  obtain ⟨hs, h⟩ := h
  rw [← run_append] at h
  exact ⟨first ++ hs, h⟩

/-- What a program does over a channel that loses no push is a trial: a call that is refused or cut
short is given up, and rivals are others at the log. -/
theorem exists_of_runOver (limits : Limits) (p : Program α) (now : Nat) (c : Channel)
    (own : List LogEntry) (hc : c.swallow = 0) :
    ∃ hs, ((⟨p, c.log, own⟩ : Trial α).run clock hs).program =
        .done (p.runOver clock limits now c).1 ∧
      ((⟨p, c.log, own⟩ : Trial α).run clock hs).log = (p.runOver clock limits now c).2.log := by
  induction p generalizing now c own with
  | done r => exact ⟨[], rfl, rfl⟩
  | latest q next ih =>
    unfold Program.runOver
    split
    · exact exists_append [.giveUp .cancelled] (ih _ now c own hc)
    · split
      · next e t _ => exact exists_append [.giveUp e] (ih _ t c own hc)
      · exact exists_append [.call] (ih _ _ c _ hc)
  | filter q next ih =>
    unfold Program.runOver
    split
    · exact exists_append [.giveUp .cancelled] (ih _ now c own hc)
    · split
      · next e t _ => exact exists_append [.giveUp e] (ih _ t c own hc)
      · exact exists_append [.call] (ih _ _ c _ hc)
  | push q next ih =>
    unfold Program.runOver
    split
    · exact exists_append [.giveUp .cancelled] (ih _ now c own hc)
    · obtain ⟨hs', hs, hr⟩ := run_rival (α := α) clock c
      refine exists_append hs ?_
      rw [hr]
      generalize c.rival clock = out at hs'
      obtain ⟨e | u, d⟩ := out
      · exact exists_append [.giveUp e] (ih _ now d own (hs'.trans hc))
      · have hd : d.swallow = 0 := hs'.trans hc
        simp only
        split
        · next e t _ => exact exists_append [.giveUp e] (ih _ t d own hd)
        · refine exists_append [.call] ?_
          rw [show d.arrive clock q = _ from if_pos hd]
          simp only [run, List.foldl_cons, List.foldl_nil, meet, Program.step]
          cases d.log.push (clock d.log.events.length) q with
          | ok r => exact ih _ _ { d with log := r.2 } _ hd
          | error e => exact ih _ _ d _ hd

end Trial
end Federation
