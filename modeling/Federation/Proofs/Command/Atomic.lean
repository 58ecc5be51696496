import Federation.Proofs.Command.Attempt

/-!
Commands among others. A command decides on what it has read, and other writers may come between its
calls on the log. It is atomic if the one call that gives it its result does at once what the whole
command would do there, and all its other calls leave the log alone.
-/
namespace Federation

namespace Program

/-- The next call on the log, and what is left to do. -/
def step (clock : Nat → Stamp) : Program α → Log → Program α × Log
  | .done r, log => (.done r, log)
  | .latest q next, log => (next (log.latest q), log)
  | .filter q next, log => (next (log.filter q), log)
  | .push p next, log =>
    match log.push (clock log.events.length) p with
    | .ok (events, later) => (next (.ok events), later)
    | .error e => (next (.error e), log)

/-- The program has come to its result at a log, and left another one. -/
def Settled (S : Log → α → Log → Prop) (p : Program α) (log later : Log) : Prop :=
  ∃ a, p = .done (.ok a) ∧ S log a later

/-- However the log has grown when a call is made, that call either settles the program in the way
that `S` says of the log then, or changes nothing. -/
def Atomic (clock : Nat → Stamp) (S : Log → α → Log → Prop) : Program α → Log → Prop
  | .done r, _ => ∃ e, r = .error e
  | .latest q next, log => ∀ now, log.Grows now →
      Settled S (next (now.latest q)) now now ∨ Atomic clock S (next (now.latest q)) now
  | .filter q next, log => ∀ now, log.Grows now →
      Settled S (next (now.filter q)) now now ∨ Atomic clock S (next (now.filter q)) now
  | .push p next, log => ∀ now, log.Grows now →
      (∀ stored later, now.push (clock now.events.length) p = .ok (stored, later) →
        Settled S (next (.ok stored)) now later) ∧
      ∀ e, now.push (clock now.events.length) p = .error e → Atomic clock S (next (.error e)) now

lemma bind_assoc (p : Program α) (f : α → Program β) (h : β → Program γ) :
    p >>= f >>= h = p >>= fun a => f a >>= h := by
  induction p with
  | done r => cases r <;> rfl
  | latest q next ih => exact congrArg (latest q) (funext ih)
  | filter q next ih => exact congrArg (filter q) (funext ih)
  | push p next ih => exact congrArg (push p) (funext ih)

variable {clock : Nat → Stamp} {S T : Log → α → Log → Prop} {log now : Log}

lemma atomic_fail (e : Error) (log : Log) : (fail e).Atomic clock S log := ⟨e, rfl⟩

/-- A log may grow before the next call. -/
lemma Atomic.grows {p : Program α} (h : p.Atomic clock S log) (g : log.Grows now) :
    p.Atomic clock S now := by
  cases p with
  | done r => exact h
  | latest q next => exact fun later f => h later (g.trans f)
  | filter q next => exact fun later f => h later (g.trans f)
  | push p next => exact fun later f => h later (g.trans f)

/-- What an atomic program does with its next call. -/
lemma Atomic.step_cases {p : Program α} (h : p.Atomic clock S log) (hl : log.Lawful) :
    Settled S (p.step clock log).1 log (p.step clock log).2 ∨
      (p.step clock log).2 = log ∧ (p.step clock log).1.Atomic clock S log := by
  cases p with
  | done r => exact .inr ⟨rfl, h⟩
  | latest q next => exact (h log hl.grows).imp id fun h => ⟨rfl, h⟩
  | filter q next => exact (h log hl.grows).imp id fun h => ⟨rfl, h⟩
  | push p next =>
    obtain ⟨hok, herr⟩ := h log hl.grows
    simp only [step]
    cases hp : log.push (clock log.events.length) p with
    | ok r => exact .inl (hok r.1 r.2 hp)
    | error e => exact .inr ⟨rfl, herr e hp⟩

lemma Settled.imp {p : Program α} {later : Log} (hST : ∀ log a later, S log a later → T log a later)
    (h : Settled S p log later) : Settled T p log later := by
  obtain ⟨a, hp, hs⟩ := h
  exact ⟨a, hp, hST _ _ _ hs⟩

lemma Atomic.imp {p : Program α} (hST : ∀ log a later, S log a later → T log a later)
    (h : p.Atomic clock S log) : p.Atomic clock T log := by
  induction p generalizing log with
  | done r => exact h
  | latest q next ih => exact fun now g => (h now g).imp (Settled.imp hST) (ih _)
  | filter q next ih => exact fun now g => (h now g).imp (Settled.imp hST) (ih _)
  | push p next ih =>
    exact fun now g => ⟨fun stored later hp => ((h now g).1 stored later hp).imp hST,
      fun e hp => ih _ ((h now g).2 e hp)⟩

lemma Settled.orElse {p : Program α} {later : Log} (h : Settled S p log later)
    (f : Error → Program α) : Settled S (p.orElse f) log later := by
  obtain ⟨a, rfl, hs⟩ := h
  exact ⟨a, rfl, hs⟩

lemma Settled.map {p : Program α} {S : Log → β → Log → Prop} {f : α → β} {later : Log}
    (h : Settled (fun log a later => S log (f a) later) p log later) :
    Settled S (f <$> p) log later := by
  obtain ⟨a, rfl, hs⟩ := h
  exact ⟨f a, rfl, hs⟩

/-- A program that goes on with another where it fails. -/
lemma Atomic.orElse {p : Program α} {f : Error → Program α} (h : p.Atomic clock S log)
    (hl : log.Lawful) (hf : ∀ e now, now.Lawful → (f e).Atomic clock S now) :
    (p.orElse f).Atomic clock S log := by
  induction p generalizing log with
  | done r =>
    obtain ⟨e, rfl⟩ := h
    exact hf e log hl
  | latest q next ih =>
    exact fun now g => (h now g).imp (Settled.orElse · f) fun h => ih _ h g.lawful
  | filter q next ih =>
    exact fun now g => (h now g).imp (Settled.orElse · f) fun h => ih _ h g.lawful
  | push p next ih =>
    exact fun now g => ⟨fun stored later hp => ((h now g).1 stored later hp).orElse f,
      fun e hp => ih _ ((h now g).2 e hp) g.lawful⟩

/-- Attempts one after another, each atomic. -/
lemma atomic_retry {attempt : Nat → Program α}
    (h : ∀ i now, now.Lawful → (attempt i).Atomic clock S now) (n i : Nat) (hl : log.Lawful) :
    (retry attempt n i).Atomic clock S log := by
  induction n generalizing i log with
  | zero => exact h i log hl
  | succ n ih =>
    refine (h i log hl).orElse hl fun e now hn => ?_
    split
    · exact ih (i + 1) hn
    · exact atomic_fail e now

/-- A program whose result is seen as something else. -/
lemma Atomic.map {p : Program α} {S : Log → β → Log → Prop} {f : α → β}
    (h : p.Atomic clock (fun log a later => S log (f a) later) log) :
    (f <$> p).Atomic clock S log := by
  induction p generalizing log with
  | done r =>
    obtain ⟨e, rfl⟩ := h
    exact ⟨e, rfl⟩
  | latest q next ih => exact fun now g => (h now g).imp Settled.map (ih _)
  | filter q next ih => exact fun now g => (h now g).imp Settled.map (ih _)
  | push p next ih =>
    exact fun now g => ⟨fun stored later hp => ((h now g).1 stored later hp).map,
      fun e hp => ih _ ((h now g).2 e hp)⟩

end Program
end Federation
