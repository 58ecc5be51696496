import Federation.Proofs.Command.Effect

/-!
Commands as data, so that many of them can be under way at one log. Each is atomic, whatever the
others do, and where it succeeds the log tells lives still.
-/
namespace Federation

/-- What a service can be asked. -/
inductive Command where
  | add (owner : Owner) (id : String) (config : Config)
  | update (owner : Owner) (id : String) (config : Config)
  | remove (owner : Owner) (id : String)
  | migrate (owner : Owner) (id : String) (m : Migration)
  | kind (instanceId id : String)
  | client (instanceId id callback : String)

inductive Answer where
  | details (d : Details)
  | kind (k : Kind)
  | client (c : Client)

structure Invocation where
  service : Service
  command : Command

namespace Service

/-- The service with what it draws at random drawn later. -/
def later (s : Service) (n : Nat) : Service := { s with nonce := fun i => s.nonce (n + i) }

end Service

namespace Invocation

def program (i : Invocation) : Program Answer :=
  match i.command with
  | .add owner id config => Answer.details <$> i.service.add owner id config
  | .update owner id config => Answer.details <$> i.service.update owner id config
  | .remove owner id => Answer.details <$> i.service.remove owner id
  | .migrate owner id m => Answer.details <$> i.service.migrate owner id m
  | .kind instanceId id => Answer.kind <$> Service.kind instanceId id
  | .client instanceId id callback => Answer.client <$> i.service.client instanceId id callback

def later (i : Invocation) (n : Nat) : Invocation := { i with service := i.service.later n }

/-- Invocations one after another, with nobody else at the log: what each returns, and what is left
in the log. -/
def inTurn (clock : Nat → Stamp) : List Invocation → Log → List (Except Error Answer) × Log
  | [], log => ([], log)
  | i :: is, log =>
    let (result, now) := i.program.run clock log
    let (results, last) := inTurn clock is now
    (result :: results, last)

end Invocation

namespace Program

variable {clock : Nat → Stamp} {log now : Log}

/-- Where the first attempt succeeds there is no other. -/
lemma Returns.retry {attempt : Nat → Program α} {i : Nat} {a : α}
    (h : Returns clock (attempt i) log a now) (n : Nat) :
    Returns clock (Program.retry attempt n i) log a now := by
  cases n with
  | zero => exact h
  | succ n =>
    refine (run_orElse clock _ _ log).trans ?_
    rw [show (attempt i).run clock log = (.ok a, now) from h]

/-- There is another attempt only where another writer came first. -/
lemma run_retry_local {attempt : Nat → Program α} {i : Nat} {e : Error}
    (h : (attempt i).run clock log = (.error e, now)) (he : e.isConflict = false) (n : Nat) :
    (retry attempt n i).run clock log = (.error e, now) := by
  cases n with
  | zero => exact h
  | succ n =>
    refine (run_orElse clock _ _ log).trans ?_
    rw [h]
    simp only [he, Bool.false_eq_true, if_false]
    rfl

lemma run_map_error {p : Program α} {e : Error} (h : p.run clock log = (.error e, now))
    (f : α → β) : (f <$> p).run clock log = (.error e, now) := by
  refine (run_bind clock p (pure ∘ f) log).trans ?_
  rw [h]

lemma returns_done_bind {r : Except Error β} {f : β → Program α} {a : α} :
    Returns clock (.done r >>= f) log a now ↔ ∃ b, r = .ok b ∧ Returns clock (f b) log a now := by
  cases r with
  | ok b => exact ⟨fun h => ⟨b, rfl, h⟩, fun ⟨_, hb, h⟩ => Except.ok.inj hb ▸ h⟩
  | error e => exact ⟨nofun, fun ⟨_, hb, _⟩ => nomatch hb⟩

lemma returns_map {p : Program α} {f : α → β} {b : β} :
    Returns clock (f <$> p) log b now ↔ ∃ a, f a = b ∧ Returns clock p log a now := by
  have hr : (f <$> p).run clock log = _ := run_bind clock p (pure ∘ f) log
  unfold Returns
  rw [hr]
  rcases p.run clock log with ⟨r, later⟩
  cases r with
  | ok a =>
    change (Except.ok (f a), later) = (Except.ok b, now) ↔ _
    simp only [Prod.mk.injEq, Except.ok.injEq]
    constructor
    · rintro ⟨hb, hn⟩
      exact ⟨a, hb, rfl, hn⟩
    · rintro ⟨_, hb, rfl, hn⟩
      exact ⟨hb, hn⟩
  | error e => simp

lemma atomic_done_bind {S : Log → α → Log → Prop} {r : Except Error β} {f : β → Program α}
    (h : ∀ b, r = .ok b → (f b).Atomic clock S log) :
    (.done r >>= f : Program α).Atomic clock S log := by
  cases r with
  | ok b => exact h b rfl
  | error e => exact atomic_fail e log

end Program

namespace Invocation

open Program

variable {clock : Nat → Stamp} {log now : Log}

/-- Alone at a log, some attempt at the command returns this and leaves that. -/
def Attempted (clock : Nat → Stamp) (i : Invocation) (log : Log) (a : Answer) (now : Log) : Prop :=
  match i.command with
  | .add owner id config => ∃ d, .details d = a ∧ config.validate = .ok () ∧
      ∃ n, Returns clock (i.service.addAttempt owner id config n) log d now
  | .update owner id config => ∃ d, .details d = a ∧ config.validate = .ok () ∧
      ∃ n, Returns clock (i.service.updateAttempt owner id config n) log d now
  | .remove owner id => ∃ d, .details d = a ∧
      Returns clock (i.service.removeAttempt owner id) log d now
  | .migrate owner id m => ∃ d, .details d = a ∧ m.validate = .ok () ∧
      ∃ n, Returns clock (i.service.migrateAttempt owner id m n) log d now
  | .kind instanceId id => ∃ k, .kind k = a ∧ Returns clock (Service.kind instanceId id) log k now
  | .client instanceId id callback => ∃ c, .client c = a ∧
      Returns clock (i.service.client instanceId id callback) log c now

/-- However many attempts it takes, one of them does at once what the command does. -/
theorem atomic (i : Invocation) (h : log.Lawful) :
    i.program.Atomic clock (i.Attempted clock) log := by
  obtain ⟨s, command⟩ := i
  cases command with
  | add owner id config =>
    refine Atomic.map (atomic_done_bind fun _ hv => atomic_retry (fun n now _ => ?_) _ 0 h)
    exact (s.addAttempt_atomic config n now).imp fun log a now hr => ⟨a, rfl, hv, n, hr⟩
  | update owner id config =>
    refine Atomic.map (atomic_done_bind fun _ hv => atomic_retry (fun n now _ => ?_) _ 0 h)
    exact (s.updateAttempt_atomic config n now).imp fun log a now hr => ⟨a, rfl, hv, n, hr⟩
  | remove owner id =>
    refine Atomic.map (atomic_retry (fun n now _ => ?_) _ 0 h)
    exact (s.removeAttempt_atomic now).imp fun log a now hr => ⟨a, rfl, hr⟩
  | migrate owner id m =>
    refine Atomic.map (atomic_done_bind fun _ hv => atomic_retry (fun n now _ => ?_) _ 0 h)
    exact (s.migrateAttempt_atomic m n now).imp fun log a now hr => ⟨a, rfl, hv, n, hr⟩
  | kind instanceId id =>
    exact Atomic.map ((Service.kind_atomic instanceId log).imp fun log a now hr => ⟨a, rfl, hr⟩)
  | client instanceId id callback =>
    exact Atomic.map ((s.client_atomic instanceId callback log).imp
      fun log a now hr => ⟨a, rfl, hr⟩)

/-- What an attempt does, the whole command does alone at the log, if what it draws at random is
drawn later. -/
theorem Attempted.returns {i : Invocation} {a : Answer} (h : i.Attempted clock log a now) :
    ∃ n, Returns clock (i.later n).program log a now := by
  obtain ⟨s, command⟩ := i
  cases command with
  | add owner id config =>
    obtain ⟨d, hd, hv, n, hr⟩ := h
    exact ⟨n, returns_map.mpr ⟨d, hd, returns_done_bind.mpr ⟨_, hv, hr.retry (i := 0) _⟩⟩⟩
  | update owner id config =>
    obtain ⟨d, hd, hv, n, hr⟩ := h
    exact ⟨n, returns_map.mpr ⟨d, hd, returns_done_bind.mpr ⟨_, hv, hr.retry (i := 0) _⟩⟩⟩
  | remove owner id =>
    obtain ⟨d, hd, hr⟩ := h
    exact ⟨0, returns_map.mpr ⟨d, hd, Returns.retry (i := 0) hr _⟩⟩
  | migrate owner id m =>
    obtain ⟨d, hd, hv, n, hr⟩ := h
    exact ⟨n, returns_map.mpr ⟨d, hd, returns_done_bind.mpr ⟨_, hv, hr.retry (i := 0) _⟩⟩⟩
  | kind instanceId id =>
    obtain ⟨k, hk, hr⟩ := h
    exact ⟨0, returns_map.mpr ⟨k, hk, hr⟩⟩
  | client instanceId id callback =>
    obtain ⟨c, hc, hr⟩ := h
    exact ⟨0, returns_map.mpr ⟨c, hc, hr⟩⟩

/-- A command that succeeds leaves a log that tells lives. -/
theorem Attempted.grows {i : Invocation} {a : Answer} (h : i.Attempted clock log a now)
    (hl : log.Lawful) : log.Grows now := by
  obtain ⟨s, command⟩ := i
  cases command with
  | add owner id config =>
    obtain ⟨d, -, -, n, hr⟩ := h
    exact s.addAttempt_grows hl hr
  | update owner id config =>
    obtain ⟨d, -, -, n, hr⟩ := h
    exact s.updateAttempt_grows hl hr
  | remove owner id =>
    obtain ⟨d, -, hr⟩ := h
    exact s.removeAttempt_grows hl hr
  | migrate owner id m =>
    obtain ⟨d, -, -, n, hr⟩ := h
    exact s.migrateAttempt_grows hl hr
  | kind instanceId id =>
    obtain ⟨k, -, hr⟩ := h
    obtain ⟨found, -, hr⟩ := returns_map.mp hr
    exact Service.discover_keeps hl hr ▸ hl.grows
  | client instanceId id callback =>
    obtain ⟨c, -, hr⟩ := h
    exact s.client_keeps hl hr ▸ hl.grows

end Invocation
end Federation
