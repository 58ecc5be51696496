import Federation.Command.Channel
import Federation.Command.Service
import Federation.Proofs.Provider.Drafts
import Mathlib.Data.Nat.Find
import Mathlib.Logic.Function.Iterate
import Mathlib.Order.Bounds.Basic

/-!
The loop in which a command tries again. Whatever answers its calls, the loop ends with the first
attempt whose outcome is no conflict, or with the last one that its limit allows. It counts in 32
bits, and its counter is the number of attempts that were made in vain.

A log that nobody else is at and a channel over which calls can be given up are two of the worlds
that may answer.
-/
namespace Federation

/-- What answers the calls of a program: each answer may depend on everything that went before. -/
structure World (σ : Type) where
  latest : σ → Query → Except LogError Nat × σ
  filter : σ → Query → Except LogError (List LogEntry) × σ
  push : σ → Batch → Except LogError (List LogEntry) × σ

/-- What a program comes to in a world, and how it leaves that world. -/
def Program.live (w : World σ) : Program α → σ → Except Error α × σ
  | .done r, x => (r, x)
  | .latest q next, x => live w (next (w.latest x q).1) (w.latest x q).2
  | .filter q next, x => live w (next (w.filter x q).1) (w.filter x q).2
  | .push p next, x => live w (next (w.push x p).1) (w.push x p).2

namespace World

/-- A log that nobody else is at. -/
def ofLog (clock : Nat → Stamp) : World Log where
  latest log q := (log.latest q, log)
  filter log q := (log.filter q, log)
  push log p :=
    match log.push (clock log.events.length) p with
    | .ok (events, log) => (.ok events, log)
    | .error e => (.error e, log)

/-- A read over a channel, at an instant and within limits. -/
def read (limits : Limits) (x : Nat × Channel) (r : Except LogError β) :
    Except LogError β × Nat × Channel :=
  if limits.refuses x.1 then (.error .cancelled, x)
  else
    match limits.cut? x.1 x.2.readDelay with
    | some (e, t) => (.error e, t, x.2)
    | none => (r, x.1 + x.2.readDelay, x.2)

/-- A channel, with the time. -/
def ofChannel (clock : Nat → Stamp) (limits : Limits) : World (Nat × Channel) where
  latest x q := read limits x (x.2.log.latest q)
  filter x q := read limits x (x.2.log.filter q)
  push x p :=
    if limits.refuses x.1 then (.error .cancelled, x)
    else
      match x.2.rival clock with
      | (.error e, c) => (.error e, x.1, c)
      | (.ok (), c) =>
        match limits.cut? x.1 c.pushDelay with
        | some (e, t) => (.error e, t, c)
        | none => ((c.arrive clock p).1, x.1 + c.pushDelay, (c.arrive clock p).2)

/-- The world before an attempt, if all attempts before it are made. -/
def before (w : World σ) (attempt : Nat → Program α) (x : σ) : Nat → σ
  | 0 => x
  | i + 1 => ((attempt i).live w (before w attempt x i)).2

/-- What an attempt comes to, if all attempts before it are made. -/
def outcome (w : World σ) (attempt : Nat → Program α) (x : σ) (i : Nat) : Except Error α :=
  ((attempt i).live w (w.before attempt x i)).1

end World

/-- Where the loop stands: about to make an attempt after some were made in vain, or at its end. -/
inductive Loop (σ α : Type) where
  | trying (made : Nat) (retries : UInt32) (x : σ)
  | over (made : Nat) (x : σ) (result : Except Error α)

/-- One turn of the loop. Adding to the counter may wrap around. -/
def Loop.turn (w : World σ) (attempt : Nat → Program α) (limit : UInt32) : Loop σ α → Loop σ α
  | .trying made retries x =>
    match (attempt made).live w x with
    | (.ok a, x) => .over (made + 1) x (.ok a)
    | (.error e, x) =>
      if e.isConflict && retries < limit then .trying (made + 1) (retries + 1) x
      else .over (made + 1) x (.error e)
  | .over made x result => .over made x result

namespace Program

/-- A program alone at a log lives in a world. -/
theorem run_eq_live (clock : Nat → Stamp) (p : Program α) (log : Log) :
    p.run clock log = p.live (.ofLog clock) log := by
  induction p generalizing log with
  | done r => rfl
  | latest q next ih => exact ih _ _
  | filter q next ih => exact ih _ _
  | push p next ih =>
    simp only [run, live, ih, World.ofLog]
    rcases log.push (clock log.events.length) p with e | ⟨events, log⟩ <;> rfl

/-- So does one over a channel, where rivals push and calls are cancelled or run out of time. -/
theorem runOver_eq_live (clock : Nat → Stamp) (limits : Limits) (p : Program α) (now : Nat)
    (c : Channel) : p.runOver clock limits now c =
      Prod.map id Prod.snd (p.live (.ofChannel clock limits) (now, c)) := by
  induction p generalizing now c with
  | done r => rfl
  | latest q next ih =>
    simp only [runOver, live, ih, World.ofChannel, World.read]
    split
    · rfl
    · rcases limits.cut? now c.readDelay with _ | ⟨e, t⟩ <;> rfl
  | filter q next ih =>
    simp only [runOver, live, ih, World.ofChannel, World.read]
    split
    · rfl
    · rcases limits.cut? now c.readDelay with _ | ⟨e, t⟩ <;> rfl
  | push p next ih =>
    simp only [runOver, live, ih, World.ofChannel]
    split
    · rfl
    · rcases c.rival clock with ⟨e | ⟨⟩, c⟩
      · rfl
      · dsimp only
        rcases limits.cut? now c.pushDelay with _ | ⟨e, t⟩ <;> rfl

lemma live_orElse (w : World σ) (p : Program α) (f : Error → Program α) (x : σ) :
    (p.orElse f).live w x =
      match p.live w x with
      | (.ok a, x) => (.ok a, x)
      | (.error e, x) => (f e).live w x := by
  induction p generalizing x with
  | done r => cases r <;> rfl
  | latest q next ih => exact ih _ _
  | filter q next ih => exact ih _ _
  | push p next ih => exact ih _ _

end Program

namespace World

variable {w : World σ} {attempt : Nat → Program α} {x : σ} {i j n : Nat}

lemma live_attempt (w : World σ) (attempt : Nat → Program α) (x : σ) (i : Nat) :
    (attempt i).live w (w.before attempt x i) =
      (w.outcome attempt x i, w.before attempt x (i + 1)) := rfl

lemma live_retry_local (h : Error.Local (w.outcome attempt x i)) (n : Nat) :
    (Program.retry attempt n i).live w (w.before attempt x i) =
      (w.outcome attempt x i, w.before attempt x (i + 1)) := by
  cases n with
  | zero => rfl
  | succ n =>
    rw [Program.retry, Program.live_orElse, live_attempt]
    cases hr : w.outcome attempt x i with
    | ok a => rfl
    | error e =>
      simp only [h e hr, Bool.false_eq_true, if_false]
      rfl

lemma live_retry_conflict (h : ¬ Error.Local (w.outcome attempt x i)) (n : Nat) :
    (Program.retry attempt (n + 1) i).live w (w.before attempt x i) =
      (Program.retry attempt n (i + 1)).live w (w.before attempt x (i + 1)) := by
  obtain ⟨type, id, expected, actual, hr⟩ := Error.not_local_iff.mp h
  rw [Program.retry, Program.live_orElse, live_attempt, hr]
  rfl

/-- Of the attempts up to `n`, which is the last to be made? -/
structure Last (w : World σ) (attempt : Nat → Program α) (x : σ) (n j : Nat) : Prop where
  le : j ≤ n
  vain : ∀ i < j, ¬ Error.Local (w.outcome attempt x i)
  final : j = n ∨ Error.Local (w.outcome attempt x j)

lemma exists_last (w : World σ) (attempt : Nat → Program α) (x : σ) (n : Nat) :
    ∃ j, w.Last attempt x n j := by
  classical
  have hstop : ∃ j, j = n ∨ Error.Local (w.outcome attempt x j) := ⟨n, .inl rfl⟩
  refine ⟨Nat.find hstop, Nat.find_min' hstop (.inl rfl), fun i hi h => ?_, Nat.find_spec hstop⟩
  exact Nat.find_min hstop hi (.inr h)

namespace Last

/-- The first outcome that is no conflict, if it comes in time. -/
lemma isLeast_or (h : w.Last attempt x n j) :
    IsLeast {i | Error.Local (w.outcome attempt x i)} j ∨
      j = n ∧ ∀ i ≤ n, ¬ Error.Local (w.outcome attempt x i) := by
  by_cases hl : Error.Local (w.outcome attempt x j)
  · refine .inl ⟨hl, fun i hi => ?_⟩
    by_contra hij
    exact h.vain i (by omega) hi
  · obtain rfl := h.final.resolve_right hl
    refine .inr ⟨rfl, fun i hi => ?_⟩
    rcases Nat.lt_or_eq_of_le hi with hi | rfl
    · exact h.vain i hi
    · exact hl

/-- What is left of the attempts after some that were made in vain. -/
lemma live_left (h : w.Last attempt x n j) (hi : i ≤ j) : (Program.retry attempt n 0).live w x =
    (Program.retry attempt (n - i) i).live w (w.before attempt x i) := by
  induction i with
  | zero => rfl
  | succ i ih =>
    have hle := h.le
    rw [ih (by omega), show n - i = n - (i + 1) + 1 by omega,
      live_retry_conflict (h.vain i (by omega))]

lemma live_retry (h : w.Last attempt x n j) : (Program.retry attempt n 0).live w x =
    (w.outcome attempt x j, w.before attempt x (j + 1)) := by
  rw [h.live_left le_rfl]
  rcases h.final with rfl | hl
  · rw [Nat.sub_self]
    rfl
  · exact live_retry_local hl _

end Last
end World

namespace Loop

variable {w : World σ} {attempt : Nat → Program α} {x : σ} {limit retries : UInt32} {i j k : Nat}

lemma turn_conflict (h : ¬ Error.Local (w.outcome attempt x i)) (hr : retries < limit) :
    turn w attempt limit (.trying i retries (w.before attempt x i)) =
      .trying (i + 1) (retries + 1) (w.before attempt x (i + 1)) := by
  obtain ⟨type, id, expected, actual, hc⟩ := Error.not_local_iff.mp h
  simp [turn, World.live_attempt, hc, hr, Error.isConflict, LogError.isConflict]

lemma turn_last (h : ¬ retries < limit ∨ Error.Local (w.outcome attempt x i)) :
    turn w attempt limit (.trying i retries (w.before attempt x i)) =
      .over (i + 1) (w.before attempt x (i + 1)) (w.outcome attempt x i) := by
  rw [turn, World.live_attempt]
  cases hr : w.outcome attempt x i with
  | ok a => rfl
  | error e =>
    have hstop : ¬ (e.isConflict = true ∧ retries < limit) := by
      rintro ⟨hc, hlt⟩
      rcases h with h | h
      · exact h hlt
      · simp [h e hr] at hc
    simp [hstop]

/-- As long as attempts are made in vain the counter is their number: below its limit it has room
for one more. -/
lemma iterate_trying (h : w.Last attempt x limit.toNat j) (hk : k ≤ j) :
    ∃ retries : UInt32, retries.toNat = k ∧
      (turn w attempt limit)^[k] (.trying 0 0 x) = .trying k retries (w.before attempt x k) := by
  induction k with
  | zero => exact ⟨0, rfl, rfl⟩
  | succ k ih =>
    obtain ⟨retries, hret, hrun⟩ := ih (by omega)
    have hle := h.le
    have hroom : retries.toNat + 1 < 2 ^ 32 := by
      have := limit.toNat_lt
      omega
    refine ⟨retries + 1, ?_, ?_⟩
    · rw [UInt32.toNat_add, UInt32.toNat_one, Nat.mod_eq_of_lt hroom, hret]
    · rw [Function.iterate_succ_apply', hrun, turn_conflict (h.vain k (by omega))]
      rw [UInt32.lt_iff_toNat_lt]
      omega

lemma iterate_over (h : w.Last attempt x limit.toNat j) (hk : j < k) :
    (turn w attempt limit)^[k] (.trying 0 0 x) =
      .over (j + 1) (w.before attempt x (j + 1)) (w.outcome attempt x j) := by
  obtain ⟨retries, hret, hrun⟩ := iterate_trying h le_rfl
  have hend : ¬ retries < limit ∨ Error.Local (w.outcome attempt x j) := by
    refine h.final.imp_left fun hj => ?_
    rw [UInt32.lt_iff_toNat_lt, hret, hj]
    exact lt_irrefl _
  obtain ⟨d, rfl⟩ := Nat.exists_eq_add_of_lt hk
  rw [show j + d + 1 = d + (j + 1) by omega, Function.iterate_add_apply,
    Function.iterate_succ_apply', hrun, turn_last hend]
  exact Function.iterate_fixed rfl d

end Loop

/-- A command that is tried again makes the attempts up to `j` and comes to what `j` comes to, in
every world: `j` is the first whose outcome is no conflict, or else the last one allowed. The loop
over a counter of 32 bits does the same, turn by turn: the counter never exceeds the limit and never
wraps around, and once over the loop stays over. -/
theorem Service.retry_first_settled (s : Service) (attempt : Nat → Program α) (w : World σ)
    (x : σ) :
    let n := s.tuning.retries.toNat
    let r := w.outcome attempt x
    let loop := Loop.turn w attempt s.tuning.retries
    ∃ j ≤ n,
      (IsLeast {i | Error.Local (r i)} j ∨ j = n ∧ ∀ i ≤ n, ¬ Error.Local (r i)) ∧
      (∀ i < j, ∃ type id expected actual,
        r i = .error (.log (.conflict type id expected actual))) ∧
      (s.retry attempt).live w x = (r j, w.before attempt x (j + 1)) ∧
      (∀ k ≤ j, ∃ retries : UInt32, retries.toNat = k ∧
        loop^[k] (.trying 0 0 x) = .trying k retries (w.before attempt x k)) ∧
      ∀ k > j, loop^[k] (.trying 0 0 x) = .over (j + 1) (w.before attempt x (j + 1)) (r j) := by
  intro n r loop
  obtain ⟨j, h⟩ := w.exists_last attempt x n
  refine ⟨j, h.le, h.isLeast_or, ?_, h.live_retry, ?_, ?_⟩
  · exact fun i hi => Error.not_local_iff.mp (h.vain i hi)
  · exact fun k hk => Loop.iterate_trying h hk
  · exact fun k hk => Loop.iterate_over h hk

/-- Any results at all may be the outcomes. -/
example (w : World σ) (r : Nat → Except Error α) (x : σ) :
    w.outcome (fun i => .done (r i)) x = r := rfl

end Federation
