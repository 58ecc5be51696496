import Federation.Proofs.Cipher.Recovery
import Federation.Proofs.Command.Board
import Federation.Proofs.Command.Trial

/-!
What programs append. Whatever a program finds in a log, the events that it adds are drawn up from
what it was asked; for a command they are events of the one provider that it is about.
-/
namespace Federation

/-- A log that has come to hold more events, all of some sort. -/
structure Log.Gains (P : Draft → Prop) (log later : Log) : Prop where
  appended : ∃ es, later.events = log.events ++ es ∧ ∀ e ∈ es, P e.draft
  available : later.available = log.available

namespace Log

variable {P : Draft → Prop} {log now later : Log}

lemma Gains.refl (log : Log) : log.Gains P log := ⟨⟨[], by simp⟩, rfl⟩

lemma Gains.trans (h : log.Gains P now) (g : now.Gains P later) : log.Gains P later := by
  obtain ⟨es, he, hes⟩ := h.appended
  obtain ⟨fs, hf, hfs⟩ := g.appended
  refine ⟨⟨es ++ fs, by rw [hf, he, List.append_assoc], ?_⟩, g.available.trans h.available⟩
  exact List.forall_mem_append.mpr ⟨hes, hfs⟩

lemma gains_push {stamp : Stamp} {p : Batch} {stored : List LogEntry}
    (hp : ∀ d ∈ p.events, P d) (h : log.push stamp p = .ok (stored, later)) :
    log.Gains P later := by
  obtain ⟨-, -, -, -, ha⟩ := push_eq_ok_iff.mp h
  obtain ⟨he, hd, -⟩ := push_appends h
  exact ⟨⟨stored, he, fun e hs => hp _ (hd ▸ List.mem_map_of_mem hs)⟩, ha⟩

/-- A log answers with what was asked for. -/
lemma wants_of_filter {q : Query} {es : List LogEntry} (h : log.filter q = .ok es) :
    ∀ e ∈ es, q.wants e = true := by
  obtain ⟨_, -, h⟩ := bind_eq_ok.mp h
  obtain rfl : q.select log.events = es := Except.ok.inj h
  exact fun e he => (List.mem_filter.mp he).2

end Log

namespace View

variable {v : View}

lemma base_of_read {m n : Model v.State} {es : List LogEntry} (hm : m.buffer = [])
    (h : v.read m es = (n, .ok ())) : n.base = m.base.advance es := by
  simp only [read, Model.append, hm, List.nil_append, Model.reduce] at h
  split at h <;> cases h
  rfl

lemma base_of_gather {base : Base} {r : Except LogError (List LogEntry)} {m : Model v.State}
    (h : v.gather base r = .ok m) : ∃ es, r = .ok es ∧ m.base = base.advance es := by
  unfold gather at h
  split at h
  · cases h
  · next es =>
    split at h
    · next hread =>
      cases h
      exact ⟨es, rfl, base_of_read rfl hread⟩
    · cases h

end View

namespace Program

variable {P Q : Draft → Prop} {clock : Nat → Stamp} {log : Log}

/-- All that a program appends is of some sort, whatever it reads; what it reads of events is among
those it asked for. -/
def Appends (P : Draft → Prop) : Program α → Prop
  | .done _ => True
  | .latest _ next => ∀ r, Appends P (next r)
  | .filter q next => ∀ r, (∀ es, r = .ok es → ∀ e ∈ es, q.wants e = true) → Appends P (next r)
  | .push p next => (∀ d ∈ p.events, P d) ∧ ∀ r, Appends P (next r)

lemma Appends.imp {p : Program α} (hPQ : ∀ d, P d → Q d) (h : p.Appends P) : p.Appends Q := by
  induction p with
  | done r => trivial
  | latest q next ih => exact fun r => ih r (h r)
  | filter q next ih => exact fun r hr => ih r (h r hr)
  | push p next ih => exact ⟨fun d hd => hPQ d (h.1 d hd), fun r => ih r (h.2 r)⟩

lemma Appends.bind {p : Program α} {f : α → Program β} (h : p.Appends P)
    (hf : ∀ a, (f a).Appends P) : (p >>= f).Appends P := by
  induction p with
  | done r =>
    cases r with
    | ok a => exact hf a
    | error e => trivial
  | latest q next ih => exact fun r => ih r (h r)
  | filter q next ih => exact fun r hr => ih r (h r hr)
  | push p next ih => exact ⟨h.1, fun r => ih r (h.2 r)⟩

lemma Appends.map {p : Program α} (h : p.Appends P) (f : α → β) : (f <$> p).Appends P :=
  h.bind (f := pure ∘ f) fun _ => trivial

lemma Appends.orElse {p : Program α} {f : Error → Program α} (h : p.Appends P)
    (hf : ∀ e, (f e).Appends P) : (p.orElse f).Appends P := by
  induction p with
  | done r =>
    cases r with
    | ok a => trivial
    | error e => exact hf e
  | latest q next ih => exact fun r => ih r (h r)
  | filter q next ih => exact fun r hr => ih r (h r hr)
  | push p next ih => exact ⟨h.1, fun r => ih r (h.2 r)⟩

lemma appends_retry {attempt : Nat → Program α} (h : ∀ i, (attempt i).Appends P) (n i : Nat) :
    (retry attempt n i).Appends P := by
  induction n generalizing i with
  | zero => exact h i
  | succ n ih =>
    refine (h i).orElse fun e => ?_
    split
    · exact ih (i + 1)
    · trivial

lemma appends_done_bind {r : Except Error β} {f : β → Program α}
    (h : ∀ b, r = .ok b → (f b).Appends P) : (.done r >>= f : Program α).Appends P := by
  cases r with
  | ok b => exact h b rfl
  | error e => trivial

lemma appends_latest_bind {q : Query} {f : Nat → Program α} (h : ∀ n, (f n).Appends P) :
    (Service.latest q >>= f).Appends P :=
  fun _ => appends_done_bind fun n _ => h n

/-- A program goes on with a model that has read some of the events its view asks for. -/
lemma appends_load_bind {v : View} {base : Base} {f : Model v.State → Program α}
    (h : ∀ m es, (∀ e ∈ es, (v.query base).wants e = true) → m.base = base.advance es →
      (f m).Appends P) : (Service.load v base >>= f).Appends P := by
  rw [load_eq]
  intro r hr
  refine appends_done_bind fun m hm => ?_
  obtain ⟨es, rfl, hb⟩ := View.base_of_gather hm
  exact h m es (hr es rfl) hb

lemma appends_service_push {s : Service} {expectations : List Expectation} {d : Draft} (h : P d) :
    (s.push expectations d).Appends P := by
  refine ⟨List.forall_mem_singleton.mpr h, fun r => ?_⟩
  cases r <;> trivial

/-- The next call adds nothing else, and neither will those after it. -/
lemma Appends.step {p : Program α} (h : p.Appends P) :
    (p.step clock log).1.Appends P ∧ log.Gains P (p.step clock log).2 := by
  cases p with
  | done r => exact ⟨trivial, .refl log⟩
  | latest q next => exact ⟨h _, .refl log⟩
  | filter q next => exact ⟨h _ fun es he => Log.wants_of_filter he, .refl log⟩
  | push p next =>
    simp only [Program.step]
    cases hp : log.push (clock log.events.length) p with
    | ok r => exact ⟨h.2 _, Log.gains_push h.1 hp⟩
    | error e => exact ⟨h.2 _, .refl log⟩

lemma Appends.giveUp {p : Program α} (h : p.Appends P) (e : LogError) :
    (p.giveUp e).Appends P := by
  cases p with
  | done r => trivial
  | latest q next => exact h _
  | filter q next => exact h _ nofun
  | push p next => exact h.2 _

lemma Appends.run {p : Program α} (h : p.Appends P) : log.Gains P (p.run clock log).2 := by
  induction p generalizing log with
  | done r => exact .refl log
  | latest q next ih => exact ih _ (h _)
  | filter q next ih => exact ih _ (h _ fun es he => Log.wants_of_filter he)
  | push p next ih =>
    simp only [Program.run]
    cases hp : log.push (clock log.events.length) p with
    | ok r => exact (Log.gains_push h.1 hp).trans (ih _ (h.2 _))
    | error e => exact ih _ (h.2 _)

end Program

/-- Does a program make the happening, and not someone else? -/
def Happening.IsOwn : Happening → Prop
  | .call | .giveUp _ => True
  | .other _ => False

namespace Trial

variable {P : Draft → Prop} {clock : Nat → Stamp} {t : Trial α}

lemma appends_meet (h : t.program.Appends P) (x : Happening) :
    (t.meet clock x).program.Appends P := by
  cases x with
  | call => exact h.step.1
  | giveUp e => exact h.giveUp e
  | other c => exact h

lemma appends_run (h : t.program.Appends P) (hs : List Happening) :
    (t.run clock hs).program.Appends P := by
  induction hs generalizing t with
  | nil => exact h
  | cons x hs ih => exact ih (appends_meet h x)

/-- While the others are idle, the log gains what the program appends and nothing else. -/
lemma gains_run (h : t.program.Appends P) {hs : List Happening} (ho : ∀ x ∈ hs, x.IsOwn) :
    t.log.Gains P (t.run clock hs).log := by
  induction hs generalizing t with
  | nil => exact .refl t.log
  | cons x hs ih =>
    obtain ⟨hx, ho⟩ := List.forall_mem_cons.mp ho
    refine .trans ?_ (ih (appends_meet h x) ho)
    cases x with
    | call => exact h.step.2
    | giveUp e => exact .refl t.log
    | other c => exact hx.elim

end Trial

namespace Board

variable {P : Draft → Prop} {clock : Nat → Stamp} {b : Board}

lemma appends_step (h : ∀ p ∈ b.tasks, p.Appends P) (k : Nat) :
    (∀ p ∈ (b.step clock k).tasks, p.Appends P) ∧ b.log.Gains P (b.step clock k).log := by
  cases hk : b.tasks[k]? with
  | none =>
    rw [step_of_none hk]
    exact ⟨h, .refl b.log⟩
  | some p =>
    have hp : (p.step clock b.log).1.Appends P ∧ b.log.Gains P (p.step clock b.log).2 :=
      (h p (List.mem_of_getElem? hk)).step
    rw [step_of_some hk]
    refine ⟨fun q hq => ?_, hp.2⟩
    rcases List.mem_or_eq_of_mem_set hq with hq | rfl
    · exact h q hq
    · exact hp.1

/-- Whatever the order of their calls, the log gains what the tasks append and nothing else. -/
lemma gains_run (h : ∀ p ∈ b.tasks, p.Appends P) (schedule : List Nat) :
    b.log.Gains P (b.run clock schedule).log := by
  induction schedule generalizing b with
  | nil => exact .refl b.log
  | cons k schedule ih => exact (appends_step h k).2.trans (ih (appends_step h k).1)

end Board

/-- The provider that a command is about, if it may change one. -/
def Command.subject? : Command → Option (Owner × String)
  | .add owner id _ | .update owner id _ | .remove owner id | .migrate owner id _ =>
    some (owner, id)
  | .kind .. | .client .. => none

/-- The events that a service may draw up for a command, each time it attempts it. -/
inductive Service.Draws (s : Service) : Command → Owner → String → Event → Prop where
  | add {owner id config n c} : config.settings.encrypted s.cipher (s.nonce n) = .ok c →
      Draws s (.add owner id config) owner id (.added config.kind id c)
  | update {owner id config n cs} {p : Provider config.kind} :
      p.settings.changes s.cipher (s.nonce n) config.settings = .ok cs → cs ≠ [] →
      Draws s (.update owner id config) owner id
        (.changed config.kind id (cs.foldl .change .empty))
  | remove {owner id} : Draws s (.remove owner id) owner id (.removed id)
  | migrate {owner id m n c} : m.settings.encrypted s.cipher (s.nonce n) = .ok c →
      Draws s (.migrate owner id m) owner id (.migrated m.target id c)

namespace Service.Draws

variable {s : Service} {command : Command} {owner : Owner} {id : String} {ev : Event}

lemma subject (h : s.Draws command owner id ev) : command.subject? = some (owner, id) := by
  cases h <;> rfl

lemma names (h : s.Draws command owner id ev) : ev.id = id := by
  cases h <;> rfl

lemma isEarly (h : s.Draws command owner id ev) : ev.isEarly = false := by
  cases h with
  | migrate hc => exact Event.isEarly_migrated _ _ _
  | _ => rfl

end Service.Draws

namespace Invocation

/-- Something that the service has drawn up for its command, as it is to be stored. -/
def Drafts (i : Invocation) (d : Draft) : Prop :=
  ∃ owner id ev, i.service.Draws i.command owner id ev ∧ ev.draft (owner.stream id) = .ok d

open Program

lemma drafts_of_draws {s : Service} {command : Command} {owner : Owner} {id : String} {ev : Event}
    (h : s.Draws command owner id ev) {d : Draft} (hd : ev.draft (owner.stream id) = .ok d) :
    (Invocation.mk s command).Drafts d := ⟨owner, id, ev, h, hd⟩

/-- The stream that a model of a provider goes by is the provider's own. -/
lemma stream_of_wants {k : Kind} {owner : Owner} {id : String} {es : List LogEntry}
    (h : ∀ e ∈ es, ((View.ofKind k owner id).query (.ofOwner owner id)).wants e = true) :
    ((Base.ofOwner owner id).advance es).stream owner.scope id = owner.stream id := by
  exact Base.stream_advance fun e he =>
    View.wants_stream (List.ne_nil_of_mem Kind.removed_mem_readTags) (h e he)

lemma appends_discover (P : Draft → Prop) (instanceId id : String) :
    (Service.discover instanceId id).Appends P := by
  refine appends_load_bind fun m _ _ _ => ?_
  simp only
  split <;> trivial

/-- Commands append what their service draws up for them. -/
theorem appends (i : Invocation) : i.program.Appends i.Drafts := by
  obtain ⟨s, command⟩ := i
  cases command with
  | add owner id config =>
    refine Appends.map (appends_done_bind fun _ _ => appends_retry (fun n => ?_) _ _) _
    refine appends_latest_bind fun last => ?_
    split
    · trivial
    · refine appends_done_bind fun d hd => appends_service_push ?_
      obtain ⟨c, hc, hd⟩ := Config.addedDraft_eq_ok.mp hd
      exact drafts_of_draws (.add hc) hd
  | update owner id config =>
    refine Appends.map (appends_done_bind fun _ _ => appends_retry (fun n => ?_) _ _) _
    refine appends_load_bind fun m es hes hb => ?_
    have hs : m.base.stream owner.scope id = owner.stream id := hb ▸ stream_of_wants hes
    simp only
    split
    · refine appends_done_bind fun d? hd => ?_
      rw [hs] at hd
      cases d? with
      | none => trivial
      | some d =>
        refine appends_service_push ?_
        obtain ⟨cs, hcs, hne, hd⟩ := Provider.changedDraft?_eq_some.mp hd
        exact drafts_of_draws (.update hcs hne) hd
    · trivial
    · trivial
  | remove owner id =>
    refine Appends.map (appends_retry (fun n => ?_) _ _) _
    refine appends_load_bind fun m es hes hb => ?_
    simp only
    split
    · trivial
    · exact appends_done_bind fun d hd => appends_service_push
        (drafts_of_draws .remove (Error.ofFault_eq_ok.mp hd))
  | migrate owner id m =>
    refine Appends.map (appends_done_bind fun _ _ => appends_retry (fun n => ?_) _ _) _
    refine appends_load_bind fun loaded es hes hb => ?_
    simp only
    split
    · refine appends_done_bind fun d hd => appends_service_push ?_
      obtain ⟨c, hc, hd⟩ := Migration.draft_eq_ok.mp hd
      exact drafts_of_draws (.migrate hc) hd
    · trivial
    · trivial
  | kind instanceId id => exact ((appends_discover _ instanceId id).map _).map _
  | client instanceId id callback =>
    refine Appends.map (.bind (appends_discover _ instanceId id) fun found => ?_) _
    exact appends_load_bind fun _ _ _ _ => trivial

end Invocation

namespace Sample

/-- A service that keeps secrets as they are. -/
def plainService : Service := ⟨Cipher.plain, {}, "editor", .ofNat⟩

/-- A provider of Google with a client and a secret. -/
def withSecret (secret : String) : Settings String .google :=
  ⟨(Settings.initial "" .google).plain.set .clientId "client", fun _ => secret⟩

/-- A clock that stands still. -/
def stopped : Nat → Stamp := fun _ => ⟨⟨0, 0⟩, fun _ => ⟨0⟩⟩

end Sample
end Federation
