import Federation.Proofs.Command.Invocation

/-!
How commands that change something try again. An attempt makes one call to read and, if it is to
change anything, one call to push, under expectations that hold where it read; and it is only a push
that ever reports a conflict.
-/
namespace Federation

lemma Error.Local.of_map {r : Except Error α} {f : α → β} (h : Local (r.map f)) : Local r := by
  rintro e rfl
  exact h e rfl

namespace Program

variable {clock : Nat → Stamp} {log : Log}

lemma step_map (f : α → β) (p : Program α) :
    (f <$> p).step clock log = (f <$> (p.step clock log).1, (p.step clock log).2) := by
  cases p with
  | done r => cases r <;> rfl
  | latest q next => rfl
  | filter q next => rfl
  | push p next =>
    change (push p fun r => f <$> next r).step clock log = _
    simp only [step]
    split <;> rfl

/-- The program reads next. -/
def Reads : Program α → Prop
  | .latest .. | .filter .. => True
  | _ => False

lemma Reads.ne_done {p : Program α} (h : p.Reads) (r : Except Error α) : p ≠ .done r := by
  rintro rfl
  exact h

lemma Reads.log_step {p : Program α} (h : p.Reads) : (p.step clock log).2 = log := by
  cases p with
  | latest q next => rfl
  | filter q next => rfl
  | _ => cases h

/-- What is left of a command whose attempt goes on in some way, where `n` more may follow. -/
def resume (attempt : Nat → Program α) (n i : Nat) (p : Program α) : Program α :=
  match n with
  | 0 => p
  | n + 1 => p.orElse fun e => if e.isConflict then retry attempt n (i + 1) else fail e

lemma retry_eq (attempt : Nat → Program α) (n i : Nat) :
    retry attempt n i = resume attempt n i (attempt i) := by
  cases n <;> rfl

lemma resume_ok (attempt : Nat → Program α) (n i : Nat) (a : α) :
    resume attempt n i (.done (.ok a)) = .done (.ok a) := by
  cases n <;> rfl

lemma resume_local (attempt : Nat → Program α) (n i : Nat) {r : Except Error α}
    (h : Error.Local r) : resume attempt n i (.done r) = .done r := by
  cases r with
  | ok a => exact resume_ok attempt n i a
  | error e =>
    cases n with
    | zero => rfl
    | succ n =>
      simp only [resume, orElse, h e rfl, Bool.false_eq_true, if_false]
      rfl

lemma step_resume (attempt : Nat → Program α) (n i : Nat) {p : Program α}
    (h : ∀ r, p ≠ .done r) : (resume attempt n i p).step clock log =
      (resume attempt n i (p.step clock log).1, (p.step clock log).2) := by
  cases n with
  | zero => rfl
  | succ n =>
    cases p with
    | done r => exact absurd rfl (h r)
    | latest q next => rfl
    | filter q next => rfl
    | push p next =>
      simp only [resume, orElse, step]
      split <;> rfl

/-- What follows an attempt waits until the attempt has pushed. -/
lemma resume_push (f : α → β) (attempt : Nat → Program α) (n i : Nat) (p : Batch)
    (next : Except LogError (List LogEntry) → Program α) :
    ∃ next', f <$> resume attempt n i (.push p next) = .push p next' := by
  cases n <;> exact ⟨_, rfl⟩

lemma Reads.resume {p : Program α} (h : p.Reads) (f : α → β) (attempt : Nat → Program α)
    (n i : Nat) : (f <$> resume attempt n i p).Reads := by
  cases p with
  | latest q next => cases n <;> trivial
  | filter q next => cases n <;> trivial
  | _ => exact h.elim

/-- Where another writer came first there is another attempt, or none is left. -/
lemma resume_conflict (attempt : Nat → Program α) (n i : Nat) {e : Error}
    (h : e.isConflict = true) : resume attempt (n + 1) i (fail e) = retry attempt n (i + 1) := by
  simp only [resume, fail, orElse, h, if_true]

/-- A program that reads only, and that never fails because of another writer. -/
def Calm (R : Except Error α → Prop) : Program α → Prop
  | .done r => R r
  | .latest q next => ∀ log : Log, Calm R (next (log.latest q))
  | .filter q next => ∀ log : Log, Calm R (next (log.filter q))
  | .push .. => False

variable {R : Except Error α → Prop}

lemma Calm.step {p : Program α} (h : p.Calm R) : (p.step clock log).1.Calm R := by
  cases p with
  | done r => exact h
  | latest q next => exact h log
  | filter q next => exact h log
  | push p next => exact h.elim

lemma Calm.imp {R' : Except Error α → Prop} (hR : ∀ r, R r → R' r) {p : Program α}
    (h : p.Calm R) : p.Calm R' := by
  induction p with
  | done r => exact hR r h
  | latest q next ih => exact fun log => ih _ (h log)
  | filter q next ih => exact fun log => ih _ (h log)
  | push p next ih => exact h.elim

lemma Calm.map {f : α → β} {R : Except Error β → Prop} {p : Program α}
    (h : p.Calm fun r => R (r.map f)) : (f <$> p).Calm R := by
  induction p with
  | done r => cases r <;> exact h
  | latest q next ih => exact fun log => ih _ (h log)
  | filter q next ih => exact fun log => ih _ (h log)
  | push p next ih => exact h.elim

/-- Checked first, a program is itself, or nothing is done at all. -/
lemma done_bind_cases {r : Except Error Unit} {p : Program α} {f : α → β}
    {R : Except Error β → Prop} (h : ∀ e, r = .error e → R (.error e)) :
    (f <$> p = f <$> (.done r >>= fun _ => p)) ∨ (f <$> (.done r >>= fun _ => p)).Calm R := by
  cases r with
  | ok u => exact .inl rfl
  | error e => exact .inr (h e rfl)

end Program

/-- What cannot be read is not what another writer has changed. -/
lemma View.local_gather (v : View) (base : Base) (log : Log) :
    Error.Local (v.gather base (log.filter (v.query base))) := by
  cases ha : log.available with
  | false =>
    simp only [Log.filter, Log.reached, ha, Bool.false_eq_true, if_false]
    exact Error.local_error rfl
  | true =>
    rw [Log.filter_eq ha]
    simp only [gather, read, Model.append, Model.reduce]
    rcases v.fold.run _ _ with ⟨s, _ | fault⟩
    · exact Error.local_ok _
    · exact Error.local_error rfl

namespace Program

variable (clock : Nat → Stamp) {log : Log} {v : View} {base : Base}

lemma calm_load_bind {f : Model v.State → Program α} (hf : ∀ m, (f m).Calm Error.Local) :
    (Service.load v base >>= f).Calm Error.Local := by
  rw [load_eq]
  intro log
  change Calm Error.Local (.done (v.gather base (log.filter (v.query base))) >>= f)
  cases hg : v.gather base (log.filter (v.query base)) with
  | error e => exact Error.local_error (v.local_gather base log e hg)
  | ok m => exact hf m

/-- A program that loads a view reads, and goes on with what it has read. -/
lemma step_load_bind {m : Model v.State} (h : v.load (v.fresh base) log = (m, .ok ()))
    (f : Model v.State → Program α) :
    (Service.load v base >>= f).Reads ∧ ((Service.load v base >>= f).step clock log).1 = f m := by
  rw [load_eq]
  refine ⟨trivial, ?_⟩
  change (.done (v.gather base (log.filter (v.query base))) >>= f : Program α) = f m
  rw [View.gather_filter h]
  rfl

lemma step_latest_bind (h : log.available = true) (q : Query) (f : Nat → Program α) :
    (Service.latest q >>= f).Reads ∧
      ((Service.latest q >>= f).step clock log).1 = f (q.latest log.events) := by
  refine ⟨trivial, ?_⟩
  change (.done ((log.latest q).mapError .log) >>= f : Program α) = _
  rw [Log.latest_eq h]
  rfl

end Program

/-- A configuration is refused, or the event that it begins with cannot be drawn up. -/
def Config.Fails (config : Config) (s : Service) (stream : EventStream) (e : Error) : Prop :=
  config.validate = .error e ∨ ∃ n, config.addedDraft s.cipher (s.nonce n) stream = .error e

namespace Command

/-- What one attempt at a command does that changes something. -/
def attempt? (s : Service) : Command → Option (Nat → Program Details)
  | .add owner id config => some (s.addAttempt owner id config)
  | .update owner id config => some (s.updateAttempt owner id config)
  | .remove owner id => some fun _ => s.removeAttempt owner id
  | .migrate owner id m => some (s.migrateAttempt owner id m)
  | .kind .. | .client .. => none

/-- The instance and the id that a command is about. -/
def subject : Command → String × String
  | .add owner id _ | .update owner id _ | .remove owner id | .migrate owner id _ =>
    (owner.instanceId, id)
  | .kind instanceId id | .client instanceId id _ => (instanceId, id)

/-- The stream of a scope that bears that id. -/
def stream (c : Command) (scope : Scope) : StreamName :=
  ⟨c.subject.1, scope.streamType, c.subject.2⟩

/-- What a command adds goes under an id that is free. -/
def Free (c : Command) (log : Log) : Prop :=
  match c with
  | .add owner id _ => log.about owner.instanceId id = []
  | _ => True

end Command

namespace Invocation

variable {clock : Nat → Stamp} {log : Log}

/-- What is left to do of a command that changes something when a number of its attempts have been
made in vain. -/
def left? (i : Invocation) (n : Nat) : Option (Program Answer) :=
  (i.command.attempt? i.service).map fun attempt =>
    Answer.details <$> Program.retry attempt (i.service.tuning.retries.toNat - n) n

/-- Does a result of a command have nothing to do with other writers? A provider that is added is
there afterwards or was there before, unless its configuration is at fault. -/
def Answers (i : Invocation) (r : Except Error Answer) : Prop :=
  match i.command with
  | .add owner id config => (∃ d, r = .ok (.details d)) ∨ r = .error (.refused (.taken id)) ∨
      ∃ e, r = .error e ∧ config.Fails i.service (owner.stream id) e
  | _ => Error.Local r

/-- Streams of the id end where expected. -/
def Met (i : Invocation) (log : Log) (expectations : List Expectation) : Prop :=
  ∀ c ∈ expectations, log.tail c.stream.name = c.expected ∧
    ∃ scope, c.stream.name = i.command.stream scope

/-- An attempt has its result, or is about to push and expects of the log what holds of it. -/
def Poised (i : Invocation) (log : Log) (p : Program Details) : Prop :=
  (∃ r, p = .done r ∧ i.Answers (r.map .details)) ∨ i.command.Free log ∧
    ∃ (s : Service) (expectations : List Expectation) (d : Draft), p = s.push expectations d ∧
      i.Met log expectations

lemma answers_details (i : Invocation) (d : Details) : i.Answers (.ok (.details d)) := by
  unfold Answers
  split
  · exact .inl ⟨d, rfl⟩
  · exact Error.local_ok _

lemma Answers.isLocal {i : Invocation} {r : Except Error Answer} (h : i.Answers r) :
    Error.Local r := by
  obtain ⟨s, command⟩ := i
  cases command with
  | add owner id config =>
    rcases h with ⟨d, rfl⟩ | rfl | ⟨e, rfl, h | ⟨n, h⟩⟩
    · exact Error.local_ok _
    · exact Error.local_error rfl
    · exact Error.local_error (config.local_validate e h)
    · exact Error.local_error (Config.local_addedDraft e h)
  | _ => exact h

lemma Answers.of_add {i : Invocation} {r : Except Error Answer} (h : i.Answers r) {owner : Owner}
    {id : String} {config : Config} (hi : i.command = .add owner id config) :
    (∃ d, r = .ok (.details d)) ∨ r = .error (.refused (.taken id)) ∨
      ∃ e, r = .error e ∧ e.isConflict = false ∧ config.Fails i.service (owner.stream id) e := by
  have hl := h.isLocal
  rw [Answers, hi] at h
  rcases h with h | h | ⟨e, he, hf⟩
  · exact .inl h
  · exact .inr (.inl h)
  · exact .inr (.inr ⟨e, he, hl e he, hf⟩)

end Invocation

namespace Service

variable {clock : Nat → Stamp} {log : Log} {owner : Owner} {id : String}

open Program Invocation

/-- An attempt that reads the stream of an owner and pushes, if at all, where that stream ends. -/
lemma poised_of_load {i : Invocation} (hi : ∀ r, Error.Local r → i.Answers r)
    (hfree : i.command.Free log) (hid : i.command.subject = (owner.instanceId, id)) {v : View}
    {base : Base} {m : Model v.State} (h : v.load (v.fresh base) log = (m, .ok ()))
    {f : Model v.State → Program Details}
    (hf : (∃ r, f m = .done r ∧ Error.Local r) ∨ ∃ (s : Service) (n : Nat) (d : Draft),
      f m = s.push [⟨owner.stream id, n⟩] d ∧ n = log.tail (owner.stream id).name) :
    (load v base >>= f).Reads ∧ i.Poised log ((load v base >>= f).step clock log).1 := by
  refine (step_load_bind clock h f).imp_right fun hs => ?_
  rw [hs]
  rcases hf with ⟨r, hr, hloc⟩ | ⟨s, n, d, hp, hn⟩
  · exact .inl ⟨r, hr, hi _ (hloc.map _)⟩
  · refine .inr ⟨hfree, s, [⟨owner.stream id, n⟩], d, hp, fun c hc => ?_⟩
    rw [List.mem_singleton.mp hc]
    exact ⟨hn.symm, owner.scope, by rw [Command.stream, hid]; rfl⟩

lemma addAttempt_poised (s : Service) (hl : log.Lawful) (config : Config) (n : Nat) :
    (s.addAttempt owner id config n).Reads ∧ Poised ⟨s, .add owner id config⟩ log
      ((s.addAttempt owner id config n).step clock log).1 := by
  unfold addAttempt
  refine (step_latest_bind clock hl.available _ _).imp_right fun hs => ?_
  rw [hs]
  by_cases h0 : (takenQuery owner.instanceId id).latest log.events = 0
  · cases hd : config.addedDraft s.cipher (s.nonce n) (owner.stream id) with
    | error e =>
      refine .inl ⟨.error e, by simp only [h0]; rfl, .inr (.inr ⟨e, rfl, .inr ⟨n, hd⟩⟩)⟩
    | ok d =>
      have hn := (hl.latest_taken owner.instanceId id).mp h0
      refine .inr ⟨hn, s, [⟨owner.stream id, 0⟩, ⟨owner.sibling id, 0⟩], d,
        by simp only [h0]; rfl, ?_⟩
      have htail : ∀ scope : Scope, log.tail ⟨owner.instanceId, scope.streamType, id⟩ = 0 := by
        obtain ⟨o, life, hi, t⟩ := hl.told owner.instanceId id
        intro scope
        rw [← hi, t.tail_eq hl.sound, hi, hn]
        split <;> rfl
      intro c hc
      rcases List.mem_cons.mp hc with rfl | hc
      · exact ⟨htail owner.scope, owner.scope, rfl⟩
      · rw [List.mem_singleton.mp hc]
        exact ⟨htail owner.scope.other, owner.scope.other, rfl⟩
  · refine .inl ⟨_, by simp only [Nat.pos_of_ne_zero h0, if_true]; rfl, .inr (.inl rfl)⟩

lemma updateAttempt_poised (s : Service) (hl : log.Lawful) (config : Config) (n : Nat) :
    (s.updateAttempt owner id config n).Reads ∧ Poised ⟨s, .update owner id config⟩ log
      ((s.updateAttempt owner id config n).step clock log).1 := by
  obtain ⟨o, life, hi, t⟩ := hl.told owner.instanceId id
  obtain ⟨b, p, hload, -, hst, hb⟩ := hl.load_provider t hi.symm config.kind
  refine poised_of_load (i := ⟨s, .update owner id config⟩) (fun _ h => h) trivial rfl hload ?_
  cases hp : p.status with
  | active =>
    simp only [hp, hst]
    have hloc : Error.Local (p.changedDraft? s.cipher (s.nonce n) (owner.stream id) config) :=
      p.local_changedDraft?
    cases hd : p.changedDraft? s.cipher (s.nonce n) (owner.stream id) config with
    | error e => exact .inl ⟨.error e, rfl, Error.local_error (hloc e hd)⟩
    | ok d? =>
      cases d? with
      | none => exact .inl ⟨_, rfl, Error.local_ok _⟩
      | some d => exact .inr ⟨s, _, d, rfl, hb hp⟩
  | migrated => exact .inl ⟨_, by simp only [hp]; rfl, Error.local_error rfl⟩
  | unspecified => exact .inl ⟨_, by simp only [hp]; rfl, Error.local_error rfl⟩
  | removed => exact .inl ⟨_, by simp only [hp]; rfl, Error.local_error rfl⟩

lemma removeAttempt_poised (s : Service) (hl : log.Lawful) :
    (s.removeAttempt owner id).Reads ∧ Poised ⟨s, .remove owner id⟩ log
      ((s.removeAttempt owner id).step clock log).1 := by
  obtain ⟨o, life, hi, t⟩ := hl.told owner.instanceId id
  obtain ⟨b, hload, hb⟩ := hl.load_removal t hi.symm
  refine poised_of_load (i := ⟨s, .remove owner id⟩) (fun _ h => h) trivial rfl hload ?_
  by_cases hp : (life.seenBy o owner).presence = .active
  · have ho : owner = o := by
      by_contra ho
      simp [Life.seenBy, ho, Life.presence] at hp
    simp only [hp]
    exact .inr ⟨s, _, _, rfl, hb ho⟩
  · exact .inl ⟨_, by simp only [ne_eq, hp, not_false_eq_true, if_true]; rfl,
      Error.local_error rfl⟩

lemma migrateAttempt_poised (s : Service) (hl : log.Lawful) (m : Migration) (n : Nat) :
    (s.migrateAttempt owner id m n).Reads ∧ Poised ⟨s, .migrate owner id m⟩ log
      ((s.migrateAttempt owner id m n).step clock log).1 := by
  obtain ⟨o, life, hi, t⟩ := hl.told owner.instanceId id
  obtain ⟨b, p, hload, -, hst, hb⟩ := hl.load_provider t hi.symm .oidc
  refine poised_of_load (i := ⟨s, .migrate owner id m⟩) (fun _ h => h) trivial rfl hload ?_
  cases hp : p.status with
  | active =>
    simp only [hp]
    cases hd : m.draft s.cipher (s.nonce n) (owner.stream id) with
    | error e => exact .inl ⟨.error e, rfl, Error.local_error (Migration.local_draft e hd)⟩
    | ok d => exact .inr ⟨s, _, d, rfl, hb hp⟩
  | migrated => exact .inl ⟨_, by simp only [hp]; rfl, Error.local_error rfl⟩
  | unspecified => exact .inl ⟨_, by simp only [hp]; rfl, Error.local_error rfl⟩
  | removed => exact .inl ⟨_, by simp only [hp]; rfl, Error.local_error rfl⟩

/-- What is asked of the id is asked once, and the log decides. -/
lemma discover_calm (instanceId : String) : (discover instanceId id).Calm Error.Local := by
  refine calm_load_bind fun m => ?_
  dsimp only
  split
  · exact Error.local_ok _
  · exact Error.local_error rfl

lemma local_client {k : Kind} (p : Provider k) (cipher : Cipher) (callback : String) :
    Error.Local (p.client cipher id callback) := by
  unfold Provider.client
  split
  · exact Error.local_error rfl
  · exact (Error.local_ofCipher _).bind fun _ => Error.local_ok _

lemma client_calm (s : Service) (instanceId callback : String) :
    (s.client instanceId id callback).Calm Error.Local := by
  rw [client, discover, Program.bind_assoc]
  refine calm_load_bind fun m => ?_
  dsimp only
  split
  · exact calm_load_bind fun m =>
      local_client _ s.cipher callback
  · exact Error.local_error rfl

end Service

namespace Invocation

open Program

variable {log : Log}

lemma poised (clock : Nat → Stamp) (i : Invocation) (hl : log.Lawful)
    {attempt : Nat → Program Details} (h : i.command.attempt? i.service = some attempt) (n : Nat) :
    (attempt n).Reads ∧ i.Poised log ((attempt n).step clock log).1 := by
  obtain ⟨s, command⟩ := i
  cases command <;> cases h
  case add owner id config => exact s.addAttempt_poised hl config n
  case update owner id config => exact s.updateAttempt_poised hl config n
  case remove owner id => exact s.removeAttempt_poised hl
  case migrate owner id m => exact s.migrateAttempt_poised hl m n

/-- Every attempt begins with a call to read. -/
lemma reads_of_left {i : Invocation} {n : Nat} {p : Program Answer} (h : i.left? n = some p) :
    p.Reads := by
  obtain ⟨attempt, ha, rfl⟩ := Option.map_eq_some_iff.mp h
  rw [retry_eq]
  exact (i.poised (fun _ => ⟨⟨0, 0⟩, fun _ => ⟨0⟩⟩) Log.lawful_empty ha n).1.resume ..

/-- A command makes attempts, or it is refused before the first one, or all it does is read. -/
lemma program_cases (i : Invocation) : i.left? 0 = some i.program ∨ i.program.Calm i.Answers := by
  obtain ⟨s, command⟩ := i
  cases command with
  | add owner id config =>
    exact (done_bind_cases fun e h => .inr (.inr ⟨e, rfl, .inl h⟩)).imp_left (congrArg some)
  | update owner id config =>
    exact (done_bind_cases fun e h => Error.local_error (config.local_validate e h)).imp_left
      (congrArg some)
  | remove owner id => exact .inl rfl
  | migrate owner id m =>
    exact (done_bind_cases fun e h => Error.local_error
      (Config.local_validate ⟨m.target.kind, m.settings⟩ e h)).imp_left (congrArg some)
  | kind instanceId id =>
    exact .inr (Calm.map (f := Answer.kind) (Calm.map (f := Prod.fst)
      ((Service.discover_calm instanceId).imp fun _ h => (h.map _).map _)))
  | client instanceId id callback =>
    exact .inr (Calm.map ((s.client_calm instanceId callback).imp fun _ h => h.map _))

end Invocation
end Federation
