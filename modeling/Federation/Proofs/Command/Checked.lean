import Federation.Proofs.Command.Atomic

/-!
Why the attempts at commands are atomic. An attempt reads once and then pushes, if at all, under
expectations that can only hold where it would read the same again.
-/
namespace Federation

namespace Program

variable {clock : Nat → Stamp} {log now : Log}

/-- What is done with what was read: nothing more, or a push that does not go through unless the
same would be read still. -/
def Decided (next : Log → Program Details) (log : Log) : Prop :=
  (∃ r, next log = .done r) ∨
    ∃ (s : Service) (expectations : List Expectation) (d : Draft),
      next log = s.push expectations d ∧ ∀ now, log.Grows now →
        (∀ c ∈ expectations, now.tail c.stream.name = c.expected) → next now = next log

/-- Alone at a log, the program returns this and leaves that. -/
def Returns (clock : Nat → Stamp) (p : Program α) (log : Log) (a : α) (later : Log) : Prop :=
  p.run clock log = (.ok a, later)

lemma Decided.settles {p : Program Details} {next : Log → Program Details} (h : Decided next log)
    (hl : log.Lawful) (hp : ∀ log, log.Lawful → p.run clock log = (next log).run clock log) :
    Settled (Returns clock p) (next log) log log ∨
      (next log).Atomic clock (Returns clock p) log := by
  rcases h with ⟨r, hr⟩ | ⟨s, expectations, d, hd, again⟩
  · cases r with
    | ok a => exact .inl ⟨a, hr, by rw [Returns, hp log hl, hr]; rfl⟩
    | error e => exact .inr (hr ▸ atomic_fail e log)
  · right
    rw [hd]
    intro now g
    refine ⟨fun stored later hpush => ?_, fun e _ => atomic_fail (.log e) now⟩
    obtain ⟨-, he, -⟩ := Log.push_eq_ok_iff.mp hpush
    obtain ⟨e, rfl, -, -, -⟩ := Log.push_single hpush
    refine ⟨⟨e.sequence, e.createdAt, e.stream.resourceOwner⟩, rfl, ?_⟩
    rw [Returns, hp now g.lawful, again now g he, hd]
    simp only [Service.push, run, hpush]
    rfl

lemma atomic_latest {q : Query} {f : Nat → Program Details}
    (h : ∀ log, log.Lawful → Decided (fun log => f (q.latest log.events)) log) (log : Log) :
    (Service.latest q >>= f).Atomic clock (Returns clock (Service.latest q >>= f)) log := by
  intro now g
  rw [Log.latest_eq g.lawful.available]
  exact (h now g.lawful).settles g.lawful fun _ hl => run_latest_bind hl.available q f

/-- What a program has read first, it has read at some later time. -/
lemma atomic_load_bind {v : View} {base : Base} {f : Model v.State → Program α}
    {S : Log → α → Log → Prop}
    (hf : ∀ now m, log.Grows now → v.gather base (now.filter (v.query base)) = .ok m →
      Settled S (f m) now now ∨ (f m).Atomic clock S now) :
    (Service.load v base >>= f).Atomic clock S log := by
  rw [load_eq]
  intro now g
  change Settled S (.done (v.gather base (now.filter (v.query base))) >>= f) now now ∨
    Atomic clock S (.done (v.gather base (now.filter (v.query base))) >>= f) now
  cases hg : v.gather base (now.filter (v.query base)) with
  | error e => exact .inr (atomic_fail e now)
  | ok m => exact hf now m g hg

lemma run_gather_bind {v : View} {base : Base} {m : Model v.State}
    (hg : v.gather base (log.filter (v.query base)) = .ok m) (f : Model v.State → Program α) :
    (Service.load v base >>= f).run clock log = (f m).run clock log := by
  refine (run_bind clock _ f log).trans ?_
  rw [load_eq]
  simp only [run, hg]

lemma atomic_load {v : View} {base : Base} {f : Model v.State → Program Details}
    (h : ∀ log, log.Lawful →
      Decided (fun log => .done (v.gather base (log.filter (v.query base))) >>= f) log)
    (log : Log) :
    (Service.load v base >>= f).Atomic clock (Returns clock (Service.load v base >>= f)) log := by
  rw [load_eq]
  intro now g
  have hd := h now g.lawful
  exact hd.settles g.lawful fun _ _ => rfl

lemma settles_done {S : Log → α → Log → Prop} (r : Except Error α)
    (h : ∀ a, r = .ok a → S log a log) :
    Settled S (.done r) log log ∨ (done r).Atomic clock S log := by
  cases r with
  | ok a => exact .inl ⟨a, rfl, h a rfl⟩
  | error e => exact .inr (atomic_fail e log)

/-- A program that only reads, and reads once. -/
lemma atomic_read {v : View} {base : Base} {f : Model v.State → Program α}
    (hf : ∀ m, ∃ r, f m = .done r) (log : Log) :
    (Service.load v base >>= f).Atomic clock (Returns clock (Service.load v base >>= f)) log := by
  refine atomic_load_bind fun now m g hg => ?_
  obtain ⟨r, hr⟩ := hf m
  rw [hr]
  refine settles_done r fun a ha => ?_
  rw [Returns, run_gather_bind hg, hr, ha]
  rfl

/-- Who expects the end of the one stream that was read expects to read the same again. -/
lemma decided_of_load {v : View} {base : Base} {f : Model v.State → Program Details}
    {m : Model v.State} {name : StreamName} (hl : log.Lawful)
    (hq : ∀ e, (v.query base).wants e = true → e.streamName = name)
    (hm : v.load (v.fresh base) log = (m, .ok ()))
    (hf : (∃ r, f m = .done r) ∨ ∃ (s : Service) (a : EventStream) (n : Nat) (d : Draft),
      f m = s.push [⟨a, n⟩] d ∧ a.name = name ∧ n = log.tail name) :
    Decided (fun log => .done (v.gather base (log.filter (v.query base))) >>= f) log := by
  have hg : (.done (v.gather base (log.filter (v.query base))) >>= f) = f m := by
    rw [View.gather_filter hm]
    rfl
  rcases hf with ⟨r, hr⟩ | ⟨s, a, n, d, hp, rfl, hn⟩
  · exact .inl ⟨r, hg.trans hr⟩
  · refine .inr ⟨s, [⟨a, n⟩], d, hg.trans hp, fun now g he => ?_⟩
    have ht : now.tail a.name = log.tail a.name := (he _ List.mem_cons_self).trans hn
    simp only [Log.filter_eq g.lawful.available, Log.filter_eq hl.available,
      g.select_eq hl ht hq]

end Program

/-- A query for one stream wants events of that stream only. -/
lemma View.streamName_of_wants {owner : Owner} {id : String} {tags : List Tag} (hne : tags ≠ [])
    {e : LogEntry}
    (h : (⟨[streamItem (.ofOwner owner id) owner.scope tags]⟩ : Query).wants e = true) :
    e.streamName = (owner.stream id).name := by
  rw [LogEntry.streamName, wants_stream hne h]

namespace Service

open Program

variable {clock : Nat → Stamp} {owner : Owner} {id : String}

lemma addAttempt_atomic (s : Service) (config : Config) (n : Nat) (log : Log) :
    (s.addAttempt owner id config n).Atomic clock
      (Returns clock (s.addAttempt owner id config n)) log := by
  refine atomic_latest (fun log hl => ?_) log
  by_cases h0 : (takenQuery owner.instanceId id).latest log.events = 0
  · cases hd : config.addedDraft s.cipher (s.nonce n) (owner.stream id) with
    | error e => exact .inl ⟨_, by simp only [h0]; rfl⟩
    | ok d =>
      refine .inr ⟨s, [⟨owner.stream id, 0⟩, ⟨owner.sibling id, 0⟩], d, by simp only [h0]; rfl, ?_⟩
      intro now g he
      have hn : now.about owner.instanceId id = [] :=
         g.lawful.about_eq_nil (he _ List.mem_cons_self)
          (he _ (List.mem_cons_of_mem _ List.mem_cons_self))
      simp only [h0, (g.lawful.latest_taken owner.instanceId id).mpr hn]
  · exact .inl ⟨_, by simp only [Nat.pos_of_ne_zero h0, if_true]; rfl⟩

lemma updateAttempt_atomic (s : Service) (config : Config) (n : Nat) (log : Log) :
    (s.updateAttempt owner id config n).Atomic clock
      (Returns clock (s.updateAttempt owner id config n)) log := by
  refine atomic_load (fun log hl => ?_) log
  obtain ⟨o, life, hi, t⟩ := hl.told owner.instanceId id
  obtain ⟨b, p, hload, -, hst, hb⟩ := hl.load_provider t hi.symm config.kind
  have hne : config.kind.readTags ≠ [] := List.ne_nil_of_mem Kind.removed_mem_readTags
  refine decided_of_load hl (fun e => View.streamName_of_wants hne) hload ?_
  cases hp : p.status with
  | active =>
    simp only [hp]
    cases hd : p.changedDraft? s.cipher (s.nonce n) (b.stream owner.scope id) config with
    | error e => exact .inl ⟨_, rfl⟩
    | ok d? =>
      cases d? with
      | none => exact .inl ⟨_, rfl⟩
      | some d => exact .inr ⟨s, _, _, d, rfl, by rw [hst], hb hp⟩
  | migrated => exact .inl ⟨_, by simp only [hp]; rfl⟩
  | unspecified => exact .inl ⟨_, by simp only [hp]; rfl⟩
  | removed => exact .inl ⟨_, by simp only [hp]; rfl⟩

lemma removeAttempt_atomic (s : Service) (log : Log) :
    (s.removeAttempt owner id).Atomic clock (Returns clock (s.removeAttempt owner id)) log := by
  refine atomic_load (fun log hl => ?_) log
  obtain ⟨o, life, hi, t⟩ := hl.told owner.instanceId id
  obtain ⟨b, hload, hb⟩ := hl.load_removal t hi.symm
  have hne : Removal.readTags ≠ [] := List.ne_nil_of_mem (Removal.mem_readTags .removed)
  refine decided_of_load hl (fun e => View.streamName_of_wants hne) hload ?_
  by_cases hp : (life.seenBy o owner).presence = .active
  · have ho : owner = o := by
      by_contra ho
      simp [Life.seenBy, ho, Life.presence] at hp
    simp only [hp]
    exact .inr ⟨s, _, _, _, rfl, rfl, hb ho⟩
  · exact .inl ⟨_, by simp only [ne_eq, hp, not_false_eq_true, if_true]; rfl⟩

lemma migrateAttempt_atomic (s : Service) (m : Migration) (n : Nat) (log : Log) :
    (s.migrateAttempt owner id m n).Atomic clock
      (Returns clock (s.migrateAttempt owner id m n)) log := by
  refine atomic_load (fun log hl => ?_) log
  obtain ⟨o, life, hi, t⟩ := hl.told owner.instanceId id
  obtain ⟨b, p, hload, -, hst, hb⟩ := hl.load_provider t hi.symm .oidc
  have hne : Kind.oidc.readTags ≠ [] := List.ne_nil_of_mem Kind.removed_mem_readTags
  refine decided_of_load hl (fun e => View.streamName_of_wants hne) hload ?_
  cases hp : p.status with
  | active =>
    simp only [hp]
    cases hd : m.draft s.cipher (s.nonce n) (owner.stream id) with
    | error e => exact .inl ⟨_, rfl⟩
    | ok d => exact .inr ⟨s, _, _, d, rfl, rfl, hb hp⟩
  | migrated => exact .inl ⟨_, by simp only [hp]; rfl⟩
  | unspecified => exact .inl ⟨_, by simp only [hp]; rfl⟩
  | removed => exact .inl ⟨_, by simp only [hp]; rfl⟩

lemma discover_atomic (instanceId : String) (log : Log) :
    (discover instanceId id).Atomic clock (Returns clock (discover instanceId id)) log := by
  refine atomic_read (fun m => ?_) log
  simp only
  split
  · exact ⟨_, rfl⟩
  · exact ⟨_, rfl⟩

lemma kind_atomic (instanceId : String) (log : Log) :
    (kind instanceId id).Atomic clock (Returns clock (kind instanceId id)) log := by
  refine Atomic.map (f := Prod.fst) (Atomic.imp ?_ (discover_atomic instanceId log))
  intro log a later h
  refine (run_bind clock _ _ log).trans ?_
  rw [show (discover instanceId id).run clock log = (.ok a, later) from h]
  rfl

/-- Only an active provider has a client. -/
lemma active_of_client {k : Kind} {p : Provider k} {cipher : Cipher} {callback : String}
    {c : Client} (h : p.client cipher id callback = .ok c) : p.status = .active := by
  by_contra hp
  simp [Provider.client, hp, Bind.bind, Except.bind, throw, throwThe, MonadExceptOf.throw] at h

/-- The second of a client's two readings decides alone. Where it finds an active provider of the
kind and the owner that the first one found, the first one would find them there too. -/
lemma client_atomic (s : Service) (instanceId callback : String) (log : Log) :
    (s.client instanceId id callback).Atomic clock
      (Returns clock (s.client instanceId id callback)) log := by
  generalize hS : Returns clock (s.client instanceId id callback) = S
  rw [client, discover, Program.bind_assoc]
  refine atomic_load_bind fun now m g hg => .inr ?_
  obtain ⟨o, life, rfl, t⟩ := g.lawful.told instanceId id
  obtain ⟨b, hl⟩ := g.lawful.load_discovery t
  rw [View.gather_filter hl] at hg
  cases hg
  cases life with
  | vacant => exact atomic_fail _ now
  | gone => exact atomic_fail _ now
  | live k _ _ =>
    refine atomic_load_bind fun later m f hm => ?_
    obtain ⟨o', life, hi, t'⟩ := f.lawful.told o.instanceId id
    obtain ⟨b', p, hload, hs, -, -⟩ := f.lawful.load_provider t' hi.symm k
    rw [View.gather_filter hload] at hm
    cases hm
    refine settles_done _ fun c hc => ?_
    obtain ⟨m, cs, hlife, rfl⟩ := hs.of_active (active_of_client hc)
    have ho : o = o' := by
      by_contra ho
      simp [Life.seenBy, ho] at hlife
    subst ho
    rw [Life.seenBy_self] at hlife
    subst hlife
    rw [← hS, Returns, run_client s f.lawful t' callback]
    exact congrArg (·, later) hc

end Service
end Federation
