import Federation.Proofs.Command.Trial

/-!
What a command has to show for its result. One that fails has written nothing, however many attempts
it made and whatever cut them short; one that succeeds has written the one event whose place it
returns, or is an update that found nothing to change.
-/
namespace Federation

namespace Details

/-- Where a stream stands that ends with an event. -/
def ofEntry (e : LogEntry) : Details := ⟨e.sequence, e.createdAt, e.stream.resourceOwner⟩

end Details

namespace View

variable {v : View} {base : Base} {log : Log} {m : Model v.State}

/-- A view can be read where the log answers and every event it asks for can be. -/
lemma load_eq_ok : v.load (v.fresh base) log = (m, .ok ()) ↔
    log.available = true ∧ ∃ s,
      v.fold.run v.initial ((v.query base).select log.events) = (s, none) ∧
      m = ⟨base.advance ((v.query base).select log.events), s, []⟩ := by
  cases ha : log.available with
  | false =>
    simp [load_def, asks, fresh, Log.filter, Log.reached, ha, bind, Except.bind]
  | true =>
    rw [load_fresh ha]
    simp only [read, Model.append, fresh, List.nil_append, Model.reduce, true_and]
    cases v.fold.run v.initial ((v.query base).select log.events) with
    | mk s fault => cases fault <;> simp [eq_comm]

lemma gather_eq_ok : v.gather base (log.filter (v.query base)) = .ok m ↔
    v.load (v.fresh base) log = (m, .ok ()) := by
  refine ⟨fun h => ?_, gather_filter⟩
  simp only [load_def, asks, Bool.false_eq_true, if_false, fresh]
  cases hf : log.filter (v.query base) with
  | error e => simp [gather, hf] at h
  | ok events =>
    simp only [gather, hf, fresh] at h ⊢
    generalize v.read ⟨base, v.initial, []⟩ events = r at h
    obtain ⟨n, e | u⟩ := r
    · cases h
    · cases h; rfl

variable {owner : Owner} {id : String}

/-- Who has found anything in the stream of an id has read up to some last event of it. -/
lemma load_last {v : View} {m : Model v.State} {tags : List Tag} (hne : tags ≠ [])
    (hq : v.query (.ofOwner owner id) = ⟨[streamItem (.ofOwner owner id) owner.scope tags]⟩)
    (h : v.load (v.fresh (.ofOwner owner id)) log = (m, .ok ())) (hs : m.state ≠ v.initial) :
    ∃ last, ((v.query (.ofOwner owner id)).select log.events).getLast? = some last ∧
      last.stream = owner.stream id ∧ m.base =
        ⟨id, owner.resourceOwner, owner.instanceId, last.sequence, some last.createdAt⟩ := by
  obtain ⟨-, s, hrun, rfl⟩ := load_eq_ok.mp h
  have hst : ∀ e ∈ (v.query (.ofOwner owner id)).select log.events,
      e.stream = owner.stream id := by
    intro e he
    have hw := (List.mem_filter.mp he).2
    rw [hq] at hw
    exact wants_stream hne hw
  cases hl : ((v.query (.ofOwner owner id)).select log.events).getLast? with
  | none =>
    rw [List.getLast?_eq_none_iff.mp hl] at hrun
    cases hrun
    exact absurd rfl hs
  | some last =>
    exact ⟨last, rfl, hst last (List.mem_of_getLast? hl), Base.advance_ofOwner hst hl⟩

/-- An active provider has been read up to some event of its stream. -/
lemma load_active {k : Kind} {m : Model (View.ofKind k owner id).State}
    (h : (View.ofKind k owner id).load ((View.ofKind k owner id).fresh (.ofOwner owner id)) log =
      (m, .ok ())) (ha : (m.state : Provider k).status = .active) :
    ∃ last, (((View.ofKind k owner id).query (.ofOwner owner id)).select log.events).getLast? =
        some last ∧ last.stream = owner.stream id ∧ m.base =
        ⟨id, owner.resourceOwner, owner.instanceId, last.sequence, some last.createdAt⟩ := by
  refine load_last (List.ne_nil_of_mem Kind.removed_mem_readTags) rfl h fun hs => ?_
  rw [hs] at ha
  cases ha

end View

lemma Event.draft_stream {ev : Event} {stream : EventStream} {d : Draft}
    (h : ev.draft stream = .ok d) : d.stream = stream := by
  obtain ⟨j, -, rfl⟩ := map_eq_ok.mp h
  rfl

/-- A push has stored one event, where every stream was as expected. -/
structure Stores (expectations : List Expectation) (draft : Draft) (now : Log) (d : Details)
    (later : Log) : Prop where
  met : ∀ c ∈ expectations, now.tail c.stream.name = c.expected
  stored : ∃ e, e.draft = draft ∧ later.events = now.events ++ [e] ∧ d = .ofEntry e

namespace Service

open Program

variable {clock : Nat → Stamp} {log : Log} {owner : Owner} {id : String}

lemma push_clean (s : Service) (expectations : List Expectation) (draft : Draft) (log : Log) :
    (s.push expectations draft).Clean clock
      (fun now d later => log.Extends now ∧ Stores expectations draft now d later) log := by
  intro now g
  refine ⟨fun stored later hp => ?_, fun e => clean_fail (.log e) now⟩
  obtain ⟨-, hmet, -⟩ := Log.push_eq_ok_iff.mp hp
  obtain ⟨e, rfl, hd, -, he⟩ := Log.push_single hp
  exact ⟨.ofEntry e, rfl, g, hmet, e, hd, he, rfl⟩

/-- A provider of a kind was read as active, and an event stored while its stream still ended where
it had been read to. -/
def Follows (k : Kind) (owner : Owner) (id : String) (now : Log) (d : Details) (later : Log) :
    Prop :=
  ∃ seen m draft, seen.Extends now ∧
    (View.ofKind k owner id).load ((View.ofKind k owner id).fresh (.ofOwner owner id)) seen =
      (m, .ok ()) ∧ (m.state : Provider k).status = .active ∧ draft.stream = owner.stream id ∧
    Stores [⟨owner.stream id, m.base.processed⟩] draft now d later

/-- A provider is as desired already, and this is the last event that was read of it. -/
def Idle (s : Service) (owner : Owner) (id : String) (config : Config) (log : Log)
    (last : LogEntry) : Prop :=
  ∃ m n, (View.ofKind config.kind owner id).load
      ((View.ofKind config.kind owner id).fresh (.ofOwner owner id)) log = (m, .ok ()) ∧
    (m.state : Provider config.kind).status = .active ∧
    (m.state : Provider config.kind).settings.changes s.cipher (s.nonce n) config.settings =
      .ok [] ∧
    (((View.ofKind config.kind owner id).query (.ofOwner owner id)).select log.events).getLast? =
      some last

lemma addAttempt_clean (s : Service) (config : Config) (n : Nat) (log : Log) :
    (s.addAttempt owner id config n).Clean clock (fun now d later => ∃ draft,
      Stores [⟨owner.stream id, 0⟩, ⟨owner.sibling id, 0⟩] draft now d later) log := by
  refine clean_latest_bind fun seen last _ => ?_
  by_cases h0 : 0 < last
  · simp only [h0, if_true]
    exact clean_fail _ seen
  · simp only [h0, if_false]
    exact clean_done_bind fun draft _ =>
      (s.push_clean _ draft seen).imp fun now d later h => ⟨draft, h.2⟩

lemma updateAttempt_clean (s : Service) (config : Config) (n : Nat) (log : Log) :
    (s.updateAttempt owner id config n).Clean clock (fun now d later =>
      Follows config.kind owner id now d later ∨
        ∃ last, s.Idle owner id config now last ∧ d = .ofEntry last ∧ later = now) log := by
  refine clean_load_bind fun seen m g hg => ?_
  have hload := View.gather_eq_ok.mp hg
  generalize hp : (m.state : Provider config.kind) = p
  cases hst : p.status with
  | active =>
    subst hp
    obtain ⟨last, hlast, hls, hbase⟩ := View.load_active hload hst
    have hstream : m.base.stream owner.scope id = owner.stream id := by rw [hbase]; rfl
    simp only [hst, hstream]
    cases hd : (m.state : Provider config.kind).changedDraft? s.cipher (s.nonce n)
        (owner.stream id) config with
    | error e => exact .inr (clean_fail e seen)
    | ok draft? =>
      cases draft? with
      | none =>
        refine .inl ⟨.ofBase m.base, rfl, .inr ⟨last, ?_, ?_, rfl⟩⟩
        · exact ⟨m, n, hload, hst, Provider.changedDraft?_eq_none.mp hd, hlast⟩
        · rw [hbase, Details.ofEntry, hls]
          rfl
      | some draft =>
        obtain ⟨cs, -, -, hdraft⟩ := Provider.changedDraft?_eq_some.mp hd
        exact .inr ((s.push_clean _ draft seen).imp fun now d later h =>
          .inl ⟨seen, m, draft, h.1, hload, hst, Event.draft_stream hdraft, h.2⟩)
  | _ =>
    simp only [hst]
    exact .inr (clean_fail _ seen)

lemma removeAttempt_clean (s : Service) (log : Log) :
    (s.removeAttempt owner id).Clean clock (fun now d later => ∃ expectations draft,
      Stores expectations draft now d later) log := by
  refine clean_load_bind fun seen m _ _ => .inr ?_
  obtain ⟨base, status, buffer⟩ := m
  change Status at status
  by_cases hst : status = .active
  · simp only [hst, ne_eq, not_true_eq_false, if_false]
    exact clean_done_bind fun draft _ =>
      (s.push_clean _ draft seen).imp fun now d later h => ⟨_, draft, h.2⟩
  · simp only [hst, ne_eq, not_false_eq_true, if_true]
    exact clean_fail _ seen

lemma migrateAttempt_clean (s : Service) (m : Migration) (n : Nat) (log : Log) :
    (s.migrateAttempt owner id m n).Clean clock (Follows .oidc owner id) log := by
  refine clean_load_bind fun seen loaded _ hg => .inr ?_
  have hload := View.gather_eq_ok.mp hg
  generalize hp : (loaded.state : Provider .oidc) = p
  cases hst : p.status with
  | active =>
    subst hp
    simp only [hst]
    refine clean_done_bind fun draft hd => ?_
    obtain ⟨c, -, hdraft⟩ := Migration.draft_eq_ok.mp hd
    exact (s.push_clean _ draft seen).imp fun now d later h =>
      ⟨seen, loaded, draft, h.1, hload, hst, Event.draft_stream hdraft, h.2⟩
  | _ =>
    simp only [hst]
    exact clean_fail _ seen

lemma discover_clean (instanceId : String) (log : Log) :
    (discover instanceId id).Clean clock (fun now _ later => later = now) log := by
  refine clean_load_bind fun seen m _ _ => ?_
  simp only
  split
  · exact .inl ⟨_, rfl, rfl⟩
  · exact .inr (clean_fail _ seen)

lemma client_clean (s : Service) (instanceId callback : String) (log : Log) :
    (s.client instanceId id callback).Clean clock (fun now _ later => later = now) log := by
  rw [client, discover, Program.bind_assoc]
  refine clean_load_bind fun seen m _ _ => .inr ?_
  simp only
  split
  · refine clean_load_bind fun again n _ _ => ?_
    exact settled_or_clean _ fun _ _ => rfl
  · exact clean_fail _ seen

end Service

namespace Invocation

open Program

variable {clock : Nat → Stamp} {log : Log}

/-- What an answer says of the call on the log that gave it. -/
inductive Deed (i : Invocation) : Log → Answer → Log → Prop where
  | stored {now later e} :
      later.events = now.events ++ [e] → Deed i now (.details (.ofEntry e)) later
  | idle {owner id config log last} : i.command = .update owner id config →
      i.service.Idle owner id config log last → Deed i log (.details (.ofEntry last)) log
  | kind {k log} : Deed i log (.kind k) log
  | client {c log} : Deed i log (.client c) log

/-- The events that a call adds go with the answer that it gives. -/
lemma Deed.accounts {i : Invocation} {now later : Log} {a : Answer} {own : List LogEntry}
    (h : i.Deed now a later) (hown : later.events = now.events ++ own) :
    (∃ e, own = [e] ∧ a = .details (.ofEntry e)) ∨ own = [] ∧ ((∀ d, a ≠ .details d) ∨
      ∃ owner id config last, i.command = .update owner id config ∧
        i.service.Idle owner id config now last ∧ a = .details (.ofEntry last)) := by
  cases h with
  | stored he => exact .inl ⟨_, List.append_cancel_left (hown.symm.trans he), rfl⟩
  | idle hi hidle =>
    exact .inr ⟨List.self_eq_append_right.mp hown, .inr ⟨_, _, _, _, hi, hidle, rfl⟩⟩
  | kind => exact .inr ⟨List.self_eq_append_right.mp hown, .inl nofun⟩
  | client => exact .inr ⟨List.self_eq_append_right.mp hown, .inl nofun⟩

lemma deed_of_stores {i : Invocation} {expectations : List Expectation} {draft : Draft}
    {now later : Log} {d : Details} (h : Stores expectations draft now d later) :
    i.Deed now (.details d) later := by
  obtain ⟨e, -, he, rfl⟩ := h.stored
  exact .stored he

lemma clean (clock : Nat → Stamp) (i : Invocation) (log : Log) :
    i.program.Clean clock i.Deed log := by
  obtain ⟨s, command⟩ := i
  cases command with
  | add owner id config =>
    refine Clean.map (clean_done_bind fun _ _ => clean_retry (fun n now _ => ?_) _ 0)
    exact (s.addAttempt_clean config n now).imp fun _ _ _ ⟨_, h⟩ => deed_of_stores h
  | update owner id config =>
    refine Clean.map (clean_done_bind fun _ _ => clean_retry (fun n now _ => ?_) _ 0)
    refine (s.updateAttempt_clean config n now).imp fun now d later h => ?_
    rcases h with ⟨_, _, _, -, -, -, -, h⟩ | ⟨last, hidle, rfl, rfl⟩
    · exact deed_of_stores h
    · exact .idle rfl hidle
  | remove owner id =>
    refine Clean.map (clean_retry (fun n now _ => ?_) _ 0)
    exact (s.removeAttempt_clean now).imp fun _ _ _ ⟨_, _, h⟩ => deed_of_stores h
  | migrate owner id m =>
    refine Clean.map (clean_done_bind fun _ _ => clean_retry (fun n now _ => ?_) _ 0)
    exact (s.migrateAttempt_clean m n now).imp
      fun _ _ _ ⟨_, _, _, _, _, _, _, h⟩ => deed_of_stores h
  | kind instanceId id =>
    refine Clean.map (Clean.map ((Service.discover_clean instanceId log).imp ?_))
    rintro now found _ rfl
    exact .kind
  | client instanceId id callback =>
    refine Clean.map ((s.client_clean instanceId callback log).imp ?_)
    rintro now c _ rfl
    exact .client

/-- A command at a log, after all that has happened to both. -/
def trial (clock : Nat → Stamp) (i : Invocation) (log : Log) (hs : List Happening) :
    Trial Answer := (⟨i.program, log, []⟩ : Trial Answer).run clock hs

end Invocation

/-- A command accounts for what it has written: nothing as long as it is under way and nothing if
it fails; if it succeeds, the one event whose place it returns, or nothing. Only an update with
nothing to change returns a place without writing an event, that of the last event it has read. -/
structure Accounted (clock : Nat → Stamp) (i : Invocation) (log : Log) (hs : List Happening) :
    Prop where
  kept : (log.events ++ (i.trial clock log hs).own).Sublist (i.trial clock log hs).log.events
  underWay : (i.trial clock log hs).program.result? = none → (i.trial clock log hs).own = []
  failed : ∀ e, (i.trial clock log hs).program.result? = some (.error e) →
    (i.trial clock log hs).own = []
  placed : ∀ d, (i.trial clock log hs).program.result? = some (.ok (.details d)) →
    (∃ e, (i.trial clock log hs).own = [e] ∧ d = .ofEntry e) ∨
    (i.trial clock log hs).own = [] ∧ ∃ owner id config before after last,
      i.command = .update owner id config ∧ hs = before ++ .call :: after ∧
      i.service.Idle owner id config (i.trial clock log before).log last ∧ d = .ofEntry last
  asked : ∀ a, (i.trial clock log hs).program.result? = some (.ok a) → (∀ d, a ≠ .details d) →
    (i.trial clock log hs).own = []

/-- Whatever a log holds, whatever others do to it and whichever calls are given up, every command
accounts for what it has written. -/
theorem commands_accounted (clock : Nat → Stamp) (i : Invocation) (log : Log)
    (hs : List Happening) : Accounted clock i log hs := by
  have hk : (log.events ++ (i.trial clock log hs).own).Sublist (i.trial clock log hs).log.events :=
    Trial.kept_run hs
  rcases (i.clean clock log).run hs with
    ⟨a, before, after, hsplit, hd, hset⟩ | ⟨hown, hc⟩
  · have hr : ∀ r, (i.trial clock log hs).program.result? = some r → r = .ok a := by
      intro r hr
      exact (Program.done.inj (hd.symm.trans (Program.result?_eq_some.mp hr))).symm
    refine ⟨hk, fun hn => ?_, fun e he => (nomatch hr _ he), fun d h => ?_, fun b h hb => ?_⟩
    · rw [Invocation.trial, hd] at hn
      cases hn
    · obtain rfl := Except.ok.inj (hr _ h)
      rcases hset.settles.accounts hset.added with ⟨e, he, hde⟩ | ⟨hown, hn | hidle⟩
      · exact .inl ⟨e, he, Answer.details.inj hde⟩
      · exact absurd rfl (hn d)
      · obtain ⟨owner, id, config, last, hi, hidle, hde⟩ := hidle
        exact .inr ⟨hown, owner, id, config, before, after, last, hi, hsplit, hidle,
          Answer.details.inj hde⟩
    · obtain rfl := Except.ok.inj (hr _ h)
      rcases hset.settles.accounts hset.added with ⟨e, -, hde⟩ | ⟨hown, -⟩
      · exact absurd hde (hb _)
      · exact hown
  · have hr : ∀ a, (i.trial clock log hs).program.result? ≠ some (.ok a) := by
      intro a hr
      have hd : (i.trial clock log hs).program = .done (.ok a) := Program.result?_eq_some.mp hr
      rw [show ((⟨i.program, log, []⟩ : Trial Answer).run clock hs).program = _ from hd] at hc
      obtain ⟨e, he⟩ := hc
      cases he
    exact ⟨hk, fun _ => hown, fun _ _ => hown, fun d h => absurd h (hr _),
      fun a h => absurd h (hr a)⟩

end Federation
