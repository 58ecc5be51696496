import Federation.Proofs.Command.Accounts
import Federation.Proofs.Command.Existence
import Federation.Proofs.Provider.Misreading

/-!
Commands on providers of one kind at histories of any. Where an update or a migration stores its
event, a reader of the wanted kind has just found an active provider; discovery finds one of that
kind too, unless the reader is mistaken about the history.
-/
namespace Federation

/-- The provider that a command changes, and the kind it takes it to be of. -/
def Command.revises : Command → Option (Kind × Owner × String)
  | .update owner id config => some (config.kind, owner, id)
  | .migrate owner id _ => some (.oidc, owner, id)
  | _ => none

namespace Log

variable {log now : Log} {owner : Owner} {id : String} {k : Kind}

/-- What a reader of a kind makes of a history. -/
lemma Historic.load_provider (h : log.Historic) (owner : Owner) (id : String) (k : Kind) :
    ∃ (base : Base) (p : Provider k), (View.ofKind k owner id).load
        ((View.ofKind k owner id).fresh (.ofOwner owner id)) log = (⟨base, p, []⟩, .ok ()) ∧
      p.status = ((log.history owner id).filter (·.tag ∈ k.readTags)).foldl (Status.heed k)
        .unspecified ∧
      ∀ last, (log.history owner id).getLast? = some last →
        (base.processed = log.tail (owner.stream id).name ↔ last.tag ∈ k.readTags) := by
  obtain ⟨base, hload, hp⟩ := h.load_stream (v := View.ofKind k owner id)
    (List.ne_nil_of_mem Kind.removed_mem_readTags) rfl fun _ => rfl
  exact ⟨base, _, hload, Provider.status_foldl _ _, hp⟩

/-- Where a stream ends with the last event that was read of it, the same can be read of it
still. -/
lemma Extends.select_eq (g : log.Extends now) (h : now.Sound) {q : Query} {name : StreamName}
    (hq : ∀ e, q.wants e = true → e.streamName = name) {last : LogEntry}
    (hl : (q.select log.events).getLast? = some last) (ht : now.tail name = last.sequence) :
    q.select now.events = q.select log.events := by
  obtain ⟨more, hm⟩ : q.select log.events <+: q.select now.events := g.kept.filter _
  suffices hnil : more = [] by rw [← hm, hnil, List.append_nil]
  refine List.eq_nil_iff_forall_not_mem.mpr fun e he => ?_
  have hlt : last.sequence < e.sequence :=
    (List.pairwise_append.mp (hm ▸ h.select_pairwise hq)).2.2 last (List.mem_of_getLast? hl) e he
  have hmem : e ∈ q.select now.events := hm ▸ List.mem_append_right _ he
  have hname := hq e (List.mem_filter.mp hmem).2
  have hstream : e ∈ streamOf now.events name :=
    List.mem_filter.mpr ⟨(List.mem_filter.mp hmem).1, by simpa using hname⟩
  have hle : e.sequence ≤ (streamOf now.events name).length := by
    have hs := List.mem_map_of_mem (f := LogEntry.sequence) hstream
    rw [h.sequences, List.mem_range'_1] at hs
    omega
  rw [← tail_eq h, ht] at hle
  omega

end Log

namespace Service

variable {log now later : Log} {owner : Owner} {id : String} {k : Kind} {d : Details}

/-- Who stores an event for a provider that was read as active would read it as active again. -/
lemma Follows.load (h : Follows k owner id now d later) (hs : now.Sound)
    (ha : now.available = true) :
    ∃ m, (View.ofKind k owner id).load ((View.ofKind k owner id).fresh (.ofOwner owner id)) now =
        (m, .ok ()) ∧ (m.state : Provider k).status = .active ∧
      m.base.processed = now.tail (owner.stream id).name := by
  obtain ⟨seen, m, draft, g, hload, hst, -, hstores⟩ := h
  obtain ⟨last, hlast, -, hbase⟩ := View.load_active hload hst
  have ht : now.tail (owner.stream id).name = m.base.processed :=
    hstores.met _ List.mem_cons_self
  have hq : ∀ e, ((View.ofKind k owner id).query (.ofOwner owner id)).wants e = true →
      e.streamName = (owner.stream id).name := fun e =>
    View.streamName_of_wants (List.ne_nil_of_mem Kind.removed_mem_readTags)
  have hsel := g.select_eq hs hq hlast (by rw [ht, hbase])
  refine ⟨m, View.load_eq_ok.mpr ⟨ha, ?_⟩, hst, ht.symm⟩
  rw [hsel]
  exact (View.load_eq_ok.mp hload).2

end Service

namespace Invocation

open Program

variable {clock : Nat → Stamp}

lemma clean_follows {i : Invocation} {k : Kind} {owner : Owner} {id : String}
    (hi : i.command.revises = some (k, owner, id)) (log : Log) :
    i.program.Clean clock
      (fun now _ later => (∃ d, Service.Follows k owner id now d later) ∨ later = now) log := by
  obtain ⟨s, command⟩ := i
  cases command with
  | update owner id config =>
    cases hi
    refine Clean.map (clean_done_bind fun _ _ => clean_retry (fun n now _ => ?_) _ 0)
    exact (s.updateAttempt_clean config n now).imp fun now d later h =>
      h.imp (fun h => ⟨d, h⟩) fun ⟨_, _, _, h⟩ => h
  | migrate owner id m =>
    cases hi
    refine Clean.map (clean_done_bind fun _ _ => clean_retry (fun n now _ => ?_) _ 0)
    exact (s.migrateAttempt_clean m n now).imp fun now d later h => .inl ⟨d, h⟩
  | _ => cases hi

end Invocation

namespace Early

/-- The provider under another name and with all that an OpenID Connect provider needs. -/
def config : Config :=
  ⟨.oidc, ⟨(((Settings.initial "" .oidc).plain.set .name "other").set .issuer "issuer").set
    .clientId "client", fun _ => ""⟩⟩

def update : Invocation := ⟨service, .update owner "id" config⟩

end Early

/-- Where an update or a migration changes a log in which every id has a history, that history
stands for an active provider of the kind that the command takes it to be of just where the reader
of that kind is not mistaken about it; where it is, nobody in the instance has such a provider. If
events come in order, the only mistake is to misread an early history. The others need migrations
that are repeated, or out of another kind than OpenID Connect, or that follow a removal, or else
changes after a removal of the early form. -/
theorem revised_as_discovered (clock : Nat → Stamp) (i : Invocation) (log : Log)
    (hs : List Happening) {k : Kind} {owner : Owner} {id : String}
    (hi : i.command.revises = some (k, owner, id)) (hl : (i.trial clock log hs).log.Historic)
    (hc : ((i.trial clock log hs).meet clock .call).log ≠ (i.trial clock log hs).log)
    (hb : Event.begins ((i.trial clock log hs).log.history owner id) = true) :
    (k.Mistakes ((i.trial clock log hs).log.history owner id) →
      ∀ other : Owner, other.instanceId = owner.instanceId →
        ¬ (i.trial clock log hs).log.Discovers k other id) ∧
    ((i.trial clock log hs).log.Discovers k owner id ↔
      ¬ k.Mistakes ((i.trial clock log hs).log.history owner id)) ∧
    (Event.Ordered ((i.trial clock log hs).log.history owner id) →
      ((i.trial clock log hs).log.Discovers k owner id ↔
        k.misreads ((i.trial clock log hs).log.history owner id) = false)) := by
  obtain ⟨d, hf⟩ : ∃ d, Service.Follows k owner id (i.trial clock log hs).log d
      ((i.trial clock log hs).meet clock .call).log := by
    rcases (i.clean_follows hi log).meet_call hs with hsame | ⟨a, hf | hsame⟩
    · exact absurd hsame hc
    · exact hf
    · exact absurd hsame hc
  generalize (i.trial clock log hs).log = now at *
  obtain ⟨m, hload, hst, hend⟩ := hf.load hl.sound hl.available
  obtain ⟨base, p, hload', hp, hread⟩ := hl.load_provider owner id k
  obtain rfl := (Prod.mk.inj (hload'.symm.trans hload)).1
  have hactive := hp.symm.trans hst
  cases hlast : (now.history owner id).getLast? with
  | none =>
    rw [List.getLast?_eq_none_iff.mp hlast] at hactive
    cases hactive
  | some last =>
    have hne : now.history owner id ≠ [] := List.ne_nil_of_mem (List.mem_of_getLast? hlast)
    have htold : now.Discovers k owner id ↔ ¬ k.Mistakes (now.history owner id) :=
      hl.discovers_iff.trans (Kind.told_iff hb hactive)
    refine ⟨fun hm other ho hd => ?_, htold, fun hordered => ?_⟩
    · by_cases heq : other = owner
      · exact htold.mp (heq ▸ hd) hm
      · have hstands := (hl.discovers_iff.mp hd).1
        rw [hl.history_eq_nil hne ho heq] at hstands
        cases hstands
    · rw [htold, hordered.mistakes_iff hlast ((hread last hlast).mp hend) hactive,
        Bool.not_eq_true]

theorem revised_of_early_oidc :
    (Early.update.trial Early.clock (Early.log .oidc) [.call]).log = Early.log .oidc ∧
    ((Early.update.trial Early.clock (Early.log .oidc) [.call]).meet Early.clock .call).log ≠
      Early.log .oidc ∧
    (Early.log .oidc).Discovers .oidc Early.owner "id" := by
  have hlog : (Early.update.trial Early.clock (Early.log .oidc) [.call]).log = Early.log .oidc :=
    rfl
  have hlength : ((Early.update.trial Early.clock (Early.log .oidc) [.call]).meet Early.clock
      .call).log.events.length = 2 := by decide +kernel
  have hc : ((Early.update.trial Early.clock (Early.log .oidc) [.call]).meet Early.clock
      .call).log ≠ Early.log .oidc := by
    intro he
    rw [he] at hlength
    cases hlength
  have hh : (Early.log .oidc).Historic := Early.historic_log
  have hb : Event.begins ((Early.log .oidc).history Early.owner "id") = true := by
    rw [Early.history_log]
    rfl
  have ho : Event.Ordered ((Early.log .oidc).history Early.owner "id") := by
    rw [Early.history_log]
    exact ⟨_, [], [], [], [], rfl, rfl, nofun, .inl rfl, .inl rfl⟩
  have hm : Kind.oidc.misreads ((Early.log .oidc).history Early.owner "id") = false := by
    rw [Early.history_log]
    decide
  exact ⟨hlog, hc, ((revised_as_discovered Early.clock Early.update (Early.log .oidc) [.call] rfl
    hh hc hb).2.2 ho).mpr hm⟩

/-- A provider of a protocol without a kind is updated as one of OpenID Connect. -/
theorem early_saml_updated_undiscovered :
    (Early.log .saml).Historic ∧ Event.begins ((Early.log .saml).history Early.owner "id") = true ∧
    (Early.update.program.run Early.clock (Early.log .saml)).2.events.map LogEntry.type =
      ["idp.config.added", "idp.oidc.changed"] ∧
    ∀ k, ¬ (Early.log .saml).Discovers k Early.owner "id" := by
  have hh : (Early.log .saml).Historic := Early.historic_log
  refine ⟨hh, by rw [Early.history_log]; rfl, by decide +kernel, fun k hd => ?_⟩
  have hs := (hh.discovers_iff.mp hd).1
  rw [Early.history_log] at hs
  cases hs

end Federation
