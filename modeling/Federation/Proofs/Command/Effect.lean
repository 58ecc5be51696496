import Federation.Proofs.Command.Checked

/-!
What attempts leave behind. An attempt that succeeds in a log that tells lives has changed nothing
or has taken one life a step further, so that the log tells lives still.
-/
namespace Federation

namespace Life

lemma seenBy_eq_live {life : Life} {owner other : Owner} {k : Kind} {m : Bool}
    {c : Settings Sealed k} (h : life.seenBy owner other = .live k m c) :
    other = owner ∧ life = .live k m c := by
  unfold seenBy at h
  split at h
  · next ho => exact ⟨ho, h⟩
  · cases h

end Life

/-- What is of OpenID Connect has not been migrated. -/
lemma Chronicle.not_migrated {owner : Owner} {id : String} {es : List LogEntry} {m : Bool}
    {c : Settings Sealed .oidc} (h : Chronicle owner id es (.live .oidc m c)) : m = false := by
  obtain ⟨tags, -, ht⟩ := h.told
  cases m with
  | false => rfl
  | true =>
    obtain ⟨n, t, m, hk, -⟩ := ht
    exact absurd hk.symm t.kind_ne_oidc

namespace Service

open Program

variable {clock : Nat → Stamp} {log now : Log} {owner : Owner} {id : String} {d : Details}

lemma addAttempt_grows (s : Service) (hl : log.Lawful) {config : Config} {n : Nat}
    (h : Returns clock (s.addAttempt owner id config n) log d now) : log.Grows now := by
  obtain ⟨o, life, hi, t⟩ := hl.told owner.instanceId id
  by_cases hv : life = .vacant
  · subst hv
    have t := t.of_vacant hi
    cases hd : config.addedDraft s.cipher (s.nonce n) (owner.stream id) with
    | error e =>
      rw [Returns, s.addAttempt_invalid hl t config n hd] at h
      cases h
    | ok draft =>
      obtain ⟨c, hc, hd⟩ := Config.addedDraft_eq_ok.mp hd
      obtain ⟨_, _, hrun, ha⟩ := s.run_addAttempt hl t config n hc hd
      cases hrun.symm.trans h
      exact ha.grows
  · rw [Returns, s.addAttempt_taken hl t hi.symm hv] at h
    cases h

lemma updateAttempt_grows (s : Service) (hl : log.Lawful) {config : Config} {n : Nat}
    (h : Returns clock (s.updateAttempt owner id config n) log d now) : log.Grows now := by
  obtain ⟨o, life, hi, t⟩ := hl.told owner.instanceId id
  by_cases hlive : ∃ m c, life.seenBy o owner = .live config.kind m c
  · obtain ⟨m, c, hlive⟩ := hlive
    obtain ⟨rfl, rfl⟩ := Life.seenBy_eq_live hlive
    obtain ⟨b, hb⟩ := s.run_updateAttempt hl t n
    cases hd : (⟨.active, c.map some⟩ : Provider config.kind).changedDraft? s.cipher (s.nonce n)
      (owner.stream id) config with
    | error e =>
      rw [Returns, hb, hd] at h
      cases h
    | ok d? =>
      cases d? with
      | none =>
        rw [Returns, hb, hd] at h
        cases h
        exact hl.grows
      | some draft =>
        obtain ⟨cs, hc, hcs, hd⟩ := Provider.changedDraft?_eq_some.mp hd
        obtain ⟨_, _, hrun, ha⟩ := s.run_updateAttempt_changed hl t n hc hcs hd
        cases hrun.symm.trans h
        exact ha.grows
  · obtain ⟨r, hr⟩ := s.updateAttempt_refused hl t hi.symm (fun m c he => hlive ⟨m, c, he⟩) n
    cases hr.symm.trans h

lemma removeAttempt_grows (s : Service) (hl : log.Lawful)
    (h : Returns clock (s.removeAttempt owner id) log d now) : log.Grows now := by
  obtain ⟨o, life, hi, t⟩ := hl.told owner.instanceId id
  by_cases hlive : ∃ k m c, life.seenBy o owner = .live k m c
  · obtain ⟨k, m, c, hlive⟩ := hlive
    obtain ⟨rfl, rfl⟩ := Life.seenBy_eq_live hlive
    obtain ⟨_, _, hrun, ha⟩ := s.run_removeAttempt hl t
    cases hrun.symm.trans h
    exact ha.grows
  · rw [Returns, s.removeAttempt_refused hl t hi.symm fun k m c he => hlive ⟨k, m, c, he⟩] at h
    cases h

lemma migrateAttempt_grows (s : Service) (hl : log.Lawful) {m : Migration} {n : Nat}
    (h : Returns clock (s.migrateAttempt owner id m n) log d now) : log.Grows now := by
  obtain ⟨o, life, hi, t⟩ := hl.told owner.instanceId id
  by_cases hlive : ∃ b c, life.seenBy o owner = .live .oidc b c
  · obtain ⟨b, c, hlive⟩ := hlive
    obtain ⟨rfl, rfl⟩ := Life.seenBy_eq_live hlive
    obtain rfl := Chronicle.not_migrated t
    cases hd : m.draft s.cipher (s.nonce n) (owner.stream id) with
    | error e =>
      rw [Returns, s.migrateAttempt_invalid hl t m n hd] at h
      cases h
    | ok draft =>
      obtain ⟨c', hc, hd⟩ := Migration.draft_eq_ok.mp hd
      obtain ⟨_, _, hrun, ha⟩ := s.run_migrateAttempt hl t m n hc hd
      cases hrun.symm.trans h
      exact ha.grows
  · obtain ⟨r, hr⟩ := s.migrateAttempt_refused hl t hi.symm (fun b c he => hlive ⟨b, c, he⟩) m n
    cases hr.symm.trans h

lemma discover_keeps (hl : log.Lawful) {instanceId : String} {found : Kind × Owner}
    (h : Returns clock (discover instanceId id) log found now) : now = log := by
  obtain ⟨o, life, rfl, t⟩ := hl.told instanceId id
  rw [Returns, run_discover hl t] at h
  exact (Prod.mk.inj h).2.symm

lemma client_keeps (s : Service) (hl : log.Lawful) {instanceId callback : String} {c : Client}
    (h : Returns clock (s.client instanceId id callback) log c now) : now = log := by
  obtain ⟨o, life, rfl, t⟩ := hl.told instanceId id
  by_cases hlive : ∃ k m c, life = .live k m c
  · obtain ⟨k, m, c, rfl⟩ := hlive
    rw [Returns, s.run_client hl t] at h
    exact (Prod.mk.inj h).2.symm
  · rw [Returns, s.client_refused hl t fun k m c he => hlive ⟨k, m, c, he⟩] at h
    cases h

end Service
end Federation
