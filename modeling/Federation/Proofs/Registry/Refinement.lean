import Federation.Proofs.Registry.Held

/-!
Commands one at a time keep a registry: each leaves log and registry in step, succeeds where the
registry allows it and answers what the registry does.
-/
namespace Federation

/-- What a command would store fits. -/
def Command.Fits (cipher : Cipher) : Command → Prop
  | .add _ _ config | .update _ _ config => config.settings.Fits cipher
  | .migrate _ _ m => m.settings.Fits cipher
  | .remove .. | .kind .. | .client .. => True

namespace Service

open Program

variable {clock : Nat → Stamp} {log : Log} {owner : Owner} {id : String} {s : Service}

/-- What was to be added is stored. -/
lemma addAttempt_opens (h : log.Lawful) (t : log.Tells owner id .vacant) {config : Config}
    (hf : config.settings.Fits s.cipher) (hg : config.settings.isGuarded = true) (n : Nat) :
    ∃ d later c, Returns clock (s.addAttempt owner id config n) log d later ∧
      log.Advances owner id (.live config.kind false c) later ∧
      c.Opens s.cipher config.settings := by
  obtain ⟨c, hc, ho⟩ := hf.encrypted hg (s.nonce n)
  obtain ⟨draft, hd⟩ : ∃ d, (Event.added config.kind id c).draft (owner.stream id) = .ok d :=
    Event.draft_isOk (Settings.addedToJson_isOk hf.timely ho.plain id)
  obtain ⟨d, later, hp, ha⟩ := s.run_addAttempt h t config n hc hd
  exact ⟨d, later, c, hp, ha, ho⟩

/-- What was to be changed is stored, and nothing where all is as desired. -/
lemma updateAttempt_opens (h : log.Lawful) {config : Config} {m : Bool}
    {c : Settings Sealed config.kind} (t : log.Tells owner id (.live config.kind m c))
    {old : Settings String config.kind} (ho : c.Opens s.cipher old)
    (hf : config.settings.Fits s.cipher) (n : Nat) :
    ∃ d later c', Returns clock (s.updateAttempt owner id config n) log d later ∧
      log.Advances owner id (.live config.kind m c') later ∧
      c'.Opens s.cipher (old.keeping config.settings) := by
  obtain ⟨cs, hcs⟩ : ∃ cs, (c.map some).changes s.cipher (s.nonce n) config.settings = .ok cs :=
    Settings.changes_isOk fun hs _ => (hf.recovers hs).protectText (s.nonce n)
  have hnew := ho.revise hf.recovers hcs
  by_cases hnil : cs = []
  · subst hnil
    obtain ⟨b, hb⟩ := s.run_updateAttempt h t n
    refine ⟨.ofBase b, log, c, ?_, h.advances t, hnew⟩
    rw [Returns, hb clock, Provider.changedDraft?_eq_none.mpr hcs]
    rfl
  · obtain ⟨draft, hd⟩ : ∃ d, (Event.changed config.kind id (cs.foldl .change .empty)).draft
        (owner.stream id) = .ok d := Event.draft_isOk
      (Revision.toJson_isOk hf.timely (fun _ _ _ hv => Settings.changes_value hcs hv) id)
    obtain ⟨d, later, hp, ha⟩ := s.run_updateAttempt_changed h t n hcs hnil hd
    exact ⟨d, later, _, hp, ha, hnew⟩

/-- What a provider was to be turned into is stored. -/
lemma migrateAttempt_opens (h : log.Lawful) {c : Settings Sealed .oidc}
    (t : log.Tells owner id (.live .oidc false c)) {m : Migration}
    (hf : m.settings.Fits s.cipher) (hg : m.settings.isGuarded = true) (n : Nat) :
    ∃ d later c', Returns clock (s.migrateAttempt owner id m n) log d later ∧
      log.Advances owner id (.live m.target.kind true c') later ∧
      c'.Opens s.cipher m.settings := by
  obtain ⟨c', hc, ho⟩ := hf.encrypted hg (s.nonce n)
  obtain ⟨draft, hd⟩ : ∃ d, (Event.migrated m.target id c').draft (owner.stream id) = .ok d :=
    Event.draft_isOk (Settings.addedToJson_isOk hf.timely ho.plain id)
  obtain ⟨d, later, hp, ha⟩ := s.run_migrateAttempt h t m n hc hd
  exact ⟨d, later, c', hp, ha, ho⟩

end Service

namespace Registry

open Program

variable {cipher : Cipher} {clock : Nat → Stamp} {log later : Log} {r : Registry} {owner : Owner}
  {id : String} {s : Service} {c : Command}

/-- A command has answered what the registry does, and left what it has then. -/
def Follows (cipher : Cipher) (done : Except Error Answer × Log) (r : Option Response × Registry) :
    Prop := Response.Matches r.1 done.1 ∧ Held cipher done.2 r.2

lemma follows_allowed {p : Program α} {a : α} {f : α → Answer} (hp : Returns clock p log a later)
    (hc : r.allows c = true) (ha : Response.Matches (r.response c) (.ok (f a)))
    (h : Held cipher later (r.next c)) :
    Follows cipher ((f <$> p).run clock log) (r.step c) := by
  rw [show (f <$> p).run clock log = (.ok (f a), later) from returns_map.mpr ⟨a, rfl, hp⟩, step, hc]
  exact ⟨ha, h⟩

lemma Held.refused (h : Held cipher log r) {p : Program α} {f : α → Answer} {e : Error}
    (hp : p.run clock log = (.error e, log)) (hc : r.allows c = false) :
    Follows cipher ((f <$> p).run clock log) (r.step c) := by
  rw [run_map_error hp, step, hc]
  exact ⟨.refused e, h⟩

/-- A command is given up at its first attempt if nobody else is at the log. -/
lemma Held.refused_at_once (h : Held cipher log r) {attempt : Nat → Program Details} {e : Error}
    (hp : (attempt 0).run clock log = (.error e, log)) (he : e.isConflict = false)
    (hc : r.allows c = false) :
    Follows cipher ((Answer.details <$> s.retry attempt).run clock log) (r.step c) :=
  h.refused (run_retry_local hp he _) hc

/-- Or it takes a life and its entry further at its first attempt. -/
lemma Held.changed_at_once (h : Held cipher log r) {attempt : Nat → Program Details} {d : Details}
    {next : Life} {e : Entry} (hp : Returns clock (attempt 0) log d later)
    (ha : log.Advances owner id next later) (hk : next.Keeps cipher owner (some e))
    (hc : r.allows c = true) (hr : r.response c = some .changed)
    (hn : r.next c = r.set owner.instanceId id e) :
    Follows cipher ((Answer.details <$> s.retry attempt).run clock log) (r.step c) :=
  follows_allowed (hp.retry _) hc (hr ▸ .changed d) (hn ▸ h.set ha hk)

/-- Invalid settings are refused before anything else, valid ones change nothing. -/
lemma Held.validated (h : Held cipher log r) {settings : Settings S k} {p : Program Details}
    (hi : settings.isValid = false → r.allows c = false)
    (hv : settings.isValid = true →
      Follows cipher ((Answer.details <$> p).run clock log) (r.step c)) :
    Follows cipher ((Answer.details <$>
      (Program.done (settings.validate.mapError Error.refused) >>= fun _ => p)).run clock log)
      (r.step c) := by
  cases hs : settings.isValid with
  | false =>
    obtain ⟨e, he⟩ := Settings.validate_of_not_isValid hs
    rw [he]
    exact h.refused rfl (hi hs)
  | true =>
    rw [Settings.validate_of_isValid hs]
    exact hv hs

/-- Adding works where there is no entry. -/
lemma Held.add (h : Held s.cipher log r) {config : Config} (hf : config.settings.Fits s.cipher) :
    Follows s.cipher ((Invocation.mk s (.add owner id config)).program.run clock log)
      (r.step (.add owner id config)) := by
  refine h.validated (fun hv => by simp [allows, hv]) fun hv => ?_
  obtain ⟨o, life, hi, t, hk⟩ := h.entry owner.instanceId id
  cases hr : r owner.instanceId id with
  | some e =>
    rw [hr] at hk
    exact h.refused_at_once (s.addAttempt_taken h.lawful t hi.symm hk.ne_vacant config 0) rfl
      (by simp [allows, hr])
  | none =>
    rw [hr] at hk
    obtain rfl := hk.eq_none
    have t := t.of_vacant hi
    cases hg : config.settings.isGuarded with
    | false =>
      obtain ⟨e, he⟩ := Settings.encrypted_of_not_isGuarded hg s.cipher (s.nonce 0)
      have hd : config.addedDraft s.cipher (s.nonce 0) (owner.stream id) = .error e := by
        rw [Config.addedDraft, he]
        rfl
      exact h.refused_at_once (s.addAttempt_invalid h.lawful t config 0 hd)
        (Config.local_addedDraft e hd) (by simp [allows, hg])
    | true =>
      obtain ⟨d, later, c, hp, ha, ho⟩ := Service.addAttempt_opens h.lawful t hf hg 0
      exact h.changed_at_once hp ha (.live ho) (by simp [allows, hv, hg, hr]) rfl rfl

/-- Removing works for an active entry of the owner. -/
lemma Held.remove (h : Held cipher log r) :
    Follows cipher ((Invocation.mk s (.remove owner id)).program.run clock log)
      (r.step (.remove owner id)) := by
  rcases h.active_or owner id with ⟨k, m, c, s₀, t, hr, ho⟩ | ⟨o, life, hi, t, hn, hr⟩
  · obtain ⟨d, later, hp, ha⟩ := s.run_removeAttempt h.lawful t
    exact h.changed_at_once hp ha (.gone rfl rfl) (by simp [allows, hasActive_of_some hr]) rfl
      (change_of_some hr Entry.remove)
  · exact h.refused_at_once (s.removeAttempt_refused h.lawful t hi.symm hn) rfl
      (by simp [allows, hr])

/-- Updating works for an active entry of the owner and of the kind. -/
lemma Held.update (h : Held s.cipher log r) {config : Config} (hf : config.settings.Fits s.cipher) :
    Follows s.cipher ((Invocation.mk s (.update owner id config)).program.run clock log)
      (r.step (.update owner id config)) := by
  refine h.validated (fun hv => by simp [allows, hv]) fun hv => ?_
  rcases h.active_or owner id with ⟨k, m, c, s₀, t, hr, ho⟩ | ⟨o, life, hi, t, hn, hr⟩
  · by_cases hk : k = config.kind
    · subst hk
      obtain ⟨d, later, c', hp, ha, ho'⟩ := Service.updateAttempt_opens h.lawful t ho hf 0
      refine h.changed_at_once hp ha (.live ho') ?_ rfl ?_
      · simp [allows, hv, hasActive_of_some hr]
      · rw [next, change_of_some hr, Entry.configure_of_kind]
    · obtain ⟨e, hp⟩ := s.updateAttempt_refused h.lawful t rfl
        (fun m' c' he => hk (by rw [Life.seenBy_self] at he; injection he)) 0
      exact h.refused_at_once hp rfl (by simp [allows, hasActive_of_some hr, hk])
  · obtain ⟨e, hp⟩ := s.updateAttempt_refused h.lawful t hi.symm (fun m c => hn _ m c) 0
    exact h.refused_at_once hp rfl (by simp [allows, hr])

/-- Migrating works for an active entry of the owner that is of OpenID Connect. -/
lemma Held.migrate (h : Held s.cipher log r) {m : Migration} (hf : m.settings.Fits s.cipher) :
    Follows s.cipher ((Invocation.mk s (.migrate owner id m)).program.run clock log)
      (r.step (.migrate owner id m)) := by
  refine h.validated (fun hv => by simp [allows, hv]) fun hv => ?_
  rcases h.active_or owner id with ⟨k, b, c, s₀, t, hr, ho⟩ | ⟨o, life, hi, t, hn, hr⟩
  · by_cases hk : k = .oidc
    · subst hk
      obtain rfl := Chronicle.not_migrated t
      cases hg : m.settings.isGuarded with
      | false =>
        obtain ⟨e, he⟩ := Settings.encrypted_of_not_isGuarded hg s.cipher (s.nonce 0)
        have hd : m.draft s.cipher (s.nonce 0) (owner.stream id) = .error e := by
          rw [Migration.draft, he]
          rfl
        exact h.refused_at_once (s.migrateAttempt_invalid h.lawful t m 0 hd)
          (Migration.local_draft e hd) (by simp [allows, hg])
      | true =>
        obtain ⟨d, later, c', hp, ha, ho'⟩ := Service.migrateAttempt_opens h.lawful t hf hg 0
        exact h.changed_at_once hp ha (.live ho')
          (by simp [allows, hv, hg, hasActive_of_some hr]) rfl (change_of_some hr _)
    · obtain ⟨e, hp⟩ := s.migrateAttempt_refused h.lawful t rfl
        (fun b' c' he => hk (by rw [Life.seenBy_self] at he; injection he)) m 0
      exact h.refused_at_once hp rfl (by simp [allows, hasActive_of_some hr, hk])
  · obtain ⟨e, hp⟩ := s.migrateAttempt_refused h.lawful t hi.symm (fun b c => hn _ b c) m 0
    exact h.refused_at_once hp rfl (by simp [allows, hr])

/-- The kind of an active entry is found. -/
lemma Held.kind (h : Held cipher log r) (instanceId : String) :
    Follows cipher ((Invocation.mk s (.kind instanceId id)).program.run clock log)
      (r.step (.kind instanceId id)) := by
  have hrun : (Service.kind instanceId id).run clock log = _ :=
    run_bind clock (Service.discover instanceId id) (fun found => pure found.1) log
  rcases h.live_or instanceId id with ⟨o, k, m, c, s₀, rfl, t, hr, ho⟩ | ⟨o, life, rfl, t, hn, hr⟩
  · rw [Service.run_discover h.lawful t] at hrun
    refine follows_allowed hrun (by simp [allows, hr]) ?_ h
    rw [response, hr]
    exact .kind k
  · rw [Service.discover_refused h.lawful t hn] at hrun
    exact h.refused hrun hr

/-- An active entry has its client. -/
lemma Held.client (h : Held s.cipher log r) (instanceId callback : String) :
    Follows s.cipher ((Invocation.mk s (.client instanceId id callback)).program.run clock log)
      (r.step (.client instanceId id callback)) := by
  rcases h.live_or instanceId id with ⟨o, k, m, c, s₀, rfl, t, hr, ho⟩ | ⟨o, life, rfl, t, hn, hr⟩
  · have hrun : Returns clock (s.client o.instanceId id callback) log _ log :=
      (s.run_client h.lawful t callback).trans (congrArg (·, log) (ho.client id callback))
    refine follows_allowed hrun (by simp [allows, hr]) ?_ h
    rw [response, hr]
    exact .client (Entry.shows_iff _ callback)
  · exact h.refused (s.client_refused h.lawful t hn callback) hr

/-- Each command leaves log and registry in step. -/
theorem Held.follows (h : Held cipher log r) (i : Invocation) (hs : i.service.cipher = cipher)
    (hf : i.command.Fits cipher) : Follows cipher (i.program.run clock log) (r.step i.command) := by
  subst hs
  obtain ⟨s, c⟩ := i
  cases c with
  | add owner id config => exact h.add hf
  | update owner id config => exact h.update hf
  | remove owner id => exact h.remove
  | migrate owner id m => exact h.migrate hf
  | kind instanceId id => exact h.kind instanceId
  | client instanceId id callback => exact h.client instanceId callback

/-- So do all commands of a run. -/
lemma Held.run (h : Held cipher log r) (is : List Invocation)
    (hs : ∀ i ∈ is, i.service.cipher = cipher) (hf : ∀ i ∈ is, i.command.Fits cipher) :
    List.Forall₂ Response.Matches (r.run (is.map Invocation.command)).1
        (Invocation.inTurn clock is log).1 ∧
      Held cipher (Invocation.inTurn clock is log).2 (r.run (is.map Invocation.command)).2 := by
  induction is generalizing log r with
  | nil => exact ⟨.nil, h⟩
  | cons i is ih =>
    obtain ⟨ha, hl⟩ : Follows cipher (i.program.run clock log) (r.step i.command) :=
      h.follows i (hs i List.mem_cons_self) (hf i List.mem_cons_self)
    obtain ⟨has, hls⟩ := ih hl (fun j hj => hs j (List.mem_cons_of_mem _ hj))
      fun j hj => hf j (List.mem_cons_of_mem _ hj)
    exact ⟨.cons ha has, hls⟩

end Registry

/-- Whatever commands come one after another to an empty log: if the cipher gives back their secrets
and their values can be written, they succeed, answer and store what a registry does. -/
theorem commands_keep_registry (clock : Nat → Stamp) (cipher : Cipher) (is : List Invocation)
    (hs : ∀ i ∈ is, i.service.cipher = cipher) (hf : ∀ i ∈ is, i.command.Fits cipher) :
    List.Forall₂ Response.Matches (Registry.empty.run (is.map Invocation.command)).1
        (Invocation.inTurn clock is {}).1 ∧
      Registry.Held cipher (Invocation.inTurn clock is {}).2
        (Registry.empty.run (is.map Invocation.command)).2 :=
  (Registry.held_empty cipher).run is hs hf

namespace Sample

/-- A ring with one key. -/
def ring : AesRing := ⟨"key", ⟨[⟨"key", ⟨List.replicate 32 0, rfl⟩⟩]⟩⟩

def owner : Owner := .ofInstance "instance"

/-- A provider of Google that is asked for the secret. -/
def config : Config :=
  ⟨.google, ⟨(Settings.initial "" .google).plain.set .clientId "client", fun _ => "secret"⟩⟩

def service : Service := ⟨ring.cipher, {}, "editor", fun _ => .ofNat 0⟩

/-- The provider is added and looked for, and added again. -/
def invocations : List Invocation :=
  [⟨service, .add owner "id" config⟩, ⟨service, .kind "instance" "id"⟩,
    ⟨service, .client "instance" "id" "callback"⟩, ⟨service, .add owner "id" config⟩]

/-- What the registry has of it. -/
def entry : Entry where
  owner := owner
  kind := .google
  settings := config.settings

def clock : Nat → Stamp := fun _ => ⟨⟨0, 0⟩, fun _ => ⟨0⟩⟩

end Sample

theorem registry_of_sample :
    (∀ i ∈ Sample.invocations, i.service.cipher = Sample.ring.cipher) ∧
      (∀ i ∈ Sample.invocations, i.command.Fits Sample.ring.cipher) ∧
      List.Forall₂ Response.Matches
        [some .changed, some (.kind .google), some (.client Sample.entry "callback"), none]
        (Invocation.inTurn Sample.clock Sample.invocations {}).1 := by
  have hs : ∀ i ∈ Sample.invocations, i.service.cipher = Sample.ring.cipher := by
    simp [Sample.invocations, Sample.service]
  have hk : Sample.ring.keys.read Sample.ring.encryptionKeyId =
      .ok ⟨"key", ⟨List.replicate 32 0, rfl⟩⟩ := rfl
  have hl : (Text.utf8 "secret").length ≤ Gcm.maxText := by decide
  have hc : Sample.config.settings.Fits Sample.ring.cipher :=
    ⟨fun _ => AesRing.recovers hk hl, by unfold Settings.IsTimely; decide⟩
  have hf : ∀ i ∈ Sample.invocations, i.command.Fits Sample.ring.cipher := by
    simp [Sample.invocations, Command.Fits, hc]
  have h := commands_keep_registry Sample.clock Sample.ring.cipher Sample.invocations hs hf
  exact ⟨hs, hf, h.1⟩

end Federation
