import Federation.Command.Service
import Federation.Proofs.Provider.Drafts
import Federation.Proofs.Provider.Growth

/-!
Single attempts at the commands, with nobody else at the log. In a log that tells lives, what an
attempt does depends on the life under its id alone, and a change that goes through takes that life
a step further.
-/
namespace Federation

namespace View

/-- What a view makes of the answer of a log. -/
def gather (v : View) (base : Base) (r : Except LogError (List LogEntry)) :
    Except Error (Model v.State) :=
  match r with
  | .error e => .error (.log e)
  | .ok events =>
    match v.read (v.fresh base) events with
    | (m, .ok ()) => .ok m
    | (_, .error e) => .error (.log e)

lemma gather_filter {v : View} {base : Base} {log : Log} {m : Model v.State}
    (h : v.load (v.fresh base) log = (m, .ok ())) :
    v.gather base (log.filter (v.query base)) = .ok m := by
  simp only [load_def, asks, Bool.false_eq_true, if_false] at h
  cases hf : log.filter (v.query base) with
  | error e => simp [fresh, hf] at h
  | ok events =>
    simp only [fresh] at h hf
    simp only [hf] at h
    simp only [gather, fresh, h]

end View

namespace Program

/-- A view asks once. -/
lemma load_eq (v : View) (base : Base) :
    Service.load v base = .filter (v.query base) fun r => .done (v.gather base r) := by
  simp only [Service.load, View.asks, Bool.false_eq_true, if_false]
  congr 1
  funext r
  cases r with
  | error e => rfl
  | ok events =>
    simp only [View.gather]
    generalize v.read (v.fresh base) events = m
    rcases m with ⟨m, e | u⟩ <;> rfl

/-- What follows a view that can be read goes on from what was read. -/
lemma run_load_bind {clock : Nat → Stamp} {v : View} {base : Base} {log : Log} {m : Model v.State}
    (h : v.load (v.fresh base) log = (m, .ok ())) (f : Model v.State → Program α) :
    (Service.load v base >>= f).run clock log = (f m).run clock log := by
  refine (run_bind clock _ f log).trans ?_
  rw [load_eq]
  simp only [run, View.gather_filter h]

lemma run_latest_bind {clock : Nat → Stamp} {log : Log} (h : log.available = true) (q : Query)
    (f : Nat → Program α) :
    (Service.latest q >>= f).run clock log = (f (q.latest log.events)).run clock log := by
  refine (run_bind clock _ f log).trans ?_
  simp only [Service.latest, run, Log.latest_eq h]
  rfl

end Program

/-- Where an id is free no stream has ever held anything under it. -/
lemma Log.Lawful.latest_taken {log : Log} (h : log.Lawful) (instanceId id : String) :
    (Service.takenQuery instanceId id).latest log.events = 0 ↔ log.about instanceId id = [] := by
  have hs : log.events.filter (Service.takenQuery instanceId id).wants =
      log.about instanceId id := by
    apply List.filter_congr
    intro e he
    obtain ⟨owner, ev, hev, hr⟩ := h.records he
    have htype : e.stream.type = "instance" ∨ e.stream.type = "org" := by
      rw [hr.stream]
      cases hsc : owner.scope <;> simp [Owner.stream, hsc, Scope.streamType]
    rw [Bool.eq_iff_iff]
    simp [Service.takenQuery, Query.wants, Alternative.wants, Alternative.agrees,
      Alternative.allows, Scope.streamType, htype]
  rcases (Service.takenQuery instanceId id).latest_spec log.events with ⟨hn, hl⟩ | ⟨e, he, hl, -⟩
  · rw [← hs, hn, hl]
    simp
  · have hpos := h.sound.sequence_pos (List.mem_of_mem_filter he)
    rw [← hs, ← hl]
    constructor
    · intro h0
      omega
    · intro hnil
      rw [hnil] at he
      cases he

namespace Service

open Log Program

variable {clock : Nat → Stamp} {log : Log} {owner other : Owner} {id : String} {life : Life}

/-- An event that may come next is stored where all streams are as expected. -/
lemma run_push (s : Service) (h : log.Lawful) (t : log.Tells owner id life) {ev : Event}
    {next : Life} (hm : life.Moves ev next) (hid : ev.id = id) {d : Draft}
    (hd : ev.draft (owner.stream id) = .ok d) {expectations : List Expectation}
    (he : ∀ c ∈ expectations, log.tail c.stream.name = c.expected) :
    ∃ details later, (s.push expectations d).run clock log = (.ok details, later) ∧
      log.Advances owner id next later := by
  obtain ⟨stored, later, hp⟩ := (push_ok_iff h.sound (clock log.events.length)
    ⟨s.editor, expectations, [d]⟩).mpr ⟨h.available, fun c hc =>
      (he c hc).symm.trans (Log.tail_eq h.sound _)⟩
  obtain ⟨e, rfl, -, -, -⟩ := push_single hp
  refine ⟨⟨e.sequence, e.createdAt, e.stream.resourceOwner⟩, later, ?_, h.push t hm hid hd hp⟩
  simp only [Service.push, run, hp]
  rfl

/-- The remover of an active provider finds the end of its stream. -/
lemma run_removeAttempt (s : Service) (h : log.Lawful) {k : Kind} {m : Bool}
    {c : Settings Sealed k} (t : log.Tells owner id (.live k m c)) :
    ∃ details later, (s.removeAttempt owner id).run clock log = (.ok details, later) ∧
      log.Advances owner id .gone later := by
  obtain ⟨b, hl, hb⟩ := h.load_removal t rfl
  have hst : ((Life.live k m c).seenBy owner owner).presence = .active := by simp [Life.presence]
  obtain ⟨d, hd⟩ : ∃ d, (Event.removed id).draft (owner.stream id) = .ok d := ⟨_, rfl⟩
  rw [removeAttempt, run_load_bind hl]
  simp only [hst, ne_eq, not_true_eq_false, if_false, hd]
  apply s.run_push h t .remove rfl hd
  simp [hb rfl]

lemma removeAttempt_refused (s : Service) (h : log.Lawful) (t : log.Tells owner id life)
    (hi : other.instanceId = owner.instanceId)
    (hn : ∀ k m c, life.seenBy owner other ≠ .live k m c) :
    (s.removeAttempt other id).run clock log = (.error (.refused (.unknown id)), log) := by
  obtain ⟨b, hl, -⟩ := h.load_removal t hi
  have hst : (life.seenBy owner other).presence ≠ .active := by
    intro ha
    cases hv : life.seenBy owner other with
    | live k m c => exact hn k m c hv
    | _ => simp [hv, Life.presence] at ha
  rw [removeAttempt, run_load_bind hl]
  simp only [ne_eq, hst, not_false_eq_true, if_true]
  rfl

/-- A provider is added under an id that is free. -/
lemma run_addAttempt (s : Service) (h : log.Lawful) (t : log.Tells owner id .vacant)
    (config : Config) (n : Nat) {c : Settings Sealed config.kind}
    (hc : config.settings.encrypted s.cipher (s.nonce n) = .ok c) {d : Draft}
    (hd : (Event.added config.kind id c).draft (owner.stream id) = .ok d) :
    ∃ details later, (s.addAttempt owner id config n).run clock log = (.ok details, later) ∧
      log.Advances owner id (.live config.kind false c) later := by
  have hn : log.about owner.instanceId id = [] := (Chronicle.vacant_iff t).mp rfl
  have hl := (h.latest_taken owner.instanceId id).mpr hn
  have hdraft : config.addedDraft s.cipher (s.nonce n) (owner.stream id) = .ok d :=
    Config.addedDraft_eq_ok.mpr ⟨c, hc, hd⟩
  have htail : ∀ scope : Scope, log.tail ⟨owner.instanceId, scope.streamType, id⟩ = 0 := by
    intro scope
    rw [t.tail_eq h.sound, hn]
    split <;> rfl
  rw [addAttempt, run_latest_bind h.available, hl, hdraft]
  apply s.run_push h t .add rfl hd
  intro c hc
  rcases List.mem_cons.mp hc with rfl | hc
  · exact htail owner.scope
  · rw [List.mem_singleton.mp hc]
    exact htail owner.scope.other

lemma addAttempt_taken (s : Service) (h : log.Lawful) (t : log.Tells owner id life)
    (hi : other.instanceId = owner.instanceId) (hn : life ≠ .vacant) (config : Config) (n : Nat) :
    (s.addAttempt other id config n).run clock log = (.error (.refused (.taken id)), log) := by
  have hl : 0 < (takenQuery other.instanceId id).latest log.events := by
    rw [Nat.pos_iff_ne_zero, ne_eq, h.latest_taken, hi]
    exact fun he => hn ((Chronicle.vacant_iff t).mpr he)
  rw [addAttempt, run_latest_bind h.available]
  simp only [hl, if_true]
  rfl

lemma addAttempt_invalid (s : Service) (h : log.Lawful) (t : log.Tells owner id .vacant)
    (config : Config) (n : Nat) {e : Error}
    (he : config.addedDraft s.cipher (s.nonce n) (owner.stream id) = .error e) :
    (s.addAttempt owner id config n).run clock log = (.error e, log) := by
  have hl := (h.latest_taken owner.instanceId id).mpr ((Chronicle.vacant_iff t).mp rfl)
  rw [addAttempt, run_latest_bind h.available, hl, he]
  rfl

/-- What an update makes of an active provider of the kind that is wanted. -/
lemma run_updateAttempt (s : Service) (h : log.Lawful) {config : Config} {m : Bool}
    {c : Settings Sealed config.kind} (t : log.Tells owner id (.live config.kind m c)) (n : Nat) :
    ∃ b : Base, ∀ clock, (s.updateAttempt owner id config n).run clock log =
      (Program.done ((⟨.active, c.map some⟩ : Provider config.kind).changedDraft? s.cipher
          (s.nonce n) (owner.stream id) config) >>= fun
        | none => pure (.ofBase b)
        | some d =>
          s.push [⟨owner.stream id, log.tail (owner.stream id).name⟩] d).run clock log := by
  obtain ⟨b, hl, hst, hb⟩ := h.load_live t
  refine ⟨b, fun clock => ?_⟩
  rw [← hb, ← hst]
  exact run_load_bind hl _

/-- An update stores what has to change. -/
lemma run_updateAttempt_changed (s : Service) (h : log.Lawful) {config : Config} {m : Bool}
    {c : Settings Sealed config.kind} (t : log.Tells owner id (.live config.kind m c)) (n : Nat)
    {cs : List (Change config.kind)}
    (hc : (c.map some).changes s.cipher (s.nonce n) config.settings = .ok cs) (hcs : cs ≠ [])
    {d : Draft} (hd : (Event.changed config.kind id (cs.foldl Revision.change .empty)).draft
      (owner.stream id) = .ok d) :
    ∃ details later, (s.updateAttempt owner id config n).run clock log = (.ok details, later) ∧
      log.Advances owner id
        (.live config.kind m (c.revise (cs.foldl Revision.change .empty))) later := by
  obtain ⟨b, hb⟩ := s.run_updateAttempt h t n
  rw [hb clock, Provider.changedDraft?_eq_some.mpr ⟨cs, hc, hcs, hd⟩]
  apply s.run_push h t .change rfl hd
  intro c hc
  rw [List.mem_singleton.mp hc]

lemma updateAttempt_refused (s : Service) (h : log.Lawful) (t : log.Tells owner id life)
    (hi : other.instanceId = owner.instanceId) {config : Config}
    (hn : ∀ m c, life.seenBy owner other ≠ .live config.kind m c) (n : Nat) :
    ∃ r, (s.updateAttempt other id config n).run clock log = (.error (.refused r), log) := by
  obtain ⟨b, p, hl, hp⟩ := h.load_inactive t hi hn
  rw [updateAttempt, run_load_bind hl]
  simp only
  cases hst : p.status with
  | active => exact absurd hst hp
  | migrated => exact ⟨_, rfl⟩
  | unspecified => exact ⟨_, rfl⟩
  | removed => exact ⟨_, rfl⟩

/-- An active provider of OpenID Connect is turned into one of another kind. -/
lemma run_migrateAttempt (s : Service) (h : log.Lawful) {c : Settings Sealed .oidc}
    (t : log.Tells owner id (.live .oidc false c)) (m : Migration) (n : Nat)
    {c' : Settings Sealed m.target.kind}
    (hc : m.settings.encrypted s.cipher (s.nonce n) = .ok c') {d : Draft}
    (hd : (Event.migrated m.target id c').draft (owner.stream id) = .ok d) :
    ∃ details later, (s.migrateAttempt owner id m n).run clock log = (.ok details, later) ∧
      log.Advances owner id (.live m.target.kind true c') later := by
  obtain ⟨b, hl, -, hb⟩ := h.load_live t
  have hdraft : m.draft s.cipher (s.nonce n) (owner.stream id) = .ok d :=
    Migration.draft_eq_ok.mpr ⟨c', hc, hd⟩
  rw [migrateAttempt, run_load_bind hl]
  simp only [hdraft, hb]
  apply s.run_push h t .migrate rfl hd
  intro c hc
  rw [List.mem_singleton.mp hc]

lemma migrateAttempt_invalid (s : Service) (h : log.Lawful) {b : Bool} {c : Settings Sealed .oidc}
    (t : log.Tells owner id (.live .oidc b c)) (m : Migration) (n : Nat) {e : Error}
    (he : m.draft s.cipher (s.nonce n) (owner.stream id) = .error e) :
    (s.migrateAttempt owner id m n).run clock log = (.error e, log) := by
  obtain ⟨b, hl, -, -⟩ := h.load_live t
  rw [migrateAttempt, run_load_bind hl]
  simp only [he]
  rfl

lemma migrateAttempt_refused (s : Service) (h : log.Lawful) (t : log.Tells owner id life)
    (hi : other.instanceId = owner.instanceId)
    (hn : ∀ m c, life.seenBy owner other ≠ .live .oidc m c) (m : Migration) (n : Nat) :
    ∃ r, (s.migrateAttempt other id m n).run clock log = (.error (.refused r), log) := by
  obtain ⟨b, p, hl, hp⟩ := h.load_inactive t hi hn
  rw [migrateAttempt, run_load_bind hl]
  simp only
  cases hst : p.status with
  | active => exact absurd hst hp
  | migrated => exact ⟨_, rfl⟩
  | unspecified => exact ⟨_, rfl⟩
  | removed => exact ⟨_, rfl⟩

/-- What an id stands for is found as long as its provider is active. -/
lemma run_discover (h : log.Lawful) (t : log.Tells owner id life) :
    (discover owner.instanceId id).run clock log =
      (match life with
        | .live k _ _ => .ok (k, owner)
        | _ => .error (.refused (.unknown id)), log) := by
  obtain ⟨b, hl⟩ := h.load_discovery t
  rw [discover, run_load_bind hl]
  cases life <;> rfl

lemma discover_refused (h : log.Lawful) (t : log.Tells owner id life)
    (hn : ∀ k m c, life ≠ .live k m c) :
    (discover owner.instanceId id).run clock log = (.error (.refused (.unknown id)), log) := by
  rw [run_discover h t]
  cases life with
  | live k m c => exact absurd rfl (hn k m c)
  | _ => rfl

/-- A client is made of what is stored of an active provider. -/
lemma run_client (s : Service) (h : log.Lawful) {k : Kind} {m : Bool} {c : Settings Sealed k}
    (t : log.Tells owner id (.live k m c)) (callback : String) :
    (s.client owner.instanceId id callback).run clock log =
      ((⟨.active, c.map some⟩ : Provider k).client s.cipher id callback, log) := by
  obtain ⟨b, hl, -, -⟩ := h.load_live t
  refine (run_bind clock _ _ log).trans ?_
  rw [run_discover h t]
  exact run_load_bind hl _

lemma client_refused (s : Service) (h : log.Lawful) (t : log.Tells owner id life)
    (hn : ∀ k m c, life ≠ .live k m c) (callback : String) :
    (s.client owner.instanceId id callback).run clock log =
      (.error (.refused (.unknown id)), log) := by
  refine (run_bind clock _ _ log).trans ?_
  rw [discover_refused h t hn]

end Service
end Federation
