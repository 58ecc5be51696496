import Federation.Proofs.Provider.History

/-!
What a history says of a provider. Each field has the value that was told last, up to the removal
that ends the life of the provider; what is told afterwards counts no more.
-/
namespace Federation

/-- The value that is given last, or else the one before. -/
def lastGiven (given : α → Option β) (before : β) (l : List α) : β :=
  ((l.filterMap given).getLast?).getD before

lemma lastGiven_cons (given : α → Option β) (before : β) (a : α) (l : List α) :
    lastGiven given before (a :: l) = lastGiven given ((given a).getD before) l := by
  unfold lastGiven
  cases h : given a with
  | none => rw [List.filterMap_cons_none h, Option.getD_none]
  | some b =>
    rw [List.filterMap_cons_some h, List.getLast?_cons, Option.getD_some, Option.getD_some]

namespace Revision

variable {k : Kind} {S : Type} {r : Revision S k} {f g : Field} {hf : f ∈ k.fields}

@[simp] lemma empty_plain : (empty : Revision S k).plain f hf = none := rfl

@[simp] lemma give_plain (v : f.Value) : (r.give f v).plain f hf = some v := dif_pos rfl

@[simp] lemma give_plain_of_ne (h : g ≠ f) (v : g.Value) :
    (r.give g v).plain f hf = r.plain f hf := dif_neg h

@[simp] lemma giveSome_plain (v : Option f.Value) :
    (r.giveSome f v).plain f hf = v.or (r.plain f hf) := by
  cases v with
  | none => rfl
  | some v => exact give_plain v

@[simp] lemma giveSome_plain_of_ne (h : g ≠ f) (v : Option g.Value) :
    (r.giveSome g v).plain f hf = r.plain f hf := by
  cases v with
  | none => rfl
  | some v => exact give_plain_of_ne h v

end Revision

namespace Event

/-- What early events of all protocols carry. -/
def configValue (name : Option (Field.Value .name))
    (autoRegister : Option (Field.Value (.option .autoCreation))) : (f : Field) → Option f.Value
  | .name => name
  | .option .autoCreation => autoRegister
  | _ => none

/-- What early events of OpenID Connect carry. -/
def oidcValue (clientId : Option (Field.Value .clientId)) (issuer : Option (Field.Value .issuer))
    (scopes : Option (Field.Value .scopes)) : (f : Field) → Option f.Value
  | .clientId => clientId
  | .issuer => issuer
  | .scopes => scopes
  | _ => none

/-- What early events of JWT carry. -/
def jwtValue (jwtEndpoint : Option (Field.Value .jwtEndpoint))
    (issuer : Option (Field.Value .issuer)) (keysEndpoint : Option (Field.Value .keysEndpoint))
    (headerName : Option (Field.Value .headerName)) : (f : Field) → Option f.Value
  | .jwtEndpoint => jwtEndpoint
  | .issuer => issuer
  | .keysEndpoint => keysEndpoint
  | .headerName => headerName
  | _ => none

/-- The value that an event carries for a field, to a reader of a kind. A migration carries all
fields of the target, and nothing to the readers of what was left. -/
def carried (k : Kind) (f : Field) : Event → Option f.Value
  | .added l _ s => if h : f ∈ l.fields then some (s.plain f h) else none
  | .changed l _ r => if h : f ∈ l.fields then r.plain f h else none
  | .migrated t _ s =>
    if h : t.kind = k ∧ f ∈ t.kind.fields then some (s.plain f h.2) else none
  | .removed _ | .configRemoved _ => none
  | .configAdded _ name _ autoRegister => configValue (some name) (some autoRegister) f
  | .configChanged _ name autoRegister => configValue name autoRegister f
  | .oidcConfigAdded _ clientId _ issuer scopes =>
    oidcValue (some clientId) (some issuer) (some scopes) f
  | .oidcConfigChanged _ clientId _ issuer scopes => oidcValue clientId issuer scopes f
  | .jwtConfigAdded _ jwtEndpoint issuer keysEndpoint headerName =>
    jwtValue (some jwtEndpoint) (some issuer) (some keysEndpoint) (some headerName) f
  | .jwtConfigChanged _ jwtEndpoint issuer keysEndpoint headerName =>
    jwtValue jwtEndpoint issuer keysEndpoint headerName f

/-- What an event makes of the stored secret: another one, or none. -/
def carriedSecret (k : Kind) : Event → Option (Option Sealed)
  | .added _ _ s => s.secret?.map some
  | .changed _ _ r => r.secret?.map some
  | .migrated t _ s => if t.kind = k then s.secret?.map some else none
  | .oidcConfigAdded _ _ secret _ _ => some secret
  | .oidcConfigChanged _ _ secret _ _ => secret.map some
  | _ => none

variable {k : Kind} {ev : Event} {S : Type} {f : Field} {hf : f ∈ k.fields}

lemma configValue_eq (name : Option (Field.Value .name))
    (autoRegister : Option (Field.Value (.option .autoCreation))) :
    ((Revision.empty.giveSome .name name).giveSome (.option .autoCreation) autoRegister :
      Revision S k).plain f hf = configValue name autoRegister f := by
  cases f with
  | option p => cases p <;> simp [configValue]
  | _ => simp [configValue]

lemma oidcValue_eq (clientId : Option (Field.Value .clientId))
    (r : Revision S k → Revision S k) (hr : ∀ q, (r q).plain = q.plain)
    (issuer : Option (Field.Value .issuer)) (scopes : Option (Field.Value .scopes)) :
    (((r (Revision.empty.giveSome .clientId clientId)).giveSome .issuer issuer).giveSome
      .scopes scopes).plain f hf = oidcValue clientId issuer scopes f := by
  cases f <;> simp [oidcValue, hr]

lemma jwtValue_eq (jwtEndpoint : Option (Field.Value .jwtEndpoint))
    (issuer : Option (Field.Value .issuer)) (keysEndpoint : Option (Field.Value .keysEndpoint))
    (headerName : Option (Field.Value .headerName)) :
    ((((Revision.empty.giveSome .jwtEndpoint jwtEndpoint).giveSome .issuer issuer).giveSome
      .keysEndpoint keysEndpoint).giveSome .headerName headerName : Revision S k).plain f hf =
        jwtValue jwtEndpoint issuer keysEndpoint headerName f := by
  cases f <;> simp [jwtValue]

lemma writes_plain (ht : ev.tag ∈ k.readTags) (f : Field) (hf : f ∈ k.fields) :
    (ev.writes k).plain f hf = ev.carried k f := by
  cases ev with
  | added l id s =>
    obtain rfl := Kind.added_mem_readTags.mp ht
    rw [writes_added, carried, dif_pos hf]
    rfl
  | changed l id r =>
    obtain rfl := Kind.changed_mem_readTags.mp ht
    rw [writes_changed, carried, dif_pos hf]
    rfl
  | migrated t id s =>
    by_cases h : t.kind = k
    · subst h
      rw [writes_migrated, carried, dif_pos ⟨rfl, hf⟩]
      rfl
    · rw [writes_migrated_of_ne h, carried, dif_neg fun hn => h hn.1]
      rfl
  | removed | configRemoved => rfl
  | configAdded _ name _ autoRegister => exact configValue_eq (some name) (some autoRegister)
  | configChanged => exact configValue_eq _ _
  | oidcConfigAdded _ clientId secret issuer scopes =>
    exact oidcValue_eq (some clientId) (·.giveSecret secret) (fun _ => rfl) (some issuer)
      (some scopes)
  | oidcConfigChanged _ _ secret =>
    refine oidcValue_eq _ (·.giveSomeSecret (secret.map some)) (fun q => ?_) _ _
    cases secret <;> rfl
  | jwtConfigAdded _ jwtEndpoint issuer keysEndpoint headerName =>
    exact jwtValue_eq (some jwtEndpoint) (some issuer) (some keysEndpoint) (some headerName)
  | jwtConfigChanged => exact jwtValue_eq _ _ _ _

lemma writes_secret (ht : ev.tag ∈ k.readTags) (hs : k.hasSecret = true) :
    (ev.writes k).secret hs = ev.carriedSecret k := by
  cases ev with
  | added l id s =>
    obtain rfl := Kind.added_mem_readTags.mp ht
    rw [writes_added, carriedSecret, Settings.secret?, dif_pos hs]
    rfl
  | changed l id r =>
    obtain rfl := Kind.changed_mem_readTags.mp ht
    rw [writes_changed, carriedSecret, Revision.secret?, dif_pos hs]
    rfl
  | migrated t id s =>
    by_cases h : t.kind = k
    · subst h
      rw [writes_migrated, carriedSecret, if_pos rfl, Settings.secret?, dif_pos hs]
      rfl
    · rw [writes_migrated_of_ne h, carriedSecret, if_neg h]
      rfl
  | oidcConfigChanged id clientId secret issuer scopes => cases secret <;> rfl
  | _ => rfl

end Event

/-- Where the life of a provider is after an event, to a reader of a kind. -/
def Status.after (k : Kind) : Status → Event → Status
  | .unspecified, .added .. | .unspecified, .configAdded .. => .active
  | .unspecified, .migrated t .. => if t.kind = k then .active else .unspecified
  | .active, .migrated t .. => if t.kind = k then .active else .migrated
  | .active, .removed _ | .active, .configRemoved _ => .removed
  | .migrated, .removed _ | .migrated, .configRemoved _ => .removed
  | s, _ => s

/-- The events up to the first removal that meets a provider, that one included. -/
def Event.lifetime (k : Kind) : Status → List Event → List Event
  | _, [] => []
  | s, ev :: h =>
    if ev.isRemoved && s.exists? then [ev] else ev :: lifetime k (s.after k ev) h

namespace Status

variable {k : Kind} {s : Status} {ev : Event}

lemma after_eq : s.after k ev = ((ev.asks k).map s.transition).getD s := by
  cases ev with
  | migrated t => cases s <;> simp only [after, Event.asks] <;> split <;> rfl
  | _ => cases s <;> rfl

/-- Only a removal that meets a provider removes one. -/
lemma after_eq_removed (hs : s ≠ .removed) :
    s.after k ev = .removed ↔ (ev.isRemoved && s.exists?) = true := by
  cases s with
  | removed => exact absurd rfl hs
  | migrated => cases ev <;> simp [after, Event.isRemoved, exists?]
  | _ =>
    cases ev with
    | migrated t => simp only [after]; split <;> simp [Event.isRemoved]
    | _ => simp [after, Event.isRemoved, exists?]

end Status

namespace Provider

variable {k : Kind} {p q : Provider k} {ev : Event} {h : List Event}

/-- A provider as the events of its life have left it. -/
structure Replays (p : Provider k) (h : List Event) (q : Provider k) : Prop where
  plain : ∀ f hf, q.settings.plain f hf = lastGiven (Event.carried k f) (p.settings.plain f hf) h
  secret : ∀ hs, q.settings.secret hs =
    lastGiven (Event.carriedSecret k) (p.settings.secret hs) h
  status : q.status = h.foldl (Status.after k) p.status

lemma apply_of_ne (hp : p.status ≠ .removed) (ev : Event) :
    p.apply ev = ⟨p.status.after k ev, p.settings.revise (ev.writes k)⟩ := by
  rw [Status.after_eq]
  exact if_neg hp

lemma Replays.refl (p : Provider k) : p.Replays [] p := ⟨fun _ _ => rfl, fun _ => rfl, rfl⟩

lemma Replays.cons (ht : ev.tag ∈ k.readTags) (hp : p.status ≠ .removed)
    (hq : (p.apply ev).Replays h q) : p.Replays (ev :: h) q := by
  rw [apply_of_ne hp] at hq
  constructor
  · intro f hf
    rw [lastGiven_cons, ← Event.writes_plain ht f hf]
    exact hq.plain f hf
  · intro hs
    rw [lastGiven_cons, ← Event.writes_secret ht hs]
    exact hq.secret hs
  · exact hq.status

lemma foldl_apply_of_removed (hp : p.status = .removed) (h : List Event) :
    h.foldl (fun p ev => p.apply ev) p = p := by
  induction h with
  | nil => rfl
  | cons ev h ih => rw [List.foldl_cons, apply_of_removed hp, ih]

/-- A provider is what the events of its life make of it. -/
lemma replays_lifetime (hp : p.status ≠ .removed) (ht : ∀ ev ∈ h, ev.tag ∈ k.readTags) :
    p.Replays (Event.lifetime k p.status h) (h.foldl (fun p ev => p.apply ev) p) := by
  -- over any provider that is not removed, since the first event may leave it in another status
  induction h generalizing p with
  | nil => exact .refl p
  | cons ev h ih =>
    obtain ⟨hev, hh⟩ := List.forall_mem_cons.mp ht
    have hs : (p.apply ev).status = p.status.after k ev := by rw [apply_of_ne hp]
    rw [List.foldl_cons, Event.lifetime]
    split
    · next hr =>
      have hrem := hs.trans ((Status.after_eq_removed hp).mpr hr)
      rw [foldl_apply_of_removed hrem]
      exact .cons hev hp (.refl _)
    · next hr =>
      have hne : (p.apply ev).status ≠ .removed := fun hn =>
        hr ((Status.after_eq_removed hp).mp (hs ▸ hn))
      exact .cons hev hp (hs ▸ ih hne hh)

/-- A life is over if its last event is a removal that met a provider. -/
lemma lifetime_over {s : Status} (hs : s ≠ .removed) :
    (Event.lifetime k s h).foldl (Status.after k) s = .removed ↔
      ∃ before r, Event.lifetime k s h = before ++ [r] ∧ r.isRemoved = true ∧
        (before.foldl (Status.after k) s).exists? = true := by
  induction h generalizing s with
  | nil => simp [Event.lifetime, hs]
  | cons ev h ih =>
    rw [Event.lifetime]
    split
    · next hr =>
      obtain ⟨hrem, hex⟩ := Bool.and_eq_true_iff.mp hr
      exact ⟨fun _ => ⟨[], ev, rfl, hrem, hex⟩, fun _ => (Status.after_eq_removed hs).mpr hr⟩
    · next hr =>
      rw [List.foldl_cons, ih fun hn => hr ((Status.after_eq_removed hs).mp hn)]
      constructor
      · rintro ⟨before, r, he, hrem, hex⟩
        exact ⟨ev :: before, r, by rw [he, List.cons_append], hrem, hex⟩
      · rintro ⟨before, r, he, hrem, hex⟩
        cases before with
        | nil =>
          obtain ⟨rfl, -⟩ := List.cons.inj he
          exact absurd (Bool.and_eq_true_iff.mpr ⟨hrem, hex⟩) hr
        | cons ev' before =>
          obtain ⟨rfl, hrest⟩ := List.cons.inj he
          exact ⟨before, r, hrest, hrem, hex⟩

/-- The events that entries tell the readers of a kind; entries of other types tell them none. -/
def told (k : Kind) (es : List LogEntry) : List Event :=
  es.filterMap fun e => (Event.recognise k.readTags e.type e.payload).toOption.join

lemma tag_mem_of_told (es : List LogEntry) : ∀ ev ∈ told k es, ev.tag ∈ k.readTags := by
  intro ev hev
  obtain ⟨e, -, he⟩ := List.mem_filterMap.mp hev
  cases hr : Event.recognise k.readTags e.type e.payload with
  | error f => simp [hr, Except.toOption] at he
  | ok o =>
    simp only [hr, Except.toOption, Option.join_some] at he
    exact Event.tag_mem_of_recognise (he ▸ hr)

lemma run_told {es : List LogEntry}
    (hread : ∀ e ∈ es, ∃ o, Event.recognise k.readTags e.type e.payload = .ok o)
    (p : Provider k) :
    (fold k).run p es = ((told k es).foldl (fun p ev => p.apply ev) p, none) := by
  induction es generalizing p with
  | nil => rfl
  | cons e es ih =>
    obtain ⟨⟨o, ho⟩, hes⟩ := List.forall_mem_cons.mp hread
    have hf : (fold k).recognise e = .ok o := ho
    cases o with
    | none =>
      rw [told, List.filterMap_cons_none (by rw [ho]; rfl)]
      simp only [Fold.run, hf]
      exact ih hes p
    | some ev =>
      rw [told, List.filterMap_cons_some (by rw [ho]; rfl), List.foldl_cons]
      simp only [Fold.run, hf]
      exact ih hes (p.apply ev)

/-- The part of what entries tell that makes the provider what it is. -/
def lifetime (k : Kind) (es : List LogEntry) : List Event :=
  Event.lifetime k .unspecified (told k es)

end Provider

/-- Each field of a provider has the value that its history told last, up to the removal that ended
its life, or else its initial value; so has its secret, where an event may also have cleared it. Its
status is where the events of its life have led. Entries that its kind does not know make no
difference, and after a removal none do. -/
theorem replay_last_wins {k : Kind} {es : List LogEntry}
    (hread : ∀ e ∈ es, ∃ o, Event.recognise k.readTags e.type e.payload = .ok o)
    (scope : Scope) (id : String) (base : Base) :
    ∃ p : Provider k,
      (View.provider k scope id).read ((View.provider k scope id).fresh base) es =
        (⟨base.advance es, p, []⟩, .ok ()) ∧
      (∀ f hf, p.settings.plain f hf =
        lastGiven (Event.carried k f) f.shape.initial (Provider.lifetime k es)) ∧
      (∀ hs, p.settings.secret hs =
        lastGiven (Event.carriedSecret k) none (Provider.lifetime k es)) ∧
      p.status = (Provider.lifetime k es).foldl (Status.after k) .unspecified ∧
      (p.status = .removed ↔ ∃ before r, Provider.lifetime k es = before ++ [r] ∧
        r.isRemoved = true ∧ (before.foldl (Status.after k) .unspecified).exists? = true) ∧
      (View.provider k scope id).read ((View.provider k scope id).fresh base)
          (es.filter fun e => e.type ∈ k.readTags.map Tag.name) =
        (⟨base.advance (es.filter fun e => e.type ∈ k.readTags.map Tag.name), p, []⟩, .ok ()) ∧
      (p.status = .removed → ∀ later : List LogEntry,
        (∀ e ∈ later, ∃ o, Event.recognise k.readTags e.type e.payload = .ok o) →
        ∀ b : Base, (View.provider k scope id).read ⟨b, p, []⟩ later =
          (⟨b.advance later, p, []⟩, .ok ())) := by
  have hrun := Provider.run_told hread {}
  have hp : ({} : Provider k).status ≠ .removed := nofun
  have hr := Provider.replays_lifetime hp (Provider.tag_mem_of_told es)
  refine ⟨_, View.read_fresh hrun, hr.plain, hr.secret, hr.status, ?_, ?_, ?_⟩
  · rw [hr.status]
    exact Provider.lifetime_over hp
  · apply View.read_fresh
    refine (Fold.run_filter (Provider.fold k) _ fun e _ he => ?_).trans hrun
    exact Event.recognise_unknown (by simpa using he)
  · intro hrem later hlater b
    apply View.read_reduced
    refine (Provider.run_told hlater _).trans ?_
    rw [Provider.foldl_apply_of_removed hrem]
    rfl

namespace Early

/-- An entry of some type about the provider. -/
def further (type : String) (more : Entries) : LogEntry :=
  { entry .oidc with type := type, payload := .ofEntries (("idpConfigId", .string "id") :: more) }

/-- A provider that is added, renamed and removed; then it is renamed and added again. -/
def renamed : List LogEntry := [
  entry .oidc,
  further Tag.configChanged.name [("name", .string "second")],
  further "idp.unknown" [("name", .string "unheard")],
  further Tag.configRemoved.name [],
  further Tag.configChanged.name [("name", .string "third")],
  entry .oidc]

lemma renamed_read : ∀ e ∈ renamed, ∃ o,
    Event.recognise Kind.oidc.readTags e.type e.payload = .ok o := by
  simp only [renamed, List.forall_mem_cons]
  exact ⟨⟨_, rfl⟩, ⟨_, rfl⟩, ⟨_, rfl⟩, ⟨_, rfl⟩, ⟨_, rfl⟩, ⟨_, rfl⟩, nofun⟩

lemma lifetime_renamed : Provider.lifetime .oidc renamed =
    [.configAdded "id" "name" .oidc false, .configChanged "id" (some "second") none,
      .configRemoved "id"] := rfl

end Early

/-- The name is the last one told before the removal. -/
theorem replay_last_wins_renamed :
    (∀ e ∈ Early.renamed, ∃ o, Event.recognise Kind.oidc.readTags e.type e.payload = .ok o) ∧
    ∃ p : Provider .oidc,
      (View.ofKind .oidc Early.owner "id").read
          ((View.ofKind .oidc Early.owner "id").fresh (.ofOwner Early.owner "id")) Early.renamed =
        (⟨(Base.ofOwner Early.owner "id").advance Early.renamed, p, []⟩, .ok ()) ∧
      p.settings.get .name = "second" ∧ p.status = .removed := by
  refine ⟨Early.renamed_read, ?_⟩
  obtain ⟨p, hp, hplain, -, hstatus, -⟩ := replay_last_wins Early.renamed_read
    Early.owner.scope "id" (.ofOwner Early.owner "id")
  rw [Early.lifetime_renamed] at hplain hstatus
  exact ⟨p, hp, hplain .name (by decide), hstatus⟩

end Federation
