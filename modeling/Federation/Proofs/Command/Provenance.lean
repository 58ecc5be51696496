import Federation.Proofs.Command.Appending
import Federation.Proofs.Provider.Differences
import Federation.Proofs.Provider.Replay

/-!
Where stored secrets come from. The secret of an active provider is the text that some command gave
for it; no command stores an empty one, and only updates store one that is blank.
-/
namespace Federation

namespace Records

variable {owner other : Owner} {id about : String} {e : LogEntry} {ev ev' : Event}

/-- An entry holds one event about one provider. -/
lemma unique (h : Records owner id e ev) (hev : ev.isEarly = false)
    (h' : Records other about e ev') (hev' : ev'.isEarly = false) :
    owner = other ∧ id = about ∧ ev = ev' := by
  obtain ⟨hp, hs, ht⟩ := h.payload_stream_type
  obtain ⟨hp', hs', ht'⟩ := h'.payload_stream_type
  obtain ⟨ho, hi⟩ := Owner.stream_eq_iff.mp (hs.symm.trans hs')
  have htag : ev.tag = ev'.tag := Tag.name_injective (ht.symm.trans ht')
  have hd := (Event.decode_payload hev hp).1
  rw [htag, (Event.decode_payload hev' hp').1] at hd
  exact ⟨ho, hi, (Except.ok.inj hd).symm⟩

end Records

namespace Settings

variable {cipher : Cipher} {nonce : Nonce} {s : Settings String k} {c : Settings Sealed k}

lemma secret?_eq (s : Settings S k) (h : k.hasSecret = true) : s.secret? = some (s.secret h) :=
  dif_pos h

lemma secret?_eq_some {s : Settings S k} {v : S} :
    s.secret? = some v ↔ ∃ h, s.secret h = v := by
  unfold secret?
  split
  · next h => simp [h]
  · next h => simp [h]

lemma secret_of_encrypted (h : s.encrypted cipher nonce = .ok c) (hs : k.hasSecret = true) :
    Text.isBlank (s.secret hs) = false ∧
      cipher.protectText nonce (s.secret hs) = .ok (c.secret hs) := by
  unfold encrypted at h
  rw [dif_pos hs] at h
  split at h
  · cases h
  · next hb =>
    obtain ⟨v, hv, rfl⟩ := map_eq_ok.mp h
    exact ⟨by simpa using hb, Error.ofCipher_eq_ok.mp hv⟩

/-- New settings are stored with the secret that was given, which is not blank. -/
lemma secret?_of_encrypted (h : s.encrypted cipher nonce = .ok c) {v : Sealed}
    (hv : c.secret?.map some = some (some v)) : ∃ text, s.secret? = some text ∧
      cipher.protectText nonce text = .ok v ∧ Text.isBlank text = false := by
  obtain ⟨w, hw, hwv⟩ := Option.map_eq_some_iff.mp hv
  obtain rfl := Option.some.inj hwv
  obtain ⟨hs, rfl⟩ := secret?_eq_some.mp hw
  obtain ⟨hb, hp⟩ := secret_of_encrypted h hs
  exact ⟨_, secret?_eq s hs, hp, hb⟩

end Settings

namespace Event

variable {j k : Kind} (hs : k.hasSecret = true)

lemma carriedSecret_added (id : String) (c : Settings Sealed k) :
    (added k id c).carriedSecret j = some (some (c.secret hs)) := by
  rw [carriedSecret, Settings.secret?_eq c hs]
  rfl

lemma carriedSecret_changed (id : String) (r : Revision Sealed k) :
    (changed k id r).carriedSecret j = (r.secret hs).map some := by
  rw [carriedSecret, Revision.secret?_eq r hs]

lemma carriedSecret_migrated {t : Target} (hs : t.kind.hasSecret = true) (id : String)
    (c : Settings Sealed t.kind) :
    (migrated t id c).carriedSecret t.kind = some (some (c.secret hs)) := by
  rw [carriedSecret, if_pos rfl, Settings.secret?_eq c hs]
  rfl

end Event

/-- The secret of a live provider is the one that some event of its history gave. -/
lemma Chronicle.exists_secret {owner : Owner} {id : String} {es : List LogEntry} {k : Kind}
    {m : Bool} {c : Settings Sealed k} (h : Chronicle owner id es (.live k m c))
    (hs : k.hasSecret = true) : ∃ e ∈ es, ∃ ev, ev.isEarly = false ∧ Records owner id e ev ∧
      ev.carriedSecret k = some (some (c.secret hs)) := by
  -- over all settings, since an event that gives no secret leaves that of the settings before
  generalize hl : Life.live k m c = life at h
  induction h generalizing m c with
  | nil => cases hl
  | @snoc es life e ev later h hm hr ih =>
    subst hl
    have hlast : e ∈ es ++ [e] := List.mem_append_right _ List.mem_cons_self
    have hev := hm.isEarly
    cases hm with
    | add => exact ⟨e, hlast, _, hev, hr, Event.carriedSecret_added hs _ _⟩
    | migrate => exact ⟨e, hlast, _, hev, hr, Event.carriedSecret_migrated hs _ _⟩
    | @change _ _ old _ r =>
      cases hv : r.secret hs with
      | none =>
        have hsame : (old.revise r).secret hs = old.secret hs := by simp [Settings.revise, hv]
        obtain ⟨e', he', hrest⟩ := ih rfl
        exact ⟨e', List.mem_append_left _ he', hsame ▸ hrest⟩
      | some v =>
        have hnew : (old.revise r).secret hs = v := by simp [Settings.revise, hv]
        refine ⟨e, hlast, _, hev, hr, ?_⟩
        rw [Event.carriedSecret_changed hs, hv, hnew]
        rfl

/-- The secret that a command gives for its provider. -/
def Command.secret? : Command → Option String
  | .add _ _ config | .update _ _ config => config.settings.secret?
  | .migrate _ _ m => m.settings.secret?
  | _ => none

/-- A secret that is drawn up for storage is made of the text that the command gives; it is not
empty, and not blank unless the command is an update. -/
lemma Service.Draws.secret {s : Service} {command : Command} {owner : Owner} {id : String}
    {ev : Event} (h : s.Draws command owner id ev) {k : Kind} {v : Sealed}
    (hv : ev.carriedSecret k = some (some v)) :
    ∃ text nonce, command.secret? = some text ∧ s.cipher.protectText nonce text = .ok v ∧
      text ≠ "" ∧ (Text.isBlank text = true → ∃ config, command = .update owner id config) := by
  cases h with
  | add hc =>
    obtain ⟨text, ht, hp, hb⟩ := Settings.secret?_of_encrypted hc hv
    exact ⟨text, _, ht, hp, Text.ne_empty_of_not_blank hb, fun hn => by cases hb.symm.trans hn⟩
  | @migrate _ _ m n c hc =>
    rw [Event.carriedSecret] at hv
    split at hv
    · obtain ⟨text, ht, hp, hb⟩ := Settings.secret?_of_encrypted hc hv
      exact ⟨text, _, ht, hp, Text.ne_empty_of_not_blank hb, fun hn => by cases hb.symm.trans hn⟩
    · cases hv
  | @update _ _ config n cs p hcs =>
    obtain ⟨w, hw, hwv⟩ := Option.map_eq_some_iff.mp hv
    obtain rfl := Option.some.inj hwv
    obtain ⟨hs, hsw⟩ := Revision.secret?_eq_some.mp hw
    obtain ⟨hne, hp⟩ := (Settings.secret_of_changes hcs).mp hsw
    exact ⟨_, _, Settings.secret?_eq _ hs, hp, hne, fun _ => ⟨config, rfl⟩⟩
  | remove => cases hv

namespace Board

variable {clock : Nat → Stamp} {commands : List Invocation} {e : LogEntry}

/-- What commands have left in an empty log they have drafted. -/
lemma drafted (schedule : List Nat)
    (he : e ∈ ((start {} commands).run clock schedule).log.events) :
    ∃ i ∈ commands, i.Drafts e.draft := by
  have htask : ∀ p ∈ (start {} commands).tasks,
      p.Appends fun d => ∃ i ∈ commands, i.Drafts d := by
    intro p hp
    obtain ⟨i, hi, rfl⟩ := List.mem_map.mp hp
    exact i.appends.imp fun d hd => ⟨i, hi, hd⟩
  have hg : Log.Gains _ {} ((start {} commands).run clock schedule).log :=
    gains_run htask schedule
  obtain ⟨es, hes, hall⟩ := hg.appended
  rw [hes] at he
  exact hall e he

end Board

/-- Whatever commands have done to an empty log with a cipher that can be undone: an active provider
of a kind with a secret has one, and it is the text that a command about this provider gave. It is
not empty, and where it is blank that command is an update. -/
theorem active_secrets_given {cipher : Cipher} (hc : cipher.Undoes) (clock : Nat → Stamp)
    {commands : List Invocation} (hcipher : ∀ i ∈ commands, i.service.cipher = cipher)
    (schedule : List Nat) {k : Kind} (hk : k.hasSecret = true) (owner : Owner) (id : String) :
    ∃ (b : Base) (p : Provider k),
      (View.ofKind k owner id).load ((View.ofKind k owner id).fresh (.ofOwner owner id))
        ((Board.start {} commands).run clock schedule).log = (⟨b, p, []⟩, .ok ()) ∧
      (p.status = .active → ∃ v text, p.settings.secret hk = some v ∧
        cipher.revealText v = .ok text ∧ text ≠ "" ∧
        ∃ i ∈ commands, i.command.subject? = some (owner, id) ∧ i.command.secret? = some text ∧
          (Text.isBlank text = true → ∃ config, i.command = .update owner id config)) := by
  have hl := Board.lawful_run clock commands schedule
  obtain ⟨other, life, hi, t⟩ := hl.told owner.instanceId id
  obtain ⟨b, p, hload, hshows, -, -⟩ := hl.load_provider t hi.symm k
  refine ⟨b, p, hload, fun ha => ?_⟩
  obtain ⟨m, c, hlive, rfl⟩ := hshows.of_active ha
  obtain ⟨rfl, rfl⟩ := Life.seenBy_eq_live hlive
  -- the event that gave the secret is in the log, so some command has drafted it
  obtain ⟨e, he, ev, hev, hr, hgiven⟩ := Chronicle.exists_secret t hk
  obtain ⟨i, him, owner', id', ev', hd, hdraft⟩ := Board.drafted schedule (Log.mem_about.mp he).1
  obtain ⟨rfl, rfl, rfl⟩ := hr.unique hev ⟨hd.names, hdraft⟩ hd.isEarly
  obtain ⟨text, nonce, ht, hp, hne, hblank⟩ := hd.secret hgiven
  rw [hcipher i him] at hp
  exact ⟨c.secret hk, text, rfl, hc.revealText hp, hne, i, him, hd.subject, ht, hblank⟩

namespace Sample

/-- A provider is added with a secret and then given a blank one. -/
def blanking : List Invocation :=
  [⟨plainService, .add (.ofInstance "instance") "id" ⟨.google, withSecret "secret"⟩⟩,
    ⟨plainService, .update (.ofInstance "instance") "id" ⟨.google, withSecret " "⟩⟩]

lemma cipher_of_blanking : ∀ i ∈ blanking, i.service.cipher = Cipher.plain := by
  simp [blanking, plainService]

end Sample

/-- Before the update the secret is the one that was given first. -/
theorem active_secrets_given_first :
    Cipher.plain.Undoes ∧ (∀ i ∈ Sample.blanking, i.service.cipher = Cipher.plain) ∧
    ∃ (b : Base) (p : Provider .google),
      (View.ofKind .google (.ofInstance "instance") "id").load
          ((View.ofKind .google (.ofInstance "instance") "id").fresh
            (.ofOwner (.ofInstance "instance") "id"))
          ((Board.start {} Sample.blanking).run Sample.stopped [0, 0]).log =
        (⟨b, p, []⟩, .ok ()) ∧
      p.status = .active ∧
      ∃ v text, p.settings.secret rfl = some v ∧ Cipher.plain.revealText v = .ok text ∧
        text = "secret" := by
  obtain ⟨b, p, hload, hp⟩ := active_secrets_given Cipher.plain_undoes Sample.stopped
    Sample.cipher_of_blanking [0, 0] (k := .google) rfl (.ofInstance "instance") "id"
  have hst : p.status = .active := by
    cases hload
    decide +kernel
  obtain ⟨v, text, hv, ht, -⟩ := hp hst
  have hfirst : p.settings.secret rfl = some ⟨.encryption, "none", "key", Text.utf8 "secret"⟩ := by
    cases hload
    rfl
  obtain rfl := Option.some.inj (hfirst.symm.trans hv)
  exact ⟨Cipher.plain_undoes, Sample.cipher_of_blanking, b, p, hload, hst, _, text, hv, ht,
    (Except.ok.inj ht).symm⟩

/-- The update leaves the provider active, with a secret of nothing but a space. -/
theorem blank_secret_stored :
    Cipher.plain.Undoes ∧ (∀ i ∈ Sample.blanking, i.service.cipher = Cipher.plain) ∧
    ∃ (b : Base) (p : Provider .google),
      (View.ofKind .google (.ofInstance "instance") "id").load
          ((View.ofKind .google (.ofInstance "instance") "id").fresh
            (.ofOwner (.ofInstance "instance") "id"))
          ((Board.start {} Sample.blanking).run Sample.stopped [0, 0, 1, 1]).log =
        (⟨b, p, []⟩, .ok ()) ∧
      p.status = .active ∧
      ∃ v, p.settings.secret rfl = some v ∧ Cipher.plain.revealText v = .ok " " ∧
        Text.isBlank " " = true :=
  ⟨Cipher.plain_undoes, Sample.cipher_of_blanking, _, _, rfl, rfl, _, rfl, rfl, by decide⟩

end Federation
