import Federation.Proofs.Command.Appending
import Federation.Proofs.Provider.Validity

/-!
Secrets go through the cipher. Of two configurations that differ in their secrets alone, and of
whose secrets the cipher makes the same, commands make the same too: nothing else that they store,
answer or compare depends on a secret.
-/
namespace Federation

namespace Settings

/-- The same fields, and secrets that are not blank and that the cipher turns into the same. -/
structure Alike (cipher : Cipher) (nonce : Nonce) (s t : Settings String k) : Prop where
  plain : s.plain = t.plain
  guarded : s.isGuarded = true ∧ t.isGuarded = true
  encrypt : ∀ h, cipher.encrypt nonce (Text.utf8 (s.secret h)) =
    cipher.encrypt nonce (Text.utf8 (t.secret h))

variable {cipher : Cipher} {nonce : Nonce} {s t : Settings String k}

lemma get_congr (h : s.plain = t.plain) (f : Field) : s.get f = t.get f := by
  simp only [get, h]

/-- The rules of a kind are about fields. -/
lemma validate_congr (h : s.plain = t.plain) : s.validate = t.validate := by
  have hb : s.brokenRule? = t.brokenRule? := by
    unfold brokenRule?
    congr 1
    funext r
    simp only [get_congr h]
  simp only [validate, hb]

namespace Alike

lemma protectText (h : Alike cipher nonce s t) (hs : k.hasSecret = true) :
    cipher.protectText nonce (s.secret hs) = cipher.protectText nonce (t.secret hs) := by
  simp only [Cipher.protectText, Cipher.protect, h.encrypt hs]

lemma encrypted (h : Alike cipher nonce s t) :
    s.encrypted cipher nonce = t.encrypted cipher nonce := by
  unfold Settings.encrypted
  split
  · next hs =>
    rw [isGuarded_iff.mp h.guarded.1 hs, isGuarded_iff.mp h.guarded.2 hs, h.protectText hs, h.plain]
  · rw [h.plain]

/-- A secret is listed because there is one, not for what it is. -/
lemma itemChanges (h : Alike cipher nonce s t) (old : Settings (Option Sealed) k) (i : Item)
    (hi : i ∈ k.items) :
    old.itemChanges cipher nonce s i hi = old.itemChanges cipher nonce t i hi := by
  cases i with
  | field f => simp only [Settings.itemChanges, h.plain]
  | bundle b => simp only [Settings.itemChanges, bundle, h.plain]
  | secret =>
    have hs := Kind.hasSecret_of_mem hi
    have hne := Text.ne_empty_of_not_blank (isGuarded_iff.mp h.guarded.1 hs)
    have hne' := Text.ne_empty_of_not_blank (isGuarded_iff.mp h.guarded.2 hs)
    simp only [Settings.itemChanges, Changes.ofSecret, if_neg hne, if_neg hne', h.protectText hs]

lemma changes (h : Alike cipher nonce s t) (old : Settings (Option Sealed) k) :
    old.changes cipher nonce s = old.changes cipher nonce t := by
  simp only [Settings.changes, h.itemChanges]

end Alike
end Settings

section Drafts

variable {cipher : Cipher} {nonce : Nonce} {s t : Settings String k}
  (h : s.Alike cipher nonce t) (stream : EventStream)
include h

lemma addedDraft_congr : (⟨k, s⟩ : Config).addedDraft cipher nonce stream =
    (⟨k, t⟩ : Config).addedDraft cipher nonce stream := by
  simp only [Config.addedDraft, h.encrypted]

lemma changedDraft?_congr {j : Kind} (p : Provider j) :
    p.changedDraft? cipher nonce stream ⟨k, s⟩ = p.changedDraft? cipher nonce stream ⟨k, t⟩ := by
  unfold Provider.changedDraft?
  by_cases hk : k = j
  · subst hk
    simp only [dif_pos, Provider.changed?, h.changes]
  · simp only [dif_neg hk]

lemma migrationDraft_congr {target : Target} (hk : target.kind = k) :
    (⟨target, hk ▸ s⟩ : Migration).draft cipher nonce stream =
      (⟨target, hk ▸ t⟩ : Migration).draft cipher nonce stream := by
  subst hk
  simp only [Migration.draft, h.encrypted]

end Drafts

namespace Service

variable {service : Service} {s t : Settings String k}
  (h : ∀ n, s.Alike service.cipher (service.nonce n) t) (owner : Owner) (id : String)
include h

lemma add_congr : service.add owner id ⟨k, s⟩ = service.add owner id ⟨k, t⟩ := by
  have ha : service.addAttempt owner id ⟨k, s⟩ = service.addAttempt owner id ⟨k, t⟩ := by
    funext n
    simp only [addAttempt, addedDraft_congr (h n)]
  simp only [add, ha, Config.validate, Settings.validate_congr (h 0).plain]

lemma update_congr : service.update owner id ⟨k, s⟩ = service.update owner id ⟨k, t⟩ := by
  have ha : service.updateAttempt owner id ⟨k, s⟩ = service.updateAttempt owner id ⟨k, t⟩ := by
    funext n
    have hd (m : Model (View.ofKind k owner id).State) (stream : EventStream) :=
      changedDraft?_congr (h n) stream (m.state : Provider k)
    simp only [updateAttempt, hd]
  simp only [update, ha, Config.validate, Settings.validate_congr (h 0).plain]

lemma migrate_congr {target : Target} (hk : target.kind = k) :
    service.migrate owner id ⟨target, hk ▸ s⟩ = service.migrate owner id ⟨target, hk ▸ t⟩ := by
  subst hk
  have ha : service.migrateAttempt owner id ⟨target, s⟩ =
      service.migrateAttempt owner id ⟨target, t⟩ := by
    funext n
    have hd (stream : EventStream) := migrationDraft_congr (h n) stream rfl
    simp only [migrateAttempt, hd]
  simp only [migrate, ha, Migration.validate, Settings.validate_congr (h 0).plain]

end Service

/-- The draft of an event for either of two configurations, or the reason why there is none, is the
same where the cipher makes the same of their secrets; and so is the whole of each command: what it
asks of the log, what it stores and what it returns. -/
theorem secrets_sealed {s t : Settings String k} (service : Service)
    (h : ∀ n, s.Alike service.cipher (service.nonce n) t) :
    (∀ n stream,
      (⟨k, s⟩ : Config).addedDraft service.cipher (service.nonce n) stream =
        (⟨k, t⟩ : Config).addedDraft service.cipher (service.nonce n) stream ∧
      (∀ (j : Kind) (p : Provider j),
        p.changedDraft? service.cipher (service.nonce n) stream ⟨k, s⟩ =
          p.changedDraft? service.cipher (service.nonce n) stream ⟨k, t⟩) ∧
      ∀ (target : Target) (hk : target.kind = k),
        (⟨target, hk ▸ s⟩ : Migration).draft service.cipher (service.nonce n) stream =
          (⟨target, hk ▸ t⟩ : Migration).draft service.cipher (service.nonce n) stream) ∧
    ∀ owner id,
      service.add owner id ⟨k, s⟩ = service.add owner id ⟨k, t⟩ ∧
      service.update owner id ⟨k, s⟩ = service.update owner id ⟨k, t⟩ ∧
      ∀ (target : Target) (hk : target.kind = k),
        service.migrate owner id ⟨target, hk ▸ s⟩ = service.migrate owner id ⟨target, hk ▸ t⟩ := by
  refine ⟨fun n stream => ⟨?_, fun j p => ?_, fun target hk => ?_⟩,
    fun owner id => ⟨?_, ?_, fun target hk => ?_⟩⟩
  · exact addedDraft_congr (h n) stream
  · exact changedDraft?_congr (h n) stream p
  · exact migrationDraft_congr (h n) stream hk
  · exact Service.add_congr h owner id
  · exact Service.update_congr h owner id
  · exact Service.migrate_congr h owner id hk

namespace Sample

/-- A service whose cipher makes the same of all texts. -/
def blindService : Service :=
  { plainService with cipher := { Cipher.plain with encrypt := fun _ _ => .ok [0] } }

end Sample

/-- Nobody can tell from the log which of two secrets was given. -/
theorem secrets_sealed_blind :
    (∀ n, (Sample.withSecret "first").Alike Sample.blindService.cipher
      (Sample.blindService.nonce n) (Sample.withSecret "second")) ∧
    Sample.blindService.add (.ofInstance "instance") "id" ⟨.google, Sample.withSecret "first"⟩ =
      Sample.blindService.add (.ofInstance "instance") "id"
        ⟨.google, Sample.withSecret "second"⟩ ∧
    ((Sample.blindService.add (.ofInstance "instance") "id"
      ⟨.google, Sample.withSecret "first"⟩).run Sample.stopped {}).2.events.map LogEntry.type =
        ["idp.google.added"] := by
  have h : ∀ n, (Sample.withSecret "first").Alike Sample.blindService.cipher
      (Sample.blindService.nonce n) (Sample.withSecret "second") :=
    fun n => ⟨rfl, ⟨by decide, by decide⟩, fun _ => rfl⟩
  exact ⟨h, ((secrets_sealed Sample.blindService h).2 _ _).1, by decide +kernel⟩

end Federation
