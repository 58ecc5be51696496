import Federation.Proofs.Outcome
import Federation.Provider.Update

/-!
The events that commands draw up. Where one cannot be drawn up the reason lies in what was asked, in
the cipher or in the size of a value, never in another writer.
-/
namespace Federation

namespace Error

/-- Has nobody come first, if this is why something failed? -/
def Local (r : Except Error α) : Prop := ∀ e, r = .error e → e.isConflict = false

lemma local_ok (a : α) : Local (.ok a) := nofun

lemma local_error {e : Error} (h : e.isConflict = false) : Local (.error e : Except Error α) := by
  rintro _ ⟨⟩
  exact h

/-- What others have brought about is a conflict, and the log has reported it. -/
lemma not_local_iff {r : Except Error α} : ¬ Local r ↔
    ∃ type id expected actual, r = .error (.log (.conflict type id expected actual)) := by
  constructor
  · intro h
    rcases r with (r | e | (o | ⟨type, id, expected, actual⟩ | _ | limit | fault) | _) | a
    case error.log.conflict => exact ⟨type, id, expected, actual, rfl⟩
    all_goals exact (h (by rintro e ⟨⟩ <;> rfl)).elim
  · rintro ⟨type, id, expected, actual, rfl⟩ h
    exact Bool.noConfusion (h _ rfl)

lemma local_ofCipher (r : Except CipherError α) : Local (ofCipher r) := by
  cases r with
  | ok a => exact local_ok a
  | error e => rintro e ⟨⟩; rfl

lemma local_ofFault (r : Except Json.Fault α) : Local (ofFault r) := by
  cases r with
  | ok a => exact local_ok a
  | error f => rintro e ⟨⟩; rfl

lemma Local.bind {r : Except Error α} {f : α → Except Error β} (hr : Local r)
    (hf : ∀ a, Local (f a)) : Local (r >>= f) := by
  cases r with
  | ok a => exact hf a
  | error e => rintro e' ⟨⟩; exact hr e rfl

lemma Local.map {r : Except Error α} (hr : Local r) (f : α → β) : Local (r.map f) := by
  cases r with
  | ok a => exact local_ok (f a)
  | error e => rintro e' ⟨⟩; exact hr e rfl

lemma mapError_ok (f : ε → Error) (a : α) : (Except.ok a).mapError f = .ok a := rfl

lemma ofCipher_eq_ok {r : Except CipherError α} {a : α} : ofCipher r = .ok a ↔ r = .ok a := by
  cases r with
  | ok b =>
    exact ⟨fun h => congrArg Except.ok (Except.ok.inj h),
      fun h => congrArg Except.ok (Except.ok.inj h)⟩
  | error e => exact ⟨nofun, nofun⟩

lemma ofFault_eq_ok {r : Except Json.Fault α} {a : α} : ofFault r = .ok a ↔ r = .ok a := by
  cases r with
  | ok b =>
    exact ⟨fun h => congrArg Except.ok (Except.ok.inj h),
      fun h => congrArg Except.ok (Except.ok.inj h)⟩
  | error f => exact ⟨nofun, nofun⟩

end Error

namespace Settings

lemma local_encrypted (cipher : Cipher) (nonce : Nonce) (s : Settings String k) :
    Error.Local (s.encrypted cipher nonce) := by
  unfold encrypted
  split
  · split
    · rintro e ⟨⟩
      rfl
    · exact (Error.local_ofCipher _).map _
  · exact Error.local_ok _

end Settings

namespace Config

variable {cipher : Cipher} {nonce : Nonce} {c : Config} {stream : EventStream}

lemma local_validate (c : Config) : Error.Local c.validate := by
  unfold validate
  cases c.settings.validate with
  | ok u => exact Error.local_ok u
  | error r => exact Error.local_error rfl

lemma addedDraft_eq_ok {d : Draft} : c.addedDraft cipher nonce stream = .ok d ↔
    ∃ s, c.settings.encrypted cipher nonce = .ok s ∧
      (Event.added c.kind stream.id s).draft stream = .ok d := by
  simp only [addedDraft, bind_eq_ok, Error.ofFault_eq_ok]

lemma local_addedDraft : Error.Local (c.addedDraft cipher nonce stream) :=
  (Settings.local_encrypted _ _ _).bind fun _ => Error.local_ofFault _

end Config

namespace Migration

variable {cipher : Cipher} {nonce : Nonce} {m : Migration} {stream : EventStream}

lemma draft_eq_ok {d : Draft} : m.draft cipher nonce stream = .ok d ↔
    ∃ s, m.settings.encrypted cipher nonce = .ok s ∧
      (Event.migrated m.target stream.id s).draft stream = .ok d := by
  simp only [draft, bind_eq_ok, Error.ofFault_eq_ok]

lemma local_draft : Error.Local (m.draft cipher nonce stream) :=
  (Settings.local_encrypted _ _ _).bind fun _ => Error.local_ofFault _

end Migration

namespace Provider

variable {cipher : Cipher} {nonce : Nonce} {config : Config} {stream : EventStream}

/-- An update stores all changes as one revision, and nothing where there are none. -/
lemma changedDraft?_eq (p : Provider config.kind) :
    p.changedDraft? cipher nonce stream config =
      Error.ofCipher (p.settings.changes cipher nonce config.settings) >>= fun cs =>
        if cs = [] then .ok none
        else (Error.ofFault ((Event.changed config.kind stream.id
          (cs.foldl Revision.change .empty)).draft stream)).map some := by
  unfold changedDraft?
  rw [dif_pos rfl]
  simp only [changed?]
  cases Error.ofCipher (p.settings.changes cipher nonce config.settings) with
  | error e => rfl
  | ok cs =>
    cases cs with
    | nil => rfl
    | cons c cs =>
      simp only [bind, Except.bind, Revision.ofChanges, List.isEmpty_cons, reduceCtorEq, if_false,
        Bool.false_eq_true, Error.mapError_ok, pure, Except.pure]
      generalize Error.ofFault _ = r
      cases r <;> rfl

lemma local_changedDraft? (p : Provider config.kind) :
    Error.Local (p.changedDraft? cipher nonce stream config) := by
  rw [changedDraft?_eq]
  refine (Error.local_ofCipher _).bind fun cs => ?_
  split
  · exact Error.local_ok _
  · exact (Error.local_ofFault _).map some

lemma changedDraft?_eq_none {p : Provider config.kind} :
    p.changedDraft? cipher nonce stream config = .ok none ↔
      p.settings.changes cipher nonce config.settings = .ok [] := by
  rw [changedDraft?_eq, bind_eq_ok]
  constructor
  · rintro ⟨cs, hc, h⟩
    split at h
    · next hcs => exact hcs ▸ Error.ofCipher_eq_ok.mp hc
    · simp [map_eq_ok] at h
  · exact fun h => ⟨[], Error.ofCipher_eq_ok.mpr h, if_pos rfl⟩

/-- What an update stores is a change of the provider. -/
lemma changedDraft?_eq_some {p : Provider config.kind} {d : Draft} :
    p.changedDraft? cipher nonce stream config = .ok (some d) ↔
      ∃ cs, p.settings.changes cipher nonce config.settings = .ok cs ∧ cs ≠ [] ∧
        (Event.changed config.kind stream.id (cs.foldl Revision.change .empty)).draft stream =
          .ok d := by
  rw [changedDraft?_eq, bind_eq_ok]
  constructor
  · rintro ⟨cs, hc, h⟩
    split at h
    · simp at h
    · next hcs =>
      obtain ⟨e, he, hd⟩ := map_eq_ok.mp h
      cases hd
      exact ⟨cs, Error.ofCipher_eq_ok.mp hc, hcs, Error.ofFault_eq_ok.mp he⟩
  · rintro ⟨cs, hc, hcs, hd⟩
    refine ⟨cs, Error.ofCipher_eq_ok.mpr hc, ?_⟩
    rw [if_neg hcs, Error.ofFault_eq_ok.mpr hd]
    rfl

end Provider

end Federation
