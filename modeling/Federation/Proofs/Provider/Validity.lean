import Federation.Proofs.Provider.Opening
import Federation.Proofs.Provider.Writing

/-!
Settings that a command accepts: no rule of the kind finds an empty field and the secret, where one
has to be given, is not blank.
-/
namespace Federation

namespace Settings

/-- No rule of the kind finds an empty field. -/
def isValid (s : Settings S k) : Bool :=
  k.rules.all fun r => r.fields.all fun f => !f.isEmpty (s.get f)

/-- There is a secret if the kind has one. -/
def isGuarded (s : Settings String k) : Bool :=
  if h : k.hasSecret = true then !Text.isBlank (s.secret h) else true

lemma brokenRule?_eq_none {s : Settings S k} : s.brokenRule? = none ↔ s.isValid = true := by
  rw [brokenRule?, List.find?_eq_none]
  simp [isValid]

lemma validate_of_isValid {s : Settings S k} (h : s.isValid = true) : s.validate = .ok () := by
  rw [validate, brokenRule?_eq_none.mpr h]

lemma validate_of_not_isValid {s : Settings S k} (h : s.isValid = false) :
    ∃ r, s.validate = .error r := by
  cases hb : s.brokenRule? with
  | none =>
    rw [brokenRule?_eq_none, h] at hb
    cases hb
  | some r => exact ⟨_, by rw [validate, hb]⟩

lemma isGuarded_iff {s : Settings String k} :
    s.isGuarded = true ↔ ∀ h, Text.isBlank (s.secret h) = false := by
  unfold isGuarded
  split
  · next h => simp [h]
  · next h => simp [h]

/-- The cipher gives back the secret, and all values can be written. -/
structure Fits (cipher : Cipher) (s : Settings String k) : Prop where
  recovers : ∀ h, cipher.Recovers (s.secret h)
  timely : s.IsTimely

variable {cipher : Cipher} {s : Settings String k}

/-- What fits is stored, unless its secret is blank. -/
lemma Fits.encrypted (h : s.Fits cipher) (hg : s.isGuarded = true) (nonce : Nonce) :
    ∃ c, s.encrypted cipher nonce = .ok c ∧ c.Opens cipher s :=
  encrypted_opens h.recovers (isGuarded_iff.mp hg) nonce

lemma encrypted_of_not_isGuarded (h : s.isGuarded = false) (cipher : Cipher) (nonce : Nonce) :
    ∃ e, s.encrypted cipher nonce = .error e := by
  unfold isGuarded at h
  split at h
  · next hs => exact ⟨_, encrypted_blank hs (by simpa using h) nonce⟩
  · cases h

end Settings
end Federation
