import Federation.Proofs.Cipher.Recovery
import Federation.Provider.Client
import Federation.Provider.Config

/-!
Stored settings and the settings that they stand for, whose secret is in the clear.
-/
namespace Federation

namespace Settings

/-- The same fields, and the secret that is stored. -/
structure Opens (cipher : Cipher) (c : Settings Sealed k) (s : Settings String k) : Prop where
  plain : c.plain = s.plain
  secret : ∀ h, cipher.revealText (c.secret h) = .ok (s.secret h)

variable {cipher : Cipher} {k : Kind} {s : Settings String k} {c : Settings Sealed k}

/-- A secret that is not blank is stored. -/
lemma encrypted_opens (hr : ∀ h, cipher.Recovers (s.secret h))
    (hb : ∀ h, Text.isBlank (s.secret h) = false) (nonce : Nonce) :
    ∃ c, s.encrypted cipher nonce = .ok c ∧ c.Opens cipher s := by
  unfold encrypted
  split
  · next hs =>
    obtain ⟨v, hv, ho⟩ := (hr hs).revealText nonce
    refine ⟨⟨s.plain, fun _ => v⟩, ?_, rfl, fun _ => ho⟩
    simp only [hb hs, hv]
    rfl
  · next hs => exact ⟨⟨s.plain, fun h => absurd h hs⟩, rfl, rfl, fun h => absurd h hs⟩

lemma encrypted_blank (hs : k.hasSecret = true) (hb : Text.isBlank (s.secret hs) = true)
    (nonce : Nonce) :
    s.encrypted cipher nonce = .error (.refused (.empty k.secretLabel)) := by
  rw [encrypted, dif_pos hs, if_pos hb]

lemma Opens.revealed (h : c.Opens cipher s) :
    Provider.revealed cipher (c.map some) = .ok (s.map Secret.mk) := by
  unfold Provider.revealed
  split
  · next hs =>
    simp only [map, h.secret hs, Except.map, h.plain]
  · next hs =>
    rw [map, map, h.plain]
    congr
    exact funext fun h' => absurd h' hs

/-- An active provider has the client of its settings. -/
lemma Opens.client (h : c.Opens cipher s) (id callback : String) :
    (⟨.active, c.map some⟩ : Provider k).client cipher id callback =
      .ok ⟨Client.orElse (s.get .name) k.serviceName, s.permissions,
        (s.map Secret.mk).connection callback⟩ := by
  simp only [Provider.client, h.revealed]
  rfl

end Settings
end Federation
