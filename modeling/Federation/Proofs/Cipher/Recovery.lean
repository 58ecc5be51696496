import Federation.Cipher.AesRing
import Federation.Proofs.Cipher.Sealing
import Federation.Proofs.Outcome

/-!
Texts that a cipher gives back. What it makes of such a text under any nonce can be stored, and the
stored value holds that text; a ring of AES keys gives back all texts up to its limit.
-/
namespace Federation

/-- Whatever the nonce, the text can be encrypted, and decrypting undoes it. -/
structure Cipher.Recovers (cipher : Cipher) (s : String) : Prop where
  known : cipher.encryptionKeyId ∈ cipher.decryptionKeyIds
  undone : ∀ nonce, ∃ bs, cipher.encrypt nonce (Text.utf8 s) = .ok bs ∧
    cipher.decrypt bs cipher.encryptionKeyId = .ok (Text.utf8 s)

lemma Cipher.Recovers.revealText {cipher : Cipher} {s : String} (h : cipher.Recovers s)
    (nonce : Nonce) :
    ∃ v, cipher.protectText nonce s = .ok v ∧ cipher.revealText v = .ok s := by
  obtain ⟨bs, he, hd⟩ := h.undone nonce
  refine ⟨⟨.encryption, cipher.name, cipher.encryptionKeyId, bs⟩, ?_, ?_⟩
  · simp only [protectText, protect, he]
    rfl
  · have hr : cipher.reveal ⟨.encryption, cipher.name, cipher.encryptionKeyId, bs⟩ =
        .ok (Text.utf8 s) := by
      simp [reveal, h.known, hd]
    simp only [Cipher.revealText, hr, bind, Except.bind, Text.ofUtf8?_utf8]
    rfl

lemma Cipher.Recovers.protectText {cipher : Cipher} {s : String} (h : cipher.Recovers s)
    (nonce : Nonce) : ∃ v, cipher.protectText nonce s = .ok v :=
  (h.revealText nonce).imp fun _ hv => hv.1

/-- Decrypting undoes encrypting. -/
def Cipher.Undoes (cipher : Cipher) : Prop :=
  ∀ nonce text v, cipher.protect nonce text = .ok v → cipher.reveal v = .ok text

lemma Cipher.Undoes.revealText {cipher : Cipher} (h : cipher.Undoes) {nonce : Nonce} {s : String}
    {v : Sealed} (hv : cipher.protectText nonce s = .ok v) : cipher.revealText v = .ok s := by
  simp only [Cipher.revealText, h nonce _ v hv, bind, Except.bind, Text.ofUtf8?_utf8]
  rfl

/-- A cipher that keeps texts as they are. -/
def Cipher.plain : Cipher where
  name := "none"
  encryptionKeyId := "key"
  decryptionKeyIds := ["key"]
  encrypt _ text := .ok text
  decrypt crypted _ := .ok crypted

lemma Cipher.plain_undoes : plain.Undoes := by
  rintro nonce text v ⟨⟩
  rfl

/-- What was sealed can be opened. -/
lemma Gcm.open?_of_seal? {key : Octets 32} {nonce : Octets 12} {text sealed : Bytes}
    (h : seal? key nonce text = some sealed) : open? key nonce sealed = some text := by
  obtain ⟨hl, hs⟩ := seal?_eq_some_iff.mp h
  exact open?_eq_some_iff.mpr ⟨Nat.le_add_right_of_le hl, hs⟩

namespace AesRing

lemma decrypt_of_encrypt {ring : AesRing} {nonce : Nonce} {text bs : Bytes}
    (h : ring.encrypt nonce text = .ok bs) :
    ring.decrypt bs ring.encryptionKeyId = .ok text := by
  unfold encrypt at h
  cases hk : ring.keys.read ring.encryptionKeyId with
  | error e => simp [hk, bind, Except.bind] at h
  | ok key =>
    simp only [hk, bind, Except.bind] at h
    cases hs : Gcm.seal? key.material nonce text with
    | none => simp [hs, throw, throwThe, MonadExceptOf.throw] at h
    | some sealed =>
      simp only [hs, pure, Except.pure, Except.ok.injEq] at h
      subst h
      have hn : Octets.ofBytes? nonceBytes nonce.bytes = some nonce := by
        simp [Octets.ofBytes?, nonceBytes, nonce.length_bytes]
      have hl : nonce.bytes.length = nonceBytes := nonce.length_bytes
      simp only [decrypt, List.take_left' hl, List.drop_left' hl, hn, hk, bind, Except.bind,
        Gcm.open?_of_seal? hs]
      rfl

lemma mem_ids_of_read {store : KeyStore} {id : String} {key : Key} (h : store.read id = .ok key) :
    id ∈ store.ids := by
  unfold KeyStore.read at h
  split at h
  · next k hf =>
    have hid : k.id = id := by simpa using List.find?_some hf
    exact List.mem_map.mpr ⟨k, List.mem_of_find?_eq_some hf, hid⟩
  · nomatch h

/-- What a ring has encrypted it decrypts. -/
lemma undoes (ring : AesRing) : ring.cipher.Undoes := by
  intro nonce text v hv
  obtain ⟨bs, hbs, hv⟩ := bind_eq_ok.mp hv
  obtain ⟨key, hk, -⟩ := bind_eq_ok.mp hbs
  cases hv
  have hid := mem_ids_of_read hk
  have hknown : ¬ ring.encryptionKeyId ∉ ring.keys.ids := fun hn => hn hid
  simp only [Cipher.reveal, cipher, ne_eq, not_true_eq_false, if_false]
  exact (if_neg hknown).trans (decrypt_of_encrypt hbs)

/-- A ring that holds the key it encrypts with gives back texts that are not too long. -/
lemma recovers {ring : AesRing} {key : Key} (hk : ring.keys.read ring.encryptionKeyId = .ok key)
    {s : String} (hs : (Text.utf8 s).length ≤ Gcm.maxText) : ring.cipher.Recovers s where
  known := mem_ids_of_read hk
  undone := by
    intro nonce
    obtain ⟨sealed, hsealed⟩ : ∃ sealed, Gcm.seal? key.material nonce (Text.utf8 s) = some sealed :=
      ⟨_, if_pos hs⟩
    have he : ring.encrypt nonce (Text.utf8 s) = .ok (nonce.bytes ++ sealed) := by
      simp only [encrypt, hk, bind, Except.bind, hsealed]
      rfl
    exact ⟨_, he, decrypt_of_encrypt he⟩

end AesRing
end Federation
