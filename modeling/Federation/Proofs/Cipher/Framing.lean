import Federation.Proofs.Cipher.Recovery

/-!
What a ring of keys takes for a ciphertext: a nonce followed by the sealing of a text, and nothing
else. Every part of it that is read lies within it.
-/
namespace Federation

/-- The bytes from one place up to another, if there are as many. -/
def slice? (bs : Bytes) (start stop : Nat) : Option Bytes :=
  if start ≤ stop ∧ stop ≤ bs.length then some ((bs.take stop).drop start) else none

lemma slice?_take {bs : Bytes} {n : Nat} (h : n ≤ bs.length) :
    slice? bs 0 n = some (bs.take n) := if_pos ⟨Nat.zero_le n, h⟩

lemma slice?_drop {bs : Bytes} {n : Nat} (h : n ≤ bs.length) :
    slice? bs n bs.length = some (bs.drop n) := by
  rw [slice?, if_pos ⟨h, Nat.le_refl _⟩, List.take_length]

/-- Opening by slices; there is no outcome if a slice reaches outside. -/
def Gcm.openSlices (key : Octets 32) (nonce : Nonce) (bs : Bytes) : Option (Option Bytes) :=
  if bs.length < tagBytes then some none
  else do
    let hidden ← slice? bs 0 (bs.length - tagBytes)
    let authentication ← slice? bs (bs.length - tagBytes) bs.length
    let cipher := Aes.encryptBlock key
    return if hidden.length ≤ maxText + tagBytes ∧ authentication = tag cipher nonce hidden then
        some (crypt cipher nonce hidden)
      else none

lemma Gcm.openSlices_eq (key : Octets 32) (nonce : Nonce) (bs : Bytes) :
    openSlices key nonce bs = some (open? key nonce bs) := by
  unfold openSlices open?
  split
  · rfl
  · rw [slice?_take (Nat.sub_le _ _), slice?_drop (Nat.sub_le _ _)]
    rfl

namespace AesRing

/-- Decryption by slices; there is no outcome if a slice reaches outside. -/
def decryptSlices (ring : AesRing) (bs : Bytes) (id : String) :
    Option (Except CipherError Bytes) :=
  if bs.length < nonceBytes then some (.error .decryptFailed)
  else
    match ring.keys.read id with
    | .error e => some (.error e)
    | .ok key => do
      let nonce ← (slice? bs 0 nonceBytes).bind (Octets.ofBytes? nonceBytes)
      let sealed ← slice? bs nonceBytes bs.length
      match ← Gcm.openSlices key.material nonce sealed with
      | some text => return .ok text
      | none => return .error .decryptFailed

variable {ring : AesRing} {id : String} {key : Key} {c text : Bytes}

/-- What is shorter than a nonce has no sealing after it. -/
lemma decrypt_of_short (h : c.length < nonceBytes) :
    ring.decrypt c id = .error .decryptFailed := by
  have hn : Octets.ofBytes? nonceBytes (c.take nonceBytes) = none := by
    simp [Octets.ofBytes?]
    omega
  simp only [decrypt, hn]

lemma exists_nonce (h : ¬ c.length < nonceBytes) : ∃ nonce : Nonce,
    Octets.ofBytes? nonceBytes (c.take nonceBytes) = some nonce ∧
      c = nonce.bytes ++ c.drop nonceBytes := by
  have hl : (c.take nonceBytes).length = nonceBytes := by
    rw [List.length_take]
    exact Nat.min_eq_left (Nat.le_of_not_lt h)
  exact ⟨⟨_, hl⟩, dif_pos hl, (List.take_append_drop _ _).symm⟩

lemma decrypt_eq (hk : ring.keys.read id = .ok key) {nonce : Nonce}
    (hn : Octets.ofBytes? nonceBytes (c.take nonceBytes) = some nonce) :
    ring.decrypt c id =
      match Gcm.open? key.material nonce (c.drop nonceBytes) with
      | some text => .ok text
      | none => .error .decryptFailed := by
  simp only [decrypt, hn, hk, bind, Except.bind]
  cases Gcm.open? key.material nonce (c.drop nonceBytes) <;> rfl

/-- All slices lie within. -/
lemma decryptSlices_eq (ring : AesRing) (c : Bytes) (id : String) :
    ring.decryptSlices c id = some (ring.decrypt c id) := by
  by_cases hc : c.length < nonceBytes
  · rw [decryptSlices, if_pos hc, decrypt_of_short hc]
  · have hle : nonceBytes ≤ c.length := Nat.le_of_not_lt hc
    obtain ⟨nonce, hn, -⟩ := exists_nonce hc
    rw [decryptSlices, if_neg hc]
    cases hk : ring.keys.read id with
    | error e => simp only [decrypt, hn, hk, bind, Except.bind]
    | ok key =>
      rw [decrypt_eq hk hn]
      simp only [slice?_take hle, slice?_drop hle, Option.bind_some, hn]
      change (Gcm.openSlices key.material nonce (c.drop nonceBytes)).bind _ = _
      rw [Gcm.openSlices_eq]
      cases Gcm.open? key.material nonce (c.drop nonceBytes) <;> rfl

/-- What decrypts is a nonce and the sealing of a text. -/
lemma decrypt_eq_ok_iff (hk : ring.keys.read id = .ok key) : ring.decrypt c id = .ok text ↔
    text.length ≤ Gcm.maxText + Gcm.tagBytes ∧ ∃ (nonce : Nonce) (sealed : Bytes),
      c = nonce.bytes ++ sealed ∧ Gcm.Sealing key.material nonce text sealed := by
  constructor
  · intro h
    by_cases hc : c.length < nonceBytes
    · rw [decrypt_of_short hc] at h
      nomatch h
    · obtain ⟨nonce, hn, hs⟩ := exists_nonce hc
      rw [decrypt_eq hk hn] at h
      cases ho : Gcm.open? key.material nonce (c.drop nonceBytes) with
      | none => simp [ho] at h
      | some text' =>
        obtain rfl : text' = text := by simpa [ho] using h
        exact (Gcm.open?_eq_some_iff.mp ho).imp_right fun hsealing => ⟨nonce, _, hs, hsealing⟩
  · rintro ⟨hl, nonce, sealed, rfl, hsealing⟩
    have hnl : nonce.bytes.length = nonceBytes := nonce.length_bytes
    have hn : Octets.ofBytes? nonceBytes ((nonce.bytes ++ sealed).take nonceBytes) =
        some nonce := by
      rw [List.take_left' hnl]
      exact dif_pos hnl
    rw [decrypt_eq hk hn, List.drop_left' hnl, Gcm.open?_eq_some_iff.mpr ⟨hl, hsealing⟩]

lemma decrypt_eq_ok_or_failed (hk : ring.keys.read id = .ok key) (c : Bytes) :
    (∃ text, ring.decrypt c id = .ok text) ∨ ring.decrypt c id = .error .decryptFailed := by
  by_cases hc : c.length < nonceBytes
  · exact .inr (decrypt_of_short hc)
  · obtain ⟨nonce, hn, -⟩ := exists_nonce hc
    rw [decrypt_eq hk hn]
    cases Gcm.open? key.material nonce (c.drop nonceBytes) with
    | none => exact .inr rfl
    | some text => exact .inl ⟨text, rfl⟩

/-- What a ring encrypts is a nonce and the sealing of a text that is not too long. -/
lemma encrypt_eq_ok_iff (hk : ring.keys.read ring.encryptionKeyId = .ok key) {nonce : Nonce} :
    ring.encrypt nonce text = .ok c ↔ text.length ≤ Gcm.maxText ∧
      ∃ sealed, c = nonce.bytes ++ sealed ∧ Gcm.Sealing key.material nonce text sealed := by
  have hseal : ring.encrypt nonce text = .ok c ↔
      ∃ sealed, c = nonce.bytes ++ sealed ∧ Gcm.seal? key.material nonce text = some sealed := by
    simp only [encrypt, hk, bind, Except.bind]
    cases Gcm.seal? key.material nonce text with
    | none => simp
    | some sealed => simp [pure, Except.pure, eq_comm]
  simp only [hseal, Gcm.seal?_eq_some_iff]
  constructor
  · rintro ⟨s, hs, hl, h⟩
    exact ⟨hl, s, hs, h⟩
  · rintro ⟨hl, s, hs, h⟩
    exact ⟨s, hs, hl, h⟩

end AesRing

/-- A ring that has a key decrypts under it exactly what is a nonce and the sealing of a text under
that nonce. So it decrypts what it has encrypted, which is by twenty-eight bytes longer than the
text; anything that is shorter than that or no such sealing is refused; and no part of a ciphertext
is read that is not there. -/
theorem framing_exact {ring : AesRing} {id : String} {key : Key}
    (hk : ring.keys.read id = .ok key) :
    (∀ c text, text.length ≤ Gcm.maxText →
      (ring.decrypt c id = .ok text ↔ ∃ (nonce : Nonce) (sealed : Bytes),
        c = nonce.bytes ++ sealed ∧ Gcm.Sealing key.material nonce text sealed)) ∧
    (ring.encryptionKeyId = id → ∀ nonce text,
      (text.length ≤ Gcm.maxText → ∃ c, ring.encrypt nonce text = .ok c) ∧
      ∀ c, ring.encrypt nonce text = .ok c →
        ring.decrypt c id = .ok text ∧ c.length = 12 + text.length + 16) ∧
    (∀ c, c.length < 28 → ring.decrypt c id = .error .decryptFailed) ∧
    (∀ c, (∀ (nonce : Nonce) text sealed, c = nonce.bytes ++ sealed →
        ¬ Gcm.Sealing key.material nonce text sealed) →
      ring.decrypt c id = .error .decryptFailed) ∧
    ∀ c, ring.decryptSlices c id = some (ring.decrypt c id) := by
  have hrefused : ∀ c, (∀ (nonce : Nonce) text sealed, c = nonce.bytes ++ sealed →
      ¬ Gcm.Sealing key.material nonce text sealed) →
      ring.decrypt c id = .error .decryptFailed := by
    intro c hc
    refine (AesRing.decrypt_eq_ok_or_failed hk c).resolve_left fun ⟨text, ht⟩ => ?_
    obtain ⟨-, nonce, sealed, hcs, hs⟩ := (AesRing.decrypt_eq_ok_iff hk).mp ht
    exact hc nonce text sealed hcs hs
  refine ⟨fun c text hl => ?_, ?_, fun c hc => ?_, hrefused, fun c => ring.decryptSlices_eq c id⟩
  · rw [AesRing.decrypt_eq_ok_iff hk]
    exact and_iff_right (Nat.le_add_right_of_le hl)
  · rintro rfl nonce text
    refine ⟨fun hl => ?_, fun c hc => ?_⟩
    · obtain ⟨sealed, hs⟩ : ∃ sealed, Gcm.seal? key.material nonce text = some sealed :=
        ⟨_, if_pos hl⟩
      exact ⟨_, (AesRing.encrypt_eq_ok_iff hk).mpr
        ⟨hl, sealed, rfl, (Gcm.seal?_eq_some_iff.mp hs).2⟩⟩
    · obtain ⟨-, sealed, rfl, hs⟩ := (AesRing.encrypt_eq_ok_iff hk).mp hc
      refine ⟨AesRing.decrypt_of_encrypt hc, ?_⟩
      rw [List.length_append, nonce.length_bytes, hs.length, Gcm.tagBytes, Nat.add_assoc]
  · refine hrefused c fun nonce text sealed hcs hs => ?_
    rw [hcs, List.length_append, nonce.length_bytes, hs.length, Gcm.tagBytes] at hc
    omega

/-- A ring of one key, all of whose bits are clear. -/
def AesRing.zero : AesRing := ⟨"zero", ⟨[⟨"zero", ⟨List.replicate 32 0, by simp⟩⟩]⟩⟩

theorem framing_exact_zero :
    (∃ c, AesRing.zero.encrypt (.ofNat 0) [1, 2, 3] = .ok c ∧
      AesRing.zero.decrypt c "zero" = .ok [1, 2, 3] ∧ c.length = 31) ∧
    AesRing.zero.decrypt (List.replicate 27 0) "zero" = .error .decryptFailed := by
  have hk : AesRing.zero.keys.read "zero" =
      .ok ⟨"zero", ⟨List.replicate 32 0, by simp⟩⟩ := rfl
  obtain ⟨-, hencrypt, hshort, -⟩ := framing_exact hk
  obtain ⟨hmade, hback⟩ := hencrypt rfl (.ofNat 0) [1, 2, 3]
  obtain ⟨c, hc⟩ := hmade (by decide)
  exact ⟨⟨c, hc, hback c hc⟩, hshort _ (by decide)⟩

end Federation
