import Federation.Cipher.Basic
import Federation.Proofs.Outcome

/-!
Which stored secrets a cipher reveals. One must be there, name the cipher and a key of its
catalogue, and decrypt to text; of what is amiss only the first in this order is reported.
-/
namespace Federation.Cipher

/-- The value can be read, and the text is what it holds. -/
structure Reveals (cipher : Cipher) (v : Sealed) (text : String) : Prop where
  algorithm : v.algorithm = cipher.name
  key : v.keyId ∈ cipher.decryptionKeyIds
  plain : cipher.decrypt v.crypted v.keyId = .ok (Text.utf8 text)

/-- What is reported of a secret that cannot be had. -/
inductive Denies (cipher : Cipher) : Option Sealed → CipherError → Prop
  | missing : Denies cipher none .missingValue
  | algorithm {v : Sealed} (other : v.algorithm ≠ cipher.name) :
    Denies cipher (some v) (.algorithmMismatch cipher.name v.algorithm)
  | key {v : Sealed} (same : v.algorithm = cipher.name)
    (unknown : v.keyId ∉ cipher.decryptionKeyIds) : Denies cipher (some v) (.unknownKey v.keyId)
  | damaged {v : Sealed} {e : CipherError} (same : v.algorithm = cipher.name)
    (known : v.keyId ∈ cipher.decryptionKeyIds)
    (fails : cipher.decrypt v.crypted v.keyId = .error e) : Denies cipher (some v) e
  | bytes {v : Sealed} {bs : Bytes} (same : v.algorithm = cipher.name)
    (known : v.keyId ∈ cipher.decryptionKeyIds)
    (plain : cipher.decrypt v.crypted v.keyId = .ok bs) (no_text : ∀ text, Text.utf8 text ≠ bs) :
    Denies cipher (some v) .decryptFailed

variable {cipher : Cipher} {v : Sealed} {text : String} {e : CipherError}

lemma reveal_of_known (same : v.algorithm = cipher.name)
    (known : v.keyId ∈ cipher.decryptionKeyIds) :
    cipher.reveal v = cipher.decrypt v.crypted v.keyId := by
  rw [reveal, if_neg (not_not_intro same), if_neg (not_not_intro known)]

lemma Reveals.revealText (h : cipher.Reveals v text) : cipher.revealText v = .ok text := by
  have hr := (reveal_of_known h.algorithm h.key).trans h.plain
  simp only [Cipher.revealText, hr, bind, Except.bind, Text.ofUtf8?_utf8]
  rfl

lemma Denies.revealText (h : cipher.Denies (some v) e) : cipher.revealText v = .error e := by
  cases h with
  | algorithm other => simp only [Cipher.revealText, reveal, if_pos other, bind, Except.bind]
  | key same unknown =>
    simp only [Cipher.revealText, reveal, if_neg (not_not_intro same), if_pos unknown, bind,
      Except.bind]
  | damaged same known fails =>
    have hr := (reveal_of_known same known).trans fails
    simp only [Cipher.revealText, hr, bind, Except.bind]
  | @bytes v bs same known plain no_text =>
    have hr := (reveal_of_known same known).trans plain
    have hn : Text.ofUtf8? bs = none :=
      Option.eq_none_iff_forall_ne_some.mpr fun text ht => no_text text (Text.utf8_of_ofUtf8? ht)
    simp only [Cipher.revealText, hr, bind, Except.bind, hn]
    rfl

/-- There is no third way. -/
lemma reveals_or_denies (cipher : Cipher) (v : Sealed) :
    (∃ text, cipher.Reveals v text) ∨ ∃ e, cipher.Denies (some v) e := by
  by_cases ha : v.algorithm = cipher.name
  · by_cases hk : v.keyId ∈ cipher.decryptionKeyIds
    · cases hd : cipher.decrypt v.crypted v.keyId with
      | error e => exact .inr ⟨e, .damaged ha hk hd⟩
      | ok bs =>
        by_cases ht : ∃ text, Text.utf8 text = bs
        · obtain ⟨text, rfl⟩ := ht
          exact .inl ⟨text, ha, hk, hd⟩
        · exact .inr ⟨_, .bytes ha hk hd (not_exists.mp ht)⟩
    · exact .inr ⟨_, .key ha hk⟩
  · exact .inr ⟨_, .algorithm ha⟩

lemma revealText_eq_ok : cipher.revealText v = .ok text ↔ cipher.Reveals v text := by
  refine ⟨fun h => ?_, Reveals.revealText⟩
  rcases reveals_or_denies cipher v with ⟨other, hr⟩ | ⟨e, hd⟩
  · rw [hr.revealText] at h
    cases h
    exact hr
  · rw [hd.revealText] at h
    cases h

lemma revealText_eq_error : cipher.revealText v = .error e ↔ cipher.Denies (some v) e := by
  refine ⟨fun h => ?_, Denies.revealText⟩
  rcases reveals_or_denies cipher v with ⟨text, hr⟩ | ⟨other, hd⟩
  · rw [hr.revealText] at h
    cases h
  · rw [hd.revealText] at h
    cases h
    exact hd

lemma Reveals.unique {other : String} (h : cipher.Reveals v text) (h' : cipher.Reveals v other) :
    text = other :=
  Except.ok.inj (h.revealText.symm.trans h'.revealText)

lemma Reveals.not_denies (h : cipher.Reveals v text) : ¬ cipher.Denies (some v) e := fun hd =>
  nomatch h.revealText.symm.trans hd.revealText

end Federation.Cipher
