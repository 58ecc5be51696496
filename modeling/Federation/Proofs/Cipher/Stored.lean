import Federation.Proofs.Json.Origin
import Federation.Proofs.Provider.Members
import Federation.Proofs.Text.Spelling

/-!
Encrypted values as they are stored. Which objects are read as a given value is said member by
member; the ciphertext in particular stands there in the one text that is ever written for it.
-/
namespace Federation.Sealed

open Json (Schema Layout Reader)

variable {look : String → Option Json} {v : Sealed} {o : Json.Origin}

lemma string_of_bytesReader {j : Json} {bs : Bytes} (h : bytesReader o j = .ok bs) :
    j = .string (Base64.encode bs) := by
  obtain ⟨s, hs, hd⟩ := bind_eq_ok.mp h
  cases j with
  | string t =>
    cases hs
    split at hd
    · next out hout =>
      cases hd
      rw [Base64.decode_eq_ok.mp hout]
    · cases hd
  | _ => cases hs

lemma says_of_read (h : layout.read o look = .ok v) : Says look v := by
  obtain ⟨⟨⟨kind, algorithm⟩, ⟨keyId, crypted⟩⟩, hs, hv⟩ := map_eq_ok.mp h
  cases hv
  obtain ⟨hl, hr⟩ := Schema.read_and hs
  obtain ⟨hk, ha⟩ := Schema.read_and hl
  obtain ⟨hi, hc⟩ := Schema.read_and hr
  obtain ⟨j, hj, hk⟩ := Schema.read_required.mp hk
  obtain ⟨t, ht, hc⟩ := Schema.read_required.mp hc
  exact ⟨⟨j, hj, fun o' => Reader.steady_variant _ o o' j kind hk⟩, Schema.read_text ha,
    Schema.read_text hi, by rw [ht, string_of_bytesReader hc]⟩

lemma says_of_reader {es : Entries} (h : reader o (.object es) = .ok v) :
    Says (fun k => es.lookup k) v := says_of_read (Layout.decode_object.mp h).2

/-- The text that the ciphertext is read from is the one that would be written for it. -/
lemma crypted_of_reader {es : Entries} {s : String} (h : reader o (.object es) = .ok v)
    (hs : (Json.object es).get? "crypted" = some (.string s)) : s = Base64.encode v.crypted :=
  Json.string.inj (Option.some.inj (hs.symm.trans (says_of_reader h).crypted))

lemma crypted_toJson (v : Sealed) :
    v.toJson.get? "crypted" = some (.string (Base64.encode v.crypted)) :=
  Json.get?_ofEntries (by simp) (by simp)

/-- A value is read back from the object that is written for it. Whatever object is read as a value,
its ciphertext stands there in the text that is written for it, so that one ciphertext never stands
in two texts; and a text with a flaw is refused. -/
theorem ciphertexts_canonical :
    (∀ (o : Json.Origin) (v : Sealed), reader o v.toJson = .ok v) ∧
    (∀ (o : Json.Origin) (es : Entries) (v : Sealed), reader o (.object es) = .ok v →
      ∃ s, (Json.object es).get? "crypted" = some (.string s) ∧
        v.toJson.get? "crypted" = some (.string s)) ∧
    (∀ (o o' : Json.Origin) (es fs : Entries) (v w : Sealed) (s t : String),
      reader o (.object es) = .ok v → reader o' (.object fs) = .ok w →
      (Json.object es).get? "crypted" = some (.string s) →
      (Json.object fs).get? "crypted" = some (.string t) → s ≠ t → v.crypted ≠ w.crypted) ∧
    ∀ (o : Json.Origin) (es : Entries) (s : String),
      (Json.object es).get? "crypted" = some (.string s) → Base64.Flawed s.toList →
      ∃ f, reader o (.object es) = .error f := by
  refine ⟨fun o v => reader_toJson v o, fun o es v h => ?_, ?_, fun o es s hs hflaw => ?_⟩
  · exact ⟨_, (says_of_reader h).crypted, crypted_toJson v⟩
  · intro o o' es fs v w s t hv hw hs ht hne hvw
    apply hne
    rw [crypted_of_reader hv hs, crypted_of_reader hw ht, hvw]
  · cases hr : reader o (.object es) with
    | error f => exact ⟨f, rfl⟩
    | ok v =>
      obtain ⟨f, hf⟩ := Base64.decode_eq_error.mpr hflaw
      rw [crypted_of_reader hr hs, Base64.decode_encode] at hf
      cases hf

/-- A value as another writer may have put it down: the name of its kind as a key, and a member that
is not its own. -/
def put (crypted : String) : Entries :=
  [("algorithm", .string "none"), ("crypted", .string crypted),
    ("cryptoType", .object [("hash", .null)]), ("keyId", .string "key"), ("note", .bool true)]

/-- The ciphertext of such a value is one that would have been written, two that differ are two
ciphertexts, and there is none with a flaw. -/
theorem ciphertexts_canonical_put :
    (∃ s, (Json.object (put "AAEC/w==")).get? "crypted" = some (.string s) ∧
      (⟨.hash, "none", "key", [0, 1, 2, 255]⟩ : Sealed).toJson.get? "crypted" =
        some (.string s)) ∧
    ([0, 1, 2, 255] : Bytes) ≠ [0, 1, 2, 254] ∧
    ∀ s ∈ ["AAEC/w=", "AAE*", "AA==AAEC", "A===", "AAEC/x=="],
      ∃ f, reader .document (.object (put s)) = .error f := by
  have hw : reader .document (.object (put "AAEC/w==")) =
      .ok ⟨.hash, "none", "key", [0, 1, 2, 255]⟩ := rfl
  have hg : reader .buffered (.object (put "AAEC/g==")) =
      .ok ⟨.hash, "none", "key", [0, 1, 2, 254]⟩ := rfl
  refine ⟨ciphertexts_canonical.2.1 _ _ _ hw,
    ciphertexts_canonical.2.2.1 _ _ _ _ _ _ _ _ hw hg rfl rfl (by decide), ?_⟩
  intro s hs
  refine ciphertexts_canonical.2.2.2 _ _ s rfl ?_
  simp only [List.mem_cons, List.not_mem_nil, or_false] at hs
  rcases hs with rfl | rfl | rfl | rfl | rfl
  · exact .length (by decide)
  · exact .foreign '*' (by decide) (by decide) (by decide)
  · exact .misplaced ['A', 'A'] ['=', 'A', 'A', 'E', 'C'] (by decide) 'A' (by decide) (by decide)
  · exact .surplus (by decide)
  · exact .stray ['A', 'A', 'E', 'C', '/'] 'x' 2 (by decide) (by decide) (by decide)

end Federation.Sealed
