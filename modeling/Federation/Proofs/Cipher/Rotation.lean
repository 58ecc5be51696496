import Federation.Proofs.Cipher.Recovery

/-!
Rings of keys that are loaded one after another from a store to which keys are added. No call takes
a key away or puts another one in its place, so what was encrypted under a key is decrypted by every
ring that names it, and by no other.
-/
namespace Federation

/-- A call on a store of keys; `fresh` is the material for a key that is missing. -/
inductive KeyCall where
  | create (ks : List Key)
  | ensure (config : KeyChoice) (fresh : Octets 32)
  | load (config : KeyChoice)
  | prepare (config : KeyChoice) (fresh : Octets 32)

inductive KeyReply where
  | stored (r : Except CipherError Unit)
  | ring (config : KeyChoice) (r : Except CipherError AesRing)

namespace KeyStore

/-- A store that may have taken in keys; if not it stays as it was. -/
def settle (s : KeyStore) : Except CipherError KeyStore → KeyReply × KeyStore
  | .ok t => (.stored (.ok ()), t)
  | .error e => (.stored (.error e), s)

def call (s : KeyStore) : KeyCall → KeyReply × KeyStore
  | .create ks => s.settle (s.create ks)
  | .ensure config fresh => s.settle (s.ensure config fresh)
  | .load config => (.ring config (AesRing.ofConfig config s), s)
  | .prepare config fresh =>
    (.ring config (AesRing.prepare config s fresh).1, (AesRing.prepare config s fresh).2)

/-- The replies to calls made one after another, and the store after them. -/
def calls : KeyStore → List KeyCall → List KeyReply × KeyStore
  | s, [] => ([], s)
  | s, c :: cs => ((s.call c).1 :: ((s.call c).2.calls cs).1, ((s.call c).2.calls cs).2)

/-- Every key of a store is in a later one, unchanged. -/
def Keeps (s t : KeyStore) : Prop := ∀ id k, s.find? id = some k → t.find? id = some k

variable {s t u : KeyStore}

lemma Keeps.refl (s : KeyStore) : s.Keeps s := fun _ _ h => h

lemma Keeps.trans (h : s.Keeps t) (g : t.Keeps u) : s.Keeps u := fun id k hk => g id k (h id k hk)

lemma mem_ids_iff {id : String} : id ∈ s.ids ↔ ∃ k, s.find? id = some k := by
  simp [ids, find?, ← Option.isSome_iff_exists, List.find?_isSome]

lemma read_eq_ok {id : String} {k : Key} : s.read id = .ok k ↔ s.find? id = some k := by
  unfold read
  split <;> simp_all

lemma id_of_find? {id : String} {k : Key} (h : s.find? id = some k) : k.id = id := by
  simpa using List.find?_some h

lemma find?_foldl_put {id : String} {ks : List Key} (h : ∀ k ∈ ks, k.id ≠ id) :
    (ks.foldl put s).find? id = s.find? id := by
  induction ks generalizing s with
  | nil => rfl
  | cons k ks ih =>
    rw [List.foldl_cons, ih fun l hl => h l (List.mem_cons_of_mem _ hl), find?_put,
      if_neg (h k List.mem_cons_self)]

/-- Keys are created under new ids only. -/
lemma keeps_create {ks : List Key} (h : s.create ks = .ok t) : s.Keeps t := by
  unfold create at h
  split at h
  · nomatch h
  · next hnew =>
    cases h
    intro id k hk
    rw [find?_foldl_put, hk]
    rintro l hl rfl
    simpa [hk] using List.find?_eq_none.mp hnew l hl

lemma keeps_ensure {config : KeyChoice} {fresh : Octets 32} (h : s.ensure config fresh = .ok t) :
    s.Keeps t := by
  unfold ensure at h
  split at h
  · cases h
    exact .refl s
  · exact keeps_create h

lemma keeps_settle {r : Except CipherError KeyStore} (h : ∀ t, r = .ok t → s.Keeps t) :
    s.Keeps (s.settle r).2 := by
  cases r with
  | ok t => exact h t rfl
  | error e => exact .refl s

lemma keeps_call (s : KeyStore) (c : KeyCall) : s.Keeps (s.call c).2 := by
  cases c with
  | create ks => exact keeps_settle fun _ => keeps_create
  | ensure config fresh => exact keeps_settle fun _ => keeps_ensure
  | load config => exact .refl s
  | prepare config fresh =>
    simp only [call, AesRing.prepare]
    split
    · exact .refl s
    · next h => exact keeps_ensure h

/-- No run of calls loses a key. -/
lemma keeps_calls (s : KeyStore) (cs : List KeyCall) : s.Keeps (s.calls cs).2 := by
  induction cs generalizing s with
  | nil => exact .refl s
  | cons c cs ih => exact (s.keeps_call c).trans (ih _)

lemma ring_of_settle {r : Except CipherError KeyStore} {config : KeyChoice}
    {q : Except CipherError AesRing} (h : (s.settle r).1 = .ring config q) : False := by
  cases r <;> cases h

/-- A ring that a call gives is loaded from the store as it is after the call. -/
lemma ring_of_call {c : KeyCall} {config : KeyChoice} {ring : AesRing}
    (h : (s.call c).1 = .ring config (.ok ring)) :
    AesRing.ofConfig config (s.call c).2 = .ok ring := by
  cases c with
  | create ks => exact (ring_of_settle h).elim
  | ensure config fresh => exact (ring_of_settle h).elim
  | load config' =>
    simp only [call, KeyReply.ring.injEq] at h
    exact h.1 ▸ h.2
  | prepare config' fresh =>
    simp only [call, AesRing.prepare, KeyReply.ring.injEq] at h ⊢
    obtain ⟨rfl, h⟩ := h
    split at h
    · nomatch h
    · exact h

/-- Every ring of a run is loaded from a store whose keys are all there at the end. -/
lemma ring_of_calls {cs : List KeyCall} {i : Nat} {config : KeyChoice} {ring : AesRing}
    (h : (s.calls cs).1[i]? = some (.ring config (.ok ring))) :
    ∃ t, t.Keeps (s.calls cs).2 ∧ AesRing.ofConfig config t = .ok ring := by
  induction cs generalizing s i with
  | nil => nomatch h
  | cons c cs ih =>
    cases i with
    | zero => exact ⟨(s.call c).2, keeps_calls _ cs, ring_of_call (Option.some.inj h)⟩
    | succ i => exact ih h

end KeyStore

namespace AesRing

variable {store last ring loaded : KeyStore}

/-- All keys that are named are found, and the ring has those of the store. -/
lemma find?_of_load {ids : List String} (h : load store ids ring = .ok loaded) (id : String) :
    (id ∈ ids → ∃ k, store.find? id = some k ∧ loaded.find? id = some k) ∧
      (id ∉ ids → loaded.find? id = ring.find? id) := by
  induction ids generalizing ring with
  | nil =>
    cases h
    exact ⟨nofun, fun _ => rfl⟩
  | cons i ids ih =>
    obtain ⟨k, hk, h⟩ := bind_eq_ok.mp h
    have hk := KeyStore.read_eq_ok.mp hk
    have hki := KeyStore.id_of_find? hk
    obtain ⟨hmem, hnot⟩ := ih h
    refine ⟨fun hid => ?_, fun hid => ?_⟩
    · by_cases hr : id ∈ ids
      · exact hmem hr
      · obtain rfl : id = i := (List.mem_cons.mp hid).resolve_right hr
        exact ⟨k, hk, by rw [hnot hr, KeyStore.find?_put, if_pos hki]⟩
    · rw [hnot fun hr => hid (List.mem_cons_of_mem _ hr), KeyStore.find?_put, if_neg]
      rintro rfl
      exact hid (hki ▸ List.mem_cons_self)

/-- A ring has the keys it was to load, as they are in the store, and no others. -/
lemma find?_of_ofConfig {config : KeyChoice} {r : AesRing} (h : ofConfig config store = .ok r)
    (id : String) : (id ∈ config.ids → ∃ k, store.find? id = some k ∧ r.keys.find? id = some k) ∧
      (id ∉ config.ids → r.keys.find? id = none) := by
  obtain ⟨keys, hkeys, hr⟩ := bind_eq_ok.mp h
  cases hr
  exact find?_of_load hkeys id

lemma encryptionKeyId_of_ofConfig {config : KeyChoice} {r : AesRing}
    (h : ofConfig config store = .ok r) : r.encryptionKeyId = config.encryptionKeyId := by
  obtain ⟨keys, -, hr⟩ := bind_eq_ok.mp h
  cases hr
  rfl

/-- What a ring encrypts names the ring's own key. -/
lemma named_of_protect {r : AesRing} {nonce : Nonce} {text : Bytes} {v : Sealed}
    (h : r.cipher.protect nonce text = .ok v) :
    v.algorithm = algorithmName ∧ v.keyId = r.encryptionKeyId := by
  obtain ⟨bs, -, hbs⟩ := bind_eq_ok.mp h
  cases hbs
  exact ⟨rfl, rfl⟩

/-- What a ring makes of a value depends on the key that the value names. -/
lemma reveal_eq {ring : AesRing} {v : Sealed} (hv : v.algorithm = algorithmName) :
    ring.cipher.reveal v =
      match ring.keys.find? v.keyId with
      | some _ => ring.decrypt v.crypted v.keyId
      | none => .error (.unknownKey v.keyId) := by
  have hids : v.keyId ∈ ring.cipher.decryptionKeyIds ↔ _ := KeyStore.mem_ids_iff
  have hname : v.algorithm = ring.cipher.name := hv
  cases hk : ring.keys.find? v.keyId with
  | none => simp [Cipher.reveal, hids, hname, hk]
  | some k =>
    simp only [Cipher.reveal, hname, ne_eq, not_true_eq_false, if_false]
    exact if_neg fun h => h (hids.mpr ⟨k, hk⟩)

lemma decrypt_congr {r q : AesRing} {id : String} (h : r.keys.find? id = q.keys.find? id)
    (bs : Bytes) : r.decrypt bs id = q.decrypt bs id := by
  simp only [decrypt, KeyStore.read, h]

end AesRing

/-- In every run of calls on a store of keys: what a ring of the run has encrypted is decrypted by
each ring of the run that was to load the key it names, and refused for that key by every other. -/
theorem rotation_keeps_values (s : KeyStore) (cs : List KeyCall) {i j : Nat}
    {config config' : KeyChoice} {maker reader : AesRing} {nonce : Nonce} {text : Bytes}
    {v : Sealed} (hm : (s.calls cs).1[i]? = some (.ring config (.ok maker)))
    (hr : (s.calls cs).1[j]? = some (.ring config' (.ok reader)))
    (hv : maker.cipher.protect nonce text = .ok v) :
    (v.keyId = config'.encryptionKeyId ∨ v.keyId ∈ config'.decryptionKeyIds →
      reader.cipher.reveal v = .ok text) ∧
    (v.keyId ≠ config'.encryptionKeyId → v.keyId ∉ config'.decryptionKeyIds →
      reader.cipher.reveal v = .error (.unknownKey v.keyId)) := by
  obtain ⟨t, ht, hmaker⟩ := KeyStore.ring_of_calls hm
  obtain ⟨u, hu, hreader⟩ := KeyStore.ring_of_calls hr
  obtain ⟨halg, hid⟩ := AesRing.named_of_protect hv
  rw [AesRing.encryptionKeyId_of_ofConfig hmaker] at hid
  have hundone := maker.undoes nonce text v hv
  rw [AesRing.reveal_eq halg] at hundone ⊢
  have hids : v.keyId ∈ config'.ids ↔
      v.keyId = config'.encryptionKeyId ∨ v.keyId ∈ config'.decryptionKeyIds := by
    simp [KeyChoice.ids, or_comm]
  refine ⟨fun hnamed => ?_, fun hne hnot => ?_⟩
  · obtain ⟨k, hk, hkm⟩ :=
      (AesRing.find?_of_ofConfig hmaker v.keyId).1 (by simp [hid, KeyChoice.ids])
    obtain ⟨l, hl, hlr⟩ := (AesRing.find?_of_ofConfig hreader v.keyId).1 (hids.mpr hnamed)
    -- both keys are in the last store of the run, under one id
    obtain rfl : k = l := Option.some.inj ((ht _ k hk).symm.trans (hu _ l hl))
    rw [hkm] at hundone
    rw [hlr, ← hundone]
    exact AesRing.decrypt_congr (hlr.trans hkm.symm) _
  · rw [(AesRing.find?_of_ofConfig hreader v.keyId).2 fun h => (hids.mp h).elim hne hnot]

namespace Rotated

def material (b : UInt8) : Octets 32 := ⟨List.replicate 32 b, by simp⟩

/-- A key is made and used, another one takes over; two of the calls fail. -/
def run : List KeyCall := [
  .load ⟨"new", ["old"]⟩,
  .prepare ⟨"old", []⟩ (material 1),
  .create [⟨"new", material 2⟩, ⟨"old", material 3⟩],
  .create [⟨"new", material 4⟩],
  .load ⟨"new", ["old"]⟩,
  .load ⟨"new", []⟩]

def maker : AesRing := ⟨"old", ⟨[⟨"old", material 1⟩]⟩⟩

def reader : AesRing := ⟨"new", ⟨[⟨"new", material 4⟩, ⟨"old", material 1⟩]⟩⟩

def stranger : AesRing := ⟨"new", ⟨[⟨"new", material 4⟩]⟩⟩

end Rotated

open Rotated in
theorem rotation_keeps_secret : ∃ v,
    maker.cipher.protect (Nonce.ofNat 7) (Text.utf8 "secret") = .ok v ∧
    reader.cipher.reveal v = .ok (Text.utf8 "secret") ∧
    stranger.cipher.reveal v = .error (.unknownKey "old") := by
  have hm : (({} : KeyStore).calls run).1[1]? = some (.ring ⟨"old", []⟩ (.ok maker)) := rfl
  have hr : (({} : KeyStore).calls run).1[4]? = some (.ring ⟨"new", ["old"]⟩ (.ok reader)) := rfl
  have hs : (({} : KeyStore).calls run).1[5]? = some (.ring ⟨"new", []⟩ (.ok stranger)) := rfl
  have hkey : maker.keys.read "old" = .ok ⟨"old", material 1⟩ := rfl
  have hrec : maker.cipher.Recovers "secret" := AesRing.recovers hkey (by decide)
  obtain ⟨v, hv⟩ := hrec.protectText (Nonce.ofNat 7)
  have hid : v.keyId = "old" := (AesRing.named_of_protect hv).2
  refine ⟨v, hv, (rotation_keeps_values {} run hm hr hv).1 (.inr (by simp [hid])), ?_⟩
  have hunknown := (rotation_keeps_values {} run hm hs hv).2 (by simp [hid]) (by simp)
  rwa [hid] at hunknown

end Federation
