import Federation.Proofs.Cipher.Rotation

/-!
Keys that are created together. They are stored all or none, and no key that is there already is
touched: an id that is stored is refused. An id that is given twice in one batch is not, and then of
its keys only the last one stays.
-/
namespace Federation

namespace KeyStore

variable {s : KeyStore} {ks : List Key}

/-- The last key of a batch that has an id. -/
def lastOf (ks : List Key) (id : String) : Option Key := (ks.filter fun k => k.id = id).getLast?

lemma lastOf_cons (k : Key) (ks : List Key) (id : String) :
    lastOf (k :: ks) id = (lastOf ks id).or (if k.id = id then some k else none) := by
  unfold lastOf
  by_cases h : k.id = id
  · rw [List.filter_cons_of_pos (by simpa using h), List.getLast?_cons, if_pos h]
    cases (ks.filter fun k => k.id = id).getLast? <;> rfl
  · rw [List.filter_cons_of_neg (by simpa using h), if_neg h, Option.or_none]

lemma lastOf_eq_some {k : Key} {id : String} (h : lastOf ks id = some k) : k ∈ ks ∧ k.id = id := by
  simpa using List.mem_of_getLast? h

lemma lastOf_isSome {k : Key} (h : k ∈ ks) : ∃ l, lastOf ks k.id = some l := by
  rw [← Option.isSome_iff_exists, lastOf, List.getLast?_isSome]
  exact List.ne_nil_of_mem (List.mem_filter.mpr ⟨h, by simp⟩)

/-- Of the keys put under one id the last one stays. -/
lemma find?_foldl_put_eq (s : KeyStore) (ks : List Key) (id : String) :
    (ks.foldl put s).find? id = (lastOf ks id).or (s.find? id) := by
  induction ks generalizing s with
  | nil => rfl
  | cons k ks ih =>
    rw [List.foldl_cons, ih, find?_put, lastOf_cons, Option.or_assoc]
    by_cases h : k.id = id <;> simp [h]

/-- No two keys of a batch with one id differ if and only if all of them can be read. -/
lemma forall_lastOf : (∀ k ∈ ks, lastOf ks k.id = some k) ↔
    ∀ k ∈ ks, ∀ l ∈ ks, k.id = l.id → k = l := by
  constructor
  · intro h k hk l hl he
    exact Option.some.inj ((h k hk).symm.trans (he ▸ h l hl))
  · intro h k hk
    obtain ⟨l, hl⟩ := lastOf_isSome hk
    obtain ⟨hm, he⟩ := lastOf_eq_some hl
    rw [hl, h k hk l hm he.symm]

lemma isSome_find?_iff {id : String} : (s.find? id).isSome = true ↔ id ∈ s.ids := by
  rw [mem_ids_iff, Option.isSome_iff_exists]

/-- A batch is refused for the first of its keys whose id is stored. -/
lemma create_eq_error {e : CipherError} : s.create ks = .error e ↔
    ∃ k, ks.find? (fun k => k.id ∈ s.ids) = some k ∧ e = .keyTaken k.id := by
  simp only [create, ← isSome_find?_iff, Bool.decide_eq_true]
  split
  · next k hk => simp [hk, eq_comm]
  · next hk => simp [hk]

lemma create_eq_ok {t : KeyStore} : s.create ks = .ok t ↔
    (∀ k ∈ ks, k.id ∉ s.ids) ∧ t = ks.foldl put s := by
  simp only [create, ← isSome_find?_iff]
  split
  · next k hk =>
    exact ⟨nofun, fun h => absurd (List.find?_some hk) (h.1 k (List.mem_of_find?_eq_some hk))⟩
  · next hk =>
    rw [and_iff_right (List.find?_eq_none.mp hk), Except.ok.injEq, eq_comm]

end KeyStore

/-- Keys are created all or none. A batch is refused, for the first of its ids that is stored
already, and then the store stays as it is; or none is stored, and then every key from before is
read as before, and under each id of the batch its last key is. So all keys of the batch can be read
unless two of them differ and have one id. -/
theorem keys_created (s : KeyStore) (ks : List Key) :
    (∃ k, ks.find? (fun k => k.id ∈ s.ids) = some k ∧
      s.call (.create ks) = (.stored (.error (.keyTaken k.id)), s)) ∨
    (∀ k ∈ ks, k.id ∉ s.ids) ∧ ∃ t, s.call (.create ks) = (.stored (.ok ()), t) ∧
      (∀ id k, s.read id = .ok k → t.read id = .ok k) ∧
      (∀ id, id ∉ s.ids → ∀ k, t.read id = .ok k ↔ KeyStore.lastOf ks id = some k) ∧
      ((∀ k ∈ ks, t.read k.id = .ok k) ↔ ∀ k ∈ ks, ∀ l ∈ ks, k.id = l.id → k = l) := by
  cases hc : s.create ks with
  | error e =>
    obtain ⟨k, hk, rfl⟩ := KeyStore.create_eq_error.mp hc
    exact .inl ⟨k, hk, by rw [KeyStore.call, hc]; rfl⟩
  | ok t =>
    obtain ⟨hnew, rfl⟩ := KeyStore.create_eq_ok.mp hc
    have hread : ∀ id, id ∉ s.ids → ∀ k,
        (ks.foldl KeyStore.put s).read id = .ok k ↔ KeyStore.lastOf ks id = some k := by
      intro id hid k
      have hn : s.find? id = none := by
        rwa [← KeyStore.isSome_find?_iff, Option.not_isSome_iff_eq_none] at hid
      rw [KeyStore.read_eq_ok, KeyStore.find?_foldl_put_eq, hn, Option.or_none]
    refine .inr ⟨hnew, _, by rw [KeyStore.call, hc]; rfl, fun id k hk => ?_, hread, ?_⟩
    · exact KeyStore.read_eq_ok.mpr (KeyStore.keeps_create hc id k (KeyStore.read_eq_ok.mp hk))
    · rw [← KeyStore.forall_lastOf]
      exact forall₂_congr fun k hk => hread k.id (hnew k hk) k

namespace Rotated

/-- Two keys that are to be stored under one id. -/
def twins : List Key := [⟨"key", material 1⟩, ⟨"key", material 2⟩]

end Rotated

/-- A batch with two keys for one id is stored, and the first of them cannot be read. -/
theorem twin_key_replaced :
    (({} : KeyStore).call (.create Rotated.twins)).1 = .stored (.ok ()) ∧
    ∃ k ∈ Rotated.twins, (∃ l ∈ Rotated.twins, l ≠ k ∧ l.id = k.id) ∧
      (({} : KeyStore).call (.create Rotated.twins)).2.read k.id ≠ .ok k := by
  refine ⟨rfl, ⟨"key", Rotated.material 1⟩, List.mem_cons_self, ?_, ?_⟩
  · exact ⟨⟨"key", Rotated.material 2⟩, by decide, by decide, rfl⟩
  · -- the second key has come in its place
    have hr : (({} : KeyStore).call (.create Rotated.twins)).2.read "key" =
        .ok ⟨"key", Rotated.material 2⟩ := rfl
    rw [hr]
    exact fun h => absurd (Except.ok.inj h) (by decide)

end Federation
