import Federation.Proofs.Registry.Basic

/-!
Logs that hold a registry. What a log tells of a life, once its secret is deciphered, is the entry
of the registry; a life that comes further takes its entry along.
-/
namespace Federation

/-- What a registry has of a life. -/
inductive Life.Keeps (cipher : Cipher) (owner : Owner) : Life → Option Entry → Prop where
  | vacant : Keeps cipher owner .vacant none
  | live {k : Kind} {m : Bool} {c : Settings Sealed k} {s : Settings String k} :
      c.Opens cipher s → Keeps cipher owner (.live k m c) (some ⟨owner, k, s, m, true⟩)
  | gone {e : Entry} : e.owner = owner → e.active = false → Keeps cipher owner .gone (some e)

namespace Life.Keeps

variable {cipher : Cipher} {owner : Owner} {life : Life} {e : Entry}

lemma eq_none (h : life.Keeps cipher owner none) : life = .vacant := by
  cases h
  rfl

lemma ne_vacant (h : life.Keeps cipher owner (some e)) : life ≠ .vacant := by
  rintro rfl
  nomatch h

end Life.Keeps

namespace Registry

/-- The log tells what the registry has. -/
structure Held (cipher : Cipher) (log : Log) (r : Registry) : Prop where
  lawful : log.Lawful
  entry : ∀ instanceId id, ∃ owner life, owner.instanceId = instanceId ∧
    log.Tells owner id life ∧ life.Keeps cipher owner (r instanceId id)

lemma held_empty (cipher : Cipher) : Held cipher {} empty where
  lawful := Log.lawful_empty
  entry instanceId _ := ⟨.ofInstance instanceId, .vacant, rfl, .nil, .vacant⟩

variable {cipher : Cipher} {log later : Log} {r : Registry} {owner : Owner} {id : String}

/-- Where a life has come further, so has its entry. -/
lemma Held.set (h : Held cipher log r) {next : Life} {e : Entry}
    (ha : log.Advances owner id next later) (hk : next.Keeps cipher owner (some e)) :
    Held cipher later (r.set owner.instanceId id e) where
  lawful := ha.grows.lawful
  entry := by
    intro i j
    by_cases hij : i = owner.instanceId ∧ j = id
    · obtain ⟨rfl, rfl⟩ := hij
      exact ⟨owner, next, rfl, ha.tells, by rwa [set_self]⟩
    · obtain ⟨o, life, rfl, t, hl⟩ := h.entry i j
      refine ⟨o, life, rfl, ?_, by rwa [r.set_of_ne e hij]⟩
      rw [Log.Tells, ha.others _ _ (not_and_or.mp hij)]
      exact t

/-- An active entry is a life that goes on; without one, no life does. -/
lemma Held.live_or (h : Held cipher log r) (instanceId id : String) :
    (∃ (o : Owner) (k : Kind) (m : Bool) (c : Settings Sealed k) (s : Settings String k),
      o.instanceId = instanceId ∧ log.Tells o id (.live k m c) ∧
      r instanceId id = some ⟨o, k, s, m, true⟩ ∧ c.Opens cipher s) ∨
    ∃ (o : Owner) (life : Life), o.instanceId = instanceId ∧ log.Tells o id life ∧
      (∀ k m c, life ≠ .live k m c) ∧ (r instanceId id).any Entry.active = false := by
  obtain ⟨o, life, hi, t, hk⟩ := h.entry instanceId id
  generalize r instanceId id = entry at hk ⊢
  cases hk with
  | vacant => exact .inr ⟨o, _, hi, t, nofun, rfl⟩
  | live ho => exact .inl ⟨o, _, _, _, _, hi, t, rfl, ho⟩
  | gone _ hg => exact .inr ⟨o, _, hi, t, nofun, hg⟩

/-- Owners have the entries whose lives they see. -/
lemma Held.active_or (h : Held cipher log r) (owner : Owner) (id : String) :
    (∃ (k : Kind) (m : Bool) (c : Settings Sealed k) (s : Settings String k),
      log.Tells owner id (.live k m c) ∧ r owner.instanceId id = some ⟨owner, k, s, m, true⟩ ∧
      c.Opens cipher s) ∨
    ∃ (o : Owner) (life : Life), o.instanceId = owner.instanceId ∧ log.Tells o id life ∧
      (∀ k m c, life.seenBy o owner ≠ .live k m c) ∧
      ∀ asked, r.hasActive owner id asked = false := by
  rcases h.live_or owner.instanceId id with
    ⟨o, k, m, c, s, hi, t, hr, ho⟩ | ⟨o, life, hi, t, hn, hr⟩
  · by_cases hown : o = owner
    · subst hown
      exact .inl ⟨k, m, c, s, t, hr, ho⟩
    · refine .inr ⟨o, _, hi, t, fun k m c he => ?_, fun asked => ?_⟩
      · exact hown (Life.seenBy_eq_live he).1.symm
      · rw [hasActive_of_some hr]
        simp [hown]
  · refine .inr ⟨o, life, hi, t, fun k m c he => ?_, fun asked => ?_⟩
    · exact hn k m c (Life.seenBy_eq_live he).2
    cases he : r owner.instanceId id with
    | none => rw [hasActive, he, Option.any_none]
    | some e =>
      rw [he, Option.any_some] at hr
      simp [hasActive_of_some he, hr]

end Registry
end Federation
