import Federation.Proofs.Provider.Codec
import Federation.Proofs.Provider.Drafts
import Federation.Proofs.Provider.Opening

/-!
The changes that lead from stored settings to desired ones. Item by item they add up to the
difference of the fields and, where a secret is given, a new secret; applied to the stored settings
they make what was desired.
-/
namespace Federation

variable {k : Kind} {cipher : Cipher} {nonce : Nonce} {s : Settings (Option Sealed) k}
  {desired : Settings String k}

lemma Kind.secret_mem_items {k : Kind} (h : k.hasSecret = true) : .secret ∈ k.items := by
  simpa [Kind.hasSecret] using h

/-- A revision that leads to the desired settings as far as some items go, and no further. -/
structure Leads (cipher : Cipher) (nonce : Nonce) (s : Settings (Option Sealed) k)
    (desired : Settings String k) (items : List Item) (r : Revision Sealed k) : Prop where
  plain : ∀ f h, r.plain f h =
    if f ∈ items.flatMap Item.fields then s.plain.diff desired.plain f h else none
  given : ∀ h v, r.secret h = some v → desired.secret h ≠ "" ∧
    cipher.protectText nonce (desired.secret h) = .ok v
  kept : ∀ h, .secret ∈ items → r.secret h = none → desired.secret h = ""

namespace Leads

lemma nil : Leads cipher nonce s desired [] .empty where
  plain _ _ := by simp [Revision.empty, Patch.empty]
  given := by simp [Revision.empty]
  kept := by simp

variable {items : List Item} {r r' : Revision Sealed k} {cs : List (Change k)}

/-- Where nothing differs, nothing need be said. -/
lemma plain_of_same (h : Leads cipher nonce s desired items r) {f : Field} {hf : f ∈ k.fields}
    (hs : s.plain.diff desired.plain f hf = none) :
    r.plain f hf = s.plain.diff desired.plain f hf := by
  rw [h.plain]
  split
  · rfl
  · exact hs.symm

/-- One more item, in which the revision says all that differs. -/
lemma snoc (h : Leads cipher nonce s desired items r) (i : Item)
    (hp : ∀ f hf, r'.plain f hf =
      if f ∈ i.fields then s.plain.diff desired.plain f hf else r.plain f hf)
    (hg : ∀ hs v, r'.secret hs = some v → desired.secret hs ≠ "" ∧
      cipher.protectText nonce (desired.secret hs) = .ok v)
    (hk : ∀ hs, .secret ∈ items ++ [i] → r'.secret hs = none → desired.secret hs = "") :
    Leads cipher nonce s desired (items ++ [i]) r' where
  plain f hf := by
    rw [hp, h.plain, List.flatMap_append, List.flatMap_singleton]
    by_cases hi : f ∈ i.fields <;> simp [hi]
  given := hg
  kept := hk

lemma field (h : Leads cipher nonce s desired items r) {f : Field} {hi : .field f ∈ k.items}
    (hc : s.itemChanges cipher nonce desired (.field f) hi = .ok cs) :
    Leads cipher nonce s desired (items ++ [.field f]) (cs.foldl .change r) := by
  simp only [Settings.itemChanges, Except.ok.injEq] at hc
  subst hc
  have hk : ∀ hs, .secret ∈ items ++ [.field f] → r.secret hs = none → desired.secret hs = "" := by
    intro hs hm
    exact h.kept hs (by simpa using hm)
  unfold Changes.ofValue
  split
  · next hs =>
    refine h.snoc _ (fun g hg => ?_) h.given hk
    split
    · next hgf =>
      obtain rfl := List.mem_singleton.mp hgf
      exact h.plain_of_same ((Record.diff_eq_none_iff _ _ _ _).mpr (of_decide_eq_true hs))
    · rfl
  · next hs =>
    refine h.snoc _ (fun g hg => ?_) h.given hk
    simp only [List.foldl_cons, List.foldl_nil, Revision.change, Revision.give, Patch.give,
      Record.set, Item.fields, List.mem_singleton]
    by_cases hgf : f = g
    · subst hgf
      simp only [dif_pos, if_pos, Record.diff]
      rw [if_neg (by simpa using hs)]
    · rw [dif_neg hgf, if_neg (Ne.symm hgf)]

lemma bundle (h : Leads cipher nonce s desired items r) {b : Bundle} {hi : .bundle b ∈ k.items}
    (hc : s.itemChanges cipher nonce desired (.bundle b) hi = .ok cs) :
    Leads cipher nonce s desired (items ++ [.bundle b]) (cs.foldl .change r) := by
  simp only [Settings.itemChanges, Except.ok.injEq] at hc
  subst hc
  have hk : ∀ hs, .secret ∈ items ++ [.bundle b] → r.secret hs = none → desired.secret hs = "" := by
    intro hs hm
    exact h.kept hs (by simpa using hm)
  unfold Changes.ofBundle
  split
  · next hz =>
    refine h.snoc _ (fun g hg => ?_) h.given hk
    split
    · next hgb =>
      have hd := congrFun (congrFun ((Patch.isZero_iff _).mp hz) g) hgb
      exact h.plain_of_same hd
    · rfl
  · refine h.snoc _ (fun g hg => ?_) h.given hk
    simp only [List.foldl_cons, List.foldl_nil, Revision.change]
    by_cases hgb : g ∈ b.fields
    · rw [dif_pos hgb, if_pos (show g ∈ (Item.bundle b).fields from hgb)]
      rfl
    · rw [dif_neg hgb, if_neg (show g ∉ (Item.bundle b).fields from hgb)]

lemma secret (h : Leads cipher nonce s desired items r) {hi : .secret ∈ k.items}
    (hc : s.itemChanges cipher nonce desired .secret hi = .ok cs) :
    Leads cipher nonce s desired (items ++ [.secret]) (cs.foldl .change r) := by
  simp only [Settings.itemChanges, Changes.ofSecret] at hc
  split at hc
  · next ht =>
    obtain rfl := (Except.ok.inj hc).symm
    exact h.snoc _ (fun _ _ => rfl) h.given fun hs _ _ => ht
  · next ht =>
    obtain ⟨v, hv, rfl⟩ := map_eq_ok.mp hc
    refine h.snoc _ (fun _ _ => rfl) (fun hs w hw => ?_) fun hs _ hn => by cases hn
    obtain rfl := Option.some.inj hw
    exact ⟨ht, hv⟩

/-- The changes of each item lead one item further. -/
lemma item (h : Leads cipher nonce s desired items r) {i : Item} {hi : i ∈ k.items}
    (hc : s.itemChanges cipher nonce desired i hi = .ok cs) :
    Leads cipher nonce s desired (items ++ [i]) (cs.foldl .change r) := by
  cases i with
  | field f => exact h.field hc
  | secret => exact h.secret hc
  | bundle b => exact h.bundle hc

lemma items_append (h : Leads cipher nonce s desired items r) (is : List { i // i ∈ k.changeOrder })
    {lists : List (List (Change k))}
    (hc : (is.mapM fun i => s.itemChanges cipher nonce desired i.1 (Kind.mem_changeOrder.1 i.2)) =
      .ok lists) :
    Leads cipher nonce s desired (items ++ is.map Subtype.val) (lists.flatten.foldl .change r) := by
  induction is generalizing items r lists with
  | nil =>
    cases hc
    simpa using h
  | cons i is ih =>
    obtain ⟨cs, rest, hcs, hrest, rfl⟩ := mapM_cons_eq_ok.mp hc
    rw [List.flatten_cons, List.foldl_append, List.map_cons, List.append_cons]
    exact ih (h.item hcs) hrest

end Leads

namespace Settings

variable {cs : List (Change k)}

/-- All changes together lead all the way. -/
lemma leads_of_changes (h : s.changes cipher nonce desired = .ok cs) :
    Leads cipher nonce s desired k.changeOrder (cs.foldl .change .empty) := by
  obtain ⟨lists, hl, hc⟩ := bind_eq_ok.mp h
  cases hc
  simpa using Leads.nil.items_append k.changeOrder.attach hl

lemma changes_plain (h : s.changes cipher nonce desired = .ok cs) :
    (cs.foldl Revision.change .empty).plain = s.plain.diff desired.plain := by
  funext f hf
  rw [(leads_of_changes h).plain, if_pos]
  obtain ⟨i, hi, hfi⟩ := List.mem_flatMap.mp hf
  exact List.mem_flatMap.mpr ⟨i, Kind.mem_changeOrder.mpr hi, hfi⟩

/-- A changed event gives a field if it differs. -/
lemma plain_of_changes (h : s.changes cipher nonce desired = .ok cs) {f : Field}
    {hf : f ∈ k.fields} {v : f.Value} :
    (cs.foldl Revision.change .empty).plain f hf = some v ↔
      s.plain f hf ≠ desired.plain f hf ∧ desired.plain f hf = v := by
  rw [changes_plain h, Record.diff]
  split <;> simp [*]

/-- It gives a secret only if one is desired. -/
lemma secret_eq_none_of_changes (h : s.changes cipher nonce desired = .ok cs)
    (hs : k.hasSecret = true) :
    (cs.foldl Revision.change .empty).secret hs = none ↔ desired.secret hs = "" := by
  have hl := leads_of_changes h
  refine ⟨hl.kept hs (Kind.mem_changeOrder.mpr (Kind.secret_mem_items hs)), fun he => ?_⟩
  by_contra hn
  obtain ⟨v, hv⟩ := Option.ne_none_iff_exists'.mp hn
  exact (hl.given hs v hv).1 he

lemma secret_of_changes (h : s.changes cipher nonce desired = .ok cs) {hs : k.hasSecret = true}
    {v : Sealed} : (cs.foldl Revision.change .empty).secret hs = some v ↔
      desired.secret hs ≠ "" ∧ cipher.protectText nonce (desired.secret hs) = .ok v := by
  have hl := leads_of_changes h
  refine ⟨hl.given hs v, fun ⟨hne, hv⟩ => ?_⟩
  cases hr : (cs.foldl Revision.change .empty).secret hs with
  | none => exact absurd ((secret_eq_none_of_changes h hs).mp hr) hne
  | some w => rw [← Except.ok.inj ((hl.given hs w hr).2.symm.trans hv)]

/-- No change gives a field another value than the desired one. -/
lemma changes_value (h : s.changes cipher nonce desired = .ok cs) {f : Field} {hf : f ∈ k.fields}
    {v : f.Value} (hv : (cs.foldl Revision.change .empty).plain f hf = some v) :
    v = desired.plain f hf := ((plain_of_changes h).mp hv).2.symm

/-- There are changes, unless a secret that is given cannot be encrypted. -/
lemma changes_isOk (h : ∀ hs, desired.secret hs ≠ "" →
    ∃ v, cipher.protectText nonce (desired.secret hs) = .ok v) :
    ∃ cs, s.changes cipher nonce desired = .ok cs := by
  have hi : ∀ i ∈ k.changeOrder.attach, ∃ cs,
      s.itemChanges cipher nonce desired i.1 (Kind.mem_changeOrder.1 i.2) = .ok cs := by
    rintro ⟨i, hi⟩ -
    cases i with
    | field f => exact ⟨_, rfl⟩
    | bundle b => exact ⟨_, rfl⟩
    | secret =>
      simp only [itemChanges, Changes.ofSecret]
      split
      · exact ⟨_, rfl⟩
      · next hne =>
        obtain ⟨v, hv⟩ := h (Kind.hasSecret_of_mem (Kind.mem_changeOrder.1 hi)) hne
        exact ⟨_, congrArg (Except.map _) hv⟩
  obtain ⟨lists, hl⟩ := mapM_isOk hi
  exact ⟨lists.flatten, bind_eq_ok.mpr ⟨lists, hl, rfl⟩⟩

/-- The settings with the secret of earlier ones where their own is empty. -/
def keeping (old s : Settings String k) : Settings String k :=
  ⟨s.plain, fun h => if s.secret h = "" then old.secret h else s.secret h⟩

/-- The changes make of stored settings what was desired. -/
lemma Opens.revise {c : Settings Sealed k} {old : Settings String k} {cs : List (Change k)}
    (h : c.Opens cipher old) (hr : ∀ hs, cipher.Recovers (desired.secret hs))
    (hc : (c.map some).changes cipher nonce desired = .ok cs) :
    (c.revise (cs.foldl .change .empty)).Opens cipher (old.keeping desired) where
  plain := by
    rw [Settings.revise, changes_plain hc]
    exact Record.patch_diff _ _
  secret hs := by
    simp only [Settings.revise, keeping]
    cases hv : (cs.foldl Revision.change .empty).secret hs with
    | none =>
      simp only [Option.getD_none, (secret_eq_none_of_changes hc hs).mp hv, if_true, h.secret hs]
    | some v =>
      obtain ⟨hne, hp⟩ := (secret_of_changes hc).mp hv
      obtain ⟨w, hw, ho⟩ := (hr hs).revealText nonce
      obtain rfl := Except.ok.inj (hp.symm.trans hw)
      simp only [Option.getD_some, if_neg hne, ho]

end Settings
end Federation
