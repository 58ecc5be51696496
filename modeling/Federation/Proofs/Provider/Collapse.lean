import Federation.Proofs.Provider.Convergence
import Federation.Proofs.Provider.Replay

/-!
Several changes in one event. A provider comes out of it as out of an event for each change, but for
one thing: of several changes to a bundle only the last one is in the event, and what the earlier
ones gave and the last one does not is lost.
-/
namespace Federation

section

variable {about : α → Option (Option β)} {l : List α}

lemma lastGiven_map {given : α → Option β} (f : β → γ) (before : γ) (l : List α) :
    lastGiven (fun a => (given a).map f) before l =
      ((l.filterMap given).getLast?.map f).getD before := by
  rw [lastGiven, ← List.map_filterMap, List.getLast?_map]

lemma lastGiven_of_rest {given : α → Option β} {a : α} {b before : β} {r : List α}
    (ha : given a = some b) (hr : ∀ c ∈ r, given c = none) :
    lastGiven given before (l ++ a :: r) = b := by
  rw [lastGiven, List.filterMap_append, List.filterMap_cons_some ha,
    List.filterMap_eq_nil_iff.mpr hr, List.getLast?_append_cons, List.getLast?_singleton,
    Option.getD_some]

/-- A last word that gives a value gives the one that is given last. -/
lemma lastGiven_join {b : β} (h : lastGiven about none l = some b) (before : β) :
    lastGiven (fun a => (about a).join) before l = b := by
  unfold lastGiven at h ⊢
  have hlast : (l.filterMap about).getLast? = some (some b) := by
    cases hg : (l.filterMap about).getLast? with
    | none => rw [hg] at h; cases h
    | some o => rw [hg] at h; exact congrArg some h
  obtain ⟨init, hinit⟩ := List.getLast?_eq_some_iff.mp hlast
  have hjoin : l.filterMap (fun a => (about a).join) = (l.filterMap about).filterMap id :=
    List.filterMap_filterMap.symm
  rw [hjoin, hinit, List.filterMap_append]
  simp

/-- Nothing that is given is lost in the last word, whatever was there before, just if the last word
gives a value whenever some word does. -/
lemma lastGiven_getD_iff [Nontrivial β] :
    (∀ before, (lastGiven about none l).getD before =
        lastGiven (fun a => (about a).join) before l) ↔
      ((∃ a ∈ l, (about a).join.isSome = true) → (lastGiven about none l).isSome = true) := by
  cases hb : lastGiven about none l with
  | some b => simp [lastGiven_join hb]
  | none =>
    have hnil : (¬ ∃ a ∈ l, (about a).join.isSome = true) ↔
        l.filterMap (fun a => (about a).join) = [] := by
      simp [List.filterMap_eq_nil_iff]
    simp only [Option.getD_none, Option.isSome_none, Bool.false_eq_true, imp_false, hnil, lastGiven]
    constructor
    · intro h
      by_contra hne
      obtain ⟨b, hlast⟩ := Option.ne_none_iff_exists'.mp (mt List.getLast?_eq_none_iff.mp hne)
      -- the value that is given last differs from some value that may have been there before
      obtain ⟨before, hbefore⟩ := exists_ne b
      exact hbefore (by simpa [hlast] using h before)
    · intro hn before
      rw [hn]
      rfl

end

/-- No field has but one value. -/
instance (s : Shape) : Nontrivial s.Value :=
  match s with
  | .text => (⟨"", "a", by decide⟩ : Nontrivial String)
  | .texts => (⟨[], [""], by decide⟩ : Nontrivial (List String))
  | .flag => (inferInstance : Nontrivial Bool)
  | .span => (⟨⟨0⟩, ⟨1⟩, by decide⟩ : Nontrivial Duration)

namespace Change

variable {k : Kind} {f : Field} {cs : List (Change k)}

/-- What a change has for a field. A change of a bundle is about all fields of the bundle, also
about those it gives no value. -/
def about (f : Field) : Change k → Option (Option f.Value)
  | .field g _ v => if h : g = f then some (some (h ▸ v)) else none
  | .secret _ _ => none
  | .bundle b _ delta => if h : f ∈ b.fields then some (delta f h) else none

/-- The secret that a change gives. -/
def newSecret : Change k → Option Sealed
  | .secret _ v => some v
  | _ => none

/-- A field that some change gives a value, the last change about it gives one. -/
def Kept (f : Field) (cs : List (Change k)) : Prop :=
  (∃ c ∈ cs, (c.about f).join.isSome = true) → (lastGiven (about f) none cs).isSome = true

end Change

namespace Revision

variable {k : Kind} {r : Revision Sealed k} {c : Change k} {f : Field} {hf : f ∈ k.fields}

lemma change_plain : (r.change c).plain f hf = (c.about f).getD (r.plain f hf) := by
  cases c with
  | field g hg v =>
    by_cases h : g = f
    · subst h
      simp [change, Change.about]
    · simp [change, Change.about, h]
  | secret h v => rfl
  | bundle b hb delta =>
    simp only [change, Change.about]
    split <;> rfl

lemma change_secret {hs : k.hasSecret = true} :
    (r.change c).secret hs = (c.newSecret.map some).getD (r.secret hs) := by
  cases c <;> rfl

lemma foldl_change_plain (cs : List (Change k)) (r : Revision Sealed k) :
    (cs.foldl change r).plain f hf = lastGiven (Change.about f) (r.plain f hf) cs := by
  induction cs generalizing r with
  | nil => rfl
  | cons c cs ih => rw [List.foldl_cons, ih, lastGiven_cons, change_plain]

lemma foldl_change_secret {hs : k.hasSecret = true} (cs : List (Change k)) (r : Revision Sealed k) :
    (cs.foldl change r).secret hs =
      lastGiven (fun c => c.newSecret.map some) (r.secret hs) cs := by
  induction cs generalizing r with
  | nil => rfl
  | cons c cs ih => rw [List.foldl_cons, ih, lastGiven_cons, change_secret]

/-- Only a list without changes is refused. -/
lemma ofChanges_eq_error {cs : List (Change k)} {e : Refusal} :
    ofChanges cs = .error e ↔ cs = [] ∧ e = .nothingChanged := by
  cases cs <;> simp [ofChanges, eq_comm]

lemma ofChanges_of_ne {cs : List (Change k)} (h : cs ≠ []) :
    ofChanges cs = .ok (cs.foldl change empty) := if_neg (by simpa using h)

end Revision

/-- No two items of a kind have a field in common. -/
lemma Kind.items_disjoint (k : Kind) : ∀ i ∈ k.items, ∀ j ∈ k.items, i ≠ j →
    ∀ f ∈ i.fields, f ∉ j.fields := by
  cases k <;> decide

namespace Change

variable {k : Kind} {c : Change k} {f : Field} {cs : List (Change k)}

lemma item_mem (c : Change k) : c.item ∈ k.items := by
  cases c with
  | field f h v => exact h
  | secret h v => exact Kind.secret_mem_items h
  | bundle b h delta => exact h

lemma about_eq_none (h : f ∉ c.item.fields) : c.about f = none := by
  cases c with
  | field g hg v => exact dif_neg fun he : g = f => h (he ▸ List.mem_singleton.mpr rfl)
  | secret hs v => rfl
  | bundle b hb delta => exact dif_neg h

/-- Changes to different items leave each other's fields alone. -/
lemma kept_of_nodup (h : (cs.map item).Nodup) (f : Field) : Kept f cs := by
  rintro ⟨c, hc, hgiven⟩
  have hf : f ∈ c.item.fields := by
    by_contra hn
    rw [about_eq_none hn] at hgiven
    cases hgiven
  obtain ⟨b, hb⟩ : ∃ b, c.about f = some (some b) := by
    cases ha : c.about f with
    | none => rw [ha] at hgiven; cases hgiven
    | some o => rw [ha] at hgiven; exact ⟨_, congrArg some (Option.eq_some_of_isSome hgiven)⟩
  obtain ⟨before, after, rfl⟩ := List.append_of_mem hc
  -- no later change is about the field, since none is about the same item
  have hafter : ∀ d ∈ after, d.about f = none := by
    intro d hd
    refine about_eq_none (k.items_disjoint _ c.item_mem _ d.item_mem ?_ f hf)
    rw [List.map_append, List.map_cons] at h
    have hn := (List.nodup_cons.mp h.of_append_right).1
    exact fun he => hn (he ▸ List.mem_map_of_mem hd)
  rw [lastGiven_of_rest hb hafter]
  rfl

end Change

attribute [ext] Settings

namespace Settings

variable {k : Kind} {s : Settings (Option Sealed) k} {f : Field} {hf : f ∈ k.fields}
  {hs : k.hasSecret = true} {cs : List (Change k)}

/-- The settings after changes in one event. -/
def collapse (s : Settings (Option Sealed) k) (cs : List (Change k)) : Settings (Option Sealed) k :=
  s.revise ((cs.foldl Revision.change Revision.empty).map some)

lemma collapse_plain : (s.collapse cs).plain f hf =
    (lastGiven (Change.about f) none cs).getD (s.plain f hf) :=
  congrArg (Option.getD · _) (Revision.foldl_change_plain cs .empty)

lemma collapse_secret : (s.collapse cs).secret hs =
    lastGiven (fun c => c.newSecret.map some) (s.secret hs) cs := by
  have h : (s.collapse cs).secret hs = (((cs.foldl Revision.change Revision.empty).secret hs).map
      some).getD (s.secret hs) := rfl
  rw [h, Revision.foldl_change_secret, lastGiven_map, lastGiven_map]
  cases (cs.filterMap Change.newSecret).getLast? <;> rfl

lemma foldl_collapse_plain : (cs.foldl (fun s c => s.collapse [c]) s).plain f hf =
    lastGiven (fun c => (c.about f).join) (s.plain f hf) cs := by
  induction cs generalizing s with
  | nil => rfl
  | cons c cs ih =>
    rw [List.foldl_cons, ih, lastGiven_cons, collapse_plain, lastGiven_cons]
    cases c.about f <;> rfl

lemma foldl_collapse_secret : (cs.foldl (fun s c => s.collapse [c]) s).secret hs =
    lastGiven (fun c => c.newSecret.map some) (s.secret hs) cs := by
  induction cs generalizing s with
  | nil => rfl
  | cons c cs ih => rw [List.foldl_cons, ih, lastGiven_cons, collapse_secret, lastGiven_cons]; rfl

/-- Changes do the same at once and one by one if no field is left out by the last one about it. -/
lemma collapse_eq_foldl_iff : (∀ s : Settings (Option Sealed) k,
    s.collapse cs = cs.foldl (fun s c => s.collapse [c]) s) ↔ ∀ f ∈ k.fields, Change.Kept f cs := by
  constructor
  · intro h f hf
    refine lastGiven_getD_iff.mp fun before => ?_
    let s : Settings (Option Sealed) k :=
      ⟨Record.set (fun f _ => f.shape.initial) f before, fun _ => none⟩
    have hbefore : s.plain f hf = before := dif_pos rfl
    rw [← hbefore, ← collapse_plain, ← foldl_collapse_plain, h s]
  · intro hkept s
    refine Settings.ext (funext fun f => funext fun hf => ?_) (funext fun hs => ?_)
    · rw [collapse_plain, foldl_collapse_plain, lastGiven_getD_iff.mpr (hkept f hf)]
    · rw [collapse_secret, foldl_collapse_secret]

end Settings

namespace Provider

variable {k : Kind} {p : Provider k} {id : String} {cs : List (Change k)}

/-- The provider after an event that is made of changes. -/
def revised? (p : Provider k) (id : String) (cs : List (Change k)) : Except Refusal (Provider k) :=
  (Revision.ofChanges cs).map fun r => p.apply (.changed k id r)

lemma revised?_of_ne (hp : p.status ≠ .removed) (hcs : cs ≠ []) :
    p.revised? id cs = .ok ⟨p.status, p.settings.collapse cs⟩ := by
  rw [revised?, Revision.ofChanges_of_ne hcs, Except.map, apply_changed hp]
  rfl

lemma revised?_of_removed (hp : p.status = .removed) (hcs : cs ≠ []) :
    p.revised? id cs = .ok p := by
  rw [revised?, Revision.ofChanges_of_ne hcs, Except.map, apply_of_removed hp]

lemma foldlM_revised? (hp : p.status ≠ .removed) :
    cs.foldlM (fun q c => q.revised? id [c]) p =
      .ok ⟨p.status, cs.foldl (fun s c => s.collapse [c]) p.settings⟩ := by
  induction cs generalizing p with
  | nil => rfl
  | cons c cs ih =>
    rw [List.foldlM_cons, revised?_of_ne hp (List.cons_ne_nil _ _)]
    exact ih (p := ⟨p.status, p.settings.collapse [c]⟩) hp

lemma foldlM_revised?_of_removed (hp : p.status = .removed) :
    cs.foldlM (fun q c => q.revised? id [c]) p = .ok p := by
  induction cs with
  | nil => rfl
  | cons c cs ih =>
    rw [List.foldlM_cons, revised?_of_removed hp (List.cons_ne_nil _ _)]
    exact ih

end Provider

/-- Several changes in one event do to every provider what an event for each does, in their order,
just if there are some and a field to which one of them gives a value is given one by the last of
those about it; a bundle's earlier change is lost in all that its last one leaves out. Changes of
different items lose nothing. Only an empty list is refused. -/
theorem changes_in_one_event {k : Kind} (id : String) (cs : List (Change k)) :
    (∀ e, Revision.ofChanges cs = .error e ↔ cs = [] ∧ e = .nothingChanged) ∧
    ((∀ p : Provider k, p.revised? id cs = cs.foldlM (fun q c => q.revised? id [c]) p) ↔
      cs ≠ [] ∧ ∀ f ∈ k.fields, Change.Kept f cs) ∧
    ((cs.map Change.item).Nodup → ∀ f, Change.Kept f cs) := by
  refine ⟨fun e => Revision.ofChanges_eq_error, ⟨fun h => ?_, ?_⟩, Change.kept_of_nodup⟩
  · have hcs : cs ≠ [] := by
      rintro rfl
      cases h {}
    refine ⟨hcs, Settings.collapse_eq_foldl_iff.mp fun s => ?_⟩
    have hn : (⟨.unspecified, s⟩ : Provider k).status ≠ .removed := nofun
    have hp := h ⟨.unspecified, s⟩
    rw [Provider.revised?_of_ne hn hcs, Provider.foldlM_revised? hn] at hp
    exact congrArg Provider.settings (Except.ok.inj hp)
  · rintro ⟨hcs, hkept⟩ p
    by_cases hp : p.status = .removed
    · rw [Provider.revised?_of_removed hp hcs, Provider.foldlM_revised?_of_removed hp]
    · rw [Provider.revised?_of_ne hp hcs, Provider.foldlM_revised? hp,
        Settings.collapse_eq_foldl_iff.mpr hkept]

namespace Sample

/-- A permission is given, and then another one. -/
def permissions : List (Change .google) :=
  [.bundle .options (by decide) (Patch.empty.give (.option .creationAllowed) true),
    .bundle .options (by decide) (Patch.empty.give (.option .linkingAllowed) true)]

end Sample

/-- Of two permissions that are given in one event the first is lost. -/
theorem first_permission_lost :
    ∃ p q : Provider .google,
      ({} : Provider .google).revised? "id" Sample.permissions = .ok p ∧
      Sample.permissions.foldlM (fun q c => q.revised? "id" [c]) ({} : Provider .google) = .ok q ∧
      p.settings.get (.option .creationAllowed) = false ∧
      q.settings.get (.option .creationAllowed) = true ∧
      p.settings.get (.option .linkingAllowed) = true :=
  ⟨_, _, rfl, rfl, rfl, rfl, rfl⟩

end Federation
