import Federation.Proofs.Provider.Members
import Federation.Provider.Change
import Federation.Provider.Event

/-!
Payloads of events. What an event writes is read back as the same event under the tag it is stored
with, and names the provider under its id.
-/
namespace Federation

open Json (Schema Layout Member Fault Reader)

namespace Kind

lemma keys_nodup (k : Kind) : ("id" :: k.secretKey :: k.fields.map Field.key).Nodup := by
  cases k <;> decide +kernel

/-- The keys of fields, the secret's key and that of the id are all distinct. -/
lemma entries_nodup (k : Kind) {plain secret : List (String × Json)} (j : Json)
    (hp : (plain.map Prod.fst).Sublist (k.fields.map Field.key))
    (hs : (secret.map Prod.fst).Sublist [k.secretKey]) :
    ((("id", j) :: (plain ++ secret)).map Prod.fst).Nodup := by
  rw [List.map_cons, List.map_append]
  apply ((hp.append hs).cons_cons "id").nodup
  exact ((List.perm_append_singleton _ _).cons _).nodup_iff.mpr k.keys_nodup

end Kind

namespace Revision

variable {k : Kind}

/-- The members under which a revision stands, with the id of its provider. -/
structure Shown (id : String) (r : Revision Sealed k) (look : String → Option Json) : Prop where
  id : look "id" = some (.string id)
  given : ∀ f hf v, r.plain f hf = some v → ∃ j, f.shape.write v = .ok j ∧ look f.key = some j
  missing : ∀ f hf, r.plain f hf = none → look f.key = none
  secret : ∀ h, look k.secretKey = (r.secret h).map Sealed.toJson

lemma secret?_eq (r : Revision Sealed k) (h : k.hasSecret = true) : r.secret? = r.secret h := by
  simp [secret?, h]

lemma secret?_eq_some {r : Revision Sealed k} {v : Sealed} :
    r.secret? = some v ↔ ∃ h, r.secret h = some v := by
  unfold secret?
  split
  · next h => exact ⟨fun hv => ⟨h, hv⟩, fun ⟨_, hv⟩ => hv⟩
  · next h => exact ⟨nofun, fun ⟨h', _⟩ => absurd h' h⟩

/-- A revision is written under distinct keys. -/
lemma entries_of_toJson {id : String} {r : Revision Sealed k} {j : Json} (h : r.toJson id = .ok j) :
    ∃ plain, r.plain.toListM Field.entry = .ok plain ∧
      ((("id", Json.string id) ::
        (plain ++ r.secret?.toList.map fun v => (k.secretKey, v.toJson))).map Prod.fst).Nodup ∧
      j = .ofEntries (("id", .string id) ::
        (plain ++ r.secret?.toList.map fun v => (k.secretKey, v.toJson))) := by
  obtain ⟨plain, hp, h⟩ := bind_eq_ok.mp h
  refine ⟨plain, hp, k.entries_nodup _ (Patch.keys_of_toListM hp) ?_, (Except.ok.inj h).symm⟩
  cases r.secret? <;> simp

/-- All of a revision is written. -/
lemma shown_of_toJson {id : String} {r : Revision Sealed k} {j : Json}
    (h : r.toJson id = .ok j) :
    ∃ es, j = .ofEntries es ∧ (es.map Prod.fst).Nodup ∧ r.Shown id fun key => es.lookup key := by
  obtain ⟨plain, hp, hn, rfl⟩ := entries_of_toJson h
  have hk := k.keys_nodup
  simp only [List.nodup_cons, List.mem_cons, not_or] at hk
  obtain ⟨⟨hids, hidf⟩, hsf, hf⟩ := hk
  have hsub := Patch.keys_of_toListM hp
  have hse : ∀ key ∈ (r.secret?.toList.map fun v => (k.secretKey, v.toJson)).map Prod.fst,
      key = k.secretKey := by
    simp
  refine ⟨_, rfl, hn, Entries.lookup_of_mem hn List.mem_cons_self, ?_, ?_, ?_⟩
  · intro f hff v hv
    obtain ⟨jf, hjf, hm⟩ := Patch.mem_of_toListM hp hv
    exact ⟨jf, hjf, Entries.lookup_of_mem hn
      (List.mem_cons_of_mem _ (List.mem_append_left _ hm))⟩
  · intro f hff hv
    have hfk : f.key ∈ k.fields.map Field.key := List.mem_map_of_mem hff
    apply Entries.lookup_of_not_mem
    rw [List.map_cons, List.map_append, List.mem_cons, List.mem_append]
    rintro (hm | hm | hm)
    · exact hidf ((show f.key = "id" from hm) ▸ hfk)
    · exact Patch.key_not_mem_of_toListM hp hf hv hm
    · exact hsf (hse _ hm ▸ hfk)
  · intro hs
    rw [secret?_eq r hs] at hn ⊢
    cases hv : r.secret hs with
    | none =>
      apply Entries.lookup_of_not_mem
      simp only [Option.toList_none, List.map_nil, List.append_nil, List.map_cons, List.mem_cons]
      rintro (hm | hm)
      · exact hids hm.symm
      · exact hsf (hsub.subset hm)
    | some v =>
      rw [hv] at hn
      apply Entries.lookup_of_mem hn
      simp

end Revision

/-- New settings are written like the revision that gives all of them. -/
lemma Settings.addedToJson_eq (id : String) (s : Settings Sealed k) :
    s.addedToJson id = s.toRevision.toJson id := by
  have hs : s.secret? = s.toRevision.secret? := by
    unfold secret? Revision.secret? toRevision
    split <;> rfl
  simp only [addedToJson, Revision.toJson, toRevision, Patch.toListM_some, hs]

lemma Settings.shown_of_toJson {id : String} {s : Settings Sealed k} {j : Json}
    (h : s.addedToJson id = .ok j) :
    ∃ es, j = .ofEntries es ∧ (es.map Prod.fst).Nodup ∧
      s.toRevision.Shown id fun key => es.lookup key :=
  Revision.shown_of_toJson (s.addedToJson_eq id ▸ h)

namespace Kind

variable {k : Kind} {P : Member → Prop} {field : Field → List Member} {secret : List Member}

/-- What holds of the members of all fields and of the secret's holds of all members. -/
lemma forall_members (hf : ∀ f ∈ k.fields, ∀ m ∈ field f, P m)
    (hs : k.hasSecret = true → ∀ m ∈ secret, P m) :
    ∀ m ∈ k.members field secret fun _ => [], P m := by
  intro m hm
  obtain ⟨i, hi, hm⟩ := List.mem_flatMap.mp hm
  cases i with
  | field f => exact hf f (mem_fields_of_field hi) m hm
  | secret => exact hs (hasSecret_of_mem hi) m hm
  | bundle b => nomatch hm

lemma forall_sharedMembers (hf : ∀ f ∈ k.fields, ∀ m ∈ field f, P m) :
    ∀ g ∈ k.sharedMembers field, ∀ m ∈ g, P m := by
  intro g hg m hm
  obtain ⟨i, hi, hg⟩ := List.mem_filterMap.mp hg
  cases i with
  | field f => nomatch hg
  | secret => nomatch hg
  | bundle b =>
    cases hg
    obtain ⟨f, hfb, hm⟩ := List.mem_flatMap.mp hm
    exact hf f (mem_fields_of_bundle hi f hfb) m hm

lemma withSecret_eq_ok {s : Except ε S} {t : k.hasSecret = true → S} (h : ∀ hs, s = .ok (t hs)) :
    k.withSecret s = .ok t := by
  unfold withSecret
  split
  · next hs => simp [h hs, Except.map]
  · next hs => exact congrArg Except.ok (funext fun h' => absurd h' hs)

end Kind

lemma Settings.addedLayout_gives {id : String} {s : Settings Sealed k}
    {look : String → Option Json} (h : s.toRevision.Shown id look) :
    (addedLayout k).Gives look (id, s) := by
  have hid := Schema.gives_text h.id
  have hf : ∀ (f : Field) hf, f.addedSchema.Gives look (s.plain f hf) := by
    intro f hf
    obtain ⟨j, hj, hl⟩ := h.given f hf _ rfl
    exact Schema.gives_member hl (Shape.reader_write hj)
  have hs : ∀ hs, (secretSchema k).Gives look (s.secret hs) := fun hs =>
    Schema.gives_member (h.secret hs) (Sealed.reader_toJson _)
  have hm := fun (f : Field) hff => (hf f hff).fits
  refine ⟨?_, Kind.forall_sharedMembers hm, ?_⟩
  · exact List.forall_mem_append.mpr ⟨hid.fits, Kind.forall_members hm fun h => (hs h).fits⟩
  · intro o
    have hr := Record.ofFunction_eq_ok s.plain fun f hff => (hf f hff).read o
    have hw := Kind.withSecret_eq_ok fun h => (hs h).read o
    simp only [addedLayout, hid.read, hr, hw, bind, Except.bind]
    rfl

lemma Revision.layout_gives {id : String} {r : Revision Sealed k} {look : String → Option Json}
    (h : r.Shown id look) : (layout k).Gives look (id, r) := by
  have hid := Schema.gives_text h.id
  have hf : ∀ (f : Field) hf, f.changedSchema.Gives look (r.plain f hf) := by
    intro f hf
    cases hv : r.plain f hf with
    | none => exact Schema.gives_absent (h.missing f hf hv)
    | some v =>
      obtain ⟨j, hj, hl⟩ := h.given f hf v hv
      exact Schema.gives_optional hl (fun hn => Shape.write_ne_null (hn ▸ hj))
        (Shape.reader_write hj)
  have hs : ∀ hs, (secretSchema k).Gives look (r.secret hs) := by
    intro hs
    have hl := h.secret hs
    cases hv : r.secret hs with
    | none => exact Schema.gives_absent (by rw [hl, hv]; rfl)
    | some v =>
      exact Schema.gives_optional (by rw [hl, hv]; rfl) (by simp [Sealed.toJson, Json.ofEntries])
        (Sealed.reader_toJson v)
  have hm := fun (f : Field) hff => (hf f hff).fits
  refine ⟨?_, Kind.forall_sharedMembers hm, ?_⟩
  · exact List.forall_mem_append.mpr ⟨hid.fits, Kind.forall_members hm fun h => (hs h).fits⟩
  · intro o
    have hr := Record.ofFunction_eq_ok r.plain fun f hff => (hf f hff).read o
    have hw := Kind.withSecret_eq_ok fun h => (hs h).read o
    simp only [layout, hid.read, hr, hw, bind, Except.bind]
    rfl

namespace Tag

lemma name_injective {s t : Tag} (h : s.name = t.name) : s = t :=
  List.inj_on_of_nodup_map (by decide +kernel : (all.map name).Nodup) (mem_all s) (mem_all t) h

lemma find?_name (tags : List Tag) (t : Tag) :
    find? tags t.name = if t ∈ tags then some t else none := by
  unfold find?
  split
  · next h =>
    cases hf : tags.find? fun s => s.name == t.name with
    | none => simpa using List.find?_eq_none.mp hf t h
    | some s =>
      have hs : s.name = t.name := by simpa using List.find?_some hf
      rw [name_injective hs]
  · next h =>
    rw [List.find?_eq_none]
    intro s hs hn
    exact h (name_injective (by simpa using hn) ▸ hs)

end Tag

namespace Event

/-- Is the event one of those in which the first providers were recorded? -/
def isEarly (e : Event) : Bool := Tag.early.contains e.tag

/-- What an event writes is read as the event. -/
theorem decode_payload {e : Event} {j : Json} (he : e.isEarly = false) (h : e.payload = .ok j) :
    decode e.tag j = .ok e ∧ j.get? "id" = some (.string e.id) := by
  cases e with
  | added k id s =>
    obtain ⟨es, rfl, hn, hs⟩ := Settings.shown_of_toJson h
    exact ⟨Layout.decode_ofEntries hn ((Settings.addedLayout_gives hs).map _) _,
      (Entries.lookup_ofList hn _).trans hs.id⟩
  | changed k id r =>
    obtain ⟨es, rfl, hn, hs⟩ := Revision.shown_of_toJson h
    exact ⟨Layout.decode_ofEntries hn ((Revision.layout_gives hs).map _) _,
      (Entries.lookup_ofList hn _).trans hs.id⟩
  | migrated t id s =>
    obtain ⟨es, rfl, hn, hs⟩ := Settings.shown_of_toJson h
    exact ⟨Layout.decode_ofEntries hn (((Settings.addedLayout_gives hs).wrap _).map _) _,
      (Entries.lookup_ofList hn _).trans hs.id⟩
  | removed id =>
    cases h
    have hn : ([("id", Json.string id)].map Prod.fst).Nodup := by simp
    exact ⟨Layout.decode_ofEntries hn
      ((Layout.gives_ofSchema (Schema.gives_text (by simp)) _).map _) _,
      Json.get?_ofEntries hn List.mem_cons_self⟩
  | _ => nomatch he

/-- Whoever reads a tag recognises what is read under it. -/
lemma recognise_of_decode {e : Event} {j : Json} (h : decode e.tag j = .ok e) (tags : List Tag) :
    recognise tags e.tag.name j = .ok (if e.tag ∈ tags then some e else none) := by
  rw [recognise, Tag.find?_name]
  by_cases ht : e.tag ∈ tags
  · simp only [if_pos ht, h, Except.map]
  · simp only [if_neg ht]

/-- An event that was written is recognised under the tags that are read, and only there. -/
lemma recognise_payload {e : Event} {j : Json} (he : e.isEarly = false) (h : e.payload = .ok j)
    (tags : List Tag) :
    recognise tags e.tag.name j = .ok (if e.tag ∈ tags then some e else none) :=
  recognise_of_decode (decode_payload he h).1 tags

/-- What is read under a tag is an event of that tag. -/
lemma tag_of_decode {ev : Event} {t : Tag} {j : Json} (h : decode t j = .ok ev) : ev.tag = t := by
  obtain ⟨look, hr⟩ : ∃ look, (layout t).read .document look = .ok ev := by
    unfold decode Json.Layout.decode at h
    split at h
    · split at h
      · cases h
      · exact ⟨_, h⟩
    · split at h
      · split at h
        · cases h
        · exact ⟨_, h⟩
      · cases h
    · cases h
  cases t with
  | _ =>
    obtain ⟨_, -, rfl⟩ := map_eq_ok.mp hr
    rfl

lemma tag_mem_of_recognise {ev : Event} {tags : List Tag} {type : String} {j : Json}
    (h : recognise tags type j = .ok (some ev)) : ev.tag ∈ tags := by
  unfold recognise at h
  split at h
  · cases h
  · next t ht =>
    obtain ⟨_, hd, he⟩ := map_eq_ok.mp h
    cases he
    exact tag_of_decode hd ▸ List.mem_of_find?_eq_some ht

/-- Under a type that is not among those read nothing is recognised. -/
lemma recognise_unknown {tags : List Tag} {type : String} {j : Json}
    (h : type ∉ tags.map Tag.name) : recognise tags type j = .ok none := by
  have hf : Tag.find? tags type = none := by
    rw [Tag.find?, List.find?_eq_none]
    intro t ht hn
    exact h (List.mem_map.mpr ⟨t, ht, by simpa using hn⟩)
  rw [recognise, hf]

end Event

end Federation
