import Federation.Proofs.Provider.Differences
import Federation.Proofs.Provider.Writing

/-!
No change too many. The list of changes has one entry for each item in which something differs and
no other entries, and the event made of it has one member for each field that differs, beside its id
and a secret that is given.
-/
namespace Federation

variable {k : Kind} {cipher : Cipher} {nonce : Nonce} {s : Settings (Option Sealed) k}
  {desired : Settings String k}

namespace Settings

/-- Is something about an item not as desired? A stored secret cannot be compared; one that is given
counts as different. -/
def Differs (s : Settings (Option Sealed) k) (desired : Settings String k) : Item → Prop
  | .field f => ∃ h : f ∈ k.fields, s.plain f h ≠ desired.plain f h
  | .secret => ∃ h : k.hasSecret = true, desired.secret h ≠ ""
  | .bundle b => ∃ f ∈ b.fields, ∃ h : f ∈ k.fields, s.plain f h ≠ desired.plain f h

end Settings

namespace Change

/-- What a change is about. -/
def item : Change k → Item
  | .field f _ _ => .field f
  | .secret _ _ => .secret
  | .bundle b _ _ => .bundle b

/-- A change gives the desired value; one of a bundle gives those of the fields that differ. -/
def Carries (cipher : Cipher) (nonce : Nonce) (s : Settings (Option Sealed) k)
    (desired : Settings String k) : Change k → Prop
  | .field f h v => v = desired.plain f (Kind.mem_fields_of_field h)
  | .secret h v => cipher.protectText nonce (desired.secret h) = .ok v
  | .bundle b h delta => ∀ f hf, delta f hf =
      if s.bundle b h f hf = desired.bundle b h f hf then none else some (desired.bundle b h f hf)

end Change

namespace Settings

/-- An item takes one change if something differs, and none otherwise. -/
lemma itemChanges_eq_ok {i : Item} {hi : i ∈ k.items} {cs : List (Change k)}
    (h : s.itemChanges cipher nonce desired i hi = .ok cs) :
    ¬ s.Differs desired i ∧ cs = [] ∨
      s.Differs desired i ∧ ∃ c, cs = [c] ∧ c.item = i ∧ c.Carries cipher nonce s desired := by
  cases i with
  | field f =>
    obtain rfl := (Except.ok.inj h).symm
    unfold Changes.ofValue
    split
    · next he =>
      refine .inl ⟨?_, rfl⟩
      rintro ⟨_, hne⟩
      exact hne (of_decide_eq_true he)
    · next he => exact .inr ⟨⟨_, by simpa using he⟩, _, rfl, rfl, rfl⟩
  | secret =>
    simp only [itemChanges, Changes.ofSecret] at h
    split at h
    · next he =>
      refine .inl ⟨?_, (Except.ok.inj h).symm⟩
      rintro ⟨_, hne⟩
      exact hne he
    · next he =>
      obtain ⟨v, hv, rfl⟩ := map_eq_ok.mp h
      exact .inr ⟨⟨_, he⟩, _, rfl, rfl, hv⟩
  | bundle b =>
    obtain rfl := (Except.ok.inj h).symm
    unfold Changes.ofBundle
    split
    · next hz =>
      refine .inl ⟨?_, rfl⟩
      rintro ⟨f, hf, _, hne⟩
      have hd := congrFun (congrFun ((Patch.isZero_iff _).mp hz) f) hf
      exact hne ((Record.diff_eq_none_iff _ _ _ _).mp hd)
    · next hz =>
      refine .inr ⟨?_, _, rfl, rfl, fun f hf => rfl⟩
      by_contra hn
      refine hz ((Patch.isZero_iff _).mpr ?_)
      funext f hf
      refine (Record.diff_eq_none_iff _ _ _ _).mpr ?_
      by_contra hne
      exact hn ⟨f, hf, _, hne⟩

end Settings

/-- The changes for some items: one for each that differs, in their order. -/
structure Lists (cipher : Cipher) (nonce : Nonce) (s : Settings (Option Sealed) k)
    (desired : Settings String k) (items : List Item) (cs : List (Change k)) : Prop where
  order : (cs.map Change.item).Sublist items
  mem : ∀ i, i ∈ cs.map Change.item ↔ i ∈ items ∧ s.Differs desired i
  carries : ∀ c ∈ cs, c.Carries cipher nonce s desired

namespace Lists

variable {items : List Item} {cs rest : List (Change k)}

lemma nil : Lists cipher nonce s desired [] [] := ⟨.slnil, by simp, by simp⟩

lemma cons {i : Item} {hi : i ∈ k.items}
    (hc : s.itemChanges cipher nonce desired i hi = .ok cs)
    (h : Lists cipher nonce s desired items rest) :
    Lists cipher nonce s desired (i :: items) (cs ++ rest) := by
  rcases Settings.itemChanges_eq_ok hc with ⟨hn, rfl⟩ | ⟨hd, c, rfl, rfl, hcar⟩
  · refine ⟨h.order.cons _, fun j => ?_, h.carries⟩
    rw [List.nil_append, h.mem, List.mem_cons]
    constructor
    · exact fun ⟨hj, hd⟩ => ⟨.inr hj, hd⟩
    · rintro ⟨rfl | hj, hd⟩
      · exact absurd hd hn
      · exact ⟨hj, hd⟩
  · refine ⟨h.order.cons_cons _, fun j => ?_, List.forall_mem_cons.mpr ⟨hcar, h.carries⟩⟩
    rw [List.singleton_append, List.map_cons, List.mem_cons, List.mem_cons, h.mem]
    constructor
    · rintro (rfl | ⟨hj, hdj⟩)
      · exact ⟨.inl rfl, hd⟩
      · exact ⟨.inr hj, hdj⟩
    · rintro ⟨rfl | hj, hdj⟩
      · exact .inl rfl
      · exact .inr ⟨hj, hdj⟩

lemma of_mapM (is : List { i // i ∈ k.changeOrder }) {lists : List (List (Change k))}
    (h : (is.mapM fun i => s.itemChanges cipher nonce desired i.1 (Kind.mem_changeOrder.1 i.2)) =
      .ok lists) : Lists cipher nonce s desired (is.map Subtype.val) lists.flatten := by
  induction is generalizing lists with
  | nil =>
    cases h
    exact nil
  | cons i is ih =>
    obtain ⟨cs, rest, hcs, hrest, rfl⟩ := mapM_cons_eq_ok.mp h
    exact cons hcs (ih hrest)

end Lists

namespace Settings

lemma lists_of_changes {cs : List (Change k)} (h : s.changes cipher nonce desired = .ok cs) :
    Lists cipher nonce s desired k.changeOrder cs := by
  obtain ⟨lists, hl, hc⟩ := bind_eq_ok.mp h
  cases hc
  simpa using Lists.of_mapM k.changeOrder.attach hl

/-- Nothing differs if all fields are as desired and no secret is given. -/
lemma forall_not_differs : (∀ i ∈ k.items, ¬ s.Differs desired i) ↔
    s.plain = desired.plain ∧ ∀ h, desired.secret h = "" := by
  constructor
  · intro hd
    refine ⟨funext fun f => funext fun hf => ?_, fun h => ?_⟩
    · by_contra hne
      obtain ⟨i, hi, hfi⟩ := List.mem_flatMap.mp hf
      cases i with
      | field g =>
        obtain rfl := List.mem_singleton.mp hfi
        exact hd _ hi ⟨hf, hne⟩
      | secret => nomatch hfi
      | bundle b => exact hd _ hi ⟨f, hfi, hf, hne⟩
    · by_contra hne
      exact hd .secret (Kind.secret_mem_items h) ⟨h, hne⟩
  · rintro ⟨hp, hs⟩ i - hd
    cases i with
    | field f => exact hd.2 (by rw [hp])
    | secret => exact hd.2 (hs _)
    | bundle b =>
      obtain ⟨f, -, _, hne⟩ := hd
      exact hne (by rw [hp])

lemma eq_nil_of_changes {cs : List (Change k)} (h : s.changes cipher nonce desired = .ok cs) :
    cs = [] ↔ s.plain = desired.plain ∧ ∀ h, desired.secret h = "" := by
  rw [← forall_not_differs, ← List.map_eq_nil_iff (f := Change.item),
    List.eq_nil_iff_forall_not_mem]
  simp only [(lists_of_changes h).mem, Kind.mem_changeOrder, not_and]

/-- Nothing need be changed where no field differs and no secret is given. -/
lemma changes_eq_nil : s.changes cipher nonce desired = .ok [] ↔
    s.plain = desired.plain ∧ ∀ h, desired.secret h = "" := by
  constructor
  · exact fun h => (eq_nil_of_changes h).mp rfl
  · intro hs
    obtain ⟨cs, hcs⟩ : ∃ cs, s.changes cipher nonce desired = .ok cs :=
      changes_isOk fun h hne => absurd (hs.2 h) hne
    rw [hcs, (eq_nil_of_changes hcs).mpr hs]

variable {cs : List (Change k)}

/-- The members of a changed event. -/
lemma entries_of_changes (h : s.changes cipher nonce desired = .ok cs) {id : String} {j : Json}
    (hj : (cs.foldl Revision.change .empty).toJson id = .ok j) :
    ∃ es, j = .object es ∧ (es.map Prod.fst).Nodup ∧ ∀ key v, (key, v) ∈ es ↔
      (key = "id" ∧ v = .string id) ∨
      (∃ f hf, s.plain f hf ≠ desired.plain f hf ∧ key = f.key ∧
        f.shape.write (desired.plain f hf) = .ok v) ∨
      ∃ hs c, desired.secret hs ≠ "" ∧ cipher.protectText nonce (desired.secret hs) = .ok c ∧
        key = k.secretKey ∧ v = c.toJson := by
  obtain ⟨plain, hp, hn, rfl⟩ := Revision.entries_of_toJson hj
  refine ⟨_, rfl, Entries.keys_ofList_nodup hn, fun key v => ?_⟩
  rw [(Entries.ofList_perm hn).mem_iff, List.mem_cons, List.mem_append, Patch.mem_toListM hp]
  refine or_congr (by simp) (or_congr ?_ ?_)
  · simp only [plain_of_changes h]
    constructor
    · rintro ⟨f, hf, _, ⟨hne, rfl⟩, hkey, hw⟩
      exact ⟨f, hf, hne, hkey, hw⟩
    · rintro ⟨f, hf, hne, hkey, hw⟩
      exact ⟨f, hf, _, ⟨hne, rfl⟩, hkey, hw⟩
  · simp only [List.mem_map, Option.mem_toList, Revision.secret?_eq_some, secret_of_changes h,
      Prod.mk.injEq]
    constructor
    · rintro ⟨c, ⟨hs, hne, hc⟩, rfl, rfl⟩
      exact ⟨hs, c, hne, hc, rfl, rfl⟩
    · rintro ⟨hs, c, hne, hc, rfl, rfl⟩
      exact ⟨c, ⟨hs, hne, hc⟩, rfl, rfl⟩

end Settings

/-- Changes that can be written are drawn up as one event. -/
lemma Provider.changedDraft?_of_changes {config : Config} (ht : config.settings.IsTimely)
    {p : Provider config.kind} {cs : List (Change config.kind)}
    (hcs : p.settings.changes cipher nonce config.settings = .ok cs) (hne : cs ≠ [])
    (stream : EventStream) :
    ∃ j, (cs.foldl Revision.change .empty).toJson stream.id = .ok j ∧
      p.changedDraft? cipher nonce stream config =
        .ok (some ⟨stream, (Tag.changed config.kind).name, j⟩) := by
  obtain ⟨j, hj⟩ := Revision.toJson_isOk ht (fun f hf v => Settings.changes_value hcs) stream.id
  exact ⟨j, hj, changedDraft?_eq_some.mpr ⟨cs, hcs, hne, congrArg (Except.map _) hj⟩⟩

lemma Kind.changeOrder_nodup (k : Kind) : k.changeOrder.Nodup := by cases k <;> decide

/-- An update changes no more than it must. Its changes are one for each field or bundle in which
something differs and one for a secret that is given, with the desired values. Where there are none
nothing is stored; else one event is, whose members are the id, the fields that differ, those within
bundles one by one, and the secret if one is given. -/
theorem changes_minimal {cipher : Cipher} {nonce : Nonce} {config : Config}
    (ht : config.settings.IsTimely)
    (hs : ∀ h, config.settings.secret h ≠ "" →
      ∃ v, cipher.protectText nonce (config.settings.secret h) = .ok v)
    (p : Provider config.kind) (stream : EventStream) :
    ∃ cs, p.settings.changes cipher nonce config.settings = .ok cs ∧
      (cs.map Change.item).Nodup ∧
      (∀ i, i ∈ cs.map Change.item ↔
        i ∈ config.kind.items ∧ p.settings.Differs config.settings i) ∧
      (∀ c ∈ cs, c.Carries cipher nonce p.settings config.settings) ∧
      (cs = [] ∧ p.changedDraft? cipher nonce stream config = .ok none ∨
        cs ≠ [] ∧ ∃ es, p.changedDraft? cipher nonce stream config =
            .ok (some ⟨stream, (Tag.changed config.kind).name, .object es⟩) ∧
          (es.map Prod.fst).Nodup ∧ ∀ key v, (key, v) ∈ es ↔
            (key = "id" ∧ v = .string stream.id) ∨
            (∃ f hf, p.settings.plain f hf ≠ config.settings.plain f hf ∧ key = f.key ∧
              f.shape.write (config.settings.plain f hf) = .ok v) ∨
            ∃ hs c, config.settings.secret hs ≠ "" ∧
              cipher.protectText nonce (config.settings.secret hs) = .ok c ∧
              key = config.kind.secretKey ∧ v = c.toJson) := by
  obtain ⟨cs, hcs⟩ := Settings.changes_isOk (s := p.settings) hs
  have hl := Settings.lists_of_changes hcs
  refine ⟨cs, hcs, hl.order.nodup config.kind.changeOrder_nodup, fun i => ?_, hl.carries, ?_⟩
  · rw [hl.mem, Kind.mem_changeOrder]
  · -- an empty list is the one case in which no event is drawn up
    by_cases hnil : cs = []
    · exact .inl ⟨hnil, Provider.changedDraft?_eq_none.mpr (hnil ▸ hcs)⟩
    · obtain ⟨j, hj, hd⟩ := Provider.changedDraft?_of_changes ht hcs hnil stream
      obtain ⟨es, rfl, hn, hm⟩ := Settings.entries_of_changes hcs hj
      exact .inr ⟨hnil, es, hd, hn, hm⟩

namespace Sample

/-- A provider of Google of which nothing but the client is known. -/
def clientConfig : Config :=
  ⟨.google, ⟨(Settings.initial "" .google).plain.set .clientId "client", fun _ => "secret"⟩⟩

end Sample

/-- Of a provider whose client becomes known the name is not stored again. -/
theorem changes_minimal_client :
    Sample.clientConfig.settings.IsTimely ∧
    (∀ h, Sample.clientConfig.settings.secret h ≠ "" → ∃ v,
      Cipher.plain.protectText (.ofNat 0) (Sample.clientConfig.settings.secret h) = .ok v) ∧
    ∃ es, ({} : Provider .google).changedDraft? Cipher.plain (.ofNat 0) default
        Sample.clientConfig = .ok (some ⟨default, "idp.google.changed", .object es⟩) ∧
      ("clientId", .string "client") ∈ es ∧ ∀ v, ("name", v) ∉ es := by
  have ht : Sample.clientConfig.settings.IsTimely := by unfold Settings.IsTimely; decide
  have hs : ∀ h, Sample.clientConfig.settings.secret h ≠ "" → ∃ v,
      Cipher.plain.protectText (.ofNat 0) (Sample.clientConfig.settings.secret h) = .ok v :=
    fun _ _ => ⟨_, rfl⟩
  obtain ⟨cs, -, -, hi, -, ⟨rfl, -⟩ | ⟨-, es, hd, -, hm⟩⟩ :=
    changes_minimal ht hs ({} : Provider .google) default
  · nomatch (hi .secret).mpr ⟨by decide, rfl, by decide⟩
  · refine ⟨ht, hs, es, hd, (hm _ _).mpr (.inr (.inl ⟨.clientId, by decide, by decide, rfl, rfl⟩)),
      fun v hv => ?_⟩
    have hname : ∀ f ∈ Kind.google.fields, "name" = f.key → f = .name := by decide
    rcases (hm _ _).mp hv with ⟨hk, -⟩ | ⟨f, hf, hne, hk, -⟩ | ⟨-, c, -, -, hk, -⟩
    · exact absurd hk (by decide)
    · obtain rfl := hname f hf hk
      exact hne rfl
    · exact absurd hk (by decide)

end Federation
