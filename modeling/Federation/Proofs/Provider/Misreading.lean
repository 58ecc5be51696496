import Federation.Proofs.Provider.Standing

/-!
Readers of one kind at histories of another. The reader of a kind looks at the types of events, and
early events were of one type for every protocol; so it may take a provider for one of its own that
discovery, which looks at the protocol, knows to be none. It also knows no events of other kinds,
and so misses migrations and early removals that discovery heeds.
-/
namespace Federation

namespace Event

/-- Does the event leave open whether its provider stands and of which kind it is? -/
def isChange : Event → Bool
  | .changed .. | .configChanged .. | .oidcConfigAdded .. | .oidcConfigChanged .. |
    .jwtConfigAdded .. | .jwtConfigChanged .. => true
  | _ => false

/-- What an event turns its provider into. -/
def target? : Event → Option Target
  | .migrated t .. => some t
  | _ => none

/-- A history begins with the only event that adds its provider. -/
def begins : List Event → Bool
  | [] => true
  | ev :: h => ev.isAdded && h.all fun ev => !ev.isAdded

/-- A provider is added and changed; one of OpenID Connect is perhaps turned into another kind and
changed again; at last it is perhaps removed. -/
def Ordered (h : List Event) : Prop :=
  ∃ first before turn after last, h = first :: (before ++ turn ++ after ++ last) ∧
    first.isAdded = true ∧
    (∀ ev ∈ before ++ after, ev.isChange = true) ∧
    (turn = [] ∨ ∃ t id s, turn = [.migrated t id s] ∧ first.kind? = some .oidc) ∧
    (last = [] ∨ ∃ ev, last = [ev] ∧ ev.isRemoved = true)

lemma isRemoved_of_isChange {ev : Event} (h : ev.isChange = true) : ev.isRemoved = false := by
  cases ev <;> first | rfl | cases h

lemma asks_of_isChange {ev : Event} (h : ev.isChange = true) (k : Kind) : ev.asks k = none := by
  cases ev <;> first | rfl | cases h

lemma asks_of_isRemoved {ev : Event} (h : ev.isRemoved = true) (k : Kind) :
    ev.asks k = some .removed := by
  cases ev <;> first | rfl | cases h

lemma asks_of_isAdded {ev : Event} (h : ev.isAdded = true) (k : Kind) :
    ev.asks k = some .active := by
  cases ev <;> first | rfl | cases h

lemma target?_of_isChange {ev : Event} (h : ev.isChange = true) : ev.target? = none := by
  cases ev <;> first | rfl | cases h

lemma target?_of_isAdded {ev : Event} (h : ev.isAdded = true) : ev.target? = none := by
  cases ev <;> first | rfl | cases h

lemma kind?_eq_target? {ev : Event} (h : ev.isAdded = false) :
    ev.kind? = ev.target?.map Target.kind := by
  cases ev <;> first | rfl | cases h

lemma begins_cons {first : Event} {rest : List Event} : begins (first :: rest) = true ↔
    first.isAdded = true ∧ ∀ ev ∈ rest, ev.isAdded = false := by
  simp only [begins, Bool.and_eq_true, List.all_eq_true, Bool.not_eq_true']

/-- The kind that was told last is that of the last migration, and of the event that added the
provider where there was none. -/
lemma getLast?_kinds {first : Event} {rest : List Event} (hb : begins (first :: rest) = true) :
    ((first :: rest).filterMap kind?).getLast? =
      (((first :: rest).filterMap target?).getLast?.map Target.kind).or first.kind? := by
  obtain ⟨hadd, hrest⟩ := begins_cons.mp hb
  have hkinds : rest.filterMap kind? = (rest.filterMap target?).map Target.kind := by
    rw [List.map_filterMap]
    exact List.filterMap_congr fun ev hev => kind?_eq_target? (hrest ev hev)
  rw [List.filterMap_cons_none (target?_of_isAdded hadd), ← List.getLast?_map, ← hkinds]
  cases hk : first.kind? with
  | none => rw [List.filterMap_cons_none hk, Option.or_none]
  | some k => rw [List.filterMap_cons_some hk, List.getLast?_cons, Option.or_some]

end Event

namespace Kind

/-- Would a reader of the kind take an early history for its own whose protocol is not of the
kind? -/
def misreads (k : Kind) : List Event → Bool
  | .configAdded _ _ protocol _ :: _ =>
    decide (.configAdded ∈ k.readTags) && decide (protocol.kind? ≠ some k)
  | _ => false

lemma configAdded_mem_readTags {k : Kind} : .configAdded ∈ k.readTags ↔ k = .oidc ∨ k = .jwt := by
  cases k <;> simp [readTags, tags, earlyTags]

/-- A provider that is misread is never told to be of the reader's kind. -/
lemma getLast?_of_misreads {k : Kind} {h : List Event} (hm : k.misreads h = true)
    (hb : Event.begins h = true) : (h.filterMap Event.kind?).getLast? ≠ some k := by
  unfold misreads at hm
  split at hm
  · next _ _ protocol _ rest =>
    obtain ⟨hk, hp⟩ := Bool.and_eq_true_iff.mp hm
    have hk := configAdded_mem_readTags.mp (of_decide_eq_true hk)
    have hp := of_decide_eq_true hp
    intro hl
    obtain ⟨ev, hev, hkind⟩ := List.mem_filterMap.mp (List.mem_of_getLast? hl)
    rcases List.mem_cons.mp hev with rfl | hev
    · exact hp hkind
    · have ha := (Event.begins_cons.mp hb).2 ev hev
      cases ev with
      | migrated t => cases t <;> rcases hk with rfl | rfl <;> cases hkind
      | added => cases ha
      | configAdded => cases ha
      | _ => cases hkind
  · cases hm

end Kind

namespace Status

/-- What an event makes of the status that a reader of a kind sees. -/
def heed (k : Kind) (s : Status) (ev : Event) : Status := ((ev.asks k).map s.transition).getD s

lemma foldl_heed_changes {k : Kind} {h : List Event} (hc : ∀ ev ∈ h, ev.isChange = true)
    (s : Status) : h.foldl (heed k) s = s := by
  induction h with
  | nil => rfl
  | cons ev h ih =>
    obtain ⟨he, hh⟩ := List.forall_mem_cons.mp hc
    rw [List.foldl_cons, show heed k s ev = s by simp [heed, Event.asks_of_isChange he], ih hh]

end Status

namespace Provider

lemma status_foldl {k : Kind} (h : List Event) (p : Provider k) :
    (h.foldl (fun p ev => p.apply ev) p).status = h.foldl (Status.heed k) p.status := by
  induction h generalizing p with
  | nil => rfl
  | cons ev h ih =>
    have hs : (p.apply ev).status = p.status.heed k ev := by
      unfold apply Status.heed
      split
      · next hr => cases ev.asks k <;> simp [hr]
      · rfl
    rw [List.foldl_cons, List.foldl_cons, ih, hs]

end Provider

/-- Whoever is found active was asked to be. -/
lemma Status.exists_asks_active {k : Kind} {h : List Event}
    (ha : h.foldl (heed k) .unspecified = .active) : ∃ ev ∈ h, ev.asks k = some .active := by
  induction h with
  | nil => cases ha
  | cons ev h ih =>
    by_cases he : ev.asks k = some .active
    · exact ⟨ev, List.mem_cons_self, he⟩
    · have hs : heed k .unspecified ev = .unspecified := by
        unfold heed
        cases hk : ev.asks k with
        | none => rfl
        | some s =>
          cases s with
          | active => exact absurd hk he
          | _ => rfl
      rw [List.foldl_cons, hs] at ha
      obtain ⟨ev', hev, he'⟩ := ih ha
      exact ⟨ev', List.mem_cons_of_mem _ hev, he'⟩

/-- A reader passes over changes, whether it knows them or not. -/
lemma Status.foldl_heed_filter {k : Kind} {h : List Event} (hc : ∀ ev ∈ h, ev.isChange = true)
    (s : Status) : (h.filter (·.tag ∈ k.readTags)).foldl (heed k) s = s :=
  foldl_heed_changes (fun ev hev => hc ev (List.mem_of_mem_filter hev)) s

/-- Who reads a removal last finds nothing active. -/
lemma Status.foldl_heed_removed {k : Kind} (h : List Event) {last : Event}
    (hr : last.isRemoved = true) (ht : last.tag ∈ k.readTags) (s : Status) :
    ((h ++ [last]).filter (·.tag ∈ k.readTags)).foldl (heed k) s ≠ .active := by
  rw [List.filter_append, List.filter_cons_of_pos (by simpa using ht), List.foldl_append,
    List.filter_nil, List.foldl_cons, List.foldl_nil, heed, Event.asks_of_isRemoved hr]
  exact transition_removed_ne_active _

/-- What adds a provider is known to the readers of its kind, and to those who misread it. -/
lemma Kind.kind?_of_added {k : Kind} {first : Event} {rest : List Event}
    (ha : first.isAdded = true) (ht : first.tag ∈ k.readTags)
    (hm : k.misreads (first :: rest) = false) : first.kind? = some k := by
  cases first with
  | added j => exact congrArg some (Kind.added_mem_readTags.mp ht)
  | configAdded _ _ protocol _ =>
    by_contra hne
    simp only [misreads, Bool.and_eq_false_iff, decide_eq_false_iff_not] at hm
    exact hm.elim (fun h => h ht) fun h => h hne
  | _ => cases ha

/-- Whoever is of OpenID Connect is known to its readers. -/
lemma Kind.oidc_reads {first : Event} (ha : first.isAdded = true)
    (hk : first.kind? = some .oidc) : first.tag ∈ Kind.oidc.readTags := by
  cases first with
  | added j => exact Kind.added_mem_readTags.mpr (Option.some.inj hk)
  | configAdded => exact Kind.configAdded_mem_readTags.mpr (.inl rfl)
  | _ => cases ha

/-- How a reader of a kind who finds a provider active is mistaken about its history. -/
inductive Kind.Mistakes (k : Kind) (h : List Event) : Prop
  /-- The provider is early, and its protocol is not of the kind. -/
  | misread : k.misreads h = true → Mistakes k h
  /-- The last migration turned the provider into another kind. -/
  | overtaken {t : Target} : (h.filterMap Event.target?).getLast? = some t → t.kind ≠ k →
      Mistakes k h
  /-- The provider was removed after its kind had been told. -/
  | ended : ¬ h.Pairwise (fun ev later => ev.kind?.isSome = true → later.isRemoved = false) →
      Mistakes k h

namespace Kind

variable {k : Kind} {h : List Event}

/-- Somebody has told a reader who finds a provider active that it is of the reader's kind. -/
lemma exists_told (hb : Event.begins h = true) (hm : k.misreads h = false)
    (ha : (h.filter (·.tag ∈ k.readTags)).foldl (Status.heed k) .unspecified = .active) :
    ∃ ev ∈ h, ev.kind? = some k := by
  obtain ⟨ev, hev, hasks⟩ := Status.exists_asks_active ha
  obtain ⟨hev, ht⟩ := List.mem_filter.mp hev
  refine ⟨ev, hev, ?_⟩
  cases hadd : ev.isAdded with
  | true =>
    cases h with
    | nil => cases hev
    | cons first rest =>
      rcases List.mem_cons.mp hev with rfl | hev
      · exact kind?_of_added hadd (of_decide_eq_true ht) hm
      · cases hadd.symm.trans ((Event.begins_cons.mp hb).2 ev hev)
  | false =>
    cases ev with
    | migrated t =>
      by_contra hne
      have hne : t.kind ≠ k := fun h => hne (congrArg some h)
      simp [Event.asks, hne] at hasks
    | added => cases hadd
    | configAdded => cases hadd
    | _ => cases hasks

/-- Discovery agrees with a reader who finds a provider active, unless the reader is mistaken. -/
lemma told_iff (hb : Event.begins h = true)
    (ha : (h.filter (·.tag ∈ k.readTags)).foldl (Status.heed k) .unspecified = .active) :
    (Event.stands (fun ev => ev.kind?.isSome) h = true ∧
      (h.filterMap Event.kind?).getLast? = some k) ↔ ¬ k.Mistakes h := by
  cases h with
  | nil => cases ha
  | cons first rest =>
    rw [Event.getLast?_kinds hb]
    constructor
    · rintro ⟨hs, hk⟩ (hm | ⟨ht, hne⟩ | hr)
      · exact getLast?_of_misreads hm hb ((Event.getLast?_kinds hb).trans hk)
      · rw [ht] at hk
        exact hne (Option.some.inj hk)
      · exact hr (Event.stands_iff.mp hs).2
    · intro hn
      obtain ⟨ev, hev, hk⟩ := exists_told hb (Bool.eq_false_iff.mpr fun hm => hn (.misread hm)) ha
      refine ⟨Event.stands_iff.mpr ⟨⟨ev, hev, by rw [hk]; rfl⟩, ?_⟩, ?_⟩
      · by_contra hr
        exact hn (.ended hr)
      cases ht : ((first :: rest).filterMap Event.target?).getLast? with
      | some t =>
        by_contra hne
        exact hn (.overtaken ht fun h => hne (congrArg some h))
      | none =>
        -- nobody was migrated, so the kind was told where the provider was added
        rcases List.mem_cons.mp hev with rfl | hev
        · exact hk
        · have hnone := List.filterMap_eq_nil_iff.mp (List.getLast?_eq_none_iff.mp ht) ev
            (List.mem_cons_of_mem _ hev)
          rw [Event.kind?_eq_target? ((Event.begins_cons.mp hb).2 ev hev), hnone] at hk
          cases hk

/-- Readers of JWT know nothing of migrations. -/
example (s : Settings Sealed .jwt) (m : Settings Sealed .azureAd) (r : Revision Sealed .jwt) :
    let h : List Event := [.added .jwt "id" s, .migrated .azureAd "id" m, .changed .jwt "id" r]
    (h.filter (·.tag ∈ Kind.jwt.readTags)).foldl (Status.heed .jwt) .unspecified = .active ∧
      Kind.jwt.Mistakes h :=
  ⟨rfl, .overtaken (t := .azureAd) rfl (by decide)⟩

end Kind

/-- Once a provider of OpenID Connect has been turned into another kind, only a reader of that kind
finds it active, unless it was misread. -/
lemma Kind.kind_of_turned {k : Kind} {first : Event} {before after : List Event} {u : Target}
    {id : String} {s : Settings Sealed u.kind} (hadd : first.isAdded = true)
    (hbefore : ∀ ev ∈ before, ev.isChange = true) (hafter : ∀ ev ∈ after, ev.isChange = true)
    (hoidc : first.kind? = some .oidc)
    (hm : k.misreads (first :: (before ++ [.migrated u id s] ++ after)) = false)
    (ha : ((first :: (before ++ [.migrated u id s] ++ after)).filter (·.tag ∈ k.readTags)).foldl
      (Status.heed k) .unspecified = .active) : u.kind = k := by
  by_contra hne
  -- the reader's status after the event that added the provider
  have hfirst : ([first].filter (·.tag ∈ k.readTags)).foldl (Status.heed k) .unspecified =
      if first.tag ∈ k.readTags then .active else .unspecified := by
    by_cases ht : first.tag ∈ k.readTags
    · simp [ht, Status.heed, Event.asks_of_isAdded hadd, Status.transition]
    · simp [ht]
  rw [← List.singleton_append, List.filter_append, List.filter_append, List.filter_append,
    List.foldl_append, List.foldl_append, List.foldl_append, hfirst,
    Status.foldl_heed_filter hbefore, Status.foldl_heed_filter hafter] at ha
  by_cases ht : first.tag ∈ k.readTags
  · obtain rfl := Option.some.inj (hoidc.symm.trans (Kind.kind?_of_added hadd ht hm))
    have hmig : (Event.migrated u id s).tag ∈ Kind.oidc.readTags :=
      Kind.migrated_mem_readTags.mpr (.inl rfl)
    simp [ht, hmig, Status.heed, Event.asks, u.kind_ne_oidc, Status.transition] at ha
  · have hmig : (Event.migrated u id s).tag ∉ k.readTags := by
      intro hmig
      rcases Kind.migrated_mem_readTags.mp hmig with rfl | hk
      · exact ht (Kind.oidc_reads hadd hoidc)
      · exact hne hk.symm
    simp [ht, hmig] at ha

/-- Where events come in order, a reader who finds a provider active at the end of its stream makes
no mistake but to misread it. -/
lemma Event.Ordered.mistakes_iff {h : List Event} (ho : Event.Ordered h) {k : Kind} {ev : Event}
    (hlast : h.getLast? = some ev) (hread : ev.tag ∈ k.readTags)
    (ha : (h.filter (·.tag ∈ k.readTags)).foldl (Status.heed k) .unspecified = .active) :
    k.Mistakes h ↔ k.misreads h = true := by
  refine ⟨fun hn => ?_, .misread⟩
  by_contra hm
  have hm := Bool.eq_false_iff.mpr hm
  obtain ⟨first, before, turn, after, last, rfl, hadd, hchange, hturn, hend⟩ := ho
  obtain ⟨hbefore, hafter⟩ := List.forall_mem_append.mp hchange
  obtain rfl : last = [] := by
    refine hend.resolve_right ?_
    rintro ⟨r, rfl, hr⟩
    rw [← List.cons_append] at hlast ha
    obtain rfl := Option.some.inj (List.getLast?_concat.symm.trans hlast)
    exact Status.foldl_heed_removed _ hr hread _ ha
  rw [List.append_nil] at ha hm hn
  have hkept : ∀ ev ∈ first :: (before ++ turn ++ after), ev.isRemoved = false := by
    rw [List.forall_mem_cons, List.forall_mem_append, List.forall_mem_append]
    refine ⟨Event.isRemoved_of_isAdded hadd,
      ⟨fun ev hev => Event.isRemoved_of_isChange (hbefore ev hev), ?_⟩,
      fun ev hev => Event.isRemoved_of_isChange (hafter ev hev)⟩
    rcases hturn with rfl | ⟨t, id, s, rfl, -⟩
    · exact List.forall_mem_nil _
    · exact List.forall_mem_singleton.mpr rfl
  have htargets : (first :: (before ++ turn ++ after)).filterMap Event.target? =
      turn.filterMap Event.target? := by
    have hb := List.filterMap_eq_nil_iff.mpr fun ev hev =>
      Event.target?_of_isChange (hbefore ev hev)
    have ha := List.filterMap_eq_nil_iff.mpr fun ev hev =>
      Event.target?_of_isChange (hafter ev hev)
    simp only [List.filterMap_cons, Event.target?_of_isAdded hadd, List.filterMap_append, hb, ha,
      List.nil_append, List.append_nil]
  rcases hn with hn | ⟨ht, hne⟩ | hr
  · cases hn.symm.trans hm
  · rw [htargets] at ht
    rcases hturn with rfl | ⟨u, id, s, rfl, hoidc⟩
    · cases ht
    obtain rfl := Option.some.inj ht
    exact hne (Kind.kind_of_turned hadd hbefore hafter hoidc hm ha)
  · exact hr (List.pairwise_of_forall_mem_list fun _ _ r hr _ => hkept r hr)

end Federation
