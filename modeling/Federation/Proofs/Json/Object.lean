import Federation.Json.Read
import Federation.Proofs.Outcome

/-!
Objects that were written, and what is read from them. A schema gives a value on an object if every
member that is there is fit to be read, no required one is missing, and the value comes out.
-/
namespace Federation

namespace Entries

lemma lookup_cons (e : String × Json) (es : Entries) (k : String) :
    List.lookup k (e :: es) = if k = e.1 then some e.2 else es.lookup k := by
  obtain ⟨key, v⟩ := e
  by_cases h : k = key
  · simp [h]
  · simp [h, List.lookup_cons, beq_false_of_ne h]

lemma lookup_of_not_mem {es : List (String × Json)} {k : String} (h : k ∉ es.map Prod.fst) :
    es.lookup k = none := by
  rw [List.lookup_eq_none_iff]
  intro e he
  have : k ≠ e.1 := fun hk => h (hk ▸ List.mem_map_of_mem he)
  simpa using this

lemma lookup_of_mem {es : List (String × Json)} (h : (es.map Prod.fst).Nodup) {k : String}
    {v : Json} (hm : (k, v) ∈ es) : es.lookup k = some v := by
  induction es with
  | nil => nomatch hm
  | cons e es ih =>
    simp only [List.map_cons, List.nodup_cons] at h
    rcases List.mem_cons.mp hm with rfl | hm
    · simp
    · have hk : k ≠ e.1 := fun hk => h.1 (hk ▸ List.mem_map_of_mem hm)
      rw [lookup_cons, if_neg hk, ih h.2 hm]

lemma mem_of_lookup {es : List (String × Json)} {k : String} {v : Json}
    (h : es.lookup k = some v) : (k, v) ∈ es := by
  obtain ⟨before, after, rfl, -⟩ := List.lookup_eq_some_iff.mp h
  simp

/-- An entry of a new key comes beside the others. -/
lemma insert_perm {key : String} {v : Json} {es : Entries} (h : key ∉ es.map Prod.fst) :
    (insert key v es).Perm ((key, v) :: es) := by
  fun_induction insert key v es with
  | case1 => rfl
  | case2 => rfl
  | case3 => exact absurd List.mem_cons_self h
  | case4 k v' rest _ _ ih =>
    exact ((ih fun hm => h (List.mem_cons_of_mem _ hm)).cons _).trans (List.Perm.swap _ _ _)

/-- Entries of distinct keys are all kept when they are put in order. -/
lemma ofList_perm {es : List (String × Json)} (h : (es.map Prod.fst).Nodup) :
    (ofList es).Perm es := by
  have hf : ∀ acc : Entries, ((es ++ acc).map Prod.fst).Nodup →
      (es.foldl (fun acc e => acc.insert e.1 e.2) acc).Perm (es ++ acc) := by
    clear h
    induction es with
    | nil => exact fun acc _ => .rfl
    | cons e es ih =>
      intro acc hacc
      have hp : (es ++ e :: acc).Perm (e :: es ++ acc) := List.perm_middle
      have hn : ((es ++ e :: acc).map Prod.fst).Nodup := (hp.map _).nodup_iff.mpr hacc
      have he : e.1 ∉ acc.map Prod.fst := by
        rw [List.map_append, List.map_cons] at hn
        exact (List.nodup_cons.mp (List.nodup_append.mp hn).2.1).1
      have hi : (es ++ acc.insert e.1 e.2).Perm (es ++ e :: acc) := (insert_perm he).append_left es
      exact (ih _ ((hi.map _).nodup_iff.mpr hn)).trans (hi.trans hp)
  simpa [ofList] using hf [] (by simpa using h)

lemma keys_ofList_nodup {es : List (String × Json)} (h : (es.map Prod.fst).Nodup) :
    ((ofList es).map Prod.fst).Nodup := ((ofList_perm h).map _).nodup_iff.mpr h

/-- Entries of distinct keys keep their values when they are put in order. -/
lemma lookup_ofList {es : List (String × Json)} (h : (es.map Prod.fst).Nodup) (k : String) :
    (ofList es).lookup k = es.lookup k := by
  have hm := fun v => (ofList_perm h).mem_iff (a := (k, v))
  refine Option.ext fun v => ⟨fun hl => ?_, fun hl => ?_⟩
  · exact lookup_of_mem h ((hm v).mp (mem_of_lookup hl))
  · exact lookup_of_mem (keys_ofList_nodup h) ((hm v).mpr (mem_of_lookup hl))

end Entries

namespace Json

/-- A member that is there is fit to be read, and it is there if it is required. -/
structure Member.Fits (m : Member) (look : String → Option Json) : Prop where
  fit : ∀ o j, look m.key = some j → m.fault o j = none
  present : m.required = true → (look m.key).isSome = true

namespace Schema

/-- What a schema reads from an object without fault. -/
structure Gives (s : Schema α) (look : String → Option Json) (a : α) : Prop where
  fits : ∀ m ∈ s.members, m.Fits look
  read : ∀ o, s.read o look = .ok a

variable {look : String → Option Json}

lemma gives_member {key : String} {r : Reader α} {absent : Option α} {j : Json} {a : α}
    (hj : look key = some j) (hr : ∀ o, r o j = .ok a) : (member key r absent).Gives look a := by
  constructor
  · intro m hm
    rw [List.mem_singleton.mp hm]
    constructor
    · intro o j' hj'
      simp only [hj, Option.some.injEq] at hj'
      simp [← hj', hr, fault?]
    · simp [hj]
  · intro o
    simp [member, hj, hr]

lemma gives_text {key s : String} (h : look key = some (.string s)) :
    (required key .text).Gives look s := gives_member h fun _ => rfl

lemma gives_absent {key : String} {r : Reader α} {a : α} (hj : look key = none) :
    (member key r (some a)).Gives look a := by
  constructor
  · intro m hm
    rw [List.mem_singleton.mp hm]
    constructor <;> simp [hj]
  · intro o
    simp [member, hj]

lemma gives_optional {key : String} {r : Reader α} {j : Json} {a : α} (hj : look key = some j)
    (hn : j ≠ .null) (hr : ∀ o, r o j = .ok a) : (optional key r).Gives look (some a) := by
  apply gives_member hj
  intro o
  unfold Reader.option
  split
  · exact absurd rfl hn
  · rw [hr, Except.map]

lemma Gives.map {s : Schema α} {a : α} (h : s.Gives look a) (f : α → β) :
    (s.map f).Gives look (f a) :=
  ⟨h.fits, fun o => by simp only [Schema.map, h.read, Except.map]⟩

lemma Gives.and {s : Schema α} {t : Schema β} {a : α} {b : β} (hs : s.Gives look a)
    (ht : t.Gives look b) : (s.and t).Gives look (a, b) := by
  constructor
  · intro m hm
    exact (List.mem_append.mp hm).elim (hs.fits m) (ht.fits m)
  · intro o
    simp only [Schema.and, hs.read, ht.read, bind, Except.bind]
    rfl

lemma read_required {key : String} {r : Reader α} {o : Origin} {a : α} :
    (required key r).read o look = .ok a ↔ ∃ j, look key = some j ∧ r o j = .ok a := by
  simp only [required, member]
  cases look key <;> simp

lemma read_text {key s : String} {o : Origin} (h : (required key .text).read o look = .ok s) :
    look key = some (.string s) := by
  obtain ⟨j, hj, hr⟩ := read_required.mp h
  cases j with
  | string t => rw [hj, Except.ok.inj hr]
  | _ => cases hr

lemma read_and {s : Schema α} {t : Schema β} {o : Origin} {p : α × β}
    (h : (s.and t).read o look = .ok p) : s.read o look = .ok p.1 ∧ t.read o look = .ok p.2 := by
  obtain ⟨a, ha, h⟩ := bind_eq_ok.mp h
  obtain ⟨b, hb, h⟩ := bind_eq_ok.mp h
  cases h
  exact ⟨ha, hb⟩

end Schema

namespace Layout

/-- What a record is read as where all its members are read without fault. -/
structure Gives (l : Layout α) (look : String → Option Json) (a : α) : Prop where
  own : ∀ m ∈ l.own, m.Fits look
  shared : ∀ g ∈ l.shared, ∀ m ∈ g, m.Fits look
  read : ∀ o, l.read o look = .ok a

variable {look : String → Option Json}

lemma gives_ofSchema {s : Schema α} {a : α} (h : s.Gives look a) (title : String) :
    (ofSchema title s).Gives look a := ⟨h.fits, by simp [ofSchema], h.read⟩

lemma Gives.map {l : Layout α} {a : α} (h : l.Gives look a) (f : α → β) :
    (l.map f).Gives look (f a) :=
  ⟨h.own, h.shared, fun o => by simp only [Layout.map, h.read, Except.map]⟩

lemma Gives.wrap {l : Layout α} {a : α} (h : l.Gives look a) (title : String) :
    (l.wrap title).Gives look a := by
  refine ⟨by simp [Layout.wrap], fun g hg => ?_, fun _ => h.read _⟩
  rcases List.mem_cons.mp hg with rfl | hg
  · exact h.own
  · exact h.shared g hg

/-- An object is read where no group of its members has a fault. -/
lemma decode_object {l : Layout α} {o : Origin} {entries : Entries} {a : α} :
    l.decode o (.object entries) = .ok a ↔
      l.objectFault o entries = none ∧ l.read o (fun key => entries.lookup key) = .ok a := by
  simp only [decode]
  cases l.objectFault o entries with
  | some e => exact ⟨nofun, fun h => nomatch h.1⟩
  | none => exact ⟨fun h => ⟨rfl, h⟩, fun h => h.2⟩

lemma groupFault_eq_none {members : List Member} {entries : Entries}
    (hn : (entries.map Prod.fst).Nodup) (hm : ∀ m ∈ members, m.Fits fun k => entries.lookup k)
    (o : Origin) : groupFault o members entries = none := by
  have ht : typeFault o members entries = none := by
    simp only [typeFault, List.findSome?_eq_none_iff]
    intro e he
    cases hf : members.find? fun m => m.key = e.1 with
    | none => rfl
    | some m =>
      have hke : m.key = e.1 := by simpa using List.find?_some hf
      exact (hm m (List.mem_of_find?_eq_some hf)).fit o e.2
        (by rw [hke]; exact Entries.lookup_of_mem hn he)
  have hs : missingFault members entries = none := by
    simp only [missingFault, List.findSome?_eq_none_iff]
    intro m hmem
    by_cases hr : m.required = true
    · simp [Option.isSome_iff_ne_none.mp ((hm m hmem).present hr)]
    · simp [hr]
  simp [groupFault, ht, hs]

/-- An object of distinct keys is read as what its entries give. -/
lemma Gives.decode {l : Layout α} {es : Entries} {a : α} (h : l.Gives (fun k => es.lookup k) a)
    (hn : (es.map Prod.fst).Nodup) (o : Origin) : l.decode o (.object es) = .ok a := by
  have hf : l.objectFault o es = none := by
    rw [objectFault, groupFault_eq_none hn h.own, Option.none_or, List.findSome?_eq_none_iff]
    exact fun g hg => groupFault_eq_none hn (h.shared g hg) _
  exact decode_object.mpr ⟨hf, h.read o⟩

lemma decode_ofEntries {l : Layout α} {es : List (String × Json)} {a : α}
    (hn : (es.map Prod.fst).Nodup) (h : l.Gives (fun k => es.lookup k) a) (o : Origin) :
    l.decode o (.ofEntries es) = .ok a := by
  have hk : (fun k => (Entries.ofList es).lookup k) = fun k => es.lookup k :=
    funext (Entries.lookup_ofList hn)
  rw [← hk] at h
  exact h.decode (Entries.keys_ofList_nodup hn) o

end Layout

lemma get?_ofEntries {es : List (String × Json)} (hn : (es.map Prod.fst).Nodup) {k : String}
    {v : Json} (h : (k, v) ∈ es) : (ofEntries es).get? k = some v := by
  simp only [get?, ofEntries, Entries.lookup_ofList hn, Entries.lookup_of_mem hn h]

end Json
end Federation
