import Federation.Proofs.Json.Object

/-!
Where a value comes from. A value read straight from a document and one that was set aside first are
read alike, and only some of their faults are worded differently. So a record whose members all
share the object of another is read from the same objects as that other one, and as the same value.
-/
namespace Federation.Json

/-- What is read does not depend on where it comes from. -/
def Reader.Steady (r : Reader α) : Prop := ∀ o o' j a, r o j = .ok a → r o' j = .ok a

namespace Reader

lemma steady_text : Steady text := by
  intro o o' j a h
  cases j <;> exact h

lemma steady_flag : Steady flag := by
  intro o o' j a h
  cases j <;> exact h

lemma steady_unsigned (bits : Nat) : Steady (unsigned bits) := by
  intro o o' j a h
  cases j with
  | number n => cases n <;> exact h
  | _ => exact h

lemma Steady.map {r : Reader α} (hr : r.Steady) (f : α → β) : (r.map f).Steady := by
  intro o o' j b h
  obtain ⟨a, ha, rfl⟩ := map_eq_ok.mp h
  exact map_eq_ok.mpr ⟨a, hr o o' j a ha, rfl⟩

lemma Steady.items {r : Reader α} (hr : r.Steady) {o : Origin} (o' : Origin) {js : List Json}
    {as : List α} (h : items r o js = .ok as) : items r o' js = .ok as := by
  induction js generalizing as with
  | nil => exact h
  | cons j js ih =>
    obtain ⟨a, ha, h⟩ := bind_eq_ok.mp h
    obtain ⟨bs, hbs, h⟩ := bind_eq_ok.mp h
    exact bind_eq_ok.mpr ⟨a, hr o o' j a ha, bind_eq_ok.mpr ⟨bs, ih hbs, h⟩⟩

lemma Steady.list {r : Reader α} (hr : r.Steady) : r.list.Steady := by
  intro o o' j as h
  cases j with
  | array js => exact hr.items o' h
  | _ => cases h

lemma steady_variant (variants : List (String × α)) : Steady (variant variants) := by
  intro o o' j a h
  cases j with
  | object entries =>
    match entries, h with
    | [], h => cases h
    | [(k, .null)], h => exact h
    | [(k, .bool _)], h | [(k, .number _)], h | [(k, .string _)], h | [(k, .array _)], h |
      [(k, .object _)], h => exact h
    | _ :: _ :: _, h => simp [variant] at h
  | _ => exact h

end Reader

/-- A value fits a member wherever the value comes from. -/
def Member.Steady (m : Member) : Prop := ∀ o o' j, m.fault o j = none → m.fault o' j = none

structure Schema.Steady (s : Schema α) : Prop where
  members : ∀ m ∈ s.members, m.Steady
  read : ∀ o o' look a, s.read o look = .ok a → s.read o' look = .ok a

lemma fault?_eq_none {r : Except Fault α} : fault? r = none ↔ ∃ a, r = .ok a := by
  cases r <;> simp [fault?]

namespace Schema

lemma steady_member {r : Reader α} (hr : r.Steady) (key : String) (absent : Option α) :
    (member key r absent).Steady where
  members m hm := by
    intro o o' j h
    rw [List.mem_singleton.mp hm] at h ⊢
    obtain ⟨a, ha⟩ := fault?_eq_none.mp h
    exact fault?_eq_none.mpr ⟨a, hr o o' j a ha⟩
  read o o' look a h := by
    simp only [member] at h ⊢
    cases hj : look key with
    | some j =>
      rw [hj] at h
      exact hr o o' j a h
    | none =>
      rw [hj] at h
      exact h

lemma Steady.map {s : Schema α} (hs : s.Steady) (f : α → β) : (s.map f).Steady where
  members := hs.members
  read o o' look b h := by
    obtain ⟨a, ha, rfl⟩ := map_eq_ok.mp h
    exact map_eq_ok.mpr ⟨a, hs.read o o' look a ha, rfl⟩

lemma Steady.and {s : Schema α} {t : Schema β} (hs : s.Steady) (ht : t.Steady) :
    (s.and t).Steady where
  members m hm := (List.mem_append.mp hm).elim (hs.members m) (ht.members m)
  read o o' look p h := by
    obtain ⟨a, ha, h⟩ := bind_eq_ok.mp h
    obtain ⟨b, hb, h⟩ := bind_eq_ok.mp h
    exact bind_eq_ok.mpr ⟨a, hs.read o o' look a ha, bind_eq_ok.mpr ⟨b, ht.read o o' look b hb, h⟩⟩

end Schema

structure Layout.Steady (l : Layout α) : Prop where
  own : ∀ m ∈ l.own, m.Steady
  shared : ∀ g ∈ l.shared, ∀ m ∈ g, m.Steady
  read : ∀ o o' look a, l.read o look = .ok a → l.read o' look = .ok a

namespace Layout

variable {o : Origin} {entries : Entries}

lemma steady_ofSchema {s : Schema α} (hs : s.Steady) (title : String) :
    (ofSchema title s).Steady := ⟨hs.members, by simp [ofSchema], hs.read⟩

lemma groupFault_steady {ms : List Member} (hm : ∀ m ∈ ms, m.Steady) (o' : Origin)
    (h : groupFault o ms entries = none) : groupFault o' ms entries = none := by
  obtain ⟨ht, hs⟩ := Option.or_eq_none_iff.mp h
  refine Option.or_eq_none_iff.mpr ⟨?_, hs⟩
  simp only [typeFault, List.findSome?_eq_none_iff] at ht ⊢
  intro e he
  have hte := ht e he
  cases hf : ms.find? fun m => m.key = e.1 with
  | none => rfl
  | some m =>
    rw [hf] at hte
    exact hm m (List.mem_of_find?_eq_some hf) o o' e.2 hte

lemma objectFault_eq_none {l : Layout α} : l.objectFault o entries = none ↔
    groupFault o l.own entries = none ∧ ∀ g ∈ l.shared, groupFault .buffered g entries = none := by
  rw [objectFault, Option.or_eq_none_iff, List.findSome?_eq_none_iff]

lemma itemsFault_steady {title : String} {total : Nat} {ms : List Member}
    (hm : ∀ m ∈ ms, m.Steady) (o' : Origin) {seen : Nat} {js : List Json}
    (h : itemsFault title o total seen ms js = none) :
    itemsFault title o' total seen ms js = none := by
  induction ms generalizing seen js with
  | nil =>
    cases js with
    | nil => exact h
    | cons j js => cases h
  | cons m ms ih =>
    obtain ⟨hm, hms⟩ := List.forall_mem_cons.mp hm
    cases js with
    | nil =>
      simp only [itemsFault] at h ⊢
      split at h
      · cases h
      · next hr =>
        rw [if_neg hr]
        exact ih hms h
    | cons j js =>
      obtain ⟨hf, h⟩ := Option.or_eq_none_iff.mp h
      exact Option.or_eq_none_iff.mpr ⟨hm o o' j hf, ih hms h⟩

lemma decode_map (l : Layout α) (f : α → β) (j : Json) :
    (l.map f).decode o j = (l.decode o j).map f := by
  cases j with
  | object entries =>
    simp only [decode, show (l.map f).objectFault o entries = l.objectFault o entries from rfl]
    cases l.objectFault o entries <;> rfl
  | array items =>
    simp only [decode, show (l.map f).shared = l.shared from rfl,
      show (l.map f).own = l.own from rfl, show (l.map f).title = l.title from rfl]
    split
    · cases itemsFault l.title o l.own.length 0 l.own items <;> rfl
    · rfl
  | _ => rfl

lemma Steady.decode {l : Layout α} (h : l.Steady) : Reader.Steady l.decode := by
  intro o o' j a hd
  cases j with
  | object entries =>
    obtain ⟨hf, hr⟩ := decode_object.mp hd
    obtain ⟨ho, hs⟩ := objectFault_eq_none.mp hf
    exact decode_object.mpr ⟨objectFault_eq_none.mpr ⟨groupFault_steady h.own o' ho, hs⟩,
      h.read o o' _ a hr⟩
  | array items =>
    simp only [Layout.decode] at hd ⊢
    split at hd
    · next hn =>
      rw [if_pos hn]
      split at hd
      · cases hd
      · next hf =>
        rw [itemsFault_steady h.own o' hf]
        exact h.read o o' _ a hd
    · cases hd
  | _ => cases hd

/-- A record whose members all share the object of another is read as that other one. -/
lemma Steady.decode_wrap {l : Layout α} (h : l.Steady) (hs : l.shared ≠ []) (title : String)
    {j : Json} {a : α} : (l.wrap title).decode o j = .ok a ↔ l.decode o j = .ok a := by
  cases j with
  | object entries =>
    have hf : (l.wrap title).objectFault o entries = none ↔ l.objectFault o entries = none := by
      rw [objectFault_eq_none, objectFault_eq_none]
      have hn : groupFault o (l.wrap title).own entries = none := by
        simp [groupFault, Layout.wrap, typeFault, missingFault]
      rw [and_iff_right hn, show (l.wrap title).shared = l.own :: l.shared from rfl,
        List.forall_mem_cons]
      -- the members that were its own are among the shared ones now, hence set aside
      exact and_congr_left' ⟨groupFault_steady h.own _, groupFault_steady h.own _⟩
    rw [decode_object, decode_object, hf]
    exact and_congr_right fun _ => ⟨h.read _ _ _ a, h.read _ _ _ a⟩
  | array items =>
    have he : l.shared.isEmpty = false := by simpa using hs
    simp [Layout.decode, Layout.wrap, he]
  | _ => simp [Layout.decode]

end Layout
end Federation.Json
