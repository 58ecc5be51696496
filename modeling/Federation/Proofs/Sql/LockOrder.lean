import Federation.Sql.Table
import Mathlib.Data.List.Basic
import Mathlib.Data.String.Basic
import Mathlib.Tactic.Lemma

/-!
The order in which a push locks streams. The streams it touches are sorted, each once; the locks are
named for texts, and the texts tell streams apart whose instances and types have no slash in them.
-/
namespace Federation

namespace StreamName

variable {k l m : StreamName} {ks : List StreamName}

lemma before_iff : k.before l = true ↔ k.instanceId < l.instanceId ∨
    k.instanceId = l.instanceId ∧ (k.type < l.type ∨ k.type = l.type ∧ k.id < l.id) := by
  simp [before]

lemma not_before_self (k : StreamName) : ¬ k.before k = true := by
  simp [before_iff]

lemma before_trans (h : k.before l = true) (g : l.before m = true) : k.before m = true := by
  rw [before_iff] at *
  rcases h with h | ⟨h, h'⟩ <;> rcases g with g | ⟨g, g'⟩
  · exact .inl (h.trans g)
  · exact .inl (g ▸ h)
  · exact .inl (h ▸ g)
  · refine .inr ⟨h.trans g, ?_⟩
    rcases h' with h' | ⟨h', h''⟩ <;> rcases g' with g' | ⟨g', g''⟩
    · exact .inl (h'.trans g')
    · exact .inl (g' ▸ h')
    · exact .inl (h' ▸ g')
    · exact .inr ⟨h'.trans g', h''.trans g''⟩

/-- Of two streams one comes before the other. -/
lemma before_of_not_before (hn : k ≠ l) (h : ¬ k.before l = true) : l.before k = true := by
  obtain ⟨i, t, d⟩ := k
  obtain ⟨j, u, e⟩ := l
  rw [before_iff] at *
  rcases lt_trichotomy i j with hi | rfl | hi
  · exact absurd (.inl hi) h
  · rcases lt_trichotomy t u with ht | rfl | ht
    · exact absurd (.inr ⟨rfl, .inl ht⟩) h
    · rcases lt_trichotomy d e with hd | rfl | hd
      · exact absurd (.inr ⟨rfl, .inr ⟨rfl, hd⟩⟩) h
      · exact absurd rfl hn
      · exact .inr ⟨rfl, .inr ⟨rfl, hd⟩⟩
    · exact .inr ⟨rfl, .inl ht⟩
  · exact .inl hi

lemma mem_insert : m ∈ insert k ks ↔ m = k ∨ m ∈ ks := by
  fun_induction insert k ks with
  | case1 => simp
  | case2 => simp
  | case3 => simp
  | case4 l ls _ _ ih =>
    simp only [List.mem_cons, ih]
    tauto

/-- Streams that stand in order, each once. -/
def Ordered (ks : List StreamName) : Prop := ks.Pairwise fun k l => k.before l = true

lemma Ordered.insert (h : Ordered ks) (k : StreamName) : Ordered (insert k ks) := by
  fun_induction StreamName.insert k ks with
  | case1 => exact List.pairwise_singleton _ _
  | case2 => exact h
  | case3 l ls _ hk =>
    refine List.pairwise_cons.mpr ⟨fun m hm => ?_, h⟩
    rcases List.mem_cons.mp hm with rfl | hm
    · exact hk
    · exact before_trans hk ((List.pairwise_cons.mp h).1 m hm)
  | case4 l ls hn hk ih =>
    obtain ⟨hl, h⟩ := List.pairwise_cons.mp h
    refine List.pairwise_cons.mpr ⟨fun m hm => ?_, ih h⟩
    rcases mem_insert.mp hm with rfl | hm
    · exact before_of_not_before hn hk
    · exact hl m hm

lemma mem_sorted : m ∈ sorted ks ↔ m ∈ ks := by
  have h : ∀ acc, m ∈ ks.foldl (fun acc k => StreamName.insert k acc) acc ↔ m ∈ ks ∨ m ∈ acc := by
    induction ks with
    | nil => simp
    | cons k ks ih =>
      intro acc
      rw [List.foldl_cons, ih, mem_insert, List.mem_cons]
      tauto
  simpa [sorted] using h []

lemma ordered_sorted (ks : List StreamName) : Ordered (sorted ks) :=
  List.foldlRecOn ks _ .nil fun _ h k _ => Ordered.insert h k

lemma toList_lockText (table : String) (k : StreamName) :
    (k.lockText table).toList = table.toList ++
      '/' :: (k.instanceId.toList ++ '/' :: (k.type.toList ++ '/' :: k.id.toList)) := by
  rw [lockText, String.toList_intercalate]
  simp

/-- No two of some streams are locked under one text. -/
def ToldApart (table : String) (ks : List StreamName) : Prop :=
  ∀ k ∈ ks, ∀ l ∈ ks, k.lockText table = l.lockText table → k = l

/-- Where the parts before a slash have none, they are equal if the wholes are. -/
lemma cut_eq {a b x y : List Char} (ha : '/' ∉ a) (hb : '/' ∉ b)
    (h : a ++ '/' :: x = b ++ '/' :: y) : a = b ∧ x = y := by
  rcases List.append_eq_append_iff.mp h with ⟨c, rfl, hc⟩ | ⟨c, rfl, hc⟩
  · cases c with
    | nil => simpa using hc
    | cons d c => simp_all
  · cases c with
    | nil => simpa using hc.symm
    | cons d c => simp_all

/-- Slashes in ids do no harm as long as there are none in instances and types. -/
lemma toldApart_of_plain (table : String)
    (h : ∀ k ∈ ks, '/' ∉ k.instanceId.toList ∧ '/' ∉ k.type.toList) : ToldApart table ks := by
  intro k hk l hl ht
  have hs := congrArg String.toList ht
  rw [toList_lockText, toList_lockText] at hs
  have htail := (List.cons.inj (List.append_cancel_left hs)).2
  obtain ⟨hi, htail⟩ := cut_eq (h k hk).1 (h l hl).1 htail
  obtain ⟨ht, hd⟩ := cut_eq (h k hk).2 (h l hl).2 htail
  obtain ⟨i, t, d⟩ := k
  obtain ⟨j, u, e⟩ := l
  rw [mk.injEq]
  exact ⟨String.toList_inj.mp hi, String.toList_inj.mp ht, String.toList_inj.mp hd⟩

end StreamName

namespace Batch

variable {k : StreamName} {p : Batch}

/-- The streams of a push are those of its expectations and of its events. -/
lemma mem_streams : k ∈ p.streams ↔
    (∃ c ∈ p.expectations, c.stream.name = k) ∨ ∃ e ∈ p.events, e.stream.name = k := by
  simp [streams, StreamName.mem_sorted]

lemma ordered_streams (p : Batch) : StreamName.Ordered p.streams := StreamName.ordered_sorted _

end Batch
end Federation
