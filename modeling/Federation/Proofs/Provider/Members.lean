import Federation.Proofs.Json.Object
import Federation.Proofs.Outcome
import Federation.Proofs.Text.Base64
import Federation.Provider.Layout
import Mathlib.Data.List.Nodup

/-!
The members of an event's payload: what is written for each field and for the secret of a provider
is read back.
-/
namespace Federation

open Json (Schema Layout Member Fault Reader)

namespace Sealed

/-- The members that say a value, among any others. -/
structure Says (look : String → Option Json) (v : Sealed) : Prop where
  kind : ∃ j, look "cryptoType" = some j ∧ ∀ o, Protection.reader o j = .ok v.kind
  algorithm : look "algorithm" = some (.string v.algorithm)
  keyId : look "keyId" = some (.string v.keyId)
  crypted : look "crypted" = some (.string (Base64.encode v.crypted))

lemma bytesReader_encode (bs : Bytes) (o : Json.Origin) :
    bytesReader o (.string (Base64.encode bs)) = .ok bs := by
  simp only [bytesReader, Reader.text, bind, Except.bind, Base64.decode_encode]
  rfl

lemma Says.gives {look : String → Option Json} {v : Sealed} (h : Says look v) :
    layout.Gives look v := by
  obtain ⟨j, hj, hk⟩ := h.kind
  apply Layout.gives_ofSchema
  refine Schema.Gives.map (a := ((v.kind, v.algorithm), (v.keyId, v.crypted))) ?_ _
  exact ((Schema.gives_member hj hk).and (Schema.gives_text h.algorithm)).and
    ((Schema.gives_text h.keyId).and (Schema.gives_member h.crypted (bytesReader_encode v.crypted)))

lemma reader_toJson (v : Sealed) (o : Json.Origin) : reader o v.toJson = .ok v := by
  refine Layout.decode_ofEntries (by simp) (Says.gives ⟨⟨_, rfl, fun o => ?_⟩, ?_, ?_, ?_⟩) o
  · cases v.kind <;> rfl
  all_goals simp [List.lookup_cons]

end Sealed

namespace Shape

lemma items_strings (vs : List String) (o : Json.Origin) :
    Reader.items Reader.text o (vs.map .string) = .ok vs := by
  induction vs with
  | nil => rfl
  | cons v vs ih =>
    simp only [List.map_cons, Reader.items, Reader.text, ih, bind, Except.bind]
    rfl

lemma reader_write {s : Shape} {v : s.Value} {j : Json} (h : s.write v = .ok j)
    (o : Json.Origin) : s.reader o j = .ok v := by
  cases s with
  | text => cases h; rfl
  | texts => cases h; exact items_strings v o
  | flag => cases h; rfl
  | span =>
    simp only [write] at h
    split at h
    · next hv =>
      cases h
      have hw : (0 : Int) ≤ (v : Duration).nanos ∧
          ((v : Duration).nanos : Int).toNat < Nat.pow 2 64 := ⟨Int.natCast_nonneg _, hv⟩
      simp only [reader, Reader.map, Json.nat, Json.whole, Reader.unsigned, if_pos hw]
      rfl
    · cases h

/-- A value that is written is not null. -/
lemma write_ne_null {s : Shape} {v : s.Value} : s.write v ≠ .ok .null := by
  cases s with
  | span => simp only [write]; split <;> simp [Json.nat, Json.whole]
  | _ => simp [write, Json.strings]

end Shape

lemma Field.entry_eq_ok {f : Field} {v : f.Value} {e : String × Json} :
    f.entry v = .ok e ↔ e.1 = f.key ∧ f.shape.write v = .ok e.2 := by
  unfold entry
  cases f.shape.write v with
  | error _ => simp [Except.map]
  | ok j => simp only [Except.map, Except.ok.injEq, Prod.ext_iff]; grind

namespace Patch

variable {fs : List Field} {p : Patch Field.Value fs} {es : List (String × Json)}

/-- A record is written like the patch that gives all its values. -/
lemma toListM_some (r : Record Field.Value fs) :
    Patch.toListM Field.entry (fun f hf => some (r f hf)) = r.toListM Field.entry := by
  simp only [toListM, toList, Record.toListM, Option.map_some]
  rw [show ∀ g : { f // f ∈ fs } → Except Json.Fault (String × Json),
      fs.attach.filterMap (fun i => some (g i)) = fs.attach.map g from
    fun g => congrFun List.filterMap_eq_map _, List.mapM_map]
  rfl

/-- A patch can be written if its values can. -/
lemma toListM_isOk (h : ∀ f hf v, p f hf = some v → ∃ j, f.shape.write v = .ok j) :
    ∃ es, p.toListM Field.entry = .ok es := by
  refine mapM_isOk fun e he => ?_
  obtain ⟨⟨f, hf⟩, -, hp⟩ := List.mem_filterMap.mp he
  obtain ⟨v, hv, hfe⟩ := Option.map_eq_some_iff.mp hp
  obtain ⟨j, hj⟩ := h f hf v hv
  exact ⟨(f.key, j), hfe ▸ Field.entry_eq_ok.mpr ⟨rfl, hj⟩⟩

/-- What is written stands under keys of fields, in their order. -/
lemma keys_of_toListM (h : p.toListM Field.entry = .ok es) :
    (es.map Prod.fst).Sublist (fs.map Field.key) := by
  have hs : ∀ (is : List { f // f ∈ fs }) (es : List (String × Json)),
      is.filterMap (fun i => (p i.1 i.2).map i.1.entry) = es.map .ok →
        (es.map Prod.fst).Sublist (is.map fun i => i.1.key) := by
    intro is
    induction is with
    | nil => simp
    | cons i is ih =>
      intro es he
      cases hp : p i.1 i.2 with
      | none =>
        rw [List.filterMap_cons_none (by simp [hp])] at he
        exact (ih es he).cons _
      | some v =>
        rw [List.filterMap_cons_some (by simp [hp]; rfl)] at he
        rcases es with _ | ⟨e, es⟩
        · nomatch he
        · obtain ⟨hv, he⟩ := List.cons.inj he
          rw [List.map_cons, List.map_cons, (Field.entry_eq_ok.mp hv).1]
          exact (ih es he).cons_cons _
  simpa using hs fs.attach es (mapM_id_eq_ok h)

/-- What is written are the values that are given, each under the key of its field. -/
lemma mem_toListM (h : p.toListM Field.entry = .ok es) {key : String} {j : Json} :
    (key, j) ∈ es ↔
      ∃ f hf v, p f hf = some v ∧ key = f.key ∧ f.shape.write v = .ok j := by
  have ho : (key, j) ∈ es ↔ (.ok (key, j) : Except Json.Fault _) ∈ p.toList Field.entry := by
    rw [mapM_id_eq_ok h]
    simp
  rw [ho]
  constructor
  · intro hm
    obtain ⟨⟨f, hf⟩, -, he⟩ := List.mem_filterMap.mp hm
    obtain ⟨v, hv, he⟩ := Option.map_eq_some_iff.mp he
    exact ⟨f, hf, v, hv, Field.entry_eq_ok.mp he⟩
  · rintro ⟨f, hf, v, hv, he⟩
    have hfe : f.entry v = .ok (key, j) := Field.entry_eq_ok.mpr he
    exact List.mem_filterMap.mpr ⟨⟨f, hf⟩, List.mem_attach _ _, by rw [hv, Option.map_some, hfe]⟩

/-- A value that is given is written under the key of its field. -/
lemma mem_of_toListM (h : p.toListM Field.entry = .ok es) {f : Field} {hf : f ∈ fs} {v : f.Value}
    (hv : p f hf = some v) : ∃ j, f.shape.write v = .ok j ∧ (f.key, j) ∈ es := by
  have hm : f.entry v ∈ p.toList Field.entry :=
    List.mem_filterMap.mpr ⟨⟨f, hf⟩, List.mem_attach _ _, by simp [hv]⟩
  rw [mapM_id_eq_ok h] at hm
  obtain ⟨⟨key, j⟩, he, hfe⟩ := List.mem_map.mp hm
  obtain ⟨hk, hj⟩ := Field.entry_eq_ok.mp hfe.symm
  exact ⟨j, hj, by rwa [← show key = f.key from hk]⟩

/-- A field that is not given has no entry. -/
lemma key_not_mem_of_toListM (h : p.toListM Field.entry = .ok es)
    (hn : (fs.map Field.key).Nodup) {f : Field} {hf : f ∈ fs} (hv : p f hf = none) :
    f.key ∉ es.map Prod.fst := by
  intro hm
  obtain ⟨⟨key, j⟩, he, hke⟩ := List.mem_map.mp hm
  obtain ⟨g, hg, w, hw, hkg, -⟩ := (mem_toListM h).mp he
  have hgf : g = f := List.inj_on_of_nodup_map hn hg hf (hkg.symm.trans hke)
  subst hgf
  simp [hv] at hw

end Patch

end Federation
