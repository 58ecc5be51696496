import Federation.Proofs.Provider.Codec

/-!
Settings whose values can all be written. The only values that JSON has no room for are spans of
2^64 nanoseconds and more, and the only span is the timeout of a directory.
-/
namespace Federation

namespace Settings

/-- The timeout, if the kind has one, can be counted in nanoseconds. -/
def IsTimely (s : Settings S k) : Prop := Duration.nanos (s.get .timeout) < UInt64.size

lemma IsTimely.write {s : Settings S k} (h : s.IsTimely) (f : Field) (hf : f ∈ k.fields) :
    ∃ j, f.shape.write (s.plain f hf) = .ok j := by
  cases f with
  | timeout =>
    rw [IsTimely, get, dif_pos hf] at h
    exact ⟨_, if_pos h⟩
  | _ => exact ⟨_, rfl⟩

end Settings

/-- A revision that takes its values from settings that can be written. -/
lemma Revision.toJson_isOk {r : Revision Sealed k} {s : Settings S k} (h : s.IsTimely)
    (hr : ∀ f hf v, r.plain f hf = some v → v = s.plain f hf) (id : String) :
    ∃ j, r.toJson id = .ok j := by
  obtain ⟨es, he⟩ := Patch.toListM_isOk fun f hf v hv => hr f hf v hv ▸ h.write f hf
  exact ⟨_, by rw [toJson, he]; rfl⟩

lemma Settings.addedToJson_isOk {c : Settings Sealed k} {s : Settings S k} (h : s.IsTimely)
    (hp : c.plain = s.plain) (id : String) : ∃ j, c.addedToJson id = .ok j := by
  rw [c.addedToJson_eq]
  refine Revision.toJson_isOk h (fun f hf v hv => ?_) id
  rw [← hp]
  exact (Option.some.inj hv).symm

/-- What has a payload can be appended to a stream. -/
lemma Event.draft_isOk {ev : Event} {stream : EventStream} (h : ∃ j, ev.payload = .ok j) :
    ∃ d, ev.draft stream = .ok d := by
  obtain ⟨j, hj⟩ := h
  exact ⟨_, by rw [draft, hj]; rfl⟩

end Federation
