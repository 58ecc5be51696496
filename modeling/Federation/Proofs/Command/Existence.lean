import Federation.Proofs.Command.Invocation
import Federation.Proofs.Provider.Standing

/-!
Which providers can be removed, and which can be found. Removal asks whether a provider was added,
in whatever form; discovery asks what kind it is. The two agree unless a history tells of the one
before it tells of the other.
-/
namespace Federation

namespace Event

/-- The first event that says that a provider was added, or of which kind it is, says both. -/
def opens (h : List Event) : Prop :=
  ∀ ev, h.find? (fun ev => ev.isAdded || ev.kind?.isSome) = some ev →
    ev.isAdded = true ∧ ev.kind?.isSome = true

lemma opens.stands_eq {h : List Event} (ho : opens h) :
    stands isAdded h = stands (fun ev => ev.kind?.isSome) h := by
  induction h with
  | nil => rfl
  | cons ev h ih =>
    by_cases hb : (ev.isAdded || ev.kind?.isSome) = true
    · obtain ⟨ha, hk⟩ := ho ev (List.find?_cons_of_pos hb)
      simp only [stands, ha, hk, if_true]
    · have hn := hb
      simp only [Bool.or_eq_true, not_or, Bool.not_eq_true] at hn
      simp only [stands, hn.1, hn.2, Bool.false_eq_true, if_false]
      refine ih fun ev' hev => ho ev' ?_
      rwa [List.find?_cons_of_neg (by simpa using hn)]

end Event

namespace Service

open Program

variable {clock : Nat → Stamp} {log : Log} {owner : Owner} {id : String}

/-- A push goes through where every stream is as expected. -/
lemma run_push_met (s : Service) (hs : log.Sound) (ha : log.available = true)
    (expectations : List Expectation) (he : ∀ c ∈ expectations, log.tail c.stream.name = c.expected)
    (d : Draft) : ∃ details later, Returns clock (s.push expectations d) log details later := by
  obtain ⟨stored, later, hp⟩ := (Log.push_ok_iff hs (clock log.events.length)
    ⟨s.editor, expectations, [d]⟩).mpr ⟨ha, fun c hc => (he c hc).symm.trans (Log.tail_eq hs _)⟩
  obtain ⟨e, rfl, -, -, -⟩ := Log.push_single hp
  refine ⟨⟨e.sequence, e.createdAt, e.stream.resourceOwner⟩, later, ?_⟩
  simp only [Returns, Service.push, run, hp]
  rfl

/-- A provider can be removed where its history has told that it was added and of no removal
since. -/
lemma remove_iff (s : Service) (h : log.Historic) :
    (∃ details later, Returns clock (s.remove owner id) log details later) ↔
      Event.stands Event.isAdded (log.history owner id) = true := by
  obtain ⟨base, status, hload, hst, hend⟩ := h.load_removal owner id
  rw [← hst]
  by_cases ha : status = .active
  · refine iff_of_true ?_ ha
    obtain ⟨d, hd⟩ : ∃ d, (Event.removed id).draft (owner.stream id) = .ok d := ⟨_, rfl⟩
    have he : ∀ c ∈ [(⟨owner.stream id, base.processed⟩ : Expectation)],
        log.tail c.stream.name = c.expected := by
      intro c hc
      rw [List.mem_singleton.mp hc, hend ha]
    obtain ⟨details, later, hp⟩ := s.run_push_met h.sound h.available _ he d
    refine ⟨details, later, Returns.retry (i := 0) ?_ _⟩
    rw [Returns, removeAttempt, run_load_bind hload]
    simp only [ha, ne_eq, not_true_eq_false, if_false, hd]
    exact hp
  · refine iff_of_false ?_ ha
    rintro ⟨details, later, hr⟩
    have hrun : (s.removeAttempt owner id).run clock log =
        (.error (.refused (.unknown id)), log) := by
      rw [removeAttempt, run_load_bind hload]
      simp only [ne_eq, ha, not_false_eq_true, if_true]
      rfl
    have hall : (s.remove owner id).run clock log = _ := run_retry_local (i := 0) hrun rfl _
    cases hall.symm.trans hr

end Service

namespace Log

variable {log : Log} {owner : Owner} {id : String}

/-- A provider can be found where its history has told of its kind and of no removal since. -/
lemma Historic.discovered_iff (h : log.Historic) : (∃ k, log.Discovers k owner id) ↔
    Event.stands (fun ev => ev.kind?.isSome) (log.history owner id) = true := by
  simp only [h.discovers_iff, exists_and_left, and_iff_left_iff_imp]
  intro hs
  obtain ⟨ev, hev, hk⟩ := (Event.stands_iff.mp hs).1
  rw [← Option.isSome_iff_exists, List.getLast?_isSome]
  intro hn
  rw [List.filterMap_eq_nil_iff.mp hn ev hev] at hk
  cases hk

end Log

namespace Early

/-- A service that keeps secrets as they are. -/
def service : Service :=
  ⟨⟨"none", "key", ["key"], fun _ text => .ok text, fun crypted _ => .ok crypted⟩, {}, "editor",
    fun _ => .ofNat 0⟩

def clock : Nat → Stamp := fun _ => ⟨⟨0, 0⟩, fun _ => ⟨0⟩⟩

end Early

/-- In a log in which every id has a history, a provider can be removed where its owner's history
has told that it was added and of no removal since, and it can be found where that history has told
of its kind and of no removal since. So whatever can be found can be removed, and nothing else can,
unless the history begins with an event that tells the one and not the other. -/
theorem removable_iff_discovered {log : Log} (h : log.Historic) (clock : Nat → Stamp)
    (s : Service) (owner : Owner) (id : String) :
    ((∃ d later, (s.remove owner id).run clock log = (.ok d, later)) ↔
      Event.stands Event.isAdded (log.history owner id) = true) ∧
    ((∃ k, log.Discovers k owner id) ↔
      Event.stands (fun ev => ev.kind?.isSome) (log.history owner id) = true) ∧
    (Event.opens (log.history owner id) →
      ((∃ d later, (s.remove owner id).run clock log = (.ok d, later)) ↔
        ∃ k, log.Discovers k owner id)) := by
  refine ⟨s.remove_iff h, h.discovered_iff, fun ho => ?_⟩
  rw [h.discovered_iff, ← ho.stands_eq]
  exact s.remove_iff h

theorem removable_of_early_oidc :
    (∃ d later, (Early.service.remove Early.owner "id").run Early.clock (Early.log .oidc) =
      (.ok d, later)) ∧ ∃ k, (Early.log .oidc).Discovers k Early.owner "id" := by
  have hh : (Early.log .oidc).Historic := Early.historic_log
  obtain ⟨hr, -, heq⟩ :=
    removable_iff_discovered hh Early.clock Early.service Early.owner "id"
  have hopens : Event.opens ((Early.log .oidc).history Early.owner "id") := by
    rw [Early.history_log]
    rintro ev ⟨⟩
    exact ⟨rfl, rfl⟩
  have hremoved := hr.mpr (by rw [Early.history_log]; rfl)
  exact ⟨hremoved, (heq hopens).mp hremoved⟩

/-- A provider of a protocol without a kind can be removed and not be found. -/
theorem early_saml_removable_undiscovered :
    (Early.log .saml).Historic ∧
    (∃ d later, (Early.service.remove Early.owner "id").run Early.clock (Early.log .saml) =
      (.ok d, later)) ∧ ¬ ∃ k, (Early.log .saml).Discovers k Early.owner "id" := by
  have hh : (Early.log .saml).Historic := Early.historic_log
  refine ⟨hh, (Early.service.remove_iff hh).mpr ?_, fun hd => ?_⟩
  · rw [Early.history_log]
    rfl
  · rw [hh.discovered_iff, Early.history_log] at hd
    cases hd

end Federation
