import Federation.Proofs.Provider.Views

/-!
What can be asked of a log about an id: the provider of a kind, whether a provider exists, and what
the id stands for. Each question is answered from the events of that id alone.
-/
namespace Federation

inductive Inquiry where
  | provider (k : Kind) (owner : Owner) (id : String)
  | removal (owner : Owner) (id : String)
  | discovery (instanceId id : String)

namespace Inquiry

def view : Inquiry → View
  | .provider k owner id => .ofKind k owner id
  | .removal owner id => .ofRemoval owner id
  | .discovery _ id => .discovery id

def base : Inquiry → Base
  | .provider _ owner id | .removal owner id => .ofOwner owner id
  | .discovery instanceId id => .ofInstance instanceId id

/-- The answer of a log to a model that has read nothing yet. -/
def load (q : Inquiry) (log : Log) : Model q.view.State × Except LogError Unit :=
  q.view.load (q.view.fresh q.base) log

def query (q : Inquiry) : Query := q.view.query q.base

/-- Is this the provider that is asked about? What an id stands for is asked of all owners. -/
def Concerns (owner : Owner) (id : String) : Inquiry → Prop
  | .provider _ other about | .removal other about => other = owner ∧ about = id
  | .discovery instanceId about => instanceId = owner.instanceId ∧ about = id

variable {q : Inquiry} {owner : Owner} {id : String} {e : LogEntry} {ev : Event}

/-- What is read of a provider's history answers questions about that provider only. -/
lemma concerns_of_wants (hr : Records owner id e ev) (hev : ev.isEarly = false)
    (h : q.query.wants e = true) : q.Concerns owner id := by
  cases q with
  | provider k other about =>
    have hs := View.wants_stream (List.ne_nil_of_mem Kind.removed_mem_readTags) h
    exact Owner.stream_eq_iff.mp (hs.symm.trans hr.stream)
  | removal other about =>
    have hs := View.wants_stream (List.ne_nil_of_mem (Removal.mem_readTags .removed)) h
    exact Owner.stream_eq_iff.mp (hs.symm.trans hr.stream)
  | discovery instanceId about =>
    have hs := ((hr.wants_discovery hev instanceId about).mp h).1
    rw [hr.stream] at hs
    exact ⟨hs.1.symm, hs.2.symm⟩

end Inquiry
end Federation
