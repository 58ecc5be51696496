import Federation.Proofs.Command.Accounts
import Federation.Proofs.Command.Appending
import Federation.Proofs.Provider.Inquiry

/-!
Commands keep to their own provider. Whatever a log holds, nobody else can tell from it whether a
command was carried out.
-/
namespace Federation

namespace View

variable {v : View} {P : Draft → Prop} {log later : Log}

/-- Events that are not asked for do not change the answer. -/
lemma load_of_gains (g : log.Gains P later) {m : Model v.State}
    (hn : ∀ e : LogEntry, P e.draft → (v.query m.base).wants e = false) :
    v.load m later = v.load m log := by
  obtain ⟨⟨es, he, hes⟩, ha⟩ := g
  have hnil : (v.query m.base).select es = [] := by
    simpa [Query.select] using fun e hm => hn e (hes e hm)
  have hs : (v.query m.base).select later.events = (v.query m.base).select log.events := by
    rw [he, Query.select, List.filter_append]
    exact (congrArg _ hnil).trans (List.append_nil _)
  have hf : later.filter (v.query m.base) = log.filter (v.query m.base) := by
    simp only [Log.filter, Log.reached, ha, hs]
  simp only [load_def, hf]

end View

namespace Invocation

variable {i : Invocation} {q : Inquiry} {log later : Log}

/-- A question about another provider does not ask for what a command appends. -/
lemma Drafts.not_wanted
    (hq : ∀ owner id, i.command.subject? = some (owner, id) → ¬ q.Concerns owner id)
    {e : LogEntry} (h : i.Drafts e.draft) : q.query.wants e = false := by
  obtain ⟨owner, id, ev, hd, he⟩ := h
  rw [← Bool.not_eq_true]
  exact fun hw => hq owner id hd.subject (Inquiry.concerns_of_wants ⟨hd.names, he⟩ hd.isEarly hw)

lemma load_of_gains
    (hq : ∀ owner id, i.command.subject? = some (owner, id) → ¬ q.Concerns owner id)
    (g : log.Gains i.Drafts later) : q.load later = q.load log :=
  View.load_of_gains g fun _ h => h.not_wanted hq

end Invocation

/-- Whatever a log holds and whatever becomes of a command, every question about a provider other
than its own has the same answer before and after it, with all that the answer says of how far the
log was read; and if others come between its calls, before and after each stretch of its own. -/
theorem tenants_isolated (clock : Nat → Stamp) (i : Invocation) (log : Log) (q : Inquiry)
    (hq : ∀ owner id, i.command.subject? = some (owner, id) → ¬ q.Concerns owner id) :
    q.load (i.program.run clock log).2 = q.load log ∧
    ∀ before own : List Happening, (∀ x ∈ own, x.IsOwn) →
      q.load (i.trial clock log (before ++ own)).log = q.load (i.trial clock log before).log := by
  refine ⟨Invocation.load_of_gains hq i.appends.run, fun before own ho => ?_⟩
  rw [Invocation.trial, Trial.run_append]
  exact Invocation.load_of_gains hq (Trial.gains_run (Trial.appends_run i.appends before) ho)

namespace Sample

def adding : Invocation :=
  ⟨plainService, .add (.ofInstance "instance") "id" ⟨.google, withSecret "secret"⟩⟩

/-- The organization asks for a provider under the same id. -/
def neighbour : Inquiry := .provider .google (.ofOrganization "instance" "org") "id"

end Sample

/-- The organization does not see the provider that the instance adds. -/
theorem tenants_isolated_neighbour :
    (∀ owner id, Sample.adding.command.subject? = some (owner, id) →
      ¬ Sample.neighbour.Concerns owner id) ∧
    (Sample.adding.program.run Sample.stopped {}).2.events.map LogEntry.type =
      ["idp.google.added"] ∧
    Sample.neighbour.load (Sample.adding.program.run Sample.stopped {}).2 =
      Sample.neighbour.load {} := by
  have hq : ∀ owner id, Sample.adding.command.subject? = some (owner, id) →
      ¬ Sample.neighbour.Concerns owner id := by
    rintro _ _ ⟨⟩ ⟨ho, -⟩
    exact absurd (congrArg Owner.scope ho) (by decide)
  exact ⟨hq, by decide +kernel,
    (tenants_isolated Sample.stopped Sample.adding {} Sample.neighbour hq).1⟩

end Federation
