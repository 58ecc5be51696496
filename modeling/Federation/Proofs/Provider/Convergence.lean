import Federation.Proofs.Provider.Minimal
import Federation.Proofs.Provider.Views

/-!
An update arrives. The event that is stored for a desired configuration leads, read again, to a
provider with just these values, and where nothing is stored the provider has them already.
-/
namespace Federation

namespace Settings

/-- The same fields, where no secret is given. -/
def withoutSecret (s : Settings String k) : Settings String k := ⟨s.plain, fun _ => ""⟩

end Settings

namespace Provider

variable {k : Kind} {p q : Provider k} {cipher : Cipher} {nonce : Nonce}
  {desired : Settings String k}

/-- What is left of a provider that was to be as desired: the desired fields, the status it had and,
unless another secret was given, the secret it had. -/
structure Meets (cipher : Cipher) (p : Provider k) (desired : Settings String k)
    (q : Provider k) : Prop where
  plain : q.settings.plain = desired.plain
  status : q.status = p.status
  kept : ∀ h, desired.secret h = "" → q.settings.secret h = p.settings.secret h
  given : ∀ h, desired.secret h ≠ "" →
    ∃ v, q.settings.secret h = some v ∧ cipher.revealText v = .ok (desired.secret h)

lemma apply_changed (hp : p.status ≠ .removed) (id : String) (r : Revision Sealed k) :
    p.apply (.changed k id r) = ⟨p.status, p.settings.revise (r.map some)⟩ := by
  rw [apply, if_neg hp, Event.writes_changed]
  rfl

lemma meets_of_changes (hc : cipher.Undoes) (hp : p.status ≠ .removed) {cs : List (Change k)}
    (hcs : p.settings.changes cipher nonce desired = .ok cs) (id : String) :
    p.Meets cipher desired (p.apply (.changed k id (cs.foldl .change .empty))) := by
  rw [apply_changed hp]
  constructor
  · simp only [Settings.revise, Revision.map, Settings.changes_plain hcs]
    exact Record.patch_diff _ _
  · rfl
  · intro h he
    simp only [Settings.revise, Revision.map, (Settings.secret_eq_none_of_changes hcs h).mpr he]
    rfl
  · intro h hne
    obtain ⟨v, hv⟩ := Option.ne_none_iff_exists'.mp
      (mt (Settings.secret_eq_none_of_changes hcs h).mp hne)
    refine ⟨v, ?_, hc.revealText ((Settings.secret_of_changes hcs).mp hv).2⟩
    simp only [Settings.revise, Revision.map, hv]
    rfl

/-- What meets the desired settings needs no more changes. -/
lemma Meets.changedDraft? {config : Config} {p q : Provider config.kind}
    (h : p.Meets cipher config.settings q) (other : Cipher) (nonce : Nonce)
    (stream : EventStream) :
    q.changedDraft? other nonce stream ⟨config.kind, config.settings.withoutSecret⟩ = .ok none :=
  changedDraft?_eq_none.mpr (Settings.changes_eq_nil.mpr ⟨h.plain, fun _ => rfl⟩)

/-- An entry that holds an event lets it act. -/
lemma run_entry {e : LogEntry} {ev : Event} (he : ev.isEarly = false)
    (hj : ev.payload = .ok e.payload) (ht : e.type = ev.tag.name) (hm : ev.tag ∈ k.readTags)
    (p : Provider k) : (fold k).run p [e] = (p.apply ev, none) := by
  have hr : Event.recognise k.readTags e.type e.payload = .ok (some ev) := by
    rw [ht, Event.recognise_payload he hj, if_pos hm]
  have hf : (fold k).recognise e = .ok (some ev) := hr
  simp only [Fold.run, hf]
  rfl

/-- An update is drawn up unless a secret that is given cannot be encrypted. -/
lemma changedDraft?_isOk {config : Config} (ht : config.settings.IsTimely)
    (p : Provider config.kind) (stream : EventStream) :
    (∃ h f, config.settings.secret h ≠ "" ∧
      cipher.protectText nonce (config.settings.secret h) = .error f) ∨
    ∃ o, p.changedDraft? cipher nonce stream config = .ok o := by
  rw [or_iff_not_imp_left]
  intro hn
  have hs : ∀ h, config.settings.secret h ≠ "" →
      ∃ v, cipher.protectText nonce (config.settings.secret h) = .ok v := by
    intro h hne
    cases hv : cipher.protectText nonce (config.settings.secret h) with
    | ok v => exact ⟨v, rfl⟩
    | error f => exact absurd ⟨h, f, hne, hv⟩ hn
  obtain ⟨cs, hcs⟩ := Settings.changes_isOk (s := p.settings) hs
  by_cases hnil : cs = []
  · exact ⟨none, changedDraft?_eq_none.mpr (hnil ▸ hcs)⟩
  · obtain ⟨j, -, hd⟩ := changedDraft?_of_changes ht hcs hnil stream
    exact ⟨_, hd⟩

end Provider

/-- The stream of a model that has read what was stored for it. -/
lemma Base.stream_advance_self {b : Base} {scope : Scope} {id : String} {e : LogEntry}
    (he : e.stream = b.stream scope id) :
    (b.advance [e]).stream scope id = b.stream scope id := by
  simp only [advance, List.head?_cons, List.getLast?_singleton, stream, he, orFirst_self]

/-- Updates converge. Unless a secret that is given cannot be encrypted there is an answer: either
an event, and whoever reads it next has a provider with all desired values, the status it had and
its secret or the given one, of which nothing more need be changed; or none, and then no secret was
given and all fields were as desired before. -/
theorem update_converges {cipher : Cipher} (hc : cipher.Undoes) {config : Config}
    (ht : config.settings.IsTimely) {p : Provider config.kind} (hp : p.status ≠ .removed)
    (nonce : Nonce) (base : Base) (scope : Scope) (id : String) :
    ((∃ h f, config.settings.secret h ≠ "" ∧
        cipher.protectText nonce (config.settings.secret h) = .error f) ∨
      ∃ o, p.changedDraft? cipher nonce (base.stream scope id) config = .ok o) ∧
    (∀ d, p.changedDraft? cipher nonce (base.stream scope id) config = .ok (some d) →
      ∀ e : LogEntry, e.type = d.type → e.payload = d.payload →
        ∃ q : Provider config.kind,
          (View.provider config.kind scope id).read ⟨base, p, []⟩ [e] =
            (⟨base.advance [e], q, []⟩, .ok ()) ∧
          p.Meets cipher config.settings q ∧
          (e.stream = d.stream → (base.advance [e]).stream scope id = base.stream scope id) ∧
          ∀ other later stream, q.changedDraft? other later stream
            ⟨config.kind, config.settings.withoutSecret⟩ = .ok none) ∧
    (p.changedDraft? cipher nonce (base.stream scope id) config = .ok none →
      p.settings.plain = config.settings.plain ∧ ∀ h, config.settings.secret h = "") := by
  refine ⟨Provider.changedDraft?_isOk ht p _, fun d hd e htype hpayload => ?_, fun hn => ?_⟩
  · -- the entry holds the changed event, and that event holds all changes
    obtain ⟨cs, hcs, -, hdraft⟩ := Provider.changedDraft?_eq_some.mp hd
    obtain ⟨j, hj, rfl⟩ := map_eq_ok.mp hdraft
    have hm := Provider.meets_of_changes hc hp hcs (base.stream scope id).id
    have hr := Provider.run_entry rfl (hj.trans (congrArg _ hpayload.symm)) htype
      (Kind.changed_mem_readTags.mpr rfl) p
    exact ⟨_, View.read_reduced hr, hm, Base.stream_advance_self, hm.changedDraft?⟩
  · exact Settings.changes_eq_nil.mp (Provider.changedDraft?_eq_none.mp hn)

namespace Sample

def base : Base := .ofInstance "instance" "id"

/-- An entry that holds what was drawn up. -/
def entryOf (d : Draft) : LogEntry := ⟨⟨0⟩, 1, d.stream, 1, d.type, d.payload, "editor", ⟨0, 0⟩⟩

end Sample

/-- A provider whose client becomes known has that client when it is read again. -/
theorem update_converges_client :
    Cipher.plain.Undoes ∧ Sample.clientConfig.settings.IsTimely ∧
    ({} : Provider .google).status ≠ .removed ∧
    ∃ d, ({} : Provider .google).changedDraft? Cipher.plain (.ofNat 0)
        (Sample.base.stream .instanceWide "id") Sample.clientConfig = .ok (some d) ∧
      ∃ q : Provider .google,
        (View.provider .google .instanceWide "id").read ⟨Sample.base, ({} : Provider .google), []⟩
            [Sample.entryOf d] =
          (⟨Sample.base.advance [Sample.entryOf d], q, []⟩, .ok ()) ∧
        q.settings.get .clientId = "client" := by
  have ht : Sample.clientConfig.settings.IsTimely := by unfold Settings.IsTimely; decide
  have hp : ({} : Provider Sample.clientConfig.kind).status ≠ .removed := nofun
  obtain ⟨hanswer, hevent, hnone⟩ := update_converges Cipher.plain_undoes ht hp (.ofNat 0)
    Sample.base .instanceWide "id"
  rcases hanswer with ⟨_, _, _, hf⟩ | ⟨_ | d, hd⟩
  · cases hf
  · exact absurd ((hnone hd).2 rfl) (by decide)
  · obtain ⟨q, hq, hm, -⟩ := hevent d hd (Sample.entryOf d) rfl rfl
    have hg : q.settings.get .clientId = Sample.clientConfig.settings.get .clientId := by
      simp only [Settings.get, hm.plain]
    exact ⟨Cipher.plain_undoes, ht, hp, d, hd, q, hq, hg⟩

end Federation
