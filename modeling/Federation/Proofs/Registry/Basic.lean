import Federation.Proofs.Command.Invocation
import Federation.Proofs.Provider.Clients
import Federation.Proofs.Provider.Differences
import Federation.Proofs.Provider.Validity

/-!
A registry of providers: what commands are about, without logs, events or ciphers. Under each id of
an instance it has one entry or none, and a command is either allowed, and then changes at most the
entry of its id, or is refused and changes nothing.
-/
namespace Federation

/-- A provider with its secret in the clear. -/
structure Entry where
  owner : Owner
  kind : Kind
  settings : Settings String kind
  /-- Was it of OpenID Connect once? -/
  migrated : Bool := false
  active : Bool := true

namespace Entry

/-- The entry under a configuration of its own kind. -/
def configure (e : Entry) (config : Config) : Entry :=
  if h : e.kind = config.kind then
    { e with kind := config.kind, settings := (h ▸ e.settings).keeping config.settings }
  else e

def migrate (e : Entry) (m : Migration) : Entry :=
  { e with kind := m.target.kind, settings := m.settings, migrated := true }

def remove (e : Entry) : Entry := { e with active := false }

/-- A client that shows the entry with its secret, and nothing else. -/
structure Shows (e : Entry) (callback : String) (c : Client) : Prop
    extends c.Outlines callback e.settings where
  secret : ∀ h, c.connection.secret? = some ⟨e.settings.secret h⟩

/-- The client that is made of the settings of an entry is the one that shows it. -/
lemma shows_iff (e : Entry) (callback : String) (c : Client) : e.Shows callback c ↔
    c = ⟨Client.orElse (e.settings.get .name) e.kind.serviceName, e.settings.permissions,
      (e.settings.map Secret.mk).connection callback⟩ := by
  have ho := (e.settings.map Secret.mk).outlines callback (s := e.settings) rfl
  have hs h := (e.settings.map Secret.mk).connection_secret callback h
  constructor
  · exact fun h => h.toOutlines.unique ho fun hk => (h.secret hk).trans (hs hk).symm
  · rintro rfl
    exact ⟨ho, hs⟩

lemma configure_of_kind (owner : Owner) (config : Config) (s : Settings String config.kind)
    (migrated active : Bool) :
    (⟨owner, config.kind, s, migrated, active⟩ : Entry).configure config =
      ⟨owner, config.kind, s.keeping config.settings, migrated, active⟩ := dif_pos rfl

end Entry

/-- The entries by instance and id. -/
def Registry : Type := String → String → Option Entry

/-- What a registry answers: of a change only that it was made, and of a client which entry it is
for. -/
inductive Response where
  | changed
  | kind (k : Kind)
  | client (e : Entry) (callback : String)

namespace Registry

def empty : Registry := fun _ _ => none

def set (r : Registry) (instanceId id : String) (e : Entry) : Registry := fun i j =>
  if i = instanceId ∧ j = id then some e else r i j

/-- The registry with one entry changed, if it is there. -/
def change (r : Registry) (instanceId id : String) (f : Entry → Entry) : Registry :=
  match r instanceId id with
  | some e => r.set instanceId id (f e)
  | none => r

/-- Is there an active entry of this owner, of a kind that is asked for? -/
def hasActive (r : Registry) (owner : Owner) (id : String) (asked : Kind → Bool) : Bool :=
  (r owner.instanceId id).any fun e => e.active && e.owner = owner && asked e.kind

def allows (r : Registry) : Command → Bool
  | .add owner id config =>
    config.settings.isValid && config.settings.isGuarded && (r owner.instanceId id).isNone
  | .update owner id config => config.settings.isValid && r.hasActive owner id (· = config.kind)
  | .remove owner id => r.hasActive owner id fun _ => true
  | .migrate owner id m =>
    m.settings.isValid && m.settings.isGuarded && r.hasActive owner id (· = .oidc)
  | .kind instanceId id | .client instanceId id _ => (r instanceId id).any Entry.active

/-- The registry after a command that it allows. -/
def next (r : Registry) : Command → Registry
  | .add owner id config =>
    r.set owner.instanceId id ⟨owner, config.kind, config.settings, false, true⟩
  | .update owner id config => r.change owner.instanceId id fun e => e.configure config
  | .remove owner id => r.change owner.instanceId id Entry.remove
  | .migrate owner id m => r.change owner.instanceId id fun e => e.migrate m
  | .kind .. | .client .. => r

/-- The answer to a command that is allowed. -/
def response (r : Registry) : Command → Option Response
  | .kind instanceId id => (r instanceId id).map fun e => .kind e.kind
  | .client instanceId id callback => (r instanceId id).map fun e => .client e callback
  | _ => some .changed

/-- A command that is not allowed is refused without a response. -/
def step (r : Registry) (c : Command) : Option Response × Registry :=
  if r.allows c then (r.response c, r.next c) else (none, r)

def run : Registry → List Command → List (Option Response) × Registry
  | r, [] => ([], r)
  | r, c :: cs => ((r.step c).1 :: (run (r.step c).2 cs).1, (run (r.step c).2 cs).2)

lemma set_self (r : Registry) (instanceId id : String) (e : Entry) :
    r.set instanceId id e instanceId id = some e := if_pos ⟨rfl, rfl⟩

lemma set_of_ne (r : Registry) {instanceId id i j : String} (e : Entry)
    (h : ¬ (i = instanceId ∧ j = id)) : r.set instanceId id e i j = r i j := if_neg h

lemma hasActive_of_some {r : Registry} {owner : Owner} {id : String} {e : Entry}
    (h : r owner.instanceId id = some e) (asked : Kind → Bool) :
    r.hasActive owner id asked = (e.active && e.owner = owner && asked e.kind) := by
  rw [hasActive, h, Option.any_some]

lemma change_of_some {r : Registry} {instanceId id : String} {e : Entry}
    (h : r instanceId id = some e) (f : Entry → Entry) :
    r.change instanceId id f = r.set instanceId id (f e) := by
  rw [change, h]

end Registry

/-- Has a command that ran answered what a registry does? The client must be the one that shows the
entry. -/
inductive Response.Matches : Option Response → Except Error Answer → Prop
  | refused (e : Error) : Matches none (.error e)
  | changed (d : Details) : Matches (some .changed) (.ok (.details d))
  | kind (k : Kind) : Matches (some (.kind k)) (.ok (.kind k))
  | client {e : Entry} {callback : String} {c : Client} (h : ∀ d, e.Shows callback d ↔ d = c) :
    Matches (some (.client e callback)) (.ok (.client c))

end Federation
