import Federation.Proofs.Cipher.Revealing
import Federation.Proofs.Provider.Drafts
import Federation.Proofs.Provider.Findings
import Federation.Provider.Client

/-!
Which providers have a client, and what it shows. It takes an active provider and, for a kind with a
secret, one that the cipher reveals. The client shows the stored settings item by item, the secret
in the clear, and what is the same for all providers of the kind.
-/
namespace Federation

def Attribute.all : List Attribute :=
  [.id, .firstName, .lastName, .displayName, .nickName, .preferredUsername, .email, .emailVerified,
    .phone, .phoneVerified, .preferredLanguage, .avatarUrl, .profile]

/-- Does the field say how a service is reached? Attributes are told apart, as those that are not
named are left out. -/
def Field.isConnecting : Field → Bool
  | .name | .option _ | .attribute _ => false
  | _ => true

lemma Field.isConnecting_or (f : Field) : f.isConnecting = true ∨ f = .name ∨
    (∃ p, f = .option p) ∨ ∃ a, f = .attribute a := by
  cases f <;> simp [isConnecting]

namespace Permissions

def allows (p : Permissions) : Permission → Bool
  | .creationAllowed => p.creationAllowed
  | .linkingAllowed => p.linkingAllowed
  | .autoCreation => p.autoCreation
  | .autoUpdate => p.autoUpdate

lemma eq_of_allows {p p' : Permissions} (h : ∀ q, p.allows q = p'.allows q) : p = p' := by
  cases p
  cases h .creationAllowed
  cases h .linkingAllowed
  cases h .autoCreation
  cases h .autoUpdate
  rfl

end Permissions

/-- The values that parts of a client show, by the fields that they are the values of. -/
def Registration.value? (r : Registration) : (f : Field) → Option f.Value
  | .clientId => some r.clientId
  | .scopes => some r.scopes
  | _ => none

def Endpoints.value? (e : Endpoints) : (f : Field) → Option f.Value
  | .authorizationEndpoint => some e.authorization
  | .tokenEndpoint => some e.token
  | .userEndpoint => some e.user
  | _ => none

def OpenIdClient.value? (c : OpenIdClient) : (f : Field) → Option f.Value
  | .issuer => some c.issuer
  | .idTokenMapping => some c.idTokenMapping
  | f => c.registration.value? f

def LdapClient.value? (c : LdapClient) : (f : Field) → Option f.Value
  | .servers => some c.servers
  | .startTls => some c.startTls
  | .baseDn => some c.baseDn
  | .bindDn => some c.bindDn
  | .userBase => some c.userBase
  | .userObjectClasses => some c.userObjectClasses
  | .userFilters => some c.userFilters
  | .timeout => some c.timeout
  | _ => none

namespace Connection

/-- The kinds whose services are reached in this way. -/
def kinds : Connection → List Kind
  | .oauth .. => [.oauth]
  | .oidc _ => [.oidc]
  | .jwt .. => [.jwt]
  | .azureAd .. => [.azureAd]
  | .github .. => [.github, .githubEnterprise]
  | .gitlab .. => [.gitlab, .gitlabSelfHosted]
  | .google _ => [.google]
  | .ldap _ => [.ldap]

def value? : Connection → (f : Field) → Option f.Value
  | .oauth _ _ idAttribute, .idAttribute => some idAttribute
  | .oauth r e _, f | .github r e, f => (r.value? f).or (e.value? f)
  | .oidc c, f | .google c, f => c.value? f
  | .jwt issuer _ _ _, .issuer => some issuer
  | .jwt _ jwtEndpoint _ _, .jwtEndpoint => some jwtEndpoint
  | .jwt _ _ keysEndpoint _, .keysEndpoint => some keysEndpoint
  | .jwt _ _ _ headerName, .headerName => some headerName
  | .jwt .., _ => none
  | .azureAd _ tenant _, .tenant => some tenant
  | .azureAd _ _ emailVerified, .emailVerified => some emailVerified
  | .azureAd r _ _, f => r.value? f
  | .gitlab _ issuer, .issuer => some issuer
  | .gitlab r _, f => r.value? f
  | .ldap c, f => c.value? f

def registration? : Connection → Option Registration
  | .oauth r .. | .azureAd r .. | .github r _ | .gitlab r _ => some r
  | .oidc c | .google c => some c.registration
  | .jwt .. | .ldap _ => none

def secret? : Connection → Option Secret
  | .ldap c => some c.bindPassword
  | c => c.registration?.map Registration.clientSecret

def callback? : Connection → Option String
  | .ldap c => some c.callback
  | c => c.registration?.map Registration.callback

def selectsAccount? : Connection → Option Bool
  | .oidc c | .google c => some c.selectAccount
  | _ => none

def overrides : Connection → List (Attribute × String)
  | .ldap c => c.overrides
  | _ => []

end Connection

lemma Registration.eq_of_shown {r r' : Registration} (hi : some r.clientId = some r'.clientId)
    (hs : some r.clientSecret = some r'.clientSecret) (hb : some r.callback = some r'.callback)
    (hn : some r.scopes = some r'.scopes) : r = r' := by
  cases r
  cases hi
  cases hs
  cases hb
  cases hn
  rfl

lemma Endpoints.eq_of_shown {e e' : Endpoints} (ha : some e.authorization = some e'.authorization)
    (ht : some e.token = some e'.token) (hu : some e.user = some e'.user) : e = e' := by
  cases e
  cases ha
  cases ht
  cases hu
  rfl

lemma OpenIdClient.eq_of_shown {p p' : OpenIdClient} (hr : p.registration = p'.registration)
    (hi : some p.issuer = some p'.issuer) (ha : some p.selectAccount = some p'.selectAccount)
    (hm : some p.idTokenMapping = some p'.idTokenMapping) : p = p' := by
  cases p
  cases hr
  cases hi
  cases ha
  cases hm
  rfl

namespace Connection

/-- Nothing of a connection is hidden: what it shows tells it from all others of its kind. -/
lemma eq_of_shown {k : Kind} {c c' : Connection} (h : k ∈ c.kinds) (h' : k ∈ c'.kinds)
    (hv : ∀ f, c.value? f = c'.value? f) (hs : c.secret? = c'.secret?)
    (hb : c.callback? = c'.callback?) (ha : c.selectsAccount? = c'.selectsAccount?)
    (ho : c.overrides = c'.overrides) : c = c' := by
  cases c with
  | oauth r e i => cases c' with
    | oauth r' e' i' =>
      cases Registration.eq_of_shown (hv .clientId) hs hb (hv .scopes)
      cases Endpoints.eq_of_shown (hv .authorizationEndpoint) (hv .tokenEndpoint) (hv .userEndpoint)
      cases hv .idAttribute
      rfl
    | _ => grind [kinds]
  | oidc p => cases c' with
    | oidc p' =>
      have hr : p.registration = p'.registration :=
        Registration.eq_of_shown (hv .clientId) hs hb (hv .scopes)
      cases OpenIdClient.eq_of_shown hr (hv .issuer) ha (hv .idTokenMapping)
      rfl
    | _ => grind [kinds]
  | jwt => cases c' with
    | jwt =>
      cases hv .issuer
      cases hv .jwtEndpoint
      cases hv .keysEndpoint
      cases hv .headerName
      rfl
    | _ => grind [kinds]
  | azureAd r t e => cases c' with
    | azureAd r' t' e' =>
      cases Registration.eq_of_shown (hv .clientId) hs hb (hv .scopes)
      cases hv .tenant
      cases hv .emailVerified
      rfl
    | _ => grind [kinds]
  | github r e => cases c' with
    | github r' e' =>
      cases Registration.eq_of_shown (hv .clientId) hs hb (hv .scopes)
      cases Endpoints.eq_of_shown (hv .authorizationEndpoint) (hv .tokenEndpoint) (hv .userEndpoint)
      rfl
    | _ => grind [kinds]
  | gitlab r i => cases c' with
    | gitlab r' i' =>
      cases Registration.eq_of_shown (hv .clientId) hs hb (hv .scopes)
      cases hv .issuer
      rfl
    | _ => grind [kinds]
  | google p => cases c' with
    | google p' =>
      have hr : p.registration = p'.registration :=
        Registration.eq_of_shown (hv .clientId) hs hb (hv .scopes)
      cases OpenIdClient.eq_of_shown hr (hv .issuer) ha (hv .idTokenMapping)
      rfl
    | _ => grind [kinds]
  | ldap p => cases c' with
    | ldap p' =>
      cases p
      cases hv .servers
      cases hv .startTls
      cases hv .baseDn
      cases hv .bindDn
      cases hv .userBase
      cases hv .userObjectClasses
      cases hv .userFilters
      cases hv .timeout
      cases hs
      cases hb
      cases ho
      rfl
    | _ => grind [kinds]

end Connection

def Client.value? (c : Client) : (f : Field) → Option f.Value
  | .name => some c.name
  | .option p => some (c.permissions.allows p)
  | f => c.connection.value? f

lemma Connection.value?_of_not_isConnecting (c : Connection) {f : Field}
    (h : f.isConnecting = false) : c.value? f = none := by
  cases c <;> cases f <;> first | rfl | contradiction

lemma Client.value?_of_isConnecting {c : Client} {f : Field} (h : f.isConnecting = true) :
    c.value? f = c.connection.value? f := by
  cases f <;> first | rfl | contradiction

namespace Kind

/-- What a client shows for a stored value: of an empty name what the service is called, and of an
empty tenant the one that stands for all. -/
def shown (k : Kind) : (f : Field) → f.Value → f.Value
  | .name, (v : String) => if v = "" then k.serviceName else v
  | .tenant, (v : String) => if v = "" then Client.commonTenant else v
  | _, v => v

/-- What the clients of a kind show beside the fields of the kind. -/
def fixed? : Kind → (f : Field) → Option f.Value
  | .github, f => Client.githubEndpoints.value? f
  | .gitlab, .issuer => some Client.gitlabIssuer
  | .google, .issuer => some Client.googleIssuer
  | .google, .idTokenMapping => some false
  | _, _ => none

end Kind

/-- The attributes that settings name, in their order. -/
def Settings.named (s : Settings S k) : List (Attribute × String) :=
  Attribute.all.filterMap fun a =>
    let v : String := s.get (.attribute a)
    if v = "" then none else some (a, v)

/-- A client that shows settings and nothing else, whatever their secret is. -/
structure Client.Outlines (callback : String) (s : Settings S k) (c : Client) : Prop where
  kind : k ∈ c.connection.kinds
  field : ∀ f (hf : f ∈ k.fields), (∀ a, f ≠ .attribute a) →
    c.value? f = some (k.shown f (s.plain f hf))
  other : ∀ f, f ∉ k.fields → c.value? f = k.fixed? f
  overrides : c.connection.overrides = s.named
  no_secret : k.hasSecret = false → c.connection.secret? = none
  callback : c.connection.callback? = if k.hasSecret then some callback else none
  selectsAccount :
    c.connection.selectsAccount? = if k = .oidc ∨ k = .google then some true else none

/-- A client that shows the settings, their secret deciphered, and nothing else. -/
structure Client.Shows (cipher : Cipher) (callback : String) (s : Settings (Option Sealed) k)
    (c : Client) : Prop extends c.Outlines callback s where
  secret : ∀ h, ∃ v text, s.secret h = some v ∧ cipher.Reveals v text ∧
    c.connection.secret? = some ⟨text⟩

namespace Kind

variable {k : Kind}

lemma name_mem_fields (k : Kind) : .name ∈ k.fields := by cases k <;> decide

lemma option_mem_fields (k : Kind) (p : Permission) : .option p ∈ k.fields :=
  mem_fields_of_bundle k.mem_options _ (by cases p <;> decide)

lemma attribute_mem_fields {a : Attribute} (h : .attribute a ∈ k.fields) : k = .ldap := by
  cases k with
  | ldap => rfl
  | _ => simp [fields, items, Item.fields, Bundle.fields] at h

end Kind

namespace Client

variable {k : Kind} {S T : Type} {callback : String} {c c' : Client}

namespace Outlines

variable {s : Settings S k}

lemma value?_eq (h : c.Outlines callback s) (h' : c'.Outlines callback s) {f : Field}
    (ha : ∀ a, f ≠ .attribute a) : c.value? f = c'.value? f := by
  by_cases hf : f ∈ k.fields
  · rw [h.field f hf ha, h'.field f hf ha]
  · rw [h.other f hf, h'.other f hf]

lemma connection_value?_eq (h : c.Outlines callback s) (h' : c'.Outlines callback s) (f : Field) :
    c.connection.value? f = c'.connection.value? f := by
  cases hc : f.isConnecting with
  | false =>
    rw [Connection.value?_of_not_isConnecting _ hc, Connection.value?_of_not_isConnecting _ hc]
  | true =>
    rw [← value?_of_isConnecting hc, ← value?_of_isConnecting hc]
    exact h.value?_eq h' (by rintro a rfl; cases hc)

/-- Clients that show the same settings differ in nothing but the secret. -/
lemma unique (h : c.Outlines callback s) (h' : c'.Outlines callback s)
    (hs : k.hasSecret = true → c.connection.secret? = c'.connection.secret?) : c = c' := by
  have hn : c.name = c'.name := Option.some.inj (h.value?_eq h' (f := .name) nofun)
  have hp : c.permissions = c'.permissions := Permissions.eq_of_allows fun q =>
    Option.some.inj (h.value?_eq h' (f := .option q) nofun)
  have hs : c.connection.secret? = c'.connection.secret? := by
    by_cases hk : k.hasSecret = true
    · exact hs hk
    · rw [h.no_secret (eq_false_of_ne_true hk), h'.no_secret (eq_false_of_ne_true hk)]
  have hc : c.connection = c'.connection :=
    Connection.eq_of_shown h.kind h'.kind (h.connection_value?_eq h') hs
      (h.callback.trans h'.callback.symm) (h.selectsAccount.trans h'.selectsAccount.symm)
      (h.overrides.trans h'.overrides.symm)
  cases c
  cases c'
  cases hn
  cases hp
  cases hc
  rfl

end Outlines

/-- There is one client at most that shows given settings. -/
lemma Shows.unique {cipher : Cipher} {s : Settings (Option Sealed) k}
    (h : c.Shows cipher callback s) (h' : c'.Shows cipher callback s) : c = c' := by
  refine h.toOutlines.unique h'.toOutlines fun hs => ?_
  obtain ⟨v, text, hv, hr, ht⟩ := h.secret hs
  obtain ⟨v', text', hv', hr', ht'⟩ := h'.secret hs
  cases hv.symm.trans hv'
  rw [ht, ht', hr.unique hr']

end Client

namespace Settings

variable {k : Kind} {S : Type}

lemma get_eq (s : Settings S k) {f : Field} (hf : f ∈ k.fields) : s.get f = s.plain f hf :=
  dif_pos hf

lemma permissions_allows (s : Settings S k) (p : Permission) :
    s.permissions.allows p = s.plain (.option p) (k.option_mem_fields p) := by
  cases p <;> rfl

section Connection

variable (t : Settings Secret k) (callback : String)

lemma connection_kind : k ∈ (t.connection callback).kinds := by
  cases k <;> simp [connection, Connection.kinds]

lemma connection_value? {f : Field} (hf : f ∈ k.fields) (hc : f.isConnecting = true) :
    (t.connection callback).value? f = some (k.shown f (t.plain f hf)) := by
  cases k <;> cases f <;> first | rfl | contradiction

lemma connection_other {f : Field} (hf : f ∉ k.fields) :
    (t.connection callback).value? f = k.fixed? f := by
  cases k <;> cases f <;> first | rfl | exact absurd (by decide) hf

lemma connection_secret (h : k.hasSecret = true) :
    (t.connection callback).secret? = some (t.secret h) := by
  cases k <;> first | rfl | contradiction

lemma connection_no_secret (h : k.hasSecret = false) :
    (t.connection callback).secret? = none := by
  cases k <;> first | rfl | contradiction

lemma connection_callback : (t.connection callback).callback? =
    if k.hasSecret then some callback else none := by
  cases k <;> rfl

lemma connection_selectsAccount : (t.connection callback).selectsAccount? =
    if k = .oidc ∨ k = .google then some true else none := by
  cases k <;> rfl

/-- The attributes of a bundle are those of the settings. -/
lemma overridesOf_bundle (h : .bundle .attributes ∈ k.items) :
    LdapClient.overridesOf (t.bundle .attributes h) = t.named := by
  have hv : (fun i : { f // f ∈ Bundle.attributes.fields } =>
        LdapClient.override? i.1 (t.bundle .attributes h i.1 i.2)) =
      fun i => LdapClient.override? i.1 (t.get i.1) := by
    funext i
    rw [t.get_eq (Kind.mem_fields_of_bundle h _ i.2)]
    rfl
  have hm : Bundle.attributes.fields.attach.map (fun i => LdapClient.override? i.1 (t.get i.1)) =
      (Attribute.all.map Field.attribute).map fun f => LdapClient.override? f (t.get f) :=
    List.attach_map_val (f := fun f => LdapClient.override? f (t.get f))
  rw [LdapClient.overridesOf, Record.toList, hv, hm, List.filterMap_map, List.filterMap_map]
  rfl

lemma named_of_ne (h : k ≠ .ldap) : t.named = [] := by
  refine List.filterMap_eq_nil_iff.mpr fun a _ => ?_
  have hv : t.get (.attribute a) = "" := dif_neg fun ha => h (Kind.attribute_mem_fields ha)
  simp only [hv, if_true]

lemma connection_overrides : (t.connection callback).overrides = t.named := by
  by_cases hk : k = .ldap
  · subst hk
    exact t.overridesOf_bundle (by decide)
  · rw [t.named_of_ne hk]
    cases k <;> first | rfl | contradiction

end Connection

lemma named_congr {s : Settings S k} {t : Settings T k} (h : t.plain = s.plain) :
    t.named = s.named := by
  cases t
  cases s
  cases h
  rfl

/-- The client that is made of settings shows them, with whatever secret they are stored. -/
lemma outlines (t : Settings Secret k) (callback : String) {s : Settings S k}
    (h : t.plain = s.plain) : Client.Outlines callback s
      ⟨Client.orElse (t.get .name) k.serviceName, t.permissions, t.connection callback⟩ where
  kind := t.connection_kind callback
  field f hf ha := by
    rw [← h]
    rcases f.isConnecting_or with hc | rfl | ⟨q, rfl⟩ | ⟨a, rfl⟩
    · rw [Client.value?_of_isConnecting hc]
      exact t.connection_value? callback hf hc
    · exact congrArg (fun v => some (Client.orElse v k.serviceName)) (t.get_eq hf)
    · exact congrArg some (t.permissions_allows q)
    · exact absurd rfl (ha a)
  other f hf := by
    rcases f.isConnecting_or with hc | rfl | ⟨q, rfl⟩ | ⟨a, rfl⟩
    · rw [Client.value?_of_isConnecting hc]
      exact t.connection_other callback hf
    · exact absurd k.name_mem_fields hf
    · exact absurd (k.option_mem_fields q) hf
    · exact t.connection_other callback hf
  overrides := (t.connection_overrides callback).trans (named_congr h)
  no_secret := t.connection_no_secret callback
  callback := t.connection_callback callback
  selectsAccount := t.connection_selectsAccount callback

end Settings

namespace Provider

variable {k : Kind} {cipher : Cipher} {s : Settings (Option Sealed) k} {t : Settings Secret k}

lemma revealed_eq_ok (h : revealed cipher s = .ok t) : t.plain = s.plain ∧
    ∀ h, ∃ v text, s.secret h = some v ∧ cipher.Reveals v text ∧ t.secret h = ⟨text⟩ := by
  unfold revealed at h
  split at h
  · next hs =>
    cases hv : s.secret hs with
    | none =>
      rw [hv] at h
      cases h
    | some v =>
      rw [hv] at h
      obtain ⟨text, ht, rfl⟩ := map_eq_ok.mp h
      exact ⟨rfl, fun _ => ⟨v, text, hv, Cipher.revealText_eq_ok.mp ht, rfl⟩⟩
  · next hs =>
    cases h
    exact ⟨rfl, fun h => absurd h hs⟩

lemma revealed_eq_error {e : CipherError} :
    revealed cipher s = .error e ↔ ∃ h, cipher.Denies (s.secret h) e := by
  by_cases hs : k.hasSecret = true
  · rw [revealed, dif_pos hs, exists_prop_of_true hs]
    cases s.secret hs with
    | none =>
      constructor
      · intro h
        cases h
        exact .missing
      · intro h
        cases h
        rfl
    | some v => exact map_eq_error.trans Cipher.revealText_eq_error
  · rw [revealed, dif_neg hs]
    exact ⟨nofun, fun ⟨h, _⟩ => absurd h hs⟩

variable {p : Provider k} {id callback : String}

lemma client_of_active (h : p.status = .active) : p.client cipher id callback =
    (Error.ofCipher (revealed cipher p.settings)).map fun t =>
      ⟨Client.orElse (t.get .name) k.serviceName, t.permissions, t.connection callback⟩ := by
  simp only [client, h, ne_eq, not_true_eq_false, if_false]
  cases revealed cipher p.settings <;> rfl

lemma client_of_ne (h : p.status ≠ .active) :
    p.client cipher id callback = .error (.refused (.inactive id p.status)) := by
  simp only [client, if_pos h]
  rfl

lemma client_eq_ok {c : Client} : p.client cipher id callback = .ok c ↔
    p.status = .active ∧ ∃ t, revealed cipher p.settings = .ok t ∧
      c = ⟨Client.orElse (t.get .name) k.serviceName, t.permissions, t.connection callback⟩ := by
  by_cases h : p.status = .active
  · rw [client_of_active h, map_eq_ok, and_iff_right h]
    exact exists_congr fun t => and_congr Error.ofCipher_eq_ok eq_comm
  · rw [client_of_ne h]
    exact ⟨nofun, fun ⟨ha, _⟩ => absurd ha h⟩

lemma client_eq_error {e : Error} : p.client cipher id callback = .error e ↔
    (p.status ≠ .active ∧ e = .refused (.inactive id p.status)) ∨
      (p.status = .active ∧ ∃ f, revealed cipher p.settings = .error f ∧ e = .cipher f) := by
  by_cases h : p.status = .active
  · rw [client_of_active h, map_eq_error]
    cases revealed cipher p.settings <;> simp [Error.ofCipher, Except.mapError, h, eq_comm]
  · rw [client_of_ne h]
    simp [h, eq_comm]

/-- A client that there is shows the settings. -/
lemma shows_of_client {c : Client} (h : p.client cipher id callback = .ok c) :
    c.Shows cipher callback p.settings := by
  obtain ⟨-, t, ht, rfl⟩ := client_eq_ok.mp h
  obtain ⟨hp, hs⟩ := revealed_eq_ok ht
  refine ⟨t.outlines callback hp, fun h => ?_⟩
  obtain ⟨v, text, hv, hr, ht⟩ := hs h
  exact ⟨v, text, hv, hr, ht ▸ t.connection_secret callback h⟩

/-- A provider that is active has a client if its secret, where it has one, can be had. -/
lemma exists_client (ha : p.status = .active)
    (hs : ∀ h, ∃ v text, p.settings.secret h = some v ∧ cipher.Reveals v text) :
    ∃ c, p.client cipher id callback = .ok c := by
  cases h : p.client cipher id callback with
  | ok c => exact ⟨c, rfl⟩
  | error e =>
    obtain ⟨hn, -⟩ | ⟨-, f, hf, -⟩ := client_eq_error.mp h
    · exact absurd ha hn
    · obtain ⟨hk, hd⟩ := revealed_eq_error.mp hf
      obtain ⟨v, text, hv, hr⟩ := hs hk
      exact absurd (hv ▸ hd) hr.not_denies

/-- Any client that shows the settings of an active provider is the one that it has. -/
lemma client_of_shows {c : Client} (ha : p.status = .active)
    (hc : c.Shows cipher callback p.settings) : p.client cipher id callback = .ok c := by
  have hs h : ∃ v text, p.settings.secret h = some v ∧ cipher.Reveals v text := by
    obtain ⟨v, text, hv, hr, -⟩ := hc.secret h
    exact ⟨v, text, hv, hr⟩
  obtain ⟨c', h⟩ : ∃ c', p.client cipher id callback = .ok c' := exists_client ha hs
  rw [h, hc.unique (shows_of_client h)]

end Provider

/-- Whatever happened to a provider, it has a client exactly if it is active and, of a kind with a
secret, holds one that the cipher reveals. The client is the one that shows its settings. If there
is none, the provider is not active or else the first fault of its secret is reported. -/
theorem clients_exact (k : Kind) (owner : Owner) (id callback : String) (cipher : Cipher)
    (batches : List (List LogEntry)) :
    let v := View.ofKind k owner id
    let p : Provider k := (v.readEach (v.fresh (.ofOwner owner id)) batches).1.state
    ((∃ c, p.client cipher id callback = .ok c) ↔ p.status = .active ∧
      ∀ h, ∃ w text, p.settings.secret h = some w ∧ cipher.Reveals w text) ∧
    (∀ c, p.client cipher id callback = .ok c ↔
      p.status = .active ∧ c.Shows cipher callback p.settings) ∧
    (∀ e, p.client cipher id callback = .error e ↔
      (p.status ≠ .active ∧ e = .refused (.inactive id p.status)) ∨
      (p.status = .active ∧ ∃ h f, cipher.Denies (p.settings.secret h) f ∧ e = .cipher f)) ∧
    (Refusal.inactive id p.status).code = .preconditionFailed := by
  intro v p
  refine ⟨⟨fun ⟨c, h⟩ => ?_, fun ⟨ha, hs⟩ => Provider.exists_client ha hs⟩, fun c => ?_,
    fun e => ?_, rfl⟩
  · refine ⟨(Provider.client_eq_ok.mp h).1, fun hk => ?_⟩
    obtain ⟨w, text, hw, hr, -⟩ := (Provider.shows_of_client h).secret hk
    exact ⟨w, text, hw, hr⟩
  · exact ⟨fun h => ⟨(Provider.client_eq_ok.mp h).1, Provider.shows_of_client h⟩,
      fun ⟨ha, hc⟩ => Provider.client_of_shows ha hc⟩
  · simp only [Provider.client_eq_error, Provider.revealed_eq_error, ← exists_and_right]
    rw [exists_comm]
end Federation
