import Federation.Proofs.Json.Origin
import Federation.Proofs.Provider.Writing

/-!
Payloads of all events, those of the first providers too. An event can be written unless its timeout
has more nanoseconds than 64 bits count, and what is written is read back as the event. A migration
is read from what an added provider of its target would be read from.
-/
namespace Federation

open Json (Schema Layout Member Fault Reader)

namespace Json

/-- Whatever is written so is read back. -/
def Reader.Inverts (r : Reader α) (write : α → Json) : Prop := ∀ a o, r o (write a) = .ok a

lemma Reader.inverts_text : Reader.text.Inverts .string := fun _ _ => rfl

lemma Reader.inverts_flag : Reader.flag.Inverts .bool := fun _ _ => rfl

lemma Reader.inverts_strings : (Reader.list .text).Inverts .strings :=
  fun vs o => Shape.items_strings vs o

variable {look : String → Option Json} {key : String} {r : Reader α} {write : α → Json}

lemma Schema.gives_written (hr : r.Inverts write) {absent : Option α} {a : α}
    (hl : look key = some (write a)) : (member key r absent).Gives look a :=
  gives_member hl (hr a)

/-- A member that is there only where there is a value. -/
lemma Schema.gives_given (hr : r.Inverts write) (hn : ∀ a, write a ≠ .null) {v : Option α}
    (hl : look key = v.map write) : (optional key r).Gives look v := by
  cases v with
  | none => exact gives_absent hl
  | some a => exact gives_optional hl (hn a) (hr a)

/-- A member that is null where there is no value. -/
lemma Schema.gives_nullable (hr : r.Inverts write) (hn : ∀ a, write a ≠ .null) {v : Option α}
    (hl : look key = some ((v.map write).getD .null)) : (optional key r).Gives look v := by
  cases v with
  | none => exact gives_member hl fun _ => rfl
  | some a => exact gives_optional hl (hn a) (hr a)

end Json

lemma Protocol.reader_name : reader.Inverts fun p => .string p.name := by
  intro p o
  cases p <;> rfl

namespace Event

variable {key : String} {write : α → Json} {v : Option α}

lemma keys_given : ((given key write v).map Prod.fst).Sublist [key] := by
  cases v <;> simp [given]

@[simp] lemma lookup_given (k : String) :
    (given key write v).lookup k = if k = key then v.map write else none := by
  cases v with
  | none => simp [given]
  | some a => exact Entries.lookup_cons _ _ _

/-- Beside its id an early event has members under some of certain keys. -/
lemma decode_earlyEntries {title id : String} {s : Schema α} {a : α} {make : String × α → Event}
    {rest : Entries} (keys : List String) (hk : (rest.map Prod.fst).Sublist keys)
    (hn : ("idpConfigId" :: keys).Nodup)
    (hs : s.Gives (fun key => List.lookup key (("idpConfigId", .string id) :: rest)) a) :
    (Layout.ofSchema title ((earlyIdSchema.and s).map make)).decode .document
      (.ofEntries (("idpConfigId", .string id) :: rest)) = .ok (make (id, a)) := by
  apply Layout.decode_ofEntries
  · exact (hk.cons_cons "idpConfigId").nodup hn
  · exact Layout.gives_ofSchema (((Schema.gives_text (by simp)).and hs).map make) _

/-- Early events are read back as well. -/
theorem decode_early {e : Event} {j : Json} (he : e.isEarly = true) (h : e.payload = .ok j) :
    decode e.tag j = .ok e := by
  cases e with
  | configAdded id name protocol autoRegister =>
    cases h
    refine Layout.decode_ofEntries (by simp) (Layout.gives_ofSchema (Schema.Gives.map
      (a := ((id, name), (protocol, autoRegister))) ?_ _) _) _
    exact ((Schema.gives_text (by simp)).and (Schema.gives_text (by simp [List.lookup_cons]))).and
      ((Schema.gives_written Protocol.reader_name (by simp [List.lookup_cons])).and
        (Schema.gives_written Reader.inverts_flag (by simp [List.lookup_cons])))
  | configChanged id name autoRegister =>
    cases h
    refine decode_earlyEntries (a := (name, autoRegister)) ["name", "autoRegister"]
      ?_ (by simp) (Schema.Gives.and ?_ ?_)
    · rw [List.map_append]
      exact keys_given.append keys_given
    · exact Schema.gives_given Reader.inverts_text nofun
        (by simp [List.lookup_cons, List.lookup_append])
    · exact Schema.gives_given Reader.inverts_flag nofun
        (by simp [List.lookup_cons, List.lookup_append])
  | configRemoved id =>
    cases h
    exact Layout.decode_ofEntries (by simp)
      ((Layout.gives_ofSchema (Schema.gives_text (by simp)) _).map _) _
  | oidcConfigAdded id clientId secret issuer scopes =>
    cases h
    refine decode_earlyEntries (a := (clientId, (secret, (issuer, scopes))))
      ["clientId", "clientSecret", "issuer", "scopes"] (by simp) (by simp)
      (.and ?_ (.and ?_ (.and ?_ ?_)))
    · exact Schema.gives_written Reader.inverts_text (by simp [List.lookup_cons])
    · exact Schema.gives_nullable Sealed.reader_toJson nofun
        (by simp [List.lookup_cons])
    · exact Schema.gives_written Reader.inverts_text (by simp [List.lookup_cons])
    · exact Schema.gives_written Reader.inverts_strings (by simp [List.lookup_cons])
  | oidcConfigChanged id clientId secret issuer scopes =>
    cases h
    refine decode_earlyEntries (a := (clientId, (secret, (issuer, scopes))))
      ["clientId", "clientSecret", "issuer", "scopes"] ?_ (by simp)
      (.and ?_ (.and ?_ (.and ?_ ?_)))
    · simp only [List.map_append]
      exact ((keys_given.append keys_given).append keys_given).append keys_given
    · exact Schema.gives_given Reader.inverts_text nofun
        (by simp [List.lookup_cons, List.lookup_append])
    · exact Schema.gives_given Sealed.reader_toJson nofun
        (by simp [List.lookup_cons, List.lookup_append])
    · exact Schema.gives_given Reader.inverts_text nofun
        (by simp [List.lookup_cons, List.lookup_append])
    · exact Schema.gives_given Reader.inverts_strings nofun
        (by simp [List.lookup_cons, List.lookup_append])
  | jwtConfigAdded id jwtEndpoint issuer keysEndpoint headerName =>
    cases h
    refine decode_earlyEntries (a := (jwtEndpoint, (issuer, (keysEndpoint, headerName))))
      ["jwtEndpoint", "issuer", "keysEndpoint", "headerName"] (by simp) (by simp)
      (.and ?_ (.and ?_ (.and ?_ ?_))) <;>
    exact Schema.gives_written Reader.inverts_text (by simp [List.lookup_cons])
  | jwtConfigChanged id jwtEndpoint issuer keysEndpoint headerName =>
    cases h
    refine decode_earlyEntries (a := (jwtEndpoint, (issuer, (keysEndpoint, headerName))))
      ["jwtEndpoint", "issuer", "keysEndpoint", "headerName"] ?_ (by simp)
      (.and ?_ (.and ?_ (.and ?_ ?_)))
    · simp only [List.map_append]
      exact ((keys_given.append keys_given).append keys_given).append keys_given
    all_goals
      exact Schema.gives_given Reader.inverts_text nofun
        (by simp [List.lookup_cons, List.lookup_append])
  | _ => cases he

end Event

namespace Revision

variable {id : String} {r : Revision Sealed k}

/-- Only spans can be too long to be written, and only the timeout is a span. -/
lemma write_eq_error {f : Field} {hf : f ∈ k.fields} {v : f.Value} {e : Fault}
    (hv : r.plain f hf = some v) (h : f.shape.write v = .error e) :
    e = .tooManyNanos ∧ ∃ d, (∃ h, r.plain .timeout h = some d) ∧ UInt64.size ≤ d.nanos := by
  cases f with
  | timeout =>
    simp only [Field.shape, Shape.write] at h
    split at h
    · cases h
    · next hn => exact ⟨(Except.error.inj h).symm, v, ⟨hf, hv⟩, Nat.not_lt.mp hn⟩
  | _ => cases h

lemma toJson_eq_error_only {e : Fault} (h : r.toJson id = .error e) : e = .tooManyNanos ∧
    ∃ d, (∃ h, r.plain .timeout h = some d) ∧ UInt64.size ≤ d.nanos := by
  rcases bind_eq_error.mp h with h | ⟨es, -, h⟩
  · obtain ⟨_, hx, rfl⟩ := exists_of_mapM_error h
    obtain ⟨⟨f, hf⟩, -, hv⟩ := List.mem_filterMap.mp hx
    obtain ⟨v, hv, he⟩ := Option.map_eq_some_iff.mp hv
    exact write_eq_error hv (map_eq_error.mp he)
  · cases h

/-- A revision can be written unless it gives a timeout that is too long. -/
lemma toJson_eq_error {e : Fault} : r.toJson id = .error e ↔ e = .tooManyNanos ∧
    ∃ d, (∃ h, r.plain .timeout h = some d) ∧ UInt64.size ≤ d.nanos := by
  refine ⟨toJson_eq_error_only, ?_⟩
  rintro ⟨rfl, d, ⟨hf, hd⟩, hn⟩
  cases hj : r.toJson id with
  | error e => rw [(toJson_eq_error_only hj).1]
  | ok j =>
    -- what was written would hold the timeout, which no number can
    obtain ⟨es, -, -, hs⟩ := shown_of_toJson hj
    obtain ⟨j, hw, -⟩ := hs.given .timeout hf d hd
    cases (if_neg (Nat.not_lt.mpr hn)).symm.trans hw

end Revision

lemma Kind.timeout_mem_fields : .timeout ∈ Kind.ldap.fields := by decide

namespace Event

/-- The timeout that an event gives; only directories have one. -/
def timeout? : Event → Option Duration
  | .added .ldap _ s => some (s.plain .timeout Kind.timeout_mem_fields)
  | .changed .ldap _ r => r.plain .timeout Kind.timeout_mem_fields
  | _ => none

lemma timeout?_added {k : Kind} {id : String} {s : Settings Sealed k} {d : Duration} :
    (added k id s).timeout? = some d ↔ ∃ h, s.toRevision.plain .timeout h = some d := by
  cases k with
  | ldap => exact ⟨fun h => ⟨_, h⟩, fun ⟨_, h⟩ => h⟩
  | _ => exact ⟨nofun, fun ⟨h, _⟩ => absurd h (by decide)⟩

lemma timeout?_changed {k : Kind} {id : String} {r : Revision Sealed k} {d : Duration} :
    (changed k id r).timeout? = some d ↔ ∃ h, r.plain .timeout h = some d := by
  cases k with
  | ldap => exact ⟨fun h => ⟨_, h⟩, fun ⟨_, h⟩ => h⟩
  | _ => exact ⟨nofun, fun ⟨h, _⟩ => absurd h (by decide)⟩

lemma timeout?_migrated {t : Target} {id : String} {s : Settings Sealed t.kind} {d : Duration} :
    (migrated t id s).timeout? = some d ↔ ∃ h, s.toRevision.plain .timeout h = some d := by
  cases t with
  | _ => exact ⟨nofun, fun ⟨h, _⟩ => absurd h (by decide)⟩

/-- An event can be written unless it gives a timeout that is too long. -/
theorem payload_eq_error {e : Event} {f : Fault} : e.payload = .error f ↔
    f = .tooManyNanos ∧ ∃ d, e.timeout? = some d ∧ UInt64.size ≤ d.nanos := by
  cases e with
  | added k id s =>
    rw [payload, Settings.addedToJson_eq, Revision.toJson_eq_error]
    exact and_congr_right' (exists_congr fun _ => and_congr_left' timeout?_added.symm)
  | changed k id r =>
    rw [payload, Revision.toJson_eq_error]
    exact and_congr_right' (exists_congr fun _ => and_congr_left' timeout?_changed.symm)
  | migrated t id s =>
    rw [payload, Settings.addedToJson_eq, Revision.toJson_eq_error]
    exact and_congr_right' (exists_congr fun _ => and_congr_left' timeout?_migrated.symm)
  | _ => exact ⟨nofun, fun ⟨_, d, h, _⟩ => nomatch h⟩

end Event

lemma Shape.steady_reader (s : Shape) : s.reader.Steady := by
  cases s with
  | text => exact Reader.steady_text
  | texts => exact Reader.steady_text.list
  | flag => exact Reader.steady_flag
  | span => exact (Reader.steady_unsigned 64).map _

lemma Sealed.steady_reader : reader.Steady := by
  have hb : bytesReader.Steady := by
    intro o o' j bs h
    obtain ⟨s, hs, h⟩ := bind_eq_ok.mp h
    exact bind_eq_ok.mpr ⟨s, Reader.steady_text o o' j s hs, h⟩
  have hk : Protection.reader.Steady := Reader.steady_variant _
  have ht := Reader.steady_text
  exact (Layout.steady_ofSchema ((((Schema.steady_member hk _ _).and
    (Schema.steady_member ht _ _)).and ((Schema.steady_member ht _ _).and
      (Schema.steady_member hb _ _))).map _) _).decode

/-- Where one function gives a record, so does another that gives the same values. -/
lemma Record.ofFunction_mono {ι : Type} [DecidableEq ι] {V : ι → Type}
    {f g : (i : ι) → Except ε (V i)} (h : ∀ i v, f i = .ok v → g i = .ok v) {is : List ι}
    {r : Record V is} (hr : ofFunction f is = .ok r) : ofFunction g is = .ok r := by
  induction is with
  | nil => exact hr
  | cons i is ih =>
    obtain ⟨v, hv, hr⟩ := bind_eq_ok.mp hr
    obtain ⟨r, hrest, hr⟩ := bind_eq_ok.mp hr
    exact bind_eq_ok.mpr ⟨v, h i v hv, bind_eq_ok.mpr ⟨r, ih hrest, hr⟩⟩

lemma Kind.withSecret_mono {k : Kind} {s t : Except ε S} {u : k.hasSecret = true → S}
    (h : ∀ v, s = .ok v → t = .ok v) (hs : k.withSecret s = .ok u) : k.withSecret t = .ok u := by
  unfold withSecret at hs ⊢
  split
  · next hk =>
    rw [dif_pos hk] at hs
    obtain ⟨v, hv, hu⟩ := map_eq_ok.mp hs
    exact map_eq_ok.mpr ⟨v, h v hv, hu⟩
  · next hk =>
    rw [dif_neg hk] at hs
    exact hs

namespace Settings

lemma steady_addedLayout (k : Kind) : (addedLayout k).Steady := by
  have hf : ∀ f : Field, f.addedSchema.Steady := fun f =>
    Schema.steady_member f.shape.steady_reader _ _
  have hs : (secretSchema k).Steady := Schema.steady_member Sealed.steady_reader _ _
  have hid : (Schema.required "id" Reader.text).Steady :=
    Schema.steady_member Reader.steady_text _ _
  refine ⟨?_, Kind.forall_sharedMembers fun f _ => (hf f).members, ?_⟩
  · exact List.forall_mem_append.mpr ⟨hid.members,
      Kind.forall_members (fun f _ => (hf f).members) fun _ => hs.members⟩
  · intro o o' look a h
    obtain ⟨id, hi, h⟩ := bind_eq_ok.mp h
    obtain ⟨plain, hp, h⟩ := bind_eq_ok.mp h
    obtain ⟨secret, hse, h⟩ := bind_eq_ok.mp h
    have hp' := Record.ofFunction_mono (fun f v => (hf f).read o o' look v) hp
    have hs' := Kind.withSecret_mono (fun v => hs.read o o' look v) hse
    exact bind_eq_ok.mpr ⟨id, hid.read o o' look id hi, bind_eq_ok.mpr ⟨plain, hp',
      bind_eq_ok.mpr ⟨secret, hs', h⟩⟩⟩

lemma addedLayout_shared (k : Kind) : (addedLayout k).shared ≠ [] := by
  intro h
  have hm : (Bundle.options.fields.flatMap fun f => f.addedSchema.members) ∈
      (addedLayout k).shared := List.mem_filterMap.mpr ⟨_, k.mem_options, rfl⟩
  rw [h] at hm
  cases hm

end Settings

namespace Event

lemma decode_added {k : Kind} {p : Json} {e : Event} : decode (.added k) p = .ok e ↔
    ∃ id s, (Settings.addedLayout k).decode .document p = .ok (id, s) ∧ added k id s = e := by
  rw [decode, layout, Layout.decode_map, map_eq_ok]
  exact Prod.exists

/-- A migration is read where an added provider of the target would be. -/
lemma decode_migrated {t : Target} {p : Json} {e : Event} : decode (.migrated t) p = .ok e ↔
    ∃ id s, (Settings.addedLayout t.kind).decode .document p = .ok (id, s) ∧
      migrated t id s = e := by
  have hw := fun a => (Settings.steady_addedLayout t.kind).decode_wrap (a := a) (j := p)
    (o := .document) (Settings.addedLayout_shared t.kind) ("OidcIdpMigrated" ++ t.kind.title)
  rw [decode, layout, Layout.decode_map, map_eq_ok, Prod.exists]
  simp only [hw]

/-- Whatever event is written is read back. -/
lemma decode_written {e : Event} {j : Json} (h : e.payload = .ok j) : decode e.tag j = .ok e := by
  cases he : e.isEarly with
  | true => exact decode_early he h
  | false => exact (decode_payload he h).1

/-- Payloads are objects. -/
lemma payload_object {e : Event} {j : Json} (h : e.payload = .ok j) : ∃ es, j = .object es := by
  cases e with
  | added k id s =>
    obtain ⟨es, rfl, -⟩ := Settings.shown_of_toJson h
    exact ⟨_, rfl⟩
  | changed k id r =>
    obtain ⟨es, rfl, -⟩ := Revision.shown_of_toJson h
    exact ⟨_, rfl⟩
  | migrated t id s =>
    obtain ⟨es, rfl, -⟩ := Settings.shown_of_toJson h
    exact ⟨_, rfl⟩
  | _ => exact ⟨_, (Except.ok.inj h).symm⟩

end Event

/-- Payloads lose nothing. Only a timeout of 2^64 nanoseconds or more cannot be written; everything
else is written as an object that is read back as the event, under its own tag and by whoever reads
that tag. What can be read as a migration can be read as an added provider of its target, and as the
same settings under the same id. -/
theorem payloads_read_back :
    (∀ e : Event,
      (e.payload = .error .tooManyNanos ∧ ∃ d ∈ e.timeout?, UInt64.size ≤ d.nanos) ∨
      ((∀ d ∈ e.timeout?, d.nanos < UInt64.size) ∧ ∃ es, e.payload = .ok (.object es) ∧
        Event.decode e.tag (.object es) = .ok e ∧
        ∀ tags, Event.recognise tags e.tag.name (.object es) =
          .ok (if e.tag ∈ tags then some e else none))) ∧
    ∀ (t : Target) (p : Json),
      ((∃ e, Event.decode (.migrated t) p = .ok e) ↔
        ∃ e, Event.decode (.added t.kind) p = .ok e) ∧
      ∀ id s, Event.decode (.migrated t) p = .ok (.migrated t id s) ↔
        Event.decode (.added t.kind) p = .ok (.added t.kind id s) := by
  refine ⟨fun e => ?_, fun t p => ⟨?_, fun id s => ?_⟩⟩
  · cases hp : e.payload with
    | error f =>
      obtain ⟨rfl, hd⟩ := Event.payload_eq_error.mp hp
      exact .inl ⟨rfl, hd⟩
    | ok j =>
      obtain ⟨es, rfl⟩ := Event.payload_object hp
      have hd := Event.decode_written hp
      refine .inr ⟨fun d hd => ?_, es, rfl, hd, Event.recognise_of_decode hd⟩
      by_contra hn
      cases hp.symm.trans (Event.payload_eq_error.mpr ⟨rfl, d, hd, Nat.not_lt.mp hn⟩)
  · simp only [Event.decode_migrated, Event.decode_added]
    constructor
    · rintro ⟨-, id, s, h, -⟩
      exact ⟨_, id, s, h, rfl⟩
    · rintro ⟨-, id, s, h, -⟩
      exact ⟨_, id, s, h, rfl⟩
  · simp only [Event.decode_migrated, Event.decode_added, Event.migrated.injEq, Event.added.injEq]

end Federation
