import Federation.Decimal.Shortest
import Federation.Proofs.Json.Object

/-!
Containment of JSON values, as the operator `@>` on stored documents decides it. A value contains
what it equals, and it may contain more where containers or binary64s are compared.
-/
namespace Federation

namespace Number

/-- Digits with their sign, and the power of ten that they count. -/
def decimal : Number → Int × Int
  | .whole n => (n, 0)
  | .real bits =>
    let d := Binary64.shortest bits
    (if Binary64.negative bits then -d.digits else d.digits, d.exponent)

/-- Equality as decimals, for which it does not matter how a number is written. -/
def equal (a b : Number) : Bool :=
  let k := min a.decimal.2 b.decimal.2
  a.decimal.1 * Nat.pow 10 (a.decimal.2 - k).toNat ==
    b.decimal.1 * Nat.pow 10 (b.decimal.2 - k).toNat

lemma equal_self (a : Number) : a.equal a = true := by simp [equal]

lemma decimal_of_isZeroBits {bits : UInt64} (h : isZeroBits bits = true) :
    (real bits).decimal = (0, 0) := by
  have hz : bits.toNat % 0x8000000000000000 = 0 := by simpa [isZeroBits] using h
  have hf : Binary64.fraction bits = 0 := by unfold Binary64.fraction; omega
  have he : Binary64.exponentBits bits = 0 := by unfold Binary64.exponentBits; omega
  simp [decimal, Binary64.shortest, Binary64.significand, hf, he]

lemma equal_of_same {a b : Number} (h : a.same b = true) : a.equal b = true := by
  unfold same at h
  split at h
  · rw [eq_of_beq h]
    exact equal_self _
  · rcases Bool.or_eq_true_iff.mp h with h | h
    · rw [eq_of_beq h]
      exact equal_self _
    · obtain ⟨ha, hb⟩ := Bool.and_eq_true_iff.mp h
      simp [equal, decimal_of_isZeroBits ha, decimal_of_isZeroBits hb]
  · contradiction

end Number

namespace Json

mutual

/-- Does the first value contain the second? Numbers are compared as decimals. That a list on its
own also contains each of its scalars plays no part below an object. -/
def contains : Json → Json → Bool
  | .null, .null => true
  | .bool a, .bool b => a == b
  | .number a, .number b => a.equal b
  | .string a, .string b => a == b
  | .array as, .array bs => containsItems as bs
  | .object as, .object bs => containsEntries as bs
  | _, _ => false

/-- In any order, and as often as one likes. -/
def containsItems (as : List Json) : List Json → Bool
  | [] => true
  | b :: bs => as.any (fun a => contains a b) && containsItems as bs

/-- Further members do no harm. -/
def containsEntries (as : List (String × Json)) : List (String × Json) → Bool
  | [] => true
  | (k, b) :: bs =>
    (match as.lookup k with
    | some a => contains a b
    | none => false) && containsEntries as bs

end

/-- No object in the value has two members of one key. -/
inductive Distinct : Json → Prop
  | null : Distinct .null
  | bool (b : Bool) : Distinct (.bool b)
  | number (n : Number) : Distinct (.number n)
  | string (s : String) : Distinct (.string s)
  | array {items : List Json} (each : ∀ a ∈ items, a.Distinct) : Distinct (.array items)
  | object {entries : List (String × Json)} (keys : (entries.map Prod.fst).Nodup)
      (each : ∀ k a, (k, a) ∈ entries → a.Distinct) : Distinct (.object entries)

lemma Distinct.get? {a b : Json} (h : a.Distinct) {k : String} (hk : a.get? k = some b) :
    b.Distinct := by
  cases h with
  | object keys each => exact each k b (Entries.mem_of_lookup hk)
  | _ => contradiction

mutual

/-- A value contains what it equals, unless a key stands twice in it and hides a member. -/
lemma contains_of_same : ∀ {a b : Json}, a.Distinct → a.same b = true → a.contains b = true
  | .null, .null, _, _ => rfl
  | .bool _, .bool _, _, h => h
  | .number _, .number _, _, h => Number.equal_of_same h
  | .string _, .string _, _, h => h
  | .array _, .array _, .array each, h => containsItems_of_same (fun _ ha => ⟨ha, each _ ha⟩) h
  | .object _, .object _, .object keys each, h =>
    containsEntries_of_same (fun _ _ ha => ⟨Entries.lookup_of_mem keys ha, each _ _ ha⟩) h

lemma containsItems_of_same {all : List Json} :
    ∀ {as bs : List Json}, (∀ a ∈ as, a ∈ all ∧ a.Distinct) → sameItems as bs = true →
      containsItems all bs = true
  | [], [], _, _ => rfl
  | a :: as, b :: bs, ha, h => by
    obtain ⟨hab, h⟩ := Bool.and_eq_true_iff.mp h
    obtain ⟨hm, hd⟩ := ha a List.mem_cons_self
    have hb : all.any (fun a => contains a b) = true :=
      List.any_eq_true.mpr ⟨a, hm, contains_of_same hd hab⟩
    have ht := containsItems_of_same (fun a h => ha a (List.mem_cons_of_mem _ h)) h
    simp [containsItems, hb, ht]

lemma containsEntries_of_same {all : List (String × Json)} :
    ∀ {as bs : List (String × Json)}, (∀ k a, (k, a) ∈ as → all.lookup k = some a ∧ a.Distinct) →
      sameEntries as bs = true → containsEntries all bs = true
  | [], [], _, _ => rfl
  | (k, a) :: as, (l, b) :: bs, ha, h => by
    simp only [sameEntries, Bool.and_eq_true, beq_iff_eq] at h
    obtain ⟨⟨rfl, hab⟩, h⟩ := h
    obtain ⟨hl, hd⟩ := ha k a List.mem_cons_self
    have ht := containsEntries_of_same (fun k a h => ha k a (List.mem_cons_of_mem _ h)) h
    simp [containsEntries, hl, contains_of_same hd hab, ht]

end

/-- Neither two containers are compared nor a number with a binary64. -/
def Flat : Json → Json → Prop
  | .number (.whole _), .number (.whole _) => True
  | .number _, .number _ | .array _, .array _ | .object _, .object _ => False
  | _, _ => True

lemma contains_of_flat {a b : Json} (h : a.Flat b) : a.contains b = a.same b := by
  unfold Flat at h
  split at h
  · next m n =>
    rw [Bool.eq_iff_iff]
    simp [contains, same, Number.equal, Number.same, Number.decimal]
  · exact h.elim
  · exact h.elim
  · exact h.elim
  · next hw hn ha ho =>
    cases a <;> cases b
    case number.number m n => exact (hn m n rfl rfl).elim
    case array.array as bs => exact (ha as bs rfl rfl).elim
    case object.object as bs => exact (ho as bs rfl rfl).elim
    all_goals rfl

/-- An object is contained where each of its members is. -/
lemma contains_object {es : List (String × Json)} (h : es ≠ []) (a : Json) :
    a.contains (.object es) = es.all fun e =>
      match a.get? e.1 with
      | some v => v.contains e.2
      | none => false := by
  cases a with
  | object as =>
    rw [contains]
    clear h
    induction es with
    | nil => rfl
    | cons e es ih =>
      rw [containsEntries, ih, List.all_cons]
      rfl
  | _ =>
    obtain ⟨e, es, rfl⟩ := List.exists_cons_of_ne_nil h
    rfl

end Json
end Federation
