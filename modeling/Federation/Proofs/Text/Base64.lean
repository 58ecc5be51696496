import Federation.Text.Base64
import Mathlib.Tactic.Lemma

/-!
Bytes written in base 64 are read back. The proof follows the groups of three bytes, of which only
the last may be padded.
-/
namespace Federation.Base64

/-- The one byte of a symbol's character. -/
def symbolByte (v : Nat) : UInt8 := (symbol v).val.toUInt8

lemma utf8_symbol {v : Nat} (h : v < 64) : String.utf8EncodeChar (symbol v) = [symbolByte v] :=
  have hs : ∀ v < 64, (symbol v).utf8Size = 1 := by decide +kernel
  String.utf8EncodeChar_eq_singleton (hs v h)

lemma utf8_pad : String.utf8EncodeChar '=' = [pad] := by decide

lemma value?_symbolByte {v : Nat} (h : v < 64) : value? (symbolByte v) = some v :=
  have hs : ∀ v < 64, value? (symbolByte v) = some v := by decide +kernel
  hs v h

lemma symbolByte_ne_pad {v : Nat} (h : v < 64) : symbolByte v ≠ pad :=
  have hs : ∀ v < 64, symbolByte v ≠ pad := by decide +kernel
  hs v h

lemma valueAt_symbolByte (offset : Nat) {v : Nat} (h : v < 64) :
    valueAt offset (symbolByte v) = .ok v := by simp only [valueAt, value?_symbolByte h]

lemma ofNat_eq {n : Nat} {a : UInt8} (h : n % 256 = a.toNat) : n.toUInt8 = a := by
  apply UInt8.toNat_inj.mp
  simpa using h

/-- Four values make up the three bytes they were cut from. -/
lemma group_eq (a b c : UInt8) :
    group ((a.toNat * 65536 + b.toNat * 256 + c.toNat) / 262144)
      ((a.toNat * 65536 + b.toNat * 256 + c.toNat) / 4096 % 64)
      ((a.toNat * 65536 + b.toNat * 256 + c.toNat) / 64 % 64)
      ((a.toNat * 65536 + b.toNat * 256 + c.toNat) % 64) = [a, b, c] := by
  have ha := a.toNat_lt
  have hb := b.toNat_lt
  have hc := c.toNat_lt
  simp only [group]
  rw [ofNat_eq, ofNat_eq, ofNat_eq] <;> omega

lemma decodeLast_full (offset : Nat) {u v w x : Nat} (hu : u < 64) (hv : v < 64) (hw : w < 64)
    (hx : x < 64) :
    decodeLast offset [symbolByte u, symbolByte v, symbolByte w, symbolByte x] =
      .ok (group u v w x) := by
  simp only [decodeLast, List.takeWhile_cons, List.dropWhile_cons, symbolByte_ne_pad, hu, hv, hw,
    hx, ne_eq, not_false_eq_true, decide_true, if_true, List.takeWhile_nil, List.dropWhile_nil,
    valuesAt, valueAt_symbolByte, checkPadding, bind, Except.bind, pure, Except.pure]
  rfl

lemma decodeLast_two (offset : Nat) {u v w : Nat} (hu : u < 64) (hv : v < 64) (hw : w < 64)
    (h0 : w % 4 = 0) :
    decodeLast offset [symbolByte u, symbolByte v, symbolByte w, pad] =
      .ok ((group u v w 0).take 2) := by
  simp only [decodeLast, List.takeWhile_cons, List.dropWhile_cons, symbolByte_ne_pad, hu, hv, hw,
    ne_eq, not_false_eq_true, decide_true, if_true, not_true_eq_false, decide_false,
    Bool.false_eq_true, if_false, valuesAt, valueAt_symbolByte, checkPadding, bind, Except.bind,
    pure, Except.pure, h0]
  rfl

lemma decodeLast_one (offset : Nat) {u v : Nat} (hu : u < 64) (hv : v < 64) (h0 : v % 16 = 0) :
    decodeLast offset [symbolByte u, symbolByte v, pad, pad] = .ok ((group u v 0 0).take 1) := by
  simp only [decodeLast, List.takeWhile_cons, List.dropWhile_cons, symbolByte_ne_pad, hu, hv,
    ne_eq, not_false_eq_true, decide_true, if_true, not_true_eq_false, decide_false,
    Bool.false_eq_true, if_false, valuesAt, valueAt_symbolByte, checkPadding, bind, Except.bind,
    pure, Except.pure, h0]
  rfl

/-- The bytes of an encoded text. -/
def encodeBytes (bs : Bytes) : Bytes := (encodeChars bs).flatMap String.utf8EncodeChar

lemma utf8_encode (bs : Bytes) : Text.utf8 (encode bs) = encodeBytes bs := by
  simp [Text.utf8, encode, encodeBytes, List.utf8Encode]

lemma encodeBytes_one (a : UInt8) :
    encodeBytes [a] = [symbolByte (a.toNat * 65536 / 262144),
      symbolByte (a.toNat * 65536 / 4096 % 64), pad, pad] := by
  have ha := a.toNat_lt
  simp only [encodeBytes, encodeChars, List.flatMap_cons, List.flatMap_nil, utf8_pad]
  rw [utf8_symbol (by omega), utf8_symbol (by omega)]
  rfl

lemma encodeBytes_two (a b : UInt8) :
    encodeBytes [a, b] = [symbolByte ((a.toNat * 65536 + b.toNat * 256) / 262144),
      symbolByte ((a.toNat * 65536 + b.toNat * 256) / 4096 % 64),
      symbolByte ((a.toNat * 65536 + b.toNat * 256) / 64 % 64), pad] := by
  have ha := a.toNat_lt
  have hb := b.toNat_lt
  simp only [encodeBytes, encodeChars, List.flatMap_cons, List.flatMap_nil, utf8_pad]
  rw [utf8_symbol (by omega), utf8_symbol (by omega), utf8_symbol (by omega)]
  rfl

lemma encodeBytes_more (a b c : UInt8) (rest : Bytes) :
    encodeBytes (a :: b :: c :: rest) =
      symbolByte ((a.toNat * 65536 + b.toNat * 256 + c.toNat) / 262144) ::
      symbolByte ((a.toNat * 65536 + b.toNat * 256 + c.toNat) / 4096 % 64) ::
      symbolByte ((a.toNat * 65536 + b.toNat * 256 + c.toNat) / 64 % 64) ::
      symbolByte ((a.toNat * 65536 + b.toNat * 256 + c.toNat) % 64) :: encodeBytes rest := by
  have ha := a.toNat_lt
  have hb := b.toNat_lt
  have hc := c.toNat_lt
  simp only [encodeBytes, encodeChars, List.flatMap_cons]
  rw [utf8_symbol (by omega), utf8_symbol (by omega), utf8_symbol (by omega),
    utf8_symbol (by omega)]
  rfl

lemma length_encodeBytes : (bs : Bytes) → (encodeBytes bs).length % 4 = 0
  | [] => rfl
  | [a] => by simp [encodeBytes_one]
  | [a, b] => by simp [encodeBytes_two]
  | a :: b :: c :: rest => by
    have ih := length_encodeBytes rest
    rw [encodeBytes_more]
    simp only [List.length_cons]
    omega

lemma decodeGroups_encodeBytes : (bs : Bytes) → (offset : Nat) →
    decodeGroups offset (encodeBytes bs) = .ok bs
  | [], _ => rfl
  | [a], offset => by
    have ha := a.toNat_lt
    rw [encodeBytes_one]
    refine (decodeLast_one offset (by omega) (by omega) (by omega)).trans ?_
    simp only [group, List.take]
    rw [ofNat_eq (a := a) (by omega)]
  | [a, b], offset => by
    have ha := a.toNat_lt
    have hb := b.toNat_lt
    rw [encodeBytes_two]
    refine (decodeLast_two offset (by omega) (by omega) (by omega) (by omega)).trans ?_
    simp only [group, List.take]
    rw [ofNat_eq, ofNat_eq] <;> omega
  | a :: b :: c :: rest, offset => by
    have ha := a.toNat_lt
    have hb := b.toNat_lt
    have hc := c.toNat_lt
    have ih := decodeGroups_encodeBytes rest (offset + 4)
    rw [encodeBytes_more]
    generalize hr : encodeBytes rest = more at ih
    cases more with
    | nil =>
      -- Nothing follows, so this group is the last one.
      have h0 : rest = [] := by simpa [decodeGroups, eq_comm] using ih
      subst h0
      refine (decodeLast_full offset (by omega) (by omega) (by omega) (by omega)).trans ?_
      rw [group_eq]
    | cons x more =>
      rw [decodeGroups, valueAt_symbolByte _ (by omega), valueAt_symbolByte _ (by omega),
        valueAt_symbolByte _ (by omega), valueAt_symbolByte _ (by omega), ih]
      simp only [bind, Except.bind, pure, Except.pure, group_eq]
      rfl

theorem decode_encode (bs : Bytes) : decode (encode bs) = .ok bs := by
  have hl := length_encodeBytes bs
  have hs : strayByte? (encodeBytes bs) = none := by
    unfold strayByte?
    split
    · rw [if_neg (by omega)]
    · rfl
  simp only [decode, decodeBytes, utf8_encode, hs, decodeGroups_encodeBytes]

end Federation.Base64
