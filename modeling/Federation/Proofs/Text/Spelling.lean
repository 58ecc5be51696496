import Federation.Proofs.Outcome
import Federation.Proofs.Text.Base64
import Mathlib.Algebra.Group.Nat.Defs
import Mathlib.Data.List.Basic

/-!
The one text that stands for given bytes in base 64. A text that can be read is spelled by values of
six bits and padding, and whatever is so spelled is written for some bytes; so it is written for the
bytes that are read from it. Every other text has one of a few flaws.
-/
namespace Federation.Base64

/-- What keeps a text from standing for any bytes. -/
inductive Flawed (cs : List Char) : Prop where
  /-- Padding is missing, or no text is that long. -/
  | length (h : cs.length % 4 ≠ 0)
  | foreign (c : Char) (hc : c ∈ cs) (hpad : c ≠ '=') (h : c ∉ alphabet.toList)
  /-- Something else follows padding. -/
  | misplaced (before after : List Char) (h : cs = before ++ '=' :: after) (c : Char)
      (hc : c ∈ after) (hpad : c ≠ '=')
  | surplus (h : 2 < cs.count '=')
  /-- The last symbol has bits beyond the last byte. -/
  | stray (before : List Char) (c : Char) (pads : Nat) (hc : c ∈ alphabet.toList)
      (h : cs = before ++ c :: List.replicate pads '=')
      (hbits : alphabet.toList.idxOf c % 4 ^ pads ≠ 0)

/-- Values of six bits in groups of four, the last of which may lack one or two that padding stands
for; those two or four bits of the value before it are clear. -/
structure Spells (vs : List Nat) (pads : Nat) : Prop where
  small : ∀ v ∈ vs, v < 64
  few : pads ≤ 2
  filled : (vs.length + pads) % 4 = 0
  clear : ∀ v ∈ vs.getLast?, v % 4 ^ pads = 0

lemma Spells.nil : Spells [] 0 := ⟨nofun, by decide, rfl, nofun⟩

/-- A group of padding alone would have four signs. -/
lemma Spells.pads_of_nil {pads : Nat} (h : Spells [] pads) : pads = 0 := by
  have hf := h.filled
  have hw := h.few
  simp only [List.length_nil] at hf
  omega

lemma Spells.two {a b : Nat} (ha : a < 64) (hb : b < 64) (h : b % 16 = 0) : Spells [a, b] 2 where
  small := by simp [ha, hb]
  few := Nat.le_refl 2
  filled := by simp
  clear := by simpa using h

lemma Spells.three {a b c : Nat} (ha : a < 64) (hb : b < 64) (hc : c < 64) (h : c % 4 = 0) :
    Spells [a, b, c] 1 where
  small := by simp [ha, hb, hc]
  few := by decide
  filled := by simp
  clear := by simpa using h

/-- Another group in front. -/
lemma Spells.cons {vs : List Nat} {pads a b c d : Nat} (h : Spells vs pads) (ha : a < 64)
    (hb : b < 64) (hc : c < 64) (hd : d < 64) : Spells (a :: b :: c :: d :: vs) pads where
  small := by simpa [ha, hb, hc, hd] using h.small
  few := h.few
  filled := by
    have hf := h.filled
    simp only [List.length_cons]
    omega
  clear := by
    cases vs with
    | nil => simp [h.pads_of_nil, Nat.mod_one]
    | cons v vs => simpa [List.getLast?_cons_cons] using h.clear

lemma Spells.of_cons {vs : List Nat} {pads a b c d : Nat}
    (h : Spells (a :: b :: c :: d :: vs) pads) : Spells vs pads where
  small v hv := h.small v (by simp [hv])
  few := h.few
  filled := by
    have hf := h.filled
    simp only [List.length_cons] at hf
    omega
  clear := by
    cases vs with
    | nil => exact nofun
    | cons v vs => simpa [List.getLast?_cons_cons] using h.clear

/-- The text that is spelled. -/
def spelling (vs : List Nat) (pads : Nat) : List Char := vs.map symbol ++ List.replicate pads '='

lemma spelling_nil (pads : Nat) : spelling [] pads = List.replicate pads '=' := rfl

lemma spelling_cons (v : Nat) (vs : List Nat) (pads : Nat) :
    spelling (v :: vs) pads = symbol v :: spelling vs pads := rfl

/-- Whatever is written is spelled. -/
lemma encodeChars_spelled : (bs : Bytes) → ∃ vs pads, Spells vs pads ∧
    encodeChars bs = spelling vs pads
  | [] => ⟨[], 0, .nil, rfl⟩
  | [a] => by
    have ha := a.toNat_lt
    exact ⟨_, _, .two (by omega) (by omega) (by omega), rfl⟩
  | [a, b] => by
    have ha := a.toNat_lt
    have hb := b.toNat_lt
    exact ⟨_, _, .three (by omega) (by omega) (by omega) (by omega), rfl⟩
  | a :: b :: c :: rest => by
    have ha := a.toNat_lt
    have hb := b.toNat_lt
    have hc := c.toNat_lt
    obtain ⟨vs, pads, h, hr⟩ := encodeChars_spelled rest
    rw [encodeChars, hr]
    exact ⟨_, _, h.cons (by omega) (by omega) (by omega) (by omega), rfl⟩

/-- The three bytes of a group, as one number. -/
lemma exists_group {a b c d : Nat} (ha : a < 64) (hb : b < 64) (hc : c < 64) (hd : d < 64) :
    ∃ x y z : UInt8, group a b c d = [x, y, z] ∧
      x.toNat * 65536 + y.toNat * 256 + z.toNat = a * 262144 + b * 4096 + c * 64 + d := by
  refine ⟨_, _, _, rfl, ?_⟩
  simp only [Nat.toUInt8_eq, UInt8.toNat_ofNat']
  omega

/-- The bytes of a group are written as its four values. -/
lemma encodeChars_group {a b c d : Nat} (ha : a < 64) (hb : b < 64) (hc : c < 64) (hd : d < 64)
    (rest : Bytes) : encodeChars (group a b c d ++ rest) =
      symbol a :: symbol b :: symbol c :: symbol d :: encodeChars rest := by
  obtain ⟨x, y, z, hg, hn⟩ := exists_group ha hb hc hd
  rw [hg]
  simp only [List.cons_append, List.nil_append, encodeChars]
  congr <;> omega

lemma encodeChars_two {a b c : Nat} (ha : a < 64) (hb : b < 64) (hc : c < 64) (h : c % 4 = 0) :
    encodeChars ((group a b c 0).take 2) = spelling [a, b, c] 1 := by
  obtain ⟨x, y, z, hg, hn⟩ := exists_group ha hb hc (by decide : 0 < 64)
  have hz := z.toNat_lt
  rw [hg]
  simp only [List.take_succ_cons, List.take_zero, encodeChars, spelling_cons, spelling_nil,
    List.replicate_one]
  congr <;> omega

lemma encodeChars_one {a b : Nat} (ha : a < 64) (hb : b < 64) (h : b % 16 = 0) :
    encodeChars ((group a b 0 0).take 1) = spelling [a, b] 2 := by
  obtain ⟨x, y, z, hg, hn⟩ := exists_group ha hb (by decide : 0 < 64) (by decide : 0 < 64)
  have hy := y.toNat_lt
  have hz := z.toNat_lt
  rw [hg]
  simp only [List.take_succ_cons, List.take_zero, encodeChars, spelling_cons, spelling_nil,
    List.replicate_succ, List.replicate_zero]
  congr <;> omega

/-- Whatever is spelled is written for some bytes. -/
lemma Spells.exists_encodeChars : {vs : List Nat} → {pads : Nat} → Spells vs pads →
    ∃ bs, encodeChars bs = spelling vs pads
  | [], pads, h => by
    exact ⟨[], by rw [h.pads_of_nil]; rfl⟩
  | [a], pads, h => by
    have hf := h.filled
    have hw := h.few
    simp only [List.length_cons, List.length_nil] at hf
    omega
  | [a, b], pads, h => by
    obtain ⟨hs, hw, hf, hc⟩ := h
    simp only [List.length_cons, List.length_nil] at hf
    obtain rfl : pads = 2 := by omega
    exact ⟨_, encodeChars_one (hs a (by simp)) (hs b (by simp)) (hc b rfl)⟩
  | [a, b, c], pads, h => by
    obtain ⟨hs, hw, hf, hc⟩ := h
    simp only [List.length_cons, List.length_nil] at hf
    obtain rfl : pads = 1 := by omega
    exact ⟨_, encodeChars_two (hs a (by simp)) (hs b (by simp)) (hs c (by simp)) (hc c rfl)⟩
  | a :: b :: c :: d :: vs, pads, h => by
    obtain ⟨bs, hbs⟩ := h.of_cons.exists_encodeChars
    refine ⟨group a b c d ++ bs, ?_⟩
    rw [encodeChars_group (h.small a (by simp)) (h.small b (by simp)) (h.small c (by simp))
      (h.small d (by simp)), hbs]
    rfl

/-! What the decoder accepts is spelled. -/

lemma value?_lt {b : UInt8} {v : Nat} (h : value? b = some v) : v < 64 := by
  grind [value?]

/-- No two bytes have one value. -/
lemma value?_inj {a b : UInt8} {v : Nat} (ha : value? a = some v) (hb : value? b = some v) :
    a = b := by
  apply UInt8.toNat_inj.mp
  grind [value?]

lemma valueAt_eq_ok {offset v : Nat} {b : UInt8} (h : valueAt offset b = .ok v) :
    v < 64 ∧ b = symbolByte v := by
  unfold valueAt at h
  split at h
  · next w hw =>
    cases h
    have hlt := value?_lt hw
    exact ⟨hlt, value?_inj hw (value?_symbolByte hlt)⟩
  · cases h

lemma valuesAt_eq_ok {offset : Nat} {bs : Bytes} {vs : List Nat} (h : valuesAt offset bs = .ok vs) :
    (∀ v ∈ vs, v < 64) ∧ bs = vs.map symbolByte := by
  induction bs generalizing offset vs with
  | nil =>
    cases h
    exact ⟨nofun, rfl⟩
  | cons b bs ih =>
    obtain ⟨v, hv, h⟩ := bind_eq_ok.mp h
    obtain ⟨ws, hws, h⟩ := bind_eq_ok.mp h
    cases h
    obtain ⟨hlt, rfl⟩ := valueAt_eq_ok hv
    obtain ⟨hall, rfl⟩ := ih hws
    exact ⟨List.forall_mem_cons.mpr ⟨hlt, hall⟩, rfl⟩

lemma checkPadding_eq_ok {offset count : Nat} {padding : Bytes}
    (h : checkPadding offset count padding = .ok ()) :
    2 ≤ count ∧ count + padding.length = 4 ∧ padding = List.replicate padding.length pad := by
  unfold checkPadding at h
  split at h
  · cases h
  · next hp =>
    split at h
    · cases h
    · next hc =>
      split at h
      · cases h
      · next hl =>
        refine ⟨by omega, by omega, List.eq_replicate_iff.mpr ⟨rfl, fun b hb => ?_⟩⟩
        by_contra hne
        exact hp ⟨List.ne_nil_of_mem hb, .inr (List.any_eq_true.mpr ⟨b, hb, by simpa using hne⟩)⟩

/-- The bytes of the text that is spelled. -/
def spellingBytes (vs : List Nat) (pads : Nat) : Bytes :=
  vs.map symbolByte ++ List.replicate pads pad

lemma spelled_of_decodeLast {offset : Nat} {bs out : Bytes} (h : decodeLast offset bs = .ok out) :
    ∃ vs pads, Spells vs pads ∧ bs = spellingBytes vs pads := by
  obtain ⟨vs, hvs, h⟩ := bind_eq_ok.mp h
  obtain ⟨⟨⟩, hpad, h⟩ := bind_eq_ok.mp h
  obtain ⟨hsmall, hsymbols⟩ := valuesAt_eq_ok hvs
  obtain ⟨htwo, hfour, hpadding⟩ := checkPadding_eq_ok hpad
  rw [hsymbols, List.length_map] at htwo hfour
  have hpads : (bs.dropWhile (· ≠ pad)).length = 4 - vs.length := by omega
  refine ⟨vs, 4 - vs.length, ⟨hsmall, by omega, by omega, ?_⟩, ?_⟩
  · split at h
    · simp [Nat.mod_one]
    · split at h
      · next hc => simpa using hc
      · cases h
    · split at h
      · next hb => simpa using hb
      · cases h
    · cases h
  · rw [spellingBytes, ← hsymbols, ← hpads, ← hpadding, List.takeWhile_append_dropWhile]

lemma spelled_of_decodeGroups {offset : Nat} {bs out : Bytes}
    (h : decodeGroups offset bs = .ok out) :
    ∃ vs pads, Spells vs pads ∧ bs = spellingBytes vs pads := by
  fun_induction decodeGroups offset bs generalizing out with
  | case1 => exact ⟨[], 0, .nil, rfl⟩
  | case2 offset a b c d e rest ih =>
    obtain ⟨va, ha, h⟩ := bind_eq_ok.mp h
    obtain ⟨vb, hb, h⟩ := bind_eq_ok.mp h
    obtain ⟨vc, hc, h⟩ := bind_eq_ok.mp h
    obtain ⟨vd, hd, h⟩ := bind_eq_ok.mp h
    obtain ⟨tail, ht, -⟩ := bind_eq_ok.mp h
    obtain ⟨la, rfl⟩ := valueAt_eq_ok ha
    obtain ⟨lb, rfl⟩ := valueAt_eq_ok hb
    obtain ⟨lc, rfl⟩ := valueAt_eq_ok hc
    obtain ⟨ld, rfl⟩ := valueAt_eq_ok hd
    obtain ⟨vs, pads, hs, hrest⟩ := ih ht
    refine ⟨va :: vb :: vc :: vd :: vs, pads, hs.cons la lb lc ld, ?_⟩
    rw [hrest]
    rfl
  | case3 => exact spelled_of_decodeLast h

lemma utf8_spelling {vs : List Nat} (h : ∀ v ∈ vs, v < 64) (pads : Nat) :
    (spelling vs pads).flatMap String.utf8EncodeChar = spellingBytes vs pads := by
  have hsymbols : (vs.map symbol).flatMap String.utf8EncodeChar = vs.map symbolByte := by
    rw [List.flatMap_map, List.map_eq_flatMap]
    exact List.flatMap_congr fun v hv => utf8_symbol (h v hv)
  have hpads : (List.replicate pads '=').flatMap String.utf8EncodeChar =
      List.replicate pads pad := by
    rw [List.flatMap_replicate, utf8_pad, List.flatten_replicate_singleton]
  rw [spelling, spellingBytes, List.flatMap_append, hsymbols, hpads]

/-- Only the text that is written for the bytes is read as them. -/
theorem decode_eq_ok {s : String} {bs : Bytes} : decode s = .ok bs ↔ s = encode bs := by
  refine ⟨fun h => ?_, fun h => h ▸ decode_encode bs⟩
  have hg : decodeGroups 0 (Text.utf8 s) = .ok bs := by
    simp only [decode, decodeBytes] at h
    split at h
    · cases h
    · exact h
  obtain ⟨vs, pads, hs, hbytes⟩ := spelled_of_decodeGroups hg
  obtain ⟨out, hout⟩ := hs.exists_encodeChars
  have hu : Text.utf8 s = Text.utf8 (encode out) := by
    rw [hbytes, utf8_encode, encodeBytes, hout, utf8_spelling hs.small]
  obtain rfl := Text.utf8_injective hu
  rw [decode_encode, Except.ok.injEq] at h
  rw [h]

/-! A text without flaws is spelled, and none other is. -/

lemma length_alphabet : alphabet.toList.length = 64 := by decide

lemma symbol_mem {v : Nat} (h : v < 64) : symbol v ∈ alphabet.toList := by
  have hs : ∀ v < 64, symbol v ∈ alphabet.toList := by decide +kernel
  exact hs v h

lemma symbol_idxOf {c : Char} (h : c ∈ alphabet.toList) :
    symbol (alphabet.toList.idxOf c) = c := by
  rw [symbol, List.getD_eq_getElem?_getD, List.getElem?_idxOf h, Option.getD_some]

lemma idxOf_symbol {v : Nat} (h : v < 64) : alphabet.toList.idxOf (symbol v) = v :=
  have hs : ∀ v < 64, alphabet.toList.idxOf (symbol v) = v := by decide +kernel
  hs v h

lemma pad_not_mem : '=' ∉ alphabet.toList := by decide

/-- Where the padding begins is plain to see. -/
lemma append_replicate_inj {xs ys : List Char} {m n : Nat} (hx : '=' ∉ xs) (hy : '=' ∉ ys)
    (h : xs ++ List.replicate m '=' = ys ++ List.replicate n '=') : xs = ys ∧ m = n := by
  have hm : m = n := by
    have hc := congrArg (List.count '=') h
    simpa [List.count_append, List.count_eq_zero_of_not_mem, hx, hy] using hc
  subst hm
  exact ⟨List.append_cancel_right h, rfl⟩

/-- Nothing but padding follows padding. -/
lemma eq_pad_of_mem_after {xs before after : List Char} {n : Nat} (hx : '=' ∉ xs)
    (h : xs ++ List.replicate n '=' = before ++ '=' :: after) {c : Char} (hc : c ∈ after) :
    c = '=' := by
  rcases List.append_eq_append_iff.mp h with ⟨more, -, hr⟩ | ⟨more, hxs, hr⟩
  · have hm : c ∈ List.replicate n '=' := by simp [hr, hc]
    exact List.eq_of_mem_replicate hm
  · cases more with
    | nil =>
      rw [List.nil_append] at hr
      exact List.eq_of_mem_replicate (by rw [← hr]; exact List.mem_cons_of_mem _ hc)
    | cons d more =>
      obtain ⟨rfl, -⟩ := List.cons_eq_cons.mp hr
      exact absurd (by simp [hxs]) hx

/-- The last sign that is no padding is the last symbol. -/
lemma getLast?_of_append {xs before : List Char} {c : Char} {m n : Nat} (hx : '=' ∉ xs)
    (hc : c ≠ '=') (h : xs ++ List.replicate m '=' = before ++ c :: List.replicate n '=') :
    xs.getLast? = some c ∧ m = n := by
  have hbefore : '=' ∉ before := by
    intro hm
    obtain ⟨b, b', rfl⟩ := List.append_of_mem hm
    rw [List.append_assoc, List.cons_append] at h
    exact hc (eq_pad_of_mem_after hx h (by simp))
  have hend : xs ++ List.replicate m '=' = before ++ [c] ++ List.replicate n '=' := by
    rw [h, List.append_assoc, List.singleton_append]
  obtain ⟨rfl, hmn⟩ := append_replicate_inj hx (by simp [hbefore, hc.symm]) hend
  exact ⟨List.getLast?_concat, hmn⟩

lemma Spells.not_flawed {vs : List Nat} {pads : Nat} (h : Spells vs pads) :
    ¬ Flawed (spelling vs pads) := by
  have hmem : ∀ c ∈ vs.map symbol, c ∈ alphabet.toList := by
    intro c hc
    obtain ⟨v, hv, rfl⟩ := List.mem_map.mp hc
    exact symbol_mem (h.small v hv)
  have hpad : '=' ∉ vs.map symbol := fun hp => pad_not_mem (hmem _ hp)
  intro hflaw
  cases hflaw with
  | length hl =>
    have hf := h.filled
    simp only [spelling, List.length_append, List.length_map, List.length_replicate] at hl
    exact hl hf
  | foreign c hc hne hf =>
    rcases List.mem_append.mp hc with hc | hc
    · exact hf (hmem c hc)
    · exact hne (List.eq_of_mem_replicate hc)
  | misplaced before after hcs c hc hne => exact hne (eq_pad_of_mem_after hpad hcs hc)
  | surplus hn =>
    rw [spelling, List.count_append, List.count_eq_zero_of_not_mem hpad,
      List.count_replicate_self, Nat.zero_add] at hn
    exact absurd h.few (Nat.not_le.mpr hn)
  | stray before c n hc hcs hbits =>
    obtain ⟨hlast, rfl⟩ := getLast?_of_append hpad (fun he => pad_not_mem (he ▸ hc)) hcs
    rw [List.getLast?_map, Option.map_eq_some_iff] at hlast
    obtain ⟨v, hv, rfl⟩ := hlast
    rw [idxOf_symbol (h.small v (List.mem_of_getLast? hv))] at hbits
    exact hbits (h.clear v hv)

/-- Symbols come first if nothing but padding follows padding. -/
lemma exists_padding {cs : List Char}
    (h : ∀ before after, cs = before ++ '=' :: after → ∀ c ∈ after, c = '=') :
    ∃ symbols n, '=' ∉ symbols ∧ cs = symbols ++ List.replicate n '=' := by
  by_cases hp : '=' ∈ cs
  · obtain ⟨symbols, after, rfl, hs⟩ := List.eq_append_cons_of_mem hp
    refine ⟨symbols, after.length + 1, hs, ?_⟩
    rw [List.replicate_succ, ← List.eq_replicate_iff.mpr ⟨rfl, h symbols after rfl⟩]
  · exact ⟨cs, 0, hp, by simp⟩

lemma exists_spells {cs : List Char} (h : ¬ Flawed cs) :
    ∃ vs pads, Spells vs pads ∧ cs = spelling vs pads := by
  obtain ⟨symbols, pads, hs, rfl⟩ := exists_padding fun before after hcs c hc => by
    by_contra hne
    exact h (.misplaced before after hcs c hc hne)
  have hknown : ∀ c ∈ symbols, c ∈ alphabet.toList := by
    intro c hc
    by_contra hf
    exact h (.foreign c (List.mem_append_left _ hc) (fun he => hs (he ▸ hc)) hf)
  have hvs : (symbols.map alphabet.toList.idxOf).map symbol = symbols := by
    rw [List.map_map]
    exact (List.map_congr_left fun c hc => symbol_idxOf (hknown c hc)).trans (List.map_id _)
  refine ⟨symbols.map alphabet.toList.idxOf, pads, ⟨?_, ?_, ?_, ?_⟩, by rw [spelling, hvs]⟩
  · intro v hv
    obtain ⟨c, hc, rfl⟩ := List.mem_map.mp hv
    exact length_alphabet ▸ List.idxOf_lt_length_of_mem (hknown c hc)
  · by_contra hw
    refine h (.surplus ?_)
    rw [List.count_append, List.count_eq_zero_of_not_mem hs, List.count_replicate_self]
    omega
  · by_contra hl
    exact h (.length (by simpa using hl))
  · intro v hv
    rw [List.getLast?_map, Option.mem_def, Option.map_eq_some_iff] at hv
    obtain ⟨c, hc, rfl⟩ := hv
    obtain ⟨before, hb⟩ := List.getLast?_eq_some_iff.mp hc
    by_contra hbits
    refine h (.stray before c pads (hknown c (List.mem_of_getLast? hc)) ?_ hbits)
    rw [hb, List.append_assoc, List.singleton_append]

lemma toList_encode (bs : Bytes) : (encode bs).toList = encodeChars bs := String.toList_ofList

/-- Exactly the texts with a flaw stand for no bytes. -/
theorem decode_eq_error {s : String} : (∃ f, decode s = .error f) ↔ Flawed s.toList := by
  constructor
  · rintro ⟨f, hf⟩
    by_contra h
    obtain ⟨vs, pads, hs, hcs⟩ := exists_spells h
    obtain ⟨bs, hbs⟩ := hs.exists_encodeChars
    have he : s = encode bs := String.toList_inj.mp (by rw [hcs, toList_encode, hbs])
    rw [he, decode_encode] at hf
    cases hf
  · intro h
    cases hd : decode s with
    | error f => exact ⟨f, rfl⟩
    | ok bs =>
      obtain ⟨vs, pads, hs, hcs⟩ := encodeChars_spelled bs
      rw [decode_eq_ok.mp hd, toList_encode, hcs] at h
      exact absurd h hs.not_flawed

end Federation.Base64
