import Federation.Cipher.Gcm
import Mathlib.Data.List.GetD
import Mathlib.Tactic.Lemma

/-!
What a sealing is, byte by byte: the text under a keystream of encrypted counters from the second
on, then an authentication of what is hidden and of its length. Sealing makes exactly this of a
text, and opening takes nothing else.
-/
namespace Federation

namespace Aes

lemma length_xorBytes (a b : Bytes) : (xorBytes a b).length = min a.length b.length :=
  List.length_zipWith

/-- Words of an expanded key, as many as there are so far. -/
structure Words (words : Array Bytes) (n : Nat) : Prop where
  size : words.size = n
  length : ∀ i < n, (words[i]?.getD []).length = 4

lemma Words.nextWord {words : Array Bytes} {n : Nat} (h : Words words n) (hn : 8 ≤ n) :
    (nextWord words n).length = 4 := by
  have hlast := h.length (n - 1) (by omega)
  have hback := h.length (n - 8) (by omega)
  simp only [Aes.nextWord, Array.getD_eq_getD_getElem?, length_xorBytes, hback]
  split
  · simp [length_xorBytes, hlast]
  · split <;> simp [hlast]

lemma Words.push {words : Array Bytes} {n : Nat} {w : Bytes} (h : Words words n)
    (hw : w.length = 4) : Words (words.push w) (n + 1) where
  size := by rw [Array.size_push, h.size]
  length := by
    intro i hi
    rw [Array.getElem?_push, h.size]
    split
    · exact hw
    · exact h.length i (by omega)

lemma Words.extend {words : Array Bytes} {n : Nat} (h : Words words 8) :
    Words ((List.range n).foldl (fun words i => words.push (Aes.nextWord words (i + 8))) words)
      (n + 8) := by
  induction n with
  | zero => exact h
  | succ n ih =>
    rw [List.range_succ, List.foldl_append, Nat.add_right_comm]
    exact ih.push (ih.nextWord (by omega))

lemma words_expand (key : Octets 32) : Words (expand key) 60 := by
  have hstart : Words ((List.range 8).map fun i => (key.bytes.drop (4 * i)).take 4).toArray 8 := by
    refine ⟨by simp, fun i hi => ?_⟩
    have hl := key.length_bytes
    simp [hi]
    omega
  exact hstart.extend (n := 52)

lemma length_roundKey {words : Array Bytes} {n r : Nat} (h : Words words n) (hr : 4 * r + 4 ≤ n) :
    (roundKey words r).length = 16 := by
  simp [roundKey, List.range_succ, h.length (4 * r) (by omega), h.length (4 * r + 1) (by omega),
    h.length (4 * r + 2) (by omega), h.length (4 * r + 3) (by omega)]

/-- Whatever is encrypted, a block comes out. -/
lemma length_encryptBlock (key : Octets 32) (bs : Bytes) : (encryptBlock key bs).length = 16 := by
  simp [encryptBlock, rounds, length_xorBytes, shiftRows, length_roundKey (words_expand key)]

end Aes

namespace Gcm

variable {cipher : Bytes → Bytes} {nonce : Octets 12}

/-- The blocks that are authenticated: what is hidden, its last block filled up with zeros, and the
lengths in bits of associated data, of which there are none, and of what is hidden. -/
def hashed (hidden : Bytes) : List Block :=
  (List.range ((hidden.length + 15) / 16)).map (fun j => block ((hidden.drop (16 * j)).take 16)) ++
    [0#64 ++ BitVec.ofNat 64 (8 * hidden.length)]

/-- Some bytes are the sealing of a text. -/
structure Sealing (key : Octets 32) (nonce : Octets 12) (text sealed : Bytes) : Prop where
  length : sealed.length = text.length + tagBytes
  hidden : ∀ i < text.length, sealed.getD i 0 = text.getD i 0 ^^^
    (Aes.encryptBlock key (counter nonce (2 + i / 16))).getD (i % 16) 0
  authentic : sealed.drop text.length =
    unblock (hash (block (Aes.encryptBlock key (List.replicate 16 0)))
      (hashed (sealed.take text.length)) ^^^ block (Aes.encryptBlock key (counter nonce 1)))

lemma length_tag (cipher : Bytes → Bytes) (nonce : Octets 12) (hidden : Bytes) :
    (tag cipher nonce hidden).length = tagBytes := by
  simp [tag, unblock, tagBytes]

lemma getD_mask (text stream : Bytes) {i : Nat} (hi : i < text.length) :
    (mask text stream).getD i 0 = text.getD i 0 ^^^ stream.getD i 0 := by
  fun_induction mask text stream generalizing i with
  | case1 => exact absurd hi (Nat.not_lt_zero i)
  | case2 => simp
  | case3 t text k stream ih =>
    cases i with
    | zero => rfl
    | succ i => exact ih (Nat.lt_of_succ_lt_succ hi)

lemma getD_keystream (hc : ∀ bs, (cipher bs).length = 16) (start : Nat) {n i : Nat}
    (hi : i < 16 * n) : (keystream cipher nonce start n).getD i 0 =
      (cipher (counter nonce (start + i / 16))).getD (i % 16) 0 := by
  induction n generalizing start i with
  | zero => omega
  | succ n ih =>
    rw [keystream]
    rcases Nat.lt_or_ge i 16 with h | h
    · rw [List.getD_append _ _ _ _ (by rwa [hc]), Nat.div_eq_of_lt h, Nat.mod_eq_of_lt h,
        Nat.add_zero]
    · rw [List.getD_append_right _ _ _ _ (by rwa [hc]), hc, ih (start + 1) (by omega),
        show start + 1 + (i - 16) / 16 = start + i / 16 by omega,
        show (i - 16) % 16 = i % 16 by omega]

lemma getD_crypt (hc : ∀ bs, (cipher bs).length = 16) (text : Bytes) {i : Nat}
    (hi : i < text.length) : (crypt cipher nonce text).getD i 0 =
      text.getD i 0 ^^^ (cipher (counter nonce (2 + i / 16))).getD (i % 16) 0 := by
  rw [crypt, getD_mask _ _ hi, getD_keystream hc 2 (by omega)]

lemma blocks_eq (n : Nat) (bs : Bytes) :
    blocks n bs = (List.range n).map fun j => (bs.drop (16 * j)).take 16 := by
  induction n generalizing bs with
  | zero => rfl
  | succ n ih =>
    rw [blocks, ih, List.range_succ_eq_map, List.map_cons, List.map_map]
    congr 1
    refine List.map_congr_left fun j _ => ?_
    rw [Function.comp_apply, List.drop_drop, Nat.mul_succ, Nat.add_comm]

/-- The tag is made of the blocks to authenticate, since sixty-four bits hold the length. -/
lemma tag_eq (hidden : Bytes) (hl : hidden.length ≤ maxText + tagBytes) :
    tag cipher nonce hidden =
      unblock (hash (block (cipher (List.replicate 16 0))) (hashed hidden) ^^^
        block (cipher (counter nonce 1))) := by
  have hl : 8 * hidden.length < 2 ^ 64 :=
    Nat.lt_of_le_of_lt (Nat.mul_le_mul_left 8 hl) (by decide)
  have hlengths : BitVec.ofNat 128 (8 * hidden.length) =
      0#64 ++ BitVec.ofNat 64 (8 * hidden.length) := by
    apply BitVec.eq_of_toNat_eq
    rw [BitVec.toNat_append, BitVec.toNat_ofNat, BitVec.toNat_ofNat, BitVec.toNat_ofNat,
      Nat.mod_eq_of_lt hl, Nat.mod_eq_of_lt (Nat.lt_trans hl (by decide))]
    simp
  simp only [tag, hashed, blocksOf, blocks_eq, List.map_map, hlengths]
  rfl

lemma sealing_iff {key : Octets 32} {text sealed : Bytes}
    (hl : text.length ≤ maxText + tagBytes) :
    Sealing key nonce text sealed ↔
      sealed = crypt (Aes.encryptBlock key) nonce text ++
        tag (Aes.encryptBlock key) nonce (crypt (Aes.encryptBlock key) nonce text) := by
  have hc := Aes.length_encryptBlock key
  have hlen := length_crypt (Aes.encryptBlock key) nonce text
  rw [tag_eq _ (by rwa [hlen])]
  constructor
  · intro h
    have htake : sealed.take text.length = crypt (Aes.encryptBlock key) nonce text := by
      refine List.ext_getElem (by simp [h.length, hlen]) fun i hi hi' => ?_
      have hbyte := h.hidden i (hlen ▸ hi')
      rw [← getD_crypt hc _ (hlen ▸ hi'), List.getD_eq_getElem _ _ hi',
        List.getD_eq_getElem _ _ (Nat.lt_of_lt_of_le hi (List.length_take_le' _ _))] at hbyte
      rw [List.getElem_take, hbyte]
    rw [← htake, ← h.authentic, List.take_append_drop]
  · rintro rfl
    refine ⟨?_, fun i hi => ?_, ?_⟩
    · rw [List.length_append, hlen, ← tag_eq _ (by rwa [hlen]), length_tag]
    · rw [List.getD_append _ _ _ _ (by rwa [hlen]), getD_crypt hc _ hi]
    · rw [List.drop_left' hlen, List.take_left' hlen]

/-- What is opened are sealings, also of texts that are a little too long to be sealed. -/
lemma open?_eq_some_iff {key : Octets 32} {text sealed : Bytes} :
    open? key nonce sealed = some text ↔
      text.length ≤ maxText + tagBytes ∧ Sealing key nonce text sealed := by
  constructor
  · intro h
    unfold open? at h
    split at h
    · nomatch h
    · dsimp only at h
      split at h
      · next hc =>
        obtain rfl := Option.some.inj h
        refine ⟨by rw [length_crypt]; exact hc.1, (sealing_iff ?_).mpr ?_⟩
        · rw [length_crypt]
          exact hc.1
        · rw [crypt_crypt, ← hc.2, List.take_append_drop]
      · nomatch h
  · rintro ⟨hl, h⟩
    have hlen := length_crypt (Aes.encryptBlock key) nonce text
    have ht := length_tag (Aes.encryptBlock key) nonce (crypt (Aes.encryptBlock key) nonce text)
    obtain rfl := (sealing_iff hl).mp h
    simp only [open?, List.length_append, ht, hlen, Nat.add_sub_cancel, List.take_left' hlen,
      List.drop_left' hlen, crypt_crypt]
    rw [if_neg (by omega), if_pos ⟨hl, trivial⟩]

lemma seal?_eq_some_iff {key : Octets 32} {text sealed : Bytes} :
    seal? key nonce text = some sealed ↔ text.length ≤ maxText ∧ Sealing key nonce text sealed := by
  unfold seal?
  split
  · next hl =>
    rw [sealing_iff (Nat.le_add_right_of_le hl), Option.some.injEq, eq_comm]
    exact (and_iff_right hl).symm
  · next hl => exact ⟨nofun, fun h => absurd h.1 hl⟩

end Gcm
end Federation
