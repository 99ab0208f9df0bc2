import DataProcessor.Lib.BigEndian
import DataProcessor.Proofs.FieldElements

/-!
# Field elements as bytes

Reading and writing the 32 bytes of a number in either order, for every size
of a word. Both come down to the big-endian number of a byte string: the
words read from it make up that number, and the bytes written make it up
again. The little-endian order is the same bytes backwards.
-/

namespace DataProcessor

open Lib

variable {W : SbWordSize}

theorem SbWordSize.bytes_pos (W : SbWordSize) : 0 < W.bytes := by
  cases W <;> decide

theorem SbWordSize.two_pow_bits (W : SbWordSize) : 2 ^ W.bits = 256 ^ W.bytes := by
  rw [SbWordSize.bits, pow_mul]
  rfl

theorem SbWordSize.bytes_mul_feWords (W : SbWordSize) : W.bytes * W.feWords = 32 := by
  cases W <;> rfl

/-! ## Reading -/

theorem wordOfBytes_toNat (bytes : List UInt8) (hlen : bytes.length ≤ W.bytes) :
    (wordOfBytes (W := W) bytes).toNat = ofBE bytes := by
  induction bytes using List.reverseRecOn with
  | nil => simp [wordOfBytes, ofBE]
  | append_singleton bytes b ih =>
      rw [List.length_append, List.length_singleton] at hlen
      have hbytes := ih (by omega)
      have hlt : ofBE bytes < 256 ^ (W.bytes - 1) :=
        lt_of_lt_of_le (ofBE_lt bytes) (Nat.pow_le_pow_right (by decide) (by omega))
      have hb : b.toBitVec.toNat < 256 := b.toBitVec.isLt
      have hfit : ofBE bytes * 256 + b.toNat < 2 ^ W.bits := by
        have hpow : 256 ^ W.bytes = 256 ^ (W.bytes - 1) * 256 := by
          rw [← pow_succ, Nat.sub_add_cancel W.bytes_pos]
        have hb' : b.toNat < 256 := hb
        rw [W.two_pow_bits, hpow]
        omega
      have hfold : wordOfBytes (W := W) (bytes ++ [b]) =
          (wordOfBytes bytes <<< 8) ||| b.toBitVec.setWidth W.bits := by
        rw [wordOfBytes, List.foldl_append]
        rfl
      have hwidth : b.toNat < 2 ^ W.bits := by omega
      have hshift : (wordOfBytes (W := W) bytes <<< 8).toNat = 2 ^ 8 * ofBE bytes := by
        rw [BitVec.toNat_shiftLeft, Nat.shiftLeft_eq, hbytes, Nat.mul_comm, Nat.mod_eq_of_lt]
        omega
      rw [hfold, BitVec.toNat_or, hshift, BitVec.toNat_setWidth,
        Nat.mod_eq_of_lt (show b.toBitVec.toNat < 2 ^ W.bits from hwidth),
        ← Nat.two_pow_add_eq_or_of_lt hb, ofBE_concat, Nat.mul_comm]
      rfl

theorem wordsOfBytes_value (n : Nat) (bytes : List UInt8) (hlen : bytes.length = W.bytes * n) :
    limbsValue (wordsOfBytes (W := W) n bytes).reverse = ofBE bytes := by
  induction n generalizing bytes with
  | zero =>
      have hnil : bytes = [] := by simpa using hlen
      rw [hnil]
      rfl
  | succ n ih =>
      rw [Nat.mul_succ] at hlen
      have htake : (bytes.take W.bytes).length = W.bytes := by
        rw [List.length_take]
        omega
      have hdrop : (bytes.drop W.bytes).length = W.bytes * n := by
        rw [List.length_drop]
        omega
      rw [wordsOfBytes, List.reverse_cons, limbsValue_append, ih _ hdrop, List.length_reverse,
        length_wordsOfBytes, limbsValue_cons, limbsValue_nil, wordOfBytes_toNat _ htake.le]
      conv_rhs => rw [← List.take_append_drop W.bytes bytes, ofBE_append, hdrop]
      rw [Nat.mul_zero, Nat.add_zero, pow_mul, W.two_pow_bits, ← pow_mul]
      ring

/-- The bytes in the order in which they are read. -/
def SbDataEndian.order : SbDataEndian → List UInt8 → List UInt8
  | .SB_DATA_ENDIAN_LITTLE, bytes => bytes.reverse
  | .SB_DATA_ENDIAN_BIG, bytes => bytes

theorem sbFeFromBytes_value (src : Vector UInt8 32) (e : SbDataEndian) :
    (sbFeFromBytes (W := W) src e).value = ofBE (e.order src.toList) := by
  cases e with
  | SB_DATA_ENDIAN_LITTLE =>
      exact wordsOfBytes_value _ _ (by simp [W.bytes_mul_feWords])
  | SB_DATA_ENDIAN_BIG =>
      exact wordsOfBytes_value _ _ (by simp [W.bytes_mul_feWords])

/-! ## Writing -/

/-- The top `n` bytes of a word. -/
theorem bytesOfWord_value (t : SbWord W) {n : Nat} (hn : n ≤ W.bytes) :
    ofBE (bytesOfWord n t) = t.toNat / 256 ^ (W.bytes - n) := by
  have ht := t.isLt
  rw [W.two_pow_bits] at ht
  induction n generalizing t with
  | zero => simp [bytesOfWord, ofBE, Nat.div_eq_of_lt ht]
  | succ n ih =>
      have hpow : 256 ^ W.bytes = 256 * 256 ^ (W.bytes - 1) := by
        rw [← pow_succ', Nat.sub_add_cancel W.bytes_pos]
      have hrest : 256 ^ (W.bytes - 1) = 256 ^ n * 256 ^ (W.bytes - (n + 1)) := by
        rw [← pow_add]
        congr 1
        omega
      have hbits : 2 ^ (W.bits - 8) = 256 ^ (W.bytes - 1) := by
        rw [show W.bits - 8 = 8 * (W.bytes - 1) by rw [SbWordSize.bits]; omega, pow_mul]
        rfl
      have htop : t.toNat / 256 ^ (W.bytes - 1) < 256 := by
        rw [Nat.div_lt_iff_lt_mul (by positivity), ← hpow]
        exact ht
      have hhead : (⟨(t >>> (W.bits - 8)).setWidth 8⟩ : UInt8).toNat =
          t.toNat / 256 ^ (W.bytes - 1) := by
        change ((t >>> (W.bits - 8)).setWidth 8).toNat = _
        rw [BitVec.toNat_setWidth, BitVec.toNat_ushiftRight, Nat.shiftRight_eq_div_pow, hbits]
        exact Nat.mod_eq_of_lt htop
      have hnext : (t <<< 8).toNat = t.toNat % 256 ^ (W.bytes - 1) * 256 := by
        rw [BitVec.toNat_shiftLeft, Nat.shiftLeft_eq, W.two_pow_bits, hpow,
          Nat.mul_comm t.toNat, Nat.mul_comm (t.toNat % _)]
        exact Nat.mul_mod_mul_left 256 t.toNat (256 ^ (W.bytes - 1))
      have hnlt := (t <<< 8).isLt
      rw [W.two_pow_bits] at hnlt
      have hpown : 256 ^ (W.bytes - n) = 256 ^ (W.bytes - (n + 1)) * 256 := by
        rw [← pow_succ]
        congr 1
        omega
      rw [bytesOfWord, ofBE_cons, length_bytesOfWord, hhead, ih _ (by omega) hnlt, hnext, hpown,
        Nat.mul_div_mul_right _ _ (by decide)]
      have hdiv := Nat.div_add_mod t.toNat (256 ^ (W.bytes - 1))
      generalize t.toNat % 256 ^ (W.bytes - 1) = low at *
      generalize t.toNat / 256 ^ (W.bytes - 1) = top at *
      rw [← hdiv, hrest, Nat.mul_assoc, Nat.mul_comm (256 ^ n), Nat.mul_assoc,
        Nat.mul_add_div (by positivity)]

theorem bytesOfWords_value (words : List (SbWord W)) :
    ofBE (bytesOfWords words.reverse) = limbsValue words ∧
      (bytesOfWords words.reverse).length = W.bytes * words.length := by
  induction words with
  | nil => exact ⟨rfl, rfl⟩
  | cons word words ih =>
      obtain ⟨hvalue, hlen⟩ := ih
      have hword := bytesOfWord_value word (n := W.bytes) le_rfl
      rw [Nat.sub_self, Nat.pow_zero, Nat.div_one] at hword
      have hsplit : bytesOfWords (word :: words).reverse =
          bytesOfWords words.reverse ++ bytesOfWord W.bytes word := by
        simp [bytesOfWords]
      rw [hsplit, ofBE_append, hvalue, hword, List.length_append, hlen, length_bytesOfWord,
        limbsValue_cons, List.length_cons, W.two_pow_bits]
      exact ⟨by ring, by ring⟩

theorem sbFeToBytes_value (src : SbFe W) (e : SbDataEndian) :
    ofBE (e.order (sbFeToBytes src e).toList) = src.value := by
  have h : ofBE (bytesOfWords src.words.reverse) = src.value := (bytesOfWords_value src.words).1
  cases e with
  | SB_DATA_ENDIAN_LITTLE =>
      simpa [SbDataEndian.order, sbFeToBytes] using h
  | SB_DATA_ENDIAN_BIG =>
      simpa [SbDataEndian.order, sbFeToBytes] using h

/-! ## Round trips -/

theorem SbDataEndian.order_injective (e : SbDataEndian) {as bs : List UInt8}
    (h : e.order as = e.order bs) : as = bs := by
  cases e with
  | SB_DATA_ENDIAN_LITTLE => exact List.reverse_injective h
  | SB_DATA_ENDIAN_BIG => exact h

theorem SbDataEndian.length_order (e : SbDataEndian) (bytes : List UInt8) :
    (e.order bytes).length = bytes.length := by
  cases e <;> simp [order]

theorem sbFeFromBytes_sbFeToBytes (a : SbFe W) (e : SbDataEndian) :
    sbFeFromBytes (sbFeToBytes a e) e = a :=
  SbFe.value_injective ((sbFeFromBytes_value _ e).trans (sbFeToBytes_value a e))

theorem sbFeToBytes_sbFeFromBytes (src : Vector UInt8 32) (e : SbDataEndian) :
    sbFeToBytes (sbFeFromBytes (W := W) src e) e = src := by
  apply Vector.toList_inj.1
  apply e.order_injective
  apply ofBE_injective
  · rw [e.length_order, e.length_order, Vector.length_toList, Vector.length_toList]
  · rw [sbFeToBytes_value, sbFeFromBytes_value]

/-- Elements and strings of 32 bytes are the same, in either order. -/
theorem sbFeBytes_inverse (e : SbDataEndian) :
    Function.LeftInverse (sbFeFromBytes (W := W) · e) (sbFeToBytes · e) ∧
      Function.RightInverse (sbFeFromBytes (W := W) · e) (sbFeToBytes · e) :=
  ⟨fun a => sbFeFromBytes_sbFeToBytes a e, fun src => sbFeToBytes_sbFeFromBytes src e⟩

end DataProcessor
