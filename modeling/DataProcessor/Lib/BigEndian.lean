import Mathlib

/-!
# Big-endian byte strings

The fixed-width and the minimal way of writing a natural number as bytes,
most significant byte first, and what dropping leading zero bytes does to
both. `toBE w n` is the fixed-width form and `ofBE` reads any byte string
back; on numbers below `256 ^ w` the two are inverse.

Dropping the leading zeros of `toBE w n` forgets the width: two widths that
both hold `n` give the same string, of length `w` exactly when the top byte
of the `w` is used. That one fact is what the signature serializers of this
development succeed or fail by.
-/

namespace DataProcessor.Lib

/-- The `w` big-endian bytes of `n`; what does not fit is dropped. -/
def toBE : Nat → Nat → List UInt8
  | 0, _ => []
  | w + 1, n => toBE w (n / 256) ++ [UInt8.ofNat n]

/-- The number a big-endian byte string stands for. -/
def ofBE (bs : List UInt8) : Nat := bs.foldl (fun a b => a * 256 + b.toNat) 0

@[simp] theorem toBE_zero (n : Nat) : toBE 0 n = [] := rfl

theorem toBE_succ (w n : Nat) :
    toBE (w + 1) n = toBE w (n / 256) ++ [UInt8.ofNat n] := rfl

@[simp] theorem length_toBE (w n : Nat) : (toBE w n).length = w := by
  induction w generalizing n with
  | zero => rfl
  | succ w ih => rw [toBE_succ, List.length_append, ih]; rfl

@[simp] theorem ofBE_concat (bs : List UInt8) (b : UInt8) :
    ofBE (bs ++ [b]) = ofBE bs * 256 + b.toNat := by
  simp [ofBE, List.foldl_append]

theorem ofBE_toBE {w n : Nat} (h : n < 256 ^ w) : ofBE (toBE w n) = n := by
  induction w generalizing n with
  | zero =>
      have : n = 0 := by simpa using h
      rw [this]
      rfl
  | succ w ih =>
      have hdiv : n / 256 < 256 ^ w := by
        rw [Nat.pow_succ] at h
        omega
      rw [toBE_succ, ofBE_concat, ih hdiv, UInt8.toNat_ofNat']
      omega

/-- One byte of width too many is a zero byte in front. -/
theorem toBE_succ_of_lt {w n : Nat} (h : n < 256 ^ w) :
    toBE (w + 1) n = 0 :: toBE w n := by
  induction w generalizing n with
  | zero =>
      have : n = 0 := by simpa using h
      rw [this]
      rfl
  | succ w ih =>
      have hdiv : n / 256 < 256 ^ w := by
        rw [Nat.pow_succ] at h
        omega
      rw [toBE_succ, ih hdiv, List.cons_append, ← toBE_succ]

/-- With the top byte in use, the string starts with a nonzero byte. -/
theorem toBE_succ_of_ge {w n : Nat} (h : 256 ^ w ≤ n) (hlt : n < 256 ^ (w + 1)) :
    ∃ b bs, toBE (w + 1) n = b :: bs ∧ b ≠ 0 := by
  induction w generalizing n with
  | zero =>
      refine ⟨UInt8.ofNat n, [], rfl, fun hz => ?_⟩
      have := congrArg UInt8.toNat hz
      rw [UInt8.toNat_ofNat'] at this
      simp only [Nat.pow_zero, Nat.zero_add, Nat.pow_one] at h hlt
      have h0 : (0 : UInt8).toNat = 0 := rfl
      omega
  | succ w ih =>
      have hpow : 256 ^ (w + 1) = 256 ^ w * 256 := Nat.pow_succ _ _
      have hpow' : 256 ^ (w + 1 + 1) = 256 ^ (w + 1) * 256 := Nat.pow_succ _ _
      obtain ⟨b, bs, hb, hne⟩ := @ih (n / 256) (by omega) (by omega)
      exact ⟨b, bs ++ [UInt8.ofNat n], by rw [toBE_succ, hb]; rfl, hne⟩

/-- Any more width is zero bytes in front. -/
theorem toBE_add_of_lt {w n : Nat} (k : Nat) (h : n < 256 ^ w) :
    toBE (k + w) n = List.replicate k 0 ++ toBE w n := by
  induction k with
  | zero => rw [Nat.zero_add, List.replicate_zero, List.nil_append]
  | succ k ih =>
      have hle : 256 ^ w ≤ 256 ^ (k + w) :=
        Nat.pow_le_pow_right (by decide) (Nat.le_add_left w k)
      rw [Nat.succ_add, toBE_succ_of_lt (Nat.lt_of_lt_of_le h hle), ih, List.replicate_succ,
        List.cons_append]

theorem ofBE_append (as bs : List UInt8) :
    ofBE (as ++ bs) = ofBE as * 256 ^ bs.length + ofBE bs := by
  induction bs using List.reverseRecOn with
  | nil => simp [ofBE]
  | append_singleton bs c ih =>
      rw [← List.append_assoc, ofBE_concat, ih, ofBE_concat, List.length_append,
        List.length_singleton, Nat.pow_succ]
      ring

theorem ofBE_cons (b : UInt8) (bs : List UInt8) :
    ofBE (b :: bs) = b.toNat * 256 ^ bs.length + ofBE bs := by
  rw [← List.singleton_append, ofBE_append]
  simp [ofBE]

theorem ofBE_replicate_zero (k : Nat) : ofBE (List.replicate k 0) = 0 := by
  induction k with
  | zero => rfl
  | succ k ih => rw [List.replicate_succ, ofBE_cons, ih, UInt8.toNat_zero, Nat.zero_mul]

/-- What stands behind a number of a known width is known with it. -/
theorem toBE_append_inj {w m n : Nat} (hm : m < 256 ^ w) (hn : n < 256 ^ w)
    {as bs : List UInt8} (h : toBE w m ++ as = toBE w n ++ bs) : m = n ∧ as = bs := by
  obtain ⟨hhead, htail⟩ := List.append_inj h (by rw [length_toBE, length_toBE])
  refine ⟨?_, htail⟩
  rw [← ofBE_toBE hm, hhead, ofBE_toBE hn]

/-! ## Leading zeros -/

/-- A byte string without its leading zero bytes. -/
def dropZeros (bs : List UInt8) : List UInt8 := bs.dropWhile (· == 0)

theorem length_dropZeros_le (bs : List UInt8) :
    (dropZeros bs).length ≤ bs.length :=
  (List.dropWhile_suffix _).length_le

theorem dropZeros_toBE_succ {w n : Nat} (h : n < 256 ^ w) :
    dropZeros (toBE (w + 1) n) = dropZeros (toBE w n) := by
  rw [toBE_succ_of_lt h]
  rfl

/-- The leading zeros are all the width adds: any two widths that hold the
number agree once they are dropped. -/
theorem dropZeros_toBE_add {w n : Nat} (k : Nat) (h : n < 256 ^ w) :
    dropZeros (toBE (w + k) n) = dropZeros (toBE w n) := by
  induction k with
  | zero => rfl
  | succ k ih =>
      have hle : 256 ^ w ≤ 256 ^ (w + k) :=
        Nat.pow_le_pow_right (by decide) (Nat.le_add_right w k)
      rw [← Nat.add_assoc, dropZeros_toBE_succ (Nat.lt_of_lt_of_le h hle), ih]

theorem dropZeros_toBE_width {w v n : Nat} (hw : n < 256 ^ w) (hv : n < 256 ^ v) :
    dropZeros (toBE w n) = dropZeros (toBE v n) := by
  rcases Nat.le_total w v with hle | hle
  · obtain ⟨k, rfl⟩ := Nat.exists_eq_add_of_le hle
    exact (dropZeros_toBE_add k hw).symm
  · obtain ⟨k, rfl⟩ := Nat.exists_eq_add_of_le hle
    exact dropZeros_toBE_add k hv

/-- Nothing is dropped when the top byte is in use. -/
theorem dropZeros_toBE_full {w n : Nat} (h : 256 ^ w ≤ n)
    (hlt : n < 256 ^ (w + 1)) : dropZeros (toBE (w + 1) n) = toBE (w + 1) n := by
  obtain ⟨b, bs, hb, hne⟩ := toBE_succ_of_ge h hlt
  rw [hb, dropZeros, List.dropWhile_cons_of_neg (by simpa using hne)]

theorem length_dropZeros_toBE_short {w n : Nat} (h : n < 256 ^ w) (k : Nat) :
    (dropZeros (toBE (w + k) n)).length ≤ w := by
  rw [dropZeros_toBE_add k h]
  simpa using length_dropZeros_le (toBE w n)

/-! ## Reading and writing back -/

theorem ofBE_lt (bs : List UInt8) : ofBE bs < 256 ^ bs.length := by
  induction bs using List.reverseRecOn with
  | nil => simp [ofBE]
  | append_singleton bs b ih =>
      have hb : b.toNat < 256 := b.toNat_lt
      rw [ofBE_concat, List.length_append, List.length_singleton, pow_succ]
      omega

theorem toBE_ofBE (bs : List UInt8) : toBE bs.length (ofBE bs) = bs := by
  induction bs using List.reverseRecOn with
  | nil => rfl
  | append_singleton bs b ih =>
      have hb : b.toNat < 256 := b.toNat_lt
      have hdiv : (ofBE bs * 256 + b.toNat) / 256 = ofBE bs := by omega
      have hlow : UInt8.ofNat (ofBE bs * 256 + b.toNat) = b := by
        apply UInt8.toNat_inj.1
        rw [UInt8.toNat_ofNat']
        omega
      rw [List.length_append, List.length_singleton, toBE_succ, ofBE_concat, hdiv, ih, hlow]

theorem ofBE_injective {as bs : List UInt8} (hlen : as.length = bs.length)
    (h : ofBE as = ofBE bs) : as = bs := by
  rw [← toBE_ofBE as, ← toBE_ofBE bs, hlen, h]

/-- Without leading zeros the bytes are determined by the number. -/
theorem eq_of_dropZeros {as bs : List UInt8} (has : dropZeros as = as) (hbs : dropZeros bs = bs)
    (h : ofBE as = ofBE bs) : as = bs := by
  have hlt := ofBE_lt bs
  rw [← h] at hlt
  calc as = dropZeros (toBE as.length (ofBE as)) := by rw [toBE_ofBE, has]
    _ = dropZeros (toBE bs.length (ofBE as)) := dropZeros_toBE_width (ofBE_lt as) hlt
    _ = bs := by rw [h, toBE_ofBE, hbs]

theorem dropZeros_cons {b : UInt8} (h : b ≠ 0) (bs : List UInt8) :
    dropZeros (b :: bs) = b :: bs :=
  List.dropWhile_cons_of_neg (by simpa using h)

theorem dropZeros_append (as bs : List UInt8) :
    dropZeros (dropZeros as ++ dropZeros bs) = dropZeros as ++ dropZeros bs := by
  cases has : dropZeros as with
  | nil =>
      rw [List.nil_append]
      exact List.dropWhile_idempotent _ _
  | cons b rest =>
      have hb : b ≠ 0 := by
        have := List.head?_dropWhile_not (· == 0) as
        rw [show as.dropWhile (· == 0) = b :: rest from has] at this
        simpa using this
      exact dropZeros_cons hb _

end DataProcessor.Lib
