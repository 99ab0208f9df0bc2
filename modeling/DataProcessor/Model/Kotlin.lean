import DataProcessor.Lib.BigEndian

/-!
# What the Kotlin code takes from its language

The parts of Kotlin and of the Java class library the modelled functions
compute with: exceptions, byte arrays, `BigInteger`, 32- and 64-bit
integers, number parsing and string padding. Byte arrays are lists of
`UInt8`; an `Int` or a `Long` is a Lean `Int` with its wrap-around written
out; a Kotlin `String` is a Lean `String`, read as UTF-16 code units where
the code indexes it.
-/

namespace DataProcessor

open Lib

/-- The exceptions the modelled code raises or has raised at it. The ones
with a text are the ones the source builds with that text; `external` is an
exception of code outside the repository. -/
inductive Exn
  | illegalArgument
  | indexOutOfBounds
  | numberFormat
  | classCast
  | nullPointer
  | noSuchElement
  | arithmetic
  | unsupportedOperation
  | unsupportedEncoding
  | fileNotFound
  | runtime (message : String)
  | exception (message : String)
  | external (origin : String)
  deriving DecidableEq, Repr

abbrev Result := Except Exn

theorem ok_bind {α β : Type} (a : α) (f : α → Result β) :
    (.ok a : Result α) >>= f = f a := rfl

/-- A computation that finishes has finished each of its parts. -/
theorem bind_ok {α β : Type} {x : Result α} {f : α → Result β} {b : β} :
    x >>= f = .ok b ↔ ∃ a, x = .ok a ∧ f a = .ok b := by
  cases x with
  | error e => exact ⟨nofun, fun ⟨_, hx, _⟩ => nomatch hx⟩
  | ok a =>
      constructor
      · intro h
        exact ⟨a, rfl, h⟩
      · rintro ⟨_, ⟨⟩, h⟩
        exact h

/-- One that raises has raised it in one of its parts. -/
theorem bind_error {α β : Type} {x : Result α} {f : α → Result β} {e : Exn} :
    x >>= f = .error e ↔ x = .error e ∨ ∃ a, x = .ok a ∧ f a = .error e := by
  cases x with
  | error e' =>
      show Except.error e' = .error e ↔ _
      simp
  | ok a =>
      show f a = .error e ↔ _
      simp

theorem map_ok {α β : Type} {x : Result α} {f : α → β} {b : β} :
    x.map f = .ok b ↔ ∃ a, x = .ok a ∧ f a = b := by
  cases x <;> simp [Except.map]

theorem toOption_eq_some {α : Type} {x : Result α} {a : α} :
    x.toOption = some a ↔ x = .ok a := by
  cases x <;> simp [Except.toOption]

abbrev Bytes := List UInt8

/-- `sliceArray(first..last)`: empty for an empty range, out of bounds when
the range leaves the array. -/
def sliceArray (bs : Bytes) (first last : Nat) : Result Bytes :=
  if last < first then .ok []
  else if last < bs.length then .ok ((bs.drop first).take (last + 1 - first))
  else .error .indexOutOfBounds

theorem sliceArray_ok {bs : Bytes} {first last : Nat} (hle : first ≤ last)
    (hlt : last < bs.length) :
    sliceArray bs first last = .ok ((bs.drop first).take (last + 1 - first)) := by
  rw [sliceArray, if_neg (by omega), if_pos hlt]

theorem length_sliceArray {bs slice : Bytes} {first last : Nat} (hle : first ≤ last)
    (h : sliceArray bs first last = .ok slice) : slice.length = last + 1 - first := by
  unfold sliceArray at h
  rw [if_neg (by omega)] at h
  split at h
  · next hlt =>
      injection h with h
      rw [← h, List.length_take, List.length_drop]
      omega
  · cases h

/-- `sliceArray(first until stop)`. -/
def sliceUntil (bs : Bytes) (first stop : Nat) : Result Bytes :=
  if stop ≤ first then .ok [] else sliceArray bs first (stop - 1)

theorem sliceUntil_take {bs : Bytes} {stop : Nat} (hpos : 0 < stop) (hle : stop ≤ bs.length) :
    sliceUntil bs 0 stop = .ok (bs.take stop) := by
  rw [sliceUntil, if_neg (by omega), sliceArray_ok (by omega) (by omega), List.drop_zero]
  congr 2
  omega

theorem sliceUntil_drop {bs : Bytes} {first : Nat} (hlt : first < bs.length) :
    sliceUntil bs first bs.length = .ok (bs.drop first) := by
  rw [sliceUntil, if_neg (by omega), sliceArray_ok (by omega) (by omega),
    List.take_of_length_le]
  rw [List.length_drop]
  omega

/-! ## Fixed-width integers -/

/-- The value a `Long` holds after an operation whose exact result is `n`. -/
def wrapLong (n : Int) : Int := n.bmod (2 ^ 64)

/-- The value an `Int` holds after an operation whose exact result is `n`. -/
def wrapInt (n : Int) : Int := n.bmod (2 ^ 32)

def IsLong (n : Int) : Prop := -2 ^ 63 ≤ n ∧ n < 2 ^ 63

instance (n : Int) : Decidable (IsLong n) := inferInstanceAs (Decidable (_ ∧ _))

theorem wrapLong_of_isLong {n : Int} (h : IsLong n) : wrapLong n = n := by
  obtain ⟨hlo, hhi⟩ := h
  rw [wrapLong, Int.bmod_eq_of_le] <;> omega

/-! ## Parsing -/

/-- The code points of the digit zero in the decimal-digit blocks of the
basic multilingual plane. -/
def digitZeros : List Nat :=
  [0x30, 0x660, 0x6F0, 0x7C0, 0x966, 0x9E6, 0xA66, 0xAE6, 0xB66, 0xBE6, 0xC66,
    0xCE6, 0xD66, 0xDE6, 0xE50, 0xED0, 0xF20, 0x1040, 0x1090, 0x17E0, 0x1810,
    0x1946, 0x19D0, 0x1A80, 0x1A90, 0x1B50, 0x1BB0, 0x1C40, 0x1C50, 0xA620,
    0xA8D0, 0xA900, 0xA9D0, 0xA9F0, 0xAA50, 0xABF0, 0xFF10]

/-- What a code unit is worth before the radix is looked at: the Latin
letters, plain and full-width, and every decimal digit. -/
def digitWorth (u : Nat) : Option Nat :=
  if 0x61 ≤ u ∧ u ≤ 0x7A then some (u - 0x61 + 10)
  else if 0x41 ≤ u ∧ u ≤ 0x5A then some (u - 0x41 + 10)
  else if 0xFF21 ≤ u ∧ u ≤ 0xFF3A then some (u - 0xFF21 + 10)
  else if 0xFF41 ≤ u ∧ u ≤ 0xFF5A then some (u - 0xFF41 + 10)
  else (digitZeros.find? fun z => z ≤ u ∧ u ≤ z + 9).map (u - ·)

def charDigit (radix u : Nat) : Option Nat :=
  (digitWorth u).filter (· < radix)

theorem charDigit_digitChar {d : Nat} (h : d < 10) :
    charDigit 10 d.digitChar.toNat = some d := by
  have hall : ∀ e ∈ List.range 10, charDigit 10 e.digitChar.toNat = some e := by
    decide
  exact hall d (List.mem_range.mpr h)

/-- A nonempty run of digits, most significant first. -/
def digitsValue (radix : Nat) (cs : List Char) : Option Nat :=
  cs.foldlM (fun acc c => (charDigit radix c.toNat).map (acc * radix + ·)) 0

theorem digitsValue_toDigits (n : Nat) :
    digitsValue 10 (Nat.toDigits 10 n) = some n := by
  induction n using Nat.strongRecOn with
  | _ n ih =>
      rcases Nat.lt_or_ge n 10 with hlt | hge
      · rw [Nat.toDigits_of_lt_base hlt]
        simp [digitsValue, charDigit_digitChar hlt]
      · have hq : n / 10 < n := by omega
        have hr : n % 10 < 10 := by omega
        have hd := ih (n / 10) hq
        rw [digitsValue] at hd
        rw [Nat.toDigits_of_base_le (by decide) hge, digitsValue,
          List.foldlM_append, hd]
        simp only [List.foldlM_cons, List.foldlM_nil, charDigit_digitChar hr,
          Option.bind_eq_bind, Option.bind_some, Option.map_some]
        show some (n / 10 * 10 + n % 10) = some n
        congr 1
        omega

namespace BigInteger

/-- The digits of a number's text, at least one. -/
def magnitude (radix : Nat) (cs : List Char) : Result Nat :=
  if cs.isEmpty then .error .numberFormat
  else (digitsValue radix cs).elim (.error .numberFormat) .ok

/-- `BigInteger(text, radix)`: an optional sign, then one or more digits. -/
def ofString (text : String) (radix : Nat) : Result Int :=
  match text.toList with
  | '-' :: cs => (magnitude radix cs).map fun n => -Int.ofNat n
  | '+' :: cs => (magnitude radix cs).map Int.ofNat
  | cs => (magnitude radix cs).map Int.ofNat

/-- `bitLength()`: the bits of the minimal two's-complement form, the sign
bit left out. -/
def bitLength : Int → Nat
  | .ofNat n | .negSucc n => if n = 0 then 0 else n.log2 + 1

/-- `toByteArray()`: minimal big-endian two's complement. -/
def toByteArray (n : Int) : Bytes :=
  let len := bitLength n / 8 + 1
  toBE len (n % 256 ^ len).toNat

theorem bitLength_le {n k : Nat} : bitLength (n : Int) ≤ k ↔ n < 2 ^ k := by
  show (if n = 0 then 0 else n.log2 + 1) ≤ k ↔ n < 2 ^ k
  split
  · next h0 =>
      subst h0
      exact ⟨fun _ => Nat.two_pow_pos k, fun _ => Nat.zero_le k⟩
  · next h0 => exact (Nat.log2_lt h0 : _ ↔ _)

/-- A nonnegative number's byte array holds it, with room for the sign bit. -/
theorem lt_toByteArray_width (n : Nat) :
    n < 256 ^ (bitLength (n : Int) / 8 + 1) := by
  have h : n < 2 ^ bitLength (n : Int) := bitLength_le.1 (Nat.le_refl _)
  have hp : (256 : Nat) ^ (bitLength (n : Int) / 8 + 1)
      = 2 ^ (8 * (bitLength (n : Int) / 8 + 1)) := by
    rw [show (256 : Nat) = 2 ^ 8 from rfl, ← Nat.pow_mul]
  rw [hp]
  exact Nat.lt_of_lt_of_le h (Nat.pow_le_pow_right (by decide) (by omega))

theorem toByteArray_natCast (n : Nat) :
    toByteArray (n : Int) = toBE (bitLength (n : Int) / 8 + 1) n := by
  have h := lt_toByteArray_width n
  have hmod : ((n : Int) % 256 ^ (bitLength (n : Int) / 8 + 1)).toNat = n := by
    rw [show (256 : Int) ^ (bitLength (n : Int) / 8 + 1)
        = ((256 ^ (bitLength (n : Int) / 8 + 1) : Nat) : Int) from
      (Int.natCast_pow 256 _).symm,
      ← Int.natCast_emod, Int.toNat_natCast, Nat.mod_eq_of_lt h]
  rw [toByteArray, hmod]

/-- The first byte of a nonnegative number leaves the sign bit free. -/
theorem head_toByteArray_lt {n : Nat} {b : UInt8} {bs : Bytes}
    (h : toByteArray (n : Int) = b :: bs) : b.toNat < 128 := by
  have hn : n < 2 ^ (8 * (bitLength (n : Int) / 8) + 7) := bitLength_le.1 (by omega)
  have hpow : 2 ^ (8 * (bitLength (n : Int) / 8) + 7)
      = 128 * 256 ^ (bitLength (n : Int) / 8) := by
    rw [Nat.pow_add, Nat.pow_mul]
    exact Nat.mul_comm _ _
  rw [toByteArray_natCast] at h
  have hlen := congrArg List.length h
  rw [length_toBE, List.length_cons, Nat.add_right_cancel_iff] at hlen
  have hvalue := congrArg ofBE h
  rw [ofBE_toBE (lt_toByteArray_width n), ofBE_cons, ← hlen] at hvalue
  rw [hpow] at hn
  refine Nat.lt_of_mul_lt_mul_right (a := 256 ^ (bitLength (n : Int) / 8)) ?_
  omega

theorem magnitude_toDigits (n : Nat) :
    magnitude 10 (Nat.toDigits 10 n) = .ok n := by
  have hne : ¬ (Nat.toDigits 10 n).isEmpty = true := by
    simp [Nat.toDigits_ne_nil]
  rw [magnitude, if_neg hne, digitsValue_toDigits]
  rfl

theorem sign_not_mem_toDigits {n : Nat} {c : Char}
    (hc : c ∈ Nat.toDigits 10 n) : c ≠ '-' ∧ c ≠ '+' := by
  have hd := Nat.isDigit_of_mem_toDigits (by decide) (by decide) hc
  constructor <;> (rintro rfl; exact absurd hd (by decide))

theorem toList_negSucc (n : Nat) :
    (toString (Int.negSucc n)).toList = '-' :: Nat.toDigits 10 (n + 1) := by
  show ("-" ++ (n + 1).repr).toList = _
  rw [String.toList_append, Nat.toList_repr]
  rfl

theorem ofString_toString (a : Int) : ofString (toString a) 10 = .ok a := by
  cases a with
  | ofNat n =>
      have ht : (toString (Int.ofNat n)).toList = Nat.toDigits 10 n :=
        Nat.toList_repr
      unfold ofString
      rw [ht]
      split
      · next cs hcs =>
          exact absurd rfl (sign_not_mem_toDigits (n := n) (by rw [hcs]; simp)).1
      · next cs hcs =>
          exact absurd rfl (sign_not_mem_toDigits (n := n) (by rw [hcs]; simp)).2
      · rw [magnitude_toDigits]
        rfl
  | negSucc n =>
      unfold ofString
      rw [toList_negSucc]
      simp only [magnitude_toDigits]
      rfl

end BigInteger

theorem toString_int_inj {a b : Int} : toString a = toString b ↔ a = b := by
  constructor
  · intro h
    have hb := BigInteger.ofString_toString b
    rw [← h, BigInteger.ofString_toString a] at hb
    injection hb
  · rintro rfl
    rfl

theorem underscore_not_mem_toString (a : Int) : '_' ∉ (toString a).toList := by
  cases a with
  | ofNat n =>
      rw [show (toString (Int.ofNat n)).toList = Nat.toDigits 10 n from Nat.toList_repr]
      exact Nat.underscore_not_in_toDigits
  | negSucc n =>
      rw [BigInteger.toList_negSucc, List.mem_cons, not_or]
      exact ⟨by decide, Nat.underscore_not_in_toDigits⟩

end DataProcessor
