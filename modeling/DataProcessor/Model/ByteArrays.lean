import DataProcessor.Model.Kotlin

/-!
# The byte-array extensions (`utils/Scheduler.kt`)

`hexStringToByteArray`, `toHex` and `trim`, the three extension functions
the rest of the program writes its bytes with. `trim` is a fold that drops
a zero byte as long as nothing has been kept yet; it drops leading zeros
and nothing else, `trim_eq`.
-/

namespace DataProcessor

open Lib

/-- `"%02x".format(it)`: the byte as two lower-case hexadecimal digits. -/
def format02x (it : UInt8) : String :=
  String.ofList [(it.toNat / 16).digitChar, (it.toNat % 16).digitChar]

def toHex (bytes : Bytes) : String :=
  bytes.foldl (fun str it => str ++ format02x it) ""

def hexChars (bytes : Bytes) : List Char :=
  bytes.flatMap fun it => [(it.toNat / 16).digitChar, (it.toNat % 16).digitChar]

theorem toList_toHex (bytes : Bytes) : (toHex bytes).toList = hexChars bytes := by
  -- The fold's accumulator is a prefix of everything it returns.
  have general : ∀ (bs : Bytes) (str : String),
      (bs.foldl (fun str it => str ++ format02x it) str).toList
        = str.toList ++ hexChars bs := by
    intro bs
    induction bs with
    | nil => intro str; simp [hexChars]
    | cons b bs ih =>
        intro str
        rw [List.foldl_cons, ih]
        simp [hexChars, format02x]
  rw [toHex, general]
  simp

@[simp] theorem hexChars_append (as bs : Bytes) :
    hexChars (as ++ bs) = hexChars as ++ hexChars bs := by
  simp [hexChars]

@[simp] theorem length_hexChars (bytes : Bytes) :
    (hexChars bytes).length = 2 * bytes.length := by
  induction bytes with
  | nil => rfl
  | cons b bs ih =>
      rw [List.length_cons, show hexChars (b :: bs)
        = [(b.toNat / 16).digitChar, (b.toNat % 16).digitChar] ++ hexChars bs
        from rfl, List.length_append, ih]
      simp only [List.length_cons, List.length_nil]
      omega

theorem hexChars_replicate_zero (n : Nat) :
    hexChars (List.replicate n 0) = List.replicate (2 * n) '0' := by
  induction n with
  | zero => rfl
  | succ n ih =>
      rw [List.replicate_succ, show hexChars (0 :: List.replicate n 0)
        = ['0', '0'] ++ hexChars (List.replicate n 0) from rfl, ih,
        show 2 * (n + 1) = 2 * n + 1 + 1 by omega, List.replicate_succ,
        List.replicate_succ]
      rfl

def trim (bytes : Bytes) : Bytes :=
  bytes.foldl (fun result it =>
    if it == 0 && result.isEmpty then result else result ++ [it]) []

theorem trim_eq (bytes : Bytes) : trim bytes = dropZeros bytes := by
  -- Once a byte has been kept, the fold appends the rest as it comes.
  have kept : ∀ (bs result : Bytes), result ≠ [] →
      bs.foldl (fun result it =>
        if it == 0 && result.isEmpty then result else result ++ [it]) result
        = result ++ bs := by
    intro bs
    induction bs with
    | nil => intro result _; simp
    | cons b bs ih =>
        intro result hne
        rw [List.foldl_cons, if_neg (by simp [hne]), ih _ (by simp)]
        simp
  induction bytes with
  | nil => rfl
  | cons b bs ih =>
      rw [trim, List.foldl_cons]
      by_cases hb : b = 0
      · subst hb
        exact ih
      · rw [if_neg (by simp [hb]), kept _ _ (by simp), dropZeros,
          List.dropWhile_cons_of_neg (by simpa using hb)]
        rfl

/-! ## Reading hexadecimal -/

/-- The UTF-16 code units a Kotlin `String` is indexed by. -/
def codeUnits (text : String) : List Nat :=
  text.toList.flatMap fun c =>
    if c.toNat < 0x10000 then [c.toNat]
    else [0xD800 + (c.toNat - 0x10000) / 0x400,
      0xDC00 + (c.toNat - 0x10000) % 0x400]

/-- `substring(i, i + 2).toInt(16)`: two digits, or a sign and one digit. -/
def parseHexPair (first second : Nat) : Result Int :=
  let digit (u : Nat) : Result Int :=
    (charDigit 16 u).elim (.error .numberFormat) fun d => .ok d
  if first = 0x2D then (digit second).map (- ·)
  else if first = 0x2B then digit second
  else do
    let hi ← digit first
    let lo ← digit second
    return hi * 16 + lo

/-- `hexStringToByteArray`: one byte a pair of code units, `toByte` keeping
the low eight bits; a last unpaired unit is not read. -/
def hexStringToByteArray (text : String) : Result Bytes :=
  go (codeUnits text)
where
  go : List Nat → Result Bytes
    | first :: second :: rest => do
        let n ← parseHexPair first second
        let bytes ← go rest
        return UInt8.ofNat (n % 256).toNat :: bytes
    | _ => .ok []

theorem parseHexPair_digitChar {m n : Nat} (hm : m < 16) (hn : n < 16) :
    parseHexPair m.digitChar.toNat n.digitChar.toNat = .ok (m * 16 + n) := by
  have hdigit : ∀ d ∈ List.range 16, charDigit 16 d.digitChar.toNat = some d ∧
      d.digitChar.toNat ≠ 0x2D ∧ d.digitChar.toNat ≠ 0x2B := by
    decide
  obtain ⟨hm, hminus, hplus⟩ := hdigit m (List.mem_range.mpr hm)
  obtain ⟨hn, -⟩ := hdigit n (List.mem_range.mpr hn)
  rw [parseHexPair, if_neg hminus, if_neg hplus]
  simp only [hm, hn]
  rfl

/-- A text of the basic plane has one code unit a character. -/
theorem codeUnits_of_lt {text : String} (h : ∀ c ∈ text.toList, c.toNat < 0x10000) :
    codeUnits text = text.toList.map Char.toNat := by
  unfold codeUnits
  generalize text.toList = cs at h
  induction cs with
  | nil => rfl
  | cons c cs ih =>
      rw [List.flatMap_cons, if_pos (h c (by simp)),
        ih (fun c' hc' => h c' (by simp [hc']))]
      rfl

theorem lt_of_mem_hexChars {bytes : Bytes} {c : Char} (hc : c ∈ hexChars bytes) :
    c.toNat < 0x10000 := by
  have hdigit : ∀ d ∈ List.range 16, d.digitChar.toNat < 0x10000 := by decide
  obtain ⟨b, -, hb⟩ := List.mem_flatMap.1 hc
  have hb256 := b.toNat_lt
  simp only [List.mem_cons, List.not_mem_nil, or_false] at hb
  rcases hb with rfl | rfl <;> exact hdigit _ (List.mem_range.mpr (by omega))

theorem hexStringToByteArray_toHex (bytes : Bytes) :
    hexStringToByteArray (toHex bytes) = .ok bytes := by
  rw [hexStringToByteArray, codeUnits_of_lt, toList_toHex]
  · induction bytes with
    | nil => rfl
    | cons b bs ih =>
        have hb256 := b.toNat_lt
        have hpair : parseHexPair (b.toNat / 16).digitChar.toNat
            (b.toNat % 16).digitChar.toNat = .ok b.toNat := by
          rw [parseHexPair_digitChar (by omega) (by omega)]
          congr 1
          omega
        show hexStringToByteArray.go ((b.toNat / 16).digitChar.toNat ::
          (b.toNat % 16).digitChar.toNat :: (hexChars bs).map Char.toNat) = _
        have hbyte : UInt8.ofNat ((b.toNat : Int) % 256).toNat = b := by
          rw [show ((b.toNat : Int) % 256).toNat = b.toNat by omega]
          simp
        rw [hexStringToByteArray.go, hpair, ih]
        simp only [bind, Except.bind, pure, Except.pure, hbyte]
  · intro c hc
    rw [toList_toHex] at hc
    exact lt_of_mem_hexChars hc

example : hexStringToByteArray "36f02c34" = .ok [0x36, 0xf0, 0x2c, 0x34] :=
  rfl

/-! ## Hexadecimal numbers -/

/-- `0`–`9`, `a`–`f` and `A`–`F`. -/
def isHexDigit (c : Char) : Bool := c.toNat < 0x80 && (charDigit 16 c.toNat).isSome

theorem charDigit_sign (radix : Nat) {c : Char} (hc : c = '-' ∨ c = '+') :
    charDigit radix c.toNat = none := by
  have hworth : digitWorth '-'.toNat = none ∧ digitWorth '+'.toNat = none := by decide
  rcases hc with rfl | rfl
  · rw [charDigit, hworth.1]
    rfl
  · rw [charDigit, hworth.2]
    rfl

/-- Digits alone are read as they are: none of them is a sign. -/
theorem BigInteger.ofString_digits {radix : Nat} {cs : List Char} {n : Nat}
    (hne : cs ≠ []) (h : digitsValue radix cs = some n) :
    BigInteger.ofString (String.ofList cs) radix = .ok n := by
  have hmag : BigInteger.magnitude radix cs = .ok n := by
    rw [BigInteger.magnitude, if_neg (by simpa using hne), h]
    rfl
  have hsign : ∀ c rest, (c = '-' ∨ c = '+') → cs ≠ c :: rest := by
    rintro c rest hc rfl
    rw [digitsValue, List.foldlM_cons, charDigit_sign radix hc] at h
    cases h
  unfold BigInteger.ofString
  rw [String.toList_ofList]
  split
  · next rest => exact absurd rfl (hsign _ rest (.inl rfl))
  · next rest => exact absurd rfl (hsign _ rest (.inr rfl))
  · rw [hmag]
    rfl

theorem digitsValue_hexChars (bytes : Bytes) :
    digitsValue 16 (hexChars bytes) = some (ofBE bytes) := by
  have hdigit : ∀ d ∈ List.range 16, charDigit 16 d.digitChar.toNat = some d := by decide
  induction bytes using List.reverseRecOn with
  | nil => rfl
  | append_singleton bs b ih =>
      have hb := b.toNat_lt
      have hhi := hdigit (b.toNat / 16) (List.mem_range.mpr (by omega))
      have hlo := hdigit (b.toNat % 16) (List.mem_range.mpr (by omega))
      rw [digitsValue] at ih
      rw [hexChars_append, digitsValue, List.foldlM_append, ih, ofBE_concat,
        show hexChars [b] = [(b.toNat / 16).digitChar, (b.toNat % 16).digitChar] from rfl]
      simp only [List.foldlM_cons, List.foldlM_nil, hhi, hlo, Option.bind_eq_bind,
        Option.bind_some, Option.map_some, Option.pure_def, Option.some.injEq]
      omega

theorem ofString_toHex {bytes : Bytes} (hne : bytes ≠ []) :
    BigInteger.ofString (toHex bytes) 16 = .ok (ofBE bytes) := by
  have hchars : hexChars bytes ≠ [] := by
    intro h
    have hlen := length_hexChars bytes
    rw [h] at hlen
    exact hne (List.eq_nil_of_length_eq_zero (by simpa using hlen.symm))
  rw [← String.ofList_toList (s := toHex bytes), toList_toHex]
  exact BigInteger.ofString_digits hchars (digitsValue_hexChars bytes)

theorem isHexDigit_of_mem_hexChars {bytes : Bytes} {c : Char} (hc : c ∈ hexChars bytes) :
    isHexDigit c = true := by
  have hdigit : ∀ d ∈ List.range 16, isHexDigit d.digitChar = true := by decide
  obtain ⟨b, -, hb⟩ := List.mem_flatMap.1 hc
  have hb256 := b.toNat_lt
  simp only [List.mem_cons, List.not_mem_nil, or_false] at hb
  rcases hb with rfl | rfl <;> exact hdigit _ (List.mem_range.mpr (by omega))

end DataProcessor
