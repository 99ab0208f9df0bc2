import Mathlib.Data.Nat.Digits.Lemmas

/-!
# Digits from one radix to another

A list of digits, most significant first, is a count of leading zeros and a
number. Keeping the count and writing the number in another radix gives the
digits of a list of bytes in an alphabet of any size, and going back gives
the bytes: `changeRadix_changeRadix`.
-/

namespace DataProcessor.Lib

def leadingZeros (ds : List Nat) : Nat := (ds.takeWhile (· == 0)).length

def radixValue (b : Nat) (ds : List Nat) : Nat := Nat.ofDigits b ds.reverse

def radixDigits (b n : Nat) : List Nat := (Nat.digits b n).reverse

/-- The same leading zeros, then the same number. -/
def changeRadix (b c : Nat) (ds : List Nat) : List Nat :=
  List.replicate (leadingZeros ds) 0 ++ radixDigits c (radixValue b ds)

variable {b c : Nat} {ds : List Nat}

theorem leadingZeros_replicate_append (z : Nat) (h : ds.head? ≠ some 0) :
    leadingZeros (List.replicate z 0 ++ ds) = z := by
  induction z with
  | zero =>
      cases ds with
      | nil => rfl
      | cons d ds =>
          have hd : d ≠ 0 := by simpa using h
          simp [leadingZeros, hd]
  | succ z ih =>
      rw [List.replicate_succ, List.cons_append, leadingZeros, List.takeWhile_cons_of_pos rfl,
        List.length_cons]
      exact congrArg (· + 1) ih

theorem radixValue_replicate_append (b z : Nat) (ds : List Nat) :
    radixValue b (List.replicate z 0 ++ ds) = radixValue b ds := by
  rw [radixValue, List.reverse_append, List.reverse_replicate,
    Nat.ofDigits_append_replicate_zero]
  rfl

theorem radixValue_radixDigits (b n : Nat) : radixValue b (radixDigits b n) = n := by
  rw [radixValue, radixDigits, List.reverse_reverse, Nat.ofDigits_digits]

theorem head?_radixDigits (b n : Nat) : (radixDigits b n).head? ≠ some 0 := by
  rw [radixDigits, List.head?_reverse]
  by_cases hn : n = 0
  · simp [hn]
  · have hne : Nat.digits b n ≠ [] := Nat.digits_ne_nil_iff_ne_zero.2 hn
    rw [List.getLast?_eq_some_getLast hne]
    intro h
    injection h with h
    exact Nat.getLast_digit_ne_zero b hn h

theorem lt_of_mem_changeRadix (hc : 1 < c) {d : Nat} (h : d ∈ changeRadix b c ds) :
    d < c := by
  rcases List.mem_append.1 h with hzero | hdigit
  · rw [List.eq_of_mem_replicate hzero]
    omega
  · exact Nat.digits_lt_base hc (List.mem_reverse.1 hdigit)

/-- Digits that start with no zero are those of their number. -/
theorem radixDigits_radixValue (hb : 1 < b) (hds : ∀ d ∈ ds, d < b)
    (h : ds.head? ≠ some 0) : radixDigits b (radixValue b ds) = ds := by
  rw [radixDigits, radixValue, Nat.digits_ofDigits b hb, List.reverse_reverse]
  · intro d hd
    exact hds d (List.mem_reverse.1 hd)
  · intro hne hlast
    apply h
    rw [← List.getLast?_reverse, List.getLast?_eq_some_getLast hne, hlast]

theorem replicate_append_dropWhile (ds : List Nat) :
    List.replicate (leadingZeros ds) 0 ++ ds.dropWhile (· == 0) = ds := by
  induction ds with
  | nil => rfl
  | cons d ds ih =>
      by_cases hd : d = 0
      · subst hd
        rw [leadingZeros] at ih ⊢
        simpa [List.replicate_succ] using ih
      · simp [leadingZeros, hd]

theorem changeRadix_changeRadix (hb : 1 < b) (hds : ∀ d ∈ ds, d < b) :
    changeRadix c b (changeRadix b c ds) = ds := by
  have hhead : (ds.dropWhile (· == 0)).head? ≠ some 0 := by
    intro h
    have hnot := List.head?_dropWhile_not (· == 0) ds
    rw [h] at hnot
    simp at hnot
  have hvalue : radixValue b ds = radixValue b (ds.dropWhile (· == 0)) := by
    rw [← radixValue_replicate_append b (leadingZeros ds) (ds.dropWhile (· == 0)),
      replicate_append_dropWhile]
  have hdrop := radixDigits_radixValue hb
    (fun d hd => hds d ((List.dropWhile_suffix _).subset hd)) hhead
  rw [changeRadix, changeRadix,
    leadingZeros_replicate_append _ (head?_radixDigits c _), radixValue_replicate_append,
    radixValue_radixDigits, hvalue, hdrop, replicate_append_dropWhile]

end DataProcessor.Lib
