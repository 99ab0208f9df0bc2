import Mathlib

/-!
# Copying into an array of a fixed size

The loop `for (i = 0; i < length; i++) dest[i] = src[i]` runs to the length
of its source and does not look at the size of its destination. It stays
inside when the source is not too long, and leaves nothing of what was there
before when the source is not too short; `covers_iff` puts the two together.
`memcpy` is such a copy made at once.
-/

namespace DataProcessor.Lib

variable {α : Type} {n : Nat}

/-- The loop from index `i` on; `none` is a write outside the array. -/
def copyInto (dest : Vector α n) (i : Nat) : List α → Option (Vector α n)
  | [] => some dest
  | a :: rest => if h : i < n then copyInto (dest.set i a h) (i + 1) rest else none

theorem copyInto_isSome_iff {dest : Vector α n} {i : Nat} {src : List α} (hi : i ≤ n) :
    (copyInto dest i src).isSome ↔ i + src.length ≤ n := by
  induction src generalizing dest i with
  | nil => simpa [copyInto] using hi
  | cons a rest ih =>
      rw [copyInto, List.length_cons]
      split
      · next hlt =>
          rw [ih hlt]
          omega
      · next hge =>
          refine iff_of_false (by simp) ?_
          omega

/-- What the array holds afterwards: the source from `i` on, and around it
what it held before. -/
theorem getElem_copyInto {dest dest' : Vector α n} {i : Nat} {src : List α}
    (h : copyInto dest i src = some dest') (j : Nat) (hj : j < n) :
    some dest'[j] = if i ≤ j ∧ j < i + src.length then src[j - i]? else some dest[j] := by
  induction src generalizing dest i with
  | nil =>
      injection h with h
      rw [h, List.length_nil, if_neg (by omega)]
  | cons a rest ih =>
      rw [copyInto] at h
      split at h
      · next hlt =>
          rw [ih h, List.length_cons]
          rcases Nat.lt_trichotomy j i with hbefore | rfl | hafter
          · rw [if_neg (by omega), if_neg (by omega), Vector.getElem_set_ne hlt hj (by omega)]
          · rw [if_neg (by omega), if_pos (by omega), Vector.getElem_set_self, Nat.sub_self]
            rfl
          · have hsub : j - i = (j - (i + 1)) + 1 := by omega
            rw [hsub, List.getElem?_cons_succ, Vector.getElem_set_ne hlt hj (by omega)]
            by_cases hin : j < i + 1 + rest.length
            · rw [if_pos (by omega), if_pos (by omega)]
            · rw [if_neg (by omega), if_neg (by omega)]
      · cases h

/-- The loop writes nowhere outside, and over everything inside: what comes
out does not depend on what the array held. -/
structure Covers (n : Nat) (src : List α) : Prop where
  inside : ∀ dest : Vector α n, copyInto dest 0 src ≠ none
  written : ∀ dest dest' : Vector α n, copyInto dest 0 src = copyInto dest' 0 src

theorem covers_of_length {src : List α} (h : src.length = n) : Covers n src := by
  have hsome (dest : Vector α n) : (copyInto dest 0 src).isSome :=
    (copyInto_isSome_iff (Nat.zero_le n)).2 (by omega)
  refine ⟨fun dest => ?_, fun dest dest' => ?_⟩
  · exact Option.isSome_iff_ne_none.1 (hsome dest)
  · obtain ⟨left, hleft⟩ := Option.isSome_iff_exists.1 (hsome dest)
    obtain ⟨right, hright⟩ := Option.isSome_iff_exists.1 (hsome dest')
    rw [hleft, hright]
    congr 1
    ext j hj
    have hl := getElem_copyInto hleft j hj
    have hr := getElem_copyInto hright j hj
    rw [if_pos (by omega)] at hl hr
    exact Option.some.inj (hl.trans hr.symm)

theorem Covers.exists_eq {src : List α} (h : Covers n src) (dest : Vector α n) :
    ∃ copied, ∀ dest' : Vector α n, copyInto dest' 0 src = some copied := by
  obtain ⟨copied, hcopied⟩ := Option.ne_none_iff_exists'.1 (h.inside dest)
  exact ⟨copied, fun dest' => (h.written dest' dest).trans hcopied⟩

theorem covers_iff {a b : α} (hne : a ≠ b) {src : List α} :
    Covers n src ↔ src.length = n := by
  refine ⟨fun h => ?_, covers_of_length⟩
  have hle : src.length ≤ n := by
    have hsome := Option.isSome_iff_ne_none.2 (h.inside (Vector.replicate n a))
    rw [copyInto_isSome_iff (Nat.zero_le n)] at hsome
    omega
  by_contra hshort
  -- The last element keeps what the array was filled with.
  have hlast : n - 1 < n := by omega
  obtain ⟨copied, hcopied⟩ := h.exists_eq (Vector.replicate n a)
  have ha := getElem_copyInto (hcopied (Vector.replicate n a)) (n - 1) hlast
  have hb := getElem_copyInto (hcopied (Vector.replicate n b)) (n - 1) hlast
  rw [if_neg (by omega), Vector.getElem_replicate] at ha hb
  rw [ha] at hb
  exact hne (Option.some.inj hb)

/-! ## All at once -/

/-- To index `i` on, for a source that fits. -/
def memcpy (dest : Vector α n) (i : Nat) (src : List α) : Vector α n :=
  Vector.ofFn fun j => if i ≤ j.val then src.getD (j - i) dest[j] else dest[j]

variable {dest : Vector α n} {i : Nat} {src : List α}

theorem getElem_memcpy {j : Nat} (hj : j < n) :
    (memcpy dest i src)[j] = if i ≤ j then src.getD (j - i) dest[j] else dest[j] := by
  simp [memcpy]

theorem toList_memcpy (h : i + src.length ≤ n) : (memcpy dest i src).toList =
    dest.toList.take i ++ (src ++ dest.toList.drop (i + src.length)) := by
  have hlength : (dest.toList.take i).length = i := by
    rw [List.length_take, Vector.length_toList]
    omega
  refine List.ext_getElem ?_ fun j hj hj' => ?_
  · simp only [List.length_append, hlength, List.length_drop, Vector.length_toList]
    omega
  · rw [Vector.length_toList] at hj
    rw [Vector.getElem_toList, getElem_memcpy hj, List.getElem_append]
    simp only [hlength]
    split
    · next hge =>
        rw [dif_neg (by omega), List.getElem_append]
        split
        · next hin => rw [List.getD_eq_getElem _ _ hin]
        · next hout =>
            rw [List.getD_eq_default _ _ (by omega), List.getElem_drop, Vector.getElem_toList]
            congr 1
            omega
    · next hlt =>
        rw [dif_pos (by omega), List.getElem_take, Vector.getElem_toList]

theorem take_memcpy (dest : Vector α n) (h : i + src.length ≤ n) :
    (memcpy dest i src).toList.take (i + src.length) = dest.toList.take i ++ src := by
  have hlength : (dest.toList.take i).length = i := by
    rw [List.length_take, Vector.length_toList]
    omega
  rw [toList_memcpy h, ← List.append_assoc]
  exact List.take_left' (by rw [List.length_append, hlength])

/-- A source that ends where the array does. -/
theorem toList_memcpy_of_eq (h : i + src.length = n) :
    (memcpy dest i src).toList = dest.toList.take i ++ src := by
  rw [← take_memcpy dest (Nat.le_of_eq h), h]
  exact (List.take_of_length_le (Nat.le_of_eq Vector.length_toList)).symm

/-- A source of the array's own size leaves nothing else. -/
theorem toList_memcpy_zero (h : src.length = n) : (memcpy dest 0 src).toList = src := by
  rw [toList_memcpy_of_eq (by omega), List.take_zero, List.nil_append]

end DataProcessor.Lib
