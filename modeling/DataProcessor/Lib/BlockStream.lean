import Mathlib

/-!
# A stream cut into blocks

A list is read in whole blocks of `n` elements, and what is left at its end
is kept for later. Whoever takes the list in pieces and keeps the leftover
sees the same blocks: a piece that does not fill the leftover up changes
nothing but the leftover (`blocks_append_of_lt`), one that fills it up makes
one more block (`blocks_append_of_eq`), and any other is two pieces.
-/

namespace DataProcessor.Lib

variable {α : Type} {n : Nat} {xs ys : List α}

/-- The whole blocks, in order. -/
def blocks (n : Nat) (xs : List α) : List (List α) :=
  (List.range (xs.length / n)).map fun i => (xs.drop (n * i)).take n

/-- What is behind the last whole block. -/
def leftover (n : Nat) (xs : List α) : List α := xs.drop (n * (xs.length / n))

theorem length_leftover : (leftover n xs).length = xs.length % n := by
  have h := Nat.mod_add_div xs.length n
  simp only [leftover, List.length_drop]
  omega

theorem leftover_of_dvd (h : n ∣ xs.length) : leftover n xs = [] := by
  rw [← List.length_eq_zero_iff, length_leftover]
  exact Nat.mod_eq_zero_of_dvd h

theorem blocks_of_lt (h : xs.length < n) : blocks n xs = [] := by
  simp [blocks, Nat.div_eq_of_lt h]

theorem leftover_of_lt (h : xs.length < n) : leftover n xs = xs := by
  simp [leftover, Nat.div_eq_of_lt h]

theorem blocks_of_length_eq (hn : 0 < n) (h : xs.length = n) : blocks n xs = [xs] := by
  subst h
  simp [blocks, Nat.div_self hn, List.range_one]

/-- Behind whole blocks the cutting starts anew. -/
theorem blocks_append (hn : 0 < n) (h : n ∣ xs.length) :
    blocks n (xs ++ ys) = blocks n xs ++ blocks n ys := by
  obtain ⟨k, hk⟩ := h
  have hdiv : (xs ++ ys).length / n = xs.length / n + ys.length / n := by
    rw [List.length_append, hk, Nat.mul_add_div hn, Nat.mul_div_cancel_left k hn]
  simp only [blocks]
  rw [hdiv, List.range_add, List.map_append, List.map_map]
  congr 1
  · refine List.map_congr_left fun i hi => ?_
    rw [List.mem_range, hk, Nat.mul_div_cancel_left k hn] at hi
    have hle : n * i + n ≤ xs.length := by
      rw [hk, ← Nat.mul_succ]
      exact Nat.mul_le_mul_left n hi
    rw [List.drop_append_of_le_length (by omega),
      List.take_append_of_le_length (by rw [List.length_drop]; omega)]
  · refine List.map_congr_left fun i _ => ?_
    simp only [Function.comp_apply]
    rw [hk, Nat.mul_div_cancel_left k hn, Nat.mul_add, ← hk, List.drop_length_add_append]

theorem leftover_append (hn : 0 < n) (h : n ∣ xs.length) :
    leftover n (xs ++ ys) = leftover n ys := by
  obtain ⟨k, hk⟩ := h
  rw [leftover, leftover, List.length_append, hk, Nat.mul_add_div hn, Nat.mul_add, ← hk,
    List.drop_length_add_append]

/-- The list up to its leftover. -/
theorem exists_whole (hn : 0 < n) (xs : List α) :
    ∃ whole, xs = whole ++ leftover n xs ∧ n ∣ whole.length ∧ blocks n whole = blocks n xs := by
  have hle : n * (xs.length / n) ≤ xs.length := Nat.mul_div_le _ _
  have hwhole : (xs.take (n * (xs.length / n))).length = n * (xs.length / n) :=
    List.length_take_of_le hle
  have hdvd : n ∣ (xs.take (n * (xs.length / n))).length := ⟨_, hwhole⟩
  have hsplit : xs = xs.take (n * (xs.length / n)) ++ leftover n xs :=
    (List.take_append_drop _ _).symm
  refine ⟨xs.take (n * (xs.length / n)), hsplit, hdvd, ?_⟩
  conv_rhs => rw [hsplit, blocks_append hn hdvd]
  have hlt : (leftover n xs).length < n := by
    rw [length_leftover]
    exact Nat.mod_lt _ hn
  rw [blocks_of_lt hlt, List.append_nil]

/-- A piece that leaves the leftover short. -/
theorem blocks_append_of_lt (h : xs.length % n + ys.length < n) :
    blocks n (xs ++ ys) = blocks n xs ∧ leftover n (xs ++ ys) = leftover n xs ++ ys := by
  have hn : 0 < n := by omega
  obtain ⟨whole, hsplit, hdvd, hblocks⟩ := exists_whole hn xs
  have hlt : (leftover n xs ++ ys).length < n := by
    rwa [List.length_append, length_leftover]
  constructor
  · conv_lhs => rw [hsplit, List.append_assoc, blocks_append hn hdvd, blocks_of_lt hlt]
    rw [List.append_nil, hblocks]
  · conv_lhs => rw [hsplit, List.append_assoc, leftover_append hn hdvd, leftover_of_lt hlt]

/-- A piece that fills the leftover up. -/
theorem blocks_append_of_eq (hn : 0 < n) (h : xs.length % n + ys.length = n) :
    blocks n (xs ++ ys) = blocks n xs ++ [leftover n xs ++ ys] ∧
      leftover n (xs ++ ys) = [] := by
  obtain ⟨whole, hsplit, hdvd, hblocks⟩ := exists_whole hn xs
  have heq : (leftover n xs ++ ys).length = n := by
    rwa [List.length_append, length_leftover]
  constructor
  · conv_lhs => rw [hsplit, List.append_assoc, blocks_append hn hdvd,
      blocks_of_length_eq hn heq, hblocks]
  · conv_lhs => rw [hsplit, List.append_assoc, leftover_append hn hdvd,
      leftover_of_dvd (by rw [heq])]

end DataProcessor.Lib
