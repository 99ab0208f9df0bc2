import DataProcessor.Model.Sha256

/-!
# The native SHA-256 against the standard

A block first: the windows of a round hold the words of the schedule and the
working variables that the standard has in that round, `InRound`, so that
what they leave in the hash value is the standard's compression.

Then a message: `Absorbed` says what a state has taken in. An update takes
its input in behind that, whatever the pieces are, and finishing hashes it
all. The counter is narrow, and what is hashed has the length modulo
`2 ^ 32` in its padding: up to 4 GiB that is the standard's hash.
-/

namespace DataProcessor

open Lib

namespace SbSha256State

/-! ## Words -/

theorem ROTR_eq {n : Nat} (hn : n < 32) (x : SbSha256Word) : ROTR n x = x.rotateRight n := by
  rw [BitVec.rotateRight_eq_rotateRightAux_of_lt hn]
  rfl

theorem BSIG0_eq (x : SbSha256Word) : BSIG0 x = Sha256.bsig0 x := by
  simp only [BSIG0, Sha256.bsig0, ROTR_eq (show 2 < 32 by decide),
    ROTR_eq (show 13 < 32 by decide), ROTR_eq (show 22 < 32 by decide)]

theorem BSIG1_eq (x : SbSha256Word) : BSIG1 x = Sha256.bsig1 x := by
  simp only [BSIG1, Sha256.bsig1, ROTR_eq (show 6 < 32 by decide),
    ROTR_eq (show 11 < 32 by decide), ROTR_eq (show 25 < 32 by decide)]

theorem SSIG0_eq (x : SbSha256Word) : SSIG0 x = Sha256.ssig0 x := by
  simp only [SSIG0, Sha256.ssig0, SHR, ROTR_eq (show 7 < 32 by decide),
    ROTR_eq (show 18 < 32 by decide)]

theorem SSIG1_eq (x : SbSha256Word) : SSIG1 x = Sha256.ssig1 x := by
  simp only [SSIG1, Sha256.ssig1, SHR, ROTR_eq (show 17 < 32 by decide),
    ROTR_eq (show 19 < 32 by decide)]

theorem CH_eq (x y z : SbSha256Word) : CH x y z = Sha256.ch x y z := by
  ext i
  simp only [CH, Sha256.ch, BitVec.getElem_xor, BitVec.getElem_and, BitVec.getElem_not]
  cases x[i] <;> cases y[i] <;> cases z[i] <;> rfl

theorem MAJ_eq (x y z : SbSha256Word) : MAJ x y z = Sha256.maj x y z := by
  ext i
  simp only [MAJ, Sha256.maj, BitVec.getElem_xor, BitVec.getElem_and, BitVec.getElem_or]
  cases x[i] <;> cases y[i] <;> cases z[i] <;> rfl

theorem K_eq : K = Sha256.constants := by decide +kernel

theorem sb_sha256_init_state_toList : sb_sha256_init_state.toList = Sha256.initialHash := by
  decide +kernel

theorem byte_eq {n : Nat} (w : BitVec n) (k : Nat) :
    (⟨(w >>> k).setWidth 8⟩ : UInt8) = UInt8.ofNat (w.toNat / 2 ^ k) := by
  rw [← UInt8.toBitVec_inj]
  refine BitVec.eq_of_toNat_eq ?_
  simp [Nat.shiftRight_eq_div_pow]

theorem wordSet_eq (w : SbSha256Word) : wordSet w = toBE 4 w.toNat := by
  have h0 := byte_eq w 0
  rw [BitVec.ushiftRight_zero, Nat.pow_zero, Nat.div_one] at h0
  simp only [wordSet, toBE, List.nil_append, List.cons_append, byte_eq, h0, Nat.div_div_eq_div_mul,
    Nat.reduceMul, Nat.reducePow]

theorem uint64Set_eq (w : BitVec 64) : uint64Set w = toBE 8 w.toNat := by
  have h0 := byte_eq w 0
  rw [BitVec.ushiftRight_zero, Nat.pow_zero, Nat.div_one] at h0
  simp only [uint64Set, toBE, List.nil_append, List.cons_append, byte_eq, h0,
    Nat.div_div_eq_div_mul, Nat.reduceMul, Nat.reducePow]

theorem toNat_shifted (b : UInt8) {k : Nat} (hk : k ≤ 24) :
    (b.toBitVec.setWidth 32 <<< k).toNat = b.toNat <<< k := by
  have hb := b.toNat_lt
  have hlt : b.toNat <<< k < 2 ^ 32 := by
    rw [Nat.shiftLeft_eq]
    calc b.toNat * 2 ^ k < 2 ^ 8 * 2 ^ k := Nat.mul_lt_mul_of_pos_right hb (Nat.two_pow_pos k)
      _ = 2 ^ (8 + k) := (pow_add 2 8 k).symm
      _ ≤ 2 ^ 32 := Nat.pow_le_pow_right (by decide) (by omega)
  rw [BitVec.toNat_shiftLeft, BitVec.toNat_setWidth, UInt8.toNat_toBitVec,
    Nat.mod_eq_of_lt (show b.toNat < 2 ^ 32 by omega), Nat.mod_eq_of_lt hlt]

theorem word_eq (a b c d : UInt8) (rest : Bytes) :
    word (a :: b :: c :: d :: rest) = BitVec.ofNat 32 (ofBE [a, b, c, d]) := by
  have ha := a.toNat_lt
  have hb := b.toNat_lt
  have hc := c.toNat_lt
  have hd := d.toNat_lt
  have hd' := toNat_shifted d (k := 0) (by decide)
  rw [BitVec.shiftLeft_zero, Nat.shiftLeft_zero] at hd'
  refine BitVec.eq_of_toNat_eq ?_
  have hlt : ofBE [a, b, c, d] < 2 ^ 32 := (ofBE_lt [a, b, c, d]).trans_eq (by norm_num)
  rw [BitVec.toNat_ofNat, Nat.mod_eq_of_lt hlt]
  simp only [word, List.getD_cons_zero, List.getD_cons_succ, BitVec.toNat_or,
    toNat_shifted _ (show 24 ≤ 24 by decide), toNat_shifted _ (show 16 ≤ 24 by decide),
    toNat_shifted _ (show 8 ≤ 24 by decide), hd', Nat.lor_assoc]
  rw [← Nat.shiftLeft_add_eq_or_of_lt (i := 8) hd, ← Nat.shiftLeft_add_eq_or_of_lt (i := 16),
    ← Nat.shiftLeft_add_eq_or_of_lt (i := 24)]
  · simp only [ofBE, List.foldl_cons, List.foldl_nil, Nat.shiftLeft_eq]
    omega
  · simp only [Nat.shiftLeft_eq]
    omega
  · simp only [Nat.shiftLeft_eq]
    omega

/-- The sixteen words are read in place. -/
theorem word_drop_eq {block : Bytes} (hblock : block.length = 64) {t : Nat} (ht : t < 16) :
    word (block.drop (t <<< SB_SHA256_WORD_SHIFT)) = (Sha256.words block).getD t 0 := by
  have hshift : t <<< SB_SHA256_WORD_SHIFT = 4 * t := by
    rw [SB_SHA256_WORD_SHIFT, Nat.shiftLeft_eq]
    omega
  have hlength : 4 ≤ (block.drop (4 * t)).length := by
    rw [List.length_drop]
    omega
  rw [hshift, Sha256.words, List.getD_eq_getElem _ _ (by simpa using ht), List.getElem_map,
    List.getElem_range]
  rcases hat : block.drop (4 * t) with _ | ⟨a, _ | ⟨b, _ | ⟨c, _ | ⟨d, rest⟩⟩⟩⟩
  case' cons.cons.cons.cons =>
    rw [word_eq]
    rfl
  all_goals
    rw [hat] at hlength
    simp at hlength

/-! ## A block -/

/-- The start of round `t`, with the words of `M` and the working variables
`r`. -/
structure InRound (M : List SbSha256Word) (r : Sha256.Registers) (t : Nat)
    (sha : SbSha256State) : Prop where
  window : ∀ j < t, t ≤ j + 16 → sha.W[j % 16] = Sha256.scheduled M j
  registers : ∀ i < 8, sha.A_H t i = r.toList.getD i 0

section

variable {block : Bytes} {sha : SbSha256State} {r : Sha256.Registers} {t : Nat}

/-- The fields a block does not write before its end. -/
def kept (sha : SbSha256State) : Vector SbSha256Word 8 × Vector UInt8 64 × BitVec 32 :=
  (sha.ihash, sha.buffer, sha.total_bytes)

theorem nextWord_spec (hblock : block.length = 64) (ht : t < 64)
    (h : InRound (Sha256.words block) r t sha) :
    (nextWord block t sha).2 = Sha256.scheduled (Sha256.words block) t ∧
      (∀ j < t + 1, t + 1 ≤ j + 16 →
        (nextWord block t sha).1.W[j % 16] = Sha256.scheduled (Sha256.words block) j) ∧
      (nextWord block t sha).1.a_h = sha.a_h ∧ (nextWord block t sha).1.kept = sha.kept := by
  have hM := Sha256.length_words block
  rw [nextWord]
  split
  · next hlt =>
      have hword := word_drop_eq hblock hlt
      rw [← Sha256.scheduled_of_lt (by omega)] at hword
      refine ⟨hword, fun j hj hj' => ?_, rfl, rfl⟩
      simp only [Vector.getElem_set]
      split
      · next heq =>
          rw [hword]
          congr 1
          omega
      · next hne => exact h.window j (by omega) (by omega)
  · next hge =>
      obtain ⟨n, rfl⟩ := Nat.exists_eq_add_of_le' (Nat.le_of_not_lt hge)
      -- the word `i` before is at its place in the window
      have hW : ∀ i, 1 ≤ i → i ≤ 16 → sha.W_i (n + 16) i =
          Sha256.scheduled (Sha256.words block) (n + 16 - i) := by
        intro i hi hi'
        rw [← h.window (n + 16 - i) (by omega) (by omega), W_i]
        congr 1
        omega
      have hword : SSIG1 (sha.W_i (n + 16) 2) + sha.W_i (n + 16) 7 +
          SSIG0 (sha.W_i (n + 16) 15) + sha.W_i (n + 16) 16 =
            Sha256.scheduled (Sha256.words block) (n + 16) := by
        rw [Sha256.scheduled_add_sixteen hM (by omega), hW 2 (by decide) (by decide),
          hW 7 (by decide) (by decide), hW 15 (by decide) (by decide),
          hW 16 (by decide) (by decide), SSIG0_eq, SSIG1_eq]
        rfl
      refine ⟨hword, fun j hj hj' => ?_, rfl, rfl⟩
      simp only [setW_i, Vector.getElem_set]
      split
      · next heq =>
          rw [hword]
          congr 1
          omega
      · next hne => exact h.window j (by omega) (by omega)

theorem A_H_setA_H {i k : Nat} (hi : i < 8) (hk : k < 8) (w : SbSha256Word) :
    (sha.setA_H t k w).A_H t i = if i = k then w else sha.A_H t i := by
  simp only [A_H, setA_H, Vector.getElem_set]
  refine if_congr ?_ rfl rfl
  omega

/-- The window turns by one from round to round. -/
theorem A_H_succ (ht : t < 64) (i : Nat) :
    sha.A_H (t + 1) i = sha.A_H t ((i + 7) % 8) := by
  simp only [A_H]
  congr 1
  omega

theorem round_spec (hblock : block.length = 64) (ht : t < 64)
    (h : InRound (Sha256.words block) r t sha) :
    InRound (Sha256.words block) (r.round (Sha256.constants.getD t 0)
        (Sha256.scheduled (Sha256.words block) t)) (t + 1) (round block t sha) ∧
      (round block t sha).kept = sha.kept := by
  obtain ⟨hword, hwindow, ha_h, hkept⟩ := nextWord_spec hblock ht h
  have hregisters := h.registers
  rw [round]
  generalize nextWord block t sha = next at hword hwindow ha_h hkept ⊢
  obtain ⟨c, Wt⟩ := next
  simp only at hword hwindow ha_h hkept ⊢
  have hA_H : ∀ i < 8, c.A_H t i = r.toList.getD i 0 := by
    intro i hi
    rw [← hregisters i hi, A_H, A_H, ha_h]
  refine ⟨⟨hwindow, fun i hi => ?_⟩, hkept⟩
  rw [A_H_succ ht i, A_H_setA_H (Nat.mod_lt _ (by decide)) (by decide),
    A_H_setA_H (Nat.mod_lt _ (by decide)) (by decide), hA_H _ (Nat.mod_lt _ (by decide))]
  simp only [hA_H 0 (by decide), hA_H 1 (by decide), hA_H 2 (by decide), hA_H 3 (by decide),
    hA_H 4 (by decide), hA_H 5 (by decide), hA_H 6 (by decide), hA_H 7 (by decide), hword,
    BSIG0_eq, BSIG1_eq, CH_eq, MAJ_eq, K_eq, Sha256.Registers.toList, Sha256.Registers.round,
    List.getD_cons_zero, List.getD_cons_succ]
  interval_cases i <;> simp

theorem rounds_spec (hblock : block.length = 64) (sha : SbSha256State)
    (hstart : sha.a_h = sha.ihash) (ht : t ≤ 64) :
    InRound (Sha256.words block)
        ((Sha256.Registers.ofList sha.ihash.toList).rounds (Sha256.words block) t) t
        (rounds block t sha) ∧
      (rounds block t sha).kept = sha.kept := by
  induction t with
  | zero =>
      refine ⟨⟨fun j hj => absurd hj (Nat.not_lt_zero j), fun i hi => ?_⟩, rfl⟩
      rw [rounds, A_H, hstart]
      interval_cases i <;> simp [Sha256.Registers.rounds, Sha256.Registers.ofList,
        Sha256.Registers.toList]
  | succ t ih =>
      obtain ⟨hround, hkept⟩ := ih (by omega)
      obtain ⟨hnext, hkept'⟩ := round_spec hblock (by omega) hround
      exact ⟨hnext, hkept'.trans hkept⟩

end

end SbSha256State

open SbSha256State

theorem sbSha256ProcessBlock_eq (sha : SbSha256State) (block : Bytes) :
    sbSha256ProcessBlock sha block =
      { rounds block SB_SHA256_ROUNDS { sha with a_h := sha.ihash } with
        ihash := (rounds block SB_SHA256_ROUNDS { sha with a_h := sha.ihash }).ihash.zipWith
          (· + ·) (rounds block SB_SHA256_ROUNDS { sha with a_h := sha.ihash }).a_h } := by
  rw [sbSha256ProcessBlock]

theorem sbSha256ProcessBlock_spec {block : Bytes} (hblock : block.length = 64)
    (sha : SbSha256State) :
    (sbSha256ProcessBlock sha block).ihash.toList = Sha256.compress sha.ihash.toList block ∧
      (sbSha256ProcessBlock sha block).buffer = sha.buffer ∧
      (sbSha256ProcessBlock sha block).total_bytes = sha.total_bytes := by
  have hcompress : Sha256.compress sha.ihash.toList block = sha.ihash.toList.zipWith (· + ·)
    ((Sha256.Registers.ofList sha.ihash.toList).rounds (Sha256.words block)
      SB_SHA256_ROUNDS).toList := rfl
  obtain ⟨hround, hkept⟩ := rounds_spec hblock { sha with a_h := sha.ihash } rfl
    (t := SB_SHA256_ROUNDS) (le_refl 64)
  have hregisters := hround.registers
  rw [sbSha256ProcessBlock_eq, hcompress]
  generalize rounds block SB_SHA256_ROUNDS { sha with a_h := sha.ihash } = c
    at hregisters hkept ⊢
  generalize (Sha256.Registers.ofList sha.ihash.toList).rounds (Sha256.words block)
    SB_SHA256_ROUNDS = r at hregisters ⊢
  simp only [kept, Prod.mk.injEq] at hkept
  obtain ⟨hihash, hbuffer, htotal⟩ := hkept
  refine ⟨?_, hbuffer, htotal⟩
  have ha_h : c.a_h.toList = r.toList := by
    refine List.ext_getElem (by simp [Sha256.Registers.toList]) fun i hi hi' => ?_
    rw [Vector.length_toList] at hi
    have hregister := hregisters i hi
    rw [List.getD_eq_getElem _ _ hi'] at hregister
    rw [← hregister, A_H, Vector.getElem_toList]
    congr 1
    rw [SB_SHA256_ROUNDS]
    omega
  rw [Vector.toList_zipWith, hihash, ha_h]

/-! ## Messages -/

/-- The state has taken in `msg`. -/
structure SbSha256State.Absorbed (sha : SbSha256State) (msg : Bytes) : Prop where
  ihash : sha.ihash.toList = Sha256.absorb msg
  total : sha.total_bytes.toNat = msg.length % 2 ^ 32
  buffer : sha.buffer.toList.take (msg.length % 64) = leftover 64 msg

theorem sbSha256Init_absorbed : sbSha256Init.Absorbed [] where
  ihash := sb_sha256_init_state_toList
  total := rfl
  buffer := rfl

namespace SbSha256State.Absorbed

variable {sha : SbSha256State} {msg input : Bytes}

theorem fill (h : sha.Absorbed msg) :
    sha.total_bytes.toNat % SB_SHA256_BLOCK_SIZE = msg.length % 64 := by
  rw [h.total, SB_SHA256_BLOCK_SIZE]
  omega

theorem feed (h : sha.Absorbed msg) {take : Nat} (hpos : 0 < take) (hle : take ≤ input.length)
    (hroom : msg.length % 64 + take ≤ 64) :
    (sha.feed input take).Absorbed (msg ++ input.take take) := by
  have hlength : (input.take take).length = take := List.length_take_of_le hle
  have htotal : (sha.total_bytes + BitVec.ofNat 32 take).toNat =
      (msg ++ input.take take).length % 2 ^ 32 := by
    rw [BitVec.toNat_add, BitVec.toNat_ofNat, h.total, List.length_append, hlength,
      ← Nat.add_mod]
  have hfill' : (sha.total_bytes + BitVec.ofNat 32 take).toNat % SB_SHA256_BLOCK_SIZE =
      (msg.length % 64 + take) % 64 := by
    rw [htotal, List.length_append, hlength, SB_SHA256_BLOCK_SIZE]
    omega
  rw [SbSha256State.feed]
  simp only [h.fill, hfill']
  split
  · next hwhole =>
      obtain ⟨hzero, htake⟩ := hwhole
      rw [SB_SHA256_BLOCK_SIZE] at htake
      obtain ⟨hihash, hbuffer, htotal'⟩ := sbSha256ProcessBlock_spec (hlength.trans htake)
        { sha with total_bytes := sha.total_bytes + BitVec.ofNat 32 take }
      have hmsg : leftover 64 msg = [] := leftover_of_dvd (Nat.dvd_of_mod_eq_zero hzero)
      have hdvd : 64 ∣ (msg ++ input.take take).length := by
        rw [List.length_append, hlength]
        omega
      refine ⟨?_, by rw [htotal', htotal], ?_⟩
      · rw [hihash, Sha256.absorb_append_of_eq (by omega), hmsg, List.nil_append, h.ihash]
      · rw [leftover_of_dvd hdvd, Nat.mod_eq_zero_of_dvd hdvd, List.take_zero]
  · next hpart =>
      have hcopy : (memcpy sha.buffer (msg.length % 64) (input.take take)).toList.take
          (msg.length % 64 + take) = leftover 64 msg ++ input.take take := by
        have hcopied := take_memcpy sha.buffer
          (show msg.length % 64 + (input.take take).length ≤ 64 by omega)
        rwa [hlength, h.buffer] at hcopied
      split
      · next hfull =>
          have heq : msg.length % 64 + take = 64 := by omega
          have hbuffer : (memcpy sha.buffer (msg.length % 64) (input.take take)).toList =
              leftover 64 msg ++ input.take take := by
            rw [heq] at hcopy
            rw [← hcopy]
            exact (List.take_of_length_le (Nat.le_of_eq Vector.length_toList)).symm
          obtain ⟨hihash, -, htotal'⟩ := sbSha256ProcessBlock_spec
            (show (memcpy sha.buffer (msg.length % 64) (input.take take)).toList.length = 64 from
              Vector.length_toList)
            { sha with
              total_bytes := sha.total_bytes + BitVec.ofNat 32 take
              buffer := memcpy sha.buffer (msg.length % 64) (input.take take) }
          have hdvd : 64 ∣ (msg ++ input.take take).length := by
            rw [List.length_append, hlength]
            omega
          refine ⟨?_, by rw [htotal', htotal], ?_⟩
          · rw [hihash, Sha256.absorb_append_of_eq (by omega), h.ihash, hbuffer]
          · rw [leftover_of_dvd hdvd, Nat.mod_eq_zero_of_dvd hdvd, List.take_zero]
      · next hshort =>
          have hlt : msg.length % 64 + (input.take take).length < 64 := by omega
          refine ⟨?_, htotal, ?_⟩
          · rw [Sha256.absorb_append_of_lt hlt]
            exact h.ihash
          · have hmod : (msg ++ input.take take).length % 64 = msg.length % 64 + take := by
              rw [List.length_append, hlength]
              omega
            rw [hmod, hcopy, (blocks_append_of_lt hlt).2]

theorem update (h : sha.Absorbed msg) (input : Bytes) :
    (sbSha256Update sha input).Absorbed (msg ++ input) := by
  fun_induction sbSha256Update sha input generalizing msg with
  | case1 sha input hpos fill remaining take =>
      rename_i ih
      have hlt := Nat.mod_lt msg.length (show 0 < 64 by decide)
      have hremaining : remaining = 64 - msg.length % 64 := by
        simp only [remaining, fill, h.fill, SB_SHA256_BLOCK_SIZE]
      have hbounds : 0 < take ∧ take ≤ input.length ∧ msg.length % 64 + take ≤ 64 := by
        simp only [take, hremaining]
        split <;> omega
      have hfed := ih (h.feed hbounds.1 hbounds.2.1 hbounds.2.2)
      rwa [List.append_assoc, List.take_append_drop] at hfed
  | case2 sha input hnil =>
      have hinput : input = [] := List.eq_nil_of_length_eq_zero (by omega)
      rwa [hinput, List.append_nil]

end SbSha256State.Absorbed

/-- A buffer that is filled up behind `msg`. -/
theorem ihash_filled (sha : SbSha256State) {msg piece : Bytes}
    (hihash : sha.ihash.toList = Sha256.absorb msg)
    (hbuffer : sha.buffer.toList = leftover 64 msg ++ piece) :
    (sbSha256ProcessBlock sha sha.buffer.toList).ihash.toList =
      Sha256.absorb (msg ++ piece) := by
  have hlength : msg.length % 64 + piece.length = 64 := by
    rw [← length_leftover, ← List.length_append, ← hbuffer, Vector.length_toList]
  rw [(sbSha256ProcessBlock_spec Vector.length_toList sha).1, hihash,
    Sha256.absorb_append_of_eq hlength, hbuffer]

theorem uint64Set_total {len : Nat} {total : BitVec 32} (h : total.toNat = len % 2 ^ 32) :
    uint64Set (total.setWidth 64 <<< 3) = toBE 8 (8 * (len % 2 ^ 32)) := by
  have hlt : len % 2 ^ 32 < 2 ^ 32 := Nat.mod_lt _ (by decide)
  rw [uint64Set_eq, BitVec.toNat_shiftLeft, BitVec.toNat_setWidth, h, Nat.shiftLeft_eq,
    Nat.mod_eq_of_lt (show len % 2 ^ 32 < 2 ^ 64 by omega), Nat.mod_eq_of_lt (by omega),
    Nat.mul_comm]

/-- What is hashed, with the counter's 32 bits. -/
def countedHash (msg : Bytes) : Bytes := Sha256.hash (msg.length % 2 ^ 32) msg

theorem sbSha256FinishInternal_spec {sha : SbSha256State} {msg : Bytes} (h : sha.Absorbed msg) :
    (sbSha256FinishInternal sha).ihash.toList =
      Sha256.absorb (msg ++ Sha256.padding msg.length (msg.length % 2 ^ 32)) := by
  have hbits := uint64Set_total h.total
  have hfed := h.update [sb_sha256_final_bit]
  rw [sbSha256FinishInternal]
  simp only [hbits]
  generalize sbSha256Update sha [sb_sha256_final_bit] = c at hfed ⊢
  have hlt := Nat.mod_lt (msg ++ [sb_sha256_final_bit]).length (show 0 < 64 by decide)
  have hfill := hfed.fill
  generalize hlen : toBE 8 (8 * (msg.length % 2 ^ 32)) = len
  have hlength : len.length = 8 := by rw [← hlen, length_toBE]
  generalize hmsg : msg ++ [sb_sha256_final_bit] = m at *
  have hm : m.length = msg.length + 1 := by rw [← hmsg, List.length_append, List.length_singleton]
  -- the zeros behind the final bit
  have hzeros : (memcpy c.buffer (m.length % 64) (List.replicate (64 - m.length % 64) 0)).toList =
      leftover 64 m ++ List.replicate (64 - m.length % 64) 0 := by
    rw [toList_memcpy_of_eq (by rw [List.length_replicate]; omega), hfed.buffer]
  have hpadding : msg ++ Sha256.padding msg.length (msg.length % 2 ^ 32) =
      m ++ (List.replicate ((119 - msg.length % 64) % 64) 0 ++ len) := by
    rw [Sha256.padding, hlen, ← hmsg, List.append_assoc]
    rfl
  simp only [hfill, SB_SHA256_BLOCK_SIZE, SB_SHA256_LENGTH_BYTES] at *
  rw [hpadding]
  generalize memcpy c.buffer (m.length % 64) (List.replicate (64 - m.length % 64) 0) = zeros
    at hzeros ⊢
  have hfirst := ihash_filled { c with buffer := zeros } hfed.ihash hzeros
  split
  · next htwo =>
      have hcount : (119 - msg.length % 64) % 64 = (64 - m.length % 64) + 56 := by omega
      have hdvd : 64 ∣ (m ++ List.replicate (64 - m.length % 64) 0).length := by
        rw [List.length_append, List.length_replicate]
        omega
      have hlast : (memcpy (Vector.replicate 64 (0 : UInt8)) 56 len).toList =
          leftover 64 (m ++ List.replicate (64 - m.length % 64) 0) ++
            (List.replicate 56 0 ++ len) := by
        rw [leftover_of_dvd hdvd, List.nil_append, toList_memcpy_of_eq (by rw [hlength]),
          Vector.toList_replicate, List.take_replicate]
        rfl
      rw [hcount, ← List.replicate_append_replicate, List.append_assoc, ← List.append_assoc]
      exact ihash_filled { sbSha256ProcessBlock { c with buffer := zeros } zeros.toList with
        buffer := memcpy (Vector.replicate 64 0) 56 len } hfirst hlast
  · next hone =>
      have hcount : (119 - msg.length % 64) % 64 = 64 - m.length % 64 - 8 := by omega
      have hkept : (leftover 64 m ++ List.replicate (64 - m.length % 64) 0).take 56 =
          leftover 64 m ++ List.replicate (64 - m.length % 64 - 8) 0 := by
        rw [List.take_append, length_leftover,
          List.take_of_length_le (by rw [length_leftover]; omega), List.take_replicate]
        congr 2
        omega
      have hlast : (memcpy zeros 56 len).toList =
          leftover 64 m ++ (List.replicate (64 - m.length % 64 - 8) 0 ++ len) := by
        rw [toList_memcpy_of_eq (by rw [hlength]), hzeros, hkept, List.append_assoc]
      rw [hcount]
      exact ihash_filled { c with buffer := memcpy zeros 56 len } hfed.ihash hlast

theorem ihashBytes_eq (sha : SbSha256State) :
    sha.ihashBytes = Sha256.output sha.ihash.toList := by
  rw [ihashBytes, Sha256.output, funext wordSet_eq]

theorem SbSha256State.Absorbed.finish {sha : SbSha256State} {msg : Bytes}
    (h : sha.Absorbed msg) : (sbSha256Finish sha).1 = SbSha256State.null ∧
      (sbSha256Finish sha).2.toList = countedHash msg := by
  have hbytes : (sbSha256FinishInternal sha).ihashBytes = countedHash msg := by
    rw [ihashBytes_eq, sbSha256FinishInternal_spec h]
    rfl
  refine ⟨rfl, ?_⟩
  rw [sbSha256Finish]
  simp only [hbytes]
  exact toList_memcpy_zero (Sha256.length_hash _ _)

theorem SbSha256State.Absorbed.finishToBuffer {sha : SbSha256State} {msg : Bytes}
    (h : sha.Absorbed msg) :
    (sbSha256FinishToBuffer sha).buffer.toList.take 32 = countedHash msg := by
  have hbytes : (sbSha256FinishInternal sha).ihashBytes = countedHash msg := by
    rw [ihashBytes_eq, sbSha256FinishInternal_spec h]
    rfl
  have hlength : (countedHash msg).length = 32 := Sha256.length_hash _ _
  rw [sbSha256FinishToBuffer]
  simp only [hbytes]
  have htake := take_memcpy (sbSha256FinishInternal sha).buffer
    (show 0 + (countedHash msg).length ≤ 64 by omega)
  rwa [hlength, List.take_zero, List.nil_append] at htake

/-- Up to 4 GiB. -/
theorem countedHash_eq {msg : Bytes} (h : msg.length < 2 ^ 32) : countedHash msg = sha256 msg := by
  rw [countedHash, Nat.mod_eq_of_lt h, sha256]

theorem SbSha256State.Absorbed.pieces {sha : SbSha256State} {msg : Bytes} (h : sha.Absorbed msg)
    (pieces : List Bytes) : (pieces.foldl sbSha256Update sha).Absorbed (msg ++ pieces.flatten) := by
  induction pieces generalizing sha msg with
  | nil => rwa [List.flatten_nil, List.append_nil]
  | cons piece pieces ih =>
      rw [List.flatten_cons, ← List.append_assoc]
      exact ih (h.update piece)

/-- Any pieces are hashed to what the standard gives for all their bytes. -/
theorem sbSha256_pieces {pieces : List Bytes} (h : pieces.flatten.length < 2 ^ 32) :
    (sbSha256Finish (pieces.foldl sbSha256Update sbSha256Init)).2.toList =
      sha256 pieces.flatten := by
  rw [(sbSha256Init_absorbed.pieces pieces).finish.2, List.nil_append, countedHash_eq h]

theorem sbSha256_pieces_abc :
    (sbSha256Finish ([[97], [], [98, 99]].foldl sbSha256Update sbSha256Init)).2.toList =
      sha256 [97, 98, 99] :=
  sbSha256_pieces (by decide)

/-- And so is one piece alone. -/
theorem sbSha256Message_eq {input : Bytes} (h : input.length < 2 ^ 32) :
    (sbSha256Message input).2.toList = sha256 input := by
  rw [sbSha256Message, (sbSha256Init_absorbed.update input).finish.2, List.nil_append,
    countedHash_eq h]

end DataProcessor
