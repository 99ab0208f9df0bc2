import DataProcessor.Lib.HashConstructions
import DataProcessor.Model.HmacSha256
import DataProcessor.Proofs.Sha256Runs

/-!
# The native HMAC and HKDF against the standards

What the native hash computes is a hash function of its own, `countedSha256`,
and HMAC over that is what the native code computes for every key and
message. `Keyed` says what a state has taken in since it started with a key;
starting over gives that with nothing taken in. Wherever no message is as
long as 4 GiB the hash, and then HMAC, is the standard's. On HMAC the loop of
HKDF has produced a number of digests after every turn, `Produced`, the last
one kept for the next.
-/

namespace DataProcessor

open Lib

/-- The native hash, with its narrow counter. -/
def countedSha256 : HashFunction where
  hash := countedHash
  block := 64
  length := 32
  length_hash := fun msg => Sha256.length_hash _ msg
  length_le := by decide
  length_pos := by decide

def standardSha256 : HashFunction where
  hash := sha256
  block := 64
  length := 32
  length_hash := fun msg => Sha256.length_hash _ msg
  length_le := by decide
  length_pos := by decide

theorem countedSha256_hash_eq (msg : Bytes) (h : msg.length < 2 ^ 32) :
    countedSha256.hash msg = standardSha256.hash msg :=
  countedHash_eq h

theorem countedSha256_hmac_eq {key msg : Bytes} (hkey : key.length < 2 ^ 32)
    (hmsg : 64 + msg.length < 2 ^ 32) :
    countedSha256.hmac key msg = standardSha256.hmac key msg := by
  refine HashFunction.hmac_congr rfl countedSha256_hash_eq hkey hmsg ?_
  show 64 + 32 < 2 ^ 32
  norm_num

/-! ## HMAC -/

/-- The key as the state holds it. -/
abbrev nativeKey (key : Bytes) : Bytes := countedSha256.blockKey key

/-- The state has taken in `msg` since it started with `k`. -/
structure SbHmacSha256State.Keyed (hmac : SbHmacSha256State) (k msg : Bytes) : Prop where
  key : hmac.key.toList = nativeKey k
  sha : hmac.sha.Absorbed ((nativeKey k).map (· ^^^ 0x36) ++ msg)

theorem SbSha256State.Absorbed.finish_eq {sha : SbSha256State} {msg : Bytes}
    (h : sha.Absorbed msg) : ∃ output, sbSha256Finish sha = (SbSha256State.null, output) ∧
      output.toList = countedHash msg :=
  ⟨(sbSha256Finish sha).2, Prod.ext h.finish.1 rfl, h.finish.2⟩

theorem toList_keyPad (hmac : SbHmacSha256State) (pad : UInt8) :
    (sbHmacSha256KeyPad hmac pad).key.toList = hmac.key.toList.map (· ^^^ pad) := by
  rw [sbHmacSha256KeyPad, Vector.toList_map]

/-- Padding twice is none. -/
theorem map_map_xor (xs : Bytes) (pad : UInt8) :
    (xs.map (· ^^^ pad)).map (· ^^^ pad) = xs := by
  rw [List.map_map]
  refine (List.map_congr_left fun x hx => ?_).trans (List.map_id xs)
  show x ^^^ pad ^^^ pad = x
  rw [UInt8.xor_assoc, UInt8.xor_self, UInt8.xor_zero]

theorem key_reinit (hmac : SbHmacSha256State) : (sbHmacSha256Reinit hmac).key = hmac.key := by
  refine Vector.toList_inj.1 ?_
  rw [sbHmacSha256Reinit, toList_keyPad]
  show (sbHmacSha256KeyPad hmac ipad).key.toList.map (· ^^^ ipad) = hmac.key.toList
  rw [toList_keyPad, map_map_xor]

theorem sha_reinit (hmac : SbHmacSha256State) : (sbHmacSha256Reinit hmac).sha =
    sbSha256Update sbSha256Init (hmac.key.toList.map (· ^^^ ipad)) := by
  rw [← toList_keyPad]
  rfl

/-- Starting over depends on nothing but the key. -/
theorem reinit_congr {hmac hmac' : SbHmacSha256State} (h : hmac.key = hmac'.key) :
    sbHmacSha256Reinit hmac = sbHmacSha256Reinit hmac' := by
  have hkey : (sbHmacSha256Reinit hmac).key = (sbHmacSha256Reinit hmac').key := by
    rw [key_reinit, key_reinit, h]
  have hsha : (sbHmacSha256Reinit hmac).sha = (sbHmacSha256Reinit hmac').sha := by
    rw [sha_reinit, sha_reinit, h]
  generalize sbHmacSha256Reinit hmac = left at *
  generalize sbHmacSha256Reinit hmac' = right at *
  cases left
  cases right
  cases hkey
  cases hsha
  rfl

theorem reinit_keyed {hmac : SbHmacSha256State} {k : Bytes}
    (h : hmac.key.toList = nativeKey k) : (sbHmacSha256Reinit hmac).Keyed k [] where
  key := by rw [key_reinit, h]
  sha := by
    rw [sha_reinit, h, List.append_nil]
    exact sbSha256Init_absorbed.update _

theorem sbHmacSha256Init_keyed (k : Bytes) : (sbHmacSha256Init k).Keyed k [] := by
  rw [sbHmacSha256Init]
  split
  · next hlong =>
      have hlong' : k.length > countedSha256.block := hlong
      obtain ⟨digest, hfin, hdigest⟩ := (sbSha256Init_absorbed.update k).finish_eq
      rw [List.nil_append] at hdigest
      have hlength : (countedHash k).length = 32 := Sha256.length_hash _ _
      dsimp only
      rw [hfin]
      refine reinit_keyed ?_
      dsimp only [SbHmacSha256State.null]
      rw [hdigest, toList_memcpy (by omega), hlength, Vector.toList_replicate, List.take_zero,
        List.nil_append, List.drop_replicate, nativeKey, HashFunction.blockKey, if_pos hlong',
        HashFunction.length_hash]
      rfl
  · next hshort =>
      have hle : k.length ≤ 64 := Nat.le_of_not_lt hshort
      refine reinit_keyed ?_
      dsimp only [SbHmacSha256State.null]
      rw [toList_memcpy (by omega), Vector.toList_replicate, List.take_zero, List.nil_append,
        List.drop_replicate, Nat.zero_add, nativeKey, HashFunction.blockKey_of_le _ hle]
      rfl

namespace SbHmacSha256State.Keyed

variable {hmac : SbHmacSha256State} {k msg : Bytes}

theorem update (h : hmac.Keyed k msg) (input : Bytes) :
    (sbHmacSha256Update hmac input).Keyed k (msg ++ input) where
  key := h.key
  sha := by
    rw [← List.append_assoc]
    exact h.sha.update input

theorem finish (h : hmac.Keyed k msg) : ∃ hmac' output,
    sbHmacSha256Finish hmac = (hmac', output) ∧ hmac'.key = hmac.key ∧
      output.toList = countedSha256.hmac k msg := by
  obtain ⟨inner, hfin, hinner⟩ := h.sha.finish_eq
  have hpadded := toList_keyPad { hmac with sha := SbSha256State.null } opad
  have hkept : (sbHmacSha256KeyPad { hmac with sha := SbSha256State.null } opad).key.toList.map
      (· ^^^ opad) = hmac.key.toList := by
    rw [hpadded, map_map_xor]
  rw [sbHmacSha256Finish, hfin]
  dsimp only
  generalize sbHmacSha256KeyPad { hmac with sha := SbSha256State.null } opad = padded
    at hpadded hkept ⊢
  have houter := (sbSha256Init_absorbed.update padded.key.toList).update inner.toList
  rw [hpadded, hinner, List.nil_append] at houter
  obtain ⟨output, hfin', houtput⟩ := houter.finish_eq
  rw [← hpadded, ← hinner] at hfin'
  rw [hfin']
  refine ⟨_, output, rfl, Vector.toList_inj.1 ?_, ?_⟩
  · rw [toList_keyPad]
    exact hkept
  · rw [houtput, h.key]
    rfl

/-- Finished and started over with its own key. -/
theorem restart (h : hmac.Keyed k msg) : ∃ hmac' output,
    sbHmacSha256Finish hmac = (hmac', output) ∧
      sbHmacSha256Reinit hmac' = sbHmacSha256Reinit hmac ∧
      output.toList = countedSha256.hmac k msg := by
  obtain ⟨hmac', output, hfin, hkey, houtput⟩ := h.finish
  exact ⟨hmac', output, hfin, reinit_congr hkey, houtput⟩

end SbHmacSha256State.Keyed

/-- The output becomes the key, in a state without room for it elsewhere. -/
theorem SbHmacSha256State.Keyed.finishToKey {hmac : SbHmacSha256State} {k msg : Bytes}
    (h : hmac.Keyed k msg) (hk : k.length = 32) :
    (sbHmacSha256FinishToKey hmac).Keyed (countedSha256.hmac k msg) [] := by
  obtain ⟨inner, hfin, hinner⟩ := h.sha.finish_eq
  have hlength : inner.toList.length = 32 := Vector.length_toList
  have hkey : nativeKey k = k ++ List.replicate 32 0 := by
    rw [nativeKey, HashFunction.blockKey_of_le _ (show k.length ≤ 64 by omega), hk]
    rfl
  have hpadded := toList_keyPad hmac opad
  have hhalves : (nativeKey k).map (· ^^^ opad) =
      k.map (· ^^^ opad) ++ List.replicate 32 opad := by
    rw [hkey, List.map_append, List.map_replicate, show (0 : UInt8) ^^^ opad = opad by decide]
  rw [h.key, hhalves] at hpadded
  have hsha : (sbHmacSha256KeyPad hmac opad).sha = hmac.sha := rfl
  rw [sbHmacSha256FinishToKey]
  dsimp only
  rw [hsha, hfin]
  dsimp only
  generalize sbHmacSha256KeyPad hmac opad = padded at hpadded ⊢
  -- the inner hash in the second half
  have hfirst : (memcpy padded.key SB_SHA256_SIZE inner.toList).toList =
      k.map (· ^^^ opad) ++ inner.toList := by
    rw [toList_memcpy_of_eq (by rw [hlength]; rfl), hpadded,
      List.take_left' (by rw [List.length_map, hk]; rfl)]
  generalize memcpy padded.key SB_SHA256_SIZE inner.toList = first at hfirst ⊢
  -- padding in the first half
  have hsecond : (memcpy first 0 (List.replicate SB_SHA256_SIZE opad)).toList =
      List.replicate 32 opad ++ inner.toList := by
    rw [toList_memcpy (by rw [List.length_replicate]; decide), hfirst, List.length_replicate,
      List.take_zero, List.nil_append, Nat.zero_add,
      List.drop_left' (by rw [List.length_map, hk]; rfl)]
    rfl
  generalize memcpy first 0 (List.replicate SB_SHA256_SIZE opad) = second at hsecond ⊢
  have houter := ((sbSha256Init_absorbed.update (first.toList.take SB_SHA256_SIZE)).update
    (second.toList.take SB_SHA256_SIZE)).update (second.toList.drop SB_SHA256_SIZE)
  obtain ⟨output, hfin', houtput⟩ := houter.finish_eq
  have hresult : output.toList = countedSha256.hmac k msg := by
    rw [houtput, hfirst, hsecond, List.take_left' (by rw [List.length_map, hk]; rfl),
      List.take_left' (by rw [List.length_replicate]; rfl),
      List.drop_left' (by rw [List.length_replicate]; rfl), List.nil_append, ← hhalves, hinner]
    rfl
  rw [hfin']
  have hout : output.toList.length = SB_SHA256_SIZE := Vector.length_toList
  refine reinit_keyed ?_
  dsimp only
  rw [toList_memcpy_of_eq (by rw [List.length_replicate]; rfl),
    toList_memcpy (by rw [hout]; decide), List.take_zero, List.nil_append, List.take_left' hout, ← hresult, nativeKey,
    HashFunction.blockKey_of_le _ (show output.toList.length ≤ 64 by rw [hout]; decide), hout]
  rfl

/-- HMAC of the native hash, for every key and message. -/
theorem sbHmacSha256_eq (key input : Bytes) :
    (sbHmacSha256 key input).2.toList = countedSha256.hmac key input := by
  obtain ⟨hmac', output, hfin, hkey, houtput⟩ := ((sbHmacSha256Init_keyed key).update input).finish
  rw [sbHmacSha256, hfin]
  exact houtput

theorem SbHmacSha256State.Keyed.pieces {hmac : SbHmacSha256State} {k msg : Bytes}
    (h : hmac.Keyed k msg) (pieces : List Bytes) :
    (pieces.foldl sbHmacSha256Update hmac).Keyed k (msg ++ pieces.flatten) := by
  induction pieces generalizing hmac msg with
  | nil => rwa [List.flatten_nil, List.append_nil]
  | cons piece pieces ih =>
      rw [List.flatten_cons, ← List.append_assoc]
      exact ih (h.update piece)

/-- The standard's HMAC, for a message in any pieces. -/
theorem sbHmacSha256_pieces {key : Bytes} {pieces : List Bytes} (hkey : key.length < 2 ^ 32)
    (hmsg : 64 + pieces.flatten.length < 2 ^ 32) :
    (sbHmacSha256Finish (pieces.foldl sbHmacSha256Update (sbHmacSha256Init key))).2.toList =
      standardSha256.hmac key pieces.flatten := by
  obtain ⟨hmac', output, hfin, hkept, houtput⟩ :=
    ((sbHmacSha256Init_keyed key).pieces pieces).finish
  rw [hfin, ← countedSha256_hmac_eq hkey hmsg]
  exact houtput

theorem sbHmacSha256_pieces_two :
    (sbHmacSha256Finish ([[1, 2], [3]].foldl sbHmacSha256Update
      (sbHmacSha256Init [7]))).2.toList = standardSha256.hmac [7] [1, 2, 3] :=
  sbHmacSha256_pieces (by decide) (by decide)

/-! ## HKDF -/

theorem reinit_reinit (hmac : SbHmacSha256State) :
    sbHmacSha256Reinit (sbHmacSha256Reinit hmac) = sbHmacSha256Reinit hmac :=
  reinit_congr (key_reinit hmac)

theorem reinit_init (k : Bytes) : sbHmacSha256Reinit (sbHmacSha256Init k) = sbHmacSha256Init k := by
  rw [sbHmacSha256Init]
  split
  · obtain ⟨digest, hfin, hdigest⟩ := (sbSha256Init_absorbed.update k).finish_eq
    dsimp only
    rw [hfin]
    exact reinit_reinit _
  · exact reinit_reinit _

/-- The state expands `prk`. -/
structure SbHkdfState.Ready (hkdf : SbHkdfState) (prk : Bytes) : Prop where
  hmac : hkdf.hmac.Keyed prk []
  fresh : sbHmacSha256Reinit hkdf.hmac = hkdf.hmac
  output : hkdf.output = Vector.replicate 32 0

theorem sbHkdfKdfInit_ready (input : Bytes) : (sbHkdfKdfInit input).Ready input :=
  ⟨sbHmacSha256Init_keyed input, reinit_init input, rfl⟩

theorem sbHkdfExtractInit_keyed (salt : Bytes) : (sbHkdfExtractInit salt).hmac.Keyed
    (if salt = [] then List.replicate 32 0 else salt) [] := by
  rw [sbHkdfExtractInit]
  split
  · next hsome =>
      rw [if_neg (List.ne_nil_of_length_pos hsome)]
      exact sbHmacSha256Init_keyed salt
  · next hnone =>
      have hzeros : SbHkdfState.null.output.toList = List.replicate 32 0 :=
        Vector.toList_replicate
      rw [if_pos (List.eq_nil_of_length_eq_zero (Nat.eq_zero_of_not_pos hnone)), ← hzeros]
      exact sbHmacSha256Init_keyed SbHkdfState.null.output.toList

theorem sbHkdfExtractFinish_ready {hkdf : SbHkdfState} {k msg : Bytes}
    (h : hkdf.hmac.Keyed k msg) :
    (sbHkdfExtractFinish hkdf).Ready (countedSha256.hmac k msg) := by
  obtain ⟨hmac', output, hfin, hkey, houtput⟩ := h.finish
  rw [sbHkdfExtractFinish, hfin, ← houtput]
  exact ⟨sbHmacSha256Init_keyed _, reinit_init _, rfl⟩

theorem sbHkdfExtract_ready (salt input : Bytes) :
    (sbHkdfExtract salt input).Ready (countedSha256.hkdfExtract salt input) :=
  sbHkdfExtractFinish_ready ((sbHkdfExtractInit_keyed salt).update input)

/-- The loop has produced `n` digests. -/
structure SbHkdfState.Produced (hkdf : SbHkdfState) (prk info : Bytes) (n : Nat) : Prop where
  hmac : hkdf.hmac.Keyed prk []
  fresh : sbHmacSha256Reinit hkdf.hmac = hkdf.hmac
  output : 0 < n → hkdf.output.toList = countedSha256.hkdfBlock prk info n

namespace SbHkdfState.Produced

variable {hkdf : SbHkdfState} {prk info : Bytes} {n : Nat}

theorem turn (h : hkdf.Produced prk info n) :
    ∃ output, hkdf.turn info (32 * n) (UInt8.ofNat (n + 1)) = ⟨hkdf.hmac, output⟩ ∧
      output.toList = countedSha256.hkdfBlock prk info (n + 1) := by
  obtain ⟨started, hstarted⟩ : ∃ started, started =
      if 32 * n > 0 then sbHmacSha256Update hkdf.hmac hkdf.output.toList else hkdf.hmac :=
    ⟨_, rfl⟩
  have hkey : started.key = hkdf.hmac.key := by
    rw [hstarted]
    split <;> rfl
  have hkeyed : started.Keyed prk (countedSha256.hkdfBlock prk info n) := by
    rw [hstarted]
    split
    · next hpos =>
        rw [← h.output (by omega)]
        exact h.hmac.update hkdf.output.toList
    · next hzero =>
        rw [show n = 0 by omega]
        exact h.hmac
  obtain ⟨hmac', output, hfin, hrestart, houtput⟩ :=
    ((hkeyed.update info).update [UInt8.ofNat (n + 1)]).restart
  refine ⟨output, ?_, houtput⟩
  have hagain : sbHmacSha256Reinit hmac' = hkdf.hmac := by
    rw [hrestart, ← h.fresh]
    exact reinit_congr hkey
  rw [SbHkdfState.turn]
  dsimp only
  rw [← hstarted, hfin, hagain]

theorem produce (h : hkdf.Produced prk info n) (len : Nat) :
    (hkdf.produce info (32 * n + len) (32 * n) (UInt8.ofNat (n + 1))).1.hmac = hkdf.hmac ∧
      (hkdf.produce info (32 * n + len) (32 * n) (UInt8.ofNat (n + 1))).2 =
        (countedSha256.hkdfBlocks prk info n (countedSha256.digests len)).take len := by
  induction len using Nat.strong_induction_on generalizing hkdf n with
  | _ len ih =>
      rw [SbHkdfState.produce]
      by_cases hlen : 0 < len
      · obtain ⟨output, hturn, houtput⟩ := h.turn
        rw [if_pos (by omega), hturn]
        have hlength : output.toList.length = 32 := Vector.length_toList
        by_cases hlast : len ≤ 32
        · have hbytes : SbHkdfState.bytes (32 * n + len) (32 * n) = len := by
            rw [SbHkdfState.bytes, SB_SHA256_SIZE, if_neg (by omega)]
            omega
          have hdone : ¬ 32 * n + len < 32 * n + len := Nat.lt_irrefl _
          dsimp only
          rw [hbytes, SbHkdfState.produce, if_neg hdone, List.append_nil, houtput,
            countedSha256.take_hkdfBlocks_of_le prk info n hlen hlast]
          exact ⟨rfl, rfl⟩
        · have hbytes : SbHkdfState.bytes (32 * n + len) (32 * n) = 32 := by
            rw [SbHkdfState.bytes, SB_SHA256_SIZE, if_pos (by omega)]
          obtain ⟨rest, rfl⟩ : ∃ rest, len = 32 + rest := ⟨len - 32, by omega⟩
          have hnext : SbHkdfState.Produced ⟨hkdf.hmac, output⟩ prk info (n + 1) :=
            ⟨h.hmac, h.fresh, fun _ => houtput⟩
          obtain ⟨hstate, hrest⟩ := ih rest (by omega) hnext
          have hiter : UInt8.ofNat (n + 1) + 1 = UInt8.ofNat (n + 1 + 1) :=
            (UInt8.ofNat_add (n + 1) 1).symm
          have htotal : 32 * (n + 1) + rest = 32 * n + (32 + rest) := by omega
          rw [htotal] at hstate hrest
          dsimp only
          rw [hbytes, hiter, show 32 * n + 32 = 32 * (n + 1) by omega, hrest,
            List.take_of_length_le (Nat.le_of_eq hlength), houtput]
          exact ⟨hstate, (countedSha256.take_hkdfBlocks_add prk info n rest).symm⟩
      · obtain rfl : len = 0 := by omega
        rw [if_neg (by omega), List.take_zero]
        exact ⟨rfl, rfl⟩

end SbHkdfState.Produced

/-- Expanding gives the bytes of the standard and leaves the state as it was,
so that one state expands any number of times. -/
theorem SbHkdfState.Ready.expand {hkdf : SbHkdfState} {prk : Bytes} (h : hkdf.Ready prk)
    (info : Bytes) (len : Nat) :
    sbHkdfExpand hkdf info len = (hkdf, countedSha256.hkdfExpand prk info len) := by
  have hstart : hkdf.Produced prk info 0 := ⟨h.hmac, h.fresh, fun hpos => absurd hpos (by omega)⟩
  obtain ⟨hstate, hbytes⟩ := hstart.produce len
  rw [Nat.mul_zero, Nat.zero_add, Nat.zero_add] at hstate hbytes
  rw [sbHkdfExpand]
  have hone : UInt8.ofNat 1 = 1 := rfl
  rw [hone] at hstate hbytes
  refine Prod.ext ?_ hbytes
  cases hkdf
  exact congrArg₂ SbHkdfState.mk hstate h.output.symm

/-- The standard's HKDF, and the state stays as it was. -/
theorem sbHkdfExpand_extract {salt ikm info : Bytes} (hsalt : salt.length < 2 ^ 32)
    (hikm : 64 + ikm.length < 2 ^ 32) (hinfo : 64 + (32 + info.length + 1) < 2 ^ 32) (len : Nat) :
    sbHkdfExpand (sbHkdfExtract salt ikm) info len = (sbHkdfExtract salt ikm,
      standardSha256.hkdfExpand (standardSha256.hkdfExtract salt ikm) info len) := by
  have hprk : countedSha256.hkdfExtract salt ikm = standardSha256.hkdfExtract salt ikm := by
    refine countedSha256_hmac_eq ?_ hikm
    split
    · rw [List.length_replicate]
      show 32 < 2 ^ 32
      norm_num
    · exact hsalt
  have hexpand : countedSha256.hkdfExpand (standardSha256.hkdfExtract salt ikm) info len =
      standardSha256.hkdfExpand (standardSha256.hkdfExtract salt ikm) info len := by
    refine HashFunction.hkdfExpand_congr (by rfl) (by rfl) countedSha256_hash_eq ?_ ?_ len
    · rw [HashFunction.hkdfExtract, HashFunction.length_hmac]
      show 32 < 2 ^ 32
      norm_num
    · exact hinfo
  rw [(sbHkdfExtract_ready salt ikm).expand info len, hprk, hexpand]

theorem sbHkdfExpand_extract_two_digests :
    sbHkdfExpand (sbHkdfExtract [] [11]) [9] 40 = (sbHkdfExtract [] [11],
      standardSha256.hkdfExpand (standardSha256.hkdfExtract [] [11]) [9] 40) :=
  sbHkdfExpand_extract (by decide) (by decide) (by decide) 40

end DataProcessor
