import DataProcessor.Model.HmacDrbg
import DataProcessor.Proofs.HmacRuns

/-!
# The native generator against HMAC-DRBG

The state represents a key and a value, `Represents`, and every function that
succeeds does to them what the standard does. The bounds that the code checks
keep all messages short, so that this holds of the standard's hash without a
condition on the caller.
-/

namespace DataProcessor

open Lib HashFunction

/-- What the generator is, by the standard. -/
structure SbHmacDrbgState.Represents (drbg : SbHmacDrbgState) (d : Drbg) : Prop where
  key : drbg.hmac.key.toList = nativeKey d.key
  length_key : d.key.length = 32
  v : drbg.V.toList = d.v

theorem provided_keyed {hmac : SbHmacSha256State} {k msg : Bytes} (h : hmac.Keyed k msg)
    (provided : List Bytes) : (provided.foldl SbHmacSha256State.provide hmac).Keyed k
      (msg ++ provided.flatten) := by
  induction provided generalizing hmac msg with
  | nil => rwa [List.flatten_nil, List.append_nil]
  | cons piece pieces ih =>
      rw [List.flatten_cons, ← List.append_assoc]
      refine ih ?_
      rw [SbHmacSha256State.provide]
      split
      · exact h.update piece
      · next hnone =>
          rwa [List.eq_nil_of_length_eq_zero (Nat.eq_zero_of_not_pos hnone), List.append_nil]

namespace SbHmacDrbgState.Represents

variable {drbg : SbHmacDrbgState} {d : Drbg}

theorem length_v (h : drbg.Represents d) : d.v.length = 32 := by
  rw [← h.v]
  exact Vector.length_toList

theorem updateStep (h : drbg.Represents d) (r : UInt8) {provided : List Bytes}
    (hlen : provided.flatten.length ≤ 4096) :
    (sbHmacDrbgUpdateStep drbg r provided).Represents
        (Drbg.updateRound standardSha256 r provided.flatten d) ∧
      (sbHmacDrbgUpdateStep drbg r provided).reseed_counter = drbg.reseed_counter := by
  have hv := h.length_v
  have hkeyed := provided_keyed (((reinit_keyed h.key).update drbg.V.toList).update [r]) provided
  have hnew := hkeyed.finishToKey h.length_key
  rw [List.nil_append, h.v, List.append_assoc, List.singleton_append,
    countedSha256_hmac_eq (by rw [h.length_key]; norm_num)
      (by rw [List.length_append, List.length_cons, hv]; omega), ← h.v] at hnew
  obtain ⟨hmac', V, hfin, hkept, hV⟩ := (hnew.update drbg.V.toList).finish
  rw [List.nil_append, h.v, countedSha256_hmac_eq (by rw [length_hmac]; decide)
    (by rw [hv]; norm_num)] at hV
  have hstep : sbHmacDrbgUpdateStep drbg r provided =
      { drbg with hmac := hmac', V := V } := by
    rw [sbHmacDrbgUpdateStep, hfin]
  rw [hstep]
  refine ⟨⟨?_, ?_, ?_⟩, rfl⟩
  · show hmac'.key.toList = _
    rw [hkept, (hnew.update _).key, h.v]
    rfl
  · exact length_hmac standardSha256 d.key (d.v ++ r :: provided.flatten)
  · exact hV

theorem updateVec (h : drbg.Represents d) (provided : List Bytes) (any : Bool)
    (hlen : provided.flatten.length ≤ 4096) (hany : any = true ↔ provided.flatten ≠ []) :
    (sbHmacDrbgUpdateVec drbg provided any).Represents
        (Drbg.update standardSha256 provided.flatten d) ∧
      (sbHmacDrbgUpdateVec drbg provided any).reseed_counter = drbg.reseed_counter := by
  obtain ⟨hfirst, hcount⟩ := h.updateStep 0x00 hlen
  rw [sbHmacDrbgUpdateVec, Drbg.update]
  by_cases hdata : provided.flatten = []
  · rw [if_neg (fun htrue => hany.1 htrue hdata), if_pos hdata]
    exact ⟨hfirst, hcount⟩
  · rw [if_pos (hany.2 hdata), if_neg hdata]
    obtain ⟨hsecond, hcount'⟩ := hfirst.updateStep 0x01 hlen
    exact ⟨hsecond, hcount'.trans hcount⟩

theorem produce (h : drbg.Represents d) (len : Nat) :
    (drbg.produce len).1.Represents (Drbg.output standardSha256 (standardSha256.digests len) d).1 ∧
      (drbg.produce len).1.reseed_counter = drbg.reseed_counter ∧
      (drbg.produce len).2 =
        (Drbg.output standardSha256 (standardSha256.digests len) d).2.take len := by
  induction len using Nat.strong_induction_on generalizing drbg d with
  | _ len ih =>
      rw [SbHmacDrbgState.produce]
      by_cases hlen : len = 0
      · subst hlen
        rw [if_neg (not_not.2 rfl), digests_zero, List.take_zero]
        exact ⟨h, rfl, rfl⟩
      · have hv := h.length_v
        obtain ⟨hmac', V, hfin, hkept, hV⟩ :=
          ((reinit_keyed h.key).update drbg.V.toList).finish
        rw [List.nil_append, h.v, countedSha256_hmac_eq (by rw [h.length_key]; norm_num)
          (by rw [hv]; norm_num)] at hV
        have hlength : V.toList.length = 32 := Vector.length_toList
        have hkey : hmac'.key.toList = nativeKey d.key := by
          rw [hkept, ((reinit_keyed h.key).update drbg.V.toList).key]
        have hnext : SbHmacDrbgState.Represents { drbg with hmac := hmac', V := V }
            ⟨d.key, standardSha256.hmac d.key d.v⟩ := ⟨hkey, h.length_key, hV⟩
        rw [if_pos hlen]
        dsimp only
        rw [hfin]
        dsimp only
        by_cases hlast : len ≤ 32
        · have hgen : SbHmacDrbgState.gen len = len := by
            rw [SbHmacDrbgState.gen, SB_SHA256_SIZE, if_neg (by omega)]
          rw [hgen, Nat.sub_self, SbHmacDrbgState.produce, if_neg (not_not.2 rfl),
            digests_of_le _ (Nat.pos_of_ne_zero hlen) hlast, List.append_nil, hV]
          refine ⟨hnext, rfl, ?_⟩
          rw [Drbg.output, Drbg.output]
          dsimp only
          rw [List.append_nil]
        · have hgen : SbHmacDrbgState.gen len = 32 := by
            rw [SbHmacDrbgState.gen, SB_SHA256_SIZE, if_pos (by omega)]
          obtain ⟨rest, rfl⟩ : ∃ rest, len = 32 + rest := ⟨len - 32, by omega⟩
          obtain ⟨hstate, hcount, hrest⟩ := ih rest (by omega) hnext
          have hdigests : standardSha256.digests (32 + rest) = standardSha256.digests rest + 1 :=
            standardSha256.digests_add_length rest
          rw [hgen, Nat.add_sub_cancel_left, hdigests, Drbg.output]
          dsimp only
          refine ⟨hstate, hcount, ?_⟩
          have hwhole : V.toList.take (32 + rest) = V.toList := List.take_of_length_le (by omega)
          rw [hrest, List.take_of_length_le (Nat.le_of_eq hlength), ← hV, List.take_append,
            hwhole, hlength, Nat.add_sub_cancel_left]

end SbHmacDrbgState.Represents

/-! ## Requests -/

theorem SbError.when_eq_zero {cond : Prop} [Decidable cond] {bit err : SbError} (hbit : bit ≠ 0) :
    SbError.when cond bit err = 0 ↔ ¬ cond ∧ err = 0 := by
  rw [SbError.when]
  split
  · next hcond =>
      exact BitVec.or_eq_zero_iff.trans ⟨fun h => absurd h.2 hbit, fun h => absurd hcond h.1⟩
  · next hcond => exact ⟨fun h => ⟨hcond, h⟩, fun h => h.2⟩

/-- What a start accepts, and the generator it then is. -/
theorem sbHmacDrbgInit_spec (entropy nonce personalization : Bytes) :
    ((sbHmacDrbgInit entropy nonce personalization).1 = 0 ↔
      32 ≤ entropy.length ∧ entropy.length ≤ 1024 ∧ 16 ≤ nonce.length ∧ nonce.length ≤ 1024 ∧
        personalization.length ≤ 1024) ∧
      ((sbHmacDrbgInit entropy nonce personalization).1 = 0 →
        (sbHmacDrbgInit entropy nonce personalization).2.Represents
            (Drbg.instantiate standardSha256 (entropy ++ nonce ++ personalization)) ∧
          (sbHmacDrbgInit entropy nonce personalization).2.reseed_counter = 1) := by
  have hstart : SbHmacDrbgState.Represents
      ⟨sbHmacSha256Init (List.replicate 32 0), Vector.replicate 32 1, 0⟩
      ⟨List.replicate 32 0, List.replicate 32 1⟩ :=
    ⟨(sbHmacSha256Init_keyed _).key, List.length_replicate, Vector.toList_replicate⟩
  rw [sbHmacDrbgInit]
  dsimp only
  split
  · next herr =>
      refine ⟨⟨fun h => absurd h herr, fun hbounds => absurd ?_ herr⟩, fun h => absurd h herr⟩
      rw [SbError.when_eq_zero (by decide), SbError.when_eq_zero (by decide)]
      refine ⟨?_, ?_, rfl⟩
      · simp only [SB_HMAC_DRBG_MAX_ENTROPY_INPUT_LENGTH,
          SB_HMAC_DRBG_MAX_PERSONALIZATION_STRING_LENGTH]
        omega
      · simp only [SB_HMAC_DRBG_MIN_ENTROPY_INPUT_LENGTH, SB_HMAC_DRBG_MIN_NONCE_LENGTH]
        omega
  · next hnone =>
      have hbounds := not_not.1 hnone
      rw [SbError.when_eq_zero (by decide), SbError.when_eq_zero (by decide)] at hbounds
      simp only [SB_HMAC_DRBG_MIN_ENTROPY_INPUT_LENGTH, SB_HMAC_DRBG_MIN_NONCE_LENGTH,
        SB_HMAC_DRBG_MAX_ENTROPY_INPUT_LENGTH, SB_HMAC_DRBG_MAX_PERSONALIZATION_STRING_LENGTH]
        at hbounds
      have hflatten : [entropy, nonce, personalization, []].flatten =
          entropy ++ nonce ++ personalization := by simp
      refine ⟨⟨fun _ => by omega, fun _ => rfl⟩, fun _ => ?_⟩
      have hsome : entropy ++ nonce ++ personalization ≠ [] := by
        intro hempty
        have hzero := congrArg List.length hempty
        simp only [List.length_append, List.length_nil] at hzero
        omega
      have hseed := (hstart.updateVec [entropy, nonce, personalization, []] true
        (by rw [hflatten]; simp only [List.length_append]; omega)
        (by rw [hflatten]; exact ⟨fun _ => hsome, fun _ => rfl⟩)).1
      rw [hflatten] at hseed
      exact ⟨⟨hseed.key, hseed.length_key, hseed.v⟩, rfl⟩

/-- What a reseeding accepts, and what it makes of the generator: anything
else leaves the state as it was. -/
theorem sbHmacDrbgReseed_spec {drbg : SbHmacDrbgState} {d : Drbg} (h : drbg.Represents d)
    (entropy additional : Bytes) :
    ((sbHmacDrbgReseed drbg entropy additional).1 = 0 ↔
      drbg.reseed_counter ≠ 0 ∧ 32 ≤ entropy.length ∧ entropy.length ≤ 1024 ∧
        additional.length ≤ 1024) ∧
      ((sbHmacDrbgReseed drbg entropy additional).1 = 0 →
        (sbHmacDrbgReseed drbg entropy additional).2.Represents
            (Drbg.update standardSha256 (entropy ++ additional) d) ∧
          (sbHmacDrbgReseed drbg entropy additional).2.reseed_counter = 1) ∧
      ((sbHmacDrbgReseed drbg entropy additional).1 ≠ 0 →
        (sbHmacDrbgReseed drbg entropy additional).2 = drbg) := by
  have haccepts : SbError.when (entropy.length > SB_HMAC_DRBG_MAX_ENTROPY_INPUT_LENGTH ∨
      additional.length > SB_HMAC_DRBG_MAX_ADDITIONAL_INPUT_LENGTH) SB_ERROR_INPUT_TOO_LARGE
        (SbError.when (entropy.length < SB_HMAC_DRBG_MIN_ENTROPY_INPUT_LENGTH)
          SB_ERROR_INSUFFICIENT_ENTROPY
          (SbError.when (drbg.reseed_counter = 0) SB_ERROR_DRBG_UNINITIALIZED 0)) = 0 ↔
      drbg.reseed_counter ≠ 0 ∧ 32 ≤ entropy.length ∧ entropy.length ≤ 1024 ∧
        additional.length ≤ 1024 := by
    rw [SbError.when_eq_zero (by decide), SbError.when_eq_zero (by decide),
      SbError.when_eq_zero (by decide)]
    simp only [SB_HMAC_DRBG_MIN_ENTROPY_INPUT_LENGTH, SB_HMAC_DRBG_MAX_ENTROPY_INPUT_LENGTH,
      SB_HMAC_DRBG_MAX_ADDITIONAL_INPUT_LENGTH, and_true]
    omega
  rw [sbHmacDrbgReseed]
  dsimp only
  split
  · next herr =>
      exact ⟨haccepts, fun hzero => absurd hzero herr, fun _ => rfl⟩
  · next hnone =>
      have hbounds := haccepts.1 (not_not.1 hnone)
      have hflatten : [entropy, additional, [], []].flatten = entropy ++ additional := by simp
      have hsome : entropy ++ additional ≠ [] := by
        intro hempty
        have hzero := congrArg List.length hempty
        simp only [List.length_append, List.length_nil] at hzero
        omega
      have hseed := (h.updateVec [entropy, additional, [], []] true
        (by rw [hflatten, List.length_append]; omega)
        (by rw [hflatten]; exact ⟨fun _ => hsome, fun _ => rfl⟩)).1
      rw [hflatten] at hseed
      exact ⟨⟨fun _ => hbounds, fun _ => rfl⟩,
        fun _ => ⟨⟨hseed.key, hseed.length_key, hseed.v⟩, rfl⟩, fun hne => absurd rfl hne⟩

/-- The requests that are accepted. -/
theorem generateError_eq_zero_iff {drbg : SbHmacDrbgState} {output_len total : Nat}
    {required : Bool} :
    drbg.generateError output_len total required = 0 ↔
      drbg.reseed_counter ≠ 0 ∧ drbg.reseed_counter ≤ 1024 ∧ output_len ≤ 1024 ∧
        total ≤ 1024 ∧ (required = true → total ≠ 0) := by
  rw [SbHmacDrbgState.generateError, SbError.when_eq_zero (by decide),
    SbError.when_eq_zero (by decide), SbError.when_eq_zero (by decide),
    SbError.when_eq_zero (by decide), SbError.when_eq_zero (by decide)]
  simp only [SB_HMAC_DRBG_RESEED_INTERVAL, SB_HMAC_DRBG_MAX_ADDITIONAL_INPUT_LENGTH,
    SB_HMAC_DRBG_MAX_BYTES_PER_REQUEST, not_and, gt_iff_lt, Nat.not_lt, and_true]
  tauto

/-- A request that is accepted gives the bytes of the standard, and any other
one leaves the state as it was. -/
theorem sbHmacDrbgGenerate_spec {drbg : SbHmacDrbgState} {d : Drbg} (h : drbg.Represents d)
    (output_len : Nat) (additional : List Bytes) (required : Bool) :
    (drbg.generateError output_len additional.flatten.length required = 0 →
      ∃ drbg', sbHmacDrbgGenerateAdditionalVecOpt drbg output_len additional required =
          (0, drbg', (Drbg.generate standardSha256 additional.flatten output_len d).2) ∧
        drbg'.Represents (Drbg.generate standardSha256 additional.flatten output_len d).1 ∧
        drbg'.reseed_counter = drbg.reseed_counter + 1) ∧
      ∀ err, drbg.generateError output_len additional.flatten.length required = err → err ≠ 0 →
        sbHmacDrbgGenerateAdditionalVecOpt drbg output_len additional required =
          (err, drbg, []) := by
  have hsum : (additional.map List.length).sum = additional.flatten.length :=
    List.length_flatten.symm
  rw [sbHmacDrbgGenerateAdditionalVecOpt, hsum]
  dsimp only
  refine ⟨fun herr => ?_, fun err herr hne => ?_⟩
  · obtain ⟨-, -, -, htotal, -⟩ := generateError_eq_zero_iff.1 herr
    have hlen : additional.flatten.length ≤ 4096 := htotal.trans (by decide)
    have hpos : additional.flatten.length > 0 ↔ additional.flatten ≠ [] := List.length_pos_iff
    have hany : decide (additional.flatten.length > 0) = true ↔ additional.flatten ≠ [] :=
      decide_eq_true_iff.trans hpos
    generalize hprovided : decide (additional.flatten.length > 0) = any at hany ⊢
    rw [if_neg (not_not.2 herr), Drbg.generate]
    obtain ⟨first, hfirst⟩ : ∃ first, first = if additional.flatten.length > 0 then
        sbHmacDrbgUpdateVec drbg additional any else drbg := ⟨_, rfl⟩
    have hstart : first.Represents (if additional.flatten = [] then d
        else Drbg.update standardSha256 additional.flatten d) ∧
        first.reseed_counter = drbg.reseed_counter := by
      rw [hfirst]
      by_cases hnone : additional.flatten = []
      · rw [if_neg (fun hgt => hpos.1 hgt hnone), if_pos hnone]
        exact ⟨h, rfl⟩
      · rw [if_pos (hpos.2 hnone), if_neg hnone]
        exact h.updateVec additional any hlen hany
    rw [← hfirst]
    obtain ⟨hout, hcount, hbytes⟩ := hstart.1.produce output_len
    generalize first.produce output_len = produced at hout hcount hbytes ⊢
    obtain ⟨hlast, hcount'⟩ := hout.updateVec additional any hlen hany
    refine ⟨_, Prod.ext rfl (Prod.ext rfl hbytes), ⟨hlast.key, hlast.length_key, hlast.v⟩, ?_⟩
    show _ + 1 = _ + 1
    rw [hcount', hcount, hstart.2]
  · rw [herr, if_pos hne]

theorem fst_generate (drbg : SbHmacDrbgState) (output_len : Nat) (additional : List Bytes)
    (required : Bool) :
    (sbHmacDrbgGenerateAdditionalVecOpt drbg output_len additional required).1 =
      drbg.generateError output_len additional.flatten.length required := by
  rw [sbHmacDrbgGenerateAdditionalVecOpt, ← List.length_flatten]
  dsimp only
  split
  · rfl
  · next hnone => exact (not_not.1 hnone).symm

theorem SbHmacDrbgState.Represents.generate {drbg : SbHmacDrbgState} {d : Drbg}
    (h : drbg.Represents d) {output_len : Nat} {additional : List Bytes} {required : Bool}
    (haccepts :
      (sbHmacDrbgGenerateAdditionalVecOpt drbg output_len additional required).1 = 0) :
    (sbHmacDrbgGenerateAdditionalVecOpt drbg output_len additional required).2.2 =
        (Drbg.generate standardSha256 additional.flatten output_len d).2 ∧
      (sbHmacDrbgGenerateAdditionalVecOpt drbg output_len additional required).2.1.Represents
        (Drbg.generate standardSha256 additional.flatten output_len d).1 := by
  rw [fst_generate] at haccepts
  obtain ⟨drbg', hresult, hnext, -⟩ :=
    (sbHmacDrbgGenerate_spec h output_len additional required).1 haccepts
  rw [hresult]
  exact ⟨rfl, hnext⟩

/-- The request that takes no additional input. -/
theorem sbHmacDrbgGenerate_none {drbg : SbHmacDrbgState} {d : Drbg} (h : drbg.Represents d)
    (output_len : Nat) :
    ((sbHmacDrbgGenerate drbg output_len).1 = 0 ↔
      drbg.reseed_counter ≠ 0 ∧ drbg.reseed_counter ≤ 1024 ∧ output_len ≤ 1024) ∧
    ((sbHmacDrbgGenerate drbg output_len).1 = 0 →
      (sbHmacDrbgGenerate drbg output_len).2.2 =
          (Drbg.generate standardSha256 [] output_len d).2 ∧
        (sbHmacDrbgGenerate drbg output_len).2.1.Represents
          (Drbg.generate standardSha256 [] output_len d).1) := by
  refine ⟨?_, h.generate⟩
  rw [sbHmacDrbgGenerate, fst_generate, generateError_eq_zero_iff]
  simp

/-- The request that does not go without. -/
theorem sbHmacDrbgGenerate_some {drbg : SbHmacDrbgState} {d : Drbg} (h : drbg.Represents d)
    (output_len : Nat) (additional : List Bytes) :
    ((sbHmacDrbgGenerateAdditionalVec drbg output_len additional).1 = 0 ↔
      drbg.reseed_counter ≠ 0 ∧ drbg.reseed_counter ≤ 1024 ∧ output_len ≤ 1024 ∧
        additional.flatten.length ≤ 1024 ∧ additional.flatten ≠ []) ∧
    ((sbHmacDrbgGenerateAdditionalVec drbg output_len additional).1 = 0 →
      (sbHmacDrbgGenerateAdditionalVec drbg output_len additional).2.2 =
          (Drbg.generate standardSha256 additional.flatten output_len d).2 ∧
        (sbHmacDrbgGenerateAdditionalVec drbg output_len additional).2.1.Represents
          (Drbg.generate standardSha256 additional.flatten output_len d).1) := by
  refine ⟨?_, h.generate⟩
  rw [sbHmacDrbgGenerateAdditionalVec, fst_generate, generateError_eq_zero_iff,
    ne_eq _ [], ← List.length_eq_zero_iff]
  simp only [forall_const, ne_eq]

/-! ## Runs -/

/-- Requests one after the other: every error, and every output. -/
def SbHmacDrbgState.run : SbHmacDrbgState → List (Nat × List Bytes) → List (SbError × Bytes)
  | _, [] => []
  | drbg, (output_len, additional) :: requests =>
      let result := sbHmacDrbgGenerateAdditionalVecOpt drbg output_len additional false
      (result.1, result.2.2) :: result.2.1.run requests

theorem SbHmacDrbgState.Represents.run {drbg : SbHmacDrbgState} {d : Drbg}
    (h : drbg.Represents d) (hstarted : drbg.reseed_counter ≠ 0)
    {requests : List (Nat × List Bytes)} (hcount : drbg.reseed_counter + requests.length ≤ 1025)
    (hsmall : ∀ request ∈ requests, request.1 ≤ 1024 ∧ request.2.flatten.length ≤ 1024) :
    drbg.run requests = (Drbg.run standardSha256
      (requests.map fun request => (request.1, request.2.flatten)) d).map fun out => (0, out) := by
  induction requests generalizing drbg d with
  | nil => rfl
  | cons request requests ih =>
      obtain ⟨output_len, additional⟩ := request
      rw [List.length_cons] at hcount
      obtain ⟨hlen, htotal⟩ := hsmall _ List.mem_cons_self
      obtain ⟨drbg', hresult, hnext, hcount'⟩ :=
        (sbHmacDrbgGenerate_spec h output_len additional false).1
          (generateError_eq_zero_iff.2 ⟨hstarted, by omega, hlen, htotal,
            fun hnone => Bool.noConfusion hnone⟩)
      have hrest := ih hnext (by omega) (by omega)
        fun request hmem => hsmall request (List.mem_cons_of_mem _ hmem)
      rw [SbHmacDrbgState.run, hresult, hrest, List.map_cons, Drbg.run, List.map_cons]

/-- After a start that succeeds, up to 1024 requests within the bounds all
succeed and give the outputs of the standard. -/
theorem sbHmacDrbg_run {entropy nonce personalization : Bytes}
    {requests : List (Nat × List Bytes)}
    (hinit : (sbHmacDrbgInit entropy nonce personalization).1 = 0)
    (hcount : requests.length ≤ 1024)
    (hsmall : ∀ request ∈ requests, request.1 ≤ 1024 ∧ request.2.flatten.length ≤ 1024) :
    (sbHmacDrbgInit entropy nonce personalization).2.run requests =
      (Drbg.run standardSha256 (requests.map fun request => (request.1, request.2.flatten))
        (Drbg.instantiate standardSha256 (entropy ++ nonce ++ personalization))).map
          fun out => (0, out) := by
  obtain ⟨hrepresents, hone⟩ := (sbHmacDrbgInit_spec entropy nonce personalization).2 hinit
  exact hrepresents.run (by omega) (by omega) hsmall

/-- A generator that is reseeded goes on for as many requests. -/
theorem sbHmacDrbgReseed_run {drbg : SbHmacDrbgState} {d : Drbg} (h : drbg.Represents d)
    {entropy additional : Bytes} {requests : List (Nat × List Bytes)}
    (hreseed : (sbHmacDrbgReseed drbg entropy additional).1 = 0)
    (hcount : requests.length ≤ 1024)
    (hsmall : ∀ request ∈ requests, request.1 ≤ 1024 ∧ request.2.flatten.length ≤ 1024) :
    (sbHmacDrbgReseed drbg entropy additional).2.run requests =
      (Drbg.run standardSha256 (requests.map fun request => (request.1, request.2.flatten))
        (Drbg.update standardSha256 (entropy ++ additional) d)).map fun out => (0, out) := by
  obtain ⟨hrepresents, hone⟩ := (sbHmacDrbgReseed_spec h entropy additional).2.1 hreseed
  exact hrepresents.run (by omega) (by omega) hsmall

theorem sbHmacDrbg_run_two :
    (sbHmacDrbgInit (List.replicate 32 7) (List.replicate 16 9) []).2.run
        [(40, []), (5, [[1], [2, 3]])] =
      (Drbg.run standardSha256 [(40, []), (5, [1, 2, 3])]
        (Drbg.instantiate standardSha256 (List.replicate 32 7 ++ List.replicate 16 9 ++ []))).map
          fun out => (0, out) :=
  sbHmacDrbg_run ((sbHmacDrbgInit_spec (List.replicate 32 7) (List.replicate 16 9) []).1.2
    ⟨by decide, by decide, by decide, by decide, by decide⟩) (by decide) (by decide)

end DataProcessor
