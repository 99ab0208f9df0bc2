import DataProcessor.Model.SweetB
import DataProcessor.Proofs.RawSign
import DataProcessor.Proofs.SharedKeys

/-!
# What the native signer copies

A native function does what it should exactly when every array it is given
has the size of the local array it is copied to. `SweetBSigner.kt` checks no
length and neither does `GenericEcdsa.kt`: the device's own public key is cut
from the file in the right length, and a private key that was created or
decrypted has it, but the empty key of a failed `try` and the peer's key of
a script go down as they are. Over every library a call is answered alike,
whatever the local arrays held, exactly when it copies as it should:
`contained_iff_answer`.

What is listed of a signer's call is all it hears of the library,
`sharedKeyInput_congr` and its like: with every array of the right size the
call does not depend on what the local arrays held.
-/

namespace DataProcessor

open Lib

namespace NativeCall

/-- Every copy loop of the call stays inside its array and writes all of it. -/
def Contained (call : NativeCall) : Prop := ∀ copy ∈ call.copies, Covers copy.1 copy.2

theorem contained_iff (call : NativeCall) :
    call.Contained ↔ ∀ copy ∈ call.copies, copy.2.length = copy.1 := by
  have hne : (0 : UInt8) ≠ 1 := by decide
  unfold Contained
  simp only [covers_iff hne]

/-- Such a call is answered, and alike whatever the local arrays held. -/
theorem Contained.answer_eq {call : NativeCall} (h : call.Contained) (lib : SweetBLib)
    (locals : Locals) (curve : Int) :
    (call.answer lib locals curve).isSome ∧
      ∀ locals', call.answer lib locals' curve = call.answer lib locals curve := by
  cases call with
  | jniComputePublicKey key =>
      obtain ⟨copied, hcopied⟩ := (h ⟨32, key⟩ (by simp [copies])).exists_eq locals.privateKey
      simp only [answer, DataProcessor.jniComputePublicKey, hcopied, Option.bind_eq_bind,
        Option.bind_some, implies_true, and_true]
      split <;> rfl
  | jniCompressPublicKey key =>
      obtain ⟨copied, hcopied⟩ := (h ⟨64, key⟩ (by simp [copies])).exists_eq locals.publicKey
      simp only [answer, DataProcessor.jniCompressPublicKey, hcopied, Option.bind_eq_bind,
        Option.bind_some, implies_true, and_true]
      split <;> rfl
  | jniVerifyPublicKey key =>
      obtain ⟨copied, hcopied⟩ := (h ⟨64, key⟩ (by simp [copies])).exists_eq locals.publicKey
      simp only [answer, DataProcessor.jniVerifyPublicKey, hcopied, Option.bind_eq_bind,
        Option.bind_some, implies_true, and_true]
      rfl
  | jniSignMessageDigest key message =>
      obtain ⟨copied, hcopied⟩ := (h ⟨32, key⟩ (by simp [copies])).exists_eq locals.privateKey
      obtain ⟨digest, hdigest⟩ :=
        (h ⟨32, message⟩ (by simp [copies])).exists_eq locals.messageDigest
      simp only [answer, DataProcessor.jniSignMessageDigest, hcopied, hdigest,
        Option.bind_eq_bind, Option.bind_some, implies_true, and_true]
      split <;> rfl
  | jniGenerateSharedSecret privateKey publicKey =>
      obtain ⟨copied, hcopied⟩ :=
        (h ⟨32, privateKey⟩ (by simp [copies])).exists_eq locals.privateKey
      obtain ⟨peer, hpeer⟩ :=
        (h ⟨64, publicKey⟩ (by simp [copies])).exists_eq locals.publicKey
      simp only [answer, DataProcessor.jniGenerateSharedSecret, hcopied, hpeer,
        Option.bind_eq_bind, Option.bind_some, implies_true, and_true]
      split <;> rfl

/-! A library that refuses some of what is copied shows what was copied. -/

def verdict (accepts : Bool) : Nat := if accepts then SB_SUCCESS else 1

/-- Accepts by the private key, the public key and the digest. -/
def probe (privateKey : SbSingle → Bool) (publicKey : SbDouble → Bool)
    (digest : SbSingle → Bool) : SweetBLib where
  sbSwComputePublicKey key _ := (verdict (privateKey key), Vector.replicate 64 0)
  sbSwCompressPublicKey key _ := (verdict (publicKey key), Vector.replicate 32 0, false)
  sbSwSharedSecret key peer _ :=
    (verdict (privateKey key && publicKey peer), Vector.replicate 32 0)
  sbSwSignMessageDigest key message _ :=
    (verdict (privateKey key && digest message), Vector.replicate 64 0)
  sbSwValidPublicKey key _ := verdict (publicKey key)

/-- A copy that is followed by a test, whatever the test, and by nothing that
depends on it otherwise. -/
theorem covers_of_tested {γ : Type} {n : Nat} {src : Bytes} (rest : Bool → Option γ)
    (hrest : (rest true).isSome → rest false ≠ rest true)
    (h : ∀ (p : Vector UInt8 n → Bool) dest dest',
      ((copyInto dest 0 src).bind fun copied => rest (p copied)).isSome ∧
        ((copyInto dest' 0 src).bind fun copied => rest (p copied))
          = (copyInto dest 0 src).bind fun copied => rest (p copied)) :
    Covers n src := by
  have hcopies (dest : Vector UInt8 n) : ∃ copied, copyInto dest 0 src = some copied :=
    Option.isSome_iff_exists.1 (Option.isSome_of_isSome_bind (h (fun _ => true) dest dest).1)
  refine ⟨fun dest hnone => ?_, fun dest dest' => ?_⟩
  · obtain ⟨copied, hcopied⟩ := hcopies dest
    rw [hnone] at hcopied
    cases hcopied
  · obtain ⟨copied, hcopied⟩ := hcopies dest
    obtain ⟨copied', hcopied'⟩ := hcopies dest'
    obtain ⟨hsome, hsame⟩ := h (· == copied) dest dest'
    simp only [hcopied, hcopied', Option.bind_some, beq_self_eq_true] at hsome hsame
    rw [hcopied, hcopied']
    by_contra hne
    have hother : (copied' == copied) = false := by
      rw [beq_eq_false_iff_ne]
      exact fun heq => hne (congrArg some heq.symm)
    rw [hother] at hsame
    exact hrest hsome hsame

/-- What a function answers after the test. -/
def afterTest (result : Bytes) (accepts : Bool) : Option (Option Bytes ⊕ Nat) :=
  some (.inl (if accepts then some result else none))

theorem afterTest_ne (result : Bytes) : afterTest result false ≠ afterTest result true := by
  simp [afterTest]

theorem inl_verdict (result : Bytes) (accepts : Bool) :
    (Sum.inl <$> if verdict accepts ≠ SB_SUCCESS then (some none : Option (Option Bytes))
      else some (some result)) = afterTest result accepts := by
  cases accepts <;> rfl

/-- With another copy beside the test. -/
theorem bind_afterTest_ne {n : Nat} {copy : Option (Vector UInt8 n)} {result : Bytes}
    (h : (copy.bind fun _ => afterTest result true).isSome) :
    (copy.bind fun _ => afterTest result false) ≠ copy.bind fun _ => afterTest result true := by
  cases copy with
  | none => cases h
  | some copied => exact afterTest_ne result

section

variable (privateKey : SbSingle → Bool) (publicKey : SbDouble → Bool) (digest : SbSingle → Bool)
  (locals : Locals) (curve : Int) (key peer message : Bytes)

theorem answer_computePublicKey :
    answer (probe privateKey publicKey digest) locals curve (.jniComputePublicKey key)
      = (copyInto locals.privateKey 0 key).bind fun copied =>
          afterTest (List.replicate 64 0) (privateKey copied) := by
  simp only [answer, DataProcessor.jniComputePublicKey, probe]
  cases copyInto locals.privateKey 0 key with
  | none => rfl
  | some copied => exact inl_verdict _ _

theorem answer_compressPublicKey :
    answer (probe privateKey publicKey digest) locals curve (.jniCompressPublicKey key)
      = (copyInto locals.publicKey 0 key).bind fun copied =>
          afterTest (0x02 :: List.replicate 32 0) (publicKey copied) := by
  simp only [answer, DataProcessor.jniCompressPublicKey, probe]
  cases copyInto locals.publicKey 0 key with
  | none => rfl
  | some copied => exact inl_verdict _ _

theorem answer_generateSharedSecret :
    answer (probe privateKey publicKey digest) locals curve (.jniGenerateSharedSecret key peer)
      = (copyInto locals.privateKey 0 key).bind fun copied =>
          (copyInto locals.publicKey 0 peer).bind fun copiedPeer =>
            afterTest (List.replicate 32 0) (privateKey copied && publicKey copiedPeer) := by
  simp only [answer, DataProcessor.jniGenerateSharedSecret, probe]
  cases copyInto locals.privateKey 0 key with
  | none => rfl
  | some copied =>
      cases copyInto locals.publicKey 0 peer with
      | none => rfl
      | some copiedPeer => exact inl_verdict _ _

theorem answer_signMessageDigest :
    answer (probe privateKey publicKey digest) locals curve (.jniSignMessageDigest key message)
      = (copyInto locals.privateKey 0 key).bind fun copied =>
          (copyInto locals.messageDigest 0 message).bind fun copiedMessage =>
            afterTest (List.replicate 64 0) (privateKey copied && digest copiedMessage) := by
  simp only [answer, DataProcessor.jniSignMessageDigest, probe]
  cases copyInto locals.privateKey 0 key with
  | none => rfl
  | some copied =>
      cases copyInto locals.messageDigest 0 message with
      | none => rfl
      | some copiedMessage => exact inl_verdict _ _

theorem answer_verifyPublicKey :
    answer (probe privateKey publicKey digest) locals curve (.jniVerifyPublicKey key)
      = (copyInto locals.publicKey 0 key).bind fun copied =>
          some (.inr (verdict (publicKey copied))) := by
  simp only [answer, DataProcessor.jniVerifyPublicKey, probe]
  cases copyInto locals.publicKey 0 key <;> rfl

end

/-- Nothing but a call that is contained is answered alike over every library,
whatever the local arrays held: any other writes outside of an array, or its
answer shows what an array held. -/
theorem contained_iff_answer {call : NativeCall} (curve : Int) :
    call.Contained ↔ ∀ lib locals locals', (call.answer lib locals curve).isSome ∧
      call.answer lib locals' curve = call.answer lib locals curve := by
  refine ⟨fun h lib locals locals' => ?_, fun h => ?_⟩
  · obtain ⟨hsome, hsame⟩ := h.answer_eq lib locals curve
    exact ⟨hsome, hsame locals'⟩
  have zeros : Locals := ⟨.replicate 32 0, .replicate 64 0, .replicate 32 0⟩
  cases call with
  | jniComputePublicKey key =>
      have hkey : Covers 32 key := by
        refine covers_of_tested (afterTest (List.replicate 64 0)) (fun _ => afterTest_ne _) ?_
        intro p dest dest'
        have hprobe := h (probe p (fun _ => true) fun _ => true)
          { zeros with privateKey := dest } { zeros with privateKey := dest' }
        rwa [answer_computePublicKey, answer_computePublicKey] at hprobe
      simpa [Contained, copies] using hkey
  | jniCompressPublicKey key =>
      have hkey : Covers 64 key := by
        refine covers_of_tested (afterTest (0x02 :: List.replicate 32 0))
          (fun _ => afterTest_ne _) ?_
        intro p dest dest'
        have hprobe := h (probe (fun _ => true) p fun _ => true)
          { zeros with publicKey := dest } { zeros with publicKey := dest' }
        rwa [answer_compressPublicKey, answer_compressPublicKey] at hprobe
      simpa [Contained, copies] using hkey
  | jniVerifyPublicKey key =>
      have hkey : Covers 64 key := by
        refine covers_of_tested
          (fun accepts => some (@Sum.inr (Option Bytes) Nat (verdict accepts)))
          (fun _ => by decide) ?_
        intro p dest dest'
        have hprobe := h (probe (fun _ => true) p fun _ => true)
          { zeros with publicKey := dest } { zeros with publicKey := dest' }
        rwa [answer_verifyPublicKey, answer_verifyPublicKey] at hprobe
      simpa [Contained, copies] using hkey
  | jniSignMessageDigest key message =>
      have hkey : Covers 32 key := by
        refine covers_of_tested (fun accepts => (copyInto zeros.messageDigest 0 message).bind
          fun _ => afterTest (List.replicate 64 0) accepts) bind_afterTest_ne ?_
        intro p dest dest'
        have hprobe := h (probe p (fun _ => true) fun _ => true)
          { zeros with privateKey := dest } { zeros with privateKey := dest' }
        rw [answer_signMessageDigest, answer_signMessageDigest] at hprobe
        simpa only [Bool.and_true] using hprobe
      have hmessage : Covers 32 message := by
        obtain ⟨copied, hcopied⟩ := hkey.exists_eq zeros.privateKey
        refine covers_of_tested (afterTest (List.replicate 64 0)) (fun _ => afterTest_ne _) ?_
        intro p dest dest'
        have hprobe := h (probe (fun _ => true) (fun _ => true) p)
          { zeros with messageDigest := dest } { zeros with messageDigest := dest' }
        rw [answer_signMessageDigest, answer_signMessageDigest] at hprobe
        simpa only [hcopied, Option.bind_some, Bool.true_and] using hprobe
      simpa [Contained, copies] using ⟨hkey, hmessage⟩
  | jniGenerateSharedSecret key peer =>
      have hkey : Covers 32 key := by
        refine covers_of_tested (fun accepts => (copyInto zeros.publicKey 0 peer).bind
          fun _ => afterTest (List.replicate 32 0) accepts) bind_afterTest_ne ?_
        intro p dest dest'
        have hprobe := h (probe p (fun _ => true) fun _ => true)
          { zeros with privateKey := dest } { zeros with privateKey := dest' }
        rw [answer_generateSharedSecret, answer_generateSharedSecret] at hprobe
        simpa only [Bool.and_true] using hprobe
      have hpeer : Covers 64 peer := by
        obtain ⟨copied, hcopied⟩ := hkey.exists_eq zeros.privateKey
        refine covers_of_tested (afterTest (List.replicate 32 0)) (fun _ => afterTest_ne _) ?_
        intro p dest dest'
        have hprobe := h (probe (fun _ => true) p fun _ => true)
          { zeros with publicKey := dest } { zeros with publicKey := dest' }
        rw [answer_generateSharedSecret, answer_generateSharedSecret] at hprobe
        simpa only [hcopied, Option.bind_some, Bool.true_and] using hprobe
      simpa [Contained, copies] using ⟨hkey, hpeer⟩

end NativeCall

namespace SweetBSigner

/-- The two answer the calls of a list alike. -/
structure Agree (signer signer' : SweetBSigner) (calls : List NativeCall) : Prop where
  curveName : signer'.curveName = signer.curveName
  computePublicKey : ∀ key, .jniComputePublicKey key ∈ calls →
    signer'.computePublicKey key = signer.computePublicKey key
  compressPublicKey : ∀ key, .jniCompressPublicKey key ∈ calls →
    signer'.compressPublicKey key = signer.compressPublicKey key
  generateSharedSecret : ∀ privateKey publicKey,
    .jniGenerateSharedSecret privateKey publicKey ∈ calls →
      signer'.generateSharedSecret privateKey publicKey
        = signer.generateSharedSecret privateKey publicKey

theorem Agree.mono {signer signer' : SweetBSigner} {calls calls' : List NativeCall}
    (h : Agree signer signer' calls) (hsub : calls' ⊆ calls) : Agree signer signer' calls' where
  curveName := h.curveName
  computePublicKey key hmem := h.computePublicKey key (hsub hmem)
  compressPublicKey key hmem := h.compressPublicKey key (hsub hmem)
  generateSharedSecret privateKey publicKey hmem :=
    h.generateSharedSecret privateKey publicKey (hsub hmem)

/-- Over one library, calls that are contained are answered alike. -/
theorem agree_native {lib : SweetBLib} {curve : SbCurve} {locals locals' : Locals}
    {beyond beyond' : NativeCall → Result Bytes} {calls : List NativeCall}
    (h : ∀ call ∈ calls, call.Contained) :
    Agree (native lib curve locals beyond) (native lib curve locals' beyond') calls := by
  have halike (call : NativeCall) (hmem : call ∈ calls) {x y : Option (Option Bytes)}
      (hx : call.answer lib locals curve.code = .inl <$> x)
      (hy : call.answer lib locals' curve.code = .inl <$> y) : ∃ a, x = some a ∧ y = some a := by
    obtain ⟨hsome, hsame⟩ := (h call hmem).answer_eq lib locals curve.code
    rw [hx] at hsome
    have hxy := hsame locals'
    rw [hx, hy] at hxy
    have heq : y = x := Option.map_injective Sum.inl_injective hxy
    rw [heq]
    cases x with
    | none => cases hsome
    | some a => exact ⟨a, rfl, rfl⟩
  refine ⟨rfl, fun key hmem => ?_, fun key hmem => ?_, fun privateKey publicKey hmem => ?_⟩
  · obtain ⟨a, hleft, hright⟩ := halike _ hmem rfl rfl
    simp only [native, hleft, hright]
    cases a <;> rfl
  · obtain ⟨a, hleft, hright⟩ := halike _ hmem rfl rfl
    simp only [native, hleft, hright]
    cases a <;> rfl
  · obtain ⟨a, hleft, hright⟩ := halike _ hmem rfl rfl
    simp only [native, hleft, hright]
    cases a <;> rfl

end SweetBSigner

namespace GenericEcdsa

variable {AesKey : Type} {platform : Platform AesKey} {signer signer' : SweetBSigner}

/-! ## The list is all that is heard of the library -/

section

variable {α β : Type} {d : Device AesKey}

theorem run_bind_congr {x x' : OnDevice AesKey α} {f f' : α → OnDevice AesKey β}
    (hx : x'.run d = x.run d) (hf : ∀ a d', Runs x d a d' → (f' a).run d' = (f a).run d') :
    (x' >>= f').run d = (x >>= f).run d := by
  unfold Runs EStateM.run at *
  simp only [Bind.bind, EStateM.bind, hx]
  cases h : x d with
  | ok a d' => exact hf a d' h
  | error e d' => rfl

theorem run_tryCatch_congr {x x' : OnDevice AesKey α} {handler : Exn → OnDevice AesKey α}
    (hx : x'.run d = x.run d) :
    (tryCatch x' handler).run d = (tryCatch x handler).run d := by
  unfold EStateM.run at *
  simp only [MonadExcept.tryCatch, tryCatchThe, MonadExceptOf.tryCatch, EStateM.tryCatch, hx]

theorem device_run_congr {x x' : OnDevice AesKey α} (h : x'.run d = x.run d) :
    d.run x' = d.run x := by
  unfold EStateM.run at h
  rw [Device.run, Device.run, h]

end

theorem generatedKey_iff {key : AesKey} :
    generatedKey platform = .ok key ↔ Generates platform key := generates_iff

theorem createPrivateKeyCalls_eq {key : AesKey} {iv privateKey : Bytes}
    (hopen : platform.outputStream = .ok ()) (hkey : Generates platform key)
    (hiv : platform.initEncrypt key = .ok iv)
    (hrandom : platform.secureRandomBytes = .ok privateKey) :
    createPrivateKeyCalls platform = [.jniComputePublicKey privateKey] := by
  unfold createPrivateKeyCalls
  rw [hopen, ok_bind, generatedKey_iff.2 hkey, ok_bind, hiv, ok_bind, hrandom]

theorem createPrivateKey_congr (h : signer.Agree signer' (createPrivateKeyCalls platform))
    (d : Device AesKey) :
    (createPrivateKey platform signer').run d = (createPrivateKey platform signer).run d := by
  unfold createPrivateKey
  refine run_bind_congr rfl fun _ _ hopen => run_bind_congr rfl fun _ _ _ => ?_
  refine run_bind_congr rfl fun key _ hkey => run_bind_congr rfl fun _ _ _ => ?_
  refine run_bind_congr rfl fun iv _ hiv => run_bind_congr rfl fun privateKey _ hrandom => ?_
  have hcalls := createPrivateKeyCalls_eq (runs_lift_iff.1 hopen).1
    (generates_iff.1 (runs_lift_iff.1 hkey).1) (runs_lift_iff.1 hiv).1
    (runs_lift_iff.1 hrandom).1
  rw [h.computePublicKey privateKey (by rw [hcalls]; simp)]

theorem getOrCreatePrivateKey_congr {d : Device AesKey}
    (h : signer.Agree signer' (getOrCreatePrivateKeyCalls platform d)) (returnKey : Bool) :
    (getOrCreatePrivateKey platform signer' returnKey).run d
      = (getOrCreatePrivateKey platform signer returnKey).run d := by
  unfold getOrCreatePrivateKey
  refine run_bind_congr rfl fun _ d' hload => ?_
  obtain ⟨hload, hd⟩ := runs_lift_iff.1 hload
  rw [hd]
  refine run_bind_congr rfl fun left d'' hget => run_tryCatch_congr ?_
  obtain ⟨hleft, hd'⟩ := runs_get.unique hget
  rw [hleft, hd']
  cases hfile : d.keyFile with
  | some bytes => rfl
  | none =>
      rw [getOrCreatePrivateKeyCalls, hload, hfile] at h
      exact createPrivateKey_congr h d

theorem getPublicKey_congr {d : Device AesKey} {compressed : Bool}
    (h : signer.Agree signer' (getPublicKeyCalls platform signer compressed d)) :
    (getPublicKey platform signer' compressed).run d
      = (getPublicKey platform signer compressed).run d := by
  unfold getPublicKey
  refine run_bind_congr
    (getOrCreatePrivateKey_congr (h.mono (List.subset_append_left _ _)) false) ?_
  intro _ d₁ hkey
  refine run_bind_congr rfl fun _ d₂ hget => run_bind_congr rfl fun _ d₃ hbytes => ?_
  refine run_bind_congr rfl fun _ d₄ hread => run_bind_congr rfl fun publicKey d₅ hslice => ?_
  cases compressed with
  | false => rfl
  | true =>
      have hruns : Runs (getPublicKey platform signer false) d publicKey d₅ :=
        .bind hkey <| .bind hget <| .bind hbytes <| .bind hread <| .bind hslice runs_pure
      simp only [if_true]
      rw [h.compressPublicKey publicKey (by simp [getPublicKeyCalls, hruns.run])]

theorem sharedKeyInput_congr {d : Device AesKey} {peer : Bytes}
    (h : signer.Agree signer' (generateSharedKeyCalls platform signer peer d)) (salt : Bytes) :
    (sharedKeyInput platform signer' peer salt).run d
      = (sharedKeyInput platform signer peer salt).run d := by
  unfold sharedKeyInput
  refine run_bind_congr
    (getOrCreatePrivateKey_congr (h.mono (List.subset_append_left _ _)) true) ?_
  intro privateKey d₁ hkey
  unfold Runs at hkey
  unfold generateSharedKeyCalls at h
  rw [hkey] at h
  simp only [] at h
  refine run_bind_congr ?_ fun secret d₂ hsecret => ?_
  · rw [h.generateSharedSecret privateKey peer (by simp)]
  · obtain ⟨hok, hd⟩ := runs_lift_iff.1 hsecret
    rw [hd]
    rw [hok] at h
    refine run_bind_congr (getPublicKey_congr (h.mono ?_)) fun publicKey d₃ _ => ?_
    · intro call hmem
      simp [hmem]
    · rw [label, label, h.curveName]

end GenericEcdsa

namespace SignerCall

variable {AesKey : Type} {platform : Platform AesKey} {signer signer' : SweetBSigner}
  {d : Device AesKey} {hexToBa : String → Result Bytes}

section

variable {tink : Tink} {sign : Bytes → Bytes → Result Bytes} {nonce : Nonce}

theorem rawStreamEncrypt_congr {peer : Bytes}
    (h : signer.Agree signer' (GenericEcdsa.generateSharedKeyCalls platform signer peer d))
    (salt payload : Bytes) :
    (GenericEcdsa.crypto platform signer' tink sign nonce d).rawStreamEncrypt peer salt payload
      = (GenericEcdsa.crypto platform signer tink sign nonce d).rawStreamEncrypt peer salt
          payload :=
  GenericEcdsa.device_run_congr <|
    GenericEcdsa.run_bind_congr (GenericEcdsa.sharedKeyInput_congr h salt) fun _ _ _ => rfl

theorem rawStreamDecrypt_congr {peer : Bytes}
    (h : signer.Agree signer' (GenericEcdsa.generateSharedKeyCalls platform signer peer d))
    (salt encrypted : Bytes) :
    (GenericEcdsa.crypto platform signer' tink sign nonce d).rawStreamDecrypt peer salt encrypted
      = (GenericEcdsa.crypto platform signer tink sign nonce d).rawStreamDecrypt peer salt
          encrypted :=
  GenericEcdsa.device_run_congr <|
    GenericEcdsa.run_bind_congr (GenericEcdsa.sharedKeyInput_congr h salt) fun _ _ _ => rfl

/-- A script's call gets to the signer with decoded arguments, or raises. -/
theorem encrypt_congr {parameters : List V8Value} {crypto crypto' : ICrypto}
    (h : ∀ peer, decodedPeer hexToBa parameters = some peer → ∀ salt payload,
      crypto'.rawStreamEncrypt peer salt payload = crypto.rawStreamEncrypt peer salt payload) :
    Signers.encrypt hexToBa crypto' parameters = Signers.encrypt hexToBa crypto parameters := by
  unfold Signers.encrypt
  cases h0 : Signers.hexArgument hexToBa (argument parameters 0) with
  | error e => rfl
  | ok peer =>
      cases h1 : Signers.hexArgument hexToBa (argument parameters 1) with
      | error e => rfl
      | ok salt =>
          cases h2 : Signers.hexArgument hexToBa (argument parameters 2) with
          | error e => rfl
          | ok payload =>
              have hpeer : decodedPeer hexToBa parameters = some peer := by
                rw [decodedPeer, h0, h1, h2]
              simp only [ok_bind]
              rw [h peer hpeer salt payload]

theorem nativeCalls_of_peer {call : SignerCall} {peer : Bytes}
    (h : call.peer hexToBa = some peer) : call.nativeCalls hexToBa platform signer d
      = GenericEcdsa.generateSharedKeyCalls platform signer peer d := by
  cases call with
  | getPublicKey compressed => cases h
  | rawSign payload => cases h
  | _ => simp only [nativeCalls, h]

/-- A call whose native calls two libraries answer alike is answered alike
over both. -/
theorem run_congr {call : SignerCall}
    (h : signer.Agree signer' (call.nativeCalls hexToBa platform signer d)) :
    call.run hexToBa (GenericEcdsa.crypto platform signer' tink sign nonce d)
      = call.run hexToBa (GenericEcdsa.crypto platform signer tink sign nonce d) := by
  cases call with
  | getPublicKey compressed =>
      refine congrArg (Functor.map Sum.inl) (GenericEcdsa.device_run_congr ?_)
      exact GenericEcdsa.getPublicKey_congr h
  | rawSign payload =>
      refine congrArg (Functor.map Sum.inl) (GenericEcdsa.device_run_congr ?_)
      exact GenericEcdsa.run_bind_congr (GenericEcdsa.getOrCreatePrivateKey_congr h true)
        fun _ _ _ => rfl
  | rawStreamEncrypt peer salt payload =>
      exact congrArg (Functor.map Sum.inl) (rawStreamEncrypt_congr h salt payload)
  | rawStreamDecrypt peer salt encrypted =>
      exact congrArg (Functor.map Sum.inl) (rawStreamDecrypt_congr h salt encrypted)
  | encrypt parameters =>
      refine congrArg (Functor.map Sum.inr) (encrypt_congr fun peer hpeer salt payload => ?_)
      rw [@nativeCalls_of_peer _ _ _ _ _ (.encrypt parameters) _ hpeer] at h
      exact rawStreamEncrypt_congr h salt payload
  | decrypt parameters =>
      refine congrArg (Functor.map Sum.inr) (encrypt_congr fun peer hpeer salt payload => ?_)
      rw [@nativeCalls_of_peer _ _ _ _ _ (.decrypt parameters) _ hpeer] at h
      exact rawStreamEncrypt_congr h salt payload

end

end SignerCall

/-! ## The sizes -/

namespace GenericEcdsa

variable {AesKey : Type} {platform : Platform AesKey} {signer : SweetBSigner}
  {aesGcm : AesGcm AesKey} {d d' : Device AesKey} {privateKey publicKey : Bytes}

/-- No step inside the `try` fails, for a call that wants the key. -/
def TryPasses (platform : Platform AesKey) (signer : SweetBSigner) (d : Device AesKey) : Prop :=
  match d.keyFile with
  | none => ∃ key iv privateKey publicKey encrypted,
      Creates platform signer key iv privateKey publicKey encrypted
  | some bytes => ∃ secretKey iv encrypted privateKey,
      Reads platform bytes d.encrypter secretKey iv encrypted privateKey

theorem tryPasses_iff : TryPasses platform signer d ↔
    ∃ privateKey d', Runs (attempt platform signer d) d privateKey d' := by
  unfold TryPasses
  split
  · next hfile =>
      rw [attempt_none hfile]
      simp only [runs_createPrivateKey_iff]
      grind
  · next bytes hfile =>
      rw [attempt_some hfile]
      simp only [runs_readPrivateKey_iff]
      grind

theorem length_privateKey (hfollows : Follows platform aesGcm)
    (h : Runs (attempt platform signer d) d privateKey d') : privateKey.length = 32 := by
  cases hfile : d.keyFile with
  | none =>
      rw [attempt_none hfile, runs_createPrivateKey_iff] at h
      obtain ⟨key, iv, publicKey, encrypted, hcreates, -⟩ := h
      exact hfollows.privateKey_length _ hcreates.secureRandomBytes
  | some bytes =>
      rw [attempt_some hfile, runs_readPrivateKey_iff] at h
      obtain ⟨-, secretKey, iv, encrypted, hreads⟩ := h
      have hplain := hfollows.decrypt_length _ _ _ _
        (hfollows.decrypt_eq _ _ _ _ hreads.decrypt)
      rw [length_sliceArray (by decide) hreads.slice_encrypted] at hplain
      omega

theorem contained_getOrCreatePrivateKeyCalls (hfollows : Follows platform aesGcm) :
    ∀ call ∈ getOrCreatePrivateKeyCalls platform d, call.Contained := by
  intro call hmem
  unfold getOrCreatePrivateKeyCalls at hmem
  split at hmem
  · unfold createPrivateKeyCalls at hmem
    split at hmem
    · next privateKey hok =>
        obtain ⟨_, -, hok⟩ := bind_ok.1 hok
        obtain ⟨key, -, hok⟩ := bind_ok.1 hok
        obtain ⟨iv, -, hrandom⟩ := bind_ok.1 hok
        rw [List.mem_singleton.1 hmem, NativeCall.contained_iff]
        simpa [NativeCall.copies] using hfollows.privateKey_length _ hrandom
    · cases hmem
  · cases hmem

theorem runs_of_run {α : Type} {x : OnDevice AesKey α} {a : α} (h : d.run x = .ok a) :
    ∃ d', Runs x d a d' := by
  rw [Device.run] at h
  split at h
  · next a' d' hx =>
      injection h with h
      exact ⟨d', h ▸ hx⟩
  · cases h

/-- The key that `getPublicKey` returns is cut from the file. -/
theorem length_publicKey (h : d.run (getPublicKey platform signer false) = .ok publicKey) :
    publicKey.length = 64 := by
  obtain ⟨d', hruns⟩ := runs_of_run h
  unfold getPublicKey at hruns
  obtain ⟨_, _, -, hruns⟩ := runs_bind_iff.1 hruns
  obtain ⟨_, _, -, hruns⟩ := runs_bind_iff.1 hruns
  obtain ⟨bytes, _, -, hruns⟩ := runs_bind_iff.1 hruns
  obtain ⟨_, _, -, hruns⟩ := runs_bind_iff.1 hruns
  obtain ⟨slice, _, hslice, hruns⟩ := runs_bind_iff.1 hruns
  rw [(runs_pure_iff.1 hruns).1]
  exact length_sliceArray (by decide) (runs_lift_iff.1 hslice).1

theorem contained_getPublicKeyCalls (hfollows : Follows platform aesGcm) (compressed : Bool) :
    ∀ call ∈ getPublicKeyCalls platform signer compressed d, call.Contained := by
  intro call hmem
  rcases List.mem_append.1 hmem with hcreate | hcompress
  · exact contained_getOrCreatePrivateKeyCalls hfollows call hcreate
  · split at hcompress
    · next publicKey hok =>
        cases compressed with
        | false => cases hcompress
        | true =>
            rw [if_pos rfl] at hcompress
            rw [List.mem_singleton.1 hcompress, NativeCall.contained_iff]
            simpa [NativeCall.copies] using length_publicKey hok
    · cases hcompress

theorem mem_generateSharedKeyCalls {peer : Bytes}
    (h : Runs (getOrCreatePrivateKey platform signer true) d privateKey d') :
    .jniGenerateSharedSecret privateKey peer ∈ generateSharedKeyCalls platform signer peer d := by
  unfold Runs at h
  rw [generateSharedKeyCalls, h]
  simp

theorem generateSharedKeyCalls_of_load {e : Exn} (hload : platform.load = .error e)
    (peer : Bytes) : generateSharedKeyCalls platform signer peer d = [] := by
  have hraises : (getOrCreatePrivateKey platform signer true).run d = .error e d := by
    rw [getOrCreatePrivateKey, hload]
    rfl
  rw [generateSharedKeyCalls, hraises, getOrCreatePrivateKeyCalls, hload]
  rfl

theorem contained_generateSharedSecret_iff {peer : Bytes} :
    (NativeCall.jniGenerateSharedSecret privateKey peer).Contained ↔
      privateKey.length = 32 ∧ peer.length = 64 := by
  rw [NativeCall.contained_iff]
  simp [NativeCall.copies]

theorem contained_generateSharedKeyCalls (hfollows : Follows platform aesGcm)
    (hload : platform.load = .ok ()) (hpasses : TryPasses platform signer d) {peer : Bytes}
    (hpeer : peer.length = 64) :
    ∀ call ∈ generateSharedKeyCalls platform signer peer d, call.Contained := by
  intro call hmem
  obtain ⟨privateKey, d', hattempt⟩ := tryPasses_iff.1 hpasses
  have hget : Runs (getOrCreatePrivateKey platform signer true) d privateKey d' :=
    runs_getOrCreatePrivateKey_iff.2 ⟨hload, .inl hattempt⟩
  unfold Runs at hget
  rw [generateSharedKeyCalls, hget] at hmem
  rcases List.mem_append.1 hmem with hcreate | hrest
  · exact contained_getOrCreatePrivateKeyCalls hfollows call hcreate
  · rcases List.mem_cons.1 hrest with hsecret | hpublic
    · rw [hsecret, contained_generateSharedSecret_iff]
      exact ⟨length_privateKey hfollows hattempt, hpeer⟩
    · split at hpublic
      · exact contained_getPublicKeyCalls hfollows true call hpublic
      · cases hpublic

/-- Every array that reaches the library for a peer's key has its size
exactly where no key is asked for, or there is one and the peer's key has 64
bytes. -/
theorem contained_generateSharedKeyCalls_iff (hfollows : Follows platform aesGcm)
    (peer : Bytes) :
    (∀ call ∈ generateSharedKeyCalls platform signer peer d, call.Contained) ↔
      platform.load ≠ .ok () ∨ TryPasses platform signer d ∧ peer.length = 64 := by
  cases hload : platform.load with
  | error e =>
      rw [generateSharedKeyCalls_of_load hload]
      simp
  | ok u =>
      simp only [ne_eq, not_true_eq_false, false_or]
      refine ⟨fun h => ?_, fun hgiven =>
        contained_generateSharedKeyCalls hfollows hload hgiven.1 hgiven.2⟩
      cases hattempt : (attempt platform signer d).run d with
      | ok privateKey d' =>
          have hget := runs_getOrCreatePrivateKey_iff.2 ⟨hload, .inl hattempt⟩
          have hsizes := contained_generateSharedSecret_iff.1
            (h _ (mem_generateSharedKeyCalls hget))
          exact ⟨tryPasses_iff.2 ⟨privateKey, d', hattempt⟩, hsizes.2⟩
      | error e left =>
          have hget := runs_getOrCreatePrivateKey_iff.2
            ⟨hload, .inr ⟨e, left, hattempt, rfl, rfl⟩⟩
          have hsizes := contained_generateSharedSecret_iff.1
            (h _ (mem_generateSharedKeyCalls hget))
          cases hsizes.1

end GenericEcdsa

/-! ## The calls of the signer -/

namespace SignerCall

/-- Everything a call of the signer hands to the library is copied as it
should be, and what the call returns does not depend on what the local
arrays held or on what a write outside of one would do. -/
structure Safe {AesKey : Type} (hexToBa : String → Result Bytes) (platform : Platform AesKey)
    (lib : SweetBLib) (curve : SbCurve) (tink : Tink) (sign : Bytes → Bytes → Result Bytes)
    (nonce : Nonce) (d : Device AesKey) (locals : Locals)
    (beyond : NativeCall → Result Bytes) (call : SignerCall) : Prop where
  contained : ∀ native ∈ call.nativeCalls hexToBa platform
    (.native lib curve locals beyond) d, native.Contained
  determined : ∀ locals' beyond',
    call.run hexToBa (GenericEcdsa.crypto platform (.native lib curve locals' beyond') tink sign
        nonce d)
      = call.run hexToBa (GenericEcdsa.crypto platform (.native lib curve locals beyond) tink
        sign nonce d)

section

variable {AesKey : Type} {platform : Platform AesKey} {aesGcm : AesGcm AesKey}
  {hexToBa : String → Result Bytes} {lib : SweetBLib} {curve : SbCurve} {tink : Tink}
  {sign : Bytes → Bytes → Result Bytes} {nonce : Nonce} {d : Device AesKey}
  {locals : Locals} {beyond : NativeCall → Result Bytes} {call : SignerCall}

/-- Nothing is left to chance in the calls that are contained. -/
theorem safe_iff_contained :
    call.Safe hexToBa platform lib curve tink sign nonce d locals beyond ↔
      ∀ native ∈ call.nativeCalls hexToBa platform (.native lib curve locals beyond) d,
        native.Contained :=
  ⟨Safe.contained, fun h => ⟨h, fun _ _ => run_congr (SweetBSigner.agree_native h)⟩⟩

/-- Without a peer's key nothing but keys of the device's own go down. -/
theorem contained_of_no_peer {signer : SweetBSigner}
    (hfollows : GenericEcdsa.Follows platform aesGcm) (hpeer : call.peer hexToBa = none) :
    ∀ native ∈ call.nativeCalls hexToBa platform signer d, native.Contained := by
  cases call with
  | getPublicKey compressed =>
      exact GenericEcdsa.contained_getPublicKeyCalls hfollows compressed
  | rawSign payload => exact GenericEcdsa.contained_getOrCreatePrivateKeyCalls hfollows
  | rawStreamEncrypt peer salt payload => cases hpeer
  | rawStreamDecrypt peer salt encrypted => cases hpeer
  | encrypt parameters =>
      simp only [nativeCalls, hpeer]
      exact List.forall_mem_nil _
  | decrypt parameters =>
      simp only [nativeCalls, hpeer]
      exact List.forall_mem_nil _

theorem safe_iff_peer (hfollows : GenericEcdsa.Follows platform aesGcm) :
    call.Safe hexToBa platform lib curve tink sign nonce d locals beyond ↔
      ∀ publicKey, call.peer hexToBa = some publicKey →
        platform.load ≠ .ok () ∨
          GenericEcdsa.TryPasses platform (.native lib curve locals beyond) d ∧
            publicKey.length = 64 := by
  rw [safe_iff_contained]
  cases hpeer : call.peer hexToBa with
  | none => exact iff_of_true (contained_of_no_peer hfollows hpeer) (by simp)
  | some publicKey =>
      rw [nativeCalls_of_peer hpeer,
        GenericEcdsa.contained_generateSharedKeyCalls_iff hfollows publicKey]
      simp

end

/-- A native call is contained exactly when its arrays have the sizes of the
local ones, and a call of the signer is safe exactly when it does not come to
a peer's key, raises before it has a key, or no step in the `try` fails and
the peer's key has 64 bytes. -/
theorem safe_iff {AesKey : Type} {platform : Platform AesKey} {aesGcm : AesGcm AesKey}
    (hfollows : GenericEcdsa.Follows platform aesGcm) (hexToBa : String → Result Bytes)
    (lib : SweetBLib) (curve : SbCurve) (tink : Tink) (sign : Bytes → Bytes → Result Bytes)
    (nonce : Nonce) (d : Device AesKey) (locals : Locals)
    (beyond : NativeCall → Result Bytes) :
    (∀ native : NativeCall, native.Contained ↔
      ∀ copy ∈ native.copies, copy.2.length = copy.1) ∧
    ∀ call : SignerCall,
      call.Safe hexToBa platform lib curve tink sign nonce d locals beyond ↔
        ∀ publicKey, call.peer hexToBa = some publicKey →
          platform.load ≠ .ok () ∨
            GenericEcdsa.TryPasses platform (.native lib curve locals beyond) d ∧
              publicKey.length = 64 :=
  ⟨NativeCall.contained_iff, fun _ => safe_iff_peer hfollows⟩

/-! ## The library on the private key 1

Its public key is the generator, and its secret with a peer the peer's first
coordinate. -/

end SignerCall

def generatorKey : SbDouble :=
  Vector.ofFn fun i => (toBE 32 generatorX ++ toBE 32 generatorY).getD i 0

def libOne : SweetBLib where
  sbSwComputePublicKey privateKey _ :=
    if privateKey.toList = toBE 32 1 then (SB_SUCCESS, generatorKey)
    else (1, Vector.replicate 64 0)
  sbSwCompressPublicKey publicKey _ :=
    (SB_SUCCESS, Vector.ofFn fun i => publicKey[i.val], publicKey[63] % 2 = 1)
  sbSwSharedSecret privateKey publicKey _ :=
    if privateKey.toList = toBE 32 1 then
      (SB_SUCCESS, Vector.ofFn fun i => publicKey[i.val])
    else (1, Vector.replicate 32 0)
  sbSwSignMessageDigest _ _ _ := (1, Vector.replicate 64 0)
  sbSwValidPublicKey publicKey _ := if publicKey = generatorKey then SB_SUCCESS else 1

/-- Local arrays full of one byte, and full of a private key 1. -/
def localsOf (b : UInt8) : Locals where
  privateKey := Vector.replicate 32 b
  publicKey := Vector.replicate 64 b
  messageDigest := Vector.replicate 32 b

def localsOne : Locals :=
  { localsOf 0 with privateKey := (Vector.replicate 32 0).set 31 1 }

/-- A script that encrypts nothing to a key. -/
def encryptTo (peer : Bytes) : SignerCall :=
  .encrypt [.string (toHex peer), .string (toHex []), .string (toHex [])]

namespace SignerCall

theorem peer_encryptTo (peer : Bytes) :
    (encryptTo peer).peer hexStringToByteArray = some peer := by
  have hdecodes (bytes : Bytes) :
      Signers.hexArgument hexStringToByteArray (.string (toHex bytes)) = .ok bytes :=
    hexStringToByteArray_toHex bytes
  unfold encryptTo SignerCall.peer decodedPeer
  simp only [argument, List.getD_cons_zero, List.getD_cons_succ, hdecodes]

theorem not_safe_of_answer {AesKey : Type} {hexToBa : String → Result Bytes}
    {platform : Platform AesKey} {lib : SweetBLib} {curve : SbCurve} {tink : Tink}
    {sign : Bytes → Bytes → Result Bytes} {nonce : Nonce} {d : Device AesKey}
    {locals : Locals} {beyond : NativeCall → Result Bytes} {call : SignerCall}
    {native : NativeCall}
    (hmem : native ∈ call.nativeCalls hexToBa platform (.native lib curve locals beyond) d)
    (h : ∃ locals', native.answer lib locals' curve.code = none ∨
      native.answer lib locals' curve.code ≠ native.answer lib locals curve.code) :
    ¬ call.Safe hexToBa platform lib curve tink sign nonce d locals beyond := by
  intro hsafe
  obtain ⟨hsome, hsame⟩ := (hsafe.contained native hmem).answer_eq lib locals curve.code
  obtain ⟨locals', hnone | hdiffers⟩ := h
  · rw [← hsame locals', hnone] at hsome
    cases hsome
  · exact hdiffers (hsame locals')

/-- The call on the device with the private key 1. -/
def SafeOne (platform : Platform Unit) (peer : Bytes) : Prop :=
  (encryptTo peer).Safe hexStringToByteArray platform libOne .SB_SW_CURVE_SECP256K1 sivTink
    GenericEcdsa.signOne zeroNonce GenericEcdsa.deviceOne (localsOf 0) fun _ => .ok []

def callsOne (platform : Platform Unit) (peer : Bytes) : List NativeCall :=
  (encryptTo peer).nativeCalls hexStringToByteArray platform
    (.native libOne .SB_SW_CURVE_SECP256K1 (localsOf 0) fun _ => .ok []) GenericEcdsa.deviceOne

theorem mem_callsOne {platform : Platform Unit} {privateKey : Bytes} {d' : Device Unit}
    (h : GenericEcdsa.Runs (GenericEcdsa.getOrCreatePrivateKey platform
      (.native libOne .SB_SW_CURVE_SECP256K1 (localsOf 0) fun _ => .ok []) true)
      GenericEcdsa.deviceOne privateKey d') (peer : Bytes) :
    .jniGenerateSharedSecret privateKey peer ∈ callsOne platform peer := by
  unfold callsOne
  rw [nativeCalls_of_peer (peer_encryptTo peer)]
  exact GenericEcdsa.mem_generateSharedKeyCalls h

/-- A script that encrypts to the generator. -/
theorem safe_generator :
    (encryptTo (toBE 32 generatorX ++ toBE 32 generatorY)).peer hexStringToByteArray
      = some (toBE 32 generatorX ++ toBE 32 generatorY) ∧
    SafeOne (zeroGcm.platform drawnOne) (toBE 32 generatorX ++ toBE 32 generatorY) := by
  refine ⟨peer_encryptTo _, ?_⟩
  refine ((safe_iff (GenericEcdsa.follows_platform GenericEcdsa.zeroGcm_length drawnOne)
    hexStringToByteArray libOne .SB_SW_CURVE_SECP256K1 sivTink GenericEcdsa.signOne zeroNonce
    GenericEcdsa.deviceOne (localsOf 0) fun _ => .ok []).2 _).2 fun publicKey hpeer => .inr ?_
  rw [peer_encryptTo] at hpeer
  rw [← Option.some.inj hpeer, List.length_append, length_toBE, length_toBE]
  exact ⟨⟨(), _, _, _, GenericEcdsa.reads_storedOne⟩, rfl⟩

/-- A key of 65 bytes is written past its array, a key of one byte leaves 63
bytes of what was there, and after a failed read nothing of the private key
is written. -/
theorem safe_any_key_fails :
    (¬ SafeOne (zeroGcm.platform drawnOne) (List.replicate 65 4) ∧
      ∃ native ∈ callsOne (zeroGcm.platform drawnOne) (List.replicate 65 4),
        ∀ locals, native.answer libOne locals 1 = none) ∧
    (¬ SafeOne (zeroGcm.platform drawnOne) [4] ∧
      ∃ native ∈ callsOne (zeroGcm.platform drawnOne) [4],
        native.answer libOne (localsOf 1) 1 ≠ native.answer libOne (localsOf 0) 1) ∧
    (¬ SafeOne GenericEcdsa.lockedPlatform (toBE 32 generatorX ++ toBE 32 generatorY) ∧
      ∃ native ∈ callsOne GenericEcdsa.lockedPlatform
        (toBE 32 generatorX ++ toBE 32 generatorY),
        native.answer libOne localsOne 1 ≠ native.answer libOne (localsOf 0) 1) := by
  have hstored (peer : Bytes) := mem_callsOne (GenericEcdsa.runs_storedOne _) peer
  have hempty (peer : Bytes) := mem_callsOne (GenericEcdsa.runs_lockedPlatform _) peer
  have hlong (locals : Locals) : NativeCall.answer libOne locals 1
      (.jniGenerateSharedSecret drawnOne.privateKey (List.replicate 65 4)) = none := by
    have houtside : copyInto locals.publicKey 0 (List.replicate 65 4) = none := by
      rw [← Option.not_isSome_iff_eq_none, copyInto_isSome_iff (Nat.zero_le 64)]
      decide
    show Sum.inl <$> jniGenerateSharedSecret libOne locals drawnOne.privateKey _ 1 = none
    simp only [jniGenerateSharedSecret, houtside]
    cases copyInto locals.privateKey 0 drawnOne.privateKey.val <;> rfl
  have hshort : NativeCall.answer libOne (localsOf 1) 1
        (.jniGenerateSharedSecret drawnOne.privateKey [4])
      ≠ NativeCall.answer libOne (localsOf 0) 1
        (.jniGenerateSharedSecret drawnOne.privateKey [4]) := by decide
  have hnokey : NativeCall.answer libOne localsOne 1
        (.jniGenerateSharedSecret [] (toBE 32 generatorX ++ toBE 32 generatorY))
      ≠ NativeCall.answer libOne (localsOf 0) 1
        (.jniGenerateSharedSecret [] (toBE 32 generatorX ++ toBE 32 generatorY)) := by
    decide
  exact ⟨⟨not_safe_of_answer (hstored _) ⟨localsOf 0, .inl (hlong _)⟩,
      _, hstored _, hlong⟩,
    ⟨not_safe_of_answer (hstored _) ⟨localsOf 1, .inr hshort⟩,
      _, hstored _, hshort⟩,
    ⟨not_safe_of_answer (hempty _) ⟨localsOne, .inr hnokey⟩,
      _, hempty _, hnokey⟩⟩

end SignerCall

end DataProcessor
