import DataProcessor.Model.KeyFile

/-!
# When a returned key stays the key

Any failure in a call that found the key file deletes it, and two calls that
both find it missing overwrite each other's. Under `CreatesAlone` neither
happens: `returned_kept` says that once a key was returned the file and its
encryption key never change again and everything returned is that key pair.

The invariant has two phases. Until a creation is over nothing has been
returned, and the file is missing or as far written as its one creator is,
`Unsettled`. From then on nobody creates, the file is whole, and what the
reading calls hold of it is what is in it, `Settled`. No step leads back.
-/

namespace DataProcessor

open Lib

variable {AesKey : Type} {aesGcm : AesGcm AesKey} {sweetBSigner : SweetBSigner}

/-- What the platform documents of itself: the widths, and that decryption
undoes encryption. -/
structure Documented (aesGcm : AesGcm AesKey) (sweetBSigner : SweetBSigner) : Prop where
  publicKey_length : ∀ (privateKey : PrivateKey) publicKey,
    sweetBSigner.computePublicKey privateKey = .ok publicKey → publicKey.length = 64
  encrypt_length : ∀ key (iv : Iv) (privateKey : PrivateKey),
    (aesGcm.encrypt key iv privateKey).length = 48
  decrypt_encrypt : ∀ key (iv : Iv) (privateKey : PrivateKey),
    aesGcm.decrypt key iv (aesGcm.encrypt key iv privateKey) = some privateKey.val

/-- A key pair with what it is stored under. -/
structure StoredKey (AesKey : Type) (sweetBSigner : SweetBSigner) where
  encryptionKey : AesKey
  iv : Iv
  privateKey : PrivateKey
  publicKey : Bytes
  publicKey_eq : sweetBSigner.computePublicKey privateKey = .ok publicKey

def StoredKey.payload (aesGcm : AesGcm AesKey) (p : StoredKey AesKey sweetBSigner) : Bytes :=
  p.publicKey ++ p.iv ++ aesGcm.encrypt p.encryptionKey p.iv p.privateKey

namespace StoredKey

variable (h : Documented aesGcm sweetBSigner) (p : StoredKey AesKey sweetBSigner)
include h

theorem length_payload : (p.payload aesGcm).length = 124 := by
  have hpublic := h.publicKey_length _ _ p.publicKey_eq
  have hiv := p.iv.2
  rw [payload, List.length_append, List.length_append, h.encrypt_length]
  omega

theorem slice_publicKey : sliceArray (p.payload aesGcm) 0 63 = .ok p.publicKey := by
  have hpublic := h.publicKey_length _ _ p.publicKey_eq
  have hlength := p.length_payload h
  rw [sliceArray_ok (by decide) (by omega), payload, List.drop_zero, List.append_assoc,
    List.take_left' hpublic]

theorem slice_iv : sliceArray (p.payload aesGcm) 64 75 = .ok p.iv := by
  have hpublic := h.publicKey_length _ _ p.publicKey_eq
  have hlength := p.length_payload h
  rw [sliceArray_ok (by decide) (by omega), payload, List.append_assoc,
    List.drop_left' hpublic, List.take_left' p.iv.2]

theorem slice_encrypted : sliceArray (p.payload aesGcm) 76 123
    = .ok (aesGcm.encrypt p.encryptionKey p.iv p.privateKey) := by
  have hpublic := h.publicKey_length _ _ p.publicKey_eq
  have hlength := p.length_payload h
  have hiv := p.iv.2
  have hfront : (p.publicKey ++ p.iv.val).length = 76 := by
    rw [List.length_append]
    omega
  rw [sliceArray_ok (by decide) (by omega), payload, List.drop_left' hfront,
    List.take_of_length_le]
  rw [h.encrypt_length]

end StoredKey

/-! ## The disk -/

theorem writeAt_end (content bytes : Bytes) :
    writeAt content content.length bytes = content ++ bytes := by
  simp [writeAt]

namespace Storage

/-- The name stands for a file with these bytes. -/
def At (d : Storage AesKey) (file : Nat) (bytes : Bytes) : Prop :=
  d.keyFile = some file ∧ d.files[file]? = some bytes

variable {d : Storage AesKey} {file : Nat} {bytes : Bytes}

theorem At.content (h : d.At file bytes) : d.content file = bytes := by
  rw [Storage.content, h.2]
  rfl

theorem at_outputStream (h : d.keyFile = none) : d.outputStream.2.At d.outputStream.1 [] := by
  unfold outputStream
  rw [h]
  exact ⟨rfl, by simp⟩

theorem At.write (h : d.At file bytes) {position : Nat} (hposition : position = bytes.length)
    (more : Bytes) : (d.write file position more).At file (bytes ++ more) := by
  refine ⟨h.1, ?_⟩
  rw [Storage.write, List.getElem?_modify, h.2, hposition]
  simp [writeAt_end]

/-- The file is whole, and its encryption key is in the key store. -/
def Holds (aesGcm : AesGcm AesKey) (d : Storage AesKey) (p : StoredKey AesKey sweetBSigner) :
    Prop :=
  (∃ file, d.At file (p.payload aesGcm)) ∧ d.encrypter = some p.encryptionKey

end Storage

/-! ## The two branches -/

/-- The file is as far written as the call is. -/
def Creation.Matches (aesGcm : AesGcm AesKey) (sweetBSigner : SweetBSigner)
    (d : Storage AesKey) : Creation AesKey → Prop
  | .outputStream => d.keyFile = none
  | .generateKey file => d.At file []
  | .initEncrypt file key | .secureRandomBytes file key _
  | .computePublicKey file key _ _ => d.At file [] ∧ d.encrypter = some key
  | .writePublicKey file key _ privateKey publicKey =>
      d.At file [] ∧ d.encrypter = some key ∧
        sweetBSigner.computePublicKey privateKey = .ok publicKey
  | .writeIv file key _ privateKey publicKey =>
      d.At file publicKey ∧ d.encrypter = some key ∧
        sweetBSigner.computePublicKey privateKey = .ok publicKey
  | .writeEncrypted file key iv privateKey publicKey =>
      d.At file (publicKey ++ iv) ∧ d.encrypter = some key ∧
        sweetBSigner.computePublicKey privateKey = .ok publicKey
  | .close file key iv privateKey publicKey =>
      d.At file (publicKey ++ iv ++ aesGcm.encrypt key iv privateKey) ∧
        d.encrypter = some key ∧ sweetBSigner.computePublicKey privateKey = .ok publicKey

theorem Creation.next_matches {d : Storage AesKey} {creation : Creation AesKey}
    (drawn : Drawn AesKey) (h : creation.Matches aesGcm sweetBSigner d) :
    match (creation.next aesGcm sweetBSigner drawn d).2 with
    | .more next =>
        next.Matches aesGcm sweetBSigner (creation.next aesGcm sweetBSigner drawn d).1
    | .returned privateKey => ∃ p : StoredKey AesKey sweetBSigner,
        (creation.next aesGcm sweetBSigner drawn d).1.Holds aesGcm p ∧
          privateKey = p.privateKey
    | .raised => True := by
  cases creation with
  | outputStream => exact Storage.at_outputStream h
  | generateKey file => exact ⟨h, rfl⟩
  | initEncrypt file key => exact h
  | secureRandomBytes file key iv => exact h
  | computePublicKey file key iv privateKey =>
      cases hpublic : sweetBSigner.computePublicKey privateKey with
      | ok publicKey =>
          simp only [Creation.next, hpublic]
          exact ⟨h.1, h.2, hpublic⟩
      | error e => simp only [Creation.next, hpublic]
  | writePublicKey file key iv privateKey publicKey =>
      exact ⟨h.1.write rfl publicKey, h.2⟩
  | writeIv file key iv privateKey publicKey => exact ⟨h.1.write rfl iv, h.2⟩
  | writeEncrypted file key iv privateKey publicKey =>
      exact ⟨h.1.write (List.length_append ..).symm _, h.2⟩
  | close file key iv privateKey publicKey =>
      exact ⟨⟨key, iv, privateKey, publicKey, h.2.2⟩, ⟨⟨file, h.1⟩, h.2.1⟩, rfl⟩

/-- What the call has of the file is what is in it. -/
def Reading.Agrees (aesGcm : AesGcm AesKey) (d : Storage AesKey)
    (p : StoredKey AesKey sweetBSigner) : Reading AesKey → Prop
  | .inputStream => True
  | .readBytes file => d.keyFile = some file
  | .getEntry encryptedPayload => encryptedPayload = p.payload aesGcm
  | .initDecrypt encryptedPayload secretKey =>
      encryptedPayload = p.payload aesGcm ∧ secretKey = p.encryptionKey
  | .doFinal encryptedPayload secretKey iv =>
      encryptedPayload = p.payload aesGcm ∧ secretKey = p.encryptionKey ∧ iv = p.iv

theorem Storage.Holds.content {d : Storage AesKey} {p : StoredKey AesKey sweetBSigner}
    {file : Nat} (hd : d.Holds aesGcm p) (hfile : d.keyFile = some file) :
    d.content file = p.payload aesGcm := by
  obtain ⟨⟨file', hat⟩, _⟩ := hd
  rw [hat.1] at hfile
  injection hfile with hfile
  rw [← hfile, hat.content]

/-- One step of the reading branch: it never raises. -/
theorem Reading.next_agrees (h : Documented aesGcm sweetBSigner) {d : Storage AesKey}
    {p : StoredKey AesKey sweetBSigner} (hd : d.Holds aesGcm p) {reading : Reading AesKey}
    (hreading : reading.Agrees aesGcm d p) :
    (∃ next, reading.next aesGcm d = .more next ∧ next.Agrees aesGcm d p) ∨
      reading.next aesGcm d = .returned p.privateKey := by
  cases reading with
  | inputStream =>
      obtain ⟨⟨file, hat⟩, _⟩ := hd
      refine .inl ⟨.readBytes file, ?_, hat.1⟩
      rw [Reading.next, hat.1]
  | readBytes file => exact .inl ⟨_, rfl, hd.content hreading⟩
  | getEntry encryptedPayload =>
      refine .inl ⟨.initDecrypt encryptedPayload p.encryptionKey, ?_, hreading, rfl⟩
      rw [Reading.next, hd.2]
  | initDecrypt encryptedPayload secretKey =>
      obtain ⟨hpayload, hkey⟩ := hreading
      refine .inl ⟨.doFinal encryptedPayload secretKey p.iv, ?_, hpayload, hkey, rfl⟩
      rw [Reading.next, hpayload, p.slice_iv h]
  | doFinal encryptedPayload secretKey iv =>
      obtain ⟨rfl, rfl, rfl⟩ := hreading
      refine .inr ?_
      rw [Reading.next, p.slice_encrypted h]
      simp only [h.decrypt_encrypt]

/-! ## The two phases -/

def Returned.Of (p : StoredKey AesKey sweetBSigner) : Returned → Prop
  | .privateKey bytes => bytes = p.privateKey
  | .publicKey true bytes => sweetBSigner.compressPublicKey p.publicKey = .ok bytes
  | .publicKey false bytes => bytes = p.publicKey

/-- Where a call may stand while the file is whole. -/
def Pc.Agrees (aesGcm : AesGcm AesKey) (d : Storage AesKey)
    (p : StoredKey AesKey sweetBSigner) : Pc AesKey → Prop
  | .creating _ => False
  | .reading next => next.Agrees aesGcm d p
  | .readPublicKey file => d.keyFile = some file
  | _ => True

/-- Where a call may stand before: it has not opened the file to read. -/
def Pc.Waits : Pc AesKey → Prop
  | .reading .inputStream => True
  | .reading _ => False
  | .readPublicKey _ => False
  | _ => True

theorem KeyCall.next_agrees (h : Documented aesGcm sweetBSigner) {d : Storage AesKey}
    {p : StoredKey AesKey sweetBSigner} (hd : d.Holds aesGcm p) {call : KeyCall}
    {drawn : Drawn AesKey} {pc : Pc AesKey} (hpc : pc.Agrees aesGcm d p)
    {stepped : Stepped AesKey}
    (hnext : call.next aesGcm sweetBSigner drawn d pc = some stepped) :
    stepped.storage = d ∧ stepped.pc.Agrees aesGcm d p ∧
      ∀ r, stepped.returned = some r → r.Of p := by
  obtain ⟨file, hat⟩ := hd.1
  cases pc with
  | load =>
      injection hnext with hnext
      subst hnext
      exact ⟨rfl, trivial, nofun⟩
  | checkExists =>
      injection hnext with hnext
      subst hnext
      rw [hat.1]
      cases call with
      | getOrCreatePrivateKey => exact ⟨rfl, trivial, nofun⟩
      | getPublicKey compressed => exact ⟨rfl, trivial, nofun⟩
  | creating creation => exact hpc.elim
  | reading reading =>
      injection hnext with hnext
      rcases Reading.next_agrees h hd hpc with ⟨next, hmore, hagrees⟩ | hreturned
      · rw [hmore] at hnext
        subst hnext
        exact ⟨rfl, hagrees, nofun⟩
      · rw [hreturned] at hnext
        subst hnext
        refine ⟨rfl, by cases call <;> trivial, ?_⟩
        intro r hr
        injection hr with hr
        subst hr
        rfl
  | openPublicKey =>
      injection hnext with hnext
      subst hnext
      rw [hat.1]
      exact ⟨rfl, hat.1, nofun⟩
  | readPublicKey file' =>
      injection hnext with hnext
      subst hnext
      refine ⟨rfl, trivial, ?_⟩
      intro r hr
      cases call with
      | getOrCreatePrivateKey => simp at hr
      | getPublicKey compressed =>
          simp only [hd.content hpc, publicKeyOf, p.slice_publicKey h] at hr
          cases compressed with
          | false =>
              injection hr with hr
              subst hr
              rfl
          | true =>
              obtain ⟨bytes, hbytes, rfl⟩ := Option.map_eq_some_iff.1 hr
              change (sweetBSigner.compressPublicKey p.publicKey).toOption = some bytes at hbytes
              cases hcompress : sweetBSigner.compressPublicKey p.publicKey with
              | ok bytes' =>
                  rw [hcompress] at hbytes
                  injection hbytes with hbytes
                  rw [← hbytes]
                  exact hcompress
              | error e =>
                  rw [hcompress] at hbytes
                  cases hbytes
  | done => simp [KeyCall.next] at hnext

theorem KeyCall.fail_agrees {d : Storage AesKey} {p : StoredKey AesKey sweetBSigner}
    {call : KeyCall} {pc : Pc AesKey} (hpc : pc.Agrees aesGcm d p) (hreads : ¬ pc.reads)
    {stepped : Stepped AesKey} (hfail : call.fail d pc = some stepped) :
    stepped = { storage := d, pc := .done, returned := none } := by
  cases pc with
  | load | openPublicKey | readPublicKey _ =>
      injection hfail with hfail
      exact hfail.symm
  | creating creation => exact hpc.elim
  | reading reading => exact absurd rfl hreads
  | checkExists | done => simp [KeyCall.fail] at hfail

theorem Pc.Waits.agrees {pc : Pc AesKey} (h : pc.Waits) (hcreates : ¬ pc.creates)
    (d : Storage AesKey) (p : StoredKey AesKey sweetBSigner) : pc.Agrees aesGcm d p := by
  cases pc with
  | reading reading =>
      cases reading with
      | inputStream => trivial
      | readBytes _ | getEntry _ | initDecrypt _ _ | doFinal _ _ _ => exact h.elim
  | creating creation => exact absurd rfl hcreates
  | readPublicKey file => exact h.elim
  | load | checkExists | openPublicKey | done => trivial

theorem KeyCall.waits_afterwards (call : KeyCall) :
    (call.afterwards : Pc AesKey).Waits ∧ ¬ (call.afterwards : Pc AesKey).creates := by
  cases call with
  | getOrCreatePrivateKey => exact ⟨trivial, nofun⟩
  | getPublicKey compressed => exact ⟨trivial, nofun⟩

namespace KeyFileState

/-- Nothing was returned, and there is no file, or the one its creator has
written so far. -/
structure Unsettled (aesGcm : AesGcm AesKey) (sweetBSigner : SweetBSigner)
    (s : KeyFileState AesKey) : Prop where
  returned : s.returned = []
  waits : ∀ i, (s.pcAt i).Waits
  file : ((∀ i, ¬ (s.pcAt i).creates) ∧ s.storage.keyFile = none) ∨
    ∃ c creation, s.pcAt c = .creating creation ∧ s.OthersCreateNone c ∧
      creation.Matches aesGcm sweetBSigner s.storage

structure Settled (aesGcm : AesGcm AesKey) (s : KeyFileState AesKey)
    (p : StoredKey AesKey sweetBSigner) : Prop where
  holds : s.storage.Holds aesGcm p
  agrees : ∀ i, (s.pcAt i).Agrees aesGcm s.storage p
  returned : ∀ r ∈ s.returned, r.Of p

variable {s t : KeyFileState AesKey}

theorem unsettled_fresh : (fresh : KeyFileState AesKey).Unsettled aesGcm sweetBSigner :=
  ⟨rfl, fun _ => trivial, .inl ⟨fun _ => nofun, rfl⟩⟩

/-! What the next steps of the calls are after a step. -/

theorem pcAt_started (call : KeyCall) (i : Nat) :
    (s.started call).pcAt i = if i = s.calls.length then .load else s.pcAt i := by
  unfold pcAt started
  rcases Nat.lt_trichotomy i s.calls.length with hi | rfl | hi
  · rw [if_neg (by omega), List.getElem?_append_left hi]
  · simp
  · rw [if_neg (by omega), List.getElem?_eq_none (by simp; omega),
      List.getElem?_eq_none (by omega)]

theorem pcAt_after {c : Nat} {call : KeyCall} {pc : Pc AesKey} {stepped : Stepped AesKey}
    (hc : s.calls[c]? = some (call, pc)) (i : Nat) :
    (s.after c call stepped).pcAt i = if i = c then stepped.pc else s.pcAt i := by
  obtain ⟨hlt, _⟩ := List.getElem?_eq_some_iff.1 hc
  unfold pcAt after
  by_cases hi : i = c
  · rw [if_pos hi, hi]
    simp [hlt]
  · rw [if_neg hi, List.getElem?_set_ne (fun h => hi h.symm)]

theorem pcAt_of_getElem? {c : Nat} {call : KeyCall} {pc : Pc AesKey}
    (hc : s.calls[c]? = some (call, pc)) : s.pcAt c = pc := by
  rw [pcAt, hc]
  rfl

theorem othersCreateNone_iff {c : Nat} :
    s.OthersCreateNone c ↔ ∀ i, i ≠ c → ¬ (s.pcAt i).creates := by
  constructor
  · intro h i hi
    by_cases hlt : i < s.calls.length
    · exact h i hlt hi
    · rw [pcAt, List.getElem?_eq_none (by omega)]
      nofun
  · intro h i _ hi
    exact h i hi

/-- What a step is: a call starts, or one of them takes a step or fails. -/
theorem step_cases {a : KeyFileAction AesKey} (h : s.step aesGcm sweetBSigner a = some t) :
    (∃ call, a = .start call ∧ t = s.started call) ∨
    (∃ c drawn call pc stepped, a = .next c drawn ∧ s.calls[c]? = some (call, pc) ∧
      call.next aesGcm sweetBSigner drawn s.storage pc = some stepped ∧
      t = s.after c call stepped) ∨
    (∃ c call pc stepped, a = .fail c ∧ s.calls[c]? = some (call, pc) ∧
      call.fail s.storage pc = some stepped ∧ t = s.after c call stepped) := by
  cases a with
  | start call =>
      injection h with h
      exact .inl ⟨call, rfl, h.symm⟩
  | next c drawn =>
      obtain ⟨⟨call, pc⟩, hc, h⟩ := Option.bind_eq_some_iff.1 h
      obtain ⟨stepped, hnext, h⟩ := Option.bind_eq_some_iff.1 h
      injection h with h
      exact .inr (.inl ⟨c, drawn, call, pc, stepped, rfl, hc, hnext, h.symm⟩)
  | fail c =>
      obtain ⟨⟨call, pc⟩, hc, h⟩ := Option.bind_eq_some_iff.1 h
      obtain ⟨stepped, hfail, h⟩ := Option.bind_eq_some_iff.1 h
      injection h with h
      exact .inr (.inr ⟨c, call, pc, stepped, rfl, hc, hfail, h.symm⟩)

/-! Steps while the file is whole. -/

theorem Settled.after {p : StoredKey AesKey sweetBSigner} (h : s.Settled aesGcm p) {c : Nat}
    {call : KeyCall} {pc : Pc AesKey} (hc : s.calls[c]? = some (call, pc))
    {stepped : Stepped AesKey} (hstorage : stepped.storage = s.storage)
    (hpc : stepped.pc.Agrees aesGcm s.storage p)
    (hreturned : ∀ r, stepped.returned = some r → r.Of p) :
    (s.after c call stepped).Settled aesGcm p := by
  have hsame : (s.after c call stepped).storage = s.storage := hstorage
  refine ⟨by rw [hsame]; exact h.holds, ?_, ?_⟩
  · intro i
    rw [pcAt_after hc, hsame]
    split
    · exact hpc
    · exact h.agrees i
  · intro r hr
    rcases List.mem_append.1 hr with hr | hr
    · exact hreturned r (Option.mem_toList.1 hr)
    · exact h.returned r hr

theorem Settled.step (hdoc : Documented aesGcm sweetBSigner)
    {p : StoredKey AesKey sweetBSigner} (h : s.Settled aesGcm p) {a : KeyFileAction AesKey}
    (halone : s.CreatesAlone a) (hstep : s.step aesGcm sweetBSigner a = some t) :
    t.Settled aesGcm p := by
  rcases step_cases hstep with ⟨call, rfl, rfl⟩ |
    ⟨c, drawn, call, pc, stepped, rfl, hc, hnext, rfl⟩ |
    ⟨c, call, pc, stepped, rfl, hc, hfail, rfl⟩
  · refine ⟨h.holds, ?_, h.returned⟩
    intro i
    rw [pcAt_started]
    split
    · trivial
    · exact h.agrees i
  · have hagrees := h.agrees c
    rw [pcAt_of_getElem? hc] at hagrees
    obtain ⟨hstorage, hpc, hreturned⟩ := KeyCall.next_agrees hdoc h.holds hagrees hnext
    exact h.after hc hstorage hpc hreturned
  · have hagrees := h.agrees c
    have hreads : ¬ (s.pcAt c).reads := halone
    rw [pcAt_of_getElem? hc] at hagrees hreads
    have hdone := KeyCall.fail_agrees hagrees hreads hfail
    subst hdone
    exact h.after hc rfl trivial nofun

/-! Steps before. -/

theorem Unsettled.started (h : s.Unsettled aesGcm sweetBSigner) (call : KeyCall) :
    (s.started call).Unsettled aesGcm sweetBSigner := by
  refine ⟨h.returned, ?_, ?_⟩
  · intro i
    rw [pcAt_started]
    split
    · trivial
    · exact h.waits i
  · have hcreates : ∀ i, ¬ (s.pcAt i).creates → ¬ ((s.started call).pcAt i).creates := by
      intro i hi
      rw [pcAt_started]
      split
      · nofun
      · exact hi
    rcases h.file with ⟨hnone, hfile⟩ | ⟨c, creation, hc, hothers, hmatches⟩
    · exact .inl ⟨fun i => hcreates i (hnone i), hfile⟩
    · refine .inr ⟨c, creation, ?_, ?_, hmatches⟩
      · have hne : c ≠ s.calls.length := by
          intro hlast
          rw [hlast, pcAt, List.getElem?_eq_none (Nat.le_refl _)] at hc
          cases hc
        rw [pcAt_started, if_neg hne]
        exact hc
      · rw [othersCreateNone_iff] at hothers ⊢
        exact fun i hi => hcreates i (hothers i hi)

/-- Where only `c` might be creating and is not, there is no file. -/
theorem Unsettled.keyFile_none (h : s.Unsettled aesGcm sweetBSigner) {c : Nat}
    (hothers : s.OthersCreateNone c) (hc : ¬ (s.pcAt c).creates) :
    s.storage.keyFile = none := by
  rcases h.file with ⟨_, hnone⟩ | ⟨c', creation, hc', _, _⟩
  · exact hnone
  · by_cases hsame : c' = c
    · rw [← hsame, hc'] at hc
      exact absurd rfl hc
    · have hcreates := othersCreateNone_iff.1 hothers c' hsame
      rw [hc'] at hcreates
      exact absurd rfl hcreates

theorem Unsettled.creator (h : s.Unsettled aesGcm sweetBSigner) {c : Nat}
    {creation : Creation AesKey} (hc : s.pcAt c = .creating creation) :
    s.OthersCreateNone c ∧ creation.Matches aesGcm sweetBSigner s.storage := by
  have hcreates : (s.pcAt c).creates := by
    rw [hc]
    rfl
  rcases h.file with ⟨hnone, _⟩ | ⟨c', creation', hc', hothers, hmatches⟩
  · exact absurd hcreates (hnone c)
  · by_cases hsame : c = c'
    · subst hsame
      rw [hc] at hc'
      injection hc' with hc'
      subst hc'
      exact ⟨hothers, hmatches⟩
    · exact absurd hcreates (othersCreateNone_iff.1 hothers c hsame)

/-- A step of a call that neither creates nor begins to. -/
theorem Unsettled.after_idle (h : s.Unsettled aesGcm sweetBSigner) {c : Nat}
    {call : KeyCall} {pc : Pc AesKey} (hc : s.calls[c]? = some (call, pc))
    (hpc : ¬ pc.creates) {pc' : Pc AesKey} (hwaits : pc'.Waits) (hpc' : ¬ pc'.creates) :
    (s.after c call { storage := s.storage, pc := pc', returned := none }).Unsettled
      aesGcm sweetBSigner := by
  refine ⟨h.returned, ?_, ?_⟩
  · intro i
    rw [pcAt_after hc]
    split
    · exact hwaits
    · exact h.waits i
  · rcases h.file with ⟨hnone, hfile⟩ | ⟨c', creation, hc', hothers, hmatches⟩
    · refine .inl ⟨?_, hfile⟩
      intro i
      rw [pcAt_after hc]
      split
      · exact hpc'
      · exact hnone i
    · have hne : c' ≠ c := by
        intro hsame
        rw [hsame, pcAt_of_getElem? hc] at hc'
        rw [hc'] at hpc
        exact hpc rfl
      refine .inr ⟨c', creation, ?_, ?_, hmatches⟩
      · rw [pcAt_after hc, if_neg hne]
        exact hc'
      · rw [othersCreateNone_iff] at hothers ⊢
        intro i hi
        rw [pcAt_after hc]
        split
        · exact hpc'
        · exact hothers i hi

theorem Unsettled.after_creating (h : s.Unsettled aesGcm sweetBSigner) {c : Nat}
    {call : KeyCall} {pc : Pc AesKey} (hc : s.calls[c]? = some (call, pc))
    (hothers : s.OthersCreateNone c) {creation : Creation AesKey} {d : Storage AesKey}
    (hmatches : creation.Matches aesGcm sweetBSigner d) :
    (s.after c call { storage := d, pc := .creating creation, returned := none }).Unsettled
      aesGcm sweetBSigner := by
  refine ⟨h.returned, ?_, .inr ⟨c, creation, ?_, ?_, hmatches⟩⟩
  · intro i
    rw [pcAt_after hc]
    split
    · trivial
    · exact h.waits i
  · rw [pcAt_after hc, if_pos rfl]
  · rw [othersCreateNone_iff] at hothers ⊢
    intro i hi
    rw [pcAt_after hc, if_neg hi]
    exact hothers i hi

theorem Unsettled.after_catch (h : s.Unsettled aesGcm sweetBSigner) {c : Nat}
    {call : KeyCall} {pc : Pc AesKey} (hc : s.calls[c]? = some (call, pc))
    (hothers : s.OthersCreateNone c) (d : Storage AesKey) :
    (s.after c call (call.catch d)).Unsettled aesGcm sweetBSigner := by
  refine ⟨h.returned, ?_, .inl ⟨?_, rfl⟩⟩
  · intro i
    rw [pcAt_after hc]
    split
    · exact call.waits_afterwards.1
    · exact h.waits i
  · intro i
    rw [pcAt_after hc]
    split
    · exact call.waits_afterwards.2
    · next hi => exact othersCreateNone_iff.1 hothers i hi

theorem Unsettled.after_returned (h : s.Unsettled aesGcm sweetBSigner) {c : Nat}
    {call : KeyCall} {pc : Pc AesKey} (hc : s.calls[c]? = some (call, pc))
    (hothers : s.OthersCreateNone c) {d : Storage AesKey}
    {p : StoredKey AesKey sweetBSigner} (hd : d.Holds aesGcm p) :
    (s.after c call {
      storage := d
      pc := call.afterwards
      returned := some (.privateKey p.privateKey) }).Settled aesGcm p := by
  refine ⟨hd, ?_, ?_⟩
  · intro i
    rw [pcAt_after hc]
    split
    · exact call.waits_afterwards.1.agrees call.waits_afterwards.2 d p
    · next hi => exact (h.waits i).agrees (othersCreateNone_iff.1 hothers i hi) d p
  · intro r hr
    rcases List.mem_append.1 hr with hr | hr
    · have heq := Option.mem_toList.1 hr
      injection heq with heq
      subst heq
      rfl
    · rw [h.returned] at hr
      simp at hr

theorem Unsettled.next (h : s.Unsettled aesGcm sweetBSigner) {c : Nat} {call : KeyCall}
    {pc : Pc AesKey} (hc : s.calls[c]? = some (call, pc)) (hmay : s.MayTake c pc)
    {drawn : Drawn AesKey} {stepped : Stepped AesKey}
    (hnext : call.next aesGcm sweetBSigner drawn s.storage pc = some stepped) :
    (s.after c call stepped).Unsettled aesGcm sweetBSigner ∨
      ∃ p : StoredKey AesKey sweetBSigner, (s.after c call stepped).Settled aesGcm p := by
  have hpc := pcAt_of_getElem? hc
  have hwaits := h.waits c
  rw [hpc] at hwaits
  cases pc with
  | load =>
      injection hnext with hnext
      subst hnext
      exact .inl (h.after_idle hc nofun trivial nofun)
  | checkExists =>
      injection hnext with hnext
      subst hnext
      left
      cases hfile : s.storage.keyFile with
      | none => exact h.after_creating hc (hmay hfile) hfile
      | some file =>
          cases call with
          | getOrCreatePrivateKey => exact h.after_idle hc nofun trivial nofun
          | getPublicKey compressed => exact h.after_idle hc nofun trivial nofun
  | creating creation =>
      have hstepped := Option.some.inj hnext
      obtain ⟨hothers, hmatches⟩ := h.creator hpc
      have hprogress := Creation.next_matches drawn hmatches
      rcases hcreation : creation.next aesGcm sweetBSigner drawn s.storage with ⟨d, progress⟩
      rw [hcreation] at hstepped hprogress
      cases progress with
      | more next =>
          subst hstepped
          exact .inl (h.after_creating hc hothers hprogress)
      | returned privateKey =>
          obtain ⟨p, hholds, rfl⟩ := hprogress
          subst hstepped
          exact .inr ⟨p, h.after_returned hc hothers hholds⟩
      | raised =>
          subst hstepped
          exact .inl (h.after_catch hc hothers d)
  | reading reading =>
      cases reading with
      | inputStream =>
          have hnone := h.keyFile_none hmay.2 (by rw [hpc]; nofun)
          exact absurd hnone hmay.1
      | readBytes _ | getEntry _ | initDecrypt _ _ | doFinal _ _ _ => exact hwaits.elim
  | openPublicKey =>
      injection hnext with hnext
      subst hnext
      rw [h.keyFile_none hmay (by rw [hpc]; nofun)]
      exact .inl (h.after_idle hc nofun trivial nofun)
  | readPublicKey file => exact hwaits.elim
  | done => simp [KeyCall.next] at hnext

theorem Unsettled.fail (h : s.Unsettled aesGcm sweetBSigner) {c : Nat} {call : KeyCall}
    {pc : Pc AesKey} (hc : s.calls[c]? = some (call, pc)) (hreads : ¬ pc.reads)
    {stepped : Stepped AesKey} (hfail : call.fail s.storage pc = some stepped) :
    (s.after c call stepped).Unsettled aesGcm sweetBSigner := by
  cases pc with
  | load | openPublicKey | readPublicKey _ =>
      injection hfail with hfail
      subst hfail
      exact h.after_idle hc nofun trivial nofun
  | creating creation =>
      injection hfail with hfail
      subst hfail
      exact h.after_catch hc (h.creator (pcAt_of_getElem? hc)).1 _
  | reading reading => exact absurd rfl hreads
  | checkExists | done => simp [KeyCall.fail] at hfail

theorem Unsettled.step (h : s.Unsettled aesGcm sweetBSigner) {a : KeyFileAction AesKey}
    (halone : s.CreatesAlone a) (hstep : s.step aesGcm sweetBSigner a = some t) :
    t.Unsettled aesGcm sweetBSigner ∨
      ∃ p : StoredKey AesKey sweetBSigner, t.Settled aesGcm p := by
  rcases step_cases hstep with ⟨call, rfl, rfl⟩ |
    ⟨c, drawn, call, pc, stepped, rfl, hc, hnext, rfl⟩ |
    ⟨c, call, pc, stepped, rfl, hc, hfail, rfl⟩
  · exact .inl (h.started call)
  · have hmay : s.MayTake c (s.pcAt c) := halone
    rw [pcAt_of_getElem? hc] at hmay
    exact h.next hc hmay hnext
  · have hreads : ¬ (s.pcAt c).reads := halone
    rw [pcAt_of_getElem? hc] at hreads
    exact .inl (h.fail hc hreads hfail)

/-! Runs. -/

def InPhase (aesGcm : AesGcm AesKey) (sweetBSigner : SweetBSigner)
    (s : KeyFileState AesKey) : Prop :=
  s.Unsettled aesGcm sweetBSigner ∨ ∃ p : StoredKey AesKey sweetBSigner, s.Settled aesGcm p

theorem InPhase.step (hdoc : Documented aesGcm sweetBSigner)
    (h : s.InPhase aesGcm sweetBSigner) {a : KeyFileAction AesKey}
    (halone : s.CreatesAlone a) (hstep : s.step aesGcm sweetBSigner a = some t) :
    t.InPhase aesGcm sweetBSigner := by
  rcases h with h | ⟨p, h⟩
  · exact h.step halone hstep
  · exact .inr ⟨p, h.step hdoc halone hstep⟩

theorem Settled.reaches (hdoc : Documented aesGcm sweetBSigner)
    {p : StoredKey AesKey sweetBSigner} (h : s.Settled aesGcm p)
    (hrun : Reaches (KeyFileState.step aesGcm sweetBSigner) CreatesAlone s t) :
    t.Settled aesGcm p :=
  @Reaches.invariant _ _ _ _ s t (fun s => s.Settled aesGcm p)
    (fun _ _ _ hs halone hstep => hs.step hdoc halone hstep) hrun h

/-- Once a key was returned, the file and its encryption key are one pair's
for good, and whatever is returned is of that pair. -/
theorem returned_kept (hdoc : Documented aesGcm sweetBSigner)
    (hs : Reaches (step aesGcm sweetBSigner) CreatesAlone fresh s) (hreturned : s.returned ≠ [])
    (ht : Reaches (step aesGcm sweetBSigner) CreatesAlone s t) :
    ∃ p : StoredKey AesKey sweetBSigner, s.storage.Holds aesGcm p ∧
      t.storage.Holds aesGcm p ∧ ∀ r ∈ t.returned, r.Of p := by
  have hphase := Reaches.invariant
    (fun s a t (hs : s.InPhase aesGcm sweetBSigner) halone hstep => hs.step hdoc halone hstep)
    hs (.inl unsettled_fresh)
  rcases hphase with hs | ⟨p, hs⟩
  · exact absurd hs.returned hreturned
  · have hlater := hs.reaches hdoc ht
    exact ⟨p, hs.holds, hlater.holds, hlater.returned⟩

end KeyFileState

/-! ## One call at a time

With nothing in between, the steps of a call are the sequential
`getOrCreatePrivateKey`: it sees of the disk only what the name stands for. -/

def Storage.device (d : Storage AesKey) : Device AesKey where
  keyFile := d.keyFile.map d.content
  encrypter := d.encrypter

/-- A platform on which every step goes through. -/
def AesGcm.platform (aesGcm : AesGcm AesKey) (drawn : Drawn AesKey) : Platform AesKey where
  load := .ok ()
  outputStream := .ok ()
  generateKey _ := .ok drawn.encryptionKey
  initEncrypt _ := .ok drawn.iv
  secureRandomBytes := .ok drawn.privateKey
  write _ := .ok ()
  close := .ok ()
  readBytes := .ok ()
  getEntry := .ok ()
  encrypt key iv bytes := .ok (aesGcm.encrypt key iv bytes)
  decrypt key iv bytes :=
    (aesGcm.decrypt key iv bytes).elim (.error (.external "AEADBadTagException")) .ok
  delete := true

theorem AesGcm.decrypt_platform (drawn : Drawn AesKey) (key : AesKey) (iv bytes : Bytes) :
    (aesGcm.platform drawn).decrypt key iv bytes
      = (aesGcm.decrypt key iv bytes).elim (.error (.external "AEADBadTagException")) .ok :=
  rfl

theorem Storage.Holds.device {d : Storage AesKey} {p : StoredKey AesKey sweetBSigner}
    (hd : d.Holds aesGcm p) : d.device
      = { keyFile := some (p.payload aesGcm), encrypter := some p.encryptionKey } := by
  obtain ⟨⟨file, hat⟩, hkey⟩ := hd
  rw [Storage.device, hat.1, hkey, Option.map_some, hat.content]

/-- The sequential call answers the key the file holds. -/
theorem Storage.Holds.runs (hdoc : Documented aesGcm sweetBSigner) {d : Storage AesKey}
    {p : StoredKey AesKey sweetBSigner} (hd : d.Holds aesGcm p) (drawn : Drawn AesKey) :
    GenericEcdsa.Runs
      (GenericEcdsa.getOrCreatePrivateKey (aesGcm.platform drawn) sweetBSigner true)
      d.device p.privateKey d.device := by
  have hholds : GenericEcdsa.Holds (aesGcm.platform drawn) d.device p.privateKey
      p.publicKey := by
    refine ⟨rfl, rfl, rfl, hdoc.publicKey_length _ _ p.publicKey_eq, p.encryptionKey, p.iv, _,
      ?_, ?_, p.iv.2, hdoc.encrypt_length p.encryptionKey p.iv p.privateKey, ?_⟩
    · rw [hd.device]
    · rw [hd.device]
      rfl
    · rw [AesGcm.decrypt_platform, hdoc.decrypt_encrypt]
      rfl
  exact GenericEcdsa.runs_getOrCreatePrivateKey hholds

def Creation.run (aesGcm : AesGcm AesKey) (sweetBSigner : SweetBSigner)
    (drawn : Drawn AesKey) : Nat → Storage AesKey × Progress (Creation AesKey) →
      Storage AesKey × Progress (Creation AesKey)
  | n + 1, (d, .more creation) =>
      run aesGcm sweetBSigner drawn n (creation.next aesGcm sweetBSigner drawn d)
  | _, x => x

def Drawn.stored (drawn : Drawn AesKey) {publicKey : Bytes}
    (hpublic : sweetBSigner.computePublicKey drawn.privateKey = .ok publicKey) :
    StoredKey AesKey sweetBSigner :=
  { drawn with publicKey := publicKey, publicKey_eq := hpublic }

theorem Creation.run_holds {d : Storage AesKey} {drawn : Drawn AesKey} {publicKey : Bytes}
    (hd : d.keyFile = none)
    (hpublic : sweetBSigner.computePublicKey drawn.privateKey = .ok publicKey) :
    ∃ d', Creation.run aesGcm sweetBSigner drawn 9 (d, .more .outputStream)
        = (d', .returned drawn.privateKey) ∧ d'.Holds aesGcm (drawn.stored hpublic) := by
  have hopened : ({ d.outputStream.2 with encrypter := some drawn.encryptionKey } :
      Storage AesKey).At d.outputStream.1 [] := Storage.at_outputStream hd
  have hpublished := (hopened.write rfl publicKey).write rfl drawn.iv.val
  have hwritten := hpublished.write (List.length_append ..).symm
    (aesGcm.encrypt drawn.encryptionKey drawn.iv drawn.privateKey)
  refine ⟨_, ?_, ⟨_, hwritten⟩, rfl⟩
  simp only [Creation.run, Creation.next, hpublic]
  rfl

/-- The sequential branch leaves the same file and the same key. -/
theorem GenericEcdsa.runs_createPrivateKey {device : Device AesKey} {drawn : Drawn AesKey}
    {publicKey : Bytes}
    (hpublic : sweetBSigner.computePublicKey drawn.privateKey = .ok publicKey) :
    GenericEcdsa.Runs (GenericEcdsa.createPrivateKey (aesGcm.platform drawn) sweetBSigner)
      device drawn.privateKey {
        keyFile := some ((drawn.stored hpublic).payload aesGcm)
        encrypter := some drawn.encryptionKey } := by
  have hwrite : ∀ (device : Device AesKey) bytes,
      GenericEcdsa.Runs (GenericEcdsa.write (aesGcm.platform drawn) bytes) device ()
        { device with keyFile := device.keyFile.map (· ++ bytes) } :=
    fun _ _ => .bind (GenericEcdsa.runs_lift rfl) rfl
  have hmodify : ∀ (device : Device AesKey) f,
      GenericEcdsa.Runs (modify f) device () (f device) := fun _ _ => rfl
  exact .bind (GenericEcdsa.runs_lift rfl) <| .bind (hmodify _ _) <|
    .bind (GenericEcdsa.runs_lift rfl) <| .bind (hmodify _ _) <|
    .bind (GenericEcdsa.runs_lift rfl) <| .bind (GenericEcdsa.runs_lift rfl) <|
    .bind (GenericEcdsa.runs_lift hpublic) <| .bind (hwrite _ _) <|
    .bind (hwrite _ _) <| .bind (GenericEcdsa.runs_lift rfl) <|
    .bind (hwrite _ _) <| .bind (GenericEcdsa.runs_lift rfl) GenericEcdsa.runs_pure

/-- A creation with nothing in between leaves what the sequential branch
leaves. -/
theorem Creation.run_sequential {d : Storage AesKey} {drawn : Drawn AesKey}
    {publicKey : Bytes} (hd : d.keyFile = none)
    (hpublic : sweetBSigner.computePublicKey drawn.privateKey = .ok publicKey) :
    ∃ d', Creation.run aesGcm sweetBSigner drawn 9 (d, .more .outputStream)
        = (d', .returned drawn.privateKey) ∧
      GenericEcdsa.Runs (GenericEcdsa.createPrivateKey (aesGcm.platform drawn) sweetBSigner)
        d.device drawn.privateKey d'.device := by
  obtain ⟨d', hrun, hholds⟩ := @Creation.run_holds _ aesGcm _ _ _ _ hd hpublic
  refine ⟨d', hrun, ?_⟩
  rw [hholds.device]
  exact GenericEcdsa.runs_createPrivateKey hpublic

/-! ## Three calls, and a key store that fails once

AES-256/GCM as it is under the zero key, the zero vector and on the private
key 1, whose public key is the curve's generator. -/

def keystream : Bytes :=
  toBE 32 0xcea7403d4d606b6e074ec5d3baf39d18726003ca37a62a74d1a2f58e7506358e

def zeroGcm : AesGcm Unit where
  encrypt _ _ bytes := List.zipWith (· ^^^ ·) bytes keystream
    ++ toBE 16 0x5ed3bd72e23ba5a140d72e123ced1ad8
  decrypt _ _ bytes :=
    if bytes.drop 32 = toBE 16 0x5ed3bd72e23ba5a140d72e123ced1ad8 then
      some (List.zipWith (· ^^^ ·) (bytes.take 32) keystream)
    else none

def generatorX : Nat := 0x79be667ef9dcbbac55a06295ce870b07029bfcdb2dce28d959f2815b16f81798
def generatorY : Nat := 0x483ada7726a3c4655da4fbfc0e1108a8fd17b448a68554199c47d08ffb10d4b8

def generatorSigner : SweetBSigner where
  curveName := "SB_SW_CURVE_SECP256K1"
  computePublicKey _ := .ok (toBE 32 generatorX ++ toBE 32 generatorY)
  compressPublicKey publicKey := .ok (0x02 :: publicKey.take 32)
  generateSharedSecret _ publicKey := .ok (publicKey.take 32)

theorem zipWith_xor_twice (bs ks : Bytes) (h : bs.length ≤ ks.length) :
    List.zipWith (· ^^^ ·) (List.zipWith (· ^^^ ·) bs ks) ks = bs := by
  induction bs generalizing ks with
  | nil => rfl
  | cons b bs ih =>
      cases ks with
      | nil => simp at h
      | cons k ks =>
          have hlength : bs.length ≤ ks.length := by simpa using h
          simp only [List.zipWith_cons_cons, ih ks hlength, UInt8.xor_assoc,
            UInt8.xor_self, UInt8.xor_zero]

theorem documented_zeroGcm : Documented zeroGcm generatorSigner := by
  have hstream : keystream.length = 32 := length_toBE ..
  have hzip : ∀ privateKey : PrivateKey,
      (List.zipWith (· ^^^ ·) privateKey.val keystream).length = 32 := by
    intro privateKey
    rw [List.length_zipWith, privateKey.2, hstream]
    rfl
  refine ⟨?_, ?_, ?_⟩
  · intro privateKey publicKey h
    injection h with h
    subst h
    rw [List.length_append, length_toBE, length_toBE]
  · intro key iv privateKey
    show (List.zipWith (· ^^^ ·) privateKey.val keystream ++ _).length = 48
    rw [List.length_append, hzip, length_toBE]
  · intro key iv privateKey
    have hdrop : (zeroGcm.encrypt key iv privateKey).drop 32
        = toBE 16 0x5ed3bd72e23ba5a140d72e123ced1ad8 := List.drop_left' (hzip privateKey)
    have htake : (zeroGcm.encrypt key iv privateKey).take 32
        = List.zipWith (· ^^^ ·) privateKey.val keystream := List.take_left' (hzip privateKey)
    refine (if_pos hdrop).trans ?_
    rw [htake, zipWith_xor_twice _ _ (by rw [privateKey.2, hstream])]

def drawnOne : Drawn Unit where
  encryptionKey := ()
  iv := ⟨toBE 12 0, length_toBE ..⟩
  privateKey := ⟨toBE 32 1, length_toBE ..⟩

def createKey : List (KeyFileAction Unit) :=
  .start .getOrCreatePrivateKey :: List.replicate 11 (.next 0 drawnOne)

def readKey : List (KeyFileAction Unit) :=
  [.start (.getPublicKey true), .start .getOrCreatePrivateKey, .next 1 drawnOne,
    .next 2 drawnOne, .next 2 drawnOne, .next 1 drawnOne, .next 2 drawnOne, .next 1 drawnOne,
    .next 2 drawnOne, .next 2 drawnOne, .next 1 drawnOne, .next 2 drawnOne, .next 2 drawnOne]

/-- A call that has read the file when the key store fails. -/
def failToRead : List (KeyFileAction Unit) :=
  [.start .getOrCreatePrivateKey, .next 1 drawnOne, .next 1 drawnOne, .next 1 drawnOne,
    .next 1 drawnOne, .fail 1]

namespace KeyFileState

set_option maxRecDepth 4000 in
theorem returned_kept_three_calls :
    ∃ s t, runAll (step zeroGcm generatorSigner) CreatesAlone createKey fresh = some s ∧
      runAll (step zeroGcm generatorSigner) CreatesAlone readKey s = some t ∧
      t.returned = [.privateKey (toBE 32 1), .publicKey true (0x02 :: toBE 32 generatorX),
        .privateKey (toBE 32 1)] ∧
      ∃ p : StoredKey Unit generatorSigner, s.storage.Holds zeroGcm p ∧
        t.storage.Holds zeroGcm p ∧ ∀ r ∈ t.returned, r.Of p := by
  obtain ⟨s, hs, t, ht, hreturned, hkeys⟩ : ∃ s,
      runAll (step zeroGcm generatorSigner) CreatesAlone createKey fresh = some s ∧ ∃ t,
        runAll (step zeroGcm generatorSigner) CreatesAlone readKey s = some t ∧
          s.returned = [.privateKey (toBE 32 1)] ∧
          t.returned = [.privateKey (toBE 32 1),
            .publicKey true (0x02 :: toBE 32 generatorX), .privateKey (toBE 32 1)] :=
    ⟨_, rfl, _, rfl, rfl, rfl⟩
  refine ⟨s, t, hs, ht, hkeys, returned_kept documented_zeroGcm (reaches_of_runAll hs) ?_
    (reaches_of_runAll ht)⟩
  rw [hreturned]
  simp

set_option maxRecDepth 4000 in
/-- One failure of the key store, and the key that was returned is gone. -/
theorem returned_key_deleted :
    Documented zeroGcm generatorSigner ∧
    ∃ s t, Reaches (step zeroGcm generatorSigner) anyStep fresh s ∧
      s.returned = [.privateKey (toBE 32 1)] ∧
      Reaches (step zeroGcm generatorSigner) anyStep s t ∧ t.storage.keyFile = none ∧
      ¬ ∃ p : StoredKey Unit generatorSigner, s.storage.Holds zeroGcm p ∧
        t.storage.Holds zeroGcm p ∧ ∀ r ∈ t.returned, r.Of p := by
  obtain ⟨s, hs, t, ht, hreturned, hfile⟩ : ∃ s,
      runAll (step zeroGcm generatorSigner) anyStep createKey fresh = some s ∧ ∃ t,
        runAll (step zeroGcm generatorSigner) anyStep failToRead s = some t ∧
          s.returned = [.privateKey (toBE 32 1)] ∧ t.storage.keyFile = none :=
    ⟨_, rfl, _, rfl, rfl, rfl⟩
  refine ⟨documented_zeroGcm, s, t, reaches_of_runAll hs, hreturned, reaches_of_runAll ht,
    hfile, ?_⟩
  intro hgiven
  obtain ⟨p, _, ⟨⟨file, hat⟩, _⟩, _⟩ := hgiven
  rw [hat.1] at hfile
  cases hfile

end KeyFileState

end DataProcessor
