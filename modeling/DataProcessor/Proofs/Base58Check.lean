import DataProcessor.Lib.Radix
import DataProcessor.Model.Encoding

/-!
# What Base58Check decodes

Every payload comes back: the last four bytes of what is decoded are the
checksum that was appended. A text of other bytes is answered with the empty
array, as long as there are four bytes to take for a checksum. With fewer
the slice begins below zero and raises, `base58Check_iff`.
-/

namespace DataProcessor

open Lib

/-! ## The slices of a checked payload -/

theorem sliceRange_suffix {bs : Bytes} (h : 4 ≤ bs.length) :
    sliceRange bs ((bs.length : Int) - 4) ((bs.length : Int) - 1)
      = .ok (bs.drop (bs.length - 4)) := by
  rw [sliceRange, if_neg (by omega), if_neg (by omega),
    sliceArray_ok (by omega) (by omega), List.take_of_length_le]
  · congr 2
    omega
  · rw [List.length_drop]
    omega

theorem sliceRange_short {bs : Bytes} (h : bs.length < 4) :
    sliceRange bs ((bs.length : Int) - 4) ((bs.length : Int) - 1)
      = .error .indexOutOfBounds := by
  rw [sliceRange, if_neg (by omega), if_pos (by omega)]

theorem sliceRange_prefix {bs : Bytes} (h : 4 ≤ bs.length) :
    sliceRange bs 0 ((bs.length : Int) - 5) = .ok (bs.take (bs.length - 4)) := by
  by_cases hempty : bs.length = 4
  · rw [sliceRange, if_pos (by omega), show bs.length - 4 = 0 by omega, List.take_zero]
  · rw [sliceRange, if_neg (by omega), if_neg (by omega),
      sliceArray_ok (by omega) (by omega)]
    congr 2
    omega

namespace Encoding

variable {bitcoinj : Bitcoinj}

/-- The four bytes a payload is checked by. -/
def checksum (bitcoinj : Bitcoinj) (payload : Bytes) : Bytes :=
  (bitcoinj.hashTwice payload).take 4

section

variable (h : bitcoinj.Documented)
include h

theorem length_checksum (payload : Bytes) : (checksum bitcoinj payload).length = 4 := by
  rw [checksum, List.length_take, h.digest]
  rfl

theorem slice_digest (payload : Bytes) :
    sliceArray (bitcoinj.hashTwice payload) 0 3 = .ok (checksum bitcoinj payload) := by
  rw [sliceArray_ok (by omega) (by rw [h.digest]; omega)]
  rfl

theorem base58CheckEncode_eq (payload : Bytes) : base58CheckEncode bitcoinj payload
    = .ok (bitcoinj.encode (payload ++ checksum bitcoinj payload)) := by
  rw [base58CheckEncode, slice_digest h]
  rfl

/-- What is answered for the Base58 form of some bytes. -/
theorem base58CheckDecode_encode (checked : Bytes) :
    base58CheckDecode bitcoinj (bitcoinj.encode checked) =
      if checked.length < 4 then .error .indexOutOfBounds
      else if checked.drop (checked.length - 4)
          = checksum bitcoinj (checked.take (checked.length - 4)) then
        .ok (checked.take (checked.length - 4))
      else .ok [] := by
  by_cases hshort : checked.length < 4
  · rw [if_pos hshort]
    simp only [base58CheckDecode, h.decode_encode, ok_bind, sliceRange_short hshort]
    rfl
  · have hlong : 4 ≤ checked.length := by omega
    rw [if_neg hshort]
    simp only [base58CheckDecode, h.decode_encode, ok_bind, sliceRange_suffix hlong,
      sliceRange_prefix hlong, slice_digest h]
    split <;> rfl

/-- A text encodes the payloads whose checked form it is the Base58 form of. -/
theorem encodes_iff (payload checked : Bytes) :
    base58CheckEncode bitcoinj payload = .ok (bitcoinj.encode checked) ↔
      payload ++ checksum bitcoinj payload = checked := by
  rw [base58CheckEncode_eq h]
  constructor
  · intro hencode
    injection hencode with hencode
    have hdecode := h.decode_encode (payload ++ checksum bitcoinj payload)
    rw [hencode, h.decode_encode] at hdecode
    injection hdecode with hdecode
    exact hdecode.symm
  · intro hchecked
    rw [hchecked]

/-- Some bytes are the checked form of a payload when they end in the
checksum of what is before it. -/
theorem checked_iff (payload checked : Bytes) :
    payload ++ checksum bitcoinj payload = checked ↔
      4 ≤ checked.length ∧ checked.take (checked.length - 4) = payload ∧
        checked.drop (checked.length - 4)
          = checksum bitcoinj (checked.take (checked.length - 4)) := by
  have hlen := length_checksum h payload
  constructor
  · rintro rfl
    have hsize : (payload ++ checksum bitcoinj payload).length - 4 = payload.length := by
      rw [List.length_append]
      omega
    rw [hsize, List.take_left', List.drop_left', List.length_append]
    · exact ⟨by omega, rfl, rfl⟩
    · rfl
    · rfl
  · intro hgiven
    obtain ⟨hlong, rfl, hdrop⟩ := hgiven
    rw [← hdrop, List.take_append_drop]

end

/-- A text is answered with the payload it encodes, and with the empty array
when it encodes none. -/
def DecodesLaw (bitcoinj : Bitcoinj) (text : String) : Prop :=
  (∀ payload, base58CheckEncode bitcoinj payload = .ok text →
    base58CheckDecode bitcoinj text = .ok payload) ∧
  ((¬ ∃ payload, base58CheckEncode bitcoinj payload = .ok text) →
    base58CheckDecode bitcoinj text = .ok [])

/-- Every payload comes back, and a text over the alphabet is decoded as it
should be exactly where it is the Base58 form of four bytes or more. -/
theorem base58Check_iff (h : bitcoinj.Documented) :
    (∀ payload, (base58CheckEncode bitcoinj payload >>= base58CheckDecode bitcoinj)
      = .ok payload) ∧
    ∀ text, IsBase58 text →
      (DecodesLaw bitcoinj text ↔
        ∃ checked : Bytes, 4 ≤ checked.length ∧ bitcoinj.encode checked = text) := by
  refine ⟨fun payload => ?_, fun text htext => ?_⟩
  · obtain ⟨hlong, htake, hdrop⟩ :=
      (checked_iff h payload (payload ++ checksum bitcoinj payload)).1 rfl
    rw [base58CheckEncode_eq h, ok_bind, base58CheckDecode_encode h, if_neg (by omega),
      if_pos hdrop, htake]
  · obtain ⟨checked, hdecode, rfl⟩ := h.encode_decode text htext
    unfold DecodesLaw
    simp only [encodes_iff h, checked_iff h, base58CheckDecode_encode h]
    constructor
    · intro hgiven
      obtain ⟨-, hnone⟩ := hgiven
      refine ⟨checked, ?_, rfl⟩
      by_contra hshort
      have hraise := hnone fun hpayload => hshort hpayload.choose_spec.1
      rw [if_pos (by omega)] at hraise
      cases hraise
    · intro hgiven
      obtain ⟨checked', hlong, hencode⟩ := hgiven
      have hsame : checked' = checked := by
        rw [← hencode, h.decode_encode] at hdecode
        injection hdecode
      subst hsame
      rw [if_neg (by omega)]
      refine ⟨fun payload hpayload => ?_, fun hnone => ?_⟩
      · obtain ⟨-, rfl, hdrop⟩ := hpayload
        rw [if_pos hdrop]
      · rw [if_neg fun hdrop => hnone ⟨_, hlong, rfl, hdrop⟩]

end Encoding

/-! ## Base58, and the digest of the empty payload -/

/-- bitcoinj's Base58, beside a digest that is right for the empty payload. -/
def Bitcoinj.constant : Bitcoinj where
  encode bytes := String.ofList
    ((changeRadix 256 58 (bytes.map UInt8.toNat)).map fun d => base58Alphabet.getD d '1')
  decode text :=
    if text.toList.all (· ∈ base58Alphabet) then
      .ok ((changeRadix 58 256 (text.toList.map base58Alphabet.idxOf)).map UInt8.ofNat)
    else .error (.external "AddressFormatException")
  hashTwice _ :=
    [0x5d, 0xf6, 0xe0, 0xe2, 0x76, 0x13, 0x59, 0xd3, 0x0a, 0x82, 0x75, 0x05, 0x8e, 0x29,
      0x9f, 0xcc, 0x03, 0x81, 0x53, 0x45, 0x45, 0xf5, 0x5c, 0xf4, 0x3e, 0x41, 0x98, 0x3f,
      0x5d, 0x4c, 0x94, 0x56]

theorem length_base58Alphabet : base58Alphabet.length = 58 := by decide

theorem getD_base58Alphabet_mem {d : Nat} (hd : d < 58) :
    base58Alphabet.getD d '1' ∈ base58Alphabet := by
  rw [List.getD_eq_getElem _ _ (by rwa [length_base58Alphabet])]
  exact List.getElem_mem _

theorem idxOf_base58Alphabet {d : Nat} (hd : d < 58) :
    base58Alphabet.idxOf (base58Alphabet.getD d '1') = d := by
  have hnodup : base58Alphabet.Nodup := by decide +kernel
  rw [List.getD_eq_getElem _ _ (by rwa [length_base58Alphabet])]
  exact hnodup.idxOf_getElem _ _

theorem getD_idxOf_base58Alphabet {c : Char} (hc : c ∈ base58Alphabet) :
    base58Alphabet.getD (base58Alphabet.idxOf c) '1' = c := by
  rw [List.getD_eq_getElem _ _ (List.idxOf_lt_length_of_mem hc), List.getElem_idxOf]

theorem map_map_cancel {α β : Type} {f : α → β} {g : β → α} {l : List α}
    (h : ∀ a ∈ l, g (f a) = a) : (l.map f).map g = l := by
  rw [List.map_map]
  exact (List.map_congr_left h).trans (List.map_id l)

theorem Bitcoinj.constant_documented : Bitcoinj.constant.Documented where
  isBase58 := by
    intro bytes c hc
    rw [Bitcoinj.constant, String.toList_ofList, List.mem_map] at hc
    obtain ⟨d, hd, rfl⟩ := hc
    exact getD_base58Alphabet_mem (lt_of_mem_changeRadix (by decide) hd)
  decode_encode := by
    intro bytes
    have hdigits : ∀ d ∈ changeRadix 256 58 (bytes.map UInt8.toNat), d < 58 :=
      fun d hd => lt_of_mem_changeRadix (by decide) hd
    have hbytes : ∀ d ∈ bytes.map UInt8.toNat, d < 256 := by
      intro d hd
      obtain ⟨b, -, rfl⟩ := List.mem_map.1 hd
      exact b.toNat_lt
    have hindices : ((changeRadix 256 58 (bytes.map UInt8.toNat)).map fun d =>
          base58Alphabet.getD d '1').map base58Alphabet.idxOf
        = changeRadix 256 58 (bytes.map UInt8.toNat) :=
      map_map_cancel fun d hd => idxOf_base58Alphabet (hdigits d hd)
    have hsame : (bytes.map UInt8.toNat).map UInt8.ofNat = bytes :=
      map_map_cancel fun b _ => UInt8.ofNat_toNat
    simp only [Bitcoinj.constant, String.toList_ofList]
    rw [if_pos, hindices, changeRadix_changeRadix (by decide) hbytes, hsame]
    rw [List.all_eq_true]
    intro c hc
    obtain ⟨d, hd, rfl⟩ := List.mem_map.1 hc
    exact decide_eq_true (getD_base58Alphabet_mem (hdigits d hd))
  encode_decode := by
    intro text htext
    have hall : text.toList.all (· ∈ base58Alphabet) = true :=
      List.all_eq_true.2 fun c hc => decide_eq_true (htext c hc)
    have hdigits : ∀ d ∈ text.toList.map base58Alphabet.idxOf, d < 58 := by
      intro d hd
      obtain ⟨c, hc, rfl⟩ := List.mem_map.1 hd
      rw [← length_base58Alphabet]
      exact List.idxOf_lt_length_of_mem (htext c hc)
    have hbytes : ((changeRadix 58 256 (text.toList.map base58Alphabet.idxOf)).map
          UInt8.ofNat).map UInt8.toNat
        = changeRadix 58 256 (text.toList.map base58Alphabet.idxOf) :=
      map_map_cancel fun d hd => UInt8.toNat_ofNat_of_lt (lt_of_mem_changeRadix (by decide) hd)
    have hchars : (text.toList.map base58Alphabet.idxOf).map
        (fun d => base58Alphabet.getD d '1') = text.toList :=
      map_map_cancel fun c hc => getD_idxOf_base58Alphabet (htext c hc)
    refine ⟨_, if_pos hall, ?_⟩
    simp only [Bitcoinj.constant]
    rw [hbytes, changeRadix_changeRadix (by decide) hdigits, hchars, String.ofList_toList]
  digest := fun _ => rfl

namespace Encoding

theorem encode_constant : Bitcoinj.constant.encode [] = "" ∧
    Bitcoinj.constant.encode [0x01] = "2" ∧
    Bitcoinj.constant.encode [0x5d, 0xf6, 0xe0, 0xe2] = "3QJmnh" := by
  refine ⟨rfl, ?_, ?_⟩ <;> decide

theorem base58Check_empty :
    Bitcoinj.constant.Documented ∧
      (base58CheckEncode Bitcoinj.constant [] >>= base58CheckDecode Bitcoinj.constant)
        = .ok [] ∧
      DecodesLaw Bitcoinj.constant "3QJmnh" := by
  have hiff := base58Check_iff Bitcoinj.constant_documented
  have htext : IsBase58 "3QJmnh" := by
    rw [← encode_constant.2.2]
    exact Bitcoinj.constant_documented.isBase58 _
  exact ⟨Bitcoinj.constant_documented, hiff.1 [], (hiff.2 _ htext).2
    ⟨_, by decide, encode_constant.2.2⟩⟩

/-- The empty text and the form of a single byte have no four bytes. -/
theorem base58CheckDecode_short :
    Bitcoinj.constant.Documented ∧
    (∀ text ∈ ["", "2"], IsBase58 text ∧
      base58CheckDecode Bitcoinj.constant text = .error .indexOutOfBounds ∧
      ¬ DecodesLaw Bitcoinj.constant text) := by
  have hdoc := Bitcoinj.constant_documented
  have hshort : ∀ checked : Bytes, checked.length < 4 →
      IsBase58 (Bitcoinj.constant.encode checked) ∧
      base58CheckDecode Bitcoinj.constant (Bitcoinj.constant.encode checked)
        = .error .indexOutOfBounds ∧
      ¬ DecodesLaw Bitcoinj.constant (Bitcoinj.constant.encode checked) := by
    intro checked hlt
    have hraise : base58CheckDecode Bitcoinj.constant (Bitcoinj.constant.encode checked)
        = .error .indexOutOfBounds := by
      rw [base58CheckDecode_encode hdoc, if_pos hlt]
    refine ⟨hdoc.isBase58 checked, hraise, fun hlaw => ?_⟩
    have hnone := hlaw.2 fun hpayload => by
      obtain ⟨payload, hpayload⟩ := hpayload
      have hlong := ((checked_iff hdoc _ _).1 ((encodes_iff hdoc _ _).1 hpayload)).1
      omega
    rw [hraise] at hnone
    cases hnone
  refine ⟨hdoc, fun text htext => ?_⟩
  simp only [List.mem_cons, List.not_mem_nil, or_false] at htext
  rcases htext with rfl | rfl
  · rw [← encode_constant.1]
    exact hshort [] (by decide)
  · rw [← encode_constant.2.1]
    exact hshort [0x01] (by decide)

end Encoding

end DataProcessor
