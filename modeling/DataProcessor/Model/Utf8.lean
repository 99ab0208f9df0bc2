import DataProcessor.Model.Kotlin

/-!
# Text from bytes and back

`String(bytes)` reads UTF-8 and never fails: each malformed part becomes one
replacement character. `toByteArray()` writes UTF-8. The text of well-formed
bytes is written back as they were, and what is written is always
well-formed, so the two are inverse on well-formed bytes and nowhere else.
-/

namespace DataProcessor

/-- `bytes` are UTF-8, in the sense of the Unicode standard. -/
def IsUtf8 (bytes : Bytes) : Prop := bytes.toByteArray.IsValidUTF8

namespace Utf8

/-- U+FFFD. -/
def replacement : Char := '\uFFFD'

def isTail (byte : UInt8) : Bool := 0x80 ≤ byte && byte ≤ 0xBF

/-- What may follow the lead byte of a character. -/
def allowsSecond (lead second : UInt8) : Bool :=
  if lead = 0xE0 then 0xA0 ≤ second && second ≤ 0xBF
  else if lead = 0xED then 0x80 ≤ second && second ≤ 0x9F
  else if lead = 0xF0 then 0x90 ≤ second && second ≤ 0xBF
  else if lead = 0xF4 then 0x80 ≤ second && second ≤ 0x8F
  else isTail second

/-- How many bytes one replacement character stands for, where no character
begins: those that could have begun one, and at least one. -/
def malformedLength : Bytes → Nat
  | lead :: second :: rest =>
      if 0xE0 ≤ lead ∧ lead ≤ 0xF4 ∧ allowsSecond lead second then
        if 0xF0 ≤ lead ∧ rest.head?.any isTail then 3 else 2
      else 1
  | _ => 1

/-- The characters of `bytes`; the first argument bounds their number. -/
def decode : Nat → Bytes → List Char
  | 0, _ => []
  | _ + 1, [] => []
  | fuel + 1, byte :: bytes =>
      match (byte :: bytes).toByteArray.utf8DecodeChar? 0 with
      | some c => c :: decode fuel ((byte :: bytes).drop c.utf8Size)
      | none => replacement ::
          decode fuel ((byte :: bytes).drop (malformedLength (byte :: bytes)))

end Utf8

/-- `String(bytes)`. -/
def stringOfBytes (bytes : Bytes) : String :=
  String.ofList (Utf8.decode bytes.length bytes)

/-- `toByteArray()`. -/
def bytesOfString (text : String) : Bytes :=
  text.toList.flatMap String.utf8EncodeChar

theorem toByteArray_bytesOfString (text : String) :
    (bytesOfString text).toByteArray = text.toByteArray := by
  rw [← String.utf8Encode_toList]
  rfl

theorem isUtf8_bytesOfString (text : String) : IsUtf8 (bytesOfString text) := by
  unfold IsUtf8
  rw [toByteArray_bytesOfString]
  exact text.isValidUTF8

/-- Each character is read off the front again. The induction is on the
characters; the bound only has to reach the last byte. -/
theorem Utf8.decode_flatMap (cs : List Char) {fuel : Nat}
    (hfuel : (cs.flatMap String.utf8EncodeChar).length ≤ fuel) :
    Utf8.decode fuel (cs.flatMap String.utf8EncodeChar) = cs := by
  induction cs generalizing fuel with
  | nil => cases fuel <;> rfl
  | cons c cs ih =>
      have hsize : (String.utf8EncodeChar c).length = c.utf8Size :=
        String.length_utf8EncodeChar c
      have hpos := c.utf8Size_pos
      have hread : (String.utf8EncodeChar c ++
          cs.flatMap String.utf8EncodeChar).toByteArray.utf8DecodeChar? 0 = some c := by
        rw [List.toByteArray_append]
        exact ByteArray.utf8DecodeChar?_utf8EncodeChar_append
      rw [List.flatMap_cons] at hfuel ⊢
      rw [List.length_append] at hfuel
      cases hbytes : String.utf8EncodeChar c ++ cs.flatMap String.utf8EncodeChar with
      | nil =>
          have hlen := congrArg List.length hbytes
          simp only [List.length_append, List.length_nil] at hlen
          omega
      | cons byte bytes =>
          cases fuel with
          | zero => omega
          | succ fuel =>
              rw [Utf8.decode, ← hbytes, hread]
              simp only
              rw [← hsize, List.drop_left, ih (by omega)]

theorem stringOfBytes_bytesOfString (text : String) :
    stringOfBytes (bytesOfString text) = text := by
  unfold stringOfBytes bytesOfString
  rw [Utf8.decode_flatMap _ (Nat.le_refl _)]
  exact String.ofList_toList

theorem bytesOfString_stringOfBytes_iff {bytes : Bytes} :
    bytesOfString (stringOfBytes bytes) = bytes ↔ IsUtf8 bytes := by
  constructor
  · intro h
    rw [← h]
    exact isUtf8_bytesOfString _
  · intro hgiven
    obtain ⟨cs, hcs⟩ := hgiven
    have hbytes : bytes = bytesOfString (String.ofList cs) := by
      have harray : bytes.toByteArray =
          (bytesOfString (String.ofList cs)).toByteArray := by
        rw [toByteArray_bytesOfString, String.toByteArray_ofList, hcs]
      have hlist := congrArg (fun b => b.data.toList) harray
      simpa using hlist
    rw [hbytes, stringOfBytes_bytesOfString]

end DataProcessor
