import DataProcessor.Model.ByteArrays
import DataProcessor.Model.V8

/-!
# From a script's value to Micheline (`protocol/tezos/Micheline.kt`)

`fromValue` reads a script value as a Micheline expression: a text as a
signature, as bytes or as itself, by its first characters; a number as an
integer; an array as a sequence; an object as the right comb of its values.
The expression type and the few things asked of the Tezos libraries, what a
signature decodes to and which texts a string literal takes, stand for
those libraries.
-/

namespace DataProcessor

inductive Micheline
  | int (text : String)
  | string (text : String)
  | bytes (value : Bytes)
  | prim (name : String) (args : List Micheline)
  | sequence (nodes : List Micheline)

/-- What the Tezos libraries decide about the texts handed to them. -/
structure MichelineSdk where
  /-- `Signature(value).encodeToBytes()`. -/
  signatureToBytes : String → Result Bytes
  /-- `micheline { string(value) }`. -/
  string : String → Result Micheline

namespace Micheline

/-- `replace("0x", "")`: every occurrence, from the left. -/
def replaceHexMark : List Char → List Char
  | '0' :: 'x' :: cs => replaceHexMark cs
  | c :: cs => c :: replaceHexMark cs
  | [] => []

def fromNat (value : Int) : Micheline := int (toString value)

def fromBool (value : Bool) : Micheline :=
  if value then prim "True" [] else prim "False" []

def fromPair (first second : Micheline) : Micheline :=
  prim "Pair" [first, second]

def fromEmptyValue : Micheline := prim "Unit" []

/-- `BigDecimal.valueOf(value).toBigInteger()`: the part after the decimal
point is dropped. -/
def toBigInteger : JsDouble → Result Int
  | .finite unscaled scale =>
      .ok (if 0 ≤ scale then unscaled.tdiv (10 ^ scale.toNat)
        else unscaled * 10 ^ (-scale).toNat)
  | .nonFinite => .error .numberFormat

variable (sdk : MichelineSdk)

/-- The `String` branch of `fromValue`. -/
def fromText (text : String) : Result Micheline :=
  if "sig".toList.isPrefixOf text.toList then
    bytes <$> sdk.signatureToBytes text
  else if "0x".toList.isPrefixOf text.toList then
    bytes <$> hexStringToByteArray (String.ofList (replaceHexMark text.toList))
  else sdk.string text

mutual

def fromValue : V8Value → Result Micheline
  | .string text => fromText sdk text
  | .int value => .ok (fromNat value.toInt)
  | .boolean value => .ok (fromBool value)
  | .double value => fromNat <$> toBigInteger value
  | .array items => sequence <$> fromV8Array items
  | .undefined => .ok fromEmptyValue
  | .object fields | .function fields => fromV8Object fields
  -- The parameter is not nullable, and Kotlin checks it on entry.
  | .null => .error .nullPointer
  | .arrayBuffer => .error .unsupportedEncoding

def fromV8Array : List V8Value → Result (List Micheline)
  | [] => .ok []
  | item :: items => do
      let first ← fromValue item
      let rest ← fromV8Array items
      return first :: rest

def fromV8Object : List (String × V8Value) → Result Micheline
  | [] => .ok fromEmptyValue
  | [(_, value)] => fromValue value
  | (_, value) :: rest => do
      let first ← fromValue value
      let second ← fromV8Object rest
      return fromPair first second

end

/-- `fromV8Object` as it counts: from a start index over the object's keys,
each looked up in the object. -/
def fromV8ObjectFrom (fromValue : V8Value → Result Micheline) (value : V8Value)
    (keys : List String) (start : Nat) : Result Micheline :=
  if keys.isEmpty then .ok fromEmptyValue
  else if hstart : start < keys.length then
    if keys.length - start = 1 then value.get keys[start] >>= fromValue
    else do
      let first ← value.get keys[start] >>= fromValue
      let second ← fromV8ObjectFrom fromValue value keys (start + 1)
      return fromPair first second
  else .error .indexOutOfBounds
termination_by keys.length - start

end Micheline

end DataProcessor
