import DataProcessor.Model.TezosFulfill

/-!
# The script function `pack` (`V8Executor.packJavaCallback`)

`pack` answers a script the packed form of a value, for the script to sign
or to send elsewhere, and `Tezos.fulfill` embeds the packed form of its
payload in an operation. Both translate the value to Micheline first. `pack`
calls `toMicheline` on what its type check has made a `V8Object`, and an
extension function is chosen by that static type; `fulfill` calls
`fromValue`, which looks at the value.
-/

namespace DataProcessor

/-- `V8Object.toMicheline()`: `fromV8Object` over the object's keys. -/
def V8Value.toMicheline (sdk : MichelineSdk) (value : V8Value) : Result Micheline := do
  Micheline.fromV8Object sdk (← value.fields)

def V8Executor.packJavaCallback (sdk : TezosSdk) (parameters : List V8Value) :
    Result String := do
  let payload := argument parameters 0
  if payload.isV8Object then
    let packed ← sdk.packToBytes (← payload.toMicheline sdk.toMichelineSdk)
    return toHex packed
  else throw .illegalArgument

/-- The bytes `fulfill` embeds for a payload. -/
def Tezos.embeddedBytes (sdk : TezosSdk) (unserializedPayload : V8Value) :
    Result Bytes := do
  let payload ← Micheline.fromValue sdk.toMichelineSdk unserializedPayload
  sdk.packToBytes payload

/-- The two entry points answer the same for a payload: the same bytes, or
both raise. -/
def PacksLikeFulfill (sdk : TezosSdk) (payload : V8Value) : Prop :=
  (V8Executor.packJavaCallback sdk [payload]).toOption
    = (Tezos.embeddedBytes sdk payload).toOption.map toHex

/-- The packed form as the Tezos protocol defines it: the mark 05, then a
tag for each kind of expression. -/
structure PacksAsDocumented (packToBytes : Micheline → Result Bytes) : Prop where
  mark : ∀ node bytes, packToBytes node = .ok bytes → ∃ body, bytes = 0x05 :: body
  unit : packToBytes (.prim "Unit" []) = .ok [0x05, 0x03, 0x0b]
  pair : ∀ first second bytes,
    packToBytes (.prim "Pair" [first, second]) = .ok bytes ↔
      ∃ body body', packToBytes first = .ok (0x05 :: body) ∧
        packToBytes second = .ok (0x05 :: body') ∧
        bytes = 0x05 :: 0x07 :: 0x07 :: (body ++ body')
  sequence : ∀ nodes bytes,
    packToBytes (.sequence nodes) = .ok bytes ↔
      ∃ bodies : List Bytes,
        List.Forall₂ (fun node body => packToBytes node = .ok (0x05 :: body)) nodes bodies ∧
        bytes = 0x05 :: 0x02 :: (Lib.toBE 4 bodies.flatten.length ++ bodies.flatten)

/-- Where the two entry points agree: on every object, and on an array with
an item that `fulfill` cannot embed either. -/
def PackAgrees (sdk : TezosSdk) : V8Value → Prop
  | .undefined => False
  | .array items => ∃ item ∈ items, (Tezos.embeddedBytes sdk item).toOption = none
  | _ => True

end DataProcessor
