import DataProcessor.Model.Kotlin

/-!
# Values a script hands to the host

The Java objects J2V8 makes of JavaScript values. A number that fits 32 bits
arrives as an `Integer`, any other as a `Double`; arrays, functions and
`undefined` are all subclasses of `V8Object`, an `ArrayBuffer` is not.
-/

namespace DataProcessor

/-- A JavaScript double, as `BigDecimal.valueOf` reads it: the decimal
`unscaled * 10 ^ (-scale)`, or a value that has none. -/
inductive JsDouble
  | finite (unscaled scale : Int)
  | nonFinite
  deriving DecidableEq

inductive V8Value
  | undefined
  | null
  | string (text : String)
  | int (value : Int32)
  | boolean (value : Bool)
  | double (value : JsDouble)
  | array (items : List V8Value)
  | object (fields : List (String × V8Value))
  | function (fields : List (String × V8Value))
  | arrayBuffer

namespace V8Value

def isV8Object : V8Value → Bool
  | undefined | array _ | object _ | function _ => true
  | _ => false

/-- The properties of a `V8Object` under its keys, in key order. The keys of
an array are its indices, and `undefined` answers no question. -/
def fields : V8Value → Result (List (String × V8Value))
  | undefined => .error .unsupportedOperation
  | array items => .ok (items.zipIdx.map fun (v, i) => (toString i, v))
  | object fs | function fs => .ok fs
  | _ => .error .classCast

def keys (v : V8Value) : Result (List String) := do
  return (← v.fields).map Prod.fst

/-- `get(key)`: a name the object lacks is `undefined`. -/
def get (v : V8Value) (key : String) : Result V8Value := do
  return ((← v.fields).lookup key).getD .undefined

/-- The value under a name, if the object has the name. -/
def entry (v : V8Value) (key : String) : Option V8Value :=
  v.fields.toOption.bind (·.lookup key)

/-- The check on entry to a function whose parameter is not nullable. -/
def checkNotNull : V8Value → Result Unit
  | null => .error .nullPointer
  | _ => .ok ()

end V8Value

/-- `parameters[i]`: an argument the script left out is `undefined`. -/
def argument (parameters : List V8Value) (i : Nat) : V8Value :=
  parameters.getD i .undefined

end DataProcessor
