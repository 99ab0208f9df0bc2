import DataProcessor.Model.Kotlin

/-!
# The typed stores of the platform

A `Bundle` carries arguments from one component to the next, a
`SharedPreferences` file keeps values between runs. Both map a name to a
value of one of a few types, and they differ in what a getter does with a
value of another type: a bundle answers its default, a preference file
raises.
-/

namespace DataProcessor

inductive BundleValue
  | byteArray (value : Bytes)
  | string (value : String)
  | int (value : Int32)
  | long (value : Int64)
  | boolean (value : Bool)
  deriving DecidableEq

abbrev Bundle := String → Option BundleValue

namespace Bundle

def empty : Bundle := fun _ => none

/-- `putString`, `putInt`, and so on: the name's old value goes, whatever
its type was. -/
def put (b : Bundle) (key : String) (value : BundleValue) : Bundle :=
  Function.update b key (some value)

@[simp] theorem put_self (b : Bundle) (key : String) (value : BundleValue) :
    b.put key value key = some value :=
  Function.update_self ..

@[simp] theorem put_of_ne {key name : String} (h : name ≠ key) (b : Bundle)
    (value : BundleValue) : b.put key value name = b name :=
  Function.update_of_ne h ..

def getLong (b : Bundle) (key : String) : Int64 :=
  match b key with
  | some (.long value) => value
  | _ => 0

def getString? (b : Bundle) (key : String) : Option String :=
  match b key with
  | some (.string value) => some value
  | _ => none

def getString (b : Bundle) (key default : String) : String :=
  (b.getString? key).getD default

end Bundle

inductive PrefValue
  | string (value : String)
  | int (value : Int32)
  | long (value : Int64)
  | boolean (value : Bool)
  deriving DecidableEq

abbrev SharedPreferences := String → Option PrefValue

namespace SharedPreferences

def empty : SharedPreferences := fun _ => none

def contains (prefs : SharedPreferences) (key : String) : Bool :=
  (prefs key).isSome

def put (prefs : SharedPreferences) (key : String) (value : PrefValue) :
    SharedPreferences :=
  Function.update prefs key (some value)

@[simp] theorem put_self (prefs : SharedPreferences) (key : String)
    (value : PrefValue) : prefs.put key value key = some value :=
  Function.update_self ..

@[simp] theorem put_of_ne {key name : String} (h : name ≠ key)
    (prefs : SharedPreferences) (value : PrefValue) :
    prefs.put key value name = prefs name :=
  Function.update_of_ne h ..

def getString (prefs : SharedPreferences) (key default : String) :
    Result String :=
  match prefs key with
  | none => .ok default
  | some (.string value) => .ok value
  | some _ => .error .classCast

def getInt (prefs : SharedPreferences) (key : String) (default : Int32) :
    Result Int32 :=
  match prefs key with
  | none => .ok default
  | some (.int value) => .ok value
  | some _ => .error .classCast

def getLong (prefs : SharedPreferences) (key : String) (default : Int64) :
    Result Int64 :=
  match prefs key with
  | none => .ok default
  | some (.long value) => .ok value
  | some _ => .error .classCast

end SharedPreferences

end DataProcessor
