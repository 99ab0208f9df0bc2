import DataProcessor.Model.Android
import DataProcessor.Model.V8

/-!
# What the script-visible functions share (`v8/prelude`)

`chains.tezos.fulfill` and `chains.ethereum.fulfill` copy the script's
`extra` object into a bundle, entry by entry, each under its own name and
with the type the script gave it. `putExtras_apply` says what a name holds
afterwards; the protocol classes read the bundle back in their own files.
-/

namespace DataProcessor

/-- The signing half of the device (`crypto/ICrypto.kt`). -/
structure ICrypto where
  rawStreamDecrypt : Bytes → Bytes → Bytes → Result Bytes
  rawStreamEncrypt : Bytes → Bytes → Bytes → Result Bytes
  rawSign : Bytes → Result Bytes
  getPublicKey : Bool → Result Bytes

namespace Prelude

/-- The body of the loop over `extra.keys`. -/
def putExtra (context : Bundle) (key : String) (value : V8Value) :
    Result Bundle :=
  match value with
  | .string value => .ok (context.put key (.string value))
  | .int value => .ok (context.put key (.int value))
  | .boolean value => .ok (context.put key (.boolean value))
  | _ => .error .illegalArgument

def putExtras (extra : V8Value) (context : Bundle) : Result Bundle := do
  if extra.isV8Object then
    let keys ← extra.keys
    keys.foldlM (fun context key => do
      let value ← extra.get key
      putExtra context key value) context
  else throw .illegalArgument

/-- What a bundle keeps of a script value. -/
def bundleValue : V8Value → Option BundleValue
  | .string value => some (.string value)
  | .int value => some (.int value)
  | .boolean value => some (.boolean value)
  | _ => none

theorem putExtra_ok {context context' : Bundle} {key : String} {value : V8Value}
    (h : putExtra context key value = .ok context') (name : String) :
    context' name = if name = key then bundleValue value else context name := by
  cases value <;> simp only [putExtra, reduceCtorEq, Except.ok.injEq] at h <;>
    (subst h; by_cases hn : name = key <;> simp [hn, bundleValue])

/-- The loop over some of the keys. The induction is on the keys still to
come; a repeated key writes the same value again. -/
theorem foldlM_putExtra {extra : V8Value} {fs : List (String × V8Value)}
    (hfs : extra.fields = .ok fs) {keys : List String} {context context' : Bundle}
    (h : keys.foldlM (fun context key => do
        let value ← extra.get key
        putExtra context key value) context = .ok context')
    (name : String) :
    context' name = if name ∈ keys then
      bundleValue ((fs.lookup name).getD .undefined) else context name := by
  induction keys generalizing context with
  | nil => cases h; simp
  | cons key keys ih =>
      rw [List.foldlM_cons, bind_ok] at h
      obtain ⟨next, hnext, h⟩ := h
      rw [V8Value.get, hfs] at hnext
      rw [ih h, putExtra_ok hnext]
      by_cases hk : name = key
      · subst hk
        simp
      · simp [hk]

theorem mem_map_fst_iff_lookup {fs : List (String × V8Value)} {name : String} :
    name ∈ fs.map Prod.fst ↔ (fs.lookup name).isSome := by
  rw [List.lookup_isSome_iff, List.mem_map]
  constructor
  · intro hgiven
    obtain ⟨p, hp, rfl⟩ := hgiven
    exact ⟨p, hp, by simp⟩
  · intro hgiven
    obtain ⟨p, hp, heq⟩ := hgiven
    exact ⟨p, hp, (by simpa using heq : name = p.1).symm⟩

/-- After the loop a name of the script holds the script's value, and any
other name what it held before. -/
theorem putExtras_apply {extra : V8Value} {context context' : Bundle}
    (h : putExtras extra context = .ok context') (name : String) :
    context' name = (extra.entry name).elim (context name) bundleValue := by
  unfold putExtras at h
  split at h
  · next hobj =>
      obtain ⟨keys, hkeys, h⟩ := bind_ok.1 h
      obtain ⟨fs, hfs, hkeys⟩ := bind_ok.1 hkeys
      cases hkeys
      rw [foldlM_putExtra hfs h, V8Value.entry, hfs]
      simp only [mem_map_fst_iff_lookup, Except.toOption, Option.bind_some]
      cases fs.lookup name <;> rfl
  · cases h

end Prelude

end DataProcessor
