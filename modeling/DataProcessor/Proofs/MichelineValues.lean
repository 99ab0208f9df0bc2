import DataProcessor.Proofs.PackAgreement

/-!
# What a script's value becomes in Micheline

`fromValue` walks a tree of arrays and objects. An array's items keep their
order, an object's values become a right comb of as many members, and the
walk raises exactly where a leaf does, `fromValue_tree`. The source counts
through an object's keys with a start index and two stopping conditions;
`fromV8ObjectFrom_eq` says that the count is the walk along the fields.

A text that starts with `0x` is meant as bytes. Before its digits are read
every `0x` in it is dropped, and each pair of code units goes to a parser
that takes a sign and digits of any script; `readsHex_iff` says which texts
are read as they should be.
-/

namespace DataProcessor

open Lib

/-! ## The tree -/

namespace V8Value

mutual

/-- What a value holds that is neither an array nor an object. -/
def leaves : V8Value → List V8Value
  | .array items => itemLeaves items
  | .object fields | .function fields => fieldLeaves fields
  | leaf => [leaf]

def itemLeaves : List V8Value → List V8Value
  | [] => []
  | item :: items => item.leaves ++ itemLeaves items

def fieldLeaves : List (String × V8Value) → List V8Value
  | [] => []
  | (_, value) :: fields => value.leaves ++ fieldLeaves fields

end

end V8Value

namespace Micheline

variable {sdk : MichelineSdk}

/-- A leaf of no supported type, or a text or number that does not convert. -/
def LeafRaises (sdk : MichelineSdk) : V8Value → Prop
  | .null | .arrayBuffer => True
  | .string text => ∃ e, fromText sdk text = .error e
  | .double value => ∃ e, toBigInteger value = .error e
  | _ => False

theorem raises_map {α β : Type} {f : α → β} {x : Result α} :
    (∃ e, f <$> x = .error e) ↔ ∃ e, x = .error e := by
  cases x with
  | error e => exact ⟨fun _ => ⟨e, rfl⟩, fun _ => ⟨e, rfl⟩⟩
  | ok a =>
      constructor <;>
      · intro h
        obtain ⟨e, h⟩ := h
        cases h

theorem map_ok {α β : Type} {f : α → β} {x : Result α} {b : β} :
    f <$> x = .ok b ↔ ∃ a, x = .ok a ∧ b = f a := by
  cases x with
  | error e => exact ⟨nofun, fun ⟨_, h, _⟩ => nomatch h⟩
  | ok a =>
      show Except.ok (f a) = .ok b ↔ _
      simp [eq_comm]

/-- Two steps and a result raise where one of the steps does. -/
theorem raises_bind₂ {α β γ : Type} {f : α → β → γ} {x : Result α} {y : Result β} :
    (∃ e, (do let a ← x; let b ← y; return f a b : Result γ) = .error e) ↔
      (∃ e, x = .error e) ∨ ∃ e, y = .error e := by
  cases x with
  | error e => exact ⟨fun _ => .inl ⟨e, rfl⟩, fun _ => ⟨e, rfl⟩⟩
  | ok a =>
      show (∃ e, (f a <$> y : Result γ) = .error e) ↔ _
      rw [raises_map]
      simp

mutual

/-- The walk raises where a leaf does, case by case along the value. -/
theorem fromValue_raises : ∀ value : V8Value,
    (∃ e, fromValue sdk value = .error e) ↔
      ∃ leaf ∈ value.leaves, LeafRaises sdk leaf
  | .string text => by simp [fromValue, V8Value.leaves, LeafRaises]
  | .int value => by simp [fromValue, V8Value.leaves, LeafRaises]
  | .boolean value => by simp [fromValue, V8Value.leaves, LeafRaises]
  | .double value => by
      rw [fromValue, raises_map]
      simp [V8Value.leaves, LeafRaises]
  | .undefined => by simp [fromValue, V8Value.leaves, LeafRaises]
  | .null => by simp [fromValue, V8Value.leaves, LeafRaises]
  | .arrayBuffer => by simp [fromValue, V8Value.leaves, LeafRaises]
  | .array items => by
      rw [fromValue, raises_map, fromV8Array_raises items, V8Value.leaves]
  | .object fields => by
      rw [fromValue, fromV8Object_raises fields, V8Value.leaves]
  | .function fields => by
      rw [fromValue, fromV8Object_raises fields, V8Value.leaves]

theorem fromV8Array_raises : ∀ items : List V8Value,
    (∃ e, fromV8Array sdk items = .error e) ↔
      ∃ leaf ∈ V8Value.itemLeaves items, LeafRaises sdk leaf
  | [] => by simp [fromV8Array, V8Value.itemLeaves]
  | item :: items => by
      rw [fromV8Array, raises_bind₂, fromValue_raises item, fromV8Array_raises items]
      simp only [V8Value.itemLeaves, List.mem_append, or_and_right, exists_or]

theorem fromV8Object_raises : ∀ fields : List (String × V8Value),
    (∃ e, fromV8Object sdk fields = .error e) ↔
      ∃ leaf ∈ V8Value.fieldLeaves fields, LeafRaises sdk leaf
  | [] => by simp [fromV8Object, V8Value.fieldLeaves]
  | [(_, value)] => by
      rw [fromV8Object, fromValue_raises value]
      simp [V8Value.fieldLeaves]
  | (_, value) :: field :: fields => by
      rw [fromV8Object, raises_bind₂, fromValue_raises value,
        fromV8Object_raises (field :: fields)]
      · simp only [V8Value.fieldLeaves, List.mem_append, or_and_right, exists_or]
      · simp

end

/-! ## The start index -/

theorem lookup_getElem {fields : List (String × V8Value)}
    (hkeys : (fields.map Prod.fst).Nodup) {start : Nat} (hstart : start < fields.length) :
    fields.lookup fields[start].1 = some fields[start].2 := by
  induction fields generalizing start with
  | nil => simp at hstart
  | cons field fields ih =>
      rw [List.map_cons, List.nodup_cons] at hkeys
      obtain ⟨hnew, hkeys⟩ := hkeys
      cases start with
      | zero => rw [List.getElem_cons_zero, List.lookup_cons_self]
      | succ start =>
          have hlt : start < fields.length := by simpa using hstart
          have hne : fields[start].1 ≠ field.1 := by
            intro heq
            exact hnew (heq ▸ List.mem_map_of_mem (List.getElem_mem hlt))
          rw [List.getElem_cons_succ, List.lookup_cons, beq_false_of_ne hne]
          exact ih hkeys hlt

/-- From a key on, the count is the walk along the fields from there. -/
theorem fromV8ObjectFrom_drop {fields : List (String × V8Value)}
    (hkeys : (fields.map Prod.fst).Nodup) {start : Nat} (hstart : start < fields.length) :
    fromV8ObjectFrom (fromValue sdk) (.object fields) (fields.map Prod.fst) start
      = fromV8Object sdk (fields.drop start) := by
  have hget : (V8Value.object fields).get fields[start].1 = .ok fields[start].2 := by
    show Except.ok ((fields.lookup fields[start].1).getD .undefined) = _
    rw [lookup_getElem hkeys hstart]
    rfl
  have hne : ¬ (fields.map Prod.fst).isEmpty = true := by
    rw [List.isEmpty_iff, List.map_eq_nil_iff]
    rintro rfl
    exact Nat.not_lt_zero _ hstart
  rw [fromV8ObjectFrom, if_neg hne, dif_pos (by simpa using hstart),
    List.drop_eq_getElem_cons hstart]
  simp only [List.length_map, List.getElem_map, hget]
  -- The induction is on the keys behind `start`; the last one ends the comb.
  by_cases hlast : fields.length - start = 1
  · rw [if_pos hlast, List.drop_eq_nil_of_le (by omega), fromV8Object]
    rfl
  · have hnext : start + 1 < fields.length := by omega
    rw [if_neg hlast, fromV8ObjectFrom_drop hkeys hnext, fromV8Object]
    · rfl
    · rw [List.drop_eq_getElem_cons hnext]
      exact nofun
termination_by fields.length - start

theorem fromV8ObjectFrom_eq {fields : List (String × V8Value)}
    (hkeys : (fields.map Prod.fst).Nodup) :
    fromV8ObjectFrom (fromValue sdk) (.object fields) (fields.map Prod.fst) 0
      = fromV8Object sdk fields := by
  cases fields with
  | nil => rw [List.map_nil, fromV8ObjectFrom, fromV8Object]; rfl
  | cons field fields => exact fromV8ObjectFrom_drop hkeys (Nat.zero_lt_succ _)

/-- An array becomes the sequence of its items' images in their order, and an
object the right comb of its values' images in theirs, counted over its keys
as the source does. `undefined` is a `Unit`. A value raises where one of its
leaves does. -/
theorem fromValue_tree (sdk : MichelineSdk) :
    (∀ items node, fromValue sdk (.array items) = .ok node ↔
      ∃ nodes, List.Forall₂ (fun item node => fromValue sdk item = .ok node) items nodes ∧
        node = .sequence nodes) ∧
    (∀ fields node, (fields.map Prod.fst).Nodup →
      fromValue sdk (.object fields) = fromV8ObjectFrom (fromValue sdk) (.object fields)
        (fields.map Prod.fst) 0 ∧
      (fromValue sdk (.object fields) = .ok node ↔
        ∃ nodes, List.Forall₂ (fun field node => fromValue sdk field.2 = .ok node)
            fields nodes ∧
          node = comb nodes)) ∧
    fromValue sdk (.object []) = .ok (.prim "Unit" []) ∧
    fromValue sdk .undefined = .ok (.prim "Unit" []) ∧
    ∀ value, (∃ e, fromValue sdk value = .error e) ↔
      ∃ leaf ∈ value.leaves, LeafRaises sdk leaf := by
  refine ⟨fun items node => ?_, fun fields node hkeys => ⟨?_, ?_⟩, ?_, rfl,
    fromValue_raises⟩
  · rw [fromValue, map_ok]
    simp only [fromV8Array_ok]
  · rw [fromValue, fromV8ObjectFrom_eq hkeys]
  · rw [fromValue, fromV8Object_eq, map_ok]
    simp only [fromV8Array_ok, List.forall₂_map_left_iff]
  · rw [fromValue, fromV8Object]
    rfl

theorem fromValue_tree_object :
    fromValue idleTezosSdk.toMichelineSdk
        (.object [("ok", .boolean true), ("at", .int 7), ("then", .undefined)])
      = .ok (fromPair (fromBool true) (fromPair (fromNat 7) fromEmptyValue)) := by
  refine (((fromValue_tree idleTezosSdk.toMichelineSdk).2.1 _ _ (by decide)).2).2
    ⟨[fromBool true, fromNat 7, fromEmptyValue], ?_, rfl⟩
  exact .cons rfl (.cons rfl (.cons rfl .nil))

end Micheline

/-! ## Digits in pairs -/

/-- What `toInt(16)` reads of two code units: two digits, or a sign and one. -/
def ReadablePair (pair : Nat × Nat) : Prop :=
  (pair.1 = 0x2D ∨ pair.1 = 0x2B ∨ (charDigit 16 pair.1).isSome) ∧
    (charDigit 16 pair.2).isSome

/-- The code units two by two, a last unpaired one left out. -/
def unitPairs : List Nat → List (Nat × Nat)
  | first :: second :: rest => (first, second) :: unitPairs rest
  | _ => []

theorem parseHexPair_ok_iff {first second : Nat} :
    (∃ n, parseHexPair first second = .ok n) ↔ ReadablePair (first, second) := by
  unfold ReadablePair
  by_cases hminus : first = 0x2D
  · cases hsecond : charDigit 16 second <;> simp [parseHexPair, hminus, hsecond, Except.map]
  · by_cases hplus : first = 0x2B
    · cases hsecond : charDigit 16 second <;> simp [parseHexPair, hplus, hsecond]
    · cases hfirst : charDigit 16 first <;> cases hsecond : charDigit 16 second <;>
        simp [parseHexPair, hminus, hplus, hfirst, hsecond, bind, Except.bind, pure,
          Except.pure]

theorem hexStringToByteArray_go_ok_iff (units : List Nat) :
    (∃ bytes, hexStringToByteArray.go units = .ok bytes) ↔
      ∀ pair ∈ unitPairs units, ReadablePair pair := by
  induction units using unitPairs.induct with
  | case1 first second rest ih =>
      rw [hexStringToByteArray.go, unitPairs, List.forall_mem_cons,
        ← parseHexPair_ok_iff, ← ih]
      simp only [bind_ok]
      constructor
      · intro h
        obtain ⟨_, n, hn, bytes, hbytes, -⟩ := h
        exact ⟨⟨n, hn⟩, bytes, hbytes⟩
      · intro h
        obtain ⟨⟨n, hn⟩, bytes, hbytes⟩ := h
        exact ⟨_, n, hn, bytes, hbytes, rfl⟩
  | case2 units hshort =>
      rw [unitPairs, hexStringToByteArray.go] <;> simp_all

theorem isHexDigit_spec {c : Char} (hc : isHexDigit c = true) :
    ∃ d, d < 16 ∧ charDigit 16 c.toNat = some d ∧ c.toLower = d.digitChar ∧
      c.toNat ≠ 0x2D ∧ c.toNat ≠ 0x2B ∧ c ≠ 'x' := by
  have hall : ∀ n ∈ List.range 128, isHexDigit (Char.ofNat n) = true →
      ∃ d ∈ List.range 16, charDigit 16 (Char.ofNat n).toNat = some d ∧
        (Char.ofNat n).toLower = d.digitChar ∧ (Char.ofNat n).toNat ≠ 0x2D ∧
        (Char.ofNat n).toNat ≠ 0x2B ∧ Char.ofNat n ≠ 'x' := by
    decide +kernel
  have hlt : c.toNat < 128 := by
    unfold isHexDigit at hc
    simp at hc
    exact hc.1
  have h := hall c.toNat (List.mem_range.2 hlt)
  rw [Char.ofNat_toNat] at h
  obtain ⟨d, hd, h⟩ := h hc
  exact ⟨d, List.mem_range.1 hd, h⟩

theorem isHexDigit_toLower {c : Char} (hc : isHexDigit c.toLower = true) :
    isHexDigit c = true := by
  have hall : ∀ n ∈ List.range 128, isHexDigit (Char.ofNat n).toLower = true →
      isHexDigit (Char.ofNat n) = true := by
    decide +kernel
  by_cases hlt : c.toNat < 128
  · have h := hall c.toNat (List.mem_range.2 hlt)
    rw [Char.ofNat_toNat] at h
    exact h hc
  · have heq : c.toLower = c := by
      unfold Char.toLower
      rw [dif_neg]
      intro h
      have hle := h.2
      rw [UInt32.le_iff_toNat_le] at hle
      exact hlt (Nat.lt_of_le_of_lt hle (by decide))
    rwa [heq] at hc

theorem replaceHexMark_of_hex {cs : List Char} (h : ∀ c ∈ cs, isHexDigit c = true) :
    Micheline.replaceHexMark cs = cs := by
  induction cs using Micheline.replaceHexMark.induct with
  | case1 cs ih => exact absurd (h 'x' (by simp)) (by decide)
  | case2 c cs hmark ih =>
      rw [Micheline.replaceHexMark, ih fun c' hc' => h c' (by simp [hc'])]
      exact hmark
  | case3 => rfl

/-- Digits in pairs are read as the bytes they are the form of. -/
theorem hexStringToByteArray_of_hex {cs : List Char} (h : ∀ c ∈ cs, isHexDigit c = true)
    (heven : cs.length % 2 = 0) :
    ∃ bytes, hexStringToByteArray (String.ofList cs) = .ok bytes ∧
      cs.map Char.toLower = hexChars bytes := by
  have hunits : codeUnits (String.ofList cs) = cs.map Char.toNat := by
    rw [codeUnits_of_lt] <;> rw [String.toList_ofList]
    intro c hc
    have hdigit := h c hc
    simp only [isHexDigit, Bool.and_eq_true, decide_eq_true_eq] at hdigit
    omega
  rw [hexStringToByteArray, hunits]
  clear hunits
  induction cs using List.twoStepInduction with
  | nil => exact ⟨[], rfl, rfl⟩
  | singleton c => simp at heven
  | cons_cons first second cs ih =>
      obtain ⟨bytes, hgo, hlower⟩ := ih (fun c hc => h c (by simp [hc]))
        (by simp only [List.length_cons] at heven; omega)
      obtain ⟨hi, hhi, hfirst, hfirstLower, hminus, hplus, -⟩ :=
        isHexDigit_spec (h first (by simp))
      obtain ⟨lo, hlo, hsecond, hsecondLower, -⟩ :=
        isHexDigit_spec (h second (by simp))
      have hpair : parseHexPair first.toNat second.toNat = .ok (hi * 16 + lo) := by
        rw [parseHexPair, if_neg hminus, if_neg hplus]
        simp only [hfirst, hsecond]
        rfl
      have hbyte : (UInt8.ofNat (((hi : Int) * 16 + lo) % 256).toNat).toNat
          = hi * 16 + lo := by
        rw [UInt8.toNat_ofNat']
        omega
      refine ⟨UInt8.ofNat (((hi : Int) * 16 + lo) % 256).toNat :: bytes, ?_, ?_⟩
      · rw [List.map_cons, List.map_cons, hexStringToByteArray.go, hpair, hgo]
        rfl
      · show _ = [_, _] ++ hexChars bytes
        rw [hbyte, show (hi * 16 + lo) / 16 = hi by omega,
          show (hi * 16 + lo) % 16 = lo by omega, ← hfirstLower, ← hsecondLower, ← hlower]
        rfl

theorem hex_of_toLower {cs : List Char} {bytes : Bytes}
    (h : cs.map Char.toLower = hexChars bytes) :
    (∀ c ∈ cs, isHexDigit c = true) ∧ cs.length % 2 = 0 := by
  refine ⟨fun c hc => isHexDigit_toLower ?_, ?_⟩
  · refine @isHexDigit_of_mem_hexChars bytes _ ?_
    rw [← h]
    exact List.mem_map_of_mem hc
  · have hlen := length_hexChars bytes
    rw [← h, List.length_map] at hlen
    omega

/-! ## Texts of bytes -/

namespace Micheline

variable {sdk : MichelineSdk}

/-- A text after its `0x` is read as the bytes it is the hexadecimal form
of, in either case of the letters, and refused when it is of none. -/
def ReadsHex (sdk : MichelineSdk) (rest : String) : Prop :=
  ∀ node, fromValue sdk (.string ("0x" ++ rest)) = .ok node ↔
    ∃ value, rest.toList.map Char.toLower = hexChars value ∧ node = .bytes value

theorem fromValue_hexMark (rest : String) :
    fromValue sdk (.string ("0x" ++ rest))
      = bytes <$> hexStringToByteArray (String.ofList (replaceHexMark rest.toList)) := by
  have htext : ("0x" ++ rest).toList = '0' :: 'x' :: rest.toList := by
    rw [String.toList_append]
    rfl
  rw [fromValue, fromText, htext]
  rfl

/-- The digits are read where every pair of what is left is readable. -/
theorem fromValue_hexMark_ok_iff {rest : String} :
    (∃ node, fromValue sdk (.string ("0x" ++ rest)) = .ok node) ↔
      ∀ pair ∈ unitPairs (codeUnits (String.ofList (replaceHexMark rest.toList))),
        ReadablePair pair := by
  rw [← hexStringToByteArray_go_ok_iff, fromValue_hexMark]
  simp only [map_ok]
  constructor
  · intro h
    obtain ⟨_, value, hvalue, -⟩ := h
    exact ⟨value, hvalue⟩
  · intro h
    obtain ⟨value, hvalue⟩ := h
    exact ⟨_, value, hvalue, rfl⟩

/-- The bytes of digits in pairs. -/
theorem fromValue_of_hex {rest : String} (hhex : ∀ c ∈ rest.toList, isHexDigit c = true)
    (heven : rest.toList.length % 2 = 0) :
    ∃ value, fromValue sdk (.string ("0x" ++ rest)) = .ok (.bytes value) ∧
      rest.toList.map Char.toLower = hexChars value := by
  obtain ⟨value, hvalue, hlower⟩ := hexStringToByteArray_of_hex hhex heven
  rw [← replaceHexMark_of_hex hhex] at hvalue
  exact ⟨value, by rw [fromValue_hexMark, hvalue]; rfl, hlower⟩

/-- A text after its `0x` is read as it should be exactly where it is digits
in pairs, or where a pair that is left after every `0x` is dropped is
neither two digits nor a sign and a digit, so that it raises. -/
theorem readsHex_iff (sdk : MichelineSdk) (rest : String) :
    ReadsHex sdk rest ↔
      (rest.toList.length % 2 = 0 ∧ ∀ c ∈ rest.toList, isHexDigit c = true) ∨
      ∃ pair ∈ unitPairs (codeUnits (String.ofList (replaceHexMark rest.toList))),
        ¬ ReadablePair pair := by
  constructor
  · intro hreads
    by_cases hall : ∀ pair ∈ unitPairs
        (codeUnits (String.ofList (replaceHexMark rest.toList))), ReadablePair pair
    · obtain ⟨node, hnode⟩ := (@fromValue_hexMark_ok_iff sdk _).2 hall
      obtain ⟨value, hlower, -⟩ := (hreads node).1 hnode
      obtain ⟨hhex, heven⟩ := hex_of_toLower hlower
      exact .inl ⟨heven, hhex⟩
    · push Not at hall
      exact .inr hall
  · intro hgiven node
    rcases hgiven with ⟨heven, hhex⟩ | ⟨pair, hmem, hbad⟩
    · obtain ⟨value, hvalue, hlower⟩ := @fromValue_of_hex sdk _ hhex heven
      rw [hvalue]
      constructor
      · intro h
        injection h with h
        exact ⟨value, hlower, h.symm⟩
      · intro h
        obtain ⟨value', hlower', rfl⟩ := h
        have heq : toHex value = toHex value' := by
          rw [← String.toList_inj, toList_toHex, toList_toHex, ← hlower, hlower']
        rw [toHex_inj heq]
    · have hraises : ¬ ∃ node, fromValue sdk (.string ("0x" ++ rest)) = .ok node := by
        rw [fromValue_hexMark_ok_iff]
        exact fun hall => hbad (hall pair hmem)
      constructor
      · intro h
        exact absurd ⟨node, h⟩ hraises
      · intro h
        obtain ⟨value, hlower, -⟩ := h
        obtain ⟨hhex, heven⟩ := hex_of_toLower hlower
        obtain ⟨value', hvalue, -⟩ := @fromValue_of_hex sdk _ hhex heven
        exact absurd ⟨_, hvalue⟩ hraises

theorem not_readsHex {rest : String} {value : Bytes}
    (hvalue : fromValue sdk (.string ("0x" ++ rest)) = .ok (.bytes value))
    (hbad : ¬ (rest.toList.length % 2 = 0 ∧ ∀ c ∈ rest.toList, isHexDigit c = true)) :
    ¬ ReadsHex sdk rest := by
  intro hreads
  obtain ⟨_, hlower, -⟩ := (hreads _).1 hvalue
  obtain ⟨hhex, heven⟩ := hex_of_toLower hlower
  exact hbad ⟨heven, hhex⟩

/-- An odd digit is dropped, and so is a second `0x`; a sign with a digit and
two full-width digits are read as a byte. -/
theorem fromValue_misreads :
    let read (rest : String) :=
      fromValue idleTezosSdk.toMichelineSdk (.string ("0x" ++ rest))
    (read "123" = .ok (.bytes [0x12]) ∧ ¬ ReadsHex idleTezosSdk.toMichelineSdk "123") ∧
    (read "0x12" = .ok (.bytes [0x12]) ∧ ¬ ReadsHex idleTezosSdk.toMichelineSdk "0x12") ∧
    (read "+1" = .ok (.bytes [0x01]) ∧ ¬ ReadsHex idleTezosSdk.toMichelineSdk "+1") ∧
    (read "-f" = .ok (.bytes [0xf1]) ∧ ¬ ReadsHex idleTezosSdk.toMichelineSdk "-f") ∧
    (read (String.ofList ['１', '２']) = .ok (.bytes [0x12]) ∧
      ¬ ReadsHex idleTezosSdk.toMichelineSdk (String.ofList ['１', '２'])) := by
  have hwrong : ∀ cs value,
      hexStringToByteArray (String.ofList (replaceHexMark cs)) = .ok value →
      ¬ (cs.length % 2 = 0 ∧ ∀ c ∈ cs, isHexDigit c = true) →
      fromValue idleTezosSdk.toMichelineSdk (.string ("0x" ++ String.ofList cs))
          = .ok (.bytes value) ∧
        ¬ ReadsHex idleTezosSdk.toMichelineSdk (String.ofList cs) := by
    intro cs value hread hbad
    rw [← String.toList_ofList (l := cs)] at hread hbad
    have hvalue : fromValue idleTezosSdk.toMichelineSdk (.string ("0x" ++ String.ofList cs))
        = .ok (.bytes value) := by
      rw [fromValue_hexMark, hread]
      rfl
    exact ⟨hvalue, not_readsHex hvalue hbad⟩
  refine ⟨hwrong ['1', '2', '3'] _ rfl (by decide), ?_, ?_, ?_, ?_⟩
  · exact hwrong ['0', 'x', '1', '2'] _ rfl fun h =>
      absurd (h.2 'x' (by simp)) (by decide)
  · exact hwrong ['+', '1'] _ rfl fun h => absurd (h.2 '+' (by simp)) (by decide)
  · exact hwrong ['-', 'f'] _ (by decide +kernel) fun h =>
      absurd (h.2 '-' (by simp)) (by decide)
  · exact hwrong ['１', '２'] _ rfl fun h => absurd (h.2 '１' (by simp)) (by decide)

end Micheline

end DataProcessor
