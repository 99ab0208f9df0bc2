import DataProcessor.Model.Pack
import DataProcessor.Proofs.Extras

/-!
# When `pack` answers what `fulfill` embeds

For an object the two are one function. An array is a `V8Object` too, so
`pack` reads it as one: it combs the items into pairs where `fulfill` makes
them a sequence. The two bodies begin with different tags, or differ in
length, so they agree on an array only where an item cannot be packed at all
and both raise. `undefined` is the third case: `pack` asks it for its keys,
which raises, and `fulfill` embeds a `Unit`.
-/

namespace DataProcessor

open Lib

theorem toHex_inj {as bs : Bytes} (h : toHex as = toHex bs) : as = bs := by
  have ha := hexStringToByteArray_toHex as
  rw [h, hexStringToByteArray_toHex] at ha
  injection ha with ha
  exact ha.symm

/-- What `fulfill` puts into its operation as the payload. -/
theorem fulfill_embeds {sdk : TezosSdk} {NETWORK : String} {cryptoModule : ICrypto}
    {fetchBranch : Result String} {fetchCounter : String → Result Int}
    {context : Bundle} {unserializedPayload : V8Value} {op : Operation}
    (h : Tezos.fulfill sdk NETWORK cryptoModule fetchBranch fetchCounter context
      unserializedPayload = .ok op) :
    ∃ jobIdentifier packed,
      Tezos.embeddedBytes sdk unserializedPayload = .ok packed ∧
      op.content.value = Micheline.fromPair (.bytes jobIdentifier) (.bytes packed) := by
  obtain ⟨jobIdentifier, payload, packed, -, hpayload, hpacked, -, -, -, hvalue⟩ :=
    tezos_fulfill_ok h
  exact ⟨jobIdentifier, packed, bind_ok.2 ⟨payload, hpayload, hpacked⟩, hvalue⟩

namespace Micheline

/-- The right comb of some expressions. -/
def comb : List Micheline → Micheline
  | [] => prim "Unit" []
  | [node] => node
  | node :: nodes => prim "Pair" [node, comb nodes]

variable {sdk : MichelineSdk}

theorem comb_cons {nodes : List Micheline} (h : nodes ≠ []) (node : Micheline) :
    comb (node :: nodes) = prim "Pair" [node, comb nodes] := by
  cases nodes with
  | nil => exact absurd rfl h
  | cons node' nodes => rfl

theorem fromV8Array_ok {items : List V8Value} {nodes : List Micheline} :
    fromV8Array sdk items = .ok nodes ↔
      List.Forall₂ (fun item node => fromValue sdk item = .ok node) items nodes := by
  induction items generalizing nodes with
  | nil =>
      rw [fromV8Array, List.forall₂_nil_left_iff]
      constructor
      · intro h
        injection h with h
        exact h.symm
      · intro h
        rw [h]
  | cons item items ih =>
      rw [fromV8Array, bind_ok, List.forall₂_cons_left_iff]
      constructor
      · intro h
        obtain ⟨first, hfirst, h⟩ := h
        obtain ⟨rest, hrest, h⟩ := bind_ok.1 h
        injection h with h
        exact ⟨first, rest, hfirst, ih.1 hrest, h.symm⟩
      · intro h
        obtain ⟨first, rest, hfirst, hrest, rfl⟩ := h
        exact ⟨first, hfirst, bind_ok.2 ⟨rest, ih.2 hrest, rfl⟩⟩

/-- An object's values are translated as an array's items are, in the same
order, and combed. -/
theorem fromV8Object_eq (fields : List (String × V8Value)) :
    fromV8Object sdk fields = comb <$> fromV8Array sdk (fields.map Prod.snd) := by
  induction fields with
  | nil => rw [fromV8Object, List.map_nil, fromV8Array]; rfl
  | cons field rest ih =>
      obtain ⟨key, value⟩ := field
      rw [List.map_cons, fromV8Array]
      cases rest with
      | nil =>
          rw [fromV8Object, List.map_nil, fromV8Array]
          cases fromValue sdk value <;> rfl
      | cons field' rest =>
          rw [fromV8Object, ih]
          · cases fromValue sdk value with
            | error e => rfl
            | ok first =>
                cases hrest : fromV8Array sdk ((field' :: rest).map Prod.snd) with
                | error e => rfl
                | ok nodes =>
                    have hne : nodes ≠ [] := by
                      have hlen := (fromV8Array_ok.1 hrest).length_eq
                      rintro rfl
                      simp at hlen
                    show Except.ok (prim "Pair" [first, comb nodes])
                      = Except.ok (comb (first :: nodes))
                    rw [comb_cons hne]
          · simp

end Micheline

/-! ## The packed forms of a comb and of a sequence -/

theorem toOption_eq_none {α : Type} {x : Result α} :
    x.toOption = none ↔ ¬ ∃ a, x = .ok a := by
  cases x with
  | error e => exact ⟨fun _ h => (nomatch h.choose_spec), fun _ => rfl⟩
  | ok a => exact ⟨nofun, fun h => absurd ⟨a, rfl⟩ h⟩

namespace PacksAsDocumented

variable {packToBytes : Micheline → Result Bytes} {nodes : List Micheline}

theorem sequence_iff (hpack : PacksAsDocumented packToBytes) :
    (∃ bytes, packToBytes (.sequence nodes) = .ok bytes) ↔
      ∀ node ∈ nodes, ∃ bytes, packToBytes node = .ok bytes := by
  constructor
  · intro h node hnode
    obtain ⟨bytes, h⟩ := h
    obtain ⟨bodies, hbodies, -⟩ := (hpack.sequence nodes bytes).1 h
    obtain ⟨i, hi, rfl⟩ := List.mem_iff_getElem.1 hnode
    have hlen : i < bodies.length := by
      rw [← hbodies.length_eq]
      exact hi
    exact ⟨_, (List.forall₂_iff_get.1 hbodies).2 i hi hlen⟩
  · intro h
    suffices hbodies : ∃ bodies : List Bytes, List.Forall₂
        (fun node body => packToBytes node = .ok (0x05 :: body)) nodes bodies by
      obtain ⟨bodies, hbodies⟩ := hbodies
      exact ⟨_, (hpack.sequence nodes _).2 ⟨bodies, hbodies, rfl⟩⟩
    induction nodes with
    | nil => exact ⟨[], .nil⟩
    | cons node nodes ih =>
        obtain ⟨bytes, hbytes⟩ := h node (by simp)
        obtain ⟨body, rfl⟩ := hpack.mark node bytes hbytes
        obtain ⟨bodies, hbodies⟩ := ih fun n hn => h n (by simp [hn])
        exact ⟨body :: bodies, .cons hbytes hbodies⟩

theorem comb_iff (hpack : PacksAsDocumented packToBytes) :
    (∃ bytes, packToBytes (Micheline.comb nodes) = .ok bytes) ↔
      ∀ node ∈ nodes, ∃ bytes, packToBytes node = .ok bytes := by
  induction nodes with
  | nil => exact ⟨fun _ _ h => (nomatch h), fun _ => ⟨_, hpack.unit⟩⟩
  | cons node nodes ih =>
      rw [List.forall_mem_cons, ← ih]
      cases nodes with
      | nil => exact ⟨fun h => ⟨h, _, hpack.unit⟩, fun h => h.1⟩
      | cons node' nodes =>
          rw [Micheline.comb_cons (by simp)]
          constructor
          · intro h
            obtain ⟨bytes, h⟩ := h
            obtain ⟨body, body', hbody, hbody', -⟩ := (hpack.pair _ _ _).1 h
            exact ⟨⟨_, hbody⟩, _, hbody'⟩
          · intro h
            obtain ⟨⟨bytes, hbytes⟩, bytes', hbytes'⟩ := h
            obtain ⟨body, rfl⟩ := hpack.mark _ _ hbytes
            obtain ⟨body', rfl⟩ := hpack.mark _ _ hbytes'
            exact ⟨_, (hpack.pair _ _ _).2 ⟨body, body', hbytes, hbytes', rfl⟩⟩

/-- No expressions pack to the same bytes as a comb and as a sequence: none
and one differ in length, two and more in the tag. -/
theorem comb_ne_sequence (hpack : PacksAsDocumented packToBytes) {bytes bytes' : Bytes}
    (hcomb : packToBytes (Micheline.comb nodes) = .ok bytes)
    (hseq : packToBytes (.sequence nodes) = .ok bytes') : bytes ≠ bytes' := by
  obtain ⟨bodies, hbodies, rfl⟩ := (hpack.sequence _ _).1 hseq
  cases hbodies with
  | nil =>
      have hunit := hpack.unit.symm.trans hcomb
      injection hunit with hunit
      rw [← hunit]
      decide
  | @cons node body nodes bodies hbody hbodies =>
      cases hbodies with
      | nil =>
          have heq := hbody.symm.trans hcomb
          injection heq with heq
          rw [← heq]
          intro h
          have hlen := congrArg List.length h
          simp only [List.flatten_cons, List.flatten_nil, List.append_nil,
            List.length_cons, List.length_append, length_toBE] at hlen
          omega
      | cons hbody' hbodies =>
          rw [Micheline.comb_cons (by simp)] at hcomb
          obtain ⟨_, _, -, -, rfl⟩ := (hpack.pair _ _ _).1 hcomb
          intro h
          injection h with _ h
          injection h with h _
          exact absurd h (by decide)

end PacksAsDocumented

/-! ## The two entry points -/

section

variable {sdk : TezosSdk}

theorem packJavaCallback_of_isV8Object {payload : V8Value} (h : payload.isV8Object = true) :
    V8Executor.packJavaCallback sdk [payload]
      = toHex <$> (payload.toMicheline sdk.toMichelineSdk >>= sdk.packToBytes) := by
  have harg : argument [payload] 0 = payload := rfl
  rw [V8Executor.packJavaCallback, harg, if_pos h]
  cases payload.toMicheline sdk.toMichelineSdk with
  | error e => rfl
  | ok node =>
      show (do return toHex (← sdk.packToBytes node)) = toHex <$> sdk.packToBytes node
      cases sdk.packToBytes node <;> rfl

theorem toMicheline_array (items : List V8Value) :
    (V8Value.array items).toMicheline sdk.toMichelineSdk
      = Micheline.comb <$> Micheline.fromV8Array sdk.toMichelineSdk items := by
  show Micheline.fromV8Object sdk.toMichelineSdk
    (items.zipIdx.map fun entry => (toString entry.2, entry.1)) = _
  rw [Micheline.fromV8Object_eq, List.map_map]
  show Micheline.comb <$> Micheline.fromV8Array sdk.toMichelineSdk
    (items.zipIdx.map Prod.fst) = _
  rw [List.zipIdx_map_fst]

/-- What the items of an array are translated to, if `fulfill` could embed
each of them. -/
theorem embeds_items {items : List V8Value} :
    (∀ item ∈ items, ∃ bytes, Tezos.embeddedBytes sdk item = .ok bytes) ↔
      ∃ nodes, Micheline.fromV8Array sdk.toMichelineSdk items = .ok nodes ∧
        ∀ node ∈ nodes, ∃ bytes, sdk.packToBytes node = .ok bytes := by
  simp only [Micheline.fromV8Array_ok, Tezos.embeddedBytes, bind_ok]
  induction items with
  | nil => simp
  | cons item items ih =>
      rw [List.forall_mem_cons, ih]
      constructor
      · intro h
        obtain ⟨⟨bytes, node, hnode, hbytes⟩, nodes, hnodes, hall⟩ := h
        exact ⟨node :: nodes, .cons hnode hnodes,
          List.forall_mem_cons.2 ⟨⟨bytes, hbytes⟩, hall⟩⟩
      · intro h
        obtain ⟨_, hnodes, hall⟩ := h
        cases hnodes with
        | cons hnode hnodes =>
            obtain ⟨⟨bytes, hbytes⟩, hall⟩ := List.forall_mem_cons.1 hall
            exact ⟨⟨bytes, _, hnode, hbytes⟩, _, hnodes, hall⟩

theorem packsLikeFulfill_array (hpack : PacksAsDocumented sdk.packToBytes)
    (items : List V8Value) :
    PacksLikeFulfill sdk (.array items) ↔
      ∃ item ∈ items, (Tezos.embeddedBytes sdk item).toOption = none := by
  have hembedded : Tezos.embeddedBytes sdk (.array items)
      = Micheline.fromV8Array sdk.toMichelineSdk items
        >>= fun nodes => sdk.packToBytes (.sequence nodes) := by
    rw [Tezos.embeddedBytes, Micheline.fromValue]
    cases Micheline.fromV8Array sdk.toMichelineSdk items <;> rfl
  rw [PacksLikeFulfill, packJavaCallback_of_isV8Object rfl, toMicheline_array, hembedded]
  simp only [toOption_eq_none]
  rw [← not_iff_not]
  push Not
  rw [embeds_items]
  cases hitems : Micheline.fromV8Array sdk.toMichelineSdk items with
  | error e => simp [bind, Except.bind, Functor.map, Except.map, Except.toOption]
  | ok nodes =>
      simp only [Except.ok.injEq, exists_eq_left', ← hpack.comb_iff]
      show ((toHex <$> sdk.packToBytes (Micheline.comb nodes)).toOption
        ≠ (sdk.packToBytes (.sequence nodes)).toOption.map toHex) ↔ _
      cases hcomb : sdk.packToBytes (Micheline.comb nodes) with
      | error e =>
          have hseq : (sdk.packToBytes (.sequence nodes)).toOption = none := by
            rw [toOption_eq_none, hpack.sequence_iff, ← hpack.comb_iff, hcomb]
            intro h
            obtain ⟨_, h⟩ := h
            cases h
          rw [hseq]
          refine ⟨fun h => absurd rfl h, fun h => ?_⟩
          obtain ⟨_, h⟩ := h
          cases h
      | ok bytes =>
          obtain ⟨bytes', hseq⟩ := hpack.sequence_iff.2 (hpack.comb_iff.1 ⟨bytes, hcomb⟩)
          have hne := hpack.comb_ne_sequence hcomb hseq
          rw [hseq]
          exact ⟨fun _ => ⟨bytes, rfl⟩, fun _ h => hne (toHex_inj (Option.some.inj h))⟩

/-- `pack` answers what `fulfill` embeds for an object, and for an array
only where both raise. -/
theorem pack_agrees_iff (hpack : PacksAsDocumented sdk.packToBytes)
    {payload : V8Value} (hobj : payload.isV8Object = true) :
    PacksLikeFulfill sdk payload ↔ PackAgrees sdk payload := by
  cases payload with
  | array items => exact packsLikeFulfill_array hpack items
  | undefined =>
      have hunit : Tezos.embeddedBytes sdk .undefined = .ok [0x05, 0x03, 0x0b] := by
        rw [Tezos.embeddedBytes, Micheline.fromValue]
        exact hpack.unit
      rw [PacksLikeFulfill, hunit]
      exact ⟨nofun, False.elim⟩
  | object fields | function fields =>
      refine ⟨fun _ => trivial, fun _ => ?_⟩
      rw [PacksLikeFulfill, packJavaCallback_of_isV8Object rfl, Tezos.embeddedBytes,
        Micheline.fromValue]
      show (toHex <$> (Micheline.fromV8Object sdk.toMichelineSdk fields
        >>= sdk.packToBytes)).toOption = _
      cases Micheline.fromV8Object sdk.toMichelineSdk fields >>= sdk.packToBytes <;> rfl
  | _ => exact absurd hobj nofun

end

/-! ## A packer, and two payloads -/

/-- The tags of the primitives without arguments that a translation makes. -/
def primTag (name : String) : Option UInt8 :=
  [("False", 0x03), ("True", 0x0a), ("Unit", 0x0b)].lookup name

mutual

/-- The binary form of an expression of pairs, sequences and these
primitives. -/
def forge : Micheline → Option Bytes
  | .prim name [] => (primTag name).map fun tag => [0x03, tag]
  | .prim name [first, second] =>
      if name = "Pair" then do
        let body ← forge first
        let body' ← forge second
        return 0x07 :: 0x07 :: (body ++ body')
      else none
  | .sequence nodes => do
      let bodies ← forgeAll nodes
      return 0x02 :: (toBE 4 bodies.flatten.length ++ bodies.flatten)
  | _ => none

def forgeAll : List Micheline → Option (List Bytes)
  | [] => some []
  | node :: nodes => do
      let body ← forge node
      let bodies ← forgeAll nodes
      return body :: bodies

end

def packForged (node : Micheline) : Result Bytes :=
  (forge node).elim (.error .illegalArgument) fun body => .ok (0x05 :: body)

theorem packForged_ok {node : Micheline} {bytes : Bytes} :
    packForged node = .ok bytes ↔ ∃ body, forge node = some body ∧ bytes = 0x05 :: body := by
  unfold packForged
  cases forge node with
  | none => exact ⟨nofun, fun h => (nomatch h.choose_spec.1)⟩
  | some body =>
      constructor
      · intro h
        injection h with h
        exact ⟨body, rfl, h.symm⟩
      · intro h
        obtain ⟨_, h, rfl⟩ := h
        injection h with h
        subst h
        rfl

theorem forgeAll_eq {nodes : List Micheline} {bodies : List Bytes} :
    forgeAll nodes = some bodies ↔
      List.Forall₂ (fun node body => forge node = some body) nodes bodies := by
  induction nodes generalizing bodies with
  | nil =>
      rw [forgeAll, List.forall₂_nil_left_iff, Option.some_inj]
      exact eq_comm
  | cons node nodes ih =>
      rw [forgeAll, List.forall₂_cons_left_iff]
      simp only [Option.bind_eq_bind, Option.bind_eq_some_iff, Option.pure_def,
        Option.some_inj, ih]
      constructor
      · intro h
        obtain ⟨body, hbody, rest, hrest, rfl⟩ := h
        exact ⟨body, rest, hbody, hrest, rfl⟩
      · intro h
        obtain ⟨body, rest, hbody, hrest, rfl⟩ := h
        exact ⟨body, hbody, rest, hrest, rfl⟩

theorem packForged_documented : PacksAsDocumented packForged where
  mark := by
    intro node bytes h
    obtain ⟨body, -, rfl⟩ := packForged_ok.1 h
    exact ⟨body, rfl⟩
  unit := by
    refine packForged_ok.2 ⟨[0x03, 0x0b], ?_, rfl⟩
    rw [forge]
    rfl
  pair := by
    intro first second bytes
    simp only [packForged_ok, forge, if_true, Option.bind_eq_bind,
      Option.bind_eq_some_iff, Option.pure_def, Option.some_inj, List.cons.injEq, true_and]
    constructor
    · intro h
      obtain ⟨_, ⟨body, hbody, body', hbody', rfl⟩, rfl⟩ := h
      exact ⟨body, body', ⟨body, hbody, rfl⟩, ⟨body', hbody', rfl⟩, rfl⟩
    · intro h
      obtain ⟨_, _, ⟨_, hbody, rfl⟩, ⟨_, hbody', rfl⟩, rfl⟩ := h
      exact ⟨_, ⟨_, hbody, _, hbody', rfl⟩, rfl⟩
  sequence := by
    intro nodes bytes
    simp only [packForged_ok, forge, Option.bind_eq_bind, Option.bind_eq_some_iff,
      Option.pure_def, Option.some_inj, List.cons.injEq, true_and, exists_eq_right',
      forgeAll_eq]
    constructor
    · intro h
      obtain ⟨_, ⟨bodies, hbodies, rfl⟩, rfl⟩ := h
      exact ⟨bodies, hbodies, rfl⟩
    · intro h
      obtain ⟨bodies, hbodies, rfl⟩ := h
      exact ⟨_, ⟨bodies, hbodies, rfl⟩, rfl⟩

def packingSdk : TezosSdk := { idleTezosSdk with packToBytes := packForged }

theorem pack_agrees_object :
    V8Value.isV8Object (.object [("ok", .boolean true), ("last", .boolean false)]) = true ∧
      PacksLikeFulfill packingSdk
        (.object [("ok", .boolean true), ("last", .boolean false)]) :=
  ⟨rfl, (@pack_agrees_iff packingSdk packForged_documented _ rfl).2 trivial⟩

/-- The array of the same two values is a pair for one and a sequence for
the other. -/
theorem pack_array_differs :
    V8Executor.packJavaCallback packingSdk [.array [.boolean true, .boolean false]]
        = .ok "050707030a0303" ∧
      Tezos.embeddedBytes packingSdk (.array [.boolean true, .boolean false])
        = .ok [0x05, 0x02, 0x00, 0x00, 0x00, 0x04, 0x03, 0x0a, 0x03, 0x03] ∧
      ¬ PacksLikeFulfill packingSdk (.array [.boolean true, .boolean false]) := by
  have hpacked : V8Executor.packJavaCallback packingSdk
      [.array [.boolean true, .boolean false]] = .ok "050707030a0303" := rfl
  have hembedded : Tezos.embeddedBytes packingSdk (.array [.boolean true, .boolean false])
      = .ok [0x05, 0x02, 0x00, 0x00, 0x00, 0x04, 0x03, 0x0a, 0x03, 0x03] := rfl
  refine ⟨hpacked, hembedded, ?_⟩
  rw [PacksLikeFulfill, hpacked, hembedded]
  decide

end DataProcessor
