import DataProcessor.Model.Allocation
import DataProcessor.Proofs.RequestCodes

/-!
# Request codes drawn at the same time

A callback on its own draws the code `Scheduler.requestCode` says. Two that
read the next free code before either has applied its entries draw the same
one, and one that applies what it has read long ago sets the counter back
and may change its key's code. Where the entries are applied to the store as
it was read, or are there already, a key has one code and a code one key.
-/

namespace DataProcessor

open Lib Scheduler

namespace AllocationState

variable {s t : AllocationState}

/-- A callback with no other next to it. -/
theorem alone {key : String × Int} {code : Int32} {prefs : SharedPreferences}
    (hidle : s.callbacks = [])
    (h : requestCode s.prefs (counterKey key.1 key.2) = .ok (code, prefs)) :
    runAll step anyStep [.callback key, .access 0, .access 0, .access 0] s
      = some { prefs := prefs, callbacks := [], assigned := (key, code) :: s.assigned } := by
  obtain ⟨next, hnext, h⟩ := bind_ok.1 h
  split at h
  · next hpresent =>
      obtain ⟨code', hcode, h⟩ := bind_ok.1 h
      cases h
      simp [runAll, anyStep, AllocationState.step, AllocationState.access, goOn, assign,
        Allocation.name, hidle, hnext, hpresent, hcode]
  · next habsent =>
      cases h
      simp [runAll, anyStep, AllocationState.step, AllocationState.access, goOn, assign,
        Allocation.name, hidle, hnext, habsent]

/-- A key's code is its place in the order the keys came in, and there have
not been more keys than codes. -/
structure InOrder (keys : List (String × Int)) (s : AllocationState) : Prop where
  codes : Codes keys s.prefs
  nodup : keys.Nodup
  room : keys.length ≤ 2 ^ 32
  assigned : ∀ a ∈ s.assigned, a.1 ∈ keys ∧ a.2 = Int32.ofNat (keys.idxOf a.1)
  used : s.assigned = [] → keys = []
  present : ∀ a ∈ s.callbacks, ∀ next, a.stage = .present next → a.key ∈ keys

variable {keys : List (String × Int)}

theorem InOrder.fresh : InOrder [] AllocationState.fresh where
  codes := .fresh
  nodup := List.nodup_nil
  room := by decide
  assigned := by
    intro a ha
    simp [AllocationState.fresh] at ha
  used := fun _ => rfl
  present := by
    intro a ha
    simp [AllocationState.fresh] at ha

/-- A step that only moves callbacks. -/
theorem InOrder.of_callbacks (h : InOrder keys s) {callbacks : List Allocation}
    (hpresent : ∀ a ∈ callbacks, ∀ next, a.stage = .present next → a.key ∈ keys) :
    InOrder keys { s with callbacks := callbacks } :=
  { h with present := hpresent }

theorem InOrder.drop (h : InOrder keys s) (i : Nat) : InOrder keys (s.drop i) :=
  h.of_callbacks fun a ha => h.present a (List.mem_of_mem_eraseIdx ha)

theorem InOrder.goOn (h : InOrder keys s) {i : Nat} {key : String × Int}
    {stage : AllocationStage}
    (hstage : ∀ next, stage = .present next → key ∈ keys) :
    InOrder keys (s.goOn i key stage) := by
  refine h.of_callbacks fun a ha => ?_
  rcases List.mem_or_eq_of_mem_set ha with ha | rfl
  · exact h.present a ha
  · exact hstage

/-- A callback that gets the code its key has. -/
theorem InOrder.assign_old (h : InOrder keys s) {key : String × Int} (i : Nat)
    (hkey : key ∈ keys) :
    InOrder keys (s.assign i key (Int32.ofNat (keys.idxOf key)) s.prefs) where
  codes := h.codes
  nodup := h.nodup
  room := h.room
  assigned := by
    intro a ha
    rcases List.mem_cons.1 ha with rfl | ha
    · exact ⟨hkey, rfl⟩
    · exact h.assigned a ha
  used := fun hnone => by cases hnone
  present := fun a ha => h.present a (List.mem_of_mem_eraseIdx ha)

theorem mem_of_stored (h : Codes keys s.prefs) {key : String × Int} {code : Int32}
    (hstored : s.prefs (counterKey key.1 key.2) = some (.int code)) :
    key ∈ keys ∧ code = Int32.ofNat (keys.idxOf key) := by
  have hcode := h.code key
  rw [hstored] at hcode
  split at hcode
  · next hkey =>
      cases hcode
      exact ⟨hkey, rfl⟩
  · cases hcode

/-- The codes have not come round while zero is not drawn again. -/
theorem InOrder.lt_room (h : InOrder keys s)
    (hzero : Int32.ofNat keys.length = 0 → s.assigned = []) : keys.length < 2 ^ 32 := by
  refine lt_of_le_of_ne h.room fun hfull => ?_
  have hround : Int32.ofNat keys.length = 0 := by
    rw [hfull]
    decide
  rw [h.used (hzero hround)] at hfull
  exact absurd hfull (by decide)

theorem InOrder.apply_untouched (h : InOrder keys s) {a : Allocation} {next : Int32}
    (hread : s.Untouched a next) (i : Nat) :
    InOrder (keys ++ [a.key]) (s.assign i a.key next ((s.prefs.put a.name (.int next)).put
      Constants.NEXT_REQUEST_COUNTER_KEY (.int (next + 1)))) := by
  obtain ⟨hnext, habsent, hzero⟩ := hread
  rw [h.codes.next] at hnext
  injection hnext with hnext
  subst hnext
  have hnew : a.key ∉ keys := by
    intro hmem
    have hcode := h.codes.code a.key
    rw [if_pos hmem] at hcode
    rw [SharedPreferences.contains, Allocation.name, hcode] at habsent
    cases habsent
  have hroom := h.lt_room hzero
  refine ⟨h.codes.append hnew, ?_, ?_, ?_, ?_, ?_⟩
  · rw [List.nodup_append]
    refine ⟨h.nodup, List.nodup_singleton _, ?_⟩
    intro key hkey key' hkey' heq
    rw [List.mem_singleton] at hkey'
    rw [heq, hkey'] at hkey
    exact hnew hkey
  · rw [List.length_append, List.length_singleton]
    omega
  · intro b hb
    rcases List.mem_cons.1 hb with rfl | hb
    · rw [List.idxOf_append_of_notMem hnew]
      simp
    · obtain ⟨hkey, hcode⟩ := h.assigned b hb
      rw [List.idxOf_append_of_mem hkey]
      exact ⟨List.mem_append_left _ hkey, hcode⟩
  · exact fun hnone => absurd hnone (List.cons_ne_nil _ _)
  · intro b hb next' hstage
    exact List.mem_append_left _
      (h.present b (List.mem_of_mem_eraseIdx hb) next' hstage)

/-- Entries that are there already change nothing. -/
theorem InOrder.apply_again (h : InOrder keys s) {a : Allocation} {next : Int32}
    (hthere : s.AppliedAlready a next) (i : Nat) :
    InOrder keys (s.assign i a.key next ((s.prefs.put a.name (.int next)).put
      Constants.NEXT_REQUEST_COUNTER_KEY (.int (next + 1)))) := by
  obtain ⟨hkey, hcounter⟩ := hthere
  have hname : s.prefs.put a.name (.int next) = s.prefs := by
    rw [SharedPreferences.put, ← hkey]
    exact Function.update_eq_self _ _
  have hput : s.prefs.put Constants.NEXT_REQUEST_COUNTER_KEY (.int (next + 1))
      = s.prefs := by
    rw [SharedPreferences.put, ← hcounter]
    exact Function.update_eq_self _ _
  obtain ⟨hmem, hcode⟩ := mem_of_stored h.codes hkey
  rw [hname, hput, hcode]
  exact h.assign_old i hmem

theorem InOrder.access (h : InOrder keys s) {i : Nat} {a : Allocation}
    (hi : s.callbacks[i]? = some a)
    (hread : ∀ next ∈ a.stage.applies, s.Untouched a next ∨ s.AppliedAlready a next) :
    ∃ keys', InOrder keys' (s.access i a) := by
  unfold AllocationState.access
  cases hstage : a.stage with
  | start =>
      simp only []
      split
      · exact ⟨keys, h.goOn fun next heq => by cases heq⟩
      · exact ⟨keys, h.drop i⟩
  | counted next =>
      simp only []
      split
      · next hpresent =>
          refine ⟨keys, h.goOn fun next' _ => ?_⟩
          by_contra habsent
          have hcode := h.codes.code a.key
          rw [if_neg habsent] at hcode
          rw [SharedPreferences.contains, Allocation.name, hcode] at hpresent
          cases hpresent
      · exact ⟨keys, h.goOn fun next' heq => by cases heq⟩
  | present next =>
      simp only []
      have hkey := h.present a (List.mem_of_getElem? hi) next hstage
      have hcode := h.codes.code a.key
      rw [if_pos hkey] at hcode
      have hget : s.prefs.getInt a.name next
          = .ok (Int32.ofNat (keys.idxOf a.key)) := by
        rw [SharedPreferences.getInt, Allocation.name, hcode]
      rw [hget]
      exact ⟨keys, h.assign_old i hkey⟩
  | absent next =>
      simp only []
      rcases hread next (by rw [hstage]; rfl) with hread | hread
      · exact ⟨_, h.apply_untouched hread i⟩
      · exact ⟨_, h.apply_again hread i⟩

theorem InOrder.step (h : InOrder keys s) {action : AllocationAction}
    (hread : s.AppliesAsRead action) (hstep : s.step action = some t) :
    ∃ keys', InOrder keys' t := by
  cases action with
  | callback key =>
      injection hstep with hstep
      subst hstep
      refine ⟨keys, h.of_callbacks fun a ha => ?_⟩
      rcases List.mem_append.1 ha with ha | ha
      · exact h.present a ha
      · rw [List.mem_singleton] at ha
        rw [ha]
        intro next heq
        cases heq
  | access i =>
      obtain ⟨a, hi, rfl⟩ := Option.map_eq_some_iff.1 hstep
      exact h.access hi (hread a hi)
  | kill i =>
      simp only [AllocationState.step] at hstep
      split at hstep
      · injection hstep with hstep
        subst hstep
        exact ⟨keys, h.drop i⟩
      · cases hstep

theorem InOrder.key_eq_iff (h : InOrder keys s) {a b : (String × Int) × Int32}
    (ha : a ∈ s.assigned) (hb : b ∈ s.assigned) : a.1 = b.1 ↔ a.2 = b.2 := by
  obtain ⟨hakey, hacode⟩ := h.assigned a ha
  obtain ⟨hbkey, hbcode⟩ := h.assigned b hb
  rw [hacode, hbcode]
  constructor
  · intro heq
    rw [heq]
  · intro hcode
    have hmod := mod_eq_of_int32_ofNat_eq hcode
    have hroom := h.room
    have halt := List.idxOf_lt_length_of_mem hakey
    have hblt := List.idxOf_lt_length_of_mem hbkey
    rw [Nat.mod_eq_of_lt (by omega), Nat.mod_eq_of_lt (by omega)] at hmod
    exact (List.idxOf_inj hakey).1 hmod

end AllocationState

/-- Where every callback applies its entries to the store as it has read it,
keys and codes belong together one to one, however many callbacks there are
and however they interleave. -/
theorem codes_one_to_one {s : AllocationState}
    (h : Reaches AllocationState.step AllocationState.AppliesAsRead
      AllocationState.fresh s) :
    ∀ a ∈ s.assigned, ∀ b ∈ s.assigned, a.1 = b.1 ↔ a.2 = b.2 := by
  have hinv : ∀ (s : AllocationState) action t,
      (∃ keys, AllocationState.InOrder keys s) → s.AppliesAsRead action →
      s.step action = some t → ∃ keys, AllocationState.InOrder keys t := by
    rintro s action t ⟨keys, hs⟩ hread hstep
    exact hs.step hread hstep
  obtain ⟨keys, hkeys⟩ := Reaches.invariant hinv h ⟨[], .fresh⟩
  intro a ha b hb
  exact hkeys.key_eq_iff ha hb

/-! ## Callbacks that let each other finish, and two kinds that do not -/

def early : String × Int := ("ipfs://a", 60000)

def late : String × Int := ("ipfs://a", 120000)

def inTurn : List AllocationAction :=
  [.callback early, .access 0, .access 0, .callback early, .access 1, .access 1,
    .access 0, .access 0, .callback late, .access 0, .access 0, .access 0]

/-- Both callbacks read the counter before either applies. -/
def bothCounted : List AllocationAction :=
  [.callback early, .callback late, .access 0, .access 1, .access 0, .access 0,
    .access 0, .access 0]

/-- The first callback applies what it has read before the other two. -/
def overtaken : List AllocationAction :=
  [.callback early, .access 0, .access 0, .callback late, .access 1, .access 1, .access 1,
    .callback early, .access 1, .access 1, .access 1, .access 0]

theorem codes_one_to_one_in_turn :
    ∃ s, runAll AllocationState.step AllocationState.AppliesAsRead inTurn
        AllocationState.fresh = some s ∧
      s.assigned = [(late, 1), (early, 0), (early, 0)] ∧
      ∀ a ∈ s.assigned, ∀ b ∈ s.assigned, a.1 = b.1 ↔ a.2 = b.2 := by
  have hrun : (runAll AllocationState.step AllocationState.AppliesAsRead inTurn
      AllocationState.fresh).map AllocationState.assigned
        = some [(late, 1), (early, 0), (early, 0)] := by
    decide
  obtain ⟨s, hs, hassigned⟩ := Option.map_eq_some_iff.1 hrun
  exact ⟨s, hs, hassigned, codes_one_to_one (reaches_of_runAll hs)⟩

theorem codes_shared_and_changed :
    (∃ s, Reaches AllocationState.step anyStep AllocationState.fresh s ∧
      s.assigned = [(late, 0), (early, 0)] ∧
      ¬ ∀ a ∈ s.assigned, ∀ b ∈ s.assigned, a.1 = b.1 ↔ a.2 = b.2) ∧
    (∃ s, Reaches AllocationState.step anyStep AllocationState.fresh s ∧
      s.assigned = [(early, 0), (early, 1), (late, 0)] ∧
      ¬ ∀ a ∈ s.assigned, ∀ b ∈ s.assigned, a.1 = b.1 ↔ a.2 = b.2) := by
  have hrun : (runAll AllocationState.step anyStep bothCounted
      AllocationState.fresh).map AllocationState.assigned
        = some [(late, 0), (early, 0)] := by
    decide
  have hrun' : (runAll AllocationState.step anyStep overtaken
      AllocationState.fresh).map AllocationState.assigned
        = some [(early, 0), (early, 1), (late, 0)] := by
    decide
  obtain ⟨s, hs, hassigned⟩ := Option.map_eq_some_iff.1 hrun
  obtain ⟨s', hs', hassigned'⟩ := Option.map_eq_some_iff.1 hrun'
  refine ⟨⟨s, reaches_of_runAll hs, hassigned, ?_⟩, s', reaches_of_runAll hs',
    hassigned', ?_⟩
  · rw [hassigned]
    decide
  · rw [hassigned']
    decide

end DataProcessor
