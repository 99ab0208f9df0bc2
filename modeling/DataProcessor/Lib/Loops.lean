import Mathlib

/-!
# A loop under one handler

A loop that treats its items one by one, and whose only handler stands
around the whole of it, ends at the first item that fails: what the items
before have done stands, and the items behind are not treated.
`effects_eq_filter_iff` says when such a loop does what it would do without
the failing items.
-/

namespace DataProcessor.Lib

variable {ι ε α : Type} (treat : ι → Except ε (List α))

/-- What the loop does, in order. -/
def effects : List ι → List α
  | [] => []
  | item :: items =>
      match treat item with
      | .ok done => done ++ effects items
      | .error _ => []

def succeeds (item : ι) : Bool :=
  match treat item with
  | .ok _ => true
  | .error _ => false

/-- The item fails, or there is nothing to do for it. -/
def Idle (item : ι) : Prop := ∀ done, treat item = .ok done → done = []

variable {treat} {items : List ι}

theorem effects_filter_eq_nil_iff :
    effects treat (items.filter (succeeds treat)) = [] ↔ ∀ item ∈ items, Idle treat item := by
  induction items with
  | nil => exact ⟨fun _ _ h => (nomatch h), fun _ => rfl⟩
  | cons item items ih =>
      rw [List.forall_mem_cons]
      cases htreat : treat item with
      | error e =>
          have hfails : succeeds treat item = false := by
            rw [succeeds, htreat]
          rw [List.filter_cons_of_neg (by rw [hfails]; decide), ih]
          refine ⟨fun h => ⟨fun done hdone => ?_, h⟩, fun h => h.2⟩
          rw [htreat] at hdone
          cases hdone
      | ok done =>
          have hsucceeds : succeeds treat item = true := by
            rw [succeeds, htreat]
          rw [List.filter_cons_of_pos hsucceeds, effects, htreat, List.append_eq_nil_iff, ih]
          refine and_congr_left fun _ => ⟨fun hdone done' h => ?_, fun h => h done htreat⟩
          rw [htreat] at h
          injection h with h
          rw [← h, hdone]

/-- The loop does all it would do without the failing items exactly when
nothing behind a failing item had anything to be done. -/
theorem effects_eq_filter_iff :
    effects treat items = effects treat (items.filter (succeeds treat)) ↔
      items.Pairwise fun bad item => succeeds treat bad = false → Idle treat item := by
  induction items with
  | nil => exact ⟨fun _ => .nil, fun _ => rfl⟩
  | cons item items ih =>
      rw [List.pairwise_cons, effects]
      cases htreat : treat item with
      | error e =>
          have hfails : succeeds treat item = false := by
            rw [succeeds, htreat]
          rw [List.filter_cons_of_neg (by rw [hfails]; decide), eq_comm,
            effects_filter_eq_nil_iff]
          refine ⟨fun h => ⟨fun item' hmem _ => h item' hmem, ?_⟩,
            fun h item' hmem => h.1 item' hmem hfails⟩
          exact List.pairwise_of_forall_mem_list fun _ _ item' hmem _ => h item' hmem
      | ok done =>
          have hsucceeds : succeeds treat item = true := by
            rw [succeeds, htreat]
          rw [List.filter_cons_of_pos hsucceeds, effects, htreat]
          show done ++ effects treat items
            = done ++ effects treat (items.filter (succeeds treat)) ↔ _
          rw [List.append_cancel_left_eq, ih]
          refine ⟨fun h => ⟨fun _ _ hfails => ?_, h⟩, fun h => h.2⟩
          rw [hsucceeds] at hfails
          cases hfails

end DataProcessor.Lib
