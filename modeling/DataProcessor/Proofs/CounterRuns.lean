import DataProcessor.Model.Counter

/-!
# When the counters of injected operations are distinct

A call takes its counter in one task and writes it back in another, and
between the two any other call may take the same one: two acknowledgements
started back to back do. When calls take their counters in turn,
`CounterState.TakesInTurn`, no two injected operations share a counter.

The invariant has three parts. A valid cache answers a counter no injected
operation is beyond; at most one call holds a counter it has not written
back; and no injected operation is beyond that one either.
-/

namespace DataProcessor

open Lib

namespace TezosRPC

/-- Whatever was in the cache before, a valid cache answers the successor of
the counter last written. -/
theorem cachedCounter_writeCounter {prefs : SharedPreferences} {counter c : Int}
    {now now' : Int64}
    (h : cachedCounter (writeCounter prefs counter now) now' = .ok (some c)) :
    c = counter + 1 := by
  obtain ⟨lastFetch, hlast, h⟩ := bind_ok.1 h
  split at h
  · obtain ⟨text, htext, h⟩ := bind_ok.1 h
    obtain ⟨n, hn, h⟩ := bind_ok.1 h
    have hkey : Constants.TRANSACTION_COUNTER ≠ "LAST_COUNTER_FETCH" := by decide
    rw [SharedPreferences.getString, writeCounter, SharedPreferences.put_of_ne hkey,
      SharedPreferences.put_self] at htext
    injection htext with htext
    rw [← htext, BigInteger.ofString_toString] at hn
    injection hn with hn
    injection h with h
    injection h with h
    omega
  · injection h with h
    cases h

end TezosRPC

namespace CounterState

structure Apart (s : CounterState) : Prop where
  cache : ∀ now counter, TezosRPC.cachedCounter s.prefs now = .ok (some counter) →
    ∀ i ∈ s.injected, i ≤ counter
  one : s.taken.length ≤ 1
  above : ∀ counter ∈ s.taken, ∀ i ∈ s.injected, i ≤ counter
  distinct : s.injected.Nodup

variable {s t : CounterState}

theorem Idle.apart (h : s.Idle) : s.Apart := by
  obtain ⟨hqueue, _, hanswers, hinjected⟩ := h
  have htaken : s.taken = [] := by
    rw [taken, hanswers, hqueue]
    rfl
  refine ⟨?_, ?_, ?_, ?_⟩
  · intro now counter _ i hi
    rw [hinjected] at hi
    simp at hi
  · rw [htaken]
    exact Nat.zero_le 1
  · intro counter hc
    rw [htaken] at hc
    simp at hc
  · rw [hinjected]
    exact List.nodup_nil

/-- A step that injects nothing and leaves the cache has to see to the
counters that are taken. -/
theorem Apart.of_taken (h : s.Apart) (hprefs : t.prefs = s.prefs)
    (hinjected : t.injected = s.injected) (hone : t.taken.length ≤ 1)
    (habove : ∀ counter ∈ t.taken, ∀ i ∈ s.injected, i ≤ counter) : t.Apart := by
  refine ⟨?_, hone, ?_, ?_⟩
  · intro now counter hc i hi
    rw [hprefs] at hc
    rw [hinjected] at hi
    exact h.cache now counter hc i hi
  · intro counter hc i hi
    rw [hinjected] at hi
    exact habove counter hc i hi
  · rw [hinjected]
    exact h.distinct

/-- It takes no counter. -/
theorem Apart.of_sublist (h : s.Apart) (hprefs : t.prefs = s.prefs)
    (hinjected : t.injected = s.injected) (htaken : t.taken.Sublist s.taken) :
    t.Apart :=
  h.of_taken hprefs hinjected (htaken.length_le.trans h.one)
    fun counter hc => h.above counter (htaken.subset hc)

/-- It takes the one counter no injected operation is beyond. -/
theorem Apart.of_take (h : s.Apart) {n : Int} (hprefs : t.prefs = s.prefs)
    (hinjected : t.injected = s.injected) (htaken : t.taken = [n])
    (hn : ∀ i ∈ s.injected, i ≤ n) : t.Apart := by
  refine h.of_taken hprefs hinjected ?_ ?_
  · rw [htaken]
    exact Nat.le_refl 1
  · intro counter hc
    rw [htaken, List.mem_singleton] at hc
    rw [hc]
    exact hn

theorem Apart.runRead (h : s.Apart) {now : Int64} {proceeds : Bool}
    {queue : List CounterTask} (hqueue : s.queue = .read :: queue)
    (hturn : s.TakesInTurn (.runTask now proceeds)) :
    (s.runRead now proceeds queue).Apart := by
  have htaken : s.taken = s.answers ++ queue.filterMap CounterTask.counter? := by
    rw [taken, hqueue]
    rfl
  unfold CounterState.runRead
  split
  · exact h.of_sublist rfl rfl (by rw [htaken]; exact List.Sublist.refl _)
  · next counter hcached =>
      have hhit : TezosRPC.isCacheHit (TezosRPC.cachedCounter s.prefs now) = true := by
        rw [hcached]
        rfl
      have hnone : s.taken = [] := hturn (by rw [hqueue]; rfl) hhit
      rw [hnone] at htaken
      refine h.of_take rfl rfl ?_ (h.cache now counter hcached)
      show s.answers ++ (queue ++ [CounterTask.write counter]).filterMap CounterTask.counter?
        = [counter]
      rw [List.filterMap_append, ← List.append_assoc, ← htaken]
      rfl
  · split <;>
      exact h.of_sublist rfl rfl (by rw [htaken]; exact List.Sublist.refl _)

/-- The operation's counter is beyond all before it, and the cache answers
no less from now on. -/
theorem Apart.runWrite (h : s.Apart) {n : Int} {now : Int64} {proceeds : Bool}
    {queue : List CounterTask} (hqueue : s.queue = .write n :: queue) :
    (s.runWrite n now proceeds queue).Apart := by
  have htaken : s.taken
      = s.answers ++ n :: queue.filterMap CounterTask.counter? := by
    rw [taken, hqueue]
    rfl
  have hmem : n ∈ s.taken := by
    rw [htaken]
    simp
  have hnone : (s.runWrite n now proceeds queue).taken = [] := by
    have hone := h.one
    rw [htaken, List.length_append, List.length_cons] at hone
    show s.answers ++ queue.filterMap CounterTask.counter? = []
    rw [← List.length_eq_zero_iff, List.length_append]
    omega
  have hbelow : ∀ i ∈ (s.runWrite n now proceeds queue).injected, i ≤ n + 1 := by
    intro i hi
    unfold CounterState.runWrite at hi
    split at hi
    · rcases List.mem_cons.1 hi with rfl | hi
      · exact Int.le_refl _
      · have := h.above n hmem i hi
        omega
    · have := h.above n hmem i hi
      omega
  refine ⟨?_, ?_, ?_, ?_⟩
  · intro now' counter hc i hi
    have hcounter := TezosRPC.cachedCounter_writeCounter hc
    have := hbelow i hi
    omega
  · rw [hnone]
    exact Nat.zero_le 1
  · intro counter hc
    rw [hnone] at hc
    simp at hc
  · unfold CounterState.runWrite
    split
    · refine List.nodup_cons.2 ⟨?_, h.distinct⟩
      intro hin
      have := h.above n hmem _ hin
      omega
    · exact h.distinct

theorem taken_answer {i : Nat} {n : Int} (hi : s.answers[i]? = some n)
    (hone : s.taken.length ≤ 1) :
    s.taken = [n] ∧ s.answers.eraseIdx i = [] ∧
      s.queue.filterMap CounterTask.counter? = [] := by
  obtain ⟨hlt, hget⟩ := List.getElem?_eq_some_iff.1 hi
  rw [taken, List.length_append] at hone
  have hlen : s.answers.length = 1 := by omega
  have hnil : s.queue.filterMap CounterTask.counter? = [] := by
    rw [← List.length_eq_zero_iff]
    omega
  obtain ⟨a, ha⟩ := List.length_eq_one_iff.1 hlen
  have hzero : i = 0 := by omega
  subst hzero
  rw [ha] at hi
  have han : a = n := by simpa using hi
  rw [taken, ha, hnil, han]
  exact ⟨rfl, rfl, rfl⟩

theorem Apart.step (h : s.Apart) {a : CounterAction} (hturn : s.TakesInTurn a)
    (hstep : s.step a = some t) : t.Apart := by
  cases a with
  | fetchCounter =>
      injection hstep with hstep
      subst hstep
      refine h.of_sublist rfl rfl ?_
      show (s.answers ++ (s.queue ++ [CounterTask.read]).filterMap CounterTask.counter?).Sublist
        s.taken
      rw [List.filterMap_append]
      simp [taken, CounterTask.counter?]
  | runTask now proceeds =>
      simp only [CounterState.step] at hstep
      split at hstep
      · simp at hstep
      · next queue hqueue =>
          injection hstep with hstep
          subst hstep
          exact h.runRead hqueue hturn
      · next n queue hqueue =>
          injection hstep with hstep
          subst hstep
          exact h.runWrite hqueue
  | lookUp =>
      obtain ⟨hnone, hbaked⟩ := hturn
      simp only [CounterState.step] at hstep
      split at hstep
      · simp at hstep
      · injection hstep with hstep
        subst hstep
        refine h.of_take rfl rfl ?_ hbaked
        obtain ⟨hanswers, hqueue⟩ := List.append_eq_nil_iff.1 hnone
        show s.answers ++ [s.head] ++ s.queue.filterMap CounterTask.counter? = [s.head]
        rw [hanswers, hqueue]
        rfl
  | answer i =>
      simp only [CounterState.step] at hstep
      obtain ⟨n, hi, hstep⟩ := Option.map_eq_some_iff.1 hstep
      subst hstep
      obtain ⟨htaken, hanswers, hqueue⟩ := taken_answer hi h.one
      refine h.of_sublist rfl rfl ?_
      show (s.answers.eraseIdx i
        ++ (s.queue ++ [CounterTask.write n]).filterMap CounterTask.counter?).Sublist s.taken
      rw [List.filterMap_append, hanswers, hqueue, htaken]
      exact List.Sublist.refl _
  | loseQuestion =>
      simp only [CounterState.step] at hstep
      split at hstep
      · simp at hstep
      · injection hstep with hstep
        subst hstep
        exact h.of_sublist rfl rfl (List.Sublist.refl _)
  | loseAnswer i =>
      simp only [CounterState.step] at hstep
      split at hstep
      · injection hstep with hstep
        subst hstep
        exact h.of_sublist rfl rfl
          (List.Sublist.append (List.eraseIdx_sublist _ _) (List.Sublist.refl _))
      · simp at hstep
  | bake =>
      simp only [CounterState.step] at hstep
      split at hstep
      · injection hstep with hstep
        subst hstep
        exact h.of_sublist rfl rfl (List.Sublist.refl _)
      · simp at hstep

end CounterState

/-- Where calls take their counters in turn, the injected operations have
distinct counters, whatever the order of tasks and answers. -/
theorem injected_nodup {s t : CounterState} (hidle : s.Idle)
    (h : Reaches CounterState.step CounterState.TakesInTurn s t) :
    t.injected.Nodup := by
  have hinv := Reaches.invariant
    (fun s a t (hs : s.Apart) hturn hstep => hs.step hturn hstep) h hidle.apart
  exact hinv.distinct

/-! ## Two calls, one after the other and back to back -/

def freshCounter : CounterState where
  prefs := SharedPreferences.empty
  queue := []
  questions := 0
  answers := []
  head := 41
  injected := []

def noon : Int64 := 1700000000000

def callsInTurn : List CounterAction :=
  [.fetchCounter, .runTask noon true, .lookUp, .answer 0, .runTask noon true,
    .fetchCounter, .runTask (noon + 400) true, .runTask (noon + 401) true]

/-- Both calls ask before either is answered. -/
def callsBackToBack : List CounterAction :=
  [.fetchCounter, .fetchCounter, .runTask noon true, .runTask noon true,
    .lookUp, .lookUp, .answer 0, .answer 0, .runTask (noon + 400) true,
    .runTask (noon + 401) true]

theorem injected_nodup_in_turn :
    ∃ t, runAll CounterState.step CounterState.TakesInTurn callsInTurn freshCounter
        = some t ∧ t.injected = [43, 42] ∧ t.injected.Nodup := by
  obtain ⟨t, ht, hinjected⟩ : ∃ t,
      runAll CounterState.step CounterState.TakesInTurn callsInTurn freshCounter = some t ∧
        t.injected = [43, 42] := ⟨_, rfl, rfl⟩
  exact ⟨t, ht, hinjected, injected_nodup ⟨rfl, rfl, rfl, rfl⟩ (reaches_of_runAll ht)⟩

theorem injected_twice_back_to_back :
    freshCounter.Idle ∧ ∃ t, Reaches CounterState.step anyStep freshCounter t ∧
      t.injected = [42, 42] ∧ ¬ t.injected.Nodup := by
  obtain ⟨t, ht, hinjected⟩ : ∃ t,
      runAll CounterState.step anyStep callsBackToBack freshCounter = some t ∧
        t.injected = [42, 42] := ⟨_, rfl, rfl⟩
  refine ⟨⟨rfl, rfl, rfl, rfl⟩, t, reaches_of_runAll ht, hinjected, ?_⟩
  rw [hinjected]
  decide

end DataProcessor
