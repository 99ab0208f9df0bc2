import DataProcessor.Model.Scheduler

/-!
# Who shares a request code

A request code is drawn for a URI and a time; the requester is not part of
the key. So two jobs with one URI and one scheduled time share a code, and
the later one takes the earlier one's alarm and extras over. Apart from that
codes are only shared once the 32-bit counter has gone round.
`keepsOwn_iff` is the exact condition, for any calls one after the other.

The store is described by the list of keys seen so far, in the order they
came: a key's code is its place in the list, `Codes`.
-/

namespace DataProcessor

open Scheduler

/-! ## Keys -/

/-- The last separator splits a text one way only. -/
theorem append_cons_cancel {α : Type} {a : α} {xs xs' ys ys' : List α}
    (hy : a ∉ ys) (hy' : a ∉ ys') (h : xs ++ a :: ys = xs' ++ a :: ys') :
    xs = xs' ∧ ys = ys' := by
  rcases List.append_eq_append_iff.1 h with ⟨c, hc, hcons⟩ | ⟨c, hc, hcons⟩
  · cases c with
    | nil =>
        simp only [List.nil_append, List.cons.injEq, true_and] at hcons
        exact ⟨by simpa using hc.symm, hcons⟩
    | cons b c =>
        injection hcons with _ hcons
        exact absurd (by rw [hcons]; simp) hy
  · cases c with
    | nil =>
        simp only [List.nil_append, List.cons.injEq, true_and] at hcons
        exact ⟨by simpa using hc, hcons.symm⟩
    | cons b c =>
        injection hcons with _ hcons
        exact absurd (by rw [hcons]; simp) hy'

theorem toList_counterKey (ipfsUri : String) (time : Int) :
    (counterKey ipfsUri time).toList
      = ipfsUri.toList ++ '_' :: (toString time).toList := by
  rw [counterKey, String.toList_append, String.toList_append, List.append_assoc]
  rfl

theorem counterKey_inj {uri uri' : String} {time time' : Int} :
    counterKey uri time = counterKey uri' time' ↔ (uri, time) = (uri', time') := by
  constructor
  · intro h
    have hlist := congrArg String.toList h
    rw [toList_counterKey, toList_counterKey] at hlist
    obtain ⟨huri, htime⟩ := append_cons_cancel (underscore_not_mem_toString time)
      (underscore_not_mem_toString time') hlist
    rw [String.toList_inj.1 huri, toString_int_inj.1 (String.toList_inj.1 htime)]
  · intro h
    injection h with huri htime
    rw [huri, htime]

/-- The counter's own key is none of them: what stands behind its last
underscore is no number. -/
theorem counterKey_ne_next (uri : String) (time : Int) :
    counterKey uri time ≠ Constants.NEXT_REQUEST_COUNTER_KEY := by
  intro h
  have hlist := congrArg String.toList h
  rw [toList_counterKey, show Constants.NEXT_REQUEST_COUNTER_KEY.toList
    = "next_request".toList ++ '_' :: "counter".toList from rfl] at hlist
  obtain ⟨_, htime⟩ := append_cons_cancel (underscore_not_mem_toString time)
    (by decide) hlist
  have hparse := BigInteger.ofString_toString time
  rw [String.toList_inj.1 htime] at hparse
  exact absurd hparse (by simp [show BigInteger.ofString "counter" 10
    = .error .numberFormat from rfl])

/-! ## The store as a list of keys -/

/-- The keys seen after one more call. -/
def insertKey (keys : List (String × Int)) (key : String × Int) :
    List (String × Int) :=
  if key ∈ keys then keys else keys ++ [key]

/-- A key's code is its place in the order the keys came in. -/
structure Codes (keys : List (String × Int)) (prefs : SharedPreferences) : Prop where
  next : prefs.getInt Constants.NEXT_REQUEST_COUNTER_KEY 0 = .ok (Int32.ofNat keys.length)
  code : ∀ key : String × Int, prefs (counterKey key.1 key.2) =
    if key ∈ keys then some (.int (Int32.ofNat (keys.idxOf key))) else none

theorem mem_insertKey {keys : List (String × Int)} {key key' : String × Int} :
    key' ∈ insertKey keys key ↔ key' ∈ keys ∨ key' = key := by
  unfold insertKey
  split
  · next hmem =>
      constructor
      · exact .inl
      · rintro (h | rfl)
        · exact h
        · exact hmem
  · simp

theorem nodup_insertKey {keys : List (String × Int)} (h : keys.Nodup)
    (key : String × Int) : (insertKey keys key).Nodup := by
  unfold insertKey
  split
  · exact h
  · next hnew =>
      rw [List.nodup_append]
      refine ⟨h, List.nodup_singleton key, ?_⟩
      intro a ha b hb heq
      rw [List.mem_singleton] at hb
      subst hb heq
      exact hnew ha

theorem idxOf_insertKey {keys : List (String × Int)} {key key' : String × Int}
    (h : key' ∈ keys) : (insertKey keys key).idxOf key' = keys.idxOf key' := by
  unfold insertKey
  split
  · rfl
  · exact List.idxOf_append_of_mem h

theorem Codes.fresh : Codes [] SharedPreferences.empty :=
  ⟨rfl, fun _ => by simp [SharedPreferences.empty]⟩

theorem Codes.append {keys : List (String × Int)} {prefs : SharedPreferences}
    (h : Codes keys prefs) {key : String × Int} (hnew : key ∉ keys) :
    Codes (keys ++ [key])
      ((prefs.put (counterKey key.1 key.2) (.int (Int32.ofNat keys.length))).put
        Constants.NEXT_REQUEST_COUNTER_KEY (.int (Int32.ofNat keys.length + 1))) := by
  refine ⟨?_, ?_⟩
  · rw [SharedPreferences.getInt, SharedPreferences.put_self]
    simp [Int32.ofNat_add]
  · intro key'
    rw [SharedPreferences.put_of_ne (counterKey_ne_next _ _)]
    by_cases heq : key' = key
    · subst heq
      rw [SharedPreferences.put_self, if_pos (by simp), List.idxOf_append_of_notMem hnew]
      simp
    · have hne : counterKey key'.1 key'.2 ≠ counterKey key.1 key.2 :=
        fun hck => heq (counterKey_inj.1 hck)
      rw [SharedPreferences.put_of_ne hne, h.code key']
      by_cases hmem : key' ∈ keys
      · rw [if_pos hmem, if_pos (by simp [hmem]), List.idxOf_append_of_mem hmem]
      · rw [if_neg hmem, if_neg (by simp [hmem, heq])]

theorem Codes.requestCode {keys : List (String × Int)} {prefs : SharedPreferences}
    (h : Codes keys prefs) (key : String × Int) :
    ∃ prefs', requestCode prefs (counterKey key.1 key.2)
        = .ok (Int32.ofNat ((insertKey keys key).idxOf key), prefs') ∧
      Codes (insertKey keys key) prefs' := by
  have hcode := h.code key
  by_cases hmem : key ∈ keys
  · rw [if_pos hmem] at hcode
    have hkeys : insertKey keys key = keys := if_pos hmem
    refine ⟨prefs, ?_, by rw [hkeys]; exact h⟩
    rw [Scheduler.requestCode, h.next, hkeys]
    simp [bind, Except.bind, SharedPreferences.contains, SharedPreferences.getInt,
      hcode, pure, Except.pure]
  · rw [if_neg hmem] at hcode
    have hkeys : insertKey keys key = keys ++ [key] := if_neg hmem
    have hidx : (keys ++ [key]).idxOf key = keys.length := by
      rw [List.idxOf_append_of_notMem hmem]
      simp
    rw [hkeys, hidx]
    refine ⟨_, ?_, h.append hmem⟩
    rw [Scheduler.requestCode, h.next]
    simp only [bind, Except.bind, SharedPreferences.contains, hcode]
    rfl

theorem mod_eq_of_int32_ofNat_eq {m n : Nat} (h : Int32.ofNat m = Int32.ofNat n) :
    m % 2 ^ 32 = n % 2 ^ 32 := by
  have hbits := congrArg (fun i => i.toBitVec.toNat) h
  simp only [Int32.toBitVec_ofNat', BitVec.toNat_ofNat] at hbits
  exact hbits

/-! ## Calls one after the other -/

namespace Placed

def key (p : Placed) : String × Int := (p.extras.ipfsUri, p.time)

/-- Whose execution an alarm is, and which one. -/
def target (p : Placed) : Bytes × (String × Int) := (p.extras.requester, p.key)

end Placed

/-- What a call sets an alarm for, if it sets one. -/
def ScheduleCall.target (USING_ACURAST : Bool) (call : ScheduleCall) :
    Option (Bytes × (String × Int)) :=
  if call.job.endTimestamp ≥ call.now then
    call.resolvedAt.bind fun now =>
      (systemNextScheduleTimestamp USING_ACURAST call.job now).toOption.map fun time =>
        (call.job.requester, call.job.ipfsUri, time)
  else none

def scheduleAll (USING_ACURAST : Bool) (calls : List ScheduleCall) : ScheduleState :=
  calls.foldl (scheduleV8Execution USING_ACURAST) ScheduleState.fresh

/-- Alarms for different executions have different request codes, and each
is still set for its time, with extras it was given itself. -/
def KeepsOwn (s : ScheduleState) : Prop :=
  (∀ p ∈ s.placed, ∀ q ∈ s.placed, p.target ≠ q.target →
    p.requestCode ≠ q.requestCode) ∧
  (∀ p ∈ s.placed, s.alarms p.requestCode = some p.time ∧
    ∃ q ∈ s.placed, q.target = p.target ∧ s.extras p.requestCode = some q.extras)

theorem Codes.schedule {keys : List (String × Int)} {s : ScheduleState}
    (h : Codes keys s.prefs) {USING_ACURAST : Bool} {job : Job} {now time : Int}
    (htime : systemNextScheduleTimestamp USING_ACURAST job now = .ok time) :
    ∃ prefs isLastReport, Codes (insertKey keys (job.ipfsUri, time)) prefs ∧
      schedule USING_ACURAST job now s = .ok {
        prefs := prefs
        extras := Function.update s.extras
          (Int32.ofNat ((insertKey keys (job.ipfsUri, time)).idxOf (job.ipfsUri, time)))
          (some { toJob := job, isLastReport := isLastReport })
        alarms := Function.update s.alarms
          (Int32.ofNat ((insertKey keys (job.ipfsUri, time)).idxOf (job.ipfsUri, time)))
          (some time)
        placed := {
          requestCode := Int32.ofNat
            ((insertKey keys (job.ipfsUri, time)).idxOf (job.ipfsUri, time))
          time := time
          extras := { toJob := job, isLastReport := isLastReport } } :: s.placed } := by
  obtain ⟨prefs, hcode, hcodes⟩ := h.requestCode (job.ipfsUri, time)
  refine ⟨prefs, decide (wrapLong (time + job.interval) > job.endTimestamp), hcodes, ?_⟩
  rw [Scheduler.schedule, htime]
  simp only [bind, Except.bind, hcode]
  rfl

/-- What calls keep: the store in order, every alarm's code its key's, and
behind every code the newest alarm set with it. -/
structure Kept (keys : List (String × Int)) (s : ScheduleState) : Prop where
  codes : Codes keys s.prefs
  nodup : keys.Nodup
  placed : ∀ p ∈ s.placed, p.key ∈ keys ∧ p.requestCode = Int32.ofNat (keys.idxOf p.key)
  used : ∀ key ∈ keys, ∃ p ∈ s.placed, p.key = key
  newest : ∀ p ∈ s.placed, ∃ q ∈ s.placed, q.requestCode = p.requestCode ∧
    s.alarms p.requestCode = some q.time ∧ s.extras p.requestCode = some q.extras

theorem Kept.fresh : Kept [] ScheduleState.fresh := by
  refine ⟨.fresh, List.nodup_nil, ?_, ?_, ?_⟩
  · intro p hp
    simp [ScheduleState.fresh] at hp
  · intro key hkey
    simp at hkey
  · intro p hp
    simp [ScheduleState.fresh] at hp

theorem Kept.place {keys : List (String × Int)} {s : ScheduleState} (h : Kept keys s)
    {prefs : SharedPreferences} {p : Placed} (hcodes : Codes (insertKey keys p.key) prefs)
    (hcode : p.requestCode = Int32.ofNat ((insertKey keys p.key).idxOf p.key)) :
    Kept (insertKey keys p.key) {
      prefs := prefs
      extras := Function.update s.extras p.requestCode (some p.extras)
      alarms := Function.update s.alarms p.requestCode (some p.time)
      placed := p :: s.placed } := by
  refine ⟨hcodes, nodup_insertKey h.nodup _, ?_, ?_, ?_⟩
  · intro q hq
    rcases List.mem_cons.1 hq with rfl | hq
    · exact ⟨mem_insertKey.2 (.inr rfl), hcode⟩
    · obtain ⟨hmem, hq⟩ := h.placed q hq
      refine ⟨mem_insertKey.2 (.inl hmem), ?_⟩
      rw [idxOf_insertKey hmem]
      exact hq
  · intro key hkey
    rcases mem_insertKey.1 hkey with hkey | rfl
    · obtain ⟨q, hq, hqkey⟩ := h.used key hkey
      exact ⟨q, List.mem_cons_of_mem _ hq, hqkey⟩
    · exact ⟨p, List.mem_cons_self .., rfl⟩
  · intro q hq
    by_cases hsame : q.requestCode = p.requestCode
    · refine ⟨p, List.mem_cons_self .., hsame.symm, ?_, ?_⟩
      · rw [hsame]
        exact Function.update_self ..
      · rw [hsame]
        exact Function.update_self ..
    · rcases List.mem_cons.1 hq with rfl | hq
      · exact absurd rfl hsame
      · obtain ⟨r, hr, hcode', halarm, hextras⟩ := h.newest q hq
        refine ⟨r, List.mem_cons_of_mem _ hr, hcode', ?_, ?_⟩
        · exact (Function.update_of_ne hsame ..).trans halarm
        · exact (Function.update_of_ne hsame ..).trans hextras

/-- One call: nothing, or one more alarm for its target. -/
theorem Kept.call {keys : List (String × Int)} {s : ScheduleState} (h : Kept keys s)
    (USING_ACURAST : Bool) (call : ScheduleCall) :
    (call.target USING_ACURAST = none ∧ scheduleV8Execution USING_ACURAST s call = s) ∨
    ∃ p keys', call.target USING_ACURAST = some p.target ∧
      Kept keys' (scheduleV8Execution USING_ACURAST s call) ∧
      (scheduleV8Execution USING_ACURAST s call).placed = p :: s.placed := by
  unfold ScheduleCall.target scheduleV8Execution
  split
  · cases call.resolvedAt with
    | none => exact .inl ⟨rfl, rfl⟩
    | some now =>
        simp only [Option.bind_some]
        cases htime : systemNextScheduleTimestamp USING_ACURAST call.job now with
        | error e =>
            refine .inl ⟨rfl, ?_⟩
            rw [schedule, htime]
            rfl
        | ok time =>
            obtain ⟨prefs, isLastReport, hcodes, hschedule⟩ := h.codes.schedule htime
            rw [hschedule]
            let p : Placed := {
              requestCode := Int32.ofNat ((insertKey keys (call.job.ipfsUri, time)).idxOf
                (call.job.ipfsUri, time))
              time := time
              extras := { toJob := call.job, isLastReport := isLastReport } }
            have hplace := @Kept.place keys s h prefs p hcodes rfl
            exact .inr ⟨p, _, rfl, hplace, rfl⟩
  · exact .inl ⟨rfl, rfl⟩

/-- All calls: the alarms set are the calls' targets. The induction takes
the last call off. -/
theorem kept_scheduleAll (USING_ACURAST : Bool) (calls : List ScheduleCall) :
    ∃ keys, Kept keys (scheduleAll USING_ACURAST calls) ∧
      ∀ target, (∃ p ∈ (scheduleAll USING_ACURAST calls).placed, p.target = target) ↔
        target ∈ calls.filterMap (ScheduleCall.target USING_ACURAST) := by
  induction calls using List.reverseRecOn with
  | nil =>
      refine ⟨[], .fresh, ?_⟩
      intro target
      simp [scheduleAll, ScheduleState.fresh]
  | append_singleton calls call ih =>
      obtain ⟨keys, hkept, htargets⟩ := ih
      have hlast : scheduleAll USING_ACURAST (calls ++ [call])
          = scheduleV8Execution USING_ACURAST (scheduleAll USING_ACURAST calls) call := by
        rw [scheduleAll, List.foldl_append]
        rfl
      rw [hlast]
      rcases hkept.call USING_ACURAST call with ⟨hnone, hsame⟩ | ⟨p, keys', hp, hkept', hplaced⟩
      · refine ⟨keys, by rw [hsame]; exact hkept, ?_⟩
        intro target
        rw [hsame, htargets]
        simp [hnone]
      · refine ⟨keys', hkept', ?_⟩
        intro target
        rw [hplaced, List.filterMap_append, List.mem_append, ← htargets]
        simp only [List.mem_cons, exists_eq_or_imp, List.filterMap_cons, hp,
          List.filterMap_nil, List.not_mem_nil, or_false]
        rw [or_comm, eq_comm]

/-! ## The condition -/

/-- Two keys at one place modulo `2 ^ 32` are one key, as long as there are
no more than that. -/
theorem Kept.key_eq {keys : List (String × Int)} {s : ScheduleState} (h : Kept keys s)
    (hlength : keys.length ≤ 2 ^ 32) {p q : Placed} (hp : p ∈ s.placed)
    (hq : q ∈ s.placed) (hcode : p.requestCode = q.requestCode) : p.key = q.key := by
  obtain ⟨hpmem, hpcode⟩ := h.placed p hp
  obtain ⟨hqmem, hqcode⟩ := h.placed q hq
  rw [hpcode, hqcode] at hcode
  have hpidx := List.idxOf_lt_length_of_mem hpmem
  have hqidx := List.idxOf_lt_length_of_mem hqmem
  have hmod := mod_eq_of_int32_ofNat_eq hcode
  rw [Nat.mod_eq_of_lt (by omega), Nat.mod_eq_of_lt (by omega)] at hmod
  exact (List.idxOf_inj hpmem).1 hmod

/-- With one key more than there are codes, the last shares the first's. -/
theorem Kept.exists_shared {keys : List (String × Int)} {s : ScheduleState}
    (h : Kept keys s) (hlength : 2 ^ 32 < keys.length) :
    ∃ p ∈ s.placed, ∃ q ∈ s.placed, p.key ≠ q.key ∧ p.requestCode = q.requestCode := by
  have hpos : 0 < keys.length := by omega
  obtain ⟨p, hp, hpkey⟩ := h.used keys[0] (List.getElem_mem hpos)
  obtain ⟨q, hq, hqkey⟩ := h.used keys[2 ^ 32] (List.getElem_mem hlength)
  refine ⟨p, hp, q, hq, ?_, ?_⟩
  · intro heq
    rw [hpkey, hqkey] at heq
    exact absurd ((h.nodup.getElem_inj_iff).1 heq) (by decide)
  · rw [(h.placed p hp).2, (h.placed q hq).2, hpkey, hqkey,
      h.nodup.idxOf_getElem, h.nodup.idxOf_getElem]
    decide

theorem Kept.keepsOwn_iff_keys {keys : List (String × Int)} {s : ScheduleState}
    (h : Kept keys s) : KeepsOwn s ↔
      (∀ p ∈ s.placed, ∀ q ∈ s.placed, p.key = q.key →
        p.extras.requester = q.extras.requester) ∧ keys.length ≤ 2 ^ 32 := by
  constructor
  · intro hgiven
    obtain ⟨hapart, _⟩ := hgiven
    refine ⟨?_, ?_⟩
    · intro p hp q hq hkey
      by_contra hne
      have htarget : p.target ≠ q.target := fun heq => hne (congrArg Prod.fst heq)
      apply hapart p hp q hq htarget
      rw [(h.placed p hp).2, (h.placed q hq).2, hkey]
    · by_contra hlength
      obtain ⟨p, hp, q, hq, hkey, hcode⟩ := h.exists_shared (by omega)
      exact hapart p hp q hq (fun heq => hkey (congrArg Prod.snd heq)) hcode
  · intro hgiven
    obtain ⟨hrequester, hlength⟩ := hgiven
    have hsame : ∀ p ∈ s.placed, ∀ q ∈ s.placed, p.requestCode = q.requestCode →
        p.target = q.target := by
      intro p hp q hq hcode
      have hkey := h.key_eq hlength hp hq hcode
      exact Prod.ext (hrequester p hp q hq hkey) hkey
    refine ⟨fun p hp q hq hne hcode => hne (hsame p hp q hq hcode), ?_⟩
    intro p hp
    obtain ⟨q, hq, hcode, halarm, hextras⟩ := h.newest p hp
    have htarget := hsame q hq p hp hcode
    have htime : q.time = p.time := congrArg (fun t => t.2.2) htarget
    exact ⟨by rw [halarm, htime], q, hq, htarget, hextras⟩

theorem Kept.length_keys {keys : List (String × Int)} {s : ScheduleState}
    (h : Kept keys s) {targets : List (Bytes × (String × Int))}
    (htargets : ∀ target, (∃ p ∈ s.placed, p.target = target) ↔ target ∈ targets) :
    keys.length = (targets.map Prod.snd).dedup.length := by
  apply List.Perm.length_eq
  rw [List.perm_ext_iff_of_nodup h.nodup (List.nodup_dedup _)]
  intro key
  rw [List.mem_dedup, List.mem_map]
  constructor
  · intro hkey
    obtain ⟨p, hp, hpkey⟩ := h.used key hkey
    exact ⟨p.target, (htargets _).1 ⟨p, hp, rfl⟩, hpkey⟩
  · intro hgiven
    obtain ⟨target, htarget, rfl⟩ := hgiven
    obtain ⟨p, hp, rfl⟩ := (htargets target).2 htarget
    exact (h.placed p hp).1

/-- Every alarm is its own execution's exactly where a URI and a time belong
to one requester, and no more than `2 ^ 32` of them were seen. -/
theorem keepsOwn_iff (USING_ACURAST : Bool) (calls : List ScheduleCall) :
    KeepsOwn (scheduleAll USING_ACURAST calls) ↔
      (∀ x ∈ calls.filterMap (ScheduleCall.target USING_ACURAST),
        ∀ y ∈ calls.filterMap (ScheduleCall.target USING_ACURAST),
        x.2 = y.2 → x.1 = y.1) ∧
      ((calls.filterMap (ScheduleCall.target USING_ACURAST)).map Prod.snd).dedup.length
        ≤ 2 ^ 32 := by
  obtain ⟨keys, hkept, htargets⟩ := kept_scheduleAll USING_ACURAST calls
  rw [hkept.keepsOwn_iff_keys, hkept.length_keys htargets]
  refine and_congr_left fun _ => ?_
  constructor
  · intro h x hx y hy hkey
    obtain ⟨p, hp, rfl⟩ := (htargets x).2 hx
    obtain ⟨q, hq, rfl⟩ := (htargets y).2 hy
    exact h p hp q hq hkey
  · intro h p hp q hq hkey
    exact h p.target ((htargets _).1 ⟨p, hp, rfl⟩) q.target ((htargets _).1 ⟨q, hq, rfl⟩) hkey

/-- One script registered by different requesters, as `fetchJobs` schedules
it: due at 1000. -/
def sameScript (requester : UInt8) : ScheduleCall where
  job := {
    ipfsUri := "ipfs://script"
    requester := List.replicate 32 requester
    startTimestamp := 1000
    endTimestamp := 2000
    interval := 1000
    fee := 0
    gasLimit := 0
    storageLimit := 0 }
  now := 500
  resolvedAt := some 500

/-- The second call takes the first one's alarm over: requester 1 is left
without an execution, and requester 2's stands under both. -/
theorem shared_requestCode :
    ¬ KeepsOwn (scheduleAll true [sameScript 1, sameScript 2]) ∧
    (scheduleAll true [sameScript 1, sameScript 2]).extras 0
      = some { toJob := (sameScript 2).job, isLastReport := false } := by
  have hrun : (scheduleAll true [sameScript 1, sameScript 2]).placed = [
      { requestCode := 0, time := 1000,
        extras := { toJob := (sameScript 2).job, isLastReport := false } },
      { requestCode := 0, time := 1000,
        extras := { toJob := (sameScript 1).job, isLastReport := false } }] := by
    decide
  refine ⟨?_, by decide⟩
  intro hgiven
  obtain ⟨hapart, _⟩ := hgiven
  rw [hrun] at hapart
  exact hapart _ (List.mem_cons_self ..) _
    (List.mem_cons_of_mem _ (List.mem_cons_self ..)) (by decide) rfl

end DataProcessor
