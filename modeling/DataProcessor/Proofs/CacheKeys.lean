import DataProcessor.Model.Cache

/-!
# Which URIs the cache keeps to themselves

A script is stored under its URI as it is, next to keys other components
write, and the URI is a text a job brings along. For a URI that is none of
those keys the store only ever holds what was downloaded for it; for one
that is, some history makes `resolveUri` hand on another component's value,
or raise. `keepsApart_iff` says it of every URI.
-/

namespace DataProcessor

open Lib

/-- Over every history of the store: what `resolveUri` hands on for this URI
was downloaded for it, and storing a script under it changes no key of the
others. -/
def KeepsApart (ipfsUri : String) : Prop :=
  ∀ t, Reaches CacheState.step anyStep CacheState.fresh t →
    (∀ result, (ipfsUri, result) ∈ t.resolved →
      ∃ script, result = .ok script ∧ (ipfsUri, script) ∈ t.downloads) ∧
    (∀ i script returns u, t.pending[i]? = some ipfsUri →
      t.step (.download i script returns) = some u →
        ∀ key, IsReserved key → u.prefs key = t.prefs key)

namespace CacheState

structure Own (ipfsUri : String) (s : CacheState) : Prop where
  stored : s.prefs ipfsUri = none ∨
    ∃ script, s.prefs ipfsUri = some (.string script) ∧
      (ipfsUri, script) ∈ s.downloads
  resolved : ∀ result, (ipfsUri, result) ∈ s.resolved →
    ∃ script, result = .ok script ∧ (ipfsUri, script) ∈ s.downloads

variable {ipfsUri : String} {s t : CacheState}

theorem Own.fresh : Own ipfsUri fresh :=
  ⟨.inl rfl, fun result h => by simp [CacheState.fresh] at h⟩

theorem Own.of_prefs (h : s.Own ipfsUri) (hprefs : t.prefs ipfsUri = s.prefs ipfsUri)
    (hdownloads : t.downloads = s.downloads) (hresolved : t.resolved = s.resolved) :
    t.Own ipfsUri := by
  refine ⟨?_, ?_⟩
  · rw [hprefs, hdownloads]
    exact h.stored
  · rw [hdownloads, hresolved]
    exact h.resolved

theorem Own.cachedScript (h : s.Own ipfsUri) {result : Result String}
    (hresult : IPFS.cachedScript s.prefs ipfsUri = some result) :
    ∃ script, result = .ok script ∧ (ipfsUri, script) ∈ s.downloads := by
  unfold IPFS.cachedScript at hresult
  split at hresult
  · next hcontains =>
      injection hresult with hresult
      rcases h.stored with hnone | ⟨script, hscript, hmem⟩
      · rw [SharedPreferences.contains, hnone] at hcontains
        simp at hcontains
      · rw [SharedPreferences.getString, hscript] at hresult
        exact ⟨script, hresult.symm, hmem⟩
  · simp at hresult

theorem Own.step (hfree : ¬ IsReserved ipfsUri) (h : s.Own ipfsUri) {a : CacheAction}
    (hstep : s.step a = some t) : t.Own ipfsUri := by
  have hcounter : ipfsUri ≠ Constants.TRANSACTION_COUNTER := fun heq => hfree (.inl heq)
  have hfetch : ipfsUri ≠ "LAST_COUNTER_FETCH" := fun heq => hfree (.inr (.inl heq))
  have hrevealed : ipfsUri ≠ "IS_REVEALED" := fun heq => hfree (.inr (.inr (.inl heq)))
  cases a with
  | resolveUri other =>
      simp only [CacheState.step] at hstep
      split at hstep
      · next result hresult =>
          injection hstep with hstep
          subst hstep
          refine ⟨h.stored, ?_⟩
          intro result' hmem
          rcases List.mem_cons.1 hmem with heq | hmem
          · injection heq with huri heq
            subst huri heq
            exact h.cachedScript hresult
          · exact h.resolved result' hmem
      · injection hstep with hstep
        subst hstep
        exact ⟨h.stored, h.resolved⟩
  | download i script returns =>
      simp only [CacheState.step] at hstep
      obtain ⟨other, _, hstep⟩ := Option.map_eq_some_iff.1 hstep
      subst hstep
      refine ⟨?_, ?_⟩
      · by_cases hother : ipfsUri = other ∧ returns = true
        · obtain ⟨rfl, rfl⟩ := hother
          exact .inr ⟨script, by simp, by simp⟩
        · -- The store still has what it had under this URI.
          have hsame : (if returns then s.prefs.put other (.string script) else s.prefs)
              ipfsUri = s.prefs ipfsUri := by
            split
            · next hreturns =>
                exact SharedPreferences.put_of_ne (fun heq => hother ⟨heq, hreturns⟩) ..
            · rfl
          rcases h.stored with hnone | ⟨script', hscript, hmem⟩
          · exact .inl (hsame.trans hnone)
          · exact .inr ⟨script', hsame.trans hscript, List.mem_cons_of_mem _ hmem⟩
      · intro result hmem
        obtain ⟨script', hresult, hdown⟩ := h.resolved result hmem
        exact ⟨script', hresult, List.mem_cons_of_mem _ hdown⟩
  | writeCounter counter now =>
      injection hstep with hstep
      subst hstep
      refine h.of_prefs ?_ rfl rfl
      show TezosRPC.writeCounter s.prefs counter now ipfsUri = s.prefs ipfsUri
      rw [TezosRPC.writeCounter, SharedPreferences.put_of_ne hfetch,
        SharedPreferences.put_of_ne hcounter]
  | writeRevealed isRevealed =>
      injection hstep with hstep
      subst hstep
      exact h.of_prefs (SharedPreferences.put_of_ne hrevealed ..) rfl rfl
  | writeEnvironment parameterName value =>
      injection hstep with hstep
      subst hstep
      have hname : ipfsUri ≠ Constants.ENVIRONMENT_KEY_PREFIX ++ parameterName :=
        fun heq => hfree (.inr (.inr (.inr ⟨parameterName, heq⟩)))
      exact h.of_prefs (SharedPreferences.put_of_ne hname ..) rfl rfl
  | clearSharedPreferences =>
      injection hstep with hstep
      subst hstep
      exact ⟨.inl rfl, h.resolved⟩

theorem download_reserved (hfree : ¬ IsReserved ipfsUri) {i : Nat} {script : String}
    {returns : Bool} (hi : s.pending[i]? = some ipfsUri)
    (hstep : s.step (.download i script returns) = some t) {key : String}
    (hkey : IsReserved key) : t.prefs key = s.prefs key := by
  simp only [CacheState.step, hi, Option.map_some] at hstep
  injection hstep with hstep
  subst hstep
  have hne : key ≠ ipfsUri := by
    rintro rfl
    exact hfree hkey
  show (if returns then s.prefs.put ipfsUri (.string script) else s.prefs) key = _
  split
  · exact SharedPreferences.put_of_ne hne ..
  · rfl

/-- The one action that puts a value under a reserved key. -/
def reservedWrite (key : String) (a : CacheAction) : Prop :=
  ∃ t value, fresh.step a = some t ∧ t.prefs key = some value ∧ t.downloads = []

theorem exists_reservedWrite {key : String} (h : IsReserved key) :
    ∃ a, reservedWrite key a := by
  rcases h with rfl | rfl | rfl | ⟨name, rfl⟩
  · exact ⟨.writeCounter 0 0, _, .string "0", rfl, rfl, rfl⟩
  · exact ⟨.writeCounter 0 0, _, .long 0, rfl, rfl, rfl⟩
  · exact ⟨.writeRevealed true, _, .boolean true, rfl, rfl, rfl⟩
  · refine ⟨.writeEnvironment name "", _, .string "", rfl, ?_, rfl⟩
    exact SharedPreferences.put_self ..

/-- After another component has written its key, resolving the key as a URI
finds something nobody downloaded. -/
theorem resolved_of_reservedWrite {key : String} {a : CacheAction}
    (h : reservedWrite key a) :
    ∃ t result, Reaches step anyStep fresh t ∧ (key, result) ∈ t.resolved ∧
      t.downloads = [] := by
  obtain ⟨s, value, hstep, hvalue, hdownloads⟩ := h
  have hcontains : s.prefs.contains key = true := by
    rw [SharedPreferences.contains, hvalue]
    rfl
  have hresolve : s.step (.resolveUri key) = some { s with
      resolved := (key, s.prefs.getString key "") :: s.resolved } := by
    simp only [CacheState.step, IPFS.cachedScript, hcontains, if_true]
  exact ⟨_, _, (Reaches.refl.tail trivial hstep).tail trivial hresolve,
    List.mem_cons_self .., hdownloads⟩

end CacheState

/-- A URI keeps to itself exactly when no other component has it for a
key. -/
theorem keepsApart_iff (ipfsUri : String) :
    KeepsApart ipfsUri ↔ ¬ IsReserved ipfsUri := by
  constructor
  · intro h hreserved
    obtain ⟨a, ha⟩ := CacheState.exists_reservedWrite hreserved
    obtain ⟨t, result, hreach, hmem, hdownloads⟩ :=
      CacheState.resolved_of_reservedWrite ha
    obtain ⟨script, _, hscript⟩ := (h t hreach).1 result hmem
    rw [hdownloads] at hscript
    simp at hscript
  · intro hfree t hreach
    have hown : t.Own ipfsUri := Reaches.invariant
      (fun s a u (hs : s.Own ipfsUri) _ hstep => hs.step hfree hstep) hreach .fresh
    refine ⟨hown.resolved, ?_⟩
    intro i script returns u hi hstep key hkey
    exact CacheState.download_reserved hfree hi hstep hkey

/-- A job with the URI `transaction_counter` is handed the counter as its
script, one with the URI `LAST_COUNTER_FETCH` makes `resolveUri` raise, and
a script stored under the first is the next counter. -/
theorem transaction_counter_not_apart :
    ¬ KeepsApart "transaction_counter" ∧
    (∃ t, Reaches CacheState.step anyStep CacheState.fresh t ∧ t.downloads = [] ∧
      t.resolved = [("LAST_COUNTER_FETCH", .error .classCast),
        ("transaction_counter", .ok "41")]) ∧
    (∃ t, Reaches CacheState.step anyStep CacheState.fresh t ∧
      t.prefs "transaction_counter" = some (.string "print(1)")) := by
  obtain ⟨t, ht, hdownloads, hresolved⟩ : ∃ t,
      runAll CacheState.step anyStep [.writeCounter 41 1700000000000,
          .resolveUri "transaction_counter", .resolveUri "LAST_COUNTER_FETCH"]
        CacheState.fresh = some t ∧ t.downloads = [] ∧
        t.resolved = [("LAST_COUNTER_FETCH", .error .classCast),
          ("transaction_counter", .ok "41")] := ⟨_, rfl, rfl, rfl⟩
  obtain ⟨u, hu, hprefs⟩ : ∃ u,
      runAll CacheState.step anyStep [.resolveUri "transaction_counter",
          .writeCounter 41 1700000000000, .download 0 "print(1)" true]
        CacheState.fresh = some u ∧
        u.prefs "transaction_counter" = some (.string "print(1)") := ⟨_, rfl, rfl⟩
  refine ⟨?_, ⟨t, reaches_of_runAll ht, hdownloads, hresolved⟩,
    u, reaches_of_runAll hu, hprefs⟩
  intro h
  obtain ⟨script, _, hscript⟩ := (h t (reaches_of_runAll ht)).1 (.ok "41") (by
    rw [hresolved]
    simp)
  rw [hdownloads] at hscript
  simp at hscript

end DataProcessor
