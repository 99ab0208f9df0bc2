import Mathlib

/-!
# Large primes by certificates

Lucas's test proves `p` prime from a number whose powers modulo `p` reach 1
first at `p - 1`, and to know that it is enough to look at the exponents
`(p - 1) / q` for the primes `q` of `p - 1`. A certificate is a list of such
tests, each with the factors of its `p - 1`; a factor is a prime tested
earlier in the list, or small enough for trial division.

`check` is a Boolean the kernel evaluates: powers are taken by repeated
squaring, about two multiplications for each bit of the exponent.
-/

namespace DataProcessor.Lib

/-- `a ^ n % m` for an exponent of at most `bits` bits. -/
def powMod (m a : Nat) : Nat → Nat → Nat
  | 0, _ => 1 % m
  | bits + 1, n =>
      if n = 0 then 1 % m
      else
        let r := powMod m a bits (n / 2)
        if n % 2 = 0 then r * r % m else r * r * a % m

theorem powMod_eq {m a bits n : Nat} (h : n < 2 ^ bits) :
    powMod m a bits n = a ^ n % m := by
  induction bits generalizing n with
  | zero =>
      have hn : n = 0 := by simpa using h
      rw [hn]
      rfl
  | succ bits ih =>
      have hhalf : n / 2 < 2 ^ bits := by
        rw [Nat.pow_succ] at h
        omega
      have hsq : a ^ (n / 2) * a ^ (n / 2) = a ^ (n / 2 * 2) := by
        rw [Nat.pow_mul, Nat.pow_two]
      rw [powMod, ih hhalf]
      split
      · next hzero =>
          rw [hzero, Nat.pow_zero]
      · next hzero =>
          simp only []
          split
          · next heven =>
              rw [← Nat.mul_mod, hsq, show n / 2 * 2 = n by omega]
          · next hodd =>
              rw [Nat.mul_mod, ← Nat.mul_mod (a ^ (n / 2)), ← Nat.mul_mod, hsq,
                ← Nat.pow_succ, show (n / 2 * 2).succ = n by omega]

/-! ## Trial division -/

/-- No number from `k` up to the square root of `n` divides `n`; `fuel`
numbers are tried. -/
def noDivisorFrom (n : Nat) : Nat → Nat → Bool
  | 0, _ => false
  | fuel + 1, k => n < k * k || n % k != 0 && noDivisorFrom n fuel (k + 1)

theorem not_dvd_of_noDivisorFrom {n fuel k : Nat} (h : noDivisorFrom n fuel k = true)
    {m : Nat} (hle : k ≤ m) (hsq : m * m ≤ n) : ¬ m ∣ n := by
  induction fuel generalizing k with
  | zero => cases h
  | succ fuel ih =>
      simp only [noDivisorFrom, Bool.or_eq_true, Bool.and_eq_true, decide_eq_true_eq,
        bne_iff_ne, ne_eq, ← Nat.dvd_iff_mod_eq_zero] at h
      rcases h with hlt | ⟨hk, hrest⟩
      · have hkm : k * k ≤ m * m := Nat.mul_le_mul hle hle
        omega
      · rcases Nat.eq_or_lt_of_le hle with rfl | hlt
        · exact hk
        · exact ih hrest hlt

/-- Enough for the primes below `2 ^ 20`. -/
def smallPrime (n : Nat) : Bool := 2 ≤ n && noDivisorFrom n 1024 2

theorem prime_of_smallPrime {n : Nat} (h : smallPrime n = true) : n.Prime := by
  rw [smallPrime, Bool.and_eq_true, decide_eq_true_eq] at h
  rw [Nat.prime_def_le_sqrt]
  exact ⟨h.1, fun m hle hsqrt =>
    not_dvd_of_noDivisorFrom h.2 hle (Nat.le_sqrt.1 hsqrt)⟩

/-! ## Certificates -/

/-- Lucas's test for `p` with the number `a`: `factors` are the primes of
`p - 1` with their exponents. -/
structure LucasTest where
  p : Nat
  a : Nat
  factors : List (Nat × Nat)

/-- The bits of the exponents a test may use. -/
def exponentBits : Nat := 256

def LucasTest.passes (proven : List Nat) (t : LucasTest) : Bool :=
  2 ≤ t.p && t.p < 2 ^ exponentBits &&
    (t.factors.map fun q => q.1 ^ q.2).prod == t.p - 1 &&
    t.factors.all (fun q => proven.contains q.1 || smallPrime q.1) &&
    powMod t.p t.a exponentBits (t.p - 1) == 1 &&
    t.factors.all fun q => powMod t.p t.a exponentBits ((t.p - 1) / q.1) != 1

/-- The tests in order, each with the primes of those before it. -/
def certifies (proven : List Nat) : List LucasTest → Bool
  | [] => true
  | t :: rest => t.passes proven && certifies (t.p :: proven) rest

theorem powMod_eq_one_iff {p a n : Nat} (hp : 2 ≤ p) (hn : n < 2 ^ exponentBits) :
    powMod p a exponentBits n = 1 ↔ (a : ZMod p) ^ n = 1 := by
  have hone : 1 % p = 1 := Nat.mod_eq_of_lt (by omega)
  have hcast : (1 : ZMod p) = ((1 : Nat) : ZMod p) := Nat.cast_one.symm
  rw [powMod_eq hn, ← Nat.cast_pow, hcast, ZMod.natCast_eq_natCast_iff', hone]

theorem LucasTest.prime {proven : List Nat} {t : LucasTest}
    (hproven : ∀ q ∈ proven, q.Prime) (h : t.passes proven = true) : t.p.Prime := by
  simp only [LucasTest.passes, Bool.and_eq_true, decide_eq_true_eq, beq_iff_eq,
    List.all_eq_true, Bool.or_eq_true, List.contains_iff_mem, bne_iff_ne, ne_eq] at h
  obtain ⟨⟨⟨⟨⟨htwo, hbits⟩, hprod⟩, hfactors⟩, hfull⟩, hparts⟩ := h
  refine lucas_primality t.p (t.a : ZMod t.p) ?_ fun q hq hdvd => ?_
  · exact (powMod_eq_one_iff htwo (by omega)).1 hfull
  · -- A prime of `p - 1` is one of the factors, these being primes.
    rw [← hprod, hq.prime.dvd_prod_iff] at hdvd
    obtain ⟨d, hd, hqd⟩ := hdvd
    obtain ⟨f, hf, rfl⟩ := List.mem_map.1 hd
    have hfprime : f.1.Prime := (hfactors f hf).elim (hproven f.1) prime_of_smallPrime
    have heq : q = f.1 :=
      (Nat.prime_dvd_prime_iff_eq hq hfprime).1 (hq.dvd_of_dvd_pow hqd)
    have hlt : (t.p - 1) / q < 2 ^ exponentBits :=
      Nat.lt_of_le_of_lt (Nat.div_le_self _ _) (by omega)
    rw [ne_eq, ← powMod_eq_one_iff htwo hlt, heq]
    exact hparts f hf

theorem prime_of_certifies {proven : List Nat} {tests : List LucasTest}
    (hproven : ∀ q ∈ proven, q.Prime) (h : certifies proven tests = true) {p : Nat}
    (hp : p ∈ tests.map LucasTest.p) : p.Prime := by
  induction tests generalizing proven with
  | nil => cases hp
  | cons t rest ih =>
      rw [certifies, Bool.and_eq_true] at h
      have ht := t.prime hproven h.1
      rcases List.mem_cons.1 hp with rfl | hp
      · exact ht
      · refine ih (fun q hq => ?_) h.2 hp
        rcases List.mem_cons.1 hq with rfl | hq
        · exact ht
        · exact hproven q hq

end DataProcessor.Lib
