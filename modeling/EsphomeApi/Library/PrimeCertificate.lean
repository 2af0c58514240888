/-
EsphomeApi.Library.PrimeCertificate — large primes, by Lucas's test: `p` is
prime if some `a` has order `p - 1` modulo `p`, and that is seen from the
prime factors of `p - 1`.

A certificate lists numbers, each with its `a` and the factors of `p - 1`,
which stand further down the list; `check` runs every test, with powers by
repeated squaring, so the kernel can evaluate it on numbers of hundreds of
bits.
-/
import Mathlib.NumberTheory.LucasPrimality

namespace EsphomeApi.Library.PrimeCertificate

/-- `a ^ e % m` for `e` of at most `bits` bits. -/
def powMod (m : Nat) : Nat → Nat → Nat → Nat
  | 0, _, _ => 1 % m
  | bits + 1, a, e =>
      if e = 0 then 1 % m
      else if e % 2 = 0 then powMod m bits (a * a % m) (e / 2)
      else a * powMod m bits (a * a % m) (e / 2) % m

theorem powMod_eq (m : Nat) : ∀ (bits a e : Nat), e < 2 ^ bits → powMod m bits a e = a ^ e % m
  | 0, a, e, h => by
      obtain rfl : e = 0 := by simpa using h
      rw [powMod, Nat.pow_zero]
  | bits + 1, a, e, h => by
      have hrec := powMod_eq m bits (a * a % m) (e / 2) (by rw [Nat.pow_succ] at h; omega)
      have hsquare : (a * a % m) ^ (e / 2) % m = a ^ (2 * (e / 2)) % m := by
        rw [← Nat.pow_mod, ← Nat.pow_two, Nat.pow_mul]
      rw [powMod, hrec, hsquare]
      split
      · next hzero => rw [hzero, Nat.pow_zero]
      · split
        · next heven => rw [show 2 * (e / 2) = e by omega]
        · next hodd =>
            rw [Nat.mul_mod_mod, ← Nat.pow_succ', show (2 * (e / 2)).succ = e by omega]

/-- A number, its `a`, and `p - 1` as a product of powers. -/
structure Entry where
  p : Nat
  a : Nat
  factors : List (Nat × Nat)

/-- Lucas's test, for exponents of at most `bits` bits, once the primes of
`primes` are known. -/
def Entry.test (e : Entry) (bits : Nat) (primes : List Nat) : Bool :=
  decide (2 ≤ e.p ∧ e.p ≤ 2 ^ bits) &&
    decide ((e.factors.map fun f => f.1 ^ f.2).prod = e.p - 1) &&
    decide (powMod e.p bits e.a (e.p - 1) = 1) &&
    e.factors.all fun f =>
      primes.contains f.1 && decide (powMod e.p bits e.a ((e.p - 1) / f.1) ≠ 1)

/-- Every entry passes, given the entries behind it. -/
def check (bits : Nat) : List Entry → Bool
  | [] => true
  | e :: entries => e.test bits (entries.map Entry.p) && check bits entries

/-- A prime that divides a product of powers of primes is one of them. -/
theorem mem_of_dvd_prod {q : Nat} (hq : q.Prime) :
    ∀ {factors : List (Nat × Nat)}, (∀ f ∈ factors, f.1.Prime) →
      q ∣ (factors.map fun f => f.1 ^ f.2).prod → ∃ f ∈ factors, f.1 = q
  | [], _, h => absurd (Nat.dvd_one.mp h) hq.ne_one
  | f :: factors, hprime, h => by
      rw [List.map_cons, List.prod_cons] at h
      rcases hq.dvd_mul.mp h with h | h
      · have hf := hprime f List.mem_cons_self
        exact ⟨f, List.mem_cons_self,
          ((Nat.prime_dvd_prime_iff_eq hq hf).mp (hq.dvd_of_dvd_pow h)).symm⟩
      · obtain ⟨g, hg, rfl⟩ := mem_of_dvd_prod hq
          (fun g hg => hprime g (List.mem_cons_of_mem _ hg)) h
        exact ⟨g, List.mem_cons_of_mem _ hg, rfl⟩

theorem natCast_pow_eq_one_iff {p : Nat} (hp : 2 ≤ p) (a e : Nat) :
    (a : ZMod p) ^ e = 1 ↔ a ^ e % p = 1 := by
  have hone : 1 % p = 1 := Nat.mod_eq_of_lt hp
  rw [← Nat.cast_pow, ← Nat.cast_one, ZMod.natCast_eq_natCast_iff', hone]

theorem Entry.prime_of_test {e : Entry} {bits : Nat} {primes : List Nat}
    (hprimes : ∀ q ∈ primes, q.Prime) (h : e.test bits primes = true) : e.p.Prime := by
  simp only [test, Bool.and_eq_true, decide_eq_true_eq, List.all_eq_true,
    List.contains_iff_mem] at h
  obtain ⟨⟨⟨⟨htwo, hbits⟩, hprod⟩, hfull⟩, hparts⟩ := h
  refine lucas_primality e.p (e.a : ZMod e.p) ?_ fun q hq hdvd => ?_
  · rw [natCast_pow_eq_one_iff htwo, ← powMod_eq e.p bits _ _ (by omega), hfull]
  · rw [← hprod] at hdvd
    obtain ⟨f, hf, rfl⟩ := mem_of_dvd_prod hq (fun f hf => hprimes _ (hparts f hf).1) hdvd
    have hlt : (e.p - 1) / f.1 < 2 ^ bits :=
      Nat.lt_of_le_of_lt (Nat.div_le_self _ _) (by omega)
    rw [ne_eq, natCast_pow_eq_one_iff htwo, ← powMod_eq e.p bits _ _ hlt]
    exact (hparts f hf).2

/-- Every number of a certificate that checks is prime. -/
theorem prime_of_check {bits : Nat} : ∀ {entries : List Entry}, check bits entries = true →
    ∀ q ∈ entries.map Entry.p, q.Prime
  | [], _, _, h => absurd h List.not_mem_nil
  | e :: entries, h, q, hq => by
      rw [check, Bool.and_eq_true] at h
      have hrest := prime_of_check h.2
      rcases List.mem_cons.mp hq with rfl | hq
      · exact e.prime_of_test hrest h.1
      · exact hrest q hq

end EsphomeApi.Library.PrimeCertificate
