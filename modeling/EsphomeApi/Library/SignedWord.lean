/-
EsphomeApi.Library.SignedWord — 64-bit signed arithmetic whose overflow is
undefined: a sum, difference or product that does not fit is `none`.

Each operation has one lemma: where the exact result fits, it is the result.
Shifts and masks never overflow; they are quotients and remainders
(`toInt_shiftRight`, `toInt_mask`). Arrays of words have limbs, which are
integers, and writing a word is `Function.update` on them (`limbs_set`).
-/
import Mathlib.Algebra.BigOperators.Fin
import Mathlib.Algebra.GroupWithZero.Nat
import Mathlib.Algebra.Ring.Int.Defs

namespace EsphomeApi.Library.SignedWord

/-! ## Words -/

/-- A result, if a signed word can hold it. -/
def checked (n : Int) : Option Int64 :=
  if -2 ^ 63 ≤ n ∧ n < 2 ^ 63 then some (Int64.ofInt n) else none

def checkedAdd (a b : Int64) : Option Int64 := checked (a.toInt + b.toInt)

def checkedSub (a b : Int64) : Option Int64 := checked (a.toInt - b.toInt)

def checkedMul (a b : Int64) : Option Int64 := checked (a.toInt * b.toInt)

theorem checked_eq_some {n : Int} (h : -2 ^ 63 ≤ n) (h' : n < 2 ^ 63) :
    ∃ w, checked n = some w ∧ w.toInt = n :=
  ⟨Int64.ofInt n, if_pos ⟨h, h'⟩, Int64.toInt_ofInt_of_le h h'⟩

theorem checkedAdd_eq_some {a b : Int64} {n : Int} (hn : a.toInt + b.toInt = n)
    (h : -2 ^ 63 ≤ n) (h' : n < 2 ^ 63) : ∃ w, checkedAdd a b = some w ∧ w.toInt = n := by
  subst hn
  exact checked_eq_some h h'

theorem checkedSub_eq_some {a b : Int64} {n : Int} (hn : a.toInt - b.toInt = n)
    (h : -2 ^ 63 ≤ n) (h' : n < 2 ^ 63) : ∃ w, checkedSub a b = some w ∧ w.toInt = n := by
  subst hn
  exact checked_eq_some h h'

theorem checkedMul_eq_some {a b : Int64} {n : Int} (hn : a.toInt * b.toInt = n)
    (h : -2 ^ 63 ≤ n) (h' : n < 2 ^ 63) : ∃ w, checkedMul a b = some w ∧ w.toInt = n := by
  subst hn
  exact checked_eq_some h h'

/-- The arithmetic shift is a quotient. -/
theorem toInt_shiftRight (x : Int64) {k : Int64} {n : Nat} (hk : (k.toBitVec.smod 64).toNat = n) :
    (x >>> k).toInt = x.toInt / 2 ^ n := by
  rw [Int64.toInt, Int64.toBitVec_shiftRight, BitVec.toInt_sshiftRight', hk,
    Int.shiftRight_eq_div_pow]
  rfl

/-- A mask of low bits is a remainder. -/
theorem toInt_mask (x : Int64) {m : Int64} {n : Nat} (hm : m.toBitVec.toNat = 2 ^ n - 1)
    (hn : n < 63) : (x &&& m).toInt = x.toInt % 2 ^ n := by
  have hpow : (2 : Nat) ^ n < 2 ^ 63 := Nat.pow_lt_pow_right (by decide) hn
  have hand : (x &&& m).toBitVec.toNat = x.toBitVec.toNat % 2 ^ n := by
    rw [Int64.toBitVec_and, BitVec.toNat_and, hm, Nat.and_two_pow_sub_one_eq_mod]
  have hlt : x.toBitVec.toNat % 2 ^ n < 2 ^ n := Nat.mod_lt _ (Nat.two_pow_pos n)
  have hmask : (x &&& m).toInt = (x.toBitVec.toNat % 2 ^ n : Nat) := by
    rw [Int64.toInt, BitVec.toInt_eq_toNat_of_lt (by rw [hand]; omega), hand]
  have hdvd : (2 : Int) ^ 64 = 2 ^ n * 2 ^ (64 - n) := by
    rw [← Int.pow_add]
    congr 1
    omega
  have hx : x.toInt = x.toBitVec.toNat ∨ x.toInt = x.toBitVec.toNat - 2 ^ 64 := by
    rw [Int64.toInt, BitVec.toInt_eq_toNat_cond]
    split
    · exact Or.inl rfl
    · exact Or.inr rfl
  rw [hmask]
  rcases hx with hx | hx
  · rw [hx]
    norm_cast
  · rw [hx, hdvd, Int.sub_mul_emod_self_left]
    norm_cast

/-- The sign of a word that is small otherwise, as the code takes it. -/
theorem toInt_bit16 (x : Int64) (h : -2 ^ 16 ≤ x.toInt) (h' : x.toInt < 2 ^ 16) :
    ((x >>> 16) &&& 1).toInt = if x.toInt < 0 then 1 else 0 := by
  rw [toInt_mask _ (n := 1) (by decide) (by decide), toInt_shiftRight x (n := 16) (by decide)]
  split <;> omega

/-- The bits of a word that is not negative. -/
theorem toInt_eq_toNat {x : Int64} (h : 0 ≤ x.toInt) : x.toInt = x.toUInt64.toNat := by
  have hx : x.toInt = if 2 * x.toUInt64.toNat < 2 ^ 64 then (x.toUInt64.toNat : Int)
      else x.toUInt64.toNat - 2 ^ 64 := BitVec.toInt_eq_toNat_cond _
  have hlt := x.toUInt64.toNat_lt
  rw [hx] at h ⊢
  split at h
  · rw [if_pos (by assumption)]
  · omega

theorem toNat_toUInt8 {x : Int64} (h : 0 ≤ x.toInt) (h' : x.toInt < 2 ^ 8) :
    (x.toUInt64.toUInt8.toNat : Int) = x.toInt := by
  have hx := toInt_eq_toNat h
  rw [UInt64.toNat_toUInt8, Nat.mod_eq_of_lt (by omega), hx]

/-- A small word read as a signed one. -/
theorem toInt_ofNat {x : UInt64} (h : x.toNat < 2 ^ 63) : x.toInt64.toInt = x.toNat :=
  BitVec.toInt_eq_toNat_of_lt (by
    have hx : x.toInt64.toBitVec.toNat = x.toNat := rfl
    omega)

/-! ## Arrays of words -/

/-- The integers in an array of words. -/
def limbs {n : Nat} (w : Vector Int64 n) : Fin n → Int := fun i => w[i].toInt

theorem limbs_set {n : Nat} (w : Vector Int64 n) (i : Fin n) (x : Int64) :
    limbs (w.set i x) = Function.update (limbs w) i x.toInt := by
  funext j
  by_cases h : j = i
  · subst h
    simp [limbs]
  · have hne : (i : Nat) ≠ j := fun heq => h (Fin.ext heq.symm)
    rw [Function.update_of_ne h]
    simp [limbs, Vector.getElem_set_ne, hne]

/-- The number that limbs make in base `2 ^ 16`. -/
def weigh {n : Nat} (f : Fin n → Int) : Int := ∑ i : Fin n, f i * 2 ^ (16 * (i : Nat))

theorem weigh_update {n : Nat} (f : Fin n → Int) (i : Fin n) (x : Int) :
    weigh (Function.update f i x) = weigh f + (x - f i) * 2 ^ (16 * (i : Nat)) := by
  have hsplit : ∀ g : Fin n → Int, weigh g =
      g i * 2 ^ (16 * (i : Nat)) + ∑ j ∈ Finset.univ.erase i, g j * 2 ^ (16 * (j : Nat)) :=
    fun g => (Finset.add_sum_erase _ _ (Finset.mem_univ i)).symm
  have hrest : ∑ j ∈ Finset.univ.erase i, Function.update f i x j * 2 ^ (16 * (j : Nat)) =
      ∑ j ∈ Finset.univ.erase i, f j * 2 ^ (16 * (j : Nat)) :=
    Finset.sum_congr rfl fun j hj => by rw [Function.update_of_ne (Finset.ne_of_mem_erase hj)]
  rw [hsplit, hsplit f, hrest, Function.update_self, Int.sub_mul]
  omega

theorem weigh_add {n : Nat} (f g : Fin n → Int) :
    weigh (fun i => f i + g i) = weigh f + weigh g := by
  rw [weigh, weigh, weigh, ← Finset.sum_add_distrib]
  exact Finset.sum_congr rfl fun i _ => Int.add_mul _ _ _

theorem weigh_sub {n : Nat} (f g : Fin n → Int) :
    weigh (fun i => f i - g i) = weigh f - weigh g := by
  rw [weigh, weigh, weigh, ← Finset.sum_sub_distrib]
  exact Finset.sum_congr rfl fun i _ => Int.sub_mul _ _ _

theorem weigh_smul {n : Nat} (c : Int) (f : Fin n → Int) :
    weigh (fun i => c * f i) = c * weigh f := by
  rw [weigh, weigh, Finset.mul_sum]
  exact Finset.sum_congr rfl fun i _ => Int.mul_assoc _ _ _

/-- The upper limbs count from where the lower ones end. -/
theorem weigh_split {m n : Nat} (f : Fin (m + n) → Int) :
    weigh f = weigh (fun i => f (Fin.castAdd n i)) +
      weigh (fun i => f (Fin.natAdd m i)) * 2 ^ (16 * m) := by
  rw [weigh, Fin.sum_univ_add, weigh, weigh, Finset.sum_mul]
  congr 1
  refine Finset.sum_congr rfl fun i _ => ?_
  rw [Fin.val_natAdd, Nat.mul_add, Int.pow_add, Int.mul_assoc, Int.mul_comm (2 ^ (16 * m))]

theorem weigh_succ {n : Nat} (f : Fin (n + 1) → Int) :
    weigh f = f 0 + 2 ^ 16 * weigh (fun i => f i.succ) := by
  rw [weigh, Fin.sum_univ_succ, Fin.val_zero, Nat.mul_zero, Int.pow_zero, Int.mul_one, weigh,
    Finset.mul_sum]
  congr 1
  refine Finset.sum_congr rfl fun i _ => ?_
  rw [Fin.val_succ, Nat.mul_succ, Int.pow_add, Int.mul_comm (2 ^ (16 * i.val)), Int.mul_left_comm]

theorem weigh_castSucc {n : Nat} (f : Fin (n + 1) → Int) :
    weigh f = weigh (fun i => f i.castSucc) + f (Fin.last n) * 2 ^ (16 * n) :=
  Fin.sum_univ_castSucc _

/-- Digits weigh less than one more digit would. -/
theorem weigh_digits : ∀ {n : Nat} {f : Fin n → Int}, (∀ i, 0 ≤ f i ∧ f i < 2 ^ 16) →
    0 ≤ weigh f ∧ weigh f < 2 ^ (16 * n)
  | 0, _, _ => by simp [weigh]
  | n + 1, f, h => by
      obtain ⟨hlow, hhigh⟩ := weigh_digits fun i : Fin n => h i.castSucc
      obtain ⟨hlast, hlast'⟩ := h (Fin.last n)
      have hpos : (0 : Int) < 2 ^ (16 * n) := Int.pow_pos (by decide)
      have hmul := Int.mul_nonneg hlast hpos.le
      have hmul' := Int.mul_le_mul_of_nonneg_right (Int.le_sub_one_of_lt hlast') hpos.le
      rw [weigh_castSucc, Nat.mul_succ, Int.pow_add, Int.mul_comm (2 ^ (16 * n)) (2 ^ 16)]
      rw [Int.sub_mul, Int.one_mul] at hmul'
      omega

/-- The limbs below `k`, and zeros. -/
def below {n : Nat} (f : Fin n → Int) (k : Nat) : Fin n → Int := fun i => if i < k then f i else 0

theorem weigh_below_zero {n : Nat} (f : Fin n → Int) : weigh (below f 0) = 0 :=
  Finset.sum_eq_zero fun i _ => by rw [below, if_neg (Nat.not_lt_zero _), Int.zero_mul]

theorem below_all {n : Nat} (f : Fin n → Int) : below f n = f :=
  funext fun i => if_pos i.isLt

theorem weigh_below_succ {n : Nat} (f : Fin n → Int) (i : Fin n) :
    weigh (below f (i + 1)) = weigh (below f i) + f i * 2 ^ (16 * (i : Nat)) := by
  have hupdate : below f (i + 1) = Function.update (below f i) i (f i) := by
    funext j
    by_cases h : j = i
    · subst h
      rw [Function.update_self, below, if_pos (Nat.lt_succ_self _)]
    · have hne : (j : Nat) ≠ i := fun heq => h (Fin.ext heq)
      rw [Function.update_of_ne h, below, below]
      by_cases hlt : (j : Nat) < i
      · rw [if_pos (by omega), if_pos hlt]
      · rw [if_neg (by omega), if_neg hlt]
  rw [hupdate, weigh_update, below, if_neg (Nat.lt_irrefl _), Int.sub_zero]

/-- A loop over an array's indices, in a step of which something may be
undefined: what a step keeps, the loop keeps. -/
theorem foldlM_finRange {σ : Type} {n : Nat} {step : σ → Fin n → Option σ}
    (I : Nat → σ → Prop)
    (hstep : ∀ (i : Fin n) (s : σ), I i s → ∃ s', step s i = some s' ∧ I (i + 1) s')
    {s : σ} (h : I 0 s) : ∃ s', (List.finRange n).foldlM step s = some s' ∧ I n s' := by
  have hloop : ∀ (k : Nat) (hk : k ≤ n) (s : σ), I (n - k) s →
      ∃ s', ((List.finRange n).drop (n - k)).foldlM step s = some s' ∧ I n s' := by
    intro k
    induction k with
    | zero =>
        intro _ s hs
        rw [Nat.sub_zero, List.drop_of_length_le (by simp)]
        exact ⟨s, rfl, hs⟩
    | succ k ih =>
        intro hk s hs
        have hlt : n - (k + 1) < (List.finRange n).length := by
          rw [List.length_finRange]
          omega
        have hnext : n - (k + 1) + 1 = n - k := by omega
        obtain ⟨t, ht, hI⟩ := hstep ⟨n - (k + 1), by omega⟩ s hs
        obtain ⟨s', hs', hI'⟩ := ih (by omega) t (hnext ▸ hI)
        refine ⟨s', ?_, hI'⟩
        rw [List.drop_eq_getElem_cons hlt, List.foldlM_cons, List.getElem_finRange, hnext]
        simp only [Fin.cast_mk, ht]
        exact hs'
  have hall := hloop n (Nat.le_refl n) s (by rwa [Nat.sub_self])
  rwa [Nat.sub_self, List.drop_zero] at hall

/-- A loop that fills an array limb by limb. -/
theorem foldlM_fill {n : Nat} {g : Fin n → Option Int64} {f : Fin n → Int}
    (hg : ∀ i, ∃ w, g i = some w ∧ w.toInt = f i) (o : Vector Int64 n) :
    ∃ o', (List.finRange n).foldlM (fun (o : Vector Int64 n) i => do
        let v ← g i
        return o.set i v) o = some o' ∧ limbs o' = f := by
  have hstep : ∀ (i : Fin n) (s : Vector Int64 n), (∀ j, j < i → limbs s j = f j) →
      ∃ s', (do
        let v ← g i
        return s.set i v) = some s' ∧ ∀ j : Fin n, (j : Nat) < i + 1 → limbs s' j = f j := by
    intro i s hs
    obtain ⟨w, hw, hval⟩ := hg i
    refine ⟨s.set i w, by simp only [hw, Option.bind_eq_bind, Option.bind_some,
      Option.pure_def], fun j hj => ?_⟩
    rw [limbs_set]
    by_cases h : j = i
    · subst h
      rw [Function.update_self, hval]
    · have hne : (j : Nat) ≠ i := fun heq => h (Fin.ext heq)
      rw [Function.update_of_ne h]
      exact hs j (by rw [Fin.lt_def]; omega)
  obtain ⟨o', ho', hall⟩ := foldlM_finRange
    (fun k s => ∀ j : Fin n, (j : Nat) < k → limbs s j = f j) hstep
    (s := o) (fun j hj => absurd hj (Nat.not_lt_zero _))
  exact ⟨o', ho', funext fun j => hall j j.isLt⟩

end EsphomeApi.Library.SignedWord
