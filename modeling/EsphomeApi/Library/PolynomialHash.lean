/-
EsphomeApi.Library.PolynomialHash — a list of field elements evaluated at a
key by Horner's rule, as a universal hash.

`horner` is a polynomial in the key without a constant term, and lists of
nonzero elements have different polynomials (`poly_inj`). So two such lists
have hashes with a given difference under at most as many keys as the longer
one has elements (`card_horner_sub_eq`).
-/
import Mathlib.Algebra.Polynomial.Roots

namespace EsphomeApi.Library.PolynomialHash

open Polynomial

variable {K : Type*} [Field K]

/-- Horner's rule, the key multiplied in after each element. -/
def horner (r : K) (cs : List K) : K := cs.foldl (fun acc c => (acc + c) * r) 0

theorem horner_concat (r : K) (cs : List K) (c : K) :
    horner r (cs ++ [c]) = (horner r cs + c) * r := by
  rw [horner, List.foldl_append]
  rfl

/-- The same as a polynomial in the key. -/
noncomputable def poly (cs : List K) : K[X] := cs.foldl (fun p c => (p + C c) * X) 0

theorem poly_concat (cs : List K) (c : K) : poly (cs ++ [c]) = (poly cs + C c) * X := by
  rw [poly, List.foldl_append]
  rfl

theorem eval_poly (r : K) (cs : List K) : (poly cs).eval r = horner r cs := by
  induction cs using List.reverseRecOn with
  | nil => exact eval_zero
  | append_singleton cs c ih =>
      rw [poly_concat, horner_concat, eval_mul, eval_add, eval_C, eval_X, ih]

theorem eval_poly_zero (cs : List K) : (poly cs).eval 0 = 0 := by
  induction cs using List.reverseRecOn with
  | nil => exact eval_zero
  | append_singleton cs c ih => rw [poly_concat, eval_mul, eval_X, mul_zero]

theorem natDegree_poly_le (cs : List K) : (poly cs).natDegree ≤ cs.length := by
  induction cs using List.reverseRecOn with
  | nil => exact Nat.le_of_eq natDegree_zero
  | append_singleton cs c ih =>
      have hadd : (poly cs + C c).natDegree ≤ cs.length :=
        (natDegree_add_le _ _).trans (by rw [natDegree_C, Nat.max_zero]; exact ih)
      rw [poly_concat, List.length_append, List.length_singleton]
      exact (natDegree_mul_le).trans (Nat.add_le_add hadd natDegree_X_le)

/-- The last element is the linear coefficient, and the rest is a shifted
polynomial. -/
theorem poly_concat_inj {cs ds : List K} {c d : K}
    (h : poly (cs ++ [c]) = poly (ds ++ [d])) : c = d ∧ poly cs = poly ds := by
  rw [poly_concat, poly_concat] at h
  have hsum := mul_right_cancel₀ X_ne_zero h
  have hlast : c = d := by
    have heval := congrArg (eval 0) hsum
    rwa [eval_add, eval_add, eval_C, eval_C, eval_poly_zero, eval_poly_zero, zero_add,
      zero_add] at heval
  refine ⟨hlast, ?_⟩
  rw [hlast] at hsum
  exact add_right_cancel hsum

theorem poly_concat_ne_zero (cs : List K) {c : K} (hc : c ≠ 0) : poly (cs ++ [c]) ≠ 0 := by
  intro h
  rw [poly_concat] at h
  have hsum := (mul_eq_zero.mp h).resolve_right X_ne_zero
  have heval := congrArg (eval 0) hsum
  rw [eval_add, eval_C, eval_poly_zero, zero_add, eval_zero] at heval
  exact hc heval

/-- Lists without zeros have different polynomials. -/
theorem poly_inj {cs : List K} : ∀ {ds : List K}, (∀ c ∈ cs, c ≠ 0) → (∀ d ∈ ds, d ≠ 0) →
    poly cs = poly ds → cs = ds := by
  induction cs using List.reverseRecOn with
  | nil =>
      intro ds _ hds h
      cases ds using List.reverseRecOn with
      | nil => rfl
      | append_singleton ds d =>
          exact absurd h.symm (poly_concat_ne_zero ds (hds d (by simp)))
  | append_singleton cs c ih =>
      intro ds hcs hds h
      cases ds using List.reverseRecOn with
      | nil => exact absurd h (poly_concat_ne_zero cs (hcs c (by simp)))
      | append_singleton ds d =>
          obtain ⟨hlast, hrest⟩ := poly_concat_inj h
          have hlists := ih (fun c hc => hcs c (List.mem_append_left _ hc))
            (fun d hd => hds d (List.mem_append_left _ hd)) hrest
          rw [hlast, hlists]

/-- Two different lists without zeros: few keys give their hashes a difference. -/
theorem card_horner_sub_eq [DecidableEq K] {cs ds : List K} (hcs : ∀ c ∈ cs, c ≠ 0)
    (hds : ∀ d ∈ ds, d ≠ 0) (hne : cs ≠ ds) (keys : Finset K) (δ : K) :
    (keys.filter fun r => horner r cs - horner r ds = δ).card ≤ max cs.length ds.length := by
  have hzero : poly cs - poly ds - C δ ≠ 0 := by
    intro h
    have heval := congrArg (eval 0) h
    rw [eval_sub, eval_sub, eval_poly_zero, eval_poly_zero, eval_C, eval_zero, sub_zero,
      zero_sub, neg_eq_zero] at heval
    rw [heval, C_0, sub_zero] at h
    exact hne (poly_inj hcs hds (sub_eq_zero.mp h))
  have hroots : (keys.filter fun r => horner r cs - horner r ds = δ) ⊆
      (poly cs - poly ds - C δ).roots.toFinset := by
    intro r hr
    rw [Multiset.mem_toFinset, mem_roots hzero, IsRoot.def, eval_sub, eval_sub, eval_C,
      eval_poly, eval_poly, (Finset.mem_filter.mp hr).2, sub_self]
  have hdegree : (poly cs - poly ds - C δ).natDegree ≤ max cs.length ds.length := by
    rw [natDegree_sub_C]
    exact (natDegree_sub_le _ _).trans (max_le_max (natDegree_poly_le cs) (natDegree_poly_le ds))
  have hcount := (Finset.card_le_card hroots).trans (Multiset.toFinset_card_le _)
  exact hcount.trans ((card_roots' _).trans hdegree)

end EsphomeApi.Library.PolynomialHash
