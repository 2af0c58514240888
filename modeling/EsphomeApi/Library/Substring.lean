/-
EsphomeApi.Library.Substring — searching a list for another one.

`find pat s` is where `pat` stands in `s` for the first time.
`find_append` computes it for a list cut at an occurrence: that one is
the first when `pat` is not in what stands before it and cannot overlap
itself.
-/
import Mathlib.Data.List.Basic
import Mathlib.Data.List.Infix

namespace EsphomeApi.Library

variable {α : Type} [DecidableEq α]

/-- The first position at which `pat` stands in a list. -/
def find (pat : List α) : List α → Option Nat
  | [] => if pat = [] then some 0 else none
  | x :: s => if pat <+: x :: s then some 0 else (find pat s).map (· + 1)

theorem find_eq_zero {pat s : List α} (h : pat <+: s) : find pat s = some 0 := by
  cases s with
  | nil => simpa [find] using h
  | cons x s => simp [find, h]

theorem find_isSome_iff (pat s : List α) : (find pat s).isSome ↔ pat <:+: s := by
  induction s with
  | nil => by_cases h : pat = [] <;> simp [find, h]
  | cons x s ih =>
      by_cases h : pat <+: x :: s
      · simp [find, h, h.isInfix]
      · simp [find, h, List.infix_cons_iff, ih]

/-- Where `pat` is found, the list is cut there, and `pat` is not in what stands
before. -/
theorem eq_append_of_find {pat s : List α} {i : Nat} (hpat : pat ≠ []) (h : find pat s = some i) :
    (∃ t, s = s.take i ++ pat ++ t) ∧ ¬ pat <:+: s.take i := by
  induction s generalizing i with
  | nil => simp [find, hpat] at h
  | cons x s ih =>
      by_cases hfirst : pat <+: x :: s
      · have hi : i = 0 := by simpa [find, hfirst] using h.symm
        subst hi
        obtain ⟨t, ht⟩ := hfirst
        exact ⟨⟨t, by simpa using ht.symm⟩, by simpa using hpat⟩
      · rw [find, if_neg hfirst, Option.map_eq_some_iff] at h
        obtain ⟨j, hj, rfl⟩ := h
        obtain ⟨⟨t, ht⟩, hnone⟩ := ih hj
        refine ⟨⟨t, by rw [List.take_succ_cons, List.cons_append, List.cons_append, ← ht]⟩, ?_⟩
        rw [List.take_succ_cons, List.infix_cons_iff, not_or]
        exact ⟨fun hpre => hfirst (hpre.trans (List.take_prefix (j + 1) (x :: s))), hnone⟩

/-- An occurrence with no earlier one. -/
theorem find_append {pat : List α} (hover : ∀ d, 0 < d → d < pat.length → ¬ pat.drop d <+: pat)
    {x : List α} (hx : ¬ pat <:+: x) (t : List α) : find pat (x ++ pat ++ t) = some x.length := by
  induction x with
  | nil => exact find_eq_zero (by simp)
  | cons a x ih =>
      have hrest : ¬ pat <:+: x := fun h => hx (h.trans (List.suffix_cons a x).isInfix)
      have hhere : ¬ pat <+: a :: (x ++ pat ++ t) := by
        intro hpre
        rcases Nat.lt_or_ge (a :: x).length pat.length with hlong | hshort
        · -- `pat` starts before its occurrence and reaches into it
          obtain ⟨u, hu⟩ := hpre
          have hdrop : pat.drop (a :: x).length ++ u = pat ++ t := by
            have h := congrArg (List.drop (a :: x).length) hu
            rw [List.drop_append_of_le_length hlong.le, ← List.cons_append, ← List.cons_append,
              List.append_assoc, List.drop_left] at h
            exact h
          refine hover (a :: x).length (by simp) hlong ?_
          exact List.prefix_of_prefix_length_le ⟨u, hdrop⟩ (List.prefix_append pat t)
            (by rw [List.length_drop]; omega)
        · refine hx (List.prefix_of_prefix_length_le hpre ?_ hshort).isInfix
          exact ⟨pat ++ t, by simp⟩
      rw [List.cons_append, List.cons_append, find, if_neg hhere, ih hrest]
      rfl

end EsphomeApi.Library
