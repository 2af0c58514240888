/-
EsphomeApi.Library.Nesting — brackets of one kind, and the scanners that count
their depth.

A scanner that skips a block keeps a number: one up at an opening bracket, one
down at a closing one, and the block is over at zero. `Closes` is what such a
scanner takes from a depth on, `Nested` is what a block means. A scanner at
depth `d + 1` takes a nested list, a closing bracket, and goes on at depth `d`
(`closes_succ_iff`).
-/
import Mathlib.Data.List.Basic

namespace EsphomeApi.Library

variable {τ : Type} {isOpen isClose isEnd : τ → Bool}

/-- What stands inside a pair of brackets. -/
inductive Nested (isOpen isClose isEnd : τ → Bool) : List τ → Prop where
  | nil : Nested isOpen isClose isEnd []
  | token {t : τ} {ts : List τ} (hopen : isOpen t = false) (hclose : isClose t = false)
      (hend : isEnd t = false) (tail : Nested isOpen isClose isEnd ts) :
      Nested isOpen isClose isEnd (t :: ts)
  | block {o c : τ} {inner ts : List τ} (hopen : isOpen o = true)
      (hinner : Nested isOpen isClose isEnd inner) (hclose : isClose c = true)
      (tail : Nested isOpen isClose isEnd ts) :
      Nested isOpen isClose isEnd (o :: (inner ++ c :: ts))

/-- The depth behind a token. -/
def depthBehind (isOpen isClose : τ → Bool) (depth : Nat) (t : τ) : Nat :=
  if isOpen t then depth + 1 else if isClose t then depth - 1 else depth

/-- What a scanner at a depth takes until the depth is zero. -/
inductive Closes (isOpen isClose isEnd : τ → Bool) : Nat → List τ → Prop where
  | done : Closes isOpen isClose isEnd 0 []
  | step {depth : Nat} {t : τ} {ts : List τ} (hend : isEnd t = false)
      (tail : Closes isOpen isClose isEnd (depthBehind isOpen isClose (depth + 1) t) ts) :
      Closes isOpen isClose isEnd (depth + 1) (t :: ts)

theorem closes_zero_iff {ts : List τ} : Closes isOpen isClose isEnd 0 ts ↔ ts = [] := by
  constructor
  · intro h
    cases h
    rfl
  · rintro rfl
    exact .done

/-- A closing bracket is no opening one, and no bracket is the end. -/
structure Brackets (isOpen isClose isEnd : τ → Bool) : Prop where
  close_ne_open : ∀ t, isClose t = true → isOpen t = false
  open_ne_end : ∀ t, isOpen t = true → isEnd t = false
  close_ne_end : ∀ t, isClose t = true → isEnd t = false

section

variable {depth : Nat} {t : τ} {ts rest : List τ}

theorem depthBehind_open (h : isOpen t = true) :
    depthBehind isOpen isClose depth t = depth + 1 := if_pos h

theorem depthBehind_close (hopen : isOpen t = false) (hclose : isClose t = true) :
    depthBehind isOpen isClose depth t = depth - 1 := by
  rw [depthBehind, hopen, hclose]
  rfl

theorem depthBehind_other (hopen : isOpen t = false) (hclose : isClose t = false) :
    depthBehind isOpen isClose depth t = depth := by
  rw [depthBehind, hopen, hclose]
  rfl

theorem Closes.close (hb : Brackets isOpen isClose isEnd) (ht : isClose t = true)
    (h : Closes isOpen isClose isEnd depth ts) :
    Closes isOpen isClose isEnd (depth + 1) (t :: ts) := by
  refine .step (hb.close_ne_end t ht) ?_
  rw [depthBehind_close (hb.close_ne_open t ht) ht]
  exact h

/-- A nested list leaves the depth as it is. -/
theorem Nested.closes (hb : Brackets isOpen isClose isEnd)
    (h : Nested isOpen isClose isEnd ts) (depth : Nat) (rest : List τ)
    (hrest : Closes isOpen isClose isEnd (depth + 1) rest) :
    Closes isOpen isClose isEnd (depth + 1) (ts ++ rest) := by
  induction h generalizing depth rest with
  | nil => exact hrest
  | token hopen hclose hend _ ih =>
      refine .step hend ?_
      rw [depthBehind_other hopen hclose]
      exact ih depth rest hrest
  | block hopen _ hclose _ ih_inner ih =>
      refine .step (hb.open_ne_end _ hopen) ?_
      rw [depthBehind_open hopen]
      have hclosed := ih_inner (depth + 1) _ (.close hb hclose (ih depth rest hrest))
      rwa [← List.cons_append, ← List.append_assoc] at hclosed

theorem Closes.nested (h : Closes isOpen isClose isEnd (depth + 1) ts) :
    ∃ inner c rest, ts = inner ++ c :: rest ∧ Nested isOpen isClose isEnd inner ∧
      isClose c = true ∧ Closes isOpen isClose isEnd depth rest := by
  induction hlen : ts.length using Nat.strongRecOn generalizing depth ts with
  | ind n ih =>
      cases h with
      | @step _ t ts hend tail =>
          rw [List.length_cons] at hlen
          cases hopen : isOpen t with
          | true =>
              -- the inner block ends first, then the one that is looked at
              rw [depthBehind_open hopen] at tail
              obtain ⟨inner, c, rest, rfl, hinner, hc, hrest⟩ := ih ts.length (by omega) tail rfl
              rw [List.length_append, List.length_cons] at hlen
              obtain ⟨inner', c', rest', rfl, hinner', hc', hrest'⟩ :=
                ih rest.length (by omega) hrest rfl
              refine ⟨t :: (inner ++ c :: inner'), c', rest', ?_, ?_, hc', hrest'⟩
              · simp
              · exact .block hopen hinner hc hinner'
          | false =>
              cases hclose : isClose t with
              | true =>
                  rw [depthBehind_close hopen hclose] at tail
                  exact ⟨[], t, ts, rfl, .nil, hclose, tail⟩
              | false =>
                  rw [depthBehind_other hopen hclose] at tail
                  obtain ⟨inner, c, rest, rfl, hinner, hc, hrest⟩ :=
                    ih ts.length (by omega) tail rfl
                  exact ⟨t :: inner, c, rest, rfl, .token hopen hclose hend hinner, hc, hrest⟩

theorem closes_succ_iff (hb : Brackets isOpen isClose isEnd) :
    Closes isOpen isClose isEnd (depth + 1) ts ↔
      ∃ inner c rest, ts = inner ++ c :: rest ∧ Nested isOpen isClose isEnd inner ∧
        isClose c = true ∧ Closes isOpen isClose isEnd depth rest := by
  constructor
  · exact Closes.nested
  · rintro ⟨inner, c, rest, rfl, hinner, hc, hrest⟩
    exact hinner.closes hb depth _ (.close hb hc hrest)

/-- One block. -/
theorem closes_one_iff (hb : Brackets isOpen isClose isEnd) :
    Closes isOpen isClose isEnd 1 ts ↔
      ∃ inner c, ts = inner ++ [c] ∧ Nested isOpen isClose isEnd inner ∧ isClose c = true := by
  rw [closes_succ_iff hb]
  constructor
  · rintro ⟨inner, c, rest, rfl, hinner, hc, hrest⟩
    rw [closes_zero_iff.mp hrest]
    exact ⟨inner, c, rfl, hinner, hc⟩
  · rintro ⟨inner, c, rfl, hinner, hc⟩
    exact ⟨inner, c, [], rfl, hinner, hc, .done⟩

end

end EsphomeApi.Library
