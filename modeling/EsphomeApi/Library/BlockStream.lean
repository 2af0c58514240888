/-
EsphomeApi.Library.BlockStream — hashing and authentication work on blocks of
a fixed length, while their input arrives in pieces of any length: what does
not fill a block is kept until more comes.

`absorb` is the whole of such an input at once: the state after every full
block, and what is left over. Absorbing a piece after another is absorbing
both together (`absorb_append`), so a buffered update may cut its input
anywhere (`foldl_absorb`).
-/
import Mathlib.Data.List.Basic

namespace EsphomeApi.Library.BlockStream

variable {σ β : Type} (n : Nat) (f : σ → List β → σ)

/-- The state after `k` blocks off the front. -/
def blocks : Nat → σ → List β → σ
  | 0, s, _ => s
  | k + 1, s, x => blocks k (f s (x.take n)) (x.drop n)

/-- The state after every full block, and the bytes that do not fill one. -/
def absorb (s : σ) (x : List β) : σ × List β :=
  (blocks n f (x.length / n) s x, x.drop (n * (x.length / n)))

variable {n f}

theorem blocks_append_right : ∀ (k : Nat) (s : σ) (x y : List β), n * k ≤ x.length →
    blocks n f k s (x ++ y) = blocks n f k s x
  | 0, _, _, _, _ => rfl
  | k + 1, s, x, y, h => by
      rw [Nat.mul_succ] at h
      rw [blocks, blocks, List.take_append_of_le_length (by omega),
        List.drop_append_of_le_length (by omega)]
      exact blocks_append_right k _ _ y (by rw [List.length_drop]; omega)

theorem blocks_add (j : Nat) : ∀ (k : Nat) (s : σ) (x : List β),
    blocks n f (k + j) s x = blocks n f j (blocks n f k s x) (x.drop (n * k))
  | 0, s, x => by rw [Nat.zero_add, Nat.mul_zero, List.drop_zero, blocks]
  | k + 1, s, x => by
      rw [show k + 1 + j = k + j + 1 by omega, blocks, blocks, blocks_add j k, List.drop_drop,
        Nat.mul_succ, Nat.add_comm n]

theorem absorb_of_lt {s : σ} {x : List β} (h : x.length < n) : absorb n f s x = (s, x) := by
  rw [absorb, Nat.div_eq_of_lt h, Nat.mul_zero, List.drop_zero, blocks]

/-- A full block at the front is absorbed first. -/
theorem absorb_block (hn : 0 < n) {s : σ} {b : List β} (hb : b.length = n) (y : List β) :
    absorb n f s (b ++ y) = absorb n f (f s b) y := by
  have hlen : (b ++ y).length / n = y.length / n + 1 := by
    rw [List.length_append, hb, Nat.add_div_left _ hn]
  have hdrop : (b ++ y).drop n = y := by rw [← hb, List.drop_left]
  have htake : (b ++ y).take n = b := by rw [← hb, List.take_left]
  rw [absorb, hlen, blocks, htake, hdrop, Nat.mul_succ, Nat.add_comm, ← List.drop_drop, hdrop,
    absorb]

/-- One full block. -/
theorem absorb_full (hn : 0 < n) {s : σ} {b : List β} (hb : b.length = n) :
    absorb n f s b = (f s b, []) := by
  have hblock := absorb_block (f := f) hn (s := s) hb []
  rwa [List.append_nil, absorb_of_lt (x := []) hn] at hblock

theorem length_absorb (s : σ) (x : List β) : (absorb n f s x).2.length = x.length % n := by
  have h := Nat.div_add_mod x.length n
  rw [absorb, List.length_drop]
  omega

theorem length_absorb_lt (hn : 0 < n) (s : σ) (x : List β) :
    (absorb n f s x).2.length < n := by
  rw [length_absorb]
  exact Nat.mod_lt _ hn

/-- Two pieces, one after the other. -/
theorem absorb_append (hn : 0 < n) (s : σ) (x y : List β) :
    absorb n f s (x ++ y) = absorb n f (absorb n f s x).1 ((absorb n f s x).2 ++ y) := by
  have hx := Nat.div_add_mod x.length n
  -- all blocks of `x`, then those of what is left of it and `y`
  have hcount : (x ++ y).length / n =
      x.length / n + ((absorb n f s x).2 ++ y).length / n := by
    rw [List.length_append, List.length_append, length_absorb,
      ← Nat.mul_add_div hn (x.length / n), ← Nat.add_assoc, hx]
  have hrest : (x ++ y).drop (n * (x.length / n)) = (absorb n f s x).2 ++ y :=
    List.drop_append_of_le_length (by omega)
  have hfirst : blocks n f (x.length / n) s (x ++ y) = (absorb n f s x).1 :=
    blocks_append_right _ s x y (by omega)
  rw [absorb, hcount, blocks_add, hfirst, hrest, Nat.mul_add, ← List.drop_drop, hrest]
  rfl

/-- Pieces that arrive one after another, each put behind what the last one
left over. -/
theorem foldl_absorb (hn : 0 < n) : ∀ (pieces : List (List β)) (s : σ) (x : List β),
    pieces.foldl (fun t y => absorb n f t.1 (t.2 ++ y)) (absorb n f s x) =
      absorb n f s (x ++ pieces.flatten)
  | [], s, x => by rw [List.foldl_nil, List.flatten_nil, List.append_nil]
  | y :: pieces, s, x => by
      rw [List.foldl_cons, ← absorb_append hn, foldl_absorb hn pieces, List.flatten_cons,
        List.append_assoc]

/-- Two ways to take in a block that stay related stay so over a whole input. -/
theorem blocks_rel {τ : Type} {g : τ → List β → τ} {R : σ → τ → Prop}
    (hstep : ∀ s t b, R s t → b.length = n → R (f s b) (g t b)) :
    ∀ (k : Nat) (s : σ) (t : τ) (x : List β), R s t → n * k ≤ x.length →
      R (blocks n f k s x) (blocks n g k t x)
  | 0, _, _, _, h, _ => h
  | k + 1, s, t, x, h, hlen => by
      rw [Nat.mul_succ] at hlen
      refine blocks_rel hstep k _ _ _ (hstep s t _ h ?_) ?_
      · rw [List.length_take]
        omega
      · rw [List.length_drop]
        omega

theorem absorb_rel {τ : Type} {g : τ → List β → τ} {R : σ → τ → Prop}
    (hstep : ∀ s t b, R s t → b.length = n → R (f s b) (g t b)) {s : σ} {t : τ} (h : R s t)
    (x : List β) :
    R (absorb n f s x).1 (absorb n g t x).1 ∧ (absorb n f s x).2 = (absorb n g t x).2 :=
  ⟨blocks_rel hstep _ s t x h (Nat.mul_div_le _ _), rfl⟩

/-- Absorbing a byte at a time. -/
theorem absorb_concat (hn : 0 < n) {s : σ} {x : List β} (hx : x.length < n) (b : β) :
    absorb n f s (x ++ [b]) = if x.length + 1 = n then (f s (x ++ [b]), []) else (s, x ++ [b]) := by
  have hlen : (x ++ [b]).length = x.length + 1 := by simp
  split
  · next h => rw [absorb_full hn (hlen.trans h)]
  · next h => rw [absorb_of_lt (by omega)]

/-! ## Collisions -/

/-- Block `i` of an input. -/
def block (n i : Nat) (x : List β) : List β := (x.drop (n * i)).take n

/-- Two different pairs of a state and a block that lead to one state. -/
def Collides (f : σ → List β → σ) (s t : σ) (b c : List β) : Prop := (s, b) ≠ (t, c) ∧ f s b = f t c

theorem block_succ (i : Nat) (x : List β) : block n (i + 1) x = block n i (x.drop n) := by
  rw [block, block, List.drop_drop, Nat.mul_succ, Nat.add_comm]

/-- Two runs over equally many blocks that end in one state have taken in the
same, or they collide on the way. -/
theorem blocks_eq : ∀ {k : Nat} {s t : σ} {x y : List β},
    blocks n f k s x = blocks n f k t y →
      (s = t ∧ x.take (n * k) = y.take (n * k)) ∨
        ∃ i < k, Collides f (blocks n f i s x) (blocks n f i t y) (block n i x) (block n i y)
  | 0, _, _, _, _, h => Or.inl ⟨h, by rw [Nat.mul_zero, List.take_zero, List.take_zero]⟩
  | k + 1, s, t, x, y, h => by
      rcases blocks_eq (k := k) h with ⟨hstate, hrest⟩ | ⟨i, hi, hcollides⟩
      · by_cases hfirst : (s, x.take n) = (t, y.take n)
        · obtain ⟨hs, htake⟩ := Prod.ext_iff.mp hfirst
          left
          refine ⟨hs, ?_⟩
          rw [Nat.mul_succ, Nat.add_comm, List.take_add, List.take_add, hrest]
          exact congrArg (· ++ _) htake
        · right
          refine ⟨0, Nat.succ_pos k, ?_, hstate⟩
          rwa [block, block, Nat.mul_zero, List.drop_zero, List.drop_zero]
      · right
        refine ⟨i + 1, Nat.succ_lt_succ hi, ?_⟩
        rw [block_succ, block_succ]
        exact hcollides

/-- The last block of an input is taken in last. -/
theorem blocks_succ (k : Nat) (s : σ) (x : List β) :
    blocks n f (k + 1) s x = f (blocks n f k s x) (block n k x) := by
  rw [blocks_add 1 k, blocks, blocks]
  rfl

/-- The blocks one by one. -/
theorem blocks_eq_foldl (s : σ) (x : List β) : ∀ k : Nat,
    blocks n f k s x = ((List.range k).map fun i => block n i x).foldl f s
  | 0 => rfl
  | k + 1 => by
      rw [blocks_succ, List.range_succ, List.map_append, List.foldl_append, blocks_eq_foldl s x k]
      rfl

theorem flatten_blocks (x : List β) : ∀ k : Nat,
    ((List.range k).map fun i => block n i x).flatten = x.take (n * k)
  | 0 => by rw [Nat.mul_zero, List.take_zero]; rfl
  | k + 1 => by
      rw [List.range_succ, List.map_append, List.flatten_append, flatten_blocks x k, Nat.mul_succ,
        List.take_add, List.map_singleton, List.flatten_singleton, block]

end EsphomeApi.Library.BlockStream
