/-
EsphomeApi.Library.Loop — a loop with a body that says whether to go on.

`loop body fuel s` runs `body` until it says to stop, `fuel` times at most;
`turns` lists the states in which the body runs. When each turn that goes on
makes a measure smaller, fuel above the measure is as good as no bound
(`loop_congr`, `loop_eq`); `loop_of_turns` is the rule for invariants, with a
side condition on the states in which the body runs, and `loop_related` the
rule for two loops side by side.
-/
import Mathlib.Data.List.Basic

namespace EsphomeApi.Library

variable {σ τ : Type} {body : σ → σ × Bool}

/-- Run the body until it says to stop. -/
def loop (body : σ → σ × Bool) : Nat → σ → σ
  | 0, s => s
  | fuel + 1, s => if (body s).2 then loop body fuel (body s).1 else (body s).1

/-- The states in which the body runs. -/
def turns (body : σ → σ × Bool) : Nat → σ → List σ
  | 0, _ => []
  | fuel + 1, s => s :: if (body s).2 then turns body fuel (body s).1 else []

/-- A turn after which the loop goes on makes the measure smaller. -/
def Decreases (body : σ → σ × Bool) (measure : σ → Nat) : Prop :=
  ∀ s, (body s).2 = true → measure (body s).1 < measure s

theorem loop_congr {measure : σ → Nat} (hbody : Decreases body measure) :
    ∀ (f g : Nat) (s : σ), measure s < f → measure s < g → loop body f s = loop body g s
  | 0, _, _, hf, _ => absurd hf (Nat.not_lt_zero _)
  | _, 0, _, _, hg => absurd hg (Nat.not_lt_zero _)
  | f + 1, g + 1, s, hf, hg => by
      unfold loop
      by_cases hgo : (body s).2 = true
      · have hlt := hbody s hgo
        rw [if_pos hgo, if_pos hgo]
        exact loop_congr hbody f g (body s).1 (by omega) (by omega)
      · rw [if_neg hgo, if_neg hgo]

/-- One turn of the loop. -/
theorem loop_eq {measure : σ → Nat} (hbody : Decreases body measure) {fuel : Nat} {s : σ}
    (hfuel : measure s < fuel) :
    loop body fuel s = if (body s).2 then loop body fuel (body s).1 else (body s).1 := by
  cases fuel with
  | zero => exact absurd hfuel (Nat.not_lt_zero _)
  | succ fuel =>
      rw [loop]
      by_cases hgo : (body s).2 = true
      · have hlt := hbody s hgo
        rw [if_pos hgo, if_pos hgo]
        exact loop_congr hbody fuel (fuel + 1) (body s).1 (by omega) (by omega)
      · rw [if_neg hgo, if_neg hgo]

/-- What a turn keeps where `ok` holds, the loop keeps if `ok` holds wherever
the body runs. -/
theorem loop_of_turns {R : σ → σ → Prop} {ok : σ → Prop} (hrefl : ∀ s, R s s)
    (htrans : ∀ {s t u}, R s t → R t u → R s u) (hbody : ∀ s, ok s → R s (body s).1) :
    ∀ (fuel : Nat) (s : σ), (∀ t ∈ turns body fuel s, ok t) → R s (loop body fuel s)
  | 0, s, _ => hrefl s
  | fuel + 1, s, h => by
      unfold loop
      have hturn := hbody s (h s (List.mem_cons_self ..))
      by_cases hgo : (body s).2 = true
      · rw [if_pos hgo]
        refine htrans hturn (loop_of_turns hrefl htrans hbody fuel _ fun t ht => h t ?_)
        rw [turns, if_pos hgo]
        exact List.mem_cons_of_mem _ ht
      · rw [if_neg hgo]
        exact hturn

/-- With the states of the turns so far at hand: what holds where a turn
starts (`J`), a turn turns into what is wanted (`I`), and into `J` again if
the loop goes on. -/
theorem loop_with_turns {J I : List σ → σ → Prop} {ok : σ → Prop}
    (hend : ∀ before s, J before s → I before s)
    (hturn : ∀ before s, J before s → ok s → I (before ++ [s]) (body s).1 ∧
      ((body s).2 = true → J (before ++ [s]) (body s).1)) :
    ∀ (fuel : Nat) (before : List σ) (s : σ), J before s → (∀ t ∈ turns body fuel s, ok t) →
      I (before ++ turns body fuel s) (loop body fuel s) := by
  intro fuel
  induction fuel with
  | zero =>
      intro before s hs _
      simpa [turns, loop] using hend before s hs
  | succ fuel ih =>
      intro before s hs hall
      obtain ⟨hdone, hnext⟩ := hturn before s hs (hall s (by simp [turns]))
      unfold loop
      by_cases hgo : (body s).2 = true
      · have hrest := ih (before ++ [s]) (body s).1 (hnext hgo) fun t ht =>
          hall t (by simp [turns, hgo, ht])
        simpa [turns, hgo] using hrest
      · simpa [turns, hgo] using hdone

/-- Two loops whose turns keep a relation and stop together. -/
theorem loop_related {P : σ → τ → Prop} {body' : τ → τ × Bool}
    (hturn : ∀ s t, P s t → P (body s).1 (body' t).1 ∧ (body s).2 = (body' t).2) :
    ∀ (fuel : Nat) (s : σ) (t : τ), P s t → P (loop body fuel s) (loop body' fuel t)
  | 0, _, _, h => h
  | fuel + 1, s, t, h => by
      obtain ⟨hkept, hgo⟩ := hturn s t h
      unfold loop
      rw [hgo]
      split
      · exact loop_related hturn fuel _ _ hkept
      · exact hkept

end EsphomeApi.Library
