/-
EsphomeApi.Library.Consume — reading a list to its end, one item at a time.

`consume step xs s` applies `step` to what is left of the list and to a state
until nothing is left; a step that fails ends the reading with `none`. A step
that only ever leaves less than it was given (`Shrinks`) makes this a loop
without fuel: `consume_of_ne_nil` is its unfolding, `Reads` and `Consumes` say
what a prefix of the list does whatever follows it, `Extends` that a step does
not look ahead, and `consume_congr` compares two loops at the places where
items start.
-/
import Mathlib.Data.List.Basic

namespace EsphomeApi.Library

variable {α σ : Type} {step step' : List α → σ → Option (List α × σ)}

/-- `consume` with at most `fuel` items. -/
def consumeFuel (step : List α → σ → Option (List α × σ)) : Nat → List α → σ → Option σ
  | _, [], s => some s
  | 0, _ :: _, _ => none
  | fuel + 1, x :: xs, s => (step (x :: xs) s).bind fun out => consumeFuel step fuel out.1 out.2

/-- Apply `step` until the list is used up. -/
def consume (step : List α → σ → Option (List α × σ)) (xs : List α) (s : σ) : Option σ :=
  consumeFuel step xs.length xs s

/-- A successful step leaves less than it was given. -/
def Shrinks (step : List α → σ → Option (List α × σ)) : Prop :=
  ∀ xs s rest s', step xs s = some (rest, s') → rest.length < xs.length

@[simp] theorem consume_nil (s : σ) : consume step [] s = some s := rfl

theorem consumeFuel_congr (hs : Shrinks step) : ∀ (f g : Nat) (xs : List α) (s : σ),
    xs.length ≤ f → xs.length ≤ g → consumeFuel step f xs s = consumeFuel step g xs s
  | _, _, [], _, _, _ => by simp only [consumeFuel]
  | 0, _, _ :: _, _, hf, _ => absurd hf (by simp)
  | _, 0, _ :: _, _, _, hg => absurd hg (by simp)
  | f + 1, g + 1, x :: xs, s, hf, hg => by
      unfold consumeFuel
      cases hstep : step (x :: xs) s with
      | none => rfl
      | some out =>
          have hlt := hs _ _ out.1 out.2 hstep
          exact consumeFuel_congr hs f g out.1 out.2 (by omega) (by omega)

/-- One turn of the loop. -/
theorem consume_of_ne_nil (hs : Shrinks step) {xs : List α} (hxs : xs ≠ []) (s : σ) :
    consume step xs s = (step xs s).bind fun out => consume step out.1 out.2 := by
  cases xs with
  | nil => exact absurd rfl hxs
  | cons x xs =>
      rw [consume, List.length_cons, consumeFuel]
      cases hstep : step (x :: xs) s with
      | none => rfl
      | some out =>
          have hlt := hs _ _ out.1 out.2 hstep
          rw [List.length_cons] at hlt
          exact consumeFuel_congr hs _ _ out.1 out.2 (by omega) (Nat.le_refl _)

/-! ## What a prefix does, whatever follows it -/

/-- One step reads exactly `xs`. -/
def Reads (step : List α → σ → Option (List α × σ)) (s : σ) (xs : List α) (s' : σ) : Prop :=
  ∀ rest, step (xs ++ rest) s = some (rest, s')

/-- The loop passes over `xs`. -/
def Consumes (step : List α → σ → Option (List α × σ)) (s : σ) (xs : List α) (s' : σ) : Prop :=
  ∀ rest, consume step (xs ++ rest) s = consume step rest s'

theorem Consumes.refl (s : σ) : Consumes step s [] s := fun _ => rfl

theorem Consumes.append {s s' s'' : σ} {xs ys : List α} (h : Consumes step s xs s')
    (h' : Consumes step s' ys s'') : Consumes step s (xs ++ ys) s'' := by
  intro rest
  rw [List.append_assoc, h, h']

theorem Reads.consumes (hs : Shrinks step) {s s' : σ} {xs : List α} (hxs : xs ≠ [])
    (h : Reads step s xs s') : Consumes step s xs s' := by
  intro rest
  rw [consume_of_ne_nil hs (fun hnil => hxs (List.append_eq_nil_iff.mp hnil).1), h rest]
  rfl

theorem Consumes.consume {s s' : σ} {xs : List α} (h : Consumes step s xs s') :
    consume step xs s = some s' := by
  have hend := h []
  rwa [List.append_nil, consume_nil] at hend

/-! ## Steps that do not look ahead -/

/-- A step that succeeds stands when more follows, and leaves that behind. -/
def Extends (step : List α → σ → Option (List α × σ)) : Prop :=
  ∀ xs s rest s', step xs s = some (rest, s') → ∀ ys, step (xs ++ ys) s = some (rest ++ ys, s')

/-- A loop that gets to the end of a list passes over it, whatever follows. -/
theorem Extends.consumes (hs : Shrinks step) (he : Extends step) : ∀ (n : Nat) (xs : List α),
    xs.length ≤ n → ∀ s s', consume step xs s = some s' → Consumes step s xs s'
  | 0, xs, hlen, s, s', h => by
      obtain rfl : xs = [] := List.length_eq_zero_iff.mp (by omega)
      obtain rfl := Option.some_inj.mp h
      exact .refl s
  | n + 1, xs, hlen, s, s', h => by
      by_cases hxs : xs = []
      · subst hxs
        obtain rfl := Option.some_inj.mp h
        exact .refl s
      · intro ys
        rw [consume_of_ne_nil hs hxs] at h
        obtain ⟨⟨rest, t⟩, hstep, hrest⟩ := Option.bind_eq_some_iff.mp h
        have hlt := hs _ _ _ _ hstep
        have hne : xs ++ ys ≠ [] := fun hnil => hxs (List.append_eq_nil_iff.mp hnil).1
        rw [consume_of_ne_nil hs hne, he xs s rest t hstep ys, Option.bind_some]
        exact he.consumes hs n rest (by omega) t s' hrest ys

/-! ## Where items start -/

/-- The places in `xs` where an item starts, when `skip` passes over one item. -/
inductive Starts (skip : List α → Option (List α)) : List α → List α → Prop where
  | here (xs : List α) : Starts skip xs xs
  | next {xs rest tail : List α} (hskip : skip xs = some rest) (h : Starts skip rest tail) :
      Starts skip xs tail

/-- Two loops that agree wherever an item starts, and pass over the items as
`skip` does, agree. -/
theorem consume_congr {skip : List α → Option (List α)} (hs : Shrinks step) (hs' : Shrinks step')
    (hskip : ∀ xs s rest s', step' xs s = some (rest, s') → skip xs = some rest) :
    ∀ (n : Nat) (xs : List α), xs.length ≤ n →
      (∀ tail s, Starts skip xs tail → tail ≠ [] → step tail s = step' tail s) →
      ∀ s, consume step xs s = consume step' xs s
  | 0, xs, hlen, _, s => by
      obtain rfl : xs = [] := List.length_eq_zero_iff.mp (by omega)
      rfl
  | n + 1, xs, hlen, hagree, s => by
      by_cases hxs : xs = []
      · subst hxs
        rfl
      · rw [consume_of_ne_nil hs hxs, consume_of_ne_nil hs' hxs, hagree xs s (.here xs) hxs]
        cases hstep : step' xs s with
        | none => rfl
        | some out =>
            have hlt := hs' _ _ out.1 out.2 hstep
            exact consume_congr hs hs' hskip n out.1 (by omega)
              (fun tail t hstart => hagree tail t (.next (hskip _ _ _ _ hstep) hstart)) out.2

/-! ## Splitting into items -/

variable {ρ : Type} {read : List α → Option (ρ × List α)}

/-- The items of a list, if all of it splits into items that `read` reads. -/
def split (read : List α → Option (ρ × List α)) (xs : List α) : Option (List ρ) :=
  consume (fun xs items => (read xs).map fun out => (out.2, items ++ [out.1])) xs []

/-- A reader that leaves less than it was given. -/
def ReadShrinks (read : List α → Option (ρ × List α)) : Prop :=
  ∀ xs item rest, read xs = some (item, rest) → rest.length < xs.length

theorem ReadShrinks.shrinks {f : σ → ρ → Option σ} (hread : ReadShrinks read) :
    Shrinks fun xs s => (read xs).bind fun out => (f s out.1).map fun s => (out.2, s) := by
  intro xs s rest s' h
  obtain ⟨⟨item, tail⟩, hout, hmap⟩ := Option.bind_eq_some_iff.mp h
  obtain ⟨t, -, heq⟩ := Option.map_eq_some_iff.mp hmap
  cases heq
  exact hread xs item tail hout

theorem ReadShrinks.append_shrinks (hread : ReadShrinks read) :
    Shrinks fun xs items => (read xs).map fun out => (out.2, items ++ [out.1]) := by
  intro xs items rest items' h
  obtain ⟨⟨item, tail⟩, hout, heq⟩ := Option.map_eq_some_iff.mp h
  cases heq
  exact hread xs item tail hout

/-- The items already read stay in front of those that are still to come. -/
theorem consume_split (hread : ReadShrinks read) : ∀ (n : Nat) (xs : List α), xs.length ≤ n →
    ∀ items : List ρ,
      consume (fun xs items => (read xs).map fun out => (out.2, items ++ [out.1])) xs items =
        (split read xs).map fun more => items ++ more
  | 0, xs, hlen, items => by
      obtain rfl : xs = [] := List.length_eq_zero_iff.mp (by omega)
      simp [split]
  | n + 1, xs, hlen, items => by
      by_cases hxs : xs = []
      · subst hxs
        simp [split]
      · rw [split, consume_of_ne_nil hread.append_shrinks hxs,
          consume_of_ne_nil hread.append_shrinks hxs]
        cases hout : read xs with
        | none => rfl
        | some out =>
            have hlt := hread xs out.1 out.2 hout
            have ih := consume_split hread n out.2 (by omega)
            simp only [Option.map_some, Option.bind_some]
            rw [ih (items ++ [out.1]), ih ([] ++ [out.1]), Option.map_map]
            congr 1
            funext more
            simp

/-- One item, then the others. -/
theorem split_of_ne_nil (hread : ReadShrinks read) {xs : List α} (hxs : xs ≠ []) :
    split read xs = (read xs).bind fun out => (split read out.2).map fun more => out.1 :: more := by
  rw [split, consume_of_ne_nil hread.append_shrinks hxs]
  cases read xs with
  | none => rfl
  | some out =>
      simp only [Option.map_some, Option.bind_some]
      exact consume_split hread out.2.length out.2 (Nat.le_refl _) ([] ++ [out.1])

/-- Folding over the items as they are read is folding over the items of the
whole list: both fail if an item does not read, or if the fold fails. -/
theorem consume_fold (hread : ReadShrinks read) (f : σ → ρ → Option σ) : ∀ (n : Nat) (xs : List α),
    xs.length ≤ n → ∀ s : σ,
      consume (fun xs s => (read xs).bind fun out => (f s out.1).map fun s => (out.2, s)) xs s =
        (split read xs).bind fun items => items.foldlM f s
  | 0, xs, hlen, s => by
      obtain rfl : xs = [] := List.length_eq_zero_iff.mp (by omega)
      rfl
  | n + 1, xs, hlen, s => by
      by_cases hxs : xs = []
      · subst hxs
        rfl
      · rw [consume_of_ne_nil hread.shrinks hxs, split_of_ne_nil hread hxs]
        cases hout : read xs with
        | none => rfl
        | some out =>
            have hlt := hread xs out.1 out.2 hout
            simp only [Option.bind_some]
            cases hf : f s out.1 with
            | none =>
                cases split read out.2 with
                | none => rfl
                | some items => simp [hf]
            | some t =>
                rw [Option.map_some, Option.bind_some, consume_fold hread f n out.2 (by omega) t]
                cases split read out.2 with
                | none => rfl
                | some items => simp [hf]

end EsphomeApi.Library
