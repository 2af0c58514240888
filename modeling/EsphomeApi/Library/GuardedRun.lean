/-
EsphomeApi.Library.GuardedRun — runs of a deterministic machine, and
invariants that hold as long as every step is taken under a guard.

`run` folds a step function over the inputs and `states` lists every state on
the way. `Guarded ok` says that each input arrives in a state where `ok` holds
of the two. `states_of_guarded` is the induction from one step to all runs;
`states_iff_guarded` is the exact form, for an invariant that a step from a
good state keeps if and only if the guard holds.
-/
import Mathlib.Data.List.Basic

namespace EsphomeApi.Library

variable {σ ι : Type} (step : σ → ι → σ)

/-- The state after all inputs. -/
def run (s : σ) (is : List ι) : σ := is.foldl step s

/-- Every state of a run, the first included. -/
def states (s : σ) : List ι → List σ
  | [] => [s]
  | i :: is => s :: states (step s i) is

/-- Every input of a run arrives in a state where `ok` holds of the two. -/
def Guarded (ok : σ → ι → Prop) (s : σ) : List ι → Prop
  | [] => True
  | i :: is => ok s i ∧ Guarded ok (step s i) is

instance Guarded.decidable {ok : σ → ι → Prop} [∀ s i, Decidable (ok s i)] :
    ∀ (s : σ) (is : List ι), Decidable (Guarded step ok s is)
  | _, [] => inferInstanceAs (Decidable True)
  | s, i :: is =>
      have : Decidable (Guarded step ok (step s i) is) := Guarded.decidable (step s i) is
      inferInstanceAs (Decidable (ok s i ∧ Guarded step ok (step s i) is))

@[simp] theorem run_nil (s : σ) : run step s [] = s := rfl

theorem run_append (s : σ) (is js : List ι) :
    run step s (is ++ js) = run step (run step s is) js := List.foldl_append ..

theorem start_mem_states (s : σ) (is : List ι) : s ∈ states step s is := by
  cases is <;> simp [states]

theorem run_mem_states (s : σ) (is : List ι) : run step s is ∈ states step s is := by
  induction is generalizing s with
  | nil => simp [states]
  | cons i is ih => exact List.mem_cons_of_mem _ (ih (step s i))

variable {step}

/-- Inputs that are allowed in every state. -/
theorem guarded_of_mem {ok : σ → ι → Prop} {is : List ι} (h : ∀ i ∈ is, ∀ s, ok s i) (s : σ) :
    Guarded step ok s is := by
  induction is generalizing s with
  | nil => trivial
  | cons i is ih =>
      exact ⟨h i List.mem_cons_self s, ih (fun j hj => h j (List.mem_cons_of_mem _ hj)) _⟩

theorem guarded_append {ok : σ → ι → Prop} {s : σ} {is js : List ι} :
    Guarded step ok s (is ++ js) ↔ Guarded step ok s is ∧ Guarded step ok (run step s is) js := by
  induction is generalizing s with
  | nil => simp [Guarded]
  | cons i is ih =>
      rw [List.cons_append, Guarded, ih, Guarded, and_assoc]
      rfl

/-- A run is guarded if each of its inputs is, in the state it arrives in. -/
theorem guarded_iff_split {ok : σ → ι → Prop} {s : σ} {is : List ι} :
    Guarded step ok s is ↔
      ∀ before i after, is = before ++ i :: after → ok (run step s before) i := by
  induction is generalizing s with
  | nil => simp [Guarded]
  | cons j is ih =>
      rw [Guarded, ih]
      constructor
      · rintro ⟨hj, hrest⟩ (_ | ⟨k, before⟩) i after heq
        · obtain ⟨rfl, rfl⟩ := List.cons.inj heq
          exact hj
        · obtain ⟨rfl, rfl⟩ := List.cons.inj heq
          exact hrest before i after rfl
      · intro h
        refine ⟨h [] j is rfl, fun before i after heq => ?_⟩
        exact h (j :: before) i after (by rw [heq]; rfl)

/-- What one guarded step preserves holds in every state of a guarded run. -/
theorem states_of_guarded {ok : σ → ι → Prop} {Inv : σ → Prop}
    (hstep : ∀ s i, Inv s → ok s i → Inv (step s i)) {s : σ} (hs : Inv s) :
    ∀ {is : List ι}, Guarded step ok s is → ∀ t ∈ states step s is, Inv t := by
  intro is
  induction is generalizing s with
  | nil =>
      intro _ t ht
      rw [states, List.mem_singleton] at ht
      exact ht ▸ hs
  | cons i is ih =>
      intro hg t ht
      rw [states, List.mem_cons] at ht
      rcases ht with rfl | ht
      · exact hs
      · exact ih (hstep s i hs hg.1) hg.2 t ht

/-- Without a guard: what every step preserves holds in every state of a run. -/
theorem states_invariant {Inv : σ → Prop} (hstep : ∀ s i, Inv s → Inv (step s i)) {s : σ}
    (hs : Inv s) (is : List ι) : ∀ t ∈ states step s is, Inv t := by
  have hguard : Guarded step (fun _ _ => True) s is := guarded_of_mem (fun _ _ _ => trivial) s
  exact states_of_guarded (fun s i hi _ => hstep s i hi) hs hguard

/-- What a step relates to its outcome, a run relates to its end, from each of its
states. -/
theorem states_run {R : σ → σ → Prop} (hrefl : ∀ s, R s s)
    (htrans : ∀ {s t u}, R s t → R t u → R s u) (hstep : ∀ s i, R s (step s i)) {s : σ} :
    ∀ (is : List ι), ∀ t ∈ states step s is, R t (run step s is) := by
  intro is
  induction is generalizing s with
  | nil =>
      intro t ht
      rw [states, List.mem_singleton] at ht
      exact ht ▸ hrefl s
  | cons i is ih =>
      intro t ht
      rw [states, List.mem_cons] at ht
      rcases ht with rfl | ht
      · exact htrans (hstep t i) (ih _ (start_mem_states step _ is))
      · exact ih t ht

/-- What the inputs of a run preserve holds after it. -/
theorem run_of_mem {Inv : σ → Prop} {is : List ι}
    (hstep : ∀ i ∈ is, ∀ s, Inv s → Inv (step s i)) {s : σ} (hs : Inv s) :
    Inv (run step s is) := by
  induction is generalizing s with
  | nil => exact hs
  | cons i is ih =>
      exact ih (fun j hj => hstep j (List.mem_cons_of_mem _ hj))
        (hstep i (List.mem_cons_self ..) s hs)

/-- Without a guard: what every step preserves holds after every run. -/
theorem run_invariant {Inv : σ → Prop} (hstep : ∀ s i, Inv s → Inv (step s i)) {s : σ}
    (hs : Inv s) (is : List ι) : Inv (run step s is) :=
  run_of_mem (fun i _ s => hstep s i) hs

/-- Two machines whose steps keep a relation, under a guard of the second. -/
theorem run_related {τ : Type} {step' : τ → ι → τ} {ok : τ → ι → Prop} {P : σ → τ → Prop}
    (hstep : ∀ s t i, P s t → ok t i → P (step s i) (step' t i)) {s : σ} {t : τ} (h : P s t) :
    ∀ {is : List ι}, Guarded step' ok t is → P (run step s is) (run step' t is) := by
  intro is
  induction is generalizing s t with
  | nil => exact fun _ => h
  | cons i is ih => exact fun hg => ih (hstep s t i h hg.1) hg.2

/-- When the guard keeps an invariant, the invariant says that a state is good,
and a step from the invariant to a good state was taken under the guard: a run
stays good exactly when all its steps are guarded. -/
theorem good_iff_guarded {ok : σ → ι → Prop} {Inv Good : σ → Prop}
    (hgood : ∀ s, Inv s → Good s) (hkeep : ∀ s i, Inv s → ok s i → Inv (step s i))
    (hguard : ∀ s i, Inv s → Good (step s i) → ok s i) {s : σ} (hs : Inv s) (is : List ι) :
    (∀ t ∈ states step s is, Good t) ↔ Guarded step ok s is := by
  constructor
  · intro hall
    induction is generalizing s with
    | nil => trivial
    | cons i is ih =>
        have hnext : Good (step s i) :=
          hall _ (List.mem_cons_of_mem _ (start_mem_states step _ is))
        have hok := hguard s i hs hnext
        exact ⟨hok, ih (hkeep s i hs hok) fun t ht => hall t (List.mem_cons_of_mem _ ht)⟩
  · intro hg t ht
    exact hgood t (states_of_guarded hkeep hs hg t ht)

/-- When an unguarded step spoils the state, and nothing mends a spoilt one, a run
that ends unspoilt was guarded. -/
theorem guarded_of_run {ok : σ → ι → Prop} {Inv Spoilt : σ → Prop}
    (hkeep : ∀ s i, Inv s → Inv (step s i)) (hspoil : ∀ s i, Inv s → ¬ ok s i → Spoilt (step s i))
    (hstay : ∀ s i, Inv s → Spoilt s → Spoilt (step s i)) {s : σ} (hs : Inv s) :
    ∀ {is : List ι}, ¬ Spoilt (run step s is) → Guarded step ok s is := by
  intro is
  induction is generalizing s with
  | nil => exact fun _ => trivial
  | cons i is ih =>
      intro hend
      have hstays (t : σ) (j : ι) (ht : Inv t ∧ Spoilt t) : Inv (step t j) ∧ Spoilt (step t j) :=
        ⟨hkeep t j ht.1, hstay t j ht.1 ht.2⟩
      have hnext : ¬ Spoilt (step s i) := fun hspoilt =>
        hend (run_invariant hstays ⟨hkeep s i hs, hspoilt⟩ is).2
      have hok : ok s i := Classical.byContradiction fun h => hnext (hspoil s i hs h)
      exact ⟨hok, ih (hkeep s i hs) hend⟩

/-- When a step from a good state is good exactly under the guard, a run
stays good exactly when all its steps are guarded. -/
theorem states_iff_guarded {ok : σ → ι → Prop} {Inv : σ → Prop}
    (hstep : ∀ s i, Inv s → (Inv (step s i) ↔ ok s i)) {s : σ} (hs : Inv s) (is : List ι) :
    (∀ t ∈ states step s is, Inv t) ↔ Guarded step ok s is :=
  good_iff_guarded (fun _ h => h) (fun s i hi => (hstep s i hi).mpr)
    (fun s i hi => (hstep s i hi).mp) hs is

end EsphomeApi.Library
