/-
EsphomeApi.Library.StreamDecoder — decoders that work off a reassembly
buffer: bytes are appended as they arrive, and after every arrival items are
taken off the front until the decoder asks for more or rejects the stream.
A decoder may keep a state of its own between items (a session key, a
counter); one that does not takes `Unit`.

The laws of a `StreamDecoder` are two. An item takes something off the front
(`shrinks`), and a verdict reached on a prefix stands for every extension of
it (`item_append`, `fail_append`): only `needMore` may change when more input
arrives. From these two laws alone, feeding a stream in chunks gives what
draining it in one piece gives (`foldl_feed`), so the answer cannot depend on
where the stream was cut.
-/
import Mathlib.Data.List.Basic

namespace EsphomeApi.Library

/-- What a decoder makes of the front of a buffer. -/
inductive Verdict (τ σ α ε : Type) where
  | needMore
  | item (a : α) (state : τ) (rest : List σ)
  | fail (e : ε)

/-- A decoder of items `α` off the front of a buffer of `σ`, with state `τ`. -/
structure StreamDecoder (τ σ α ε : Type) where
  step : τ → List σ → Verdict τ σ α ε
  shrinks : ∀ {t x a t' rest}, step t x = .item a t' rest → rest.length < x.length
  item_append : ∀ {t x a t' rest} (y),
    step t x = .item a t' rest → step t (x ++ y) = .item a t' (rest ++ y)
  fail_append : ∀ {t x e} (y), step t x = .fail e → step t (x ++ y) = .fail e

/-- How draining a buffer ends: waiting, with the decoder's state and what it
has not consumed yet, or rejected. -/
inductive Ending (τ σ ε : Type) where
  | waiting (state : τ) (unconsumed : List σ)
  | rejected (e : ε)
  deriving DecidableEq, Repr

namespace StreamDecoder

variable {τ σ α ε : Type} (d : StreamDecoder τ σ α ε)

/-- Take items off the front, at most `fuel` of them. -/
def drainFuel : Nat → τ → List σ → List α × Ending τ σ ε
  | 0, t, x => ([], .waiting t x)
  | fuel + 1, t, x =>
      match d.step t x with
      | .needMore => ([], .waiting t x)
      | .fail e => ([], .rejected e)
      | .item a t' rest => (a :: (drainFuel fuel t' rest).1, (drainFuel fuel t' rest).2)

/-- Take items off the front until the decoder stops. -/
def drain (t : τ) (x : List σ) : List α × Ending τ σ ε := d.drainFuel (x.length + 1) t x

theorem drainFuel_congr : ∀ (f g : Nat) (t : τ) (x : List σ), x.length < f → x.length < g →
    d.drainFuel f t x = d.drainFuel g t x
  | 0, _, _, _, hf, _ => by omega
  | _ + 1, 0, _, _, _, hg => by omega
  | f + 1, g + 1, t, x, hf, hg => by
      cases hs : d.step t x with
      | needMore => simp [drainFuel, hs]
      | fail e => simp [drainFuel, hs]
      | item a t' rest =>
          have hlt := d.shrinks hs
          simp [drainFuel, hs, drainFuel_congr f g t' rest (by omega) (by omega)]

/-- Any fuel above the length of the buffer drains it. -/
theorem drainFuel_eq_drain {fuel : Nat} {t : τ} {x : List σ} (h : x.length < fuel) :
    d.drainFuel fuel t x = d.drain t x :=
  d.drainFuel_congr fuel (x.length + 1) t x h (by omega)

theorem drain_needMore {t : τ} {x : List σ} (h : d.step t x = .needMore) :
    d.drain t x = ([], .waiting t x) := by
  simp [drain, drainFuel, h]

theorem drain_fail {t : τ} {x : List σ} {e : ε} (h : d.step t x = .fail e) :
    d.drain t x = ([], .rejected e) := by
  simp [drain, drainFuel, h]

theorem drain_item {t t' : τ} {x rest : List σ} {a : α} (h : d.step t x = .item a t' rest) :
    d.drain t x = (a :: (d.drain t' rest).1, (d.drain t' rest).2) := by
  have hlt := d.shrinks h
  rw [drain, drainFuel, h]
  simp only [d.drainFuel_eq_drain hlt]

/-- Draining a concatenation: the items of the first part come first, then
draining goes on from where it stopped, with the rest appended. -/
theorem drain_append (t : τ) (x y : List σ) :
    d.drain t (x ++ y) = match (d.drain t x).2 with
      | .waiting t' rest =>
          ((d.drain t x).1 ++ (d.drain t' (rest ++ y)).1, (d.drain t' (rest ++ y)).2)
      | .rejected e => ((d.drain t x).1, .rejected e) := by
  induction hn : x.length using Nat.strongRecOn generalizing t x with
  | ind n ih =>
      subst hn
      cases hs : d.step t x with
      | needMore => simp [d.drain_needMore hs]
      | fail e => simp [d.drain_fail hs, d.drain_fail (d.fail_append y hs)]
      | item a t' rest =>
          rw [d.drain_item hs, d.drain_item (d.item_append y hs), ih _ (d.shrinks hs) t' rest rfl]
          cases (d.drain t' rest).2 <;> simp

/-- Off a part of what an item is read from, the item is read too, or nothing
yet. -/
theorem step_of_append {t t' : τ} {x z y : List σ} {a : α} (h : d.step t (x ++ z) = .item a t' y) :
    d.step t x = .needMore ∨ ∃ rest, d.step t x = .item a t' rest ∧ rest ++ z = y := by
  cases hstep : d.step t x with
  | needMore => exact .inl rfl
  | fail e =>
      rw [d.fail_append z hstep] at h
      exact nomatch h
  | item b u rest =>
      rw [d.item_append z hstep] at h
      cases h
      exact .inr ⟨rest, rfl, rfl⟩

/-- What draining leaves unconsumed is the beginning of an item still
arriving. -/
theorem step_of_drain_waiting {t t' : τ} {x rest : List σ}
    (h : (d.drain t x).2 = .waiting t' rest) : d.step t' rest = .needMore := by
  induction hn : x.length using Nat.strongRecOn generalizing t x with
  | ind n ih =>
      subst hn
      cases hs : d.step t x with
      | needMore =>
          rw [d.drain_needMore hs, Ending.waiting.injEq] at h
          rw [← h.1, ← h.2]
          exact hs
      | fail e =>
          rw [d.drain_fail hs] at h
          cases h
      | item a s r =>
          rw [d.drain_item hs] at h
          exact ih _ (d.shrinks hs) h rfl

/-! ## Items that are handled -/

/-- What a handler with a state makes of the items of a decoder without one.
Where the handler refuses an item, the stream is rejected. -/
def handled {ρ β : Type} (d : StreamDecoder Unit σ α ρ) (reject : ρ → ε)
    (handle : τ → α → Except ε (β × τ)) : StreamDecoder τ σ β ε where
  step t x :=
    match d.step () x with
    | .needMore => .needMore
    | .fail e => .fail (reject e)
    | .item a _ rest =>
        match handle t a with
        | .ok (b, t') => .item b t' rest
        | .error e => .fail e
  shrinks := by
    intro t x b t' rest h
    split at h
    · cases h
    · cases h
    · rename_i hitem
      split at h
      · cases h
        exact d.shrinks hitem
      · cases h
  item_append := by
    intro t x b t' rest y h
    split at h
    · cases h
    · cases h
    · rename_i hitem
      rw [d.item_append y hitem]
      split at h
      · rename_i hhandle
        cases h
        simp [hhandle]
      · cases h
  fail_append := by
    intro t x e y h
    split at h
    · cases h
    · rename_i hfail
      rw [d.fail_append y hfail]
      exact h
    · rename_i hitem
      rw [d.item_append y hitem]
      split at h
      · cases h
      · rename_i hhandle
        cases h
        simp [hhandle]

/-! ## Feeding chunks -/

/-- One arrival: nothing is read once the stream has been rejected. -/
def feed (s : List α × Ending τ σ ε) (chunk : List σ) : List α × Ending τ σ ε :=
  match s.2 with
  | .waiting t rest => (s.1 ++ (d.drain t (rest ++ chunk)).1, (d.drain t (rest ++ chunk)).2)
  | .rejected e => (s.1, .rejected e)

theorem foldl_feed_rejected (chunks : List (List σ)) (items : List α) (e : ε) :
    chunks.foldl d.feed (items, .rejected e) = (items, .rejected e) := by
  induction chunks with
  | nil => rfl
  | cons c cs ih =>
      rw [List.foldl_cons]
      exact ih

/-- Feeding a stream in chunks gives what draining it in one piece gives. -/
theorem foldl_feed (chunks : List (List σ)) (items : List α) (t : τ) (rest : List σ)
    (h : d.step t rest = .needMore) :
    chunks.foldl d.feed (items, .waiting t rest)
      = (items ++ (d.drain t (rest ++ chunks.flatten)).1,
         (d.drain t (rest ++ chunks.flatten)).2) := by
  induction chunks generalizing items t rest with
  | nil => simp [d.drain_needMore h]
  | cons c cs ih =>
      rw [List.foldl_cons, List.flatten_cons, ← List.append_assoc, d.drain_append t (rest ++ c)]
      cases he : (d.drain t (rest ++ c)).2 with
      | waiting t' r =>
          simp only [feed, he]
          rw [ih _ _ _ (d.step_of_drain_waiting he), List.append_assoc]
      | rejected e =>
          simp only [feed, he]
          exact d.foldl_feed_rejected cs _ e

end StreamDecoder

end EsphomeApi.Library
