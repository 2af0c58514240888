/-
EsphomeApi.Library.EventLog — positions in a growing log, and what waits in it.

`waiting resolves registers log` are the requests that the log registers after its
last resolving entry: the answer to "what is still open" as a function of the
history alone. `exists_of_mem_waiting` says it by positions.
-/
import Mathlib.Data.List.DropRight
import Mathlib.Data.List.Induction
import Mathlib.Data.List.Nodup

namespace EsphomeApi.Library

variable {ε ρ : Type}

/-! ## Positions -/

theorem getElem?_append_of_some {log : List ε} {k : Nat} {e : ε} (h : log[k]? = some e)
    (more : List ε) : (log ++ more)[k]? = some e := by
  rw [List.getElem?_append_left (List.getElem?_eq_some_iff.mp h).1, h]

theorem getElem?_concat_eq_some {log : List ε} {k : Nat} {e last : ε} :
    (log ++ [last])[k]? = some e ↔ log[k]? = some e ∨ k = log.length ∧ e = last := by
  rcases Nat.lt_trichotomy k log.length with hlt | rfl | hgt
  · rw [List.getElem?_append_left hlt]
    simp [Nat.ne_of_lt hlt]
  · simp [eq_comm]
  · rw [List.getElem?_eq_none (by simp; omega), List.getElem?_eq_none (by omega)]
    simp [Nat.ne_of_gt hgt]

theorem getElem?_of_append {log more : List ε} {k : Nat} {e : ε} (h : (log ++ more)[k]? = some e)
    (hmore : e ∉ more) : log[k]? = some e := by
  rcases Nat.lt_or_ge k log.length with hlt | hge
  · rwa [List.getElem?_append_left hlt] at h
  · rw [List.getElem?_append_right hge] at h
    exact absurd (List.mem_of_getElem? h) hmore

theorem getElem?_of_take {log : List ε} {k n : Nat} {e : ε} (h : (log.take k)[n]? = some e) :
    n < k ∧ log[n]? = some e := by
  rw [List.getElem?_take, Option.ite_none_right_eq_some] at h
  exact h

/-- What the entries of a log name is without duplicates if and only if no two
entries name the same. -/
theorem nodup_filterMap_iff {f : ε → Option ρ} {log : List ε} :
    (log.filterMap f).Nodup ↔ ∀ {i j : Nat} {a b : ε} {r : ρ},
      log[i]? = some a → log[j]? = some b → f a = some r → f b = some r → i = j := by
  rw [List.Nodup, List.pairwise_filterMap, List.pairwise_iff_getElem]
  constructor
  · intro h
    have hnot {i j : Nat} {a b : ε} {r : ρ} (hi : log[i]? = some a) (hj : log[j]? = some b)
        (ha : f a = some r) (hb : f b = some r) : ¬ i < j := by
      intro hlt
      obtain ⟨hi', rfl⟩ := List.getElem?_eq_some_iff.mp hi
      obtain ⟨hj', rfl⟩ := List.getElem?_eq_some_iff.mp hj
      exact h i j hi' hj' hlt r ha r hb rfl
    intro i j a b r hi hj ha hb
    exact Nat.le_antisymm (Nat.not_lt.mp (hnot hj hi hb ha)) (Nat.not_lt.mp (hnot hi hj ha hb))
  · intro h i j hi hj hlt r ha r' hb heq
    subst heq
    exact Nat.ne_of_lt hlt (h (List.getElem?_eq_getElem hi) (List.getElem?_eq_getElem hj) ha hb)

/-! ## What waits -/

/-- The requests registered after the last resolving entry. -/
def waiting (resolves : ε → Bool) (registers : ε → Option ρ) (log : List ε) : List ρ :=
  (log.rtakeWhile fun e => !resolves e).filterMap registers

variable {resolves : ε → Bool} {registers : ε → Option ρ}

theorem waiting_concat (log : List ε) (e : ε) :
    waiting resolves registers (log ++ [e]) =
      if resolves e then [] else waiting resolves registers log ++ (registers e).toList := by
  rw [waiting, List.rtakeWhile_concat]
  cases h : resolves e with
  | true => simp
  | false => cases hr : registers e <;> simp [waiting, hr]

theorem waiting_sublist (log : List ε) :
    (waiting resolves registers log).Sublist (log.filterMap registers) :=
  (List.rtakeWhile_suffix _ _).sublist.filterMap _

/-- What waits was registered, and nothing has resolved it since. -/
theorem exists_of_mem_waiting {log : List ε} {r : ρ} (h : r ∈ waiting resolves registers log) :
    ∃ (n : Nat) (e : ε), log[n]? = some e ∧ registers e = some r ∧
      ∀ (j : Nat) e', n < j → log[j]? = some e' → resolves e' = false := by
  induction log using List.reverseRecOn with
  | nil => simp [waiting] at h
  | append_singleton log last ih =>
      rw [waiting_concat] at h
      split at h
      · exact absurd h List.not_mem_nil
      · rename_i hopen
        rcases List.mem_append.mp h with hold | hnew
        · obtain ⟨n, e, hn, he, hsince⟩ := ih hold
          refine ⟨n, e, getElem?_append_of_some hn _, he, fun j e' hj he' => ?_⟩
          rcases getElem?_concat_eq_some.mp he' with hbefore | ⟨-, rfl⟩
          · exact hsince j e' hj hbefore
          · exact Bool.eq_false_iff.mpr hopen
        · refine ⟨log.length, last, List.getElem?_concat_length .., Option.mem_toList.mp hnew,
            fun j e' hj he' => ?_⟩
          have hlt := (List.getElem?_eq_some_iff.mp he').1
          rw [List.length_append, List.length_singleton] at hlt
          omega

end EsphomeApi.Library
