/-
EsphomeApi.Library.MapWrites — an ordered map filled by writes that overwrite
and writes that only fill a gap.

A write names a key, with a value to overwrite what is there or without one, to
put a default only where the key is not there yet. In general the order of
writes matters. It does not when no key is written with two values
(`OneValue`): then the map that results depends on which writes there are, and
not on their order or on how often one comes (`writeAll_congr`).

The maps are those of the standard library, equal when they hold the same.
-/
import Mathlib

namespace EsphomeApi.Library

open Std

variable {κ ν : Type} {cmp : κ → κ → Ordering} [TransCmp cmp] [LawfulEqCmp cmp]

/-- One write; `d` is the default. -/
def write (d : ν) (m : ExtTreeMap κ ν cmp) : κ × Option ν → ExtTreeMap κ ν cmp
  | (k, some v) => m.insert k v
  | (k, none) => m.insertIfNew k d

/-- All writes in order, into an empty map. -/
def writeAll (d : ν) (ws : List (κ × Option ν)) : ExtTreeMap κ ν cmp := ws.foldl (write d) ∅

theorem getElem?_write_self (d : ν) (m : ExtTreeMap κ ν cmp) (k : κ) (v : Option ν) :
    (write d m (k, v))[k]? = some (v.getD (m[k]?.getD d)) := by
  cases v with
  | none =>
      rw [write, ExtTreeMap.getElem?_insertIfNew]
      by_cases hmem : k ∈ m <;> simp [hmem]
  | some v => simp [write]

theorem getElem?_write_of_ne (d : ν) (m : ExtTreeMap κ ν cmp) {j k : κ} (h : j ≠ k)
    (v : Option ν) : (write d m (j, v))[k]? = m[k]? := by
  cases v <;>
    simp [write, ExtTreeMap.getElem?_insertIfNew, ExtTreeMap.getElem?_insert,
      LawfulEqCmp.compare_eq_iff_eq, h]

omit [LawfulEqCmp cmp] in
theorem writeAll_concat (d : ν) (ws : List (κ × Option ν)) (w : κ × Option ν) :
    (writeAll d (ws ++ [w]) : ExtTreeMap κ ν cmp) = write d (writeAll d ws) w := by
  simp [writeAll]

/-- The keys of the map are those that were written. -/
theorem isSome_writeAll (d : ν) (ws : List (κ × Option ν)) (k : κ) :
    (writeAll d ws : ExtTreeMap κ ν cmp)[k]?.isSome ↔ ∃ v, (k, v) ∈ ws := by
  induction ws using List.reverseRecOn with
  | nil => simp [writeAll]
  | append_singleton ws w ih =>
      obtain ⟨j, v⟩ := w
      rw [writeAll_concat]
      by_cases hkey : j = k
      · subst hkey
        simp [getElem?_write_self]
      · have hother : ∀ u, (k, u) ∈ ws ++ [(j, v)] ↔ (k, u) ∈ ws := by
          intro u
          simp [Ne.symm hkey]
        simp only [getElem?_write_of_ne d _ hkey, ih, hother]

/-- A value in the map was written there, or it is the default and only the
key was written. -/
theorem mem_of_getElem?_writeAll (d : ν) (ws : List (κ × Option ν)) (k : κ) (v : ν)
    (h : (writeAll d ws : ExtTreeMap κ ν cmp)[k]? = some v) :
    (k, some v) ∈ ws ∨ v = d ∧ ∀ u, (k, some u) ∉ ws := by
  induction ws using List.reverseRecOn generalizing v with
  | nil => simp [writeAll] at h
  | append_singleton ws w ih =>
      obtain ⟨j, u⟩ := w
      rw [writeAll_concat] at h
      by_cases hkey : j = k
      · subst hkey
        rw [getElem?_write_self, Option.some.injEq] at h
        cases u with
        | some u =>
            left
            simp_all
        | none =>
            cases hbefore : (writeAll d ws : ExtTreeMap κ ν cmp)[j]? with
            | some v' =>
                have hv : v' = v := by simpa [hbefore] using h
                subst hv
                rcases ih v' hbefore with hmem | ⟨hd, hnone⟩
                · exact .inl (List.mem_append_left _ hmem)
                · exact .inr ⟨hd, by simpa using hnone⟩
            | none =>
                have hv : d = v := by simpa [hbefore] using h
                have hunwritten : ∀ u, (j, u) ∉ ws := by
                  intro u hmem
                  have hsome : (writeAll d ws : ExtTreeMap κ ν cmp)[j]?.isSome :=
                    (isSome_writeAll d ws j).mpr ⟨u, hmem⟩
                  rw [hbefore] at hsome
                  cases hsome
                exact .inr ⟨hv.symm, by simpa using fun u => hunwritten (some u)⟩
      · rw [getElem?_write_of_ne d _ hkey] at h
        rcases ih v h with hmem | ⟨hd, hnone⟩
        · exact .inl (List.mem_append_left _ hmem)
        · exact .inr ⟨hd, by simpa [Ne.symm hkey] using hnone⟩

/-- No key is written with two values. -/
def OneValue (ws : List (κ × Option ν)) : Prop :=
  ∀ {k : κ} {v v' : ν}, (k, some v) ∈ ws → (k, some v') ∈ ws → v = v'

/-- The same writes, in any order and any number of times. -/
theorem writeAll_congr (d : ν) {ws ws' : List (κ × Option ν)} (hone : OneValue ws)
    (hsame : ∀ w, w ∈ ws ↔ w ∈ ws') :
    (writeAll d ws : ExtTreeMap κ ν cmp) = writeAll d ws' := by
  apply ExtTreeMap.ext_getElem?
  intro k
  have hkeys : (writeAll d ws : ExtTreeMap κ ν cmp)[k]?.isSome
      ↔ (writeAll d ws' : ExtTreeMap κ ν cmp)[k]?.isSome := by
    simp only [isSome_writeAll, hsame]
  cases h : (writeAll d ws : ExtTreeMap κ ν cmp)[k]? with
  | none =>
      cases h' : (writeAll d ws' : ExtTreeMap κ ν cmp)[k]? with
      | none => rfl
      | some v' => simp [h, h'] at hkeys
  | some v =>
      cases h' : (writeAll d ws' : ExtTreeMap κ ν cmp)[k]? with
      | none => simp [h, h'] at hkeys
      | some v' =>
          rcases mem_of_getElem?_writeAll d ws k v h with hmem | ⟨hv, hnone⟩
          · rcases mem_of_getElem?_writeAll d ws' k v' h' with hmem' | ⟨_, hnone'⟩
            · rw [hone hmem ((hsame _).mpr hmem')]
            · exact absurd ((hsame _).mp hmem) (hnone' v)
          · rcases mem_of_getElem?_writeAll d ws' k v' h' with hmem' | ⟨hv', _⟩
            · exact absurd ((hsame _).mpr hmem') (hnone v')
            · rw [hv, hv']

end EsphomeApi.Library
