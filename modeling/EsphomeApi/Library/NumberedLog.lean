/-
EsphomeApi.Library.NumberedLog — a log whose entries carry the number of their
position, and a reader that takes an entry only under the number it is due.

`number` may repeat; it has to tell the positions below `bound` apart, and the
log has to stay below `bound`. `Numbered.prefix_concat` is the step of the
reader: the entry taken under the next number is the next entry of the log.
-/
import EsphomeApi.Library.EventLog

namespace EsphomeApi.Library

variable {α ν : Type}

/-- The entry at position `i` carries the number `number i`. -/
def Numbered (number : Nat → ν) (tag : α → ν) (log : List α) : Prop :=
  ∀ i m, log[i]? = some m → tag m = number i

theorem numbered_nil (number : Nat → ν) (tag : α → ν) : Numbered number tag [] := by
  intro i m h
  simp at h

/-- `number` tells the positions below `bound` apart. -/
def Separates (number : Nat → ν) (bound : Nat) : Prop :=
  ∀ i j, i < bound → j < bound → number i = number j → i = j

/-- A list that reads the front of a log, and the next entry of the log. -/
theorem prefix_concat {taken log : List α} {m : α} (h : taken <+: log)
    (hm : log[taken.length]? = some m) : taken ++ [m] <+: log := by
  obtain ⟨rest, rfl⟩ := h
  cases rest with
  | nil => simp at hm
  | cons next rest =>
      have hnext : next = m := by simpa using hm
      exact ⟨rest, by simp [hnext]⟩

variable {number : Nat → ν} {tag : α → ν} {log : List α} {bound : Nat}

theorem Numbered.concat (h : Numbered number tag log) {m : α}
    (hm : tag m = number log.length) : Numbered number tag (log ++ [m]) := by
  intro i entry hi
  rcases getElem?_concat_eq_some.mp hi with hold | ⟨rfl, rfl⟩
  · exact h i entry hold
  · exact hm

/-- The number of an entry tells where it stands. -/
theorem Numbered.getElem?_of_mem (h : Numbered number tag log) (hsep : Separates number bound)
    (hlen : log.length ≤ bound) {k : Nat} (hk : k < bound) {m : α} (hm : m ∈ log)
    (htag : tag m = number k) : log[k]? = some m := by
  obtain ⟨i, hi⟩ := List.getElem?_of_mem hm
  have hilt : i < log.length := (List.getElem?_eq_some_iff.mp hi).1
  have hik : i = k := hsep i k (by omega) hk (by rw [← htag, h i m hi])
  exact hik ▸ hi

/-- A reader that has read the front of the log and takes an entry under the
next number has read the front of the log again. -/
theorem Numbered.prefix_concat {β : Type} (h : Numbered number tag log)
    (hsep : Separates number bound) (hlen : log.length < bound) {f : α → β} {taken : List β}
    (htaken : taken <+: log.map f) {m : α} (hm : m ∈ log)
    (htag : tag m = number taken.length) : taken ++ [f m] <+: log.map f := by
  have hle : taken.length ≤ log.length := by simpa using htaken.length_le
  have hat := h.getElem?_of_mem hsep (Nat.le_of_lt hlen) (by omega) hm htag
  exact Library.prefix_concat htaken (by simp [hat])

end EsphomeApi.Library
