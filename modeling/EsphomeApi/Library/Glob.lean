/-
EsphomeApi.Library.Glob — patterns of wildcards.

`globLanguage` is what a pattern means: the product of the languages of its
tokens, where a star stands for every word. `TiedMatch w` is a match in which a
star is tied wherever it comes to the letter `w`: there it stands for that one
letter. Such a match is a match (`TiedMatch.mem_globLanguage`), and in a word
without `w` every match is one (`tiedMatch_of_mem`).

A matcher that goes back to its last star only forgets the matches it could
have found from earlier ones. `TiedMatch.gap` is the reason why that is no loss:
where the stars of a part of the pattern stand at `w` when the part is laid
against the word, no match leads through the part with fewer letters.
-/
import Mathlib.Computability.Language

namespace EsphomeApi.Library

inductive GlobToken (α : Type) where
  | star
  | any
  | char (a : α)
  deriving DecidableEq, Repr

variable {α : Type}

/-! ## The language of a pattern -/

/-- The words that a token stands for. -/
def GlobToken.language : GlobToken α → Language α
  | .star => {_w | True}
  | .any => {w | w.length = 1}
  | .char a => {[a]}

def globLanguage (pat : List (GlobToken α)) : Language α := (pat.map GlobToken.language).prod

variable {pat : List (GlobToken α)} {a c w : α} {s : List α}

theorem mem_globLanguage_nil : s ∈ globLanguage ([] : List (GlobToken α)) ↔ s = [] :=
  Language.mem_one s

theorem mem_globLanguage_cons {token : GlobToken α} :
    s ∈ globLanguage (token :: pat) ↔
      ∃ u ∈ token.language, ∃ v ∈ globLanguage pat, u ++ v = s := by
  rw [globLanguage, List.map_cons, List.prod_cons]
  exact Language.mem_mul

theorem mem_globLanguage_star :
    s ∈ globLanguage (.star :: pat) ↔ ∃ n, s.drop n ∈ globLanguage pat := by
  rw [mem_globLanguage_cons]
  constructor
  · rintro ⟨u, -, v, hv, rfl⟩
    exact ⟨u.length, by rwa [List.drop_left]⟩
  · rintro ⟨n, hn⟩
    exact ⟨s.take n, trivial, s.drop n, hn, List.take_append_drop n s⟩

theorem mem_globLanguage_any :
    s ∈ globLanguage (.any :: pat) ↔ ∃ a v, s = a :: v ∧ v ∈ globLanguage pat := by
  rw [mem_globLanguage_cons]
  constructor
  · rintro ⟨u, hu, v, hv, rfl⟩
    obtain ⟨a, rfl⟩ := List.length_eq_one_iff.mp hu
    exact ⟨a, v, rfl, hv⟩
  · rintro ⟨a, v, rfl, hv⟩
    exact ⟨[a], rfl, v, hv, rfl⟩

theorem mem_globLanguage_char :
    s ∈ globLanguage (.char a :: pat) ↔ ∃ v, s = a :: v ∧ v ∈ globLanguage pat := by
  rw [mem_globLanguage_cons]
  constructor
  · rintro ⟨_, rfl, v, hv, rfl⟩
    exact ⟨v, rfl, hv⟩
  · rintro ⟨v, rfl, hv⟩
    exact ⟨[a], rfl, v, hv, rfl⟩

/-- Characters at the start of a pattern stand for themselves. -/
theorem mem_globLanguage_chars {l : List α} :
    s ∈ globLanguage (l.map .char ++ pat) ↔ ∃ v, s = l ++ v ∧ v ∈ globLanguage pat := by
  induction l generalizing s with
  | nil => simp
  | cons a l ih =>
      rw [List.map_cons, List.cons_append, mem_globLanguage_char]
      constructor
      · rintro ⟨_, rfl, hrest⟩
        obtain ⟨v, rfl, hv⟩ := ih.mp hrest
        exact ⟨v, rfl, hv⟩
      · rintro ⟨v, rfl, hv⟩
        exact ⟨l ++ v, rfl, ih.mpr ⟨v, rfl, hv⟩⟩

/-! ## Matches with tied stars -/

/-- A match of the pattern with the word in which a star that comes to `w`
stands for just that letter. -/
inductive TiedMatch (w : α) : List (GlobToken α) → List α → Prop
  | nil : TiedMatch w [] []
  | any {pat : List (GlobToken α)} {a : α} {s : List α} :
      TiedMatch w pat s → TiedMatch w (.any :: pat) (a :: s)
  | char {pat : List (GlobToken α)} {a : α} {s : List α} :
      TiedMatch w pat s → TiedMatch w (.char a :: pat) (a :: s)
  | tied {pat : List (GlobToken α)} {s : List α} :
      TiedMatch w pat s → TiedMatch w (.star :: pat) (w :: s)
  | run {pat : List (GlobToken α)} {s : List α} {n : Nat} :
      s.head? ≠ some w → TiedMatch w pat (s.drop n) → TiedMatch w (.star :: pat) s

theorem tiedMatch_nil_iff : TiedMatch w [] s ↔ s = [] := by
  constructor
  · intro h
    cases h
    rfl
  · rintro rfl
    exact .nil

theorem tiedMatch_any_cons_iff : TiedMatch w (.any :: pat) (c :: s) ↔ TiedMatch w pat s := by
  constructor
  · intro h
    cases h with
    | any h => exact h
  · exact .any

theorem tiedMatch_char_cons_iff :
    TiedMatch w (.char a :: pat) (c :: s) ↔ a = c ∧ TiedMatch w pat s := by
  constructor
  · intro h
    cases h with
    | char h => exact ⟨rfl, h⟩
  · rintro ⟨rfl, h⟩
    exact .char h

theorem tiedMatch_star_cons_self_iff :
    TiedMatch w (.star :: pat) (w :: s) ↔ TiedMatch w pat s := by
  constructor
  · intro h
    cases h with
    | tied h => exact h
    | run hhead h => exact absurd rfl hhead
  · exact .tied

theorem tiedMatch_star_iff (hhead : s.head? ≠ some w) :
    TiedMatch w (.star :: pat) s ↔ ∃ n, TiedMatch w pat (s.drop n) := by
  constructor
  · intro h
    cases h with
    | tied h => exact absurd rfl hhead
    | run _ h => exact ⟨_, h⟩
  · rintro ⟨n, h⟩
    exact .run hhead h

theorem TiedMatch.of_star (h : TiedMatch w (.star :: pat) s) :
    ∃ n, TiedMatch w pat (s.drop n) := by
  cases h with
  | tied h => exact ⟨1, h⟩
  | run _ h => exact ⟨_, h⟩

/-- At the end of the word only stars may be left. -/
theorem tiedMatch_end_iff : TiedMatch w pat [] ↔ ∀ token ∈ pat, token = .star := by
  induction pat with
  | nil => simp [tiedMatch_nil_iff]
  | cons token pat ih =>
      cases token with
      | star =>
          rw [tiedMatch_star_iff (by simp)]
          simp [ih]
      | any =>
          refine iff_of_false (fun h => nomatch h) (by simp)
      | char a =>
          refine iff_of_false (fun h => nomatch h) (by simp)

theorem TiedMatch.mem_globLanguage (h : TiedMatch w pat s) : s ∈ globLanguage pat := by
  induction h with
  | nil => exact mem_globLanguage_nil.mpr rfl
  | any _ ih => exact mem_globLanguage_any.mpr ⟨_, _, rfl, ih⟩
  | char _ ih => exact mem_globLanguage_char.mpr ⟨_, rfl, ih⟩
  | tied _ ih => exact mem_globLanguage_star.mpr ⟨1, ih⟩
  | run _ _ ih => exact mem_globLanguage_star.mpr ⟨_, ih⟩

/-- Where the letter is not in the word, no star is tied. -/
theorem tiedMatch_of_mem (hw : w ∉ s) (h : s ∈ globLanguage pat) : TiedMatch w pat s := by
  induction pat generalizing s with
  | nil =>
      rw [mem_globLanguage_nil.mp h]
      exact .nil
  | cons token pat ih =>
      cases token with
      | star =>
          obtain ⟨n, hn⟩ := mem_globLanguage_star.mp h
          refine .run (fun hhead => hw (List.mem_of_mem_head? hhead)) (ih ?_ hn)
          exact fun hmem => hw (List.mem_of_mem_drop hmem)
      | any =>
          obtain ⟨a, v, rfl, hv⟩ := mem_globLanguage_any.mp h
          exact .any (ih (fun hmem => hw (List.mem_cons_of_mem _ hmem)) hv)
      | char a =>
          obtain ⟨v, rfl, hv⟩ := mem_globLanguage_char.mp h
          exact .char (ih (fun hmem => hw (List.mem_cons_of_mem _ hmem)) hv)

/-- Laid against the word from its start, the part `u` has its stars at `w`; then
a match of `u` and what follows, wherever it starts, has `u` take it at least to
the end of that stretch. -/
theorem TiedMatch.gap {u : List (GlobToken α)} {m : Nat}
    (hu : ∀ i : Nat, u[i]? = some .star → s[i]? = some w) (h : TiedMatch w (u ++ pat) (s.drop m)) :
    ∃ n, u.length ≤ n ∧ TiedMatch w pat (s.drop n) := by
  induction u generalizing s m with
  | nil => exact ⟨m, Nat.zero_le m, h⟩
  | cons token u ih =>
      have htail : ∀ i : Nat, u[i]? = some .star → (s.drop 1)[i]? = some w := by
        intro i hi
        rw [List.getElem?_drop, Nat.add_comm]
        exact hu (i + 1) hi
      have hrest : ∀ k, 1 ≤ k → TiedMatch w (u ++ pat) (s.drop k) →
          ∃ n, u.length + 1 ≤ n ∧ TiedMatch w pat (s.drop n) := by
        intro k hk hmatch
        have hk' : (s.drop 1).drop (k - 1) = s.drop k := by
          rw [List.drop_drop, Nat.add_sub_cancel' hk]
        obtain ⟨n, hn, hpat⟩ := ih htail (hk' ▸ hmatch)
        exact ⟨1 + n, by omega, by rwa [List.drop_drop] at hpat⟩
      have hnext : ∀ {c : α} {v : List α}, s.drop m = c :: v → v = s.drop (m + 1) := by
        intro c v hv
        rw [← List.drop_drop, hv, List.drop_one, List.tail_cons]
      rw [List.cons_append] at h
      generalize hv : s.drop m = v at h
      cases h with
      | any h => exact hrest (m + 1) (by omega) (hnext hv ▸ h)
      | char h => exact hrest (m + 1) (by omega) (hnext hv ▸ h)
      | tied h => exact hrest (m + 1) (by omega) (hnext hv ▸ h)
      | @run _ _ n hhead h =>
          -- the star stands at `w` when laid from the start, so the match started later
          have hzero : m ≠ 0 := by
            rintro rfl
            rw [← hv, List.drop_zero] at hhead
            exact hhead (by rw [List.head?_eq_getElem?]; exact hu 0 rfl)
          rw [← hv, List.drop_drop] at h
          exact hrest (m + n) (by omega) h

end EsphomeApi.Library
