/-
EsphomeApi.Library.CheckedMap — a list whose elements are checked from the
left, up to the first that fails.
-/
import Mathlib.Data.List.Forall2

namespace EsphomeApi.Library

variable {α β ε : Type} {g : α → Except ε β}

theorem mapM_cons_eq (a : α) (as : List α) : (a :: as).mapM g =
    match g a with
    | .error e => .error e
    | .ok b => (as.mapM g).map (b :: ·) := by
  rw [List.mapM_cons]
  cases g a with
  | error e => rfl
  | ok b => cases as.mapM g <;> rfl

/-- The list passes if and only if every element does. -/
theorem mapM_eq_ok_iff {as : List α} {bs : List β} :
    as.mapM g = .ok bs ↔ List.Forall₂ (fun a b => g a = .ok b) as bs := by
  induction as generalizing bs with
  | nil =>
      cases bs with
      | nil => exact iff_of_true rfl .nil
      | cons b bs => exact iff_of_false nofun nofun
  | cons a as ih =>
      rw [mapM_cons_eq]
      constructor
      · intro h
        cases hga : g a with
        | error e =>
            rw [hga] at h
            cases h
        | ok b =>
            rw [hga] at h
            cases hrest : as.mapM g with
            | error e =>
                rw [hrest] at h
                cases h
            | ok bs' =>
                rw [hrest] at h
                obtain rfl := Except.ok.inj h
                exact .cons hga (ih.mp hrest)
      · intro h
        cases h with
        | cons hga hrest =>
            rw [hga, ih.mpr hrest]
            rfl

/-- The error is that of the first element that fails. -/
theorem mapM_eq_error_iff {as : List α} {e : ε} :
    as.mapM g = .error e ↔
      ∃ pre a post, as = pre ++ a :: post ∧ (∀ b ∈ pre, ∃ c, g b = .ok c) ∧ g a = .error e := by
  induction as with
  | nil =>
      refine iff_of_false nofun ?_
      rintro ⟨pre, a, post, heq, -⟩
      exact List.append_ne_nil_of_right_ne_nil pre (List.cons_ne_nil a post) heq.symm
  | cons a as ih =>
      rw [mapM_cons_eq]
      constructor
      · intro h
        cases hga : g a with
        | error e' =>
            rw [hga] at h
            exact ⟨[], a, as, rfl, nofun, by rw [hga, Except.error.inj h]⟩
        | ok b =>
            rw [hga] at h
            cases hrest : as.mapM g with
            | ok bs =>
                rw [hrest] at h
                cases h
            | error e' =>
                rw [hrest] at h
                obtain rfl := Except.error.inj h
                obtain ⟨pre, a', post, rfl, hpre, herror⟩ := ih.mp hrest
                refine ⟨a :: pre, a', post, rfl, fun c hc => ?_, herror⟩
                rcases List.mem_cons.mp hc with rfl | hc
                · exact ⟨b, hga⟩
                · exact hpre c hc
      · rintro ⟨pre, a', post, heq, hpre, herror⟩
        cases pre with
        | nil =>
            obtain ⟨rfl, rfl⟩ := List.cons.inj heq
            rw [herror]
        | cons b pre =>
            obtain ⟨rfl, rfl⟩ := List.cons.inj heq
            obtain ⟨c, hc⟩ := hpre a (List.mem_cons_self ..)
            have hrest := ih.mpr
              ⟨pre, a', post, rfl, fun d hd => hpre d (List.mem_cons_of_mem _ hd), herror⟩
            rw [hc, hrest]
            rfl

theorem exists_mapM_eq_ok {as : List α} :
    (∃ bs, as.mapM g = .ok bs) ↔ ∀ a ∈ as, ∃ b, g a = .ok b := by
  constructor
  · rintro ⟨bs, h⟩ a ha
    obtain ⟨i, hi, rfl⟩ := List.mem_iff_getElem.mp ha
    have hall := mapM_eq_ok_iff.mp h
    exact ⟨_, hall.get hi (hall.length_eq ▸ hi)⟩
  · intro h
    cases hmap : as.mapM g with
    | ok bs => exact ⟨bs, rfl⟩
    | error e =>
        obtain ⟨pre, a, post, rfl, -, herror⟩ := mapM_eq_error_iff.mp hmap
        obtain ⟨b, hb⟩ := h a (List.mem_append_right pre (List.mem_cons_self ..))
        rw [herror] at hb
        cases hb

end EsphomeApi.Library
