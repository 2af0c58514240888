/-
EsphomeApi.Cli.Glob — `glob_match` of `commands/glob.cpp`, which `watch` uses to
choose the entities it shows.

The loop of `wildcard` compares the characters before it looks for a star, so a
star of the pattern that comes to a `*` of the text is taken as that character
and not remembered. `TiedMatch` says which matches are left; the loop finds one
if there is one (`wildcardLoop_spec`). The states of the loop keep
`WildcardState.Held`: since the last star was remembered, each step took one
token and one character. `WildcardState.Open` is what the state may still lead
to, and each branch of the loop keeps it.
-/
import EsphomeApi.Exception
import EsphomeApi.Library.Glob

namespace EsphomeApi.Cli

open Library

/-! ## `wildcard` -/

/-- The character `*`. -/
def starChar : UInt8 := 42

/-- The character `?`. -/
def anyChar : UInt8 := 63

/-- The variables of `wildcard`; `star` is `none` for `npos`. -/
structure WildcardState where
  p : Nat := 0
  t : Nat := 0
  star : Option Nat := none
  mark : Nat := 0
  deriving DecidableEq, Repr

/-- A character is taken. -/
def WildcardState.take (st : WildcardState) : WildcardState :=
  { st with p := st.p + 1, t := st.t + 1 }

/-- The star at `p` is remembered. -/
def WildcardState.remember (st : WildcardState) : WildcardState :=
  { st with star := some st.p, p := st.p + 1, mark := st.t }

/-- The remembered star gets a character more. -/
def WildcardState.back (st : WildcardState) (star : Nat) : WildcardState :=
  { st with p := star + 1, t := st.mark + 1, mark := st.mark + 1 }

/-- The loop after the text is used up: the position after the stars from `p`
on. -/
def skipStars (pat : CString) : Nat → Nat → Nat
  | 0, p => p
  | fuel + 1, p => if pat[p]? = some starChar then skipStars pat fuel (p + 1) else p

/-- The branches of the loop: the state they leave, or the answer. -/
def wildcardTurn (pat s : CString) (st : WildcardState) : Bool ⊕ WildcardState :=
  if st.t < s.length then
    if st.p < pat.length ∧ (pat[st.p]? = some anyChar ∨ pat[st.p]? = s[st.t]?) then
      .inr st.take
    else if pat[st.p]? = some starChar then .inr st.remember
    else
      match st.star with
      | some star => .inr (st.back star)
      | none => .inl false
  else .inl (skipStars pat pat.length st.p = pat.length)

/-- The loop; it has no answer when its fuel is used up. -/
def wildcardLoop (pat s : CString) : Nat → WildcardState → Option Bool
  | 0, _ => none
  | fuel + 1, st =>
      match wildcardTurn pat s st with
      | .inl answer => some answer
      | .inr st => wildcardLoop pat s fuel st

/-- Turns enough to go through the pattern once for each place in the text. -/
def wildcardFuel (pat s : CString) : Nat := (s.length + 2) * (pat.length + 1)

def wildcard (pat s : CString) : Option Bool := wildcardLoop pat s (wildcardFuel pat s) {}

/-- `glob_match`. -/
def globMatch (pattern text : CString) : Option Bool :=
  if pattern = lit "*" then some true
  else if pattern.length ≥ 2 ∧ pattern.drop (pattern.length - 2) = lit ".*" ∧
      text = pattern.take (pattern.length - 2) then some true
  else wildcard pattern text

/-- `glob_match_any`: no pattern at all is as good as `*`. -/
def globMatchAny (patterns : List CString) (text : CString) : Option Bool :=
  if patterns = [] then some true else patterns.anyM fun p => globMatch p text

/-! ## What a pattern means -/

/-- The token that a character of a pattern is. -/
def globToken (c : UInt8) : GlobToken UInt8 :=
  if c = starChar then .star else if c = anyChar then .any else .char c

def globTokens (pattern : CString) : List (GlobToken UInt8) := pattern.map globToken

/-- The texts that `pattern` stands for. -/
def patternLanguage (pattern : CString) : Language UInt8 := globLanguage (globTokens pattern)

/-- What `glob_match` is to answer. -/
def GlobMatches (pattern text : CString) : Prop :=
  text ∈ patternLanguage pattern ∨ pattern = text ++ lit ".*"

/-- `glob_match` answers, and rightly. -/
def GlobRight (pattern text : CString) : Prop :=
  ∃ answer, globMatch pattern text = some answer ∧ (answer = true ↔ GlobMatches pattern text)

/-- A match in which each star that comes to a `*` of the text stands for that
character only. -/
def PatternTied (pattern text : CString) : Prop :=
  TiedMatch starChar (globTokens pattern) text

/-! ## The states of the loop -/

section Loop

variable {pat s : CString} {st : WildcardState} {p m : Nat} {c : UInt8}

theorem globTokens_drop_of_some (h : pat[p]? = some c) :
    (globTokens pat).drop p = globToken c :: (globTokens pat).drop (p + 1) := by
  obtain ⟨hp, rfl⟩ := List.getElem?_eq_some_iff.mp h
  rw [globTokens, List.drop_eq_getElem_cons (by simpa using hp), List.getElem_map]

theorem globTokens_drop_of_none (h : pat.length ≤ p) : (globTokens pat).drop p = [] :=
  List.drop_eq_nil_of_le (by simpa [globTokens] using h)

/-- Since the last star was remembered each step took a token and a character,
and a star that was taken stood at a `*`. -/
structure WildcardState.Held (pat s : CString) (st : WildcardState) : Prop where
  p_le : st.p ≤ pat.length
  star_lt : ∀ star, st.star = some star → star < pat.length
  mark_le : st.mark ≤ st.t
  segment : ∀ star, st.star = some star → ∃ u : List (GlobToken UInt8),
    (globTokens pat).drop (star + 1) = u ++ (globTokens pat).drop st.p ∧
    st.t = st.mark + u.length ∧
    ∀ i : Nat, u[i]? = some .star → (s.drop st.mark)[i]? = some starChar

/-- A match is left: of what is left of both, or with a longer run for the last
star. -/
def WildcardState.Open (pat s : CString) (st : WildcardState) : Prop :=
  TiedMatch starChar ((globTokens pat).drop st.p) (s.drop st.t) ∨
    ∃ star, st.star = some star ∧ ∃ m, st.mark < m ∧
      TiedMatch starChar ((globTokens pat).drop (star + 1)) (s.drop m)

/-- The places the last star may still be moved to, and what is left of the
pattern. -/
def WildcardState.measure (pat s : CString) (st : WildcardState) : Nat :=
  (s.length + 1 - st.mark) * (pat.length + 1) + (pat.length - st.p)

/-- A longer run for the last star leads no less far into the text. -/
theorem WildcardState.Held.gap (h : st.Held pat s) {star : Nat} (hstar : st.star = some star)
    (hm : st.mark ≤ m)
    (hmatch : TiedMatch starChar ((globTokens pat).drop (star + 1)) (s.drop m)) :
    ∃ n, st.t ≤ n ∧ TiedMatch starChar ((globTokens pat).drop st.p) (s.drop n) := by
  obtain ⟨u, hu, ht, hstars⟩ := h.segment star hstar
  have hdrop : (s.drop st.mark).drop (m - st.mark) = s.drop m := by
    rw [List.drop_drop, Nat.add_sub_cancel' hm]
  rw [hu, ← hdrop] at hmatch
  obtain ⟨n, hn, hrest⟩ := hmatch.gap hstars
  exact ⟨st.mark + n, by omega, by rwa [List.drop_drop] at hrest⟩

/-! ### A character is taken -/

theorem WildcardState.Held.take (h : st.Held pat s) (hc : s[st.t]? = some c)
    (hp : pat[st.p]? = some anyChar ∨ pat[st.p]? = some c) : st.take.Held pat s where
  p_le := by
    rcases hp with hp | hp
    all_goals exact (List.getElem?_eq_some_iff.mp hp).1
  star_lt := h.star_lt
  mark_le := h.mark_le.trans (Nat.le_succ _)
  segment star hstar := by
    obtain ⟨u, hu, ht, hstars⟩ := h.segment star hstar
    obtain ⟨d, hd, hstarred⟩ : ∃ d, pat[st.p]? = some d ∧ (globToken d = .star → c = starChar) := by
      rcases hp with hp | hp
      · exact ⟨anyChar, hp, fun htoken => absurd htoken (by decide)⟩
      · refine ⟨c, hp, fun htoken => ?_⟩
        unfold globToken at htoken
        split at htoken
        · assumption
        · split at htoken <;> cases htoken
    refine ⟨u ++ [globToken d], ?_, ?_, fun i hi => ?_⟩
    · rw [hu, globTokens_drop_of_some hd, List.append_assoc, List.singleton_append]
      rfl
    · rw [List.length_append, List.length_singleton]
      exact congrArg Nat.succ ht
    · rcases Nat.lt_trichotomy i u.length with hlt | rfl | hgt
      · exact hstars i (by rwa [List.getElem?_append_left hlt] at hi)
      · rw [List.getElem?_append_right le_rfl, Nat.sub_self, List.getElem?_cons_zero] at hi
        rw [List.getElem?_drop, ← hstarred (Option.some.inj hi), ← hc, ht]
        rfl
      · rw [List.getElem?_eq_none (by simp; omega)] at hi
        cases hi

theorem tiedMatch_take (hc : s[st.t]? = some c)
    (hp : pat[st.p]? = some anyChar ∨ pat[st.p]? = some c) :
    TiedMatch starChar ((globTokens pat).drop (st.p + 1)) (s.drop (st.t + 1)) ↔
      TiedMatch starChar ((globTokens pat).drop st.p) (s.drop st.t) := by
  have hs : s.drop st.t = c :: s.drop (st.t + 1) := by
    obtain ⟨ht, rfl⟩ := List.getElem?_eq_some_iff.mp hc
    exact List.drop_eq_getElem_cons ht
  rw [hs]
  rcases hp with hp | hp
  · rw [globTokens_drop_of_some hp, show globToken anyChar = .any by decide,
      tiedMatch_any_cons_iff]
  · rw [globTokens_drop_of_some hp]
    unfold globToken
    split
    · rename_i hstar
      rw [hstar, tiedMatch_star_cons_self_iff]
    · split
      · rw [tiedMatch_any_cons_iff]
      · rw [tiedMatch_char_cons_iff, and_iff_right rfl]

/-! ### A star is remembered -/

/-- A star at another character stands for any run, and the longer runs of the
star before it lead nowhere it cannot lead. -/
theorem WildcardState.Held.open_remember (h : st.Held pat s) (hp : pat[st.p]? = some starChar)
    (hc : s[st.t]? ≠ some starChar) :
    st.remember.Open pat s ↔ st.Open pat s := by
  have hrun : TiedMatch starChar ((globTokens pat).drop st.p) (s.drop st.t) ↔
      ∃ n, TiedMatch starChar ((globTokens pat).drop (st.p + 1)) (s.drop (st.t + n)) := by
    rw [globTokens_drop_of_some hp, show globToken starChar = .star by decide,
      tiedMatch_star_iff (by rwa [List.head?_drop])]
    simp only [List.drop_drop]
  constructor
  · rintro (hnext | ⟨star, hstar, m, hm, hlater⟩)
    · exact .inl (hrun.mpr ⟨0, hnext⟩)
    · obtain rfl := Option.some.inj hstar
      have hlate : st.t ≤ m := le_of_lt hm
      exact .inl (hrun.mpr ⟨m - st.t, by rwa [Nat.add_sub_cancel' hlate]⟩)
  · have hfrom : ∀ n, st.t ≤ n →
        TiedMatch starChar ((globTokens pat).drop (st.p + 1)) (s.drop n) →
        st.remember.Open pat s := by
      intro n hn hmatch
      rcases hn.eq_or_lt with rfl | hlt
      · exact .inl hmatch
      · exact .inr ⟨st.p, rfl, n, hlt, hmatch⟩
    rintro (hnow | ⟨star, hstar, m, hm, hlater⟩)
    · obtain ⟨n, hn⟩ := hrun.mp hnow
      exact hfrom (st.t + n) (Nat.le_add_right ..) hn
    · obtain ⟨n, hn, hmatch⟩ := h.gap hstar hm.le hlater
      rw [globTokens_drop_of_some hp, show globToken starChar = .star by decide] at hmatch
      obtain ⟨k, hk⟩ := hmatch.of_star
      exact hfrom (n + k) (by omega) (by rwa [List.drop_drop] at hk)

theorem WildcardState.held_remember (hp : st.p < pat.length) : st.remember.Held pat s where
  p_le := hp
  star_lt star hstar := by
    obtain rfl := Option.some.inj hstar
    exact hp
  mark_le := le_rfl
  segment star hstar := by
    obtain rfl := Option.some.inj hstar
    exact ⟨[], rfl, rfl, fun i hi => nomatch hi⟩

/-! ### The star is moved -/

/-- Nothing is left of the pattern, or a character that the text does not have
here. -/
theorem not_tiedMatch (ht : st.t < s.length)
    (htake : ¬ (st.p < pat.length ∧ (pat[st.p]? = some anyChar ∨ pat[st.p]? = s[st.t]?)))
    (hstar : pat[st.p]? ≠ some starChar) :
    ¬ TiedMatch starChar ((globTokens pat).drop st.p) (s.drop st.t) := by
  rcases Nat.lt_or_ge st.p pat.length with hp | hp
  · have hd := List.getElem?_eq_getElem hp
    rw [List.getElem?_eq_getElem ht, hd] at htake
    rw [hd] at hstar
    rw [globTokens_drop_of_some hd, List.drop_eq_getElem_cons ht, globToken,
      if_neg fun h => hstar (congrArg some h),
      if_neg fun h => htake ⟨hp, .inl (congrArg some h)⟩, tiedMatch_char_cons_iff]
    exact fun h => htake ⟨hp, .inr (congrArg some h.1)⟩
  · rw [globTokens_drop_of_none hp, tiedMatch_nil_iff, List.drop_eq_nil_iff]
    omega

theorem WildcardState.Held.back (h : st.Held pat s) {star : Nat} (hstar : st.star = some star) :
    (st.back star).Held pat s where
  p_le := h.star_lt star hstar
  star_lt := h.star_lt
  mark_le := le_rfl
  segment other hother := by
    obtain rfl : star = other := Option.some.inj (hstar.symm.trans hother)
    exact ⟨[], rfl, rfl, fun i hi => nomatch hi⟩

theorem WildcardState.open_back {star : Nat} (hstar : st.star = some star)
    (hnow : ¬ TiedMatch starChar ((globTokens pat).drop st.p) (s.drop st.t)) :
    (st.back star).Open pat s ↔ st.Open pat s := by
  constructor
  · rintro (hnext | ⟨_, hother, m, hm, hlater⟩)
    · exact .inr ⟨star, hstar, st.mark + 1, Nat.lt_succ_self _, hnext⟩
    · exact .inr ⟨_, hother, m, (Nat.lt_succ_self _).trans hm, hlater⟩
  · rintro (h | ⟨other, hother, m, hm, hlater⟩)
    · exact absurd h hnow
    · obtain rfl : star = other := Option.some.inj (hstar.symm.trans hother)
      rcases (Nat.succ_le_of_lt hm).eq_or_lt with rfl | hlt
      · exact .inl hlater
      · exact .inr ⟨star, hstar, m, hlt, hlater⟩

/-! ### The text is used up -/

theorem skipStars_eq_length_iff (pat : CString) : ∀ fuel p, pat.length ≤ fuel + p → p ≤ pat.length →
    (skipStars pat fuel p = pat.length ↔ ∀ token ∈ (globTokens pat).drop p, token = .star)
  | 0, p, hfuel, hp => by
      obtain rfl : p = pat.length := by omega
      simp [skipStars, globTokens_drop_of_none]
  | fuel + 1, p, hfuel, hp => by
      unfold skipStars
      split
      · rename_i hstar
        obtain ⟨hlt, -⟩ := List.getElem?_eq_some_iff.mp hstar
        rw [skipStars_eq_length_iff pat fuel (p + 1) (by omega) hlt,
          globTokens_drop_of_some hstar, List.forall_mem_cons, and_iff_right (by decide)]
      · rename_i hstar
        rcases hp.eq_or_lt with rfl | hlt
        · simp [globTokens_drop_of_none]
        · have hd := List.getElem?_eq_getElem hlt
          rw [hd] at hstar
          rw [globTokens_drop_of_some hd, List.forall_mem_cons]
          refine iff_of_false hlt.ne fun h => hstar ?_
          have htoken := h.1
          unfold globToken at htoken
          split at htoken
          · exact congrArg some ‹_›
          · split at htoken <;> cases htoken

/-- With the text used up a longer run leaves nothing either. -/
theorem WildcardState.Held.open_end (h : st.Held pat s) (ht : s.length ≤ st.t) :
    st.Open pat s ↔ ∀ token ∈ (globTokens pat).drop st.p, token = .star := by
  have hnil : ∀ n, st.t ≤ n → s.drop n = [] := fun n hn =>
    List.drop_eq_nil_of_le (ht.trans hn)
  rw [← tiedMatch_end_iff]
  constructor
  · rintro (hnow | ⟨star, hstar, m, hm, hlater⟩)
    · rwa [hnil st.t le_rfl] at hnow
    · obtain ⟨n, hn, hmatch⟩ := h.gap hstar hm.le hlater
      rwa [hnil n hn] at hmatch
  · intro hend
    exact .inl (by rwa [hnil st.t le_rfl])

/-! ### The loop -/

/-- A turn answers rightly, or leads to a state that may lead to the same. -/
theorem wildcardTurn_spec (h : st.Held pat s) :
    (∃ answer, wildcardTurn pat s st = .inl answer ∧ (answer = true ↔ st.Open pat s)) ∨
    (∃ next, wildcardTurn pat s st = .inr next ∧ next.Held pat s ∧
      (next.Open pat s ↔ st.Open pat s) ∧ next.measure pat s < st.measure pat s) := by
  have hmark := h.mark_le
  unfold wildcardTurn
  by_cases ht : st.t < s.length
  · rw [if_pos ht]
    by_cases htake : st.p < pat.length ∧ (pat[st.p]? = some anyChar ∨ pat[st.p]? = s[st.t]?)
    · have hc := List.getElem?_eq_getElem ht
      have hp := htake.2
      rw [hc] at hp
      rw [if_pos htake]
      refine .inr ⟨_, rfl, h.take hc hp, ?_, ?_⟩
      · exact or_congr_left (tiedMatch_take hc hp)
      · simp only [WildcardState.measure, WildcardState.take]
        omega
    rw [if_neg htake]
    by_cases hstar : pat[st.p]? = some starChar
    · obtain ⟨hp, -⟩ := List.getElem?_eq_some_iff.mp hstar
      have hc : s[st.t]? ≠ some starChar := fun hc => htake ⟨hp, .inr (hstar.trans hc.symm)⟩
      rw [if_pos hstar]
      refine .inr ⟨_, rfl, WildcardState.held_remember hp, h.open_remember hstar hc, ?_⟩
      have hless : (s.length + 1 - st.t) * (pat.length + 1)
          ≤ (s.length + 1 - st.mark) * (pat.length + 1) :=
        Nat.mul_le_mul_right _ (by omega)
      simp only [WildcardState.measure, WildcardState.remember]
      omega
    rw [if_neg hstar]
    have hnow := not_tiedMatch ht htake hstar
    cases hlast : st.star with
    | some star =>
        refine .inr ⟨_, rfl, h.back hlast, WildcardState.open_back hlast hnow, ?_⟩
        have hless : s.length + 1 - st.mark = s.length + 1 - (st.mark + 1) + 1 := by omega
        simp only [WildcardState.measure, WildcardState.back, hless, Nat.succ_mul]
        omega
    | none =>
        refine .inl ⟨false, rfl, iff_of_false Bool.false_ne_true ?_⟩
        rintro (h | ⟨_, hsome, _⟩)
        · exact hnow h
        · exact nomatch hlast.symm.trans hsome
  · rw [if_neg ht]
    refine .inl ⟨_, rfl, ?_⟩
    rw [h.open_end (by omega), decide_eq_true_iff]
    exact skipStars_eq_length_iff pat pat.length st.p (Nat.le_add_right ..) h.p_le

/-- The loop answers whether a match is left. -/
theorem wildcardLoop_spec (pat s : CString) : ∀ (fuel : Nat) (st : WildcardState),
    st.Held pat s → st.measure pat s < fuel →
    ∃ answer, wildcardLoop pat s fuel st = some answer ∧ (answer = true ↔ st.Open pat s)
  | 0, _, _, hfuel => absurd hfuel (Nat.not_lt_zero _)
  | fuel + 1, st, h, hfuel => by
      unfold wildcardLoop
      obtain ⟨answer, hturn, hanswer⟩ | ⟨next, hturn, hheld, hopen, hless⟩ := wildcardTurn_spec h
      · rw [hturn]
        exact ⟨answer, rfl, hanswer⟩
      · obtain ⟨answer, hloop, hanswer⟩ := wildcardLoop_spec pat s fuel next hheld (by omega)
        rw [hturn]
        exact ⟨answer, hloop, hanswer.trans hopen⟩

end Loop

/-- `wildcard` answers whether there is a match with tied stars. -/
theorem wildcard_spec (pat s : CString) :
    ∃ answer, wildcard pat s = some answer ∧ (answer = true ↔ PatternTied pat s) := by
  have hheld : ({} : WildcardState).Held pat s :=
    { p_le := Nat.zero_le _
      star_lt := fun _ h => nomatch h
      mark_le := le_rfl
      segment := fun _ h => nomatch h }
  have hfuel : ({} : WildcardState).measure pat s < wildcardFuel pat s := by
    simp only [WildcardState.measure, wildcardFuel, Nat.sub_zero, Nat.succ_mul]
    omega
  obtain ⟨answer, hloop, hanswer⟩ := wildcardLoop_spec pat s _ _ hheld hfuel
  refine ⟨answer, hloop, hanswer.trans ?_⟩
  constructor
  · rintro (h | ⟨_, h, _⟩)
    · exact h
    · exact nomatch h
  · exact .inl

/-! ## `glob_match` -/

theorem mem_patternLanguage_star (text : CString) : text ∈ patternLanguage (lit "*") :=
  mem_globLanguage_star.mpr ⟨text.length, by rw [List.drop_length]; exact rfl⟩

/-- The suffix test of `glob_match`. -/
theorem suffixTest_iff (pattern text : CString) :
    (pattern.length ≥ 2 ∧ pattern.drop (pattern.length - 2) = lit ".*" ∧
      text = pattern.take (pattern.length - 2)) ↔ pattern = text ++ lit ".*" := by
  constructor
  · rintro ⟨-, hsuffix, rfl⟩
    rw [← hsuffix, List.take_append_drop]
  · rintro rfl
    have hlength : (text ++ lit ".*").length - 2 = text.length := by
      rw [List.length_append, show (lit ".*").length = 2 by decide, Nat.add_sub_cancel]
    rw [hlength, List.drop_left, List.take_left, List.length_append]
    exact ⟨Nat.le_add_left 2 _, rfl, rfl⟩

/-- `glob_match` answers whether the pattern is `*`, or the text with `.*`
behind it, or has a match with tied stars. -/
theorem globMatch_spec (pattern text : CString) :
    ∃ answer, globMatch pattern text = some answer ∧
      (answer = true ↔ pattern = lit "*" ∨ pattern = text ++ lit ".*" ∨
        PatternTied pattern text) := by
  unfold globMatch
  by_cases hall : pattern = lit "*"
  · rw [if_pos hall]
    exact ⟨true, rfl, iff_of_true rfl (.inl hall)⟩
  rw [if_neg hall]
  by_cases hsuffix : pattern = text ++ lit ".*"
  · rw [if_pos ((suffixTest_iff pattern text).mpr hsuffix)]
    exact ⟨true, rfl, iff_of_true rfl (.inr (.inl hsuffix))⟩
  obtain ⟨answer, hanswer, htied⟩ := wildcard_spec pattern text
  rw [if_neg fun h => hsuffix ((suffixTest_iff pattern text).mp h)]
  exact ⟨answer, hanswer, by rw [htied, or_iff_right hall, or_iff_right hsuffix]⟩

theorem PatternTied.mem_patternLanguage {pattern text : CString} (h : PatternTied pattern text) :
    text ∈ patternLanguage pattern := TiedMatch.mem_globLanguage h

/-- A text without a `*` ties no star. -/
theorem patternTied_of_mem {pattern text : CString} (htext : starChar ∉ text)
    (h : text ∈ patternLanguage pattern) : PatternTied pattern text := tiedMatch_of_mem htext h

theorem globRight_of_tied {pattern text : CString}
    (h : text ∈ patternLanguage pattern →
      PatternTied pattern text ∨ pattern = lit "*" ∨ pattern = text ++ lit ".*") :
    GlobRight pattern text := by
  obtain ⟨answer, hanswer, hspec⟩ := globMatch_spec pattern text
  refine ⟨answer, hanswer, hspec.trans ⟨?_, ?_⟩⟩
  · rintro (rfl | hsuffix | htied)
    · exact .inl (mem_patternLanguage_star text)
    · exact .inr hsuffix
    · exact .inl htied.mem_patternLanguage
  · rintro (hmem | hsuffix)
    · rcases h hmem with htied | hall | hsuffix
      · exact .inr (.inr htied)
      · exact .inl hall
      · exact .inr (.inl hsuffix)
    · exact .inr (.inl hsuffix)

/-- `glob_match` always answers. It is right unless the text is in the language
of the pattern only through matches in which a star stands for something else
than the `*` it comes to, and neither the pattern `*` nor the rule for `.*` lets
the text in. -/
theorem globMatch_right_iff (pattern text : CString) :
    GlobRight pattern text ↔
      (text ∈ patternLanguage pattern →
        PatternTied pattern text ∨ pattern = lit "*" ∨ pattern = text ++ lit ".*") := by
  refine ⟨?_, globRight_of_tied⟩
  rintro ⟨answer, hanswer, hright⟩ hmem
  obtain ⟨other, hother, hspec⟩ := globMatch_spec pattern text
  obtain rfl := Option.some.inj (hanswer.symm.trans hother)
  rcases hspec.mp (hright.mpr (.inl hmem)) with hall | hsuffix | htied
  · exact .inr (.inl hall)
  · exact .inr (.inr hsuffix)
  · exact .inl htied

/-- The text `light.*x` is in the language of `light.*`: the star stands for
`*x`. The loop takes the star for the `*` of the text, and has none to go back
to when it comes to the `x`. -/
theorem globMatch_wrong :
    globMatch (lit "light.*") (lit "light.*x") = some false ∧
    ¬ GlobRight (lit "light.*") (lit "light.*x") := by
  have hfalse : globMatch (lit "light.*") (lit "light.*x") = some false := by decide
  refine ⟨hfalse, ?_⟩
  rintro ⟨answer, hanswer, hright⟩
  obtain rfl := Option.some.inj (hfalse.symm.trans hanswer)
  have htokens : globTokens (lit "light.*") = (lit "light.").map .char ++ [.star] := by decide
  refine Bool.false_ne_true (hright.mpr (.inl ?_))
  rw [patternLanguage, htokens, mem_globLanguage_chars]
  exact ⟨lit "*x", by decide, mem_globLanguage_star.mpr ⟨2, mem_globLanguage_nil.mpr (by decide)⟩⟩

/-! ## Texts without a `*` -/

/-- The labels that `watch` asks about are of this kind, unless an object id has
a `*` in it. -/
theorem globMatch_of_notMem {text : CString} (htext : starChar ∉ text) (pattern : CString) :
    GlobRight pattern text :=
  globRight_of_tied fun hmem => .inl (patternTied_of_mem htext hmem)

/-- `glob_match_any` answers whether there are no patterns, or one that matches. -/
theorem globMatchAny_of_notMem {text : CString} (htext : starChar ∉ text)
    (patterns : List CString) :
    ∃ answer, globMatchAny patterns text = some answer ∧
      (answer = true ↔ patterns = [] ∨ ∃ pattern ∈ patterns, GlobMatches pattern text) := by
  have hany : ∃ answer, (patterns.anyM fun p => globMatch p text) = some answer ∧
      (answer = true ↔ ∃ pattern ∈ patterns, GlobMatches pattern text) := by
    induction patterns with
    | nil => exact ⟨false, rfl, by simp⟩
    | cons pattern patterns ih =>
        obtain ⟨first, hfirst, hmatches⟩ := globMatch_of_notMem htext pattern
        obtain ⟨rest, hrest, hothers⟩ := ih
        rw [List.anyM_cons, hfirst, Option.bind_eq_bind, Option.bind_some]
        cases first with
        | true =>
            refine ⟨true, rfl, iff_of_true rfl ⟨pattern, List.mem_cons_self .., ?_⟩⟩
            exact hmatches.mp rfl
        | false =>
            refine ⟨rest, hrest, hothers.trans ?_⟩
            rw [List.exists_mem_cons_iff, ← hmatches, or_iff_right Bool.false_ne_true]
  unfold globMatchAny
  by_cases hnone : patterns = []
  · rw [if_pos hnone]
    exact ⟨true, rfl, iff_of_true rfl (.inl hnone)⟩
  · obtain ⟨answer, hanswer, hspec⟩ := hany
    rw [if_neg hnone]
    exact ⟨answer, hanswer, by rw [hspec, or_iff_right hnone]⟩

end EsphomeApi.Cli
