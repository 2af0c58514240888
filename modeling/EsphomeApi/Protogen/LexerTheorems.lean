/-
EsphomeApi.Protogen.LexerTheorems — what `lex` makes of a text.

`Lexes` cuts a text into tokens and the gaps between them: white space and
comments. Every piece says what must not follow it, since the scanner takes as
much as it can. `lex_eq_ok_iff` is that `lex` finds exactly such a cut, and
`lex_outcome` that it does nothing else but throw, at a line of the text.
-/
import EsphomeApi.Protogen.Lexer

namespace EsphomeApi.Protogen

open Library Library.TokenParser

/-! ## What a text denotes -/

/-- White space or a comment, in front of `after`. -/
inductive Gap : CString → CString → Prop where
  | space {c : UInt8} {after : CString} : isSpace c = true → Gap [c] after
  | lineComment {text after : CString} : newline ∉ text → (∀ d ∈ after.head?, d = newline) →
      Gap (slash :: slash :: text) after
  | blockComment {body after : CString} : ¬ [star, slash] <:+: body →
      Gap (slash :: star :: (body ++ [star, slash])) after

/-- The inside of a string literal, with its value and the lines that it goes
on for. -/
inductive StringBody (quote : UInt8) : CString → CString → Nat → Prop where
  | nil : StringBody quote [] [] 0
  | plain {c : UInt8} {s value : CString} {lines : Nat} : c ≠ quote → c ≠ backslash →
      StringBody quote s value lines →
      StringBody quote (c :: s) (c :: value) (if c = newline then lines + 1 else lines)
  | escape {d : UInt8} {s value : CString} {lines : Nat} : StringBody quote s value lines →
      StringBody quote (backslash :: d :: s) (unescape d :: value) lines

/-- A token of a kind and a text as it is written in front of `after`, and the
lines that it goes on for. -/
inductive Spelled : TokKind → CString → CString → Nat → CString → Prop where
  | string {quote : UInt8} {s value after : CString} {lines : Nat} :
      quote = doubleQuote ∨ quote = singleQuote → StringBody quote s value lines →
      Spelled .string value (quote :: (s ++ [quote])) lines after
  | identifier {c : UInt8} {s after : CString} : identStart c = true →
      (∀ d ∈ s, identCont d = true) → (∀ d ∈ after.head?, identCont d = false) →
      Spelled .identifier (c :: s) (c :: s) 0 after
  | number {c : UInt8} {s after : CString} : numberStart c s = true →
      List.IsChain (fun prev d => numberCont prev d = true) (c :: s) →
      (∀ d ∈ after.head?, numberCont ((c :: s).getLast (List.cons_ne_nil c s)) d = false) →
      Spelled .number (c :: s) (c :: s) 0 after
  | symbol {c : UInt8} {after : CString} : c ∈ symbols → Spelled .symbol [c] [c] 0 after

/-- A text, from a line on, as tokens. -/
inductive Lexes : Nat → CString → List Token → Prop where
  | end_ (line : Nat) : Lexes line [] [⟨.end_, [], line⟩]
  | gap {line : Nat} {g after : CString} {tokens : List Token} : Gap g after →
      Lexes (line + g.count newline) after tokens → Lexes line (g ++ after) tokens
  | token {line lines : Nat} {kind : TokKind} {text s after : CString} {tokens : List Token} :
      Spelled kind text s lines after → Lexes (line + lines) after tokens →
      Lexes line (s ++ after) (⟨kind, text, line⟩ :: tokens)

/-! ## The scanners -/

theorem blockComment_eq_ok_iff : ∀ {cs rest : CString} {line line' : Nat},
    blockComment line cs = .ok (line', rest) ↔ ∃ body, cs = body ++ [star, slash] ++ rest ∧
      ¬ [star, slash] <:+: body ∧ line' = line + body.count newline
  | [], rest, line, line' => by
      constructor
      · intro h
        cases h
      · rintro ⟨body, h, -⟩
        cases body <;> cases h
  | [c], rest, line, line' => by
      constructor
      · intro h
        cases h
      · rintro ⟨body, h, -⟩
        have hlen := congrArg List.length h
        simp at hlen
        omega
  | c :: d :: cs, rest, line, line' => by
      unfold blockComment
      by_cases hend : c = star ∧ d = slash
      · obtain ⟨rfl, rfl⟩ := hend
        rw [if_pos ⟨rfl, rfl⟩]
        constructor
        · intro h
          cases h
          exact ⟨[], rfl, by simp, rfl⟩
        · rintro ⟨body, hbody, hno, hline⟩
          match body, hbody with
          | [], hbody =>
              obtain rfl : cs = rest := by simpa using hbody
              rw [hline]
              rfl
          | [_], hbody =>
              simp at hbody
              exact absurd hbody.2.1 (by decide)
          | x :: y :: body, hbody =>
              obtain ⟨rfl, rfl, -⟩ : star = x ∧ slash = y ∧ _ := by simpa using hbody
              exact absurd (List.IsPrefix.isInfix ⟨body, rfl⟩) hno
      · rw [if_neg hend, blockComment_eq_ok_iff]
        constructor
        · rintro ⟨body, hbody, hno, hline⟩
          refine ⟨c :: body, by rw [hbody]; rfl, ?_, ?_⟩
          · intro hinfix
            rcases List.infix_cons_iff.mp hinfix with hprefix | hinfix
            · obtain ⟨t, ht⟩ := hprefix
              obtain ⟨hstar, ht⟩ := List.cons.inj ht
              match body, ht with
              | y :: body, ht =>
                  obtain ⟨hslash, -⟩ := List.cons.inj ht
                  exact hend ⟨hstar.symm, (List.cons.inj hbody).1.trans hslash.symm⟩
            · exact hno hinfix
          · rw [hline, List.count_cons]
            by_cases hc : c = newline
            · rw [if_pos hc, if_pos (by simpa using hc)]
              omega
            · rw [if_neg hc, if_neg (by simpa using hc)]
              omega
        · rintro ⟨body, hbody, hno, hline⟩
          match body, hbody with
          | [], hbody =>
              obtain ⟨rfl, rfl, -⟩ : c = star ∧ d = slash ∧ _ := by simpa using hbody
              exact absurd ⟨rfl, rfl⟩ hend
          | x :: body, hbody =>
              obtain ⟨rfl, htail⟩ := List.cons.inj hbody
              refine ⟨body, htail, fun h => hno (List.infix_cons h), ?_⟩
              rw [hline, List.count_cons]
              by_cases hc : c = newline
              · rw [if_pos hc, if_pos (by simpa using hc)]
                omega
              · rw [if_neg hc, if_neg (by simpa using hc)]
                omega

theorem blockComment_error : ∀ {cs : CString} {line line' : Nat},
    blockComment line cs = .error line' → line ≤ line' ∧ line' ≤ line + cs.count newline
  | [], line, line', h => by
      cases h
      simp
  | [c], line, line', h => by
      cases h
      simp
  | c :: d :: cs, line, line', h => by
      unfold blockComment at h
      split at h
      · cases h
      · have ih := blockComment_error h
        rw [List.count_cons]
        by_cases hc : c = newline
        · rw [if_pos hc] at ih
          rw [if_pos (by simpa using hc)]
          omega
        · rw [if_neg hc] at ih
          omega

theorem stringLiteral_eq_some_iff {quote : UInt8} (hquote : quote ≠ backslash) :
    ∀ {cs value rest : CString} {lines : Nat},
      stringLiteral quote cs = some (value, lines, rest) ↔
        ∃ s, cs = s ++ quote :: rest ∧ StringBody quote s value lines
  | [], value, rest, lines => by
      constructor
      · intro h
        cases h
      · rintro ⟨s, h, -⟩
        cases s <;> cases h
  | [c], value, rest, lines => by
      unfold stringLiteral
      constructor
      · intro h
        split at h
        · next hc =>
            cases h
            exact ⟨[], by rw [hc]; rfl, .nil⟩
        · cases h
      · rintro ⟨s, h, hbody⟩
        cases hbody with
        | nil =>
            obtain ⟨rfl, rfl⟩ := List.cons.inj h
            rw [if_pos rfl]
        | plain _ _ _ =>
            have hlen := congrArg List.length h
            simp at hlen
        | escape _ =>
            have hlen := congrArg List.length h
            simp at hlen
  | c :: d :: cs, value, rest, lines => by
      unfold stringLiteral
      by_cases hc : c = quote
      · rw [if_pos hc]
        subst hc
        constructor
        · intro h
          cases h
          exact ⟨[], rfl, .nil⟩
        · rintro ⟨s, h, hbody⟩
          cases hbody with
          | nil =>
              obtain rfl := (List.cons.inj h).2
              rfl
          | plain hne _ _ => exact absurd (List.cons.inj h).1.symm hne
          | escape _ => exact absurd (List.cons.inj h).1 hquote
      rw [if_neg hc]
      by_cases hback : c = backslash
      · rw [if_pos hback]
        subst hback
        rw [Option.map_eq_some_iff]
        constructor
        · rintro ⟨⟨value, lines, rest⟩, hsome, h⟩
          cases h
          obtain ⟨s, rfl, hbody⟩ := (stringLiteral_eq_some_iff hquote).mp hsome
          exact ⟨backslash :: d :: s, rfl, .escape hbody⟩
        · rintro ⟨s, h, hbody⟩
          cases hbody with
          | nil => exact absurd (List.cons.inj h).1 hc
          | plain _ hne _ => exact absurd (List.cons.inj h).1.symm hne
          | escape hbody =>
              obtain ⟨rfl, rfl⟩ := List.cons.inj (List.cons.inj h).2
              exact ⟨_, (stringLiteral_eq_some_iff hquote).mpr ⟨_, rfl, hbody⟩, rfl⟩
      · rw [if_neg hback, Option.map_eq_some_iff]
        constructor
        · rintro ⟨⟨value, lines, rest⟩, hsome, h⟩
          cases h
          obtain ⟨s, hs, hbody⟩ := (stringLiteral_eq_some_iff hquote).mp hsome
          exact ⟨c :: s, by rw [hs]; rfl, .plain hc hback hbody⟩
        · rintro ⟨s, h, hbody⟩
          cases hbody with
          | nil => exact absurd (List.cons.inj h).1 hc
          | plain _ _ hbody =>
              obtain ⟨rfl, hs⟩ := List.cons.inj h
              exact ⟨_, (stringLiteral_eq_some_iff hquote).mpr ⟨_, hs, hbody⟩, rfl⟩
          | escape _ => exact absurd (List.cons.inj h).1 hback

theorem numberTail_eq_iff : ∀ {prev : UInt8} {cs tail rest : CString},
    numberTail prev cs = (tail, rest) ↔ cs = tail ++ rest ∧
      List.IsChain (fun p d => numberCont p d = true) (prev :: tail) ∧
      ∀ d ∈ rest.head?,
        numberCont ((prev :: tail).getLast (List.cons_ne_nil prev tail)) d = false
  | prev, [], tail, rest => by
      constructor
      · intro h
        cases h
        simp
      · rintro ⟨h, -⟩
        obtain ⟨rfl, rfl⟩ := List.append_eq_nil_iff.mp h.symm
        rfl
  | prev, c :: cs, tail, rest => by
      unfold numberTail
      by_cases hcont : numberCont prev c = true
      · rw [if_pos hcont]
        constructor
        · intro h
          obtain ⟨rfl, rfl⟩ := Prod.mk.inj h
          have htail : numberTail c cs = ((numberTail c cs).1, (numberTail c cs).2) := rfl
          obtain ⟨hcs, hchain, hend⟩ := numberTail_eq_iff.mp htail
          refine ⟨congrArg (c :: ·) hcs, List.isChain_cons_cons.mpr ⟨hcont, hchain⟩, ?_⟩
          rwa [List.getLast_cons_cons]
        · rintro ⟨h, hchain, hend⟩
          cases tail with
          | nil =>
              have hfalse := hend c (by rw [List.nil_append] at h; rw [← h]; rfl)
              rw [List.getLast_singleton, hcont] at hfalse
              cases hfalse
          | cons d tail =>
              obtain ⟨rfl, rfl⟩ := List.cons.inj h
              rw [List.getLast_cons_cons] at hend
              have htail : numberTail c (tail ++ rest) = (tail, rest) :=
                numberTail_eq_iff.mpr ⟨rfl, (List.isChain_cons_cons.mp hchain).2, hend⟩
              exact congrArg (fun out => (c :: out.1, out.2)) htail
      · rw [if_neg hcont]
        constructor
        · intro h
          cases h
          exact ⟨rfl, .singleton prev, by simpa using hcont⟩
        · rintro ⟨h, hchain, -⟩
          cases tail with
          | nil => rw [List.nil_append] at h; rw [h]
          | cons d tail =>
              obtain ⟨rfl, rfl⟩ := List.cons.inj h
              exact absurd (List.isChain_cons_cons.mp hchain).1 hcont

/-- A run of characters, up to the first that is none of them. -/
theorem span_append {p : UInt8 → Bool} {s after : CString} (hs : ∀ d ∈ s, p d = true)
    (hafter : ∀ d ∈ after.head?, p d = false) :
    (s ++ after).takeWhile p = s ∧ (s ++ after).dropWhile p = after := by
  rw [List.takeWhile_append_of_pos hs, List.dropWhile_append_of_pos hs]
  cases after with
  | nil => simp
  | cons d after =>
      have hd := hafter d rfl
      rw [List.takeWhile_cons_of_neg (by simp [hd]), List.dropWhile_cons_of_neg (by simp [hd]),
        List.append_nil]
      exact ⟨rfl, rfl⟩

theorem head?_dropWhile {p : UInt8 → Bool} (s : CString) :
    ∀ d ∈ (s.dropWhile p).head?, p d = false := by
  intro d hd
  have hnot := List.head?_dropWhile_not p s
  rw [Option.mem_def.mp hd] at hnot
  simpa using hnot

/-! ## A turn -/

variable {filename : CString} {line : Nat}

theorem identStart_not_space {c : UInt8} (h : identStart c = true) : isSpace c = false := by
  simp only [identStart, isAlpha, Bool.or_eq_true, decide_eq_true_eq] at h
  rw [isSpace, decide_eq_false_iff_not]
  rcases h with h | rfl
  · omega
  · decide

theorem numberStart_range {c : UInt8} {cs : CString} (h : numberStart c cs = true) :
    48 ≤ c.toNat ∧ c.toNat ≤ 57 ∨ c = minus := by
  simp only [numberStart, isDecimalDigit, Bool.or_eq_true, Bool.and_eq_true,
    decide_eq_true_eq] at h
  rcases h with h | ⟨h, -⟩
  · exact .inl h
  · exact .inr h

theorem numberStart_not_space {c : UInt8} {cs : CString} (h : numberStart c cs = true) :
    isSpace c = false := by
  rw [isSpace, decide_eq_false_iff_not]
  rcases numberStart_range h with h | rfl
  · omega
  · decide

theorem numberStart_not_identStart {c : UInt8} {cs : CString} (h : numberStart c cs = true) :
    identStart c = false := by
  rw [← Bool.not_eq_true]
  simp only [identStart, isAlpha, Bool.or_eq_true, decide_eq_true_eq]
  rcases numberStart_range h with h | rfl
  · rintro (hc | rfl)
    · omega
    · exact absurd h (by decide)
  · decide

/-- Whether a number starts is decided by the number itself. -/
theorem numberStart_append {c : UInt8} {s after : CString}
    (hchain : List.IsChain (fun prev d => numberCont prev d = true) (c :: s))
    (hafter : ∀ d ∈ after.head?,
      numberCont ((c :: s).getLast (List.cons_ne_nil c s)) d = false) :
    numberStart c (s ++ after) = numberStart c s := by
  cases s with
  | cons d s => rfl
  | nil =>
      cases after with
      | nil => rfl
      | cons d after =>
          have hd := hafter d rfl
          simp only [numberCont, isAlnum, Bool.or_eq_false_iff] at hd
          simp [numberStart, hd.1.1.2]

/-- What a turn finds is a gap or a token. -/
theorem lexStep_sound {c : UInt8} {cs rest : CString} {token : Option Token} {line' : Nat}
    (h : lexStep filename line c cs = .ok (token, line', rest)) :
    (token = none ∧ ∃ g, c :: cs = g ++ rest ∧ Gap g rest ∧ line' = line + g.count newline) ∨
      ∃ kind text s lines, token = some ⟨kind, text, line⟩ ∧ c :: cs = s ++ rest ∧
        Spelled kind text s lines rest ∧ line' = line + lines := by
  unfold lexStep at h
  split at h
  · next hc =>
      cases h
      exact .inl ⟨rfl, [c], rfl, .space (by rw [hc]; rfl), by rw [hc]; rfl⟩
  split at h
  · next hne hspace =>
      cases h
      exact .inl ⟨rfl, [c], rfl, .space hspace, by simp [hne]⟩
  split at h
  · next hcomment =>
      cases h
      obtain ⟨rfl, hhead⟩ := hcomment
      obtain ⟨cs, rfl⟩ := List.head?_eq_some_iff.mp hhead
      have hno : newline ∉ cs.takeWhile (· ≠ newline) := fun hmem => by
        simpa using List.mem_takeWhile_imp hmem
      have hstop : ∀ d ∈ (cs.dropWhile (· ≠ newline)).head?, d = newline := fun d hd => by
        simpa using head?_dropWhile cs d hd
      refine .inl ⟨rfl, slash :: slash :: cs.takeWhile (· ≠ newline), ?_,
        .lineComment hno hstop, ?_⟩
      · rw [List.cons_append, List.cons_append, List.tail_cons, List.takeWhile_append_dropWhile]
      · rw [List.count_cons_of_ne (by decide), List.count_cons_of_ne (by decide),
          List.count_eq_zero.mpr hno, Nat.add_zero]
  split at h
  · next hcomment =>
      obtain ⟨rfl, hhead⟩ := hcomment
      obtain ⟨cs, rfl⟩ := List.head?_eq_some_iff.mp hhead
      split at h
      · next hblock =>
          cases h
          obtain ⟨body, hbody, hno, hline⟩ := blockComment_eq_ok_iff.mp hblock
          rw [List.tail_cons] at hbody
          refine .inl ⟨rfl, slash :: star :: (body ++ [star, slash]), ?_, .blockComment hno, ?_⟩
          · rw [hbody]
            rfl
          · rw [hline, List.count_cons_of_ne (by decide), List.count_cons_of_ne (by decide),
              List.count_append, show [star, slash].count newline = 0 from rfl, Nat.add_zero]
      · cases h
  split at h
  · next hquote =>
      have hback : c ≠ backslash := by
        rcases hquote with rfl | rfl
        all_goals decide
      split at h
      · next hliteral =>
          cases h
          obtain ⟨s, rfl, hbody⟩ := (stringLiteral_eq_some_iff hback).mp hliteral
          exact .inr ⟨_, _, c :: (s ++ [c]), _, rfl, by simp, .string hquote hbody, rfl⟩
      · cases h
  split at h
  · next hident =>
      cases h
      refine .inr ⟨_, _, c :: cs.takeWhile identCont, 0, rfl, ?_,
        .identifier hident (fun d hd => List.mem_takeWhile_imp hd) (head?_dropWhile cs), rfl⟩
      rw [List.cons_append, List.takeWhile_append_dropWhile]
  split at h
  · next hnumber =>
      cases h
      have htail : numberTail c cs = ((numberTail c cs).1, (numberTail c cs).2) := rfl
      obtain ⟨hcs, hchain, hend⟩ := numberTail_eq_iff.mp htail
      refine .inr ⟨_, _, c :: (numberTail c cs).1, 0, rfl, congrArg (c :: ·) hcs,
        .number ?_ hchain hend, rfl⟩
      rwa [← numberStart_append hchain hend, ← hcs]
  split at h
  · next hsymbol =>
      cases h
      exact .inr ⟨_, _, [c], 0, rfl, rfl, .symbol hsymbol, rfl⟩
  · cases h

theorem lexStep_gap {c : UInt8} {g after : CString} (h : Gap (c :: g) after) :
    lexStep filename line c (g ++ after) =
      .ok (none, line + (c :: g).count newline, after) := by
  cases h with
  | space hspace =>
      unfold lexStep
      by_cases hc : c = newline
      · rw [if_pos hc, hc]
        rfl
      · rw [if_neg hc, if_pos hspace]
        simp [hc]
  | @lineComment text _ hno hstop =>
      have hspan := @span_append (fun d => decide (d ≠ newline)) text after
        (fun d hd => decide_eq_true fun heq => hno (heq ▸ hd))
        (fun d hd => by simp [hstop d hd])
      unfold lexStep
      rw [if_neg (by decide), if_neg (by decide), if_pos ⟨rfl, rfl⟩, List.cons_append,
        List.tail_cons, hspan.2, List.count_cons_of_ne (by decide),
        List.count_cons_of_ne (by decide), List.count_eq_zero.mpr hno]
      rfl
  | @blockComment body _ hno =>
      have hblock : blockComment line (body ++ [star, slash] ++ after) =
          .ok (line + body.count newline, after) :=
        blockComment_eq_ok_iff.mpr ⟨body, rfl, hno, rfl⟩
      unfold lexStep
      rw [if_neg (by decide), if_neg (by decide), if_neg (fun h => absurd h.2 (by simp; decide)),
        if_pos ⟨rfl, rfl⟩, List.cons_append, List.tail_cons, hblock,
        List.count_cons_of_ne (by decide), List.count_cons_of_ne (by decide), List.count_append,
        show [star, slash].count newline = 0 from rfl]
      rfl

/-- Nothing else starts with a symbol. -/
theorem symbol_starts_nothing {c : UInt8} (h : c ∈ symbols) :
    c ≠ newline ∧ isSpace c = false ∧ c ≠ slash ∧ c ≠ doubleQuote ∧ c ≠ singleQuote ∧
      identStart c = false ∧ isDecimalDigit c = false ∧ c ≠ minus := by
  have hall : (symbols.all fun d => d ≠ newline && !isSpace d && d ≠ slash && d ≠ doubleQuote &&
      d ≠ singleQuote && !identStart d && !isDecimalDigit d && d ≠ minus) = true := by decide
  simpa [and_assoc] using List.all_eq_true.mp hall c h

theorem lexStep_token {kind : TokKind} {text s after : CString} {c : UInt8} {lines : Nat}
    (h : Spelled kind text (c :: s) lines after) :
    lexStep filename line c (s ++ after) =
      .ok (some ⟨kind, text, line⟩, line + lines, after) := by
  cases h with
  | @string _ s _ _ _ hquote hbody =>
      have hback : c ≠ backslash := by
        rcases hquote with rfl | rfl
        all_goals decide
      have hliteral : stringLiteral c (s ++ [c] ++ after) = some (text, lines, after) :=
        (stringLiteral_eq_some_iff hback).mpr ⟨s, by simp, hbody⟩
      have hne : c ≠ newline ∧ isSpace c = false ∧ c ≠ slash := by
        rcases hquote with rfl | rfl
        all_goals decide
      unfold lexStep
      rw [if_neg hne.1, if_neg (by simp [hne.2.1]), if_neg (fun h => hne.2.2 h.1),
        if_neg (fun h => hne.2.2 h.1), if_pos hquote, hliteral]
  | identifier hident hs hafter =>
      have hspan := span_append hs hafter
      have hne : ∀ d, identStart d = false → c ≠ d := by
        rintro d hd rfl
        rw [hident] at hd
        cases hd
      unfold lexStep
      rw [if_neg (hne newline (by decide)), if_neg (by simp [identStart_not_space hident]),
        if_neg (fun h => hne slash (by decide) h.1), if_neg (fun h => hne slash (by decide) h.1),
        if_neg (not_or_intro (hne doubleQuote (by decide)) (hne singleQuote (by decide))),
        if_pos hident, hspan.1, hspan.2]
      rfl
  | number hnumber hchain hafter =>
      have htail : numberTail c (s ++ after) = (s, after) :=
        numberTail_eq_iff.mpr ⟨rfl, hchain, hafter⟩
      have hne : ∀ d, isDecimalDigit d = false → d ≠ minus → c ≠ d := by
        rintro d hd hminus rfl
        rcases numberStart_range hnumber with hrange | hc
        · exact absurd (decide_eq_true hrange) (by rw [Bool.not_eq_true]; exact hd)
        · exact hminus hc
      have hstart := hnumber
      rw [← numberStart_append hchain hafter] at hstart
      unfold lexStep
      rw [if_neg (hne newline (by decide) (by decide)),
        if_neg (by simp [numberStart_not_space hnumber]),
        if_neg (fun h => hne slash (by decide) (by decide) h.1),
        if_neg (fun h => hne slash (by decide) (by decide) h.1),
        if_neg (not_or_intro (hne doubleQuote (by decide) (by decide))
          (hne singleQuote (by decide) (by decide))),
        if_neg (by simp [numberStart_not_identStart hnumber]), if_pos hstart, htail]
      rfl
  | symbol hsymbol =>
      obtain ⟨hnewline, hspace, hslash, hdouble, hsingle, hident, hdigit, hminus⟩ :=
        symbol_starts_nothing hsymbol
      unfold lexStep
      rw [if_neg hnewline, if_neg (by simp [hspace]), if_neg (fun h => hslash h.1),
        if_neg (fun h => hslash h.1), if_neg (not_or_intro hdouble hsingle),
        if_neg (by simp [hident]), if_neg (by simp [numberStart, hdigit, hminus]),
        if_pos hsymbol]
      rfl

/-- An error of a turn stands at a line that the turn has come to. -/
theorem lexStep_error {c : UInt8} {cs : CString} {e : RuntimeError}
    (h : lexStep filename line c cs = .error e) :
    ∃ l msg, e = lexError filename l msg ∧ line ≤ l ∧ l ≤ line + (c :: cs).count newline := by
  unfold lexStep at h
  split at h
  · cases h
  split at h
  · cases h
  split at h
  · cases h
  split at h
  · next hcomment =>
      split at h
      · cases h
      · next hblock =>
          cases h
          obtain ⟨hlow, hhigh⟩ := blockComment_error hblock
          have htail : cs.tail.count newline ≤ (c :: cs).count newline :=
            ((List.tail_sublist cs).trans (List.sublist_cons_self c cs)).count_le newline
          exact ⟨_, _, rfl, hlow, by omega⟩
  split at h
  · split at h
    · cases h
    · cases h
      exact ⟨_, _, rfl, Nat.le_refl _, Nat.le_add_right _ _⟩
  split at h
  · cases h
  split at h
  · cases h
  split at h
  · cases h
  · cases h
    exact ⟨_, _, rfl, Nat.le_refl _, Nat.le_add_right _ _⟩

theorem Gap.ne_nil {g after : CString} (h : Gap g after) : g ≠ [] := by
  cases h
  all_goals exact List.cons_ne_nil _ _

theorem Spelled.ne_nil {kind : TokKind} {text s after : CString} {lines : Nat}
    (h : Spelled kind text s lines after) : s ≠ [] := by
  cases h
  all_goals exact List.cons_ne_nil _ _

theorem StringBody.lines_le {quote : UInt8} {s value : CString} {lines : Nat}
    (h : StringBody quote s value lines) : lines ≤ s.count newline := by
  induction h with
  | nil => exact Nat.le_refl 0
  | @plain c s value lines _ _ _ ih =>
      rw [List.count_cons]
      by_cases hc : c = newline
      · rw [if_pos hc, if_pos (by simpa using hc)]
        omega
      · rw [if_neg hc]
        omega
  | escape _ ih =>
      rw [List.count_cons, List.count_cons]
      omega

theorem Spelled.lines_le {kind : TokKind} {text s after : CString} {lines : Nat}
    (h : Spelled kind text s lines after) : lines ≤ s.count newline := by
  cases h with
  | string _ hbody =>
      have := hbody.lines_le
      rw [List.count_cons, List.count_append]
      omega
  | identifier _ _ _ => exact Nat.zero_le _
  | number _ _ _ => exact Nat.zero_le _
  | symbol _ => exact Nat.zero_le _

theorem Spelled.kind_ne_end {kind : TokKind} {text s after : CString} {lines : Nat}
    (h : Spelled kind text s lines after) : kind ≠ .end_ := by
  cases h
  all_goals exact nofun

/-- A turn takes a character off. -/
theorem length_of_lexStep {c : UInt8} {cs rest : CString} {token : Option Token} {line' : Nat}
    (h : lexStep filename line c cs = .ok (token, line', rest)) : rest.length ≤ cs.length := by
  have hlen : ∀ s : CString, s ≠ [] → c :: cs = s ++ rest → rest.length ≤ cs.length := by
    intro s hs heq
    have hpos := List.length_pos_iff.mpr hs
    have hsum := congrArg List.length heq
    rw [List.length_cons, List.length_append] at hsum
    omega
  rcases lexStep_sound h with ⟨-, g, hcs, hgap, -⟩ | ⟨kind, text, s, lines, -, hcs, hspelled, -⟩
  · exact hlen g hgap.ne_nil hcs
  · exact hlen s hspelled.ne_nil hcs

/-! ## The loop -/

theorem lexLoop_sound : ∀ (fuel : Nat) {line : Nat} {cs : CString} {tokens : List Token},
    lexLoop filename fuel line cs = .ok tokens → Lexes line cs tokens
  | fuel, line, [], tokens, h => by
      unfold lexLoop at h
      cases h
      exact .end_ line
  | 0, line, c :: cs, tokens, h => by
      cases h
  | fuel + 1, line, c :: cs, tokens, h => by
      unfold lexLoop at h
      split at h
      · cases h
      · next token line' rest hstep =>
          split at h
          · cases h
          · next tokens' hrest =>
              cases h
              have ih := lexLoop_sound fuel hrest
              rcases lexStep_sound hstep with
                ⟨rfl, g, hcs, hgap, rfl⟩ | ⟨kind, text, s, lines, rfl, hcs, hspelled, rfl⟩
              · rw [hcs]
                exact .gap hgap ih
              · rw [hcs]
                exact .token hspelled ih

theorem Lexes.lexLoop {cs : CString} {tokens : List Token} (h : Lexes line cs tokens) :
    ∀ fuel, cs.length ≤ fuel → lexLoop filename fuel line cs = .ok tokens := by
  induction h with
  | end_ line =>
      intro fuel _
      cases fuel <;> rfl
  | @gap line g after tokens hgap _ ih =>
      intro fuel hfuel
      obtain ⟨c, g, rfl⟩ := List.exists_cons_of_ne_nil hgap.ne_nil
      cases fuel with
      | zero => cases hfuel
      | succ fuel =>
          have hafter : after.length ≤ fuel := by
            rw [List.length_append, List.length_cons] at hfuel
            omega
          rw [List.cons_append, Protogen.lexLoop, lexStep_gap hgap]
          simp only [ih fuel hafter]
          rfl
  | @token line lines kind text s after tokens hspelled _ ih =>
      intro fuel hfuel
      obtain ⟨c, s, rfl⟩ := List.exists_cons_of_ne_nil hspelled.ne_nil
      cases fuel with
      | zero => cases hfuel
      | succ fuel =>
          have hafter : after.length ≤ fuel := by
            rw [List.length_append, List.length_cons] at hfuel
            omega
          rw [List.cons_append, Protogen.lexLoop, lexStep_token hspelled]
          simp only [ih fuel hafter]
          rfl

theorem lex_eq_ok_iff {filename src : CString} {tokens : List Token} :
    lex filename src = .ok tokens ↔ Lexes 1 src tokens :=
  ⟨lexLoop_sound _, fun h => h.lexLoop _ (Nat.le_refl _)⟩

theorem lexLoop_outcome : ∀ (fuel : Nat) (line : Nat) (cs : CString), cs.length ≤ fuel →
    (∃ tokens, lexLoop filename fuel line cs = .ok tokens) ∨
      ∃ l msg, lexLoop filename fuel line cs = .error (.thrown (lexError filename l msg)) ∧
        line ≤ l ∧ l ≤ line + cs.count newline
  | fuel, line, [], _ => .inl ⟨_, by unfold lexLoop; rfl⟩
  | 0, line, c :: cs, h => absurd h (Nat.not_succ_le_zero _)
  | fuel + 1, line, c :: cs, h => by
      unfold lexLoop
      cases hstep : lexStep filename line c cs with
      | error e =>
          obtain ⟨l, msg, rfl, hl⟩ := lexStep_error hstep
          exact .inr ⟨l, msg, rfl, hl⟩
      | ok out =>
          obtain ⟨token, line', rest⟩ := out
          have hlen := length_of_lexStep hstep
          rw [List.length_cons] at h
          have hline : line ≤ line' ∧ line' + rest.count newline ≤
              line + (c :: cs).count newline := by
            rcases lexStep_sound hstep with
              ⟨-, g, hcs, -, rfl⟩ | ⟨kind, text, s, lines, -, hcs, hspelled, rfl⟩
            · rw [hcs, List.count_append]
              omega
            · rw [hcs, List.count_append]
              have := hspelled.lines_le
              omega
          rcases lexLoop_outcome fuel line' rest (by omega) with
            ⟨tokens, htokens⟩ | ⟨l, msg, herror, hlow, hhigh⟩
          · exact .inl ⟨token.toList ++ tokens, by simp only [htokens]⟩
          · exact .inr ⟨l, msg, by simp only [herror], by omega, by omega⟩

/-- `lex` returns, or throws at a line of the text. -/
theorem lex_outcome (src : CString) :
    (∃ tokens, lex filename src = .ok tokens) ∨
      ∃ l msg, lex filename src = .error (.thrown (lexError filename l msg)) ∧
        1 ≤ l ∧ l ≤ 1 + src.count newline :=
  lexLoop_outcome _ 1 src (Nat.le_refl _)

/-- The tokens of a text: one `end_`, at the end, and all at lines of the
text. -/
theorem Lexes.tokens {cs : CString} {tokens : List Token} (h : Lexes line cs tokens) :
    (∃ front t, tokens = front ++ [t] ∧ t.kind = .end_ ∧ ∀ u ∈ front, u.kind ≠ .end_) ∧
      ∀ t ∈ tokens, line ≤ t.line ∧ t.line ≤ line + cs.count newline := by
  induction h with
  | end_ line =>
      refine ⟨⟨[], _, rfl, rfl, by simp⟩, fun t ht => ?_⟩
      obtain rfl := List.mem_singleton.mp ht
      exact ⟨Nat.le_refl _, Nat.le_add_right _ _⟩
  | gap _ _ ih =>
      refine ⟨ih.1, fun t ht => ?_⟩
      have hline := ih.2 t ht
      rw [List.count_append]
      omega
  | @token line lines kind text s after tokens hspelled _ ih =>
      have hlines := hspelled.lines_le
      obtain ⟨⟨front, t, rfl, hend, hfront⟩, hline⟩ := ih
      refine ⟨⟨⟨kind, text, line⟩ :: front, t, rfl, hend, fun u hu => ?_⟩, fun u hu => ?_⟩
      · rcases List.mem_cons.mp hu with rfl | hu
        · exact hspelled.kind_ne_end
        · exact hfront u hu
      · rw [List.count_append]
        rcases List.mem_cons.mp hu with rfl | hu
        · exact ⟨Nat.le_refl _, Nat.le_add_right _ _⟩
        · have := hline u hu
          omega

/-- The lexer decides the grammar: it returns the one list of tokens that the text
spells, and throws at a line of the text if it spells none. -/
theorem lex_exact (filename src : CString) :
    (∀ tokens, lex filename src = .ok tokens ↔ Lexes 1 src tokens) ∧
      (∀ tokens tokens', Lexes 1 src tokens → Lexes 1 src tokens' → tokens = tokens') ∧
      ((¬ ∃ tokens, Lexes 1 src tokens) ↔
        ∃ l msg, lex filename src = .error (.thrown (lexError filename l msg)) ∧
          1 ≤ l ∧ l ≤ 1 + src.count newline) := by
  refine ⟨fun _ => lex_eq_ok_iff, fun tokens tokens' h h' => ?_, ?_⟩
  · rw [← @lex_eq_ok_iff filename] at h h'
    exact Except.ok.inj (h.symm.trans h')
  constructor
  · intro hno
    rcases @lex_outcome filename src with ⟨tokens, hlex⟩ | herror
    · exact absurd ⟨tokens, lex_eq_ok_iff.mp hlex⟩ hno
    · exact herror
  · rintro ⟨l, msg, herror, -⟩ ⟨tokens, h⟩
    rw [lex_eq_ok_iff.mpr h] at herror
    cases herror

end EsphomeApi.Protogen
