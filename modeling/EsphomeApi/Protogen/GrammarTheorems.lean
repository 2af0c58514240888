/-
EsphomeApi.Protogen.GrammarTheorems — the parser accepts the grammar, and
nothing else.

One lemma for each function says on which tokens it returns, what, and with
which tokens left. A function that skips a block counts a depth; `Closes` is
what it takes. The loops over items are `accepts_until`: an item may end with
an optional comma, so what an item is depends on the token behind it, but no
item starts with a comma.
-/
import EsphomeApi.Protogen.Grammar

namespace EsphomeApi.Protogen

open Library Library.TokenParser

variable {filename : CString} {α : Type} {ts rest : List Token}

/-! ## Single tokens -/

theorem error_ne_ok {msg : CString} {r : α × List Token} :
    (error filename msg : TokenReader α) ts ≠ .ok r := by
  intro h
  unfold error at h
  rw [peek_bind_eq_ok] at h
  obtain ⟨t, us, -, h⟩ := h
  cases h

/-- A token for which `P` holds, and what it says. -/
theorem token_eq_ok {P : Token → Prop} [DecidablePred P] {g : Token → α} {msg : CString} {a : α} :
    (do
      let t ← peek
      if P t then
        let t ← advance
        pure (g t)
      else error filename msg : TokenReader α) ts = .ok (a, rest) ↔
      ∃ t, ts = t :: rest ∧ P t ∧ g t = a := by
  rw [peek_bind_eq_ok]
  constructor
  · rintro ⟨t, us, rfl, h⟩
    split at h
    · next ht =>
        cases h
        exact ⟨t, rfl, ht, rfl⟩
    · exact absurd h error_ne_ok
  · rintro ⟨t, rfl, ht, rfl⟩
    exact ⟨t, rest, rfl, by rw [if_pos ht]; rfl⟩

theorem expectSymbol_eq_ok {c : UInt8} {u : Unit} :
    expectSymbol filename c ts = .ok (u, rest) ↔ ∃ t, ts = t :: rest ∧ t.isSymbol c = true := by
  have h : expectSymbol filename c ts = .ok (u, rest) ↔ _ := token_eq_ok
  simpa using h

theorem expectIdentifier_eq_ok {s : CString} :
    expectIdentifier filename ts = .ok (s, rest) ↔
      ∃ t, ts = t :: rest ∧ t.kind = .identifier ∧ t.text = s := token_eq_ok

theorem parseInteger_eq_ok {n : Int} :
    parseInteger filename ts = .ok (n, rest) ↔ ∃ t, ts = t :: rest ∧ t.IsInteger n := by
  unfold parseInteger
  rw [peek_bind_eq_ok]
  constructor
  · rintro ⟨t, us, rfl, h⟩
    split at h
    · next ht =>
        rw [advance_bind_eq_ok] at h
        obtain ⟨_, _, heq, h⟩ := h
        obtain ⟨rfl, rfl⟩ := List.cons.inj heq
        cases hm : stoll t.text with
        | none =>
            simp only [hm] at h
            exact absurd h error_ne_ok
        | some m =>
            simp only [hm] at h
            cases h
            exact ⟨t, rfl, ht, hm⟩
    · exact absurd h error_ne_ok
  · rintro ⟨t, rfl, ht, hn⟩
    refine ⟨t, rest, rfl, ?_⟩
    rw [if_pos ht]
    refine advance_bind_eq_ok.mpr ⟨t, rest, rfl, ?_⟩
    simp only [hn]
    rfl

theorem parseBool_eq_ok {b : Bool} :
    parseBool filename ts = .ok (b, rest) ↔
      ∃ t, ts = t :: rest ∧ t.isIdent (if b then lit "true" else lit "false") = true := by
  unfold parseBool
  rw [peek_bind_eq_ok]
  constructor
  · rintro ⟨t, us, rfl, h⟩
    split at h
    · next ht =>
        cases h
        exact ⟨t, rfl, ht⟩
    split at h
    · next ht =>
        cases h
        exact ⟨t, rfl, ht⟩
    · exact absurd h error_ne_ok
  · rintro ⟨t, rfl, ht⟩
    refine ⟨t, rest, rfl, ?_⟩
    cases b with
    | true =>
        have htrue : t.isIdent (lit "true") = true := ht
        rw [if_pos htrue]
        rfl
    | false =>
        have hfalse : t.isIdent (lit "false") = true := ht
        rw [not_isIdent hfalse (show _ ≠ lit "true" by decide), if_neg (by decide), if_pos hfalse]
        rfl

/-! ## A token, and what comes behind it -/

section

variable {β : Type} {f : α → TokenReader β} {r : β × List Token}

theorem token_bind_eq_ok {p : TokenReader α} {P : Token → Prop} {g : Token → α}
    (hp : ∀ a us, p ts = .ok (a, us) ↔ ∃ t, ts = t :: us ∧ P t ∧ g t = a) :
    (p >>= f) ts = .ok r ↔ ∃ t us, ts = t :: us ∧ P t ∧ f (g t) us = .ok r := by
  rw [bind_eq_ok]
  constructor
  · rintro ⟨_, us, hrun, h⟩
    obtain ⟨t, rfl, ht, rfl⟩ := (hp _ _).mp hrun
    exact ⟨t, us, rfl, ht, h⟩
  · rintro ⟨t, us, rfl, ht, h⟩
    exact ⟨g t, us, (hp _ _).mpr ⟨t, rfl, ht, rfl⟩, h⟩

theorem expectSymbol_bind_eq_ok {c : UInt8} {f : Unit → TokenReader β} :
    (expectSymbol filename c >>= f) ts = .ok r ↔
      ∃ t us, ts = t :: us ∧ t.isSymbol c = true ∧ f () us = .ok r :=
  token_bind_eq_ok fun _ _ => token_eq_ok

theorem expectIdentifier_bind_eq_ok {f : CString → TokenReader β} :
    (expectIdentifier filename >>= f) ts = .ok r ↔
      ∃ t us, ts = t :: us ∧ t.kind = .identifier ∧ f t.text us = .ok r :=
  token_bind_eq_ok fun _ _ => token_eq_ok

theorem expectString_bind_eq_ok {msg : CString} {f : CString → TokenReader β} :
    (expectString filename msg >>= f) ts = .ok r ↔
      ∃ t us, ts = t :: us ∧ t.kind = .string ∧ f t.text us = .ok r :=
  token_bind_eq_ok fun _ _ => token_eq_ok

theorem parseInteger_bind_eq_ok {f : Int → TokenReader β} :
    (parseInteger filename >>= f) ts = .ok r ↔
      ∃ t us n, ts = t :: us ∧ t.IsInteger n ∧ f n us = .ok r := by
  rw [bind_eq_ok]
  constructor
  · rintro ⟨n, us, hrun, h⟩
    obtain ⟨t, rfl, ht⟩ := parseInteger_eq_ok.mp hrun
    exact ⟨t, us, n, rfl, ht, h⟩
  · rintro ⟨t, us, n, rfl, ht, h⟩
    exact ⟨n, us, parseInteger_eq_ok.mpr ⟨t, rfl, ht⟩, h⟩

end

/-! ## Blocks -/

section

variable {open_ close : UInt8}

/-- Brackets of a kind, as tokens. -/
theorem brackets (h : open_ ≠ close) :
    Brackets (·.isSymbol open_) (·.isSymbol close) Token.isEnd where
  close_ne_open _ ht := not_isSymbol_of_ne ht h.symm
  open_ne_end _ ht := not_end_of_isSymbol ht
  close_ne_end _ ht := not_end_of_isSymbol ht

/-- What a loop at a depth takes. -/
abbrev ClosesAt (open_ close : UInt8) : Nat → List Token → Prop :=
  Closes (·.isSymbol open_) (·.isSymbol close) Token.isEnd

theorem depthAfter_eq (d : Nat) (t : Token) :
    depthAfter open_ close ((d + 1 : Nat) : Int) t =
      (depthBehind (·.isSymbol open_) (·.isSymbol close) (d + 1) t : Nat) := by
  unfold depthAfter depthBehind
  split
  · omega
  split
  · omega
  · rfl

/-- A block is its first token and what a loop at depth 1 takes. -/
theorem block_iff (h : open_ ≠ close) :
    Block open_ close ts ↔
      ∃ o us, ts = o :: us ∧ o.isSymbol open_ = true ∧ ClosesAt open_ close 1 us := by
  constructor
  · rintro ⟨hopen, hinner, hclose⟩
    exact ⟨_, _, rfl, hopen, (closes_one_iff (brackets h)).mpr ⟨_, _, rfl, hinner, hclose⟩⟩
  · rintro ⟨o, us, rfl, hopen, hcloses⟩
    obtain ⟨inner, c, rfl, hinner, hclose⟩ := (closes_one_iff (brackets h)).mp hcloses
    exact .mk hopen hinner hclose

theorem bracedTurn_eq_ok {d : Nat} {r : Int × Bool} :
    bracedTurn filename d ts = .ok (r, rest) ↔
      d = 0 ∧ r = (0, false) ∧ rest = ts ∨
        ∃ e t, d = e + 1 ∧ ts = t :: rest ∧ t.isEnd = false ∧
          r = (((depthBehind (·.isSymbol openBrace) (·.isSymbol closeBrace) (e + 1) t : Nat) : Int),
            true) := by
  unfold bracedTurn
  cases d with
  | zero =>
      rw [if_neg (by decide)]
      constructor
      · intro h
        cases h
        exact .inl ⟨rfl, rfl, rfl⟩
      · rintro (⟨-, rfl, rfl⟩ | ⟨e, _, he, -⟩)
        · rfl
        · cases he
  | succ e =>
      rw [if_pos (by omega), peek_bind_eq_ok]
      constructor
      · rintro ⟨t, us, rfl, h⟩
        split at h
        · exact absurd h error_ne_ok
        · next ht =>
            cases h
            refine .inr ⟨e, t, rfl, rfl, by simpa using ht, ?_⟩
            rw [depthAfter_eq]
      · rintro (⟨he, -⟩ | ⟨e', t, he, rfl, ht, rfl⟩)
        · cases he
        · obtain rfl := Nat.succ.inj he
          refine ⟨t, rest, rfl, ?_⟩
          rw [ht, ← depthAfter_eq]
          rfl

theorem advances_bracedTurn : Advances (bracedTurn filename) := by
  intro d ts d' rest h
  unfold bracedTurn at h
  split at h
  · rw [peek_bind_eq_ok] at h
    obtain ⟨t, us, rfl, h⟩ := h
    split at h
    · exact absurd h error_ne_ok
    · cases h
      exact Nat.lt_succ_self _
  · cases h

theorem bracedLoop_eq_ok {d : Nat} {r : Int} :
    whileLoop (bracedTurn filename) d ts = .ok (r, rest) ↔
      r = 0 ∧ ∃ front, ts = front ++ rest ∧ ClosesAt openBrace closeBrace d front := by
  constructor
  · intro h
    induction hlen : ts.length using Nat.strongRecOn generalizing ts d with
    | ind n ih =>
        rw [whileLoop_eq advances_bracedTurn, bind_eq_ok] at h
        obtain ⟨out, rest₁, hturn, hmore⟩ := h
        rcases bracedTurn_eq_ok.mp hturn with ⟨rfl, rfl, rfl⟩ | ⟨e, t, rfl, rfl, ht, rfl⟩
        · cases hmore
          exact ⟨rfl, [], rfl, .done⟩
        · obtain ⟨hr, front, rfl, hfront⟩ :=
            ih rest₁.length (by rw [← hlen, List.length_cons]; omega) hmore rfl
          exact ⟨hr, t :: front, rfl, .step ht hfront⟩
  · rintro ⟨rfl, front, rfl, hcloses⟩
    induction hcloses with
    | done =>
        rw [whileLoop_eq advances_bracedTurn, bind_eq_ok]
        exact ⟨_, _, bracedTurn_eq_ok.mpr (.inl ⟨rfl, rfl, rfl⟩), rfl⟩
    | @step e t ts hend _ ih =>
        rw [whileLoop_eq advances_bracedTurn, bind_eq_ok]
        exact ⟨_, _, bracedTurn_eq_ok.mpr (.inr ⟨e, t, rfl, rfl, hend, rfl⟩), ih⟩

theorem accepts_skipBracedBlock :
    Accepts (skipBracedBlock filename) fun _ front _ => Block openBrace closeBrace front := by
  intro ts u rest
  simp only [block_iff (show openBrace ≠ closeBrace by decide)]
  unfold skipBracedBlock
  rw [bind_eq_ok]
  constructor
  · rintro ⟨_, _, ho, h⟩
    obtain ⟨o, rfl, hopen⟩ := expectSymbol_eq_ok.mp ho
    rw [bind_eq_ok] at h
    obtain ⟨_, _, hloop, h⟩ := h
    cases h
    obtain ⟨-, front, rfl, hfront⟩ := bracedLoop_eq_ok.mp hloop
    exact ⟨o :: front, rfl, o, front, rfl, hopen, hfront⟩
  · rintro ⟨_, rfl, o, front, rfl, hopen, hfront⟩
    refine ⟨(), front ++ rest, expectSymbol_eq_ok.mpr ⟨o, rfl, hopen⟩, ?_⟩
    exact bind_eq_ok.mpr ⟨0, rest, bracedLoop_eq_ok.mpr ⟨rfl, front, rfl, hfront⟩, rfl⟩

theorem balancedTurn_eq_ok {d : Int} {r : Int × Bool} :
    balancedTurn filename open_ close d ts = .ok (r, rest) ↔
      ∃ t, ts = t :: rest ∧ t.isEnd = false ∧
        r = (depthAfter open_ close d t, decide (depthAfter open_ close d t > 0)) := by
  unfold balancedTurn
  rw [peek_bind_eq_ok]
  constructor
  · rintro ⟨t, us, rfl, h⟩
    split at h
    · exact absurd h error_ne_ok
    · next ht =>
        cases h
        exact ⟨t, rfl, by simpa using ht, rfl⟩
  · rintro ⟨t, rfl, ht, rfl⟩
    refine ⟨t, rest, rfl, ?_⟩
    rw [ht]
    rfl

theorem advances_balancedTurn : Advances (balancedTurn filename open_ close) := by
  intro d ts d' rest h
  obtain ⟨t, rfl, -⟩ := balancedTurn_eq_ok.mp h
  exact Nat.lt_succ_self _

theorem balancedLoop_eq_ok {d : Nat} {r : Int} :
    whileLoop (balancedTurn filename open_ close) (d + 1 : Nat) ts = .ok (r, rest) ↔
      r = 0 ∧ ∃ front, ts = front ++ rest ∧ ClosesAt open_ close (d + 1) front := by
  constructor
  · intro h
    induction hlen : ts.length using Nat.strongRecOn generalizing ts d with
    | ind n ih =>
        rw [whileLoop_eq advances_balancedTurn, bind_eq_ok] at h
        obtain ⟨out, rest₁, hturn, hmore⟩ := h
        obtain ⟨t, rfl, ht, rfl⟩ := balancedTurn_eq_ok.mp hturn
        rw [depthAfter_eq] at hmore
        cases hdepth : depthBehind (·.isSymbol open_) (·.isSymbol close) (d + 1) t with
        | zero =>
            rw [hdepth] at hmore
            cases hmore
            exact ⟨rfl, [t], rfl, .step ht (hdepth ▸ .done)⟩
        | succ e =>
            have hpos : ((e + 1 : Nat) : Int) > 0 := by omega
            rw [hdepth, decide_eq_true hpos] at hmore
            obtain ⟨hr, front, rfl, hfront⟩ :=
              ih rest₁.length (by rw [← hlen, List.length_cons]; omega) hmore rfl
            exact ⟨hr, t :: front, rfl, .step ht (hdepth ▸ hfront)⟩
  · rintro ⟨rfl, front, rfl, hcloses⟩
    generalize hdepth : d + 1 = depth at hcloses
    induction hcloses generalizing d with
    | done => cases hdepth
    | @step e t ts hend tail ih =>
        obtain rfl := Nat.succ.inj hdepth
        rw [whileLoop_eq advances_balancedTurn, bind_eq_ok]
        refine ⟨_, _, balancedTurn_eq_ok.mpr ⟨t, rfl, hend, rfl⟩, ?_⟩
        rw [depthAfter_eq]
        cases hdepth : depthBehind (·.isSymbol open_) (·.isSymbol close) (d + 1) t with
        | zero =>
            rw [hdepth] at tail
            rw [closes_zero_iff.mp tail]
            rfl
        | succ e =>
            have hpos : ((e + 1 : Nat) : Int) > 0 := by omega
            have hloop := ih hdepth.symm
            rw [hdepth] at hloop
            rw [decide_eq_true hpos]
            exact hloop

/-- `skip_balanced`, at an opening bracket. -/
theorem skipBalanced_eq_ok {t : Token} {us : List Token} {u : Unit} (h : open_ ≠ close)
    (hclose : (if open_ = openBrace then closeBrace else closeBracket) = close)
    (ht : t.isSymbol open_ = true) :
    skipBalanced filename (t :: us) = .ok (u, rest) ↔
      ∃ front, t :: us = front ++ rest ∧ Block open_ close front := by
  have hhead : t.text.headD 0 = open_ := by rw [(isSymbol_iff.mp ht).2]; rfl
  have hfirst : depthAfter open_ close 0 t = 1 := by
    unfold depthAfter
    rw [if_pos ht]
    rfl
  simp only [block_iff h]
  unfold skipBalanced
  rw [peek_bind_eq_ok]
  constructor
  · rintro ⟨_, _, heq, hrun⟩
    obtain ⟨rfl, rfl⟩ := List.cons.inj heq
    rw [hhead] at hrun
    simp only [hclose] at hrun
    obtain ⟨_, _, hloop, hrun⟩ := bind_eq_ok.mp hrun
    cases hrun
    rw [whileLoop_eq advances_balancedTurn, bind_eq_ok] at hloop
    obtain ⟨out, rest₁, hturn, hmore⟩ := hloop
    obtain ⟨_, heq, -, rfl⟩ := balancedTurn_eq_ok.mp hturn
    obtain ⟨rfl, rfl⟩ := List.cons.inj heq
    rw [hfirst] at hmore
    obtain ⟨-, front, rfl, hfront⟩ := (balancedLoop_eq_ok (d := 0)).mp hmore
    exact ⟨t :: front, rfl, t, front, rfl, ht, hfront⟩
  · rintro ⟨_, heq, _, front, rfl, -, hfront⟩
    obtain ⟨rfl, rfl⟩ := List.cons.inj heq
    refine ⟨t, front ++ rest, rfl, ?_⟩
    rw [hhead]
    simp only [hclose]
    refine bind_eq_ok.mpr ⟨0, rest, ?_, rfl⟩
    rw [whileLoop_eq advances_balancedTurn, bind_eq_ok]
    refine ⟨_, _, balancedTurn_eq_ok.mpr ⟨t, rfl, not_end_of_isSymbol ht, rfl⟩, ?_⟩
    rw [hfirst]
    exact (balancedLoop_eq_ok (d := 0)).mpr ⟨rfl, front, rfl, hfront⟩

end

theorem braces_ne : openBrace ≠ closeBrace := by decide

theorem brackets_ne : openBracket ≠ closeBracket := by decide

/-! ## Statements -/

/-- What `skip_until_semicolon` takes in a turn: it would take a semicolon too. -/
theorem accepts_skipItem (u : Unit) : Accepts (skipItem filename u) fun _ front _ =>
    Piece front ∨ ∃ t : Token, front = [t] ∧ t.isSymbol semicolon = true := by
  intro ts v rest
  unfold skipItem
  rw [peek_bind_eq_ok]
  constructor
  · rintro ⟨t, us, rfl, h⟩
    split at h
    · exact absurd h error_ne_ok
    next hend =>
    split at h
    · next hopen =>
        rcases Bool.or_eq_true .. |>.mp hopen with hopen | hopen
        · obtain ⟨front, heq, hfront⟩ :=
            (skipBalanced_eq_ok braces_ne (if_pos rfl) hopen).mp h
          exact ⟨front, heq, .inl (.braces hfront)⟩
        · obtain ⟨front, heq, hfront⟩ :=
            (skipBalanced_eq_ok brackets_ne (if_neg (by decide)) hopen).mp h
          exact ⟨front, heq, .inl (.brackets hfront)⟩
    · next hopen =>
        cases h
        rw [Bool.or_eq_true, not_or] at hopen
        refine ⟨[t], rfl, ?_⟩
        by_cases hs : t.isSymbol semicolon = true
        · exact .inr ⟨t, rfl, hs⟩
        · exact .inl (.token (by simpa using hend) (by simpa using hopen.1)
            (by simpa using hopen.2) (by simpa using hs))
  · have hblock : ∀ {open_ close : UInt8} {front : List Token}, open_ ≠ close →
        (if open_ = openBrace then closeBrace else closeBracket) = close →
        (∀ t : Token, t.isSymbol open_ = true →
          (t.isSymbol openBrace || t.isSymbol openBracket) = true) →
        Block open_ close front → ∃ t us, front ++ rest = t :: us ∧
          (if t.isEnd = true then error filename (lit "expected ';'")
            else if (t.isSymbol openBrace || t.isSymbol openBracket) = true then
              skipBalanced filename
            else do
              let _ ← advance
              pure ()) (t :: us) = .ok (v, rest) := by
      intro open_ close front hne hclose hor hfront
      obtain ⟨t, us, rfl, ht, -⟩ := (block_iff hne).mp hfront
      refine ⟨t, us ++ rest, rfl, ?_⟩
      rw [not_end_of_isSymbol ht, if_neg (by decide), if_pos (hor t ht)]
      exact (skipBalanced_eq_ok hne hclose ht).mpr ⟨_, rfl, hfront⟩
    rintro ⟨front, rfl, (hbraces | hbrackets | ⟨hend, hbrace, hbracket, -⟩) | ⟨t, rfl, ht⟩⟩
    · exact hblock braces_ne (if_pos rfl) (fun t ht => by rw [ht]; rfl) hbraces
    · exact hblock brackets_ne (if_neg (by decide)) (fun t ht => by rw [ht, Bool.or_true]) hbrackets
    · refine ⟨_, _, rfl, ?_⟩
      rw [hend, hbrace, hbracket]
      rfl
    · refine ⟨t, rest, rfl, ?_⟩
      rw [not_end_of_isSymbol ht, not_isSymbol_of_ne ht (show _ ≠ openBrace by decide),
        not_isSymbol_of_ne ht (show _ ≠ openBracket by decide)]
      rfl

theorem Piece.first {ts : List Token} (h : Piece ts) :
    ∃ t us, ts = t :: us ∧ t.isSymbol semicolon = false := by
  cases h with
  | braces h =>
      obtain ⟨t, us, rfl, ht, -⟩ := (block_iff (by decide)).mp h
      exact ⟨t, us, rfl, not_isSymbol_of_ne ht (by decide)⟩
  | brackets h =>
      obtain ⟨t, us, rfl, ht, -⟩ := (block_iff (by decide)).mp h
      exact ⟨t, us, rfl, not_isSymbol_of_ne ht (by decide)⟩
  | token _ _ _ hsemicolon => exact ⟨_, [], rfl, hsemicolon⟩

theorem accepts_skipUntilSemicolon :
    Accepts (skipUntilSemicolon filename) fun _ front _ => Statement front := by
  have hpieces : ∀ u, Accepts (until_ (isSymbol semicolon) (skipItem filename) u) fun _ front rest =>
      Steps (fun (_ _ : Unit) ts => Piece ts) () () front ∧
        ∃ t ts, rest = t :: ts ∧ t.isSymbol semicolon = true := by
    refine accepts_until (fun _ => True) accepts_skipItem ?_ (fun _ _ _ _ _ h _ => .inl h)
      (fun _ _ => trivial) fun _ _ _ h => ?_
    · rintro _ _ front rest (h | ⟨t, rfl, ht⟩) hhead
      · exact h
      · rw [hhead t rfl] at ht
        cases ht
    · obtain ⟨t, us, rfl, ht⟩ := h.first
      exact ⟨t, us, rfl, ht, trivial⟩
  intro ts u rest
  unfold skipUntilSemicolon
  rw [bind_eq_ok]
  constructor
  · rintro ⟨_, _, hloop, h⟩
    obtain ⟨front, rfl, hfront, s, us, rfl, hs⟩ := (hpieces _ _ _ _).mp hloop
    cases h
    exact ⟨front ++ [s], by simp, .mk hfront hs⟩
  · rintro ⟨_, rfl, @⟨pieces, s, hpieces', hs⟩⟩
    refine ⟨(), s :: rest, (hpieces _ _ _ _).mpr ⟨pieces, by simp, hpieces', s, rest, rfl, hs⟩, ?_⟩
    rfl

/-! ## Options -/

theorem fieldOptionsTurn_eq_ok {d : Int} {r : Int × Bool} :
    fieldOptionsTurn d ts = .ok (r, rest) ↔ ∃ t, ts = t :: rest ∧
      (depthAfter openBracket closeBracket d t > 0 ∧ (∃ u us, rest = u :: us ∧
        r = (depthAfter openBracket closeBracket d t, !u.isEnd)) ∨
      ¬ depthAfter openBracket closeBracket d t > 0 ∧
        r = (depthAfter openBracket closeBracket d t, false)) := by
  unfold fieldOptionsTurn
  rw [advance_bind_eq_ok]
  constructor
  · rintro ⟨t, us, rfl, h⟩
    split at h
    · next hdepth =>
        rw [peek_bind_eq_ok] at h
        obtain ⟨u, vs, rfl, h⟩ := h
        cases h
        exact ⟨t, rfl, .inl ⟨hdepth, u, vs, rfl, rfl⟩⟩
    · next hdepth =>
        cases h
        exact ⟨t, rfl, .inr ⟨hdepth, rfl⟩⟩
  · rintro ⟨t, rfl, h⟩
    refine ⟨t, rest, rfl, ?_⟩
    rcases h with ⟨hdepth, u, us, rfl, rfl⟩ | ⟨hdepth, rfl⟩
    · simp only [if_pos hdepth]
      rfl
    · simp only [if_neg hdepth]
      rfl

theorem advances_fieldOptionsTurn : Advances fieldOptionsTurn := by
  intro d ts d' rest h
  obtain ⟨t, rfl, -⟩ := fieldOptionsTurn_eq_ok.mp h
  exact Nat.lt_succ_self _

/-- Unless the loop stops at the end, it has taken a block. -/
theorem closes_of_fieldOptionsLoop {d : Nat} {r : Int} {t : Token} (ht : t.isEnd = false)
    (hrest : ∀ u ∈ rest.head?, u.isEnd = false)
    (h : whileLoop fieldOptionsTurn (d + 1 : Nat) (t :: ts) = .ok (r, rest)) :
    ∃ front, t :: ts = front ++ rest ∧ ClosesAt openBracket closeBracket (d + 1) front := by
  induction hlen : ts.length using Nat.strongRecOn generalizing ts d t with
  | ind n ih =>
      rw [whileLoop_eq advances_fieldOptionsTurn, bind_eq_ok] at h
      obtain ⟨out, rest₁, hturn, hmore⟩ := h
      obtain ⟨_, heq, hout⟩ := fieldOptionsTurn_eq_ok.mp hturn
      obtain ⟨rfl, rfl⟩ := List.cons.inj heq
      rw [depthAfter_eq] at hout
      cases hdepth : depthBehind (·.isSymbol openBracket) (·.isSymbol closeBracket) (d + 1) t with
      | zero =>
          rw [hdepth] at hout
          rcases hout with ⟨hpos, -⟩ | ⟨-, rfl⟩
          · exact absurd hpos (by decide)
          · cases hmore
            exact ⟨[t], rfl, .step ht (hdepth ▸ .done)⟩
      | succ e =>
          rw [hdepth] at hout
          rcases hout with ⟨-, u, us, rfl, rfl⟩ | ⟨hneg, -⟩
          · cases hu : u.isEnd with
            | true =>
                rw [hu] at hmore
                cases hmore
                rw [hrest u rfl] at hu
                cases hu
            | false =>
                rw [hu] at hmore
                obtain ⟨front, heq, hfront⟩ :=
                  ih us.length (by rw [← hlen, List.length_cons]; omega) hu hmore rfl
                exact ⟨t :: front, by rw [heq]; rfl, .step ht (hdepth ▸ hfront)⟩
          · exact absurd (by omega) hneg

theorem fieldOptionsLoop_of_closes {d : Nat} {front : List Token}
    (h : ClosesAt openBracket closeBracket (d + 1) front) :
    whileLoop fieldOptionsTurn (d + 1 : Nat) (front ++ rest) = .ok (0, rest) := by
  generalize hdepth : d + 1 = depth at h
  induction h generalizing d with
  | done => cases hdepth
  | @step e t ts hend tail ih =>
      obtain rfl := Nat.succ.inj hdepth
      rw [whileLoop_eq advances_fieldOptionsTurn, bind_eq_ok]
      cases hdepth : depthBehind (·.isSymbol openBracket) (·.isSymbol closeBracket) (d + 1) t with
      | zero =>
          rw [hdepth] at tail
          rw [closes_zero_iff.mp tail]
          refine ⟨(0, false), rest, fieldOptionsTurn_eq_ok.mpr ⟨t, rfl, ?_⟩, rfl⟩
          rw [depthAfter_eq, hdepth]
          exact .inr ⟨by decide, rfl⟩
      | succ e =>
          have hnext := ih hdepth.symm
          rw [hdepth] at tail
          cases tail with
          | @step _ u us hu _ =>
              refine ⟨((e + 1 : Nat), true), u :: us ++ rest,
                fieldOptionsTurn_eq_ok.mpr ⟨t, rfl, ?_⟩, ?_⟩
              · rw [depthAfter_eq, hdepth]
                exact .inl ⟨by omega, u, us ++ rest, rfl, by rw [hu]; rfl⟩
              · rw [hdepth] at hnext
                exact hnext

/-- The options of an enum value, and the semicolon behind them. -/
theorem skippedOptions_eq_ok {ts rest : List Token} :
    (∃ v us, skipFieldOptionsIfPresent ts = .ok (v, us) ∧
      ∃ s, us = s :: rest ∧ s.isSymbol semicolon = true) ↔
      ∃ options s, ts = options ++ s :: rest ∧ SkippedOptions options ∧
        s.isSymbol semicolon = true := by
  have hfirst : ∀ {t : Token}, t.isSymbol openBracket = true →
      depthAfter openBracket closeBracket 0 t = 1 := fun {t} ht => by
    unfold depthAfter
    rw [if_pos ht]
    rfl
  unfold skipFieldOptionsIfPresent
  constructor
  · rintro ⟨_, _, h, s, rfl, hs⟩
    rw [peek_bind_eq_ok] at h
    obtain ⟨t, us, rfl, h⟩ := h
    split at h
    · next hopen =>
        rw [bind_eq_ok] at h
        obtain ⟨_, _, hloop, h⟩ := h
        cases h
        rw [whileLoop_eq advances_fieldOptionsTurn, bind_eq_ok] at hloop
        obtain ⟨out, rest₁, hturn, hmore⟩ := hloop
        obtain ⟨_, heq, hout⟩ := fieldOptionsTurn_eq_ok.mp hturn
        obtain ⟨rfl, rfl⟩ := List.cons.inj heq
        rw [hfirst hopen] at hout
        rcases hout with ⟨-, u, vs, rfl, rfl⟩ | ⟨hneg, -⟩
        · cases hu : u.isEnd with
          | true =>
              rw [hu] at hmore
              cases hmore
              rw [not_end_of_isSymbol hs] at hu
              cases hu
          | false =>
              rw [hu] at hmore
              have hnext : ∀ v ∈ (s :: rest).head?, v.isEnd = false := by
                intro v hv
                obtain rfl := Option.some.inj hv
                exact not_end_of_isSymbol hs
              obtain ⟨front, heq, hfront⟩ := closes_of_fieldOptionsLoop (d := 0) hu hnext hmore
              refine ⟨t :: front, s, by rw [heq]; rfl, .some ?_, hs⟩
              exact (block_iff (by decide)).mpr ⟨t, front, rfl, hopen, hfront⟩
        · exact absurd (by decide) hneg
    · cases h
      exact ⟨[], s, rfl, .none, hs⟩
  · rintro ⟨options, s, rfl, hoptions, hs⟩
    refine ⟨(), s :: rest, ?_, s, rfl, hs⟩
    cases hoptions with
    | none =>
        refine peek_bind_eq_ok.mpr ⟨s, rest, rfl, ?_⟩
        rw [not_isSymbol_of_ne hs (show _ ≠ openBracket by decide)]
        rfl
    | some h =>
        obtain ⟨t, us, rfl, hopen, hcloses⟩ := (block_iff (by decide)).mp h
        refine peek_bind_eq_ok.mpr ⟨t, us ++ s :: rest, rfl, ?_⟩
        rw [if_pos hopen]
        refine bind_eq_ok.mpr ⟨0, s :: rest, ?_, rfl⟩
        rw [whileLoop_eq advances_fieldOptionsTurn, bind_eq_ok]
        have hloop := @fieldOptionsLoop_of_closes (s :: rest) 0 us hcloses
        cases hcloses with
        | @step _ u vs hu _ =>
            refine ⟨(1, true), u :: vs ++ s :: rest, fieldOptionsTurn_eq_ok.mpr ⟨t, rfl, ?_⟩, hloop⟩
            rw [hfirst hopen]
            exact .inl ⟨by decide, u, vs ++ s :: rest, rfl, by rw [hu]; rfl⟩

theorem accepts_skipOptionValue :
    Accepts (skipOptionValue filename) fun _ front _ => OptionValue front := by
  intro ts u rest
  unfold skipOptionValue
  rw [peek_bind_eq_ok]
  constructor
  · rintro ⟨t, us, rfl, h⟩
    split at h
    · obtain ⟨front, heq, hfront⟩ := (accepts_skipBracedBlock _ _ _).mp h
      exact ⟨front, heq, .block hfront⟩
    split at h
    · next hkind =>
        cases h
        exact ⟨[t], rfl, .token hkind⟩
    · exact absurd h error_ne_ok
  · rintro ⟨front, rfl, hfront⟩
    cases hfront with
    | @token t hkind =>
        have hother : t.isSymbol openBrace = false := by
          rcases hkind with hkind | hkind | hkind
          all_goals exact not_isSymbol_of_kind hkind nofun
        refine ⟨t, rest, rfl, ?_⟩
        rw [hother, if_neg (by decide), if_pos hkind]
        rfl
    | block h =>
        obtain ⟨t, us, rfl, ht, -⟩ := (block_iff (by decide)).mp h
        refine ⟨t, us ++ rest, rfl, ?_⟩
        rw [if_pos ht]
        exact (accepts_skipBracedBlock _ _ _).mpr ⟨_, rfl, h⟩

theorem accepts_parseOptionName :
    Accepts (parseOptionName filename) fun r front _ => OptionName r.1 r.2 front := by
  intro ts r rest
  unfold parseOptionName
  rw [peek_bind_eq_ok]
  constructor
  · rintro ⟨t, us, rfl, h⟩
    split at h
    · next hopen =>
        simp only [advance_bind_eq_ok, expectIdentifier_bind_eq_ok, expectSymbol_bind_eq_ok] at h
        obtain ⟨_, _, heq, name, _, rfl, hkind, c, _, rfl, hclose, h⟩ := h
        obtain ⟨rfl, rfl⟩ := List.cons.inj heq
        cases h
        exact ⟨[t, name, c], rfl, .parenthesized hopen hkind hclose⟩
    · rw [expectIdentifier_bind_eq_ok] at h
      obtain ⟨name, _, heq, hkind, h⟩ := h
      cases h
      exact ⟨[name], heq, .plain hkind⟩
  · rintro ⟨front, rfl, hfront⟩
    obtain ⟨parenthesized, name⟩ := r
    cases hfront with
    | @plain t hkind =>
        refine ⟨t, rest, rfl, ?_⟩
        rw [not_isSymbol_of_kind hkind nofun, if_neg (by decide), expectIdentifier_bind_eq_ok]
        exact ⟨t, rest, rfl, hkind, rfl⟩
    | @parenthesized o t c hopen hkind hclose =>
        refine ⟨o, t :: c :: rest, rfl, ?_⟩
        rw [if_pos hopen]
        simp only [advance_bind_eq_ok, expectIdentifier_bind_eq_ok, expectSymbol_bind_eq_ok]
        exact ⟨o, _, rfl, t, _, rfl, hkind, c, rest, rfl, hclose, rfl⟩

/-- A comma is taken wherever there is one. -/
theorem accepts_skipComma : Accepts skipComma fun _ front rest =>
    OptionalComma front ∧ (front = [] → ∃ t us, rest = t :: us ∧ t.isSymbol comma = false) := by
  intro ts u rest
  unfold skipComma
  rw [peek_bind_eq_ok]
  constructor
  · rintro ⟨t, us, rfl, h⟩
    split at h
    · next hcomma =>
        cases h
        exact ⟨[t], rfl, .some hcomma, nofun⟩
    · next hcomma =>
        cases h
        exact ⟨[], rfl, .none, fun _ => ⟨t, us, rfl, by simpa using hcomma⟩⟩
  · rintro ⟨front, rfl, hfront, hnext⟩
    cases hfront with
    | none =>
        obtain ⟨t, us, rfl, ht⟩ := hnext rfl
        refine ⟨t, us, rfl, ?_⟩
        rw [ht]
        rfl
    | @some t ht =>
        refine ⟨t, rest, rfl, ?_⟩
        rw [if_pos ht]
        rfl

theorem OptionName.first {parenthesized : Bool} {name : CString} {ts : List Token}
    (h : OptionName parenthesized name ts) :
    ∃ t us, ts = t :: us ∧ (t.isSymbol openParen = true ∨ t.kind = .identifier) := by
  cases h with
  | plain h => exact ⟨_, _, rfl, .inr h⟩
  | parenthesized hopen _ _ => exact ⟨_, _, rfl, .inl hopen⟩

theorem Assignment.first {f f' : ProtoField} {ts : List Token} (h : Assignment f f' ts) :
    ∃ t us, ts = t :: us ∧ (t.isSymbol openParen = true ∨ t.kind = .identifier) := by
  cases h with
  | packed hname _ _ =>
      obtain ⟨t, us, rfl, ht⟩ := hname.first
      exact ⟨t, _, rfl, ht⟩
  | other hname _ _ _ =>
      obtain ⟨t, us, rfl, ht⟩ := hname.first
      exact ⟨t, _, rfl, ht⟩

theorem accepts_parseFieldOption (f : ProtoField) :
    Accepts (parseFieldOption filename f) fun f' front rest => ∃ body comma,
      front = body ++ comma ∧ Assignment f f' body ∧ OptionalComma comma ∧
        (comma = [] → ∃ t us, rest = t :: us ∧ t.isSymbol Protogen.comma = false) := by
  intro ts f' rest
  unfold parseFieldOption
  rw [peek_bind_eq_ok]
  constructor
  · rintro ⟨t, us, rfl, h⟩
    split at h
    · exact absurd h error_ne_ok
    rw [accepts_parseOptionName.bind_eq_ok] at h
    obtain ⟨⟨parenthesized, optName⟩, name, _, heq, hname, h⟩ := h
    rw [heq]
    rw [expectSymbol_bind_eq_ok] at h
    obtain ⟨eq, _, rfl, he, h⟩ := h
    split at h
    · next hpacked =>
        simp only [Bool.and_eq_true, Bool.not_eq_true', decide_eq_true_eq] at hpacked
        obtain ⟨rfl, rfl⟩ := hpacked
        rw [bind_eq_ok] at h
        obtain ⟨b, _, hrun, h⟩ := h
        obtain ⟨v, rfl, hv⟩ := parseBool_eq_ok.mp hrun
        rw [accepts_skipComma.bind_eq_ok] at h
        obtain ⟨_, comma, _, rfl, ⟨hcomma, hnext⟩, h⟩ := h
        cases h
        exact ⟨name ++ [eq, v] ++ comma, by simp, _, comma, rfl, .packed hname he hv, hcomma, hnext⟩
    · next hother =>
        simp only [Bool.and_eq_true, Bool.not_eq_true', decide_eq_true_eq] at hother
        simp only [accepts_skipOptionValue.bind_eq_ok, accepts_skipComma.bind_eq_ok] at h
        obtain ⟨_, value, _, rfl, hvalue, _, comma, _, rfl, ⟨hcomma, hnext⟩, h⟩ := h
        cases h
        exact ⟨name ++ eq :: value ++ comma, by simp, _, comma, rfl,
          .other hname hother he hvalue, hcomma, hnext⟩
  · rintro ⟨_, rfl, body, comma, rfl, hbody, hcomma, hnext⟩
    obtain ⟨t, us, hfirst, ht⟩ := hbody.first
    have hend : t.isEnd = false := by
      rcases ht with ht | ht
      · exact not_end_of_isSymbol ht
      · exact not_end_of_kind ht nofun
    refine ⟨t, us ++ comma ++ rest, by rw [hfirst]; simp, ?_⟩
    rw [hend, if_neg (by decide)]
    have hts : t :: (us ++ comma ++ rest) = body ++ (comma ++ rest) := by rw [hfirst]; simp
    rw [hts]
    cases hbody with
    | @packed eq v name b hname he hv =>
        rw [List.append_assoc, accepts_parseOptionName.bind_eq_ok]
        refine ⟨(false, lit "packed"), name, _, rfl, hname, ?_⟩
        refine expectSymbol_bind_eq_ok.mpr ⟨eq, _, rfl, he, ?_⟩
        refine bind_eq_ok.mpr ⟨b, comma ++ rest, parseBool_eq_ok.mpr ⟨v, rfl, hv⟩, ?_⟩
        exact accepts_skipComma.bind_eq_ok.mpr ⟨(), comma, rest, rfl, ⟨hcomma, hnext⟩, rfl⟩
    | @other parenthesized optName eq name value hname hother he hvalue =>
        rw [List.append_assoc, accepts_parseOptionName.bind_eq_ok]
        refine ⟨(parenthesized, optName), name, _, rfl, hname, ?_⟩
        refine expectSymbol_bind_eq_ok.mpr ⟨eq, _, rfl, he, ?_⟩
        rw [if_neg (by simpa using hother), accepts_skipOptionValue.bind_eq_ok]
        refine ⟨(), value, comma ++ rest, rfl, hvalue, ?_⟩
        exact accepts_skipComma.bind_eq_ok.mpr ⟨(), comma, rest, rfl, ⟨hcomma, hnext⟩, rfl⟩

/-- An option starts with no other symbol than an opening parenthesis. -/
theorem Assignment.first_ne {f f' : ProtoField} {ts : List Token} (h : Assignment f f' ts) :
    ∃ t us, ts = t :: us ∧ ∀ d, openParen ≠ d → t.isSymbol d = false := by
  obtain ⟨t, us, rfl, ht⟩ := h.first
  refine ⟨t, us, rfl, fun d hd => ?_⟩
  rcases ht with ht | ht
  · exact not_isSymbol_of_ne ht hd
  · exact not_isSymbol_of_kind ht nofun

theorem accepts_parseFieldOptions (f : ProtoField) :
    Accepts (parseFieldOptions filename f) fun f' front rest => FieldOptions f f' front ∧
      (front = [] → ∃ t us, rest = t :: us ∧ t.isSymbol openBracket = false) := by
  -- an option ends with a comma where there is one, and none starts with a comma
  have hoptions : ∀ f, Accepts (until_ (isSymbol closeBracket) (parseFieldOption filename) f)
      fun f' front rest => Steps FieldOption f f' front ∧
        ∃ t ts, rest = t :: ts ∧ t.isSymbol closeBracket = true := by
    refine accepts_until (fun t => t.isSymbol comma = false) accepts_parseFieldOption ?_ ?_ ?_ ?_
    · rintro f f' _ rest ⟨body, c, rfl, hbody, hcomma, -⟩ -
      exact .mk hbody hcomma
    · rintro f f' _ t rest ⟨hbody, hcomma⟩ ht
      exact ⟨_, _, rfl, hbody, hcomma, fun _ => ⟨t, rest, rfl, ht⟩⟩
    · intro t ht
      exact not_isSymbol_of_ne ht (by decide)
    · rintro f f' _ ⟨hbody, hcomma⟩
      obtain ⟨t, us, rfl, ht⟩ := hbody.first_ne
      exact ⟨t, _, rfl, ht _ (by decide), ht _ (by decide)⟩
  intro ts f' rest
  unfold parseFieldOptions
  rw [peek_bind_eq_ok]
  constructor
  · rintro ⟨t, us, rfl, h⟩
    split at h
    · next hopen =>
        simp only [advance_bind_eq_ok, (hoptions _).bind_eq_ok, expectSymbol_bind_eq_ok] at h
        obtain ⟨_, _, heq, _, options, _, rfl, ⟨hoptions, -⟩, c, _, rfl, hclose, h⟩ := h
        obtain ⟨rfl, rfl⟩ := List.cons.inj heq
        cases h
        exact ⟨t :: (options ++ [c]), by simp, .some hopen hoptions hclose, nofun⟩
    · next hopen =>
        cases h
        exact ⟨[], rfl, .none, fun _ => ⟨t, us, rfl, by simpa using hopen⟩⟩
  · rintro ⟨_, rfl, hfront, hnext⟩
    cases hfront with
    | none =>
        obtain ⟨t, us, rfl, ht⟩ := hnext rfl
        refine ⟨t, us, rfl, ?_⟩
        rw [ht]
        rfl
    | @some _ o c options hopen hoptions' hclose =>
        refine ⟨o, options ++ c :: rest, by simp, ?_⟩
        rw [if_pos hopen]
        simp only [advance_bind_eq_ok, (hoptions _).bind_eq_ok, expectSymbol_bind_eq_ok]
        exact ⟨o, _, rfl, f', options, c :: rest, rfl, ⟨hoptions', c, rest, rfl, hclose⟩, c, rest, rfl,
          hclose, rfl⟩

/-! ## Enums -/

theorem Statement.exists_cons {ts : List Token} (h : Statement ts) : ∃ t us, ts = t :: us := by
  cases h with
  | mk _ _ => exact List.exists_cons_of_ne_nil (List.append_ne_nil_of_right_ne_nil _ nofun)

theorem accepts_parseEnumItem (e : ProtoEnum) :
    Accepts (parseEnumItem filename e) fun e' front _ => EnumItem e e' front := by
  intro ts e' rest
  unfold parseEnumItem
  rw [peek_bind_eq_ok]
  constructor
  · rintro ⟨t, us, rfl, h⟩
    split at h
    · exact absurd h error_ne_ok
    split at h
    · next hword =>
        rw [accepts_skipUntilSemicolon.bind_eq_ok] at h
        obtain ⟨_, front, _, heq, hfront, h⟩ := h
        cases h
        rw [Bool.or_eq_true] at hword
        refine ⟨front, heq, ?_⟩
        obtain ⟨u, vs, rfl⟩ := hfront.exists_cons
        obtain ⟨rfl, -⟩ := List.cons.inj heq
        exact .skipped hword hfront
    · next hword =>
        rw [Bool.or_eq_true, not_or] at hword
        simp only [expectIdentifier_bind_eq_ok, expectSymbol_bind_eq_ok,
          parseInteger_bind_eq_ok] at h
        obtain ⟨name, _, heq, hkind, eq, _, rfl, he, number, _, n, rfl, hn, h⟩ := h
        obtain ⟨rfl, rfl⟩ := List.cons.inj heq
        rw [bind_eq_ok] at h
        obtain ⟨_, _, hoptions, h⟩ := h
        rw [bind_eq_ok] at h
        obtain ⟨_, _, hs, h⟩ := h
        cases h
        obtain ⟨options, s, rfl, hoptions, hs⟩ :=
          skippedOptions_eq_ok.mp ⟨_, _, hoptions, expectSymbol_eq_ok.mp hs⟩
        exact ⟨t :: eq :: number :: (options ++ [s]), by simp,
          .value hkind (by simpa using hword.1) (by simpa using hword.2) he hn hoptions hs⟩
  · rintro ⟨_, rfl, hfront⟩
    cases hfront with
    | @value name eq number s options n hkind hoption hreserved he hn hoptions hs =>
        refine ⟨name, eq :: number :: (options ++ [s]) ++ rest, rfl, ?_⟩
        rw [not_end_of_kind hkind nofun, hoption, hreserved]
        obtain ⟨_, us, hskip, hsemi⟩ := skippedOptions_eq_ok.mpr ⟨options, s, rfl, hoptions, hs⟩
        refine expectIdentifier_bind_eq_ok.mpr ⟨name, _, rfl, hkind, ?_⟩
        refine expectSymbol_bind_eq_ok.mpr ⟨eq, _, rfl, he, ?_⟩
        refine parseInteger_bind_eq_ok.mpr ⟨number, options ++ s :: rest, n, by simp, hn, ?_⟩
        refine bind_eq_ok.mpr ⟨(), us, hskip, ?_⟩
        exact bind_eq_ok.mpr ⟨(), rest, expectSymbol_eq_ok.mpr hsemi, rfl⟩
    | @skipped t us hword hstatement =>
        refine ⟨t, us ++ rest, rfl, ?_⟩
        have hend : t.isEnd = false := by
          rcases hword with hword | hword
          all_goals exact not_end_of_isIdent hword
        rw [hend, if_neg (by decide), if_pos (Bool.or_eq_true .. |>.mpr hword)]
        exact accepts_skipUntilSemicolon.bind_eq_ok.mpr
          ⟨(), t :: us, rest, rfl, hstatement, rfl⟩

/-- A loop over items up to a closing brace, none of which starts with one. -/
theorem accepts_untilBrace {item : α → TokenReader α} {G : α → α → List Token → Prop}
    (hitem : ∀ a, Accepts (item a) fun a' front _ => G a a' front)
    (hfirst : ∀ a a' front, G a a' front →
      ∃ t us, front = t :: us ∧ t.kind = .identifier) (a : α) :
    Accepts (until_ (isSymbol closeBrace) item a) fun a' front rest =>
      Steps G a a' front ∧ ∃ t ts, rest = t :: ts ∧ t.isSymbol closeBrace = true := by
  refine accepts_until (fun _ => True) hitem (fun _ _ _ _ h _ => h) (fun _ _ _ _ _ h _ => h)
    (fun _ _ => trivial) (fun a a' front h => ?_) a
  obtain ⟨t, us, rfl, ht⟩ := hfirst a a' front h
  exact ⟨t, us, rfl, not_isSymbol_of_kind ht nofun, trivial⟩

/-- A word, a name, and items in braces. -/
theorem accepts_declaration {item : α → TokenReader α} {G : α → α → List Token → Prop}
    (hitem : ∀ a, Accepts (item a) fun a' front _ => G a a' front)
    (hfirst : ∀ a a' front, G a a' front →
      ∃ t us, front = t :: us ∧ t.kind = .identifier) {start : CString → α}
    {add : α → ProtoFile} {file : ProtoFile} :
    (do
      let _ ← advance
      let name ← expectIdentifier filename
      expectSymbol filename openBrace
      let a ← until_ (isSymbol closeBrace) item (start name)
      expectSymbol filename closeBrace
      pure (add a) : TokenReader ProtoFile) ts = .ok (file, rest) ↔
      ∃ word name o items c a, ts = word :: name :: o :: (items ++ c :: rest) ∧
        name.kind = .identifier ∧ o.isSymbol openBrace = true ∧
        Steps G (start name.text) a items ∧ c.isSymbol closeBrace = true ∧ file = add a := by
  simp only [advance_bind_eq_ok, expectIdentifier_bind_eq_ok, expectSymbol_bind_eq_ok,
    (accepts_untilBrace hitem hfirst _).bind_eq_ok]
  constructor
  · rintro ⟨word, _, rfl, name, _, rfl, hkind, o, _, rfl, hopen, a, items, _, rfl, ⟨hitems, -⟩, c, _,
      rfl, hclose, h⟩
    cases h
    exact ⟨word, name, o, items, c, a, rfl, hkind, hopen, hitems, hclose, rfl⟩
  · rintro ⟨word, name, o, items, c, a, rfl, hkind, hopen, hitems, hclose, rfl⟩
    exact ⟨word, _, rfl, name, _, rfl, hkind, o, _, rfl, hopen, a, items, c :: rest, rfl,
      ⟨hitems, c, rest, rfl, hclose⟩, c, rest, rfl, hclose, rfl⟩

/-! ## Messages -/

/-- The option of a message, with the word before it. -/
theorem parseMessageOption_eq_ok {m m' : ProtoMessageDef} {t : Token} :
    parseMessageOption filename m (t :: ts) = .ok (m', rest) ↔
      ∃ front, ts = front ++ rest ∧ MessageOption m m' front := by
  unfold parseMessageOption
  simp only [advance_bind_eq_ok, accepts_parseOptionName.bind_eq_ok, expectSymbol_bind_eq_ok]
  constructor
  · rintro ⟨_, _, heq, ⟨parenthesized, optName⟩, name, _, rfl, hname, eq, _, rfl, he, h⟩
    obtain ⟨rfl, rfl⟩ := List.cons.inj heq
    split at h
    · next hid =>
        obtain rfl : optName = lit "id" := hid
        simp only [parseInteger_bind_eq_ok, expectSymbol_bind_eq_ok] at h
        obtain ⟨number, _, n, rfl, hn, s, _, rfl, hs, h⟩ := h
        cases h
        exact ⟨name ++ [eq, number, s], by simp, .id hname he hn hs⟩
    next hid =>
    split at h
    · next hbase =>
        obtain rfl : optName = lit "base_class" := hbase
        simp only [expectString_bind_eq_ok, expectSymbol_bind_eq_ok] at h
        obtain ⟨v, _, rfl, hkind, s, _, rfl, hs, h⟩ := h
        cases h
        exact ⟨name ++ [eq, v, s], by simp, .baseClass hname he hkind hs⟩
    · next hbase =>
        simp only [accepts_skipOptionValue.bind_eq_ok, expectSymbol_bind_eq_ok] at h
        obtain ⟨_, value, _, rfl, hvalue, s, _, rfl, hs, h⟩ := h
        cases h
        exact ⟨name ++ eq :: (value ++ [s]), by simp, .other hname hid hbase he hvalue hs⟩
  · rintro ⟨front, rfl, hfront⟩
    cases hfront with
    | @id parenthesized name eq number s n hname he hn hs =>
        refine ⟨t, _, rfl, (parenthesized, lit "id"), name, eq :: number :: s :: rest, by simp, hname,
          eq, _, rfl, he, ?_⟩
        refine parseInteger_bind_eq_ok.mpr ⟨number, s :: rest, n, rfl, hn, ?_⟩
        exact expectSymbol_bind_eq_ok.mpr ⟨s, rest, rfl, hs, rfl⟩
    | @baseClass parenthesized name eq v s hname he hkind hs =>
        refine ⟨t, _, rfl, (parenthesized, lit "base_class"), name, eq :: v :: s :: rest, by simp,
          hname, eq, _, rfl, he, ?_⟩
        refine expectString_bind_eq_ok.mpr ⟨v, s :: rest, rfl, hkind, ?_⟩
        exact expectSymbol_bind_eq_ok.mpr ⟨s, rest, rfl, hs, rfl⟩
    | @other parenthesized optName name value eq s hname hid hbase he hvalue hs =>
        refine ⟨t, _, rfl, (parenthesized, optName), name, eq :: (value ++ s :: rest), by simp, hname,
          eq, _, rfl, he, ?_⟩
        simp only [if_neg hid, if_neg hbase]
        refine accepts_skipOptionValue.bind_eq_ok.mpr ⟨(), value, s :: rest, rfl, hvalue, ?_⟩
        exact expectSymbol_bind_eq_ok.mpr ⟨s, rest, rfl, hs, rfl⟩

/-- The label and the type of a field. -/
theorem labelledType_eq_ok {repeated : Bool} {typeName : CString} :
    (∃ us, parseLabel ts = .ok (repeated, us) ∧
      ∃ t, us = t :: rest ∧ t.kind = .identifier ∧ t.text = typeName) ↔
      ∃ front, ts = front ++ rest ∧ LabelledType repeated typeName front := by
  have hno : ∀ {t : Token}, (t.isIdent (lit "optional") || t.isIdent (lit "required")) = true →
      t.isIdent (lit "repeated") = false := by
    intro t h
    rw [Bool.or_eq_true] at h
    rcases h with h | h
    all_goals exact not_isIdent h (by decide)
  unfold parseLabel
  constructor
  · rintro ⟨_, h, t, rfl, hkind, rfl⟩
    rw [peek_bind_eq_ok] at h
    obtain ⟨l, us, rfl, h⟩ := h
    split at h
    · next hrepeated =>
        cases h
        refine ⟨[l, t], rfl, ?_⟩
        have htype := LabelledType.labelled (l := l) (t := t)
          (by rw [Token.isLabel, hrepeated]; rfl) hkind
        rwa [hrepeated] at htype
    split at h
    · next hsingle =>
        cases h
        refine ⟨[l, t], rfl, ?_⟩
        have htype := LabelledType.labelled (l := l) (t := t)
          (by rw [Token.isLabel, Bool.or_assoc, hsingle, Bool.or_true]) hkind
        rwa [hno hsingle] at htype
    · next hrepeated hsingle =>
        cases h
        refine ⟨[t], rfl, .single hkind ?_⟩
        rw [Token.isLabel, Bool.or_assoc]
        simp only [Bool.not_eq_true] at hrepeated hsingle
        rw [hrepeated, hsingle]
        rfl
  · rintro ⟨front, rfl, hfront⟩
    cases hfront with
    | @single t hkind hlabel =>
        refine ⟨t :: rest, peek_bind_eq_ok.mpr ⟨t, rest, rfl, ?_⟩, t, rfl, hkind, rfl⟩
        rw [Token.isLabel, Bool.or_assoc, Bool.or_eq_false_iff] at hlabel
        rw [hlabel.1, hlabel.2]
        rfl
    | @labelled l t hlabel hkind =>
        refine ⟨t :: rest, peek_bind_eq_ok.mpr ⟨l, t :: rest, rfl, ?_⟩, t, rfl, hkind, rfl⟩
        cases hrepeated : l.isIdent (lit "repeated") with
        | true => rfl
        | false =>
            rw [Token.isLabel, Bool.or_assoc, hrepeated, Bool.false_or] at hlabel
            rw [if_neg (by decide), if_pos hlabel]
            rfl

theorem accepts_parseField (m : ProtoMessageDef) :
    Accepts (parseField filename m) fun m' front _ => ∃ repeated typeName type name eq number n
      options f s, front = type ++ name :: eq :: number :: (options ++ [s]) ∧
      LabelledType repeated typeName type ∧ name.kind = .identifier ∧ eq.isSymbol equals = true ∧
      number.IsInteger n ∧
      FieldOptions { name := name.text, typeName, number := toInt n, repeated } f options ∧
      s.isSymbol semicolon = true ∧ m' = { m with fields := m.fields ++ [f] } := by
  intro ts m' rest
  unfold parseField
  rw [bind_eq_ok]
  constructor
  · rintro ⟨repeated, _, hlabel, h⟩
    rw [bind_eq_ok] at h
    obtain ⟨typeName, _, hrun, h⟩ := h
    obtain ⟨type, rfl, htype⟩ :=
      labelledType_eq_ok.mp ⟨_, hlabel, expectIdentifier_eq_ok.mp hrun⟩
    simp only [expectIdentifier_bind_eq_ok, expectSymbol_bind_eq_ok, parseInteger_bind_eq_ok,
      (accepts_parseFieldOptions _).bind_eq_ok] at h
    obtain ⟨name, _, rfl, hkind, eq, _, rfl, he, number, _, n, rfl, hn, f, options, _, rfl,
      ⟨hoptions, -⟩, s, _, rfl, hs, h⟩ := h
    cases h
    exact ⟨type ++ name :: eq :: number :: (options ++ [s]), by simp, repeated, typeName, type, name,
      eq, number, n, options, f, s, rfl, htype, hkind, he, hn, hoptions, hs, rfl⟩
  · rintro ⟨_, rfl, repeated, typeName, type, name, eq, number, n, options, f, s, rfl, htype, hkind,
      he, hn, hoptions, hs, rfl⟩
    rw [List.append_assoc]
    obtain ⟨us, hlabel, htypeToken⟩ := labelledType_eq_ok.mpr
      ⟨type, rfl, htype⟩
    refine ⟨repeated, us, hlabel, ?_⟩
    refine bind_eq_ok.mpr ⟨typeName, _, expectIdentifier_eq_ok.mpr htypeToken, ?_⟩
    refine expectIdentifier_bind_eq_ok.mpr ⟨name, _, rfl, hkind, ?_⟩
    refine expectSymbol_bind_eq_ok.mpr ⟨eq, _, rfl, he, ?_⟩
    refine parseInteger_bind_eq_ok.mpr ⟨number, _, n, rfl, hn, ?_⟩
    refine (accepts_parseFieldOptions _).bind_eq_ok.mpr ⟨f, options, s :: rest, by simp,
      ⟨hoptions, fun _ => ⟨s, rest, rfl, not_isSymbol_of_ne hs (by decide)⟩⟩, ?_⟩
    exact expectSymbol_bind_eq_ok.mpr ⟨s, rest, rfl, hs, rfl⟩

theorem LabelledType.first {repeated : Bool} {typeName : CString} {ts : List Token}
    (h : LabelledType repeated typeName ts) : ∃ t us, ts = t :: us ∧ t.kind = .identifier := by
  cases h with
  | single h _ => exact ⟨_, _, rfl, h⟩
  | labelled hlabel _ =>
      simp only [Token.isLabel, Bool.or_eq_true] at hlabel
      rcases hlabel with (h | h) | h
      all_goals exact ⟨_, _, rfl, (isIdent_iff.mp h).1⟩

theorem accepts_parseMessageMember (m : ProtoMessageDef) :
    Accepts (parseMessageMember filename m) fun m' front _ => MessageMember m m' front := by
  intro ts m' rest
  unfold parseMessageMember
  rw [peek_bind_eq_ok]
  constructor
  · rintro ⟨t, us, rfl, h⟩
    split at h
    · exact absurd h error_ne_ok
    split at h
    · next hoption =>
        obtain ⟨front, rfl, hfront⟩ := parseMessageOption_eq_ok.mp h
        exact ⟨t :: front, rfl, .option hoption hfront⟩
    next hoption =>
    split at h
    · next hreserved =>
        rw [accepts_skipUntilSemicolon.bind_eq_ok] at h
        obtain ⟨_, front, _, heq, hfront, h⟩ := h
        cases h
        refine ⟨front, heq, ?_⟩
        obtain ⟨u, vs, rfl⟩ := hfront.exists_cons
        obtain ⟨rfl, -⟩ := List.cons.inj heq
        exact .reserved hreserved hfront
    next hreserved =>
    split at h
    · exact absurd h error_ne_ok
    next hunsupported =>
    obtain ⟨front, heq, repeated, typeName, type, name, eq, number, n, options, f, s, rfl, htype,
      hkind, he, hn, hoptions, hs, rfl⟩ := (accepts_parseField _ _ _ _).mp h
    refine ⟨_, heq, .field htype (fun u hu => ?_) hkind he hn hoptions hs⟩
    obtain ⟨v, vs, rfl, -⟩ := htype.first
    obtain rfl := Option.some.inj hu
    obtain ⟨rfl, -⟩ := List.cons.inj heq
    simp only [Bool.not_eq_true] at hoption hreserved hunsupported
    rw [Token.startsField, hoption, hreserved, hunsupported]
    rfl
  · rintro ⟨_, rfl, hfront⟩
    cases hfront with
    | @option _ t us hoption h =>
        refine ⟨t, us ++ rest, rfl, ?_⟩
        rw [not_end_of_isIdent hoption, if_neg (by decide), if_pos hoption]
        exact parseMessageOption_eq_ok.mpr ⟨us, rfl, h⟩
    | @reserved t us hreserved hstatement =>
        refine ⟨t, us ++ rest, rfl, ?_⟩
        rw [not_end_of_isIdent hreserved, if_neg (by decide),
          not_isIdent hreserved (show _ ≠ lit "option" by decide), if_neg (by decide),
          if_pos hreserved]
        exact accepts_skipUntilSemicolon.bind_eq_ok.mpr
          ⟨(), t :: us, rest, rfl, hstatement, rfl⟩
    | @field repeated typeName type options name eq number s n f htype hstarts hkind he hn hoptions
        hs =>
        obtain ⟨t, us, heq, ht⟩ := htype.first
        have hstart := hstarts t (by rw [heq]; rfl)
        simp only [Token.startsField, Bool.and_eq_true, Bool.not_eq_true'] at hstart
        have hrun := (@accepts_parseField filename m _ _ rest).mpr
          ⟨_, rfl, repeated, typeName, type, name, eq, number, n, options, f, s, rfl, htype, hkind, he,
            hn, hoptions, hs, rfl⟩
        rw [heq] at hrun ⊢
        refine ⟨t, _, rfl, ?_⟩
        rw [not_end_of_kind ht nofun, if_neg (by decide), hstart.1.1, if_neg (by decide), hstart.1.2,
          if_neg (by decide), hstart.2, if_neg (by decide)]
        exact hrun

/-! ## Files -/

theorem EnumItem.first {e e' : ProtoEnum} {ts : List Token} (h : EnumItem e e' ts) :
    ∃ t us, ts = t :: us ∧ t.kind = .identifier := by
  cases h with
  | value hname _ _ _ _ _ _ => exact ⟨_, _, rfl, hname⟩
  | skipped h _ =>
      rcases h with h | h
      all_goals exact ⟨_, _, rfl, (isIdent_iff.mp h).1⟩

theorem MessageMember.first {m m' : ProtoMessageDef} {ts : List Token}
    (h : MessageMember m m' ts) : ∃ t us, ts = t :: us ∧ t.kind = .identifier := by
  cases h with
  | option h _ => exact ⟨_, _, rfl, (isIdent_iff.mp h).1⟩
  | reserved h _ => exact ⟨_, _, rfl, (isIdent_iff.mp h).1⟩
  | field htype _ _ _ _ _ _ =>
      obtain ⟨t, us, rfl, ht⟩ := htype.first
      exact ⟨t, _, rfl, ht⟩

/-- A word, and one token of a kind before the semicolon. -/
theorem parseImport_eq_ok {file file' : ProtoFile} :
    parseImport filename file ts = .ok (file', rest) ↔
      ∃ word path s, ts = word :: path :: s :: rest ∧ path.kind = .string ∧
        s.isSymbol semicolon = true ∧ file' = file := by
  unfold parseImport
  simp only [advance_bind_eq_ok, expectString_bind_eq_ok, expectSymbol_bind_eq_ok]
  constructor
  · rintro ⟨word, _, rfl, path, _, rfl, hpath, s, _, rfl, hs, h⟩
    cases h
    exact ⟨word, path, s, rfl, hpath, hs, rfl⟩
  · rintro ⟨word, path, s, rfl, hpath, hs, rfl⟩
    exact ⟨word, _, rfl, path, _, rfl, hpath, s, rest, rfl, hs, rfl⟩

theorem parsePackage_eq_ok {file file' : ProtoFile} :
    parsePackage filename file ts = .ok (file', rest) ↔
      ∃ word name s, ts = word :: name :: s :: rest ∧ name.kind = .identifier ∧
        s.isSymbol semicolon = true ∧ file' = { file with package := name.text } := by
  unfold parsePackage
  simp only [advance_bind_eq_ok, expectIdentifier_bind_eq_ok, expectSymbol_bind_eq_ok]
  constructor
  · rintro ⟨word, _, rfl, name, _, rfl, hname, s, _, rfl, hs, h⟩
    cases h
    exact ⟨word, name, s, rfl, hname, hs, rfl⟩
  · rintro ⟨word, name, s, rfl, hname, hs, rfl⟩
    exact ⟨word, _, rfl, name, _, rfl, hname, s, rest, rfl, hs, rfl⟩

theorem parseSyntax_eq_ok {file file' : ProtoFile} :
    parseSyntax filename file ts = .ok (file', rest) ↔
      ∃ word eq version s, ts = word :: eq :: version :: s :: rest ∧ eq.isSymbol equals = true ∧
        version.kind = .string ∧
        (version.text = lit "proto3" ∨ version.text = lit "proto2") ∧
        s.isSymbol semicolon = true ∧ file' = file := by
  unfold parseSyntax
  simp only [advance_bind_eq_ok, expectSymbol_bind_eq_ok, expectString_bind_eq_ok]
  constructor
  · rintro ⟨word, _, rfl, eq, _, rfl, he, version, _, rfl, hkind, h⟩
    split at h
    · next hversion =>
        rw [expectSymbol_bind_eq_ok] at h
        obtain ⟨s, _, rfl, hs, h⟩ := h
        cases h
        exact ⟨word, eq, version, s, rfl, he, hkind, hversion, hs, rfl⟩
    · exact absurd h error_ne_ok
  · rintro ⟨word, eq, version, s, rfl, he, hkind, hversion, hs, rfl⟩
    refine ⟨word, _, rfl, eq, _, rfl, he, version, _, rfl, hkind, ?_⟩
    rw [if_pos hversion, expectSymbol_bind_eq_ok]
    exact ⟨s, rest, rfl, hs, rfl⟩

theorem parseSkippedBlock_eq_ok {file file' : ProtoFile} :
    parseSkippedBlock filename file ts = .ok (file', rest) ↔
      ∃ word name block, ts = word :: name :: (block ++ rest) ∧ name.kind = .identifier ∧
        Block openBrace closeBrace block ∧ file' = file := by
  unfold parseSkippedBlock
  simp only [advance_bind_eq_ok, expectIdentifier_bind_eq_ok, accepts_skipBracedBlock.bind_eq_ok]
  constructor
  · rintro ⟨word, _, rfl, name, _, rfl, hname, _, block, _, rfl, hblock, h⟩
    cases h
    exact ⟨word, name, block, rfl, hname, hblock, rfl⟩
  · rintro ⟨word, name, block, rfl, hname, hblock, rfl⟩
    exact ⟨word, _, rfl, name, _, rfl, hname, (), block, rest, rfl, hblock, rfl⟩

theorem accepts_parseTopLevel (file : ProtoFile) :
    Accepts (parseTopLevel filename file) fun file' front _ => TopLevel file file' front := by
  intro ts file' rest
  unfold parseTopLevel
  rw [peek_bind_eq_ok]
  constructor
  · rintro ⟨t, us, rfl, h⟩
    split at h
    · next hword =>
        obtain ⟨word, eq, version, s, heq, he, hkind, hversion, hs, rfl⟩ := parseSyntax_eq_ok.mp h
        obtain ⟨rfl, rfl⟩ := List.cons.inj heq
        exact ⟨[t, eq, version, s], rfl, .syntax_ hword he hkind hversion hs⟩
    split at h
    · next hword =>
        obtain ⟨word, name, s, heq, hname, hs, rfl⟩ := parsePackage_eq_ok.mp h
        obtain ⟨rfl, rfl⟩ := List.cons.inj heq
        exact ⟨[t, name, s], rfl, .package hword hname hs⟩
    split at h
    · next hword =>
        obtain ⟨word, path, s, heq, hpath, hs, rfl⟩ := parseImport_eq_ok.mp h
        obtain ⟨rfl, rfl⟩ := List.cons.inj heq
        exact ⟨[t, path, s], rfl, .import_ hword hpath hs⟩
    split at h
    · next hword =>
        rw [accepts_skipUntilSemicolon.bind_eq_ok] at h
        obtain ⟨_, front, _, heq, hfront, h⟩ := h
        cases h
        refine ⟨front, heq, ?_⟩
        obtain ⟨u, vs, rfl⟩ := hfront.exists_cons
        obtain ⟨rfl, -⟩ := List.cons.inj heq
        exact .option hword hfront
    split at h
    · next hword =>
        obtain ⟨word, name, o, items, c, e, heq, hname, hopen, hitems, hclose, rfl⟩ :=
          (accepts_declaration accepts_parseEnumItem fun _ _ _ h => h.first).mp h
        obtain ⟨rfl, rfl⟩ := List.cons.inj heq
        exact ⟨t :: name :: o :: (items ++ [c]), by simp,
          .enum hword hname hopen hitems hclose⟩
    split at h
    · next hword =>
        obtain ⟨word, name, o, members, c, m, heq, hname, hopen, hmembers, hclose, rfl⟩ :=
          (accepts_declaration accepts_parseMessageMember fun _ _ _ h => h.first).mp h
        obtain ⟨rfl, rfl⟩ := List.cons.inj heq
        exact ⟨t :: name :: o :: (members ++ [c]), by simp,
          .message hword hname hopen hmembers hclose⟩
    split at h
    · next hword =>
        obtain ⟨word, name, block, heq, hname, hblock, rfl⟩ := parseSkippedBlock_eq_ok.mp h
        obtain ⟨rfl, rfl⟩ := List.cons.inj heq
        exact ⟨t :: name :: block, rfl, .skipped (.inl hword) hname hblock⟩
    split at h
    · next hword =>
        obtain ⟨word, name, block, heq, hname, hblock, rfl⟩ := parseSkippedBlock_eq_ok.mp h
        obtain ⟨rfl, rfl⟩ := List.cons.inj heq
        exact ⟨t :: name :: block, rfl, .skipped (.inr hword) hname hblock⟩
    · exact absurd h error_ne_ok
  · rintro ⟨_, rfl, hfront⟩
    cases hfront with
    | @syntax_ word eq version s hword he hkind hversion hs =>
        refine ⟨word, [eq, version, s] ++ rest, rfl, ?_⟩
        rw [if_pos hword]
        exact parseSyntax_eq_ok.mpr
          ⟨word, eq, version, s, rfl, he, hkind, hversion, hs, rfl⟩
    | @package word name s hword hname hs =>
        refine ⟨word, [name, s] ++ rest, rfl, ?_⟩
        simp only [not_isIdent hword (show _ ≠ lit "syntax" by decide), if_pos hword]
        exact parsePackage_eq_ok.mpr ⟨word, name, s, rfl, hname, hs, rfl⟩
    | @import_ word path s hword hpath hs =>
        refine ⟨word, [path, s] ++ rest, rfl, ?_⟩
        simp only [not_isIdent hword (show _ ≠ lit "syntax" by decide),
          not_isIdent hword (show _ ≠ lit "package" by decide), if_pos hword]
        exact parseImport_eq_ok.mpr ⟨word, path, s, rfl, hpath, hs, rfl⟩
    | @option t us hword hstatement =>
        refine ⟨t, us ++ rest, rfl, ?_⟩
        simp only [not_isIdent hword (show _ ≠ lit "syntax" by decide),
          not_isIdent hword (show _ ≠ lit "package" by decide),
          not_isIdent hword (show _ ≠ lit "import" by decide), if_pos hword]
        exact accepts_skipUntilSemicolon.bind_eq_ok.mpr
          ⟨(), t :: us, rest, rfl, hstatement, rfl⟩
    | @enum word name o c e items hword hname hopen hitems hclose =>
        refine ⟨word, name :: o :: (items ++ [c]) ++ rest, rfl, ?_⟩
        simp only [not_isIdent hword (show _ ≠ lit "syntax" by decide),
          not_isIdent hword (show _ ≠ lit "package" by decide),
          not_isIdent hword (show _ ≠ lit "import" by decide),
          not_isIdent hword (show _ ≠ lit "option" by decide), if_pos hword]
        exact (accepts_declaration accepts_parseEnumItem fun _ _ _ h => h.first).mpr
          ⟨word, name, o, items, c, e, by simp, hname, hopen, hitems, hclose, rfl⟩
    | @message word name o c m members hword hname hopen hmembers hclose =>
        refine ⟨word, name :: o :: (members ++ [c]) ++ rest, rfl, ?_⟩
        simp only [not_isIdent hword (show _ ≠ lit "syntax" by decide),
          not_isIdent hword (show _ ≠ lit "package" by decide),
          not_isIdent hword (show _ ≠ lit "import" by decide),
          not_isIdent hword (show _ ≠ lit "option" by decide),
          not_isIdent hword (show _ ≠ lit "enum" by decide), if_pos hword]
        exact (accepts_declaration accepts_parseMessageMember fun _ _ _ h => h.first).mpr
          ⟨word, name, o, members, c, m, by simp, hname, hopen, hmembers, hclose, rfl⟩
    | @skipped word name block hword hname hblock =>
        refine ⟨word, name :: block ++ rest, rfl, ?_⟩
        have hrun : parseSkippedBlock filename file (word :: (name :: block ++ rest)) =
            .ok (file, rest) :=
          parseSkippedBlock_eq_ok.mpr ⟨word, name, block, rfl, hname, hblock, rfl⟩
        rcases hword with hword | hword
        all_goals
          simp only [not_isIdent hword (show _ ≠ lit "syntax" by decide),
            not_isIdent hword (show _ ≠ lit "package" by decide),
            not_isIdent hword (show _ ≠ lit "import" by decide),
            not_isIdent hword (show _ ≠ lit "option" by decide),
            not_isIdent hword (show _ ≠ lit "enum" by decide),
            not_isIdent hword (show _ ≠ lit "message" by decide)]
        · rw [if_pos hword]
          exact hrun
        · simp only [not_isIdent hword (show _ ≠ lit "service" by decide), if_pos hword]
          exact hrun

theorem TopLevel.first {file file' : ProtoFile} {ts : List Token} (h : TopLevel file file' ts) :
    ∃ t us, ts = t :: us ∧ t.kind = .identifier := by
  cases h with
  | syntax_ h _ _ _ _ => exact ⟨_, _, rfl, (isIdent_iff.mp h).1⟩
  | package h _ _ => exact ⟨_, _, rfl, (isIdent_iff.mp h).1⟩
  | import_ h _ _ => exact ⟨_, _, rfl, (isIdent_iff.mp h).1⟩
  | option h _ => exact ⟨_, _, rfl, (isIdent_iff.mp h).1⟩
  | enum h _ _ _ _ => exact ⟨_, _, rfl, (isIdent_iff.mp h).1⟩
  | message h _ _ _ _ => exact ⟨_, _, rfl, (isIdent_iff.mp h).1⟩
  | skipped h _ _ =>
      rcases h with h | h
      all_goals exact ⟨_, _, rfl, (isIdent_iff.mp h).1⟩

/-- The loop over the declarations stops at the end, and only there. -/
theorem run_eq_ok_iff {file file' : ProtoFile} :
    run filename file ts = .ok (file', rest) ↔
      ∃ front, ts = front ++ rest ∧ Steps TopLevel file file' front ∧
        ∃ e us, rest = e :: us ∧ e.isEnd = true := by
  refine accepts_until (fun _ => True) accepts_parseTopLevel (fun _ _ _ _ h _ => h)
    (fun _ _ _ _ _ h _ => h) (fun _ _ => trivial) (fun a a' front h => ?_) file ts file' rest
  obtain ⟨t, us, rfl, ht⟩ := h.first
  exact ⟨t, us, rfl, not_end_of_kind ht nofun, trivial⟩

theorem parseInto_eq_ok_iff {file file' : ProtoFile} :
    parseInto filename ts file = .ok file' ↔ ∃ rest, run filename file ts = .ok (file', rest) := by
  unfold parseInto
  constructor
  · intro h
    split at h
    · next heq =>
        cases h
        exact ⟨_, heq⟩
    · cases h
  · rintro ⟨rest, hrun⟩
    rw [hrun]

/-- The parser returns a file if and only if the tokens up to the end declare
what it adds. -/
theorem parse_exact (filename : CString) (tokens : List Token) (file file' : ProtoFile) :
    parseInto filename tokens file = .ok file' ↔
      ∃ front e rest, tokens = front ++ e :: rest ∧ e.isEnd = true ∧
        Steps TopLevel file file' front := by
  rw [parseInto_eq_ok_iff]
  constructor
  · rintro ⟨_, hrun⟩
    obtain ⟨front, rfl, hfront, e, rest, rfl, he⟩ := run_eq_ok_iff.mp hrun
    exact ⟨front, e, rest, rfl, he, hfront⟩
  · rintro ⟨front, e, rest, rfl, he, hfront⟩
    exact ⟨e :: rest, run_eq_ok_iff.mpr ⟨front, rfl, hfront, e, rest, rfl, he⟩⟩

end EsphomeApi.Protogen
