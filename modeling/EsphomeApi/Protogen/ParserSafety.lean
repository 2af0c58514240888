/-
EsphomeApi.Protogen.ParserSafety — the parser looks at no token behind the
last, and it comes to an end.

`toks_` is indexed without a check. Every `advance` stands behind a test that
the token is no `End`, and every turn of a loop takes a token off or is the
last one; `Leaves` of `Library.TokenParser` carries both from function to
function. What is thrown blames a token (`Blames`).
-/
import EsphomeApi.Protogen.Parser

namespace EsphomeApi.Protogen

open Library Library.TokenParser

/-- The error stands at one of the tokens. -/
def Blames (filename : CString) (toks : List Token) (e : RuntimeError) : Prop :=
  ∃ t ∈ toks, ∃ msg, e = parserError filename t msg

section

variable {filename : CString} {toks : List Token}

/-- The parser comes to a result without a fault, and takes off `k` tokens. -/
abbrev Reads (filename : CString) (toks : List Token) {α : Type} (k : Nat)
    (p : TokenReader α) : Prop :=
  Leaves Token.isEnd toks (Blames filename toks) k p

variable {α : Type} {k : Nat} {t : Token} {ts : List Token}

theorem reads_error (msg : CString) :
    Reads filename toks k (error filename msg : TokenReader α) :=
  Leaves.peek fun t _ h => fine_raise ⟨t, h.mem, msg, rfl⟩

/-- Nothing but the token itself, taken off. -/
theorem reads_token {a : α} (h : Left Token.isEnd toks (t :: ts)) (ht : t.isEnd = false) :
    Fine (Blames filename toks)
      (fun _ rest => Left Token.isEnd toks rest ∧ rest.length + 1 ≤ (t :: ts).length)
      ((do
        let _ ← advance
        pure a : TokenReader α) (t :: ts)) :=
  h.advance_bind ht fun _ => leaves_pure

/-- A loop over items up to a token for which a test holds. -/
theorem fine_untilToken (test : Token → Bool) {stop : TokenReader Bool}
    (hstop : stop = do
      let t ← peek
      pure (test t)) {item : α → TokenReader α}
    (hitem : ∀ a, Reads filename toks 1 (item a)) (a : α) (h : Left Token.isEnd toks ts) :
    Fine (Blames filename toks) (fun _ rest => Left Token.isEnd toks rest ∧
      rest.length ≤ ts.length ∧ ∃ t rest', rest = t :: rest' ∧ test t = true)
      (until_ stop item a ts) := by
  refine fine_until (fun ts hts => ?_) hitem a h
  obtain ⟨t, rest, rfl⟩ := hts.exists_cons
  rw [hstop]
  exact fine_pure ⟨rfl, fun ht => ⟨t, rest, rfl, ht⟩⟩

theorem reads_untilSymbol {c : UInt8} {item : α → TokenReader α}
    (hitem : ∀ a, Reads filename toks 1 (item a)) (a : α) :
    Reads filename toks 0 (until_ (isSymbol c) item a) := fun _ h =>
  (fine_untilToken (·.isSymbol c) rfl hitem a h).mono fun _ _ hrest => ⟨hrest.1, hrest.2.1⟩

theorem reads_expectSymbol (c : UInt8) : Reads filename toks 1 (expectSymbol filename c) :=
  Leaves.peek fun t ts h => by
    by_cases ht : t.isSymbol c = true
    · rw [if_pos ht]
      exact reads_token h (not_end_of_isSymbol ht)
    · rw [if_neg ht]
      exact reads_error _ _ h

theorem reads_expectIdentifier : Reads filename toks 1 (expectIdentifier filename) :=
  Leaves.peek fun t ts h => by
    by_cases ht : t.kind = .identifier
    · rw [if_pos ht]
      exact h.advance_bind (not_end_of_kind ht nofun) fun _ => leaves_pure
    · rw [if_neg ht]
      exact reads_error _ _ h

theorem reads_expectString (msg : CString) : Reads filename toks 1 (expectString filename msg) :=
  Leaves.peek fun t ts h => by
    by_cases ht : t.kind = .string
    · rw [if_pos ht]
      exact h.advance_bind (not_end_of_kind ht nofun) fun _ => leaves_pure
    · rw [if_neg ht]
      exact reads_error _ _ h

theorem reads_parseInteger : Reads filename toks 1 (parseInteger filename) :=
  Leaves.peek fun t ts h => by
    by_cases ht : t.kind = .number
    · rw [if_pos ht]
      refine h.advance_bind (not_end_of_kind ht nofun) fun u => ?_
      cases stoll u.text with
      | none => exact reads_error _
      | some n => exact leaves_pure
    · rw [if_neg ht]
      exact reads_error _ _ h

theorem reads_parseBool : Reads filename toks 1 (parseBool filename) :=
  Leaves.peek fun t ts h => by
    by_cases htrue : t.isIdent (lit "true") = true
    · rw [if_pos htrue]
      exact reads_token h (not_end_of_isIdent htrue)
    by_cases hfalse : t.isIdent (lit "false") = true
    · rw [if_neg htrue, if_pos hfalse]
      exact reads_token h (not_end_of_isIdent hfalse)
    · rw [if_neg htrue, if_neg hfalse]
      exact reads_error _ _ h

/-! ## Skipping -/

theorem reads_skipBracedBlock : Reads filename toks 1 (skipBracedBlock filename) := by
  refine (reads_expectSymbol openBrace).bind fun _ => Leaves.bind (k := 0) (l := 0) ?_
    fun _ => leaves_pure
  refine leaves_loop (fun depth ts hts => ?_) 1
  unfold bracedTurn
  by_cases hdepth : depth > 0
  · rw [if_pos hdepth]
    refine Leaves.peek (k := 1) (fun t ts h => ?_) ts hts |>.mono fun r rest hrest =>
      ⟨hrest.1, ?_⟩
    · by_cases ht : t.isEnd = true
      · rw [if_pos ht]
        exact reads_error _ _ h
      · rw [if_neg ht]
        exact reads_token h (by simpa using ht)
    · have := hrest.2
      split <;> omega
  · rw [if_neg hdepth]
    exact fine_pure ⟨hts, Nat.le_refl _⟩

theorem reads_skipBalanced : Reads filename toks 1 (skipBalanced filename) := by
  refine Leaves.peek fun t ts h => ?_
  refine Leaves.bind (k := 1) (l := 0) (leaves_loop (fun depth ts hts => ?_) 0)
    (fun _ => leaves_pure) _ h
  refine Leaves.peek (k := 1) (fun t ts h => ?_) ts hts |>.mono fun r rest hrest =>
    ⟨hrest.1, ?_⟩
  · by_cases ht : t.isEnd = true
    · rw [if_pos ht]
      exact reads_error _ _ h
    · rw [if_neg ht]
      exact reads_token h (by simpa using ht)
  · have := hrest.2
    split <;> exact this

theorem reads_skipItem : Reads filename toks 1 (skipItem filename ()) :=
  Leaves.peek fun t ts h => by
    by_cases hend : t.isEnd = true
    · rw [if_pos hend]
      exact reads_error _ _ h
    rw [if_neg hend]
    by_cases hopen : (t.isSymbol openBrace || t.isSymbol openBracket) = true
    · rw [if_pos hopen]
      exact reads_skipBalanced _ h
    · rw [if_neg hopen]
      exact reads_token h (by simpa using hend)

theorem reads_skipUntilSemicolon : Reads filename toks 1 (skipUntilSemicolon filename) := by
  intro ts hts
  refine (fine_untilToken (·.isSymbol semicolon) rfl
    (fun _ => reads_skipItem) () hts).bind fun _ rest hrest => ?_
  obtain ⟨hleft, hlen, t, rest, rfl, ht⟩ := hrest
  exact (reads_token hleft (not_end_of_isSymbol ht)).mono fun _ _ hrest =>
    ⟨hrest.1, Nat.le_trans hrest.2 hlen⟩

theorem reads_skipFieldOptionsIfPresent :
    Reads filename toks 0 skipFieldOptionsIfPresent := by
  refine Leaves.peek fun t ts h => ?_
  by_cases hopen : t.isSymbol openBracket = true
  · rw [if_pos hopen]
    -- a turn starts at a token that is no end: the first at the bracket, the others after a test
    refine Fine.bind (fine_loop (I := fun _ rest => Left Token.isEnd toks rest ∧
      rest.length ≤ (t :: ts).length ∧ ∃ u us, rest = u :: us ∧ u.isEnd = false)
      (Q := fun _ rest => Left Token.isEnd toks rest ∧ rest.length ≤ (t :: ts).length)
      (fun depth rest hrest => ?_)
      ⟨h, Nat.le_refl _, t, ts, rfl, not_end_of_isSymbol hopen⟩) fun _ _ hrest => hrest
    obtain ⟨hleft, hlen, u, us, rfl, hu⟩ := hrest
    refine (hleft.advance hu).bind fun v rest hrest => ?_
    by_cases hdepth : depthAfter openBracket closeBracket depth v > 0
    · simp only [if_pos hdepth]
      obtain ⟨w, ws, rfl⟩ := hrest.1.exists_cons
      by_cases hw : w.isEnd = true
      · refine fine_pure ?_
        rw [hw]
        exact ⟨hrest.1, Nat.le_trans (Nat.le_of_succ_le hrest.2) hlen⟩
      · refine fine_pure ?_
        rw [Bool.not_eq_true] at hw
        rw [hw]
        exact ⟨⟨hrest.1, Nat.le_trans (Nat.le_of_succ_le hrest.2) hlen, w, ws, rfl, hw⟩, hrest.2⟩
    · simp only [if_neg hdepth]
      exact fine_pure ⟨hrest.1, Nat.le_trans (Nat.le_of_succ_le hrest.2) hlen⟩
  · rw [if_neg hopen]
    exact fine_pure ⟨h, Nat.le_refl _⟩

theorem reads_skipOptionValue : Reads filename toks 1 (skipOptionValue filename) :=
  Leaves.peek fun t ts h => by
    by_cases hopen : t.isSymbol openBrace = true
    · rw [if_pos hopen]
      exact reads_skipBracedBlock _ h
    rw [if_neg hopen]
    by_cases hkind : t.kind = .string ∨ t.kind = .number ∨ t.kind = .identifier
    · rw [if_pos hkind]
      refine reads_token h ?_
      rcases hkind with hkind | hkind | hkind
      all_goals exact not_end_of_kind hkind nofun
    · rw [if_neg hkind]
      exact reads_error _ _ h

/-! ## Enums and messages -/

theorem reads_parseEnumItem (e : ProtoEnum) : Reads filename toks 1 (parseEnumItem filename e) :=
  Leaves.peek fun t ts h => by
    by_cases hend : t.isEnd = true
    · rw [if_pos hend]
      exact reads_error _ _ h
    rw [if_neg hend]
    by_cases hskip : (t.isIdent (lit "option") || t.isIdent (lit "reserved")) = true
    · rw [if_pos hskip]
      exact (reads_skipUntilSemicolon.bind (l := 0) fun _ => leaves_pure) _ h
    · rw [if_neg hskip]
      exact (reads_expectIdentifier.bind fun _ => (reads_expectSymbol equals).bind fun _ =>
        reads_parseInteger.bind fun _ => reads_skipFieldOptionsIfPresent.bind fun _ =>
          (reads_expectSymbol semicolon).bind fun _ => leaves_pure).mono (by decide) _ h

theorem reads_parseOptionName : Reads filename toks 1 (parseOptionName filename) :=
  Leaves.peek fun t ts h => by
    by_cases hopen : t.isSymbol openParen = true
    · rw [if_pos hopen]
      have hname : Reads filename toks 0 (do
          let name ← expectIdentifier filename
          expectSymbol filename closeParen
          pure (true, name)) :=
        (reads_expectIdentifier.bind fun _ => (reads_expectSymbol closeParen).bind
          fun _ => leaves_pure).mono (by decide)
      exact h.advance_bind (not_end_of_isSymbol hopen) fun _ => hname
    · rw [if_neg hopen]
      exact (reads_expectIdentifier.bind (l := 0) fun _ => leaves_pure) _ h

theorem reads_skipComma : Reads filename toks 0 skipComma :=
  Leaves.peek fun t ts h => by
    by_cases hcomma : t.isSymbol comma = true
    · rw [if_pos hcomma]
      exact (reads_token h (not_end_of_isSymbol hcomma)).mono fun _ _ hrest =>
        ⟨hrest.1, Nat.le_of_succ_le hrest.2⟩
    · rw [if_neg hcomma]
      exact fine_pure ⟨h, Nat.le_refl _⟩

theorem reads_parseFieldOption (f : ProtoField) :
    Reads filename toks 1 (parseFieldOption filename f) :=
  Leaves.peek fun t ts h => by
    by_cases hend : t.isEnd = true
    · rw [if_pos hend]
      exact reads_error _ _ h
    rw [if_neg hend]
    refine (reads_parseOptionName.bind (l := 0) fun option => ?_) _ h
    refine ((reads_expectSymbol equals).bind (l := 0) fun _ => ?_).mono (by decide)
    obtain ⟨parenthesized, name⟩ := option
    by_cases hpacked : (!parenthesized && name = lit "packed") = true
    · simp only [if_pos hpacked]
      exact (reads_parseBool.bind fun _ => reads_skipComma.bind fun _ => leaves_pure).mono
        (by decide)
    · simp only [if_neg hpacked]
      exact (reads_skipOptionValue.bind fun _ => reads_skipComma.bind fun _ => leaves_pure).mono
        (by decide)

theorem reads_parseFieldOptions (f : ProtoField) :
    Reads filename toks 0 (parseFieldOptions filename f) :=
  Leaves.peek fun t ts h => by
    by_cases hopen : t.isSymbol openBracket = true
    · rw [if_pos hopen]
      have hoptions : Reads filename toks 0 (do
          let f ← until_ (isSymbol closeBracket) (parseFieldOption filename) f
          expectSymbol filename closeBracket
          pure f) :=
        ((reads_untilSymbol reads_parseFieldOption f).bind fun _ =>
          (reads_expectSymbol closeBracket).bind fun _ => leaves_pure).mono (by decide)
      exact (h.advance_bind (not_end_of_isSymbol hopen) fun _ => hoptions).mono
        fun _ _ hrest => ⟨hrest.1, Nat.le_of_succ_le hrest.2⟩
    · rw [if_neg hopen]
      exact fine_pure ⟨h, Nat.le_refl _⟩

theorem reads_parseLabel : Reads filename toks 0 parseLabel :=
  Leaves.peek fun t ts h => by
    by_cases hrepeated : t.isIdent (lit "repeated") = true
    · rw [if_pos hrepeated]
      exact (reads_token h (not_end_of_isIdent hrepeated)).mono fun _ _ hrest =>
        ⟨hrest.1, Nat.le_of_succ_le hrest.2⟩
    rw [if_neg hrepeated]
    by_cases hsingle : (t.isIdent (lit "optional") || t.isIdent (lit "required")) = true
    · rw [if_pos hsingle]
      refine (reads_token h ?_).mono fun _ _ hrest => ⟨hrest.1, Nat.le_of_succ_le hrest.2⟩
      rcases Bool.or_eq_true .. |>.mp hsingle with hident | hident
      all_goals exact not_end_of_isIdent hident
    · rw [if_neg hsingle]
      exact fine_pure ⟨h, Nat.le_refl _⟩

theorem reads_parseField (m : ProtoMessageDef) : Reads filename toks 1 (parseField filename m) :=
  (reads_parseLabel.bind fun _ => reads_expectIdentifier.bind fun _ =>
    reads_expectIdentifier.bind fun _ => (reads_expectSymbol equals).bind fun _ =>
      reads_parseInteger.bind fun _ => (reads_parseFieldOptions _).bind fun _ =>
        (reads_expectSymbol semicolon).bind fun _ => leaves_pure).mono (by decide)

/-- The option of a message, at its first word. -/
theorem reads_parseMessageOption (m : ProtoMessageDef) (h : Left Token.isEnd toks (t :: ts))
    (ht : t.isEnd = false) :
    Fine (Blames filename toks)
      (fun _ rest => Left Token.isEnd toks rest ∧ rest.length + 1 ≤ (t :: ts).length)
      (parseMessageOption filename m (t :: ts)) := by
  refine h.advance_bind (k := 0) ht fun _ => ?_
  refine (reads_parseOptionName.bind (l := 0) fun option => ?_).mono (by decide)
  refine ((reads_expectSymbol equals).bind (l := 0) fun _ => ?_).mono (by decide)
  obtain ⟨parenthesized, optName⟩ := option
  have hsemicolon : ∀ m, Reads filename toks 1 (do
      expectSymbol filename semicolon
      pure m : TokenReader ProtoMessageDef) := fun m =>
    (reads_expectSymbol semicolon).bind fun _ => leaves_pure
  by_cases hid : optName = lit "id"
  · simp only [if_pos hid]
    exact (reads_parseInteger.bind fun _ => hsemicolon _).mono (by decide)
  by_cases hbase : optName = lit "base_class"
  · simp only [if_neg hid, if_pos hbase]
    exact ((reads_expectString _).bind fun _ => hsemicolon _).mono (by decide)
  · simp only [if_neg hid, if_neg hbase]
    exact (reads_skipOptionValue.bind fun _ => hsemicolon _).mono (by decide)

theorem reads_parseMessageMember (m : ProtoMessageDef) :
    Reads filename toks 1 (parseMessageMember filename m) :=
  Leaves.peek fun t ts h => by
    by_cases hend : t.isEnd = true
    · rw [if_pos hend]
      exact reads_error _ _ h
    rw [if_neg hend]
    by_cases hoption : t.isIdent (lit "option") = true
    · rw [if_pos hoption]
      exact reads_parseMessageOption m h (by simpa using hend)
    rw [if_neg hoption]
    by_cases hreserved : t.isIdent (lit "reserved") = true
    · rw [if_pos hreserved]
      exact (reads_skipUntilSemicolon.bind (l := 0) fun _ => leaves_pure) _ h
    rw [if_neg hreserved]
    by_cases hother : unsupported.any t.isIdent = true
    · rw [if_pos hother]
      exact reads_error _ _ h
    · rw [if_neg hother]
      exact reads_parseField m _ h

/-! ## Files -/

theorem reads_parseTopLevel (file : ProtoFile) :
    Reads filename toks 1 (parseTopLevel filename file) := by
  have hsemicolon : ∀ file, Reads filename toks 1 (do
      expectSymbol filename semicolon
      pure file : TokenReader ProtoFile) := fun file =>
    (reads_expectSymbol semicolon).bind fun _ => leaves_pure
  have hsyntax : Reads filename toks 0 (do
      expectSymbol filename equals
      let version ← expectString filename (lit "expected syntax string")
      if version = lit "proto3" ∨ version = lit "proto2" then
        expectSymbol filename semicolon
        pure file
      else error filename (lit "unsupported syntax '" ++ version ++ lit "'")) := by
    refine ((reads_expectSymbol equals).bind fun _ => (reads_expectString _).bind (l := 0)
      fun version => ?_).mono (by decide)
    split
    · exact (hsemicolon file).mono (by decide)
    · exact reads_error _
  have hpackage : Reads filename toks 0 (do
      let package ← expectIdentifier filename
      expectSymbol filename semicolon
      pure { file with package }) :=
    (reads_expectIdentifier.bind fun _ => hsemicolon _).mono (by decide)
  have himport : Reads filename toks 0 (do
      let _ ← expectString filename (lit "expected import path string")
      expectSymbol filename semicolon
      pure file) :=
    ((reads_expectString _).bind fun _ => hsemicolon _).mono (by decide)
  have henum : Reads filename toks 0 (do
      let name ← expectIdentifier filename
      expectSymbol filename openBrace
      let e ← until_ (isSymbol closeBrace) (parseEnumItem filename) { name }
      expectSymbol filename closeBrace
      pure { file with enums := file.enums ++ [e] }) :=
    (reads_expectIdentifier.bind fun _ => (reads_expectSymbol openBrace).bind fun _ =>
      (reads_untilSymbol reads_parseEnumItem _).bind fun _ =>
        (reads_expectSymbol closeBrace).bind fun _ => leaves_pure).mono (by decide)
  have hmessage : Reads filename toks 0 (do
      let name ← expectIdentifier filename
      expectSymbol filename openBrace
      let m ← until_ (isSymbol closeBrace) (parseMessageMember filename) { name }
      expectSymbol filename closeBrace
      pure { file with messages := file.messages ++ [m] }) :=
    (reads_expectIdentifier.bind fun _ => (reads_expectSymbol openBrace).bind fun _ =>
      (reads_untilSymbol reads_parseMessageMember _).bind fun _ =>
        (reads_expectSymbol closeBrace).bind fun _ => leaves_pure).mono (by decide)
  have hblock : Reads filename toks 0 (do
      let _ ← expectIdentifier filename
      skipBracedBlock filename
      pure file) :=
    (reads_expectIdentifier.bind fun _ => reads_skipBracedBlock.bind fun _ =>
      leaves_pure).mono (by decide)
  refine Leaves.peek fun t ts h => ?_
  have hword : ∀ {s : CString} {p : TokenReader ProtoFile}, t.isIdent s = true →
      Reads filename toks 0 p → Fine (Blames filename toks)
        (fun _ rest => Left Token.isEnd toks rest ∧ rest.length + 1 ≤ (t :: ts).length)
        ((advance >>= fun _ => p : TokenReader ProtoFile) (t :: ts)) := fun hident hp =>
    h.advance_bind (not_end_of_isIdent hident) fun _ => hp
  split
  · next hident => exact hword hident hsyntax
  split
  · next hident => exact hword hident hpackage
  split
  · next hident => exact hword hident himport
  split
  · exact (reads_skipUntilSemicolon.bind (l := 0) fun _ => leaves_pure) _ h
  split
  · next hident => exact hword hident henum
  split
  · next hident => exact hword hident hmessage
  split
  · next hident => exact hword hident hblock
  split
  · next hident => exact hword hident hblock
  · exact reads_error _ _ h

/-- On tokens that end in an `End`, the parser returns or throws at one of
them. -/
theorem parseInto_outcome {front : List Token} (ht : t.isEnd = true) (file : ProtoFile) :
    (∃ file', parseInto filename (front ++ [t]) file = .ok file') ∨
      ∃ u ∈ front ++ [t], ∃ msg,
        parseInto filename (front ++ [t]) file = .error (.thrown (parserError filename u msg)) := by
  have hleft : Left Token.isEnd (front ++ [t]) (front ++ [t]) :=
    ⟨List.suffix_rfl, front, t, rfl, ht⟩
  have hrun : Fine (Blames filename (front ++ [t])) _
      (until_ atEnd (parseTopLevel filename) file (front ++ [t])) :=
    fine_untilToken Token.isEnd rfl reads_parseTopLevel file hleft
  unfold parseInto run
  revert hrun
  cases until_ atEnd (parseTopLevel filename) file (front ++ [t]) with
  | ok out => exact fun _ => .inl ⟨out.1, rfl⟩
  | error e =>
      intro hrun
      cases e with
      | thrown e =>
          obtain ⟨u, hu, msg, rfl⟩ := hrun
          exact .inr ⟨u, hu, msg, rfl⟩
      | outOfRange => exact hrun.elim
      | endless => exact hrun.elim

end

end EsphomeApi.Protogen
