/-
EsphomeApi.Protogen.Generator — the way of two files through `main` of
`protogen`, up to the text that is written.

The passes are taken as they come: a lexer that throws or returns tokens with
one `End` behind them, a parser that on such tokens throws or returns, a
resolver and a registry that throw errors of their own. So a run of the
generator never reads behind its tokens and always ends
(`generator_outcome`), and what it hands to the emitters is closed: every type
name is declared, and every id has one message. What it hands on is what the
texts say, by the grammars of the passes (`generator_exact`).
-/
import EsphomeApi.Protogen.LexerTheorems
import EsphomeApi.Protogen.ParserSafety
import EsphomeApi.Protogen.GrammarTheorems
import EsphomeApi.Protogen.Resolve
import EsphomeApi.Protogen.Registry

namespace EsphomeApi.Protogen

open Library.TokenParser

/-- A `throw` outside the lexer and the parser. -/
def thrown {α : Type} : Except RuntimeError α → Except (Failure RuntimeError) α
  | .ok a => .ok a
  | .error e => .error (.thrown e)

/-- `lex` and `parse_into` of one file. -/
def readProto (filename src : CString) (file : ProtoFile) :
    Except (Failure RuntimeError) ProtoFile := do
  let tokens ← lex filename src
  parseInto filename tokens file

/-- The `try` block of `main`: the definitions, and the entries of the
registry. -/
def protogen (sort : List IdEntry → List IdEntry) (apiPath api optionsPath options : CString) :
    Except (Failure RuntimeError) (ProtoFile × List IdEntry) := do
  let file ← readProto apiPath api {}
  let file ← readProto optionsPath options file
  let file ← thrown (resolveTypes file)
  let entries ← thrown (idEntries sort file)
  pure (file, entries)

theorem except_bind_eq_ok {ε α β : Type} {x : Except ε α} {f : α → Except ε β} {b : β} :
    (x >>= f) = .ok b ↔ ∃ a, x = .ok a ∧ f a = .ok b := by
  cases x with
  | ok a => exact ⟨fun h => ⟨a, rfl, h⟩, fun ⟨_, heq, h⟩ => by cases heq; exact h⟩
  | error e => exact iff_of_false nofun nofun

/-! ## One file -/

/-- The error names the file, and a line that the file has. -/
def RuntimeError.IsAt (filename src : CString) (e : RuntimeError) : Prop :=
  ∃ (line : Nat) (msg : CString), 1 ≤ line ∧ line ≤ 1 + src.count newline ∧
    e.what = filename ++ lit ":" ++ toCString line ++ lit ": " ++ msg

theorem isAt_lexError {filename src msg : CString} {line : Nat} (hlow : 1 ≤ line)
    (hhigh : line ≤ 1 + src.count newline) : (lexError filename line msg).IsAt filename src := by
  refine ⟨line, lit "lexer: " ++ msg, hlow, hhigh, ?_⟩
  have hlit : lit ": lexer: " = lit ": " ++ lit "lexer: " := by decide
  simp only [lexError, hlit, List.append_assoc]

theorem isAt_parserError {filename src msg : CString} {t : Token} (hlow : 1 ≤ t.line)
    (hhigh : t.line ≤ 1 + src.count newline) : (parserError filename t msg).IsAt filename src := by
  refine ⟨t.line, lit "parser: " ++ msg ++ lit " (got '" ++ t.text ++ lit "')", hlow, hhigh, ?_⟩
  have hlit : lit ": parser: " = lit ": " ++ lit "parser: " := by decide
  simp only [parserError, hlit, List.append_assoc]

/-- A file is read, or an error is thrown that stands at one of its lines. -/
theorem readProto_outcome (filename src : CString) (file : ProtoFile) :
    (∃ file', readProto filename src file = .ok file') ∨
      ∃ e, readProto filename src file = .error (.thrown e) ∧ e.IsAt filename src := by
  unfold readProto
  rcases @lex_outcome filename src with ⟨tokens, hlex⟩ | ⟨l, msg, hlex, hlow, hhigh⟩
  · obtain ⟨⟨front, t, rfl, hend, -⟩, hlines⟩ := (lex_eq_ok_iff.mp hlex).tokens
    have ht : t.isEnd = true := by simp [Token.isEnd, hend]
    rw [hlex]
    rcases @parseInto_outcome filename t front ht file with
      ⟨file', hparse⟩ | ⟨u, hu, msg, hparse⟩
    · exact .inl ⟨file', hparse⟩
    · exact .inr ⟨_, hparse, isAt_parserError (hlines u hu).1 (hlines u hu).2⟩
  · rw [hlex]
    exact .inr ⟨_, rfl, isAt_lexError hlow hhigh⟩

/-! ## The whole run -/

/-- An error of a pass behind the parser: the first field whose type is not
known, two messages of one id, or no id at all. -/
inductive IsPassError : RuntimeError → Prop where
  | unknownType (m : ProtoMessageDef) {f : ProtoField} (h : f ∈ m.fields) :
      IsPassError (unknownType m f)
  | duplicateId {a b : IdEntry} (h : a.id = b.id) : IsPassError (duplicateId a b)
  | noIds : IsPassError noIds

/-- What the emitters get. -/
structure Generated (file : ProtoFile) (entries : List IdEntry) : Prop where
  closed : file.Closed
  distinct : file.DistinctIds
  registry : IsRegistry file entries

/-- A run without a fault: it hands a closed file and its registry on, or throws
an error of one of the passes. -/
inductive FaultFree (apiPath api optionsPath options : CString) :
    Except (Failure RuntimeError) (ProtoFile × List IdEntry) → Prop where
  | generated {file : ProtoFile} {entries : List IdEntry} (h : Generated file entries) :
      FaultFree apiPath api optionsPath options (.ok (file, entries))
  | atApi {e : RuntimeError} (h : e.IsAt apiPath api) :
      FaultFree apiPath api optionsPath options (.error (.thrown e))
  | atOptions {e : RuntimeError} (h : e.IsAt optionsPath options) :
      FaultFree apiPath api optionsPath options (.error (.thrown e))
  | pass {e : RuntimeError} (h : IsPassError e) :
      FaultFree apiPath api optionsPath options (.error (.thrown e))

theorem FaultFree.of_ok {apiPath api optionsPath options : CString} {file : ProtoFile}
    {entries : List IdEntry} {result : Except (Failure RuntimeError) (ProtoFile × List IdEntry)}
    (h : FaultFree apiPath api optionsPath options result) (hresult : result = .ok (file, entries)) :
    Generated file entries := by
  subst hresult
  cases h with
  | generated h => exact h

theorem generator_outcome {sort : List IdEntry → List IdEntry} (hsort : SortsById sort)
    (apiPath api optionsPath options : CString) :
    FaultFree apiPath api optionsPath options (protogen sort apiPath api optionsPath options) := by
  rcases readProto_outcome apiPath api {} with ⟨file, hapi⟩ | ⟨e, hapi, hat⟩
  case inr =>
    have hrun : protogen sort apiPath api optionsPath options = .error (.thrown e) := by
      simp only [protogen, hapi, bind, Except.bind]
    rw [hrun]
    exact .atApi hat
  rcases readProto_outcome optionsPath options file with ⟨file', hopt⟩ | ⟨e, hopt, hat⟩
  case inr =>
    have hrun : protogen sort apiPath api optionsPath options = .error (.thrown e) := by
      simp only [protogen, hapi, hopt, bind, Except.bind]
    rw [hrun]
    exact .atOptions hat
  cases hresolve : resolveTypes file' with
  | error e =>
      have hrun : protogen sort apiPath api optionsPath options = .error (.thrown e) := by
        simp only [protogen, hapi, hopt, hresolve, thrown, bind, Except.bind]
      obtain ⟨_, m, _, -, -, _, f, _, hfields, -, -, rfl⟩ := resolveTypes_eq_error_iff.mp hresolve
      rw [hrun]
      exact .pass (.unknownType m (hfields ▸ List.mem_append_right _ (List.mem_cons_self ..)))
  | ok file'' =>
      have hentries := idEntries_outcome hsort file''
      revert hentries
      cases hids : idEntries sort file'' with
      | error e =>
          have hrun : protogen sort apiPath api optionsPath options = .error (.thrown e) := by
            simp only [protogen, hapi, hopt, hresolve, hids, thrown, bind, Except.bind]
          intro hentries
          rw [hrun]
          refine .pass ?_
          rcases hentries with ⟨-, rfl⟩ | ⟨-, a, b, -, hid, rfl⟩
          · exact .noIds
          · exact .duplicateId hid
      | ok entries =>
          have hrun : protogen sort apiPath api optionsPath options = .ok (file'', entries) := by
            simp only [protogen, hapi, hopt, hresolve, hids, thrown, bind, Except.bind, pure,
              Except.pure]
          intro hentries
          rw [hrun]
          exact .generated ⟨(resolveTypes_eq_ok_iff.mp hresolve).closed, hentries.1, hentries.2⟩

/-- A message with an id, and an options file without a word. -/
theorem protogen_one : protogen insertById (lit "a.proto") (lit "message M {option (id)=1;}")
    (lit "b.proto") [] = .ok ({ messages := [{ name := lit "M", id := 1 }] }, [⟨lit "M", 1⟩]) := by
  decide +kernel

theorem generator_outcome_one :
    Generated { messages := [{ name := lit "M", id := 1 }] } [⟨lit "M", 1⟩] :=
  (generator_outcome sortsById_insertById (lit "a.proto")
    (lit "message M {option (id)=1;}") (lit "b.proto") []).of_ok protogen_one

/-! ## What a run means -/

/-- A text declares what its tokens declare. -/
inductive Declares (src : CString) (file file' : ProtoFile) : Prop where
  | mk {front : List Token} {e : Token} (hlex : Lexes 1 src (front ++ [e]))
      (hsteps : Steps TopLevel file file' front)

theorem readProto_eq_ok_iff {filename src : CString} {file file' : ProtoFile} :
    readProto filename src file = .ok file' ↔ Declares src file file' := by
  unfold readProto
  rw [except_bind_eq_ok]
  constructor
  · rintro ⟨tokens, hlex, h⟩
    obtain ⟨_, hrun⟩ := parseInto_eq_ok_iff.mp h
    obtain ⟨front, rfl, hsteps, e, rest, rfl, he⟩ := run_eq_ok_iff.mp hrun
    have hlexes := lex_eq_ok_iff.mp hlex
    obtain ⟨⟨before, t, heq, -, hbefore⟩, -⟩ := hlexes.tokens
    -- no token but the last is an end
    rcases List.eq_nil_or_concat' rest with rfl | ⟨us, u, rfl⟩
    · exact .mk hlexes hsteps
    · have hsplit : front ++ e :: (us ++ [u]) = (front ++ e :: us) ++ [u] := by simp
      rw [hsplit] at heq
      obtain ⟨rfl, -⟩ := List.append_inj' heq rfl
      exact absurd (by simpa [Token.isEnd] using he) (hbefore e (by simp))
  · rintro @⟨front, e, hlexes, hsteps⟩
    obtain ⟨⟨before, t, heq, hend, -⟩, -⟩ := hlexes.tokens
    obtain ⟨-, heq⟩ := List.append_inj' heq rfl
    obtain rfl := List.singleton_inj.mp heq
    have he : e.isEnd = true := by simp [Token.isEnd, hend]
    refine ⟨front ++ [e], lex_eq_ok_iff.mpr hlexes, parseInto_eq_ok_iff.mpr ⟨[e], ?_⟩⟩
    exact run_eq_ok_iff.mpr ⟨front, rfl, hsteps, e, [], rfl, he⟩

theorem thrown_eq_ok_iff {α : Type} {x : Except RuntimeError α} {a : α} :
    thrown x = .ok a ↔ x = .ok a := by
  cases x with
  | ok b => simp [thrown]
  | error e => simp [thrown]

/-- A run returns a file and its entries if and only if the two texts declare a
file that resolves to it; the paths and the sort have no part in it. -/
theorem generator_exact {sort : List IdEntry → List IdEntry} (hsort : SortsById sort)
    (apiPath api optionsPath options : CString) (file : ProtoFile) (entries : List IdEntry) :
    protogen sort apiPath api optionsPath options = .ok (file, entries) ↔
      ∃ first both, Declares api {} first ∧ Declares options first both ∧
        both.ResolvesTo file ∧ file.Numbers entries := by
  unfold protogen
  simp only [except_bind_eq_ok, readProto_eq_ok_iff, thrown_eq_ok_iff, resolveTypes_eq_ok_iff,
    idEntries_eq_ok_iff hsort]
  constructor
  · rintro ⟨first, hfirst, both, hboth, file', hresolves, entries', hnumbers, h⟩
    cases h
    exact ⟨first, both, hfirst, hboth, hresolves, hnumbers⟩
  · rintro ⟨first, both, hfirst, hboth, hresolves, hnumbers⟩
    exact ⟨first, hfirst, both, hboth, file, hresolves, entries, hnumbers, rfl⟩

theorem generator_exact_one : ∃ first both,
    Declares (lit "message M {option (id)=1;}") {} first ∧ Declares [] first both ∧
      both.ResolvesTo { messages := [{ name := lit "M", id := 1 }] } ∧
      ProtoFile.Numbers { messages := [{ name := lit "M", id := 1 }] } [⟨lit "M", 1⟩] :=
  (generator_exact sortsById_insertById (lit "a.proto") (lit "message M {option (id)=1;}")
    (lit "b.proto") [] _ _).mp protogen_one

end EsphomeApi.Protogen
