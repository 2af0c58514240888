/-
EsphomeApi.Protogen.Lexer — `lexer.cpp` of `protogen`, the generator that reads
the `.proto` files: source text into tokens, comments left out.

`lexStep` is one turn of the loop of `lex`. It always takes a character off, so
as many turns as there are characters are enough; that `lex` never runs out of
them is part of `lex_outcome` in `Protogen.LexerTheorems`.
-/
import EsphomeApi.Exception
import EsphomeApi.Library.Strtol
import EsphomeApi.Library.TokenParser

namespace EsphomeApi.Protogen

open Library Library.TokenParser

/-- `std::runtime_error`. -/
structure RuntimeError where
  what : CString
  deriving DecidableEq, Repr

/-! ## `lexer.hpp` -/

inductive TokKind where
  | identifier
  | number
  | string
  | symbol
  | end_
  deriving DecidableEq, Repr

structure Token where
  kind : TokKind
  text : CString
  line : Nat
  deriving DecidableEq, Repr

/-! ## Characters -/

def newline : UInt8 := 10
def doubleQuote : UInt8 := 34
def singleQuote : UInt8 := 39
def openParen : UInt8 := 40
def closeParen : UInt8 := 41
def star : UInt8 := 42
def comma : UInt8 := 44
def dot : UInt8 := 46
def slash : UInt8 := 47
def semicolon : UInt8 := 59
def less : UInt8 := 60
def equals : UInt8 := 61
def greater : UInt8 := 62
def openBracket : UInt8 := 91
def backslash : UInt8 := 92
def closeBracket : UInt8 := 93
def underscore : UInt8 := 95
def openBrace : UInt8 := 123
def closeBrace : UInt8 := 125

/-- The punctuation of the last `switch` of `lex`. -/
def symbols : List UInt8 :=
  [openBrace, closeBrace, openBracket, closeBracket, openParen, closeParen, equals, semicolon,
    comma, less, greater, dot]

/-- `isalpha`, in the C locale. -/
def isAlpha (c : UInt8) : Bool :=
  65 ≤ c.toNat ∧ c.toNat ≤ 90 ∨ 97 ≤ c.toNat ∧ c.toNat ≤ 122

/-- `isdigit`. -/
def isDecimalDigit (c : UInt8) : Bool := 48 ≤ c.toNat ∧ c.toNat ≤ 57

/-- `isalnum`. -/
def isAlnum (c : UInt8) : Bool := isAlpha c || isDecimalDigit c

def identStart (c : UInt8) : Bool := isAlpha c || c = underscore

def identCont (c : UInt8) : Bool := isAlnum c || c = underscore || c = dot

/-- Whether a number goes on with `c`; a sign only counts as that of an
exponent. -/
def numberCont (prev c : UInt8) : Bool :=
  isAlnum c || c = dot || (c = plus || c = minus) && (prev = 101 || prev = 69)

/-! ## Scanning -/

/-- The inside of a block comment: the line after it and what is behind it, or
the line where the text ends. -/
def blockComment : Nat → CString → Except Nat (Nat × CString)
  | line, [] => .error line
  | line, [_] => .error line
  | line, c :: d :: cs =>
      if c = star ∧ d = slash then .ok (line, cs)
      else blockComment (if c = newline then line + 1 else line) (d :: cs)

/-- What an escape stands for. -/
def unescape (c : UInt8) : UInt8 :=
  if c = 110 then newline else if c = 116 then 9 else if c = 114 then 13 else c

/-- The inside of a string: its value, the lines it goes on for, and what is
behind the closing quote. An escaped newline does not count as a line. -/
def stringLiteral (quote : UInt8) : CString → Option (CString × Nat × CString)
  | [] => none
  | [c] => if c = quote then some ([], 0, []) else none
  | c :: d :: cs =>
      if c = quote then some ([], 0, d :: cs)
      else if c = backslash then
        (stringLiteral quote cs).map fun (value, lines, rest) => (unescape d :: value, lines, rest)
      else
        (stringLiteral quote (d :: cs)).map fun (value, lines, rest) =>
          (c :: value, if c = newline then lines + 1 else lines, rest)

/-- What a number goes on with behind `prev`, and what is behind it. -/
def numberTail : UInt8 → CString → CString × CString
  | _, [] => ([], [])
  | prev, c :: cs =>
      if numberCont prev c then
        let (tail, rest) := numberTail c cs
        (c :: tail, rest)
      else ([], c :: cs)

/-- Whether a number starts here. -/
def numberStart (c : UInt8) (cs : CString) : Bool :=
  isDecimalDigit c || c = minus && cs.head?.any isDecimalDigit

section

variable (filename : CString)

def lexError (line : Nat) (msg : CString) : RuntimeError :=
  ⟨filename ++ lit ":" ++ toCString line ++ lit ": lexer: " ++ msg⟩

/-- A turn of the loop of `lex`, at a character: a token or none, the line, and
the rest of the text. -/
def lexStep (line : Nat) (c : UInt8) (cs : CString) :
    Except RuntimeError (Option Token × Nat × CString) :=
  if c = newline then .ok (none, line + 1, cs)
  else if isSpace c then .ok (none, line, cs)
  else if c = slash ∧ cs.head? = some slash then
    .ok (none, line, cs.tail.dropWhile (· ≠ newline))
  else if c = slash ∧ cs.head? = some star then
    match blockComment line cs.tail with
    | .ok (line, rest) => .ok (none, line, rest)
    | .error line => .error (lexError filename line (lit "unterminated block comment"))
  else if c = doubleQuote ∨ c = singleQuote then
    match stringLiteral c cs with
    | some (value, lines, rest) => .ok (some ⟨.string, value, line⟩, line + lines, rest)
    | none => .error (lexError filename line (lit "unterminated string literal"))
  else if identStart c then
    .ok (some ⟨.identifier, c :: cs.takeWhile identCont, line⟩, line, cs.dropWhile identCont)
  else if numberStart c cs then
    let (tail, rest) := numberTail c cs
    .ok (some ⟨.number, c :: tail, line⟩, line, rest)
  else if c ∈ symbols then .ok (some ⟨.symbol, [c], line⟩, line, cs)
  else .error (lexError filename line (lit "unexpected character '" ++ [c] ++ lit "'"))

/-- The loop of `lex`, with the turns that it may make. -/
def lexLoop : Nat → Nat → CString → Except (Failure RuntimeError) (List Token)
  | _, line, [] => .ok [⟨.end_, [], line⟩]
  | 0, _, _ :: _ => .error .endless
  | fuel + 1, line, c :: cs =>
      match lexStep filename line c cs with
      | .error e => .error (.thrown e)
      | .ok (token, line, rest) =>
          match lexLoop fuel line rest with
          | .error e => .error e
          | .ok tokens => .ok (token.toList ++ tokens)

def lex (src : CString) : Except (Failure RuntimeError) (List Token) :=
  lexLoop filename src.length 1 src

end

end EsphomeApi.Protogen
