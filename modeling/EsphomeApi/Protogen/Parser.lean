/-
EsphomeApi.Protogen.Parser — `parser.cpp` of `protogen`: tokens into the
definitions of `model.hpp`.

The functions are the members of the class `Parser`, over the tokens that are
left instead of an index. Every `while` is a `whileLoop` or an `until_` of
`Library.TokenParser`.
-/
import EsphomeApi.Protogen.Lexer

namespace EsphomeApi.Protogen

open Library Library.TokenParser

/-! ## `model.hpp` -/

inductive FieldType where
  | double
  | float
  | int32
  | int64
  | uint32
  | uint64
  | sint32
  | sint64
  | fixed32
  | fixed64
  | sfixed32
  | sfixed64
  | bool
  | string
  | bytes
  | enum
  | message
  deriving DecidableEq, Repr

structure ProtoField where
  name : CString := []
  typeName : CString := []
  type : FieldType := .int32
  number : Int := 0
  repeated : Bool := false
  packedExplicit : Bool := false
  packedValue : Bool := false
  deriving DecidableEq, Repr

structure ProtoEnumValue where
  name : CString
  number : Int
  deriving DecidableEq, Repr

structure ProtoEnum where
  name : CString
  values : List ProtoEnumValue := []
  deriving DecidableEq, Repr

structure ProtoMessageDef where
  name : CString
  fields : List ProtoField := []
  id : UInt32 := 0
  baseClass : CString := []
  deriving DecidableEq, Repr

structure ProtoFile where
  package : CString := []
  enums : List ProtoEnum := []
  messages : List ProtoMessageDef := []
  deriving DecidableEq, Repr

/-! ## Numbers -/

/-- The base that a number starts with. -/
def numberBase (s : CString) : Nat :=
  let s := skipSign (s.dropWhile isSpace)
  if s[0]? = some 48 then
    if (s[1]? = some 120 ∨ s[1]? = some 88) ∧ (s[2]?.map (isDigit 16)) = some true then 16 else 8
  else 10

/-- `std::stoll` of a text, whose base is that it starts with; none where it
throws. -/
def stoll (text : CString) : Option Int := do
  let s := text.takeWhile (· ≠ 0)
  let (n, _) ← scan (numberBase s) s
  if -9223372036854775808 ≤ n ∧ n < 9223372036854775808 then some n else none

/-! ## Tokens -/

/-- The state of a `Parser`: the tokens from `pos_` on. -/
abbrev TokenReader := Parser Token RuntimeError

/-- `is_ident`. -/
def Token.isIdent (t : Token) (s : CString) : Bool := t.kind = .identifier && t.text = s

/-- `is_symbol`. -/
def Token.isSymbol (t : Token) (c : UInt8) : Bool := t.kind = .symbol && t.text = [c]

def Token.isEnd (t : Token) : Bool := t.kind = .end_

section

variable {t : Token} {s s' : CString} {c d : UInt8} {kind : TokKind}

theorem isIdent_iff : t.isIdent s = true ↔ t.kind = .identifier ∧ t.text = s := by
  simp [Token.isIdent]

theorem isSymbol_iff : t.isSymbol c = true ↔ t.kind = .symbol ∧ t.text = [c] := by
  simp [Token.isSymbol]

theorem not_end_of_kind (h : t.kind = kind) (hkind : kind ≠ .end_) : t.isEnd = false := by
  simp [Token.isEnd, h, hkind]

theorem not_end_of_isSymbol (h : t.isSymbol c = true) : t.isEnd = false :=
  not_end_of_kind (isSymbol_iff.mp h).1 nofun

theorem not_end_of_isIdent (h : t.isIdent s = true) : t.isEnd = false :=
  not_end_of_kind (isIdent_iff.mp h).1 nofun

/-- A token is one symbol, or one word, and not another. -/
theorem not_isSymbol_of_kind (h : t.kind = kind) (hkind : kind ≠ .symbol) :
    t.isSymbol d = false := by
  simp [Token.isSymbol, h, hkind]

theorem not_isSymbol_of_ne (h : t.isSymbol c = true) (hne : c ≠ d) : t.isSymbol d = false := by
  simp [Token.isSymbol, (isSymbol_iff.mp h).2, hne]

theorem not_isIdent (h : t.isIdent s = true) (hne : s ≠ s') : t.isIdent s' = false := by
  rw [Bool.eq_false_iff]
  intro h'
  exact hne ((isIdent_iff.mp h).2.symm.trans (isIdent_iff.mp h').2)

end

/-- `at_end`. -/
def atEnd : TokenReader Bool := do
  let t ← peek
  pure t.isEnd

def isSymbol (c : UInt8) : TokenReader Bool := do
  let t ← peek
  pure (t.isSymbol c)

/-- What a bracket of a kind does to the depth. -/
def depthAfter (open_ close : UInt8) (depth : Int) (t : Token) : Int :=
  if t.isSymbol open_ then depth + 1 else if t.isSymbol close then depth - 1 else depth

section

variable (filename : CString)

def parserError (t : Token) (msg : CString) : RuntimeError :=
  ⟨filename ++ lit ":" ++ toCString t.line ++ lit ": parser: " ++ msg ++ lit " (got '" ++ t.text ++
    lit "')"⟩

def error {α : Type} (msg : CString) : TokenReader α := do
  let t ← peek
  raise (parserError filename t msg)

def expectSymbol (c : UInt8) : TokenReader Unit := do
  let t ← peek
  if t.isSymbol c then
    let _ ← advance
    pure ()
  else error filename (lit "expected '" ++ [c] ++ lit "'")

def expectIdentifier : TokenReader CString := do
  let t ← peek
  if t.kind = .identifier then
    let t ← advance
    pure t.text
  else error filename (lit "expected identifier")

def expectString (msg : CString) : TokenReader CString := do
  let t ← peek
  if t.kind = .string then
    let t ← advance
    pure t.text
  else error filename msg

/-! ## Values -/

def parseInteger : TokenReader Int := do
  let t ← peek
  if t.kind = .number then
    let t ← advance
    match stoll t.text with
    | some n => pure n
    | none => error filename (lit "invalid integer '" ++ t.text ++ lit "'")
  else error filename (lit "expected integer")

def parseBool : TokenReader Bool := do
  let t ← peek
  if t.isIdent (lit "true") then
    let _ ← advance
    pure true
  else if t.isIdent (lit "false") then
    let _ ← advance
    pure false
  else error filename (lit "expected true/false")

/-! ## Skipping -/

/-- A turn of `skip_braced_block`. -/
def bracedTurn (depth : Int) : TokenReader (Int × Bool) :=
  if depth > 0 then do
    let t ← peek
    if t.isEnd then error filename (lit "unterminated block")
    else
      let _ ← advance
      pure (depthAfter openBrace closeBrace depth t, true)
  else pure (depth, false)

def skipBracedBlock : TokenReader Unit := do
  expectSymbol filename openBrace
  let _ ← whileLoop (bracedTurn filename) 1
  pure ()

/-- A turn of `skip_balanced`. -/
def balancedTurn (open_ close : UInt8) (depth : Int) : TokenReader (Int × Bool) := do
  let t ← peek
  if t.isEnd then error filename (lit "unterminated block")
  else
    let _ ← advance
    let depth := depthAfter open_ close depth t
    pure (depth, depth > 0)

def skipBalanced : TokenReader Unit := do
  let t ← peek
  let open_ := t.text.headD 0
  let close := if open_ = openBrace then closeBrace else closeBracket
  let _ ← whileLoop (balancedTurn filename open_ close) 0
  pure ()

/-- A turn of `skip_until_semicolon`. -/
def skipItem (_ : Unit) : TokenReader Unit := do
  let t ← peek
  if t.isEnd then error filename (lit "expected ';'")
  else if t.isSymbol openBrace || t.isSymbol openBracket then skipBalanced filename
  else
    let _ ← advance
    pure ()

def skipUntilSemicolon : TokenReader Unit := do
  until_ (isSymbol semicolon) (skipItem filename) ()
  let _ ← advance
  pure ()

/-- A turn of `skip_field_options_if_present`. -/
def fieldOptionsTurn (depth : Int) : TokenReader (Int × Bool) := do
  let t ← advance
  let depth := depthAfter openBracket closeBracket depth t
  if depth > 0 then
    let t ← peek
    pure (depth, !t.isEnd)
  else pure (depth, false)

def skipFieldOptionsIfPresent : TokenReader Unit := do
  let t ← peek
  if t.isSymbol openBracket then
    let _ ← whileLoop fieldOptionsTurn 0
    pure ()
  else pure ()

def skipOptionValue : TokenReader Unit := do
  let t ← peek
  if t.isSymbol openBrace then skipBracedBlock filename
  else if t.kind = .string ∨ t.kind = .number ∨ t.kind = .identifier then
    let _ ← advance
    pure ()
  else error filename (lit "expected option value")

/-! ## Enums -/

/-- A turn of the loop of `parse_enum`. -/
def parseEnumItem (e : ProtoEnum) : TokenReader ProtoEnum := do
  let t ← peek
  if t.isEnd then error filename (lit "unterminated enum")
  else if t.isIdent (lit "option") || t.isIdent (lit "reserved") then
    skipUntilSemicolon filename
    pure e
  else
    let name ← expectIdentifier filename
    expectSymbol filename equals
    let number ← parseInteger filename
    skipFieldOptionsIfPresent
    expectSymbol filename semicolon
    pure { e with values := e.values ++ [⟨name, number⟩] }

def parseEnum (file : ProtoFile) : TokenReader ProtoFile := do
  let _ ← advance
  let name ← expectIdentifier filename
  expectSymbol filename openBrace
  let e ← until_ (isSymbol closeBrace) (parseEnumItem filename) { name }
  expectSymbol filename closeBrace
  pure { file with enums := file.enums ++ [e] }

/-! ## Messages -/

/-- The name of an option, and whether it stands in parentheses. -/
def parseOptionName : TokenReader (Bool × CString) := do
  let t ← peek
  if t.isSymbol openParen then
    let _ ← advance
    let name ← expectIdentifier filename
    expectSymbol filename closeParen
    pure (true, name)
  else
    let name ← expectIdentifier filename
    pure (false, name)

/-- A comma, if there is one. -/
def skipComma : TokenReader Unit := do
  let t ← peek
  if t.isSymbol comma then
    let _ ← advance
    pure ()
  else pure ()

/-- A turn of `parse_field_options`. -/
def parseFieldOption (f : ProtoField) : TokenReader ProtoField := do
  let t ← peek
  if t.isEnd then error filename (lit "unterminated field options")
  else
    let (parenthesized, name) ← parseOptionName filename
    expectSymbol filename equals
    if !parenthesized && name = lit "packed" then
      let value ← parseBool filename
      skipComma
      pure { f with packedExplicit := true, packedValue := value }
    else
      skipOptionValue filename
      skipComma
      pure f

def parseFieldOptions (f : ProtoField) : TokenReader ProtoField := do
  let t ← peek
  if t.isSymbol openBracket then
    let _ ← advance
    let f ← until_ (isSymbol closeBracket) (parseFieldOption filename) f
    expectSymbol filename closeBracket
    pure f
  else pure f

/-- `static_cast<std::uint32_t>` of a 64-bit integer. -/
def toUint32 (n : Int) : UInt32 := UInt32.ofNat (n % 4294967296).toNat

/-- `static_cast<int>` of one. -/
def toInt (n : Int) : Int := n.bmod 4294967296

def parseMessageOption (m : ProtoMessageDef) : TokenReader ProtoMessageDef := do
  let _ ← advance
  let (_, optName) ← parseOptionName filename
  expectSymbol filename equals
  if optName = lit "id" then
    let n ← parseInteger filename
    expectSymbol filename semicolon
    pure { m with id := toUint32 n }
  else if optName = lit "base_class" then
    let baseClass ← expectString filename (lit "expected string for (base_class)")
    expectSymbol filename semicolon
    pure { m with baseClass }
  else
    skipOptionValue filename
    expectSymbol filename semicolon
    pure m

/-- The words that must not start a field. -/
def unsupported : List CString :=
  [lit "oneof", lit "map", lit "group", lit "message", lit "enum", lit "extend", lit "extensions"]

/-- `repeated` or a word for a single field, if there is one. -/
def parseLabel : TokenReader Bool := do
  let t ← peek
  if t.isIdent (lit "repeated") then
    let _ ← advance
    pure true
  else if t.isIdent (lit "optional") || t.isIdent (lit "required") then
    let _ ← advance
    pure false
  else pure false

/-- The part of `parse_message_member` for a field. -/
def parseField (m : ProtoMessageDef) : TokenReader ProtoMessageDef := do
  let repeated ← parseLabel
  let typeName ← expectIdentifier filename
  let name ← expectIdentifier filename
  expectSymbol filename equals
  let number ← parseInteger filename
  let f ← parseFieldOptions filename { name, typeName, number := toInt number, repeated }
  expectSymbol filename semicolon
  pure { m with fields := m.fields ++ [f] }

/-- A turn of the loop of `parse_message`. -/
def parseMessageMember (m : ProtoMessageDef) : TokenReader ProtoMessageDef := do
  let t ← peek
  if t.isEnd then error filename (lit "unterminated message")
  else if t.isIdent (lit "option") then parseMessageOption filename m
  else if t.isIdent (lit "reserved") then
    skipUntilSemicolon filename
    pure m
  else if unsupported.any t.isIdent then
    error filename (lit "unsupported construct in message body")
  else parseField filename m

def parseMessage (file : ProtoFile) : TokenReader ProtoFile := do
  let _ ← advance
  let name ← expectIdentifier filename
  expectSymbol filename openBrace
  let m ← until_ (isSymbol closeBrace) (parseMessageMember filename) { name }
  expectSymbol filename closeBrace
  pure { file with messages := file.messages ++ [m] }

/-! ## Files -/

def parseSyntax (file : ProtoFile) : TokenReader ProtoFile := do
  let _ ← advance
  expectSymbol filename equals
  let version ← expectString filename (lit "expected syntax string")
  if version = lit "proto3" ∨ version = lit "proto2" then
    expectSymbol filename semicolon
    pure file
  else error filename (lit "unsupported syntax '" ++ version ++ lit "'")

def parsePackage (file : ProtoFile) : TokenReader ProtoFile := do
  let _ ← advance
  let package ← expectIdentifier filename
  expectSymbol filename semicolon
  pure { file with package }

def parseImport (file : ProtoFile) : TokenReader ProtoFile := do
  let _ ← advance
  let _ ← expectString filename (lit "expected import path string")
  expectSymbol filename semicolon
  pure file

/-- `service Name { … }`, and `extend Name { … }`. -/
def parseSkippedBlock (file : ProtoFile) : TokenReader ProtoFile := do
  let _ ← advance
  let _ ← expectIdentifier filename
  skipBracedBlock filename
  pure file

def parseTopLevel (file : ProtoFile) : TokenReader ProtoFile := do
  let t ← peek
  if t.isIdent (lit "syntax") then parseSyntax filename file
  else if t.isIdent (lit "package") then parsePackage filename file
  else if t.isIdent (lit "import") then parseImport filename file
  else if t.isIdent (lit "option") then
    skipUntilSemicolon filename
    pure file
  else if t.isIdent (lit "enum") then parseEnum filename file
  else if t.isIdent (lit "message") then parseMessage filename file
  else if t.isIdent (lit "service") then parseSkippedBlock filename file
  else if t.isIdent (lit "extend") then parseSkippedBlock filename file
  else error filename (lit "unexpected top-level token")

/-- `Parser::run`. -/
def run : ProtoFile → TokenReader ProtoFile := until_ atEnd (parseTopLevel filename)

def parseInto (tokens : List Token) (file : ProtoFile) :
    Except (Failure RuntimeError) ProtoFile :=
  match run filename file tokens with
  | .ok (file, _) => .ok file
  | .error e => .error e

end

end EsphomeApi.Protogen
