/-
EsphomeApi.Protogen.Grammar — the files that the parser accepts, and what they
declare.

The relations are the grammar: what is between a list of tokens and the change
that it makes to a field, an enum, a message or a file. They are read off the
proto language as far as `parser.cpp` takes it; where the parser is more
liberal than the language, the grammar is too: the comma between two options
may be missing, the brackets of a kind that is skipped are counted without a
look at the other kinds, and a word such as `repeated` may be the name of a
type behind a label.
-/
import EsphomeApi.Library.Nesting
import EsphomeApi.Protogen.Parser

namespace EsphomeApi.Protogen

open Library Library.TokenParser

/-! ## What is skipped -/

/-- The inside of a pair of brackets of a kind. -/
abbrev Inside (open_ close : UInt8) : List Token → Prop :=
  Nested (·.isSymbol open_) (·.isSymbol close) Token.isEnd

/-- A pair of brackets of a kind with its inside. -/
inductive Block (open_ close : UInt8) : List Token → Prop where
  | mk {o c : Token} {inner : List Token} (hopen : o.isSymbol open_ = true)
      (hinner : Inside open_ close inner) (hclose : c.isSymbol close = true) :
      Block open_ close (o :: (inner ++ [c]))

/-- A block, or a token that opens none and is no semicolon. -/
inductive Piece : List Token → Prop where
  | braces {ts : List Token} (h : Block openBrace closeBrace ts) : Piece ts
  | brackets {ts : List Token} (h : Block openBracket closeBracket ts) : Piece ts
  | token {t : Token} (hend : t.isEnd = false) (hbrace : t.isSymbol openBrace = false)
      (hbracket : t.isSymbol openBracket = false) (hsemicolon : t.isSymbol semicolon = false) :
      Piece [t]

/-- Pieces up to a semicolon. -/
inductive Statement : List Token → Prop where
  | mk {pieces : List Token} {s : Token}
      (hpieces : Steps (fun (_ _ : Unit) ts => Piece ts) () () pieces)
      (hs : s.isSymbol semicolon = true) : Statement (pieces ++ [s])

/-- The options of an enum value. -/
inductive SkippedOptions : List Token → Prop where
  | none : SkippedOptions []
  | some {ts : List Token} (h : Block openBracket closeBracket ts) : SkippedOptions ts

inductive OptionValue : List Token → Prop where
  | token {t : Token} (h : t.kind = .string ∨ t.kind = .number ∨ t.kind = .identifier) :
      OptionValue [t]
  | block {ts : List Token} (h : Block openBrace closeBrace ts) : OptionValue ts

/-! ## Options -/

/-- A name, in parentheses or not. -/
inductive OptionName : Bool → CString → List Token → Prop where
  | plain {t : Token} (h : t.kind = .identifier) : OptionName false t.text [t]
  | parenthesized {o t c : Token} (hopen : o.isSymbol openParen = true)
      (h : t.kind = .identifier) (hclose : c.isSymbol closeParen = true) :
      OptionName true t.text [o, t, c]

/-- A comma, or none. -/
inductive OptionalComma : List Token → Prop where
  | none : OptionalComma []
  | some {t : Token} (h : t.isSymbol comma = true) : OptionalComma [t]

/-- An option of a field: `packed` with a Boolean, or one without a meaning. -/
inductive Assignment (f : ProtoField) : ProtoField → List Token → Prop where
  | packed {eq t : Token} {name : List Token} {b : Bool}
      (hname : OptionName false (lit "packed") name) (heq : eq.isSymbol equals = true)
      (hvalue : t.isIdent (if b then lit "true" else lit "false") = true) :
      Assignment f { f with packedExplicit := true, packedValue := b } (name ++ [eq, t])
  | other {parenthesized : Bool} {optName : CString} {eq : Token} {name value : List Token}
      (hname : OptionName parenthesized optName name)
      (hother : ¬ (parenthesized = false ∧ optName = lit "packed"))
      (heq : eq.isSymbol equals = true) (hvalue : OptionValue value) :
      Assignment f f (name ++ eq :: value)

inductive FieldOption (f : ProtoField) : ProtoField → List Token → Prop where
  | mk {f' : ProtoField} {body comma : List Token} (hbody : Assignment f f' body)
      (hcomma : OptionalComma comma) : FieldOption f f' (body ++ comma)

/-- The options of a field. -/
inductive FieldOptions (f : ProtoField) : ProtoField → List Token → Prop where
  | none : FieldOptions f f []
  | some {f' : ProtoField} {o c : Token} {options : List Token}
      (hopen : o.isSymbol openBracket = true) (hoptions : Steps FieldOption f f' options)
      (hclose : c.isSymbol closeBracket = true) :
      FieldOptions f f' (o :: (options ++ [c]))

/-! ## Enums -/

/-- A number and its value. -/
def Token.IsInteger (t : Token) (n : Int) : Prop := t.kind = .number ∧ stoll t.text = some n

inductive EnumItem (e : ProtoEnum) : ProtoEnum → List Token → Prop where
  | value {name eq number s : Token} {options : List Token} {n : Int}
      (hname : name.kind = .identifier) (hoption : name.isIdent (lit "option") = false)
      (hreserved : name.isIdent (lit "reserved") = false) (heq : eq.isSymbol equals = true)
      (hnumber : number.IsInteger n) (hoptions : SkippedOptions options)
      (hs : s.isSymbol semicolon = true) :
      EnumItem e { e with values := e.values ++ [⟨name.text, n⟩] }
        (name :: eq :: number :: (options ++ [s]))
  | skipped {t : Token} {ts : List Token}
      (h : t.isIdent (lit "option") = true ∨ t.isIdent (lit "reserved") = true)
      (hstatement : Statement (t :: ts)) : EnumItem e e (t :: ts)

/-! ## Messages -/

/-- An option of a message, behind the word `option`. -/
inductive MessageOption (m : ProtoMessageDef) : ProtoMessageDef → List Token → Prop where
  | id {parenthesized : Bool} {name : List Token} {eq number s : Token} {n : Int}
      (hname : OptionName parenthesized (lit "id") name) (heq : eq.isSymbol equals = true)
      (hnumber : number.IsInteger n) (hs : s.isSymbol semicolon = true) :
      MessageOption m { m with id := toUint32 n } (name ++ [eq, number, s])
  | baseClass {parenthesized : Bool} {name : List Token} {eq t s : Token}
      (hname : OptionName parenthesized (lit "base_class") name)
      (heq : eq.isSymbol equals = true) (ht : t.kind = .string)
      (hs : s.isSymbol semicolon = true) :
      MessageOption m { m with baseClass := t.text } (name ++ [eq, t, s])
  | other {parenthesized : Bool} {optName : CString} {name value : List Token} {eq s : Token}
      (hname : OptionName parenthesized optName name) (hid : optName ≠ lit "id")
      (hbase : optName ≠ lit "base_class") (heq : eq.isSymbol equals = true)
      (hvalue : OptionValue value) (hs : s.isSymbol semicolon = true) :
      MessageOption m m (name ++ eq :: (value ++ [s]))

/-- A word that stands before the type of a field. -/
def Token.isLabel (t : Token) : Bool :=
  t.isIdent (lit "repeated") || t.isIdent (lit "optional") || t.isIdent (lit "required")

/-- A label or none, and the type of a field. -/
inductive LabelledType : Bool → CString → List Token → Prop where
  | single {t : Token} (h : t.kind = .identifier) (hlabel : t.isLabel = false) :
      LabelledType false t.text [t]
  | labelled {l t : Token} (hlabel : l.isLabel = true) (h : t.kind = .identifier) :
      LabelledType (l.isIdent (lit "repeated")) t.text [l, t]

/-- A token with which a field starts. -/
def Token.startsField (t : Token) : Bool :=
  !t.isIdent (lit "option") && !t.isIdent (lit "reserved") && !unsupported.any t.isIdent

inductive MessageMember (m : ProtoMessageDef) : ProtoMessageDef → List Token → Prop where
  | option {m' : ProtoMessageDef} {t : Token} {ts : List Token}
      (h : t.isIdent (lit "option") = true) (hoption : MessageOption m m' ts) :
      MessageMember m m' (t :: ts)
  | reserved {t : Token} {ts : List Token} (h : t.isIdent (lit "reserved") = true)
      (hstatement : Statement (t :: ts)) : MessageMember m m (t :: ts)
  | field {repeated : Bool} {typeName : CString} {type options : List Token}
      {name eq number s : Token} {n : Int} {f : ProtoField}
      (htype : LabelledType repeated typeName type)
      (hstarts : ∀ t ∈ type.head?, t.startsField = true) (hname : name.kind = .identifier)
      (heq : eq.isSymbol equals = true) (hnumber : number.IsInteger n)
      (hoptions : FieldOptions { name := name.text, typeName, number := toInt n, repeated } f
        options) (hs : s.isSymbol semicolon = true) :
      MessageMember m { m with fields := m.fields ++ [f] }
        (type ++ name :: eq :: number :: (options ++ [s]))

/-! ## Files -/

inductive TopLevel (file : ProtoFile) : ProtoFile → List Token → Prop where
  | syntax_ {word eq version s : Token} (h : word.isIdent (lit "syntax") = true)
      (heq : eq.isSymbol equals = true) (hkind : version.kind = .string)
      (hversion : version.text = lit "proto3" ∨ version.text = lit "proto2")
      (hs : s.isSymbol semicolon = true) : TopLevel file file [word, eq, version, s]
  | package {word name s : Token} (h : word.isIdent (lit "package") = true)
      (hname : name.kind = .identifier) (hs : s.isSymbol semicolon = true) :
      TopLevel file { file with package := name.text } [word, name, s]
  | import_ {word path s : Token} (h : word.isIdent (lit "import") = true)
      (hpath : path.kind = .string) (hs : s.isSymbol semicolon = true) :
      TopLevel file file [word, path, s]
  | option {t : Token} {ts : List Token} (h : t.isIdent (lit "option") = true)
      (hstatement : Statement (t :: ts)) : TopLevel file file (t :: ts)
  | enum {word name o c : Token} {e : ProtoEnum} {items : List Token}
      (h : word.isIdent (lit "enum") = true) (hname : name.kind = .identifier)
      (hopen : o.isSymbol openBrace = true) (hitems : Steps EnumItem { name := name.text } e items)
      (hclose : c.isSymbol closeBrace = true) :
      TopLevel file { file with enums := file.enums ++ [e] }
        (word :: name :: o :: (items ++ [c]))
  | message {word name o c : Token} {m : ProtoMessageDef} {members : List Token}
      (h : word.isIdent (lit "message") = true) (hname : name.kind = .identifier)
      (hopen : o.isSymbol openBrace = true)
      (hmembers : Steps MessageMember { name := name.text } m members)
      (hclose : c.isSymbol closeBrace = true) :
      TopLevel file { file with messages := file.messages ++ [m] }
        (word :: name :: o :: (members ++ [c]))
  | skipped {word name : Token} {block : List Token}
      (h : word.isIdent (lit "service") = true ∨ word.isIdent (lit "extend") = true)
      (hname : name.kind = .identifier) (hblock : Block openBrace closeBrace block) :
      TopLevel file file (word :: name :: block)

end EsphomeApi.Protogen
