import EventAdmission.Json.Shape

/-!
# Places in a text

A cursor is the rest of a text together with the place of the last byte read.
Lines count from one; columns count the bytes since the last line feed.
-/

namespace EventAdmission

structure Place where
  line : Nat
  column : Nat
deriving DecidableEq

inductive SyntaxFault where
  | endInValue
  | endInObject
  | endInList
  | endInString
  | expectedColon
  | expectedCommaOrBracket
  | expectedCommaOrBrace
  | expectedIdent
  | expectedValue
  | keyNotString
  | trailingComma
  | trailingCharacters
  | invalidNumber
  | numberOutOfRange
  | invalidEscape
  | unexpectedEndOfHex
  | loneSurrogate
  | controlCharacter
  | tooDeep
  /-- A well-formed text of the wrong shape. -/
  | shape : ShapeFault → SyntaxFault
deriving DecidableEq

namespace SyntaxFault

def message : SyntaxFault → String
  | endInValue => "EOF while parsing a value"
  | endInObject => "EOF while parsing an object"
  | endInList => "EOF while parsing a list"
  | endInString => "EOF while parsing a string"
  | expectedColon => "expected `:`"
  | expectedCommaOrBracket => "expected `,` or `]`"
  | expectedCommaOrBrace => "expected `,` or `\x7d`"
  | expectedIdent => "expected ident"
  | expectedValue => "expected value"
  | keyNotString => "key must be a string"
  | trailingComma => "trailing comma"
  | trailingCharacters => "trailing characters"
  | invalidNumber => "invalid number"
  | numberOutOfRange => "number out of range"
  | invalidEscape => "invalid escape"
  | unexpectedEndOfHex => "unexpected end of hex escape"
  | loneSurrogate => "lone leading surrogate in hex escape"
  | controlCharacter => "control character (\\u0000-\\u001F) found while parsing a string"
  | tooDeep => "recursion limit exceeded"
  | shape fault => fault.message

end SyntaxFault

structure ReadError where
  fault : SyntaxFault
  place : Place
deriving DecidableEq

def ReadError.message (e : ReadError) : String :=
  e.fault.message ++ " at line " ++ toString e.place.line ++ " column " ++ toString e.place.column

structure Cursor where
  rest : List Char
  place : Place

namespace Cursor

def ofText (text : String) : Cursor := ⟨text.toList, ⟨1, 0⟩⟩

def advance (place : Place) (c : Char) : Place :=
  if c = '\n' then ⟨place.line + 1, 0⟩ else ⟨place.line, place.column + c.utf8Size⟩

def peek? (s : Cursor) : Option Char := s.rest.head?

def skip (s : Cursor) : Cursor :=
  match s.rest with
  | [] => s
  | c :: rest => ⟨rest, advance s.place c⟩

/-- The place of the next byte; at the end of the text that of the last one. -/
def ahead (s : Cursor) : Place :=
  match s.rest with
  | [] => s.place
  | c :: _ => if c = '\n' then ⟨s.place.line + 1, 0⟩ else ⟨s.place.line, s.place.column + 1⟩

/-- A fault at the last byte read. -/
def failHere {α : Type} (s : Cursor) (fault : SyntaxFault) : Except ReadError α :=
  .error ⟨fault, s.place⟩

def failAhead {α : Type} (s : Cursor) (fault : SyntaxFault) : Except ReadError α :=
  .error ⟨fault, s.ahead⟩

def isBlank (c : Char) : Bool := c == ' ' || c == '\n' || c == '\t' || c == '\r'

def skipWhile (keep : Char → Bool) (s : Cursor) : Cursor :=
  go s.rest s.place
where
  go : List Char → Place → Cursor
  | [], place => ⟨[], place⟩
  | c :: rest, place => if keep c then go rest (advance place c) else ⟨c :: rest, place⟩

def skipBlanks (s : Cursor) : Cursor := s.skipWhile isBlank

def word (s : Cursor) : List Char → Except ReadError Cursor
  | [] => .ok s
  | w :: ws =>
    match s.peek? with
    | none => s.failHere .endInValue
    | some c => if c = w then word s.skip ws else s.failAhead .expectedIdent

end Cursor

end EventAdmission
