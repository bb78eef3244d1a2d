import EventAdmission.Json.Basic
import EventAdmission.Number.Shortest

/-!
# JSON text

The compact text of a JSON value: no blanks, members in their order. In a
string the quote, the backslash and the control characters below U+0020 are
escaped, and nothing else.
-/

namespace EventAdmission

def hexDigit (n : Nat) : Char := Nat.digitChar (n % 16)

namespace Json

def escape (c : Char) : List Char :=
  match c with
  | '"' => ['\\', '"']
  | '\\' => ['\\', '\\']
  | '\x08' => ['\\', 'b']
  | '\x0c' => ['\\', 'f']
  | '\n' => ['\\', 'n']
  | '\r' => ['\\', 'r']
  | '\t' => ['\\', 't']
  | c =>
    if c.toNat < 0x20 then ['\\', 'u', '0', '0', hexDigit (c.toNat / 16), hexDigit c.toNat] else [c]

def quoted (s : String) : List Char := '"' :: (s.toList.flatMap escape ++ ['"'])

end Json

def Number.chars : Number → List Char
  | natural n => Nat.toDigits 10 n.toNat
  | negative n => '-' :: Nat.toDigits 10 (n.val + 1)
  | float x => (FloatStyle.json.write x).toList

namespace Json

mutual

def chars : Json → List Char
  | null => ['n', 'u', 'l', 'l']
  | bool true => ['t', 'r', 'u', 'e']
  | bool false => ['f', 'a', 'l', 's', 'e']
  | num n => n.chars
  | str s => quoted s
  | arr items => '[' :: itemChars items ++ [']']
  | obj members => '\x7b' :: memberChars members ++ ['\x7d']

def itemChars : List Json → List Char
  | [] => []
  | [x] => chars x
  | x :: y :: rest => chars x ++ ',' :: itemChars (y :: rest)

def memberChars : List (String × Json) → List Char
  | [] => []
  | [(k, x)] => quoted k ++ ':' :: chars x
  | (k, x) :: e :: rest => quoted k ++ ':' :: (chars x ++ ',' :: memberChars (e :: rest))

end

def text (x : Json) : String := String.ofList x.chars

/-- A string stands bare in running text, anything else as JSON. -/
def display : Json → String
  | str s => s
  | x => x.text

end Json

end EventAdmission
