import EventAdmission.Json.Basic
import EventAdmission.Text.Split

/-!
# Places in a JSON document

A path leads from the root of a document through keys and indices. A pointer is
its text: each step behind a slash, with `~` written as `~0` and `/` as `~1`.
-/

namespace EventAdmission

inductive Step where
  | key : String → Step
  | index : Nat → Step
deriving DecidableEq

abbrev Path := List Step

namespace Step

def escape (c : Char) : List Char :=
  if c = '~' then ['~', '0'] else if c = '/' then ['~', '1'] else [c]

def chars : Step → List Char
  | key k => k.toList.flatMap escape
  | index n => Nat.toDigits 10 n

def unescape : List Char → List Char
  | '~' :: '1' :: rest => '/' :: unescape rest
  | '~' :: '0' :: rest => '~' :: unescape rest
  | c :: rest => c :: unescape rest
  | [] => []

def index? (digits : List Char) : Option Nat :=
  if digits.isEmpty || !digits.all Char.isDigit then none
  else if digits.head? = some '0' && digits.length ≠ 1 then none
  else some (digits.foldl (fun n c => n * 10 + (c.toNat - '0'.toNat)) 0)

end Step

namespace Path

def chars (path : Path) : List Char := path.flatMap fun s => '/' :: s.chars

def pointer (path : Path) : String := String.ofList path.chars

end Path

namespace Json

def step? : Json → Step → Option Json
  | obj members, .key k => Keyed.find? members k
  | arr items, .index n => items[n]?
  | _, _ => none

def at? (x : Json) : Path → Option Json
  | [] => some x
  | s :: rest => do at? (← x.step? s) rest

def token? (x : Json) (token : List Char) : Option Json :=
  match x with
  | obj members => Keyed.find? members (String.ofList (Step.unescape token))
  | arr items => do items[← Step.index? (Step.unescape token)]?
  | _ => none

/-- The written steps of a pointer; it is empty or starts with a slash. -/
def tokens? : List Char → Option (List (List Char))
  | [] => some []
  | '/' :: rest => some (Text.splitAt '/' rest)
  | _ :: _ => none

def follow (x : Json) : List (List Char) → Option Json
  | [] => some x
  | t :: ts => do follow (← x.token? t) ts

def pointer? (x : Json) (pointer : String) : Option Json := do
  x.follow (← tokens? pointer.toList)

end Json

end EventAdmission
