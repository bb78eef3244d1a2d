import EventAdmission.Url.Host

/-!
# URLs

Parsing of absolute URLs and of references relative to a base. Two URLs are the
same resource if their texts agree, so the parts are kept in their written form.
-/

namespace EventAdmission

inductive UrlPath where
  /-- The segments behind each slash. -/
  | segments : List (List Char) → UrlPath
  | opaquePath : List Char → UrlPath
deriving DecidableEq

structure Url where
  scheme : List Char
  /-- Credentials, host and port, if there is a host at all. -/
  authority : Option (List Char)
  path : UrlPath
  query : Option (List Char)
  fragment : Option (List Char)
deriving DecidableEq

namespace Url

-- ---------------------------------------------------------------------------
-- Writing
-- ---------------------------------------------------------------------------

def UrlPath.chars : UrlPath → List Char
  | .segments parts => parts.flatMap ('/' :: ·)
  | .opaquePath text => text

def pathChars (u : Url) : List Char := UrlPath.chars u.path

def chars (u : Url) : List Char :=
  let authority := match u.authority with
    | some a => '/' :: '/' :: a
    | none => []
  let path := if u.authority.isNone && u.pathChars.take 2 = ['/', '/'] then
    '/' :: '.' :: u.pathChars else u.pathChars
  let query := match u.query with
    | some q => '?' :: q
    | none => []
  let fragment := match u.fragment with
    | some f => '#' :: f
    | none => []
  u.scheme ++ ':' :: (authority ++ path ++ query ++ fragment)

def text (u : Url) : String := String.ofList u.chars

def withoutFragment (u : Url) : Url := { u with fragment := none }

/-- An empty fragment is as good as none. -/
def withoutEmptyFragment (u : Url) : Url := if u.fragment = some [] then u.withoutFragment else u

-- ---------------------------------------------------------------------------
-- Characters
-- ---------------------------------------------------------------------------

def isControl (c : Char) : Bool := c.toNat ≤ 0x1f || c.toNat = 0x7f

def encodedInFragment (c : Char) : Bool := isControl c || " \"<>`".toList.contains c

def encodedInQuery (special : Bool) (c : Char) : Bool :=
  isControl c || " \"#<>".toList.contains c || (special && c = '\'')

def encodedInPath (c : Char) : Bool :=
  isControl c || " \"#<>?`\x7b\x7d".toList.contains c

def encodedInCredentials (c : Char) : Bool :=
  encodedInPath c || "/:;=@[\\]^|".toList.contains c

/-- The port that a scheme with rules of its own uses by default; `none` inside for a scheme
without ports. -/
def specialPort? (scheme : List Char) : Option (Option Nat) :=
  match String.ofList scheme with
  | "http" => some (some 80)
  | "https" => some (some 443)
  | "ws" => some (some 80)
  | "wss" => some (some 443)
  | "ftp" => some (some 21)
  | "file" => some none
  | _ => none

def isSpecial (scheme : List Char) : Bool := (specialPort? scheme).isSome

def isFile (scheme : List Char) : Bool := scheme == "file".toList

def isSlash (special : Bool) (c : Char) : Bool := c = '/' || (special && c = '\\')

-- ---------------------------------------------------------------------------
-- Parts
-- ---------------------------------------------------------------------------

/-- Blanks and controls at both ends, and tabs and line ends anywhere, are not part of a URL. -/
def trimmed (text : List Char) : List Char :=
  let blank (c : Char) : Bool := c.toNat ≤ 0x20
  let inner := (text.dropWhile blank).reverse.dropWhile blank |>.reverse
  inner.filter fun c => c ≠ '\t' && c ≠ '\n' && c ≠ '\r'

def scheme? (text : List Char) : Option (List Char × List Char) :=
  let isPart (c : Char) : Bool := c.isAlphanum || c = '+' || c = '-' || c = '.'
  let front := text.takeWhile isPart
  match text.dropWhile isPart with
  | ':' :: rest =>
    if front.head?.any Char.isAlpha then some (front.map Char.toLower, rest) else none
  | _ => none

def tail (special : Bool) (text : List Char) : Option (List Char) × Option (List Char) :=
  let beforeHash := text.takeWhile (· ≠ '#')
  let fragment := match text.dropWhile (· ≠ '#') with
    | _ :: rest => some (Text.percentEncode encodedInFragment rest)
    | [] => none
  let query := match beforeHash with
    | '?' :: rest => some (Text.percentEncode (encodedInQuery special) rest)
    | _ => none
  (query, fragment)

def isSingleDot (segment : List Char) : Bool :=
  ["." , "%2e"].contains (String.ofList (segment.map Char.toLower))

def isDoubleDot (segment : List Char) : Bool :=
  ["..", ".%2e", "%2e.", "%2e%2e"].contains (String.ofList (segment.map Char.toLower))

/-- Adds segments to a path, dots being steps in place or upwards. A step at the end leaves an
empty segment. -/
def walk (path : List (List Char)) : List (List Char) → List (List Char)
  | [] => path
  | segment :: rest =>
    let atEnd := if rest.isEmpty then [[]] else []
    if isDoubleDot segment then walk (path.dropLast ++ atEnd) rest
    else if isSingleDot segment then walk (path ++ atEnd) rest
    else walk (path ++ [Text.percentEncode encodedInPath segment]) rest

def splitPath (special : Bool) (text : List Char) : List (List Char) × List Char :=
  let isEnd (c : Char) : Bool := c = '?' || c = '#'
  let front := (text.takeWhile fun c => !isEnd c).map fun c => if isSlash special c then '/' else c
  (Text.splitAt '/' front, text.dropWhile fun c => !isEnd c)

def finish (scheme : List Char) (authority : Option (List Char)) (start : List (List Char))
    (text : List Char) : Url :=
  let special := isSpecial scheme
  let (segments, rest) := splitPath special text
  let (query, fragment) := tail special rest
  ⟨scheme, authority, .segments (walk start segments), query, fragment⟩

def afterAuthority (scheme authority text : List Char) : Url :=
  let special := isSpecial scheme
  match text with
  | c :: rest =>
    if isSlash special c then finish scheme (some authority) [] rest
    else if special then finish scheme (some authority) [] text
    else
      let (query, fragment) := tail false text
      ⟨scheme, some authority, .segments [], query, fragment⟩
  | [] => ⟨scheme, some authority, .segments (if special then [[]] else []), none, none⟩

/-- The text up to the last `@` of an authority, and what follows it. -/
def splitCredentials (authority : List Char) : Option (List Char) × List Char :=
  let back := authority.reverse.takeWhile (· ≠ '@')
  if back.length = authority.length then (none, authority)
  else (some (authority.take (authority.length - back.length - 1)), back.reverse)

def credentials (text : List Char) : List Char :=
  let name := Text.percentEncode encodedInCredentials (text.takeWhile (· ≠ ':'))
  let password := Text.percentEncode encodedInCredentials ((text.dropWhile (· ≠ ':')).drop 1)
  if name.isEmpty && password.isEmpty then []
  else name ++ (if password.isEmpty then [] else ':' :: password) ++ ['@']

/-- The host up to the colon of a port, which does not count inside brackets. -/
def splitPort (text : List Char) : List Char × Option (List Char) :=
  go false text
where
  go (inside : Bool) : List Char → List Char × Option (List Char)
  | [] => ([], none)
  | c :: rest =>
    if c = ':' && !inside then ([], some rest)
    else
      let (host, port) := go (if c = '[' then true else if c = ']' then false else inside) rest
      (c :: host, port)

def port (scheme text : List Char) : Except UrlFault (List Char) :=
  if text.all Char.isDigit then
    let n := Host.decimal text
    if 65535 < n then .error .invalidPort
    else if text.isEmpty || specialPort? scheme = some (some n) then .ok []
    else .ok (':' :: Nat.toDigits 10 n)
  else .error .invalidPort

def withAuthority (scheme text : List Char) : Except UrlFault Url := do
  let special := isSpecial scheme
  let isEnd (c : Char) : Bool := isSlash special c || c = '?' || c = '#'
  let (user, rest) := splitCredentials (text.takeWhile fun c => !isEnd c)
  let after := text.dropWhile fun c => !isEnd c
  if user = some [] && rest.isEmpty && !after.isEmpty then .error .emptyHost
  else
    let (hostText, portText) := splitPort rest
    if special && hostText.isEmpty then .error .emptyHost
    else
      let host ← if special then Host.special hostText else Host.opaqueText hostText
      let userText := credentials (user.getD [])
      if host.isEmpty && (portText.isSome || !userText.isEmpty) then .error .emptyHost
      else
        let portText ← port scheme (portText.getD [])
        pure (afterAuthority scheme (userText ++ host ++ portText) after)

def file (base : Option Url) (text : List Char) : Except UrlFault Url := do
  let scheme := "file".toList
  match text with
  | a :: b :: rest =>
    if isSlash true a && isSlash true b then
      let isEnd (c : Char) : Bool := isSlash true c || c = '?' || c = '#'
      let hostText := rest.takeWhile fun c => !isEnd c
      let host ← if hostText.isEmpty then pure [] else Host.special hostText
      let host := if host = "localhost".toList then [] else host
      pure (afterAuthority scheme host (rest.dropWhile fun c => !isEnd c))
    else if isSlash true a then pure (finish scheme (some []) [] (b :: rest))
    else relative text
  | [a] => if isSlash true a then pure (finish scheme (some []) [] []) else relative text
  | [] => relative text
where
  relative (text : List Char) : Except UrlFault Url :=
    let start := match base with
      | some ⟨_, _, .segments parts, _, _⟩ => parts.dropLast
      | _ => []
    .ok (finish "file".toList (base.bind (·.authority) <|> some []) start text)

def absolute (base : Option Url) (scheme text : List Char) : Except UrlFault Url :=
  if isFile scheme then file (base.filter (isFile ·.scheme)) text
  else if isSpecial scheme then withAuthority scheme (text.dropWhile (isSlash true))
  else
    match text with
    | '/' :: '/' :: rest => withAuthority scheme rest
    | '/' :: rest => .ok (finish scheme none [] rest)
    | _ =>
      let isEnd (c : Char) : Bool := c = '?' || c = '#'
      let (query, fragment) := tail false (text.dropWhile fun c => !isEnd c)
      let path := Text.percentEncode isControl (text.takeWhile fun c => !isEnd c)
      .ok ⟨scheme, none, .opaquePath path, query, fragment⟩

def relativeTo (base : Url) (parts : List (List Char)) (text : List Char) :
    Except UrlFault Url :=
  let special := isSpecial base.scheme
  match text with
  | [] => .ok base.withoutFragment
  | '?' :: _ =>
    let (query, fragment) := tail special text
    .ok { base with query, fragment }
  | a :: rest =>
    if isSlash true a then
      match rest with
      | b :: rest' =>
        if isSlash true b then
          if isFile base.scheme then file (some base) text
          else withAuthority base.scheme (rest'.dropWhile fun c => special && isSlash true c)
        else .ok (finish base.scheme base.authority [] rest)
      | [] => .ok (finish base.scheme base.authority [] rest)
    else .ok (finish base.scheme base.authority parts.dropLast text)

def parseWith (base : Option Url) (text : List Char) : Except UrlFault Url :=
  let text := trimmed text
  match scheme? text with
  | some (scheme, rest) =>
    match base with
    | some b =>
      let slashes := (rest.takeWhile (isSlash true)).length
      match b.path with
      | .segments parts =>
        if isSpecial scheme && !isFile scheme && b.scheme = scheme && slashes < 2 then
          relativeTo b parts rest
        else absolute base scheme rest
      | .opaquePath _ => absolute base scheme rest
    | none => absolute none scheme rest
  | none =>
    match base with
    | none => .error .relativeWithoutBase
    | some b =>
      match text with
      | '#' :: fragment =>
        .ok { b with fragment := some (Text.percentEncode encodedInFragment fragment) }
      | _ =>
        match b.path with
        | .segments parts => relativeTo b parts text
        | .opaquePath _ => .error .relativeToOpaqueBase

def parse (text : String) : Except UrlFault Url := parseWith none text.toList

def join (base : Url) (reference : String) : Except UrlFault Url :=
  parseWith (some base) reference.toList

end Url

end EventAdmission
