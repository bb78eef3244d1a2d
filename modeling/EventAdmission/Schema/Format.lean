import EventAdmission.Schema.Draft
import EventAdmission.Text.Blank
import EventAdmission.Timestamp
import EventAdmission.Unicode.Alphanumeric
import EventAdmission.Url.Basic

/-!
# Formats

The named forms of strings that a schema can ask for. A format belongs to some
drafts only; a name that means nothing to a draft asks for nothing.
-/

namespace EventAdmission

inductive Format where
  | dateTime
  | date
  | time
  | email
  | hostname
  | ipv4
  | ipv6
  | uri
  | uriReference
  | uriTemplate
  | jsonPointer
  | relativeJsonPointer
  | regex
deriving DecidableEq

namespace Format

def ofName? (draft : Draft) (name : String) : Option Format :=
  let since6 (f : Format) := if draft = .draft4 then none else some f
  let since7 (f : Format) := if draft = .draft7 then some f else none
  match name with
  | "date-time" => some dateTime
  | "date" => some date
  | "time" => some time
  | "email" => some email
  | "idn-email" => some email
  | "hostname" => some hostname
  | "idn-hostname" => since7 hostname
  | "ipv4" => some ipv4
  | "ipv6" => some ipv6
  | "uri" => some uri
  | "iri" => since7 uri
  | "uri-reference" => since6 uriReference
  | "iri-reference" => since7 uriReference
  | "uri-template" => since6 uriTemplate
  | "json-pointer" => since6 jsonPointer
  | "relative-json-pointer" => since7 relativeJsonPointer
  | "regex" => some regex
  | _ => none

-- ---------------------------------------------------------------------------
-- Times and names
-- ---------------------------------------------------------------------------

/-- A time of day with its offset, which a bar may start like a sign; a fraction of a second has six
digits. -/
def isTime (text : List Char) : Bool :=
  let parse : Option Bool := do
    let ((_, _, second), rest) ← Timestamp.clock text
    let rest ← match rest with
      | '.' :: digits => do
        let (_, rest) ← Timestamp.digits 6 digits
        pure rest
      | _ => pure rest
    let _ ← Timestamp.offsetAtEnd (fun c => c == '-' || c == '|') rest
    pure (second ≤ 59)
  parse.getD false

/-- An `@` behind the first character, and before it no dot at the start, doubled, or next to the
`@`. -/
def isEmail (text : List Char) : Bool :=
  match text with
  | '.' :: _ => false
  | _ => scan text
where
  scan : List Char → Bool
  | a :: b :: rest =>
    if a = '.' && (b = '.' || b = '@') then false
    else if b = '@' then true
    else scan (b :: rest)
  | _ => false

def isHostname (text : List Char) : Bool :=
  !text.isEmpty && text.head? ≠ some '-' && text.getLast? ≠ some '-' && text.length ≤ 255
    && text.all (fun c => c = '-' || c = '.' || Unicode.isAlphanumeric c)
    && (Text.splitAt '.' text).all fun label => label.length ≤ 63

def isIpv4 (text : List Char) : Bool := text.head? ≠ some '0' && (Host.quad? text).isSome

-- ---------------------------------------------------------------------------
-- References and templates
-- ---------------------------------------------------------------------------

/-- Text without backslashes and white space; whatever stands before a `#` may also stand behind
it. -/
def isUriReference (text : List Char) : Bool :=
  text.all fun c => c ≠ '\\' && !Text.isWhiteSpace c

/-- A tilde stands only before `0` or `1`. -/
def tildesEscape : List Char → Bool
  | '~' :: '0' :: rest => tildesEscape rest
  | '~' :: '1' :: rest => tildesEscape rest
  | '~' :: _ => false
  | _ :: rest => tildesEscape rest
  | [] => true

def isJsonPointer (text : List Char) : Bool :=
  (text.isEmpty || text.head? = some '/') && tildesEscape text

/-- A number of levels to go up, then a pointer or a `#`. -/
def isRelativeJsonPointer (text : List Char) : Bool :=
  let levels := text.takeWhile Timestamp.isDigit
  let rest := text.dropWhile Timestamp.isDigit
  !levels.isEmpty && (levels.length = 1 || levels.head? ≠ some '0')
    && (rest = ['#'] || isJsonPointer rest)

def isLowerHex (c : Char) : Bool := ('0' ≤ c && c ≤ '9') || ('a' ≤ c && c ≤ 'f')

def percent? : List Char → Option (List Char)
  | '%' :: a :: b :: rest => if isLowerHex a && isLowerHex b then some rest else none
  | _ => none

/-- Past the name of a variable, which is not empty; `fuel` bounds its length. -/
def variableName? : (fuel : Nat) → (found : Bool) → List Char → Option (List Char)
  | 0, _, _ => none
  | fuel + 1, found, text =>
    let stop := if found then some text else none
    match text with
    | c :: rest =>
      if ('a' ≤ c && c ≤ 'z') || ('0' ≤ c && c ≤ '9') || c = '_' then variableName? fuel true rest
      else
        match percent? text with
        | some rest => variableName? fuel true rest
        | none => stop
    | [] => stop

/-- Past the modifier of a variable: a star, or a length of at most four digits. -/
def pastModifier (text : List Char) : Option (List Char) :=
  match text with
  | '*' :: rest => some rest
  | ':' :: rest =>
    let digits := rest.takeWhile Timestamp.isDigit
    if digits.isEmpty || digits.head? = some '0' || 4 < digits.length then none
    else some (rest.drop digits.length)
  | _ => some text

def variables? : (fuel : Nat) → List Char → Option (List Char)
  | 0, _ => none
  | fuel + 1, text => do
    let rest ← pastModifier (← variableName? (text.length + 1) false text)
    match rest with
    | ',' :: rest => variables? fuel rest
    | '\x7d' :: rest => some rest
    | _ => none

def isTemplateLiteral (c : Char) : Bool :=
  0x20 < c.toNat && !"\"'<>%\\^`\x7b|\x7d".toList.contains c

/-- Literal text, percent signs with digits, and variables in braces. -/
def isUriTemplateFrom : (fuel : Nat) → List Char → Bool
  | _, [] => true
  | 0, _ :: _ => false
  | fuel + 1, c :: rest =>
    if isTemplateLiteral c then isUriTemplateFrom fuel rest
    else if c = '\x7b' then
      let rest := match rest with
        | o :: more => if "+#./;?&=,!@|".toList.contains o then more else rest
        | [] => rest
      match variables? (rest.length + 1) rest with
      | some rest => isUriTemplateFrom fuel rest
      | none => false
    else
      match percent? (c :: rest) with
      | some rest => isUriTemplateFrom fuel rest
      | none => false

def isUriTemplate (text : List Char) : Bool := isUriTemplateFrom text.length text

/-- Whether a text has a format; `isPattern` tells patterns. -/
def holds (isPattern : String → Bool) (f : Format) (text : String) : Bool :=
  match f with
  | dateTime => (Timestamp.readFormat text).isSome
  | date => Timestamp.isDate text
  | time => isTime text.toList
  | email => isEmail text.toList
  | hostname => isHostname text.toList
  | ipv4 => isIpv4 text.toList
  | ipv6 => (Host.ipv6? text.toList).isSome
  | uri => (Url.parse text).isOk
  | uriReference => isUriReference text.toList
  | uriTemplate => isUriTemplate text.toList
  | jsonPointer => isJsonPointer text.toList
  | relativeJsonPointer => isRelativeJsonPointer text.toList
  | regex => isPattern text

end Format

end EventAdmission
