import EventAdmission.Json.Equality
import EventAdmission.Pattern.Basic
import EventAdmission.Schema.Fault
import EventAdmission.Schema.Format

/-!
# Rules of a schema

A rule is what one keyword of a schema object asks of a value, read together
with the keywords beside it that it depends on. Subschemas stay as JSON. A
keyword that its draft does not know has no rule; one with a value that makes no
sense has a fault instead.
-/

namespace EventAdmission

/-- What becomes of properties that no other rule names. -/
inductive Remainder where
  | forbidden
  | checked (schema : Json)

/-- A pattern for keys with the schema of their values; the pattern may be unreadable. -/
structure KeyPattern where
  source : String
  pattern : Option Pattern
  schema : Json

inductive Rule where
  | kinds (expected : List Kind)
  | range (side : Side) (exclusive : Bool) (limit : Number)
  | multiple (factor : Binary64)
  | size (measure : Measure) (side : Side) (limit : Nat)
  | unique
  | listed (options : List Json)
  | expected (value : Json)
  | matching (source : String) (pattern : Pattern)
  | format (name : String) (format : Format)
  | encoded
  | jsonText (encoded : Bool)
  | required (names : List String)
  | dependencies (entries : List (String × Json))
  | properties (entries : List (String × Json))
  | patternProperties (entries : List KeyPattern)
  /-- Patterns that must be readable here, but ask for nothing. -/
  | readable (entries : List KeyPattern)
  | closed (properties : Option Members) (patterns : Option (List KeyPattern)) (rest : Remainder)
  | propertyNames (schema : Json)
  | eachItem (schema : Json)
  | itemsInOrder (schemas : List Json)
  | itemsBehind (count : Nat) (schema : Json)
  | itemsAtMost (count : Nat)
  | nothing
  | contains (schema : Json)
  | all (schemas : List Json)
  | any (schemas : List Json)
  | one (schemas : List Json)
  | exclude (schema : Json)
  | conditional (condition : Json) (yes no : Option Json)

namespace Rule

-- ---------------------------------------------------------------------------
-- Values that make no sense
-- ---------------------------------------------------------------------------

def broken (value : Json) (cause : Cause) : Fault := ⟨[], value, cause⟩

def malformed (value : Json) : Fault := broken value .malformedSchema

def expectKind {α : Type} (kind : Kind) (value : Json) : Except Fault α :=
  .error (broken value (.wrongKind [kind]))

def stringOf (value : Json) : Except Fault String :=
  match value with
  | .str s => .ok s
  | _ => expectKind .string value

def listOf (value : Json) : Except Fault (List Json) :=
  match value with
  | .arr items => .ok items
  | _ => expectKind .array value

def membersOf (value : Json) : Except Fault Members :=
  match value with
  | .obj members => .ok members
  | _ => expectKind .object value

def numberOf (value : Json) : Except Fault Number :=
  match value with
  | .num n => .ok n
  | _ => expectKind .number value

/-- A limit on a size: a natural number, written as draft 4 asks or, later, in any way. -/
def sizeOf (draft : Draft) (value : Json) : Except Fault Nat :=
  match value with
  | .num (.natural n) => .ok n.toNat
  | .num (.negative _) => .error (broken value (.outOfRange .least false (.natural 0)))
  | .num (.float x) =>
    if draft ≠ .draft4 && x.toFraction.isWhole then
      .ok (min (x.toFraction.num / x.toFraction.den).toNat (2 ^ 64 - 1))
    else expectKind .integer value
  | _ => expectKind .integer value

-- ---------------------------------------------------------------------------
-- Keywords
-- ---------------------------------------------------------------------------

def sortKinds (kinds : List Kind) : List Kind := Kind.all.filter kinds.contains

def kindsOf (value : Json) : Except Fault (List Kind) :=
  match value with
  | .str name =>
    match Kind.ofName? name with
    | some k => .ok [k]
    | none => .error (malformed value)
  | .arr items => do
    let kinds ← items.mapM fun item =>
      match item with
      | .str name =>
        match Kind.ofName? name with
        | some k => .ok k
        | none => .error (broken item (.notListed (Kind.all.map fun k => .str k.name)))
      | _ => expectKind .string item
    pure (sortKinds kinds)
  | _ => .error (broken value (.wrongKind [.array, .string]))

def namesOf (value : Json) : Except Fault (List String) := do (← listOf value).mapM stringOf

def patternOf (value : Json) : Except Fault Rule := do
  let source ← stringOf value
  match Pattern.ofKeyword? source with
  | some p => pure (.matching source p)
  | none => .error (broken value (.wrongFormat "regex"))

def keyPatterns (entries : List (String × Json)) : List KeyPattern :=
  entries.map fun e => ⟨e.1, Pattern.compile? e.1, e.2⟩

def closesProperties (siblings : Members) : Bool :=
  match Keyed.find? siblings "additionalProperties" with
  | some (.bool false) => true
  | some (.obj _) => true
  | _ => false

def additionalOf (siblings : Members) (value : Json) : Except Fault (Option Rule) := do
  let patterns ← match Keyed.find? siblings "patternProperties" with
    | none => pure none
    | some (.obj entries) => pure (some (keyPatterns entries))
    | some _ => .error (malformed value)
  let properties ← match value, Keyed.find? siblings "properties" with
    | .bool true, _ => pure none
    | _, none => pure none
    | _, some p => some <$> membersOf p
  match value with
  | .bool true => pure (patterns.map .readable)
  | .bool false => pure (some (.closed properties patterns .forbidden))
  | _ => pure (some (.closed properties patterns (.checked value)))

def itemsOf (value : Json) : Except Fault (Option Rule) :=
  match value with
  | .arr schemas => .ok (some (.itemsInOrder schemas))
  | .bool true => .ok none
  | _ => .ok (some (.eachItem value))

def additionalItemsOf (siblings : Members) (value : Json) : Except Fault (Option Rule) :=
  match Keyed.find? siblings "items" with
  | some (.bool false) => .ok (some .nothing)
  | some (.arr schemas) =>
    match value with
    | .obj _ => .ok (some (.itemsBehind schemas.length value))
    | .bool false => .ok (some (.itemsAtMost schemas.length))
    | _ => .ok none
  | _ => .ok none

/-- The rule of a text that holds JSON; in a known encoding it is decoded first. -/
def mediaTypeOf (siblings : Members) (value : Json) : Except Fault (Option Rule) := do
  let media ← stringOf value
  if media ≠ "application/json" then pure none
  else
    match Keyed.find? siblings "contentEncoding" with
    | none => pure (some (.jsonText false))
    | some encoding =>
      let name ← stringOf encoding
      pure (if name = "base64" then some (.jsonText true) else none)

def encodingOf (siblings : Members) (value : Json) : Except Fault (Option Rule) := do
  if Keyed.contains siblings "contentMediaType" then pure none
  else
    let name ← stringOf value
    pure (if name = "base64" then some .encoded else none)

/-- The rule for a condition, which needs a consequence to matter. -/
def conditionalOf (siblings : Members) (value : Json) : Option Rule :=
  match Keyed.find? siblings "then", Keyed.find? siblings "else" with
  | none, none => none
  | yes, no => some (.conditional value yes no)

def exclusiveBeside (draft : Draft) (siblings : Members) (keyword : String) : Bool :=
  draft = .draft4 && Keyed.find? siblings keyword == some (.bool true)

/-- The rule of a member of a schema object; `none` if the member asks for nothing. -/
def ofMember (draft : Draft) (siblings : Members) (key : String) (value : Json) :
    Except Fault (Option Rule) :=
  let always (r : Except Fault Rule) : Except Fault (Option Rule) := some <$> r
  let since6 (r : Except Fault (Option Rule)) : Except Fault (Option Rule) :=
    if draft = .draft4 then .ok none else r
  match key with
  | "type" => always (.kinds <$> kindsOf value)
  | "minimum" =>
    always (.range .least (exclusiveBeside draft siblings "exclusiveMinimum") <$> numberOf value)
  | "maximum" =>
    always (.range .most (exclusiveBeside draft siblings "exclusiveMaximum") <$> numberOf value)
  | "exclusiveMinimum" => since6 (always (.range .least true <$> numberOf value))
  | "exclusiveMaximum" => since6 (always (.range .most true <$> numberOf value))
  | "multipleOf" => always ((fun n => .multiple n.toBinary64) <$> numberOf value)
  | "minLength" => always (.size .characters .least <$> sizeOf draft value)
  | "maxLength" => always (.size .characters .most <$> sizeOf draft value)
  | "minItems" => always (.size .items .least <$> sizeOf draft value)
  | "maxItems" => always (.size .items .most <$> sizeOf draft value)
  | "minProperties" => always (.size .properties .least <$> sizeOf draft value)
  | "maxProperties" => always (.size .properties .most <$> sizeOf draft value)
  | "uniqueItems" => .ok (if value == .bool true then some .unique else none)
  | "enum" => always (.listed <$> listOf value)
  | "const" => since6 (.ok (some (.expected value)))
  | "pattern" => always (patternOf value)
  | "format" => do
    let name ← stringOf value
    pure ((Format.ofName? draft name).map (.format name))
  | "contentEncoding" => since6 (encodingOf siblings value)
  | "contentMediaType" => since6 (mediaTypeOf siblings value)
  | "required" => always (.required <$> namesOf value)
  | "dependencies" => always (.dependencies <$> membersOf value)
  | "properties" =>
    if closesProperties siblings then .ok none else always (.properties <$> membersOf value)
  | "patternProperties" =>
    if closesProperties siblings then .ok none
    else
      match value with
      | .obj entries => .ok (some (.patternProperties (keyPatterns entries)))
      | _ => .error (malformed value)
  | "additionalProperties" => additionalOf siblings value
  | "propertyNames" =>
    since6 (.ok (if value == .bool true then none else some (.propertyNames value)))
  | "items" => itemsOf value
  | "additionalItems" => additionalItemsOf siblings value
  | "contains" => since6 (.ok (some (.contains value)))
  | "allOf" => always (.all <$> listOf value)
  | "anyOf" => always (.any <$> listOf value)
  | "oneOf" => always (.one <$> listOf value)
  | "not" => .ok (some (.exclude value))
  | "if" => if draft = .draft7 then .ok (conditionalOf siblings value) else .ok none
  | _ => .ok none

-- ---------------------------------------------------------------------------
-- Parts that have to make sense too
-- ---------------------------------------------------------------------------

/-- What a rule is made of, in the order in which it is looked at. -/
inductive Part where
  | schema (s : Json)
  /-- Whatever is wrong in the schema, this fault is told. -/
  | masked (s : Json) (fault : Fault)
  | fault (f : Fault)

def Part.ofPattern (entry : KeyPattern) : List Part :=
  match entry.pattern with
  | some _ => [.schema entry.schema]
  | none => [.fault (broken entry.schema (.wrongFormat "regex"))]

def Part.ofMaskedPattern (fault : Fault) (entry : KeyPattern) : List Part :=
  match entry.pattern with
  | some _ => [.masked entry.schema fault]
  | none => [.fault fault]

/-- A list of names asks for members, a schema is one. -/
def Part.ofDependency (value : Json) : List Part :=
  match value with
  | .arr _ =>
    match namesOf value with
    | .ok _ => []
    | .error f => [.fault f]
  | _ => [.schema value]

def parts (value : Json) : Rule → List Part
  | dependencies entries => entries.flatMap fun e => Part.ofDependency e.2
  | properties entries => entries.map fun e => .schema e.2
  | patternProperties entries => entries.flatMap Part.ofPattern
  | readable entries => entries.flatMap (Part.ofMaskedPattern (malformed value))
  | closed named patterns rest =>
    (patterns.getD []).flatMap (Part.ofMaskedPattern (malformed value))
      ++ ((named.getD []).map fun e => .schema e.2)
      ++ (match rest with
        | .forbidden => []
        | .checked schema => [.schema schema])
  | propertyNames schema => [.schema schema]
  | eachItem schema => [.schema schema]
  | itemsInOrder schemas => schemas.map .schema
  | itemsBehind _ schema => [.schema schema]
  | contains schema => [.schema schema]
  | all schemas => schemas.map .schema
  | any schemas => schemas.map .schema
  | one schemas => schemas.map .schema
  | exclude schema => [.schema schema]
  | conditional condition yes no =>
    .schema condition :: (yes.toList ++ no.toList).map .schema
  | _ => []

end Rule

end EventAdmission
