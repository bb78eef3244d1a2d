import EventAdmission.Json.Reader
import EventAdmission.Schema.Corpus
import EventAdmission.Schema.Rule
import EventAdmission.Text.Base64

/-!
# Evaluation

A value is checked against a schema by the rules of its members, in the order of
their keys. References are resolved when they are met, so a schema that leads
back to itself at the same value has no answer: evaluation counts its steps down
and gives `none` when they are used up. Where only the verdict matters, the
first fault ends the search.
-/

namespace EventAdmission

/-- What an evaluation is for: all faults, or whether there are any. -/
inductive Goal where
  | faults
  | verdict
deriving DecidableEq

/-- An evaluation of schemas below the one at hand. -/
abbrev Evaluator := Goal → Scope → Json → Json → Path → Option (List Fault)

namespace Evaluation

def inOrder {α : Type} (goal : Goal) (check : α → Option (List Fault)) :
    List α → Option (List Fault)
  | [] => some []
  | x :: xs => do
    let first ← check x
    if goal = .verdict && !first.isEmpty then some first
    else
      let rest ← inOrder goal check xs
      some (first ++ rest)

def isValid (sub : Evaluator) (scope : Scope) (schema x : Json) : Option Bool :=
  (sub .verdict scope schema x []).map List.isEmpty

def behindFirstValid (sub : Evaluator) (scope : Scope) (x : Json) :
    List Json → Option (Option (List Json))
  | [] => some none
  | s :: rest => do
    if ← isValid sub scope s x then some (some rest) else behindFirstValid sub scope x rest

def someValid (sub : Evaluator) (scope : Scope) (schema : Json) : List Json → Option Bool
  | [] => some false
  | x :: xs => do if ← isValid sub scope schema x then some true else someValid sub scope schema xs

def faultUnless (right : Bool) (path : Path) (x : Json) (cause : Cause) : Option (List Fault) :=
  some (if right then [] else [⟨path, x, cause⟩])

-- ---------------------------------------------------------------------------
-- Scalars
-- ---------------------------------------------------------------------------

def inRange (side : Side) (exclusive : Bool) (limit n : Number) : Bool :=
  match side, exclusive with
  | .least, false => limit.le n
  | .least, true => limit.lt n
  | .most, false => n.le limit
  | .most, true => n.lt limit

/-- The step from one to the next double: what is below it counts as no difference. -/
def tolerance : Fraction := ⟨1, 2 ^ 52⟩

/-- Whether a number is a multiple. For a whole factor the remainder must be zero; for another one
the quotient, rounded, must have next to no part behind the point. -/
def isMultiple (factor x : Binary64) : Bool :=
  if factor.toFraction.isWhole then
    x.toFraction.isWhole && factor.toFraction.divides x.toFraction
  else
    match x.div? factor with
    | some quotient => quotient.fractionalPart.lt tolerance
    | none => factor.shortest.toFraction.divides x.shortest.toFraction

def isSame (a b : Json) : Bool :=
  match a, b with
  | .num m, .num n =>
    match m.toBinary64.distance? n.toBinary64 with
    | some d => d.toFraction.lt tolerance
    | none => false
  | _, _ => a.sameMeaning b

def sizeBy : Measure → Json → Option Nat
  | .characters, .str s => some s.length
  | .items, .arr items => some items.length
  | .properties, .obj members => some members.length
  | _, _ => none

def sizeFits (side : Side) (limit n : Nat) : Bool :=
  match side with
  | .least => limit ≤ n
  | .most => n ≤ limit

def isJsonText (text : String) : Bool := (Json.read text).isOk

def isPattern (text : String) : Bool := (Pattern.ofKeyword? text).isSome

def search (source : String) (pattern : Pattern) (text : String) : Option Cause :=
  match pattern.search text with
  | .found => none
  | .absent => some (.noMatch source)
  | .exhausted => some .matchGaveUp

/-- A JSON text in base 64. Bytes that are no text are a fault of no particular place. -/
def decodedFaults (path : Path) (x : Json) (text : String) : List Fault :=
  match Text.base64Decode? text.toList with
  | none => [⟨path, x, .wrongEncoding "base64"⟩]
  | some bytes =>
    match Text.utf8Decode bytes with
    | .error fault => [⟨[], x, .unusable fault.message⟩]
    | .ok chars =>
      if isJsonText (String.ofList chars) then []
      else [⟨path, x, .wrongMediaType "application/json"⟩]

-- ---------------------------------------------------------------------------
-- Objects
-- ---------------------------------------------------------------------------

def matchingSchemas (patterns : List KeyPattern) (key : String) : List Json :=
  patterns.filterMap fun p =>
    match p.pattern with
    | some pattern => if pattern.search key = .found then some p.schema else none
    | none => none

def missingKeys (members : Members) (path : Path) (x : Json) (names : List String) : List Fault :=
  (names.filter fun name => !Keyed.contains members name).map fun name => ⟨path, x, .missing name⟩

/-- The schemas that apply to a property of a closed object: those of its name, then those of its
patterns. -/
def namedSchemas (properties : Option Members) (patterns : Option (List KeyPattern))
    (key : String) : List Json :=
  (Keyed.find? (properties.getD []) key).toList ++ matchingSchemas (patterns.getD []) key

def unnamedKeys (properties : Option Members) (patterns : Option (List KeyPattern))
    (members : Members) : List String :=
  (Keyed.keys members).filter fun key => (namedSchemas properties patterns key).isEmpty

/-- The check of a closed object. Keys that are not allowed are told together at the end; where no
rule could allow any key, the value of the first one is told instead. -/
def closedFaults (sub : Evaluator) (goal : Goal) (scope : Scope)
    (properties : Option Members) (patterns : Option (List KeyPattern)) (rest : Remainder)
    (members : Members) (x : Json) (path : Path) : Option (List Fault) := do
  let property (e : String × Json) : Option (List Fault) :=
    let schemas := namedSchemas properties patterns e.1
    let schemas := match schemas, rest with
      | [], .checked schema => [schema]
      | _, _ => schemas
    inOrder goal (fun s => sub goal scope s e.2 (path ++ [.key e.1])) schemas
  let named ← inOrder goal property members
  match rest with
  | .checked _ => some named
  | .forbidden =>
    if properties.isNone && patterns.isNone then
      match members with
      | [] => some []
      | (_, first) :: _ => some [⟨path, first, .nothingAllowed⟩]
    else
      match unnamedKeys properties patterns members with
      | [] => some named
      | keys => some (named ++ [⟨path, x, .unexpectedProperties keys⟩])

/-- A schema for names sees each key as a string; its faults are told at the object. -/
def nameFaults (sub : Evaluator) (goal : Goal) (scope : Scope) (schema : Json)
    (members : Members) (x : Json) (path : Path) : Option (List Fault) :=
  match schema with
  | .bool false => faultUnless members.isEmpty path x .nothingAllowed
  | _ =>
    inOrder goal (fun key => do
      let faults ← sub goal scope schema (.str key) path
      some (faults.map fun f => ⟨path, x, .badName f.text⟩)) (Keyed.keys members)

-- ---------------------------------------------------------------------------
-- Rules
-- ---------------------------------------------------------------------------

def numbered (start : Nat) (items : List Json) : List (Nat × Json) :=
  (items.drop start).zipIdx.map fun e => (start + e.2, e.1)

def ruleFaults (sub : Evaluator) (goal : Goal) (scope : Scope) (rule : Rule) (x : Json)
    (path : Path) : Option (List Fault) :=
  let here (right : Bool) (cause : Cause) := faultUnless right path x cause
  match rule, x with
  | .kinds expected, _ => here (expected.any fun k => k.holds scope.draft x) (.wrongKind expected)
  | .range side exclusive limit, .num n =>
    here (inRange side exclusive limit n) (.outOfRange side exclusive limit)
  | .multiple factor, .num n => here (isMultiple factor n.toBinary64) (.notMultiple factor)
  | .size measure side limit, _ =>
    match sizeBy measure x with
    | some n => here (sizeFits side limit n) (.wrongSize measure side limit)
    | none => some []
  | .unique, .arr items => here (Json.allDistinct items) .notUnique
  | .listed options, _ => here (options.any x.sameMeaning) (.notListed options)
  | .expected value, _ => here (isSame value x) (.notExpected value)
  | .matching source pattern, .str s =>
    match search source pattern s with
    | none => some []
    | some cause => some [⟨path, x, cause⟩]
  | .format name format, .str s => here (format.holds isPattern s) (.wrongFormat name)
  | .encoded, .str s => here (Text.base64Decode? s.toList).isSome (.wrongEncoding "base64")
  | .jsonText false, .str s => here (isJsonText s) (.wrongMediaType "application/json")
  | .jsonText true, .str s => some (decodedFaults path x s)
  | .required names, .obj members => some (missingKeys members path x names)
  | .dependencies entries, .obj members =>
    inOrder goal (fun e =>
      match e.2 with
      | .arr names => some (missingKeys members path x (names.filterMap Json.str?))
      | schema => sub goal scope schema x path)
      (entries.filter fun e => Keyed.contains members e.1)
  | .properties entries, .obj members =>
    inOrder goal (fun e =>
      match Keyed.find? members e.1 with
      | some value => sub goal scope e.2 value (path ++ [.key e.1])
      | none => some []) entries
  | .patternProperties entries, .obj members =>
    inOrder goal (fun p =>
      inOrder goal (fun e =>
        inOrder goal (fun s => sub goal scope s e.2 (path ++ [.key e.1]))
          (matchingSchemas [p] e.1)) members) entries
  | .closed properties patterns rest, .obj members =>
    closedFaults sub goal scope properties patterns rest members x path
  | .propertyNames schema, .obj members => nameFaults sub goal scope schema members x path
  | .eachItem schema, .arr items =>
    inOrder goal (fun e => sub goal scope schema e.2 (path ++ [.index e.1])) (numbered 0 items)
  | .itemsInOrder schemas, .arr items =>
    inOrder goal (fun e => sub goal scope e.1 e.2.2 (path ++ [.index e.2.1]))
      (schemas.zip (numbered 0 items))
  | .itemsBehind count schema, .arr items =>
    inOrder goal (fun e => sub goal scope schema e.2 (path ++ [.index e.1])) (numbered count items)
  | .itemsAtMost count, .arr items =>
    here (items.length ≤ count) (.unexpectedItems (items.drop count))
  | .nothing, _ => here false .nothingAllowed
  | .contains schema, .arr items => do here (← someValid sub scope schema items) .noItemValid
  | .all schemas, _ => inOrder goal (fun s => sub goal scope s x path) schemas
  | .any schemas, _ => do
    match ← behindFirstValid sub scope x schemas with
    | some _ => some []
    | none => here false (.noneValid "anyOf")
  | .one schemas, _ => do
    match ← behindFirstValid sub scope x schemas with
    | none => here false (.noneValid "oneOf")
    | some others =>
      match ← behindFirstValid sub scope x others with
      | none => some []
      | some _ => here false .severalValid
  | .exclude schema, _ => do here (!(← isValid sub scope schema x)) (.excluded schema)
  | .conditional condition yes no, _ => do
    match if ← isValid sub scope condition x then yes else no with
    | some schema => sub goal scope schema x path
    | none => some []
  | _, _ => some []

-- ---------------------------------------------------------------------------
-- Schemas
-- ---------------------------------------------------------------------------

/-- The first thing in a schema that makes no sense. References are not followed; `fuel` bounds the
depth of the schema. -/
def firstFault : (fuel : Nat) → Scope → Json → Option Fault
  | 0, _, _ => none
  | fuel + 1, scope, schema =>
    match schema with
    | .bool _ => none
    | .obj members =>
      let urlFault (fault : UrlFault) : Fault := Rule.broken schema (.unusable fault.message)
      match scope.enter schema with
      | .error fault => some (urlFault fault)
      | .ok scope =>
        match Keyed.find? members "$ref" with
        | some (.str reference) =>
          match scope.base.join reference with
          | .ok _ => none
          | .error fault => some (urlFault fault)
        | some _ => none
        | none =>
          members.findSome? fun e =>
            match Rule.ofMember scope.draft members e.1 e.2 with
            | .error fault => some fault
            | .ok none => none
            | .ok (some rule) =>
              (rule.parts e.2).findSome? fun part =>
                match part with
                | .schema s => firstFault fuel scope s
                | .masked s fault => (firstFault fuel scope s).map fun _ => fault
                | .fault fault => some fault
    | _ => some (Rule.malformed schema)

def follow (corpus : Corpus) (scope : Scope) (reference : String) :
    Except Fault (Scope × Json) :=
  let unusable (cause : Cause) : Except Fault (Scope × Json) := .error (Rule.broken .null cause)
  match scope.base.join reference with
  | .error fault => unusable (.unusable fault.message)
  | .ok url =>
    match corpus.resolve scope.draft url with
    | .error cause => unusable cause
    | .ok (base, target) =>
      let scope : Scope := ⟨base, (Schema.draft? target).getD scope.draft⟩
      match firstFault (target.depth + 1) scope target with
      | some fault => .error fault
      | none => .ok (scope, target)

/-- The faults of a value under a schema, given the evaluation of the schemas below it. -/
def schemaFaults (corpus : Corpus) (sub : Evaluator) : Evaluator :=
  fun goal scope schema x path =>
    match schema with
    | .bool false => some [⟨path, x, .nothingAllowed⟩]
    | .obj members =>
      let scope := match scope.enter schema with
        | .ok inner => inner
        | .error _ => scope
      match Keyed.find? members "$ref" with
      | some (.str reference) =>
        match follow corpus scope reference with
        | .ok (scope, target) => sub goal scope target x path
        | .error fault => some [fault]
      | some _ => some []
      | none =>
        inOrder goal (fun e =>
          match Rule.ofMember scope.draft members e.1 e.2 with
          | .ok (some rule) => ruleFaults sub goal scope rule x path
          | _ => some []) members
    | _ => some []

def faultsWithin (corpus : Corpus) : (steps : Nat) → Evaluator
  | 0 => fun _ _ _ _ _ => none
  | steps + 1 => schemaFaults corpus (faultsWithin corpus steps)

/-- More steps than any evaluation takes that does not come back to a schema at the same value: one
for each pair of places in the schemas, and that for each place in the value. -/
def enoughSteps (corpus : Corpus) (x : Json) : Nat :=
  (corpus.root.size + MetaSchema.totalSize + 1) ^ 2 * (x.size + 1)

def faults (corpus : Corpus) (scope : Scope) (x : Json) : Option (List Fault) :=
  faultsWithin corpus (enoughSteps corpus x) .faults scope corpus.root x []

end Evaluation

end EventAdmission
