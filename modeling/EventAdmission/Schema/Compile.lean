import EventAdmission.Schema.Evaluate

/-!
# Compiled schemas

A schema is compiled once for a draft: its identifiers must be usable, it must
satisfy the published schema of the draft, and its keywords must make sense.
Then any number of documents can be checked. The patterns that the linear
matcher does not take are listed beforehand.
-/

namespace EventAdmission

structure CompiledSchema where
  scope : Scope
  corpus : Corpus

inductive CompileError where
  | identifier (fault : UrlFault)
  | faulty (fault : Fault)
  /-- The check against the published schema does not come to an end, which never happens. -/
  | unfinished

def CompileError.message : CompileError → String
  | identifier fault => fault.message
  | faulty fault => fault.text
  | unfinished => "schema validation does not terminate"

namespace Schema

-- ---------------------------------------------------------------------------
-- Slow patterns
-- ---------------------------------------------------------------------------

def memberPatterns (key : String) (value : Json) : List String :=
  match key, value with
  | "pattern", .str pattern => [pattern]
  | "patternProperties", .obj entries => Keyed.keys entries
  | _, _ => []

mutual

/-- All patterns of a document, those of a member before those inside it. -/
def patterns : Json → List String
  | .obj members => patternsInMembers members
  | .arr items => patternsInItems items
  | _ => []

def patternsInItems : List Json → List String
  | [] => []
  | x :: xs => patterns x ++ patternsInItems xs

def patternsInMembers : List (String × Json) → List String
  | [] => []
  | (key, x) :: rest => memberPatterns key x ++ patterns x ++ patternsInMembers rest

end

def patternsOutside (accepts : String → Bool) (schema : Json) : List String :=
  (patterns schema).filter fun p => !accepts p

def backtrackingPatterns (schema : Json) : List String := patternsOutside Pattern.isLinear schema

-- ---------------------------------------------------------------------------
-- Compilation
-- ---------------------------------------------------------------------------

def publishedFault (draft : Draft) (schema : Json) : Except CompileError Unit := do
  match Corpus.ofSchema draft (MetaSchema.ofDraft draft) with
  | .error fault => .error (.identifier fault)
  | .ok (scope, corpus) =>
    match Evaluation.faults corpus scope schema with
    | none => .error .unfinished
    | some [] => .ok ()
    | some (fault :: _) => .error (.faulty fault)

def compile (draft : Draft) (schema : Json) : Except CompileError CompiledSchema := do
  match Corpus.ofSchema draft schema with
  | .error fault => .error (.identifier fault)
  | .ok (scope, corpus) =>
    publishedFault draft schema
    match Evaluation.firstFault (schema.depth + 1) scope schema with
    | some fault => .error (.faulty fault)
    | none => .ok ⟨scope, corpus⟩

end Schema

namespace CompiledSchema

/-- The violations of a document in the order of their discovery; `none` if the schema leads back
to itself without end. -/
def violations (c : CompiledSchema) (x : Json) : Option (List Violation) :=
  (Evaluation.faults c.corpus c.scope x).map fun faults => faults.flatMap Fault.violations

end CompiledSchema

end EventAdmission
