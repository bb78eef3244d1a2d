import EventAdmission.Schema.Fault
import EventAdmission.Schema.MetaSchema
import EventAdmission.Url.Basic

/-!
# Documents behind references

A schema can name parts of itself by identifiers. A reference is joined to the
base in force and looked up among those names, then in the schema as a whole,
then among the published schemas of the drafts; a fragment leads on from there.
-/

namespace EventAdmission

/-- Where evaluation stands: what references are relative to, and the rules of which draft hold. -/
structure Scope where
  base : Url
  draft : Draft

def anonymousBase : Url := ⟨"json-schema".toList, some [], .segments [[]], none, none⟩

namespace Schema

def idKeyword : Draft → String
  | .draft4 => "id"
  | _ => "$id"

def id? (draft : Draft) (schema : Json) : Option String :=
  (schema.member? (idKeyword draft)).bind Json.str?

def draft? (schema : Json) : Option Draft := do
  match ← (← schema.member? "$schema").str? with
  | "http://json-schema.org/draft-04/schema" => some .draft4
  | "http://json-schema.org/draft-04/schema#" => some .draft4
  | "http://json-schema.org/draft-06/schema" => some .draft6
  | "http://json-schema.org/draft-06/schema#" => some .draft6
  | "http://json-schema.org/draft-07/schema" => some .draft7
  | "http://json-schema.org/draft-07/schema#" => some .draft7
  | _ => none

end Schema

def Scope.enter (scope : Scope) (schema : Json) : Except UrlFault Scope :=
  match Schema.id? scope.draft schema with
  | none => .ok scope
  | some id => do pure { scope with base := ← scope.base.join id }

structure Corpus where
  root : Json
  named : List (String × Json)

namespace Corpus

mutual

def namesIn (draft : Draft) (base : Url) :
    (schema : Json) → Except UrlFault (List (String × Json))
  | .arr items => namesInItems draft base items
  | .obj members => do
    match Schema.id? draft (.obj members) with
    | none => namesInMembers draft base members
    | some id =>
      let url := (← base.join id).withoutEmptyFragment
      let inner ← namesInMembers draft url members
      pure ((url.text, .obj members) :: inner)
  | _ => .ok []

def namesInItems (draft : Draft) (base : Url) :
    List Json → Except UrlFault (List (String × Json))
  | [] => .ok []
  | x :: xs => do
    let first ← namesIn draft base x
    let rest ← namesInItems draft base xs
    pure (first ++ rest)

/-- Values that are only compared name nothing. -/
def namesInMembers (draft : Draft) (base : Url) :
    List (String × Json) → Except UrlFault (List (String × Json))
  | [] => .ok []
  | (key, x) :: rest => do
    let first ← if key = "enum" || key = "const" then pure [] else namesIn draft base x
    let others ← namesInMembers draft base rest
    pure (first ++ others)

end

/-- The base of a whole schema: its identifier, which must be absolute. -/
def rootBase (draft : Draft) (schema : Json) : Except UrlFault Url :=
  match Schema.id? draft schema with
  | none => .ok anonymousBase
  | some id => Url.parse id

def ofSchema (draft : Draft) (schema : Json) : Except UrlFault (Scope × Corpus) := do
  let base ← rootBase draft schema
  let named ← namesIn draft base schema
  pure (⟨base, draft⟩, ⟨schema, named⟩)

/-- The part under a name; of several the last. -/
def find? (c : Corpus) (name : String) : Option Json :=
  (c.named.reverse.find? (·.1 == name)).map (·.2)

def document? (c : Corpus) (url : Url) : Option Json :=
  match c.find? url.text with
  | some schema => some schema
  | none =>
    if url = anonymousBase then some c.root
    else MetaSchema.ofUrl? url.text

/-- The value below a document, with the identifiers of the objects on the way. -/
def descend (draft : Draft) (x : Json) : List (List Char) → Option (List String × Json)
  | [] => some ([], x)
  | t :: ts => do
    let (ids, target) ← descend draft (← x.token? t) ts
    some ((Schema.id? draft x).toList ++ ids, target)

def resolve (c : Corpus) (draft : Draft) (url : Url) : Except Cause (Url × Json) :=
  match c.find? url.text with
  | some schema => .ok (url, schema)
  | none =>
    let resource := url.withoutFragment
    match Text.utf8Decode (Text.percentDecode (url.fragment.getD [])) with
    | .error fault => .error (.unusable fault.message)
    | .ok fragment =>
      match c.document? resource with
      | none =>
        .error (.unusable ("failed to resolve " ++ resource.text ++ ": " ++ unknown resource))
      | some document =>
        match (Json.tokens? fragment).bind (descend draft document) with
        | none => .error (.unusable ("Invalid reference: " ++ url.text))
        | some (ids, target) =>
          match (ids.drop 1).foldlM (fun (base : Url) id => base.join id) resource with
          | .ok base => .ok (base, target)
          | .error fault => .error (.unusable fault.message)
where
  unknown (resource : Url) : String :=
    if resource.scheme = anonymousBase.scheme then
      "cannot resolve relative external schema without root schema ID"
    else "unknown scheme " ++ String.ofList resource.scheme

end Corpus

end EventAdmission
