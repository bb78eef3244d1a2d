import EventAdmission.Json.Basic
import EventAdmission.Schema.Draft

/-!
# Schemas of schemas

The published schema of each draft, which every schema of that draft has to
satisfy, and the address it is published under.
-/

namespace EventAdmission.MetaSchema

def draft4 : Json :=
  .obj [
    ("$schema", .str "http://json-schema.org/draft-04/schema#"),
    ("default", .obj []),
    ("definitions", .obj [
      ("positiveInteger", .obj [("minimum", .num (.natural 0)), ("type", .str "integer")]),
      ("positiveIntegerDefault0", .obj [
        ("allOf", .arr [
          .obj [("$ref", .str "#/definitions/positiveInteger")],
          .obj [("default", .num (.natural 0))]])]),
      ("schemaArray", .obj [
        ("items", .obj [("$ref", .str "#")]),
        ("minItems", .num (.natural 1)),
        ("type", .str "array")]),
      ("simpleTypes", .obj [
        ("enum", .arr [
          .str "array",
          .str "boolean",
          .str "integer",
          .str "null",
          .str "number",
          .str "object",
          .str "string"])]),
      ("stringArray", .obj [
        ("items", .obj [("type", .str "string")]),
        ("minItems", .num (.natural 1)),
        ("type", .str "array"),
        ("uniqueItems", .bool true)])]),
    ("dependencies", .obj [
      ("exclusiveMaximum", .arr [.str "maximum"]),
      ("exclusiveMinimum", .arr [.str "minimum"])]),
    ("description", .str "Core schema meta-schema"),
    ("id", .str "http://json-schema.org/draft-04/schema#"),
    ("properties", .obj [
      ("$schema", .obj [("type", .str "string")]),
      ("additionalItems", .obj [
        ("anyOf", .arr [.obj [("type", .str "boolean")], .obj [("$ref", .str "#")]]),
        ("default", .obj [])]),
      ("additionalProperties", .obj [
        ("anyOf", .arr [.obj [("type", .str "boolean")], .obj [("$ref", .str "#")]]),
        ("default", .obj [])]),
      ("allOf", .obj [("$ref", .str "#/definitions/schemaArray")]),
      ("anyOf", .obj [("$ref", .str "#/definitions/schemaArray")]),
      ("default", .obj []),
      ("definitions", .obj [
        ("additionalProperties", .obj [("$ref", .str "#")]),
        ("default", .obj []),
        ("type", .str "object")]),
      ("dependencies", .obj [
        ("additionalProperties", .obj [
          ("anyOf", .arr [
            .obj [("$ref", .str "#")],
            .obj [("$ref", .str "#/definitions/stringArray")]])]),
        ("type", .str "object")]),
      ("description", .obj [("type", .str "string")]),
      ("enum", .obj [("type", .str "array")]),
      ("exclusiveMaximum", .obj [("default", .bool false), ("type", .str "boolean")]),
      ("exclusiveMinimum", .obj [("default", .bool false), ("type", .str "boolean")]),
      ("format", .obj [("type", .str "string")]),
      ("id", .obj [("type", .str "string")]),
      ("items", .obj [
        ("anyOf", .arr [
          .obj [("$ref", .str "#")],
          .obj [("$ref", .str "#/definitions/schemaArray")]]),
        ("default", .obj [])]),
      ("maxItems", .obj [("$ref", .str "#/definitions/positiveInteger")]),
      ("maxLength", .obj [("$ref", .str "#/definitions/positiveInteger")]),
      ("maxProperties", .obj [("$ref", .str "#/definitions/positiveInteger")]),
      ("maximum", .obj [("type", .str "number")]),
      ("minItems", .obj [("$ref", .str "#/definitions/positiveIntegerDefault0")]),
      ("minLength", .obj [("$ref", .str "#/definitions/positiveIntegerDefault0")]),
      ("minProperties", .obj [("$ref", .str "#/definitions/positiveIntegerDefault0")]),
      ("minimum", .obj [("type", .str "number")]),
      ("multipleOf", .obj [
        ("exclusiveMinimum", .bool true),
        ("minimum", .num (.natural 0)),
        ("type", .str "number")]),
      ("not", .obj [("$ref", .str "#")]),
      ("oneOf", .obj [("$ref", .str "#/definitions/schemaArray")]),
      ("pattern", .obj [("format", .str "regex"), ("type", .str "string")]),
      ("patternProperties", .obj [
        ("additionalProperties", .obj [("$ref", .str "#")]),
        ("default", .obj []),
        ("type", .str "object")]),
      ("properties", .obj [
        ("additionalProperties", .obj [("$ref", .str "#")]),
        ("default", .obj []),
        ("type", .str "object")]),
      ("required", .obj [("$ref", .str "#/definitions/stringArray")]),
      ("title", .obj [("type", .str "string")]),
      ("type", .obj [
        ("anyOf", .arr [
          .obj [("$ref", .str "#/definitions/simpleTypes")],
          .obj [
            ("items", .obj [("$ref", .str "#/definitions/simpleTypes")]),
            ("minItems", .num (.natural 1)),
            ("type", .str "array"),
            ("uniqueItems", .bool true)]])]),
      ("uniqueItems", .obj [("default", .bool false), ("type", .str "boolean")])]),
    ("type", .str "object")]

def draft6 : Json :=
  .obj [
    ("$id", .str "http://json-schema.org/draft-06/schema#"),
    ("$schema", .str "http://json-schema.org/draft-06/schema#"),
    ("default", .obj []),
    ("definitions", .obj [
      ("nonNegativeInteger", .obj [("minimum", .num (.natural 0)), ("type", .str "integer")]),
      ("nonNegativeIntegerDefault0", .obj [
        ("allOf", .arr [
          .obj [("$ref", .str "#/definitions/nonNegativeInteger")],
          .obj [("default", .num (.natural 0))]])]),
      ("schemaArray", .obj [
        ("items", .obj [("$ref", .str "#")]),
        ("minItems", .num (.natural 1)),
        ("type", .str "array")]),
      ("simpleTypes", .obj [
        ("enum", .arr [
          .str "array",
          .str "boolean",
          .str "integer",
          .str "null",
          .str "number",
          .str "object",
          .str "string"])]),
      ("stringArray", .obj [
        ("default", .arr []),
        ("items", .obj [("type", .str "string")]),
        ("type", .str "array"),
        ("uniqueItems", .bool true)])]),
    ("properties", .obj [
      ("$id", .obj [("format", .str "uri-reference"), ("type", .str "string")]),
      ("$ref", .obj [("format", .str "uri-reference"), ("type", .str "string")]),
      ("$schema", .obj [("format", .str "uri"), ("type", .str "string")]),
      ("additionalItems", .obj [("$ref", .str "#")]),
      ("additionalProperties", .obj [("$ref", .str "#")]),
      ("allOf", .obj [("$ref", .str "#/definitions/schemaArray")]),
      ("anyOf", .obj [("$ref", .str "#/definitions/schemaArray")]),
      ("const", .obj []),
      ("contains", .obj [("$ref", .str "#")]),
      ("default", .obj []),
      ("definitions", .obj [
        ("additionalProperties", .obj [("$ref", .str "#")]),
        ("default", .obj []),
        ("type", .str "object")]),
      ("dependencies", .obj [
        ("additionalProperties", .obj [
          ("anyOf", .arr [
            .obj [("$ref", .str "#")],
            .obj [("$ref", .str "#/definitions/stringArray")]])]),
        ("type", .str "object")]),
      ("description", .obj [("type", .str "string")]),
      ("enum", .obj [("type", .str "array")]),
      ("examples", .obj [("items", .obj []), ("type", .str "array")]),
      ("exclusiveMaximum", .obj [("type", .str "number")]),
      ("exclusiveMinimum", .obj [("type", .str "number")]),
      ("format", .obj [("type", .str "string")]),
      ("items", .obj [
        ("anyOf", .arr [
          .obj [("$ref", .str "#")],
          .obj [("$ref", .str "#/definitions/schemaArray")]]),
        ("default", .obj [])]),
      ("maxItems", .obj [("$ref", .str "#/definitions/nonNegativeInteger")]),
      ("maxLength", .obj [("$ref", .str "#/definitions/nonNegativeInteger")]),
      ("maxProperties", .obj [("$ref", .str "#/definitions/nonNegativeInteger")]),
      ("maximum", .obj [("type", .str "number")]),
      ("minItems", .obj [("$ref", .str "#/definitions/nonNegativeIntegerDefault0")]),
      ("minLength", .obj [("$ref", .str "#/definitions/nonNegativeIntegerDefault0")]),
      ("minProperties", .obj [("$ref", .str "#/definitions/nonNegativeIntegerDefault0")]),
      ("minimum", .obj [("type", .str "number")]),
      ("multipleOf", .obj [("exclusiveMinimum", .num (.natural 0)), ("type", .str "number")]),
      ("not", .obj [("$ref", .str "#")]),
      ("oneOf", .obj [("$ref", .str "#/definitions/schemaArray")]),
      ("pattern", .obj [("format", .str "regex"), ("type", .str "string")]),
      ("patternProperties", .obj [
        ("additionalProperties", .obj [("$ref", .str "#")]),
        ("default", .obj []),
        ("propertyNames", .obj [("format", .str "regex")]),
        ("type", .str "object")]),
      ("properties", .obj [
        ("additionalProperties", .obj [("$ref", .str "#")]),
        ("default", .obj []),
        ("type", .str "object")]),
      ("propertyNames", .obj [("$ref", .str "#")]),
      ("required", .obj [("$ref", .str "#/definitions/stringArray")]),
      ("title", .obj [("type", .str "string")]),
      ("type", .obj [
        ("anyOf", .arr [
          .obj [("$ref", .str "#/definitions/simpleTypes")],
          .obj [
            ("items", .obj [("$ref", .str "#/definitions/simpleTypes")]),
            ("minItems", .num (.natural 1)),
            ("type", .str "array"),
            ("uniqueItems", .bool true)]])]),
      ("uniqueItems", .obj [("default", .bool false), ("type", .str "boolean")])]),
    ("title", .str "Core schema meta-schema"),
    ("type", .arr [.str "object", .str "boolean"])]

def draft7 : Json :=
  .obj [
    ("$id", .str "http://json-schema.org/draft-07/schema#"),
    ("$schema", .str "http://json-schema.org/draft-07/schema#"),
    ("default", .bool true),
    ("definitions", .obj [
      ("nonNegativeInteger", .obj [("minimum", .num (.natural 0)), ("type", .str "integer")]),
      ("nonNegativeIntegerDefault0", .obj [
        ("allOf", .arr [
          .obj [("$ref", .str "#/definitions/nonNegativeInteger")],
          .obj [("default", .num (.natural 0))]])]),
      ("schemaArray", .obj [
        ("items", .obj [("$ref", .str "#")]),
        ("minItems", .num (.natural 1)),
        ("type", .str "array")]),
      ("simpleTypes", .obj [
        ("enum", .arr [
          .str "array",
          .str "boolean",
          .str "integer",
          .str "null",
          .str "number",
          .str "object",
          .str "string"])]),
      ("stringArray", .obj [
        ("default", .arr []),
        ("items", .obj [("type", .str "string")]),
        ("type", .str "array"),
        ("uniqueItems", .bool true)])]),
    ("properties", .obj [
      ("$comment", .obj [("type", .str "string")]),
      ("$id", .obj [("format", .str "uri-reference"), ("type", .str "string")]),
      ("$ref", .obj [("format", .str "uri-reference"), ("type", .str "string")]),
      ("$schema", .obj [("format", .str "uri"), ("type", .str "string")]),
      ("additionalItems", .obj [("$ref", .str "#")]),
      ("additionalProperties", .obj [("$ref", .str "#")]),
      ("allOf", .obj [("$ref", .str "#/definitions/schemaArray")]),
      ("anyOf", .obj [("$ref", .str "#/definitions/schemaArray")]),
      ("const", .bool true),
      ("contains", .obj [("$ref", .str "#")]),
      ("contentEncoding", .obj [("type", .str "string")]),
      ("contentMediaType", .obj [("type", .str "string")]),
      ("default", .bool true),
      ("definitions", .obj [
        ("additionalProperties", .obj [("$ref", .str "#")]),
        ("default", .obj []),
        ("type", .str "object")]),
      ("dependencies", .obj [
        ("additionalProperties", .obj [
          ("anyOf", .arr [
            .obj [("$ref", .str "#")],
            .obj [("$ref", .str "#/definitions/stringArray")]])]),
        ("type", .str "object")]),
      ("description", .obj [("type", .str "string")]),
      ("else", .obj [("$ref", .str "#")]),
      ("enum", .obj [("items", .bool true), ("type", .str "array")]),
      ("examples", .obj [("items", .bool true), ("type", .str "array")]),
      ("exclusiveMaximum", .obj [("type", .str "number")]),
      ("exclusiveMinimum", .obj [("type", .str "number")]),
      ("format", .obj [("type", .str "string")]),
      ("if", .obj [("$ref", .str "#")]),
      ("items", .obj [
        ("anyOf", .arr [
          .obj [("$ref", .str "#")],
          .obj [("$ref", .str "#/definitions/schemaArray")]]),
        ("default", .bool true)]),
      ("maxItems", .obj [("$ref", .str "#/definitions/nonNegativeInteger")]),
      ("maxLength", .obj [("$ref", .str "#/definitions/nonNegativeInteger")]),
      ("maxProperties", .obj [("$ref", .str "#/definitions/nonNegativeInteger")]),
      ("maximum", .obj [("type", .str "number")]),
      ("minItems", .obj [("$ref", .str "#/definitions/nonNegativeIntegerDefault0")]),
      ("minLength", .obj [("$ref", .str "#/definitions/nonNegativeIntegerDefault0")]),
      ("minProperties", .obj [("$ref", .str "#/definitions/nonNegativeIntegerDefault0")]),
      ("minimum", .obj [("type", .str "number")]),
      ("multipleOf", .obj [("exclusiveMinimum", .num (.natural 0)), ("type", .str "number")]),
      ("not", .obj [("$ref", .str "#")]),
      ("oneOf", .obj [("$ref", .str "#/definitions/schemaArray")]),
      ("pattern", .obj [("format", .str "regex"), ("type", .str "string")]),
      ("patternProperties", .obj [
        ("additionalProperties", .obj [("$ref", .str "#")]),
        ("default", .obj []),
        ("propertyNames", .obj [("format", .str "regex")]),
        ("type", .str "object")]),
      ("properties", .obj [
        ("additionalProperties", .obj [("$ref", .str "#")]),
        ("default", .obj []),
        ("type", .str "object")]),
      ("propertyNames", .obj [("$ref", .str "#")]),
      ("readOnly", .obj [("default", .bool false), ("type", .str "boolean")]),
      ("required", .obj [("$ref", .str "#/definitions/stringArray")]),
      ("then", .obj [("$ref", .str "#")]),
      ("title", .obj [("type", .str "string")]),
      ("type", .obj [
        ("anyOf", .arr [
          .obj [("$ref", .str "#/definitions/simpleTypes")],
          .obj [
            ("items", .obj [("$ref", .str "#/definitions/simpleTypes")]),
            ("minItems", .num (.natural 1)),
            ("type", .str "array"),
            ("uniqueItems", .bool true)]])]),
      ("uniqueItems", .obj [("default", .bool false), ("type", .str "boolean")]),
      ("writeOnly", .obj [("default", .bool false), ("type", .str "boolean")])]),
    ("title", .str "Core schema meta-schema"),
    ("type", .arr [.str "object", .str "boolean"])]

def ofDraft : Draft → Json
  | .draft4 => draft4
  | .draft6 => draft6
  | .draft7 => draft7

def ofUrl? (url : String) : Option Json :=
  match url with
  | "http://json-schema.org/draft-04/schema" => some draft4
  | "http://json-schema.org/draft-06/schema" => some draft6
  | "http://json-schema.org/draft-07/schema" => some draft7
  | _ => none

def totalSize : Nat := draft4.size + draft6.size + draft7.size

end EventAdmission.MetaSchema
