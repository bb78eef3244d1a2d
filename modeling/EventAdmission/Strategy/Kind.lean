/-!
# Kinds of strategies

The three checks that a pipeline is made of. Each has a standard name.
-/

namespace EventAdmission

inductive StrategyKind where
  | schemaConformance
  | metadataCrossField
  | fieldPresence
deriving DecidableEq

namespace StrategyKind

def all : List StrategyKind := [schemaConformance, metadataCrossField, fieldPresence]

def name : StrategyKind → String
  | schemaConformance => "schema-conformance"
  | metadataCrossField => "metadata-cross-field"
  | fieldPresence => "field-presence"

def ofName? (name : String) : Option StrategyKind := all.find? fun k => k.name == name

end StrategyKind

end EventAdmission
