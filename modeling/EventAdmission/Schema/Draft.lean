/-!
# Drafts of the schema language

The three drafts that schemas are compiled with, in the order of their age.
-/

namespace EventAdmission

inductive Draft where
  | draft4
  | draft6
  | draft7
deriving DecidableEq

namespace Draft

def all : List Draft := [draft4, draft6, draft7]

def name : Draft → String
  | draft4 => "draft4"
  | draft6 => "draft6"
  | draft7 => "draft7"

def names : List (String × Draft) := all.map fun d => (d.name, d)

end Draft

end EventAdmission
