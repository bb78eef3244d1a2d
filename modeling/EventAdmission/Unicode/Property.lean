import EventAdmission.Unicode.Script
import EventAdmission.Unicode.Trait

/-!
# Properties by name

A property is a trait, a general category or a script. Capitals, blanks, dashes,
underscores and a leading "is" do not count in a name.
-/

namespace EventAdmission.Unicode

/-- A name without what does not count. `isc` keeps its "is": it does not name the category C. -/
def plainName (name : List Char) : String :=
  let plain (cs : List Char) : List Char :=
    (cs.filter fun c => c.toNat < 0x80 && c != ' ' && c != '_' && c != '-').map Char.toLower
  match name.map Char.toLower, name with
  | 'i' :: 's' :: _, _ :: _ :: rest =>
    if plain rest = ['c'] then "isc" else String.ofList (plain rest)
  | _, _ => String.ofList (plain name)

def categoryTrait? (name : String) : Option Trait :=
  if name = "any" then some ⟨[⟨0, 0x10FFFF⟩], []⟩
  else if name = "ascii" then some ⟨[⟨0, 0x7F⟩], []⟩
  else if name = "assigned" then some ⟨[⟨0, 0x10FFFF⟩], categoryCodes "cn"⟩
  else (categoryCodes? name).map .ofCodes

def property? (name : List Char) : Option Trait :=
  let name := plainName name
  (trait? name).or ((categoryTrait? name).or ((scriptCodes? name).map .ofCodes))

def propertyValue? (name value : List Char) : Option Trait :=
  let value := plainName value
  match plainName name with
  | "gc" | "generalcategory" => categoryTrait? value
  | "sc" | "script" => (scriptCodes? value).map .ofCodes
  | "scx" | "scriptextensions" => (extendedScriptCodes? value).map .ofCodes
  | _ => none

def digits : Trait := .ofCodes (categoryCodes "nd")

def whiteSpace : Trait := namedTrait "whitespace"

/-- Letters, marks, decimal digits, and what joins them to words. -/
def wordCharacters : Trait where
  codes := ["ll", "lm", "lo", "lt", "lu", "mc", "me", "mn", "nd", "nl", "pc"].flatMap categoryCodes
  reversed := [⟨0x200C, 0x200D⟩, ⟨0x24B6, 0x24E9⟩, ⟨0x1F130, 0x1F149⟩, ⟨0x1F150, 0x1F169⟩,
    ⟨0x1F170, 0x1F189⟩]

end EventAdmission.Unicode
