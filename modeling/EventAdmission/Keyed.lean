/-!
# Values under sorted keys

An association list with its keys in increasing order, each at most once. The
order of strings is that of their code points, which is also the byte order of
their UTF-8 forms. Building one from scratch keeps the last value of a key.
-/

namespace EventAdmission

/-- Values under keys; `Sorted` holds of every list that the operations below build. -/
abbrev Keyed (α : Type) := List (String × α)

namespace Keyed

variable {α : Type}

/-- Keys strictly increase from each entry to the next. -/
def Sorted (entries : Keyed α) : Prop := entries.Pairwise fun a b => a.1 < b.1

def find? (entries : Keyed α) (key : String) : Option α :=
  match entries with
  | [] => none
  | (k, v) :: rest => if k = key then some v else find? rest key

def contains (entries : Keyed α) (key : String) : Bool := (find? entries key).isSome

def insert (entries : Keyed α) (key : String) (value : α) : Keyed α :=
  match entries with
  | [] => [(key, value)]
  | (k, v) :: rest =>
    if key = k then (key, value) :: rest
    else if key < k then (key, value) :: (k, v) :: rest
    else (k, v) :: insert rest key value

def erase (entries : Keyed α) (key : String) : Keyed α :=
  entries.filter fun e => e.1 ≠ key

/-- Later entries replace earlier ones. -/
def ofList (entries : List (String × α)) : Keyed α :=
  entries.foldl (fun acc e => insert acc e.1 e.2) []

def keys (entries : Keyed α) : List String := entries.map (·.1)

end Keyed

end EventAdmission
