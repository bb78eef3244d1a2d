import EventAdmission.Json.Pointer

/-!
# Declared fields

A field path such as `order.id` is declared if each of its names is a property
below the one before. Local references are followed on the way, a bounded number
of times in a row.
-/

namespace EventAdmission.DeclaredField

def hopLimit : Nat := 32

def target? (root node : Json) : Option Json := do
  let reference ← (← node.member? "$ref").str?
  match reference.toList with
  | '#' :: pointer => root.follow (← Json.tokens? pointer)
  | _ => none

def followRefs (root : Json) : (hops : Nat) → Json → Json
  | 0, node => node
  | hops + 1, node =>
    match target? root node with
    | some next => followRefs root hops next
    | none => node

def property? (root node : Json) (name : String) : Option Json := do
  (← (followRefs root hopLimit node).member? "properties").member? name

def resolves (root node : Json) : List (List Char) → Bool
  | [] => true
  | name :: names =>
    match property? root node (String.ofList name) with
    | some next => resolves root next names
    | none => false

def isDeclared (root : Json) (path : String) : Bool :=
  match path.toList with
  | [] => false
  | chars => resolves root root (Text.splitAt '.' chars)

end EventAdmission.DeclaredField
