import EventAdmission.Pattern.Backtrack
import EventAdmission.Pattern.Extended
import EventAdmission.Pattern.Keyword
import EventAdmission.Pattern.Linear

/-!
# Patterns

A pattern is read in the extended dialect and looked for anywhere in a text.
Regular patterns take linear time; the others are matched by trial.
-/

namespace EventAdmission

structure Pattern where
  tree : Pattern.Tree

namespace Pattern

/-- How many bytes an automaton for a tree takes, roughly. -/
def treeWeight : Tree → Nat
  | .one set => set.weight
  | .seq a b | .alt a b => 32 + treeWeight a + treeWeight b
  | .loop body least most _ => 32 + most.getD (least + 1) * treeWeight body
  | .group _ body | .look _ body | .atomic body => 64 + treeWeight body
  | .choose condition yes no => treeWeight condition + treeWeight yes + treeWeight no
  | .empty | .here _ | .sameAs _ | .matched _ => 32

/-- Whether the bounds of loops are in order and the automaton is small enough, as a regular tree
needs them. -/
def isRunnable (tree : Tree) : Bool :=
  !tree.isRegular || tree.isOrdered && treeWeight tree ≤ weightLimit

/-- A look back over a fixed width. Branches of several widths are looked at one by one. -/
def lookBack? (negated : Bool) (body : Tree) : Option Tree :=
  if body.isFixedWidth then some (.look ⟨true, negated⟩ body)
  else
    match body with
    | .alt a b => do
      let a ← lookBack? negated a
      let b ← lookBack? negated b
      return if negated then .seq a b else .alt a b
    | _ => none

def settle? : Tree → Option Tree
  | .look kind body => do
    let body ← settle? body
    guard (isRunnable body)
    if kind.behind then lookBack? kind.negated body else return .look kind body
  | .atomic body => do
    let body ← settle? body
    guard (isRunnable body)
    return .atomic body
  | .seq a b => return .seq (← settle? a) (← settle? b)
  | .alt a b => return .alt (← settle? a) (← settle? b)
  | .loop body least most greedy => return .loop (← settle? body) least most greedy
  | .group index body => return .group index (← settle? body)
  | .choose condition yes no =>
    return .choose (← settle? condition) (← settle? yes) (← settle? no)
  | tree => some tree

def compile? (source : String) : Option Pattern := do
  let tree ← settle? (← Extended.read? source)
  guard (isRunnable tree)
  return ⟨tree⟩

def ofKeyword? (source : String) : Option Pattern := compile? (spellOut source)

def search (pattern : Pattern) (text : String) : SearchResult :=
  if pattern.tree.isRegular then
    if occurs pattern.tree text.toList then .found else .absent
  else explored pattern.tree text.toList

end Pattern

end EventAdmission
