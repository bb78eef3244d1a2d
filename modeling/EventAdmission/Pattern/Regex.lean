/-!
# Regular expressions

The tree of a pattern. `σ` is what tells the characters at a place and `τ` what
is asked of a position between two characters, so that one tree serves before
and after the pattern is laid over a text.
-/

namespace EventAdmission

inductive Anchor where
  | textStart
  | textEnd
  | lineStart
  | lineEnd
  | wordBoundary
  | notWordBoundary
deriving DecidableEq

/-- Which side of the position is looked at, and whether a match there is wanted. -/
structure Look where
  behind : Bool
  negated : Bool
deriving DecidableEq

inductive Regex (σ τ : Type) where
  | empty
  | one (set : σ)
  | here (condition : τ)
  | seq (a b : Regex σ τ)
  /-- The first branch is preferred. -/
  | alt (a b : Regex σ τ)
  /-- `most` is missing where there is no upper bound; a greedy loop prefers more rounds. -/
  | loop (body : Regex σ τ) (least : Nat) (most : Option Nat) (greedy : Bool)
  | group (index : Nat) (body : Regex σ τ)
  | look (kind : Look) (body : Regex σ τ)
  /-- Once the body has matched, its other ways to match are not tried. -/
  | atomic (body : Regex σ τ)
  | sameAs (index : Nat)
  | matched (index : Nat)
  /-- `yes` after a match of the condition, and `no` where it has none. -/
  | choose (condition yes no : Regex σ τ)

namespace Regex

variable {σ τ σ' τ' : Type}

def map (f : σ → σ') (g : τ → τ') : Regex σ τ → Regex σ' τ'
  | empty => empty
  | one set => one (f set)
  | here condition => here (g condition)
  | seq a b => seq (a.map f g) (b.map f g)
  | alt a b => alt (a.map f g) (b.map f g)
  | loop body least most greedy => loop (body.map f g) least most greedy
  | group index body => group index (body.map f g)
  | look kind body => look kind (body.map f g)
  | atomic body => atomic (body.map f g)
  | sameAs index => sameAs index
  | matched index => matched index
  | choose condition yes no => choose (condition.map f g) (yes.map f g) (no.map f g)

/-- Whether the positions at which a match ends depend on the position where it starts alone. -/
def isRegular : Regex σ τ → Bool
  | empty | one _ | here _ => true
  | seq a b | alt a b => a.isRegular && b.isRegular
  | loop body .. | group _ body => body.isRegular
  | look .. | atomic _ | sameAs _ | matched _ | choose .. => false

def hasGroup : Regex σ τ → Bool
  | group .. => true
  | empty | one _ | here _ | sameAs _ | matched _ => false
  | seq a b | alt a b => a.hasGroup || b.hasGroup
  | loop body .. | look _ body | atomic body => body.hasGroup
  | choose condition yes no => condition.hasGroup || yes.hasGroup || no.hasGroup

def minWidth : Regex σ τ → Nat
  | empty | here _ | look .. | sameAs _ | matched _ => 0
  | one _ => 1
  | seq a b => a.minWidth + b.minWidth
  | alt a b => min a.minWidth b.minWidth
  | loop body least .. => body.minWidth * least
  | group _ body | atomic body => body.minWidth
  | choose condition yes no => condition.minWidth + min yes.minWidth no.minWidth

def isFixedWidth : Regex σ τ → Bool
  | empty | here _ | one _ | look .. | matched _ => true
  | sameAs _ => false
  | seq a b => a.isFixedWidth && b.isFixedWidth
  | alt a b => a.isFixedWidth && b.isFixedWidth && a.minWidth == b.minWidth
  | loop body least most _ => body.isFixedWidth && most == some least
  | group _ body | atomic body => body.isFixedWidth
  | choose condition yes no =>
    condition.isFixedWidth && yes.isFixedWidth && no.isFixedWidth
      && condition.minWidth + yes.minWidth == no.minWidth

def isOrdered : Regex σ τ → Bool
  | empty | one _ | here _ | sameAs _ | matched _ => true
  | seq a b | alt a b => a.isOrdered && b.isOrdered
  | loop body least most _ => body.isOrdered && most.all (least ≤ ·)
  | group _ body | look _ body | atomic body => body.isOrdered
  | choose condition yes no => condition.isOrdered && yes.isOrdered && no.isOrdered

end Regex

end EventAdmission
