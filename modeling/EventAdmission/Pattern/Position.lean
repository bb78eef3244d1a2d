import EventAdmission.Pattern.CharSet
import EventAdmission.Pattern.Regex

/-!
# A pattern laid over a text

A text of `n` characters has `n + 1` positions. A set of positions is a number
whose bit `i` tells whether position `i` is in the set, so that a regular tree is
followed from all positions of a set at once.
-/

namespace EventAdmission.Pattern

/-- A tree over one text. A set has become the positions behind which one of its characters
stands, and an anchor the positions where it holds. -/
abbrev Located := Regex Nat Nat

def bit (b : Bool) : Nat := if b then 1 else 0

def charPositions (set : CharSet) (text : List Char) : Nat :=
  text.foldr (fun c later => 2 * later + bit (set.mem c)) 0

def isWordChar (c : Option Char) : Bool := c.any CharSet.word.mem

def holdsBetween (anchor : Anchor) (before after : Option Char) : Bool :=
  match anchor with
  | .textStart => before.isNone
  | .textEnd => after.isNone
  | .lineStart => before.all (· == '\n')
  | .lineEnd => after.all (· == '\n')
  | .wordBoundary => isWordChar before != isWordChar after
  | .notWordBoundary => isWordChar before == isWordChar after

/-- The positions where an anchor holds, from the one behind `before` on. -/
def anchorPositions (anchor : Anchor) (before : Option Char) : List Char → Nat
  | [] => bit (holdsBetween anchor before none)
  | c :: later =>
    2 * anchorPositions anchor (some c) later + bit (holdsBetween anchor before (some c))

def locate (text : List Char) (tree : Regex CharSet Anchor) : Located :=
  tree.map (charPositions · text) (anchorPositions · none text)

/-- `count` rounds of `step`. A set that a round leaves as it is stays so. -/
def rounds (step : Nat → Nat) : Nat → Nat → Nat
  | 0, starts => starts
  | count + 1, starts =>
    let next := step starts
    if next = starts then starts else rounds step count next

def upTo (step : Nat → Nat) (count starts : Nat) : Nat :=
  rounds (fun seen => seen ||| step seen) count starts

/-- The positions where a match of a regular tree ends that starts at one of `starts`. A text with
fewer than `size` positions is crossed in `size` rounds. Trees that are not regular match nowhere
here. -/
def ends (size : Nat) : Located → Nat → Nat
  | .empty, starts => starts
  | .one places, starts => (starts &&& places) <<< 1
  | .here places, starts => starts &&& places
  | .seq a b, starts => ends size b (ends size a starts)
  | .alt a b, starts => ends size a starts ||| ends size b starts
  | .loop body least most _, starts =>
    let further := match most with
      | none => size
      | some most => most - least
    upTo (ends size body) further (rounds (ends size body) least starts)
  | .group _ body, starts => ends size body starts
  | .look .., _ | .atomic _, _ | .sameAs _, _ | .matched _, _ | .choose .., _ => 0

def allPositions (text : List Char) : Nat := 2 ^ (text.length + 1) - 1

def occurs (tree : Regex CharSet Anchor) (text : List Char) : Bool :=
  ends (text.length + 1) (locate text tree) (allPositions text) != 0

end EventAdmission.Pattern
