import EventAdmission.Pattern.Position

/-!
# Matching by trial

Trees that are not regular are followed along one way at a time. Where there is
a choice the other way is put aside, and taken up when the present one fails. A
search that has to take up too many of them is given up.
-/

namespace EventAdmission

inductive SearchResult where
  | found
  | absent
  | exhausted
deriving DecidableEq

namespace Pattern

inductive Task where
  | follow (tree : Located)
  /-- One more round of a loop. `done` rounds are over; a loop without an upper bound whose body may
  be empty remembers in `since` where the last round that was not required began. -/
  | again (body : Located) (least : Nat) (most : Option Nat) (greedy : Bool) (done : Nat)
      (since : Option Nat)
  | close (index : Nat)
  /-- A look has matched: back to where it started from. -/
  | resume (position : Nat)
  /-- Forget the choices made since there were `height` of them. -/
  | commit (height : Nat)
  /-- What must not match has matched: forget the choices made since, and fail. -/
  | deny (height : Nat)

/-- A way through the tree: where it stands and what is left of it. -/
structure Way where
  tasks : List Task
  position : Nat
  /-- Where groups began and ended, the latest first. Group `i` begins at mark `2 * i`. -/
  marks : List (Nat × Nat)

/-- The ways put aside, the latest first, and how many there are. -/
structure Aside where
  ways : List Way
  height : Nat

def Aside.push (aside : Aside) (way : Way) : Aside := ⟨way :: aside.ways, aside.height + 1⟩

def Aside.downTo (aside : Aside) (height : Nat) : Aside :=
  ⟨aside.ways.drop (aside.height - height), min height aside.height⟩

inductive Progress where
  | go (way : Way) (aside : Aside)
  | fail (aside : Aside)

def groupText (text : Array Char) (marks : List (Nat × Nat)) (index : Nat) : Option (List Char) :=
  match marks.lookup (2 * index), marks.lookup (2 * index + 1) with
  | some first, some last => some (text.extract first last).toList
  | _, _ => none

def endsFrom (text : Array Char) (tree : Located) (position : Nat) : Nat :=
  ends (text.size + 1) tree (1 <<< position)

def follow (text : Array Char) (tree : Located) (way : Way) (aside : Aside) : Progress :=
  let first (tasks : List Task) : Way := { way with tasks := tasks ++ way.tasks }
  match tree with
  | .empty => .go way aside
  | .one places =>
    if places.testBit way.position then .go { way with position := way.position + 1 } aside
    else .fail aside
  | .here places => if places.testBit way.position then .go way aside else .fail aside
  | .seq a b => .go (first [.follow a, .follow b]) aside
  | .alt a b => .go (first [.follow a]) (aside.push (first [.follow b]))
  | .loop body least most greedy =>
    .go (first [.again body (most.elim least (min least)) most greedy 0 none]) aside
  | .group index body =>
    .go { first [.follow body, .close index] with
      marks := (2 * index, way.position) :: way.marks } aside
  | .look kind body =>
    let width := if kind.behind then body.minWidth else 0
    if way.position < width then
      if kind.negated then .go way aside else .fail aside
    else
      let start := way.position - width
      let settled := body.isRegular && (kind.negated || !body.hasGroup)
      let hopeless := body.isRegular && endsFrom text body start = 0
      if settled || hopeless then
        if hopeless == kind.negated then .go way aside else .fail aside
      else if kind.negated then
        .go { first [.follow body, .deny aside.height] with position := start } (aside.push way)
      else .go { first [.follow body, .resume way.position] with position := start } aside
  | .atomic body =>
    if body.isRegular && endsFrom text body way.position = 0 then .fail aside
    else .go (first [.follow body, .commit aside.height]) aside
  | .sameAs index =>
    match groupText text way.marks index with
    | some group =>
      if (text.extract way.position (way.position + group.length)).toList = group then
        .go { way with position := way.position + group.length } aside
      else .fail aside
    | none => .fail aside
  | .matched index => if (way.marks.lookup (2 * index)).isSome then .go way aside else .fail aside
  | .choose condition yes no =>
    .go (first [.follow condition, .commit aside.height, .follow yes])
      (aside.push (first [.follow no]))

/-- One more round of a loop, or its end. An optional round that has not moved on is the last. -/
def again (body : Located) (least : Nat) (most : Option Nat) (greedy : Bool) (done : Nat)
    (since : Option Nat) (way : Way) (aside : Aside) : Progress :=
  if most = some done then .go way aside
  else if since = some way.position then .fail aside
  else
    let isWatched := most.isNone && body.minWidth = 0 && least ≤ done
    let since := if isWatched then some way.position else since
    let round : Way := { way with
      tasks := .follow body :: .again body least most greedy (done + 1) since :: way.tasks }
    if done < least then .go round aside
    else if greedy then .go round (aside.push way)
    else .go way (aside.push round)

def perform (text : Array Char) (task : Task) (way : Way) (aside : Aside) : Progress :=
  match task with
  | .follow tree => follow text tree way aside
  | .again body least most greedy done since => again body least most greedy done since way aside
  | .close index =>
    .go { way with marks := (2 * index + 1, way.position) :: way.marks } aside
  | .resume position => .go { way with position } aside
  | .commit height => .go way (aside.downTo height)
  | .deny height => .fail (aside.downTo height)

def retryLimit : Nat := 1000000

def stepLimit : Nat := 2 ^ 40

/-- Follows the present way, and the ways put aside where it fails. -/
def explore (text : Array Char) : Nat → Nat → Way → Aside → SearchResult
  | 0, _, _, _ => .exhausted
  | steps + 1, retries, way, aside =>
    match way.tasks with
    | [] => .found
    | task :: tasks =>
      match perform text task { way with tasks } aside with
      | .go way aside => explore text steps retries way aside
      | .fail aside =>
        match aside.ways with
        | [] => .absent
        | way :: ways =>
          if retries = 0 then .exhausted
          else explore text steps (retries - 1) way ⟨ways, aside.height - 1⟩

def explored (tree : Regex CharSet Anchor) (text : List Char) : SearchResult :=
  let start : Located := locate text (.loop (.one .everything) 0 none false)
  let way : Way := ⟨[.follow start, .follow (.group 0 (locate text tree))], 0, []⟩
  explore text.toArray stepLimit retryLimit way ⟨[], 0⟩

end Pattern

end EventAdmission
