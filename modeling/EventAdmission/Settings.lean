import EventAdmission.Category
import EventAdmission.Json.Typed
import EventAdmission.Schema.Draft
import EventAdmission.Strategy.Kind

/-!
# Settings

Which strategies run for each category, in which order, and which draft schemas
are compiled with. A settings text may leave out any part: a category without a
pipeline keeps the standard one, and so does the draft.
-/

namespace EventAdmission

structure Pipelines where
  undefined : List String
  business : List String
  dataChange : List String
deriving DecidableEq

namespace Pipelines

def standard : Pipelines :=
  let envelope := [StrategyKind.schemaConformance.name, StrategyKind.metadataCrossField.name,
    StrategyKind.fieldPresence.name]
  ⟨[StrategyKind.schemaConformance.name], envelope, envelope⟩

def get (p : Pipelines) : Category → List String
  | .undefined => p.undefined
  | .business => p.business
  | .dataChange => p.dataChange

def set (p : Pipelines) (c : Category) (names : List String) : Pipelines :=
  match c with
  | .undefined => { p with undefined := names }
  | .business => { p with business := names }
  | .dataChange => { p with dataChange := names }

theorem get_set (p : Pipelines) (c d : Category) (names : List String) :
    (p.set c names).get d = if d = c then names else p.get d := by
  cases c <;> cases d <;> rfl

end Pipelines

structure Settings where
  draft : Draft
  pipelines : Pipelines
deriving DecidableEq

namespace Settings

def standard : Settings := ⟨.draft7, .standard⟩

def pipeline (s : Settings) (c : Category) : List String := s.pipelines.get c

def toJson (s : Settings) : Json :=
  .ofMembers [("draft", .str s.draft.name),
    ("pipelines", .ofMembers (Category.all.map fun c => (c.name, .strings (s.pipeline c))))]

-- ---------------------------------------------------------------------------
-- From text
-- ---------------------------------------------------------------------------

structure Parts where
  draft : Option Draft := none
  pipelines : Option Pipelines := none

def Parts.finish (p : Parts) : Settings :=
  ⟨p.draft.getD Settings.standard.draft, p.pipelines.getD Settings.standard.pipelines⟩

def expected : String := "struct ValidationConfig"

/-- The pipelines given in a text replace the standard ones, the last of a category counting. -/
def readPipelineMembers (room : Nat) :
    (fuel : Nat) → (first : Bool) → Pipelines → Cursor → Except ReadError (Pipelines × Cursor)
  | 0, _, _, s => s.failHere .endInObject
  | fuel + 1, first, pipelines, s => do
    match ← s.nextKey? first with
    | none => pure (pipelines, s.skipBlanks.skip)
    | some s =>
      let (category, s) ← s.choice Category.names room
      let (names, s) ← (← s.colon).texts room
      readPipelineMembers room fuel false (pipelines.set category names) s

def readPipelines (room : Nat) (s : Cursor) : Except ReadError (Pipelines × Cursor) :=
  let s := s.skipBlanks
  match s.peek? with
  | some '\x7b' => readPipelineMembers (room - 1) s.fuel true .standard s.skip
  | _ => s.unexpected "a map"

def readDraft (room : Nat) (s : Cursor) : Except ReadError (Draft × Cursor) :=
  s.choice Draft.names room

def memberPlan (room : Nat) (key : String) (p : Parts) : Cursor.MemberPlan Parts :=
  match key with
  | "draft" =>
    if p.draft.isSome then .refuse (.duplicateField key)
    else
      .read fun s => do
        let (x, s) ← readDraft room s
        pure ({ p with draft := some x }, s)
  | "pipelines" =>
    if p.pipelines.isSome then .refuse (.duplicateField key)
    else
      .read fun s => do
        let (x, s) ← readPipelines room s
        pure ({ p with pipelines := some x }, s)
  | _ => .skip

/-- The fields of a list, whose bracket has been read. -/
def readItems (room : Nat) (s : Cursor) : Except ReadError (Settings × Cursor) := do
  let (draft, s) ← s.field true (.ok standard.draft) (readDraft room)
  let (pipelines, s) ← s.field false (.ok standard.pipelines) (readPipelines room)
  pure (⟨draft, pipelines⟩, ← s.closeList)

def readAt (s : Cursor) : Except ReadError (Settings × Cursor) :=
  let s := s.skipBlanks
  let room := Cursor.nestingLimit - 1
  match s.peek? with
  | some '[' => readItems room s.skip
  | some '\x7b' => s.skip.record (memberPlan room) {} fun p => .ok p.finish
  | _ => s.unexpected expected

def read (text : String) : Except ReadError Settings := Cursor.whole readAt text

end Settings

end EventAdmission
