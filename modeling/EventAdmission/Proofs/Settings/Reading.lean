import EventAdmission.Proofs.Json.Records
import EventAdmission.Settings.Source

/-!
# What a settings text says

A settings text is read exactly if it spells a written value that settings can be taken
from, and then the settings are the ones taken from it (`Settings.read_iff`): from a list
its one or two fields, from an object its members in their order.
-/

namespace EventAdmission.Settings

open Cursor Written

variable {text : String} {settings : Settings} {room : Nat}

-- ---------------------------------------------------------------------------
-- The parts of a text
-- ---------------------------------------------------------------------------

def categoryOf? (key : List StringPiece) : Option Category :=
  (textOf? key).bind (Keyed.find? Category.names)

def takePipeline (p : Pipelines) (c : Category) (x : Written) : Option Pipelines :=
  p.set c <$> x.texts?

def pipelinesOf? : Written → Option Pipelines
  | .object members => taken? categoryOf? takePipeline .standard members
  | _ => none

/-- A member of the settings, of which each may be given once. -/
def takeMember (p : Parts) (key : String) (x : Written) : Option Parts :=
  match key with
  | "draft" =>
    if p.draft.isSome then none else (fun d => { p with draft := some d }) <$> x.choice? Draft.names
  | "pipelines" =>
    if p.pipelines.isSome then none
    else (fun pipelines => { p with pipelines := some pipelines }) <$> pipelinesOf? x
  | _ => some p

def ofWritten? : Written → Option Settings :=
  recordOf?
    (fieldThen (some standard.draft) (choice? Draft.names) fun draft =>
      fieldThen (some standard.pipelines) pipelinesOf? fun pipelines => lastField ⟨draft, pipelines⟩)
    fun members => Parts.finish <$> taken? textOf? takeMember {} members

-- ---------------------------------------------------------------------------
-- The readers
-- ---------------------------------------------------------------------------

section

variable {s : Cursor} {t : List Char} {first : Bool} {fuel : Nat} {p q : Pipelines}
  {members : List (List StringPiece × Written)}

theorem readPipelineMembers_sound (hroom : 0 < room)
    (h : Gives (readPipelineMembers room fuel first p s) q t) :
    ∃ members, SpansMembers first members s.rest t ∧
      taken? categoryOf? takePipeline p members = some q := by
  induction fuel generalizing first p s with
  | zero => exact absurd h not_gives_failHere
  | succ fuel ih =>
    rw [readPipelineMembers] at h
    obtain ⟨next, hnext, h⟩ := gives_step.mp h
    cases next with
    | none =>
      obtain ⟨rfl, rfl⟩ := gives_ok_iff.mp h
      exact ⟨[], nextKey?_none hnext, rfl⟩
    | some s' =>
      obtain ⟨-, -, -, hquote⟩ := nextKey?_some hnext
      obtain ⟨c, s₁, hs₁, h⟩ := gives_bind.mp h
      obtain ⟨s₂, hs₂, h⟩ := gives_step.mp h
      obtain ⟨names, s₃, hs₃, h⟩ := gives_bind.mp h
      obtain ⟨pieces, hquoted, hc⟩ := (gives_choice_quoted hquote).mp ⟨s₁, hs₁, rfl⟩
      obtain ⟨members, hmembers, htaken⟩ := ih h
      obtain ⟨x, start, hstart, hx, hnames⟩ :=
        (decodes_texts hroom s₂ names _ (spansMembers_over hmembers)).mp ⟨s₃, hs₃, rfl⟩
      refine ⟨(pieces, x) :: members, spansMembers_step hnext hquoted hs₂ hstart hx hmembers, ?_⟩
      have hkey : categoryOf? pieces = some c := hc
      simp [taken?, hkey, takePipeline, hnames, htaken]

theorem readPipelineMembers_complete (hroom : 0 < room) (h : SpansMembers first members s.rest t)
    (htaken : taken? categoryOf? takePipeline p members = some q) (hfuel : s.rest.length < fuel) :
    Gives (readPipelineMembers room fuel first p s) q t := by
  induction fuel generalizing first p s members with
  | zero => cases hfuel
  | succ fuel ih =>
    rw [readPipelineMembers]
    cases members with
    | nil =>
      obtain rfl := Option.some.inj htaken
      obtain ⟨hnext, hleft⟩ := nextKey?_of_close first h
      exact gives_step.mpr ⟨none, hnext, gives_ok_iff.mpr ⟨rfl, hleft⟩⟩
    | cons e members =>
      obtain ⟨pieces, x⟩ := e
      obtain ⟨s', afterKey, afterColon, start, u, hnext, hkey, hcolon, hblanks, hx, hmembers, hlong,
        hshort⟩ := exists_nextKey? h
      obtain ⟨c, hc, p', ⟨names, hnames, rfl⟩, htaken⟩ : ∃ c, categoryOf? pieces = some c ∧
          ∃ p', (∃ names, x.texts? = some names ∧ p.set c names = p') ∧
            taken? categoryOf? takePipeline p' members = some q := by
        simpa [taken?, takePipeline, Option.bind_eq_some_iff] using htaken
      obtain ⟨s₁, hs₁, rfl⟩ := (gives_choice_quoted (peek?_of_rest hkey)).mpr ⟨pieces, hkey, hc⟩
      obtain ⟨s₂, hs₂, rfl⟩ := leaves_colon.mpr hcolon
      obtain ⟨s₃, hs₃, rfl⟩ := (decodes_texts hroom s₂ names u (spansMembers_over hmembers)).mpr
        ⟨x, start, hblanks, hx, hnames⟩
      have hless : s₃.rest.length < fuel := by omega
      exact gives_step.mpr ⟨some s', hnext, gives_bind.mpr ⟨c, s₁, hs₁,
        gives_step.mpr ⟨s₂, hs₂, gives_bind.mpr ⟨names, s₃, hs₃, ih hmembers htaken hless⟩⟩⟩⟩

end

theorem decodes_readPipelines (hroom : 1 < room) : Decodes (readPipelines room) pipelinesOf? := by
  have hinner : 0 < room - 1 := by omega
  intro s q t _
  simp only [readPipelines]
  constructor
  · intro h
    split at h
    · rename_i hp
      obtain ⟨members, hmembers, htaken⟩ := readPipelineMembers_sound hinner h
      exact ⟨.object members, _, blanks_skipBlanks, ⟨_, rest_of_peek? hp, hmembers⟩, htaken⟩
    · exact absurd h not_gives_unexpected
  · rintro ⟨x, start, hblanks, hx, htaken⟩
    cases x with
    | object members =>
      obtain ⟨body, rfl, hmembers⟩ := hx
      have hs := skipBlanks_rest hblanks (unblank_cons.mpr (by decide))
      have hbody := skip_of_rest hs
      simp only [peek?_of_rest hs]
      exact readPipelineMembers_complete hinner (hbody ▸ hmembers) htaken
        (by rw [Cursor.fuel, hs, List.length_cons, hbody]; omega)
    | _ => cases htaken

theorem takeMember_other {key : String} {p : Parts} {x : Written} (hdraft : key ≠ "draft")
    (hpipelines : key ≠ "pipelines") : takeMember p key x = some p := by
  unfold takeMember
  split
  · exact absurd rfl hdraft
  · exact absurd rfl hpipelines
  · rfl

theorem carries_memberPlan (hroom : 1 < room) (key : String) (p : Parts) :
    Carries (memberPlan room key p) (takeMember p key) p := by
  have hopen : 0 < room := by omega
  unfold memberPlan
  split
  · split
    · exact fun _ => if_pos ‹_›
    · have htake : takeMember p "draft" = fun x =>
          (fun d => { p with draft := some d }) <$> x.choice? Draft.names :=
        funext fun _ => if_neg ‹_›
      rw [htake]
      exact (decodes_choice hopen).map fun d => { p with draft := some d }
  · split
    · exact fun _ => if_pos ‹_›
    · have htake : takeMember p "pipelines" = fun x =>
          (fun q => { p with pipelines := some q }) <$> pipelinesOf? x :=
        funext fun _ => if_neg ‹_›
      rw [htake]
      exact (decodes_readPipelines hroom).map fun q => { p with pipelines := some q }
  · exact fun _ => takeMember_other ‹_› ‹_›

theorem decodes_readAt : Decodes readAt ofWritten? := by
  refine decodes_record (decodesItems_field (decodes_choice (by decide)) fun draft =>
    decodesItems_field (decodes_readPipelines (by decide)) fun pipelines =>
      decodesItems_close) fun s a t => ?_
  rw [gives_record fun key p => carries_memberPlan (by decide) key p]
  simp only [Option.map_eq_map, Option.map_eq_bind]
  rfl

theorem read_iff : read text = .ok settings ↔
    ∃ doc : Written, doc.SpelledBy text ∧ ofWritten? doc = some settings :=
  decodes_readAt.whole

end EventAdmission.Settings
