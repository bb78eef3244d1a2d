import EventAdmission.Proofs.Category
import EventAdmission.Proofs.Settings.Reading
import EventAdmission.Proofs.Json.Printed

/-!
# Given and standard pipelines

Of every settings text the categories that it gives a list for keep the last one, as it
is written, and the other categories keep the standard pipeline; and settings that are
printed are read back, whatever the order of their categories (`ofText_given`).
-/

namespace EventAdmission.Settings

open Written

variable {text : String} {settings : Settings} {c : Category} {key : List StringPiece}
  {p q : Pipelines} {x doc : Written} {members : List (List StringPiece × Written)}
  {order : List Category}

-- ---------------------------------------------------------------------------
-- What a text gives
-- ---------------------------------------------------------------------------

def givenMembers : Written → List (List StringPiece × Written)
  | .object members =>
    match under "pipelines" members with
    | [.object given] => given
    | _ => []
  | .list (_ :: .object given :: _) => given
  | _ => []

def given (doc : Written) (c : Category) : List Written := under c.name (givenMembers doc)

theorem under_cons {name : String} : under name ((key, x) :: members) =
    if textOf? key = some name then x :: under name members else under name members := by
  unfold under
  rw [List.filterMap_cons]
  by_cases h : textOf? key = some name <;> simp [h]

theorem categoryOf?_eq_some : categoryOf? key = some c ↔ textOf? key = some c.name := by
  simp [categoryOf?, Option.bind_eq_some_iff, Category.find?_names]

theorem get_taken (h : taken? categoryOf? takePipeline p members = some q) (c : Category) :
    match (under c.name members).getLast? with
    | some x => x.texts? = some (q.get c)
    | none => q.get c = p.get c := by
  induction members generalizing p with
  | nil =>
    obtain rfl := Option.some.inj h
    rfl
  | cons e members ih =>
    obtain ⟨key, x⟩ := e
    obtain ⟨d, hd, p', ⟨names, hnames, rfl⟩, h⟩ : ∃ d, categoryOf? key = some d ∧
        ∃ p', (∃ names, x.texts? = some names ∧ p.set d names = p') ∧
          taken? categoryOf? takePipeline p' members = some q := by
      simpa [taken?, takePipeline, Option.bind_eq_some_iff] using h
    have hlast := ih h
    rw [Pipelines.get_set] at hlast
    rw [under_cons, categoryOf?_eq_some.mp hd]
    by_cases hc : c = d
    · subst hc
      rw [if_pos rfl, List.getLast?_cons]
      cases hunder : (under c.name members).getLast? with
      | some y => simpa [hunder] using hlast
      | none =>
        rw [hunder] at hlast
        have hget : q.get c = names := by simpa using hlast
        simpa [hget] using hnames
    · have hname : ¬ some d.name = some c.name := by
        intro hname
        cases c <;> cases d <;> first | exact hc rfl | exact absurd hname (by decide)
      rw [if_neg hname]
      simpa only [if_neg hc] using hlast

theorem takeMember_pipelines {a b : Parts} {name : String} (h : takeMember a name x = some b) :
    if name = "pipelines" then a.pipelines = none ∧ b.pipelines = pipelinesOf? x ∧ b.pipelines ≠ none
    else b.pipelines = a.pipelines := by
  unfold takeMember at h
  split at h
  · split at h
    · cases h
    · obtain ⟨d, -, rfl⟩ := Option.map_eq_some_iff.mp h
      rfl
  · split at h
    · cases h
    · rename_i hnone
      obtain ⟨p, hp, rfl⟩ := Option.map_eq_some_iff.mp h
      exact ⟨by simpa using hnone, hp.symm, by simp⟩
  · rename_i hname
    obtain rfl := Option.some.inj h
    rw [if_neg hname]

theorem pipelines_taken {a b : Parts} (h : taken? textOf? takeMember a members = some b) :
    (under "pipelines" members = [] ∧ b.pipelines = a.pipelines) ∨
      ∃ x, under "pipelines" members = [x] ∧ a.pipelines = none ∧ b.pipelines = pipelinesOf? x ∧
        b.pipelines ≠ none := by
  induction members generalizing a with
  | nil =>
    obtain rfl := Option.some.inj h
    exact .inl ⟨rfl, rfl⟩
  | cons e members ih =>
    obtain ⟨key, x⟩ := e
    obtain ⟨name, hname, a', htake, h⟩ : ∃ name, textOf? key = some name ∧
        ∃ a', takeMember a name x = some a' ∧ taken? textOf? takeMember a' members = some b := by
      simpa [taken?, Option.bind_eq_some_iff] using h
    have hstep := takeMember_pipelines htake
    rw [under_cons, hname]
    by_cases hpipelines : name = "pipelines"
    · subst hpipelines
      obtain ⟨hnone, hx, hsome⟩ := hstep
      rw [if_pos rfl]
      -- A second map would be refused.
      rcases ih h with ⟨hunder, hb⟩ | ⟨y, -, hnone', -⟩
      · exact .inr ⟨x, by rw [hunder], hnone, hb.trans hx, by rwa [hb]⟩
      · exact absurd hnone' hsome
    · rw [if_neg hpipelines] at hstep
      rw [if_neg (by simpa using hpipelines), ← hstep]
      exact ih h

theorem ofWritten?_given (h : ofWritten? doc = some settings) (c : Category) :
    match (given doc c).getLast? with
    | some x => x.texts? = some (settings.pipeline c)
    | none => settings.pipeline c = standard.pipeline c := by
  have hmap : ∀ x p, pipelinesOf? x = some p → ∃ members, x = .object members ∧
      taken? categoryOf? takePipeline .standard members = some p := by
    intro x p hx
    cases x with
    | object members => exact ⟨members, rfl, hx⟩
    | _ => cases hx
  cases doc with
  | object members =>
    obtain ⟨parts, htaken, rfl⟩ := Option.map_eq_some_iff.mp h
    rcases pipelines_taken htaken with ⟨hunder, hparts⟩ | ⟨x, hunder, -, hparts, hsome⟩
    · rw [given, givenMembers, hunder]
      have hnone : parts.pipelines = none := hparts
      simp [under, pipeline, Parts.finish, hnone]
    · obtain ⟨p, hp⟩ := Option.ne_none_iff_exists'.mp hsome
      obtain ⟨members', rfl, hmembers⟩ := hmap x p (hparts.symm.trans hp)
      rw [given, givenMembers, hunder]
      have hpipeline : (Parts.finish parts).pipeline c = p.get c := by
        simp [pipeline, Parts.finish, hp]
      rw [hpipeline]
      exact get_taken hmembers c
  | list items =>
    cases items with
    | nil =>
      obtain rfl := Option.some.inj h
      rfl
    | cons x items =>
      obtain ⟨draft, -, hfields⟩ := Option.bind_eq_some_iff.mp h
      cases items with
      | nil =>
        obtain rfl := Option.some.inj hfields
        rfl
      | cons y items =>
        obtain ⟨p, hp, hlast⟩ := Option.bind_eq_some_iff.mp hfields
        obtain ⟨members, rfl, hmembers⟩ := hmap y p hp
        cases items with
        | nil =>
          obtain rfl := Option.some.inj hlast
          exact get_taken hmembers c
        | cons z items => cases hlast
  | _ => cases h

-- ---------------------------------------------------------------------------
-- Printed settings
-- ---------------------------------------------------------------------------

/-- Settings with their categories in some order; `toJson` has them in the order of their names. -/
def printed (settings : Settings) (order : List Category) : Json :=
  .obj [("draft", .str settings.draft.name),
    ("pipelines", .obj (order.map fun c => (c.name, .strings (settings.pipeline c))))]

theorem toJson_eq_printed :
    settings.toJson = settings.printed [.business, .dataChange, .undefined] := by
  simp only [toJson, printed, Json.ofMembers, Keyed.ofList, Category.all, Category.name, List.map_cons,
    List.map_nil, List.foldl_cons, List.foldl_nil, Keyed.insert, String.reduceEq, String.reduceLT,
    ↓reduceIte]

theorem floatless_printed : (settings.printed order).Floatless := by
  simp [printed, Json.floatless_obj]

theorem taken_printed : taken? categoryOf? takePipeline p
    (Json.writtenMembers (order.map fun c => (c.name, .strings (settings.pipeline c)))) =
      some (order.foldl (fun p c => p.set c (settings.pipeline c)) p) := by
  induction order generalizing p with
  | nil => rfl
  | cons c order ih =>
    have hkey : categoryOf? (piecesOf c.name) = some c := categoryOf?_eq_some.mpr textOf?_piecesOf
    simp [Json.writtenMembers, taken?, hkey, takePipeline, ih]

theorem get_foldl_set : (order.foldl (fun p c => p.set c (settings.pipeline c)) p).get c =
    if c ∈ order then settings.pipeline c else p.get c := by
  induction order generalizing p with
  | nil => simp
  | cons d order ih =>
    rw [List.foldl_cons, ih, Pipelines.get_set]
    by_cases hc : c = d <;> simp [hc]

theorem pipelines_ext (h : ∀ c, p.get c = q.get c) : p = q := by
  obtain ⟨_, _, _⟩ := p
  obtain ⟨_, _, _⟩ := q
  simpa [Pipelines.get] using And.intro (h .undefined) (And.intro (h .business) (h .dataChange))

theorem ofWritten?_printed (horder : order.Perm Category.all) :
    ofWritten? (Json.written (settings.printed order)) = some settings := by
  have hall : ∀ c, c ∈ order := fun c => horder.mem_iff.mpr (by cases c <;> decide)
  have hpipelines : pipelinesOf? (Json.written (.obj
      (order.map fun c => (c.name, .strings (settings.pipeline c))))) = some settings.pipelines := by
    rw [Json.written, pipelinesOf?, taken_printed, Option.some.injEq]
    refine pipelines_ext fun c => ?_
    rw [get_foldl_set, if_pos (hall c)]
    rfl
  have hdraft : Keyed.find? Draft.names settings.draft.name = some settings.draft := by
    cases settings.draft <;> rfl
  have hmembers : taken? textOf? takeMember {} (Json.writtenMembers
      [("draft", .str settings.draft.name), ("pipelines", .obj
        (order.map fun c => (c.name, .strings (settings.pipeline c))))]) =
      some ⟨some settings.draft, some settings.pipelines⟩ := by
    simp only [Json.writtenMembers, taken?, textOf?_piecesOf, takeMember, Json.choice?_written,
      hdraft, hpipelines]
    rfl
  rw [printed, Json.written, ofWritten?, recordOf?, hmembers]
  rfl

-- ---------------------------------------------------------------------------
-- Settings texts
-- ---------------------------------------------------------------------------

theorem ofText_ok : ofText text = .ok settings ↔ read text = .ok settings := mapError_ok

/-- Settings that are printed are read back, in whatever order their categories come. -/
theorem ofText_printed (horder : order.Perm Category.all) :
    ofText (settings.printed order).text = .ok settings :=
  ofText_ok.mpr (read_iff.mpr
    ⟨_, Json.spelledBy_text floatless_printed, ofWritten?_printed horder⟩)

/-- Of every settings text the last list that is given for a category is its pipeline, as it is
written; a category without one has the standard pipeline; and the settings are read back from
their own text. -/
theorem ofText_given (h : ofText text = .ok settings) :
    (∃ doc : Written, doc.SpelledBy text ∧ (∀ other : Written, other.SpelledBy text → other = doc) ∧
      ∀ c, match (given doc c).getLast? with
        | some x => x.texts? = some (settings.pipeline c)
        | none => settings.pipeline c = standard.pipeline c) ∧
    ofText settings.toJson.text = .ok settings ∧
    ∀ order : List Category, order.Perm Category.all →
      ofText (settings.printed order).text = .ok settings := by
  obtain ⟨doc, hdoc, hsettings⟩ := read_iff.mp (ofText_ok.mp h)
  refine ⟨⟨doc, hdoc, fun other hother => hother.unique hdoc, ofWritten?_given hsettings⟩, ?_,
    fun order => ofText_printed⟩
  rw [toJson_eq_printed]
  exact ofText_printed (by decide)

def emptiedBusiness : String :=
  "[\"draft6\", \x7b\"data\": [\"a\", \"a\"], \"business\": [\"b\"], \"business\": []\x7d]"

theorem given_emptiedBusiness :
    ∃ settings, ofText emptiedBusiness = .ok settings ∧
      settings = ⟨.draft6, ⟨standard.pipeline .undefined, [], ["a", "a"]⟩⟩ ∧
      (∃ doc : Written, doc.SpelledBy emptiedBusiness ∧
        (∀ other : Written, other.SpelledBy emptiedBusiness → other = doc) ∧
        ∀ c, match (given doc c).getLast? with
          | some x => x.texts? = some (settings.pipeline c)
          | none => settings.pipeline c = standard.pipeline c) ∧
      ofText settings.toJson.text = .ok settings := by
  have h : ofText emptiedBusiness = .ok ⟨.draft6, ⟨standard.pipeline .undefined, [], ["a", "a"]⟩⟩ :=
    toOption_eq_some.mp (by decide +kernel)
  have hgiven := ofText_given h
  exact ⟨_, h, rfl, hgiven.1, hgiven.2.1⟩

end EventAdmission.Settings
