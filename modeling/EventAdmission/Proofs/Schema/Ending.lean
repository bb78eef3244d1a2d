import EventAdmission.Proofs.Schema.PublishedKeywords

/-!
# The check against a published schema ends

An evaluation goes down in the value, or it hands the value on as it is to
another schema (`Rule.here`, and behind a reference). In a published schema a
value is handed on a few times in a row only (`settles_published`), so a few
steps for each level of the value are enough (`answered_published`). How many
steps there are makes no difference then, as long as there are so many
(`Passes.enough`), and the check always comes to an end
(`publishedFault_finished`).
-/

namespace EventAdmission

def Rule.here : Rule → List Json
  | dependencies entries => entries.map (·.2)
  | all schemas => schemas
  | any schemas => schemas
  | one schemas => schemas
  | exclude schema => [schema]
  | conditional condition yes no => condition :: (yes.toList ++ no.toList)
  | _ => []

namespace Evaluation

variable {α β : Type} {corpus : Corpus} {sub : Evaluator} {goal : Goal} {scope : Scope}
  {schema x y : Json} {members : Members} {items : List Json} {path : Path} {rule : Rule}

theorem isSome_bind {r : Option α} {f : α → Option β} (h : r.isSome)
    (hf : ∀ a, r = some a → (f a).isSome) : (r >>= f).isSome := by
  cases r with
  | none => cases h
  | some a => exact hf a rfl

theorem isSome_inOrder {check : α → Option (List Fault)} {xs : List α}
    (h : ∀ x ∈ xs, (check x).isSome) : (inOrder goal check xs).isSome := by
  induction xs with
  | nil => rfl
  | cons x xs ih =>
    obtain ⟨hx, hxs⟩ := List.forall_mem_cons.mp h
    refine isSome_bind hx fun first _ => ?_
    split
    · rfl
    · exact isSome_bind (ih hxs) fun _ _ => rfl

-- ---------------------------------------------------------------------------
-- Rules
-- ---------------------------------------------------------------------------

/-- The evaluation of a value under a schema ends, whatever it is for. -/
def Answered (sub : Evaluator) (scope : Scope) (schema x : Json) : Prop :=
  ∀ goal path, (sub goal scope schema x path).isSome

theorem isSome_isValid (h : Answered sub scope schema x) : (isValid sub scope schema x).isSome := by
  simpa [isValid] using h .verdict []

theorem isSome_behindFirstValid {schemas : List Json} (h : ∀ s ∈ schemas, Answered sub scope s x) :
    (behindFirstValid sub scope x schemas).isSome := by
  induction schemas with
  | nil => rfl
  | cons s rest ih =>
    obtain ⟨hs, hrest⟩ := List.forall_mem_cons.mp h
    refine isSome_bind (isSome_isValid hs) fun valid _ => ?_
    split
    · rfl
    · exact ih hrest

theorem isSome_someValid (h : ∀ y ∈ items, Answered sub scope schema y) :
    (someValid sub scope schema items).isSome := by
  induction items with
  | nil => rfl
  | cons item items ih =>
    obtain ⟨hitem, hitems⟩ := List.forall_mem_cons.mp h
    refine isSome_bind (isSome_isValid hitem) fun valid _ => ?_
    split
    · rfl
    · exact ih hitems

def AnsweredBelow (sub : Evaluator) (scope : Scope) (schemas : List Json) (x : Json) : Prop :=
  ∀ s ∈ schemas, ∀ y : Json, y.depth < x.depth → Answered sub scope s y

theorem depth_member {e : String × Json} (h : e ∈ members) :
    e.2.depth < (Json.obj members).depth :=
  Json.depth_lt (Json.inside_member h Json.mem_values_self)

theorem depth_item (h : y ∈ items) : y.depth < (Json.arr items).depth :=
  Json.depth_lt (Json.inside_item h Json.mem_values_self)

theorem depth_name {key : String} (h : key ∈ Keyed.keys members) :
    (Json.str key).depth < (Json.obj members).depth := by
  obtain ⟨e, he, rfl⟩ := List.mem_map.mp h
  exact Nat.lt_of_le_of_lt e.2.depth_pos (depth_member he)

theorem mem_of_numbered {start : Nat} {e : Nat × Json} (h : e ∈ numbered start items) :
    e.2 ∈ items := by
  obtain ⟨entry, hentry, rfl⟩ := List.mem_map.mp h
  exact List.mem_of_mem_drop (List.fst_mem_of_mem_zipIdx hentry)

theorem isSome_closedFaults {named : Option Members} {patterns : Option (List KeyPattern)}
    {rest : Remainder}
    (h : AnsweredBelow sub scope (Rule.closed named patterns rest).schemas (.obj members)) :
    (closedFaults sub goal scope named patterns rest members x path).isSome := by
  have hnamed : ∀ key, ∀ s ∈ namedSchemas named patterns key,
      s ∈ (Rule.closed named patterns rest).schemas := by
    intro key s hs
    simp only [Rule.schemas, List.mem_append]
    rcases List.mem_append.mp hs with hs | hs
    · have hfind := Keyed.mem_of_find? (Option.mem_toList.mp hs)
      exact .inl (.inl (List.mem_map.mpr ⟨_, hfind, rfl⟩))
    · exact .inl (.inr (mem_matchingSchemas hs))
  refine isSome_bind (isSome_inOrder fun e he => ?_) fun found _ => ?_
  · dsimp only
    split
    · refine isSome_inOrder fun s hs => ?_
      obtain rfl := List.mem_singleton.mp hs
      exact h s (by simp [Rule.schemas]) _ (depth_member he) goal _
    · exact isSome_inOrder fun s hs => h s (hnamed e.1 s hs) _ (depth_member he) goal _
  · split
    · rfl
    · split <;> split <;> rfl

theorem isSome_nameFaults (h : AnsweredBelow sub scope [schema] (.obj members)) :
    (nameFaults sub goal scope schema members x path).isSome := by
  unfold nameFaults
  split
  · rfl
  · refine isSome_inOrder fun key hkey => ?_
    exact isSome_bind (h _ (List.mem_singleton.mpr rfl) _ (depth_name hkey) goal path) fun _ _ => rfl

theorem isSome_ruleFaults (hhere : ∀ s ∈ rule.here, Answered sub scope s x)
    (hbelow : AnsweredBelow sub scope rule.schemas x) :
    (ruleFaults sub goal scope rule x path).isSome := by
  unfold ruleFaults
  dsimp only
  split
  case h_1 | h_2 | h_3 | h_5 | h_6 | h_7 | h_9 | h_10 | h_11 | h_12 | h_13 | h_22 | h_23 | h_30 =>
    rfl
  case h_4 => split <;> rfl
  case h_8 => split <;> rfl
  case h_14 =>
    refine isSome_inOrder fun e he => ?_
    split
    · rfl
    · exact hhere _ (List.mem_map.mpr ⟨e, (List.mem_filter.mp he).1, rfl⟩) goal path
  case h_15 =>
    refine isSome_inOrder fun e he => ?_
    split
    · rename_i value hvalue
      exact hbelow _ (List.mem_map.mpr ⟨e, he, rfl⟩) _ (depth_member (Keyed.mem_of_find? hvalue))
        goal _
    · rfl
  case h_16 =>
    refine isSome_inOrder fun p hp => isSome_inOrder fun e he => isSome_inOrder fun s hs => ?_
    obtain rfl := List.mem_singleton.mp (mem_matchingSchemas hs)
    exact hbelow _ (List.mem_map.mpr ⟨p, hp, rfl⟩) _ (depth_member he) goal _
  case h_17 => exact isSome_closedFaults hbelow
  case h_18 => exact isSome_nameFaults hbelow
  case h_19 | h_21 =>
    refine isSome_inOrder fun e he => ?_
    exact hbelow _ (List.mem_singleton.mpr rfl) _ (depth_item (mem_of_numbered he)) goal _
  case h_20 =>
    refine isSome_inOrder fun e he => ?_
    obtain ⟨hschema, hitem⟩ := List.of_mem_zip he
    exact hbelow _ hschema _ (depth_item (mem_of_numbered hitem)) goal _
  case h_24 =>
    refine isSome_bind (isSome_someValid fun y hy => ?_) fun _ _ => rfl
    exact hbelow _ (List.mem_singleton.mpr rfl) _ (depth_item hy)
  case h_25 => exact isSome_inOrder fun s hs => hhere s hs goal path
  case h_26 =>
    refine isSome_bind (isSome_behindFirstValid hhere) fun valid _ => ?_
    split <;> rfl
  case h_27 =>
    refine isSome_bind (isSome_behindFirstValid hhere) fun first hfirst => ?_
    split
    · rfl
    · have hothers := behindFirstValid_subset hfirst
      refine isSome_bind (isSome_behindFirstValid fun s hs => hhere s (hothers hs)) fun second _ => ?_
      split <;> rfl
  case h_28 =>
    exact isSome_bind (isSome_isValid (hhere _ (List.mem_singleton.mpr rfl))) fun _ _ => rfl
  case h_29 condition yes no =>
    refine isSome_bind (isSome_isValid (hhere _ (List.mem_cons_self ..))) fun valid _ => ?_
    split
    · rename_i s hs
      refine hhere s ?_ goal path
      cases valid <;> simp_all [Rule.here]
    · rfl

-- ---------------------------------------------------------------------------
-- Published schemas
-- ---------------------------------------------------------------------------

variable {draft : Draft} {fragment : Option (List Char)} {s : Json} {steps steps' k : Nat}

open MetaSchema

/-- Whether a part of the published schema is done with a value in so many steps, apart from what
is below the value. -/
def settles (draft : Draft) : (steps : Nat) → (schema : Json) → Bool
  | 0, _ => false
  | steps + 1, .obj members =>
    match Keyed.find? members "$ref" with
    | some (.str reference) =>
      (Keyed.find? (publishedParts draft) reference).any (settles draft steps)
    | some _ => true
    | none => members.all fun e =>
      match Rule.ofMember draft members e.1 e.2 with
      | .ok (some rule) => rule.here.all (settles draft steps)
      | _ => true
  | _ + 1, _ => true

def levelSteps : Nat := 5

theorem settles_published : ∀ draft ∈ Draft.all, ∀ s ∈ (ofDraft draft).values,
    settles draft levelSteps s = true := by
  decide +kernel

theorem here_subset_schemas (h : s ∈ rule.here) : s ∈ rule.schemas := by
  cases rule <;> first | exact h | cases h

/-- The steps go down with each part that the value is handed to, and begin anew one level below. -/
theorem answered_settling (hf : fragment ∈ fragments) (hs : s ∈ (ofDraft draft).values)
    (hk : settles draft k s = true) (hsteps : levelSteps * (x.depth - 1) + k ≤ steps) :
    Answered (faultsWithin (published draft) steps) (publishedScope draft fragment) s x := by
  -- With each step either `k` goes down, or the value gets less deep and `k` is set to its maximum.
  induction steps generalizing s x k fragment with
  | zero =>
    obtain rfl : k = 0 := by omega
    cases hk
  | succ steps ih =>
    obtain ⟨k, rfl⟩ : ∃ few, k = few + 1 := by
      cases k with
      | zero => cases hk
      | succ k => exact ⟨k, rfl⟩
    intro goal path
    cases s with
    | obj members =>
      obtain ⟨fragment', hf', hinside⟩ := inside_published hf hs
      rw [faultsWithin]
      rw [settles] at hk
      cases href : Keyed.find? members "$ref" with
      | none =>
        simp only [href] at hk
        rw [schemaFaults_obj href, hinside]
        refine isSome_inOrder fun e he => ?_
        have hall := List.all_eq_true.mp hk e he
        unfold memberFaults
        split
        · rename_i rule hrule
          rw [show Rule.ofMember draft members e.1 e.2 = .ok (some rule) from hrule] at hall
          have hmem : ∀ s' ∈ rule.schemas, s' ∈ (ofDraft draft).values := fun s' hs' =>
            Json.mem_values_trans hs
              (Json.mem_values.mpr (.inr (Rule.within_ofMember he rule hrule s' hs')))
          refine isSome_ruleFaults (fun s' hs' => ?_) fun s' hs' y hy => ?_
          · have hsettles := List.all_eq_true.mp hall s' hs'
            exact ih hf' (hmem s' (here_subset_schemas hs')) hsettles (by omega)
          · have hpos := y.depth_pos
            refine ih hf' (hmem s' hs') (settles_published draft Draft.mem_all s' (hmem s' hs')) ?_
            simp only [levelSteps] at hsteps ⊢
            omega
        · rfl
      | some r =>
        cases r with
        | str reference =>
          simp only [href] at hk
          obtain ⟨part, hpart, hsettles⟩ := (Option.any_eq_true _ _).mp hk
          rw [schemaFaults_ref href, hinside, follow_part hf' (reference_published hs href) hpart]
          exact ih (by decide) (publishedParts_inside hpart) hsettles (by omega) goal path
        | _ =>
          simp only [schemaFaults, href]
          rfl
    | bool b => cases b <;> rfl
    | _ => rfl

/-- So many steps for each level of a value are enough. -/
theorem answered_published (hf : fragment ∈ fragments) (hs : s ∈ (ofDraft draft).values)
    (hsteps : levelSteps * x.depth ≤ steps) :
    Answered (faultsWithin (published draft) steps) (publishedScope draft fragment) s x := by
  refine answered_settling hf hs (settles_published draft Draft.mem_all s hs) ?_
  have hpos := x.depth_pos
  simp only [levelSteps] at hsteps ⊢
  omega

variable {path : Path} {key : String} {v : Json}

theorem Passes.enough (h : Passes (published draft) steps (publishedScope draft fragment) s x path)
    (hf : fragment ∈ fragments) (hs : s ∈ (ofDraft draft).values)
    (hsteps : levelSteps * x.depth ≤ steps') :
    Passes (published draft) steps' (publishedScope draft fragment) s x path := by
  obtain ⟨fs, hfs⟩ := Option.isSome_iff_exists.mp (answered_published hf hs hsteps .faults path)
  have hmore := faultsWithin_mono (Nat.le_max_left steps steps') h
  have hmore' := faultsWithin_mono (Nat.le_max_right steps steps') hfs
  obtain rfl := Option.some.inj (hmore.symm.trans hmore')
  exact hfs

end Evaluation

open Evaluation MetaSchema

variable {draft : Draft} {x v : Json} {key : String} {steps steps' : Nat}

theorem Allowed.enough (h : Allowed draft steps key v) (hsteps : levelSteps * v.depth ≤ steps') :
    Allowed draft steps' key v := fun e he hkey path =>
  (h e he hkey path).enough (by decide) (publishedKeywords_inside he) hsteps

theorem Admitted.enough (h : Admitted draft steps x) (hsteps : levelSteps * x.depth ≤ steps') :
    Admitted draft steps' x := fun fragment hf path =>
  (h fragment hf path).enough hf Json.mem_values_self hsteps

theorem levelSteps_le_enoughSteps (corpus : Corpus) (x : Json) :
    levelSteps * x.depth ≤ enoughSteps corpus x := by
  have htotal := four_le_totalSize
  have hpow : 4 ^ 2 ≤ (corpus.root.size + MetaSchema.totalSize + 1) ^ 2 :=
    Nat.pow_le_pow_left (by omega) 2
  have hdepth := x.depth_le_size
  exact Nat.mul_le_mul (Nat.le_trans (by decide) hpow) (by omega)

/-- The check of a schema against the published one always ends. -/
theorem publishedFault_finished (draft : Draft) (x : Json) :
    Schema.publishedFault draft x ≠ .error .unfinished := by
  have hanswered : Answered (faultsWithin (published draft) (enoughSteps (published draft) x))
      (publishedScope draft (some [])) (ofDraft draft) x :=
    answered_published (by decide) Json.mem_values_self (levelSteps_le_enoughSteps _ x)
  obtain ⟨fs, hfs⟩ := Option.isSome_iff_exists.mp (hanswered .faults [])
  rw [ne_eq, (publishedFault_told hfs).2]
  exact Option.some_ne_none fs

end EventAdmission
