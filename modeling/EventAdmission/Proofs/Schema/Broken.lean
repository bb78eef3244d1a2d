import EventAdmission.Proofs.Schema.Additional
import EventAdmission.Schema.Compile

/-!
# Faults of the schema

A schema that makes no sense has faults of its own, and so has a reference that
leads nowhere. `breaks_ofMember`, `firstFault_isBroken` and `isBroken_follow`:
however such a fault comes about, it belongs to no place of the document, and
its cause is one that leaves something to say.
-/

namespace EventAdmission

def Cause.isTold : Cause → Bool
  | .unexpectedProperties [] => false
  | _ => true

/-- The fault is one of the schema: of no place in the document, but told. -/
def Fault.IsBroken (f : Fault) : Prop := f.path = [] ∧ f.cause.isTold = true

namespace Rule

variable {α β : Type}

def Breaks (x : Except Fault α) : Prop := ∀ f, x = .error f → f.IsBroken

theorem breaks_ok {a : α} : Breaks (.ok a) := by
  rintro _ ⟨⟩

theorem breaks_broken {value : Json} {cause : Cause} (h : cause.isTold = true) :
    Breaks (.error (broken value cause) : Except Fault α) := by
  rintro _ ⟨⟩
  exact ⟨rfl, h⟩

theorem breaks_map {x : Except Fault α} {f : α → β} (h : Breaks x) : Breaks (f <$> x) := by
  intro fault hf
  cases x with
  | error e =>
    cases hf
    exact h _ rfl
  | ok a => cases hf

theorem breaks_bind {x : Except Fault α} {f : α → Except Fault β} (h : Breaks x)
    (hf : ∀ a, Breaks (f a)) : Breaks (x >>= f) := by
  intro fault he
  cases x with
  | error e =>
    cases he
    exact h _ rfl
  | ok a => exact hf a _ he

theorem breaks_mapM {f : α → Except Fault β} {xs : List α} (hf : ∀ a, Breaks (f a)) :
    Breaks (xs.mapM f) := by
  induction xs with
  | nil => exact breaks_ok
  | cons x xs ih =>
    rw [List.mapM_cons]
    exact breaks_bind (hf x) fun _ => breaks_bind ih fun _ => breaks_ok

theorem breaks_expectKind {kind : Kind} {value : Json} :
    Breaks (expectKind kind value : Except Fault α) := breaks_broken rfl

variable {value : Json} {siblings : Members} {draft : Draft} {key : String}

theorem breaks_stringOf : Breaks (stringOf value) := by
  cases value with
  | str s => exact breaks_ok
  | _ => exact breaks_expectKind

theorem breaks_listOf : Breaks (listOf value) := by
  cases value with
  | arr items => exact breaks_ok
  | _ => exact breaks_expectKind

theorem breaks_membersOf : Breaks (membersOf value) := by
  cases value with
  | obj members => exact breaks_ok
  | _ => exact breaks_expectKind

theorem breaks_numberOf : Breaks (numberOf value) := by
  cases value with
  | num n => exact breaks_ok
  | _ => exact breaks_expectKind

theorem breaks_sizeOf : Breaks (sizeOf draft value) := by
  unfold sizeOf
  split
  · exact breaks_ok
  · exact breaks_broken rfl
  · split
    · exact breaks_ok
    · exact breaks_expectKind
  · exact breaks_expectKind

theorem breaks_kindsOf : Breaks (kindsOf value) := by
  unfold kindsOf
  split
  · split
    · exact breaks_ok
    · exact breaks_broken rfl
  · refine breaks_bind (breaks_mapM fun item => ?_) fun _ => breaks_ok
    split
    · split
      · exact breaks_ok
      · exact breaks_broken rfl
    · exact breaks_expectKind
  · exact breaks_broken rfl

theorem breaks_namesOf : Breaks (namesOf value) :=
  breaks_bind breaks_listOf fun _ => breaks_mapM fun _ => breaks_stringOf

theorem breaks_patternOf : Breaks (patternOf value) := by
  refine breaks_bind breaks_stringOf fun source => ?_
  split
  · exact breaks_ok
  · exact breaks_broken rfl

theorem breaks_patternsBeside : Breaks (Evaluation.patternsBeside siblings value) := by
  unfold Evaluation.patternsBeside
  split
  · exact breaks_ok
  · exact breaks_ok
  · exact breaks_broken rfl

theorem breaks_propertiesBeside : Breaks (Evaluation.propertiesBeside siblings) := by
  unfold Evaluation.propertiesBeside
  split
  · exact breaks_ok
  · exact breaks_map breaks_membersOf

theorem breaks_additionalOf : Breaks (additionalOf siblings value) := by
  by_cases hvalue : value = .bool true
  · rw [hvalue, Evaluation.additionalOf_true]
    exact breaks_bind breaks_patternsBeside fun _ => breaks_ok
  · rw [Evaluation.additionalOf_eq hvalue]
    exact breaks_bind breaks_patternsBeside fun _ =>
      breaks_bind breaks_propertiesBeside fun _ => breaks_ok

theorem breaks_mediaTypeOf : Breaks (mediaTypeOf siblings value) := by
  refine breaks_bind breaks_stringOf fun media => ?_
  split
  · exact breaks_ok
  · split
    · exact breaks_ok
    · exact breaks_bind breaks_stringOf fun _ => breaks_ok

theorem breaks_encodingOf : Breaks (encodingOf siblings value) := by
  unfold encodingOf
  split
  · exact breaks_ok
  · exact breaks_bind breaks_stringOf fun _ => breaks_ok

theorem breaks_itemsOf : Breaks (itemsOf value) := by
  unfold itemsOf
  split <;> exact breaks_ok

theorem breaks_additionalItemsOf : Breaks (additionalItemsOf siblings value) := by
  unfold additionalItemsOf
  split
  · exact breaks_ok
  · split <;> exact breaks_ok
  · exact breaks_ok

theorem breaks_since6 {r : Except Fault (Option Rule)} (h : Breaks r) :
    Breaks (if draft = .draft4 then .ok none else r) := by
  split
  · exact breaks_ok
  · exact h

theorem breaks_ofMember : Breaks (ofMember draft siblings key value) := by
  have hsize : ∀ measure side, Breaks (some <$> Rule.size measure side <$> sizeOf draft value) :=
    fun _ _ => breaks_map (breaks_map breaks_sizeOf)
  unfold ofMember
  dsimp only
  split
  case h_1 => exact breaks_map (breaks_map breaks_kindsOf)
  case h_2 | h_3 | h_6 => exact breaks_map (breaks_map breaks_numberOf)
  case h_4 | h_5 => exact breaks_since6 (breaks_map (breaks_map breaks_numberOf))
  case h_7 | h_8 | h_9 | h_10 | h_11 | h_12 => exact hsize _ _
  case h_14 => exact breaks_map (breaks_map breaks_listOf)
  case h_16 => exact breaks_map breaks_patternOf
  case h_17 => exact breaks_bind breaks_stringOf fun _ => breaks_ok
  case h_18 => exact breaks_since6 breaks_encodingOf
  case h_19 => exact breaks_since6 breaks_mediaTypeOf
  case h_20 => exact breaks_map (breaks_map breaks_namesOf)
  case h_21 => exact breaks_map (breaks_map breaks_membersOf)
  case h_22 =>
    split
    · exact breaks_ok
    · exact breaks_map (breaks_map breaks_membersOf)
  case h_23 =>
    split
    · exact breaks_ok
    · split
      · exact breaks_ok
      · exact breaks_broken rfl
  case h_24 => exact breaks_additionalOf
  case h_26 => exact breaks_itemsOf
  case h_27 => exact breaks_additionalItemsOf
  case h_29 | h_30 | h_31 => exact breaks_map (breaks_map breaks_listOf)
  case h_15 | h_25 | h_28 => exact breaks_since6 breaks_ok
  case h_33 => split <;> exact breaks_ok
  case h_13 | h_32 | h_34 => exact breaks_ok

def Part.Breaks : Part → Prop
  | .schema _ => True
  | .masked _ f => f.IsBroken
  | .fault f => f.IsBroken

theorem Part.breaks_ofPattern {entry : KeyPattern} {part : Part} (h : part ∈ ofPattern entry) :
    part.Breaks := by
  unfold ofPattern at h
  split at h <;> obtain rfl := List.mem_singleton.mp h
  · exact trivial
  · exact ⟨rfl, rfl⟩

theorem Part.breaks_ofMaskedPattern {entry : KeyPattern} {part : Part}
    (h : part ∈ ofMaskedPattern (malformed value) entry) : part.Breaks := by
  unfold ofMaskedPattern at h
  split at h <;> obtain rfl := List.mem_singleton.mp h <;> exact ⟨rfl, rfl⟩

theorem Part.breaks_ofDependency {part : Part} (h : part ∈ ofDependency value) : part.Breaks := by
  unfold ofDependency at h
  split at h
  · split at h
    · cases h
    · rename_i hn
      obtain rfl := List.mem_singleton.mp h
      exact breaks_namesOf _ hn
  · obtain rfl := List.mem_singleton.mp h
    exact trivial

theorem breaks_map_schema {schemas : List Json} {part : Part} (h : part ∈ schemas.map .schema) :
    part.Breaks := by
  obtain ⟨_, -, rfl⟩ := List.mem_map.mp h
  exact trivial

theorem breaks_parts {rule : Rule} {part : Part} (h : part ∈ rule.parts value) : part.Breaks := by
  unfold parts at h
  split at h
  case h_1 =>
    obtain ⟨_, -, h⟩ := List.mem_flatMap.mp h
    exact Part.breaks_ofDependency h
  case h_2 =>
    obtain ⟨_, -, rfl⟩ := List.mem_map.mp h
    exact trivial
  case h_3 =>
    obtain ⟨_, -, h⟩ := List.mem_flatMap.mp h
    exact Part.breaks_ofPattern h
  case h_4 =>
    obtain ⟨_, -, h⟩ := List.mem_flatMap.mp h
    exact Part.breaks_ofMaskedPattern h
  case h_5 =>
    rcases List.mem_append.mp h with h | h
    · rcases List.mem_append.mp h with h | h
      · obtain ⟨_, -, h⟩ := List.mem_flatMap.mp h
        exact Part.breaks_ofMaskedPattern h
      · obtain ⟨_, -, rfl⟩ := List.mem_map.mp h
        exact trivial
    · split at h
      · cases h
      · obtain rfl := List.mem_singleton.mp h
        exact trivial
  case h_8 | h_11 | h_12 | h_13 => exact breaks_map_schema h
  case h_6 | h_7 | h_9 | h_10 | h_14 =>
    obtain rfl := List.mem_singleton.mp h
    exact trivial
  case h_15 =>
    rcases List.mem_cons.mp h with rfl | h
    · exact trivial
    · exact breaks_map_schema h
  case h_16 => cases h

end Rule

namespace Evaluation

variable {corpus : Corpus} {scope : Scope}

theorem firstFault_isBroken {fuel : Nat} {schema : Json} {fault : Fault}
    (h : firstFault fuel scope schema = some fault) : fault.IsBroken := by
  induction fuel generalizing scope schema fault with
  | zero => cases h
  | succ fuel ih =>
    cases schema with
    | bool b => cases h
    | obj members =>
      simp only [firstFault] at h
      split at h
      · obtain rfl := Option.some.inj h
        exact ⟨rfl, rfl⟩
      · split at h
        · split at h
          · cases h
          · obtain rfl := Option.some.inj h
            exact ⟨rfl, rfl⟩
        · cases h
        · obtain ⟨e, -, hmember⟩ := List.exists_of_findSome?_eq_some h
          split at hmember
          · rename_i hrule
            obtain rfl := Option.some.inj hmember
            exact Rule.breaks_ofMember _ hrule
          · cases hmember
          · obtain ⟨part, hpart, hfault⟩ := List.exists_of_findSome?_eq_some hmember
            have hbreaks := Rule.breaks_parts hpart
            cases part with
            | schema s => exact ih hfault
            | masked s f =>
              obtain ⟨_, -, rfl⟩ := Option.map_eq_some_iff.mp hfault
              exact hbreaks
            | fault f =>
              obtain rfl := Option.some.inj hfault
              exact hbreaks
    | _ =>
      obtain rfl := Option.some.inj h
      exact ⟨rfl, rfl⟩

theorem isTold_resolve {draft : Draft} {url : Url} {cause : Cause}
    (h : corpus.resolve draft url = .error cause) : cause.isTold = true := by
  unfold Corpus.resolve at h
  split at h
  · cases h
  · dsimp only at h
    split at h
    · cases h
      rfl
    · split at h
      · cases h
        rfl
      · split at h
        · cases h
          rfl
        · split at h <;> cases h
          rfl

theorem isBroken_follow {reference : String} {fault : Fault}
    (h : follow corpus scope reference = .error fault) : fault.IsBroken := by
  unfold follow at h
  dsimp only at h
  split at h
  · cases h
    exact ⟨rfl, rfl⟩
  · split at h
    · rename_i hresolve
      cases h
      exact ⟨rfl, isTold_resolve hresolve⟩
    · split at h
      · rename_i hfirst
        cases h
        exact firstFault_isBroken hfirst
      · cases h

end Evaluation

end EventAdmission
