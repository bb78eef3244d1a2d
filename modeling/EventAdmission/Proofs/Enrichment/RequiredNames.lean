import EventAdmission.Enrichment
import EventAdmission.Proofs.Keyed

/-!
# Required names

A list of required names gains the names that it does not hold yet, each once and
in the order in which they first come (`Gained`, `appendNames_gained`); what it held
stays in front, whatever it is. Everything else about the list follows from that.
Names that are required one by one in the place of an object leave what
`appendRequired` gives, and where there is something else than a list they leave
the object as it was (`requireInPlace_eq`).
-/

namespace EventAdmission.Enrichment

variable {name : String} {names more added others : List String} {items : List Json}
  {root merged : Members} {key : String} {x : Json}

-- ---------------------------------------------------------------------------
-- The names in a list
-- ---------------------------------------------------------------------------

theorem str?_eq_some : x.str? = some name ↔ x = .str name := by
  cases x <;> simp [Json.str?]

theorem any_str : (items.any fun x => x.str? == some name) = true ↔ .str name ∈ items := by
  simp [str?_eq_some]

theorem mem_namesOf_arr : name ∈ namesOf (.arr items) ↔ .str name ∈ items := by
  simp [namesOf, str?_eq_some]

theorem namesOf_names : namesOf (.strings names) = names := by
  simp [namesOf, Json.strings, List.filterMap_map, Function.comp_def, Json.str?]

-- ---------------------------------------------------------------------------
-- The names that a list gains
-- ---------------------------------------------------------------------------

/-- The names that a list does not hold, each once and in the order in which they first come. -/
structure Gained (items : List Json) (names added : List String) : Prop where
  mem : ∀ name, name ∈ added ↔ name ∈ names ∧ .str name ∉ items
  order : added.Pairwise fun a b => names.idxOf a < names.idxOf b

theorem Gained.nodup (h : Gained items names added) : added.Nodup := by
  refine h.order.imp fun {a b} hlt heq => ?_
  subst heq
  exact Nat.lt_irrefl _ hlt

/-- Membership and order leave no choice. -/
theorem Gained.unique (h : Gained items names added) (ho : Gained items names others) :
    added = others := by
  have hperm : added.Perm others := (List.perm_ext_iff_of_nodup h.nodup ho.nodup).mpr fun name =>
    (h.mem name).trans (ho.mem name).symm
  exact hperm.eq_of_pairwise (fun _ _ _ _ hab hba => absurd (Nat.lt_trans hab hba)
    (Nat.lt_irrefl _)) h.order ho.order

theorem gained_nil : Gained items [] [] := ⟨by simp, .nil⟩

theorem idxOf_cons_other {other : String} (h : name ≠ other) :
    (name :: names).idxOf other = names.idxOf other + 1 := by
  rw [List.idxOf_cons, beq_false_of_ne h, cond_false]

theorem idxOf_cons_lt {a b : String} (ha : name ≠ a) (hb : name ≠ b)
    (h : names.idxOf a < names.idxOf b) : (name :: names).idxOf a < (name :: names).idxOf b := by
  rw [idxOf_cons_other ha, idxOf_cons_other hb]
  exact Nat.succ_lt_succ h

theorem Gained.ne (h : Gained items names added) (hname : .str name ∈ items) :
    ∀ other ∈ added, name ≠ other := fun other hother heq =>
  ((h.mem other).mp hother).2 (heq ▸ hname)

theorem Gained.listed (h : Gained items names added) (hname : .str name ∈ items) :
    Gained items (name :: names) added := by
  have hne : ∀ other ∈ added, name ≠ other := h.ne hname
  refine ⟨fun other => ?_, h.order.imp_of_mem fun ha hb => idxOf_cons_lt (hne _ ha) (hne _ hb)⟩
  rw [h.mem, List.mem_cons]
  constructor
  · rintro ⟨hother, hfresh⟩
    exact ⟨.inr hother, hfresh⟩
  · rintro ⟨rfl | hother, hfresh⟩
    · exact absurd hname hfresh
    · exact ⟨hother, hfresh⟩

theorem Gained.fresh (h : Gained (items ++ [.str name]) names added) (hname : .str name ∉ items) :
    Gained items (name :: names) (name :: added) := by
  have hne : ∀ other ∈ added, name ≠ other := h.ne (by simp)
  refine ⟨fun other => ?_, List.pairwise_cons.mpr ⟨fun other hother => ?_,
    h.order.imp_of_mem fun ha hb => idxOf_cons_lt (hne _ ha) (hne _ hb)⟩⟩
  · by_cases hother : other = name
    · subst hother
      simp [hname]
    · simp [h.mem, hother]
  · simp [idxOf_cons_other (hne other hother)]

theorem appendNames_gained (items : List Json) (names : List String) :
    ∃ added, Gained items names added ∧ appendNames items names = items ++ added.map .str := by
  -- A name is looked for in the list as it has grown by then.
  induction names generalizing items with
  | nil => exact ⟨[], gained_nil, by simp [appendNames]⟩
  | cons name names ih =>
    rw [appendNames]
    split
    · rename_i hany
      obtain ⟨added, hadded, happend⟩ := ih items
      exact ⟨added, hadded.listed (any_str.mp hany), happend⟩
    · rename_i hany
      obtain ⟨added, hadded, happend⟩ := ih (items ++ [.str name])
      exact ⟨name :: added, hadded.fresh (mt any_str.mpr hany), by simp [happend]⟩

theorem Gained.appendNames (h : Gained items names added) :
    appendNames items names = items ++ added.map .str := by
  obtain ⟨others, hothers, happend⟩ := appendNames_gained items names
  rw [happend, h.unique hothers]

-- ---------------------------------------------------------------------------
-- Laws of the list
-- ---------------------------------------------------------------------------

theorem mem_appendNames (h : name ∈ names) : .str name ∈ appendNames items names := by
  obtain ⟨added, hadded, happend⟩ := appendNames_gained items names
  rw [happend, List.mem_append]
  by_cases hlisted : Json.str name ∈ items
  · exact .inl hlisted
  · exact .inr (List.mem_map_of_mem ((hadded.mem name).mpr ⟨h, hlisted⟩))

theorem appendNames_eq (h : names.Nodup) :
    appendNames items names = items ++ (names.filter fun name => .str name ∉ items).map .str := by
  have horder : names.Pairwise fun a b => names.idxOf a < names.idxOf b :=
    List.pairwise_iff_getElem.mpr fun i j hi hj hlt => by
      rwa [h.idxOf_getElem, h.idxOf_getElem]
  exact Gained.appendNames ⟨by simp, horder.filter _⟩

theorem appendNames_one : appendNames items [key] =
    if .str key ∈ items then items else items ++ [.str key] := by
  simp only [appendNames, any_str]

theorem appendNames_listed (h : ∀ name ∈ names, .str name ∈ items) :
    appendNames items names = items := by
  have hgained : Gained items names [] :=
    ⟨fun name => by simpa using h name, .nil⟩
  simpa using hgained.appendNames

theorem appendNames_append :
    appendNames items (names ++ more) = appendNames (appendNames items names) more := by
  induction names generalizing items with
  | nil => rfl
  | cons name names ih =>
    rw [List.cons_append, appendNames, appendNames]
    split <;> exact ih

theorem appendNames_again : appendNames (appendNames items names) names = appendNames items names :=
  appendNames_listed fun _ => mem_appendNames

-- ---------------------------------------------------------------------------
-- The member of an object
-- ---------------------------------------------------------------------------

theorem appendRequired_of_list (h : (Keyed.find? root "required").getD (.arr []) = .arr items)
    (names : List String) : appendRequired root names =
      some (Keyed.insert root "required" (.arr (appendNames items names))) := by
  rw [appendRequired, h]

theorem appendRequired_ok (h : appendRequired root names = some merged) :
    ∃ items, (Keyed.find? root "required").getD (.arr []) = .arr items ∧
      merged = Keyed.insert root "required" (.arr (appendNames items names)) := by
  unfold appendRequired at h
  split at h
  · exact ⟨_, ‹_›, (Option.some.inj h).symm⟩
  · cases h

theorem appendRequired_eq_none : appendRequired root names = none ↔
    ∃ x, Keyed.find? root "required" = some x ∧ x.arr? = none := by
  rw [appendRequired]
  cases Keyed.find? root "required" with
  | none => simp
  | some x => cases x <;> simp [Json.arr?]

theorem find?_appendRequired (h : appendRequired root names = some merged)
    (hk : key ≠ "required") : Keyed.find? merged key = Keyed.find? root key := by
  obtain ⟨items, -, rfl⟩ := appendRequired_ok h
  exact Keyed.find?_insert_of_ne hk

theorem appendRequired_append : appendRequired root (names ++ more) =
    (appendRequired root names).bind (appendRequired · more) := by
  cases h : appendRequired root names with
  | none =>
    obtain ⟨x, hx, harr⟩ := appendRequired_eq_none.mp h
    exact appendRequired_eq_none.mpr ⟨x, hx, harr⟩
  | some merged =>
    obtain ⟨items, hitems, rfl⟩ := appendRequired_ok h
    rw [Option.bind_some, appendRequired_of_list hitems,
      appendRequired_of_list (by rw [Keyed.find?_insert_self, Option.getD_some]),
      Keyed.insert_insert, appendNames_append]

-- ---------------------------------------------------------------------------
-- In place
-- ---------------------------------------------------------------------------

def requireName (root : Members) (name : String) : Members :=
  match Keyed.find? root "required" with
  | some (.arr items) =>
    if items.any fun x => x.str? == some name then root
    else Keyed.insert root "required" (.arr (items ++ [.str name]))
  | _ => root

/-- Names are required in the place of an object: a list comes where there is nothing, and the names
go into it one by one. With the outcome comes the object as it is then. -/
def requireInPlace (root : Members) (names : List String) : Except String Unit × Members :=
  let opened :=
    if Keyed.contains root "required" then root else Keyed.insert root "required" (.arr [])
  match Keyed.find? opened "required" with
  | some (.arr _) => (.ok (), names.foldl requireName opened)
  | _ => (.error "required", opened)

/-- The names that have gone in so far are those in front of the list that is left. -/
theorem foldl_requireName (hs : Keyed.Sorted root)
    (h : Keyed.find? root "required" = some (.arr items)) (names : List String) :
    names.foldl requireName root =
      Keyed.insert root "required" (.arr (appendNames items names)) := by
  induction names generalizing root items with
  | nil => exact (Keyed.insert_of_find? hs h).symm
  | cons name names ih =>
    have hstep : requireName root name =
        if items.any fun x => x.str? == some name then root
        else Keyed.insert root "required" (.arr (items ++ [.str name])) := by
      rw [requireName, h]
    rw [List.foldl_cons, hstep, appendNames]
    split
    · exact ih hs h
    · rw [ih (Keyed.sorted_insert hs) Keyed.find?_insert_self, Keyed.insert_insert]

theorem requireInPlace_eq (hs : Keyed.Sorted root) : requireInPlace root names =
    match appendRequired root names with
    | some merged => (.ok (), merged)
    | none => (.error "required", root) := by
  cases hx : Keyed.find? root "required" with
  | none =>
    have hopened : Keyed.contains root "required" = false := by simp [Keyed.contains, hx]
    have hlist : (Keyed.find? root "required").getD (.arr []) = .arr [] := by
      rw [hx, Option.getD_none]
    rw [appendRequired_of_list hlist]
    simp only [requireInPlace, hopened, Bool.false_eq_true, ↓reduceIte, Keyed.find?_insert_self]
    rw [foldl_requireName (Keyed.sorted_insert hs) Keyed.find?_insert_self, Keyed.insert_insert]
  | some x =>
    have hopened : Keyed.contains root "required" = true := Keyed.contains_iff.mpr ⟨x, hx⟩
    simp only [requireInPlace, hopened, ↓reduceIte, hx]
    cases x with
    | arr items =>
      have hlist : (Keyed.find? root "required").getD (.arr []) = .arr items := by
        rw [hx, Option.getD_some]
      rw [appendRequired_of_list hlist]
      exact congrArg _ (foldl_requireName hs hx names)
    | _ => rw [appendRequired_eq_none.mpr ⟨_, hx, rfl⟩]

structure Requires (root merged : Members) (items : List Json) (names : List String) : Prop where
  list : ∃ added, Gained items names added ∧
    Keyed.find? merged "required" = some (.arr (items ++ added.map .str))
  others : ∀ key, key ≠ "required" → Keyed.find? merged key = Keyed.find? root key
  sorted : Keyed.Sorted merged

theorem appendRequired_requires (hs : Keyed.Sorted root)
    (h : (Keyed.find? root "required").getD (.arr []) = .arr items) (names : List String) :
    ∃ merged, appendRequired root names = some merged ∧ Requires root merged items names := by
  obtain ⟨added, hadded, happend⟩ := appendNames_gained items names
  have hmerged := appendRequired_of_list h names
  refine ⟨_, hmerged, ⟨added, hadded, ?_⟩, fun key hk => find?_appendRequired hmerged hk,
    Keyed.sorted_insert hs⟩
  rw [Keyed.find?_insert_self, happend]

/-- Requiring names is an ordered union: the list of an object, or an empty one, stays in front and
gains the names that it lacks, each once, as they first come. Names required in two goes are as good
as required at once, and requiring them again changes nothing. What is no list is a fault, and the
object stays as it is. -/
theorem appendRequired_union (root : Members) (hs : Keyed.Sorted root) :
    (∀ items, (Keyed.find? root "required").getD (.arr []) = .arr items →
      (∀ names, ∃ merged, appendRequired root names = some merged ∧
        requireInPlace root names = (.ok (), merged) ∧ Requires root merged items names) ∧
      (∀ names more, (appendRequired root names).bind (appendRequired · more) =
        appendRequired root (names ++ more)) ∧
      ∀ names, (appendRequired root names).bind (appendRequired · names) =
        appendRequired root names) ∧
    ∀ x, Keyed.find? root "required" = some x → x.arr? = none → ∀ names,
      appendRequired root names = none ∧
      requireInPlace root names = (.error "required", root) := by
  refine ⟨fun items hitems => ⟨fun names => ?_, fun names more => appendRequired_append.symm,
    fun names => ?_⟩, fun x hx harr names => ?_⟩
  · obtain ⟨merged, hmerged, hrequires⟩ := appendRequired_requires hs hitems names
    exact ⟨merged, hmerged, by rw [requireInPlace_eq hs, hmerged], hrequires⟩
  · rw [← appendRequired_append, appendRequired_of_list hitems, appendRequired_of_list hitems,
      appendNames_append, appendNames_again]
  · have hnone : appendRequired root names = none := appendRequired_eq_none.mpr ⟨x, hx, harr⟩
    exact ⟨hnone, by rw [requireInPlace_eq hs, hnone]⟩

def oddlyRequired : Members :=
  [("properties", .obj []),
    ("required", .arr [.null, .str "foo", .strings ["eid"], .str "foo", .bool true]),
    ("type", .str "object")]

def oddlyExtended : Members :=
  [("properties", .obj []),
    ("required", .arr [.null, .str "foo", .strings ["eid"], .str "foo", .bool true, .str "eid",
      .str "occurred_at"]),
    ("type", .str "object")]

def wronglyRequired : Members := [("required", .str "foo"), ("type", .str "object")]

theorem oddlyRequired_union :
    (Keyed.Sorted oddlyRequired ∧
      appendRequired oddlyRequired ["eid", "foo", "occurred_at", "eid"] = some oddlyExtended ∧
      Requires oddlyRequired oddlyExtended
        [.null, .str "foo", .strings ["eid"], .str "foo", .bool true]
        ["eid", "foo", "occurred_at", "eid"]) ∧
    Keyed.Sorted wronglyRequired ∧ appendRequired wronglyRequired ["eid"] = none ∧
      requireInPlace wronglyRequired ["eid"] = (.error "required", wronglyRequired) := by
  have hodd : Keyed.Sorted oddlyRequired := Keyed.sorted_of_keys rfl (by decide)
  have hwrong : Keyed.Sorted wronglyRequired := Keyed.sorted_of_keys rfl (by decide)
  obtain ⟨hunion, -, -⟩ := (appendRequired_union oddlyRequired hodd).1 _ rfl
  obtain ⟨merged, hmerged, -, hrequires⟩ := hunion ["eid", "foo", "occurred_at", "eid"]
  obtain rfl := Option.some.inj hmerged
  exact ⟨⟨hodd, rfl, hrequires⟩, hwrong,
    (appendRequired_union wronglyRequired hwrong).2 (.str "foo") rfl rfl ["eid"]⟩

end EventAdmission.Enrichment
