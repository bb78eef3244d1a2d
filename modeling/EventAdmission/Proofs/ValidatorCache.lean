import EventAdmission.Proofs.Keyed
import EventAdmission.Proofs.Pipeline.Order
import EventAdmission.Proofs.Json.Equality
import EventAdmission.ValidatorCache

/-!
# Runs of the cache

What can be asked of a cache, and the cache that is reached from the empty one.
A run is written with its latest operation first, so what has been before is the
rest of the list. All that an operation can do is said by `Response` and
`mem_perform`; the laws of runs follow from these.
-/

namespace EventAdmission

namespace ValidatorCache

inductive Operation where
  | request (v : Validation) (t : EventType)
  | invalidate (name : String)
  | clear

def perform (c : ValidatorCache) : Operation → ValidatorCache
  | .request v t => (c.getOrBuild v t).result.2
  | .invalidate name => (c.invalidate name).result.2
  | .clear => c.clear.result

def after : List Operation → ValidatorCache
  | [] => empty
  | op :: past => (after past).perform op

def answer (past : List Operation) (v : Validation) (t : EventType) :
    Except SetupError BuiltValidator :=
  ((after past).getOrBuild v t).result.1

variable {c : ValidatorCache} {v : Validation} {t : EventType} {b : BuiltValidator} {name : String}
  {op : Operation} {past : List Operation} {w : EventValidator} {e : SetupError}

-- ---------------------------------------------------------------------------
-- One operation
-- ---------------------------------------------------------------------------

theorem lookup?_eq_some : c.lookup? t = some b ↔
    ∃ snapshot, Keyed.find? c.entries t.name = some ⟨snapshot, b⟩ ∧
      snapshot.unsigned = t.unsigned := by
  simp only [lookup?, bind, Option.bind_eq_some_iff, ← EventType.equal_iff]
  constructor
  · rintro ⟨⟨snapshot, built⟩, hfind, hb⟩
    split at hb
    · rename_i hequal
      cases hb
      exact ⟨snapshot, hfind, hequal⟩
    · cases hb
  · rintro ⟨snapshot, hfind, hequal⟩
    exact ⟨_, hfind, if_pos hequal⟩

/-- What becomes of a request: there is a validator already, or one is built, which may fail. -/
inductive Response (c : ValidatorCache) (v : Validation) (t : EventType) : Prop
  | kept {b : BuiltValidator} (h : c.lookup? t = some b)
      (result : (c.getOrBuild v t).result = (.ok b, c))
  | failed {e : SetupError} (hmiss : c.lookup? t = none) (h : (v.forType t).result = .error e)
      (result : (c.getOrBuild v t).result = (.error e, c))
  | built {w : EventValidator} (hmiss : c.lookup? t = none) (h : (v.forType t).result = .ok w)
      (result : (c.getOrBuild v t).result = (.ok ⟨c.builds, w⟩, c.store t w))

theorem response (c : ValidatorCache) (v : Validation) (t : EventType) : Response c v t := by
  cases hlookup : c.lookup? t with
  | some b => exact .kept hlookup (by simp [getOrBuild, hlookup])
  | none =>
    cases hresult : (v.forType t).result with
    | error e => exact .failed hlookup hresult (by simp [getOrBuild, hlookup, hresult])
    | ok w => exact .built hlookup hresult (by simp [getOrBuild, hlookup, hresult])

theorem request_result {r : Except SetupError BuiltValidator × ValidatorCache}
    (h : ((after past).getOrBuild v t).result = r) :
    answer past v t = r.1 ∧ after (.request v t :: past) = r.2 :=
  ⟨congrArg Prod.fst h, congrArg Prod.snd h⟩

theorem perform_invalidate :
    c.perform (.invalidate name) = { c with entries := Keyed.erase c.entries name } := by
  cases h : Keyed.contains c.entries name with
  | true => simp [perform, invalidate, h]
  | false => simp [perform, invalidate, h, Keyed.erase_of_not_contains h]

theorem perform_clear : c.perform .clear = { c with entries := [] } := rfl

theorem mem_perform {e : String × CacheEntry} (h : e ∈ (c.perform op).entries) :
    e ∈ c.entries ∨ ∃ v t w, op = .request v t ∧ (c.getOrBuild v t).result.1 = .ok ⟨c.builds, w⟩ ∧
      (v.forType t).result = .ok w ∧ e = (t.name, ⟨t, c.builds, w⟩) := by
  cases op with
  | request v t =>
    rw [perform] at h
    cases response c v t with
    | kept _ hr => exact .inl (by rwa [hr] at h)
    | failed _ _ hr => exact .inl (by rwa [hr] at h)
    | @built w _ hw hr =>
      rw [hr] at h
      rcases Keyed.mem_of_mem_insert h with rfl | h
      · exact .inr ⟨v, t, w, rfl, by rw [hr], hw, rfl⟩
      · exact .inl h
  | invalidate name =>
    rw [perform_invalidate] at h
    exact .inl (List.mem_filter.mp h).1
  | clear => simp [perform_clear] at h

theorem sorted_perform (h : c.entries.Sorted) : (c.perform op).entries.Sorted := by
  cases op with
  | request v t =>
    rw [perform]
    cases response c v t with
    | kept _ hr => rwa [hr]
    | failed _ _ hr => rwa [hr]
    | built _ _ hr =>
      rw [hr]
      exact Keyed.sorted_insert h
  | invalidate name =>
    rw [perform_invalidate]
    exact Keyed.sorted_erase h
  | clear => exact List.Pairwise.nil

theorem sorted_after : (after past).entries.Sorted := by
  induction past with
  | nil => exact List.Pairwise.nil
  | cons op past ih => exact sorted_perform ih

-- ---------------------------------------------------------------------------
-- Transparency
-- ---------------------------------------------------------------------------

/-- An entry stands under the name of its snapshot, and holds the validator that was built for the
snapshot when it was requested. -/
theorem entry_built {e : String × CacheEntry} (h : e ∈ (after past).entries) :
    e.1 = e.2.snapshot.name ∧ ∃ v, .request v e.2.snapshot ∈ past ∧
      (v.forType e.2.snapshot).result = .ok e.2.built.validator := by
  induction past with
  | nil => cases h
  | cons op past ih =>
    obtain h | ⟨v, t, w, rfl, -, hw, rfl⟩ := mem_perform h
    · obtain ⟨hname, v, hv, hbuilt⟩ := ih h
      exact ⟨hname, v, List.mem_cons_of_mem _ hv, hbuilt⟩
    · exact ⟨rfl, v, List.mem_cons_self, hw⟩

theorem answer_built (past : List Operation) (v : Validation) (t : EventType) :
    (answer past v t).map BuiltValidator.validator = (v.forType t).result ∨
      ∃ v' t', .request v' t' ∈ past ∧ t'.unsigned = t.unsigned ∧
        (answer past v t).map BuiltValidator.validator = (v'.forType t').result := by
  cases response (after past) v t with
  | kept h hr =>
    obtain ⟨snapshot, hfind, hsame⟩ := lookup?_eq_some.mp h
    obtain ⟨-, v', hv', hbuilt⟩ := entry_built (Keyed.mem_of_find? hfind)
    refine .inr ⟨v', snapshot, hv', hsame, ?_⟩
    rw [(request_result hr).1, hbuilt]
    rfl
  | failed _ h hr =>
    refine .inl ?_
    rw [(request_result hr).1, h]
    rfl
  | built _ h hr =>
    refine .inl ?_
    rw [(request_result hr).1, h]
    rfl

/-- The cache does not show: as long as all requests are made of one validation, and no two
snapshots differ in nothing but the signs of zeros, a request gets what the validation would have
built for it. Every entry is the one that the validation builds for its snapshot. -/
theorem cache_transparent (v : Validation) (run : List Operation)
    (hone : ∀ v' t, .request v' t ∈ run → v' = v)
    (hzeros : ∀ t t', .request v t ∈ run → .request v t' ∈ run →
      t.schema.unsigned = t'.schema.unsigned → t.schema = t'.schema) :
    (∀ e ∈ (after run).entries, e.1 = e.2.snapshot.name ∧
      (v.forType e.2.snapshot).result = .ok e.2.built.validator) ∧
    ∀ t past, .request v t :: past <:+ run →
      (answer past v t).map BuiltValidator.validator = (v.forType t).result ∧
      ∀ b, answer past v t = .ok b → b.validator.eventType = t.name := by
  constructor
  · intro e he
    obtain ⟨hname, v', hv', hbuilt⟩ := entry_built he
    cases hone _ _ hv'
    exact ⟨hname, hbuilt⟩
  · intro t past hpast
    have hanswer : (answer past v t).map BuiltValidator.validator = (v.forType t).result := by
      obtain h | ⟨v', t', hv', hsame, h⟩ := answer_built past v t
      · exact h
      · have hrun : .request v' t' ∈ run := hpast.subset (List.mem_cons_of_mem _ hv')
        cases hone _ _ hrun
        obtain ⟨hname, hcategory, hschema, hfields⟩ := EventType.mk.inj hsame
        have hsnapshot := hzeros t' t hrun (hpast.subset List.mem_cons_self) hschema
        obtain rfl : t' = t := by
          cases t
          cases t'
          simp_all
        exact h
    refine ⟨hanswer, fun b hb => ?_⟩
    rw [hb] at hanswer
    exact (forType_ok.mp hanswer.symm).1

def orderChecks : Validation :=
  ⟨⟨[("schema-conformance", .schemaConformance .draft7)]⟩,
    ⟨.draft7, ⟨[], ["schema-conformance"], []⟩⟩⟩

def looseOrder : EventType := ⟨"order", .undefined, .obj [("minimum", Json.ofNat 0)], []⟩

/-- The zero is a float here, and so the snapshot is another one. -/
def strictOrder : EventType :=
  ⟨"order", .undefined, .obj [("minimum", .num (.float (.zero false)))], []⟩

def listedOrder : EventType := ⟨"order", .business, .arr [], []⟩

def orderRun : List Operation :=
  [.request orderChecks looseOrder, .invalidate "order", .request orderChecks listedOrder,
    .request orderChecks strictOrder, .request orderChecks looseOrder]

theorem orderRun_requests {v : Validation} {t : EventType} (h : .request v t ∈ orderRun) :
    v = orderChecks ∧ t ∈ [looseOrder, listedOrder, strictOrder] := by
  simp only [orderRun, List.mem_cons, Operation.request.injEq, reduceCtorEq, List.not_mem_nil,
    or_false, false_or] at h
  obtain ⟨rfl, rfl⟩ | ⟨rfl, rfl⟩ | ⟨rfl, rfl⟩ | ⟨rfl, rfl⟩ := h <;> exact ⟨rfl, by simp⟩

theorem orderRun_zeros : ∀ t ∈ [looseOrder, listedOrder, strictOrder],
    ∀ t' ∈ [looseOrder, listedOrder, strictOrder],
      t.schema.unsigned = t'.schema.unsigned → t.schema = t'.schema := by
  decide

theorem looseOrder_transparent :
    (∀ v t, .request v t ∈ orderRun → v = orderChecks) ∧
    (∀ t t', .request orderChecks t ∈ orderRun → .request orderChecks t' ∈ orderRun →
      t.schema.unsigned = t'.schema.unsigned → t.schema = t'.schema) ∧
    (answer orderRun.tail orderChecks looseOrder).map BuiltValidator.validator =
      .ok ⟨"order", []⟩ ∧
    answer (orderRun.drop 3) orderChecks listedOrder =
      .error (.schema (.enrichment (.notAnObject "order"))) := by
  have hone : ∀ v t, .request v t ∈ orderRun → v = orderChecks := fun _ _ h =>
    (orderRun_requests h).1
  have hzeros : ∀ t t', .request orderChecks t ∈ orderRun → .request orderChecks t' ∈ orderRun →
      t.schema.unsigned = t'.schema.unsigned → t.schema = t'.schema := fun t t' h h' =>
    orderRun_zeros t (orderRun_requests h).2 t' (orderRun_requests h').2
  obtain ⟨-, hanswers⟩ := cache_transparent orderChecks orderRun hone hzeros
  exact ⟨hone, hzeros, (hanswers _ _ List.suffix_rfl).1, rfl⟩

end ValidatorCache

end EventAdmission
