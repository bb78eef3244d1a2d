import EventAdmission.Proofs.ValidatorCache

/-!
# How long a validator is kept

Which validator a request gets is settled by the history of its name alone: the
latest request of the name that was answered with a validator, and whether the
name has been dropped since (`Live`). `found_iff` says that the cache holds
exactly what is live, and `cache_retention` what follows for requests: the same
validator again, or a new one.
-/

namespace EventAdmission

namespace ValidatorCache

variable {v v' : Validation} {t t' : EventType} {b b' : BuiltValidator} {name : String}
  {op : Operation} {past since : List Operation} {e : SetupError}

-- ---------------------------------------------------------------------------
-- Histories
-- ---------------------------------------------------------------------------

/-- The operation does not get a validator for the name: it is no request of it, or one that
fails. -/
def Silent (name : String) (past : List Operation) (op : Operation) : Prop :=
  ∀ v t, op = .request v t → t.name = name → ∃ e, answer past v t = .error e

/-- The latest request of a name that got a validator: what it was for, what it got, and the
operations since. -/
inductive Latest (name : String) :
    List Operation → EventType → BuiltValidator → List Operation → Prop
  | here {past : List Operation} {v : Validation} {t : EventType} {b : BuiltValidator}
      (hname : t.name = name) (h : answer past v t = .ok b) :
      Latest name (.request v t :: past) t b []
  | before {past since : List Operation} {op : Operation} {t : EventType} {b : BuiltValidator}
      (h : Latest name past t b since) (hop : Silent name past op) :
      Latest name (op :: past) t b (op :: since)

def Operation.drops (name : String) : Operation → Prop
  | request .. => False
  | invalidate other => other = name
  | clear => True

def Undisturbed (name : String) (since : List Operation) : Prop := ∀ op ∈ since, ¬op.drops name

/-- What a name stands for after some operations. -/
def Live (name : String) (past : List Operation) (t : EventType) (b : BuiltValidator) : Prop :=
  ∃ since, Latest name past t b since ∧ Undisturbed name since

theorem not_live_nil : ¬Live name [] t b := by
  rintro ⟨_, ⟨⟩, -⟩

theorem silent_failed (h : answer past v t = .error e) : Silent name past (.request v t) := by
  rintro _ _ ⟨⟩ -
  exact ⟨e, h⟩

theorem silent_other (h : t.name ≠ name) : Silent name past (.request v t) := by
  rintro _ _ ⟨⟩ hname
  exact absurd hname h

theorem live_silent (h : Silent name past op) :
    Live name (op :: past) t b ↔ ¬op.drops name ∧ Live name past t b := by
  constructor
  · rintro ⟨_, hname, hundisturbed⟩
    cases hname with
    | here hname hanswer =>
      obtain ⟨e, he⟩ := h _ _ rfl hname
      simp [hanswer] at he
    | before hlatest =>
      obtain ⟨hop, hsince⟩ := List.forall_mem_cons.mp hundisturbed
      exact ⟨hop, _, hlatest, hsince⟩
  · rintro ⟨hop, since, hlatest, hsince⟩
    exact ⟨op :: since, .before hlatest h, List.forall_mem_cons.mpr ⟨hop, hsince⟩⟩

theorem live_answered (h : answer past v t' = .ok b') :
    Live t'.name (.request v t' :: past) t b ↔ t = t' ∧ b = b' := by
  constructor
  · rintro ⟨_, hname, -⟩
    cases hname with
    | here _ hanswer =>
      cases h.symm.trans hanswer
      exact ⟨rfl, rfl⟩
    | before _ hop =>
      obtain ⟨e, he⟩ := hop _ _ rfl rfl
      simp [h] at he
  · rintro ⟨rfl, rfl⟩
    exact ⟨[], .here rfl h, by simp [Undisturbed]⟩

theorem Latest.unique {since' : List Operation} (h : Latest name past t b since)
    (h' : Latest name past t' b' since') : t = t' ∧ b = b' ∧ since = since' := by
  induction h generalizing since' with
  | here hname hanswer =>
    cases h' with
    | here _ hanswer' =>
      cases hanswer.symm.trans hanswer'
      exact ⟨rfl, rfl, rfl⟩
    | before _ hop =>
      obtain ⟨e, he⟩ := hop _ _ rfl hname
      simp [hanswer] at he
  | before _ hop ih =>
    cases h' with
    | here hname hanswer =>
      obtain ⟨e, he⟩ := hop _ _ rfl hname
      simp [hanswer] at he
    | before h' _ =>
      obtain ⟨rfl, rfl, rfl⟩ := ih h'
      exact ⟨rfl, rfl, rfl⟩

-- ---------------------------------------------------------------------------
-- What the cache holds
-- ---------------------------------------------------------------------------

def Found (c : ValidatorCache) (name : String) (snapshot : EventType) (b : BuiltValidator) : Prop :=
  ∃ t, Keyed.find? c.entries name = some ⟨t, b⟩ ∧ t.unsigned = snapshot

variable {c : ValidatorCache} {snapshot : EventType}

theorem found_store {w : EventValidator} (h : t.name = name) :
    Found (c.store t w) name snapshot b ↔ b = ⟨c.builds, w⟩ ∧ t.unsigned = snapshot := by
  subst h
  simp [Found, store, eq_comm]

theorem found_store_of_ne {w : EventValidator} (h : t.name ≠ name) :
    Found (c.store t w) name snapshot b ↔ Found c name snapshot b := by
  simp [Found, store, Keyed.find?_insert_of_ne (Ne.symm h)]

theorem found_of_lookup (h : c.lookup? t = some b') :
    Found c t.name snapshot b ↔ b = b' ∧ t.unsigned = snapshot := by
  obtain ⟨stored, hfind, hsame⟩ := lookup?_eq_some.mp h
  simp [Found, hfind, hsame, eq_comm, and_comm]

theorem found_request_other (h : t.name ≠ name) :
    Found (after (.request v t :: past)) name snapshot b ↔ Found (after past) name snapshot b := by
  cases response (after past) v t with
  | kept _ hr => rw [(request_result hr).2]
  | failed _ _ hr => rw [(request_result hr).2]
  | built _ _ hr => rw [(request_result hr).2, found_store_of_ne h]

theorem found_iff : Found (after past) name snapshot b ↔
    ∃ t, Live name past t b ∧ t.unsigned = snapshot := by
  induction past generalizing snapshot b with
  | nil => simp [Found, after, empty, not_live_nil]
  | cons op past ih =>
    -- A request of the name replaces what it stands for, unless it fails; whatever else happens is
    -- silent about the name, and drops it or leaves it alone.
    cases op with
    | request v t =>
      by_cases hname : t.name = name
      · subst hname
        cases response (after past) v t with
        | kept h hr =>
          obtain ⟨hanswer, hafter⟩ := request_result hr
          simp [hafter, found_of_lookup h, live_answered hanswer, and_comm]
        | failed _ _ hr =>
          obtain ⟨hanswer, hafter⟩ := request_result hr
          simp [hafter, ih, live_silent (silent_failed hanswer), Operation.drops]
        | built _ _ hr =>
          obtain ⟨hanswer, hafter⟩ := request_result hr
          simp [hafter, found_store, live_answered hanswer, and_comm]
      · simp [found_request_other hname, ih, live_silent (silent_other hname), Operation.drops]
    | invalidate other =>
      have hsilent : Silent name past (.invalidate other) := nofun
      by_cases hname : name = other
      · subst hname
        simp [Found, after, perform_invalidate, Keyed.find?_erase, live_silent hsilent,
          Operation.drops]
      · simp only [live_silent hsilent, Operation.drops, Ne.symm hname, not_false_iff, true_and,
          ← ih]
        simp [Found, after, perform_invalidate, Keyed.find?_erase, hname]
    | clear =>
      have hsilent : Silent name past .clear := nofun
      simp [Found, after, perform_clear, live_silent hsilent, Operation.drops]

theorem mem_keys_after : name ∈ Keyed.keys (after past).entries ↔ ∃ t b, Live name past t b := by
  rw [Keyed.mem_keys]
  constructor
  · rintro ⟨⟨stored, b⟩, hfind⟩
    obtain ⟨t, hlive, -⟩ := found_iff.mp ⟨stored, hfind, rfl⟩
    exact ⟨t, b, hlive⟩
  · rintro ⟨t, b, hlive⟩
    obtain ⟨stored, hfind, -⟩ := found_iff.mpr ⟨t, hlive, rfl⟩
    exact ⟨_, hfind⟩

theorem lookup?_iff_live : (after past).lookup? t = some b ↔
    ∃ t', Live t.name past t' b ∧ t'.equal t = true := by
  simp only [EventType.equal_iff, ← found_iff]
  exact lookup?_eq_some

-- ---------------------------------------------------------------------------
-- Instances
-- ---------------------------------------------------------------------------

def Issued (past : List Operation) (b : BuiltValidator) : Prop :=
  ∃ v t earlier, .request v t :: earlier <:+ past ∧ answer earlier v t = .ok b

theorem issued_cons : Issued (op :: past) b ↔
    (∃ v t, op = .request v t ∧ answer past v t = .ok b) ∨ Issued past b := by
  constructor
  · rintro ⟨v, t, earlier, hsuffix, hanswer⟩
    obtain heq | hsuffix := List.suffix_cons_iff.mp hsuffix
    · cases heq
      exact .inl ⟨v, t, rfl, hanswer⟩
    · exact .inr ⟨v, t, earlier, hsuffix, hanswer⟩
  · rintro (⟨v, t, rfl, hanswer⟩ | ⟨v, t, earlier, hsuffix, hanswer⟩)
    · exact ⟨v, t, past, List.suffix_rfl, hanswer⟩
    · exact ⟨v, t, earlier, List.suffix_cons_iff.mpr (.inr hsuffix), hanswer⟩

theorem Latest.issued (h : Latest name past t b since) : Issued past b := by
  induction h with
  | here _ hanswer => exact issued_cons.mpr (.inl ⟨_, _, rfl, hanswer⟩)
  | before _ _ ih => exact issued_cons.mpr (.inr ih)

theorem builds_mono : (after past).builds ≤ (after (op :: past)).builds := by
  cases op with
  | request v t =>
    cases response (after past) v t with
    | kept _ hr => simp [(request_result hr).2]
    | failed _ _ hr => simp [(request_result hr).2]
    | built _ _ hr => simp [(request_result hr).2, store]
  | invalidate name => simp [after, perform_invalidate]
  | clear => simp [after, perform_clear]

theorem Issued.lt_builds (h : Issued past b) : b.number < (after past).builds := by
  induction past generalizing b with
  | nil =>
    obtain ⟨_, _, _, hsuffix, -⟩ := h
    simp at hsuffix
  | cons op past ih =>
    obtain ⟨v, t, rfl, hanswer⟩ | h := issued_cons.mp h
    · cases response (after past) v t with
      | kept hlookup hr =>
        -- What is in the cache has been given away before.
        obtain ⟨hkept, hafter⟩ := request_result hr
        cases hkept.symm.trans hanswer
        obtain ⟨_, ⟨_, hlatest, -⟩, -⟩ := lookup?_iff_live.mp hlookup
        rw [hafter]
        exact ih hlatest.issued
      | failed _ _ hr => simp [(request_result hr).1] at hanswer
      | built _ _ hr =>
        obtain ⟨hbuilt, hafter⟩ := request_result hr
        cases hbuilt.symm.trans hanswer
        rw [hafter]
        exact Nat.lt_succ_self _
    · exact Nat.lt_of_lt_of_le (ih h) builds_mono

def Fresh (past : List Operation) (v : Validation) (t : EventType) (b : BuiltValidator) : Prop :=
  (v.forType t).result = .ok b.validator ∧ ∀ b', Issued past b' → b'.number ≠ b.number

theorem answer_ok (h : answer past v t = .ok b) :
    (after past).lookup? t = some b ∨ (after past).lookup? t = none ∧ Fresh past v t b := by
  cases response (after past) v t with
  | kept hlookup hr =>
    cases (request_result hr).1.symm.trans h
    exact .inl hlookup
  | failed _ _ hr => simp [(request_result hr).1] at h
  | built hmiss hw hr =>
    cases (request_result hr).1.symm.trans h
    exact .inr ⟨hmiss, hw, fun b' hb' => Nat.ne_of_lt hb'.lt_builds⟩

-- ---------------------------------------------------------------------------
-- Retention
-- ---------------------------------------------------------------------------

/-- What a request that succeeds has got is what the latest one before it got, exactly if that was
for an equal event type and the name has not been dropped since. -/
theorem answer_eq_iff (h : answer past v t = .ok b) (hlatest : Latest t.name past t' b' since) :
    b = b' ↔ t'.equal t = true ∧ Undisturbed t.name since := by
  obtain hkept | ⟨hmiss, -, hfresh⟩ := answer_ok h
  · obtain ⟨told, ⟨since', hlatest', hsince⟩, hequal⟩ := lookup?_iff_live.mp hkept
    obtain ⟨rfl, rfl, rfl⟩ := hlatest.unique hlatest'
    exact iff_of_true rfl ⟨hequal, hsince⟩
  · refine iff_of_false ?_ ?_
    · rintro rfl
      exact hfresh b hlatest.issued rfl
    · rintro ⟨hequal, hsince⟩
      have hkept := lookup?_iff_live.mpr ⟨t', ⟨since, hlatest, hsince⟩, hequal⟩
      simp [hmiss] at hkept

theorem failed_unchanged (h : answer past v t = .error e) :
    after (.request v t :: past) = after past := by
  cases response (after past) v t with
  | kept _ hr => simp [(request_result hr).1] at h
  | failed _ _ hr => exact (request_result hr).2
  | built _ _ hr => simp [(request_result hr).1] at h

theorem answer_of_lookup (h : (after past).lookup? t = some b) (v : Validation) :
    answer past v t = .ok b := by
  simp [answer, getOrBuild, h]

/-- How a cache that has been through some operations keeps validators. -/
structure Retention (past : List Operation) : Prop where
  /-- The latest validator of a name is given away again, exactly as long as its event type stays
  the same and its name has not been dropped. -/
  again : ∀ v t b, answer past v t = .ok b → ∀ t' b' since, Latest t.name past t' b' since →
    (b = b' ↔ t'.equal t = true ∧ Undisturbed t.name since)
  /-- A validator that is not given away again is new. -/
  fresh : ∀ v t b, answer past v t = .ok b →
    (∃ t', Live t.name past t' b ∧ t'.equal t = true) ∨ Fresh past v t b
  /-- A request that fails leaves everything as it was, also for the next request. -/
  failed : ∀ v t e, answer past v t = .error e → after (.request v t :: past) = after past ∧
    ∀ v' told t' b', Live t'.name past told b' → told.equal t' = true →
      answer (.request v t :: past) v' t' = .ok b'
  size : ∃ names : List String, names.Nodup ∧ (∀ name, name ∈ names ↔ ∃ t b, Live name past t b) ∧
    (after past).size = names.length
  invalidate : ∀ name, ((after past).invalidate name).result.1 = true ↔ ∃ t b, Live name past t b

theorem cache_retention (past : List Operation) : Retention past where
  again _ _ _ h _ _ _ := answer_eq_iff h
  fresh v t b h := by
    obtain hkept | ⟨-, hfresh⟩ := answer_ok h
    · exact .inl (lookup?_iff_live.mp hkept)
    · exact .inr hfresh
  failed v t e h := by
    have hsame := failed_unchanged h
    refine ⟨hsame, fun v' told t' b' hlive hequal => answer_of_lookup ?_ v'⟩
    rw [hsame, lookup?_iff_live]
    exact ⟨told, hlive, hequal⟩
  size := ⟨Keyed.keys (after past).entries, Keyed.nodup_keys sorted_after, fun _ => mem_keys_after,
    (List.length_map _).symm⟩
  invalidate name := by
    rw [← mem_keys_after, Keyed.mem_keys, ← Keyed.contains_iff]
    cases h : Keyed.contains (after past).entries name <;> simp [ValidatorCache.invalidate, h]

/-- A changed event type replaces the validator of its name, and the old one is built anew when it
comes back. After that a request that fails does no harm. -/
theorem looseOrder_rebuilt : ∃ first second,
    answer [] orderChecks looseOrder = .ok first ∧
    answer [.request orderChecks strictOrder, .request orderChecks looseOrder] orderChecks
      looseOrder = .ok second ∧
    second.number ≠ first.number ∧
    answer [.request orderChecks listedOrder, .request orderChecks looseOrder,
      .request orderChecks strictOrder, .request orderChecks looseOrder] orderChecks looseOrder =
        .ok second := by
  have hlatest : Latest "order" [.request orderChecks strictOrder, .request orderChecks looseOrder]
      strictOrder _ [] := .here rfl rfl
  have hissued : Issued [.request orderChecks strictOrder, .request orderChecks looseOrder] _ :=
    issued_cons.mpr (.inr (issued_cons.mpr (.inl ⟨_, _, rfl, rfl⟩)))
  refine ⟨_, _, rfl, rfl, ?_, ?_⟩
  · obtain ⟨t', ⟨since, h, -⟩, hequal⟩ | hfresh :=
      (cache_retention [.request orderChecks strictOrder, .request orderChecks looseOrder]).fresh
        orderChecks looseOrder _ rfl
    · obtain ⟨rfl, -, -⟩ := hlatest.unique h
      cases hequal
    · exact (hfresh.2 _ hissued).symm
  · refine ((cache_retention _).failed orderChecks listedOrder _ rfl).2 orderChecks looseOrder
      looseOrder _ ?_ rfl
    exact ⟨[], .here rfl rfl, by simp [Undisturbed]⟩

end ValidatorCache

end EventAdmission
