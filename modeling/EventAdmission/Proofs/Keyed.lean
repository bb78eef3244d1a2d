import EventAdmission.Keyed

/-!
# Laws of keyed values

What looking up, setting, changing and filtering do to each other. Only the last laws
need the keys in order: then an entry of the list is what its key finds.
-/

namespace EventAdmission.Keyed

variable {α : Type} {entries : Keyed α} {k key : String} {v value : α}

@[simp] theorem find?_nil : find? ([] : Keyed α) key = none := rfl

theorem find?_cons :
    find? ((k, v) :: entries) key = if k = key then some v else find? entries key := rfl

theorem find?_eq_list : find? entries key = (List.find? (·.1 == key) entries).map (·.2) := by
  induction entries with
  | nil => rfl
  | cons e entries ih =>
    rw [List.find?_cons, find?_cons, ih]
    by_cases he : e.1 = key
    · simp [he]
    · simp [beq_false_of_ne he, he]

theorem mem_of_find? (h : find? entries key = some value) : (key, value) ∈ entries := by
  induction entries with
  | nil => simp at h
  | cons e rest ih =>
    obtain ⟨k, v⟩ := e
    rw [find?_cons] at h
    split at h
    · rename_i hk
      obtain rfl := Option.some.inj h
      simp [hk]
    · exact List.mem_cons_of_mem _ (ih h)

theorem find?_eq_none : find? entries key = none ↔ ∀ e ∈ entries, e.1 ≠ key := by
  induction entries with
  | nil => simp
  | cons e rest ih =>
    obtain ⟨k, v⟩ := e
    rw [find?_cons]
    split
    · rename_i hk
      simp [hk]
    · rename_i hk
      simp [hk, ih]

theorem find?_eq_some : find? entries key = some value ↔ ∃ before after,
    entries = before ++ (key, value) :: after ∧ ∀ e ∈ before, e.1 ≠ key := by
  induction entries with
  | nil => simp
  | cons e rest ih =>
    obtain ⟨k, v⟩ := e
    rw [find?_cons]
    split
    · rename_i hk
      subst hk
      constructor
      · rintro ⟨⟩
        exact ⟨[], rest, rfl, by simp⟩
      · rintro ⟨_ | ⟨e, before⟩, after, heq, hbefore⟩
        · cases heq
          rfl
        · cases heq
          exact absurd rfl (hbefore (k, v) List.mem_cons_self)
    · rename_i hk
      rw [ih]
      constructor
      · rintro ⟨before, after, rfl, hbefore⟩
        exact ⟨(k, v) :: before, after, rfl, List.forall_mem_cons.mpr ⟨hk, hbefore⟩⟩
      · rintro ⟨_ | ⟨e, before⟩, after, heq, hbefore⟩
        · cases heq
          exact absurd rfl hk
        · cases heq
          exact ⟨before, after, rfl, (List.forall_mem_cons.mp hbefore).2⟩

theorem contains_iff : contains entries key = true ↔ ∃ value, find? entries key = some value := by
  simp [contains, Option.isSome_iff_exists]

theorem find?_append_or (others : Keyed α) :
    find? (entries ++ others) key = (find? entries key).or (find? others key) := by
  induction entries with
  | nil => rfl
  | cons e rest ih =>
    obtain ⟨k, v⟩ := e
    rw [List.cons_append, find?_cons, find?_cons]
    split
    · rfl
    · exact ih

theorem find?_append (others : Keyed α) (h : ∀ e ∈ entries, e.1 ≠ key) :
    find? (entries ++ others) key = find? others key := by
  rw [find?_append_or, find?_eq_none.mpr h, Option.none_or]

-- ---------------------------------------------------------------------------
-- Setting
-- ---------------------------------------------------------------------------

@[simp] theorem find?_insert_self : find? (insert entries key value) key = some value := by
  induction entries with
  | nil => simp [insert, find?_cons]
  | cons e rest ih =>
    obtain ⟨k, v⟩ := e
    rw [insert]
    split
    · simp [find?_cons]
    · rename_i hk
      split
      · simp [find?_cons]
      · simp [find?_cons, Ne.symm hk, ih]

theorem find?_insert_of_ne (h : k ≠ key) : find? (insert entries key value) k = find? entries k := by
  induction entries with
  | nil => simp [insert, find?_cons, Ne.symm h]
  | cons e rest ih =>
    obtain ⟨l, v⟩ := e
    rw [insert]
    split
    · rename_i hk
      simp [find?_cons, ← hk, Ne.symm h]
    · split
      · simp [find?_cons, Ne.symm h]
      · simp [find?_cons, ih]

theorem mem_of_mem_insert {e : String × α} (h : e ∈ insert entries key value) :
    e = (key, value) ∨ e ∈ entries := by
  induction entries with
  | nil => simpa [insert] using h
  | cons f rest ih =>
    obtain ⟨k, v⟩ := f
    rw [insert] at h
    split at h
    · rcases List.mem_cons.mp h with rfl | h
      · exact .inl rfl
      · exact .inr (List.mem_cons_of_mem _ h)
    · split at h
      · exact List.mem_cons.mp h
      · rcases List.mem_cons.mp h with rfl | h
        · exact .inr (by simp)
        · exact (ih h).imp_right (List.mem_cons_of_mem _)

theorem insert_insert {new : α} :
    insert (insert entries key value) key new = insert entries key new := by
  induction entries with
  | nil => simp [insert]
  | cons e rest ih =>
    obtain ⟨k, v⟩ := e
    by_cases hk : key = k
    · simp [insert, hk]
    · by_cases hlt : key < k <;> simp [insert, hk, hlt, ih]

theorem insert_comm_of_lt (h : k < key) :
    insert (insert entries key value) k v = insert (insert entries k v) key value := by
  have hne : k ≠ key := fun heq => String.lt_irrefl key (heq ▸ h)
  have hnlt : ¬ key < k := fun hlt => String.lt_irrefl k (String.lt_trans h hlt)
  induction entries with
  | nil => simp [insert, h, hne, Ne.symm hne, hnlt]
  | cons e rest ih =>
    obtain ⟨l, w⟩ := e
    by_cases hkl : k = l
    · subst hkl
      simp [insert, Ne.symm hne, hnlt]
    · by_cases hlt : k < l
      · by_cases hkey : key = l
        · subst hkey
          simp [insert, h, hne, Ne.symm hne, hnlt]
        · by_cases hlt' : key < l <;> simp [insert, hkl, hlt, h, hne, Ne.symm hne, hnlt, hkey, hlt']
      · have hlk : l < k := Decidable.byContradiction fun hgt =>
          hkl (String.le_antisymm (String.not_lt.mp hgt) (String.not_lt.mp hlt))
        have hkey : key ≠ l := fun heq => hnlt (heq ▸ hlk)
        have hlt' : ¬ key < l := fun hgt => hnlt (String.lt_trans hgt hlk)
        simp [insert, hkl, hlt, hkey, hlt', ih]

theorem insert_comm (h : k ≠ key) :
    insert (insert entries key value) k v = insert (insert entries k v) key value := by
  by_cases hlt : k < key
  · exact insert_comm_of_lt hlt
  · have hgt : key < k := Decidable.byContradiction fun hgt =>
      h (String.le_antisymm (String.not_lt.mp hgt) (String.not_lt.mp hlt))
    exact (insert_comm_of_lt hgt).symm

theorem length_le_insert : entries.length ≤ (insert entries key value).length := by
  induction entries with
  | nil => simp
  | cons e rest ih =>
    obtain ⟨k, v⟩ := e
    rw [insert]
    split
    · simp
    · split
      · simp
      · simpa using ih

theorem insert_eq_singleton :
    insert entries key value = [(key, value)] ↔ entries = [] ∨ ∃ old, entries = [(key, old)] := by
  constructor
  · intro h
    have hlength : entries.length ≤ (insert entries key value).length := length_le_insert
    rw [h] at hlength
    match entries with
    | [] => exact .inl rfl
    | [(k, old)] =>
      rw [insert] at h
      split at h
      · rename_i hk
        exact .inr ⟨old, by rw [hk]⟩
      · split at h <;> simp [insert] at h
    | _ :: _ :: _ => simp at hlength
  · rintro (rfl | ⟨old, rfl⟩)
    · rfl
    · simp [insert]

theorem insert_append (others : Keyed α) (h : ∀ e ∈ entries, e.1 < key) :
    insert (entries ++ others) key value = entries ++ insert others key value := by
  induction entries with
  | nil => rfl
  | cons e rest ih =>
    obtain ⟨k, v⟩ := e
    obtain ⟨hlt, hrest⟩ := List.forall_mem_cons.mp h
    have hne : key ≠ k := fun e => String.lt_irrefl k (e ▸ hlt)
    have hnlt : ¬ key < k := fun e => String.lt_irrefl _ (String.lt_trans e hlt)
    rw [List.cons_append, insert, if_neg hne, if_neg hnlt, ih hrest]
    rfl

theorem insert_fresh {others : Keyed α} (h : ∀ e ∈ entries, e.1 ≠ key) (hk : key < k) :
    ∃ front back, entries = front ++ back ∧
      insert (entries ++ (k, v) :: others) key value =
        front ++ (key, value) :: (back ++ (k, v) :: others) := by
  induction entries with
  | nil =>
    have hne : key ≠ k := fun e => String.lt_irrefl k (e ▸ hk)
    exact ⟨[], [], rfl, by rw [List.nil_append, insert, if_neg hne, if_pos hk]; rfl⟩
  | cons e rest ih =>
    obtain ⟨l, w⟩ := e
    obtain ⟨hne, hrest⟩ := List.forall_mem_cons.mp h
    rw [List.cons_append, insert, if_neg (Ne.symm hne)]
    split
    · exact ⟨[], (l, w) :: rest, rfl, rfl⟩
    · obtain ⟨front, back, rfl, hi⟩ := ih hrest
      exact ⟨(l, w) :: front, back, rfl, by rw [hi]; rfl⟩

-- ---------------------------------------------------------------------------
-- Changing
-- ---------------------------------------------------------------------------

def modify (entries : Keyed α) (key : String) (change : α → α) : Keyed α :=
  match find? entries key with
  | some value => insert entries key (change value)
  | none => entries

variable {change other : α → α}

theorem modify_of_find? (h : find? entries key = some value) :
    modify entries key change = insert entries key (change value) := by
  simp [modify, h]

@[simp] theorem find?_modify_self :
    find? (modify entries key change) key = (find? entries key).map change := by
  cases h : find? entries key <;> simp [modify, h]

theorem find?_modify_of_ne (h : k ≠ key) :
    find? (modify entries key change) k = find? entries k := by
  cases hf : find? entries key with
  | none => simp [modify, hf]
  | some value => simp [modify, hf, find?_insert_of_ne h]

theorem modify_insert_self :
    modify (insert entries key value) key change = insert entries key (change value) := by
  simp [modify, insert_insert]

theorem modify_insert_of_ne (h : k ≠ key) :
    modify (insert entries k v) key change = insert (modify entries key change) k v := by
  cases hf : find? entries key with
  | none => simp [modify, hf, find?_insert_of_ne (Ne.symm h)]
  | some value => simp [modify, hf, find?_insert_of_ne (Ne.symm h), insert_comm h]

theorem modify_modify :
    modify (modify entries key change) key other = modify entries key (other ∘ change) := by
  cases h : find? entries key with
  | none => simp [modify, h]
  | some value => simp [modify, h, insert_insert]

-- ---------------------------------------------------------------------------
-- Filtering by keys
-- ---------------------------------------------------------------------------

theorem find?_filter (keep : String → Bool) (h : keep key = true) :
    find? (entries.filter fun e => keep e.1) key = find? entries key := by
  induction entries with
  | nil => rfl
  | cons e rest ih =>
    obtain ⟨k, v⟩ := e
    by_cases hk : keep k = true
    · simp [hk, find?_cons, ih]
    · have hne : k ≠ key := fun e => hk (e ▸ h)
      simp [hk, find?_cons, hne, ih]

theorem find?_filter_of_not (keep : String → Bool) (h : keep key = false) :
    find? (entries.filter fun e => keep e.1) key = none := by
  rw [find?_eq_none]
  rintro e he rfl
  simp [h] at he

theorem find?_erase : find? (erase entries k) key = if key = k then none else find? entries key := by
  split
  · exact find?_filter_of_not (fun l => decide (l ≠ k)) (by simpa)
  · exact find?_filter (fun l => decide (l ≠ k)) (by simpa)

theorem erase_of_not_contains (h : contains entries key = false) : erase entries key = entries := by
  have hnone : find? entries key = none := by simpa [contains] using h
  exact List.filter_eq_self.mpr fun e he => by simpa using find?_eq_none.mp hnone e he

theorem mem_keys : key ∈ keys entries ↔ ∃ value, find? entries key = some value := by
  induction entries with
  | nil => simp [keys]
  | cons e rest ih =>
    obtain ⟨k, v⟩ := e
    rw [find?_cons]
    by_cases hk : k = key
    · simp [keys, hk]
    · simpa [keys, hk, Ne.symm hk] using ih

-- ---------------------------------------------------------------------------
-- Keys in order
-- ---------------------------------------------------------------------------

theorem sorted_of_keys {names : List String} (hkeys : keys entries = names)
    (h : names.Pairwise (· < ·)) : Sorted entries := by
  subst hkeys
  exact List.pairwise_map.mp h

theorem find?_eq_none_of_lt (h : ∀ e ∈ entries, key < e.1) : find? entries key = none :=
  find?_eq_none.mpr fun e he heq => absurd (h e he) (heq ▸ String.lt_irrefl _)

theorem insert_split (hs : Sorted entries) (key : String) (value : α) : ∃ front back,
    insert entries key value = front ++ (key, value) :: back ∧ (∀ e ∈ front ++ back, e.1 ≠ key) ∧
      ((∃ old, find? entries key = some old ∧ entries = front ++ (key, old) :: back) ∨
        (find? entries key = none ∧ entries = front ++ back)) := by
  induction entries with
  | nil => exact ⟨[], [], rfl, nofun, .inr ⟨rfl, rfl⟩⟩
  | cons e rest ih =>
    obtain ⟨k, v⟩ := e
    obtain ⟨hlt, hrest⟩ := List.pairwise_cons.mp hs
    rw [insert, find?_cons]
    split
    · rename_i heq
      subst heq
      have hne : ∀ e ∈ rest, e.1 ≠ key := fun e he heq => String.lt_irrefl key (heq ▸ hlt e he)
      exact ⟨[], rest, rfl, hne, .inl ⟨v, if_pos rfl, rfl⟩⟩
    · rename_i hne
      rw [if_neg (Ne.symm hne)]
      split
      · rename_i hkey
        have hnone : find? rest key = none :=
          find?_eq_none_of_lt fun e he => String.lt_trans hkey (hlt e he)
        have hothers : ∀ e ∈ (k, v) :: rest, e.1 ≠ key :=
          List.forall_mem_cons.mpr ⟨Ne.symm hne, find?_eq_none.mp hnone⟩
        exact ⟨[], (k, v) :: rest, rfl, hothers, .inr ⟨hnone, rfl⟩⟩
      · obtain ⟨front, back, hinsert, hothers, hsplit⟩ := ih hrest
        refine ⟨(k, v) :: front, back, by rw [hinsert]; rfl,
          List.forall_mem_cons.mpr ⟨Ne.symm hne, hothers⟩, ?_⟩
        obtain ⟨old, hold, hback⟩ | ⟨hnone, hback⟩ := hsplit
        · exact .inl ⟨old, hold, congrArg _ hback⟩
        · exact .inr ⟨hnone, congrArg _ hback⟩

theorem find?_of_mem (hs : Sorted entries) (h : (key, value) ∈ entries) :
    find? entries key = some value := by
  induction entries with
  | nil => simp at h
  | cons e rest ih =>
    obtain ⟨k, v⟩ := e
    obtain ⟨hlt, hs⟩ := List.pairwise_cons.mp hs
    rw [find?_cons]
    rcases List.mem_cons.mp h with he | h
    · cases he
      simp
    · have hne : k ≠ key := fun e => absurd (hlt _ h) (e ▸ String.lt_irrefl _)
      simp [hne, ih hs h]

theorem nodup_keys (hs : Sorted entries) : (keys entries).Nodup := by
  refine List.pairwise_map.mpr (hs.imp ?_)
  intro a b hlt heq
  exact String.lt_irrefl b.1 (heq ▸ hlt)

theorem sorted_erase (hs : Sorted entries) : Sorted (erase entries key) := hs.filter _

theorem sorted_insert (hs : Sorted entries) : Sorted (insert entries key value) := by
  induction entries with
  | nil => exact List.pairwise_singleton _ _
  | cons e rest ih =>
    obtain ⟨k, v⟩ := e
    obtain ⟨hlt, hrest⟩ := List.pairwise_cons.mp hs
    rw [insert]
    split
    · rename_i heq
      exact List.pairwise_cons.mpr ⟨fun e he => heq ▸ hlt e he, hrest⟩
    · rename_i hne
      split
      · rename_i hkey
        refine List.pairwise_cons.mpr ⟨fun e he => ?_, hs⟩
        rcases List.mem_cons.mp he with rfl | he
        · exact hkey
        · exact String.lt_trans hkey (hlt e he)
      · rename_i hkey
        refine List.pairwise_cons.mpr ⟨fun e he => ?_, ih hrest⟩
        rcases mem_of_mem_insert he with rfl | he
        · exact Decidable.byContradiction fun hlt =>
            hne (String.le_antisymm (String.not_lt.mp hlt) (String.not_lt.mp hkey))
        · exact hlt e he

theorem ext {others : Keyed α} (hs : Sorted entries) (ho : Sorted others)
    (h : ∀ key, find? entries key = find? others key) : entries = others := by
  have hsub : ∀ {left right : Keyed α}, Sorted left → (∀ key, find? left key = find? right key) →
      left ⊆ right := fun hl heq e he => mem_of_find? (heq e.1 ▸ find?_of_mem hl he)
  have hnodup : ∀ {list : Keyed α}, Sorted list → list.Nodup :=
    fun hl => hl.imp fun {a b} hlt (heq : a = b) => String.lt_irrefl b.1 (heq ▸ hlt)
  have hperm : entries.Perm others :=
    (List.perm_ext_iff_of_nodup (hnodup hs) (hnodup ho)).mpr fun _ =>
      ⟨fun he => hsub hs h he, fun he => hsub ho (fun key => (h key).symm) he⟩
  exact hperm.eq_of_pairwise (fun a b _ _ hab hba => absurd (String.lt_trans hab hba)
    (String.lt_irrefl _)) hs ho

theorem insert_of_find? (hs : Sorted entries) (h : find? entries key = some value) :
    insert entries key value = entries := by
  refine ext (sorted_insert hs) hs fun k => ?_
  by_cases hk : k = key
  · rw [hk, find?_insert_self, h]
  · exact find?_insert_of_ne hk

theorem find?_foldl_insert {updates : Keyed α} (hs : Sorted updates) :
    find? (updates.foldl (fun acc e => insert acc e.1 e.2) entries) key =
      (find? updates key).or (find? entries key) := by
  induction updates generalizing entries with
  | nil => rfl
  | cons e rest ih =>
    obtain ⟨k, v⟩ := e
    obtain ⟨hlt, hrest⟩ := List.pairwise_cons.mp hs
    rw [List.foldl_cons, ih hrest, find?_cons]
    split
    · rename_i hk
      subst hk
      rw [find?_eq_none_of_lt hlt, find?_insert_self, Option.none_or, Option.some_or]
    · rename_i hk
      rw [find?_insert_of_ne (Ne.symm hk)]

theorem sorted_foldl_insert {updates : Keyed α} (hs : Sorted entries) :
    Sorted (updates.foldl (fun acc e => insert acc e.1 e.2) entries) := by
  induction updates generalizing entries with
  | nil => exact hs
  | cons e rest ih => exact ih (sorted_insert hs)

theorem forall_mem (hs : Sorted entries) {p : String × α → Prop} :
    (∀ e ∈ entries, p e) ↔ ∀ key value, find? entries key = some value → p (key, value) :=
  ⟨fun h _ _ hf => h _ (mem_of_find? hf), fun h _ he => h _ _ (find?_of_mem hs he)⟩

end EventAdmission.Keyed
