/-!
Finite maps from names, kept as lists sorted by name.
-/

namespace QueryTemplate

/-- A map from names, sorted by name and without a name twice. -/
abbrev NameMap (α : Type) := List (String × α)

namespace NameMap

variable {α : Type}

def find? (name : String) : NameMap α → Option α
  | [] => none
  | (n, a) :: rest => if n = name then some a else find? name rest

theorem find?_map {β : Type} (f : String → α → β) (name : String) (m : NameMap α) :
    find? name (m.map fun (n, a) => (n, f n a)) = (find? name m).map (f name) := by
  induction m with
  | nil => rfl
  | cons entry rest ih =>
      obtain ⟨n, a⟩ := entry
      rw [List.map_cons, find?, find?]
      by_cases h : n = name
      · rw [if_pos h, if_pos h, h]
        rfl
      · rw [if_neg h, if_neg h, ih]

theorem mem_of_find? {name : String} {m : NameMap α} {a : α} (h : find? name m = some a) :
    (name, a) ∈ m := by
  induction m with
  | nil => cases h
  | cons entry rest ih =>
      rw [find?] at h
      split at h
      · rename_i hname
        cases h
        subst hname
        exact List.mem_cons_self
      · exact List.mem_cons_of_mem _ (ih h)

/-- Maps `name` to `a`, in place of what it was mapped to before. -/
def insert (name : String) (a : α) : NameMap α → NameMap α
  | [] => [(name, a)]
  | (n, b) :: rest =>
    if n = name then (name, a) :: rest
    else if name < n then (name, a) :: (n, b) :: rest
    else (n, b) :: insert name a rest

def erase (name : String) : NameMap α → NameMap α
  | [] => []
  | (n, b) :: rest => if n = name then rest else (n, b) :: erase name rest

/-- The names come in order, so none comes twice. -/
def Sorted (m : NameMap α) : Prop :=
  m.Pairwise fun entry entry' => entry.1 < entry'.1

@[simp] theorem find?_insert_self (name : String) (a : α) (m : NameMap α) :
    find? name (insert name a m) = some a := by
  induction m with
  | nil => exact if_pos rfl
  | cons entry rest ih =>
      obtain ⟨n, b⟩ := entry
      rw [insert]
      split
      · exact if_pos rfl
      · rename_i hne
        split
        · exact if_pos rfl
        · rw [find?, if_neg hne, ih]

theorem find?_insert_of_ne {name other : String} (h : other ≠ name) (a : α) (m : NameMap α) :
    find? other (insert name a m) = find? other m := by
  induction m with
  | nil => exact if_neg h.symm
  | cons entry rest ih =>
      obtain ⟨n, b⟩ := entry
      rw [insert]
      split
      · rename_i hname
        subst hname
        rw [find?, if_neg h.symm, find?, if_neg h.symm]
      · split
        · rw [find?, if_neg h.symm]
        · rw [find?, ih, ← find?]

theorem find?_erase_of_ne {name other : String} (h : other ≠ name) (m : NameMap α) :
    find? other (erase name m) = find? other m := by
  induction m with
  | nil => rfl
  | cons entry rest ih =>
      obtain ⟨n, b⟩ := entry
      rw [erase]
      split
      · rename_i hname
        subst hname
        rw [find?, if_neg h.symm]
      · rw [find?, ih, ← find?]

theorem find?_eq_none_of_forall {name : String} {m : NameMap α} (h : ∀ entry ∈ m, entry.1 ≠ name) :
    find? name m = none := by
  induction m with
  | nil => rfl
  | cons entry rest ih =>
      rw [find?, if_neg (h entry List.mem_cons_self)]
      exact ih fun entry hentry => h entry (List.mem_cons_of_mem _ hentry)

/-- `erase` takes out one entry, which is the only one of its name if the names come in order. -/
theorem find?_erase_self (name : String) {m : NameMap α} (h : m.Sorted) :
    find? name (erase name m) = none := by
  induction m with
  | nil => rfl
  | cons entry rest ih =>
      obtain ⟨n, b⟩ := entry
      obtain ⟨hlt, hrest⟩ := List.pairwise_cons.mp h
      rw [erase]
      split
      · rename_i hname
        subst hname
        refine find?_eq_none_of_forall fun entry hentry heq => ?_
        exact String.lt_irrefl n (heq ▸ hlt entry hentry)
      · rename_i hne
        rw [find?, if_neg hne, ih hrest]

theorem mem_insert {name : String} {a : α} {m : NameMap α} {entry : String × α}
    (h : entry ∈ insert name a m) : entry = (name, a) ∨ entry ∈ m := by
  induction m with
  | nil => exact .inl (List.mem_singleton.mp h)
  | cons first rest ih =>
      obtain ⟨n, b⟩ := first
      rw [insert] at h
      split at h
      · exact (List.mem_cons.mp h).imp_right (List.mem_cons_of_mem _)
      · split at h
        · exact List.mem_cons.mp h
        · rcases List.mem_cons.mp h with rfl | h
          · exact .inr List.mem_cons_self
          · exact (ih h).imp_right (List.mem_cons_of_mem _)

theorem erase_sublist (name : String) (m : NameMap α) : (erase name m).Sublist m := by
  induction m with
  | nil => exact List.Sublist.refl _
  | cons entry rest ih =>
      obtain ⟨n, b⟩ := entry
      rw [erase]
      split
      · exact List.sublist_cons_self _ _
      · exact ih.cons_cons _

theorem Sorted.erase {m : NameMap α} (h : m.Sorted) (name : String) : (m.erase name).Sorted :=
  List.Pairwise.sublist (erase_sublist name m) h

theorem Sorted.insert {m : NameMap α} (h : m.Sorted) (name : String) (a : α) :
    (m.insert name a).Sorted := by
  induction m with
  | nil => exact List.pairwise_singleton _ _
  | cons entry rest ih =>
      obtain ⟨n, b⟩ := entry
      obtain ⟨hlt, hrest⟩ := List.pairwise_cons.mp h
      rw [NameMap.insert]
      split
      · rename_i hname
        subst hname
        exact List.pairwise_cons.mpr ⟨hlt, hrest⟩
      · rename_i hne
        split
        · rename_i hbefore
          refine List.pairwise_cons.mpr ⟨fun entry hentry => ?_, h⟩
          rcases List.mem_cons.mp hentry with rfl | hentry
          · exact hbefore
          · exact String.lt_trans hbefore (hlt entry hentry)
        · rename_i hnot
          refine List.pairwise_cons.mpr ⟨fun entry hentry => ?_, ih hrest⟩
          rcases mem_insert hentry with rfl | hentry
          · have hafter : n < name := by grind
            exact hafter
          · exact hlt entry hentry

def contains (name : String) (m : NameMap α) : Bool :=
  (find? name m).isSome

def names (m : NameMap α) : List String :=
  m.map (·.1)

theorem mem_names_iff {name : String} {m : NameMap α} :
    name ∈ m.names ↔ (find? name m).isSome = true := by
  induction m with
  | nil => simp [names, find?]
  | cons entry rest ih =>
      rw [names, List.map_cons, List.mem_cons, find?]
      split
      · rename_i hname
        simp [hname]
      · rename_i hne
        rw [← ih, names]
        exact or_iff_right (Ne.symm hne)

/-- The names of a list in order, each once. -/
def sortNames (names : List String) : List String :=
  NameMap.names (names.foldl (fun m n => insert n () m) [])

theorem mem_of_mem_sortNames {name : String} {names : List String} (h : name ∈ sortNames names) :
    name ∈ names := by
  have hfold : ∀ m : NameMap Unit,
      name ∈ NameMap.names (names.foldl (fun m n => insert n () m) m) →
        name ∈ m.names ∨ name ∈ names := by
    clear h
    induction names with
    | nil => exact fun m hm => .inl hm
    | cons n names ih =>
        intro m hm
        rcases ih _ hm with hinsert | hlater
        · obtain ⟨entry, hentry, rfl⟩ := List.mem_map.mp hinsert
          rcases mem_insert hentry with rfl | hentry
          · exact .inr List.mem_cons_self
          · exact .inl (List.mem_map_of_mem hentry)
        · exact .inr (List.mem_cons_of_mem _ hlater)
  exact (hfold [] h).resolve_left List.not_mem_nil

end NameMap

end QueryTemplate
