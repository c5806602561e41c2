/-!
# Dictionaries

Keys with values, in the order in which the keys were first inserted. A later value for a key
replaces the earlier one and stands in its place.
-/
namespace ScriptIR

abbrev Dictionary (α : Type) := List (String × α)

namespace Dictionary
variable {α : Type}

/-- The dictionary with `value` for `key`: in the place of `key` if it is there, else at the end. -/
def insert (key : String) (value : α) : Dictionary α → Dictionary α
  | [] => [(key, value)]
  | (k, v) :: rest => if k = key then (k, value) :: rest else (k, v) :: insert key value rest

def get? (d : Dictionary α) (key : String) : Option α :=
  (List.find? (fun e => e.1 == key) d).map Prod.snd

/-- The entries inserted one after the other into an empty dictionary. -/
def ofEntries (entries : List (String × α)) : Dictionary α :=
  entries.foldl (fun d e => insert e.1 e.2 d) []

@[simp] theorem get?_nil (key : String) : get? ([] : Dictionary α) key = none := rfl

/-- Of entries with one key the first counts. -/
theorem get?_cons (k : String) (v : α) (rest : Dictionary α) (key : String) :
    get? ((k, v) :: rest) key = if k = key then some v else get? rest key := by
  by_cases h : k = key <;> simp [get?, h]

/-- An inserted value is found under its key, and every other key keeps its value. -/
theorem get?_insert (key : String) (value : α) (d : Dictionary α) (other : String) :
    (d.insert key value).get? other = if key = other then some value else d.get? other := by
  induction d with
  | nil => simp [insert, get?_cons]
  | cons entry rest ih =>
    obtain ⟨k, v⟩ := entry
    by_cases h : k = key
    · by_cases h' : key = other <;> simp [insert, get?_cons, h, h']
    · by_cases h' : key = other
      · simp_all [insert, get?_cons]
      · simp [insert, get?_cons, h, ih, h']

/-- Keys stand in the order of their first insertion. -/
theorem keys_insert (key : String) (value : α) (d : Dictionary α) :
    List.map Prod.fst (d.insert key value) =
      if key ∈ List.map Prod.fst d then List.map Prod.fst d else List.map Prod.fst d ++ [key] := by
  induction d with
  | nil => simp [insert]
  | cons entry rest ih =>
    by_cases h : entry.1 = key
    · simp [insert, h]
    · have h' : key ≠ entry.1 := fun e => h e.symm
      simp only [insert, h, if_false, List.map_cons, ih, List.mem_cons, h', false_or]
      split <;> simp

theorem mem_of_get? {key : String} {value : α} {d : Dictionary α} (h : d.get? key = some value) :
    (key, value) ∈ d := by
  obtain ⟨entry, found, rfl⟩ := Option.map_eq_some_iff.mp h
  have same : entry.1 = key := by simpa using List.find?_some found
  exact same ▸ List.mem_of_find?_eq_some found

theorem get?_eq_none_iff {key : String} {d : Dictionary α} :
    d.get? key = none ↔ key ∉ List.map Prod.fst d := by
  rw [get?, Option.map_eq_none_iff, List.find?_eq_none]
  simp only [beq_iff_eq, List.mem_map, not_exists, not_and]

theorem mem_insert {key : String} {value : α} {d : Dictionary α} {entry : String × α}
    (h : entry ∈ d.insert key value) : entry = (key, value) ∨ entry ∈ d := by
  induction d with
  | nil => simpa [insert] using h
  | cons first rest ih =>
    by_cases same : first.1 = key
    · simp only [insert, same, if_true, List.mem_cons] at h ⊢
      exact h.imp_right .inr
    · simp only [insert, same, if_false, List.mem_cons] at h ⊢
      rcases h with rfl | hrest
      · exact .inr (.inl rfl)
      · exact (ih hrest).imp_right .inr

/-- A dictionary made of entries holds some of them. -/
theorem mem_of_mem_ofEntries {entries : List (String × α)} {entry : String × α}
    (h : entry ∈ ofEntries entries) : entry ∈ entries := by
  have inserted : ∀ d : Dictionary α, entry ∈ entries.foldl (fun d e => insert e.1 e.2 d) d →
      entry ∈ d ∨ entry ∈ entries := by
    clear h
    induction entries with
    | nil => simp
    | cons first rest ih =>
      intro d hmem
      rcases ih _ hmem with hfirst | hrest
      · rcases mem_insert hfirst with rfl | hd
        · exact .inr List.mem_cons_self
        · exact .inl hd
      · exact .inr (List.mem_cons_of_mem _ hrest)
  exact (inserted [] h).resolve_left List.not_mem_nil

/-- Its keys are all the keys of the entries. -/
theorem mem_keys_ofEntries {entries : List (String × α)} {key : String} :
    key ∈ List.map Prod.fst (ofEntries entries) ↔ key ∈ entries.map Prod.fst := by
  have inserted : ∀ d : Dictionary α,
      key ∈ List.map Prod.fst (entries.foldl (fun d e => insert e.1 e.2 d) d) ↔
        key ∈ List.map Prod.fst d ∨ key ∈ entries.map Prod.fst := by
    induction entries with
    | nil => simp
    | cons first rest ih =>
      intro d
      rw [List.foldl_cons, ih, keys_insert, List.map_cons, List.mem_cons, ← or_assoc]
      split
      next known =>
        have first_known : key = first.1 → key ∈ List.map Prod.fst d := fun h => h ▸ known
        rw [or_iff_left_of_imp first_known]
      next => rw [List.mem_append, List.mem_singleton]
  rw [ofEntries, inserted []]
  simp

theorem insert_of_not_mem {key : String} {value : α} {d : Dictionary α}
    (h : key ∉ List.map Prod.fst d) : d.insert key value = d ++ [(key, value)] := by
  induction d with
  | nil => rfl
  | cons entry rest ih =>
    rw [List.map_cons, List.mem_cons, not_or] at h
    rw [insert, if_neg (Ne.symm h.1), ih h.2, List.cons_append]

/-- Entries with different keys make up a dictionary as they are. -/
theorem ofEntries_of_nodup {entries : List (String × α)} (h : (entries.map Prod.fst).Nodup) :
    ofEntries entries = entries := by
  have inserted : ∀ d : Dictionary α, (List.map Prod.fst (d ++ entries)).Nodup →
      entries.foldl (fun d e => insert e.1 e.2 d) d = d ++ entries := by
    clear h
    induction entries with
    | nil => simp
    | cons first rest ih =>
      intro d nodup
      have fresh : first.1 ∉ List.map Prod.fst d := by
        rw [List.map_append, List.map_cons, List.nodup_append] at nodup
        exact fun known => nodup.2.2 _ known _ List.mem_cons_self rfl
      have split : d ++ first :: rest = d ++ [first] ++ rest := by simp
      rw [List.foldl_cons, insert_of_not_mem fresh, split]
      exact ih _ (split ▸ nodup)
  exact inserted [] h

end Dictionary

end ScriptIR
