/-! # Tables

A table maps texts to values. Its entries are kept in increasing order of their keys, each
key once, so tables with the same entries are equal. Inserting sets the value of one key and
keeps the values of all others.
-/

namespace StoryScript

structure Table (α : Type) where
  entries : List (String × α)
  increasing : entries.Pairwise fun a b => a.1 < b.1
deriving DecidableEq, Repr

namespace Table

variable {α : Type}

instance : EmptyCollection (Table α) := ⟨⟨[], .nil⟩⟩

instance : Inhabited (Table α) := ⟨∅⟩

def insertEntry (key : String) (value : α) : List (String × α) → List (String × α)
  | [] => [(key, value)]
  | entry :: rest =>
    if key < entry.1 then (key, value) :: entry :: rest
    else if key = entry.1 then (key, value) :: rest
    else entry :: insertEntry key value rest

theorem key_of_mem_insertEntry {key : String} {value : α} {entries : List (String × α)}
    {entry : String × α} (h : entry ∈ insertEntry key value entries) :
    entry = (key, value) ∨ entry ∈ entries := by
  induction entries with
  | nil => simpa [insertEntry] using h
  | cons e rest ih =>
    simp only [insertEntry] at h
    split at h
    · simpa using h
    · split at h
      · rcases List.mem_cons.1 h with h | h
        · exact .inl h
        · exact .inr (List.mem_cons_of_mem _ h)
      · rcases List.mem_cons.1 h with h | h
        · exact .inr (h ▸ List.mem_cons_self)
        · exact (ih h).imp_right (List.mem_cons_of_mem _)

theorem pairwise_insertEntry {key : String} {value : α} {entries : List (String × α)}
    (h : entries.Pairwise fun a b => a.1 < b.1) :
    (insertEntry key value entries).Pairwise fun a b => a.1 < b.1 := by
  induction entries with
  | nil => simp [insertEntry]
  | cons e rest ih =>
    obtain ⟨he, hrest⟩ := List.pairwise_cons.1 h
    simp only [insertEntry]
    split
    · rename_i hlt
      refine List.pairwise_cons.2 ⟨fun b hb => ?_, h⟩
      rcases List.mem_cons.1 hb with rfl | hb
      · exact hlt
      · exact String.lt_trans hlt (he b hb)
    · rename_i hlt
      split
      · rename_i heq
        exact List.pairwise_cons.2 ⟨fun b hb => heq ▸ he b hb, hrest⟩
      · rename_i hne
        refine List.pairwise_cons.2 ⟨fun b hb => ?_, ih hrest⟩
        rcases key_of_mem_insertEntry hb with rfl | hb
        · have hle : e.1 ≤ key := String.not_lt.1 hlt
          exact Decidable.byContradiction fun hn =>
            hne (String.le_antisymm (String.not_lt.1 hn) hle)
        · exact he b hb

def insert (table : Table α) (key : String) (value : α) : Table α :=
  ⟨insertEntry key value table.entries, pairwise_insertEntry table.increasing⟩

def get? (table : Table α) (key : String) : Option α :=
  table.entries.lookup key

theorem lookup_cons_eq (key query : String) (value : α) (entries : List (String × α)) :
    ((key, value) :: entries).lookup query =
      if query = key then some value else entries.lookup query := by
  by_cases h : query = key
  · simp [h]
  · simp [List.lookup_cons, h, beq_false_of_ne h]

theorem lookup_insertEntry (key query : String) (value : α) (entries : List (String × α)) :
    (insertEntry key value entries).lookup query =
      if query = key then some value else entries.lookup query := by
  induction entries with
  | nil => exact lookup_cons_eq key query value []
  | cons e rest ih =>
    simp only [insertEntry]
    split
    · rw [lookup_cons_eq]
    · split
      · rename_i heq
        rw [lookup_cons_eq, lookup_cons_eq, heq]
        split <;> rfl
      · rename_i hne
        rw [lookup_cons_eq, lookup_cons_eq, ih]
        split
        · rename_i hq
          rw [if_neg fun h => hne (h.symm.trans hq)]
        · rfl

@[simp] theorem get?_empty (query : String) : (∅ : Table α).get? query = none := rfl

@[simp] theorem get?_insert (table : Table α) (key query : String) (value : α) :
    (table.insert key value).get? query = if query = key then some value else table.get? query :=
  lookup_insertEntry key query value table.entries

/-- The table of a list of entries; of two with the same key the later one counts. -/
def ofList (entries : List (String × α)) : Table α :=
  entries.foldl (fun table entry => table.insert entry.1 entry.2) ∅

end Table

end StoryScript
