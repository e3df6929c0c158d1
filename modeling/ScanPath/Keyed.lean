/-!
# Tables keyed by name

A table holds at most one value per name and lists its entries by name, in the
order of code points.  Two tables with the same entries are therefore equal,
and what is printed from a table never depends on the order of insertion.
-/

namespace ScanPath

structure Keyed (α : Type) where
  entries : List (String × α)
  sorted : (entries.map Prod.fst).Pairwise (· < ·)

namespace Keyed

variable {α β : Type}

def empty : Keyed α := ⟨[], by simp⟩

instance : Inhabited (Keyed α) := ⟨empty⟩

instance : EmptyCollection (Keyed α) := ⟨empty⟩

def toList (table : Keyed α) : List (String × α) := table.entries

def size (table : Keyed α) : Nat := table.entries.length

def keys (table : Keyed α) : List String := table.entries.map Prod.fst

def get? (table : Keyed α) (key : String) : Option α := table.entries.lookup key

def contains (table : Keyed α) (key : String) : Bool := (table.get? key).isSome

def insertEntry (key : String) (value : α) : List (String × α) → List (String × α)
  | [] => [(key, value)]
  | entry :: rest =>
      if key < entry.1 then (key, value) :: entry :: rest
      else if entry.1 < key then entry :: insertEntry key value rest
      else (key, value) :: rest

private theorem mem_keys_insertEntry {key other : String} {value : α}
    {entries : List (String × α)}
    (h : other ∈ (insertEntry key value entries).map Prod.fst) :
    other = key ∨ other ∈ entries.map Prod.fst := by
  induction entries with
  | nil => simpa [insertEntry] using h
  | cons entry rest ih =>
      unfold insertEntry at h
      split at h
      · simpa using h
      · split at h
        · simp only [List.map_cons, List.mem_cons] at h ⊢
          rcases h with h | h
          · exact .inr (.inl h)
          · rcases ih h with h | h
            · exact .inl h
            · exact .inr (.inr h)
        · simp only [List.map_cons, List.mem_cons] at h ⊢
          rcases h with h | h
          · exact .inl h
          · exact .inr (.inr h)

theorem insertEntry_sorted (key : String) (value : α) {entries : List (String × α)}
    (h : (entries.map Prod.fst).Pairwise (· < ·)) :
    ((insertEntry key value entries).map Prod.fst).Pairwise (· < ·) := by
  induction entries with
  | nil => simp [insertEntry]
  | cons entry rest ih =>
      simp only [List.map_cons, List.pairwise_cons] at h
      obtain ⟨hhead, hrest⟩ := h
      unfold insertEntry
      split
      next hlt =>
        simp only [List.map_cons, List.pairwise_cons, List.mem_cons]
        refine ⟨?_, hhead, hrest⟩
        rintro other (rfl | hother)
        · exact hlt
        · exact String.lt_trans hlt (hhead _ hother)
      next hlt =>
        split
        next hgt =>
          simp only [List.map_cons, List.pairwise_cons]
          refine ⟨fun other hother => ?_, ih hrest⟩
          rcases mem_keys_insertEntry hother with rfl | hmem
          · exact hgt
          · exact hhead _ hmem
        next hgt =>
          have heq : key = entry.1 := String.le_antisymm (String.not_lt.mp hgt) (String.not_lt.mp hlt)
          simp only [List.map_cons, List.pairwise_cons]
          exact ⟨fun other hother => heq ▸ hhead _ hother, hrest⟩

theorem lookup_insertEntry_self (key : String) (value : α) (entries : List (String × α)) :
    (insertEntry key value entries).lookup key = some value := by
  induction entries with
  | nil => simp [insertEntry]
  | cons entry rest ih =>
      obtain ⟨name, held⟩ := entry
      unfold insertEntry
      split
      · simp
      · split
        next hgt =>
          have hne : (key == name) = false :=
            beq_false_of_ne fun heq => String.lt_irrefl _ (heq ▸ hgt)
          simpa [List.lookup_cons, hne] using ih
        · simp

theorem lookup_insertEntry_of_ne {key other : String} (h : other ≠ key) (value : α)
    (entries : List (String × α)) :
    (insertEntry key value entries).lookup other = entries.lookup other := by
  have hne : (other == key) = false := beq_false_of_ne h
  induction entries with
  | nil => simp [insertEntry, List.lookup_cons, hne]
  | cons entry rest ih =>
      obtain ⟨name, held⟩ := entry
      unfold insertEntry
      split
      · simp [List.lookup_cons, hne]
      next hlt =>
        split
        · simp [List.lookup_cons, ih]
        next hgt =>
          have heq : key = name := String.le_antisymm (String.not_lt.mp hgt) (String.not_lt.mp hlt)
          have hne' : (other == name) = false := heq ▸ hne
          simp [List.lookup_cons, hne, hne']

def insert (table : Keyed α) (key : String) (value : α) : Keyed α :=
  ⟨insertEntry key value table.entries, insertEntry_sorted key value table.sorted⟩

/-- Later entries replace earlier ones of the same name. -/
def ofList (entries : List (String × α)) : Keyed α :=
  entries.foldl (fun table entry => table.insert entry.1 entry.2) empty

@[simp] theorem get?_empty (key : String) : (∅ : Keyed α).get? key = none := rfl

@[simp] theorem get?_insert_self (table : Keyed α) (key : String) (value : α) :
    (table.insert key value).get? key = some value :=
  lookup_insertEntry_self key value table.entries

theorem get?_insert_of_ne {key other : String} (h : other ≠ key) (table : Keyed α) (value : α) :
    (table.insert key value).get? other = table.get? other :=
  lookup_insertEntry_of_ne h value table.entries

def map (f : α → β) (table : Keyed α) : Keyed β :=
  ⟨table.entries.map fun entry => (entry.1, f entry.2), by
    simpa [List.map_map, Function.comp_def] using table.sorted⟩

def modify (table : Keyed α) (key : String) (f : α → α) : Keyed α :=
  ⟨table.entries.map fun entry => (entry.1, if entry.1 = key then f entry.2 else entry.2), by
    simpa [List.map_map, Function.comp_def] using table.sorted⟩

theorem ext {first second : Keyed α} (h : first.entries = second.entries) : first = second := by
  cases first
  cases second
  cases h
  rfl

instance [DecidableEq α] : DecidableEq (Keyed α) := fun first second =>
  if h : first.entries = second.entries then .isTrue (ext h)
  else .isFalse fun heq => h (heq ▸ rfl)

theorem lookup_map (f : α → β) (entries : List (String × α)) (key : String) :
    (entries.map fun entry => (entry.1, f entry.2)).lookup key = (entries.lookup key).map f := by
  induction entries with
  | nil => rfl
  | cons entry rest ih =>
      obtain ⟨name, held⟩ := entry
      simp only [List.map_cons, List.lookup_cons, ih]
      cases key == name <;> rfl

@[simp] theorem get?_map (f : α → β) (table : Keyed α) (key : String) :
    (table.map f).get? key = (table.get? key).map f :=
  lookup_map f table.entries key

theorem get?_modify (f : α → α) (table : Keyed α) (key other : String) :
    (table.modify key f).get? other =
      if other = key then (table.get? other).map f else table.get? other := by
  simp only [get?, modify]
  induction table.entries with
  | nil => simp
  | cons entry rest ih =>
      obtain ⟨name, held⟩ := entry
      simp only [List.map_cons, List.lookup_cons, ih]
      by_cases heq : other = name
      · subst heq
        by_cases hkey : other = key <;> simp [hkey]
      · simp [beq_false_of_ne heq]

end Keyed

end ScanPath
