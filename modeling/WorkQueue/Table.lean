/-!
# Tables

A table is a list of values under names, in the order of the names.  It is what the library keeps
queues, claims, handlers and accounts in: looking a name up finds its first entry, putting a value
replaces the entry with its name, and erasing a name leaves no entry of that name.
-/

namespace WorkQueue

/-- Values under names, in the order of the names. -/
abbrev Table (α : Type) := List (String × α)

namespace Table

variable {α : Type}

/-- The value under a name. -/
def get? (name : String) : Table α → Option α
  | [] => none
  | (other, value) :: rest => if other = name then some value else get? name rest

/-- Puts a value under a name, in the place of the one that was there. -/
def put (name : String) (value : α) : Table α → Table α
  | [] => [(name, value)]
  | (other, old) :: rest =>
    if other = name then (name, value) :: rest
    else if name < other then (name, value) :: (other, old) :: rest
    else (other, old) :: put name value rest

/-- A table without a name. -/
def erase (name : String) (table : Table α) : Table α :=
  table.filter fun entry => !decide (entry.1 = name)

/-- Whether a name has a value. -/
def has (name : String) (table : Table α) : Bool :=
  (get? name table).isSome

/-- The names in order. -/
def names (table : Table α) : List String :=
  table.map (·.1)

/-- A table made by putting entries one after the other. -/
def ofEntries (entries : List (String × α)) : Table α :=
  entries.foldl (fun table entry => put entry.1 entry.2 table) []

/-! ## What the operations do to a look-up -/

@[simp]
theorem get?_nil (name : String) : get? name ([] : Table α) = none := rfl

theorem get?_put (name other : String) (value : α) (table : Table α) :
    get? other (put name value table) = if name = other then some value else get? other table := by
  induction table with
  | nil => simp [put, get?]
  | cons entry rest ih =>
    obtain ⟨key, old⟩ := entry
    simp only [put]
    split
    · next h =>
      subst h
      by_cases ho : key = other <;> simp [get?, ho]
    · next h =>
      split
      · simp [get?]
      · simp only [get?, ih]
        by_cases hk : key = other
        · subst hk; simp [Ne.symm h]
        · simp [hk]

theorem get?_erase (name other : String) (table : Table α) :
    get? other (erase name table) = if name = other then none else get? other table := by
  induction table with
  | nil => simp [erase, get?]
  | cons entry rest ih =>
    obtain ⟨key, value⟩ := entry
    simp only [erase, List.filter_cons] at ih ⊢
    by_cases hk : key = name
    · subst hk
      simp only [decide_true, Bool.not_true, Bool.false_eq_true, if_false, ih, get?]
      by_cases ho : key = other <;> simp [ho]
    · simp only [hk, decide_false, Bool.not_false, if_true, get?, ih]
      by_cases ho : key = other
      · subst ho; simp [Ne.symm hk]
      · simp [ho]

end Table

end WorkQueue
