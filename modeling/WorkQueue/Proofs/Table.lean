import Mathlib.Data.List.Nodup
import Mathlib.Data.String.Basic
import Mathlib.Tactic.Lemma
import WorkQueue.Table

/-!
# Sorted tables

`Table.put` looks for the place of a name from the left, so a table that was built by `put` and
`erase` alone has its names in rising order (`Sorted.put`, `Sorted.erase`), and no name twice.  For
such a table an entry and a look-up are the same thing (`Sorted.mem_iff`), and putting a value is,
up to order, an entry more in a table without the name (`Sorted.put_perm`).

A table that is made of entries has their names (`mem_names_ofEntries`), and it is the list of the
entries itself if they are sorted (`ofEntries_of_sorted`).

A table of lists is counted by its concatenation: `Sorted.flatMap_put` and `Sorted.flatMap_split`
say what replacing one of the lists does to it.
-/

namespace WorkQueue
namespace Table

variable {α β : Type} {name : String} {value : α} {table : Table α}

/-- The names of a table rise from left to right. -/
def Sorted (table : Table α) : Prop :=
  table.Pairwise fun a b => a.1 < b.1

@[simp] lemma sorted_nil : Sorted ([] : Table α) := List.Pairwise.nil

lemma sorted_cons {entry : String × α} {rest : Table α} :
    Sorted (entry :: rest) ↔ (∀ other ∈ rest, entry.1 < other.1) ∧ Sorted rest :=
  List.pairwise_cons

/-! ## Names -/

lemma mem_put {entry : String × α} (h : entry ∈ put name value table) :
    entry = (name, value) ∨ entry ∈ table := by
  induction table with
  | nil => simpa [put] using h
  | cons first rest ih =>
    obtain ⟨other, old⟩ := first
    simp only [put] at h
    split at h
    · rcases List.mem_cons.mp h with h | h
      · exact .inl h
      · exact .inr (List.mem_cons_of_mem _ h)
    · split at h
      · exact List.mem_cons.mp h
      · rcases List.mem_cons.mp h with h | h
        · exact .inr (h ▸ List.mem_cons_self)
        · exact (ih h).imp_right (List.mem_cons_of_mem _)

lemma mem_erase {entry : String × α} :
    entry ∈ erase name table ↔ entry ∈ table ∧ entry.1 ≠ name := by
  simp [erase]

lemma get?_eq_none_iff : get? name table = none ↔ ∀ entry ∈ table, entry.1 ≠ name := by
  induction table with
  | nil => simp
  | cons first rest ih =>
    obtain ⟨other, old⟩ := first
    by_cases h : other = name <;> simp [get?, h, ih]

lemma erase_of_get?_eq_none (h : get? name table = none) : erase name table = table := by
  rw [erase, List.filter_eq_self]
  intro entry hentry
  simpa using get?_eq_none_iff.mp h entry hentry

/-! ## Sorted tables stay sorted -/

lemma Sorted.put (sorted : Sorted table) : Sorted (put name value table) := by
  induction table with
  | nil => simp [Table.put, sorted_cons]
  | cons first rest ih =>
    obtain ⟨other, old⟩ := first
    obtain ⟨below, sortedRest⟩ := sorted_cons.mp sorted
    simp only [Table.put]
    split
    · next same =>
      subst same
      exact sorted_cons.mpr ⟨below, sortedRest⟩
    · next differ =>
      split
      · next less =>
        refine sorted_cons.mpr ⟨?_, sorted⟩
        intro entry hentry
        rcases List.mem_cons.mp hentry with rfl | hentry
        · exact less
        · exact lt_trans less (below entry hentry)
      · next notLess =>
        refine sorted_cons.mpr ⟨?_, ih sortedRest⟩
        intro entry hentry
        rcases mem_put hentry with rfl | hentry
        · exact lt_of_le_of_ne (not_lt.mp notLess) differ
        · exact below entry hentry

lemma Sorted.erase (sorted : Sorted table) : Sorted (erase name table) :=
  List.Pairwise.filter _ sorted

lemma sorted_ofEntries (entries : List (String × α)) : Sorted (ofEntries entries) := by
  rw [ofEntries]
  generalize hstart : ([] : Table α) = start
  have hsorted : Sorted start := hstart ▸ sorted_nil
  clear hstart
  induction entries generalizing start with
  | nil => exact hsorted
  | cons entry rest ih => exact ih _ hsorted.put

lemma Sorted.names_nodup (sorted : Sorted table) : (names table).Nodup := by
  rw [names, List.Nodup, List.pairwise_map]
  exact List.Pairwise.imp (fun less => ne_of_lt less) sorted

/-! ## Entries and look-ups -/

lemma mem_of_get? (h : get? name table = some value) : (name, value) ∈ table := by
  induction table with
  | nil => simp at h
  | cons first rest ih =>
    obtain ⟨other, old⟩ := first
    by_cases same : other = name
    · simp only [get?, same, if_true, Option.some.injEq] at h
      simp [same, h]
    · simp only [get?, same, if_false] at h
      exact List.mem_cons_of_mem _ (ih h)

/-- An entry is found under its name if no other has the name. -/
lemma get?_of_nodup (hnodup : (names table).Nodup) (hmem : (name, value) ∈ table) :
    get? name table = some value := by
  induction table with
  | nil => exact absurd hmem List.not_mem_nil
  | cons first rest ih =>
    obtain ⟨other, old⟩ := first
    obtain ⟨hother, hrest⟩ := List.nodup_cons.mp hnodup
    rcases List.mem_cons.mp hmem with hfirst | hmem
    · obtain ⟨rfl, rfl⟩ := Prod.mk.inj hfirst
      exact if_pos rfl
    · have hdiffer : other ≠ name := by
        rintro rfl
        exact hother (List.mem_map.mpr ⟨_, hmem, rfl⟩)
      simpa only [get?, if_neg hdiffer] using ih hrest hmem

lemma Sorted.mem_iff (sorted : Sorted table) :
    (name, value) ∈ table ↔ get? name table = some value :=
  ⟨get?_of_nodup sorted.names_nodup, mem_of_get?⟩

/-- A table is, up to order, the entry of a name and the table without the name. -/
lemma Sorted.perm_erase (sorted : Sorted table) (h : get? name table = some value) :
    table.Perm ((name, value) :: Table.erase name table) := by
  induction table with
  | nil => simp at h
  | cons first rest ih =>
    obtain ⟨other, old⟩ := first
    obtain ⟨below, sortedRest⟩ := sorted_cons.mp sorted
    by_cases same : other = name
    · subst same
      have absent : get? other rest = none :=
        get?_eq_none_iff.mpr fun entry hentry => (ne_of_lt (below entry hentry)).symm
      have drop : Table.erase other ((other, old) :: rest) = rest := by
        simpa [Table.erase] using erase_of_get?_eq_none absent
      simp only [get?, if_true, Option.some.injEq] at h
      rw [drop, h]
    · simp only [get?, same, if_false] at h
      have keep : Table.erase name ((other, old) :: rest) =
          (other, old) :: Table.erase name rest := by
        simp [Table.erase, same]
      rw [keep]
      exact ((ih sortedRest h).cons (other, old)).trans (List.Perm.swap _ _ _)

/-- Putting a value is, up to order, an entry more in the table without the name. -/
lemma Sorted.put_perm (sorted : Sorted table) (name : String) (value : α) :
    (Table.put name value table).Perm ((name, value) :: Table.erase name table) := by
  have found : get? name (Table.put name value table) = some value := by simp [get?_put]
  have same : Table.erase name (Table.put name value table) = Table.erase name table := by
    clear found sorted
    induction table with
    | nil => simp [Table.put, Table.erase]
    | cons first rest ih =>
      obtain ⟨other, old⟩ := first
      simp only [Table.put]
      split
      · next h => simp [Table.erase, h]
      · split <;> simp_all [Table.erase]
  rw [← same]
  exact sorted.put.perm_erase found

/-! ## Tables made of entries -/

/-- A name beyond all others is put at the end. -/
lemma put_of_forall_lt (h : ∀ entry ∈ table, entry.1 < name) :
    put name value table = table ++ [(name, value)] := by
  induction table with
  | nil => rfl
  | cons first rest ih =>
    obtain ⟨other, old⟩ := first
    obtain ⟨hother, hrest⟩ := List.forall_mem_cons.mp h
    rw [put, if_neg (ne_of_lt hother), if_neg (lt_asymm hother), ih hrest]
    rfl

lemma foldl_put_of_sorted {rest : Table α} (sorted : Sorted (table ++ rest)) :
    rest.foldl (fun table entry => put entry.1 entry.2 table) table = table ++ rest := by
  induction rest generalizing table with
  | nil => exact (List.append_nil table).symm
  | cons entry rest ih =>
    obtain ⟨-, -, hbelow⟩ := List.pairwise_append.mp sorted
    have hput : put entry.1 entry.2 table = table ++ [entry] :=
      put_of_forall_lt fun other hother => hbelow other hother entry List.mem_cons_self
    rw [List.append_cons] at sorted ⊢
    rw [List.foldl_cons, hput]
    exact ih sorted

/-- Entries that are sorted are a table already. -/
lemma ofEntries_of_sorted (sorted : Sorted table) : ofEntries table = table :=
  foldl_put_of_sorted sorted

lemma mem_ofEntries {entries : List (String × α)} {entry : String × α}
    (h : entry ∈ ofEntries entries) : entry ∈ entries := by
  suffices hfold : ∀ start : Table α,
      entry ∈ entries.foldl (fun table entry => put entry.1 entry.2 table) start →
        entry ∈ start ∨ entry ∈ entries by
    exact (hfold [] h).resolve_left List.not_mem_nil
  clear h
  induction entries with
  | nil => exact fun start h => .inl h
  | cons first rest ih =>
    intro start h
    rcases ih _ h with hput | hrest
    · rcases mem_put hput with rfl | hstart
      · exact .inr List.mem_cons_self
      · exact .inl hstart
    · exact .inr (List.mem_cons_of_mem _ hrest)

/-- Entries under different names are the entries of the table that is made of them. -/
lemma ofEntries_perm {entries : List (String × α)} (hnodup : (names entries).Nodup) :
    (ofEntries entries).Perm entries := by
  suffices hfold : ∀ start : Table α, Sorted start →
      (∀ entry ∈ entries, get? entry.1 start = none) →
        (entries.foldl (fun table entry => put entry.1 entry.2 table) start).Perm
          (entries ++ start) by
    simpa [ofEntries] using hfold [] sorted_nil fun _ _ => rfl
  induction entries with
  | nil => exact fun start _ _ => List.Perm.refl _
  | cons entry rest ih =>
    intro start hsorted hfree
    obtain ⟨hentry, hrest⟩ := List.nodup_cons.mp hnodup
    have hput : (put entry.1 entry.2 start).Perm (entry :: start) := by
      have herase := erase_of_get?_eq_none (hfree entry List.mem_cons_self)
      simpa only [herase] using hsorted.put_perm entry.1 entry.2
    have hfree' : ∀ other ∈ rest, get? other.1 (put entry.1 entry.2 start) = none := by
      intro other hother
      have hdiffer : entry.1 ≠ other.1 := fun same =>
        hentry (List.mem_map.mpr ⟨other, hother, same.symm⟩)
      rw [get?_put, if_neg hdiffer]
      exact hfree other (List.mem_cons_of_mem _ hother)
    exact ((ih hrest _ hsorted.put hfree').trans (hput.append_left rest)).trans List.perm_middle

/-- The order in which the entries of a table are put makes no difference. -/
lemma ofEntries_of_perm {entries : List (String × α)} (sorted : Sorted table)
    (h : entries.Perm table) : ofEntries entries = table := by
  have hnames : (names entries).Perm (names table) := h.map _
  have hnodup := hnames.nodup_iff.mpr sorted.names_nodup
  have hperm : (ofEntries entries).Perm table := (ofEntries_perm hnodup).trans h
  refine hperm.eq_of_pairwise ?_ (sorted_ofEntries entries) sorted
  intro a b _ _ hab hba
  exact absurd hab (lt_asymm hba)

/-- A value is put into a table before or after all values are changed. -/
lemma map_put (f : α → β) (name : String) (value : α) (table : Table α) :
    (put name value table).map (fun entry => (entry.1, f entry.2)) =
      put name (f value) (table.map fun entry => (entry.1, f entry.2)) := by
  induction table with
  | nil => rfl
  | cons first rest ih =>
    obtain ⟨other, old⟩ := first
    simp only [put, List.map_cons]
    split
    · rfl
    · split
      · rfl
      · rw [List.map_cons, ih]

lemma mem_names_iff : name ∈ names table ↔ get? name table ≠ none := by
  rw [Ne, get?_eq_none_iff]
  simp [names]

/-- The names of a table are those of the entries that it is made of. -/
lemma mem_names_ofEntries {entries : List (String × α)} :
    name ∈ names (ofEntries entries) ↔ ∃ entry ∈ entries, entry.1 = name := by
  suffices h : ∀ start : Table α,
      name ∈ names (entries.foldl (fun table entry => put entry.1 entry.2 table) start) ↔
        name ∈ names start ∨ ∃ entry ∈ entries, entry.1 = name by
    simpa [names, ofEntries] using h []
  induction entries with
  | nil => simp
  | cons entry rest ih =>
    intro start
    have hput : name ∈ names (put entry.1 entry.2 start) ↔ entry.1 = name ∨ name ∈ names start := by
      rw [mem_names_iff, mem_names_iff, get?_put]
      by_cases h : entry.1 = name <;> simp [h]
    rw [List.foldl_cons, ih, hput, List.exists_mem_cons_iff, or_assoc, or_left_comm]

/-! ## Tables of lists -/

section Lists

variable {lists : Table (List β)}

lemma Sorted.flatMap_put (sorted : Sorted lists) (name : String) (items : List β) :
    ((Table.put name items lists).flatMap (·.2)).Perm
      (items ++ (Table.erase name lists).flatMap (·.2)) :=
  (sorted.put_perm name items).flatMap_right _

lemma Sorted.flatMap_split (sorted : Sorted lists) (name : String) :
    (lists.flatMap (·.2)).Perm
      ((get? name lists).getD [] ++ (Table.erase name lists).flatMap (·.2)) := by
  cases found : get? name lists with
  | none => simp [erase_of_get?_eq_none found]
  | some items => exact (sorted.perm_erase found).flatMap_right _

end Lists

end Table
end WorkQueue
