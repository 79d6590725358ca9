import Mathlib.Data.List.TakeWhile
import WorkQueue.Proofs.Table
import WorkQueue.Proofs.Text.Lowercase
import WorkQueue.Settings.Json
import WorkQueue.Settings.Merge

/-!
# Assembled settings

Assembling puts the entries of a settings file into place one after the other.  If their names are
plain, in lower case and different, the order in which this is done makes no difference:
`assemble_plain` says that the entries in the order of their names are the table, but for the names
within them.  Within a table of plain values the names are put in lower case (`merged_encoded`), and
of values whose names become the same the one counts that is gone through last.

A natural number of a JSON file is such a plain value.  It is an integer up to 63 bits and a real
number beyond (`ofJson_natural`), and reading it as a number of a field undoes the former only.
-/

namespace WorkQueue.Setting

open WorkQueue.Text

variable {name : String} {value : Setting} {target listed : Table Setting}
  {entries : List (String × Setting)} {order : SettingOrder} {n : Nat}

/-! ## Values of a JSON file -/

lemma ofJson_natural (n : Nat) : ofJson (.natural n) =
    if n < 9223372036854775808 then .integer n else .real (Binary64.ofInt n) := by
  have hcast : (n : Int) < 9223372036854775808 ↔ n < 9223372036854775808 := by omega
  simp only [Json.natural, ofJson, hcast]

lemma merged_natural (n : Nat) (old : Option Setting) :
    merged (ofJson (.natural n)) old = ofJson (.natural n) := by
  rw [ofJson_natural]
  split <;> simp [merged]

lemma toNat?_integer {bound : Nat} (h : n < bound) :
    (integer n).toNat? bound = some n := by
  have hrange : (0 : Int) ≤ n ∧ (n : Int) < bound := by omega
  simp only [toNat?, if_pos hrange, Int.toNat_natCast]

lemma toNatBelow_lt (x : Binary64) {bound : Nat} (h : 0 < bound) : x.toNatBelow bound < bound := by
  unfold Binary64.toNatBelow
  split
  · exact h
  · split
    · exact Nat.sub_one_lt_of_lt h
    · exact Nat.lt_of_le_of_lt (Nat.min_le_right _ _) (Nat.sub_one_lt_of_lt h)

lemma toNat?_real (x : Binary64) :
    (real x).toNat? bound64 = some (x.toNatBelow bound64) :=
  if_pos (toNatBelow_lt x (by decide))

lemma ofJsonFields_eq (fields : List (String × Json)) :
    ofJsonFields fields = fields.map fun field => (field.1, ofJson field.2) := by
  induction fields with
  | nil => rfl
  | cons field rest ih => rw [ofJsonFields, ih]; rfl

/-! ## Orders -/

lemma arrangedEntries_eq (order : SettingOrder) (entries : List (String × Setting)) :
    arrangedEntries order entries = entries.map fun entry => (entry.1, arranged order entry.2) := by
  induction entries with
  | nil => rfl
  | cons entry rest ih => rw [arrangedEntries, ih]; rfl

lemma arranged_natural (order : SettingOrder) (n : Nat) :
    arranged order (ofJson (.natural n)) = ofJson (.natural n) := by
  rw [ofJson_natural]
  split <;> rfl

/-- A list that is arranged after a change of its items could have been arranged before it. -/
lemma exists_perm_map {α β : Type} {f : α → β} {items : List α} {changed : List β}
    (h : changed.Perm (items.map f)) :
    ∃ before : List α, before.Perm items ∧ before.map f = changed := by
  induction items generalizing changed with
  | nil => exact ⟨[], .refl _, (List.Perm.eq_nil h).symm⟩
  | cons item items ih =>
    obtain ⟨left, right, rfl⟩ := List.append_of_mem (h.mem_iff.mpr List.mem_cons_self)
    have hrest : (left ++ right).Perm (items.map f) :=
      (List.perm_middle.symm.trans h).cons_inv
    obtain ⟨before, hbefore, hmap⟩ := ih hrest
    obtain ⟨first, second, rfl, rfl, rfl⟩ := List.map_eq_append_iff.mp hmap
    refine ⟨first ++ item :: second, List.perm_middle.trans (hbefore.cons item), ?_⟩
    rw [List.map_append, List.map_cons]

/-! ## Top-level names -/

/-- Whether a name of a setting stands for itself, in lower case. -/
def PlainName (name : String) : Prop :=
  (pathOf (lower name)).names = [name] ∧ (pathOf (lower name)).intoList = false

/-- Whether a name is made of small characters of paths only. -/
def isPlain (name : String) : Bool :=
  !name.toList.isEmpty && name.toList.all fun c => isPathChar c && isSmall c

/-- A name of small characters is a path of one name. -/
lemma plainName_of_isPlain (h : isPlain name = true) : PlainName name := by
  simp only [isPlain, Bool.and_eq_true, Bool.not_eq_true', List.isEmpty_eq_false_iff,
    List.all_eq_true] at h
  obtain ⟨hne, hcharacters⟩ := h
  have hlower : lower name = name := lower_eq_self fun c hc => (hcharacters c hc).2
  have hhead : name.toList.takeWhile isPathChar = name.toList :=
    List.takeWhile_eq_self_iff.mpr fun c hc => (hcharacters c hc).1
  have hpath : pathOf name = ⟨[name], false⟩ := by
    simp [pathOf, hhead, hne, pathRest]
  rw [PlainName, hlower, hpath]
  exact ⟨rfl, rfl⟩

lemma place_plain (h : PlainName name) (target : Table Setting) :
    place target (name, value) = Table.put name (merged value (Table.get? name target)) target := by
  obtain ⟨hnames, hlist⟩ := h
  simp only [place, hnames, hlist, Bool.false_eq_true, if_false, placeAt]

/-- Entries of plain names are put into place under their names, if none of them is there yet. -/
lemma foldl_place (hplain : ∀ entry ∈ entries, PlainName entry.1)
    (hnodup : (Table.names entries).Nodup)
    (hfree : ∀ entry ∈ entries, Table.get? entry.1 target = none) :
    entries.foldl place target =
      (entries.map fun entry => (entry.1, merged entry.2 none)).foldl
        (fun made entry => Table.put entry.1 entry.2 made) target := by
  induction entries generalizing target with
  | nil => rfl
  | cons entry rest ih =>
    obtain ⟨hentry, hrest⟩ := List.forall_mem_cons.mp hplain
    obtain ⟨hother, hnodup⟩ := List.nodup_cons.mp hnodup
    rw [List.foldl_cons, place_plain hentry, hfree entry List.mem_cons_self]
    refine ih hrest hnodup fun other hmem => ?_
    have hdiffer : entry.1 ≠ other.1 := fun hsame =>
      hother (List.mem_map.mpr ⟨other, hmem, hsame.symm⟩)
    rw [Table.get?_put, if_neg hdiffer]
    exact hfree other (List.mem_cons_of_mem _ hmem)

/-- **Settings of different plain names are assembled as they are**, but for the names within them,
whatever the order is in which they are gone through. -/
theorem assemble_plain (hplain : ∀ entry ∈ listed, PlainName entry.1)
    (hsorted : Table.Sorted listed) (hperm : entries.Perm listed) :
    assemble entries = listed.map fun entry => (entry.1, merged entry.2 none) := by
  have hnames : (Table.names entries).Perm (Table.names listed) := hperm.map _
  have hput : entries.foldl place [] = Table.ofEntries _ :=
    foldl_place (fun entry hentry => hplain entry (hperm.mem_iff.mp hentry))
      (hnames.nodup_iff.mpr hsorted.names_nodup) fun _ _ => rfl
  rw [assemble, hput]
  exact Table.ofEntries_of_perm (List.pairwise_map.mpr hsorted) (hperm.map _)

/-! ## Names within tables -/

section Encoded

variable {α : Type} {encode : α → Setting}

lemma mergedEntries_encoded (h : ∀ a old, merged (encode a) old = encode a)
    (values start : List (String × α)) :
    mergedEntries (values.map fun entry => (entry.1, encode entry.2))
        (table (start.map fun entry => (entry.1, encode entry.2))) =
      table ((values.foldl (fun made entry => Table.put (lower entry.1) entry.2 made) start).map
        fun entry => (entry.1, encode entry.2)) := by
  induction values generalizing start with
  | nil => rfl
  | cons entry rest ih =>
    have hput := Table.map_put encode (lower entry.1) entry.2 start
    simp only [List.map_cons, List.foldl_cons, mergedEntries, Setting.entries, h]
    rw [← hput]
    exact ih _

/-- **A table of plain values comes under names in lower case.** -/
theorem merged_encoded (h : ∀ a old, merged (encode a) old = encode a)
    (values : List (String × α)) :
    merged (table (values.map fun entry => (entry.1, encode entry.2))) none =
      table ((Table.ofEntries (values.map fun entry => (lower entry.1, entry.2))).map
        fun entry => (entry.1, encode entry.2)) := by
  rw [Table.ofEntries, List.foldl_map]
  exact mergedEntries_encoded h values []

end Encoded

end WorkQueue.Setting
