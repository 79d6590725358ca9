import WorkQueue.Proofs.Config.Variables
import WorkQueue.Proofs.Settings.Merge

/-!
# What a file sets

A file sets the fields that it has an entry for, and the others keep their standard values
(`Filled`).  An entry that cannot be converted to the type of its field spoils the whole.  Entries
of other names have no influence.

Every field does for its slot what it should and leaves the other slots alone (`Fills`).  From there
an induction over the entries gives the configuration (`foldlM_filled`) or its failure
(`foldlM_unfilled`), as it does for the variables of the environment.  The entries of a file stand
under different names, because assembling them makes a table (`sorted_assemble`).
-/

namespace WorkQueue

/-! ## Assembled settings are tables -/

namespace Setting

variable {target : Table Setting} {entries : List (String × Setting)}

lemma sorted_placeAt (names : List String) (value : Setting) (h : Table.Sorted target) :
    Table.Sorted (placeAt names value target) := by
  unfold placeAt
  split
  · exact h
  · exact h.put
  · exact h.put

lemma sorted_assemble (entries : List (String × Setting)) : Table.Sorted (assemble entries) := by
  suffices hfold : ∀ target, Table.Sorted target → Table.Sorted (entries.foldl place target) from
    hfold [] Table.sorted_nil
  induction entries with
  | nil => exact fun _ h => h
  | cons entry rest ih => exact fun target h => ih _ (sorted_placeAt _ _ h)

end Setting

namespace Config

open WorkQueue.Text

variable {config made other start : Config} {settings : Table Setting} {value : Setting}
  {slot : Slot} {name : String} {processors : Nat}

/-! ## One field -/

/-- Whether a field of a file replaces what a slot shows by what its setting is converted to, and
nothing else. -/
structure Fills (field : SettingField) (slot : Slot) : Prop where
  sets : ∀ {value shown}, slot.convert value = some shown → ∀ config, ∃ next,
    field.apply value config = some next ∧ slot.get next = shown ∧
      ∀ other ∈ slots, other.field ≠ slot.field → other.get next = other.get config
  fails : ∀ {value}, slot.convert value = none → ∀ config, field.apply value config = none

lemma fills_settingField {α : Type} {name field : String} {parse : String → Except ConfigProblem α}
    {convert : Setting → Option α} {store : Config → α → Config} {get : Config → α}
    (hget : ∀ config value, get (store config value) = value)
    (hframes : Frames Slot.field field store) :
    Fills (settingField field convert store) ⟨name, field, α, parse, convert, get⟩ where
  sets {value shown} h config := by
    change convert value = some shown at h
    refine ⟨store config shown, by simp only [settingField, h, Option.map_some], hget config shown,
      ?_⟩
    intro other hother hname
    exact (hframes other hother).resolve_left hname config shown
  fails {value} h config := by
    change convert value = none at h
    simp only [settingField, h, Option.map_none]

/-- **Every field fills its slot.** -/
theorem fills_slots : ∀ slot ∈ slots, ∃ field,
    settingFields.find? (·.name == slot.field) = some field ∧ Fills field slot := by
  simp only [slots, List.forall_mem_cons, List.not_mem_nil, false_imp_iff, implies_true, and_true]
  refine ⟨?_, ?_, ?_, ?_, ?_, ?_, ?_, ?_, ?_, ?_, ?_, ?_, ?_, ?_, ?_, ?_⟩
  all_goals
    exact ⟨_, rfl, fills_settingField (fun _ _ => rfl)
      (by simp [Frames, slots, Slot.plain, Slot.number])⟩

lemma fields_nodup : (slots.map Slot.field).Nodup := by
  decide +kernel

lemma slot_eq_of_field {first second : Slot} (hfirst : first ∈ slots) (hsecond : second ∈ slots)
    (h : first.field = second.field) : first = second :=
  List.inj_on_of_nodup_map fields_nodup hfirst hsecond h

/-- An entry of another name is passed over. -/
lemma applySetting_of_other (hother : ∀ slot ∈ slots, slot.field ≠ name) (config : Config) :
    applySetting config (name, value) = some config := by
  have hfields : ∀ other ∈ settingFields.map (·.name), other ∈ slots.map Slot.field := by
    decide +kernel
  have hnone : settingFields.find? (·.name == name) = none := by
    refine List.find?_eq_none.mpr fun field hfield hname => ?_
    obtain ⟨slot, hslot, hsame⟩ := List.mem_map.mp (hfields _ (List.mem_map_of_mem hfield))
    exact hother slot hslot (hsame.trans (beq_iff_eq.mp hname))
  simp only [applySetting, hnone]

lemma applySetting_of_slot (hslot : slot ∈ slots) : ∃ field, Fills field slot ∧
    ∀ config value, applySetting config (slot.field, value) = field.apply value config := by
  obtain ⟨field, hfind, hfills⟩ := fills_slots slot hslot
  exact ⟨field, hfills, fun config value => by simp only [applySetting, hfind]⟩

/-! ## All fields -/

/-- What a slot of a configuration shows: the setting of its name if there is one, and else what the
slot shows in another configuration. -/
def ShowsSetting (settings : Table Setting) (start config : Config) (slot : Slot) : Prop :=
  match Table.get? slot.field settings with
  | some value => slot.convert value = some (slot.get config)
  | none => slot.get config = slot.get start

/-- Whether a configuration shows the settings that are there, and else what another one shows. -/
def Filled (settings : Table Setting) (start config : Config) : Prop :=
  ∀ slot ∈ slots, ShowsSetting settings start config slot

/-- Whether the setting of a slot, if there is one, can be converted to its type. -/
def Converts (settings : Table Setting) (slot : Slot) : Prop :=
  ∀ value, Table.get? slot.field settings = some value → ∃ shown, slot.convert value = some shown

lemma get?_cons_of_ne {entry : String × Setting} (h : entry.1 ≠ name) :
    Table.get? name (entry :: settings) = Table.get? name settings :=
  if_neg h

lemma get?_cons_self {entry : String × Setting} :
    Table.get? entry.1 (entry :: settings) = some entry.2 :=
  if_pos rfl

/-- Slots that are shown by the entries behind the first one are shown by all. -/
lemma ShowsSetting.cons {entry : String × Setting} (hne : entry.1 ≠ slot.field)
    (hstart : slot.get other = slot.get start) (h : ShowsSetting settings other made slot) :
    ShowsSetting (entry :: settings) start made slot := by
  rw [ShowsSetting, get?_cons_of_ne hne]
  rw [ShowsSetting] at h
  cases hset : Table.get? slot.field settings with
  | some value =>
    rw [hset] at h
    exact h
  | none =>
    rw [hset] at h
    exact h.trans hstart

/-- Settings that can all be converted give the configuration that is filled with them. -/
lemma foldlM_filled (hnodup : (Table.names settings).Nodup)
    (hconverts : ∀ slot ∈ slots, Converts settings slot) (start : Config) :
    ∃ made, settings.foldlM applySetting start = some made ∧ Filled settings start made := by
  induction settings generalizing start with
  | nil => exact ⟨start, rfl, fun _ _ => rfl⟩
  | cons entry rest ih =>
    obtain ⟨hfresh, hnodup⟩ := List.nodup_cons.mp hnodup
    have habsent : Table.get? entry.1 rest = none :=
      Table.get?_eq_none_iff.mpr fun later hlater hsame =>
        hfresh (List.mem_map.mpr ⟨later, hlater, hsame⟩)
    have hrest : ∀ slot ∈ slots, Converts rest slot := by
      intro slot hslot value hvalue
      refine hconverts slot hslot value ?_
      rwa [get?_cons_of_ne]
      rintro hsame
      rw [← hsame, habsent] at hvalue
      cases hvalue
    by_cases hslot : ∃ slot ∈ slots, slot.field = entry.1
    · obtain ⟨slot, hslot, hname⟩ := hslot
      obtain ⟨field, hfills, happly⟩ := applySetting_of_slot hslot
      obtain ⟨shown, hshown⟩ := hconverts slot hslot entry.2 (hname ▸ get?_cons_self)
      obtain ⟨next, hnext, hget, hkept⟩ := hfills.sets hshown start
      obtain ⟨made, hmade, hfilled⟩ := ih hnodup hrest next
      have hfirst : applySetting start entry = some next := by
        have happlied := happly start entry.2
        rw [hname, hnext] at happlied
        exact happlied
      refine ⟨made, by rw [List.foldlM_cons, hfirst]; exact hmade, fun other hother => ?_⟩
      by_cases hsame : other.field = entry.1
      · -- `other` is `slot`, and nothing behind the first entry has its name
        obtain rfl := slot_eq_of_field hother hslot (hsame.trans hname.symm)
        have hlater := hfilled other hother
        rw [ShowsSetting, hname, habsent] at hlater
        rw [ShowsSetting, hname, get?_cons_self]
        show other.convert entry.2 = some (other.get made)
        rw [hlater, hget, hshown]
      · exact (hfilled other hother).cons (Ne.symm hsame)
          (hkept other hother fun h => hsame (h.trans hname))
    · have hother : ∀ slot ∈ slots, slot.field ≠ entry.1 := fun slot hmem hname =>
        hslot ⟨slot, hmem, hname⟩
      obtain ⟨made, hmade, hfilled⟩ := ih hnodup hrest start
      refine ⟨made, ?_, fun slot hmem =>
        (hfilled slot hmem).cons (Ne.symm (hother slot hmem)) rfl⟩
      rw [List.foldlM_cons, applySetting_of_other hother]
      exact hmade

/-- A setting that cannot be converted spoils the whole. -/
lemma foldlM_unfilled (hslot : slot ∈ slots) (hset : Table.get? slot.field settings = some value)
    (hfails : slot.convert value = none) (start : Config) :
    settings.foldlM applySetting start = none := by
  induction settings generalizing start with
  | nil => cases hset
  | cons entry rest ih =>
    rw [List.foldlM_cons]
    by_cases hname : entry.1 = slot.field
    · rw [← hname, get?_cons_self] at hset
      cases hset
      obtain ⟨field, hfills, happly⟩ := applySetting_of_slot hslot
      have hfirst : applySetting start entry = none := by
        have happlied := happly start entry.2
        rw [← hname, hfills.fails hfails start] at happlied
        exact happlied
      rw [hfirst]
      rfl
    · rw [get?_cons_of_ne hname] at hset
      cases applySetting start entry with
      | none => rfl
      | some next => exact ih hset next

lemma Filled.unique (hmade : Filled settings start made) (hother : Filled settings start other) :
    other = made := by
  refine ext_slots fun slot hslot => ?_
  have hshown := hmade slot hslot
  have hsame := hother slot hslot
  rw [ShowsSetting] at hshown hsame
  cases hset : Table.get? slot.field settings with
  | none =>
    rw [hset] at hshown hsame
    exact hsame.trans hshown.symm
  | some value =>
    rw [hset] at hshown hsame
    exact Option.some.inj (hsame.symm.trans hshown)

lemma Filled.converts (h : Filled settings start made) (hslot : slot ∈ slots) :
    Converts settings slot := by
  intro value hvalue
  have hshown := h slot hslot
  rw [ShowsSetting, hvalue] at hshown
  exact ⟨_, hshown⟩

/-- Settings fill a configuration, or one of them cannot be converted. -/
lemma filled_or_unfilled (hsorted : Table.Sorted settings) (start : Config) :
    (∃ made, Filled settings start made) ∨ ∃ slot ∈ slots, ∃ value,
      Table.get? slot.field settings = some value ∧ slot.convert value = none := by
  by_cases hconverts : ∀ slot ∈ slots, Converts settings slot
  · obtain ⟨made, -, hmade⟩ := foldlM_filled hsorted.names_nodup hconverts start
    exact .inl ⟨made, hmade⟩
  · simp only [Converts, not_forall, not_exists] at hconverts
    obtain ⟨slot, hslot, value, hset, hfails⟩ := hconverts
    exact .inr ⟨slot, hslot, value, hset, Option.eq_none_iff_forall_ne_some.mpr hfails⟩

lemma ofSettings_of_filled (hsorted : Table.Sorted settings)
    (h : Filled settings (standard processors) made) :
    ofSettings settings processors = .ok made := by
  obtain ⟨next, hnext, hfilled⟩ := foldlM_filled hsorted.names_nodup
    (fun _ hslot => h.converts hslot) (standard processors)
  rw [ofSettings, hnext, h.unique hfilled]

lemma ofSettings_of_unfilled (hslot : slot ∈ slots)
    (hset : Table.get? slot.field settings = some value) (hfails : slot.convert value = none) :
    ofSettings settings processors = .error (.mismatchedSettings "wrong type of a field") := by
  rw [ofSettings, foldlM_unfilled hslot hset hfails]

end Config
end WorkQueue
