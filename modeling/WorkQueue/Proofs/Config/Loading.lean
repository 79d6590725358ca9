import WorkQueue.Proofs.Config.Fields

/-!
# Loaded configurations

There are four places that a configuration can come from, and `Selects` says which of them counts:
exactly one of them does, whatever the environment and the files are (`existsUnique_selects`).  What
it gives is `Source.Gives`: a file is there or not, is read or not, its entries can be converted or
not, and what they make up keeps the rules or not, and the variables of the environment likewise.
Every source gives exactly one thing (`existsUnique_gives`), and what the source gives that counts
is what is loaded.  An error there is final, and no other source is tried.

All loaders validate what they return, and none of them makes anything that validation does not look
at but the pool does (`Ordered`).  So every configuration that is loaded is usable; `loads_usable`
puts the two together.

The variable that names a file counts only if it is set to a text.  A deployment whose variable is
set to other octets gets the standard settings (`damaged_name_passed_over`).
-/

namespace WorkQueue
namespace Config

open WorkQueue.Text

variable {config next made : Config} {env : Environment} {files : Files} {processors : Nat}
  {reading : Reading} {source : Source} {text name : String} {result : Except QueueError Config}

/-! ## What the loaders make is in order -/

lemma ordered_standard (processors : Nat) : (standard processors).Ordered where
  queues :=
    have hless : criticalQueue < defaultQueue := by decide
    Table.sorted_cons.mpr
      ⟨List.forall_mem_singleton.mpr hless, Table.sorted_cons.mpr ⟨nofun, Table.sorted_nil⟩⟩
  claims := (by decide : 300 < bound64)

/-- Whether a change of a configuration leaves it in order. -/
def Keeps (change : Config → Config → Prop) : Prop :=
  ∀ config next, change config next → config.Ordered → next.Ordered

lemma keeps_setting {α : Type} {parse : String → Except String α} {store : Config → α → Config}
    (name text : String)
    (h : ∀ value, parse text = .ok value →
      ∀ config, config.Ordered → (store config value).Ordered) :
    Keeps fun config next => (setting name parse store).apply text config = .ok next := by
  intro config next hnext hordered
  simp only [setting] at hnext
  split at hnext
  · next value hvalue =>
    cases hnext
    exact h value hvalue config hordered
  · cases hnext

lemma parseNat_lt {bound value : Nat} (hbound : 0 < bound) (h : parseNat bound text = .ok value) :
    value < bound := by
  unfold parseNat at h
  cases hread : readNat bound text.toList with
  | error error =>
    rw [hread] at h
    cases h
  | ok n =>
    rw [hread] at h
    cases h
    exact readNat_lt hbound hread

/-- No variable brings a configuration out of order. -/
lemma keeps_variable {entry : Variable} (hmem : entry ∈ allVariables) (text : String) :
    Keeps fun config next => entry.apply text config = .ok next := by
  revert entry
  simp only [allVariables, List.forall_mem_cons, List.not_mem_nil, false_imp_iff, implies_true,
    and_true]
  refine ⟨?_, ?_, ?_, ?_, ?_, ?_, ?_, ?claims, ?_, ?_, ?_, ?_, ?_, ?_, ?_, ?queues⟩
  case claims =>
    exact keeps_setting _ _ fun value hvalue config hordered =>
      ⟨hordered.queues, parseNat_lt (by decide) hvalue⟩
  case queues =>
    intro config next hnext hordered
    cases hread : parseQueues text with
    | error problem =>
      rw [hread] at hnext
      cases hnext
    | ok queues =>
      rw [hread] at hnext
      cases hnext
      exact ⟨sorted_readQueueEntries hread Table.sorted_nil, hordered.claims⟩
  all_goals
    exact keeps_setting _ _ fun _ _ _ hordered => ⟨hordered.queues, hordered.claims⟩

/-- The variables that are set bring no configuration out of order. -/
lemma ordered_applyVariables {looked : List Variable}
    (hsubset : ∀ entry ∈ looked, entry ∈ allVariables)
    (h : applyVariables env looked config = .ok next) (hordered : config.Ordered) :
    next.Ordered := by
  induction looked generalizing config with
  | nil =>
    cases h
    exact hordered
  | cons entry rest ih =>
    obtain ⟨hentry, hrest⟩ := List.forall_mem_cons.mp hsubset
    unfold applyVariables at h
    split at h
    · exact ih hrest h hordered
    · next text htext =>
      split at h
      · cases h
      · next middle hmiddle =>
        exact ih hrest h (keeps_variable hentry text config middle hmiddle hordered)

lemma keeps_settingField {α : Type} {convert : Setting → Option α} {store : Config → α → Config}
    (name : String) (value : Setting)
    (h : ∀ a, convert value = some a → ∀ config, config.Ordered → (store config a).Ordered) :
    Keeps fun config next => (settingField name convert store).apply value config = some next := by
  intro config next hnext hordered
  obtain ⟨a, ha, rfl⟩ := Option.map_eq_some_iff.mp hnext
  exact h a ha config hordered

lemma sorted_queuesOfSetting {value : Setting} {queues : Table Nat}
    (h : queuesOfSetting value = some queues) : queues.Sorted := by
  cases value with
  | table entries =>
    obtain ⟨weights, -, hqueues⟩ := Option.bind_eq_some_iff.mp h
    cases hqueues
    exact Table.sorted_ofEntries weights
  | _ => cases h

lemma toNat?_lt {bound n : Nat} {value : Setting} (hbound : 1 < bound)
    (h : value.toNat? bound = some n) : n < bound := by
  cases value with
  | integer m =>
    simp only [Setting.toNat?] at h
    split at h
    · next hrange =>
      cases h
      omega
    · cases h
  | real x =>
    simp only [Setting.toNat?] at h
    split at h
    · next hsmall =>
      cases h
      exact hsmall
    · cases h
  | truth b =>
    cases h
    cases b
    · exact Nat.lt_of_succ_lt hbound
    · exact hbound
  | text s =>
    simp only [Setting.toNat?] at h
    split at h
    · next b _ =>
      cases h
      cases b
      · exact Nat.lt_of_succ_lt hbound
      · exact hbound
    · simpa using (Option.filter_eq_some_iff.mp h).2
  | _ => cases h

/-- No field of settings brings a configuration out of order. -/
lemma keeps_field {field : SettingField} (hmem : field ∈ settingFields) (value : Setting) :
    Keeps fun config next => field.apply value config = some next := by
  revert field
  simp only [settingFields, List.forall_mem_cons, List.not_mem_nil, false_imp_iff, implies_true,
    and_true]
  refine ⟨?_, ?queues, ?_, ?_, ?_, ?_, ?_, ?_, ?claims, ?_, ?_, ?_, ?_, ?_, ?_, ?_⟩
  case queues =>
    exact keeps_settingField _ _ fun queues hqueues config hordered =>
      ⟨sorted_queuesOfSetting hqueues, hordered.claims⟩
  case claims =>
    exact keeps_settingField _ _ fun n hn config hordered =>
      ⟨hordered.queues, toNat?_lt (by decide) hn⟩
  all_goals
    exact keeps_settingField _ _ fun _ _ _ hordered => ⟨hordered.queues, hordered.claims⟩

lemma keeps_applySetting (entry : String × Setting) :
    Keeps fun config next => applySetting config entry = some next := by
  intro config next hnext hordered
  unfold applySetting at hnext
  split at hnext
  · next field hfield =>
    exact keeps_field (List.mem_of_find?_eq_some hfield) entry.2 config next hnext hordered
  · cases hnext
    exact hordered

lemma ordered_foldlM {settings : Table Setting}
    (h : settings.foldlM applySetting config = some next) (hordered : config.Ordered) :
    next.Ordered := by
  induction settings generalizing config with
  | nil =>
    cases h
    exact hordered
  | cons entry rest ih =>
    rw [List.foldlM_cons] at h
    obtain ⟨middle, hmiddle, hrest⟩ := Option.bind_eq_some_iff.mp h
    exact ih hrest (keeps_applySetting entry config middle hmiddle hordered)

/-! ## Which source counts -/

/-- Whether a source is the one that counts: each of them counts only if those before it are not
there. -/
inductive Selects (env : Environment) (files : Files) : Source → Prop
  /-- The file that a variable names. -/
  | named {name : String} (set : valueOf env "CONFIG" = some name) :
      Selects env files (.file name)
  /-- The first file of a default name that exists. -/
  | found {before after : List String} {name : String} (unset : valueOf env "CONFIG" = none)
      (place : defaultFiles = before ++ name :: after) (there : files.has name = true)
      (missing : ∀ other ∈ before, files.has other = false) : Selects env files (.file name)
  /-- The variables of the settings, if any of them is set. -/
  | environment {entry : Variable} (unset : valueOf env "CONFIG" = none)
      (missing : ∀ name ∈ defaultFiles, files.has name = false) (mem : entry ∈ allVariables)
      (set : valueOf env entry.name ≠ none) : Selects env files .environment
  /-- The standard settings. -/
  | defaults (unset : valueOf env "CONFIG" = none)
      (missing : ∀ name ∈ defaultFiles, files.has name = false)
      (empty : ∀ entry ∈ allVariables, valueOf env entry.name = none) :
      Selects env files .defaults

/-- The source that counts. -/
def selected (env : Environment) (files : Files) : Source :=
  match chosenFile env files with
  | some name => .file name
  | none => if isConfigured env then .environment else .defaults

lemma isConfigured_eq_false_iff :
    isConfigured env = false ↔ ∀ entry ∈ allVariables, valueOf env entry.name = none := by
  simp [isConfigured]

lemma selects_selected (env : Environment) (files : Files) :
    Selects env files (selected env files) := by
  unfold selected chosenFile
  cases hnamed : valueOf env "CONFIG" with
  | some name => exact .named hnamed
  | none =>
    cases hfound : defaultFiles.find? files.has with
    | some name =>
      obtain ⟨hthere, before, after, hplace, hmissing⟩ := List.find?_eq_some_iff_append.mp hfound
      exact .found hnamed hplace hthere fun other hother => by simpa using hmissing other hother
    | none =>
      have hmissing : ∀ name ∈ defaultFiles, files.has name = false := fun name hname => by
        simpa using List.find?_eq_none.mp hfound name hname
      cases hset : isConfigured env with
      | false => exact .defaults hnamed hmissing (isConfigured_eq_false_iff.mp hset)
      | true =>
        obtain ⟨entry, hentry, hvalue⟩ := List.any_eq_true.mp hset
        exact .environment hnamed hmissing hentry (Option.isSome_iff_ne_none.mp hvalue)

lemma chosenFile_of_missing (hunset : valueOf env "CONFIG" = none)
    (hmissing : ∀ name ∈ defaultFiles, files.has name = false) : chosenFile env files = none := by
  have hnone : defaultFiles.find? files.has = none :=
    List.find?_eq_none.mpr fun name hname => by simp [hmissing name hname]
  rw [chosenFile, hunset, hnone]

/-- No other source counts. -/
lemma selected_of_selects (h : Selects env files source) : selected env files = source := by
  cases h with
  | named hset => rw [selected, chosenFile, hset]
  | found hunset hplace hthere hmissing =>
    have hfound := List.find?_eq_some_iff_append.mpr
      ⟨hthere, _, _, hplace, fun other hother => by simp [hmissing other hother]⟩
    rw [selected, chosenFile, hunset, hfound]
  | environment hunset hmissing hmem hset =>
    have hconfigured : isConfigured env = true :=
      List.any_eq_true.mpr ⟨_, hmem, Option.isSome_iff_ne_none.mpr hset⟩
    rw [selected, chosenFile_of_missing hunset hmissing, hconfigured]
    rfl
  | defaults hunset hmissing hempty =>
    rw [selected, chosenFile_of_missing hunset hmissing, isConfigured_eq_false_iff.mpr hempty]
    rfl

/-- **Exactly one source counts.** -/
theorem existsUnique_selects (env : Environment) (files : Files) :
    ∃! source, Selects env files source :=
  ⟨selected env files, selects_selected env files, fun _ h => (selected_of_selects h).symm⟩

/-! ## What a source gives -/

/-- Whether a name stands for a file whose text is read as a table of settings, and nothing goes
wrong. -/
def Reads (files : Files) (name : String) (reading : Reading) (settings : Table Setting) : Prop :=
  ∃ text format entries, files.locate? name reading.formats = some (text, some format) ∧
    reading.failure = none ∧
    (format.read text).map (Setting.arranged reading.order) = some (.table entries) ∧
    settings = Setting.assemble entries

/-- What a file gives. -/
inductive FileGives (files : Files) (name : String) (processors : Nat) (reading : Reading) :
    Except QueueError Config → Prop
  /-- There is no file of the name. -/
  | missing (absent : files.locate? name reading.formats = none) :
      FileGives files name processors reading (.error (.config (.missingFile name)))
  /-- The name of the file does not tell its format. -/
  | unknown {text : String} (located : files.locate? name reading.formats = some (text, none)) :
      FileGives files name processors reading (.error (.config (.unreadableFile "unknown format")))
  /-- The file is there, but reading it fails. -/
  | failed {text : String} {format : Files.Format} {detail : String}
      (located : files.locate? name reading.formats = some (text, some format))
      (failure : reading.failure = some detail) :
      FileGives files name processors reading (.error (.config (.unreadableFile detail)))
  /-- The text is no table in its format. -/
  | malformed {text : String} {format : Files.Format}
      (located : files.locate? name reading.formats = some (text, some format))
      (smooth : reading.failure = none)
      (broken : ∀ entries, (format.read text).map (Setting.arranged reading.order) ≠
        some (.table entries)) :
      FileGives files name processors reading
        (.error (.config (.unreadableFile "malformed settings")))
  /-- A setting cannot be converted to the type of its field. -/
  | mismatched {settings : Table Setting} {slot : Slot} {value : Setting}
      (reads : Reads files name reading settings) (mem : slot ∈ slots)
      (set : Table.get? slot.field settings = some value) (fails : slot.convert value = none) :
      FileGives files name processors reading
        (.error (.config (.mismatchedSettings "wrong type of a field")))
  /-- The settings stand for a configuration that breaks a rule. -/
  | invalid {settings : Table Setting} {made : Config} {error : QueueError}
      (reads : Reads files name reading settings)
      (filled : Filled settings (standard processors) made)
      (breaks : made.validate = .error error) :
      FileGives files name processors reading (.error error)
  /-- They stand for one that keeps all rules. -/
  | valid {settings : Table Setting} {made : Config} (reads : Reads files name reading settings)
      (filled : Filled settings (standard processors) made) (keeps : made.validate = .ok ()) :
      FileGives files name processors reading (.ok made)

/-- What a source gives. -/
inductive Source.Gives (env : Environment) (files : Files) (processors : Nat) (reading : Reading) :
    Source → Except QueueError Config → Prop
  | file {name : String} {result : Except QueueError Config}
      (gives : FileGives files name processors reading result) :
      Gives env files processors reading (.file name) result
  /-- A variable does not parse. -/
  | faulty {problem : ConfigProblem} (fault : FaultIn env slots problem) :
      Gives env files processors reading .environment (.error (.config problem))
  /-- The variables stand for a configuration that breaks a rule. -/
  | invalid {made : Config} {error : QueueError}
      (candidate : Candidate env (standard processors) made)
      (breaks : made.validate = .error error) :
      Gives env files processors reading .environment (.error error)
  /-- They stand for one that keeps all rules. -/
  | valid {made : Config} (candidate : Candidate env (standard processors) made)
      (keeps : made.validate = .ok ()) :
      Gives env files processors reading .environment (.ok made)
  | defaults : Gives env files processors reading .defaults (.ok (standard processors))

/-- What is loaded from a source. -/
def Source.outcome (env : Environment) (files : Files) (processors : Nat) (reading : Reading) :
    Source → Except QueueError Config
  | .file name => ofFile files name processors reading
  | .environment => do
    let config ← (applyVariables env allVariables (standard processors)).mapError .config
    config.validate
    return config
  | .defaults => .ok (standard processors)

lemma settings_of_reads {settings : Table Setting} (h : Reads files name reading settings) :
    files.settings name reading = .ok settings := by
  obtain ⟨text, format, entries, hlocated, hsmooth, hread, rfl⟩ := h
  simp only [Files.settings, hlocated, hsmooth, hread]

lemma ofFile_of_reads {settings : Table Setting} (h : Reads files name reading settings) :
    ofFile files name processors reading = (do
      let made ← (ofSettings settings processors).mapError .config
      made.validate
      return made) := by
  rw [ofFile, settings_of_reads h]
  rfl

lemma Reads.sorted {settings : Table Setting} (h : Reads files name reading settings) :
    Table.Sorted settings := by
  obtain ⟨text, format, entries, -, -, -, rfl⟩ := h
  exact Setting.sorted_assemble entries

lemma ofFile_of_filled {settings : Table Setting} (h : Reads files name reading settings)
    (hfilled : Filled settings (standard processors) made) :
    ofFile files name processors reading = made.validate.map fun _ => made := by
  rw [ofFile_of_reads h, ofSettings_of_filled h.sorted hfilled]
  cases hvalid : made.validate <;> simp only [Except.mapError, bind, Except.bind, hvalid] <;> rfl

/-- What a file gives is what is loaded from it. -/
lemma FileGives.eq_ofFile (h : FileGives files name processors reading result) :
    result = ofFile files name processors reading := by
  cases h with
  | missing absent =>
    simp only [ofFile, Files.settings, absent]
    rfl
  | unknown located =>
    simp only [ofFile, Files.settings, located]
    rfl
  | failed located failure =>
    simp only [ofFile, Files.settings, located, failure]
    rfl
  | @malformed text format located smooth broken =>
    have hsettings : files.settings name reading =
        .error (.unreadableFile "malformed settings") := by
      simp only [Files.settings, located, smooth]
    rw [ofFile, hsettings]
    rfl
  | mismatched reads mem set fails =>
    rw [ofFile_of_reads reads, ofSettings_of_unfilled mem set fails]
    rfl
  | invalid reads filled breaks =>
    rw [ofFile_of_filled reads filled, breaks]
    rfl
  | valid reads filled keeps =>
    rw [ofFile_of_filled reads filled, keeps]
    rfl

/-- Every file gives something. -/
lemma exists_fileGives (files : Files) (name : String) (processors : Nat) (reading : Reading) :
    ∃ result, FileGives files name processors reading result := by
  cases hlocated : files.locate? name reading.formats with
  | none => exact ⟨_, .missing hlocated⟩
  | some found =>
    obtain ⟨text, format⟩ := found
    cases format with
    | none => exact ⟨_, .unknown hlocated⟩
    | some format =>
      cases hfailure : reading.failure with
      | some detail => exact ⟨_, .failed hlocated hfailure⟩
      | none =>
        by_cases htable : ∃ entries,
            (format.read text).map (Setting.arranged reading.order) = some (.table entries)
        · obtain ⟨entries, hentries⟩ := htable
          have hreads : Reads files name reading (Setting.assemble entries) :=
            ⟨text, format, entries, hlocated, hfailure, hentries, rfl⟩
          rcases filled_or_unfilled hreads.sorted (standard processors) with
            ⟨made, hfilled⟩ | ⟨slot, hslot, value, hset, hfails⟩
          · cases hvalid : made.validate with
            | ok => exact ⟨_, .valid hreads hfilled hvalid⟩
            | error error => exact ⟨_, .invalid hreads hfilled hvalid⟩
          · exact ⟨_, .mismatched hreads hslot hset hfails⟩
        · exact ⟨_, .malformed hlocated hfailure (not_exists.mp htable)⟩

/-- What a source gives is what is loaded from it. -/
lemma Source.Gives.eq_outcome (h : source.Gives env files processors reading result) :
    result = source.outcome env files processors reading := by
  cases h with
  | file gives => exact gives.eq_ofFile
  | faulty fault =>
    rw [Source.outcome, applyVariables_error implements_slots fault]
    rfl
  | invalid candidate breaks =>
    rw [Source.outcome, candidate.applied]
    simp only [Except.mapError, bind, Except.bind, breaks]
  | valid candidate keeps =>
    rw [Source.outcome, candidate.applied]
    simp only [Except.mapError, bind, Except.bind, keeps]
    rfl
  | defaults => rfl

/-- **Every source gives exactly one thing**: a configuration, or what is wrong with the source. -/
theorem existsUnique_gives (env : Environment) (files : Files) (processors : Nat)
    (reading : Reading) (source : Source) :
    ∃! result, source.Gives env files processors reading result := by
  have hexists : ∃ result, source.Gives env files processors reading result := by
    cases source with
    | file name =>
      obtain ⟨result, hresult⟩ := exists_fileGives files name processors reading
      exact ⟨result, .file hresult⟩
    | environment =>
      rcases parses_or_fault env slots with hparses | ⟨problem, hfault⟩
      · obtain ⟨made, -, hmade⟩ := exists_candidate hparses (standard processors)
        cases hvalid : made.validate with
        | ok => exact ⟨_, .valid hmade hvalid⟩
        | error error => exact ⟨_, .invalid hmade hvalid⟩
      · exact ⟨_, .faulty hfault⟩
    | defaults => exact ⟨_, .defaults⟩
  obtain ⟨result, hresult⟩ := hexists
  exact ⟨result, hresult, fun other hother => hother.eq_outcome.trans hresult.eq_outcome.symm⟩

/-! ## What is loaded -/

/-- Variables that are not set change nothing. -/
lemma applyVariables_of_empty {looked : List Variable}
    (h : ∀ entry ∈ looked, valueOf env entry.name = none) (config : Config) :
    applyVariables env looked config = .ok config := by
  induction looked with
  | nil => rfl
  | cons entry rest ih =>
    obtain ⟨hentry, hrest⟩ := List.forall_mem_cons.mp h
    rw [applyVariables, hentry]
    exact ih hrest

/-- What is loaded is what is loaded from the source that counts, be it a configuration or an
error. -/
lemma load_eq (env : Environment) (files : Files) (processors : Nat) (reading : Reading) :
    load env files processors reading =
      ((selected env files).outcome env files processors reading).map fun config =>
        (config, selected env files) := by
  unfold load selected
  cases chosenFile env files with
  | some name => rfl
  | none =>
    cases hset : isConfigured env with
    | false =>
      have hsame := applyVariables_of_empty (isConfigured_eq_false_iff.mp hset)
        (standard processors)
      simp only [ofEnvironment, hsame, hset]
      rfl
    | true =>
      cases hlooked : applyVariables env allVariables (standard processors) with
      | error problem =>
        simp only [ofEnvironment, Source.outcome, hlooked]
        rfl
      | ok config =>
        cases hvalid : config.validate <;>
          simp only [ofEnvironment, Source.outcome, hlooked, hset, hvalid, if_true,
            Except.mapError] <;>
          simp only [bind, Except.bind, hvalid] <;> rfl

/-- What the source gives that counts is what is loaded. -/
lemma load_of_gives (hselects : Selects env files source)
    (hgives : source.Gives env files processors reading result) :
    load env files processors reading = result.map fun config => (config, source) := by
  obtain rfl := selected_of_selects hselects
  rw [load_eq, hgives.eq_outcome]

lemma valid_standard (h : 0 < processors) : (standard processors).Valid where
  workers := h
  queues := nofun
  weights := (by decide : ∀ entry ∈ [(criticalQueue, 10), (defaultQueue, 5)], 0 < entry.2)
  capacity := (by decide : 0 < 10000)
  taskTime := (by decide : 0 < 60)
  claims := (by decide : 60 < 300)
  polling := (by decide : 0 < 200)
  delays := (by decide : 1000 ≤ 600000)
  deadLetters := (by decide : 0 < 10000)
  jitter := (by decide : (standard 1).jitterInRange = true)

lemma ordered_ofSettings {settings : Table Setting}
    (h : ofSettings settings processors = .ok config) : config.Ordered := by
  unfold ofSettings at h
  split at h
  · next made hmade =>
    cases h
    exact ordered_foldlM hmade (ordered_standard processors)
  · cases h

/-- Whatever a source gives is usable, if it is a configuration. -/
lemma Source.Gives.usable (hprocessors : 0 < processors)
    (h : source.Gives env files processors reading (.ok config)) : config.Usable := by
  cases h with
  | file gives =>
    cases gives with
    | valid reads filled keeps =>
      have hmade := ordered_ofSettings (ofSettings_of_filled reads.sorted filled)
      exact usable_of_valid (validate_ok_iff.mp keeps) hmade
  | valid candidate keeps =>
    have hmade := ordered_applyVariables (fun _ hentry => hentry) candidate.applied
      (ordered_standard processors)
    exact usable_of_valid (validate_ok_iff.mp keeps) hmade
  | defaults => exact usable_of_valid (valid_standard hprocessors) (ordered_standard processors)

/-- What it means that whatever is loaded is usable. -/
structure LoadsUsable (env : Environment) (files : Files) (processors : Nat) (reading : Reading) :
    Prop where
  /-- Exactly one source counts. -/
  source : ∃! source, Selects env files source
  /-- Every source gives exactly one thing. -/
  gives : ∀ source : Source, ∃! result, source.Gives env files processors reading result
  /-- A configuration is loaded from a source just if that is the source that counts, and it gives
  the configuration. -/
  loaded : ∀ config source, load env files processors reading = .ok (config, source) ↔
    Selects env files source ∧ source.Gives env files processors reading (.ok config)
  /-- Loading fails just if the source that counts gives the error. -/
  failed : ∀ error, load env files processors reading = .error error ↔
    ∃ source, Selects env files source ∧ source.Gives env files processors reading (.error error)
  /-- A configuration that is loaded is usable. -/
  usable : ∀ config source, load env files processors reading = .ok (config, source) →
    config.Usable

/-- **Every configuration that is loaded is usable.**  Whatever the environment and the files are,
whatever formats are tried and whatever goes wrong in reading, one source counts, and what it holds
is read, validated and returned, or refused for good.  What is returned is accepted by a pool over
its broker, and all its queues are served. -/
theorem loads_usable (env : Environment) (files : Files) (hprocessors : 0 < processors)
    (reading : Reading) : LoadsUsable env files processors reading := by
  obtain ⟨source, hselects, honly⟩ := existsUnique_selects env files
  obtain ⟨result, hresult, -⟩ := existsUnique_gives env files processors reading source
  have hload := load_of_gives hselects hresult
  have hloaded : ∀ config other, load env files processors reading = .ok (config, other) ↔
      Selects env files other ∧ other.Gives env files processors reading (.ok config) := by
    intro config other
    refine ⟨fun hsome => ?_, fun ⟨hother, hconfig⟩ => load_of_gives hother hconfig⟩
    rw [hload] at hsome
    cases result with
    | error error => cases hsome
    | ok made =>
      cases hsome
      exact ⟨hselects, hresult⟩
  refine ⟨⟨source, hselects, honly⟩, existsUnique_gives env files processors reading, hloaded,
    fun error => ⟨fun hsome => ?_, ?_⟩, fun config other hsome =>
      ((hloaded config other).mp hsome).2.usable hprocessors⟩
  · rw [hload] at hsome
    cases result with
    | error problem =>
      cases hsome
      exact ⟨source, hselects, hresult⟩
    | ok made => cases hsome
  · rintro ⟨other, hother, herror⟩
    exact load_of_gives hother herror

/-- A directory with a settings file, and one that breaks a rule. -/
def twoFiles : Files :=
  [("idle.toml", "worker_count = 0"), ("task-relay.toml", "worker_count = 3")]

/-- A machine of four processors where a variable asks for two workers and a default file for three.
The file counts.  If a variable names a file that is not there or that asks for no workers, this is
an error. -/
theorem four_processors_load_usable : 0 < 4 ∧
    LoadsUsable [("TASK_RELAY_WORKER_COUNT", "2")] twoFiles 4 .smooth ∧
    load [("TASK_RELAY_WORKER_COUNT", "2")] twoFiles 4 =
      .ok ({ standard 4 with workerCount := 3 }, .file "task-relay.toml") ∧
    load [("TASK_RELAY_CONFIG", "none")] twoFiles 4 = .error (.config (.missingFile "none")) ∧
    load [("TASK_RELAY_CONFIG", "idle")] twoFiles 4 = .error (.config .noWorkers) :=
  ⟨by decide, loads_usable _ _ (by decide) _, by decide +kernel, by decide +kernel,
    by decide +kernel⟩

/-- An environment in which the name of a file is set to octets of no text. -/
def damagedName : Environment :=
  [("TASK_RELAY_CONFIG", .octets [0x34, 0xFF] broken_four)]

/-- **The variable that names a file is set, and the standard settings are loaded.** -/
theorem damaged_name_passed_over :
    Table.get? (variableStem ++ "CONFIG") damagedName = some (.octets [0x34, 0xFF] broken_four) ∧
      load damagedName [] 4 = .ok (standard 4, .defaults) :=
  ⟨by rfl, by decide +kernel⟩

end Config
end WorkQueue
