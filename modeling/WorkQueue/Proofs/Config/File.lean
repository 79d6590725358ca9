import WorkQueue.Config.Load
import WorkQueue.Config.Record
import WorkQueue.Proofs.Config.Validity
import WorkQueue.Proofs.Json.Document
import WorkQueue.Proofs.Settings.Merge

/-!
# Configurations in settings files

A configuration that is put into a JSON file with all its fields does not always come back.  Names
are taken in lower case at every level, those of the queues included, and numbers beyond 63 bits
come as real numbers and are rounded.  `inFile` is what a file makes of a configuration, and
`ofFile_document` says that this is what is loaded, if it is valid.  Of queues whose names become
the same one counts, and which one depends on the order in which the queues are gone through.

A configuration is left alone if the names of its queues are in lower case, its numbers have 63 bits
at most, and the number that was written for its jitter is read as the jitter (`inFile_eq_self`).
-/

namespace WorkQueue
namespace Config

open WorkQueue.Text

variable {config next final : Config} {jitter : Binary64} {files : Files} {processors n : Nat}
  {name text : String} {queues listed : Table Nat} {order : SettingOrder}
  {reading : Reading}

/-! ## What a file makes of a configuration -/

/-- What a file makes of a number of 64 bits: beyond 63 bits it is rounded to a real number. -/
def numberInFile (n : Nat) : Nat :=
  if n < 9223372036854775808 then n else (Binary64.ofInt n).toNatBelow bound64

/-- What a file makes of queues that are gone through one after the other: their names are taken in
lower case, and of queues whose names become the same the last one counts. -/
def queuesInFile (queues : Table Nat) : Table Nat :=
  Table.ofEntries (queues.map fun entry => (lower entry.1, entry.2))

/-- What a file makes of a configuration, in which `listed` are the queues in the order in which
they are gone through, and `jitter` is what is read of the jitter. -/
def inFile (config : Config) (listed : Table Nat) (jitter : Binary64) : Config where
  workerCount := numberInFile config.workerCount
  queues := queuesInFile listed
  maxQueueSize := numberInFile config.maxQueueSize
  taskTimeoutSecs := numberInFile config.taskTimeoutSecs
  defaultMaxRetry := config.defaultMaxRetry
  retryBaseDelayMs := numberInFile config.retryBaseDelayMs
  retryMaxDelayMs := numberInFile config.retryMaxDelayMs
  retryJitter := jitter
  visibilityTimeoutSecs := numberInFile config.visibilityTimeoutSecs
  pollIntervalMs := numberInFile config.pollIntervalMs
  shutdownTimeoutSecs := numberInFile config.shutdownTimeoutSecs
  completedHistory := numberInFile config.completedHistory
  deadLetterHistory := numberInFile config.deadLetterHistory
  verifyEmailBaseUrl := config.verifyEmailBaseUrl
  logLevel := config.logLevel
  logJson := config.logJson

/-- What is read of a configuration that was written as JSON, with `jitter` for the jitter. -/
def document (config : Config) (jitter : Binary64) : Json :=
  match toJson { config with retryJitter := jitter } with
  | .object fields => .ofFields fields
  | other => other

/-- The fields of a configuration in the order of their names. -/
def documentFields (config : Config) (jitter : Binary64) : List (String × Json) :=
  [("completed_history", .natural config.completedHistory),
   ("dead_letter_history", .natural config.deadLetterHistory),
   ("default_max_retry", .natural config.defaultMaxRetry),
   ("log_json", .bool config.logJson),
   ("log_level", .text config.logLevel),
   ("max_queue_size", .natural config.maxQueueSize),
   ("poll_interval_ms", .natural config.pollIntervalMs),
   ("queues", .object (config.queues.map fun entry => (entry.1, .natural entry.2))),
   ("retry_base_delay_ms", .natural config.retryBaseDelayMs),
   ("retry_jitter", .real jitter),
   ("retry_max_delay_ms", .natural config.retryMaxDelayMs),
   ("shutdown_timeout_secs", .natural config.shutdownTimeoutSecs),
   ("task_timeout_secs", .natural config.taskTimeoutSecs),
   ("verify_email_base_url", .text config.verifyEmailBaseUrl),
   ("visibility_timeout_secs", .natural config.visibilityTimeoutSecs),
   ("worker_count", .natural config.workerCount)]

lemma document_eq (config : Config) (jitter : Binary64) :
    config.document jitter = .object (config.documentFields jitter) := by
  simp +decide only [document, toJson, documentFields, Json.ofFields, Table.ofEntries,
    List.foldl_cons, List.foldl_nil, Table.put, if_true, if_false, String.reduceEq]

lemma sorted_documentFields (config : Config) (jitter : Binary64) :
    Table.Sorted (config.documentFields jitter) := by
  have hmade := document_eq config jitter
  rw [document, toJson] at hmade
  rw [← Json.object.inj hmade]
  exact Table.sorted_ofEntries _

/-! ## What a file leaves alone -/

lemma mem_queuesInFile {entry : String × Nat} (h : entry ∈ queuesInFile queues) :
    ∃ before ∈ queues, (lower before.1, before.2) = entry :=
  List.mem_map.mp (Table.mem_ofEntries h)

/-- The names of the queues in a file are those of the queues in lower case. -/
lemma mem_names_queuesInFile :
    name ∈ Table.names (queuesInFile queues) ↔ ∃ entry ∈ queues, lower entry.1 = name := by
  simp only [queuesInFile, Table.mem_names_ofEntries, List.mem_map]
  constructor
  · rintro ⟨_, ⟨entry, hentry, rfl⟩, hname⟩
    exact ⟨entry, hentry, hname⟩
  · rintro ⟨entry, hentry, hname⟩
    exact ⟨_, ⟨entry, hentry, rfl⟩, hname⟩

/-- Queues whose names are in lower case are left alone, in whatever order they are gone through. -/
lemma queuesInFile_eq (hsorted : queues.Sorted) (hperm : listed.Perm queues)
    (hlower : ∀ entry ∈ queues, lower entry.1 = entry.1) : queuesInFile listed = queues := by
  have hsame : ∀ entry ∈ listed, (lower entry.1, entry.2) = entry := fun entry hentry => by
    rw [hlower entry (hperm.mem_iff.mp hentry)]
  rw [queuesInFile, List.map_congr_left hsame, List.map_id']
  exact Table.ofEntries_of_perm hsorted hperm

/-- The numbers of a configuration that have 64 bits. -/
def wideNumbers (config : Config) : List Nat :=
  [config.workerCount, config.maxQueueSize, config.taskTimeoutSecs, config.retryBaseDelayMs,
   config.retryMaxDelayMs, config.visibilityTimeoutSecs, config.pollIntervalMs,
   config.shutdownTimeoutSecs, config.completedHistory, config.deadLetterHistory]

/-- A configuration is left alone if its queues are in lower case, its numbers have 63 bits at most,
and its jitter is read as it is. -/
lemma inFile_eq_self (hsorted : config.queues.Sorted) (hperm : listed.Perm config.queues)
    (hlower : ∀ entry ∈ config.queues, lower entry.1 = entry.1)
    (hnumbers : ∀ n ∈ config.wideNumbers, n < 9223372036854775808)
    (hjitter : jitter = config.retryJitter) : config.inFile listed jitter = config := by
  have hsame : ∀ n ∈ config.wideNumbers, numberInFile n = n := fun n hn => if_pos (hnumbers n hn)
  simp only [wideNumbers, List.forall_mem_cons, List.not_mem_nil, false_imp_iff, implies_true,
    and_true] at hsame
  obtain ⟨hworkers, hcapacity, htaskTime, hbase, hmax, hclaims, hpolling, hstopping, hcompleted,
    hdead⟩ := hsame
  simp only [inFile, hworkers, hcapacity, htaskTime, hbase, hmax, hclaims, hpolling, hstopping,
    hcompleted, hdead, queuesInFile_eq hsorted hperm hlower, hjitter]

/-! ## Values -/

lemma toNat?_wide (h : n < bound64) :
    (Setting.ofJson (.natural n)).toNat? bound64 = some (numberInFile n) := by
  rw [Setting.ofJson_natural, numberInFile]
  split
  · exact Setting.toNat?_integer h
  · exact Setting.toNat?_real _

lemma toNat?_narrow (h : n < bound32) : (Setting.ofJson (.natural n)).toNat? bound32 = some n := by
  have hsmall : n < 9223372036854775808 := Nat.lt_trans h (by decide)
  rw [Setting.ofJson_natural, if_pos hsmall]
  exact Setting.toNat?_integer h

/-- Weights under names are read as they are. -/
lemma queuesOfSetting_table (hsorted : queues.Sorted)
    (hweights : ∀ entry ∈ queues, entry.2 < bound32) :
    queuesOfSetting
      (.table (queues.map fun entry => (entry.1, Setting.ofJson (.natural entry.2)))) =
        some queues := by
  have hmap : ∀ entries : List (String × Nat), (∀ entry ∈ entries, entry.2 < bound32) →
      (entries.map fun entry => (entry.1, Setting.ofJson (.natural entry.2))).mapM
        (fun entry => do return (entry.1, ← entry.2.toNat? bound32)) = some entries := by
    intro entries h
    induction entries with
    | nil => rfl
    | cons entry rest ih =>
      obtain ⟨hentry, hrest⟩ := List.forall_mem_cons.mp h
      rw [List.map_cons, List.mapM_cons, toNat?_narrow hentry, ih hrest]
      rfl
  rw [queuesOfSetting, hmap queues hweights]
  exact congrArg some (Table.ofEntries_of_sorted hsorted)

/-- The queues are gone through in some order. -/
lemma merged_queues (order : SettingOrder) (queues : Table Nat) :
    ∃ listed : Table Nat, listed.Perm queues ∧
      Setting.merged
        (Setting.arranged order
          (Setting.ofJson (.object (queues.map fun entry => (entry.1, .natural entry.2))))) none =
        .table ((queuesInFile listed).map fun entry =>
          (entry.1, Setting.ofJson (.natural entry.2))) := by
  have hvalues : Setting.arrangedEntries order
      (Setting.ofJsonFields (queues.map fun entry => (entry.1, .natural entry.2))) =
        queues.map fun entry => (entry.1, Setting.ofJson (.natural entry.2)) := by
    rw [Setting.ofJsonFields_eq, Setting.arrangedEntries_eq, List.map_map, List.map_map]
    simp only [Function.comp_def, Setting.arranged_natural]
  have hperm := order.perm (queues.map fun entry => (entry.1, Setting.ofJson (.natural entry.2)))
  obtain ⟨listed, hlisted, hmap⟩ := Setting.exists_perm_map hperm
  refine ⟨listed, hlisted, ?_⟩
  rw [Setting.ofJson, Setting.arranged, hvalues, ← hmap]
  exact Setting.merged_encoded Setting.merged_natural listed

/-! ## Fields -/

lemma foldlM_applySetting {α : Type} {value : Setting} {a : α} {convert : Setting → Option α}
    {store : Config → α → Config} {rest : Table Setting}
    (hfind : settingFields.find? (·.name == name) = some (settingField name convert store))
    (hvalue : convert value = some a)
    (hrest : rest.foldlM applySetting (store config a) = some final) :
    List.foldlM applySetting config ((name, value) :: rest) = some final := by
  have happly : applySetting config (name, value) = some (store config a) := by
    simp only [applySetting, hfind, settingField, hvalue, Option.map_some]
  rw [List.foldlM_cons, happly]
  exact hrest

/-- The names of the fields are in lower case, and none is a path. -/
lemma plain_documentFields (config : Config) (jitter : Binary64) :
    ∀ field ∈ config.documentFields jitter, Setting.PlainName field.1 := by
  have hplain : ∀ field ∈ config.documentFields jitter, Setting.isPlain field.1 = true := by
    simp only [documentFields, List.forall_mem_cons, List.not_mem_nil, false_imp_iff, implies_true,
      and_true]
    decide
  exact fun field hfield => Setting.plainName_of_isPlain (hplain field hfield)

/-- The settings of a document give what a file makes of the configuration. -/
lemma foldlM_document (hrange : config.InRange) (jitter : Binary64) (order : SettingOrder)
    (start : Config) :
    ∃ listed : Table Nat, listed.Perm config.queues ∧
      (Setting.assemble (order.arrange (Setting.arrangedEntries order
        (Setting.ofJsonFields (config.documentFields jitter))))).foldlM applySetting start =
          some (config.inFile listed jitter) := by
  obtain ⟨listed, hlisted, hmerged⟩ := merged_queues order config.queues
  have hweights : ∀ entry ∈ queuesInFile listed, entry.2 < bound32 := by
    intro entry hentry
    obtain ⟨before, hbefore, rfl⟩ := mem_queuesInFile hentry
    exact hrange.weights before (hlisted.mem_iff.mp hbefore)
  have hqueues := queuesOfSetting_table (Table.sorted_ofEntries _) hweights
  have hplain : ∀ entry ∈ Setting.arrangedEntries order
      (Setting.ofJsonFields (config.documentFields jitter)), Setting.PlainName entry.1 := by
    rw [Setting.ofJsonFields_eq, Setting.arrangedEntries_eq, List.map_map]
    intro entry hentry
    obtain ⟨field, hfield, rfl⟩ := List.mem_map.mp hentry
    exact plain_documentFields config jitter field hfield
  have hsorted : Table.Sorted (Setting.arrangedEntries order
      (Setting.ofJsonFields (config.documentFields jitter))) := by
    rw [Setting.ofJsonFields_eq, Setting.arrangedEntries_eq, List.map_map]
    exact List.pairwise_map.mpr (sorted_documentFields config jitter)
  refine ⟨listed, hlisted, ?_⟩
  rw [Setting.assemble_plain hplain hsorted (order.perm _), Setting.ofJsonFields_eq,
    Setting.arrangedEntries_eq]
  simp only [documentFields, List.map_cons, List.map_nil, Setting.arranged_natural,
    Setting.merged_natural, hmerged]
  refine foldlM_applySetting rfl (toNat?_wide hrange.completed) ?_
  refine foldlM_applySetting rfl (toNat?_wide hrange.deadLetters) ?_
  refine foldlM_applySetting rfl (toNat?_narrow hrange.budget) ?_
  refine foldlM_applySetting rfl rfl ?_
  refine foldlM_applySetting rfl rfl ?_
  refine foldlM_applySetting rfl (toNat?_wide hrange.capacity) ?_
  refine foldlM_applySetting rfl (toNat?_wide hrange.polling) ?_
  refine foldlM_applySetting rfl hqueues ?_
  refine foldlM_applySetting rfl (toNat?_wide hrange.baseDelay) ?_
  refine foldlM_applySetting rfl rfl ?_
  refine foldlM_applySetting rfl (toNat?_wide hrange.maxDelay) ?_
  refine foldlM_applySetting rfl (toNat?_wide hrange.stopping) ?_
  refine foldlM_applySetting rfl (toNat?_wide hrange.taskTime) ?_
  refine foldlM_applySetting rfl rfl ?_
  refine foldlM_applySetting rfl (toNat?_wide hrange.claims) ?_
  refine foldlM_applySetting rfl (toNat?_wide hrange.workers) ?_
  rfl

/-! ## Files -/

/-- Queues are read back from an object of their weights. -/
lemma readsBack_queues (hsorted : queues.Sorted) (hweights : ∀ entry ∈ queues, entry.2 < bound32) :
    Json.ReadsBack (Json.readValue 127)
      (.object (queues.map fun entry => (entry.1, .natural entry.2)))
      (.object (queues.map fun entry => (entry.1, .natural entry.2))) := by
  have hreread : ∀ entries : Table Nat, (∀ entry ∈ entries, entry.2 < bound32) →
      Json.RereadFields (Json.readValue 126)
        (entries.map fun entry => (entry.1, .natural entry.2))
        (entries.map fun entry => (entry.1, .natural entry.2)) := by
    intro entries h
    induction entries with
    | nil => exact .nil
    | cons entry rest ih =>
      obtain ⟨hentry, hrest⟩ := List.forall_mem_cons.mp h
      have hwide := Nat.lt_trans hentry (by decide : bound32 < Nat.pow 2 64)
      exact .cons ⟨rfl, Json.readsBack_naturalValue hwide⟩ (ih hrest)
  have hordered : Table.Sorted (queues.map fun entry => (entry.1, Json.natural entry.2)) :=
    List.pairwise_map.mpr hsorted
  have hread := Json.readsBack_objectValue (hreread queues hweights)
  rwa [Json.ofFields, Table.ofEntries_of_sorted hordered] at hread

/-- What is written of a configuration is read as its document, if `jitter` is read of what is
written of the jitter. -/
lemma read_toJson (hrange : config.InRange)
    (hjitter : Json.ReadsBack Json.number (.real config.retryJitter) (.real jitter)) :
    Json.read (symbols config.toJson.render) = .ok (config.document jitter) := by
  have hnumber : ∀ n, n < bound64 →
      Json.ReadsBack (Json.readValue 127) (.natural n) (.natural n) :=
    fun _ h => Json.readsBack_naturalValue h
  have hbudget : config.defaultMaxRetry < bound64 := Nat.lt_trans hrange.budget (by decide)
  refine Json.read_render ?_
  refine .cons ⟨rfl, hnumber _ hrange.workers⟩ ?_
  refine .cons ⟨rfl, readsBack_queues hrange.queues hrange.weights⟩ ?_
  refine .cons ⟨rfl, hnumber _ hrange.capacity⟩ ?_
  refine .cons ⟨rfl, hnumber _ hrange.taskTime⟩ ?_
  refine .cons ⟨rfl, hnumber _ hbudget⟩ ?_
  refine .cons ⟨rfl, hnumber _ hrange.baseDelay⟩ ?_
  refine .cons ⟨rfl, hnumber _ hrange.maxDelay⟩ ?_
  refine .cons ⟨rfl, Json.readsBack_number hjitter⟩ ?_
  refine .cons ⟨rfl, hnumber _ hrange.claims⟩ ?_
  refine .cons ⟨rfl, hnumber _ hrange.polling⟩ ?_
  refine .cons ⟨rfl, hnumber _ hrange.stopping⟩ ?_
  refine .cons ⟨rfl, hnumber _ hrange.completed⟩ ?_
  refine .cons ⟨rfl, hnumber _ hrange.deadLetters⟩ ?_
  refine .cons ⟨rfl, Json.readsBack_textValue _⟩ ?_
  refine .cons ⟨rfl, Json.readsBack_textValue _⟩ ?_
  exact .cons ⟨rfl, Json.readsBack_boolValue _⟩ .nil

/-- What is made of settings is validated. -/
lemma ofFile_of_settings {settings : Table Setting} {made : Config}
    (hsettings : files.settings name reading = .ok settings)
    (hmade : settings.foldlM applySetting (standard processors) = some made) :
    ofFile files name processors reading = made.validate.map fun _ => made := by
  have hof : ofSettings settings processors = .ok made := by simp only [ofSettings, hmade]
  rw [ofFile, hsettings]
  simp only [Except.mapError, bind, Except.bind, hof]
  cases made.validate <;> rfl

/-- **A JSON file with all fields of a configuration** is read as what a file makes of it, if that
is valid. -/
theorem ofFile_document (hrange : config.InRange)
    (hfile : files.locate? name = some (text, some .json))
    (hread : Json.read (symbols text) = .ok (config.document jitter)) (processors : Nat)
    (order : SettingOrder) :
    ∃ listed : Table Nat, listed.Perm config.queues ∧
      ofFile files name processors { order } =
        (config.inFile listed jitter).validate.map fun _ => config.inFile listed jitter := by
  obtain ⟨listed, hlisted, hmade⟩ := foldlM_document hrange jitter order (standard processors)
  have hsettings : files.settings name { order } =
      .ok (Setting.assemble (order.arrange (Setting.arrangedEntries order
        (Setting.ofJsonFields (config.documentFields jitter))))) := by
    simp only [Files.settings, hfile, Files.Format.read, Setting.readJson, hread, document_eq,
      Setting.ofJson, Option.map_some, Setting.arranged]
  exact ⟨listed, hlisted, ofFile_of_settings hsettings hmade⟩

end Config
end WorkQueue
