import WorkQueue.Proofs.Config.File
import WorkQueue.Proofs.Config.Loading
import WorkQueue.Proofs.Config.Variables

/-!
# One configuration from two sources

A deployment may give its configuration in the variables of the environment or in a file.
`sources_give` says what either makes of a valid configuration of which all fields are given.  The
environment always gives it back.  A file gives what `Config.inFile` says of some order of its
queues, and this is the configuration itself if the names of the queues are in lower case, the
numbers have 63 bits at most and the jitter is read as it is.

So the two sources do not agree on every configuration.  `capital_queue_moves` has a queue whose
name begins with a capital letter: from the environment it is served under its name, and from a file
under another.
-/

namespace WorkQueue
namespace Config

open WorkQueue.Text

variable {config made : Config} {jitter : Binary64} {env : Environment} {files : Files}
  {name text : String} {queues : Table Nat} {order : SettingOrder}

/-! ## Files that hold a configuration -/

/-- Whether a JSON file holds all fields of a configuration, with a number for the jitter that is
read as `jitter`. -/
def Holds (files : Files) (name : String) (config : Config) (jitter : Binary64) : Prop :=
  ∃ text, files.locate? name = some (text, some .json) ∧
    Json.read (symbols text) = .ok (config.document jitter)

/-- A file holds the configuration that was written to it. -/
lemma holds_toJson (hrange : config.InRange)
    (hjitter : Json.ReadsBack Json.number (.real config.retryJitter) (.real jitter))
    (hfile : files.locate? name = some (config.toJson.render, some .json)) :
    Holds files name config jitter :=
  ⟨_, hfile, read_toJson hrange hjitter⟩

lemma locate_json (text : String) :
    Files.locate? [("task-relay.json", text)] "task-relay.json" = some (text, some .json) := by
  have hnames : Files.names "task-relay.json" = ["task-relay.json"] := by decide
  have hends : Files.endsInName "task-relay.json" = true := by decide
  have hextension : Files.extension "task-relay.json" = "json" := by decide
  have hwalked : Files.resolve? [("task-relay.json", text)] "task-relay.json" =
      some ["task-relay.json"] := by
    simp +decide [Files.resolve?, hnames]
  simp [Files.locate?, Files.text?, hends, hextension, hwalked, hnames, Files.formats]

/-! ## The standard settings with other queues -/

/-- The standard settings but for the queues. -/
def ofQueues (queues : Table Nat) : Config :=
  { standard with queues := queues }

lemma validate_ofQueues (hne : queues ≠ []) (hweights : ∀ entry ∈ queues, 0 < entry.2) :
    (ofQueues queues).validate = .ok () :=
  have hvalid := valid_standard (by decide : 0 < 1)
  validate_ok_iff.mpr { hvalid with queues := hne, weights := hweights }

lemma inRange_ofQueues (hsorted : queues.Sorted)
    (hweights : ∀ entry ∈ queues, entry.2 < bound32) : (ofQueues queues).InRange where
  queues := hsorted
  claims := (by decide : 300 < bound64)
  workers := (by decide : 1 < bound64)
  capacity := (by decide : 10000 < bound64)
  taskTime := (by decide : 60 < bound64)
  budget := (by decide : 25 < bound32)
  baseDelay := (by decide : 1000 < bound64)
  maxDelay := (by decide : 600000 < bound64)
  polling := (by decide : 200 < bound64)
  stopping := (by decide : 30 < bound64)
  completed := (by decide : 1000 < bound64)
  deadLetters := (by decide : 10000 < bound64)
  weights := hweights

/-- The standard jitter is a fifth in the environment. -/
lemma spells_ofQueues (queues : Table Nat) :
    Spells ((ofQueues queues).asEnvironment "0.2") (ofQueues queues) :=
  spells_variables (by decide +kernel : parseReal "0.2" = .ok standard.retryJitter)

/-- The standard jitter is written to a file as a fifth and read back. -/
lemma readsBack_standardJitter :
    Json.ReadsBack Json.number (.real standard.retryJitter) (.real standard.retryJitter) := by
  have hwrite : Json.write (.real standard.retryJitter) = ['0', '.', '2'] := by rfl
  have hmake : Json.makeReal false 2 (-1) = .ok (.real standard.retryJitter) := by rfl
  intro rest hrest
  have hwhole : Json.leadingDigits (.char '0' :: .char '.' :: .char '2' :: rest) = [0] := rfl
  have hfraction : Json.leadingDigits (.char '2' :: rest) = [2] :=
    Json.leadingDigits_append (List.forall_mem_singleton.mpr rfl) hrest
  have hexponent : Json.startsExponent rest = false := by
    obtain ⟨c, more, rfl, rfl | rfl | rfl⟩ := hrest <;> rfl
  rw [hwrite]
  simp [Json.Reader.Reads, Json.number, Json.unsignedNumber, Json.fractionPart, Json.endReal,
    Json.absorb, Json.skip, hwhole, hfraction, hexponent, hmake]

lemma holds_ofQueues (hsorted : queues.Sorted) (hweights : ∀ entry ∈ queues, entry.2 < bound32) :
    Holds [("task-relay.json", (ofQueues queues).toJson.render)] "task-relay.json"
      (ofQueues queues) standard.retryJitter :=
  holds_toJson (inRange_ofQueues hsorted hweights) readsBack_standardJitter (locate_json _)

/-! ## What the sources give -/

/-- What the environment and a file give that both hold a configuration. -/
structure SourcesGive (config : Config) (jitter : Binary64) (env : Environment) (files : Files)
    (name : String) (processors : Nat) (order : SettingOrder) : Prop where
  /-- The environment gives the configuration. -/
  environment : ofEnvironment env processors = .ok (some config)
  /-- The file gives what a file makes of it, if that is valid: its queues are gone through in some
  order.  So both give the same if a file makes nothing else of it, and only then. -/
  file : ∃ listed : Table Nat, listed.Perm config.queues ∧
    (ofFile files name processors { order } =
      (config.inFile listed jitter).validate.map fun _ => config.inFile listed jitter) ∧
    (ofFile files name processors { order } = .ok config ↔ config.inFile listed jitter = config)
  /-- This is so for names in lower case, numbers of 63 bits and a jitter that is read as it is. -/
  kept : (∀ entry ∈ config.queues, lower entry.1 = entry.1) →
    (∀ n ∈ config.wideNumbers, n < 9223372036854775808) → jitter = config.retryJitter →
      ofFile files name processors { order } = .ok config
  /-- The queues that are served with the file have the names in lower case. -/
  served : ∀ made, ofFile files name processors { order } = .ok made → ∀ queue,
    queue ∈ Table.names made.queueWeights.entries ↔ ∃ entry ∈ config.queues, lower entry.1 = queue

lemma validated_eq_ok_iff :
    (made.validate.map fun _ => made) = .ok config ↔ made.validate = .ok () ∧ made = config := by
  cases made.validate <;> simp [Except.map]

/-- **The environment gives a configuration back, and a file what a file makes of it.**  Both hold
all fields of a valid configuration, the names of whose queues can stand in a list.  The tables of
the file are gone through in any order. -/
theorem sources_give (hvalid : config.validate = .ok ()) (hrange : config.InRange)
    (hnames : ∀ entry ∈ config.queues, Listable entry.1) (hspells : Spells env config)
    (hholds : Holds files name config jitter) (processors : Nat) (order : SettingOrder) :
    SourcesGive config jitter env files name processors order := by
  obtain ⟨text, hfile, hread⟩ := hholds
  obtain ⟨listed, hlisted, hmade⟩ := ofFile_document hrange hfile hread processors order
  have hsame : ofFile files name processors { order } = .ok config ↔
      config.inFile listed jitter = config := by
    rw [hmade, validated_eq_ok_iff]
    refine ⟨fun h => h.2, fun h => ⟨?_, h⟩⟩
    rw [h, hvalid]
  refine ⟨ofEnvironment_spelled hvalid hrange hnames hspells, ⟨listed, hlisted, hmade, hsame⟩,
    ?kept, ?served⟩
  case kept =>
    intro hlower hnumbers hjitter
    exact hsame.mpr (inFile_eq_self hrange.queues hlisted hlower hnumbers hjitter)
  case served =>
    intro made hloaded queue
    rw [hmade, validated_eq_ok_iff] at hloaded
    obtain ⟨hvalidated, rfl⟩ := hloaded
    rw [entries_queueWeights (validate_ok_iff.mp hvalidated)]
    refine mem_names_queuesInFile.trans (exists_congr fun entry => ?_)
    rw [hlisted.mem_iff]

/-- The standard settings with one queue in lower case. -/
theorem small_queue_stays :
    (ofQueues [("mail", 1)]).validate = .ok () ∧ (ofQueues [("mail", 1)]).InRange ∧
      (∀ entry ∈ [("mail", 1)], Listable entry.1) ∧
      Spells ((ofQueues [("mail", 1)]).asEnvironment "0.2") (ofQueues [("mail", 1)]) ∧
      Holds [("task-relay.json", (ofQueues [("mail", 1)]).toJson.render)] "task-relay.json"
        (ofQueues [("mail", 1)]) standard.retryJitter ∧
      SourcesGive (ofQueues [("mail", 1)]) standard.retryJitter
        ((ofQueues [("mail", 1)]).asEnvironment "0.2")
        [("task-relay.json", (ofQueues [("mail", 1)]).toJson.render)] "task-relay.json" 1
        .listed :=
  have hvalid := validate_ofQueues (List.cons_ne_nil _ _) (by decide : ∀ e ∈ [("mail", 1)], 0 < e.2)
  have hsorted := List.pairwise_singleton _ _
  have hweights : ∀ entry ∈ [("mail", 1)], entry.2 < bound32 := by decide
  have hrange := inRange_ofQueues hsorted hweights
  have hnames : ∀ entry ∈ [("mail", 1)], Listable entry.1 :=
    List.forall_mem_singleton.mpr ⟨by decide, by decide, by decide, by decide⟩
  have hholds := holds_ofQueues hsorted hweights
  ⟨hvalid, hrange, hnames, spells_ofQueues _, hholds,
    sources_give hvalid hrange hnames (spells_ofQueues _) hholds 1 .listed⟩

/-- The standard settings with one queue whose name begins with a capital letter: the environment
gives them back, and a file gives a queue of another name. -/
theorem capital_queue_moves :
    (ofQueues [("Mail", 1)]).validate = .ok () ∧ Listable "Mail" ∧
      ofEnvironment ((ofQueues [("Mail", 1)]).asEnvironment "0.2") =
        .ok (some (ofQueues [("Mail", 1)])) ∧
      ofFile [("task-relay.json", (ofQueues [("Mail", 1)]).toJson.render)] "task-relay.json" =
        .ok (ofQueues [("mail", 1)]) ∧
      ofQueues [("Mail", 1)] ≠ ofQueues [("mail", 1)] := by
  have hweights : ∀ entry ∈ [("Mail", 1)], entry.2 < bound32 := by decide
  have hrange := inRange_ofQueues (List.pairwise_singleton _ _) hweights
  have hvalid := validate_ofQueues (List.cons_ne_nil _ _) (by decide : ∀ e ∈ [("Mail", 1)], 0 < e.2)
  have hlistable : Listable "Mail" := ⟨by decide, by decide, by decide, by decide⟩
  have hmoved : (ofQueues [("Mail", 1)]).inFile [("Mail", 1)] standard.retryJitter =
      ofQueues [("mail", 1)] := by
    rfl
  have hread := read_toJson hrange readsBack_standardJitter
  refine ⟨hvalid, hlistable, ?_, ?_, ?_⟩
  · exact ofEnvironment_spelled hvalid hrange (List.forall_mem_singleton.mpr hlistable)
      (spells_ofQueues _)
  · obtain ⟨listed, hlisted, hmade⟩ := ofFile_document hrange (locate_json _) hread 1 .listed
    obtain rfl := List.perm_singleton.mp hlisted
    refine hmade.trans ?_
    rw [hmoved, validate_ofQueues (List.cons_ne_nil _ _) (by decide)]
    rfl
  · intro hsame
    exact absurd (congrArg (fun config => Table.names config.queues) hsame) (by decide)

end Config
end WorkQueue
