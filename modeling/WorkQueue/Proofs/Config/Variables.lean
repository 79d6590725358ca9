import Mathlib.Data.List.Forall2
import WorkQueue.Config.Load
import WorkQueue.Proofs.Config.Environment

/-!
# What the environment sets

`slots` lists the sixteen fields of a configuration once more, each with the variable that sets it,
the type that the text of the variable is parsed as, and what shows the value in a configuration.  A
configuration is determined by its fields (`ext_slots`), so this is enough to say which one an
environment stands for: in the fields of the variables that are set it has their values, and in all
others it is the standard one (`Candidate`).

Every variable does for its slot what it should and leaves the other slots alone (`Implements`).
From there an induction over the variables gives either the candidate, whatever subset of them is
set (`applyVariables_ok`), or the problem of the first one that does not parse
(`applyVariables_error`), and `environment_gives` says what is made of both.  A configuration that
is rendered in part is a special case: the fields that are not rendered keep their standard values.

A variable that is set to octets of no text counts as one that is not set.  So an environment in
which a variable is present can be taken for one without any (`damaged_count_passed_over`).
-/

namespace WorkQueue
namespace Config

open WorkQueue.Text

/-! ## Slots -/

/-- A field of a configuration, with the variable and the entry of a file that set it. -/
structure Slot where
  /-- The name of the variable. -/
  name : String
  /-- The name in a file. -/
  field : String
  /-- The type of the values. -/
  Value : Type
  /-- The value of a text, or what is wrong with the text. -/
  parse : String → Except ConfigProblem Value
  /-- The value of a setting in a file, if it can be converted to one. -/
  convert : Setting → Option Value
  /-- The value in a configuration. -/
  get : Config → Value

/-- A slot whose problems name its variable. -/
def Slot.plain {α : Type} (name field : String) (parse : String → Except String α)
    (convert : Setting → Option α) (get : Config → α) : Slot where
  name := name
  field := field
  Value := α
  parse text := (parse text).mapError (.badVariable name)
  convert := convert
  get := get

/-- A slot of a number below a bound. -/
def Slot.number (name field : String) (bound : Nat) (get : Config → Nat) : Slot :=
  .plain name field (parseNat bound) (·.toNat? bound) get

/-- The slots in the order in which their variables are looked at, the queues at the end. -/
def slots : List Slot :=
  [.number "WORKER_COUNT" "worker_count" bound64 workerCount,
   .number "MAX_QUEUE_SIZE" "max_queue_size" bound64 maxQueueSize,
   .number "TASK_TIMEOUT_SECS" "task_timeout_secs" bound64 taskTimeoutSecs,
   .number "DEFAULT_MAX_RETRY" "default_max_retry" bound32 defaultMaxRetry,
   .number "RETRY_BASE_DELAY_MS" "retry_base_delay_ms" bound64 retryBaseDelayMs,
   .number "RETRY_MAX_DELAY_MS" "retry_max_delay_ms" bound64 retryMaxDelayMs,
   .plain "RETRY_JITTER" "retry_jitter" parseReal Setting.toReal? retryJitter,
   .number "VISIBILITY_TIMEOUT_SECS" "visibility_timeout_secs" bound64 visibilityTimeoutSecs,
   .number "POLL_INTERVAL_MS" "poll_interval_ms" bound64 pollIntervalMs,
   .number "SHUTDOWN_TIMEOUT_SECS" "shutdown_timeout_secs" bound64 shutdownTimeoutSecs,
   .number "COMPLETED_HISTORY" "completed_history" bound64 completedHistory,
   .number "DEAD_LETTER_HISTORY" "dead_letter_history" bound64 deadLetterHistory,
   .plain "VERIFY_EMAIL_BASE_URL" "verify_email_base_url" .ok Setting.toText? verifyEmailBaseUrl,
   .plain "LOG_LEVEL" "log_level" .ok Setting.toText? logLevel,
   .plain "LOG_JSON" "log_json" parseTruth Setting.toTruth? logJson,
   { name := "QUEUES"
     field := "queues"
     Value := Table Nat
     parse := parseQueues
     convert := queuesOfSetting
     get := queues }]

variable {env : Environment} {config made next other start : Config} {processors : Nat}
  {problem : ConfigProblem} {slot : Slot} {looked : List Slot} {entries : List Variable}
  {name : String}

/-- A configuration is determined by its slots. -/
lemma ext_slots (h : ∀ slot ∈ slots, slot.get made = slot.get other) : made = other := by
  simp only [slots, List.forall_mem_cons, List.not_mem_nil, false_imp_iff, implies_true,
    and_true] at h
  obtain ⟨hworkers, hcapacity, htaskTime, hbudget, hbase, hmax, hjitter, hclaims, hpolling,
    hstopping, hcompleted, hdead, hurl, hlevel, hlog, hqueues⟩ := h
  cases made
  cases other
  cases hworkers
  cases hcapacity
  cases htaskTime
  cases hbudget
  cases hbase
  cases hmax
  cases hjitter
  cases hclaims
  cases hpolling
  cases hstopping
  cases hcompleted
  cases hdead
  cases hurl
  cases hlevel
  cases hlog
  cases hqueues
  rfl

lemma names_nodup : (slots.map Slot.name).Nodup := by
  decide +kernel

/-! ## One variable -/

/-- Whether a variable replaces what a slot shows by what its text is parsed as, and nothing
else. -/
structure Implements (entry : Variable) (slot : Slot) : Prop where
  name : entry.name = slot.name
  sets : ∀ {text value}, slot.parse text = .ok value → ∀ config, ∃ next,
    entry.apply text config = .ok next ∧ slot.get next = value ∧
      ∀ other ∈ slots, other.name ≠ slot.name → other.get next = other.get config
  fails : ∀ {text problem}, slot.parse text = .error problem → ∀ config,
    entry.apply text config = .error problem

/-- Storing a value is visible in no slot but those that have a name, whether it is the name of the
variable or the one in a file. -/
def Frames {α : Type} (key : Slot → String) (name : String) (store : Config → α → Config) : Prop :=
  ∀ other ∈ slots, key other = name ∨
    ∀ config value, other.get (store config value) = other.get config

lemma implements_setting {α : Type} {name field : String} {parse : String → Except String α}
    {convert : Setting → Option α} {store : Config → α → Config} {get : Config → α}
    (hget : ∀ config value, get (store config value) = value)
    (hframes : Frames Slot.name name store) :
    Implements (setting name parse store) (.plain name field parse convert get) where
  name := rfl
  sets {text value} h config := by
    change (parse text).mapError _ = .ok value at h
    cases hparse : parse text with
    | error reason =>
      rw [hparse] at h
      cases h
    | ok parsed =>
      rw [hparse] at h
      cases h
      refine ⟨store config value, by simp only [setting, hparse], hget config value, ?_⟩
      intro other hother hname
      exact (hframes other hother).resolve_left hname config value
  fails {text problem} h config := by
    change (parse text).mapError _ = .error problem at h
    cases hparse : parse text with
    | ok parsed =>
      rw [hparse] at h
      cases h
    | error reason =>
      rw [hparse] at h
      cases h
      simp only [setting, hparse]

/-- The list of queues is no plain setting: its problems are those of its entries. -/
lemma implements_queues :
    Implements
      { name := "QUEUES"
        apply text config := do return { config with queues := ← parseQueues text } }
      { name := "QUEUES"
        field := "queues"
        Value := Table Nat
        parse := parseQueues
        convert := queuesOfSetting
        get := queues } where
  name := rfl
  sets {text value} h config := by
    have hframes : Frames Slot.name "QUEUES"
        fun config value => { config with queues := value } := by
      simp [Frames, slots, Slot.plain, Slot.number]
    refine ⟨{ config with queues := value }, ?_, rfl, ?_⟩
    · change parseQueues text = .ok value at h
      change (parseQueues text >>= fun queues => _) = _
      rw [h]
      rfl
    · intro other hother hname
      exact (hframes other hother).resolve_left hname config value
  fails {text problem} h config := by
    change parseQueues text = .error problem at h
    change (parseQueues text >>= fun queues => _) = _
    rw [h]
    rfl

/-- **Every variable sets its slot**, and the variables are looked at in the order of the slots. -/
theorem implements_slots : List.Forall₂ Implements allVariables slots := by
  have hrow : ∀ {α : Type} {name field : String} {parse : String → Except String α}
      {convert : Setting → Option α} {store : Config → α → Config} {get : Config → α}
      {rest : List Variable} {more : List Slot},
      (∀ config value, get (store config value) = value) → Frames Slot.name name store →
        List.Forall₂ Implements rest more →
          List.Forall₂ Implements (setting name parse store :: rest)
            (.plain name field parse convert get :: more) :=
    fun hget hframes hrest => .cons (implements_setting hget hframes) hrest
  iterate 15 refine hrow (fun _ _ => rfl) (by simp [Frames, slots, Slot.plain, Slot.number]) ?_
  exact .cons implements_queues .nil

/-! ## All variables -/

/-- Whether a variable is not set, or set to a text that parses for its slot. -/
def Parses (env : Environment) (slot : Slot) : Prop :=
  ∀ text, valueOf env slot.name = some text → ∃ value, slot.parse text = .ok value

/-- What a slot of a configuration shows: the value of the variable if it is set, and else what the
slot shows in another configuration. -/
def Shows (env : Environment) (start config : Config) (slot : Slot) : Prop :=
  match valueOf env slot.name with
  | some text => slot.parse text = .ok (slot.get config)
  | none => slot.get config = slot.get start

/-- Whether the first of some variables that does not parse has a problem. -/
def FaultIn (env : Environment) (looked : List Slot) (problem : ConfigProblem) : Prop :=
  ∃ earlier slot later text, looked = earlier ++ slot :: later ∧
    (∀ other ∈ earlier, Parses env other) ∧ valueOf env slot.name = some text ∧
    slot.parse text = .error problem

lemma parses_of_unset (h : valueOf env slot.name = none) : Parses env slot := by
  intro text htext
  rw [h] at htext
  cases htext

/-- Either all variables parse, or there is a first one that does not. -/
lemma parses_or_fault (env : Environment) (looked : List Slot) :
    (∀ slot ∈ looked, Parses env slot) ∨ ∃ problem, FaultIn env looked problem := by
  induction looked with
  | nil => exact .inl fun _ hslot => absurd hslot List.not_mem_nil
  | cons slot rest ih =>
    have hslot : Parses env slot ∨
        ∃ text problem, valueOf env slot.name = some text ∧ slot.parse text = .error problem := by
      cases hset : valueOf env slot.name with
      | none => exact .inl (parses_of_unset hset)
      | some text =>
        cases hparse : slot.parse text with
        | error problem => exact .inr ⟨text, problem, rfl, hparse⟩
        | ok value =>
          refine .inl fun other hother => ⟨value, ?_⟩
          cases hset.symm.trans hother
          exact hparse
    rcases hslot with hparses | ⟨text, problem, hset, hparse⟩
    · rcases ih with hrest | ⟨problem, earlier, bad, later, text, rfl, hearlier, hset, hparse⟩
      · exact .inl (List.forall_mem_cons.mpr ⟨hparses, hrest⟩)
      · exact .inr ⟨problem, slot :: earlier, bad, later, text, rfl,
          List.forall_mem_cons.mpr ⟨hparses, hearlier⟩, hset, hparse⟩
    · exact .inr ⟨problem, [], slot, rest, text, rfl,
        fun _ hother => absurd hother List.not_mem_nil, hset, hparse⟩

/-- A slot that two configurations show alike may begin as either. -/
lemma Shows.of_get_eq (hsame : slot.get other = slot.get start) (h : Shows env other made slot) :
    Shows env start made slot := by
  rw [Shows] at h ⊢
  cases hset : valueOf env slot.name with
  | some text =>
    rw [hset] at h
    exact h
  | none =>
    rw [hset] at h
    exact h.trans hsame

/-- Variables that all parse give a configuration that shows them, and the rest as it was. -/
lemma applyVariables_ok (himplements : List.Forall₂ Implements entries looked)
    (hnodup : (looked.map Slot.name).Nodup) (hsubset : ∀ slot ∈ looked, slot ∈ slots)
    (hparses : ∀ slot ∈ looked, Parses env slot) (start : Config) :
    ∃ made, applyVariables env entries start = .ok made ∧
      (∀ slot ∈ looked, Shows env start made slot) ∧
      ∀ other ∈ slots, other.name ∉ looked.map Slot.name → other.get made = other.get start := by
  induction himplements generalizing start with
  | nil => exact ⟨start, rfl, fun _ hslot => absurd hslot List.not_mem_nil, fun _ _ _ => rfl⟩
  | @cons entry slot entries looked hentry _ ih =>
    obtain ⟨hfresh, hnodup⟩ := List.nodup_cons.mp hnodup
    obtain ⟨hmem, hsubset⟩ := List.forall_mem_cons.mp hsubset
    obtain ⟨hslot, hparses⟩ := List.forall_mem_cons.mp hparses
    cases hset : valueOf env slot.name with
    | none =>
      obtain ⟨made, hmade, hshows, hothers⟩ := ih hnodup hsubset hparses start
      refine ⟨made, ?_, List.forall_mem_cons.mpr ⟨?_, hshows⟩, ?_⟩
      · simp only [applyVariables, hentry.name, hset, hmade]
      · rw [Shows, hset]
        exact hothers slot hmem hfresh
      · intro other hother hname
        exact hothers other hother fun hlater => hname (List.mem_cons_of_mem _ hlater)
    | some text =>
      obtain ⟨value, hvalue⟩ := hslot text hset
      obtain ⟨next, hnext, hget, hkept⟩ := hentry.sets hvalue start
      obtain ⟨made, hmade, hshows, hothers⟩ := ih hnodup hsubset hparses next
      refine ⟨made, ?_, List.forall_mem_cons.mpr ⟨?_, ?_⟩, ?_⟩
      · simp only [applyVariables, hentry.name, hset, hnext, hmade]
      · rw [Shows, hset]
        show slot.parse text = .ok (slot.get made)
        rw [hothers slot hmem hfresh, hget, hvalue]
      · -- the slots behind this one show the same in `next` as in `start`
        intro later hlater
        have hdiffer : later.name ≠ slot.name := fun hsame =>
          hfresh (hsame ▸ List.mem_map_of_mem hlater)
        exact (hshows later hlater).of_get_eq (hkept later (hsubset later hlater) hdiffer)
      · intro other hother hname
        have hdiffer : other.name ≠ slot.name := fun hsame =>
          hname (hsame ▸ List.mem_cons_self)
        exact (hothers other hother fun hlater => hname (List.mem_cons_of_mem _ hlater)).trans
          (hkept other hother hdiffer)

/-- The first variable that does not parse gives its problem. -/
lemma applyVariables_error (himplements : List.Forall₂ Implements entries looked)
    (hfault : FaultIn env looked problem) (start : Config) :
    applyVariables env entries start = .error problem := by
  obtain ⟨earlier, bad, later, text, hlooked, hearlier, hset, hparse⟩ := hfault
  induction himplements generalizing start earlier with
  | nil => exact absurd hlooked.symm (List.append_ne_nil_of_right_ne_nil _ (List.cons_ne_nil _ _))
  | @cons entry slot entries looked hentry _ ih =>
    cases earlier with
    | nil =>
      cases hlooked
      simp only [applyVariables, hentry.name, hset, hentry.fails hparse start]
    | cons first more =>
      cases hlooked
      obtain ⟨hfirst, hmore⟩ := List.forall_mem_cons.mp hearlier
      cases hfirstSet : valueOf env slot.name with
      | none =>
        simp only [applyVariables, hentry.name, hfirstSet]
        exact ih start more rfl hmore
      | some other =>
        obtain ⟨value, hvalue⟩ := hfirst other hfirstSet
        obtain ⟨next, hnext, -, -⟩ := hentry.sets hvalue start
        simp only [applyVariables, hentry.name, hfirstSet, hnext]
        exact ih next more rfl hmore

/-! ## The configuration of the environment -/

/-- Whether a configuration shows the variables that are set, and else what another one shows. -/
def Candidate (env : Environment) (start config : Config) : Prop :=
  ∀ slot ∈ slots, Shows env start config slot

/-- Whether a configuration shows one configuration in the chosen slots, and another one in all
others. -/
def Mixture (chosen : String → Bool) (config start made : Config) : Prop :=
  ∀ slot ∈ slots, slot.get made = if chosen slot.name then slot.get config else slot.get start

lemma Candidate.unique (hmade : Candidate env start made) (hother : Candidate env start other) :
    other = made := by
  refine ext_slots fun slot hslot => ?_
  have hshown := hmade slot hslot
  have hsame := hother slot hslot
  rw [Shows] at hshown hsame
  cases hset : valueOf env slot.name with
  | none =>
    rw [hset] at hshown hsame
    exact hsame.trans hshown.symm
  | some text =>
    rw [hset] at hshown hsame
    exact Except.ok.inj (hsame.symm.trans hshown)

lemma Candidate.parses (hmade : Candidate env start made) : ∀ slot ∈ slots, Parses env slot := by
  intro slot hslot text htext
  have hshown := hmade slot hslot
  rw [Shows, htext] at hshown
  exact ⟨_, hshown⟩

/-- If all variables parse there is one candidate, and it is what applying them gives. -/
lemma exists_candidate (h : ∀ slot ∈ slots, Parses env slot) (start : Config) :
    ∃ made, applyVariables env allVariables start = .ok made ∧ Candidate env start made := by
  obtain ⟨made, hmade, hshows, -⟩ :=
    applyVariables_ok implements_slots names_nodup (fun _ hslot => hslot) h start
  exact ⟨made, hmade, hshows⟩

lemma Candidate.applied (hmade : Candidate env start made) :
    applyVariables env allVariables start = .ok made := by
  obtain ⟨found, hfound, hcandidate⟩ := exists_candidate hmade.parses start
  rw [hfound, hmade.unique hcandidate]

/-- The variables have the names of the slots. -/
lemma exists_set_iff : isConfigured env = true ↔ ∃ slot ∈ slots, valueOf env slot.name ≠ none := by
  have hnames : allVariables.map (·.name) = slots.map Slot.name := rfl
  have hvariables : isConfigured env = (allVariables.map (·.name)).any fun name =>
      (valueOf env name).isSome := by
    rw [isConfigured, List.any_map]
    rfl
  rw [hvariables, hnames, List.any_map, List.any_eq_true]
  simp only [Function.comp, Option.isSome_iff_ne_none]

/-- An environment of which only the variables matter gives its candidate, if that is valid. -/
lemma Candidate.loaded (hmade : Candidate env (standard processors) made)
    (hset : ∃ slot ∈ slots, valueOf env slot.name ≠ none) :
    ofEnvironment env processors = made.validate.map fun _ => some made := by
  rw [ofEnvironment, hmade.applied]
  simp only [exists_set_iff.mpr hset, if_true]
  cases made.validate with
  | error error => rfl
  | ok _ => rfl

lemma Candidate.results (hmade : Candidate env (standard processors) made)
    (hset : ∃ slot ∈ slots, valueOf env slot.name ≠ none) :
    (made.validate = .ok () → ofEnvironment env processors = .ok (some made)) ∧
      ∀ error, made.validate = .error error → ofEnvironment env processors = .error error := by
  rw [hmade.loaded hset]
  refine ⟨fun hvalid => ?_, fun error hinvalid => ?_⟩
  · rw [hvalid]
    rfl
  · rw [hinvalid]
    rfl

lemma ofEnvironment_of_fault (h : FaultIn env slots problem) :
    ofEnvironment env processors = .error (.config problem) := by
  rw [ofEnvironment, applyVariables_error implements_slots h]

lemma ofEnvironment_eq_none_iff :
    ofEnvironment env processors = .ok none ↔ ∀ slot ∈ slots, valueOf env slot.name = none := by
  constructor
  · intro hnone slot hslot
    by_contra hset
    rcases parses_or_fault env slots with hparses | ⟨problem, hfault⟩
    · obtain ⟨made, -, hmade⟩ := exists_candidate hparses (standard processors)
      rw [hmade.loaded ⟨slot, hslot, hset⟩] at hnone
      cases hvalid : made.validate with
      | error error =>
        rw [hvalid] at hnone
        cases hnone
      | ok _ =>
        rw [hvalid] at hnone
        cases hnone
    · rw [ofEnvironment_of_fault hfault] at hnone
      cases hnone
  · intro hunset
    have hparses : ∀ slot ∈ slots, Parses env slot := fun slot hslot =>
      parses_of_unset (hunset slot hslot)
    obtain ⟨made, hmade, -⟩ := exists_candidate hparses (standard processors)
    have hconfigured : isConfigured env = false := by
      rw [← Bool.not_eq_true, exists_set_iff]
      rintro ⟨slot, hslot, hset⟩
      exact hset (hunset slot hslot)
    rw [ofEnvironment, hmade]
    simp only [hconfigured, Bool.false_eq_true, if_false]

/-- Variables that are not among those of the slots have no influence. -/
lemma ofEnvironment_congr {env' : Environment}
    (h : ∀ slot ∈ slots, valueOf env' slot.name = valueOf env slot.name) :
    ofEnvironment env' processors = ofEnvironment env processors := by
  have hparses : ∀ slot ∈ slots, Parses env slot → Parses env' slot := by
    intro slot hslot hparses text htext
    exact hparses text (h slot hslot ▸ htext)
  rcases parses_or_fault env slots with hall | ⟨problem, hfault⟩
  · obtain ⟨made, -, hmade⟩ := exists_candidate hall (standard processors)
    have hmade' : Candidate env' (standard processors) made := by
      intro slot hslot
      rw [Shows, h slot hslot]
      exact hmade slot hslot
    by_cases hset : ∃ slot ∈ slots, valueOf env slot.name ≠ none
    · have hset' : ∃ slot ∈ slots, valueOf env' slot.name ≠ none := by
        obtain ⟨slot, hslot, hvalue⟩ := hset
        exact ⟨slot, hslot, h slot hslot ▸ hvalue⟩
      rw [hmade.loaded hset, hmade'.loaded hset']
    · have hunset : ∀ slot ∈ slots, valueOf env slot.name = none := by
        intro slot hslot
        by_contra hvalue
        exact hset ⟨slot, hslot, hvalue⟩
      rw [ofEnvironment_eq_none_iff.mpr hunset, ofEnvironment_eq_none_iff]
      exact fun slot hslot => (h slot hslot).trans (hunset slot hslot)
  · obtain ⟨earlier, bad, later, text, hslots, hearlier, hset, hparse⟩ := hfault
    have hmem : ∀ slot, slot ∈ earlier ∨ slot = bad → slot ∈ slots := by
      rintro slot (hslot | rfl)
      · exact hslots ▸ List.mem_append_left _ hslot
      · exact hslots ▸ List.mem_append_right _ List.mem_cons_self
    have hfault' : FaultIn env' slots problem :=
      ⟨earlier, bad, later, text, hslots,
        fun slot hslot => hparses slot (hmem slot (.inl hslot)) (hearlier slot hslot),
        (h bad (hmem bad (.inr rfl))).trans hset, hparse⟩
    rw [ofEnvironment_of_fault ⟨earlier, bad, later, text, hslots, hearlier, hset, hparse⟩,
      ofEnvironment_of_fault hfault']

/-! ## Rendered configurations -/

/-- Whether a variable has a text that its slot parses as what a configuration shows. -/
def Renders (config : Config) (entry : String × String) (slot : Slot) : Prop :=
  entry.1 = slot.name ∧ slot.parse entry.2 = .ok (slot.get config)

/-- **The spelling of a configuration renders all of its slots.** -/
theorem renders_spelling {jitter : String} (hrange : config.InRange)
    (hnames : ∀ entry ∈ config.queues, QueueName entry.1)
    (hjitter : parseReal jitter = .ok config.retryJitter) :
    List.Forall₂ (Renders config) (config.spelling jitter) slots := by
  have hrow : ∀ {α : Type} {name field text : String} {parse : String → Except String α}
      {convert : Setting → Option α} {get : Config → α} {rest : List (String × String)}
      {more : List Slot},
      parse text = .ok (get config) → List.Forall₂ (Renders config) rest more →
        List.Forall₂ (Renders config) ((name, text) :: rest)
          (.plain name field parse convert get :: more) :=
    fun {α name field text parse convert get rest more} hparse hrest =>
      .cons ⟨rfl, congrArg (Except.mapError (ConfigProblem.badVariable name)) hparse⟩ hrest
  refine hrow (parseNat_toString hrange.workers) ?_
  refine hrow (parseNat_toString hrange.capacity) ?_
  refine hrow (parseNat_toString hrange.taskTime) ?_
  refine hrow (parseNat_toString hrange.budget) ?_
  refine hrow (parseNat_toString hrange.baseDelay) ?_
  refine hrow (parseNat_toString hrange.maxDelay) ?_
  refine hrow hjitter ?_
  refine hrow (parseNat_toString hrange.claims) ?_
  refine hrow (parseNat_toString hrange.polling) ?_
  refine hrow (parseNat_toString hrange.stopping) ?_
  refine hrow (parseNat_toString hrange.completed) ?_
  refine hrow (parseNat_toString hrange.deadLetters) ?_
  refine hrow rfl (hrow rfl (hrow (parseTruth_toString config.logJson) ?_))
  exact .cons ⟨rfl, parseQueues_queueList hrange.queues hnames hrange.weights⟩ .nil

/-- Every slot is rendered by a variable of the spelling. -/
lemma exists_rendering {spelled : List (String × String)}
    (h : List.Forall₂ (Renders config) spelled looked) (hslot : slot ∈ looked) :
    ∃ text, (slot.name, text) ∈ spelled ∧ slot.parse text = .ok (slot.get config) := by
  induction h with
  | nil => exact absurd hslot List.not_mem_nil
  | @cons entry first spelled looked hentry _ ih =>
    rcases List.mem_cons.mp hslot with rfl | hlater
    · exact ⟨entry.2, hentry.1 ▸ List.mem_cons_self, hentry.2⟩
    · obtain ⟨text, hmem, hparse⟩ := ih hlater
      exact ⟨text, List.mem_cons_of_mem _ hmem, hparse⟩

/-- The variables of a chosen part of the spelling stand for the mixtures of the configuration. -/
lemma candidate_iff_mixture {spelled : List (String × String)} {chosen : String → Bool}
    (hrenders : List.Forall₂ (Renders config) spelled slots)
    (hset : ∀ entry ∈ spelled,
      valueOf env entry.1 = if chosen entry.1 then some entry.2 else none) :
    Candidate env start made ↔ Mixture chosen config start made := by
  refine forall₂_congr fun slot hslot => ?_
  obtain ⟨text, hmem, hparse⟩ := exists_rendering hrenders hslot
  have hvalue := hset _ hmem
  rw [Shows, hvalue]
  cases chosen slot.name with
  | false => exact Iff.rfl
  | true =>
    show slot.parse text = .ok (slot.get made) ↔ slot.get made = slot.get config
    rw [hparse, Except.ok.injEq]
    exact eq_comm

lemma ofEnvironment_rendered {jitter : String} {chosen : String → Bool} (hrange : config.InRange)
    (hnames : ∀ entry ∈ config.queues, QueueName entry.1)
    (hjitter : parseReal jitter = .ok config.retryJitter)
    (hset : ∀ entry ∈ config.spelling jitter,
      valueOf env entry.1 = if chosen entry.1 then some entry.2 else none)
    (hsome : ∃ slot ∈ slots, chosen slot.name = true) :
    (∃! made, Mixture chosen config (standard processors) made) ∧
      ∀ made, Mixture chosen config (standard processors) made → made.validate = .ok () →
        ofEnvironment env processors = .ok (some made) := by
  have hrenders := renders_spelling hrange hnames hjitter
  have hparses : ∀ slot ∈ slots, Parses env slot := by
    intro slot hslot text htext
    obtain ⟨rendered, hmem, hparse⟩ := exists_rendering hrenders hslot
    have hvalue := (hset _ hmem).symm.trans htext
    cases hchosen : chosen slot.name with
    | false =>
      rw [hchosen] at hvalue
      cases hvalue
    | true =>
      rw [hchosen] at hvalue
      cases hvalue
      exact ⟨_, hparse⟩
  have hvariable : ∃ slot ∈ slots, valueOf env slot.name ≠ none := by
    obtain ⟨slot, hslot, hchosen⟩ := hsome
    obtain ⟨text, hmem, -⟩ := exists_rendering hrenders hslot
    refine ⟨slot, hslot, ?_⟩
    rw [hset _ hmem, hchosen]
    exact Option.some_ne_none text
  obtain ⟨found, -, hfound⟩ := exists_candidate hparses (standard processors)
  refine ⟨⟨found, (candidate_iff_mixture hrenders hset).mp hfound, ?_⟩, ?_⟩
  · intro other hother
    exact hfound.unique ((candidate_iff_mixture hrenders hset).mpr hother)
  · intro made hmade hvalid
    exact (((candidate_iff_mixture hrenders hset).mpr hmade).results hvariable).1 hvalid

/-- An environment that spells a whole configuration is that configuration. -/
lemma ofEnvironment_whole {jitter : String} (hvalid : config.validate = .ok ())
    (hrange : config.InRange) (hnames : ∀ entry ∈ config.queues, QueueName entry.1)
    (hjitter : parseReal jitter = .ok config.retryJitter)
    (hset : ∀ entry ∈ config.spelling jitter, valueOf env entry.1 = some entry.2) :
    ofEnvironment env processors = .ok (some config) := by
  have hall : Mixture (fun _ => true) config (standard processors) config := fun _ _ => rfl
  have hsome : ∃ slot ∈ slots, (fun _ : String => true) slot.name = true :=
    ⟨_, List.mem_cons_self, rfl⟩
  exact (ofEnvironment_rendered hrange hnames hjitter hset hsome).2 config hall hvalid

/-- **An environment that spells a configuration is that configuration**, if it is valid. -/
theorem ofEnvironment_spelled (hvalid : config.validate = .ok ()) (hrange : config.InRange)
    (hnames : ∀ entry ∈ config.queues, Listable entry.1) (hspells : Spells env config) :
    ofEnvironment env processors = .ok (some config) := by
  obtain ⟨jitter, hjitter, hset⟩ := hspells
  exact ofEnvironment_whole hvalid hrange (fun entry hentry => (hnames entry hentry).queueName)
    hjitter hset

/-! ## What the environment gives -/

lemma valueOf_eq_none_iff : valueOf env name = none ↔
    ∀ text, Table.get? (variableStem ++ name) env ≠ some (.text text) := by
  unfold valueOf
  cases Table.get? (variableStem ++ name) env with
  | none => simp
  | some raw => cases raw <;> simp [RawText.text?]

/-- What is made of an environment. -/
structure EnvironmentGives (env : Environment) (processors : Nat) : Prop where
  /-- It configures nothing just if no variable of a slot is set to a text. -/
  absent : ofEnvironment env processors = .ok none ↔
    ∀ slot ∈ slots, ∀ text, Table.get? (variableStem ++ slot.name) env ≠ some (.text text)
  /-- All variables that are set to texts parse, or there is a first one that does not. -/
  decided : (∀ slot ∈ slots, Parses env slot) ∨ ∃ problem, FaultIn env slots problem
  /-- If there is one that does not parse, the problem of the first one is the error. -/
  faulty : ∀ problem, FaultIn env slots problem →
    ofEnvironment env processors = .error (.config problem)
  /-- If all parse, there is exactly one candidate. -/
  unique : (∀ slot ∈ slots, Parses env slot) →
    ∃! made, Candidate env (standard processors) made
  /-- If a variable is set, the candidate is the result if it is valid, and else what is wrong with
  it is the error. -/
  candidate : (∃ slot ∈ slots, valueOf env slot.name ≠ none) →
    ∀ made, Candidate env (standard processors) made →
      (made.validate = .ok () → ofEnvironment env processors = .ok (some made)) ∧
        ∀ error, made.validate = .error error → ofEnvironment env processors = .error error
  /-- No other variable has any influence. -/
  others : ∀ env' : Environment,
    (∀ slot ∈ slots, valueOf env' slot.name = valueOf env slot.name) →
      ofEnvironment env' processors = ofEnvironment env processors
  /-- If some variables are set, and those to the spelling of a configuration, the result has the
  fields of the configuration there and the standard ones elsewhere, provided that this mixture is
  valid. -/
  rendered : ∀ (config : Config) (jitter : String) (chosen : String → Bool), config.InRange →
    (∀ entry ∈ config.queues, QueueName entry.1) → parseReal jitter = .ok config.retryJitter →
      (∀ entry ∈ config.spelling jitter,
        valueOf env entry.1 = if chosen entry.1 then some entry.2 else none) →
      (∃ slot ∈ slots, chosen slot.name = true) →
        (∃! made, Mixture chosen config (standard processors) made) ∧
          ∀ made, Mixture chosen config (standard processors) made → made.validate = .ok () →
            ofEnvironment env processors = .ok (some made)
  /-- If all of them are set to the spelling of a valid configuration, that is the result. -/
  whole : ∀ (config : Config) (jitter : String), config.validate = .ok () → config.InRange →
    (∀ entry ∈ config.queues, QueueName entry.1) → parseReal jitter = .ok config.retryJitter →
      (∀ entry ∈ config.spelling jitter, valueOf env entry.1 = some entry.2) →
        ofEnvironment env processors = .ok (some config)

/-- **Loading sets exactly what is set to a text**, whatever the environment is. -/
theorem environment_gives (env : Environment) (processors : Nat) :
    EnvironmentGives env processors where
  absent := ofEnvironment_eq_none_iff.trans (forall₂_congr fun _ _ => valueOf_eq_none_iff)
  decided := parses_or_fault env slots
  faulty _ := ofEnvironment_of_fault
  unique h := by
    obtain ⟨made, -, hmade⟩ := exists_candidate h (standard processors)
    exact ⟨made, hmade, fun _ hother => hmade.unique hother⟩
  candidate hset _ hmade := hmade.results hset
  others _ := ofEnvironment_congr
  rendered _ _ _ := ofEnvironment_rendered
  whole _ _ := ofEnvironment_whole

/-- Two variables are set; all other fields are standard. -/
example :
    ofEnvironment [("TASK_RELAY_POLL_INTERVAL_MS", "50"), ("TASK_RELAY_QUEUES", "mail=3,")] =
      .ok (some { standard with pollIntervalMs := 50, queues := [("mail", 3)] }) := by
  rfl

/-- The digit four and an octet that is part of no text. -/
lemma broken_four : ∃ n, .damaged n ∈ Utf8.decode [0x34, 0xFF] :=
  ⟨1, by decide +kernel⟩

/-- An environment in which the number of workers is set to octets of no text. -/
def damagedCount : Environment :=
  [("TASK_RELAY_WORKER_COUNT", .octets [0x34, 0xFF] broken_four)]

/-- **A variable is present and the environment configures nothing.** -/
theorem damaged_count_passed_over :
    (∃ slot ∈ slots, slot.name = "WORKER_COUNT") ∧
      Table.get? (variableStem ++ "WORKER_COUNT") damagedCount =
        some (.octets [0x34, 0xFF] broken_four) ∧
      ofEnvironment damagedCount = .ok none := by
  refine ⟨⟨_, List.mem_cons_self, rfl⟩, by rfl, by rfl⟩

end Config
end WorkQueue
