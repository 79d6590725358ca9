import WorkQueue.Proofs.Config.QueueList
import WorkQueue.Proofs.Config.Validity

/-!
# Configurations spelled in the environment

`Spells env config` says that all variables are set, each to a text of the value that it has in a
configuration.  The queues are a list of names and weights, which is read back if its names can
stand in such a list (`Listable`): a comma or an equals sign in a name would be taken for one of the
list, and blanks around it would be lost.  All of these texts parse to the values that they are
made of.
-/

namespace WorkQueue
namespace Config

open WorkQueue.Text

variable {config : Config} {env : Environment} {name : String} {queues : Table Nat}

/-! ## Lists of queues -/

/-- Whether the name of a queue can stand in a list of queues. -/
structure Listable (name : String) : Prop where
  nonempty : name.toList ≠ []
  comma : ',' ∉ name.toList
  equals : '=' ∉ name.toList
  trimmed : trim name.toList = name.toList

/-- An entry of a list of queues. -/
def queueEntry (entry : String × Nat) : List Char :=
  entry.1.toList ++ '=' :: Nat.toDigits 10 entry.2

/-- A list of queues. -/
def queueList (queues : Table Nat) : String :=
  String.ofList (Json.commas (queues.map queueEntry))

lemma Listable.queueName (h : Listable name) : QueueName name :=
  ⟨h.comma, h.equals, h.trimmed⟩

lemma listing_queueEntry (hweights : ∀ entry ∈ queues, entry.2 < bound32) :
    Listing (queues.map queueEntry) queues := by
  have hnone : Blank [] := fun _ hc => absurd hc List.not_mem_nil
  induction queues with
  | nil => exact .nil
  | cons entry rest ih =>
    obtain ⟨hweight, hrest⟩ := List.forall_mem_cons.mp hweights
    have hlisting : Listing (([] ++ entry.1.toList ++ [] ++
        '=' :: ([] ++ Nat.toDigits 10 entry.2 ++ [])) :: rest.map queueEntry) (entry :: rest) :=
      .entry hnone hnone hnone hnone (fieldNumeral_toDigits hweight) (ih hrest)
    rwa [List.nil_append, List.append_nil, List.nil_append, List.append_nil] at hlisting

/-- **A list of queues is read back** as the queues that are in it. -/
theorem parseQueues_queueList (hsorted : queues.Sorted)
    (hnames : ∀ entry ∈ queues, QueueName entry.1)
    (hweights : ∀ entry ∈ queues, entry.2 < bound32) :
    parseQueues (queueList queues) = .ok queues :=
  parseQueues_of_lists ⟨hsorted, hnames, _, queues, String.toList_ofList,
    listing_queueEntry hweights, List.Perm.refl _⟩

/-! ## Variables -/

/-- The variables of a configuration, each with a text of its value; the jitter is given a text of
its own, since there is more than one way to write it. -/
def spelling (config : Config) (jitter : String) : List (String × String) :=
  [("WORKER_COUNT", toString config.workerCount),
   ("MAX_QUEUE_SIZE", toString config.maxQueueSize),
   ("TASK_TIMEOUT_SECS", toString config.taskTimeoutSecs),
   ("DEFAULT_MAX_RETRY", toString config.defaultMaxRetry),
   ("RETRY_BASE_DELAY_MS", toString config.retryBaseDelayMs),
   ("RETRY_MAX_DELAY_MS", toString config.retryMaxDelayMs),
   ("RETRY_JITTER", jitter),
   ("VISIBILITY_TIMEOUT_SECS", toString config.visibilityTimeoutSecs),
   ("POLL_INTERVAL_MS", toString config.pollIntervalMs),
   ("SHUTDOWN_TIMEOUT_SECS", toString config.shutdownTimeoutSecs),
   ("COMPLETED_HISTORY", toString config.completedHistory),
   ("DEAD_LETTER_HISTORY", toString config.deadLetterHistory),
   ("VERIFY_EMAIL_BASE_URL", config.verifyEmailBaseUrl),
   ("LOG_LEVEL", config.logLevel),
   ("LOG_JSON", toString config.logJson),
   ("QUEUES", queueList config.queues)]

/-- Whether all variables are set to texts of the values of a configuration. -/
def Spells (env : Environment) (config : Config) : Prop :=
  ∃ jitter, parseReal jitter = .ok config.retryJitter ∧
    ∀ entry ∈ config.spelling jitter, valueOf env entry.1 = some entry.2

/-- An environment of just these variables. -/
def asEnvironment (config : Config) (jitter : String) : Environment :=
  (config.spelling jitter).map fun entry => (variableStem ++ entry.1, .text entry.2)

/-- Every configuration is spelled by such an environment. -/
lemma spells_variables {jitter : String} (h : parseReal jitter = .ok config.retryJitter) :
    Spells (config.asEnvironment jitter) config := by
  have hnodup : (Table.names (config.asEnvironment jitter)).Nodup := by
    simp only [Table.names, asEnvironment, spelling, List.map_cons, List.map_nil]
    decide +kernel
  refine ⟨jitter, h, fun entry hentry => ?_⟩
  have hset : Table.get? (variableStem ++ entry.1) (config.asEnvironment jitter) =
      some (.text entry.2) :=
    Table.get?_of_nodup hnodup (List.mem_map.mpr ⟨entry, hentry, rfl⟩)
  rw [valueOf, hset]
  rfl

lemma parseNat_toString {bound n : Nat} (h : n < bound) : parseNat bound (toString n) = .ok n := by
  have hread : readNat bound (Nat.toDigits 10 n) = .ok n :=
    readNat_numeral (isNumeral_toDigits n) Nat.toDigits_ne_nil h
  have htext : (toString n).toList = Nat.toDigits 10 n := by simp [Nat.repr_eq_ofList_toDigits]
  rw [parseNat, htext, hread]
  rfl

lemma parseTruth_toString (b : Bool) : parseTruth (toString b) = .ok b := by
  cases b <;> rfl

end Config
end WorkQueue
