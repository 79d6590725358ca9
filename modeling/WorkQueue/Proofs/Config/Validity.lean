import Mathlib.Tactic.Lemma
import WorkQueue.Pool.Basic
import WorkQueue.Proofs.Table
import WorkQueue.Proofs.Time.Duration

/-!
# Valid configurations are usable

`validate` looks for the first rule that a configuration breaks, and so it accepts exactly those
that keep all of them (`validate_ok_iff`).  Two parts of the library look at a configuration once
more: a pool compares the time of a handler with the timeout of the broker, and the weights leave
out queues without weight.  Neither finds anything in a valid configuration whose numbers are in the
range of their fields (`usable_of_valid`).
-/

namespace WorkQueue
namespace Config

open WorkQueue.Text

variable {config : Config}

/-! ## Rules -/

/-- Whether a configuration keeps every rule. -/
structure Valid (config : Config) : Prop where
  workers : 0 < config.workerCount
  queues : config.queues ≠ []
  weights : ∀ entry ∈ config.queues, 0 < entry.2
  capacity : 0 < config.maxQueueSize
  taskTime : 0 < config.taskTimeoutSecs
  claims : config.taskTimeoutSecs < config.visibilityTimeoutSecs
  polling : 0 < config.pollIntervalMs
  delays : config.retryBaseDelayMs ≤ config.retryMaxDelayMs
  deadLetters : 0 < config.deadLetterHistory
  jitter : config.jitterInRange = true

/-- A rule is kept, and so are those behind it, if no problem is found from it on. -/
lemma rule_eq_none_iff {broken : Prop} [Decidable broken] {problem : ConfigProblem}
    {rest : Option ConfigProblem} :
    (if broken then some problem else rest) = none ↔ ¬ broken ∧ rest = none := by
  by_cases h : broken <;> simp [h]

lemma weightless_eq_none_iff : (config.queues.find? fun entry => entry.2 == 0) = none ↔
    ∀ entry ∈ config.queues, 0 < entry.2 := by
  simp only [List.find?_eq_none, beq_iff_eq, Nat.pos_iff_ne_zero, ne_eq]

lemma firstProblem_eq_none_iff : config.firstProblem = none ↔ config.Valid := by
  have hjitter : (if config.jitterInRange then none else some ConfigProblem.jitterRange) = none ↔
      config.jitterInRange = true := by
    cases config.jitterInRange <;> simp
  unfold firstProblem
  cases hfind : config.queues.find? fun entry => entry.2 == 0 with
  | some entry =>
    have hweightless : ¬ config.Valid := fun hvalid => by
      rw [weightless_eq_none_iff.mpr hvalid.weights] at hfind
      cases hfind
    simp only [rule_eq_none_iff, reduceCtorEq, and_false, hweightless]
  | none =>
    have hweights := weightless_eq_none_iff.mp hfind
    simp only [rule_eq_none_iff, hjitter, Nat.not_le, Nat.not_lt, List.isEmpty_iff,
      ← Nat.pos_iff_ne_zero, ← ne_eq]
    constructor
    · rintro ⟨workers, queues, capacity, taskTime, claims, polling, delays, deadLetters, jitter⟩
      exact ⟨workers, queues, hweights, capacity, taskTime, claims, polling, delays, deadLetters,
        jitter⟩
    · rintro ⟨workers, queues, -, capacity, taskTime, claims, polling, delays, deadLetters, jitter⟩
      exact ⟨workers, queues, capacity, taskTime, claims, polling, delays, deadLetters, jitter⟩

/-- **Validation accepts the configurations that keep every rule**, and no others. -/
theorem validate_ok_iff : config.validate = .ok () ↔ config.Valid := by
  rw [← firstProblem_eq_none_iff, validate]
  cases config.firstProblem <;> simp

/-! ## Use -/

/-- Whether a configuration can be used for a broker and a pool over it, and its queues are all
served. -/
structure Usable (config : Config) : Prop where
  valid : config.validate = .ok ()
  /-- A pool over the broker of the configuration is accepted, whatever its handlers are. -/
  pool : ∀ registry hook, ∃ pool,
    Pool.make config (Broker.empty (.ofConfig config)) registry hook = .ok pool
  /-- The queues are listed by name, and all of them are served with their weights. -/
  sorted : config.queues.Sorted
  served : config.queueWeights.entries = config.queues
  weights : ∀ entry ∈ config.queues, 0 < entry.2

/-- Whether the parts of a configuration that its loaders do not validate are in order. -/
structure Ordered (config : Config) : Prop where
  queues : config.queues.Sorted
  claims : config.visibilityTimeoutSecs < bound64

/-- Whether the values of a configuration are in the range of their fields, and its queues in the
order of their names. -/
structure InRange (config : Config) : Prop extends config.Ordered where
  workers : config.workerCount < bound64
  capacity : config.maxQueueSize < bound64
  taskTime : config.taskTimeoutSecs < bound64
  budget : config.defaultMaxRetry < bound32
  baseDelay : config.retryBaseDelayMs < bound64
  maxDelay : config.retryMaxDelayMs < bound64
  polling : config.pollIntervalMs < bound64
  stopping : config.shutdownTimeoutSecs < bound64
  completed : config.completedHistory < bound64
  deadLetters : config.deadLetterHistory < bound64
  weights : ∀ entry ∈ config.queues, entry.2 < bound32

/-- Timeouts in the range of their fields are lengths of time in the same order. -/
lemma taskTimeout_lt (hvalid : config.Valid) (hordered : config.Ordered) :
    ¬ config.visibilityTimeout ≤ config.taskTimeout := by
  have hclaims := hvalid.claims
  have hrange := hordered.claims
  have hnanos : ∀ n, n < bound64 → (Duration.ofSeconds n).nanos = n * nanosPerSecond := by
    intro n hn
    have hsmall : n * nanosPerSecond < bound64 * nanosPerSecond :=
      Nat.mul_lt_mul_of_pos_right hn (by decide)
    exact Duration.nanos_ofNanos hsmall
  change ¬ (Duration.ofSeconds _).nanos ≤ (Duration.ofSeconds _).nanos
  rw [hnanos _ hrange, hnanos _ (Nat.lt_trans hclaims hrange)]
  exact Nat.not_le.mpr (Nat.mul_lt_mul_of_pos_right hclaims (by decide))

lemma make_ok (hvalid : config.Valid) (hordered : config.Ordered) (registry : Registry)
    (hook : ErrorHook) :
    ∃ pool, Pool.make config (Broker.empty (.ofConfig config)) registry hook = .ok pool := by
  have htimeout : ¬ (Broker.empty (.ofConfig config)).limits.visibilityTimeout ≤
      config.taskTimeout := taskTimeout_lt hvalid hordered
  unfold Pool.make
  rw [validate_ok_iff.mpr hvalid, if_neg htimeout]
  exact ⟨_, rfl⟩

/-- The queues of a valid configuration are all served. -/
lemma entries_queueWeights (hvalid : config.Valid) : config.queueWeights.entries = config.queues :=
  List.filter_eq_self.mpr fun entry hentry => decide_eq_true (hvalid.weights entry hentry)

/-- A configuration that keeps every rule is usable. -/
theorem usable_of_valid (hvalid : config.Valid) (hordered : config.Ordered) : config.Usable where
  valid := validate_ok_iff.mpr hvalid
  pool := make_ok hvalid hordered
  sorted := hordered.queues
  served := entries_queueWeights hvalid
  weights := hvalid.weights

end Config
end WorkQueue
