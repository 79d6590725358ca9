import Mathlib.Tactic.Lemma
import WorkQueue.Queue.Weights

/-!
# What is chosen among the queues

`QueueWeights.pick` chooses among the served queues that have work.  Whatever the random words are,
the choice is a served queue with work (`pick_eq_some`), and there is one as soon as any served
queue has work (`pick_eq_none_iff`).  The reason is that the point which `sample` draws lies below
the sum of the weights (`sample_lt`), so that it falls on the stretch of one of the candidates
(`atPoint_of_lt`).
-/

namespace WorkQueue
namespace QueueWeights

variable {weights : QueueWeights} {hasWork : String → Bool} {words : List UInt32}
  {entries : List (String × Nat)} {queue : String}

/-! ## The candidates -/

lemma mem_candidates {entry : String × Nat} :
    entry ∈ weights.candidates hasWork ↔ entry ∈ weights.entries ∧ hasWork entry.1 = true := by
  simp [candidates]

lemma served_of_mem_candidates {weight : Nat} (h : (queue, weight) ∈ weights.candidates hasWork) :
    queue ∈ weights.names ∧ hasWork queue = true := by
  obtain ⟨hentry, hwork⟩ := mem_candidates.mp h
  exact ⟨List.mem_map.mpr ⟨_, hentry, rfl⟩, hwork⟩

lemma candidates_eq_nil_iff :
    weights.candidates hasWork = [] ↔ ∀ queue ∈ weights.names, hasWork queue = false := by
  simp only [candidates, List.filter_eq_nil_iff, names, List.mem_map, forall_exists_index, and_imp,
    Bool.not_eq_true]
  constructor
  · rintro h _ entry hentry rfl
    exact h entry hentry
  · exact fun h entry hentry => h entry.1 entry hentry rfl

lemma le_total {entry : String × Nat} (h : entry ∈ entries) : entry.2 ≤ total entries := by
  induction entries with
  | nil => cases h
  | cons first rest ih =>
    simp only [total]
    rcases List.mem_cons.mp h with rfl | h
    · exact Nat.le_add_right _ _
    · exact Nat.le_trans (ih h) (Nat.le_add_left _ _)

lemma total_pos {entry : String × Nat} (h : entry ∈ weights.candidates hasWork) :
    0 < total (weights.candidates hasWork) :=
  Nat.lt_of_lt_of_le (weights.positive entry (mem_candidates.mp h).1) (le_total h)

/-! ## The point -/

/-- A point that is drawn lies below the sum of the weights. -/
lemma sample_lt {total : Nat} (h : 0 < total) (words : List UInt32) :
    (sample total words).1 < total := by
  induction words with
  | nil => exact h
  | cons word rest ih =>
    simp only [sample]
    split
    · have hword : word.toNat < Text.bound32 := word.toNat_lt
      have hproduct : word.toNat * total < Text.bound32 * total :=
        Nat.mul_lt_mul_of_pos_right hword h
      exact Nat.div_lt_of_lt_mul hproduct
    · exact ih

/-- A point below the sum of the weights falls on the stretch of one of the queues. -/
lemma atPoint_of_lt {point : Nat} (h : point < total entries) :
    ∃ name weight, (name, weight) ∈ entries ∧ atPoint entries point = some name := by
  induction entries generalizing point with
  | nil => cases h
  | cons first rest ih =>
    obtain ⟨name, weight⟩ := first
    simp only [total] at h
    by_cases hpoint : point < weight
    · exact ⟨name, weight, List.mem_cons_self, by simp [atPoint, hpoint]⟩
    · have hrest : point - weight < total rest := by omega
      obtain ⟨other, otherWeight, hmem, hat⟩ := ih hrest
      exact ⟨other, otherWeight, List.mem_cons_of_mem _ hmem, by simp [atPoint, hpoint, hat]⟩

/-! ## The choice -/

/-- There is a choice among candidates, and it is one of them. -/
lemma pick_of_candidates {entry : String × Nat} (h : entry ∈ weights.candidates hasWork)
    (words : List UInt32) :
    ∃ name weight, (name, weight) ∈ weights.candidates hasWork ∧
      (weights.pick hasWork words).1 = some name := by
  have hpos := total_pos h
  unfold pick
  split
  · next hnone => simp [hnone] at h
  · next name weight hone => exact ⟨name, weight, by simp [hone], rfl⟩
  · exact atPoint_of_lt (sample_lt hpos words)

/-- No queue is chosen exactly if no served queue has work. -/
theorem pick_eq_none_iff :
    (weights.pick hasWork words).1 = none ↔ ∀ queue ∈ weights.names, hasWork queue = false := by
  rw [← candidates_eq_nil_iff]
  constructor
  · intro hnone
    rw [List.eq_nil_iff_forall_not_mem]
    intro entry hentry
    obtain ⟨name, -, -, hsome⟩ := pick_of_candidates hentry words
    cases hnone.symm.trans hsome
  · intro hnil
    simp [pick, hnil]

/-- A queue that is chosen is served and has work. -/
theorem pick_eq_some (h : (weights.pick hasWork words).1 = some queue) :
    queue ∈ weights.names ∧ hasWork queue = true := by
  cases hcandidates : weights.candidates hasWork with
  | nil => simp [pick, hcandidates] at h
  | cons entry rest =>
    obtain ⟨name, weight, hmem, hsome⟩ :=
      pick_of_candidates (hcandidates ▸ List.mem_cons_self) words
    cases h.symm.trans hsome
    exact served_of_mem_candidates hmem

end QueueWeights
end WorkQueue
