import WorkQueue.Text.Numeral

/-!
# Weighted choice of a queue

A claim takes its task from a queue chosen at random among those that have work, each in proportion
to its weight.  The choice uses random words of 32 bits: the high half of the product of a word and
the total weight is a point on the weights laid end to end.  Words whose product has a low half
beyond the last whole multiple are passed over, so that every queue has exactly its share.
-/

namespace WorkQueue

/-- Queues with positive weights, in the order of configuration. -/
structure QueueWeights where
  entries : List (String × Nat)
  positive : ∀ entry ∈ entries, 0 < entry.2

namespace QueueWeights

/-- The weights of a list of queues; a queue of weight zero is not served. -/
def ofList (entries : List (String × Nat)) : QueueWeights where
  entries := entries.filter fun entry => decide (0 < entry.2)
  positive entry h := by simpa using (List.mem_filter.mp h).2

/-- One queue alone. -/
def single (name : String) : QueueWeights :=
  ofList [(name, 1)]

/-- The served queues. -/
def names (weights : QueueWeights) : List String :=
  weights.entries.map (·.1)

/-- Whether no queue is served. -/
def isEmpty (weights : QueueWeights) : Bool :=
  weights.entries.isEmpty

/-- The weight of a queue, if it is served. -/
def weightOf? (weights : QueueWeights) (name : String) : Option Nat :=
  (weights.entries.find? fun entry => entry.1 == name).map (·.2)

/-! ## The choice -/

/-- The sum of the weights of a list of queues. -/
def total : List (String × Nat) → Nat
  | [] => 0
  | (_, weight) :: rest => weight + total rest

/-- The greatest low half of a product that is not passed over, for a total weight. -/
def zone (total : Nat) : Nat :=
  Text.bound32 - 1 - (Text.bound32 - total) % total

/-- A point below `total`, and the words that are left.  When the words run out they are zeros, and
zero is never passed over. -/
def sample (total : Nat) : List UInt32 → Nat × List UInt32
  | [] => (0, [])
  | word :: rest =>
    let product := word.toNat * total
    if product % Text.bound32 ≤ zone total then (product / Text.bound32, rest)
    else sample total rest

/-- The queue on whose stretch of the weights a point lies. -/
def atPoint : List (String × Nat) → Nat → Option String
  | [], _ => none
  | (name, weight) :: rest, point =>
    if point < weight then some name else atPoint rest (point - weight)

/-- The served queues that have work. -/
def candidates (weights : QueueWeights) (hasWork : String → Bool) : List (String × Nat) :=
  weights.entries.filter fun entry => hasWork entry.1

/-- Chooses a queue among those that have work, and says which words are left.  Without a choice, or
with only one, no word is used. -/
def pick (weights : QueueWeights) (hasWork : String → Bool) (words : List UInt32) :
    Option String × List UInt32 :=
  match weights.candidates hasWork with
  | [] => (none, words)
  | [(name, _)] => (some name, words)
  | several =>
    let (point, rest) := sample (total several) words
    (atPoint several point, rest)

end QueueWeights

end WorkQueue
