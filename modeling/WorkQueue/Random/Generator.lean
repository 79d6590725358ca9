import WorkQueue.Text.Uuid

/-!
# Random words

A generator of pseudo-random words: a counter that moves by a fixed odd step, whose value is mixed
by shifts and multiplications.  Ids, secrets, jitter and the choice among queues draw from it.
-/

namespace WorkQueue

/-- The state of a generator. -/
structure Generator where
  state : UInt64
  deriving DecidableEq

namespace Generator

/-- A generator with a seed. -/
def ofSeed (seed : UInt64) : Generator := ⟨seed⟩

/-- The bits of a counter mixed. -/
def mix (z : UInt64) : UInt64 :=
  let z := (z ^^^ (z >>> 30)) * 0xBF58476D1CE4E5B9
  let z := (z ^^^ (z >>> 27)) * 0x94D049BB133111EB
  z ^^^ (z >>> 31)

/-- The next word. -/
def next (g : Generator) : UInt64 × Generator :=
  let state := g.state + 0x9E3779B97F4A7C15
  (mix state, ⟨state⟩)

/-- The next `count` words. -/
def take : Nat → Generator → List UInt64 × Generator
  | 0, g => ([], g)
  | count + 1, g =>
    let (word, g) := g.next
    let (rest, g) := take count g
    (word :: rest, g)

/-- The next `count` words of 32 bits. -/
def halves (count : Nat) (g : Generator) : List UInt32 × Generator :=
  let (words, g) := g.take count
  (words.map (·.toUInt32), g)

/-- A number below `bound`, if that is not zero. -/
def below (bound : Nat) (g : Generator) : Nat × Generator :=
  let (word, g) := g.next
  (word.toNat * bound / Nat.pow 2 64, g)

/-- The next random identifier. -/
def uuid (g : Generator) : String × Generator :=
  let (high, g) := g.next
  let (low, g) := g.next
  (Text.Uuid.ofWords high low, g)

/-- The letters and digits of secrets. -/
def alphanumerics : List Char :=
  "ABCDEFGHIJKLMNOPQRSTUVWXYZabcdefghijklmnopqrstuvwxyz0123456789".toList

/-- The letter or digit that a word stands for. -/
def alphanumeric (word : UInt64) : Char :=
  alphanumerics.getD (word.toNat % 62) 'A'

/-- A secret of `length` letters and digits. -/
def secret (length : Nat) (g : Generator) : String × Generator :=
  let (words, g) := g.take length
  (String.ofList (words.map alphanumeric), g)

end Generator

end WorkQueue
