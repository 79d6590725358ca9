import WorkQueue.Simulation.World

/-!
# Observers

An observer reads what a deployment noted, each time from where it stopped the time before.  Events
are read in two ways: as a log that forgets nothing, and as a channel that keeps only the last of
them for an observer that is late.
-/

namespace WorkQueue

/-- How much an observer has read of what a deployment noted. -/
structure Observer where
  events : Nat
  channel : Nat
  visits : Nat
  hookCalls : Nat

namespace Observer

/-- An observer that has read nothing. -/
def start : Observer := ⟨0, 0, 0, 0⟩

/-- What comes after the first `count` notes, oldest first; the notes are given newest first. -/
def unread {α : Type} (count : Nat) (notes : List α) : List α :=
  (notes.take (notes.length - count)).reverse

/-- The events that were not read, with their times. -/
def readEvents (o : Observer) (w : World) : List (TaskEvent × Nat) × Observer :=
  (unread o.events w.events, { o with events := w.events.length })

/-- How many events the channel has lost and how many it still holds. -/
def readChannel (o : Observer) (w : World) : (Nat × Nat) × Observer :=
  (Pool.backlog (w.events.length - o.channel), { o with channel := w.events.length })

/-- The noted deliveries that were not read. -/
def readVisits (o : Observer) (w : World) : List Visit × Observer :=
  (unread o.visits w.visits, { o with visits := w.visits.length })

/-- The noted failures that were not read. -/
def readHookCalls (o : Observer) (w : World) : List HookCall × Observer :=
  (unread o.hookCalls w.hookCalls, { o with hookCalls := w.hookCalls.length })

/-- An observer that turns to the channel of a new pool. -/
def skipChannel (o : Observer) (w : World) : Observer :=
  { o with channel := w.events.length }

end Observer

end WorkQueue
