import WorkQueue.Proofs.Broker.Envelope

/-!
# Taking a task in

A broker that accepts a task has one entry more afterwards, and nothing else of it has changed: no
other entry, no claim, no record of a finished task, and nothing that it shows under another id
(`Takes`).  That holds of every broker that is well-formed (`takes_of_enqueue`), and so of every
broker that was ever reached.  A broker that does not accept a task holds one of the same id, or the
queue of the task is full (`refusal_of_enqueue`).
-/

namespace WorkQueue

lemma QueueEntry.sublist_insert (entry : QueueEntry) (entries : List QueueEntry) :
    entries.Sublist (entry.insert entries) := by
  induction entries with
  | nil => exact List.nil_sublist _
  | cons other rest ih =>
    simp only [insert]
    split
    · exact List.sublist_cons_self entry _
    · exact ih.cons_cons other

lemma QueueEntry.find?_insert {p : QueueEntry → Bool} {entry : QueueEntry} (h : p entry = false)
    (entries : List QueueEntry) : (entry.insert entries).find? p = entries.find? p := by
  induction entries with
  | nil => simp [insert, h]
  | cons other rest ih =>
    simp only [insert]
    split
    · rw [List.find?_cons_of_neg (by simp [h])]
    · simp only [List.find?_cons, ih]

namespace Broker

variable {b after : Broker} {task : Task} {id : String} {now : Instant} {error : QueueError}

/-- What a broker shows under an id does not depend on a task of another id. -/
lemma get_push_of_ne (b : Broker) (eligibleAt : Instant) (h : task.id ≠ id) :
    (b.push task eligibleAt).get id = b.get id := by
  have hindex : Table.get? id (b.push task eligibleAt).index = Table.get? id b.index := by
    simp only [push, Table.get?_put, if_neg h]
  have hfind : ∀ queue, ((b.push task eligibleAt).entries queue).find? (fun entry =>
      entry.task.id == id) = (b.entries queue).find? fun entry => entry.task.id == id := by
    intro queue
    rw [entries_push]
    split
    · exact QueueEntry.find?_insert (by simpa using h) _
    · rfl
  have hqueued : (b.push task eligibleAt).queued? id = b.queued? id := by
    simp only [queued?, hindex, hfind]
  simp only [get, hqueued]
  rfl

/-- What a broker does that takes a task in: `task` is the envelope as it is stored. -/
structure Takes (before after : Broker) (task : Task) : Prop where
  /-- No task was held under its id. -/
  fresh : before.holds task.id = false
  /-- Its queue had room. -/
  room : before.size task.queue < before.limits.maxQueueSize
  /-- There is one entry more, and it is that of the task. -/
  entries : after.allEntries.Perm (⟨task, task.eligibleAt, before.sequence⟩ :: before.allEntries)
  /-- It is in its queue, among the entries that were there, which keep their order. -/
  queued : ⟨task, task.eligibleAt, before.sequence⟩ ∈ after.entries task.queue
  order : (before.entries task.queue).Sublist (after.entries task.queue)
  /-- The other queues are as they were. -/
  elsewhere : ∀ queue, task.queue ≠ queue → after.entries queue = before.entries queue
  /-- The task can be looked up, and what is shown under other ids is what was shown before. -/
  shown : after.get task.id = .ok task
  others : ∀ id, task.id ≠ id → after.get id = before.get id
  leases : after.leases = before.leases
  completed : after.completed = before.completed
  dead : after.dead = before.dead
  limits : after.limits = before.limits
  /-- The broker is well-formed, as it was. -/
  wellFormed : after.WellFormed

lemma WellFormed.push_of_free (hb : b.WellFormed) (hfree : b.holds task.id = false)
    (eligibleAt : Instant) : (b.push task eligibleAt).WellFormed := by
  refine hb.push fun hheld => ?_
  rw [hb.holds_iff.mpr hheld] at hfree
  cases hfree

lemma takes_push (hb : b.WellFormed) (hfresh : b.holds task.id = false)
    (hroom : b.size task.queue < b.limits.maxQueueSize) :
    Takes b (b.push task task.eligibleAt) task where
  fresh := hfresh
  room := hroom
  entries := allEntries_push hb.queues_sorted task task.eligibleAt
  queued := by
    rw [entries_push, if_pos rfl]
    exact (insert_perm _ _).mem_iff.mpr List.mem_cons_self
  order := by
    rw [entries_push, if_pos rfl]
    exact QueueEntry.sublist_insert _ _
  elsewhere queue hqueue := by rw [entries_push, if_neg hqueue]
  shown := get_of_entry (hb.push_of_free hfresh _) ((mem_push hb.queues_sorted).mpr (.inl rfl))
  others id hid := get_push_of_ne b task.eligibleAt hid
  leases := rfl
  completed := rfl
  dead := rfl
  limits := rfl
  wellFormed := hb.push_of_free hfresh _

/-- A task that is accepted is taken in, waiting in its queue. -/
lemma takes_of_enqueue (hb : b.WellFormed) (h : b.enqueue task now = .ok after) :
    Takes b after (task.markPending now) := by
  simp only [enqueue] at h
  split at h
  · cases h
  · next hfresh =>
    split at h
    · cases h
    · next hroom =>
      cases h
      exact takes_push hb (eq_false_of_ne_true hfresh) (Nat.lt_of_not_le hroom)

/-- Why a broker does not accept a task. -/
inductive Refuses (b : Broker) (task : Task) : Refusal → Prop
  | held (h : b.holds task.id = true) : Refuses b task (.alreadyQueued task.id)
  | full (hfree : b.holds task.id = false) (h : b.limits.maxQueueSize ≤ b.size task.queue) :
      Refuses b task (.queueFull task.queue (b.size task.queue))

lemma refusal_of_enqueue (h : b.enqueue task now = .error error) :
    ∃ refusal, error = .enqueue refusal ∧ Refuses b task refusal := by
  simp only [enqueue] at h
  split at h
  · next hheld =>
    cases h
    exact ⟨_, rfl, .held hheld⟩
  · next hfree =>
    split at h
    · next hfull =>
      cases h
      exact ⟨_, rfl, .full (eq_false_of_ne_true hfree) hfull⟩
    · cases h

/-- A broker with an entry more is another one. -/
lemma Takes.ne (h : Takes b after task) : after ≠ b := by
  rintro rfl
  have hlength := h.entries.length_eq
  rw [List.length_cons] at hlength
  omega

end Broker
end WorkQueue
