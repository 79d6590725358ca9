import WorkQueue.Proofs.Broker.Order
import WorkQueue.Proofs.Broker.Withheld

/-!
# No overtaking within a queue

A claim hands out the first entry of a queue, and entries leave a queue in no other way.  So the
order of two entries of one queue is settled when the second of them arrives: `Ahead` says that one
entry comes before another, and it survives every call until the first of the two is handed out
(`Transition.ahead`).  That the return of lapsed claims puts entries between the others does not
matter, nor does anything that happens on other queues.

What remains is to see where an entry arrives.  It gets the last number, and so it comes behind
every entry whose time is not later than its own (`ahead_push`).  The four ways of putting a task
into its queue differ in the time that they choose, and `Puts` lists those under which the new entry
is behind everything that is due at that moment.

The main statement, `claims_in_turn`, says both of whole runs.
-/

namespace WorkQueue
namespace Broker

variable {b next : Broker} {task : Task} {entry first second : QueueEntry}
  {queue early late : String} {now eligibleAt : Instant} {call : Call} {answer : Answer}

/-! ## Who comes first in a history -/

/-- Whether an exchange is a claim that returned a task with an id. -/
def Exchange.Returns (exchange : Exchange) (id : String) : Prop :=
  ∃ task, exchange.delivered? = some task ∧ task.id = id

/-- Whether the claims of a history return one task before they return another: none returns the
second that has no claim before it that returned the first. -/
def History.Precedes (history : History) (early late : String) : Prop :=
  ∀ before exchange after, history = before ++ exchange :: after → exchange.Returns late →
    ∃ earlier ∈ before, earlier.Returns early

lemma precedes_nil : History.Precedes [] early late := by
  intro before exchange after h
  simp at h

lemma precedes_cons {exchange : Exchange} {history : History} (hlate : ¬ exchange.Returns late)
    (h : exchange.Returns early ∨ History.Precedes history early late) :
    History.Precedes (exchange :: history) early late := by
  intro before other after hhistory hother
  cases before with
  | nil =>
    obtain ⟨rfl, -⟩ := List.cons.inj hhistory
    exact absurd hother hlate
  | cons head before =>
    obtain ⟨rfl, htail⟩ := List.cons.inj hhistory
    rcases h with hearly | hprecedes
    · exact ⟨exchange, List.mem_cons_self, hearly⟩
    · obtain ⟨earlier, hmem, hearly⟩ := hprecedes before other after htail hother
      exact ⟨earlier, List.mem_cons_of_mem _ hmem, hearly⟩

lemma History.Precedes.tail {exchange : Exchange} {history : History}
    (h : History.Precedes (exchange :: history) early late) (hearly : ¬ exchange.Returns early) :
    history.Precedes early late := by
  intro before other after hhistory hother
  obtain ⟨earlier, hmem, hreturns⟩ :=
    h (exchange :: before) other after (by rw [hhistory, List.cons_append]) hother
  rcases List.mem_cons.mp hmem with rfl | hmem
  · exact absurd hreturns hearly
  · exact ⟨earlier, hmem, hreturns⟩

lemma not_returns_of_delivered_none {exchange : Exchange} (h : exchange.delivered? = none)
    (id : String) : ¬ exchange.Returns id := by
  rintro ⟨task, htask, -⟩
  rw [h] at htask
  cases htask

/-! ## Who comes first in a queue -/

/-- Whether two entries wait in one queue, the first of them before the second. -/
structure Ahead (b : Broker) (first second : QueueEntry) : Prop where
  first_mem : first ∈ b.allEntries
  second_mem : second ∈ b.allEntries
  queue_eq : first.task.queue = second.task.queue
  before : first.before second = true

namespace Ahead

lemma of_subset (h : b.Ahead first second)
    (hsubset : ∀ entry ∈ b.allEntries, entry ∈ next.allEntries) : next.Ahead first second where
  first_mem := hsubset first h.first_mem
  second_mem := hsubset second h.second_mem
  queue_eq := h.queue_eq
  before := h.before

lemma requeue (h : b.Ahead first second) (hb : b.WellFormed) (id : String) (task : Task)
    (eligibleAt : Instant) : ((b.dropLease id).push task eligibleAt).Ahead first second :=
  h.of_subset fun _ hentry => (mem_push (hb.dropLease id).queues_sorted).mpr (.inr hentry)

lemma recover (h : b.Ahead first second) (hb : b.WellFormed) (order : ReturnOrder)
    (now : Instant) : (b.recover order now).Ahead first second :=
  h.of_subset fun _ hentry => hb.mem_recover order now hentry

/-- The second of two entries is not the first of its queue. -/
lemma second_ne (h : b.Ahead first second) (hb : b.WellFormed) (hordered : b.Ordered)
    {rest : List QueueEntry} (hqueue : b.entries queue = entry :: rest) : second ≠ entry := by
  rintro rfl
  have hname : second.task.queue = queue := hb.entry_queue (hqueue ▸ List.mem_cons_self)
  have hfirst := hb.mem_entries h.first_mem
  rw [h.queue_eq, hname, hqueue] at hfirst
  have hsorted := hordered.sorted queue
  rw [hqueue] at hsorted
  have hbefore : second.before first = true := by
    rcases List.mem_cons.mp hfirst with rfl | hrest
    · exact absurd h.before (QueueEntry.not_before_self _)
    · exact (List.pairwise_cons.mp hsorted).1 first hrest
  exact first.not_before_self (QueueEntry.before_trans h.before hbefore)

/-- Of two entries that wait in one queue, the first is handed out, or both wait on. -/
lemma handOver (h : b.Ahead first second) (hb : b.WellFormed) (hordered : b.Ordered)
    {rest : List QueueEntry} (hqueue : b.entries queue = entry :: rest) (now : Instant) :
    second.task.id ≠ entry.task.id ∧
      (first = entry ∨ (b.handOver queue entry rest now).Ahead first second) := by
  have hentry := hb.mem_of_entries hqueue
  have hsecond := h.second_ne hb hordered hqueue
  refine ⟨fun hid => hsecond (hb.entry_inj h.second_mem hentry hid), ?_⟩
  have hleft : ∀ other ∈ b.allEntries, other ≠ entry →
      other ∈ (b.handOver queue entry rest now).allEntries := fun other hother hne =>
    ((mem_handOver hb.queues_sorted hqueue).mp hother).resolve_left hne
  by_cases hfirst : first = entry
  · exact .inl hfirst
  · exact .inr ⟨hleft first h.first_mem hfirst, hleft second h.second_mem hsecond, h.queue_eq,
      h.before⟩

end Ahead

/-- A task that is put into its queue comes behind every entry whose time is not later. -/
lemma ahead_push (hb : b.WellFormed) (hordered : b.Ordered) (hfirst : first ∈ b.allEntries)
    (hqueue : first.task.queue = task.queue) (htime : first.eligibleAt ≤ eligibleAt) :
    (b.push task eligibleAt).Ahead first ⟨task, eligibleAt, b.sequence⟩ where
  first_mem := (mem_push hb.queues_sorted).mpr (.inr hfirst)
  second_mem := (mem_push hb.queues_sorted).mpr (.inl rfl)
  queue_eq := hqueue
  before := by
    have hsequence := hordered.sequence_lt first hfirst
    change first.eligibleAt.rank ≤ eligibleAt.rank at htime
    rw [QueueEntry.before_iff]
    change first.eligibleAt.rank < eligibleAt.rank ∨
      first.eligibleAt.rank = eligibleAt.rank ∧ first.sequence < b.sequence
    omega

/-! ## Calls -/

namespace Transition

/-- The first entry of a queue that a claim finds once lapsed claims are back is handed out before
all that come behind it. -/
lemma ahead_of_recover {order : ReturnOrder} {weights : QueueWeights} {words : List UInt32}
    (h : Transition b (.claim order weights words now) answer next) (hb : b.WellFormed)
    (hordered : b.Ordered) (hahead : (b.recover order now).Ahead first second) :
    ¬ Exchange.Returns ⟨.claim order weights words now, answer⟩ second.task.id ∧
      (Exchange.Returns ⟨.claim order weights words now, answer⟩ first.task.id ∨
        next.Ahead first second) := by
  cases h with
  | unserved => exact ⟨not_returns_of_delivered_none rfl _, .inr hahead⟩
  | claimed hfirst =>
    obtain ⟨hsecond, hleft⟩ :=
      hahead.handOver (hb.recover order now) (hordered.recover hb order now) hfirst now
    constructor
    · rintro ⟨task, htask, hid⟩
      cases htask
      exact hsecond hid.symm
    · rcases hleft with rfl | hahead
      · exact .inl ⟨_, rfl, rfl⟩
      · exact .inr hahead
  | disowned isReport => cases isReport

/-- Of two tasks that wait in one queue, no call returns the second, and a call that does not
return the first leaves both in their order. -/
lemma ahead (h : Transition b call answer next) (hb : b.WellFormed) (hordered : b.Ordered)
    (hahead : b.Ahead first second) :
    ¬ Exchange.Returns ⟨call, answer⟩ second.task.id ∧
      (Exchange.Returns ⟨call, answer⟩ first.task.id ∨ next.Ahead first second) := by
  by_cases hclaim : ∃ order weights words now, call = .claim order weights words now
  · obtain ⟨order, weights, words, now, rfl⟩ := hclaim
    exact h.ahead_of_recover hb hordered (hahead.recover hb order now)
  · have hnone : Exchange.delivered? ⟨call, answer⟩ = none := by
      cases call with
      | claim order weights words now => exact absurd ⟨order, weights, words, now, rfl⟩ hclaim
      | _ => rfl
    refine ⟨not_returns_of_delivered_none hnone _, .inr ?_⟩
    cases h with
    | turnedAway => exact hahead
    | enqueued =>
      exact hahead.of_subset fun _ hentry => (mem_push hb.queues_sorted).mpr (.inr hentry)
    | unserved | claimed => exact absurd ⟨_, _, _, _, rfl⟩ hclaim
    | disowned => exact hahead
    | acked | crashed | buried => exact hahead.of_subset fun _ hentry => hentry
    | retried | released => exact hahead.requeue hb _ _ _

/-- An entry waits until a claim returns it. -/
lemma mem_of_not_returns (h : Transition b call answer next) (hb : b.WellFormed)
    (hentry : entry ∈ b.allEntries) (hother : ¬ Exchange.Returns ⟨call, answer⟩ entry.task.id) :
    entry ∈ next.allEntries := by
  cases h with
  | turnedAway => exact hentry
  | enqueued => exact (mem_push hb.queues_sorted).mpr (.inr hentry)
  | unserved => exact hb.mem_recover _ _ hentry
  | @claimed order _ _ now _ head _ hfirst =>
    have hrecovered := hb.recover order now
    rcases (mem_handOver hrecovered.queues_sorted hfirst).mp
      (hb.mem_recover order now hentry) with rfl | hleft
    · exact absurd ⟨_, rfl, rfl⟩ hother
    · exact hleft
  | disowned => exact hentry
  | acked | crashed | buried => exact hentry
  | retried | released => exact (mem_push (hb.dropLease _).queues_sorted).mpr (.inr hentry)

end Transition

/-! ## Runs -/

namespace Trace

/-- Of two tasks that wait in one queue, the first is returned first, whatever happens. -/
lemma precedes_of_ahead (calls : List Call) (hb : b.WellFormed) (hordered : b.Ordered)
    (h : b.Ahead first second) :
    (onward b calls).history.Precedes first.task.id second.task.id := by
  induction calls generalizing b with
  | nil => exact precedes_nil
  | cons call rest ih =>
    have htransition := serve_transition b call
    obtain ⟨hlate, hearly⟩ := htransition.ahead hb hordered h
    rw [onward_cons]
    refine precedes_cons hlate (hearly.imp_right fun hahead => ?_)
    exact ih (htransition.wellFormed hb) (htransition.ordered hb hordered) hahead

/-- An entry waits until a claim returns it, or to the end of the run. -/
lemma mem_of_not_returns (calls : List Call) (hb : b.WellFormed) (hentry : entry ∈ b.allEntries)
    (hother : ∀ exchange ∈ (onward b calls).history, ¬ exchange.Returns entry.task.id) :
    entry ∈ (onward b calls).broker.allEntries := by
  induction calls generalizing b with
  | nil => exact hentry
  | cons call rest ih =>
    have htransition := serve_transition b call
    rw [onward_cons] at hother ⊢
    have hnext := htransition.mem_of_not_returns hb hentry (hother _ List.mem_cons_self)
    exact ih (htransition.wellFormed hb) hnext fun exchange hexchange =>
      hother exchange (List.mem_cons_of_mem _ hexchange)

end Trace

/-! ## Tasks that go behind what is due -/

/-- The ways in which a call puts a task into its queue behind all that is due there: the call, the
broker at the moment before, and the task.  A retry that cannot be counted puts nothing back.  Any
other waits for a time after that of the clock, but no time is later than the last one, so the clock
must not be beyond it.  One claim can put back several tasks, one after the other. -/
inductive Puts (b : Broker) : Call → Broker → Task → Prop
  | enqueued {task : Task} {now : Instant}
      (accepted : (b.serve (.enqueue task now)).1 = .ok none) (late : now ≤ task.eligibleAt) :
      Puts b (.enqueue task now) b task
  | retried {report : Task} {delay : Duration} {error : String} {now : Instant} {lease : Lease}
      (owns : b.Owns report lease) (counted : lease.task.overflows b.limits.overflow = false)
      (clock : now ≤ Instant.latest) :
      Puts b (.retry report delay error now) b lease.task
  | released {report : Task} {now : Instant} {lease : Lease} (owns : b.Owns report lease) :
      Puts b (.release report now) b lease.task
  | lapsed {order : ReturnOrder} {weights : QueueWeights} {words : List UInt32} {now : Instant}
      {earlier later : List Lease} {lease : Lease}
      (arranged : order.arrange (b.lapsed now) = earlier ++ lease :: later) :
      Puts b (.claim order weights words now) (earlier.foldl (giveBack now) b) lease.task

lemma Puts.wellFormed {moment : Broker} (h : b.Puts call moment task) (hb : b.WellFormed) :
    moment.WellFormed := by
  cases h with
  | enqueued | retried | released => exact hb
  | @lapsed order _ _ now _ _ _ arranged =>
    have hplace := hb.inPlace_lapsed order now
    rw [arranged] at hplace
    exact (hb.giveBack_induction (motive := fun _ => True) hplace trivial
      fun _ _ _ _ _ _ => trivial).1

/-- The task of a lapsed claim goes back behind what waits in its queue at that moment and is due,
tasks of other lapsed claims among it. -/
lemma ahead_recover {order : ReturnOrder} {earlier later : List Lease} {lease : Lease}
    (hb : b.WellFormed) (hordered : b.Ordered)
    (harranged : order.arrange (b.lapsed now) = earlier ++ lease :: later)
    (hfirst : first ∈ (earlier.foldl (giveBack now) b).allEntries)
    (hqueue : first.task.queue = lease.task.queue) (hdue : first.eligibleAt ≤ now) :
    ∃ second, second.task.id = lease.task.id ∧ (b.recover order now).Ahead first second := by
  have hplace := hb.inPlace_lapsed order now
  rw [harranged] at hplace
  have hsplit : b.recover order now =
      later.foldl (giveBack now) (giveBack now (earlier.foldl (giveBack now) b) lease) := by
    rw [recover, harranged, List.foldl_append, List.foldl_cons]
  obtain ⟨hmoment, hmomentOrdered, hrest⟩ := hb.giveBack_induction (motive := Ordered) hplace
    hordered fun _ other hnext ih _ _ =>
      ih.requeue hnext other.task.id (other.task.markPending now) now
  generalize earlier.foldl (giveBack now) b = moment at *
  obtain ⟨hget, -⟩ := hrest.place lease List.mem_cons_self
  have hdrop := hmoment.dropLease lease.task.id
  have hdropOrdered : (moment.dropLease lease.task.id).Ordered :=
    hmomentOrdered.of_queues_eq rfl rfl
  have hahead : (giveBack now moment lease).Ahead first
      ⟨lease.task.markPending now, now, moment.sequence⟩ :=
    ahead_push hdrop hdropOrdered hfirst hqueue hdue
  have hgiven : (giveBack now moment lease).WellFormed :=
    hmoment.requeue (lease.task.markPending now) now hget rfl
  refine ⟨⟨lease.task.markPending now, now, moment.sequence⟩, rfl, ?_⟩
  have hlater := hrest.giveBack
  rw [← List.append_nil later] at hlater
  rw [hsplit]
  have hkeep := hgiven.giveBack_induction
    (motive := fun next => next.Ahead first ⟨lease.task.markPending now, now, moment.sequence⟩)
    hlater hahead fun _ other hnext ih _ _ =>
      ih.requeue hnext other.task.id (other.task.markPending now) now
  exact hkeep.2.1

/-- A call that puts a task into its queue does not return it, and it returns a task that was due
there at that moment or leaves the two in this order. -/
lemma ahead_of_puts (hb : b.WellFormed) (hordered : b.Ordered) {moment : Broker}
    (hputs : b.Puts call moment task) (hfirst : first ∈ moment.allEntries)
    (hqueue : first.task.queue = task.queue) (hdue : first.eligibleAt ≤ call.reading) :
    ∃ second : QueueEntry, second.task.id = task.id ∧
      ¬ Exchange.Returns ⟨call, (b.serve call).1⟩ task.id ∧
      (Exchange.Returns ⟨call, (b.serve call).1⟩ first.task.id ∨
        (b.serve call).2.Ahead first second) := by
  have htransition := serve_transition b call
  have hdrop : ∀ id, (b.dropLease id).WellFormed ∧ (b.dropLease id).Ordered := fun id =>
    ⟨hb.dropLease id, hordered.of_queues_eq rfl rfl⟩
  cases hputs with
  | enqueued accepted late =>
    rw [accepted] at htransition ⊢
    generalize (b.serve _).2 = next at htransition ⊢
    cases htransition with
    | enqueued =>
      exact ⟨_, rfl, not_returns_of_delivered_none rfl _,
        .inr (ahead_push hb hordered hfirst hqueue (Instant.le_trans hdue late))⟩
  | retried owns counted clock =>
    generalize b.serve _ = result at htransition ⊢
    obtain ⟨answer, next⟩ := result
    cases htransition with
    | disowned isReport foreign => cases isReport; exact absurd owns (foreign _)
    | crashed owns' uncounted =>
      cases owns.1.symm.trans owns'.1
      exact absurd (counted.symm.trans uncounted) Bool.false_ne_true
    | retried owns' =>
      cases owns.1.symm.trans owns'.1
      have htime := Instant.le_after (Instant.le_trans hdue clock) hdue
      exact ⟨_, rfl, not_returns_of_delivered_none rfl _,
        .inr (ahead_push (hdrop _).1 (hdrop _).2 hfirst hqueue (htime _))⟩
  | released owns =>
    generalize b.serve _ = result at htransition ⊢
    obtain ⟨answer, next⟩ := result
    cases htransition with
    | disowned isReport foreign => cases isReport; exact absurd owns (foreign _)
    | released owns' =>
      cases owns.1.symm.trans owns'.1
      exact ⟨_, rfl, not_returns_of_delivered_none rfl _,
        .inr (ahead_push (hdrop _).1 (hdrop _).2 hfirst hqueue hdue)⟩
  | lapsed arranged =>
    obtain ⟨second, hid, hahead⟩ := ahead_recover hb hordered arranged hfirst hqueue hdue
    obtain ⟨hlate, hearly⟩ := htransition.ahead_of_recover hb hordered hahead
    exact ⟨second, hid, hid ▸ hlate, hearly⟩

/-! ## Claims in turn -/

/-- What it means that the claims of a run take the tasks of each queue in turn. -/
structure InTurn (limits : BrokerLimits) (calls : List Call) : Prop where
  /-- A claim returns the entry of its queue that comes first by time and, among equal times, by
  arrival.  Lapsed claims are back by then. -/
  least : ∀ earlier order weights words now later task,
    calls = earlier ++ .claim order weights words now :: later →
      ((Trace.run limits earlier).broker.serve (.claim order weights words now)).1 =
          .ok (some task) →
        ∃ entry ∈ ((Trace.run limits earlier).broker.recover order now).entries task.queue,
          task = ((Trace.run limits earlier).broker.recover order now).delivery entry now ∧
            ∀ other ∈ ((Trace.run limits earlier).broker.recover order now).entries task.queue,
              other ≠ entry → entry.eligibleAt < other.eligibleAt ∨
                entry.eligibleAt = other.eligibleAt ∧ entry.sequence < other.sequence
  /-- A task that is put into its queue by a retry, a release, the return of a lapsed claim or a
  submission that does not name an earlier time goes behind each task that waits there at that
  moment and is due: no claim returns it unless one has returned that task. -/
  behind : ∀ earlier call later moment task,
    calls = earlier ++ call :: later → (Trace.run limits earlier).broker.Puts call moment task →
      ∀ entry ∈ moment.entries task.queue, entry.eligibleAt ≤ call.reading →
        (Trace.onward (Trace.run limits earlier).broker (call :: later)).history.Precedes
          entry.task.id task.id
  /-- Of two tasks that name no time and are submitted to one queue when they are made, the one that
  is submitted first is claimed first, unless the clock has gone back in between: no claim returns
  the second unless one has returned the first. -/
  submitted : ∀ before first now middle second later after,
    (Trace.run limits calls).history = before ++ ⟨.enqueue first now, .ok none⟩ ::
        (middle ++ ⟨.enqueue second later, .ok none⟩ :: after) →
      first.queue = second.queue → now ≤ later →
      first.processAt = none → first.createdAt = now →
      second.processAt = none → second.createdAt = later →
        (∃ exchange ∈ middle, exchange.Returns first.id) ∨
          History.Precedes after first.id second.id

lemma Ordered.least (hordered : b.Ordered) {rest : List QueueEntry}
    (hqueue : b.entries queue = entry :: rest) {other : QueueEntry}
    (hother : other ∈ b.entries queue) (hne : other ≠ entry) :
    entry.eligibleAt < other.eligibleAt ∨
      entry.eligibleAt = other.eligibleAt ∧ entry.sequence < other.sequence := by
  have hsorted := hordered.sorted queue
  rw [hqueue] at hsorted hother
  have hrest := (List.mem_cons.mp hother).resolve_left hne
  have hbefore := (List.pairwise_cons.mp hsorted).1 other hrest
  rcases QueueEntry.before_iff.mp hbefore with htime | ⟨htime, harrival⟩
  · exact .inl htime
  · exact .inr ⟨Instant.rank_inj htime, harrival⟩

lemma Transition.least {order : ReturnOrder} {weights : QueueWeights} {words : List UInt32}
    (h : Transition b (.claim order weights words now) (.ok (some task)) next)
    (hb : b.WellFormed) (hordered : b.Ordered) :
    ∃ entry ∈ (b.recover order now).entries task.queue,
      task = (b.recover order now).delivery entry now ∧
        ∀ other ∈ (b.recover order now).entries task.queue, other ≠ entry →
          entry.eligibleAt < other.eligibleAt ∨
            entry.eligibleAt = other.eligibleAt ∧ entry.sequence < other.sequence := by
  cases h with
  | @claimed _ _ _ _ queue entry _ hfirst =>
    have hmem : entry ∈ (b.recover order now).entries queue := hfirst ▸ List.mem_cons_self
    have hname : entry.task.queue = queue := (hb.recover order now).entry_queue hmem
    have hqueue : ((b.recover order now).delivery entry now).queue = queue := hname
    rw [hqueue]
    exact ⟨entry, hmem, rfl, fun other => (hordered.recover hb order now).least hfirst⟩

lemma Transition.entry_of_enqueued {result : Option Task}
    (h : Transition b (.enqueue task now) (.ok result) next) (hb : b.WellFormed) :
    ∃ entry ∈ next.allEntries, entry.task = task.markPending now ∧
      entry.eligibleAt = task.eligibleAt := by
  cases h with
  | enqueued => exact ⟨_, (mem_push hb.queues_sorted).mpr (.inl rfl), rfl, rfl⟩

/-- A task that was submitted and that no claim has returned since waits for the time that it was
submitted for. -/
lemma Trace.entry_of_submitted {limits : BrokerLimits} {calls : List Call} {before middle : History}
    {result : Option Task}
    (h : (run limits calls).history = before ++ ⟨.enqueue task now, .ok result⟩ :: middle)
    (hmiddle : ∀ exchange ∈ middle, ¬ exchange.Returns task.id) :
    ∃ entry ∈ (run limits calls).broker.allEntries, entry.task = task.markPending now ∧
      entry.eligibleAt = task.eligibleAt := by
  obtain ⟨start, next, rest, -, -, hserve, hrest⟩ := run_cut h
  have hb := run_wellFormed limits start
  have hsubmitted := Transition.of_serve hserve
  obtain ⟨entry, hentry, htask, htime⟩ := hsubmitted.entry_of_enqueued hb
  have hid : entry.task.id = task.id := by rw [htask]; rfl
  have hwaits := mem_of_not_returns rest (hsubmitted.wellFormed hb) hentry
  rw [hrest, hid] at hwaits
  exact ⟨entry, hwaits hmiddle, htask, htime⟩

/-- A task that a call puts behind another is returned after it. -/
lemma Trace.precedes_of_puts (hb : b.WellFormed) (hordered : b.Ordered) {moment : Broker}
    (hputs : b.Puts call moment task) (hfirst : first ∈ moment.allEntries)
    (hqueue : first.task.queue = task.queue) (hdue : first.eligibleAt ≤ call.reading)
    (later : List Call) :
    (onward b (call :: later)).history.Precedes first.task.id task.id := by
  have htransition := serve_transition b call
  obtain ⟨second, hid, hlate, hearly⟩ := ahead_of_puts hb hordered hputs hfirst hqueue hdue
  rw [onward_cons]
  refine precedes_cons hlate (hearly.imp_right fun hahead => ?_)
  rw [← hid]
  exact precedes_of_ahead later (htransition.wellFormed hb) (htransition.ordered hb hordered) hahead

/-- **Claims take the tasks of a queue in turn.**  In every run, a claim returns the first entry of
its queue, and no task overtakes one that was due in its queue when it came there. -/
theorem claims_in_turn (limits : BrokerLimits) (calls : List Call) : InTurn limits calls where
  least := by
    rintro earlier order weights words now later task - hanswer
    have htransition := serve_transition (Trace.run limits earlier).broker
      (.claim order weights words now)
    rw [hanswer] at htransition
    exact htransition.least (Trace.run_wellFormed limits earlier) (Trace.run_ordered limits earlier)
  behind := by
    rintro earlier call later moment task - hputs entry hentry hdue
    have hb := Trace.run_wellFormed limits earlier
    have hordered := Trace.run_ordered limits earlier
    have hmoment := hputs.wellFormed hb
    have hqueue : entry.task.queue = task.queue := hmoment.entry_queue hentry
    have hmem := (mem_allEntries hmoment.queues_sorted).mpr ⟨_, hentry⟩
    exact Trace.precedes_of_puts hb hordered hputs hmem hqueue hdue later
  submitted := by
    intro before first now middle second later after hhistory hqueue hclock hfirst hmade hsecond
      hmade'
    refine or_iff_not_imp_left.mpr fun hmiddle => ?_
    rw [← List.cons_append, ← List.append_assoc] at hhistory
    obtain ⟨start, next, rest, -, hstart, hserve, hafter⟩ := Trace.run_cut hhistory
    obtain ⟨entry, hentry, htask, htime⟩ := Trace.entry_of_submitted hstart
      fun exchange hexchange hreturns => hmiddle ⟨exchange, hexchange, hreturns⟩
    have hid : entry.task.id = first.id := by rw [htask]; rfl
    have hsame : entry.task.queue = second.queue := by rw [htask]; exact hqueue
    have hfirstTime : first.eligibleAt = now := by
      rw [Task.eligibleAt, hfirst, ← hmade]
      rfl
    have hsecondTime : second.eligibleAt = later := by
      rw [Task.eligibleAt, hsecond, ← hmade']
      rfl
    have hputs : (Trace.run limits start).broker.Puts (.enqueue second later)
        (Trace.run limits start).broker second :=
      .enqueued (by rw [hserve]) (hsecondTime ▸ Instant.le_refl _)
    have hdue : entry.eligibleAt ≤ later := by
      rw [htime, hfirstTime]
      exact hclock
    have hprecedes := Trace.precedes_of_puts (Trace.run_wellFormed limits start)
      (Trace.run_ordered limits start) hputs hentry hsame hdue rest
    rw [Trace.onward_cons, hserve, hafter, hid] at hprecedes
    exact hprecedes.tail (not_returns_of_delivered_none rfl _)

end Broker
end WorkQueue
