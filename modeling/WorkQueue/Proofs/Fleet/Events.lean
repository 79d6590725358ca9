import WorkQueue.Proofs.Broker.Passage
import WorkQueue.Proofs.Fleet.Basic

/-!
# What a fleet tells of its tasks

Observers learn that a worker has claimed a task, and that a worker's report was accepted; of all
else they learn nothing.  `tells` is what they learn of an event of a fleet, and `told` is all that
they have learned of a run.

What they learn can be read off the call of the broker and its answer (`tells_eq`).  A worker tells
of a task by its own copy of the envelope, and `held_of_named` is the reason why that is as good as
the broker's: while a claim stands, the worker that can report on it has the envelope that the
broker keeps.
-/

namespace WorkQueue
namespace Broker

/-- What observers learn of a call that the broker has answered. -/
def Exchange.told? : Exchange → Option TaskEvent
  | ⟨.claim _ _ _ _, .ok (some task)⟩ => some (TaskEvent.ofTask task .running)
  | ⟨.ack report now, .ok _⟩ => some (TaskEvent.ofTask (report.markCompleted now) .completed)
  | ⟨.retry report _ _ _, .ok result⟩ => some (TaskEvent.ofTask (result.getD report) .retrying)
  | ⟨.deadLetter report _ _, .ok result⟩ => some (TaskEvent.ofTask (result.getD report) .failed)
  | ⟨.release report now, .ok _⟩ => some (TaskEvent.ofTask (report.markPending now) .pending)
  | _ => none

/-- The broker answers a report with a task of the same id, if with any. -/
lemma Transition.result_id {b next : Broker} {call : Call} {report result : Task}
    (h : Transition b call (.ok (some result)) next) (hb : b.WellFormed)
    (hreport : call.report? = some report) : result.id = report.id := by
  cases h with
  | claimed => cases hreport
  | retried owns | buried owns =>
    cases hreport
    exact hb.lease_id owns.1

/-- Observers learn nothing of a task that a call does not concern. -/
lemma Transition.told_of_silent {b next : Broker} {call : Call} {answer : Answer} {id : String}
    {event : TaskEvent} (h : Transition b call answer next) (hb : b.WellFormed)
    (hsilent : Exchange.Silent ⟨call, answer⟩ id)
    (htold : Exchange.told? ⟨call, answer⟩ = some event) : event.taskId ≠ id := by
  cases answer with
  | error | crashed => cases call <;> cases htold
  | ok result =>
    have hresult : ∀ report, call.report? = some report → (result.getD report).id ≠ id := by
      intro report hreport
      cases result with
      | none => exact hsilent.spent report hreport
      | some task =>
        have hid : task.id = report.id := h.result_id hb hreport
        exact hid ▸ hsilent.spent report hreport
    cases call with
    | enqueue => cases htold
    | claim =>
      cases result with
      | none => cases htold
      | some task =>
        cases htold
        exact hsilent.delivered task rfl
    | ack report =>
      cases htold
      exact hsilent.spent report rfl
    | retry report | deadLetter report =>
      cases htold
      exact hresult report rfl
    | release report =>
      cases htold
      exact hsilent.spent report rfl

end Broker

open Broker

lemma Report.told?_call (report : Report) (task : Task) (now : Instant) (result : Option Task) :
    Exchange.told? ⟨report.call task now, .ok result⟩ =
      some (report.event (report.outcome task now result)) := by
  cases report <;> rfl

lemma Report.told?_refused (report : Report) (task : Task) (now : Instant) {answer : Answer}
    (h : ∀ result, answer ≠ .ok result) :
    Exchange.told? ⟨report.call task now, answer⟩ = none := by
  cases answer with
  | ok result => exact absurd rfl (h result)
  | error | crashed => cases report <;> rfl

namespace Fleet

/-- What observers learn of an event: a claim is told as the stage that the task has come to, and a
report only if it is accepted. -/
def tells (fleet : Fleet) : Event → Option TaskEvent
  | .enqueue _ _ => none
  | .claim _ order weights words now =>
    (taken (fleet.trace.broker.serve (.claim order weights words now)).1).map
      (TaskEvent.ofTask · .running)
  | .finish worker pool draw ending now =>
    (fleet.hands worker).bind fun task =>
      match (pool.reportOn draw task ending).perform fleet.trace.broker task now with
      | (.ok record, _) => some ((pool.reportOn draw task ending).event record)
      | _ => none
  | .abandon _ => none

/-- What observers learn of events one after the other. -/
def tellsAll (fleet : Fleet) : List Event → List TaskEvent
  | [] => []
  | event :: rest => (fleet.tells event).toList ++ (fleet.apply event).tellsAll rest

/-- What observers have learned of a run, oldest first. -/
def told (limits : BrokerLimits) (events : List Event) : List TaskEvent :=
  (start limits).tellsAll events

variable {limits : BrokerLimits} {events : List Event} {fleet : Fleet} {worker : Nat}
  {task held : Task} {id : String}

lemma tellsAll_concat (fleet : Fleet) (events : List Event) (event : Event) :
    fleet.tellsAll (events ++ [event]) =
      fleet.tellsAll events ++ ((events.foldl apply fleet).tells event).toList := by
  induction events generalizing fleet with
  | nil => simp [tellsAll]
  | cons first rest ih =>
    simp only [List.cons_append, tellsAll, ih, List.foldl_cons, List.append_assoc]

lemma told_concat (limits : BrokerLimits) (events : List Event) (event : Event) :
    told limits (events ++ [event]) =
      told limits events ++ ((run limits events).tells event).toList :=
  tellsAll_concat _ events event

/-- What observers learn of an event is what they learn of its call. -/
lemma tells_eq (fleet : Fleet) (event : Event) :
    fleet.tells event = (fleet.call? event).bind fun call =>
      Exchange.told? ⟨call, (fleet.trace.broker.serve call).1⟩ := by
  cases event with
  | enqueue | abandon => rfl
  | claim worker order weights words now =>
    simp only [tells, call?, Option.bind_some]
    generalize (fleet.trace.broker.serve (.claim order weights words now)).1 = answer
    rcases answer with (_ | task) | error | ⟨⟩ <;> rfl
  | finish worker pool draw ending now =>
    simp only [tells, call?]
    cases fleet.hands worker with
    | none => rfl
    | some task =>
      simp only [Option.map_some, Option.bind_some, Report.perform_eq]
      generalize fleet.trace.broker.serve ((pool.reportOn draw task ending).call task now) = result
      obtain ⟨answer, next⟩ := result
      cases answer with
      | error | crashed =>
        rw [Report.told?_refused _ _ _ (by simp)]
        rfl
      | ok result =>
        rw [Report.told?_call]
        rfl

/-- The worker that can report on a claimed task has the broker's own copy of it. -/
lemma held_of_named (limits : BrokerLimits) (events : List Event)
    (hhands : (run limits events).hands worker = some task)
    (hheld : (run limits events).trace.broker.holding task.id = .claimed held)
    (hnamed : task.lease = held.lease) : held = task := by
  have hb := run_wellFormed limits events
  obtain ⟨lease, hget, rfl⟩ := lease_of_claimed hb hheld
  exact lease_of_accepted limits events hhands ⟨hget, hnamed.trans (hb.lease_token hget)⟩

end Fleet
end WorkQueue
