import WorkQueue.Proofs.Broker.Withheld

/-!
# Claims exclude each other

While a claim stands, no other claim returns its task, and no other task is accepted under the same
id.  The claim withholds the task for the timeout, and the task stays withheld however many other
calls come in between, and whatever their clocks read (`Trace.run_withheld`).

The main statement, `claims_exclusive`, says what follows for two claims on a task without a report
between them, and for a submission under the id of a claimed task.  What ends a claim is a report
that takes it off, which is also one in which whoever made it crashed (`crash_ends_claim`).
-/

namespace WorkQueue
namespace Broker

variable {b : Broker} {task : Task} {id : String} {bound : Instant}

lemma serve_enqueue_of_holds (h : b.holds task.id = true) (now : Instant) :
    b.serve (.enqueue task now) = (.error (.enqueue (.alreadyQueued task.id)), b) := by
  simp only [serve, enqueue, h, if_true]
  rfl

/-! ## Runs -/

namespace Trace

lemma onward_withheld (calls : List Call) (hb : b.WellFormed) (hbound : bound ≤ Instant.latest)
    (hwithheld : b.Withheld id bound)
    (hquiet : ∀ report ∈ (onward b calls).history.spent, report.id ≠ id) :
    (onward b calls).broker.Withheld id bound := by
  induction calls generalizing b with
  | nil => exact hwithheld
  | cons call rest ih =>
    have htransition := serve_transition b call
    simp only [onward_cons, History.spent, List.mem_filterMap, List.mem_cons] at hquiet ⊢
    have hnext := htransition.withheld hb hbound hwithheld fun report hreport =>
      hquiet report ⟨_, .inl rfl, hreport⟩
    refine ih (htransition.wellFormed hb) hnext fun report hreport => ?_
    obtain ⟨exchange, hexchange, hreported⟩ := List.mem_filterMap.mp hreport
    exact hquiet report ⟨exchange, .inr hexchange, hreported⟩

/-- From the claim on, until a report takes the claim off, a task is withheld for the timeout of the
claim. -/
lemma run_withheld {limits : BrokerLimits} {calls : List Call} {before between : History}
    {first : Exchange} (hhistory : (run limits calls).history = before ++ first :: between)
    (hdelivered : first.delivered? = some task)
    (hquiet : ∀ report ∈ between.spent, report.id ≠ task.id) :
    (run limits calls).broker.Withheld task.id
      (first.call.reading.after limits.visibilityTimeout) := by
  obtain ⟨earlier, next, rest, -, -, hserve, honward⟩ := run_cut hhistory
  have htransition := Transition.of_serve hserve
  have hwithheld := htransition.withheld_of_delivered hdelivered
  rw [run_limits] at hwithheld
  have hlater := onward_withheld rest (htransition.wellFormed (run_wellFormed _ _))
    (Instant.after_le_latest _ _) hwithheld (by rwa [honward])
  rwa [honward] at hlater

end Trace

/-- What it means that the claims of a history exclude each other for a time. -/
structure History.Exclusive (history : History) (timeout : Duration) : Prop where
  /-- If two claims returned a task, and no report between them took the claim on it off, then the
  second one read no earlier time than the end of the timeout of the first one. -/
  apart : ∀ before first task (between : History) second task' after,
    history = before ++ first :: between ++ second :: after →
      first.delivered? = some task → second.delivered? = some task' → task'.id = task.id →
        (∀ report ∈ between.spent, report.id ≠ task.id) →
          first.call.reading.after timeout ≤ second.call.reading
  /-- No task was accepted under the id of one that a claim had returned, before a report took that
  claim off. -/
  refused : ∀ before first task (between : History) submitted now answer after,
    history = before ++ first :: between ++ ⟨.enqueue submitted now, answer⟩ :: after →
      first.delivered? = some task → submitted.id = task.id →
        (∀ report ∈ between.spent, report.id ≠ task.id) →
          answer = .error (.enqueue (.alreadyQueued task.id))

/-- **Claims exclude each other.**  In every run, whatever its calls are and whatever the clocks
read, a claim keeps its task for the visibility timeout, unless a report takes the claim off. -/
theorem claims_exclusive (limits : BrokerLimits) (calls : List Call) :
    (Trace.run limits calls).history.Exclusive limits.visibilityTimeout where
  apart := by
    intro before first task between second task' after hhistory hfirst hsecond hid hquiet
    obtain ⟨earlier, next, rest, -, hbefore, hserve, -⟩ := Trace.run_cut hhistory
    have hwithheld := Trace.run_withheld hbefore hfirst hquiet
    exact (Transition.of_serve hserve).le_of_withheld (Trace.run_wellFormed limits earlier)
      hwithheld hsecond hid
  refused := by
    intro before first task between submitted now answer after hhistory hfirst hid hquiet
    obtain ⟨earlier, next, rest, -, hbefore, hserve, -⟩ := Trace.run_cut hhistory
    have hwithheld := Trace.run_withheld hbefore hfirst hquiet
    have hholds := hwithheld.holds (Trace.run_wellFormed limits earlier)
    rw [← hid] at hholds ⊢
    have hrefused := serve_enqueue_of_holds hholds now
    exact congrArg Prod.fst (hserve.symm.trans hrefused)

/-- A claim for two seconds: neither a submission nor a claim of a second later succeeds, and a
claim of yet a second later does. -/
example :
    let letter := Task.create "a" "letter" [] 0 .epoch
    let claim := Call.claim .listed (.single "default") []
    (Trace.run ⟨5, Duration.ofSeconds 2, 1, 1, .crashes⟩
      [.enqueue letter .epoch, claim .epoch, .enqueue letter (Instant.ofMillis 1000),
        claim (Instant.ofMillis 1000), claim (Instant.ofMillis 2000)]).history.map
      (fun exchange => decide (exchange.answer matches .ok _)) =
        [true, true, false, false, true] := by
  decide +kernel

/-- A retry of a letter that cannot be counted is not accepted, and at the same moment, long before
the end of the timeout, the letter is accepted anew and claimed again. -/
theorem crash_ends_claim :
    (Trace.run checkedLimits (wornCalls ++ lastRetry :: wornCalls)).history.map
        (fun exchange => (exchange.delivered?.map (·.id), exchange.reported?.map (·.id),
          exchange.enqueued?.map (·.id))) =
      [(none, none, some "a"), (some "a", none, none), (none, none, none), (none, none, some "a"),
        (some "a", none, none)] ∧
    (wornCalls ++ lastRetry :: wornCalls).map (·.reading) = List.replicate 5 .epoch ∧
    Instant.epoch < Instant.epoch.after checkedLimits.visibilityTimeout := by
  decide +kernel

end Broker
end WorkQueue
