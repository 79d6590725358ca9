import WorkQueue.Proofs.Broker.Claims

/-!
# Only the claim that stands may report, and only once

The main statement is `report_accepted_iff_stands`: after any run, a report is accepted exactly if
the claim that it names stands, every claim is reported on at most once, a token belongs to one
delivery of one task for ever, and a report that is refused leaves no mark, neither on the broker
nor on any later answer.

There is one exception.  A retry whose count is at its end takes its claim off and then, in a
program that was built with checks, crashes whoever makes it (`Call.Uncounted`): such a report is
neither accepted nor refused, and yet its claim is spent (`last_retry_unanswered`).
-/

namespace WorkQueue
namespace Broker

/-- Whether a broker accepts a call. -/
def Accepts (b : Broker) (call : Call) : Prop :=
  ∃ answer, (b.serve call).1 = .ok answer

/-- Whether whoever makes a call crashes in it. -/
def Crashes (b : Broker) (call : Call) : Prop :=
  (b.serve call).1 = .crashed

/-- Whether a call is a retry of a task that cannot be counted. -/
def Call.Uncounted (call : Call) (task : Task) (limits : BrokerLimits) : Prop :=
  ∃ report delay error now,
    call = .retry report delay error now ∧ task.overflows limits.overflow = true

variable {b next : Broker} {call : Call} {answer : Answer} {report : Task}

/-! ## One report -/

lemma Owns.unique {lease other : Lease} (h : b.Owns report lease) (h' : b.Owns report other) :
    lease = other :=
  Option.some.inj (h.1.symm.trans h'.1)

/-- What a report comes to: it is refused if it names no claim, and else it is accepted, unless it
cannot be counted. -/
lemma report_cases (hreport : call.report? = some report) :
    (∀ lease, ¬ b.Owns report lease) ∧ b.serve call = (.error (.taskNotFound report.id), b) ∨
      ∃ lease, b.Owns report lease ∧
        (¬ call.Uncounted lease.task b.limits ∧ b.Accepts call ∨
          call.Uncounted lease.task b.limits ∧
            b.serve call = (.crashed, b.dropLease report.id)) := by
  have h := report_transition (b := b) hreport
  unfold Accepts
  generalize b.serve call = result at h ⊢
  obtain ⟨answer, next⟩ := result
  cases h with
  | turnedAway => cases hreport
  | enqueued => cases hreport
  | unserved => cases hreport
  | claimed => cases hreport
  | disowned isReport foreign =>
    cases hreport.symm.trans isReport
    exact .inl ⟨foreign, rfl⟩
  | acked owns | buried owns | released owns =>
    cases hreport
    refine .inr ⟨_, owns, .inl ⟨?_, _, rfl⟩⟩
    rintro ⟨_, _, _, _, hcall, -⟩
    cases hcall
  | retried owns counted =>
    cases hreport
    refine .inr ⟨_, owns, .inl ⟨?_, _, rfl⟩⟩
    rintro ⟨_, _, _, _, -, uncounted⟩
    exact Bool.false_ne_true (counted.symm.trans uncounted)
  | crashed owns uncounted =>
    cases hreport
    exact .inr ⟨_, owns, .inr ⟨⟨_, _, _, _, rfl, uncounted⟩, rfl⟩⟩

lemma accepts_iff_owns (hreport : call.report? = some report) :
    b.Accepts call ↔ ∃ lease, b.Owns report lease ∧ ¬ call.Uncounted lease.task b.limits := by
  rcases report_cases (b := b) hreport with
    ⟨hforeign, hserve⟩ | ⟨lease, howns, ⟨hcounted, haccepts⟩ | ⟨huncounted, hserve⟩⟩
  · refine ⟨?_, fun ⟨lease, howns, _⟩ => absurd howns (hforeign lease)⟩
    rintro ⟨answer, haccepts⟩
    rw [hserve] at haccepts
    cases haccepts
  · exact ⟨fun _ => ⟨lease, howns, hcounted⟩, fun _ => haccepts⟩
  · constructor
    · rintro ⟨answer, haccepts⟩
      rw [hserve] at haccepts
      cases haccepts
    · rintro ⟨other, hother, hcounted⟩
      exact absurd (hother.unique howns ▸ huncounted) hcounted

lemma crashes_iff_owns (hreport : call.report? = some report) :
    b.Crashes call ↔ ∃ lease, b.Owns report lease ∧ call.Uncounted lease.task b.limits := by
  unfold Crashes
  rcases report_cases (b := b) hreport with
    ⟨hforeign, hserve⟩ | ⟨lease, howns, ⟨hcounted, answer, haccepts⟩ | ⟨huncounted, hserve⟩⟩
  · rw [hserve]
    refine ⟨fun hcrashed => ?_, fun ⟨lease, howns, _⟩ => absurd howns (hforeign lease)⟩
    cases hcrashed
  · rw [haccepts]
    refine ⟨fun hcrashed => ?_, fun ⟨other, hother, huncounted⟩ => ?_⟩
    · cases hcrashed
    · exact absurd (hother.unique howns ▸ huncounted) hcounted
  · rw [hserve]
    exact ⟨fun _ => ⟨lease, howns, huncounted⟩, fun _ => rfl⟩

/-- A crash takes the claim off and changes nothing else. -/
lemma serve_crashed (hreport : call.report? = some report) (h : b.Crashes call) :
    b.serve call = (.crashed, b.dropLease report.id) := by
  obtain ⟨lease, howns, huncounted⟩ := (crashes_iff_owns hreport).mp h
  rcases report_cases (b := b) hreport with
    ⟨hforeign, -⟩ | ⟨other, hother, ⟨hcounted, -⟩ | ⟨-, hserve⟩⟩
  · exact absurd howns (hforeign lease)
  · exact absurd (howns.unique hother ▸ huncounted) hcounted
  · exact hserve

lemma serve_refused (hreport : call.report? = some report) (h : ¬ b.Accepts call)
    (hcrash : ¬ b.Crashes call) :
    b.serve call = (.error (.taskNotFound report.id), b) := by
  rcases report_cases (b := b) hreport with
    ⟨-, hserve⟩ | ⟨lease, -, ⟨-, haccepts⟩ | ⟨-, hserve⟩⟩
  · exact hserve
  · exact absurd haccepts h
  · exact absurd (congrArg Prod.fst hserve) hcrash

lemma serve_disowned (hreport : call.report? = some report)
    (hforeign : ∀ lease, ¬ b.Owns report lease) :
    b.serve call = (.error (.taskNotFound report.id), b) := by
  rcases report_cases (b := b) hreport with ⟨-, hserve⟩ | ⟨lease, howns, -⟩
  · exact hserve
  · exact absurd howns (hforeign lease)

namespace Transition

lemma owns_of_spent (h : Transition b call answer next)
    (hspent : Exchange.spent? ⟨call, answer⟩ = some report) :
    call.report? = some report ∧ ∃ lease, b.Owns report lease := by
  cases h with
  | turnedAway => cases hspent
  | enqueued => cases hspent
  | unserved => cases hspent
  | claimed => cases hspent
  | disowned => cases hspent
  | acked owns | retried owns | crashed owns | buried owns | released owns =>
    cases hspent
    exact ⟨rfl, _, owns⟩

lemma token_of_makes {limits : BrokerLimits} {lease : Lease} (h : Transition b call answer next)
    (hmakes : Exchange.Makes ⟨call, answer⟩ limits lease) : lease.token = b.nextLease + 1 := by
  obtain ⟨order, weights, words, now, hexchange, htoken, -⟩ := hmakes
  have hnext := h.nextLease_eq
  rw [hexchange] at hnext
  exact Option.some.inj (htoken.symm.trans hnext.1)

end Transition

/-! ## Tokens that are spent -/

/-- Whether a report was made under a claim that is over: some claim gave its token out, for its
task, and no claim that the broker holds has it. -/
def Trace.Spent (trace : Trace) (report : Task) : Prop :=
  (∃ task ∈ trace.history.deliveries, task.lease = report.lease ∧ task.id = report.id) ∧
    ∃ token ≤ trace.broker.nextLease, report.lease = some token ∧
      ∀ id lease, Table.get? id trace.broker.leases = some lease → lease.token ≠ token

namespace Trace

variable {trace : Trace}

lemma nextLease_le_extend (trace : Trace) (call : Call) :
    trace.broker.nextLease ≤ (trace.extend call).broker.nextLease := by
  have hnext := (trace.transition call).nextLease_eq
  split at hnext
  · exact hnext.2 ▸ Nat.le_succ _
  · exact hnext.ge

/-- A token that is spent stays so: the claims that are left had other tokens, and a new claim has a
new one. -/
lemma Spent.extend (hb : trace.broker.WellFormed) (h : trace.Spent report) (call : Call) :
    (trace.extend call).Spent report := by
  obtain ⟨⟨task, htask, hlease⟩, token, hle, htoken, hnone⟩ := h
  have htransition := trace.transition call
  refine ⟨⟨task, ?_, hlease⟩, token, hle.trans (nextLease_le_extend trace call), htoken, ?_⟩
  · rw [History.deliveries, filterMap_extend]
    exact List.mem_append_left _ htask
  · intro id lease hget
    rcases (htransition.get?_leases hb).mp hget with ⟨hget, -⟩ | ⟨-, hmakes⟩
    · exact hnone id lease hget
    · rw [htransition.token_of_makes hmakes]
      omega

/-- A report that takes its claim off spends its token. -/
lemma spent_of_report (hb : trace.broker.WellFormed) (htracked : trace.Tracked)
    (hspent : Exchange.spent? ⟨call, (trace.broker.serve call).1⟩ = some report) :
    (trace.extend call).Spent report := by
  have htransition := trace.transition call
  obtain ⟨hreport, owned, howns⟩ := htransition.owns_of_spent hspent
  refine ⟨⟨owned.task, ?_, ?_, ?_⟩, owned.token, ?_, howns.2, ?_⟩
  · rw [History.deliveries, filterMap_extend]
    exact List.mem_append_left _ (mem_deliveries_of_lease htracked howns.1)
  · exact (hb.lease_token howns.1).trans howns.2.symm
  · exact hb.lease_id howns.1
  · exact (hb.token_le howns.1).trans (nextLease_le_extend trace call)
  · intro id lease hget
    rcases (htransition.get?_leases hb).mp hget with ⟨-, hends⟩ | ⟨-, hmakes⟩
    · intro htoken
      exact hends (.inl ⟨report, hspent, htoken ▸ howns.2⟩)
    · rw [htransition.token_of_makes hmakes]
      exact (Nat.lt_succ_of_le (hb.token_le howns.1)).ne'

/-- Every report that took its claim off has spent a token, and no two of them the same. -/
theorem run_spent (limits : BrokerLimits) (calls : List Call) :
    (∀ report ∈ (run limits calls).history.spent, (run limits calls).Spent report) ∧
      ((run limits calls).history.spent.map (·.lease)).Nodup := by
  induction calls using List.reverseRecOn with
  | nil => exact ⟨fun _ hreport => absurd hreport List.not_mem_nil, List.nodup_nil⟩
  | append_singleton calls call ih =>
    obtain ⟨hspent, hnodup⟩ := ih
    have hb := run_wellFormed limits calls
    have htracked := run_tracked limits calls
    rw [run_concat, History.spent, filterMap_extend, ← History.spent]
    cases hreport : Exchange.spent? ⟨call, ((run limits calls).broker.serve call).1⟩ with
    | none =>
      simp only [Option.toList_none, List.append_nil]
      exact ⟨fun report hreport => (hspent report hreport).extend hb call, hnodup⟩
    | some report =>
      have hnew := spent_of_report hb htracked hreport
      obtain ⟨-, owned, howns⟩ := ((run limits calls).transition call).owns_of_spent hreport
      refine ⟨?_, ?_⟩
      · intro other hother
        rcases List.mem_append.mp hother with hother | hother
        · exact (hspent other hother).extend hb call
        · simp only [Option.toList_some, List.mem_singleton] at hother
          exact hother ▸ hnew
      · -- The token of the claim that is reported on is not spent yet.
        have hfresh : report.lease ∉ (run limits calls).history.spent.map (·.lease) := by
          intro hmem
          obtain ⟨other, hother, hlease⟩ := List.mem_map.mp hmem
          obtain ⟨-, token, -, htoken, hnone⟩ := hspent other hother
          have htokens := (hlease.symm.trans htoken).symm.trans howns.2
          exact hnone _ _ howns.1 (Option.some.inj htokens).symm
        rw [List.map_append, List.nodup_append]
        refine ⟨hnodup, List.nodup_singleton _, ?_⟩
        rintro token hmem other hother rfl
        simp only [Option.toList_some, List.map_cons, List.map_nil, List.mem_singleton] at hother
        exact hfresh (hother ▸ hmem)

end Trace

/-! ## Reports that are refused -/

/-- `Padded b calls padded` says that `padded` are the calls of a run on `b`, in order, with reports
put in between, any number of them anywhere, each of which is refused where it stands.  The mark
tells the reports that were put in. -/
inductive Padded : Broker → List Call → List (Call × Bool) → Prop
  | nil (b : Broker) : Padded b [] []
  | keep {b : Broker} {calls : List Call} {padded : List (Call × Bool)} (call : Call) :
      Padded (b.serve call).2 calls padded → Padded b (call :: calls) ((call, false) :: padded)
  | insert {b : Broker} {calls : List Call} {padded : List (Call × Bool)} {call : Call}
      {report : Task} (isReport : call.report? = some report) (refused : ¬ b.Accepts call)
      (returns : ¬ b.Crashes call) : Padded b calls padded → Padded b calls ((call, true) :: padded)

/-- The exchanges of a padded run without those of the reports that were put in. -/
def History.unpadded (history : History) (padded : List (Call × Bool)) : History :=
  (history.zip padded).filterMap fun item => if item.2.2 then none else some item.1

lemma Padded.onward {calls : List Call} {padded : List (Call × Bool)} (h : Padded b calls padded) :
    (Trace.onward b (padded.map (·.1))).broker = (Trace.onward b calls).broker ∧
      (Trace.onward b (padded.map (·.1))).history.unpadded padded =
        (Trace.onward b calls).history := by
  induction h with
  | nil b => exact ⟨rfl, rfl⟩
  | keep call _ ih =>
    rw [List.map_cons, Trace.onward_cons, Trace.onward_cons]
    exact ⟨ih.1, congrArg (List.cons _) ih.2⟩
  | insert isReport refused returns _ ih =>
    rw [List.map_cons, Trace.onward_cons, serve_refused isReport refused returns]
    exact ih

/-! ## The claim that stands -/

/-- The claims that can be reported on, with what they returned, are those that stand. -/
lemma owns_iff_stands (limits : BrokerLimits) (calls : List Call) (report : Task)
    (p : Task → Prop) :
    (∃ lease, (Trace.run limits calls).broker.Owns report lease ∧ p lease.task) ↔
      ∃ task claimedAt, Stands limits (Trace.run limits calls).history task claimedAt ∧
        task.id = report.id ∧ task.lease = report.lease ∧ p task := by
  have htracked := Trace.run_tracked limits calls
  have htokens := Trace.run_tokens limits calls
  have hlimits := Trace.run_limits limits calls
  constructor
  · rintro ⟨lease, ⟨hget, htoken⟩, hp⟩
    obtain ⟨hid, hlease, claimedAt, hstands, -⟩ := (htracked _ _).mp hget
    rw [hlimits] at hstands
    exact ⟨lease.task, claimedAt, hstands, hid, hlease.trans htoken.symm, hp⟩
  · rintro ⟨task, claimedAt, hstands, hid, hlease, hp⟩
    have hmem : task.lease ∈ (Trace.run limits calls).history.deliveries.map (·.lease) :=
      List.mem_map_of_mem (Trace.mem_deliveries_of_stands hstands)
    rw [htokens, List.mem_map] at hmem
    obtain ⟨n, -, hn⟩ := hmem
    refine ⟨⟨task, n + 1, claimedAt.after limits.visibilityTimeout⟩,
      ⟨?_, hlease.symm.trans hn.symm⟩, hp⟩
    exact (htracked _ _).mpr ⟨hid, hn.symm, claimedAt, hlimits.symm ▸ hstands, by rw [hlimits]⟩

/-- **Only the claim that stands may report, and only once.**  After every run:
a report is accepted exactly if some claim returned an envelope with its id and token and still
stands, and the report is no retry that cannot be counted;
whoever makes such a retry crashes, and the claim is taken off;
a report that is neither accepted nor crashes is answered by "not found" and changes nothing;
the n-th claim that returned an envelope gave it the token n;
no two reports that took their claims off have the same token, and each was made on the task to
which a claim had given its token;
and reports that are refused can be put in anywhere, in any number, without a change to the other
answers or to the broker in the end. -/
theorem report_accepted_iff_stands (limits : BrokerLimits) (calls : List Call) :
    (∀ call report, call.report? = some report →
      ((Trace.run limits calls).broker.Accepts call ↔
        ∃ task claimedAt, Stands limits (Trace.run limits calls).history task claimedAt ∧
          task.id = report.id ∧ task.lease = report.lease ∧ ¬ call.Uncounted task limits) ∧
      ((Trace.run limits calls).broker.Crashes call ↔
        ∃ task claimedAt, Stands limits (Trace.run limits calls).history task claimedAt ∧
          task.id = report.id ∧ task.lease = report.lease ∧ call.Uncounted task limits) ∧
      ((Trace.run limits calls).broker.Crashes call →
        (Trace.run limits calls).broker.serve call =
          (.crashed, (Trace.run limits calls).broker.dropLease report.id)) ∧
      (¬ (Trace.run limits calls).broker.Accepts call →
        ¬ (Trace.run limits calls).broker.Crashes call →
          (Trace.run limits calls).broker.serve call =
            (.error (.taskNotFound report.id), (Trace.run limits calls).broker))) ∧
    (∀ n (h : n < (Trace.run limits calls).history.deliveries.length),
      (Trace.run limits calls).history.deliveries[n].lease = some (n + 1)) ∧
    ((Trace.run limits calls).history.spent.map (·.lease)).Nodup ∧
    (∀ report ∈ (Trace.run limits calls).history.spent,
      ∃ task ∈ (Trace.run limits calls).history.deliveries,
        task.lease = report.lease ∧ task.id = report.id) ∧
    (∀ padded, Padded (empty limits) calls padded →
      (Trace.run limits (padded.map (·.1))).broker = (Trace.run limits calls).broker ∧
        (Trace.run limits (padded.map (·.1))).history.unpadded padded =
          (Trace.run limits calls).history) := by
  refine ⟨fun call report hreport => ⟨?_, ?_, serve_crashed hreport, serve_refused hreport⟩,
    ?_, ?_, ?_, ?_⟩
  · rw [accepts_iff_owns hreport, Trace.run_limits]
    exact owns_iff_stands limits calls report fun task => ¬ call.Uncounted task limits
  · rw [crashes_iff_owns hreport, Trace.run_limits]
    exact owns_iff_stands limits calls report fun task => call.Uncounted task limits
  · intro n h
    have htokens := Trace.run_tokens limits calls
    have hlength := congrArg List.length htokens
    simp only [List.length_map, List.length_range] at hlength
    have hn : n < ((Trace.run limits calls).history.deliveries.map (·.lease)).length := by
      simpa using h
    have hget := List.getElem_of_eq htokens hn
    simpa using hget
  · exact (Trace.run_spent limits calls).2
  · exact fun report hreport => ((Trace.run_spent limits calls).1 report hreport).1
  · exact fun padded hpadded => hpadded.onward

/-- The claim on a letter stands: no report was accepted and no claim came later.  The report that
the letter is to be tried again is not accepted, and yet it does not leave the broker as it is. -/
theorem last_retry_unanswered :
    ((Trace.run checkedLimits wornCalls).history.map fun exchange =>
        exchange.delivered?.map fun task => (task.id, task.lease)) =
      [none, some ("a", some 1)] ∧
    lastRetry.report?.map (fun report => (report.id, report.lease)) = some ("a", some 1) ∧
    ¬ (Trace.run checkedLimits wornCalls).broker.Accepts lastRetry ∧
    (Trace.run checkedLimits wornCalls).broker.holds "a" = true ∧
    ((Trace.run checkedLimits wornCalls).broker.serve lastRetry).2.holds "a" = false := by
  have hcrashed : ((Trace.run checkedLimits wornCalls).broker.serve lastRetry).1 = .crashed := by
    decide +kernel
  refine ⟨by decide +kernel, by decide +kernel, ?_, by decide +kernel, by decide +kernel⟩
  rintro ⟨answer, haccepts⟩
  rw [hcrashed] at haccepts
  cases haccepts

end Broker
end WorkQueue
