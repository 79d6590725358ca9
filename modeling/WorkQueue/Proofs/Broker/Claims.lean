import WorkQueue.Proofs.Broker.Run

/-!
# Which reports count

A broker looks at a report in one way: it compares the token of the envelope with that of the claim
on the id.  What this means is a matter of history, and `Stands` says it in terms of the history
alone: a claim stands from the call that returned its envelope until a report with its token takes
it off, or until a later claim finds that it has lapsed.  A report takes its claim off if it is
accepted, and also if whoever makes it crashes because the retry cannot be counted.

`Trace.run_tracked` is the invariant that relates the two: after every run the claims that the
broker holds are exactly the claims that stand.  Its step is `Transition.get?_leases`, which says
for every call which claims are left and which one is new.  Tokens are numbers in the order of the
claims (`Trace.run_tokens`), and a token whose claim was taken off is spent (`Trace.run_spent`).
-/

namespace WorkQueue
namespace Broker

/-! ## Claims that stand -/

/-- Whether an exchange ends a claim that has a token and lapses at a time: by a report with the
token that takes the claim off, or by a claim that finds it lapsed. -/
def Exchange.Ends (exchange : Exchange) (token : Option Nat) (expiresAt : Instant) : Prop :=
  (∃ report, exchange.spent? = some report ∧ report.lease = token) ∨
    ∃ order weights words now, exchange.call = .claim order weights words now ∧ expiresAt ≤ now

/-- Whether the claim that returned an envelope at a time stands at the end of a history: nothing
that came after it has ended it. -/
def Stands (limits : BrokerLimits) (history : History) (task : Task) (claimedAt : Instant) : Prop :=
  ∃ before order weights words after,
    history = before ++ ⟨.claim order weights words claimedAt, .ok (some task)⟩ :: after ∧
      ∀ exchange ∈ after,
        ¬ exchange.Ends task.lease (claimedAt.after limits.visibilityTimeout)

lemma stands_nil {limits : BrokerLimits} {task : Task} {claimedAt : Instant} :
    ¬ Stands limits [] task claimedAt := by
  rintro ⟨before, order, weights, words, after, h, -⟩
  simp at h

/-- A claim stands after one more exchange if it stood before and the exchange does not end it, or
if the exchange is the claim itself. -/
lemma stands_concat {limits : BrokerLimits} {history : History} {exchange : Exchange} {task : Task}
    {claimedAt : Instant} :
    Stands limits (history ++ [exchange]) task claimedAt ↔
      (Stands limits history task claimedAt ∧
        ¬ exchange.Ends task.lease (claimedAt.after limits.visibilityTimeout)) ∨
      ∃ order weights words,
        exchange = ⟨.claim order weights words claimedAt, .ok (some task)⟩ := by
  constructor
  · rintro ⟨before, order, weights, words, after, h, hafter⟩
    rcases List.eq_nil_or_concat' after with rfl | ⟨after, last, rfl⟩
    · obtain ⟨-, hlast⟩ := List.append_inj' h rfl
      exact .inr ⟨order, weights, words, by simpa using hlast⟩
    · rw [← List.cons_append, ← List.append_assoc] at h
      obtain ⟨hinit, hlast⟩ := List.append_inj' h rfl
      cases hlast
      refine .inl ⟨⟨before, order, weights, words, after, hinit, fun e he => ?_⟩, ?_⟩
      · exact hafter e (List.mem_append_left _ he)
      · exact hafter _ (List.mem_append_right _ (List.mem_singleton_self _))
  · rintro (⟨⟨before, order, weights, words, after, rfl, hafter⟩, hlast⟩ |
      ⟨order, weights, words, rfl⟩)
    · refine ⟨before, order, weights, words, after ++ [exchange], by simp, fun e he => ?_⟩
      rcases List.mem_append.mp he with he | he
      · exact hafter e he
      · rwa [List.mem_singleton.mp he]
    · exact ⟨history, order, weights, words, [], rfl, by simp⟩

/-! ## What a call does to the claims -/

namespace Exchange

lemma delivered?_of_report {call : Call} {answer : Answer} {report : Task}
    (h : call.report? = some report) : delivered? ⟨call, answer⟩ = none := by
  cases call with
  | claim => cases h
  | _ => rfl

lemma not_ends_of_refused {call : Call} {report : Task} {error : QueueError} {token : Option Nat}
    {expiresAt : Instant} (h : call.report? = some report) :
    ¬ Ends ⟨call, .error error⟩ token expiresAt := by
  rintro (⟨report, hspent, -⟩ | ⟨order, weights, words, now, rfl, -⟩)
  · cases hspent
  · cases h

lemma not_ends_enqueue {task : Task} {now : Instant} {answer : Answer} {token : Option Nat}
    {expiresAt : Instant} : ¬ Ends ⟨.enqueue task now, answer⟩ token expiresAt := by
  rintro (⟨report, hspent, -⟩ | ⟨order, weights, words, later, hcall, -⟩)
  · cases answer <;> cases hspent
  · cases hcall

lemma ends_claim_iff {order : ReturnOrder} {weights : QueueWeights} {words : List UInt32}
    {now : Instant} {answer : Answer} {token : Option Nat} {expiresAt : Instant} :
    Ends ⟨.claim order weights words now, answer⟩ token expiresAt ↔ expiresAt ≤ now := by
  constructor
  · rintro (⟨report, hspent, -⟩ | ⟨_, _, _, _, hcall, hle⟩)
    · cases answer <;> cases hspent
    · cases hcall
      exact hle
  · exact fun hle => .inr ⟨order, weights, words, now, rfl, hle⟩

lemma ends_report_iff {call : Call} {report : Task} {answer : Answer} {token : Option Nat}
    {expiresAt : Instant} (h : spent? ⟨call, answer⟩ = some report) :
    Ends ⟨call, answer⟩ token expiresAt ↔ report.lease = token := by
  constructor
  · rintro (⟨other, hspent, hlease⟩ | ⟨order, weights, words, now, rfl, -⟩)
    · cases h.symm.trans hspent
      exact hlease
    · cases answer <;> cases h
  · exact fun hlease => .inl ⟨report, h, hlease⟩

lemma lease_of_ends {call : Call} {answer : Answer} {report : Task} {token : Option Nat}
    {expiresAt : Instant} (h : call.report? = some report)
    (hends : Ends ⟨call, answer⟩ token expiresAt) : report.lease = token := by
  cases answer with
  | error error => exact absurd hends (not_ends_of_refused h)
  | ok answer =>
    have hspent : spent? ⟨call, .ok answer⟩ = some report := h
    exact (ends_report_iff hspent).mp hends
  | crashed =>
    have hspent : spent? ⟨call, .crashed⟩ = some report := h
    exact (ends_report_iff hspent).mp hends

end Exchange

/-- Whether an exchange is the claim that a lease records. -/
def Exchange.Makes (exchange : Exchange) (limits : BrokerLimits) (lease : Lease) : Prop :=
  ∃ order weights words now, exchange = ⟨.claim order weights words now, .ok (some lease.task)⟩ ∧
    lease.task.lease = some lease.token ∧ lease.expiresAt = now.after limits.visibilityTimeout

lemma makes_delivery_iff (b : Broker) (lease : Lease) (entry : QueueEntry) (order : ReturnOrder)
    (weights : QueueWeights) (words : List UInt32) (now : Instant) :
    Exchange.Makes ⟨.claim order weights words now, .ok (some (b.delivery entry now))⟩ b.limits
      lease ↔ lease = b.leaseOn entry now := by
  constructor
  · rintro ⟨_, _, _, _, hexchange, htoken, hexpires⟩
    obtain ⟨task, token, expiresAt⟩ := lease
    obtain ⟨hcall, htask⟩ := Exchange.mk.inj hexchange
    cases hcall
    simp only [Outcome.ok.injEq, Option.some.injEq] at htask htoken hexpires
    rw [← htask] at htoken ⊢
    rw [hexpires, ← Option.some.inj htoken]
    rfl
  · rintro rfl
    exact ⟨order, weights, words, now, rfl, rfl, rfl⟩

namespace Transition

variable {b next : Broker} {call : Call} {answer : Answer} {id : String} {lease : Lease}

/-- A report that is not refused takes off the claim that it names, and no other. -/
lemma get?_dropLease_iff (hb : b.WellFormed) {report : Task} {owned : Lease}
    (howns : b.Owns report owned) :
    Table.get? id (b.dropLease report.id).leases = some lease ↔
      Table.get? id b.leases = some lease ∧ report.lease ≠ some lease.token := by
  rw [WellFormed.get?_dropLease]
  by_cases hid : report.id = id
  · subst hid
    simp only [if_true, reduceCtorEq, false_iff, not_and, not_not]
    intro hget
    rw [howns.1] at hget
    cases hget
    exact howns.2
  · simp only [hid, if_false]
    refine ⟨fun hget => ⟨hget, fun htoken => hid ?_⟩, And.left⟩
    rw [howns.2, Option.some.injEq] at htoken
    exact hb.token_inj howns.1 hget htoken

/-- The claims after a call: those that it does not end, and the one that it makes. -/
theorem get?_leases (h : Transition b call answer next) (hb : b.WellFormed) :
    Table.get? id next.leases = some lease ↔
      (Table.get? id b.leases = some lease ∧
        ¬ Exchange.Ends ⟨call, answer⟩ (some lease.token) lease.expiresAt) ∨
      (lease.task.id = id ∧ Exchange.Makes ⟨call, answer⟩ b.limits lease) := by
  cases h with
  | turnedAway =>
    simp [Exchange.not_ends_enqueue, Exchange.Makes]
  | enqueued =>
    change Table.get? id b.leases = some lease ↔ _
    simp [Exchange.not_ends_enqueue, Exchange.Makes]
  | unserved =>
    rw [hb.get?_recover, Exchange.ends_claim_iff]
    simp [Exchange.Makes]
  | @claimed order weights words now queue entry rest first =>
    have hrec := hb.recover order now
    have hnone := hrec.lease_none (hrec.mem_of_entries first)
    rw [WellFormed.get?_handOver, Exchange.ends_claim_iff, ← hb.get?_recover order now]
    have hmakes :=
      makes_delivery_iff (b.recover order now) lease entry order weights words now
    rw [recover_limits] at hmakes
    rw [hmakes]
    constructor
    · intro hget
      split at hget
      · next hid =>
        cases hget
        exact .inr ⟨hid, rfl⟩
      · exact .inl hget
    · rintro (hget | ⟨hid, rfl⟩)
      · have hne : entry.task.id ≠ id := by
          rintro rfl
          rw [hnone] at hget
          cases hget
        rw [if_neg hne, hget]
      · exact if_pos hid
  | disowned isReport =>
    simp [Exchange.not_ends_of_refused isReport, Exchange.Makes]
  | acked owns | retried owns | crashed owns | buried owns | released owns =>
    rw [Exchange.ends_report_iff rfl]
    exact (get?_dropLease_iff hb owns).trans (by simp [Exchange.Makes])

/-- A call that returns an envelope gives it the next token; no other call gives one out. -/
lemma nextLease_eq (h : Transition b call answer next) :
    match Exchange.delivered? ⟨call, answer⟩ with
    | some task => task.lease = some (b.nextLease + 1) ∧ next.nextLease = b.nextLease + 1
    | none => next.nextLease = b.nextLease := by
  cases h with
  | unserved => exact recover_nextLease _ _ _
  | claimed => simp [Exchange.delivered?, delivery, handOver]
  | disowned isReport => simp [Exchange.delivered?_of_report isReport]
  | _ => rfl

end Transition

/-! ## What a run does to the claims -/

/-- Whether the claims that a broker holds are those that stand at the end of its history, each
with the envelope that it returned and the time at which it lapses. -/
def Trace.Tracked (trace : Trace) : Prop :=
  ∀ id lease, Table.get? id trace.broker.leases = some lease ↔
    lease.task.id = id ∧ lease.task.lease = some lease.token ∧
      ∃ claimedAt, Stands trace.broker.limits trace.history lease.task claimedAt ∧
        lease.expiresAt = claimedAt.after trace.broker.limits.visibilityTimeout

namespace Trace

lemma extend_tracked {trace : Trace} (call : Call) (hb : trace.broker.WellFormed)
    (h : trace.Tracked) : (trace.extend call).Tracked := by
  intro id lease
  have hlimits := (trace.transition call).limits_eq
  rw [(trace.transition call).get?_leases hb, h id lease, hlimits]
  constructor
  · rintro (⟨⟨hid, htoken, claimedAt, hstands, hexpires⟩, hends⟩ | ⟨hid, hmakes⟩)
    · refine ⟨hid, htoken, claimedAt, stands_concat.mpr (.inl ⟨hstands, ?_⟩), hexpires⟩
      rwa [htoken, ← hexpires]
    · obtain ⟨order, weights, words, now, hexchange, htoken, hexpires⟩ := hmakes
      exact ⟨hid, htoken, now, stands_concat.mpr (.inr ⟨order, weights, words, hexchange⟩),
        hexpires⟩
  · rintro ⟨hid, htoken, claimedAt, hstands, hexpires⟩
    rcases stands_concat.mp hstands with ⟨hstands, hends⟩ | ⟨order, weights, words, hexchange⟩
    · refine .inl ⟨⟨hid, htoken, claimedAt, hstands, hexpires⟩, ?_⟩
      rwa [htoken, ← hexpires] at hends
    · exact .inr ⟨hid, order, weights, words, claimedAt, hexchange, htoken, hexpires⟩

theorem run_tracked (limits : BrokerLimits) (calls : List Call) : (run limits calls).Tracked := by
  refine run_induction ?_ (fun trace call hb _ h => extend_tracked call hb h) calls
  intro id lease
  constructor
  · intro hget
    cases hget
  · rintro ⟨-, -, claimedAt, hstands, -⟩
    exact absurd hstands stands_nil

/-- The tokens of the claims are the numbers from one on, in the order of the claims. -/
theorem run_tokens (limits : BrokerLimits) (calls : List Call) :
    (run limits calls).history.deliveries.map (·.lease) =
      (List.range (run limits calls).broker.nextLease).map fun n => some (n + 1) := by
  refine run_induction (motive := fun trace =>
    trace.history.deliveries.map (·.lease) =
      (List.range trace.broker.nextLease).map fun n => some (n + 1)) rfl ?_ calls
  intro trace call _ _ ih
  have hnext := (trace.transition call).nextLease_eq
  rw [History.deliveries, filterMap_extend, List.map_append, ← History.deliveries, ih]
  cases hdelivered : Exchange.delivered? ⟨call, (trace.broker.serve call).1⟩ with
  | none =>
    rw [hdelivered] at hnext
    simp [hnext]
  | some task =>
    rw [hdelivered] at hnext
    obtain ⟨htoken, hnext⟩ := hnext
    simp [hnext, htoken, List.range_succ]

/-- No two claims returned the same token. -/
lemma deliveries_nodup (limits : BrokerLimits) (calls : List Call) :
    ((run limits calls).history.deliveries.map (·.lease)).Nodup := by
  rw [run_tokens]
  exact List.nodup_range.map fun n m h => by simpa using h

/-- An envelope that was returned is known by its token. -/
lemma delivery_inj (limits : BrokerLimits) (calls : List Call) {task other : Task}
    (htask : task ∈ (run limits calls).history.deliveries)
    (hother : other ∈ (run limits calls).history.deliveries) (hlease : task.lease = other.lease) :
    task = other :=
  List.inj_on_of_nodup_map (deliveries_nodup limits calls) htask hother hlease

lemma mem_deliveries_of_stands {limits : BrokerLimits} {history : History} {task : Task}
    {claimedAt : Instant} (h : Stands limits history task claimedAt) :
    task ∈ history.deliveries := by
  obtain ⟨before, order, weights, words, after, rfl, -⟩ := h
  simp [History.deliveries, Exchange.delivered?]

/-- The envelope under a claim is the one that the claim returned. -/
lemma mem_deliveries_of_lease {trace : Trace} (h : trace.Tracked) {id : String} {lease : Lease}
    (hget : Table.get? id trace.broker.leases = some lease) :
    lease.task ∈ trace.history.deliveries := by
  obtain ⟨-, -, claimedAt, hstands, -⟩ := (h id lease).mp hget
  exact mem_deliveries_of_stands hstands

end Trace
end Broker
end WorkQueue
