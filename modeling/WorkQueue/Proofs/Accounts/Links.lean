import WorkQueue.Proofs.Accounts.Store
import WorkQueue.Proofs.Time.Instant

/-!
# The life of a link

A link shows the id and the secret of a verification record.  The record stays in the store as it
was made until the link is used (`Traffic.Awaits.stays_onward`).  Using it in time marks the record
and its account (`verifyEmail_unused`), and from then on the store says of every use that it was
used before (`verifyEmail_used`).
-/

namespace WorkQueue
namespace Store

variable {store next : Store} {record : VerifyEmail} {now : Instant} {traffic : Traffic}
  {calls : List Call}

/-- When a call uses the link of a record, if it does. -/
def Call.use? (record : VerifyEmail) : Call → Option Instant
  | .verifyEmail id secretCode now =>
    if id = record.id ∧ secretCode = record.secretCode then some now else none
  | _ => none

/-- When calls use the link of a record, in order. -/
def uses (record : VerifyEmail) (calls : List Call) : List Instant :=
  calls.filterMap (·.use? record)

/-- The id of a record finds it. -/
lemma Sound.find_of_mem (h : store.Sound) (hrecord : record ∈ store.records) :
    store.records.find? (fun other => other.id = record.id) = some record := by
  cases hfound : store.records.find? fun other => other.id = record.id with
  | none => exact absurd (by simp) (List.find?_eq_none.mp hfound record hrecord)
  | some other =>
    obtain ⟨hother, hid⟩ := find_record hfound
    rw [h.record_inj hother hrecord hid]

/-! ## Using a link -/

/-- A link that was not used works before it expires. -/
lemma verifyEmail_unused (h : store.Sound) (hrecord : record ∈ store.records)
    (hunused : record.isUsed = false) (htime : now < record.expiredAt) :
    ∃ owner, Table.get? record.username store.users = some owner ∧
      store.verifyEmail record.id record.secretCode now =
        .ok ({ owner with isEmailVerified := true }, store.confirm record owner) := by
  obtain ⟨owner, howner⟩ := Option.isSome_iff_exists.mp (h.owned record hrecord)
  have hopen : ¬ record.expiredAt ≤ now := Int.not_le.mpr htime
  refine ⟨owner, howner, ?_⟩
  rw [verifyEmail, h.find_of_mem hrecord]
  simp [hunused, hopen, howner, confirm]

/-- A link that was used does not work again, whether or not it has expired. -/
lemma verifyEmail_used (h : store.Sound) (hrecord : record ∈ store.records)
    (hused : record.isUsed = true) (now : Instant) :
    store.verifyEmail record.id record.secretCode now = .error .linkUsed := by
  rw [verifyEmail, h.find_of_mem hrecord]
  simp [hused]

/-- A record is used once its link has worked. -/
lemma used_mem_confirm (hrecord : record ∈ store.records) (owner : User) :
    { record with isUsed := true } ∈ (store.confirm record owner).records :=
  List.mem_map.mpr ⟨record, hrecord, by simp⟩

/-! ## Records that stay -/

/-- A record that was used stays so. -/
lemma Extends.mem_of_used (h : Extends next store) (hrecord : record ∈ store.records)
    (hused : record.isUsed = true) : record ∈ next.records := by
  obtain ⟨place, hplace⟩ := List.getElem?_of_mem hrecord
  obtain ⟨used, hnext⟩ := h.records place record hplace
  rw [hused, Bool.true_or, ← hused] at hnext
  exact List.mem_of_getElem? hnext

/-- A record stays when another is added. -/
lemma mem_of_added {params : NewVerifyEmail} {added : VerifyEmail}
    (h : store.addRecord? params now = some (added, next)) (hrecord : record ∈ store.records) :
    record ∈ next.records := by
  obtain ⟨-, -, -, rfl⟩ := addRecord?_some h
  exact List.mem_append_left _ hrecord

namespace Traffic

/-- A call that does not use the link of a record leaves the record alone. -/
lemma stays_apply (hsound : traffic.store.Sound) {call : Call}
    (hrecord : record ∈ traffic.store.records) (huse : call.use? record = none) :
    record ∈ (traffic.apply call).store.records := by
  cases call with
  | createUser params now =>
    simp only [apply]
    cases hcreate : traffic.store.createUser params now with
    | error => exact hrecord
    | ok made =>
      obtain ⟨-, -, -, hnext⟩ := createUser_ok hcreate
      rw [settle, hnext]
      exact hrecord
  | createVerifyEmail params now =>
    simp only [apply]
    cases hcreate : traffic.store.createVerifyEmail params now with
    | error => exact hrecord
    | ok made => exact mem_of_added (createVerifyEmail_ok hcreate).2 hrecord
  | propose params =>
    simp only [apply]
    split <;> exact hrecord
  | addProposed params now =>
    simp only [apply]
    split
    · split
      · next hadded => exact mem_of_added hadded hrecord
      · exact hrecord
    · exact hrecord
  | verifyEmail id secretCode now =>
    simp only [apply]
    cases hverify : traffic.store.verifyEmail id secretCode now with
    | error => exact hrecord
    | ok made =>
      obtain ⟨used, owner, hfind, rfl, -, -, -, -, hnext⟩ := verifyEmail_ok hverify
      obtain ⟨hused, rfl⟩ := find_record hfind
      have hid : record.id ≠ used.id := by
        intro hsame
        rw [hsound.record_inj hused hrecord hsame.symm] at huse
        simp [Call.use?] at huse
      rw [settle, hnext]
      exact List.mem_map.mpr ⟨record, hrecord, by simp [hid]⟩

/-- Calls that do not use the link of a record leave the record alone. -/
lemma Awaits.stays_onward (h : traffic.Awaits) (hsound : traffic.store.Sound)
    (hrecord : record ∈ traffic.store.records) (huses : uses record calls = []) :
    record ∈ (traffic.onward calls).store.records := by
  induction calls generalizing traffic with
  | nil => exact hrecord
  | cons call calls ih =>
    rw [uses, List.filterMap_cons] at huses
    cases huse : call.use? record with
    | some now =>
      rw [huse] at huses
      cases huses
    | none =>
      rw [huse] at huses
      exact ih (h.apply call) ((h.change call).sound hsound)
        (stays_apply hsound hrecord huse) huses

end Traffic
end Store
end WorkQueue
