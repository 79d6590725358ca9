import WorkQueue.Accounts.Service
import WorkQueue.Proofs.Accounts.Links
import WorkQueue.Proofs.Site
import WorkQueue.Proofs.Text.Utf8

/-!
# Following a link

Whoever follows the link of a verification record (`Visit`) asks the accounts to use the record, and
these look at the arguments before they ask the store.  The link of a record is `Presentable` if it
passes this check: its id is positive, and its secret is one that the handler of verification tasks
asks for.

Between the making of a record and a visit anything may happen at the site, other visits included,
and so may it during a visit.  That a link `Works` means that none of this spoils it: the first
visit succeeds if it comes in time, and none after it does (`works_of_stays`).
-/

namespace WorkQueue
namespace Accounts

open Procedure Site Store

variable {site later : Site} {acts : List Act} {record : VerifyEmail} {user : User}

/-- Whether the link of a record passes the check of its arguments. -/
structure Presentable (record : VerifyEmail) : Prop where
  id_pos : 0 < record.id
  length : record.secretCode.length = Verification.secretLength
  alphanumeric : ∀ c ∈ record.secretCode.toList, c.isAlphanum = true

lemma Presentable.argumentProblem (h : Presentable record) :
    argumentProblem record.id record.secretCode = none := by
  have hid := h.id_pos
  have hsize := Text.Utf8.utf8ByteSize_of_isAlphanum h.alphanumeric
  rw [h.length] at hsize
  simp [Accounts.argumentProblem, hid, hsize, minSecretLength, maxSecretLength,
    Verification.secretLength]

/-- As long as the link of a record is not used, the record stays as it is. -/
lemma stays_of_unused (hsite : site.Reachable) (h : site.LeadsTo acts later)
    (hmem : record ∈ site.store.records) (huses : uses record (storeCalls acts) = []) :
    record ∈ later.store.records := by
  obtain ⟨hawaits, hsound⟩ := hsite.awaits_sound
  rw [store, h.traffic_eq]
  exact hawaits.stays_onward hsound hmem huses

/-! ## Visits -/

/-- A visit of the link of a record, which begins at a site. -/
structure Visit (record : VerifyEmail) (site : Site) where
  log : List Answered
  result : Except AccountError User
  ends : Ends (verifyEmail record.id record.secretCode) log result
  /-- What is done until the visit ends, by the visitor and by others. -/
  acts : List Act
  later : Site
  serves : site.Serves log acts later

/-- A link can be followed at any time. -/
lemma nonempty_visit (record : VerifyEmail) (site : Site) : Nonempty (Visit record site) := by
  cases hproblem : argumentProblem record.id record.secretCode with
  | some problem =>
    have hends : Ends (verifyEmail record.id record.secretCode) []
        (.error (.invalidArgument problem)) := by
      rw [verifyEmail, hproblem]
      exact .done _
    exact ⟨⟨[], _, hends, [], site, .nil site⟩⟩
  | none =>
    let answer := (site.store.verifyEmail record.id record.secretCode site.now).map (·.1)
    have hends : Ends (verifyEmail record.id record.secretCode)
        [⟨.verifyEmail record.id record.secretCode, answer⟩] (answer.mapError .store) := by
      rw [verifyEmail, hproblem]
      refine ends_request_iff.mpr ⟨answer, [], rfl, ?_⟩
      cases answer <;> exact .done _
    exact ⟨⟨_, _, hends, _, _, .cons (.refl site) rfl (.nil _)⟩⟩

namespace Visit

/-- A visit asks the store once, after whatever others do. -/
lemma asks (visit : Visit record site) (hrecord : Presentable record) :
    ∃ before middle, site.LeadsTo before middle ∧
      visit.result = ((middle.store.verifyEmail record.id record.secretCode middle.now).map
        (·.1)).mapError .store ∧
      visit.acts = before ++ [.store (.verifyEmail record.id record.secretCode middle.now)] ∧
      visit.later =
        middle.apply (.store (.verifyEmail record.id record.secretCode middle.now)) := by
  have hends := visit.ends
  have hserves := visit.serves
  simp only [verifyEmail, hrecord.argumentProblem, ends_request_iff] at hends
  obtain ⟨answer, rest, hlog, hends⟩ := hends
  rw [hlog, serves_cons_iff] at hserves
  obtain ⟨before, middle, further, hbefore, htruthful, hserves, hacts⟩ := hserves
  have hanswer : answer =
      (middle.store.verifyEmail record.id record.secretCode middle.now).map (·.1) := htruthful
  refine ⟨before, middle, hbefore, ?_⟩
  rw [← hanswer]
  cases answer with
  | error | ok =>
    obtain ⟨rfl, hresult⟩ := ends_pure_iff.mp hends
    obtain ⟨rfl, hlater⟩ := serves_nil_iff.mp hserves
    exact ⟨hresult.symm, hacts.trans (List.append_nil _), hlater⟩

/-- A visit of a link that was not used succeeds, unless somebody else comes first. -/
lemma succeeds (visit : Visit record site) (hsite : site.Reachable) (hrecord : Presentable record)
    (hmem : record ∈ site.store.records) (hunused : record.isUsed = false) {verified : Bool}
    (huser : Table.get? record.username site.store.users =
      some { user with isEmailVerified := verified })
    (hfirst : (uses record (storeCalls visit.acts)).length ≤ 1)
    (htime : ∀ time ∈ uses record (storeCalls visit.acts), time < record.expiredAt) :
    visit.result = .ok { user with isEmailVerified := true } := by
  obtain ⟨before, middle, hbefore, hresult, hacts, -⟩ := visit.asks hrecord
  have huses : uses record (storeCalls visit.acts) =
      uses record (storeCalls before) ++ [middle.now] := by
    simp [hacts, storeCalls, uses, Act.storeCall?, Call.use?]
  rw [huses, List.length_append, List.length_singleton] at hfirst
  have hothers : uses record (storeCalls before) = [] := List.length_eq_zero_iff.mp (by omega)
  -- The record waits for the visit, and its account is still the same but for the mark.
  have hmiddle := stays_of_unused hsite hbefore hmem hothers
  obtain ⟨owner, howner, hverify⟩ := verifyEmail_unused (hsite.leadsTo hbefore).awaits_sound.2
    hmiddle hunused (htime middle.now (by simp [huses]))
  obtain ⟨since, hkept⟩ := (hbefore.extends hsite).users record.username _ huser
  rw [howner] at hkept
  cases hkept
  rw [hresult, hverify]
  rfl

/-- After a visit that succeeds, the link is used. -/
lemma used_of_ok (visit : Visit record site) (hrecord : Presentable record)
    (hresult : visit.result = .ok user) :
    ∃ used ∈ visit.later.store.records, used.id = record.id ∧
      used.secretCode = record.secretCode ∧ used.isUsed = true := by
  obtain ⟨before, middle, -, hvisit, -, hlater⟩ := visit.asks hrecord
  rw [hresult] at hvisit
  cases hverify : middle.store.verifyEmail record.id record.secretCode middle.now with
  | error =>
    rw [hverify] at hvisit
    cases hvisit
  | ok made =>
    obtain ⟨found, owner, hfind, hcode, -, -, -, -, hnext⟩ := verifyEmail_ok hverify
    obtain ⟨hfound, hid⟩ := find_record hfind
    refine ⟨{ found with isUsed := true }, ?_, by exact_mod_cast hid, hcode, rfl⟩
    have hstore : visit.later.store = made.2 := by
      rw [hlater]
      change (middle.traffic.settle (middle.store.verifyEmail _ _ _)).store = made.2
      rw [hverify]
      rfl
    rw [hstore, hnext]
    exact used_mem_confirm hfound owner

/-- Once a link is used, a visit of it says so. -/
lemma refused (visit : Visit record site) (hsite : site.Reachable) (hrecord : Presentable record)
    {used : VerifyEmail} (hmem : used ∈ site.store.records) (hid : used.id = record.id)
    (hcode : used.secretCode = record.secretCode) (hused : used.isUsed = true) :
    visit.result = .error (.store .linkUsed) := by
  obtain ⟨before, middle, hbefore, hresult, -, -⟩ := visit.asks hrecord
  have hmiddle := (hbefore.extends hsite).mem_of_used hmem hused
  have hverify := verifyEmail_used (hsite.leadsTo hbefore).awaits_sound.2 hmiddle hused middle.now
  rw [hid, hcode] at hverify
  rw [hresult, hverify]
  rfl

end Visit

/-! ## Links that work -/

/-- Whether the link of a record works for an account, at a site that has come about by some acts
since the link was made. -/
structure Works (record : VerifyEmail) (user : User) (since : List Act) (site : Site) : Prop where
  /-- It can be followed at any time. -/
  possible : ∀ place, Nonempty (Visit record place)
  /-- The first visit verifies the account, if it comes before the link expires. -/
  first : ∀ visit : Visit record site,
    (uses record (storeCalls (since ++ visit.acts))).length ≤ 1 →
      (∀ time ∈ uses record (storeCalls visit.acts), time < record.expiredAt) →
        visit.result = .ok { user with isEmailVerified := true }
  /-- A visit after one that succeeded is told that the link was used. -/
  again : ∀ (visit : Visit record site) (account : User), visit.result = .ok account →
    ∀ second : Visit record visit.later, second.result = .error (.store .linkUsed)

/-- The link of a record works if the record stays in the store as long as it is not used. -/
lemma works_of_stays {since : List Act} (hsite : site.Reachable) (hrecord : Presentable record)
    (hunused : record.isUsed = false) {verified : Bool}
    (huser : Table.get? record.username site.store.users =
      some { user with isEmailVerified := verified })
    (hstays : uses record (storeCalls since) = [] → record ∈ site.store.records) :
    Works record user since site where
  possible := nonempty_visit record
  first visit hfirst htime := by
    have huses : uses record (storeCalls (since ++ visit.acts)) =
        uses record (storeCalls since) ++ uses record (storeCalls visit.acts) := by
      simp [storeCalls, uses]
    obtain ⟨before, middle, -, -, hacts, -⟩ := visit.asks hrecord
    have hown : 0 < (uses record (storeCalls visit.acts)).length := by
      simp [hacts, storeCalls, uses, Act.storeCall?, Call.use?]
    rw [huses, List.length_append] at hfirst
    have hothers : uses record (storeCalls since) = [] := List.length_eq_zero_iff.mp (by omega)
    exact visit.succeeds hsite hrecord (hstays hothers) hunused huser (by omega) htime
  again visit account hresult second := by
    obtain ⟨used, hmem, hid, hcode, hused⟩ := visit.used_of_ok hrecord hresult
    exact second.refused (hsite.leadsTo visit.serves.leadsTo) hrecord hmem hid hcode hused

end Accounts
end WorkQueue
