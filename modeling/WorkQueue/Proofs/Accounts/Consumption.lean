import WorkQueue.Proofs.Accounts.Links

/-!
# A link works once, in time, and for its owner

Whether the link of a record still works is a question about the past: it does unless an earlier use
of it succeeded.  The store answers it from a mark on the record.  `Traffic.consumed` is the past
itself, the ids whose records were consumed by the calls of a run, in order, and `Tallied` ties the
two together: a record bears the mark exactly if its id is among them.

A use of a link then ends in one of five ways (`Verdict`), of which only the last changes anything,
and that one does no more than it has to (`Confirms`).  The main statement is `links_guarded`.  One
of its clauses is about two runs: whoever shows a wrong secret is told the same, whatever became of
the record.
-/

namespace WorkQueue
namespace Store

variable {store next : Store} {record : VerifyEmail} {user : User} {now : Instant} {id : Int}
  {secretCode : String} {traffic : Traffic} {spent : List Int}

/-! ## What was consumed -/

namespace Traffic

/-- The id whose record a call consumes, if it does: that of a use that succeeds. -/
def consumed? (traffic : Traffic) : Call → Option Int
  | .verifyEmail id secretCode now =>
    match traffic.store.verifyEmail id secretCode now with
    | .ok _ => some id
    | .error _ => none
  | _ => none

/-- The ids whose records calls consume, in the order of the calls. -/
def consumed (traffic : Traffic) : List Call → List Int
  | [] => []
  | call :: calls => (traffic.consumed? call).toList ++ (traffic.apply call).consumed calls

lemma consumed_append (traffic : Traffic) (calls more : List Call) :
    traffic.consumed (calls ++ more) =
      traffic.consumed calls ++ (traffic.onward calls).consumed more := by
  induction calls generalizing traffic with
  | nil => rfl
  | cons call calls ih =>
    rw [List.cons_append, consumed, consumed, ih, List.append_assoc]
    rfl

end Traffic

/-! ## The marks of the records -/

/-- Whether the records of a store tell what was consumed. -/
structure Tallied (store : Store) (spent : List Int) : Prop where
  /-- A record is marked exactly if it was consumed. -/
  used_iff : ∀ record ∈ store.records, record.isUsed = true ↔ record.id ∈ spent
  /-- Only records are consumed. -/
  known : ∀ id ∈ spent, ∃ record ∈ store.records, record.id = id
  /-- No record is consumed twice. -/
  nodup : spent.Nodup
  /-- A record expires when the lifetime of links has passed since it was made. -/
  expiredAt : ∀ record ∈ store.records,
    record.createdAt.shift? store.lifetime = some record.expiredAt

lemma tallied_lasting (lifetime : Int) : (lasting lifetime).Tallied [] where
  used_iff := by simp [lasting]
  known := by simp
  nodup := List.nodup_nil
  expiredAt := by simp [lasting]

/-- Ids are no greater than the number of records. -/
lemma Sound.id_le (h : store.Sound) (hrecord : record ∈ store.records) :
    record.id ≤ store.records.length := by
  obtain ⟨place, hplace⟩ := List.getElem?_of_mem hrecord
  obtain ⟨hlt, -⟩ := List.getElem?_eq_some_iff.mp hplace
  rw [h.ids place record hplace]
  omega

namespace Tallied

/-- The records alone count, not the accounts. -/
lemma of_records (h : store.Tallied spent) (hrecords : next.records = store.records)
    (hlifetime : next.lifetime = store.lifetime) : next.Tallied spent where
  used_iff := hrecords ▸ h.used_iff
  known := hrecords ▸ h.known
  nodup := h.nodup
  expiredAt := by
    rw [hrecords, hlifetime]
    exact h.expiredAt

/-- A new record has an id that was not consumed. -/
lemma add (h : store.Tallied spent) (hsound : store.Sound) {params : NewVerifyEmail}
    (hadded : store.addRecord? params now = some (record, next)) : next.Tallied spent := by
  obtain ⟨expiredAt, hshift, hrecord, rfl⟩ := addRecord?_some hadded
  refine { used_iff := ?_, known := ?_, nodup := h.nodup, expiredAt := ?_ }
  · intro other hother
    rcases List.mem_append.mp hother with hold | hnew
    · exact h.used_iff other hold
    · have hnext : record.id = store.records.length + 1 := by rw [hrecord]
      have hunused : record.isUsed = false := by rw [hrecord]
      rw [List.mem_singleton.mp hnew, hunused]
      refine iff_of_false Bool.false_ne_true fun hspent => ?_
      obtain ⟨known, hknown, hid⟩ := h.known _ hspent
      have hle := hsound.id_le hknown
      omega
  · intro id hid
    obtain ⟨known, hknown, hsame⟩ := h.known id hid
    exact ⟨known, List.mem_append_left _ hknown, hsame⟩
  · intro other hother
    rcases List.mem_append.mp hother with hold | hnew
    · exact h.expiredAt other hold
    · rw [List.mem_singleton.mp hnew, hrecord]
      exact hshift

/-- The mark is set on the record that is consumed, and on no other. -/
lemma confirm (h : store.Tallied spent) (hrecord : record ∈ store.records)
    (hunused : record.isUsed = false) (owner : User) :
    (store.confirm record owner).Tallied (spent ++ [record.id]) where
  used_iff := by
    intro after hafter
    obtain ⟨before, hbefore, rfl⟩ := List.mem_map.mp hafter
    by_cases hid : before.id = record.id
    · simp [hid]
    · simp [hid, h.used_iff before hbefore]
  known := by
    intro id hid
    have hmade : ∃ before ∈ store.records, before.id = id := by
      rcases List.mem_append.mp hid with hold | hnew
      · exact h.known id hold
      · exact ⟨record, hrecord, (List.mem_singleton.mp hnew).symm⟩
    obtain ⟨before, hbefore, hsame⟩ := hmade
    refine ⟨_, List.mem_map.mpr ⟨before, hbefore, rfl⟩, ?_⟩
    split <;> exact hsame
  nodup := by
    have hnew : record.id ∉ spent := by
      rw [← h.used_iff record hrecord, hunused]
      exact Bool.false_ne_true
    rw [List.nodup_append]
    refine ⟨h.nodup, List.nodup_singleton _, ?_⟩
    rintro id hid other hother rfl
    exact hnew (List.mem_singleton.mp hother ▸ hid)
  expiredAt := by
    intro after hafter
    obtain ⟨before, hbefore, rfl⟩ := List.mem_map.mp hafter
    split <;> exact h.expiredAt before hbefore

/-- Every call keeps the tally, with what it consumes. -/
lemma apply (h : traffic.store.Tallied spent) (hsound : traffic.store.Sound) (call : Call) :
    (traffic.apply call).store.Tallied (spent ++ (traffic.consumed? call).toList) := by
  cases call with
  | createUser params now =>
    change Tallied _ (spent ++ [])
    rw [List.append_nil, Traffic.apply]
    cases hcreate : traffic.store.createUser params now with
    | error => exact h
    | ok made =>
      obtain ⟨-, -, -, hnext⟩ := createUser_ok hcreate
      rw [Traffic.settle, hnext]
      exact h.of_records rfl rfl
  | createVerifyEmail params now =>
    change Tallied _ (spent ++ [])
    rw [List.append_nil, Traffic.apply]
    cases hcreate : traffic.store.createVerifyEmail params now with
    | error => exact h
    | ok made => exact h.add hsound (createVerifyEmail_ok hcreate).2
  | propose params =>
    change Tallied _ (spent ++ [])
    rw [List.append_nil, Traffic.apply]
    split <;> exact h
  | addProposed params now =>
    change Tallied _ (spent ++ [])
    rw [List.append_nil, Traffic.apply]
    split
    · split
      · next hadded => exact h.add hsound hadded
      · exact h
    · exact h
  | verifyEmail id secretCode now =>
    simp only [Traffic.consumed?, Traffic.apply]
    cases hverify : traffic.store.verifyEmail id secretCode now with
    | error =>
      rw [Option.toList_none, List.append_nil]
      exact h
    | ok made =>
      obtain ⟨record, owner, hfind, -, hunused, -, -, -, hnext⟩ := verifyEmail_ok hverify
      obtain ⟨hrecord, hid⟩ := find_record hfind
      rw [Traffic.settle, hnext, ← hid]
      exact h.confirm hrecord hunused owner

end Tallied

/-- The ids whose records were consumed in a run of clients from the start. -/
def Traffic.consumedBy (lifetime : Int) (calls : List Call) : List Int :=
  consumed ⟨lasting lifetime, []⟩ calls

/-- What every call preserves holds after every run. -/
lemma Traffic.run_tallied (lifetime : Int) (calls : List Call) :
    (run lifetime calls).store.Sound ∧
      (run lifetime calls).store.Tallied (consumedBy lifetime calls) := by
  have hsound : ∀ calls, (run lifetime calls).store.Sound := fun calls =>
    ((awaits_lasting lifetime).onward (sound_lasting lifetime) calls).2.1
  refine ⟨hsound calls, ?_⟩
  induction calls using List.reverseRecOn with
  | nil => exact tallied_lasting lifetime
  | append_singleton calls call ih =>
    rw [run_append, consumedBy, consumed_append, consumed, consumed, List.append_nil]
    exact ih.apply (hsound calls) call

/-! ## What becomes of a use -/

/-- Whether a store is the one before, but for the mark of one record and that of its account. -/
structure Confirms (before : Store) (record : VerifyEmail) (user : User) (after : Store) :
    Prop where
  lifetime : after.lifetime = before.lifetime
  records : after.records =
    before.records.map fun other => if other = record then { record with isUsed := true } else other
  /-- The account was there and is verified now. -/
  owner : ∃ owner, Table.get? record.username before.users = some owner ∧
    user = { owner with isEmailVerified := true } ∧
    Table.get? record.username after.users = some user
  /-- The other accounts are as they were. -/
  others : ∀ name, name ≠ record.username →
    Table.get? name after.users = Table.get? name before.users

lemma confirms_confirm (h : store.Sound) (hrecord : record ∈ store.records)
    (howner : Table.get? record.username store.users = some user) :
    Confirms store record { user with isEmailVerified := true } (store.confirm record user) where
  lifetime := rfl
  records := by
    refine List.map_congr_left fun other hother => ?_
    by_cases hsame : other = record
    · simp [hsame]
    · have hid : other.id ≠ record.id := fun hid => hsame (h.record_inj hother hrecord hid)
      rw [if_neg hsame, if_neg hid]
  owner := ⟨user, howner, rfl, by simp [confirm, Table.get?_put]⟩
  others name hname := by simp [confirm, Table.get?_put, hname.symm]

/-- How a use of a link ends, by the records of the store and the ids that were consumed before. -/
inductive Verdict (store : Store) (spent : List Int) (id : Int) (secretCode : String)
    (now : Instant) : Except StoreError (User × Store) → Prop
  | unknown (absent : ∀ record ∈ store.records, record.id ≠ id) :
      Verdict store spent id secretCode now (.error .notFound)
  | mismatch {record : VerifyEmail} (made : record ∈ store.records)
      (same : record.id = id) (wrong : record.secretCode ≠ secretCode) :
      Verdict store spent id secretCode now (.error .secretMismatch)
  | used {record : VerifyEmail} (made : record ∈ store.records) (same : record.id = id)
      (right : record.secretCode = secretCode) (consumed : id ∈ spent) :
      Verdict store spent id secretCode now (.error .linkUsed)
  | expired {record : VerifyEmail} (made : record ∈ store.records)
      (same : record.id = id) (right : record.secretCode = secretCode)
      (unconsumed : id ∉ spent) (late : record.expiredAt ≤ now) :
      Verdict store spent id secretCode now (.error .linkExpired)
  | verified {record : VerifyEmail} {user : User} {next : Store} (made : record ∈ store.records)
      (same : record.id = id) (right : record.secretCode = secretCode)
      (unconsumed : id ∉ spent) (early : now < record.expiredAt)
      (confirms : Confirms store record user next) :
      Verdict store spent id secretCode now (.ok (user, next))

/-- The links of a store, by id and secret. -/
def links (store : Store) : List (Int × String) :=
  store.records.map fun record => (record.id, record.secretCode)

lemma mem_links {link : Int × String} :
    link ∈ store.links ↔
      ∃ record ∈ store.records, record.id = link.1 ∧ record.secretCode = link.2 := by
  simp [links, Prod.ext_iff]

/-- Whoever does not know the secret of a link is told whether there is such a link, and that is
all. -/
lemma Verdict.of_wrong {outcome : Except StoreError (User × Store)}
    (h : Verdict store spent id secretCode now outcome)
    (hwrong : ∀ link ∈ store.links, link.1 = id → link.2 ≠ secretCode) :
    outcome = .error (if ∃ link ∈ store.links, link.1 = id then .secretMismatch
      else .notFound) := by
  have hlink : ∀ record ∈ store.records, (record.id, record.secretCode) ∈ store.links :=
    fun record hrecord => mem_links.mpr ⟨record, hrecord, rfl, rfl⟩
  cases h with
  | unknown absent =>
    have hnone : ¬ ∃ link ∈ store.links, link.1 = id := by
      rintro ⟨link, hmem, hid⟩
      obtain ⟨record, hrecord, hsame, -⟩ := mem_links.mp hmem
      exact absent record hrecord (hsame ▸ hid)
    rw [if_neg hnone]
  | mismatch made same => rw [if_pos ⟨_, hlink _ made, same⟩]
  | used made same right => exact absurd right (hwrong _ (hlink _ made) same)
  | expired made same right => exact absurd right (hwrong _ (hlink _ made) same)
  | verified made same right => exact absurd right (hwrong _ (hlink _ made) same)

namespace Tallied

/-- Every use ends in one of these ways; that the account is missing is not one of them. -/
lemma verdict (h : store.Tallied spent) (hsound : store.Sound) (id : Int) (secretCode : String)
    (now : Instant) :
    Verdict store spent id secretCode now (store.verifyEmail id secretCode now) := by
  rw [verifyEmail]
  cases hfind : store.records.find? fun record => record.id = id with
  | none =>
    refine .unknown fun record hrecord hid => ?_
    have hother := List.find?_eq_none.mp hfind record hrecord
    simp [hid] at hother
  | some record =>
    obtain ⟨hrecord, hid⟩ := find_record hfind
    have hused : record.isUsed = true ↔ id ∈ spent := hid ▸ h.used_iff record hrecord
    by_cases hright : record.secretCode = secretCode
    · by_cases hspent : record.isUsed = true
      · simp only [hright, hspent, ne_eq, not_true, if_false, if_true]
        exact .used hrecord hid hright (hused.mp hspent)
      · have hunspent : id ∉ spent := fun hmem => hspent (hused.mpr hmem)
        by_cases hlate : record.expiredAt ≤ now
        · simp only [hright, hspent, hlate, ne_eq, not_true, if_false, if_true]
          exact .expired hrecord hid hright hunspent hlate
        · obtain ⟨owner, howner⟩ := Option.isSome_iff_exists.mp (hsound.owned record hrecord)
          simp only [hright, hspent, hlate, howner, ne_eq, not_true, if_false]
          exact .verified hrecord hid hright hunspent (Int.not_le.mp hlate)
            (confirms_confirm hsound hrecord howner)
    · simp only [hright, ne_eq, not_false_eq_true, if_true]
      exact .mismatch hrecord hid hright

lemma succeeds_iff (h : store.Tallied spent) (hsound : store.Sound) (id : Int)
    (secretCode : String) (now : Instant) :
    (∃ user next, store.verifyEmail id secretCode now = .ok (user, next)) ↔
      ∃ record ∈ store.records, record.id = id ∧ record.secretCode = secretCode ∧
        id ∉ spent ∧ now < record.expiredAt := by
  constructor
  · rintro ⟨user, next, hok⟩
    have hverdict := h.verdict hsound id secretCode now
    rw [hok] at hverdict
    cases hverdict with
    | verified made same right unconsumed early =>
      exact ⟨_, made, same, right, unconsumed, early⟩
  · rintro ⟨record, hrecord, rfl, rfl, hunspent, hearly⟩
    have hunused : record.isUsed = false := by
      rw [← h.used_iff record hrecord] at hunspent
      simpa using hunspent
    obtain ⟨owner, -, hok⟩ := verifyEmail_unused hsound hrecord hunused hearly
    exact ⟨_, _, hok⟩

end Tallied

/-! ## Links are guarded -/

/-- What it means that links are guarded after a run of clients: each works once, in time, and for
its owner only. -/
structure GuardsLinks (life : Int) (calls : List Call) : Prop where
  /-- A link expires when its lifetime has passed since its record was made. -/
  lifetime : ∀ record ∈ (Traffic.run life calls).store.records,
    record.expiredAt.nanos = record.createdAt.nanos + life
  /-- A use succeeds exactly if it names a record by its id and its secret, no use of that id has
  succeeded before, and the record has not expired. -/
  succeeds_iff : ∀ id secretCode now,
    (∃ user next, (Traffic.run life calls).store.verifyEmail id secretCode now =
      .ok (user, next)) ↔
    ∃ record ∈ (Traffic.run life calls).store.records, record.id = id ∧
      record.secretCode = secretCode ∧ id ∉ Traffic.consumedBy life calls ∧
      now < record.expiredAt
  /-- What is answered, and what becomes of the store if the use succeeds. -/
  verdict : ∀ id secretCode now,
    Verdict (Traffic.run life calls).store (Traffic.consumedBy life calls) id secretCode now
      ((Traffic.run life calls).store.verifyEmail id secretCode now)
  /-- What a use that succeeds leaves is the store that the next call finds. -/
  confirmed : ∀ id secretCode now user next,
    (Traffic.run life calls).store.verifyEmail id secretCode now = .ok (user, next) →
      (Traffic.run life (calls ++ [.verifyEmail id secretCode now])).store = next
  /-- A use that fails changes nothing. -/
  refused : ∀ id secretCode now error,
    (Traffic.run life calls).store.verifyEmail id secretCode now = .error error →
      Traffic.run life (calls ++ [.verifyEmail id secretCode now]) = Traffic.run life calls
  /-- No record was consumed twice. -/
  once : (Traffic.consumedBy life calls).Nodup
  /-- Whoever shows a wrong secret is told the same after every run that has made the same links, at
  any time. -/
  discreet : ∀ life' others id secretCode now now',
    (Traffic.run life' others).store.links = (Traffic.run life calls).store.links →
    (∀ link ∈ (Traffic.run life calls).store.links, link.1 = id →
      link.2 ≠ secretCode) →
    ∃ error, (Traffic.run life calls).store.verifyEmail id secretCode now = .error error ∧
      (Traffic.run life' others).store.verifyEmail id secretCode now' = .error error

/-- **A link works once, in time, and for its owner only.**  Whatever clients have asked for and in
whatever order, the use of a link succeeds exactly if it shows the secret of a record that no use
has consumed and that has not expired; it then sets the marks of the record and of its account and
changes nothing else.  A use that fails changes nothing, and tells nothing of the record to whoever
does not know its secret. -/
theorem links_guarded (life : Int) (calls : List Call) : GuardsLinks life calls := by
  obtain ⟨hsound, htallied⟩ := Traffic.run_tallied life calls
  refine ⟨?_, htallied.succeeds_iff hsound, htallied.verdict hsound, ?_, ?_, htallied.nodup, ?_⟩
  · intro record hrecord
    have hlifetime : (Traffic.run life calls).store.lifetime = life :=
      ((Traffic.awaits_lasting life).onward (sound_lasting life) calls).2.2.lifetime
    have hshift := htallied.expiredAt record hrecord
    rw [hlifetime] at hshift
    exact Instant.nanos_shift? hshift
  · intro id secretCode now user next hok
    rw [Traffic.run_append]
    simp [Traffic.onward, Traffic.apply, hok, Traffic.settle]
  · intro id secretCode now error herror
    rw [Traffic.run_append]
    simp [Traffic.onward, Traffic.apply, herror, Traffic.settle]
  · intro life' others id secretCode now now' hlinks hwrong
    obtain ⟨hsound', htallied'⟩ := Traffic.run_tallied life' others
    have hthis := (htallied.verdict hsound id secretCode now).of_wrong hwrong
    have hother := (htallied'.verdict hsound' id secretCode now').of_wrong (hlinks ▸ hwrong)
    rw [hlinks] at hother
    exact ⟨_, hthis, hother⟩

/-- A link of one second is open at its last millisecond and closed when the second is over. -/
example :
    let store := (Traffic.run 1000000000 [.createUser ⟨"alice", "Alice", "alice@home"⟩ .epoch,
      .createVerifyEmail ⟨"alice", "alice@home", "key"⟩ .epoch]).store
    let use := fun millis => (store.verifyEmail 1 "key" (.ofMillis millis)).toOption.isSome
    use 999 = true ∧ use 1000 = false := by
  decide +kernel

end Store
end WorkQueue
