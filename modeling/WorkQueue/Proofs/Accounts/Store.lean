import Mathlib.Data.List.Induction
import WorkQueue.Accounts.Store
import WorkQueue.Proofs.Table

/-!
# Accounts and their verification records

A store has two tables, the accounts by name and the verification records in the order of their
making, and nothing in its types ties the one to the other.  What ties them is `Sound`: a record
belongs to an account, its id is its place, and an account counts as verified exactly if one of its
records was used.

An operation that succeeds does one of three things to a store, and one that fails does nothing
(`Change`).  Each of them keeps `Sound`, and each only adds to what was there (`Extends`): accounts
and records stay as they were made, but for the two marks that a verification sets.

Making a record takes two looks at the store, and others may come in between: the account is looked
up first, and the record is added afterwards, unless there is no time left at which it would expire.
In a run of clients (`Traffic`) the records whose account was found wait until they are added.  The
main statement is `traffic_keeps_accounts`.
-/

namespace WorkQueue
namespace Store

variable {store next : Store} {name code : String} {user : User} {record : VerifyEmail}
  {now : Instant} {id : Int}

/-! ## What the operations do -/

/-- Marks a record as used and its account as verified. -/
def confirm (store : Store) (record : VerifyEmail) (user : User) : Store :=
  { store with
    users := Table.put record.username { user with isEmailVerified := true } store.users
    records := useRecord record.id store.records }

/-- A record that is added comes last, has the next id, and expires when the lifetime of records has
passed. -/
lemma addRecord?_some {params : NewVerifyEmail}
    (h : store.addRecord? params now = some (record, next)) :
    ∃ expiredAt, now.shift? store.lifetime = some expiredAt ∧
      record = ⟨store.records.length + 1, params.username, params.email, params.secretCode, false,
        now, expiredAt⟩ ∧
      next = { store with records := store.records ++ [record] } := by
  obtain ⟨expiredAt, hshift, hmade⟩ := Option.bind_eq_some_iff.mp h
  cases hmade
  exact ⟨expiredAt, hshift, rfl, rfl⟩

lemma createVerifyEmail_ok {params : NewVerifyEmail}
    (h : store.createVerifyEmail params now = .ok (record, next)) :
    Table.has params.username store.users = true ∧
      store.addRecord? params now = some (record, next) := by
  unfold createVerifyEmail at h
  split at h
  · next howned =>
    split at h
    · next hadded =>
      cases h
      exact ⟨howned, hadded⟩
    · cases h
  · cases h

lemma createUser_ok {params : NewUser} (h : store.createUser params now = .ok (user, next)) :
    Table.get? params.username store.users = none ∧
      (∀ entry ∈ store.users, entry.2.email ≠ params.email) ∧
      user = ⟨params.username, params.fullName, params.email, false, now⟩ ∧
      next = { store with users := Table.put user.username user store.users } := by
  unfold createUser at h
  split at h
  · cases h
  · next hname =>
    split at h
    · cases h
    · next hemail =>
      cases h
      refine ⟨by simpa [Table.has] using hname, fun entry hentry heq => hemail ?_, rfl, rfl⟩
      exact List.any_eq_true.mpr ⟨entry, hentry, by simpa using heq⟩

lemma find_record (h : store.records.find? (fun record => record.id = id) = some record) :
    record ∈ store.records ∧ record.id = id :=
  ⟨List.mem_of_find?_eq_some h, by simpa using List.find?_some h⟩

/-- A verification that succeeds shows the secret of a record that was not used, in time. -/
lemma verifyEmail_ok (h : store.verifyEmail id code now = .ok (user, next)) :
    ∃ record owner, store.records.find? (fun record => record.id = id) = some record ∧
      record.secretCode = code ∧ record.isUsed = false ∧ ¬ record.expiredAt ≤ now ∧
      Table.get? record.username store.users = some owner ∧
      user = { owner with isEmailVerified := true } ∧ next = store.confirm record owner := by
  unfold verifyEmail at h
  split at h
  · cases h
  · next record hfind =>
    split at h
    · cases h
    · next hcode =>
      split at h
      · cases h
      · next hused =>
        split at h
        · cases h
        · next htime =>
          split at h
          · cases h
          · next owner howner =>
            cases h
            exact ⟨record, owner, hfind, not_not.mp hcode, by simpa using hused, htime, howner,
              rfl, rfl⟩

/-- What an operation can do to a store. -/
inductive Change (store : Store) : Store → Prop
  | none : Change store store
  | joined {user : User} (free : Table.get? user.username store.users = .none)
      (unshared : ∀ entry ∈ store.users, entry.2.email ≠ user.email)
      (unverified : user.isEmailVerified = false) :
      Change store { store with users := Table.put user.username user store.users }
  | recorded {params : NewVerifyEmail} {now : Instant} {record : VerifyEmail} {next : Store}
      (owned : Table.has params.username store.users = true)
      (added : store.addRecord? params now = some (record, next)) : Change store next
  | confirmed {record : VerifyEmail} {owner : User} (made : record ∈ store.records)
      (owned : Table.get? record.username store.users = some owner) :
      Change store (store.confirm record owner)

lemma change_createUser {params : NewUser} (h : store.createUser params now = .ok (user, next)) :
    Change store next := by
  obtain ⟨hfree, hunshared, rfl, rfl⟩ := createUser_ok h
  exact .joined hfree hunshared rfl

lemma change_createVerifyEmail {params : NewVerifyEmail}
    (h : store.createVerifyEmail params now = .ok (record, next)) : Change store next := by
  obtain ⟨howned, hadded⟩ := createVerifyEmail_ok h
  exact .recorded howned hadded

lemma change_verifyEmail (h : store.verifyEmail id code now = .ok (user, next)) :
    Change store next := by
  obtain ⟨record, owner, hfind, -, -, -, howner, -, rfl⟩ := verifyEmail_ok h
  exact .confirmed (find_record hfind).1 howner

/-! ## Nothing is taken away -/

/-- Whether a store has everything that another has: its accounts under their names, its records in
their places, each as it was made, and each mark that was set. -/
structure Extends (after before : Store) : Prop where
  lifetime : after.lifetime = before.lifetime
  users : ∀ name user, Table.get? name before.users = some user → ∃ verified : Bool,
    Table.get? name after.users =
      some { user with isEmailVerified := user.isEmailVerified || verified }
  records : ∀ (place : Nat) (record : VerifyEmail), before.records[place]? = some record →
    ∃ used : Bool, after.records[place]? = some { record with isUsed := record.isUsed || used }

namespace Extends

@[refl] lemma refl (store : Store) : Extends store store where
  lifetime := rfl
  users name user huser := ⟨false, by simpa using huser⟩
  records place record hrecord := ⟨false, by simpa using hrecord⟩

lemma trans {first middle last : Store} (h : Extends last middle) (h' : Extends middle first) :
    Extends last first where
  lifetime := h.lifetime.trans h'.lifetime
  users name user huser := by
    obtain ⟨verified, hmiddle⟩ := h'.users name user huser
    obtain ⟨again, hlast⟩ := h.users name _ hmiddle
    exact ⟨verified || again, by simpa [Bool.or_assoc] using hlast⟩
  records place record hrecord := by
    obtain ⟨used, hmiddle⟩ := h'.records place record hrecord
    obtain ⟨again, hlast⟩ := h.records place _ hmiddle
    exact ⟨used || again, by simpa [Bool.or_assoc] using hlast⟩

/-- An account that was there is still there. -/
lemma has (h : Extends next store) (howned : Table.has name store.users = true) :
    Table.has name next.users = true := by
  obtain ⟨user, huser⟩ := Option.isSome_iff_exists.mp howned
  obtain ⟨verified, hnext⟩ := h.users name user huser
  rw [Table.has, hnext]
  rfl

end Extends

lemma Change.extends (h : Change store next) : Extends next store := by
  cases h with
  | none => rfl
  | @joined joined free =>
    refine ⟨rfl, fun name user huser => ⟨false, ?_⟩, (Extends.refl store).records⟩
    have hother : joined.username ≠ name := by
      rintro rfl
      rw [free] at huser
      cases huser
    simp [Table.get?_put, hother, huser]
  | recorded owned added =>
    obtain ⟨expiredAt, -, -, rfl⟩ := addRecord?_some added
    refine ⟨rfl, (Extends.refl store).users, fun place record hrecord => ⟨false, ?_⟩⟩
    obtain ⟨hplace, -⟩ := List.getElem?_eq_some_iff.mp hrecord
    simpa [List.getElem?_append_left hplace] using hrecord
  | @confirmed used owner made owned =>
    refine ⟨rfl, fun name user huser => ?_, fun place record hrecord => ?_⟩
    · by_cases hname : used.username = name
      · subst hname
        rw [owned] at huser
        cases huser
        exact ⟨true, by simp [confirm, Table.get?_put]⟩
      · exact ⟨false, by simp [confirm, Table.get?_put, hname, huser]⟩
    · by_cases hid : record.id = used.id
      · exact ⟨true, by simp [confirm, useRecord, hrecord, hid]⟩
      · exact ⟨false, by simp [confirm, useRecord, hrecord, hid]⟩

/-! ## Accounts and records belong together -/

/-- Whether the tables of a store belong together. -/
structure Sound (store : Store) : Prop where
  /-- No name is there twice. -/
  sorted : Table.Sorted store.users
  /-- Each account is under its own name. -/
  named : ∀ name user, Table.get? name store.users = some user → user.username = name
  /-- No two accounts have the same address. -/
  sole : ∀ name user other another, Table.get? name store.users = some user →
    Table.get? other store.users = some another → user.email = another.email → name = other
  /-- The id of a record is its place, counted from one. -/
  ids : ∀ (place : Nat) (record : VerifyEmail), store.records[place]? = some record →
    record.id = place + 1
  /-- Each record belongs to an account. -/
  owned : ∀ record ∈ store.records, Table.has record.username store.users = true
  /-- An account is verified exactly if a record of it was used. -/
  verified : ∀ name user, Table.get? name store.users = some user →
    (user.isEmailVerified = true ↔
      ∃ record ∈ store.records, record.username = name ∧ record.isUsed = true)

/-- An account of a store in which one was confirmed was there before, as it is but for the mark. -/
lemma user_of_confirm {other : User}
    (howned : Table.get? record.username store.users = some user)
    (hother : Table.get? name (store.confirm record user).users = some other) :
    ∃ before, Table.get? name store.users = some before ∧
      other = { before with
        isEmailVerified := before.isEmailVerified || decide (record.username = name) } := by
  simp only [confirm, Table.get?_put] at hother
  split at hother
  · next hname =>
    cases hother
    exact ⟨user, hname ▸ howned, by simp [hname]⟩
  · next hname => exact ⟨other, hother, by simp [hname]⟩

lemma sound_lasting (lifetime : Int) : (lasting lifetime).Sound where
  sorted := Table.sorted_nil
  named := by simp [lasting]
  sole := by simp [lasting]
  ids := by simp [lasting]
  owned := by simp [lasting]
  verified := by simp [lasting]

namespace Sound

/-- An id names one record. -/
lemma record_inj {other : VerifyEmail} (h : store.Sound) (hrecord : record ∈ store.records)
    (hother : other ∈ store.records) (hid : record.id = other.id) : record = other := by
  obtain ⟨place, hplace⟩ := List.getElem?_of_mem hrecord
  obtain ⟨place', hplace'⟩ := List.getElem?_of_mem hother
  have hsame : place = place' := by
    have hids := h.ids place record hplace
    have hids' := h.ids place' other hplace'
    omega
  subst hsame
  exact Option.some.inj (hplace.symm.trans hplace')

/-- A new account has no records yet. -/
lemma join (h : store.Sound) (hfree : Table.get? user.username store.users = none)
    (hunshared : ∀ entry ∈ store.users, entry.2.email ≠ user.email)
    (hunverified : user.isEmailVerified = false) :
    Sound { store with users := Table.put user.username user store.users } where
  sorted := h.sorted.put
  named name other hother := by
    rw [Table.get?_put] at hother
    split at hother
    · next hname =>
      cases hother
      exact hname
    · exact h.named name other hother
  sole name one other another hone hanother hemail := by
    rw [Table.get?_put] at hone hanother
    split at hone <;> split at hanother
    · next hname hother => exact hname.symm.trans hother
    · cases hone
      exact absurd hemail.symm (hunshared _ (Table.mem_of_get? hanother))
    · cases hanother
      exact absurd hemail (hunshared _ (Table.mem_of_get? hone))
    · exact h.sole name one other another hone hanother hemail
  ids := h.ids
  owned record hrecord := (Change.joined hfree hunshared hunverified).extends.has
    (h.owned record hrecord)
  verified name other hother := by
    rw [Table.get?_put] at hother
    split at hother
    · next hname =>
      cases hother
      subst hname
      rw [hunverified]
      simp only [Bool.false_eq_true, false_iff, not_exists, not_and]
      intro record hrecord hname
      have howned := h.owned record hrecord
      rw [hname, Table.has, hfree] at howned
      cases howned
    · exact h.verified name other hother

/-- A new record was not used yet. -/
lemma add (h : store.Sound) {params : NewVerifyEmail}
    (howned : Table.has params.username store.users = true)
    (hadded : store.addRecord? params now = some (record, next)) : next.Sound := by
  obtain ⟨expiredAt, -, hrecord, rfl⟩ := addRecord?_some hadded
  have hof : record.username = params.username := by rw [hrecord]
  have hid : record.id = store.records.length + 1 := by rw [hrecord]
  have hunused : record.isUsed = false := by rw [hrecord]
  refine { sorted := h.sorted, named := h.named, sole := h.sole, ids := ?_, owned := ?_,
           verified := ?_ }
  · intro place other hother
    rw [List.getElem?_append] at hother
    split at hother
    · exact h.ids place other hother
    · next hplace =>
      obtain ⟨hlast, rfl⟩ := List.getElem?_eq_some_iff.mp hother
      have hend : place = store.records.length := by
        rw [List.length_singleton] at hlast
        omega
      simp [hid, hend]
  · intro other hother
    rcases List.mem_append.mp hother with hother | hother
    · exact h.owned other hother
    · obtain rfl := List.mem_singleton.mp hother
      exact hof ▸ howned
  · intro name user huser
    rw [h.verified name user huser]
    simp [hunused, or_and_right, exists_or]

/-- The mark of a record and that of its account are set together. -/
lemma confirm (h : store.Sound) (hrecord : record ∈ store.records)
    (howned : Table.get? record.username store.users = some user) :
    (store.confirm record user).Sound where
  sorted := h.sorted.put
  named name other hother := by
    obtain ⟨before, hbefore, rfl⟩ := user_of_confirm howned hother
    exact h.named name before hbefore
  sole name one other another hone hanother hemail := by
    obtain ⟨before, hbefore, rfl⟩ := user_of_confirm howned hone
    obtain ⟨before', hbefore', rfl⟩ := user_of_confirm howned hanother
    exact h.sole name before other before' hbefore hbefore' hemail
  ids place other hother := by
    simp only [Store.confirm, useRecord, List.getElem?_map, Option.map_eq_some_iff] at hother
    obtain ⟨before, hbefore, rfl⟩ := hother
    split <;> exact h.ids place before hbefore
  owned other hother := by
    have hkept := (Change.confirmed hrecord howned).extends
    obtain ⟨before, hbefore, rfl⟩ := List.mem_map.mp hother
    split <;> exact hkept.has (h.owned before hbefore)
  verified name other hother := by
    obtain ⟨before, hbefore, rfl⟩ := user_of_confirm howned hother
    by_cases hname : record.username = name
    · refine iff_of_true (by simp [hname]) ⟨{ record with isUsed := true }, ?_, hname, rfl⟩
      exact List.mem_map.mpr ⟨record, hrecord, by simp⟩
    · -- The record of the id is the one that was found, and it is of another account.
      have hothers : ∀ mark ∈ store.records, mark.username = name → mark.id ≠ record.id := by
        intro mark hmark hof hid
        rw [h.record_inj hmark hrecord hid] at hof
        exact hname hof
      simp only [hname, decide_false, Bool.or_false, h.verified name before hbefore]
      constructor
      · rintro ⟨mark, hmark, hof, hused⟩
        refine ⟨mark, List.mem_map.mpr ⟨mark, hmark, ?_⟩, hof, hused⟩
        simp [hothers mark hmark hof]
      · rintro ⟨after, hafter, hof, hused⟩
        obtain ⟨mark, hmark, rfl⟩ := List.mem_map.mp hafter
        by_cases hid : mark.id = record.id
        · simp only [if_pos hid] at hof
          exact absurd hid (hothers mark hmark hof)
        · simp only [if_neg hid] at hof hused
          exact ⟨mark, hmark, hof, hused⟩

end Sound

lemma Change.sound (h : Change store next) (hsound : store.Sound) : next.Sound := by
  cases h with
  | none => exact hsound
  | joined free unshared unverified => exact hsound.join free unshared unverified
  | recorded owned added => exact hsound.add owned added
  | confirmed made owned => exact hsound.confirm made owned

/-! ## Runs of clients -/

/-- What a client can ask of the store.  Making a record is one call when nobody comes in between,
and two when others do: `propose` looks the account up, and `addProposed` adds a record for which
that was done. -/
inductive Call where
  | createUser (params : NewUser) (now : Instant)
  | createVerifyEmail (params : NewVerifyEmail) (now : Instant)
  | propose (params : NewVerifyEmail)
  | addProposed (params : NewVerifyEmail) (now : Instant)
  | verifyEmail (id : Int) (secretCode : String) (now : Instant)

/-- What the clock reads at a call, if it is looked at. -/
def Call.reading? : Call → Option Instant
  | .createUser _ now => some now
  | .createVerifyEmail _ now => some now
  | .propose _ => none
  | .addProposed _ now => some now
  | .verifyEmail _ _ now => some now

/-- A store with the records for which an account was found and which were not added yet. -/
structure Traffic where
  store : Store
  proposed : List NewVerifyEmail

namespace Traffic

/-- The store once an operation has ended; one that fails leaves it alone. -/
def settle {α : Type} (traffic : Traffic) (outcome : Except StoreError (α × Store)) : Traffic :=
  match outcome with
  | .ok (_, store) => { traffic with store }
  | .error _ => traffic

/-- One call of a client. -/
def apply (traffic : Traffic) : Call → Traffic
  | .createUser params now => traffic.settle (traffic.store.createUser params now)
  | .createVerifyEmail params now => traffic.settle (traffic.store.createVerifyEmail params now)
  | .propose params =>
    if Table.has params.username traffic.store.users then
      { traffic with proposed := params :: traffic.proposed }
    else traffic
  | .addProposed params now =>
    if params ∈ traffic.proposed then
      match traffic.store.addRecord? params now with
      | some (_, store) => ⟨store, traffic.proposed.erase params⟩
      | none => { traffic with proposed := traffic.proposed.erase params }
    else traffic
  | .verifyEmail id secretCode now => traffic.settle (traffic.store.verifyEmail id secretCode now)

/-- The calls of all clients in the order of their coming, on any traffic. -/
def onward (traffic : Traffic) (calls : List Call) : Traffic :=
  calls.foldl apply traffic

/-- The calls of all clients from the start, with records that last for a lifetime. -/
def run (lifetime : Int) (calls : List Call) : Traffic :=
  onward ⟨lasting lifetime, []⟩ calls

variable {traffic : Traffic} {calls : List Call}

lemma run_append (lifetime : Int) (calls more : List Call) :
    run lifetime (calls ++ more) = (run lifetime calls).onward more :=
  List.foldl_append

/-- Whether there is an account for each record that waits to be added. -/
def Awaits (traffic : Traffic) : Prop :=
  ∀ params ∈ traffic.proposed, Table.has params.username traffic.store.users = true

/-- Making a record at once is looking its account up and adding it right after. -/
lemma Awaits.onward_propose_addProposed (h : traffic.Awaits) (params : NewVerifyEmail)
    (now : Instant) :
    traffic.onward [.propose params, .addProposed params now] =
      traffic.apply (.createVerifyEmail params now) := by
  simp only [onward, List.foldl_cons, List.foldl_nil, apply, createVerifyEmail]
  split
  · cases hadded : traffic.store.addRecord? params now with
    | some made => simp [settle]
    | none => simp [settle]
  · next hunowned =>
    have hwaits : params ∉ traffic.proposed := fun hmem => hunowned (h params hmem)
    simp [settle, hwaits]

lemma change_settle {α : Type} {outcome : Except StoreError (α × Store)}
    (h : ∀ result next, outcome = .ok (result, next) → Change traffic.store next) :
    Change traffic.store (traffic.settle outcome).store := by
  cases outcome with
  | error => exact .none
  | ok outcome => exact h outcome.1 outcome.2 rfl

lemma proposed_settle {α : Type} (traffic : Traffic) (outcome : Except StoreError (α × Store)) :
    (traffic.settle outcome).proposed = traffic.proposed := by
  cases outcome <;> rfl

/-- A call does to the store what one of its operations can do. -/
lemma Awaits.change (h : traffic.Awaits) (call : Call) :
    Change traffic.store (traffic.apply call).store := by
  cases call with
  | createUser params now => exact change_settle fun _ _ => change_createUser
  | createVerifyEmail params now => exact change_settle fun _ _ => change_createVerifyEmail
  | propose params =>
    simp only [apply]
    split <;> exact .none
  | addProposed params now =>
    simp only [apply]
    split
    · next hproposed =>
      split
      · next hadded => exact .recorded (h params hproposed) hadded
      · exact .none
    · exact .none
  | verifyEmail id secretCode now => exact change_settle fun _ _ => change_verifyEmail

/-- A record that waits has waited before, or its account was just found. -/
lemma mem_proposed_apply {params : NewVerifyEmail} {call : Call}
    (h : params ∈ (traffic.apply call).proposed) :
    params ∈ traffic.proposed ∨ Table.has params.username traffic.store.users = true := by
  cases call with
  | createUser | createVerifyEmail | verifyEmail =>
    rw [apply, proposed_settle] at h
    exact .inl h
  | propose other =>
    simp only [apply] at h
    split at h
    · next howned =>
      rcases List.mem_cons.mp h with rfl | h
      · exact .inr howned
      · exact .inl h
    · exact .inl h
  | addProposed other now =>
    simp only [apply] at h
    split at h
    · split at h <;> exact .inl (List.mem_of_mem_erase h)
    · exact .inl h

lemma Awaits.apply (h : traffic.Awaits) (call : Call) : (traffic.apply call).Awaits :=
  fun params hparams => (h.change call).extends.has <|
    (mem_proposed_apply hparams).elim (h params) id

/-- What a call preserves, clients preserve. -/
lemma Awaits.onward (h : traffic.Awaits) (hsound : traffic.store.Sound) (calls : List Call) :
    (traffic.onward calls).Awaits ∧ (traffic.onward calls).store.Sound ∧
      (traffic.onward calls).store.Extends traffic.store := by
  induction calls generalizing traffic with
  | nil => exact ⟨h, hsound, .refl _⟩
  | cons call calls ih =>
    have hchange := h.change call
    obtain ⟨hawaits, hlast, hextends⟩ := ih (h.apply call) (hchange.sound hsound)
    exact ⟨hawaits, hlast, hextends.trans hchange.extends⟩

lemma awaits_lasting (lifetime : Int) : Awaits ⟨lasting lifetime, []⟩ := by
  simp [Awaits]

end Traffic

/-- **Accounts and records stay together, and nothing is taken away**: whatever clients ask for and
in whatever order, the tables of the store belong together at every moment, and all that the store
has at one moment it still has at every later one, each account and each record as it was made but
for the marks that were set since. -/
theorem traffic_keeps_accounts (lifetime : Int) (earlier later : List Call) :
    (Traffic.run lifetime (earlier ++ later)).store.Sound ∧
      (Traffic.run lifetime (earlier ++ later)).store.Extends
        (Traffic.run lifetime earlier).store := by
  obtain ⟨hawaits, hsound, -⟩ :=
    (Traffic.awaits_lasting lifetime).onward (sound_lasting lifetime) earlier
  rw [Traffic.run_append]
  exact (hawaits.onward hsound later).2

end Store
end WorkQueue
