import WorkQueue.Accounts.Service
import WorkQueue.Proofs.Simulation.Calls
import WorkQueue.Proofs.Text.Utf8

/-!
# The arguments of a verification

Whoever follows a link shows an id and a secret, and the accounts look at both before they ask the
store.  `Admits` is what they let through: a positive id, and a secret of 32 to 128 octets.  All
else is refused and nothing is asked (`verifyEmail_of_not_admits`); what is let through becomes one
request, and the answer comes back as it is (`ends_verifyEmail_iff`).

The message of a refusal speaks of characters, and a character has from one to four octets.  So the
two measures agree on secrets whose characters have one octet each, as those of the handler of
verification tasks do, and on every secret of exactly 32 characters; and nothing longer than 128
characters is ever let through.  Between these they part: `octets_are_counted` shows a secret that
is too short by its characters and is let through, and one that is right by its characters, that the
store holds, and that is refused.
-/

namespace WorkQueue
namespace Accounts

open Procedure World

variable {id : Int} {secretCode : String} {log : List Answered}
  {result : Except AccountError User} {w : World} {cancelled : Bool}

/-! ## What is let through -/

/-- Whether the arguments of a verification are let through to the store. -/
structure Admits (id : Int) (secretCode : String) : Prop where
  id_pos : 0 < id
  long : 32 ≤ secretCode.utf8ByteSize
  short : secretCode.utf8ByteSize ≤ 128

lemma argumentProblem_of_admits (h : Admits id secretCode) :
    argumentProblem id secretCode = none := by
  have hid : ¬ id ≤ 0 := Int.not_le.mpr h.id_pos
  have hsize : (decide (minSecretLength ≤ secretCode.utf8ByteSize) &&
      decide (secretCode.utf8ByteSize ≤ maxSecretLength)) = true :=
    Bool.and_eq_true_iff.mpr ⟨decide_eq_true h.long, decide_eq_true h.short⟩
  rw [argumentProblem, if_neg hid, if_pos hsize]

/-- The problem of arguments that are not let through: the id is looked at first. -/
lemma argumentProblem_of_not_admits (h : ¬ Admits id secretCode) :
    argumentProblem id secretCode = some (if id ≤ 0 then .badId else .badSecret) := by
  rw [argumentProblem]
  by_cases hid : id ≤ 0
  · rw [if_pos hid, if_pos hid]
  · have hsize : ¬ (decide (minSecretLength ≤ secretCode.utf8ByteSize) &&
        decide (secretCode.utf8ByteSize ≤ maxSecretLength)) = true := by
      intro hboth
      obtain ⟨hlong, hshort⟩ := Bool.and_eq_true_iff.mp hboth
      exact h ⟨Int.not_le.mp hid, of_decide_eq_true hlong, of_decide_eq_true hshort⟩
    rw [if_neg hid, if_neg hid, if_neg hsize]

/-- Arguments that are not let through are refused, and nothing is asked of anybody. -/
lemma verifyEmail_of_not_admits (h : ¬ Admits id secretCode) :
    verifyEmail id secretCode =
      .done (.error (.invalidArgument (if id ≤ 0 then .badId else .badSecret))) := by
  rw [verifyEmail, argumentProblem_of_not_admits h]
  rfl

/-- Arguments that are let through become one request to the store, whose answer comes back. -/
lemma ends_verifyEmail_iff (h : Admits id secretCode) :
    Ends (verifyEmail id secretCode) log result ↔
      ∃ answer : Except StoreError User,
        log = [⟨.verifyEmail id secretCode, answer⟩] ∧ result = answer.mapError .store := by
  rw [verifyEmail, argumentProblem_of_admits h]
  simp only [ends_request_iff]
  constructor
  · rintro ⟨answer, rest, rfl, hrest⟩
    refine ⟨answer, ?_⟩
    cases answer <;>
    · obtain ⟨rfl, rfl⟩ := ends_pure_iff.mp hrest
      exact ⟨rfl, rfl⟩
  · rintro ⟨answer, rfl, rfl⟩
    refine ⟨answer, [], rfl, ?_⟩
    cases answer <;> exact .done _

/-! ## In a deployment -/

/-- A verification that is let through waits for its turn, and then the store is asked, unless a
fault strikes. -/
lemma run_verifyEmail (h : Admits id secretCode) (hfault : w.awaiting .verifyEmail = .none) :
    run cancelled (verifyEmail id secretCode) w =
      let later := w.reach (.verifyEmail id secretCode)
      match later.store.verifyEmail id secretCode later.now with
      | .ok (user, store) => (.ok (.ok user), { later with store := store })
      | .error cause => (.ok (.error (.store cause)), later) := by
  rw [verifyEmail, argumentProblem_of_admits h]
  change run cancelled (.ask (.verifyEmail id secretCode) _) w = _
  rw [run_ask (.verifyEmail id secretCode) nofun nofun nofun, failure_eq rfl, hfault, attempt_none]
  generalize w.reach (.verifyEmail id secretCode) = later
  simp only [perform]
  cases later.store.verifyEmail id secretCode later.now <;> rfl

/-! ## Octets and characters -/

/-- Where each character has one octet, the check is one of the number of characters. -/
lemma admits_iff_of_single (h : ∀ c ∈ secretCode.toList, c.utf8Size = 1) :
    Admits id secretCode ↔ 0 < id ∧ 32 ≤ secretCode.length ∧ secretCode.length ≤ 128 := by
  have hsize := Text.Utf8.utf8ByteSize_of_single h
  rw [← hsize]
  exact ⟨fun h => ⟨h.id_pos, h.long, h.short⟩, fun ⟨hid, hlong, hshort⟩ => ⟨hid, hlong, hshort⟩⟩

lemma Admits.length_bounds (h : Admits id secretCode) :
    8 ≤ secretCode.length ∧ secretCode.length ≤ 128 := by
  have hleast := Text.Utf8.length_le_utf8ByteSize secretCode
  have hmost := Text.Utf8.utf8ByteSize_le secretCode
  have hlong := h.long
  have hshort := h.short
  omega

/-- A secret of the length that the handler of verification tasks gives to secrets is let through,
whatever its characters are. -/
lemma admits_iff_of_length (h : secretCode.length = Verification.secretLength) :
    Admits id secretCode ↔ 0 < id := by
  have hlength : secretCode.length = 32 := h
  have hleast := Text.Utf8.length_le_utf8ByteSize secretCode
  have hmost := Text.Utf8.utf8ByteSize_le secretCode
  exact ⟨fun h => h.id_pos, fun hid => ⟨hid, by omega, by omega⟩⟩

/-- The ids of a store are positive. -/
lemma id_pos_of_sound {store : Store} {record : VerifyEmail} (h : store.Sound)
    (hrecord : record ∈ store.records) : 0 < record.id := by
  obtain ⟨place, hplace⟩ := List.getElem?_of_mem hrecord
  rw [h.ids place record hplace]
  exact Int.lt_add_one_of_le (Int.natCast_nonneg place)

/-! ## The check -/

/-- What it means that the arguments of a verification are checked before the store is asked, and
that nothing else comes between. -/
structure ChecksArguments (id : Int) (secretCode : String) : Prop where
  /-- An argument is called wrong exactly if the arguments are not let through. -/
  invalid_iff : ∀ log result, Ends (verifyEmail id secretCode) log result →
    ((∃ problem, result = .error (.invalidArgument problem)) ↔ ¬ Admits id secretCode)
  /-- Then nothing is asked, and no deployment changes. -/
  untouched : ¬ Admits id secretCode →
    (∀ log result, Ends (verifyEmail id secretCode) log result → log = []) ∧
      ∀ w cancelled, ∃ problem, run cancelled (verifyEmail id secretCode) w =
        (.ok (.error (.invalidArgument problem)), w)
  /-- Otherwise the store is asked once, with the same arguments, and its answer comes back, an
  error in its wrapping. -/
  passed : Admits id secretCode → ∀ log result,
    Ends (verifyEmail id secretCode) log result ↔
      ∃ answer : Except StoreError User,
        log = [⟨.verifyEmail id secretCode, answer⟩] ∧ result = answer.mapError .store
  /-- In a deployment the result and what becomes of the store are what the store makes of the
  request, whatever it holds. -/
  deployed : Admits id secretCode → ∀ w cancelled, w.Alone → w.awaiting .verifyEmail = .none →
    ∃ later, Meanwhile (some .verifyEmail) w later ∧
      run cancelled (verifyEmail id secretCode) w =
        match later.store.verifyEmail id secretCode later.now with
        | .ok (user, store) => (.ok (.ok user), { later with store := store })
        | .error cause => (.ok (.error (.store cause)), later)
  /-- Where each character has one octet, the check is that of 32 to 128 characters. -/
  single : (∀ c ∈ secretCode.toList, c.utf8Size = 1) →
    (Admits id secretCode ↔ 0 < id ∧ 32 ≤ secretCode.length ∧ secretCode.length ≤ 128)
  /-- So it is for secrets of 32 characters of any kind. -/
  exact : secretCode.length = Verification.secretLength → (Admits id secretCode ↔ 0 < id)
  /-- More than 128 characters are never let through, and neither are fewer than eight. -/
  bounds : Admits id secretCode → 8 ≤ secretCode.length ∧ secretCode.length ≤ 128
  /-- Of a record in a store, the check looks at the length of the secret alone. -/
  stored : ∀ lifetime calls, ∀ record ∈ (Store.Traffic.run lifetime calls).store.records,
    record.id = id → record.secretCode = secretCode →
      (Admits id secretCode ↔ 32 ≤ secretCode.utf8ByteSize ∧ secretCode.utf8ByteSize ≤ 128)

/-- **Arguments are checked first, and then the store is asked.**  For every id and every secret: a
verification is refused without a look at the store if the id is not positive or the secret does not
have from 32 to 128 octets, and in every other case it is what the store makes of it. -/
theorem arguments_checked (id : Int) (secretCode : String) : ChecksArguments id secretCode where
  invalid_iff log result hends := by
    by_cases hadmits : Admits id secretCode
    · obtain ⟨answer, -, rfl⟩ := (ends_verifyEmail_iff hadmits).mp hends
      refine iff_of_false ?_ (not_not_intro hadmits)
      cases answer <;> rintro ⟨problem, ⟨⟩⟩
    · rw [verifyEmail_of_not_admits hadmits] at hends
      cases hends
      exact iff_of_true ⟨_, rfl⟩ hadmits
  untouched hadmits := by
    rw [verifyEmail_of_not_admits hadmits]
    refine ⟨fun log result hends => ?_, fun w cancelled => ⟨_, rfl⟩⟩
    cases hends
    rfl
  passed hadmits _ _ := ends_verifyEmail_iff hadmits
  deployed hadmits w cancelled halone hfault :=
    have hasked : Meanwhile (some .verifyEmail) w (w.reach (.verifyEmail id secretCode)) :=
      halone.reach rfl
    ⟨_, hasked, run_verifyEmail hadmits hfault⟩
  single := admits_iff_of_single
  exact := admits_iff_of_length
  bounds := Admits.length_bounds
  stored lifetime calls record hrecord hid hcode := by
    obtain ⟨-, hsound, -⟩ :=
      (Store.Traffic.awaits_lasting lifetime).onward (Store.sound_lasting lifetime) calls
    have hpos : 0 < id := hid ▸ id_pos_of_sound hsound hrecord
    exact ⟨fun h => ⟨h.long, h.short⟩, fun h => ⟨hpos, h.1, h.2⟩⟩

/-! ### Letters of two octets -/

/-- A text of so many letters that have two octets each. -/
def wideLetters (count : Nat) : String := String.ofList (List.replicate count 'é')

lemma length_wideLetters (count : Nat) : (wideLetters count).length = count := by
  rw [← String.length_toList, wideLetters, String.toList_ofList, List.length_replicate]

lemma utf8ByteSize_wideLetters (count : Nat) : (wideLetters count).utf8ByteSize = 2 * count := by
  rw [Text.Utf8.utf8ByteSize_eq, wideLetters, String.toList_ofList]
  induction count with
  | zero => rfl
  | succ count ih =>
    have hletter : (String.utf8EncodeChar 'é').length = 2 := by decide
    rw [List.replicate_succ, List.flatMap_cons, List.length_append, ih]
    omega

/-- A store in which a secret of 65 such letters was made for an account. -/
def wideStore : Store :=
  (Store.Traffic.run 60000000000 [.createUser ⟨"alice", "Alice", "alice@example.com"⟩ .epoch,
    .createVerifyEmail ⟨"alice", "alice@example.com", wideLetters 65⟩ .epoch]).store

/-- It is octets that are counted: sixteen letters reach the store, and 65 do not, although the
store holds them as the secret of a record that waits to be used. -/
theorem octets_are_counted :
    ((wideLetters 16).length = 16 ∧ Ends (verifyEmail 1 (wideLetters 16))
        [⟨.verifyEmail 1 (wideLetters 16), .error .notFound⟩] (.error (.store .notFound))) ∧
      (wideLetters 65).length = 65 ∧
      wideStore.records.map (fun record => (record.id, record.secretCode)) =
        [(1, wideLetters 65)] ∧
      (wideStore.verifyEmail 1 (wideLetters 65) .epoch).toOption.isSome = true ∧
      verifyEmail 1 (wideLetters 65) = .done (.error (.invalidArgument .badSecret)) ∧
      (AccountError.invalidArgument .badSecret).message =
        "invalid argument: secret_code must contain from 32 to 128 characters" := by
  have hadmits : Admits 1 (wideLetters 16) :=
    ⟨by decide, by rw [utf8ByteSize_wideLetters], by rw [utf8ByteSize_wideLetters]; decide⟩
  have hrefused : ¬ Admits 1 (wideLetters 65) := fun h => by
    have hshort := h.short
    rw [utf8ByteSize_wideLetters] at hshort
    omega
  exact ⟨⟨length_wideLetters 16, (ends_verifyEmail_iff hadmits).mpr ⟨_, rfl, rfl⟩⟩,
    length_wideLetters 65, rfl, by decide +kernel, verifyEmail_of_not_admits hrefused,
    by decide +kernel⟩

end Accounts
end WorkQueue
