import Mathlib.Tactic.Lemma
import WorkQueue.Time.Instant

/-!
# Clocks and deadlines

A clock that shows a number of nanoseconds since 1970 shows it exactly within the range of instants,
and one end of the range outside of it (`nanos_ofNanos`).  A deadline stops at the latest instant
(`nanos_after`).  Between the two the order is that of the numbers of nanoseconds
(`le_iff_nanos_le`), because no clock shows a leap second.  Hence a deadline that is set by a clock
is not over before its time has passed, as long as the clock has not come to the latest instant
(`not_after_le_ofNanos`).

Without any assumption on the clock, an instant is no later than what comes after it, unless that
is the latest one (`after_eq_or_rank_le`).
-/

namespace WorkQueue
namespace Instant

/-- The nanoseconds since 1970. -/
def nanos (t : Instant) : Int :=
  t.second * 1000000000 + t.nano

/-- Whether an instant does not lie in a leap second. -/
def Plain (t : Instant) : Prop := t.nano < 1000000000

lemma le_iff_nanos_le {a b : Instant} (ha : a.Plain) (hb : b.Plain) :
    a ≤ b ↔ a.nanos ≤ b.nanos := by
  change a.rank ≤ b.rank ↔ _
  unfold rank nanos Plain at *
  omega

lemma lt_iff_nanos_lt {a b : Instant} (ha : a.Plain) (hb : b.Plain) :
    a < b ↔ a.nanos < b.nanos := by
  change a.rank < b.rank ↔ _
  unfold rank nanos Plain at *
  omega

lemma plain_latest : latest.Plain := by
  unfold Plain latest
  decide

lemma plain_earliest : earliest.Plain := by
  unfold Plain earliest
  decide

lemma make?_eq_some {second : Int} {nano : Nat} {t : Instant} (h : make? second nano = some t) :
    t.second = second ∧ t.nano = nano := by
  unfold make? at h
  split at h
  · cases h
    exact ⟨rfl, rfl⟩
  · cases h

lemma make?_eq_none {second : Int} {nano : Nat} (h : make? second nano = none) :
    ¬ (earliestSecond ≤ second ∧ second ≤ latestSecond ∧ nano < 2000000000) := by
  unfold make? at h
  split at h
  · cases h
  · assumption

lemma nanos_ofNanos (n : Int) :
    (ofNanos n).Plain ∧ (ofNanos n).nanos = max earliest.nanos (min latest.nanos n) := by
  unfold ofNanos
  split
  · next t ht =>
    obtain ⟨hsecond, hnano⟩ := make?_eq_some ht
    have hlow := t.le_second
    have hhigh := t.second_le
    unfold Plain nanos
    simp only [earliest, latest, earliestSecond, latestSecond] at hlow hhigh ⊢
    omega
  · next hnone =>
    have hrange := make?_eq_none hnone
    unfold earliestSecond latestSecond at hrange
    split
    · refine ⟨plain_earliest, ?_⟩
      simp only [nanos, earliest, latest, earliestSecond, latestSecond]
      omega
    · refine ⟨plain_latest, ?_⟩
      simp only [nanos, earliest, latest, earliestSecond, latestSecond]
      omega

lemma nanos_after {t : Instant} (ht : t.Plain) (d : Duration) :
    (t.after d).Plain ∧ (t.after d).nanos = min latest.nanos (t.nanos + d.nanos) := by
  have hlow := t.le_second
  have hhigh := t.second_le
  unfold after
  simp only
  split
  · next later hlater =>
    obtain ⟨hsecond, hnano⟩ := make?_eq_some hlater
    have hlater := later.second_le
    unfold Plain nanos at *
    simp only [latest, earliestSecond, latestSecond] at *
    omega
  · next hnone =>
    have hrange := make?_eq_none hnone
    refine ⟨plain_latest, ?_⟩
    unfold Plain nanos at *
    simp only [latest, earliestSecond, latestSecond] at *
    omega

lemma nanos_shift? {t reached : Instant} {nanos : Int} (h : t.shift? nanos = some reached) :
    reached.nanos = t.nanos + nanos := by
  obtain ⟨hsecond, hnano⟩ := make?_eq_some h
  unfold Instant.nanos
  omega

/-- A clock that goes on shows no earlier time. -/
lemma ofMillis_le_ofMillis {earlier later : Int} (h : earlier ≤ later) :
    ofMillis earlier ≤ ofMillis later := by
  obtain ⟨hplain, hnanos⟩ := nanos_ofNanos (earlier * 1000000)
  obtain ⟨hplain', hnanos'⟩ := nanos_ofNanos (later * 1000000)
  unfold ofMillis
  rw [le_iff_nanos_le hplain hplain']
  omega

/-- A clock that has not come to the latest instant had not earlier. -/
lemma ofMillis_lt_latest {earlier later : Int} (h : earlier ≤ later)
    (hlater : ofMillis later < latest) : ofMillis earlier < latest := by
  obtain ⟨hplain, hnanos⟩ := nanos_ofNanos (earlier * 1000000)
  obtain ⟨hplain', hnanos'⟩ := nanos_ofNanos (later * 1000000)
  unfold ofMillis at hlater ⊢
  rw [lt_iff_nanos_lt hplain' plain_latest] at hlater
  rw [lt_iff_nanos_lt hplain plain_latest]
  omega

/-- A deadline that was set by a clock is not over before its time has passed. -/
theorem not_after_le_ofNanos {n : Int} {waited : Nat} {d : Duration} (hwaited : waited < d.nanos)
    (hclock : ofNanos (n + waited) < latest) :
    ¬ (ofNanos n).after d ≤ ofNanos (n + waited) := by
  obtain ⟨hplain, hstart⟩ := nanos_ofNanos n
  obtain ⟨hplain', hnow⟩ := nanos_ofNanos (n + waited)
  obtain ⟨hplain'', hdeadline⟩ := nanos_after hplain d
  rw [lt_iff_nanos_lt hplain' plain_latest] at hclock
  rw [le_iff_nanos_le hplain'' hplain']
  omega

/-! ## Any two instants -/

protected lemma le_trans {a b c : Instant} (hab : a ≤ b) (hbc : b ≤ c) : a ≤ c :=
  Int.le_trans hab hbc

protected lemma le_refl (a : Instant) : a ≤ a :=
  Int.le_refl a.rank

/-- Different instants are at different places in the order of time. -/
lemma rank_inj {a b : Instant} (h : a.rank = b.rank) : a = b := by
  have ha := a.nano_lt
  have hb := b.nano_lt
  unfold rank at h
  have hsecond : a.second = b.second := by omega
  have hnano : a.nano = b.nano := by omega
  cases a
  cases b
  simp only at hsecond hnano
  subst hsecond
  subst hnano
  rfl

lemma after_eq_or_rank_le (t : Instant) (d : Duration) :
    t.after d = latest ∨ t.rank + d.nanos ≤ (t.after d).rank := by
  unfold after
  simp only
  split
  · next later hlater =>
    obtain ⟨hsecond, hnano⟩ := make?_eq_some hlater
    right
    unfold rank
    omega
  · exact .inl rfl

lemma after_le_latest (t : Instant) (d : Duration) : t.after d ≤ latest := by
  unfold after
  simp only
  split
  · next later hlater =>
    obtain ⟨-, hnano⟩ := make?_eq_some hlater
    have hhigh := later.second_le
    change later.rank ≤ latest.rank
    simp only [rank, latest] at hhigh ⊢
    omega
  · exact Instant.le_refl latest

/-- What is no later than an instant is no later than what comes after it. -/
lemma le_after {bound t : Instant} (hbound : bound ≤ latest) (h : bound ≤ t) (d : Duration) :
    bound ≤ t.after d := by
  rcases after_eq_or_rank_le t d with hlatest | hrank
  · exact hlatest ▸ hbound
  · have ht : t.rank ≤ (t.after d).rank := by omega
    exact Instant.le_trans h ht

/-- A deadline is not over when it is set, unless that is at the end of time. -/
lemma not_after_le {t : Instant} {d : Duration} (ht : t < latest) (hd : 0 < d.nanos) :
    ¬ t.after d ≤ t := by
  intro hle
  change (t.after d).rank ≤ t.rank at hle
  change t.rank < latest.rank at ht
  rcases after_eq_or_rank_le t d with hlatest | hrank
  · rw [hlatest] at hle
    omega
  · omega

end Instant
end WorkQueue
