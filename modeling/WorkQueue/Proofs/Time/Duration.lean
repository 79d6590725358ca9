import Mathlib.Tactic.Lemma
import WorkQueue.Text.Numeral
import WorkQueue.Time.Duration

/-!
# Lengths of time in whole seconds and nanoseconds

A length is kept as one number of nanoseconds, and it can be read as whole seconds, of which there
are fewer than `2 ^ 64`, and the nanoseconds beyond them (`parts`).  Taking a length several
times is the same for both readings: the seconds and the nanoseconds are multiplied apart, the full
seconds among the nanoseconds are carried over, and there is no result if the seconds have left
their range (`scale?_eq_ofParts`).
-/

namespace WorkQueue
namespace Duration

open WorkQueue.Text (bound64)

variable {n : Nat}

lemma ofNanos?_of_lt (h : n < bound64 * nanosPerSecond) : ofNanos? n = some ⟨n, h⟩ :=
  dif_pos h

lemma ofNanos?_of_le (h : bound64 * nanosPerSecond ≤ n) : ofNanos? n = none :=
  dif_neg (Nat.not_lt.mpr h)

lemma nanos_ofNanos (h : n < bound64 * nanosPerSecond) : (ofNanos n).nanos = n := by
  rw [ofNanos, ofNanos?_of_lt h, Option.getD_some]

/-- A length beyond the range is cut to the greatest. -/
lemma nanos_ofNanos_eq_min (n : Nat) : (ofNanos n).nanos = min n longest.nanos := by
  have hlongest : longest.nanos + 1 = bound64 * nanosPerSecond := by decide
  rcases Nat.lt_or_ge n (bound64 * nanosPerSecond) with hsmall | hlarge
  · rw [nanos_ofNanos hsmall, Nat.min_eq_left (by omega)]
  · rw [ofNanos, ofNanos?_of_le hlarge, Option.getD_none, Nat.min_eq_right (by omega)]

/-- No length is beyond the greatest. -/
lemma nanos_le_longest (d : Duration) : d.nanos ≤ longest.nanos :=
  Nat.le_sub_one_of_lt d.nanos_lt

@[simp] lemma nanos_shorter (a b : Duration) : (a.shorter b).nanos = min a.nanos b.nanos := by
  rw [shorter, apply_ite nanos, Nat.min_def]
  rfl

lemma nanos_add (a b : Duration) : (a.add b).nanos = min (a.nanos + b.nanos) longest.nanos :=
  nanos_ofNanos_eq_min _

/-! ## Two parts -/

/-- A length is so many whole seconds, in their range, and less than a second beyond them. -/
lemma parts (d : Duration) : d.seconds < bound64 ∧ d.subNanos < nanosPerSecond ∧
    d.seconds * nanosPerSecond + d.subNanos = d.nanos := by
  refine ⟨Nat.div_lt_of_lt_mul (Nat.mul_comm _ _ ▸ d.nanos_lt), Nat.mod_lt _ (by decide), ?_⟩
  rw [seconds, subNanos, Nat.mul_comm]
  exact Nat.div_add_mod d.nanos nanosPerSecond

/-- A multiple of a length in whole seconds and nanoseconds, with the carry of the nanoseconds. -/
lemma nanos_mul_eq (d : Duration) (factor : Nat) :
    d.nanos * factor =
      (d.seconds * factor + d.subNanos * factor / nanosPerSecond) * nanosPerSecond +
        d.subNanos * factor % nanosPerSecond := by
  have hcarry := Nat.div_add_mod (d.subNanos * factor) nanosPerSecond
  calc d.nanos * factor
      = d.seconds * factor * nanosPerSecond + d.subNanos * factor := by
        rw [← d.parts.2.2, Nat.add_mul, Nat.mul_right_comm]
    _ = d.seconds * factor * nanosPerSecond +
          (nanosPerSecond * (d.subNanos * factor / nanosPerSecond) +
            d.subNanos * factor % nanosPerSecond) := by rw [hcarry]
    _ = _ := by rw [Nat.add_mul, Nat.mul_comm nanosPerSecond, Nat.add_assoc]

/-- **A length is taken several times part by part**, as long as its seconds stay in their range. -/
theorem scale?_eq_ofParts (d : Duration) (factor : Nat) :
    d.scale? factor =
      if d.seconds * factor + d.subNanos * factor / nanosPerSecond < bound64 then
        some (ofParts (d.seconds * factor + d.subNanos * factor / nanosPerSecond)
          (d.subNanos * factor % nanosPerSecond))
      else none := by
  have hrest : d.subNanos * factor % nanosPerSecond < nanosPerSecond := Nat.mod_lt _ (by decide)
  rw [scale?, nanos_mul_eq, ofParts]
  generalize d.seconds * factor + d.subNanos * factor / nanosPerSecond = whole
  generalize d.subNanos * factor % nanosPerSecond = rest at hrest
  rcases Nat.lt_or_ge whole bound64 with hsmall | hlarge
  · have hlt : whole * nanosPerSecond + rest < bound64 * nanosPerSecond := by
      have hnext := Nat.mul_le_mul_right nanosPerSecond (Nat.succ_le_of_lt hsmall)
      rw [Nat.succ_mul] at hnext
      omega
    rw [if_pos hsmall, ofNanos, ofNanos?_of_lt hlt, Option.getD_some]
  · have hle : bound64 * nanosPerSecond ≤ whole * nanosPerSecond + rest :=
      Nat.le_add_right_of_le (Nat.mul_le_mul_right _ hlarge)
    rw [if_neg (Nat.not_lt.mpr hlarge), ofNanos?_of_le hle]

end Duration
end WorkQueue
