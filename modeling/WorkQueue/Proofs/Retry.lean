import Mathlib.Algebra.Group.Nat.Defs
import Mathlib.Tactic.Lemma
import WorkQueue.Retry
import WorkQueue.Proofs.Time.Duration

/-!
# The curve of the delays

The delay before a retry is the first delay, doubled once for every retry that was made but at most
`maxDoublings` times, and never more than the greatest delay.  It is taken in two parts, whole
seconds and nanoseconds, where a product can leave its range; what comes out is the product of
unbounded numbers cut at the greatest delay, on either side of that range (`nanos_baseBackoff`).

From there the curve can be read off (`follows_curve`): it rises, it stays below the greatest delay,
it is the documented `min (base * 2 ^ n) limit` up to `maxDoublings` retries, and beyond them it is
so only where it does not matter.  A lengthening moves a delay up and keeps it below the limit.
-/

namespace WorkQueue
namespace RetryPolicy

open WorkQueue.Text (bound32 bound64)
open WorkQueue.Duration (nanos_shorter nanos_le_longest)

variable {policy : RetryPolicy} {m n : Nat}

/-! ## Doublings -/

/-- By how much a delay has grown after `n` retries, as long as it is below the limit. -/
def growth (n : Nat) : Nat :=
  Nat.pow 2 (min n maxDoublings)

lemma growth_lt (n : Nat) : growth n < bound32 :=
  Nat.pow_lt_pow_right (by decide) (Nat.lt_succ_of_le (Nat.min_le_right n maxDoublings))

lemma growth_mono (h : m ≤ n) : growth m ≤ growth n := by
  have hmin : min m maxDoublings ≤ min n maxDoublings :=
    Nat.le_min.mpr ⟨Nat.le_trans (Nat.min_le_left m _) h, Nat.min_le_right m _⟩
  exact Nat.pow_le_pow_right (by decide) hmin

lemma growth_of_le (h : n ≤ maxDoublings) : growth n = 2 ^ n :=
  congrArg (Nat.pow 2) (Nat.min_eq_left h)

lemma growth_of_lt (h : maxDoublings < n) : growth n = 2 ^ maxDoublings :=
  congrArg (Nat.pow 2) (Nat.min_eq_right (Nat.le_of_lt h))

/-! ## Delays without jitter -/

lemma baseBackoff_of_scaled {delay : Duration} (h : policy.base.scale? (growth n) = some delay) :
    policy.baseBackoff n = delay.shorter policy.limit := by
  rw [baseBackoff, show policy.base.scale? (Nat.pow 2 (min n maxDoublings)) = some delay from h]

lemma baseBackoff_of_unscaled (h : policy.base.scale? (growth n) = none) :
    policy.baseBackoff n = policy.limit := by
  rw [baseBackoff, show policy.base.scale? (Nat.pow 2 (min n maxDoublings)) = none from h]

/-- **The delay is the product of unbounded numbers, cut at the limit**, also where the product is
out of the range of lengths: the limit is within it. -/
lemma nanos_baseBackoff (policy : RetryPolicy) (n : Nat) :
    (policy.baseBackoff n).nanos = min (policy.base.nanos * growth n) policy.limit.nanos := by
  rcases Nat.lt_or_ge (policy.base.nanos * growth n) (bound64 * nanosPerSecond) with hin | hout
  · rw [baseBackoff_of_scaled (Duration.ofNanos?_of_lt hin)]
    exact nanos_shorter _ _
  · rw [baseBackoff_of_unscaled (Duration.ofNanos?_of_le hout)]
    exact (Nat.min_eq_right (Nat.le_trans (Nat.le_of_lt policy.limit.nanos_lt) hout)).symm

/-- The same delay, taken part by part. -/
lemma baseBackoff_eq_ofParts (policy : RetryPolicy) (n : Nat) :
    policy.baseBackoff n =
      if policy.base.seconds * growth n + policy.base.subNanos * growth n / nanosPerSecond <
          bound64 then
        (Duration.ofParts
          (policy.base.seconds * growth n + policy.base.subNanos * growth n / nanosPerSecond)
          (policy.base.subNanos * growth n % nanosPerSecond)).shorter policy.limit
      else policy.limit := by
  have hscaled := Duration.scale?_eq_ofParts policy.base (growth n)
  by_cases hseconds : policy.base.seconds * growth n +
      policy.base.subNanos * growth n / nanosPerSecond < bound64
  · rw [if_pos hseconds] at hscaled ⊢
    exact baseBackoff_of_scaled hscaled
  · rw [if_neg hseconds] at hscaled ⊢
    exact baseBackoff_of_unscaled hscaled

lemma baseBackoff_le_limit (policy : RetryPolicy) (n : Nat) :
    policy.baseBackoff n ≤ policy.limit := by
  show (policy.baseBackoff n).nanos ≤ policy.limit.nanos
  rw [nanos_baseBackoff]
  exact Nat.min_le_right _ _

lemma baseBackoff_mono (h : m ≤ n) : policy.baseBackoff m ≤ policy.baseBackoff n := by
  show (policy.baseBackoff m).nanos ≤ (policy.baseBackoff n).nanos
  rw [nanos_baseBackoff, nanos_baseBackoff]
  have hgrowth := Nat.mul_le_mul_left policy.base.nanos (growth_mono h)
  omega

/-- Past the last doubling the curve without an end to the doublings is followed only where there is
nothing to double, or where the limit is reached already. -/
lemma plateau_iff (h : maxDoublings < n) :
    (policy.baseBackoff n).nanos = min (policy.base.nanos * 2 ^ n) policy.limit.nanos ↔
      policy.base.nanos = 0 ∨ policy.limit.nanos ≤ policy.base.nanos * 2 ^ maxDoublings := by
  have hgrows : 2 ^ maxDoublings < 2 ^ n := Nat.pow_lt_pow_right (by decide) h
  rw [nanos_baseBackoff, growth_of_lt h]
  rcases Nat.eq_zero_or_pos policy.base.nanos with hzero | hpos
  · simp only [hzero, Nat.zero_mul, true_or]
  · have hproduct := Nat.mul_lt_mul_of_pos_left hgrows hpos
    constructor
    · intro hequal
      exact Or.inr (by omega)
    · rintro (hzero | hlimit)
      · exact absurd hzero (Nat.ne_of_gt hpos)
      · rw [Nat.min_eq_right hlimit, Nat.min_eq_right (by omega)]

/-! ## Lengthenings -/

lemma nanos_lengthened (policy : RetryPolicy) (delay extra : Duration) :
    (policy.lengthened delay extra).nanos =
      min (delay.nanos + extra.nanos) policy.limit.nanos := by
  rw [lengthened, nanos_shorter, Duration.nanos_add, Nat.min_assoc,
    Nat.min_eq_right (nanos_le_longest policy.limit)]

/-- A lengthening neither shortens a delay within the limit nor moves it beyond. -/
lemma lengthened_bounds (policy : RetryPolicy) (n : Nat) (extra : Duration) :
    policy.baseBackoff n ≤ policy.lengthened (policy.baseBackoff n) extra ∧
      policy.lengthened (policy.baseBackoff n) extra ≤ policy.limit := by
  show (policy.baseBackoff n).nanos ≤ (policy.lengthened _ extra).nanos ∧
    (policy.lengthened _ extra).nanos ≤ policy.limit.nanos
  have hlimit : (policy.baseBackoff n).nanos ≤ policy.limit.nanos := baseBackoff_le_limit policy n
  rw [nanos_lengthened]
  omega

lemma backoff_of_steady {draw : Nat} (h : policy.jitter.isZero = true) :
    policy.backoff n draw = policy.baseBackoff n := by
  simp only [backoff, h, Bool.true_or, if_true]

lemma backoff_of_drawn {draw : Nat} (hjitter : policy.jitter.isZero = false)
    (hdelay : (policy.baseBackoff n).nanos ≠ 0) : policy.backoff n draw =
      policy.lengthened (policy.baseBackoff n)
        (policy.lengthening (policy.baseBackoff n) draw) := by
  simp only [backoff, hjitter, hdelay, decide_false, Bool.false_or, Bool.false_eq_true, if_false]

lemma backoff_bounds (policy : RetryPolicy) (n draw : Nat) :
    policy.baseBackoff n ≤ policy.backoff n draw ∧ policy.backoff n draw ≤ policy.limit := by
  by_cases hunchanged : (policy.jitter.isZero || (policy.baseBackoff n).nanos = 0) = true
  · rw [backoff, if_pos hunchanged]
    exact ⟨Nat.le_refl _, baseBackoff_le_limit policy n⟩
  · rw [backoff, if_neg hunchanged]
    exact lengthened_bounds policy n _

/-! ## The curve -/

/-- What a policy makes of the number of retries. -/
structure FollowsCurve (policy : RetryPolicy) : Prop where
  /-- A delay is the first one doubled at most `maxDoublings` times, and at most the limit. -/
  exact : ∀ n, (policy.baseBackoff n).nanos =
    min (policy.base.nanos * 2 ^ min n maxDoublings) policy.limit.nanos
  /-- It is reached through a factor of 32 bits, seconds and nanoseconds multiplied apart, and the
  limit where the seconds leave their range. -/
  parts : ∀ n, growth n < bound32 ∧ policy.baseBackoff n =
    if policy.base.seconds * growth n + policy.base.subNanos * growth n / nanosPerSecond <
        bound64 then
      (Duration.ofParts
        (policy.base.seconds * growth n + policy.base.subNanos * growth n / nanosPerSecond)
        (policy.base.subNanos * growth n % nanosPerSecond)).shorter policy.limit
    else policy.limit
  /-- It is at most the limit. -/
  capped : ∀ n, policy.baseBackoff n ≤ policy.limit
  /-- It does not fall from one retry to the next. -/
  rising : ∀ m n, m ≤ n → policy.baseBackoff m ≤ policy.baseBackoff n
  /-- Up to the last doubling it is the documented curve. -/
  documented : ∀ n, n ≤ maxDoublings → (policy.baseBackoff n).nanos =
    min (policy.base.nanos * 2 ^ n) policy.limit.nanos
  /-- Past the last doubling it is the documented curve just if there is nothing to double or the
  limit is reached. -/
  plateau : ∀ n, maxDoublings < n →
    ((policy.baseBackoff n).nanos = min (policy.base.nanos * 2 ^ n) policy.limit.nanos ↔
      policy.base.nanos = 0 ∨ policy.limit.nanos ≤ policy.base.nanos * 2 ^ maxDoublings)
  /-- A delay lengthened by any amount that can be added to it is the sum cut at the limit, between
  the delay without jitter and the limit. -/
  jittered : ∀ (n : Nat) (extra : Duration),
    (policy.baseBackoff n).nanos + extra.nanos < bound64 * nanosPerSecond →
      (policy.lengthened (policy.baseBackoff n) extra).nanos =
          min ((policy.baseBackoff n).nanos + extra.nanos) policy.limit.nanos ∧
        policy.baseBackoff n ≤ policy.lengthened (policy.baseBackoff n) extra ∧
        policy.lengthened (policy.baseBackoff n) extra ≤ policy.limit
  /-- So is the delay of any draw whose lengthening can be added.  It is the delay lengthened by
  what was drawn, if there is a jitter and something to lengthen. -/
  drawn : ∀ n draw : Nat,
    (policy.baseBackoff n).nanos + (policy.lengthening (policy.baseBackoff n) draw).nanos <
        bound64 * nanosPerSecond →
      (policy.jitter.isZero = false → (policy.baseBackoff n).nanos ≠ 0 → policy.backoff n draw =
        policy.lengthened (policy.baseBackoff n)
          (policy.lengthening (policy.baseBackoff n) draw)) ∧
        policy.baseBackoff n ≤ policy.backoff n draw ∧ policy.backoff n draw ≤ policy.limit
  /-- Without jitter nothing is added. -/
  steady : policy.jitter.isZero = true → ∀ n draw : Nat,
    policy.backoff n draw = policy.baseBackoff n

/-- **Every policy follows its curve.** -/
theorem follows_curve (policy : RetryPolicy) : policy.FollowsCurve where
  exact := nanos_baseBackoff policy
  parts n := ⟨growth_lt n, baseBackoff_eq_ofParts policy n⟩
  capped := baseBackoff_le_limit policy
  rising _ _ := baseBackoff_mono
  documented n h := growth_of_le h ▸ nanos_baseBackoff policy n
  plateau _ := plateau_iff
  jittered n extra _ := ⟨nanos_lengthened policy _ extra, lengthened_bounds policy n extra⟩
  drawn n draw _ := ⟨backoff_of_drawn, backoff_bounds policy n draw⟩
  steady h _ _ := backoff_of_steady h

/-- The standard policy reaches ten minutes with the tenth retry. -/
example : (standard.baseBackoff 9).seconds = 512 ∧ (standard.baseBackoff 10).seconds = 600 := by
  decide

end RetryPolicy
end WorkQueue
