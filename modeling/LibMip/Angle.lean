import LibMip.Foundation.CNum
import Mathlib.Data.Int.ModEq

/-!
# Normalising an angle

`rad2deg_norm` converts an angle to whole degrees and brings it between two bounds with two
loops, one that adds turns and one that takes turns off. The degrees are an `int`, the bounds are
floating. A loop that leaves the range of `int` faults, so both end on every input.

`rad2degNorm_spec` is what callers use: the result is the truncated angle up to whole turns, and
the truncated angle itself when that is already within the bounds. `rad2degNorm_nearest` adds that
no other angle between the bounds that differs by whole turns is as close.
-/

namespace LibMip

open CNum

def rad2deg : ℚ := 57.2957795130823208768

/-- `while (angle_deg < angle_min) angle_deg += 360`. -/
def raiseDeg (angleMin : ℚ) (angleDeg : Int) : Except Fault Int :=
  if (angleDeg : ℚ) < angleMin then
    if _ : InInt (angleDeg + 360) then raiseDeg angleMin (angleDeg + 360)
    else .error .signedOverflow
  else .ok angleDeg
termination_by (2147483647 - angleDeg).toNat

/-- `while (angle_deg >= angle_max) angle_deg -= 360`. -/
def lowerDeg (angleMax : ℚ) (angleDeg : Int) : Except Fault Int :=
  if angleMax ≤ (angleDeg : ℚ) then
    if _ : InInt (angleDeg - 360) then lowerDeg angleMax (angleDeg - 360)
    else .error .signedOverflow
  else .ok angleDeg
termination_by (angleDeg + 2147483648).toNat

/-- The bounds default to 0 and 360. -/
def rad2degNorm (angleRad angleMin angleMax : ℚ) : Except Fault ℚ := do
  let angleDeg ← toInt (angleRad * rad2deg)
  let angleDeg ← raiseDeg angleMin angleDeg
  let angleDeg ← lowerDeg angleMax angleDeg
  .ok angleDeg

/-- The truncated angle is the only value that has to fit before the loops. -/
theorem inInt_of_rad2degNorm {angleRad angleMin angleMax r : ℚ}
    (h : rad2degNorm angleRad angleMin angleMax = .ok r) : InInt (trunc (angleRad * rad2deg)) := by
  obtain ⟨a, converted, -⟩ := bind_eq_ok.mp h
  exact (toInt_eq_ok.mp converted).1

/-- The first loop stops at the first angle that is not below the bound. -/
theorem raiseDeg_spec (angleMin : ℚ) {a : Int} (ha : InInt a) (bound : angleMin ≤ 2147483287) :
    ∃ b : Int, raiseDeg angleMin a = .ok b ∧ InInt b ∧ angleMin ≤ b ∧ b ≡ a [ZMOD 360] ∧
      (angleMin ≤ a → b = a) ∧ ((a : ℚ) < angleMin → (b : ℚ) < angleMin + 360) := by
  fun_induction raiseDeg angleMin a with
  | case1 a below fits ih =>
    obtain ⟨b, run, hb, above, turns, stays, near⟩ := ih fits
    refine ⟨b, run, hb, above, turns.trans ?_, fun reached => absurd below (not_lt.mpr reached),
      fun _ => ?_⟩
    · simp [Int.ModEq]
    · by_cases reached : angleMin ≤ (a + 360 : Int)
      · rw [stays reached]
        push_cast
        linarith
      · exact near (not_le.mp reached)
  | case2 a below overflow =>
    have lt : (a : ℚ) < (2147483287 : Int) := by
      push_cast
      linarith
    have lt' : a < 2147483287 := by exact_mod_cast lt
    exact absurd ⟨by omega, by omega⟩ overflow
  | case3 a reached =>
    exact ⟨a, rfl, ha, not_lt.mp reached, rfl, fun _ => rfl, fun below => absurd below reached⟩

/-- The second loop stops at the first angle below the bound. -/
theorem lowerDeg_spec (angleMax : ℚ) {a : Int} (ha : InInt a) (bound : -2147483288 ≤ angleMax) :
    ∃ b : Int, lowerDeg angleMax a = .ok b ∧ (b : ℚ) < angleMax ∧ b ≡ a [ZMOD 360] ∧
      ((a : ℚ) < angleMax → b = a) ∧ (angleMax ≤ a → angleMax - 360 ≤ b) := by
  fun_induction lowerDeg angleMax a with
  | case1 a above fits ih =>
    obtain ⟨b, run, below, turns, stays, near⟩ := ih fits
    refine ⟨b, run, below, turns.trans ?_, fun reached => absurd reached (not_lt.mpr above),
      fun _ => ?_⟩
    · simp [Int.ModEq]
    · by_cases reached : ((a - 360 : Int) : ℚ) < angleMax
      · rw [stays reached]
        push_cast
        linarith
      · exact near (not_lt.mp reached)
  | case2 a above overflow =>
    have ge : ((-2147483288 : Int) : ℚ) ≤ a := by
      push_cast
      linarith
    have ge' : -2147483288 ≤ a := by exact_mod_cast ge
    exact absurd ⟨by omega, by omega⟩ overflow
  | case3 a below =>
    exact ⟨a, rfl, not_le.mp below, rfl, fun _ => rfl, fun above => absurd above below⟩

/-- For bounds a turn apart or more, the truncated angle is brought between them by whole turns,
to the bound it was beyond. -/
theorem rad2degNorm_spec {angleRad : ℚ} (angleMin angleMax : ℚ)
    (fits : InInt (trunc (angleRad * rad2deg))) (wide : angleMin + 360 ≤ angleMax)
    (least : -1073741824 ≤ angleMin) (most : angleMax ≤ 1073741824) :
    ∃ a : Int, rad2degNorm angleRad angleMin angleMax = .ok (a : ℚ) ∧
      a ≡ trunc (angleRad * rad2deg) [ZMOD 360] ∧ angleMin ≤ a ∧ (a : ℚ) < angleMax ∧
      (angleMin ≤ trunc (angleRad * rad2deg) → (trunc (angleRad * rad2deg) : ℚ) < angleMax →
        a = trunc (angleRad * rad2deg)) ∧
      ((trunc (angleRad * rad2deg) : ℚ) < angleMin → (a : ℚ) < angleMin + 360) ∧
      (angleMax ≤ trunc (angleRad * rad2deg) → angleMax - 360 ≤ a) := by
  obtain ⟨b, raise, hb, above, turns, stays, near⟩ :=
    raiseDeg_spec angleMin fits (by linarith)
  obtain ⟨a, lower, below, turns', stays', near'⟩ :=
    lowerDeg_spec angleMax hb (by linarith)
  refine ⟨a, ?_, turns'.trans turns, ?_, below, ?_, ?_, ?_⟩
  · simp only [rad2degNorm, toInt_of_mem fits, raise, lower, bind, Except.bind]
  · by_cases low : (b : ℚ) < angleMax
    · rwa [stays' low]
    · have := near' (not_lt.mp low)
      linarith
  · intro inMin inMax
    have same := stays inMin
    rw [stays' (by rwa [same]), same]
  · intro under
    have close := near under
    rwa [stays' (by linarith)]
  · intro beyond
    apply near'
    rwa [stays (by linarith)]

/-- `a` stands for the angle `t` between the bounds: it is `t` up to whole turns, and nearer to `t`
than every other such angle. -/
structure Nearest (angleMin angleMax : ℚ) (t a : Int) : Prop where
  least : angleMin ≤ a
  below : (a : ℚ) < angleMax
  turns : a ≡ t [ZMOD 360]
  same : angleMin ≤ t → (t : ℚ) < angleMax → a = t
  nearest : ∀ x : Int, angleMin ≤ x → (x : ℚ) < angleMax → x ≡ t [ZMOD 360] → x ≠ a →
    |a - t| < |x - t|

/-- Two different angles that agree up to whole turns are a turn apart or more. -/
theorem turn_le_of_modEq {x a : Int} (turns : x ≡ a [ZMOD 360]) (ne : x ≠ a) :
    x + 360 ≤ a ∨ a + 360 ≤ x := by
  obtain ⟨k, hk⟩ := turns.dvd
  omega

/-- Both loops end without leaving the range of `int`, on the nearest angle between the bounds. -/
theorem rad2degNorm_nearest (angleRad angleMin angleMax : ℚ)
    (fits : InInt (trunc (angleRad * rad2deg))) (wide : 360 ≤ angleMax - angleMin)
    (least : |angleMin| ≤ 1073741824) (most : |angleMax| ≤ 1073741824) :
    ∃ a : Int, rad2degNorm angleRad angleMin angleMax = .ok (a : ℚ) ∧
      Nearest angleMin angleMax (trunc (angleRad * rad2deg)) a := by
  obtain ⟨a, run, turns, above, below, same, under, beyond⟩ :=
    rad2degNorm_spec angleMin angleMax fits (by linarith) (abs_le.mp least).1 (abs_le.mp most).2
  refine ⟨a, run, above, below, turns, same, ?_⟩
  intro x xMin xMax xTurns ne
  set t := trunc (angleRad * rad2deg)
  have apart := turn_le_of_modEq (xTurns.trans turns.symm) ne
  -- the side of the bounds on which the angle was decides which neighbours of `a` are left
  rcases lt_or_ge (t : ℚ) angleMin with low | notLow
  · have close : (a : ℚ) < x + 360 := (under low).trans_le (by linarith)
    have beyondT : (t : ℚ) < a := low.trans_le above
    norm_cast at close beyondT
    rw [abs_of_pos (by omega), abs_of_pos (by omega)]
    omega
  · rcases lt_or_ge (t : ℚ) angleMax with inside | high
    · obtain rfl : a = t := same notLow inside
      simpa [sub_ne_zero] using ne
    · have close : (x : ℚ) < a + 360 := by linarith [beyond high]
      have beyondT : (a : ℚ) < t := below.trans_le high
      norm_cast at close beyondT
      rw [abs_of_neg (by omega), abs_of_neg (by omega)]
      omega

/-- Ten radians, which are 572 degrees, between half a turn to either side. -/
theorem rad2degNorm_nearest_half_turn :
    ∃ a : Int, rad2degNorm 10 (-180) 180 = .ok (a : ℚ) ∧
      Nearest (-180) 180 (trunc (10 * rad2deg)) a :=
  rad2degNorm_nearest 10 (-180) 180 (inInt_trunc (by norm_num [rad2deg, abs_of_nonneg]))
    (by norm_num) (by norm_num [abs_of_nonneg]) (by norm_num [abs_of_nonneg])

end LibMip
