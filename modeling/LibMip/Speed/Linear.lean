import LibMip.Speed.Range
import Mathlib.Order.Monotone.Odd

/-!
# The linear axis

With the spin in its dead zone the ticks are a function of the linear speed alone, made of a dead
zone, a normal piece, a crazy piece and the clipped ends. It is odd, since truncation, clamping
and the offset are, and it grows with the speed, since the offset of the crazy piece is more than
its smaller slope takes away at the threshold.
-/

namespace LibMip

open CNum

theorem signum_neg {v : ℚ} (h : v ≠ 0) : signum (-v) = -signum v := by
  rcases h.lt_or_gt with neg | pos
  · rw [signum, signum, if_pos (by linarith), if_neg (not_le.mpr neg), neg_neg]
  · rw [signum, signum, if_neg (by linarith), if_pos pos.le]

/-- The ticks of a clipped linear speed, without the checks of the conversions. -/
def linearCount (v : ℚ) : Int :=
  if |v| < 0.05 then 0
  else if |v| < 0.7 then clamp (trunc (45.98685952820811545096 * v)) (-32) 32
  else clamp (trunc (34.40175576162719827641 * v)) (-32) 32 + 32 * signum v

section Count

variable {v v₁ v₂ : ℚ}

theorem linearTicks_eq (h : |v| ≤ 0.95) : linearTicks v = .ok (linearCount v) := by
  have fits {c : ℚ} (pos : 0 < c) (small : c ≤ 100) : toInt (c * v) = .ok (trunc (c * v)) := by
    apply toInt_of_abs_lt
    rw [abs_mul, abs_of_pos pos]
    nlinarith [abs_nonneg v]
  unfold linearTicks linearCount
  rw [fits (by norm_num) (by norm_num), fits (by norm_num) (by norm_num)]
  split_ifs <;> rfl

/-- Every piece is odd, and the pieces are told apart by the magnitude. -/
theorem linearCount_neg (v : ℚ) : linearCount (-v) = -linearCount v := by
  unfold linearCount
  rw [abs_neg, mul_neg, mul_neg, trunc_neg, trunc_neg]
  split_ifs with still normal
  · rfl
  · exact clamp_neg (by decide)
  · have moving : v ≠ 0 := by
      rintro rfl
      norm_num at still
    rw [clamp_neg (by decide), signum_neg moving]
    ring

/-- Scaling, truncation and clamping each keep the order. -/
theorem clamp_trunc_mono {c : ℚ} (hc : 0 ≤ c) (h : v₁ ≤ v₂) :
    clamp (trunc (c * v₁)) (-32) 32 ≤ clamp (trunc (c * v₂)) (-32) 32 :=
  clamp_mono (by decide) (trunc_mono (mul_le_mul_of_nonneg_left h hc))

theorem clamp_trunc_nonneg {c : ℚ} (hc : 0 ≤ c) (h : 0 ≤ v) :
    0 ≤ clamp (trunc (c * v)) (-32) 32 := by
  have base := clamp_trunc_mono hc h
  rwa [mul_zero, trunc_of_nonneg le_rfl, Int.floor_zero] at base

/-- A crazy speed has more ticks than any normal one. -/
theorem linearCount_crazy (h : 0.7 ≤ v) :
    linearCount v = clamp (trunc (34.40175576162719827641 * v)) (-32) 32 + 32 := by
  have pos : 0 ≤ v := by linarith
  have sign : signum v = 1 := if_pos pos
  have fast : ¬ |v| < 0.05 ∧ ¬ |v| < 0.7 := by
    rw [abs_of_nonneg pos]
    constructor <;> linarith
  simp only [linearCount, fast, if_false, sign, mul_one]

theorem linearCount_mono_of_nonneg (h₁ : 0 ≤ v₁) (h : v₁ ≤ v₂) :
    linearCount v₁ ≤ linearCount v₂ := by
  have h₂ : 0 ≤ v₂ := h₁.trans h
  by_cases crazy₂ : 0.7 ≤ v₂
  · have step := clamp_trunc_mono (c := 34.40175576162719827641) (by norm_num) h
    have least := clamp_trunc_nonneg (c := 34.40175576162719827641) (by norm_num) h₂
    rw [linearCount_crazy crazy₂]
    by_cases crazy₁ : 0.7 ≤ v₁
    · rw [linearCount_crazy crazy₁]
      omega
    · have most : clamp (trunc (45.98685952820811545096 * v₁)) (-32) 32 ≤ 32 := clamp_le (by decide)
      have slow : |v₁| < 0.7 := by rwa [abs_of_nonneg h₁, ← not_le]
      unfold linearCount
      split_ifs <;> omega
  · have slow₂ : v₂ < 0.7 := not_le.mp crazy₂
    have slow₁ : v₁ < 0.7 := h.trans_lt slow₂
    have step := clamp_trunc_mono (c := 45.98685952820811545096) (by norm_num) h
    have least := clamp_trunc_nonneg (c := 45.98685952820811545096) (by norm_num) h₂
    unfold linearCount
    rw [abs_of_nonneg h₁, abs_of_nonneg h₂, if_pos slow₁, if_pos slow₂]
    split_ifs with still₁ still₂
    · rfl
    · exact least
    · exact absurd (h.trans_lt ‹_›) still₁
    · exact step

theorem linearCount_mono (h : v₁ ≤ v₂) : linearCount v₁ ≤ linearCount v₂ :=
  monotone_of_odd_of_monotoneOn_nonneg linearCount_neg
    (fun _ h₁ _ _ h => linearCount_mono_of_nonneg h₁ h) h

end Count

/-- With the spin in its dead zone only the clipped linear speed counts. -/
theorem speed2ticks_of_still (v : ℚ) {w : ℚ} (still : |w| < 0.05) :
    speed2ticks v w = .ok (linearCount (clamp v (-0.95) 0.95), 0) := by
  obtain ⟨lo, hi⟩ := abs_lt.mp still
  have spin : clamp w (-17) 17 = w := clamp_of_mem (by linarith) (by linarith)
  have range : |clamp v (-0.95) 0.95| ≤ 0.95 :=
    abs_le.mpr ⟨le_clamp (by norm_num), clamp_le (by norm_num)⟩
  simp only [speed2ticks, clip_eq, spin, still, if_true, linearTicks_eq range, bind, Except.bind]

/-- On the linear axis `speed2ticks` keeps the order, is odd, and does not turn. -/
theorem linear_axis_odd_monotone (v₁ v₂ w : ℚ) (still : |w| < 0.05) (h : v₁ ≤ v₂) :
    ∃ t₁ t₂, speed2ticks v₁ w = .ok (t₁, 0) ∧ speed2ticks v₂ w = .ok (t₂, 0) ∧
      speed2ticks (-v₁) w = .ok (-t₁, 0) ∧ t₁ ≤ t₂ := by
  refine ⟨_, _, speed2ticks_of_still v₁ still, speed2ticks_of_still v₂ still, ?_,
    linearCount_mono (clamp_mono (by norm_num) h)⟩
  rw [speed2ticks_of_still (-v₁) still, clamp_neg (by norm_num), linearCount_neg]

/-- Across the switch at 0.7 m/s. -/
theorem linear_axis_odd_monotone_switch :
    ∃ t₁ t₂, speed2ticks 0.69 0 = .ok (t₁, 0) ∧ speed2ticks 0.7 0 = .ok (t₂, 0) ∧
      speed2ticks (-0.69) 0 = .ok (-t₁, 0) ∧ t₁ ≤ t₂ :=
  linear_axis_odd_monotone 0.69 0.7 0 (by norm_num) (by norm_num)

end LibMip
