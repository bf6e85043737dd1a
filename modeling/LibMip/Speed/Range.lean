import LibMip.Drive.ContinuousDrive
import LibMip.Speed

/-!
# The range of the ticks

Clipping comes before the regressions, so the value each of them converts to `int` is bounded,
and the ticks that come out are at most 64 either way. `continuous_drive_metric` hands them to
`continuous_drive`, which stays within the byte bands of the protocol in its own order and in
the order of a forced deceleration.
-/

namespace LibMip

open CNum

/-- `continuous_drive_metric`; `speed2ticks` never reports a failure. -/
def Mip.continuousDriveMetric (m : Mip) (vMs wRads : ℚ) : Except Fault (Mip × List Order) := do
  let ticks ← speed2ticks vMs wRads
  m.continuousDrive ticks.1 ticks.2 true

/-! ## Clipping -/

section Clip

variable (v w : ℚ)

/-- Clamping is harmless when neither speed is out of bounds. -/
theorem clip_eq : clip v w = (clamp v (-0.95) 0.95, clamp w (-17) 17) := by
  unfold clip
  split_ifs with out
  · rfl
  · obtain ⟨hv, hw⟩ := not_or.mp out
    obtain ⟨loV, hiV⟩ := abs_le.mp (not_lt.mp hv)
    obtain ⟨loW, hiW⟩ := abs_le.mp (not_lt.mp hw)
    rw [clamp_of_mem loV hiV, clamp_of_mem loW hiW]

theorem clip_range : |(clip v w).1| ≤ 0.95 ∧ |(clip v w).2| ≤ 17 := by
  rw [clip_eq, abs_le, abs_le]
  exact ⟨⟨le_clamp (by norm_num), clamp_le (by norm_num)⟩, le_clamp (by norm_num),
    clamp_le (by norm_num)⟩

end Clip

/-! ## The four cases -/

section Cases

variable {v w : ℚ}

/-- An axis alone is still, normal or crazy. -/
theorem axis_range {ticks : ℚ → Except Fault Int} {threshold x : ℚ} {n : Int} (hn : 0 < n)
    (still : |x| < 0.05 → ticks x = .ok 0)
    (normal : 0.05 ≤ |x| → |x| < threshold → ∃ t, ticks x = .ok t ∧ |t| ≤ 32)
    (crazy : threshold ≤ |x| → ∃ t, ticks x = .ok t ∧ CrazyTicks threshold x n t) :
    ∃ t, ticks x = .ok t ∧ |t| ≤ 64 := by
  by_cases slow : |x| < 0.05
  · exact ⟨0, still slow, by decide⟩
  · by_cases below : |x| < threshold
    · obtain ⟨t, ht, range⟩ := normal (not_lt.mp slow) below
      exact ⟨t, ht, range.trans (by decide)⟩
    · obtain ⟨t, ht, beyond⟩ := crazy (not_lt.mp below)
      exact ⟨t, ht, (beyond.decoded hn).2.1⟩

theorem linearTicks_range (h : |v| ≤ 0.95) : ∃ t, linearTicks v = .ok t ∧ |t| ≤ 64 := by
  apply axis_range (n := 24) (by decide)
  · intro slow
    simp only [linearTicks, slow, if_true]
  · intro lo hi
    exact ⟨_, linearTicks_normal lo hi⟩
  · intro lo
    exact linearTicks_crazy lo h

theorem angularTicks_range (h : |w| ≤ 17) : ∃ t, angularTicks w = .ok t ∧ |t| ≤ 64 := by
  apply axis_range (n := 18) (by decide)
  · intro slow
    simp only [angularTicks, slow, if_true]
  · intro lo hi
    exact ⟨_, angularTicks_normal lo hi⟩
  · intro lo
    exact angularTicks_crazy lo h

/-- The bilinear term is bounded by the bounds of its factors. -/
theorem abs_product_le (hv : |v| ≤ 0.95) (hw : |w| ≤ 17) : |v * w| ≤ 0.95 * 17 := by
  rw [abs_mul]
  exact mul_le_mul hv hw (abs_nonneg w) (by norm_num)

/-- What the third case computes. -/
theorem safeTicks_eq (hv : |v| ≤ 0.95) (hw : |w| ≤ 17) :
    safeTicks v w =
      .ok (clamp (trunc (0.50949 + 45.38459 * v - 0.81221 * w + 3.78223 * v * w)) (-32) 32,
        clamp (trunc (0.98163 - 1.82084 * v + 11.69517 * w + 0.36455 * v * w)) (-32) 32) := by
  obtain ⟨loP, hiP⟩ := abs_le.mp (abs_product_le hv hw)
  obtain ⟨loV, hiV⟩ := abs_le.mp hv
  obtain ⟨loW, hiW⟩ := abs_le.mp hw
  have fitsV : |0.50949 + 45.38459 * v - 0.81221 * w + 3.78223 * v * w| < 2147483648 := by
    rw [mul_assoc, abs_lt]
    constructor <;> linarith
  have fitsW : |0.98163 - 1.82084 * v + 11.69517 * w + 0.36455 * v * w| < 2147483648 := by
    rw [mul_assoc 0.36455, abs_lt]
    constructor <;> linarith
  simp only [safeTicks, toInt_of_abs_lt fitsV, toInt_of_abs_lt fitsW, bind, Except.bind]

/-- What the fourth case computes. -/
theorem crazyTicks_eq (hv : |v| ≤ 0.95) (hw : |w| ≤ 17) :
    crazyTicks v w =
      .ok (clamp (trunc (v / 0.0290682838088)) (-32) 32 +
          32 * signum (clamp (trunc (v / 0.0290682838088)) (-32) 32),
        clamp (trunc ((w - 0.0191642762841) / 0.1)) (-32) 32 +
          32 * signum (clamp (trunc ((w - 0.0191642762841) / 0.1)) (-32) 32)) := by
  obtain ⟨loV, hiV⟩ := abs_le.mp hv
  obtain ⟨loW, hiW⟩ := abs_le.mp hw
  have fitsV : |v / 0.0290682838088| < 2147483648 := by
    rw [abs_div, abs_of_pos (by norm_num : (0 : ℚ) < 0.0290682838088), div_lt_iff₀ (by norm_num)]
    linarith
  have fitsW : |(w - 0.0191642762841) / 0.1| < 2147483648 := by
    rw [abs_div, abs_of_pos (by norm_num : (0 : ℚ) < 0.1), div_lt_iff₀ (by norm_num), abs_lt]
    constructor <;> linarith
  simp only [crazyTicks, toInt_of_abs_lt fitsV, toInt_of_abs_lt fitsW, bind, Except.bind]

theorem abs_clamp_le (n : Int) : |clamp n (-32) 32| ≤ 32 :=
  abs_le.mpr ⟨le_clamp (by decide), clamp_le (by decide)⟩

/-- The offset of the crazy ticks moves them at most as far again. -/
theorem abs_offset_le {t : Int} (h : |t| ≤ 32) : |t + 32 * signum t| ≤ 64 := by
  obtain ⟨lo, hi⟩ := abs_le.mp h
  unfold signum
  split_ifs <;> exact abs_le.mpr ⟨by omega, by omega⟩

end Cases

/-- Every request has ticks, and they are in range. -/
theorem speed2ticks_range (v w : ℚ) :
    ∃ t, speed2ticks v w = .ok t ∧ |t.1| ≤ 64 ∧ |t.2| ≤ 64 := by
  obtain ⟨hv, hw⟩ := clip_range v w
  unfold speed2ticks
  generalize (clip v w).1 = v' at hv ⊢
  generalize (clip v w).2 = w' at hw ⊢
  by_cases still : |w'| < 0.05
  · obtain ⟨t, ht, range⟩ := linearTicks_range hv
    exact ⟨(t, 0), by simp [still, ht, bind, Except.bind], range, by simp⟩
  · by_cases turning : |v'| < 0.05
    · obtain ⟨t, ht, range⟩ := angularTicks_range hw
      exact ⟨(0, t), by simp [still, turning, ht, bind, Except.bind], by simp, range⟩
    · by_cases safe : |v'| ≤ 0.65
      · simp only [still, turning, safe, if_true, if_false, safeTicks_eq hv hw]
        exact ⟨_, rfl, (abs_clamp_le _).trans (by decide), (abs_clamp_le _).trans (by decide)⟩
      · simp only [still, turning, safe, if_false, crazyTicks_eq hv hw]
        exact ⟨_, rfl, abs_offset_le (abs_clamp_le _), abs_offset_le (abs_clamp_le _)⟩

/-! ## The orders -/

/-- A continuous drive order with its parameters, as they are sent, in the bands of the
protocol. -/
def InBands (o : Order) : Prop :=
  ∃ param1 param2 : Int, numbers o = [cmdContinuousDrive, param1, param2] ∧
    (0 ≤ param1 ∧ param1 ≤ 64 ∨ 129 ≤ param1 ∧ param1 ≤ 192) ∧
    (param2 = 0 ∨ 65 ≤ param2 ∧ param2 ≤ 128 ∨ 193 ≤ param2 ∧ param2 ≤ 255)

theorem inBands_driveOrder (v w : Int) : InBands (driveOrder v w) := by
  refine ⟨driveParam1 v, driveParam2 w, ?_, ?_, ?_⟩
  · exact numbers_sendOrder2 (by decide) (driveParam1_mem v) (driveParam2_mem w)
  · have range := clamp_forward_mem v
    simp only [driveParam1]
    split_ifs <;> omega
  · have range := clamp_spin_mem w
    simp only [driveParam2]
    split_ifs <;> omega

/-- The order of a forced deceleration is a drive order too. -/
theorem inBands_reversal {last : Int × Int} {v w : Int} {force : Bool} {o : Order}
    (h : o ∈ reversal last v w force) : InBands o := by
  unfold reversal at h
  split_ifs at h
  · exact List.mem_singleton.mp h ▸ inBands_driveOrder _ _
  · exact List.mem_singleton.mp h ▸ inBands_driveOrder _ _
  · simp at h

/-- `speed2ticks` gives ticks between -64 and 64 for every request without a conversion out of
range, and what `continuous_drive_metric` sends is in the bands, whatever the state. -/
theorem continuousDriveMetric_inBands (v w : ℚ) :
    (∃ vTicks wTicks, speed2ticks v w = .ok (vTicks, wTicks) ∧
      (-64 ≤ vTicks ∧ vTicks ≤ 64) ∧ -64 ≤ wTicks ∧ wTicks ≤ 64) ∧
    ∀ m : Mip, ∃ m' orders, m.continuousDriveMetric v w = .ok (m', orders) ∧
      ∀ o ∈ orders, InBands o := by
  obtain ⟨⟨vTicks, wTicks⟩, ticks, hv, hw⟩ := speed2ticks_range v w
  obtain ⟨loV, hiV⟩ := abs_le.mp hv
  obtain ⟨loW, hiW⟩ := abs_le.mp hw
  refine ⟨⟨vTicks, wTicks, ticks, ⟨loV, hiV⟩, loW, hiW⟩, fun m => ?_⟩
  have drive := continuousDrive_of_negate m (v := vTicks) (w := wTicks) true
    (fun _ => negate_of_lt ⟨by omega, by omega⟩ (by omega))
    (fun _ => negate_of_lt ⟨by omega, by omega⟩ (by omega))
  refine ⟨_, _, by rw [Mip.continuousDriveMetric, ticks]; exact drive, ?_⟩
  intro o ho
  rcases List.mem_append.mp ho with extra | own
  · exact inBands_reversal extra
  · exact List.mem_singleton.mp own ▸ inBands_driveOrder _ _

end LibMip
