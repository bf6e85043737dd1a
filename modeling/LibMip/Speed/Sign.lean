import LibMip.Speed.Linear

/-!
# The side of the ticks

The sign of a speed says which way the robot is to go. The regressions were fitted on nonnegative
speeds only and have an intercept and cross terms, so near the thresholds, and where one speed is
much larger than the other, they cross zero on the wrong side. `SignSafe` is where they do not;
beside the regressions it is the offset of the fourth case that errs, since it follows the sign
of the truncated ticks and zero counts as positive.
-/

namespace LibMip

open CNum

/-- The ticks do not go against a speed outside the dead zone. -/
def SameSide (speed : ℚ) (ticks : Int) : Prop :=
  (0.05 ≤ speed → 0 ≤ ticks) ∧ (speed ≤ -0.05 → ticks ≤ 0)

def SignPreserved (v w : ℚ) : Prop :=
  ∃ vTicks wTicks, speed2ticks v w = .ok (vTicks, wTicks) ∧ SameSide v vTicks ∧ SameSide w wTicks

/-- Where the clipped speeds are not driven against: one axis alone, both within the safe speeds,
both beyond. -/
def SignSafe (v w : ℚ) : Prop :=
  if |w| < 0.05 then True
  else if |v| < 0.05 then w ≤ -0.05 → 2.39382382344084006941 * w + 1.6460078602299454762 < 1
  else if |v| ≤ 0.65 then
    (0.05 ≤ v → -1 < 0.50949 + 45.38459 * v - 0.81221 * w + 3.78223 * v * w) ∧
    (v ≤ -0.05 → 0.50949 + 45.38459 * v - 0.81221 * w + 3.78223 * v * w < 1) ∧
    (w ≤ -0.05 → 0.98163 - 1.82084 * v + 11.69517 * w + 0.36455 * v * w < 1)
  else w ≤ -0.05 → w ≤ -0.0808357237159

section Axis

variable {x q : ℚ} {n t : Int}

/-- Clipping keeps a speed on its side of the dead zone. -/
theorem sameSide_clamp {b : ℚ} (h : 0.05 ≤ b) : SameSide (clamp x (-b) b) t ↔ SameSide x t := by
  have forward : 0.05 ≤ clamp x (-b) b ↔ 0.05 ≤ x := by
    rcases clamp_cases x (-b) b with c | c | c <;> constructor <;> intro <;> linarith
  have backward : clamp x (-b) b ≤ -0.05 ↔ x ≤ -0.05 := by
    rcases clamp_cases x (-b) b with c | c | c <;> constructor <;> intro <;> linarith
  rw [SameSide, SameSide, forward, backward]

theorem sameSide_clamp_ticks : SameSide x (clamp n (-32) 32) ↔ SameSide x n := by
  have cases := clamp_cases n (-32) 32
  have nonneg : 0 ≤ clamp n (-32) 32 ↔ 0 ≤ n := by omega
  have nonpos : clamp n (-32) 32 ≤ 0 ↔ n ≤ 0 := by omega
  rw [SameSide, SameSide, nonneg, nonpos]

/-- Truncated, a regression value is on the side of the speed until it is a whole tick past. -/
theorem sameSide_trunc :
    SameSide x (trunc q) ↔ (0.05 ≤ x → -1 < q) ∧ (x ≤ -0.05 → q < 1) := by
  rw [SameSide, trunc_nonneg_iff, trunc_nonpos_iff]

theorem CrazyTicks.sameSide {threshold : ℚ} (h : CrazyTicks threshold x n t) (hn : 0 ≤ n)
    (pos : 0 < threshold) : SameSide x t := by
  rcases h with ⟨fwd, least, -⟩ | ⟨bwd, -, most⟩
  · exact ⟨fun _ => by omega, fun against => by linarith⟩
  · exact ⟨fun against => by linarith, fun _ => by omega⟩

end Axis

/-! ## The four cases -/

section Cases

variable {v w : ℚ}

/-- An odd function that grows is on the side of its argument. -/
theorem sameSide_linearCount (v : ℚ) : SameSide v (linearCount v) := by
  have zero : linearCount 0 = 0 := by norm_num [linearCount]
  constructor
  · intro forward
    have ahead : 0 ≤ v := by linarith
    exact zero ▸ linearCount_mono ahead
  · intro backward
    have behind : v ≤ 0 := by linarith
    exact zero ▸ linearCount_mono behind

theorem sameSide_zero {x : ℚ} : SameSide x 0 := ⟨fun _ => le_rfl, fun _ => le_rfl⟩

/-- The intercept of the angular regression makes a slow turn to the right one to the left. -/
theorem sameSide_angular (lo : 0.05 ≤ |w|) (hi : |w| ≤ 17) :
    ∃ t, angularTicks w = .ok t ∧ (SameSide w t ↔
      (w ≤ -0.05 → 2.39382382344084006941 * w + 1.6460078602299454762 < 1)) := by
  by_cases normal : |w| < 13
  · refine ⟨_, (angularTicks_normal lo normal).1, ?_⟩
    rw [sameSide_trunc, and_iff_right]
    intro left
    linarith
  · obtain ⟨t, ht, crazy⟩ := angularTicks_crazy (not_lt.mp normal) hi
    refine ⟨t, ht, iff_of_true (crazy.sameSide (by decide) (by norm_num)) fun right => ?_⟩
    have beyond := not_lt.mp normal
    rw [abs_of_neg (by linarith)] at beyond
    linarith

/-- Only the turn to the left cannot go wrong. -/
theorem sameSide_safe_spin (hv : |v| ≤ 0.65) :
    SameSide w (trunc (0.98163 - 1.82084 * v + 11.69517 * w + 0.36455 * v * w)) ↔
      (w ≤ -0.05 → 0.98163 - 1.82084 * v + 11.69517 * w + 0.36455 * v * w < 1) := by
  rw [sameSide_trunc, and_iff_right]
  intro left
  obtain ⟨lo, hi⟩ := abs_le.mp hv
  nlinarith

/-- The truncated value has the side of a crazy speed, so its offset has too. -/
theorem sameSide_crazy_speed (lo : 0.65 < |v|) :
    SameSide v (clamp (trunc (v / 0.0290682838088)) (-32) 32 +
      32 * signum (clamp (trunc (v / 0.0290682838088)) (-32) 32)) := by
  have cases := clamp_cases (trunc (v / 0.0290682838088)) (-32) 32
  rcases lt_abs.mp lo with fwd | bwd
  · have least : 22 ≤ trunc (v / 0.0290682838088) := by
      apply le_trunc
      rw [le_div_iff₀ (by norm_num)]
      push_cast
      linarith
    refine ⟨fun _ => ?_, fun against => by linarith⟩
    rw [signum, if_pos (by omega)]
    omega
  · have most : trunc (v / 0.0290682838088) ≤ -22 := by
      apply trunc_le
      rw [div_le_iff₀ (by norm_num)]
      push_cast
      linarith
    refine ⟨fun against => by linarith, fun _ => ?_⟩
    rw [signum, if_neg (by omega)]
    omega

/-- Where the spin is not truncated to zero, on either side. -/
theorem trunc_crazy_spin :
    (trunc ((w - 0.0191642762841) / 0.1) ≤ -1 ↔ w ≤ -0.0808357237159) ∧
      (0.05 ≤ w → 0 ≤ trunc ((w - 0.0191642762841) / 0.1)) := by
  refine ⟨⟨fun h => ?_, fun h => ?_⟩, fun left => ?_⟩
  · by_contra short
    have above : -1 < trunc ((w - 0.0191642762841) / 0.1) := by
      apply lt_trunc (by decide)
      rw [lt_div_iff₀ (by norm_num)]
      push_cast
      linarith
    omega
  · apply trunc_le
    rw [div_le_iff₀ (by norm_num)]
    push_cast
    linarith
  · apply le_trunc
    rw [le_div_iff₀ (by norm_num)]
    push_cast
    linarith

/-- A spin that is truncated to zero takes the offset of a turn to the left. -/
theorem sameSide_crazy_spin :
    SameSide w (clamp (trunc ((w - 0.0191642762841) / 0.1)) (-32) 32 +
        32 * signum (clamp (trunc ((w - 0.0191642762841) / 0.1)) (-32) 32)) ↔
      (w ≤ -0.05 → w ≤ -0.0808357237159) := by
  have cases := clamp_cases (trunc ((w - 0.0191642762841) / 0.1)) (-32) 32
  obtain ⟨reach, forward⟩ := trunc_crazy_spin (w := w)
  rw [SameSide, ← reach, signum]
  split_ifs with side
  · exact ⟨fun h right => absurd (h.2 right) (by omega),
      fun h => ⟨fun _ => by omega, fun right => by have := h right; omega⟩⟩
  · exact ⟨fun h right => by omega,
      fun h => ⟨fun left => by have := forward left; omega, fun _ => by omega⟩⟩

end Cases

/-- Once the ticks are known, what is left are the two axes. -/
theorem signPreserved_iff_of_eq {v w : ℚ} {vTicks wTicks : Int}
    (ticks : speed2ticks v w = .ok (vTicks, wTicks)) :
    SignPreserved v w ↔ SameSide v vTicks ∧ SameSide w wTicks := by
  constructor
  · rintro ⟨vTicks', wTicks', ticks', sides⟩
    obtain ⟨rfl, rfl⟩ := Prod.mk.inj (Except.ok.inj (ticks.symm.trans ticks'))
    exact sides
  · intro sides
    exact ⟨vTicks, wTicks, ticks, sides⟩

/-- `speed2ticks` never drives an axis against the request exactly where the clipped speeds are
safe. -/
theorem signPreserved_iff (v w : ℚ) :
    SignPreserved v w ↔ SignSafe (clamp v (-0.95) 0.95) (clamp w (-17) 17) := by
  obtain ⟨hv, hw⟩ := clip_range v w
  have ticks := speed2ticks.eq_1 v w
  rw [clip_eq] at hv hw ticks
  have sideV (t : Int) : SameSide (clamp v (-0.95) 0.95) t ↔ SameSide v t :=
    sameSide_clamp (by norm_num)
  have sideW (t : Int) : SameSide (clamp w (-17) 17) t ↔ SameSide w t :=
    sameSide_clamp (by norm_num)
  dsimp only at hv hw ticks
  generalize clamp v (-0.95) 0.95 = v' at hv ticks sideV ⊢
  generalize clamp w (-17) 17 = w' at hw ticks sideW ⊢
  unfold SignSafe
  by_cases still : |w'| < 0.05
  · simp only [still, if_true, linearTicks_eq hv, bind, Except.bind] at ticks ⊢
    rw [signPreserved_iff_of_eq ticks, ← sideV]
    exact iff_of_true ⟨sameSide_linearCount v', sameSide_zero⟩ trivial
  · by_cases turning : |v'| < 0.05
    · obtain ⟨t, ht, side⟩ := sameSide_angular (not_lt.mp still) hw
      simp only [still, turning, if_true, if_false, ht, bind, Except.bind] at ticks ⊢
      rw [signPreserved_iff_of_eq ticks, ← sideW, side, and_iff_right sameSide_zero]
    · by_cases safe : |v'| ≤ 0.65
      · simp only [still, turning, safe, if_true, if_false, safeTicks_eq hv hw] at ticks ⊢
        rw [signPreserved_iff_of_eq ticks, ← sideV, ← sideW, sameSide_clamp_ticks,
          sameSide_clamp_ticks, sameSide_safe_spin safe, sameSide_trunc, and_assoc]
      · simp only [still, turning, safe, if_false, crazyTicks_eq hv hw] at ticks ⊢
        rw [signPreserved_iff_of_eq ticks, ← sideV, ← sideW, sameSide_crazy_spin,
          and_iff_right (sameSide_crazy_speed (not_le.mp safe))]

/-- A turn to the right of a tenth of a radian per second is sent as one to the left, and so is a
fast drive with a slight turn to the right. -/
theorem not_signPreserved_tenth :
    ¬ SignPreserved 0 (-0.1) ∧ speed2ticks 0 (-0.1) = .ok (0, 1) ∧
      speed2ticks 0.9 (-0.06) = .ok (62, 32) := by
  have ticks : speed2ticks 0 (-0.1) = .ok (0, 1) := by decide +kernel
  refine ⟨?_, ticks, by decide +kernel⟩
  rw [signPreserved_iff_of_eq ticks]
  intro sides
  exact absurd (sides.2.2 (by norm_num)) (by decide)

end LibMip
