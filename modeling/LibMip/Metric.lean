import LibMip.Drive.Bounded

/-!
# Requests in metric units

`distance_drive`, `time_drive`, `angle_drive` and the flashing `set_chest_LED` scale a distance,
a time or a speed and clamp it to the range of its byte. Each converts the scaled value to `int`
before it clamps, so a request beyond the range of `int` is undefined instead of saturated:
`saturates_iff` says that this, and the negation of the least `int`, is all that can go wrong.
-/

namespace LibMip

open CNum

/-- A call of one of the four commands. -/
inductive MetricCall where
  | distanceDrive (distanceM angleRad : ℚ)
  | timeDrive (speed : CInt) (timeS : ℚ)
  | angleDrive (angleRad speed : ℚ)
  | chestLEDFlash (red green blue : CInt) (timeFlashOnSec timeFlashOffSec : ℚ)

namespace MetricCall

def call (m : Mip) : MetricCall → Except Fault (Mip × List Order)
  | .distanceDrive distanceM angleRad => m.distanceDrive distanceM angleRad
  | .timeDrive speed timeS => m.timeDrive speed timeS
  | .angleDrive angleRad speed => m.angleDrive angleRad speed
  | .chestLEDFlash red green blue on off => m.setChestLEDFlash red green blue on off

/-- The parameters that stand for a magnitude, among the numbers of an order. -/
def magnitudes : MetricCall → List Int → List Int
  | .distanceDrive .., [_, _, distance, _, _, _] => [distance]
  | .timeDrive .., [_, speed, time] => [speed, time]
  | .angleDrive .., [_, _, speed] => [speed]
  | .chestLEDFlash .., [_, _, _, _, on, off] => [on, off]
  | _, _ => []

/-- The requested magnitudes in the units of the order, no larger than the order can say. -/
def saturated : MetricCall → List Int
  | .distanceDrive distanceM _ => [min 255 (trunc (100 * |distanceM|))]
  | .timeDrive speed timeS => [min 30 |speed.val|, max 0 (min 255 (trunc (1000 * timeS / 7)))]
  | .angleDrive _ speed => [min 24 (trunc |speed|)]
  | .chestLEDFlash _ _ _ on off =>
    [min 255 (max 1 (trunc (50 * on))), min 255 (max 1 (trunc (50 * off)))]

/-- The first call is the second with one of its magnitudes made no larger. A time counts as a
magnitude when it is not negative. -/
inductive NoLarger : MetricCall → MetricCall → Prop where
  | distance {d d' a : ℚ} (h : |d'| ≤ |d|) : NoLarger (.distanceDrive d' a) (.distanceDrive d a)
  | speed {s s' : CInt} {t : ℚ} (h : |s'.val| ≤ |s.val|) :
      NoLarger (.timeDrive s' t) (.timeDrive s t)
  | time {s : CInt} {t t' : ℚ} (h : |t'| ≤ t) : NoLarger (.timeDrive s t') (.timeDrive s t)
  | turnSpeed {a s s' : ℚ} (h : |s'| ≤ |s|) : NoLarger (.angleDrive a s') (.angleDrive a s)
  | flashOn {r g b : CInt} {on on' off : ℚ} (h : |on'| ≤ on) :
      NoLarger (.chestLEDFlash r g b on' off) (.chestLEDFlash r g b on off)
  | flashOff {r g b : CInt} {on off off' : ℚ} (h : |off'| ≤ off) :
      NoLarger (.chestLEDFlash r g b on off') (.chestLEDFlash r g b on off)

/-- The values that the call converts to `int` are values of `int`, and it does not negate the
least one. -/
def Fits : MetricCall → Prop
  | .distanceDrive distanceM angleRad =>
    InInt (trunc (angleRad * rad2deg)) ∧ InInt (trunc (100 * |distanceM|))
  | .timeDrive speed timeS => InInt (trunc (1000 * timeS / 7)) ∧ speed.val ≠ -2147483648
  | .angleDrive angleRad speed => InInt (trunc (angleRad * rad2deg)) ∧ InInt (trunc |speed|)
  | .chestLEDFlash _ _ _ on off => InInt (trunc (50 * on)) ∧ InInt (trunc (50 * off))

/-- The call sends one order, with these magnitudes. -/
def Sends (m : Mip) (c : MetricCall) (sizes : List Int) : Prop :=
  ∃ m₁ order, c.call m = .ok (m₁, [order]) ∧ c.magnitudes (numbers order) = sizes

/-- The call saturates: it sends the saturated magnitudes, and no smaller ones than any call that
requests less. -/
def Saturates (m : Mip) (c : MetricCall) : Prop :=
  c.Sends m c.saturated ∧
    ∀ c', NoLarger c' c → ∃ sizes, c'.Sends m sizes ∧ List.Forall₂ (· ≤ ·) sizes c.saturated

/-! ## Calls that fit -/

section Sends

variable {m : Mip}

/-- Each command sends the saturated magnitudes when its conversions are in range. -/
theorem sends_distanceDrive {distanceM angleRad : ℚ}
    (fits : Fits (.distanceDrive distanceM angleRad)) :
    Sends m (.distanceDrive distanceM angleRad)
      (saturated (.distanceDrive distanceM angleRad)) := by
  obtain ⟨angle, distance⟩ := fits
  obtain ⟨a, normal, -⟩ := exists_normalised 360 angle (by decide) (by decide)
  have bytes := distanceBytes_of_normalised distanceM normal
  refine ⟨m, _, distanceDrive_eq m normal distance, ?_⟩
  rw [bytes.numbers_eq, magnitudes, saturated, bytes.distance]

theorem sends_timeDrive {speed : CInt} {timeS : ℚ} (fits : Fits (.timeDrive speed timeS)) :
    Sends m (.timeDrive speed timeS) (saturated (.timeDrive speed timeS)) := by
  obtain ⟨time, least⟩ := fits
  have command : InByte (if 0 < speed.val then cmdDriveForwardWithTime
      else cmdDriveBackwardWithTime) := by
    split <;> decide
  have speedByte : InByte (min 30 |speed.val|) := by
    have := abs_nonneg speed.val
    exact ⟨by omega, by omega⟩
  have timeByte : InByte (clamp (trunc (1000 * timeS / 7)) 0 255) :=
    ⟨le_clamp (by decide), clamp_le (by decide)⟩
  refine ⟨m, _, timeDrive_eq m speed.property least time, ?_⟩
  rw [numbers_sendOrder2 command speedByte timeByte, magnitudes, saturated,
    clamp_eq (by decide), min_comm _ 255]

theorem sends_angleDrive {angleRad speed : ℚ} (fits : Fits (.angleDrive angleRad speed)) :
    Sends m (.angleDrive angleRad speed) (saturated (.angleDrive angleRad speed)) := by
  obtain ⟨b, s, a, bytes, sent, narrow, -⟩ := angleDrive_spec m fits.1 fits.2
  refine ⟨m, _, sent, ?_⟩
  rw [narrow, magnitudes, saturated, bytes.speed]

theorem sends_chestLEDFlash {r g b : CInt} {on off : ℚ}
    (fits : Fits (.chestLEDFlash r g b on off)) :
    Sends m (.chestLEDFlash r g b on off) (saturated (.chestLEDFlash r g b on off)) := by
  have colour (x : Int) : InByte (clamp x 0 255) := ⟨le_clamp (by decide), clamp_le (by decide)⟩
  have time (x : Int) : InByte (clamp x 1 255) := by
    have least : 1 ≤ clamp x 1 255 := le_clamp (by decide)
    exact ⟨by omega, clamp_le (by decide)⟩
  have ticks (x : Int) : clamp x 1 255 = min 255 (max 1 x) := by
    rcases clamp_cases x 1 255 with h | h | h <;> omega
  refine ⟨_, _, Mip.setChestLEDFlash_of_fits r g b fits.1 fits.2, ?_⟩
  rw [numbers_sendOrder5 (by decide) (colour r) (colour g) (colour b) (time _) (time _),
    magnitudes, saturated, ticks, ticks]

theorem Fits.sends {c : MetricCall} (fits : c.Fits) : c.Sends m c.saturated := by
  cases c with
  | distanceDrive => exact sends_distanceDrive fits
  | timeDrive => exact sends_timeDrive fits
  | angleDrive => exact sends_angleDrive fits
  | chestLEDFlash => exact sends_chestLEDFlash fits

end Sends

/-- A call that does not fault converts and negates only what fits. -/
theorem fits_of_ok {m : Mip} {c : MetricCall} {r : Mip × List Order} (h : c.call m = .ok r) :
    c.Fits := by
  cases c with
  | distanceDrive distanceM angleRad =>
    obtain ⟨angle, degrees, h⟩ := bind_eq_ok.mp h
    obtain ⟨whole, normal, -⟩ := bind_eq_ok.mp degrees
    obtain ⟨distance, converted, -⟩ := bind_eq_ok.mp h
    rw [abs_mul_hundred] at converted
    exact ⟨inInt_of_rad2degNorm normal, (toInt_eq_ok.mp converted).1⟩
  | timeDrive speed timeS =>
    obtain ⟨time, converted, h⟩ := bind_eq_ok.mp h
    rw [seconds_mul_thousand] at converted
    refine ⟨(toInt_eq_ok.mp converted).1, fun least => ?_⟩
    have overflow : negate (-2147483648) = .error .signedOverflow := rfl
    simp [least, overflow, bind, Except.bind] at h
  | angleDrive angleRad speed =>
    obtain ⟨angle, degrees, h⟩ := bind_eq_ok.mp h
    obtain ⟨whole, normal, -⟩ := bind_eq_ok.mp degrees
    obtain ⟨fast, converted, -⟩ := bind_eq_ok.mp h
    exact ⟨inInt_of_rad2degNorm normal, (toInt_eq_ok.mp converted).1⟩
  | chestLEDFlash r g b on off =>
    obtain ⟨ticksOn, convertedOn, h⟩ := bind_eq_ok.mp h
    obtain ⟨ticksOff, convertedOff, -⟩ := bind_eq_ok.mp h
    rw [mul_comm] at convertedOn convertedOff
    exact ⟨(toInt_eq_ok.mp convertedOn).1, (toInt_eq_ok.mp convertedOff).1⟩

/-! ## Larger requests -/

/-- A request that is no larger is no larger in the units of the order. -/
theorem abs_mul_le_mul {k p q : ℚ} (hk : 0 ≤ k) (h : |p| ≤ q) : |k * p| ≤ k * q := by
  rw [abs_mul, abs_of_nonneg hk]
  exact mul_le_mul_of_nonneg_left h hk

/-- A time in the units of the order. -/
theorem abs_time_le {t t' : ℚ} (h : |t'| ≤ t) : |1000 * t' / 7| ≤ 1000 * t / 7 := by
  rw [mul_div_right_comm, mul_div_right_comm 1000 t]
  exact abs_mul_le_mul (by norm_num) h

theorem NoLarger.fits {c c' : MetricCall} (h : NoLarger c' c) (fits : c.Fits) : c'.Fits := by
  cases h with
  | distance h =>
    have shorter := abs_mul_le_mul (k := 100) (by norm_num) ((abs_abs _).trans_le h)
    exact ⟨fits.1, inInt_trunc_of_abs_le shorter fits.2⟩
  | @speed s s' t h =>
    refine ⟨fits.1, fun least => fits.2 ?_⟩
    rw [least, abs_of_neg (by decide)] at h
    have inInt := s.property
    rcases abs_cases s.val with sign | sign <;> omega
  | time h => exact ⟨inInt_trunc_of_abs_le (abs_time_le h) fits.1, fits.2⟩
  | turnSpeed h => exact ⟨fits.1, inInt_trunc_of_abs_le ((abs_abs _).trans_le h) fits.2⟩
  | flashOn h => exact ⟨inInt_trunc_of_abs_le (abs_mul_le_mul (by norm_num) h) fits.1, fits.2⟩
  | flashOff h => exact ⟨fits.1, inInt_trunc_of_abs_le (abs_mul_le_mul (by norm_num) h) fits.2⟩

theorem NoLarger.saturated_le {c c' : MetricCall} (h : NoLarger c' c) :
    List.Forall₂ (· ≤ ·) c'.saturated c.saturated := by
  have flash {t t' : ℚ} (h : |t'| ≤ t) : trunc (50 * t') ≤ trunc (50 * t) :=
    trunc_mono ((le_abs_self _).trans (abs_mul_le_mul (by norm_num) h))
  cases h with
  | @distance d d' a h =>
    have step : trunc (100 * |d'|) ≤ trunc (100 * |d|) :=
      trunc_mono (mul_le_mul_of_nonneg_left h (by norm_num))
    exact .cons (min_le_min le_rfl step) .nil
  | speed h => exact .cons (min_le_min le_rfl h) (.cons le_rfl .nil)
  | @time s t t' h =>
    have step : trunc (1000 * t' / 7) ≤ trunc (1000 * t / 7) :=
      trunc_mono ((le_abs_self _).trans (abs_time_le h))
    exact .cons le_rfl (.cons (max_le_max le_rfl (min_le_min le_rfl step)) .nil)
  | turnSpeed h => exact .cons (min_le_min le_rfl (trunc_mono h)) .nil
  | flashOn h =>
    exact .cons (min_le_min le_rfl (max_le_max le_rfl (flash h))) (.cons le_rfl .nil)
  | flashOff h =>
    exact .cons le_rfl (.cons (min_le_min le_rfl (max_le_max le_rfl (flash h))) .nil)

/-- A call saturates exactly when the values it converts and negates are in range. -/
theorem saturates_iff (m : Mip) (c : MetricCall) : c.Saturates m ↔ c.Fits := by
  constructor
  · rintro ⟨⟨m₁, order, sent, -⟩, -⟩
    exact fits_of_ok sent
  · intro fits
    refine ⟨fits.sends, fun c' noLarger => ?_⟩
    exact ⟨c'.saturated, (noLarger.fits fits).sends, noLarger.saturated_le⟩

/-- A distance of 30000 km is no `int` number of centimetres. -/
theorem not_saturates_far : ¬ (distanceDrive 30000000 0).Saturates Mip.init := by
  rintro ⟨⟨m₁, order, sent, -⟩, -⟩
  have whole : (100 : ℚ) * |30000000| = (3000000000 : Int) := by norm_num [abs_of_nonneg]
  have fits := (fits_of_ok sent).2
  rw [whole, trunc_intCast] at fits
  exact absurd fits (by decide)

end MetricCall

end LibMip
