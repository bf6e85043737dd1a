import LibMip.Angle
import LibMip.Orders

/-!
# Drives that end by themselves

`distance_drive` and `angle_drive` bring the angle between bounds and split it into bytes,
`time_drive` counts a time in steps of 7 ms.

`distanceDrive_encodes` says that the five parameters of a distance order are the request. An
angle order has every part of its documentation except the side: `angleDrive_spec` gives the
bytes that are sent, and `documentedTurn_iff` that only a request that does not turn, by the
whole degree, is sent as documented.
-/

namespace LibMip

open CNum

namespace Mip

variable (m : Mip)

/-- `distance_drive`: the angle is sent as a side and a magnitude in two bytes. -/
def distanceDrive (distanceM angleRad : ℚ) : Except Fault (Mip × List Order) := do
  let backward := distanceM < 0
  let angleDeg ← rad2degNorm angleRad (-360) 360 >>= toInt
  let ccw := angleDeg < 0
  let distanceCm ← toInt |distanceM * 100|
  let magnitude ← absInt angleDeg
  .ok (m, [sendOrder5 cmdDistanceDrive (if backward then 1 else 0) (clamp distanceCm 0 255)
    (if ccw then 1 else 0) (magnitude.tdiv 256) (magnitude.tmod 256)])

/-- `time_drive`: a speed that is not positive goes backward. -/
def timeDrive (speed : Int) (timeS : ℚ) : Except Fault (Mip × List Order) := do
  let time ← toInt (timeS * 1000 / 7)
  let time7ms := clamp time 0 255
  if 0 < speed then
    .ok (m, [sendOrder2 cmdDriveForwardWithTime (clamp speed 0 30) time7ms])
  else
    let opposite ← negate speed
    .ok (m, [sendOrder2 cmdDriveBackwardWithTime (clamp opposite 0 30) time7ms])

/-- `angle_drive`: the angle is sent in steps of 5 degrees, as a floating value narrowed to a
byte. -/
def angleDrive (angleRad speed : ℚ) : Except Fault (Mip × List Order) := do
  let angleDeg ← rad2degNorm angleRad (-1275) 1275 >>= toInt
  let speedClamp ← toInt |speed|
  let steps ← toByte |((angleDeg.tdiv 5 : Int) : ℚ)|
  .ok (m, [sendOrder2 (if angleDeg < 0 then 0x73 else 0x74) steps (clamp speedClamp 0 24)])

end Mip

/-- What `rad2deg_norm` is for, between bounds that are whole and opposite: `a` is the truncated
angle, brought within the bounds by whole turns. -/
structure Normalised (angleRad : ℚ) (bound a : Int) : Prop where
  chosen : rad2degNorm angleRad (-bound) bound = .ok (a : ℚ)
  turns : a ≡ trunc (angleRad * rad2deg) [ZMOD 360]
  range : -bound ≤ a ∧ a < bound
  same : -bound ≤ trunc (angleRad * rad2deg) → trunc (angleRad * rad2deg) < bound →
    a = trunc (angleRad * rad2deg)

/-- An angle that had to be brought within the bounds ends within a turn of one of them. -/
theorem exists_normalised {angleRad : ℚ} (bound : Int)
    (fits : InInt (trunc (angleRad * rad2deg))) (wide : 180 ≤ bound) (most : bound ≤ 1073741824) :
    ∃ a : Int, Normalised angleRad bound a ∧ (a = trunc (angleRad * rad2deg) ∨
      a < 360 - bound ∨ bound - 360 ≤ a) := by
  have wide' : (180 : ℚ) ≤ bound := by exact_mod_cast wide
  have most' : (bound : ℚ) ≤ 1073741824 := by exact_mod_cast most
  obtain ⟨a, chosen, turns, least, below, same, under, beyond⟩ :=
    rad2degNorm_spec (-bound : ℚ) bound fits (by linarith) (by linarith) most'
  refine ⟨a, ⟨chosen, turns, ⟨by exact_mod_cast least, by exact_mod_cast below⟩,
    fun inMin inMax => same (by exact_mod_cast inMin) (by exact_mod_cast inMax)⟩, ?_⟩
  by_cases inMin : -bound ≤ trunc (angleRad * rad2deg)
  · by_cases inMax : trunc (angleRad * rad2deg) < bound
    · exact .inl (same (by exact_mod_cast inMin) (by exact_mod_cast inMax))
    · have := beyond (by exact_mod_cast not_lt.mp inMax)
      exact .inr (.inr (by exact_mod_cast this))
  · have := under (by exact_mod_cast not_le.mp inMin)
    have : a < -bound + 360 := by exact_mod_cast this
    exact .inr (.inl (by omega))

/-- The scalings of the code, with the factor in front. -/
theorem abs_mul_hundred (distanceM : ℚ) : |distanceM * 100| = 100 * |distanceM| := by
  rw [abs_mul, mul_comm, abs_of_pos (by norm_num : (0 : ℚ) < 100)]

theorem seconds_mul_thousand (timeS : ℚ) : timeS * 1000 / 7 = 1000 * timeS / 7 := by
  rw [mul_comm timeS]

/-- The double that `rad2deg_norm` returns is a whole number, and the caller takes it as one. -/
theorem Normalised.degrees {angleRad : ℚ} {bound a : Int} (h : Normalised angleRad bound a)
    (most : bound ≤ 1073741824) : rad2degNorm angleRad (-bound) bound >>= toInt = .ok a := by
  obtain ⟨least, below⟩ := h.range
  have whole : InInt (trunc (a : ℚ)) := by
    rw [trunc_intCast]
    exact ⟨by omega, by omega⟩
  rw [h.chosen]
  exact (toInt_of_mem whole).trans (congrArg Except.ok (trunc_intCast a))

/-! ## The distance order -/

/-- The parameters of a distance order, and the angle they encode. -/
structure DistanceBytes (distanceM angleRad : ℚ) (bw d ccw hi lo a : Int) : Prop where
  backward : bw = if distanceM < 0 then 1 else 0
  distance : d = min 255 (trunc (100 * |distanceM|))
  side : ccw = if a < 0 then 1 else 0
  magnitude : hi * 256 + lo = |a|
  high : 0 ≤ hi ∧ hi ≤ 1
  low : 0 ≤ lo ∧ lo ≤ 255
  angle : Normalised angleRad 360 a

/-- Every parameter fits in a byte. -/
theorem DistanceBytes.numbers_eq {distanceM angleRad : ℚ} {bw d ccw hi lo a : Int}
    (h : DistanceBytes distanceM angleRad bw d ccw hi lo a) :
    numbers (sendOrder5 cmdDistanceDrive bw d ccw hi lo) =
      [cmdDistanceDrive, bw, d, ccw, hi, lo] := by
  have reach : 0 ≤ trunc (100 * |distanceM|) := le_trunc (by positivity)
  have backward := h.backward
  have distance := h.distance
  have side := h.side
  apply numbers_sendOrder5
  · decide
  · split at backward <;> constructor <;> omega
  · exact ⟨by omega, by omega⟩
  · split at side <;> constructor <;> omega
  · exact ⟨h.high.1, by linarith [h.high.2]⟩
  · exact h.low

/-- The distance in centimetres and the normalised angle, as parameters. -/
theorem distanceBytes_of_normalised (distanceM : ℚ) {angleRad : ℚ} {a : Int}
    (normal : Normalised angleRad 360 a) :
    DistanceBytes distanceM angleRad (if distanceM < 0 then 1 else 0)
      (clamp (trunc (100 * |distanceM|)) 0 255) (if a < 0 then 1 else 0) (|a|.tdiv 256)
      (|a|.tmod 256) a := by
  obtain ⟨least, below⟩ := normal.range
  have reach : 0 ≤ trunc (100 * |distanceM|) := le_trunc (by positivity)
  have small : |a| ≤ 360 := abs_le.mpr ⟨by omega, by omega⟩
  have nonneg := abs_nonneg a
  refine ⟨rfl, clamp_eq_min (by decide) reach, rfl, ?_, ?_, ?_, normal⟩
  · rw [mul_comm, Int.mul_tdiv_add_tmod]
  · rw [Int.tdiv_eq_ediv_of_nonneg nonneg]
    exact ⟨by omega, by omega⟩
  · rw [Int.tmod_eq_emod_of_nonneg nonneg]
    exact ⟨by omega, by omega⟩

/-- What is sent, once both conversions are in range. -/
theorem distanceDrive_eq (m : Mip) {distanceM angleRad : ℚ} {a : Int}
    (normal : Normalised angleRad 360 a) (distance : InInt (trunc (100 * |distanceM|))) :
    m.distanceDrive distanceM angleRad =
      .ok (m, [sendOrder5 cmdDistanceDrive (if distanceM < 0 then 1 else 0)
        (clamp (trunc (100 * |distanceM|)) 0 255) (if a < 0 then 1 else 0) (|a|.tdiv 256)
        (|a|.tmod 256)]) := by
  obtain ⟨least, below⟩ := normal.range
  have magnitude : absInt a = .ok |a| := absInt_of_lt ⟨by omega, by omega⟩ (by omega)
  have degrees := normal.degrees (by decide)
  push_cast at degrees
  rw [Mip.distanceDrive, degrees, abs_mul_hundred, toInt_of_mem distance]
  simp only [magnitude, bind, Except.bind]

/-- The five bytes of a distance order are the request: saturated in distance, up to whole turns
in angle, and none of them altered by narrowing. -/
theorem distanceDrive_encodes (m : Mip) (distanceM angleRad : ℚ)
    (distance : InInt (trunc (100 * |distanceM|))) (angle : InInt (trunc (angleRad * rad2deg))) :
    ∃ bw d ccw hi lo a : Int, DistanceBytes distanceM angleRad bw d ccw hi lo a ∧
      m.distanceDrive distanceM angleRad =
        .ok (m, [sendOrder5 cmdDistanceDrive bw d ccw hi lo]) ∧
      numbers (sendOrder5 cmdDistanceDrive bw d ccw hi lo) =
        [cmdDistanceDrive, bw, d, ccw, hi, lo] := by
  obtain ⟨a, normal, -⟩ := exists_normalised 360 angle (by decide) (by decide)
  have bytes := distanceBytes_of_normalised distanceM normal
  have sent := distanceDrive_eq m normal distance
  exact ⟨_, _, _, _, _, a, bytes, sent, bytes.numbers_eq⟩

theorem distanceDrive_encodes_two_metres_back :
    ∃ bw d ccw hi lo a : Int, DistanceBytes (-2) 1 bw d ccw hi lo a ∧
      Mip.init.distanceDrive (-2) 1 = .ok (Mip.init, [sendOrder5 cmdDistanceDrive bw d ccw hi lo]) ∧
      numbers (sendOrder5 cmdDistanceDrive bw d ccw hi lo) =
        [cmdDistanceDrive, bw, d, ccw, hi, lo] :=
  distanceDrive_encodes Mip.init (-2) 1 (inInt_trunc (by norm_num [abs_of_nonneg]))
    (inInt_trunc (by norm_num [rad2deg, abs_of_nonneg]))

/-! ## The time order -/

/-- What is sent: the side of the speed as the command, its magnitude as a parameter. -/
theorem timeDrive_eq (m : Mip) {speed : Int} {timeS : ℚ} (inInt : InInt speed)
    (least : speed ≠ -2147483648) (time : InInt (trunc (1000 * timeS / 7))) :
    m.timeDrive speed timeS =
      .ok (m, [sendOrder2 (if 0 < speed then cmdDriveForwardWithTime else cmdDriveBackwardWithTime)
        (min 30 |speed|) (clamp (trunc (1000 * timeS / 7)) 0 255)]) := by
  by_cases forward : 0 < speed
  · have size : clamp speed 0 30 = min 30 |speed| := by
      rw [abs_of_pos forward, clamp_eq_min (by decide) forward.le]
    simp only [Mip.timeDrive, seconds_mul_thousand, toInt_of_mem time, if_pos forward, size, bind,
      Except.bind]
  · have opposite : negate speed = .ok (-speed) := negate_of_lt inInt (by omega)
    have size : clamp (-speed) 0 30 = min 30 |speed| := by
      rw [abs_of_nonpos (by omega), clamp_eq_min (by decide) (by omega)]
    simp only [Mip.timeDrive, seconds_mul_thousand, toInt_of_mem time, if_neg forward, opposite,
      size, bind, Except.bind]

/-! ## The angle order -/

/-- The parts of the documentation of `angle_drive` that do not say which way the robot turns. -/
structure TurnBytes (angleRad speed : ℚ) (b s a : Int) : Prop where
  angle : Normalised angleRad 1275 a
  steps : 0 ≤ b ∧ b ≤ 255 ∧ 5 * b ≤ |a| ∧ |a| < 5 * b + 5
  speed : s = min 24 (trunc |speed|)

/-- The order, as its bytes, is the documented turn: to the left for a positive angle, to the
right for a negative one. -/
def DocumentedTurn (m : Mip) (angleRad speed : ℚ) : Prop :=
  ∃ cmd b s a : Int, TurnBytes angleRad speed b s a ∧ (0 < a → cmd = cmdTurnLeftByAngle) ∧
    (a < 0 → cmd = cmdTurnRightByAngle) ∧
    ∃ order, m.angleDrive angleRad speed = .ok (m, [order]) ∧ numbers order = [cmd, b, s]

/-- The steps of an angle within the bounds fit in a byte. -/
theorem abs_tdiv_five {a : Int} (h : |a| ≤ 1275) :
    InByte |a.tdiv 5| ∧ 5 * |a.tdiv 5| ≤ |a| ∧ |a| < 5 * |a.tdiv 5| + 5 := by
  have quotient : |a.tdiv 5| = |a| / 5 := by
    rw [Int.abs_eq_natAbs, Int.abs_eq_natAbs, Int.natAbs_tdiv]
    rfl
  have nonneg := abs_nonneg a
  rw [quotient]
  exact ⟨⟨by omega, by omega⟩, by omega, by omega⟩

/-- What is sent: the command of the other side. -/
theorem angleDrive_spec (m : Mip) {angleRad speed : ℚ}
    (angle : InInt (trunc (angleRad * rad2deg))) (fits : InInt (trunc |speed|)) :
    ∃ b s a : Int, TurnBytes angleRad speed b s a ∧
      m.angleDrive angleRad speed =
        .ok (m, [sendOrder2 (if a < 0 then cmdTurnLeftByAngle else cmdTurnRightByAngle) b s]) ∧
      numbers (sendOrder2 (if a < 0 then cmdTurnLeftByAngle else cmdTurnRightByAngle) b s) =
        [if a < 0 then cmdTurnLeftByAngle else cmdTurnRightByAngle, b, s] ∧
      (a = 0 → trunc (angleRad * rad2deg) = 0) := by
  obtain ⟨a, normal, near⟩ := exists_normalised 1275 angle (by decide) (by decide)
  obtain ⟨least, below⟩ := normal.range
  have degrees := normal.degrees (by decide)
  push_cast at degrees
  have reach : 0 ≤ trunc |speed| := le_trunc (by positivity)
  obtain ⟨inByte, steps⟩ := abs_tdiv_five (a := a) (abs_le.mpr ⟨by omega, by omega⟩)
  have byte : toByte |((a.tdiv 5 : Int) : ℚ)| = .ok |a.tdiv 5| := by
    rw [← Int.cast_abs, toByte_of_mem] <;> rw [trunc_intCast]
    exact inByte
  have saturated : clamp (trunc |speed|) 0 24 = min 24 (trunc |speed|) :=
    clamp_eq_min (by decide) reach
  refine ⟨|a.tdiv 5|, min 24 (trunc |speed|), a, ⟨normal, ⟨inByte.1, inByte.2, steps⟩, rfl⟩, ?_,
    ?_, by omega⟩
  · rw [Mip.angleDrive, degrees, toInt_of_mem fits]
    simp only [byte, saturated, cmdTurnLeftByAngle, cmdTurnRightByAngle, bind, Except.bind]
  · apply numbers_sendOrder2
    · split <;> decide
    · exact inByte
    · exact ⟨by omega, by omega⟩

/-- A turn sent as documented is no turn. -/
theorem DocumentedTurn.slight {m : Mip} {angleRad speed : ℚ} (h : DocumentedTurn m angleRad speed)
    (angle : InInt (trunc (angleRad * rad2deg))) (fast : |speed| < 2147483648) :
    |angleRad * rad2deg| < 1 := by
  have fits : InInt (trunc |speed|) := inInt_trunc (by rwa [abs_abs])
  obtain ⟨b, s, a, bytes, sent, narrow, zero⟩ := angleDrive_spec m angle fits
  obtain ⟨cmd, b', s', a', bytes', left, right, order, sent', narrow'⟩ := h
  have same : (a' : ℚ) = a := by
    have chosen := bytes'.angle.chosen.symm.trans bytes.angle.chosen
    injection chosen
  obtain rfl : a' = a := by exact_mod_cast same
  have orders := congrArg Prod.snd (Except.ok.inj (sent.symm.trans sent'))
  obtain rfl : sendOrder2 _ b s = order := (List.cons.inj orders).1
  have side := (List.cons.inj (narrow.symm.trans narrow')).1
  rcases lt_trichotomy a' 0 with neg | still | pos
  · rw [if_pos neg, right neg] at side
    exact absurd side (by decide)
  · exact trunc_eq_zero.mp (zero still)
  · rw [if_neg pos.le.not_gt, left pos] at side
    exact absurd side (by decide)

/-- Only an angle of less than a degree, which is sent as no turn at all, is sent as
documented. -/
theorem documentedTurn_iff (m : Mip) (angleRad speed : ℚ)
    (angle : InInt (trunc (angleRad * rad2deg))) (fast : |speed| < 2147483648) :
    DocumentedTurn m angleRad speed ↔ |angleRad * rad2deg| < 1 := by
  refine ⟨fun h => h.slight angle fast, fun small => ?_⟩
  have fits : InInt (trunc |speed|) := inInt_trunc (by rwa [abs_abs])
  obtain ⟨b, s, a, bytes, sent, narrow, -⟩ := angleDrive_spec m angle fits
  have none : trunc (angleRad * rad2deg) = 0 := trunc_eq_zero.mpr small
  have still : a = 0 := by
    rw [bytes.angle.same (by omega) (by omega), none]
  exact ⟨_, b, s, a, bytes, by omega, by omega, _, sent, narrow⟩

/-- A sixth of a degree to the left. -/
theorem documentedTurn_iff_slight :
    DocumentedTurn Mip.init (1 / 360) 24 ↔ |(1 / 360 : ℚ) * rad2deg| < 1 :=
  documentedTurn_iff Mip.init (1 / 360) 24 (inInt_trunc (by norm_num [rad2deg, abs_of_nonneg]))
    (by norm_num [abs_of_nonneg])

/-- A turn of 57 degrees to the left is sent as one to the right. -/
theorem not_documentedTurn_one : ¬ DocumentedTurn Mip.init 1 24 := by
  intro h
  have slight := h.slight (inInt_trunc (by norm_num [rad2deg, abs_of_nonneg]))
    (by norm_num [abs_of_nonneg])
  norm_num [rad2deg, abs_of_nonneg] at slight

end LibMip
