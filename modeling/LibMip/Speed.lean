import LibMip.State

/-!
# Speeds and ticks

`speed2ticks` turns metric speeds into ticks by a regression that differs by regime: one axis
alone below and above its crazy threshold, both axes within the safe speeds, both axes beyond.
`ticks2speeds` goes back one axis at a time. The two agree to one tick below the threshold
(`linear_inverse_iff`, `angular_inverse_iff`). Above it `speed2ticks` moves the ticks 32 away
from zero and `ticks2speeds` moves them another 32 away instead of back.
-/

namespace LibMip

open CNum

/-- The first case, linear speed only. -/
def linearTicks (v : ℚ) : Except Fault Int :=
  if |v| < 0.05 then .ok 0
  else if |v| < 0.7 then do
    let n ← toInt (45.98685952820811545096 * v)
    .ok (clamp n (-32) 32)
  else do
    let n ← toInt (34.40175576162719827641 * v)
    .ok (clamp n (-32) 32 + 32 * signum v)

/-- The second case, angular speed only. -/
def angularTicks (w : ℚ) : Except Fault Int :=
  if |w| < 0.05 then .ok 0
  else if |w| < 13 then do
    let n ← toInt (2.39382382344084006941 * w + 1.6460078602299454762)
    .ok (clamp n (-32) 32)
  else do
    let n ← toInt (1.38727028773812161461 * w - 0.02658603107493626709)
    .ok (clamp n (-32) 32 + 32 * signum w)

/-- The third case, both axes within the safe speeds. -/
def safeTicks (v w : ℚ) : Except Fault (Int × Int) := do
  let vTicks ← toInt (0.50949 + 45.38459 * v - 0.81221 * w + 3.78223 * v * w)
  let wTicks ← toInt (0.98163 - 1.82084 * v + 11.69517 * w + 0.36455 * v * w)
  .ok (clamp vTicks (-32) 32, clamp wTicks (-32) 32)

/-- The fourth case, both axes at crazy speeds. -/
def crazyTicks (v w : ℚ) : Except Fault (Int × Int) := do
  let n ← toInt (v / 0.0290682838088)
  let vTicks := clamp n (-32) 32
  let k ← toInt ((w - 0.0191642762841) / 0.1)
  let wTicks := clamp k (-32) 32
  .ok (vTicks + 32 * signum vTicks, wTicks + 32 * signum wTicks)

/-- The clipping of `speed2ticks`: both speeds are clamped as soon as one is out of bounds. -/
def clip (vMs wRads : ℚ) : ℚ × ℚ :=
  if 0.95 < |vMs| ∨ 17 < |wRads| then (clamp vMs (-0.95) 0.95, clamp wRads (-17) 17)
  else (vMs, wRads)

def speed2ticks (vMs wRads : ℚ) : Except Fault (Int × Int) :=
  let v := (clip vMs wRads).1
  let w := (clip vMs wRads).2
  if |w| < 0.05 then do
    let vTicks ← linearTicks v
    .ok (vTicks, 0)
  else if |v| < 0.05 then do
    let wTicks ← angularTicks w
    .ok (0, wTicks)
  else if |v| ≤ 0.65 then safeTicks v w
  else crazyTicks v w

/-- The linear half of `ticks2speeds`. -/
def linearSpeed (vTicks : Int) : Except Fault ℚ := do
  let magnitude ← absInt vTicks
  if magnitude ≤ 32 then .ok (0.0217453422621 * vTicks)
  else do
    let ticks ← addInt vTicks (32 * signum vTicks)
    .ok (0.0290682838088 * ticks)

/-- The angular half of `ticks2speeds`. -/
def angularSpeed (wTicks : Int) : Except Fault ℚ := do
  let magnitude ← absInt wTicks
  if magnitude ≤ 32 then .ok (0.4177416860037 * wTicks - 0.6876060987078)
  else do
    let ticks ← addInt wTicks (32 * signum wTicks)
    .ok (0.7208400618386 * ticks + 0.0191642762841)

def ticks2speeds (vTicks wTicks : Int) : Except Fault (ℚ × ℚ) := do
  let vMs ← linearSpeed vTicks
  let wRads ← angularSpeed wTicks
  .ok (vMs, wRads)

/-! ## Decoding -/

section Decode

variable {t : Int}

theorem absInt_ticks (h : |t| ≤ 64) : absInt t = .ok |t| := by
  obtain ⟨lo, hi⟩ := abs_le.mp h
  exact absInt_of_lt ⟨by omega, by omega⟩ (by omega)

theorem addInt_ticks (h : |t| ≤ 64) : addInt t (32 * signum t) = .ok (t + 32 * signum t) := by
  obtain ⟨lo, hi⟩ := abs_le.mp h
  apply addInt_of_mem
  unfold signum
  split_ifs <;> constructor <;> omega

theorem linearSpeed_normal (h : |t| ≤ 32) : linearSpeed t = .ok (0.0217453422621 * t) := by
  have habs := absInt_ticks (h.trans (by decide))
  simp [linearSpeed, habs, h, bind, Except.bind]

theorem linearSpeed_crazy (lo : 32 < |t|) (hi : |t| ≤ 64) :
    linearSpeed t = .ok (0.0290682838088 * (t + 32 * signum t : Int)) := by
  simp [linearSpeed, absInt_ticks hi, not_le.mpr lo, addInt_ticks hi, bind, Except.bind]

theorem angularSpeed_normal (h : |t| ≤ 32) :
    angularSpeed t = .ok (0.4177416860037 * t - 0.6876060987078) := by
  have habs := absInt_ticks (h.trans (by decide))
  simp [angularSpeed, habs, h, bind, Except.bind]

theorem angularSpeed_crazy (lo : 32 < |t|) (hi : |t| ≤ 64) :
    angularSpeed t = .ok (0.7208400618386 * (t + 32 * signum t : Int) + 0.0191642762841) := by
  simp [angularSpeed, absInt_ticks hi, not_le.mpr lo, addInt_ticks hi, bind, Except.bind]

end Decode

/-! ## Encoding one axis -/

section Encode

variable {v w : ℚ}

theorem clip_of_le (hv : |v| ≤ 0.95) (hw : |w| ≤ 17) : clip v w = (v, w) := by
  simp [clip, not_lt.mpr hv, not_lt.mpr hw]

theorem speed2ticks_linear (hv : |v| ≤ 0.95) :
    speed2ticks v 0 = (linearTicks v).map fun t => (t, 0) := by
  have hw : |(0 : ℚ)| < 0.05 := by norm_num
  have hclip : clip v 0 = (v, 0) := clip_of_le hv (by norm_num)
  simp only [speed2ticks, hclip, hw, if_true]
  cases linearTicks v <;> rfl

theorem speed2ticks_angular (lo : 0.05 ≤ |w|) (hi : |w| ≤ 17) :
    speed2ticks 0 w = (angularTicks w).map fun t => (0, t) := by
  have hv : |(0 : ℚ)| < 0.05 := by norm_num
  have hclip : clip 0 w = (0, w) := clip_of_le (by norm_num) hi
  simp only [speed2ticks, hclip, hv, not_lt.mpr lo, if_true, if_false]
  cases angularTicks w <;> rfl

/-- Below the clamp a regression value is only truncated. -/
theorem toInt_below_clamp {q : ℚ} (h : |q| < 33) :
    toInt q = .ok (trunc q) ∧ clamp (trunc q) (-32) 32 = trunc q ∧ |trunc q| ≤ 32 := by
  obtain ⟨lo, hi⟩ := abs_lt.mp h
  have lower : -33 < trunc q := lt_trunc (by norm_num) (by exact_mod_cast lo)
  have upper : trunc q < 33 := trunc_lt (by norm_num) (by exact_mod_cast hi)
  refine ⟨toInt_of_abs_lt (h.trans (by norm_num)), clamp_of_mem (by omega) (by omega), ?_⟩
  exact abs_le.mpr ⟨by omega, by omega⟩

/-- Ticks beyond the threshold of an axis: on the side of the speed `x`, at least `n` before the
offset of 32, which was added once. -/
def CrazyTicks (threshold x : ℚ) (n t : Int) : Prop :=
  threshold ≤ x ∧ n + 32 ≤ t ∧ t ≤ 64 ∨ x ≤ -threshold ∧ -64 ≤ t ∧ t ≤ -(n + 32)

/-- The crazy case of one axis, for a regression value `q` on the side of the speed. -/
theorem crazyTicks_of_regression {threshold x q : ℚ} {n : Int} (pos : 0 < threshold)
    (beyond : threshold ≤ |x|) (hn : n ≤ 32) (hq : |q| < 2147483648)
    (above : threshold ≤ x → (n : ℚ) ≤ q) (below : x ≤ -threshold → q ≤ (-n : Int)) :
    toInt q = .ok (trunc q) ∧
      CrazyTicks threshold x n (clamp (trunc q) (-32) 32 + 32 * signum x) := by
  refine ⟨toInt_of_abs_lt hq, ?_⟩
  have cases := clamp_cases (trunc q) (-32) 32
  rcases le_abs.mp beyond with fwd | bwd
  · have lower : n ≤ trunc q := le_trunc (above fwd)
    have sign : signum x = 1 := if_pos (pos.le.trans fwd)
    rw [sign]
    exact .inl ⟨fwd, by omega, by omega⟩
  · have upper : trunc q ≤ -n := trunc_le (below (le_neg.mp bwd))
    have sign : signum x = -1 := if_neg (by linarith)
    rw [sign]
    exact .inr ⟨le_neg.mp bwd, by omega, by omega⟩

/-- The decoder takes such ticks for crazy ones and adds the offset once more. -/
theorem CrazyTicks.decoded {threshold x : ℚ} {n t : Int} (hn : 0 < n)
    (h : CrazyTicks threshold x n t) :
    32 < |t| ∧ |t| ≤ 64 ∧
      (threshold ≤ x ∧ ((n + 64 : Int) : ℚ) ≤ (t + 32 * signum t : Int) ∨
        x ≤ -threshold ∧ ((t + 32 * signum t : Int) : ℚ) ≤ (-(n + 64) : Int)) := by
  rcases h with ⟨fwd, least, most⟩ | ⟨bwd, least, most⟩
  · have sign : signum t = 1 := if_pos (by omega)
    rw [abs_of_pos (by omega), sign]
    exact ⟨by omega, most, .inl ⟨fwd, by exact_mod_cast (by omega : n + 64 ≤ t + 32 * 1)⟩⟩
  · have sign : signum t = -1 := if_neg (by omega)
    rw [abs_of_neg (by omega), sign]
    exact ⟨by omega, by omega,
      .inr ⟨bwd, by exact_mod_cast (by omega : t + 32 * -1 ≤ -(n + 64))⟩⟩

theorem linearTicks_normal (lo : 0.05 ≤ |v|) (hi : |v| < 0.7) :
    linearTicks v = .ok (trunc (45.98685952820811545096 * v)) ∧
      |trunc (45.98685952820811545096 * v)| ≤ 32 := by
  have hq : |45.98685952820811545096 * v| < 33 := by
    rw [abs_mul, abs_of_pos (by norm_num)]
    linarith
  obtain ⟨hn, hclamp, range⟩ := toInt_below_clamp hq
  refine ⟨?_, range⟩
  simp only [linearTicks, not_lt.mpr lo, hi, if_true, if_false, hn, bind, Except.bind, hclamp]

theorem linearTicks_crazy (lo : 0.7 ≤ |v|) (hi : |v| ≤ 0.95) :
    ∃ t, linearTicks v = .ok t ∧ CrazyTicks 0.7 v 24 t := by
  have hq : |34.40175576162719827641 * v| < 2147483648 := by
    rw [abs_mul, abs_of_pos (by norm_num)]
    linarith
  obtain ⟨hn, crazy⟩ := crazyTicks_of_regression (n := 24) (by norm_num) lo (by norm_num) hq
    (fun fwd => by push_cast; linarith) (fun bwd => by push_cast; linarith)
  have slow : ¬ |v| < 0.05 := not_lt.mpr ((by norm_num : (0.05 : ℚ) ≤ 0.7).trans lo)
  refine ⟨_, ?_, crazy⟩
  simp only [linearTicks, slow, not_lt.mpr lo, if_false, hn, bind, Except.bind]

theorem angularTicks_normal (lo : 0.05 ≤ |w|) (hi : |w| < 13) :
    angularTicks w = .ok (trunc (2.39382382344084006941 * w + 1.6460078602299454762)) ∧
      |trunc (2.39382382344084006941 * w + 1.6460078602299454762)| ≤ 32 := by
  have hq : |2.39382382344084006941 * w + 1.6460078602299454762| < 33 := by
    obtain ⟨hlo, hhi⟩ := abs_lt.mp hi
    rw [abs_lt]
    constructor <;> linarith
  obtain ⟨hn, hclamp, range⟩ := toInt_below_clamp hq
  refine ⟨?_, range⟩
  simp only [angularTicks, not_lt.mpr lo, hi, if_true, if_false, hn, bind, Except.bind, hclamp]

theorem angularTicks_crazy (lo : 13 ≤ |w|) (hi : |w| ≤ 17) :
    ∃ t, angularTicks w = .ok t ∧ CrazyTicks 13 w 18 t := by
  have hq : |1.38727028773812161461 * w - 0.02658603107493626709| < 2147483648 := by
    obtain ⟨hlo, hhi⟩ := abs_le.mp hi
    rw [abs_lt]
    constructor <;> linarith
  obtain ⟨hn, crazy⟩ := crazyTicks_of_regression (n := 18) (by norm_num) lo (by norm_num) hq
    (fun left => by push_cast; linarith) (fun right => by push_cast; linarith)
  have slow : ¬ |w| < 0.05 := not_lt.mpr ((by norm_num : (0.05 : ℚ) ≤ 13).trans lo)
  refine ⟨_, ?_, crazy⟩
  simp only [angularTicks, slow, not_lt.mpr lo, if_false, hn, bind, Except.bind]

end Encode

/-! ## There and back -/

/-- `ticks2speeds` finds a linear speed within one tick of the one encoded. -/
def LinearInverse (v : ℚ) : Prop :=
  ∃ t s, speed2ticks v 0 = .ok t ∧ ticks2speeds t.1 t.2 = .ok s ∧ |s.1 - v| ≤ 0.0291

/-- `ticks2speeds` finds an angular speed within one tick of the one encoded. -/
def AngularInverse (w : ℚ) : Prop :=
  ∃ t s, speed2ticks 0 w = .ok t ∧ ticks2speeds t.1 t.2 = .ok s ∧ |s.2 - w| ≤ 0.721

theorem linearInverse_iff_of_ticks {v x : ℚ} {t : Int} (hi : |v| ≤ 0.95)
    (ht : linearTicks v = .ok t) (hx : linearSpeed t = .ok x) :
    LinearInverse v ↔ |x - v| ≤ 0.0291 := by
  have encode : speed2ticks v 0 = .ok (t, 0) := by rw [speed2ticks_linear hi, ht]; rfl
  have decode : ticks2speeds t 0 = .ok (x, 0.4177416860037 * (0 : Int) - 0.6876060987078) := by
    simp only [ticks2speeds, hx, angularSpeed_normal (t := 0) (by decide), bind, Except.bind]
  constructor
  · rintro ⟨t', s, ht', hs, close⟩
    obtain rfl := Except.ok.inj (encode.symm.trans ht')
    obtain rfl := Except.ok.inj (decode.symm.trans hs)
    exact close
  · intro close
    exact ⟨_, _, encode, decode, close⟩

theorem angularInverse_iff_of_ticks {w x : ℚ} {t : Int} (lo : 0.05 ≤ |w|) (hi : |w| ≤ 17)
    (ht : angularTicks w = .ok t) (hx : angularSpeed t = .ok x) :
    AngularInverse w ↔ |x - w| ≤ 0.721 := by
  have encode : speed2ticks 0 w = .ok (0, t) := by rw [speed2ticks_angular lo hi, ht]; rfl
  have decode : ticks2speeds 0 t = .ok (0.0217453422621 * (0 : Int), x) := by
    simp only [ticks2speeds, hx, linearSpeed_normal (t := 0) (by decide), bind, Except.bind]
  constructor
  · rintro ⟨t', s, ht', hs, close⟩
    obtain rfl := Except.ok.inj (encode.symm.trans ht')
    obtain rfl := Except.ok.inj (decode.symm.trans hs)
    exact close
  · intro close
    exact ⟨_, _, encode, decode, close⟩

/-- Below the crazy threshold the scale of the decoder is the inverse of the encoder's. -/
theorem linearInverse_normal {v : ℚ} (lo : 0.05 ≤ |v|) (hi : |v| < 0.7) : LinearInverse v := by
  obtain ⟨ht, range⟩ := linearTicks_normal lo hi
  apply (linearInverse_iff_of_ticks (hi.le.trans (by norm_num)) ht (linearSpeed_normal range)).mpr
  obtain ⟨hlo, hhi⟩ := abs_lt.mp hi
  have step := abs_scale_trunc_le 0.0217453422621 0 v (45.98685952820811545096 * v)
  have scales : |0.0217453422621 * (45.98685952820811545096 * v) + 0 - v| ≤ 0.001 := by
    rw [abs_le]
    constructor <;> linarith
  rw [add_zero] at step
  rw [abs_of_pos (by norm_num : (0 : ℚ) < 0.0217453422621)] at step
  linarith

theorem angularInverse_normal {w : ℚ} (lo : 0.05 ≤ |w|) (hi : |w| < 13) : AngularInverse w := by
  obtain ⟨ht, range⟩ := angularTicks_normal lo hi
  apply (angularInverse_iff_of_ticks lo (hi.le.trans (by norm_num)) ht
    (angularSpeed_normal range)).mpr
  obtain ⟨hlo, hhi⟩ := abs_lt.mp hi
  have step := abs_scale_trunc_le 0.4177416860037 (-0.6876060987078) w
    (2.39382382344084006941 * w + 1.6460078602299454762)
  have scales : |0.4177416860037 * (2.39382382344084006941 * w + 1.6460078602299454762) +
      -0.6876060987078 - w| ≤ 0.001 := by
    rw [abs_le]
    constructor <;> linarith
  rw [abs_of_pos (by norm_num : (0 : ℚ) < 0.4177416860037)] at step
  rw [sub_eq_add_neg _ (0.6876060987078 : ℚ)]
  linarith

/-- Above the threshold the decoder adds the offset of the encoder once more, which triples the
speed. -/
theorem not_linearInverse_crazy {v : ℚ} (lo : 0.7 ≤ |v|) (hi : |v| ≤ 0.95) :
    ¬ LinearInverse v := by
  obtain ⟨hlo, hhi⟩ := abs_le.mp hi
  obtain ⟨t, ht, crazy⟩ := linearTicks_crazy lo hi
  obtain ⟨beyond, range, far⟩ := crazy.decoded (by norm_num)
  rw [linearInverse_iff_of_ticks hi ht (linearSpeed_crazy beyond range), abs_le]
  rintro ⟨close, close'⟩
  push_cast at far close close'
  rcases far with ⟨-, far⟩ | ⟨-, far⟩ <;> linarith

theorem not_angularInverse_crazy {w : ℚ} (lo : 13 ≤ |w|) (hi : |w| ≤ 17) :
    ¬ AngularInverse w := by
  obtain ⟨hlo, hhi⟩ := abs_le.mp hi
  obtain ⟨t, ht, crazy⟩ := angularTicks_crazy lo hi
  obtain ⟨beyond, range, far⟩ := crazy.decoded (by norm_num)
  rw [angularInverse_iff_of_ticks ((by norm_num : (0.05 : ℚ) ≤ 13).trans lo) hi ht
    (angularSpeed_crazy beyond range), abs_le]
  rintro ⟨close, close'⟩
  push_cast at far close close'
  rcases far with ⟨-, far⟩ | ⟨-, far⟩ <;> linarith

/-- On one axis at a time, decoding recovers the encoded speed to one tick exactly below the
crazy threshold of the axis. -/
theorem speed_inverse_iff (v w : ℚ) :
    (0.05 ≤ |v| → |v| ≤ 0.95 → (LinearInverse v ↔ |v| < 0.7)) ∧
      (0.05 ≤ |w| → |w| ≤ 17 → (AngularInverse w ↔ |w| < 13)) := by
  refine ⟨fun lo hi => ⟨fun inverse => ?_, linearInverse_normal lo⟩,
    fun lo hi => ⟨fun inverse => ?_, angularInverse_normal lo⟩⟩
  · by_contra crazy
    exact not_linearInverse_crazy (not_lt.mp crazy) hi inverse
  · by_contra crazy
    exact not_angularInverse_crazy (not_lt.mp crazy) hi inverse

/-- Half a metre per second and one radian per second are recovered. -/
theorem speed_inverse_iff_half : LinearInverse (1 / 2) ∧ AngularInverse 1 := by
  obtain ⟨linear, angular⟩ := speed_inverse_iff (1 / 2) 1
  exact ⟨(linear (by norm_num) (by norm_num)).mpr (by norm_num),
    (angular (by norm_num) (by norm_num)).mpr (by norm_num)⟩

/-- A speed of 0.8 m/s is encoded as 59 ticks, which decode to more than 2.6 m/s. -/
theorem crazy_speed_not_inverted :
    ¬ LinearInverse 0.8 ∧ speed2ticks 0.8 0 = .ok (59, 0) ∧
      linearSpeed 59 = .ok (0.0290682838088 * 91) := by
  refine ⟨not_linearInverse_crazy ?_ ?_, by decide +kernel, by decide +kernel⟩
  · rw [abs_of_pos (by norm_num)]
    norm_num
  · rw [abs_of_pos (by norm_num)]
    norm_num

end LibMip
