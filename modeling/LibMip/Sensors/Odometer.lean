import LibMip.Orders
import LibMip.Store

/-!
# The odometer

The robot sends its odometer as four bytes, the highest first, in units of 1/48.5 cm.
`store_results` weighs the bytes with powers of 255 instead of 256 and multiplies in `int`, so a
reading is right only when a single byte is set, the lowest; beyond that it is too small, and
from the highest byte on the products leave the range of `int`.

`odometerChecked` is the same sum with each operation checked.
-/

namespace LibMip

open CNum

/-- The sum of the odometer branch as `int` arithmetic, which faults where `odometerSum` wraps. -/
def odometerChecked (v : List Int) : Except Fault Int := do
  let low ← mulInt 255 v[2]!
  let sum ← addInt v[3]! low
  let weight1 ← mulInt 255 255
  let middle ← mulInt weight1 v[1]!
  let sum ← addInt sum middle
  let weight2 ← mulInt 255 255
  let weight3 ← mulInt weight2 255
  let high ← mulInt weight3 v[0]!
  addInt sum high

/-- The four bytes of a 32-bit number, the highest first. -/
def bigEndian (n : UInt32) : List Int :=
  [n.toNat / 16777216, n.toNat / 65536 % 256, n.toNat / 256 % 256, n.toNat % 256]

/-- The reading after a notification of `n`. -/
def Mip.odometerAfter (m : Mip) (n : UInt32) : ℚ :=
  (m.storeResults cmdOdometerReading (bigEndian n)).1.getOdometerReading

/-- The number sent is read as that many units, and is computed without overflow. -/
structure OdometerExact (m : Mip) (n : UInt32) : Prop where
  reading : m.odometerAfter n = (n.toNat : ℚ) / 48.5 * 0.01
  increasing : ∀ k < n, m.odometerAfter k < m.odometerAfter n
  no_overflow : ∃ sum, odometerChecked (bigEndian n) = .ok sum

/-- One unit is a 4850th of a metre. -/
theorem unit_metres (x : ℚ) : x / 48.5 * 0.01 = x / 4850 := by
  rw [div_mul_eq_mul_div, mul_div_assoc, div_eq_mul_inv x]
  norm_num

theorem odometerAfter_eq (m : Mip) (n : UInt32) :
    m.odometerAfter n = (odometerSum (bigEndian n) : ℚ) / 4850 :=
  unit_metres (odometerSum (bigEndian n))

/-- The bytes of a number and how they make it up. -/
theorem bigEndian_spec (n : UInt32) : ∃ b1 b2 b3 b4 : Int,
    bigEndian n = [b1, b2, b3, b4] ∧ (0 ≤ b1 ∧ b1 ≤ 255) ∧ (0 ≤ b2 ∧ b2 ≤ 255) ∧
      (0 ≤ b3 ∧ b3 ≤ 255) ∧ (0 ≤ b4 ∧ b4 ≤ 255) ∧
      (n.toNat : Int) = 16777216 * b1 + 65536 * b2 + 256 * b3 + b4 := by
  have bound := n.toNat_lt
  exact ⟨_, _, _, _, rfl, by omega, by omega, by omega, by omega, by omega⟩

/-- Wrapping each operation is wrapping the sum. -/
theorem odometerSum_eq_wrap (b1 b2 b3 b4 : Int) :
    odometerSum [b1, b2, b3, b4] =
      wrap32 (b4 + 255 * b3 + 65025 * b2 + 16581375 * b1) := by
  simp only [odometerSum, wrap32]
  simp

/-- Where no operation overflows the two sums are the same. -/
theorem odometerSum_of_checked {v : List Int} {sum : Int} (h : odometerChecked v = .ok sum) :
    odometerSum v = sum := by
  obtain ⟨low, hlow, h⟩ := bind_eq_ok.mp h
  obtain ⟨sum1, hsum1, h⟩ := bind_eq_ok.mp h
  obtain ⟨weight1, hweight1, h⟩ := bind_eq_ok.mp h
  obtain ⟨middle, hmiddle, h⟩ := bind_eq_ok.mp h
  obtain ⟨sum2, hsum2, h⟩ := bind_eq_ok.mp h
  obtain ⟨weight2, hweight2, h⟩ := bind_eq_ok.mp h
  obtain ⟨weight3, hweight3, h⟩ := bind_eq_ok.mp h
  obtain ⟨high, hhigh, h⟩ := bind_eq_ok.mp h
  rw [mulInt_eq_ok] at hlow hweight1 hmiddle hweight2 hweight3 hhigh
  rw [addInt_eq_ok] at hsum1 hsum2 h
  grind [odometerSum, wrap32_of_mem]

/-- The lowest byte alone is read as it is. -/
theorem odometerSum_of_lt {n : UInt32} (h : n.toNat < 256) :
    odometerSum (bigEndian n) = n.toNat ∧ odometerChecked (bigEndian n) = .ok n.toNat := by
  obtain ⟨b1, b2, b3, b4, bytes, h1, h2, h3, h4, total⟩ := bigEndian_spec n
  obtain ⟨rfl, rfl, rfl, rfl⟩ : b1 = 0 ∧ b2 = 0 ∧ b3 = 0 ∧ b4 = n.toNat := by omega
  have checked : odometerChecked (bigEndian n) = .ok n.toNat := by
    rw [bytes]
    have fits : InInt (n.toNat + 0) := by constructor <;> omega
    have sum : addInt n.toNat 0 = .ok n.toNat := by rw [addInt_of_mem fits, add_zero]
    have square : mulInt 255 255 = .ok 65025 := rfl
    have cube : mulInt 65025 255 = .ok 16581375 := rfl
    have zero2 : mulInt 255 0 = .ok 0 := rfl
    have zero1 : mulInt 65025 0 = .ok 0 := rfl
    have zero0 : mulInt 16581375 0 = .ok 0 := rfl
    simp [odometerChecked, sum, square, cube, zero2, zero1, zero0, bind, Except.bind]
  exact ⟨odometerSum_of_checked checked, checked⟩

/-- A reading that is right comes from the lowest byte alone: each byte above it weighs too
little, and a sum that wraps is negative. -/
theorem lt_of_odometerSum {n : UInt32} (h : odometerSum (bigEndian n) = n.toNat) :
    n.toNat < 256 := by
  obtain ⟨b1, b2, b3, b4, bytes, h1, h2, h3, h4, total⟩ := bigEndian_spec n
  rw [bytes, odometerSum_eq_wrap, wrap32, Int.bmod_def,
    Int.emod_eq_of_lt (by omega) (by omega)] at h
  split_ifs at h <;> omega

theorem OdometerExact.lt {m : Mip} {n : UInt32} (right : OdometerExact m n) : n.toNat < 256 := by
  have same := right.reading
  rw [odometerAfter_eq, unit_metres] at same
  apply lt_of_odometerSum
  have scaled : (odometerSum (bigEndian n) : ℚ) = (n.toNat : Int) := by
    push_cast
    linarith
  exact_mod_cast scaled

/-- The odometer is exact below 256 units, and nowhere else. -/
theorem odometerExact_iff (m : Mip) (n : UInt32) : OdometerExact m n ↔ n.toNat < 256 := by
  refine ⟨OdometerExact.lt, fun small => ?_⟩
  have reading {k : UInt32} (hk : k.toNat < 256) :
      m.odometerAfter k = (k.toNat : ℚ) / 4850 := by
    rw [odometerAfter_eq, (odometerSum_of_lt hk).1, Int.cast_natCast]
  refine ⟨(reading small).trans (unit_metres _).symm, fun k hk => ?_, _,
    (odometerSum_of_lt small).2⟩
  have less : k.toNat < n.toNat := UInt32.lt_iff_toNat_lt.mp hk
  have less' : (k.toNat : ℚ) < n.toNat := by exact_mod_cast less
  rw [reading small, reading (less.trans small)]
  linarith

/-- 256 units are read as 255, the same as 255 units, and the largest number as a negative
distance. -/
theorem odometer_inexact_at_256 :
    ¬ OdometerExact Mip.init 256 ∧ Mip.init.odometerAfter 256 = Mip.init.odometerAfter 255 ∧
      odometerSum (bigEndian 4294967295) < 0 := by
  refine ⟨fun right => ?_, by decide +kernel, by decide⟩
  exact absurd right.lt (by decide)

end LibMip
