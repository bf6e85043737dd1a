import LibMip.Commands
import LibMip.Foundation.CNum
import Mathlib.Algebra.Order.Group.MinMax

/-!
# The Mip object

The fields of class `Mip` and the values its constructor gives them. `attrib` is the GATT
channel of the connection, named by its number among the channels ever opened; the constructor
leaves the pointer unset, which is `none` here. Floating fields are exact rationals.
-/

namespace LibMip

open CNum

/-- The flash times are in seconds, both `0` without flash. -/
structure ChestLed where
  r : Int
  g : Int
  b : Int
  timeFlashOnSec : ℚ
  timeFlashOffSec : ℚ
  deriving DecidableEq

/-- For each LED: 0 = off, 1 = on, 2 = blink slow, 3 = blink fast. -/
structure HeadLed where
  l1 : Int
  l2 : Int
  l3 : Int
  l4 : Int
  deriving DecidableEq

structure Mip where
  attrib : Option Nat
  nattrib : UInt32
  isConnected : Bool
  handleRead : Int
  handleWrite : Int
  volume : UInt32
  lastVTicks : Int
  lastWTicks : Int
  gameMode : Int
  batteryVoltage : ℚ
  status : Int
  weight : Int
  softwareVersion : String
  hardwareVersion : String
  chestLed : ChestLed
  chestLedCached : ChestLed
  headLed : HeadLed
  headLedCached : HeadLed
  odometerReadingM : ℚ
  gestureDetect : Int
  gestureOrRadarMode : Int
  radarResponse : Int
  shakeDetected : Int
  deriving DecidableEq

namespace Mip

/-- The constructor. Assigning `ERROR` to a `std::string` stores the one character whose code
is that of `(char) ERROR`; the hardware version is not assigned. -/
def init : Mip where
  attrib := none
  nattrib := 0
  isConnected := false
  handleRead := 0x000e
  handleWrite := 0x13
  volume := unsignedOfInt error
  lastVTicks := 0
  lastWTicks := 0
  gameMode := error
  batteryVoltage := error
  status := error
  weight := error
  softwareVersion := String.singleton (Char.ofNat (uint8 error).toNat)
  hardwareVersion := ""
  chestLed := ⟨0, 255, 0, 0, 0⟩
  chestLedCached := ⟨0, 255, 0, 0, 0⟩
  headLed := ⟨1, 1, 1, 1⟩
  headLedCached := ⟨1, 1, 1, 1⟩
  odometerReadingM := error
  gestureDetect := error
  gestureOrRadarMode := error
  radarResponse := error
  shakeDetected := error

end Mip

/-- `Mip::clamp`, for any type with the two comparisons it makes. -/
def clamp {α : Type*} [LT α] [DecidableLT α] (x min max : α) : α :=
  if x < min then min else if max < x then max else x

section Clamp

variable {α : Type*} [LinearOrder α] {x lo hi : α}

/-- On ordered bounds clamping is the projection onto the interval. -/
theorem clamp_eq (h : lo ≤ hi) : clamp x lo hi = max lo (min x hi) := by
  unfold clamp
  split_ifs with h1 h2
  · exact (max_eq_left ((min_le_left x hi).trans h1.le)).symm
  · rw [min_eq_right h2.le, max_eq_right h]
  · rw [min_eq_left (not_lt.mp h2), max_eq_right (not_lt.mp h1)]

theorem clamp_of_mem (h1 : lo ≤ x) (h2 : x ≤ hi) : clamp x lo hi = x := by
  rw [clamp_eq (h1.trans h2), min_eq_left h2, max_eq_right h1]

/-- A value that is not below the lower bound is only clamped from above. -/
theorem clamp_eq_min (h : lo ≤ hi) (hx : lo ≤ x) : clamp x lo hi = min hi x := by
  rw [clamp_eq h, max_eq_right (le_min hx h), min_comm]

theorem le_clamp (h : lo ≤ hi) : lo ≤ clamp x lo hi := by
  rw [clamp_eq h]
  exact le_max_left _ _

theorem clamp_le (h : lo ≤ hi) : clamp x lo hi ≤ hi := by
  rw [clamp_eq h]
  exact max_le h (min_le_right _ _)

theorem clamp_clamp (h : lo ≤ hi) : clamp (clamp x lo hi) lo hi = clamp x lo hi :=
  clamp_of_mem (le_clamp h) (clamp_le h)

theorem clamp_mono {y : α} (h : lo ≤ hi) (hxy : x ≤ y) : clamp x lo hi ≤ clamp y lo hi := by
  rw [clamp_eq h, clamp_eq h]
  exact max_le_max le_rfl (min_le_min hxy le_rfl)

/-- Clamping between opposite bounds is odd. -/
theorem clamp_neg [AddCommGroup α] [IsOrderedAddMonoid α] {b : α} (h : -b ≤ b) :
    clamp (-x) (-b) b = -clamp x (-b) b := by
  rw [clamp_eq h, clamp_eq h, max_min_distrib_left, max_eq_right h, ← min_neg_neg, neg_neg,
    ← max_neg_neg, min_comm, max_comm (-b)]

/-- The three outcomes, with what each says about the argument. -/
theorem clamp_cases (x lo hi : α) :
    x < lo ∧ clamp x lo hi = lo ∨ hi < x ∧ lo ≤ x ∧ clamp x lo hi = hi ∨
      lo ≤ x ∧ x ≤ hi ∧ clamp x lo hi = x := by
  unfold clamp
  split_ifs with h1 h2
  · exact .inl ⟨h1, rfl⟩
  · exact .inr (.inl ⟨h2, not_lt.mp h1, rfl⟩)
  · exact .inr (.inr ⟨not_lt.mp h1, not_lt.mp h2, rfl⟩)

end Clamp

/-- Clamping an `unsigned int` from above. -/
theorem toNat_clamp (v hi : UInt32) : (clamp v 0 hi).toNat = min v.toNat hi.toNat := by
  unfold clamp
  split_ifs with below above
  · exact absurd below (by simp)
  · rw [UInt32.lt_iff_toNat_lt] at above
    omega
  · rw [UInt32.lt_iff_toNat_lt] at above
    omega

/-- `Mip::signum`: zero counts as positive. -/
def signum {α : Type*} [LE α] [Zero α] [DecidableLE α] (val : α) : Int :=
  if 0 ≤ val then 1 else -1

end LibMip
