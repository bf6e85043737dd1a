import Mathlib.Data.Rat.Floor
import Mathlib.Tactic.Linarith
import Mathlib.Tactic.NormNum
import Mathlib.Tactic.Ring

/-!
# C++ numbers

A 32-bit `int` is an integer with its range; `CInt` carries the bounds. An operation the
language leaves undefined outside a range answers with a `Fault` instead of a value: negating
the least `int`, converting to `int` a floating value that no `int` holds, reading a variable
that was never set, using a position outside an array or a string.

Floating values are exact rationals, so a conversion to `int` is truncation toward zero
followed by a range check. `abs_trunc_sub_lt` is the bound the error analyses use.
-/

namespace CNum

inductive Fault where
  | signedOverflow
  | castRange
  | indeterminate
  | outOfRange
  deriving DecidableEq, Repr

/-- A computation that does not fault is made of steps that do not. -/
theorem bind_eq_ok {α β : Type} {x : Except Fault α} {f : α → Except Fault β} {r : β} :
    x >>= f = .ok r ↔ ∃ a, x = .ok a ∧ f a = .ok r := by
  cases x with
  | error e => simp [bind, Except.bind]
  | ok a => simp [bind, Except.bind]

/-- The value is that of a 32-bit signed integer. -/
abbrev InInt (x : Int) : Prop := -2147483648 ≤ x ∧ x ≤ 2147483647

/-- A value of the type `int`. -/
abbrev CInt := { x : Int // InInt x }

/-- Unary minus on `int`; the least `int` has no opposite. -/
def negate (x : Int) : Except Fault Int :=
  if InInt (-x) then .ok (-x) else .error .signedOverflow

theorem negate_of_lt {x : Int} (hx : InInt x) (lo : -2147483648 < x) : negate x = .ok (-x) := by
  have h : InInt (-x) := ⟨by omega, by omega⟩
  simp [negate, h]

/-- `abs` on `int`. -/
def absInt (x : Int) : Except Fault Int := if 0 ≤ x then .ok x else negate x

theorem absInt_of_lt {x : Int} (hx : InInt x) (lo : -2147483648 < x) : absInt x = .ok |x| := by
  unfold absInt
  split_ifs with h
  · rw [abs_of_nonneg h]
  · rw [abs_of_nonpos (by omega), negate_of_lt hx lo]

/-- Addition on `int`. -/
def addInt (x y : Int) : Except Fault Int :=
  if InInt (x + y) then .ok (x + y) else .error .signedOverflow

theorem addInt_of_mem {x y : Int} (h : InInt (x + y)) : addInt x y = .ok (x + y) := if_pos h

/-- Multiplication on `int`. -/
def mulInt (x y : Int) : Except Fault Int :=
  if InInt (x * y) then .ok (x * y) else .error .signedOverflow

theorem addInt_eq_ok {x y z : Int} : addInt x y = .ok z ↔ InInt (x + y) ∧ x + y = z := by
  unfold addInt
  split_ifs with h
  · rw [Except.ok.injEq, and_iff_right h]
  · exact iff_of_false (by simp) fun both => h both.1

theorem mulInt_eq_ok {x y z : Int} : mulInt x y = .ok z ↔ InInt (x * y) ∧ x * y = z := by
  unfold mulInt
  split_ifs with h
  · rw [Except.ok.injEq, and_iff_right h]
  · exact iff_of_false (by simp) fun both => h both.1

/-- The two's complement value of an `int` operation whose result may leave the range. -/
def wrap32 (x : Int) : Int := Int.bmod x 4294967296

theorem wrap32_of_mem {x : Int} (h : InInt x) : wrap32 x = x := by
  unfold wrap32
  rw [Int.bmod_eq_of_le] <;> omega

/-! ## Narrowing -/

/-- Implicit conversion to `uint8_t`. -/
def uint8 (x : Int) : UInt8 := UInt8.ofInt x

/-- Conversion of an `unsigned int` to `int`: the same 32 bits. -/
def intOfUnsigned (u : UInt32) : Int := Int.bmod u.toNat 4294967296

/-- Conversion of an `int` to `unsigned int`: the same 32 bits. -/
def unsignedOfInt (x : Int) : UInt32 := UInt32.ofInt x

theorem toNat_uint8 (x : Int) : (uint8 x).toNat = (x % 256).toNat := by
  have hlt : (x % 256).toNat < 256 := by omega
  simpa [uint8, UInt8.ofInt] using Nat.mod_eq_of_lt hlt

/-- Narrowing alters no value that fits in a byte. -/
theorem uint8_of_mem {x : Int} (lo : 0 ≤ x) (hi : x ≤ 255) : ((uint8 x).toNat : Int) = x := by
  rw [toNat_uint8]
  omega

theorem intOfUnsigned_of_lt {u : UInt32} (h : u.toNat < 2147483648) :
    intOfUnsigned u = u.toNat := by
  unfold intOfUnsigned
  rw [Int.bmod_eq_of_le] <;> omega

theorem toNat_unsignedOfInt (x : Int) : ((unsignedOfInt x).toNat : Int) = x % 4294967296 := by
  have hlt : (x % 4294967296).toNat < 4294967296 := by omega
  have h : (unsignedOfInt x).toNat = (x % 4294967296).toNat := by
    simpa [unsignedOfInt, UInt32.ofInt] using Nat.mod_eq_of_lt hlt
  rw [h]
  omega

/-! ## Truncation -/

/-- Drop the fractional part. -/
def trunc (q : ℚ) : Int := if 0 ≤ q then ⌊q⌋ else ⌈q⌉

theorem trunc_of_nonneg {q : ℚ} (h : 0 ≤ q) : trunc q = ⌊q⌋ := if_pos h

theorem trunc_of_nonpos {q : ℚ} (h : q ≤ 0) : trunc q = ⌈q⌉ := by
  rcases h.eq_or_lt with rfl | h
  · simp [trunc]
  · exact if_neg (not_le.mpr h)

theorem trunc_neg (q : ℚ) : trunc (-q) = -trunc q := by
  rcases le_total 0 q with h | h
  · rw [trunc_of_nonneg h, trunc_of_nonpos (neg_nonpos.mpr h), Int.ceil_neg]
  · rw [trunc_of_nonpos h, trunc_of_nonneg (neg_nonneg.mpr h), Int.floor_neg]

@[simp] theorem trunc_intCast (n : Int) : trunc (n : ℚ) = n := by
  unfold trunc
  split <;> simp

theorem trunc_mono {p q : ℚ} (hpq : p ≤ q) : trunc p ≤ trunc q := by
  rcases le_total 0 p with hp | hp
  · rw [trunc_of_nonneg hp, trunc_of_nonneg (hp.trans hpq)]
    exact Int.floor_mono hpq
  · rcases le_total 0 q with hq | hq
    · rw [trunc_of_nonpos hp, trunc_of_nonneg hq]
      exact (Int.ceil_le.mpr (by simpa using hp)).trans (Int.floor_nonneg.mpr hq)
    · rw [trunc_of_nonpos hp, trunc_of_nonpos hq]
      exact Int.ceil_mono hpq

/-- Truncation moves a value by less than one. -/
theorem abs_trunc_sub_lt (q : ℚ) : |(trunc q : ℚ) - q| < 1 := by
  rcases le_total 0 q with h | h
  · rw [trunc_of_nonneg h, abs_lt]
    constructor <;> linarith [Int.floor_le q, Int.lt_floor_add_one q]
  · rw [trunc_of_nonpos h, abs_lt]
    constructor <;> linarith [Int.le_ceil q, Int.ceil_lt_add_one q]

/-- Scaling a truncated value back misses by at most one step of the scale more than scaling
back the value itself. -/
theorem abs_scale_trunc_le (scale offset v q : ℚ) :
    |scale * trunc q + offset - v| ≤ |scale| + |scale * q + offset - v| := by
  have split : scale * trunc q + offset - v =
      scale * (trunc q - q) + (scale * q + offset - v) := by ring
  have step : |scale * (trunc q - q)| ≤ |scale| := by
    rw [abs_mul]
    exact mul_le_of_le_one_right (abs_nonneg _) (abs_trunc_sub_lt q).le
  rw [split]
  exact (abs_add_le _ _).trans (by linarith)

theorem le_trunc {n : Int} {q : ℚ} (h : (n : ℚ) ≤ q) : n ≤ trunc q :=
  (trunc_intCast n).symm.trans_le (trunc_mono h)

theorem trunc_le {n : Int} {q : ℚ} (h : q ≤ n) : trunc q ≤ n :=
  (trunc_mono h).trans_eq (trunc_intCast n)

/-- Truncation does not reach a positive bound that the value stays below. -/
theorem trunc_lt {n : Int} {q : ℚ} (hn : 0 < n) (h : q < n) : trunc q < n := by
  rcases le_total 0 q with h0 | h0
  · rw [trunc_of_nonneg h0]
    exact Int.floor_lt.mpr h
  · exact (trunc_le (n := 0) (by simpa using h0)).trans_lt hn

/-- Truncation does not reach a negative bound that the value stays above. -/
theorem lt_trunc {n : Int} {q : ℚ} (hn : n < 0) (h : (n : ℚ) < q) : n < trunc q := by
  have hneg : trunc (-q) < -n := trunc_lt (by omega) (by push_cast; linarith)
  rw [trunc_neg] at hneg
  omega

theorem trunc_lt_iff {n : Int} {q : ℚ} (hn : 0 < n) : trunc q < n ↔ q < n :=
  ⟨fun h => not_le.mp fun reached => (le_trunc reached).not_gt h, trunc_lt hn⟩

theorem lt_trunc_iff {n : Int} {q : ℚ} (hn : n < 0) : n < trunc q ↔ (n : ℚ) < q :=
  ⟨fun h => not_le.mp fun reached => (trunc_le reached).not_gt h, lt_trunc hn⟩

/-- A truncated value is on no side before the value has gone a whole unit. -/
theorem trunc_nonneg_iff {q : ℚ} : 0 ≤ trunc q ↔ -1 < q := by
  rw [← Int.sub_one_lt_iff]
  simpa using lt_trunc_iff (n := -1) (q := q) (by decide)

theorem trunc_nonpos_iff {q : ℚ} : trunc q ≤ 0 ↔ q < 1 := by
  rw [← Int.lt_add_one_iff]
  simpa using trunc_lt_iff (n := 1) (q := q) (by decide)

theorem trunc_eq_zero {q : ℚ} : trunc q = 0 ↔ |q| < 1 := by
  rw [abs_lt, ← trunc_nonneg_iff, ← trunc_nonpos_iff]
  omega

/-- Conversion of a floating value to `int`. -/
def toInt (q : ℚ) : Except Fault Int :=
  if InInt (trunc q) then .ok (trunc q) else .error .castRange

theorem toInt_of_mem {q : ℚ} (h : InInt (trunc q)) : toInt q = .ok (trunc q) := if_pos h

theorem toInt_eq_ok {q : ℚ} {n : Int} : toInt q = .ok n ↔ InInt (trunc q) ∧ trunc q = n := by
  unfold toInt
  split_ifs with h
  · rw [Except.ok.injEq, and_iff_right h]
  · exact iff_of_false (by simp) fun both => h both.1

/-- Conversion of a floating value to `uint8_t`, undefined when no byte holds it. -/
def toByte (q : ℚ) : Except Fault Int :=
  if 0 ≤ trunc q ∧ trunc q ≤ 255 then .ok (trunc q) else .error .castRange

theorem toByte_of_mem {q : ℚ} (h : 0 ≤ trunc q ∧ trunc q ≤ 255) : toByte q = .ok (trunc q) :=
  if_pos h

/-- Truncation of a value strictly between the two bounds stays in the range of `int`. -/
theorem inInt_trunc {q : ℚ} (h : |q| < 2147483648) : InInt (trunc q) := by
  obtain ⟨lo, hi⟩ := abs_lt.mp h
  have hlo : -2147483648 < trunc q := lt_trunc (by norm_num) (by exact_mod_cast lo)
  have hhi : trunc q < 2147483648 := trunc_lt (by norm_num) (by exact_mod_cast hi)
  exact ⟨by omega, by omega⟩

/-- A value of no larger magnitude is converted as well. -/
theorem inInt_trunc_of_abs_le {p q : ℚ} (h : |p| ≤ q) (hq : InInt (trunc q)) :
    InInt (trunc p) := by
  obtain ⟨lo, hi⟩ := abs_le.mp h
  have below : -trunc q ≤ trunc p := by
    rw [← trunc_neg]
    exact trunc_mono lo
  have above : trunc p ≤ trunc q := trunc_mono hi
  exact ⟨by omega, by omega⟩

/-- The conversion is defined on values strictly between the two bounds. -/
theorem toInt_of_abs_lt {q : ℚ} (h : |q| < 2147483648) : toInt q = .ok (trunc q) :=
  toInt_of_mem (inInt_trunc h)

end CNum
