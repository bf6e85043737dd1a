import Mathlib.Data.List.Induction
import Mathlib.Data.List.TakeWhile
import Mathlib.Order.Basic
import Mathlib.Tactic.IntervalCases

/-!
# Extracting a hexadecimal number from a character stream

What `stream >> std::hex >> buffer` stores in an `unsigned int`, with the rules of C++11 and the
classic locale. Leading blanks are skipped. The field is the longest prefix that reads as an
optional sign, an optional `0x` and hexadecimal digits. A field without digits is a failure,
which stores `0`; a number too large stores the greatest value; a minus sign negates modulo
`2 ^ 32`. When only blanks are left the extraction stops before it looks at the variable, and
nothing is stored: that is `none`.
-/

namespace HexStream

/-- `isspace`: blank, tab, line feed, vertical tab, form feed, carriage return. -/
def isSpace (b : UInt8) : Bool := b = 32 || (9 ≤ b && b ≤ 13)

def hexVal (b : UInt8) : Option Nat :=
  if 48 ≤ b ∧ b ≤ 57 then some (b.toNat - 48)
  else if 65 ≤ b ∧ b ≤ 70 then some (b.toNat - 55)
  else if 97 ≤ b ∧ b ≤ 102 then some (b.toNat - 87)
  else none

/-- The character of a digit, the letters in upper or lower case. -/
def hexDigit (upper : Bool) (d : Nat) : UInt8 :=
  if d < 10 then UInt8.ofNat (48 + d) else UInt8.ofNat ((if upper then 55 else 87) + d)

/-- The digits at the front. -/
def hexDigits : List UInt8 → List Nat
  | [] => []
  | b :: s =>
    match hexVal b with
    | some d => d :: hexDigits s
    | none => []

/-- Drop `0x` or `0X`. -/
def dropRadix : List UInt8 → List UInt8
  | b :: c :: s => if b = 48 ∧ (c = 120 ∨ c = 88) then s else b :: c :: s
  | s => s

def magnitude (ds : List Nat) : Nat := ds.foldl (fun n d => 16 * n + d) 0

/-- The number after the sign. -/
def field (s : List UInt8) : Nat := magnitude (hexDigits (dropRadix s))

def saturate (n : Nat) : UInt32 := if n < 4294967296 then UInt32.ofNat n else 4294967295

def saturateNeg (n : Nat) : UInt32 := if n < 4294967296 then -UInt32.ofNat n else 4294967295

/-- Conversion of what remains after the blanks. -/
def convert : List UInt8 → UInt32
  | [] => 0
  | b :: s =>
    if b = 43 then saturate (field s)
    else if b = 45 then saturateNeg (field s)
    else saturate (field (b :: s))

def extractHex (s : List UInt8) : Option UInt32 :=
  match s.dropWhile isSpace with
  | [] => none
  | b :: t => some (convert (b :: t))

theorem hexVal_hexDigit (upper : Bool) {d : Nat} (hd : d < 16) :
    hexVal (hexDigit upper d) = some d := by
  revert upper
  interval_cases d <;> decide

theorem hexVal_lt {b : UInt8} {d : Nat} (h : hexVal b = some d) : d < 16 := by
  unfold hexVal at h
  split_ifs at h with h1 h2 h3 <;> simp only [UInt8.le_iff_toNat_le] at * <;>
    simp at * <;> omega

/-- A digit is neither a blank, nor a sign, nor the letter of the radix prefix. -/
theorem hexVal_eq_none_of_special {b : UInt8}
    (h : isSpace b = true ∨ b = 43 ∨ b = 45 ∨ b = 120 ∨ b = 88) : hexVal b = none := by
  rcases h with h | rfl | rfl | rfl | rfl
  · simp only [isSpace, Bool.or_eq_true, decide_eq_true_eq, Bool.and_eq_true,
      UInt8.le_iff_toNat_le] at h
    unfold hexVal
    split_ifs with h1 h2 h3
    case neg => rfl
    all_goals
      simp only [UInt8.le_iff_toNat_le] at *
      rcases h with rfl | h
      · simp at *
      · simp at *; omega
  all_goals decide

theorem magnitude_lt {ds : List Nat} (h : ∀ d ∈ ds, d < 16) : magnitude ds < 16 ^ ds.length := by
  induction ds using List.reverseRecOn with
  | nil => simp [magnitude]
  | append_singleton ds d ih =>
    have hd := h d (by simp)
    have hlt := ih fun e he => h e (by simp [he])
    have heq : magnitude (ds ++ [d]) = 16 * magnitude ds + d := by simp [magnitude]
    rw [heq, List.length_append, List.length_singleton, Nat.pow_succ]
    omega

theorem hexDigits_lt (s : List UInt8) : ∀ d ∈ hexDigits s, d < 16 := by
  induction s with
  | nil => simp [hexDigits]
  | cons b s ih =>
    unfold hexDigits
    cases hb : hexVal b with
    | none => simp
    | some x => simpa using ⟨hexVal_lt hb, ih⟩

theorem hexDigits_length_le (s : List UInt8) : (hexDigits s).length ≤ s.length := by
  induction s with
  | nil => simp [hexDigits]
  | cons b s ih =>
    unfold hexDigits
    cases hexVal b with
    | none => simp
    | some x => simpa using ih

theorem dropRadix_length_le (s : List UInt8) : (dropRadix s).length ≤ s.length := by
  unfold dropRadix
  split
  · split_ifs <;> simp
    omega
  · exact le_rfl

/-- A field of `n` characters stays below `16 ^ n`. -/
theorem field_lt (s : List UInt8) : field s < 16 ^ s.length :=
  (magnitude_lt (hexDigits_lt _)).trans_le <|
    Nat.pow_le_pow_right (by omega) ((hexDigits_length_le _).trans (dropRadix_length_le s))

@[simp] theorem field_singleton (b : UInt8) : field [b] = (hexVal b).getD 0 := by
  cases hb : hexVal b <;> simp [field, dropRadix, hexDigits, magnitude, hb]

/-- Two characters: both digits, the first alone, or no number. A radix prefix with nothing
after it reads as the digit `0` followed by a character that is no digit. -/
theorem field_pair (a b : UInt8) :
    field [a, b] =
      match hexVal a, hexVal b with
      | some x, some y => 16 * x + y
      | some x, none => x
      | none, _ => 0 := by
  by_cases radix : a = 48 ∧ (b = 120 ∨ b = 88)
  · obtain ⟨rfl, rfl | rfl⟩ := radix <;> decide
  · cases ha : hexVal a <;> cases hb : hexVal b <;>
      simp [field, dropRadix, radix, hexDigits, magnitude, ha, hb]

theorem extractHex_eq_none_iff {s : List UInt8} :
    extractHex s = none ↔ ∀ b ∈ s, isSpace b = true := by
  unfold extractHex
  rw [← List.dropWhile_eq_nil_iff]
  cases s.dropWhile isSpace <;> simp

end HexStream
