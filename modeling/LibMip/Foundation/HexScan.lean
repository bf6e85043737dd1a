import LibMip.Foundation.HexStream

/-!
# Hexadecimal numbers of the C library

`printf` with `%.4x` writes a number with at least so many digits, all of them here, since no number
is printed that has more. `scanf` with `%4x` and `strtol` to the base 16 skip blanks and read an
optional sign, an optional radix prefix and digits, in a field that ends with the width; without a
digit nothing is read. What is printed is read back, whatever follows it.
-/

namespace HexStream

/-- The `width` lowest digits of a number. -/
def numerals : Nat → Nat → List Nat
  | 0, _ => []
  | width + 1, n => numerals width (n / 16) ++ [n % 16]

def printHex (width n : Nat) : List UInt8 := (numerals width n).map (hexDigit false)

/-- The number in the first `width` characters and what follows it. -/
def scanDigits (width : Nat) (s : List UInt8) : Option (Nat × List UInt8) :=
  let body := dropRadix (s.take width)
  if hexDigits body = [] then none
  else some (magnitude (hexDigits body), body.drop (hexDigits body).length ++ s.drop width)

def scanHex (width : Nat) (s : List UInt8) : Option (Int × List UInt8) :=
  match s.dropWhile isSpace with
  | [] => none
  | b :: t =>
    if b = 43 then (scanDigits (width - 1) t).map fun r => ((r.1 : Int), r.2)
    else if b = 45 then (scanDigits (width - 1) t).map fun r => (-(r.1 : Int), r.2)
    else (scanDigits width (b :: t)).map fun r => ((r.1 : Int), r.2)

@[simp] theorem numerals_length (width n : Nat) : (numerals width n).length = width := by
  induction width generalizing n with
  | zero => rfl
  | succ width ih => simp [numerals, ih]

theorem numerals_lt (width n : Nat) : ∀ d ∈ numerals width n, d < 16 := by
  induction width generalizing n with
  | zero => simp [numerals]
  | succ width ih =>
    intro d hd
    rcases List.mem_append.mp hd with front | last
    · exact ih _ d front
    · obtain rfl := List.mem_singleton.mp last
      omega

theorem magnitude_numerals (width n : Nat) : magnitude (numerals width n) = n % 16 ^ width := by
  induction width generalizing n with
  | zero => simp [numerals, magnitude, Nat.mod_one]
  | succ width ih =>
    have last : magnitude (numerals width (n / 16) ++ [n % 16]) =
        16 * magnitude (numerals width (n / 16)) + n % 16 := by simp [magnitude]
    rw [numerals, last, ih, Nat.pow_succ, Nat.mul_comm (16 ^ width), Nat.mod_mul, Nat.add_comm]

@[simp] theorem printHex_length (width n : Nat) : (printHex width n).length = width := by
  simp [printHex]

/-- Digits are read as what they are. -/
theorem hexDigits_map {ds : List Nat} (small : ∀ d ∈ ds, d < 16) :
    hexDigits (ds.map (hexDigit false)) = ds := by
  induction ds with
  | nil => rfl
  | cons d ds ih =>
    rw [List.map_cons, hexDigits, hexVal_hexDigit false (small d List.mem_cons_self),
      ih fun e he => small e (List.mem_cons_of_mem d he)]

/-- There is no radix prefix in front of digits. -/
theorem dropRadix_map {ds : List Nat} (small : ∀ d ∈ ds, d < 16) :
    dropRadix (ds.map (hexDigit false)) = ds.map (hexDigit false) := by
  match ds with
  | [] | [_] => rfl
  | d :: e :: ds =>
    have digit := hexVal_hexDigit false (small e (by simp))
    have noLetter : ¬ (hexDigit false d = 48 ∧
        (hexDigit false e = 120 ∨ hexDigit false e = 88)) := by
      rintro ⟨-, lower | upper⟩
      · rw [lower, hexVal_eq_none_of_special (by simp)] at digit
        cases digit
      · rw [upper, hexVal_eq_none_of_special (by simp)] at digit
        cases digit
    simp only [List.map_cons, dropRadix, noLetter, if_false]

theorem scanDigits_printHex {width : Nat} (positive : 0 < width) (n : Nat) (rest : List UInt8) :
    scanDigits width (printHex width n ++ rest) = some (n % 16 ^ width, rest) := by
  have front : (printHex width n ++ rest).take width = printHex width n := by
    rw [List.take_append_of_le_length (by simp), List.take_of_length_le (by simp)]
  have behind : (printHex width n ++ rest).drop width = rest := by
    rw [List.drop_append_of_le_length (by simp), List.drop_of_length_le (by simp),
      List.nil_append]
  have digits : hexDigits (printHex width n) = numerals width n :=
    hexDigits_map (numerals_lt width n)
  have some_digit : numerals width n ≠ [] := by
    rw [ne_eq, ← List.length_eq_zero_iff, numerals_length]
    omega
  have whole : dropRadix (printHex width n) = printHex width n :=
    dropRadix_map (numerals_lt width n)
  simp only [scanDigits, front, behind, whole, digits, some_digit, if_false, magnitude_numerals]
  rw [List.drop_of_length_le (by simp), List.nil_append]

/-- A number that was printed is read back. -/
theorem scanHex_printHex {width : Nat} (positive : 0 < width) (n : Nat) (rest : List UInt8) :
    scanHex width (printHex width n ++ rest) = some (((n % 16 ^ width : Nat) : Int), rest) := by
  obtain ⟨d, ds, cut⟩ := List.exists_cons_of_length_pos
    (show 0 < (numerals width n).length by rw [numerals_length]; exact positive)
  have digit : hexVal (hexDigit false d) = some d :=
    hexVal_hexDigit false (numerals_lt width n d (by rw [cut]; exact List.mem_cons_self))
  have first : printHex width n ++ rest =
      hexDigit false d :: (ds.map (hexDigit false) ++ rest) := by
    rw [printHex, cut, List.map_cons, List.cons_append]
  have plain (special : isSpace (hexDigit false d) = true ∨ hexDigit false d = 43 ∨
      hexDigit false d = 45) : False := by
    rw [hexVal_eq_none_of_special (by tauto)] at digit
    cases digit
  have noBlank : ¬ isSpace (hexDigit false d) = true := fun h => plain (.inl h)
  have noPlus : hexDigit false d ≠ 43 := fun h => plain (.inr (.inl h))
  have noMinus : hexDigit false d ≠ 45 := fun h => plain (.inr (.inr h))
  have start : (printHex width n ++ rest).dropWhile isSpace =
      hexDigit false d :: (ds.map (hexDigit false) ++ rest) := by
    rw [first, List.dropWhile_cons_of_neg noBlank]
  rw [scanHex, start]
  simp only [noPlus, noMinus, if_false]
  rw [← first, scanDigits_printHex positive, Option.map_some]

end HexStream
