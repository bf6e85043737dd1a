import LibMip.Foundation.CNum
import LibMip.Foundation.Segments

/-!
# Strings of the C++ library

A `std::string` is the list of its characters. Positions are numbers without a bound: no
function here forms one beyond the length of a string it has. `find` answers `none` for `npos`.
`substr` and `replace` throw `std::out_of_range` for a position past the end, which is the
fault `outOfRange`.

A position is best seen as the end of a part that was dealt with: the lemmas are about the
string `before ++ rest` and the position `before.length`.
-/

namespace CString

open CNum Segments

variable {α : Type*}

/-- `s.find(pat, pos)`. -/
def find [DecidableEq α] (s pat : List α) (pos : Nat) : Option Nat :=
  if pos ≤ s.length then (indexOf pat (s.drop pos)).map (pos + ·) else none

/-- `s.substr(pos)`. -/
def substrFrom (s : List α) (pos : Nat) : Except Fault (List α) :=
  if pos ≤ s.length then .ok (s.drop pos) else .error .outOfRange

/-- `s.substr(pos, count)`. -/
def substr (s : List α) (pos count : Nat) : Except Fault (List α) :=
  if pos ≤ s.length then .ok ((s.drop pos).take count) else .error .outOfRange

/-- `s.replace(pos, count, rep)`: the new value of `s`. -/
def replace (s : List α) (pos count : Nat) (rep : List α) : Except Fault (List α) :=
  if pos ≤ s.length then .ok (s.take pos ++ rep ++ s.drop (pos + count)) else .error .outOfRange

variable (before rest pat : List α)

theorem find_append [DecidableEq α] :
    find (before ++ rest) pat before.length = (indexOf pat rest).map (before.length + ·) := by
  simp [find]

theorem substrFrom_append : substrFrom (before ++ rest) before.length = .ok rest := by
  simp [substrFrom]

theorem substr_append (count : Nat) :
    substr (before ++ rest) before.length count = .ok (rest.take count) := by
  simp [substr]

/-- Replacing behind the part that was dealt with leaves that part alone. -/
theorem replace_append (rep : List α) {p count : Nat} (h : p ≤ rest.length) :
    replace (before ++ rest) (before.length + p) count rep =
      .ok (before ++ (rest.take p ++ rep) ++ rest.drop (p + count)) := by
  rw [replace, if_pos (by simpa using h), add_assoc, List.take_length_add_append,
    List.drop_length_add_append, List.append_assoc before]

end CString
