import Mathlib.Data.List.Basic
import Mathlib.Tactic.Ring

/-!
# Occurrences of a pattern

`segments pat s` cuts a list at the occurrences of a pattern that are found one after the other
from the left, each after the end of the one before. The segments joined with the pattern give
the list back; joined with something else they give `substitute`.

`indexOf` is the search, structural in the list, and `segments` repeats it. The laws for a list
that starts with the pattern, or with a letter at which the pattern does not start, are what
proofs by induction on the list use.
-/

namespace Segments

variable {α : Type*} [DecidableEq α]

/-- Position of the leftmost occurrence. -/
def indexOf (pat : List α) : List α → Option Nat
  | [] => if pat = [] then some 0 else none
  | c :: s => if pat <+: c :: s then some 0 else (indexOf pat s).map (· + 1)

theorem indexOf_spec {pat s : List α} {p : Nat} (h : indexOf pat s = some p) :
    s = s.take p ++ (pat ++ s.drop (p + pat.length)) := by
  induction s generalizing p with
  | nil =>
    simp only [indexOf] at h
    split_ifs at h with hpat
    simp [hpat]
  | cons c s ih =>
    simp only [indexOf] at h
    split_ifs at h with hpre
    · obtain rfl : 0 = p := Option.some.inj h
      simpa using List.prefix_iff_eq_append.mp hpre |>.symm
    · obtain ⟨q, hq, rfl⟩ := Option.map_eq_some_iff.mp h
      have tail := ih hq
      rw [Nat.add_right_comm, List.take_succ_cons, List.drop_succ_cons, List.cons_append, ← tail]

theorem indexOf_le {pat s : List α} {p : Nat} (h : indexOf pat s = some p) :
    p + pat.length ≤ s.length := by
  induction s generalizing p with
  | nil =>
    simp only [indexOf] at h
    split_ifs at h with hpat
    simp_all
  | cons c s ih =>
    simp only [indexOf] at h
    split_ifs at h with hpre
    · obtain rfl : 0 = p := Option.some.inj h
      simpa using hpre.length_le
    · obtain ⟨q, hq, rfl⟩ := Option.map_eq_some_iff.mp h
      have := ih hq
      simp only [List.length_cons]
      omega

/-- The empty pattern occurs at once. -/
theorem indexOf_nil_left (s : List α) : indexOf [] s = some 0 := by
  cases s <;> simp [indexOf]

theorem indexOf_cons_of_prefix {pat s : List α} {c : α} (h : pat <+: c :: s) :
    indexOf pat (c :: s) = some 0 := by
  rw [indexOf, if_pos h]

theorem indexOf_cons_of_not_prefix {pat s : List α} {c : α} (h : ¬ pat <+: c :: s) :
    indexOf pat (c :: s) = (indexOf pat s).map (· + 1) := by
  rw [indexOf, if_neg h]

/-- What lies before, between and after the occurrences; for the empty pattern, the list. -/
def segments (pat s : List α) : List (List α) :=
  if _hpat : pat = [] then [s]
  else
    match _h : indexOf pat s with
    | none => [s]
    | some p => s.take p :: segments pat (s.drop (p + pat.length))
termination_by s.length
decreasing_by
  have fits := indexOf_le _h
  have pos := List.length_pos_iff.mpr _hpat
  rw [List.length_drop]
  omega

variable {pat : List α}

theorem segments_of_none {s : List α} (h : indexOf pat s = none) : segments pat s = [s] := by
  rw [segments]
  split
  · rfl
  · split
    · rfl
    · simp_all

theorem segments_of_some (hpat : pat ≠ []) {s : List α} {p : Nat} (h : indexOf pat s = some p) :
    segments pat s = s.take p :: segments pat (s.drop (p + pat.length)) := by
  rw [segments, dif_neg hpat]
  split
  · simp_all
  · simp_all

theorem segments_ne_nil (pat s : List α) : segments pat s ≠ [] := by
  rw [segments]
  split
  · simp
  · split <;> simp

/-- Induction along the search: either nothing is found, or the claim holds for what follows the
occurrence. -/
theorem search_induction (hpat : pat ≠ []) {P : List α → Prop}
    (none : ∀ s, indexOf pat s = none → P s)
    (some : ∀ s p, indexOf pat s = some p → P (s.drop (p + pat.length)) → P s) (s : List α) :
    P s := by
  induction h : s.length using Nat.strong_induction_on generalizing s with
  | _ n ih =>
    cases hp : indexOf pat s with
    | none => exact none s hp
    | some p =>
      have fits := indexOf_le hp
      have pos := List.length_pos_iff.mpr hpat
      have shorter : (s.drop (p + pat.length)).length < n := by
        rw [List.length_drop]
        omega
      exact some s p hp (ih _ shorter _ rfl)

/-- Joined with the pattern, the segments give the list back. -/
theorem intercalate_segments (hpat : pat ≠ []) (s : List α) :
    pat.intercalate (segments pat s) = s := by
  induction s using search_induction hpat with
  | none s h => rw [segments_of_none h, List.intercalate_singleton]
  | some s p h ih =>
    rw [segments_of_some hpat h, List.intercalate_cons_of_ne_nil (segments_ne_nil _ _), ih,
      List.append_assoc]
    exact (indexOf_spec h).symm

/-! ## Substitution -/

def occurrences (pat s : List α) : Nat := (segments pat s).length - 1

/-- Every occurrence replaced, none of the replacements looked at again. -/
def substitute (pat rep s : List α) : List α := rep.intercalate (segments pat s)

section Substitute

variable {rep s : List α} {p : Nat}

theorem occurrences_of_none (h : indexOf pat s = none) : occurrences pat s = 0 := by
  rw [occurrences, segments_of_none h]
  rfl

theorem occurrences_of_some (hpat : pat ≠ []) (h : indexOf pat s = some p) :
    occurrences pat s = occurrences pat (s.drop (p + pat.length)) + 1 := by
  have pos := List.length_pos_iff.mpr (segments_ne_nil pat (s.drop (p + pat.length)))
  rw [occurrences, segments_of_some hpat h, occurrences, List.length_cons]
  omega

theorem substitute_of_none (h : indexOf pat s = none) : substitute pat rep s = s := by
  rw [substitute, segments_of_none h, List.intercalate_singleton]

theorem substitute_of_some (hpat : pat ≠ []) (h : indexOf pat s = some p) :
    substitute pat rep s =
      s.take p ++ rep ++ substitute pat rep (s.drop (p + pat.length)) := by
  rw [substitute, segments_of_some hpat h, List.intercalate_cons_of_ne_nil (segments_ne_nil _ _)]
  rfl

theorem length_substitute (hpat : pat ≠ []) (rep s : List α) :
    ((substitute pat rep s).length : Int) =
      s.length + occurrences pat s * ((rep.length : Int) - pat.length) := by
  induction s using search_induction hpat with
  | none s h => simp [substitute_of_none h, occurrences_of_none h]
  | some s p h ih =>
    have fits := indexOf_le h
    have drop : ((s.drop (p + pat.length)).length : Int) = s.length - p - pat.length := by
      rw [List.length_drop]
      omega
    have take : (s.take p).length = p := by
      rw [List.length_take]
      omega
    rw [substitute_of_some hpat h, occurrences_of_some hpat h, List.length_append,
      List.length_append, take]
    push_cast
    rw [ih, drop]
    ring

/-! ## Letter by letter -/

theorem segments_nil (hpat : pat ≠ []) : segments pat [] = [[]] :=
  segments_of_none (by simp [indexOf, hpat])

theorem segments_append_left (hpat : pat ≠ []) (s : List α) :
    segments pat (pat ++ s) = [] :: segments pat s := by
  obtain ⟨c, t, rfl⟩ := List.exists_cons_of_ne_nil hpat
  have h : indexOf (c :: t) (c :: t ++ s) = some 0 :=
    indexOf_cons_of_prefix (List.prefix_append _ _)
  rw [segments_of_some hpat h, Nat.zero_add, List.drop_left, List.take_zero]

theorem segments_cons {c : α} (hpat : pat ≠ []) (h : ¬ pat <+: c :: s) :
    segments pat (c :: s) = (segments pat s).modifyHead (c :: ·) := by
  have step := indexOf_cons_of_not_prefix h
  cases hs : indexOf pat s with
  | none =>
    rw [hs] at step
    rw [segments_of_none step, segments_of_none hs, List.modifyHead_cons]
  | some p =>
    rw [hs] at step
    rw [segments_of_some hpat step, segments_of_some hpat hs, List.modifyHead_cons,
      Nat.add_right_comm, List.take_succ_cons, List.drop_succ_cons]

theorem occurrences_append_left (hpat : pat ≠ []) (s : List α) :
    occurrences pat (pat ++ s) = occurrences pat s + 1 := by
  have pos := List.length_pos_iff.mpr (segments_ne_nil pat s)
  rw [occurrences, segments_append_left hpat, occurrences, List.length_cons]
  omega

theorem occurrences_cons {c : α} (hpat : pat ≠ []) (h : ¬ pat <+: c :: s) :
    occurrences pat (c :: s) = occurrences pat s := by
  rw [occurrences, segments_cons hpat h, List.length_modifyHead, occurrences]

theorem substitute_append_left (hpat : pat ≠ []) (rep s : List α) :
    substitute pat rep (pat ++ s) = rep ++ substitute pat rep s := by
  rw [substitute, segments_append_left hpat, List.intercalate_cons_of_ne_nil (segments_ne_nil _ _)]
  rfl

theorem substitute_cons {c : α} (hpat : pat ≠ []) (rep : List α) (h : ¬ pat <+: c :: s) :
    substitute pat rep (c :: s) = c :: substitute pat rep s := by
  obtain ⟨first, rest, cut⟩ := List.exists_cons_of_ne_nil (segments_ne_nil pat s)
  rw [substitute, segments_cons hpat h, substitute, cut, List.modifyHead_cons]
  exact List.intercalate_cons_cons_left

/-- Induction on the list, a whole occurrence or a letter at a time. -/
theorem letter_induction (hpat : pat ≠ []) {P : List α → Prop} (nil : P [])
    (occurrence : ∀ s, P s → P (pat ++ s)) (letter : ∀ c s, ¬ pat <+: c :: s → P s → P (c :: s))
    (s : List α) : P s := by
  induction h : s.length using Nat.strong_induction_on generalizing s with
  | _ n ih =>
    cases s with
    | nil => exact nil
    | cons c t =>
      by_cases hpre : pat <+: c :: t
      · obtain ⟨u, hu⟩ := hpre
        have pos := List.length_pos_iff.mpr hpat
        have shorter : u.length < n := by
          rw [← h, ← hu, List.length_append]
          omega
        rw [← hu]
        exact occurrence u (ih u.length shorter u rfl)
      · exact letter c t hpre (ih t.length (by simp [← h]) t rfl)

theorem substitute_nil (hpat : pat ≠ []) (rep : List α) : substitute pat rep [] = [] := by
  rw [substitute, segments_nil hpat, List.intercalate_singleton]

theorem occurrences_nil (hpat : pat ≠ []) : occurrences pat [] = 0 := by
  rw [occurrences, segments_nil hpat]
  rfl

end Substitute

/-! ## One letter -/

section Letter

variable {a c : α} {s : List α}

omit [DecidableEq α] in
theorem singleton_prefix_cons : [a] <+: c :: s ↔ c = a := by
  simp [List.cons_prefix_cons, eq_comm]

theorem segments_singleton (a : α) (s : List α) : segments [a] s = s.splitOnP (· = a) := by
  induction s using letter_induction (List.cons_ne_nil a []) with
  | nil => rw [segments_nil (by simp), List.splitOnP_nil]
  | occurrence s ih =>
    rw [segments_append_left (by simp), ih, List.singleton_append,
      List.splitOnP_cons_eq_if_modifyHead, if_pos (by simp)]
  | letter c s h ih =>
    rw [segments_cons (by simp) h, ih, List.splitOnP_cons_eq_if_modifyHead,
      if_neg (by simpa using mt singleton_prefix_cons.mpr h)]

theorem occurrences_singleton (a : α) (s : List α) : occurrences [a] s = s.count a := by
  induction s using letter_induction (List.cons_ne_nil a []) with
  | nil => exact occurrences_nil (by simp)
  | occurrence s ih =>
    rw [occurrences_append_left (by simp), ih, List.singleton_append, List.count_cons_self]
  | letter c s h ih =>
    rw [occurrences_cons (by simp) h, ih, List.count_cons_of_ne (mt singleton_prefix_cons.mpr h)]

theorem substitute_singleton (a b : α) (s : List α) :
    substitute [a] [b] s = s.map fun c => if c = a then b else c := by
  induction s using letter_induction (List.cons_ne_nil a []) with
  | nil => exact substitute_nil (by simp) [b]
  | occurrence s ih =>
    rw [substitute_append_left (by simp), ih, List.singleton_append, List.singleton_append,
      List.map_cons, if_pos rfl]
  | letter c s h ih =>
    rw [substitute_cons (by simp) [b] h, ih, List.map_cons,
      if_neg (mt singleton_prefix_cons.mpr h)]

end Letter

end Segments
