import LibMip.Foundation.CString
import LibMip.Foundation.Loops

/-!
# Finding and replacing

`find_and_replace` changes a string while it looks through it: at each occurrence it replaces the
pattern and goes on after the replacement. The number of occurrences is counted in an `int`, and
counting past its greatest value is undefined.

The cursor splits the string into a part that is done and a suffix of the string it was given.
`findAndReplace_ends` follows from that, and says what comes of every call whose pattern is not
empty.
-/

namespace LibMip

open CNum CString Segments Loops Loops.Comp

/-- A `std::string`. -/
abbrev Text := List Char

/-- The variables of the loop. -/
structure Cursor where
  stringToReplace : Text
  j : Nat
  nbFoundTimes : Int

section Loop

variable (pattern patternReplacement : Text)

/-- One evaluation of the condition `(j = stringToReplace.find(pattern, j)) != npos`, and of the
body when it holds. -/
def findAndReplaceStep (c : Cursor) : Comp Fault (Cursor ⊕ Text × Int) :=
  match find c.stringToReplace pattern c.j with
  | none => pure (.inr (c.stringToReplace, c.nbFoundTimes))
  | some j => do
    let stringToReplace ← replace c.stringToReplace j pattern.length patternReplacement
    let nbFoundTimes ← addInt c.nbFoundTimes 1
    pure (.inl ⟨stringToReplace, j + patternReplacement.length, nbFoundTimes⟩)

end Loop

/-- The changed string and the count. -/
def findAndReplace (stringToReplace pattern patternReplacement : Text) : Comp Fault (Text × Int) :=
  loop (findAndReplaceStep pattern patternReplacement) ⟨stringToReplace, 0, 0⟩

example : (findAndReplace "aaa-a".toList "a".toList "ba".toList).run 5 =
    some (.ok ("bababa-ba".toList, 4)) := by decide

section Step

variable {pattern rest : Text} (rep done : Text) (n : Int) {p : Nat}

theorem findAndReplaceStep_of_none (h : indexOf pattern rest = none) :
    findAndReplaceStep pattern rep ⟨done ++ rest, done.length, n⟩ =
      pure (.inr (done ++ rest, n)) := by
  simp [findAndReplaceStep, find_append, h]

/-- An occurrence is replaced, and the cursor put behind the replacement. -/
theorem findAndReplaceStep_of_some (h : indexOf pattern rest = some p) :
    findAndReplaceStep pattern rep ⟨done ++ rest, done.length, n⟩ =
      (liftM (addInt n 1) >>= fun n' =>
        pure (.inl ⟨done ++ (rest.take p ++ rep) ++ rest.drop (p + pattern.length),
          (done ++ (rest.take p ++ rep)).length, n'⟩)) := by
  have fits := indexOf_le h
  have found : find (done ++ rest) pattern done.length = some (done.length + p) := by
    rw [find_append, h, Option.map_some]
  have replaced : replace (done ++ rest) (done.length + p) pattern.length rep =
      .ok (done ++ (rest.take p ++ rep) ++ rest.drop (p + pattern.length)) :=
    replace_append _ _ _ (by omega)
  have cursor : (done ++ (rest.take p ++ rep)).length = done.length + p + rep.length := by
    rw [List.length_append, List.length_append, List.length_take]
    omega
  rw [cursor]
  simp only [findAndReplaceStep, found, replaced, liftM_ok_bind]

end Step

/-- The cursor is between a part that is done and a suffix of `s`, and the whole replacement of `s`
is the first with the replacement of the second. -/
structure Cursor.Between (pattern rep s : Text) (c : Cursor) (done rest : Text) : Prop where
  whole : c.stringToReplace = done ++ rest
  position : c.j = done.length
  suffix : rest <:+ s
  same : substitute pattern rep s = done ++ substitute pattern rep rest

section Spec

variable {pattern : Text} (hpat : pattern ≠ []) (rep : Text)

include hpat

/-- What comes of the loop from a cursor on, by induction along the search in the suffix. -/
theorem loop_findAndReplaceStep_ends (rest done : Text) {n : Int} (hn : 0 ≤ n ∧ n ≤ 2147483647) :
    (loop (findAndReplaceStep pattern rep) ⟨done ++ rest, done.length, n⟩).Ends
      (if n + occurrences pattern rest ≤ 2147483647 then
        .ok (done ++ substitute pattern rep rest, n + occurrences pattern rest)
      else .error .signedOverflow) := by
  induction rest using search_induction hpat generalizing done n with
  | none rest h =>
    rw [substitute_of_none h, occurrences_of_none h, Nat.cast_zero, add_zero, if_pos hn.2]
    exact ends_loop_of_done (findAndReplaceStep_of_none rep done n h)
  | some rest p h ih =>
    have step := findAndReplaceStep_of_some rep done n h
    by_cases room : n + 1 ≤ 2147483647
    · have added : addInt n 1 = .ok (n + 1) := addInt_of_mem ⟨by omega, room⟩
      rw [added, liftM_ok_bind] at step
      apply (ends_loop_of_next step).mpr
      have tail := ih (done ++ (rest.take p ++ rep)) (n := n + 1) ⟨by omega, room⟩
      rw [substitute_of_some hpat h, occurrences_of_some hpat h]
      simpa only [Nat.cast_add, Nat.cast_one, add_assoc, add_comm (1 : Int), List.append_assoc]
        using tail
    · have overflow : addInt n 1 = .error .signedOverflow := if_neg (by omega)
      rw [overflow, liftM_error_bind] at step
      rw [if_neg]
      · exact ends_loop_of_error step
      · rw [occurrences_of_some hpat h]
        push_cast
        omega

theorem findAndReplace_ends (s : Text) :
    (findAndReplace s pattern rep).Ends
      (if occurrences pattern s ≤ 2147483647 then
        .ok (substitute pattern rep s, (occurrences pattern s : Int))
      else .error .signedOverflow) := by
  have ends := loop_findAndReplaceStep_ends hpat rep s [] (n := 0) (by decide)
  simp only [List.nil_append, List.length_nil, zero_add, Nat.cast_le_ofNat] at ends
  exact ends

theorem findAndReplace_returns {s : Text} (room : occurrences pattern s ≤ 2147483647) :
    (findAndReplace s pattern rep).Returns
      (substitute pattern rep s, (occurrences pattern s : Int)) := by
  have ends := findAndReplace_ends hpat rep s
  rwa [if_pos room] at ends

/-- A call that returns has counted every occurrence. -/
theorem room_of_findAndReplace_returns {s : Text} {r : Text × Int}
    (h : (findAndReplace s pattern rep).Returns r) : occurrences pattern s ≤ 2147483647 := by
  by_contra full
  have ends := findAndReplace_ends hpat rep s
  rw [if_neg full] at ends
  cases ends.unique h

/-- Every iteration starts between two such parts. -/
theorem exists_between {s : Text} {c : Cursor}
    (h : Reaches (findAndReplaceStep pattern rep) ⟨s, 0, 0⟩ c) :
    ∃ done rest, c.Between pattern rep s done rest := by
  refine Reaches.invariant
    (I := fun c : Cursor => ∃ done rest, c.Between pattern rep s done rest) ?_
    ⟨[], s, rfl, rfl, List.suffix_rfl, rfl⟩ h
  rintro ⟨_, _, n⟩ t ⟨done, rest, rfl, rfl, suffix, same⟩ step
  cases hp : indexOf pattern rest with
  | none =>
    rw [findAndReplaceStep_of_none rep done n hp, returns_pure] at step
    cases step
  | some p =>
    rw [findAndReplaceStep_of_some rep done n hp, returns_bind] at step
    obtain ⟨n', -, step⟩ := step
    obtain rfl := Sum.inl.inj (returns_pure.mp step)
    refine ⟨_, _, rfl, rfl, (List.drop_suffix _ _).trans suffix, ?_⟩
    rw [same, substitute_of_some hpat hp, ← List.append_assoc]

end Spec

/-- One substitution from left to right: the loop ends with the segments joined with the
replacement and with the number of occurrences. What is searched is always a suffix of the given
string, and what lies before the cursor is final. -/
structure ReplacesOnce (s pattern rep : Text) : Prop where
  untouched : ∀ c, Reaches (findAndReplaceStep pattern rep) ⟨s, 0, 0⟩ c →
    ∃ done rest, c.stringToReplace = done ++ rest ∧ c.j = done.length ∧ rest <:+ s ∧
      done <+: rep.intercalate (segments pattern s)
  returns : ∃ result : Text, ∃ count : Int,
    (findAndReplace s pattern rep).Returns (result, count) ∧
    result = rep.intercalate (segments pattern s) ∧ count = (segments pattern s).length - 1 ∧
    (result.length : Int) = s.length + count * ((rep.length : Int) - pattern.length)

/-- The call is one substitution exactly when the number of occurrences is an `int`. -/
theorem replacesOnce_iff {pattern : Text} (hpat : pattern ≠ []) (s rep : Text) :
    ReplacesOnce s pattern rep ↔ occurrences pattern s ≤ 2147483647 := by
  constructor
  · rintro ⟨-, result, count, returns, -⟩
    exact room_of_findAndReplace_returns hpat rep returns
  · intro room
    have pos := List.length_pos_iff.mpr (segments_ne_nil pattern s)
    refine ⟨fun c reached => ?_, _, _, findAndReplace_returns hpat rep room, rfl, ?_,
      length_substitute hpat rep s⟩
    · obtain ⟨done, rest, between⟩ := exists_between hpat rep reached
      exact ⟨done, rest, between.whole, between.position, between.suffix, _, between.same.symm⟩
    · rw [occurrences]
      omega

/-- The pattern again in its replacement. -/
theorem replacesOnce_iff_doubling :
    ReplacesOnce "a-a".toList "a".toList "aa".toList ↔
      occurrences "a".toList "a-a".toList ≤ 2147483647 :=
  replacesOnce_iff (by decide) _ _

/-- As many letters as make the count run over. -/
theorem not_replacesOnce_of_two_pow :
    ¬ ReplacesOnce (List.replicate 2147483648 'a') ['a'] [] := by
  rintro ⟨-, result, count, returns, -⟩
  have room := room_of_findAndReplace_returns (by decide) [] returns
  rw [occurrences_singleton, List.count_replicate_self] at room
  exact absurd room (by decide)

end LibMip
