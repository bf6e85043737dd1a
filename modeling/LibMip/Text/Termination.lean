import LibMip.Text.StringSplit

/-!
# Termination of the string utilities

Nothing in the three loops keeps the delimiter or the pattern from being empty. An empty delimiter
is found at the position the search starts from, and the loops of the split go on from that same
position. An empty pattern is found behind every replacement, and the loop of `find_and_replace`
goes on until its count runs over. `finish_iff` says that these calls, and those that count more
occurrences than an `int` holds, are the only ones that do not finish.
-/

namespace LibMip

open CNum CString Segments Loops Loops.Comp

/-- The loops of `StringSplit`, of `StringSplit_` for every type, and of `find_and_replace` are
left after finitely many iterations. A fault of a cast ends the loop it is in; a count that runs
over is no way to finish. -/
structure Finish (str delim pattern rep : Text) : Prop where
  split : ∃ words, (stringSplit str delim).Returns words
  splitCast : ∀ (T : Type) (castFromString : Text → Except Fault T),
    ∃ r, (stringSplit_ castFromString str delim).Ends r
  replace : ∃ r, (findAndReplace str pattern rep).Returns r

/-- With an empty delimiter the loop stays where it is. -/
theorem not_stringSplit_ends_of_empty {T : Type} {castFromString : Text → Except Fault T}
    {str : Text} (hstr : str ≠ []) {r : Except Fault (List T)} :
    ¬ (stringSplit_ castFromString str []).Ends r := by
  rw [stringSplit_, if_neg hstr]
  refine not_ends_loop (I := fun s => s.searchPos = 0) ?_ rfl
  rintro ⟨_, results⟩ rfl
  exact ⟨⟨0, results⟩, (splitStep_of_start castFromString results (indexOf_nil_left str)) ▸
    returns_pure.mpr rfl, rfl⟩

/-- With an empty pattern the cursor never reaches a position from which nothing is found. -/
theorem not_findAndReplace_returns_of_empty {str rep : Text} {r : Text × Int} :
    ¬ (findAndReplace str [] rep).Returns r := by
  refine not_returns_loop (I := fun c => ∃ done rest, c.stringToReplace = done ++ rest ∧
    c.j = done.length) ?_ ⟨[], str, rfl, rfl⟩
  rintro ⟨_, _, n⟩ x ⟨done, rest, rfl, rfl⟩ step
  rw [findAndReplaceStep_of_some rep done n (indexOf_nil_left rest), returns_bind] at step
  obtain ⟨n', -, step⟩ := step
  exact ⟨_, returns_pure.mp step, _, _, rfl, rfl⟩

theorem finish_iff (str delim pattern rep : Text) :
    Finish str delim pattern rep ↔
      (str = [] ∨ delim ≠ []) ∧ pattern ≠ [] ∧ occurrences pattern str ≤ 2147483647 := by
  constructor
  · rintro ⟨⟨words, split⟩, -, r, replace⟩
    have hpattern : pattern ≠ [] := by
      rintro rfl
      exact not_findAndReplace_returns_of_empty replace
    refine ⟨?_, hpattern, room_of_findAndReplace_returns hpattern rep replace⟩
    by_contra none
    obtain ⟨hstr, rfl⟩ : str ≠ [] ∧ delim = [] := by simpa using none
    rw [stringSplit_eq] at split
    exact not_stringSplit_ends_of_empty hstr split
  · rintro ⟨hsplit, hpattern, room⟩
    refine ⟨?_, ?_, _, findAndReplace_returns hpattern rep room⟩
    · rcases hsplit with rfl | hdelim
      · exact ⟨[], returns_pure.mpr rfl⟩
      · exact ⟨_, stringSplit_returns hdelim str⟩
    · intro T castFromString
      rcases hsplit with rfl | hdelim
      · exact ⟨_, ends_pure.mpr rfl⟩
      · exact ⟨_, stringSplit_ends castFromString hdelim str⟩

/-- One character split at the empty string. -/
theorem not_finish_empty_delimiter : ¬ Finish ['a'] [] ['a'] ['b'] := by
  rintro ⟨⟨words, split⟩, -, -⟩
  rw [stringSplit_eq] at split
  exact not_stringSplit_ends_of_empty (by decide) split

end LibMip
