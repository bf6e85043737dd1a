import LibMip.Text.FindAndReplace

/-!
# Splitting a string

`StringSplit` and the template `StringSplit_` are the same loop written twice, the second with a
cast of each word. The loop leaves out the empty word before a delimiter at the start, keeps those
between delimiters, and stops before the one after a delimiter at the end.

`loop_stringSplit_` describes the loop of the template from any position behind the first
delimiter; `stringSplit_eq` says that the other copy is the template with a cast that keeps the
word. Both together give the words as the segments of the string with the two ends trimmed.
-/

namespace LibMip

open CNum CString Segments Loops Loops.Comp

/-- The variables of the loops. -/
structure Search (T : Type) where
  searchPos : Nat
  results : List T

/-- One evaluation of the condition `search_pos <= str.size() - 1`, and of the body when it holds.
The loop is not entered with an empty string. -/
def stringSplitStep (str delim : Text) (s : Search Text) :
    Comp Fault (Search Text ⊕ List Text) :=
  if s.searchPos ≤ str.length - 1 then
    match find str delim s.searchPos with
    | none => do
      let word ← substrFrom str s.searchPos
      pure (.inr (s.results ++ [word]))
    | some delimPos =>
      if 0 < delimPos then do
        let word ← CString.substr str s.searchPos (delimPos - s.searchPos)
        pure (.inl ⟨delimPos + delim.length, s.results ++ [word]⟩)
      else pure (.inl ⟨delimPos + delim.length, s.results⟩)
  else pure (.inr s.results)

/-- `StringSplit`: the new contents of `*results`. -/
def stringSplit (str delim : Text) : Comp Fault (List Text) :=
  if str = [] then pure [] else loop (stringSplitStep str delim) ⟨0, []⟩

section Template

variable {T : Type} (castFromString : Text → Except Fault T)

/-- The body in the template. `cast_from_string<T>` is that of the type: it reads with its
`operator>>` and may return a variable that was never set. -/
def stringSplitStep_ (str delim : Text) (s : Search T) : Comp Fault (Search T ⊕ List T) :=
  if s.searchPos ≤ str.length - 1 then
    match find str delim s.searchPos with
    | none => do
      let word ← substrFrom str s.searchPos
      let value ← castFromString word
      pure (.inr (s.results ++ [value]))
    | some delimPos =>
      if 0 < delimPos then do
        let word ← CString.substr str s.searchPos (delimPos - s.searchPos)
        let value ← castFromString word
        pure (.inl ⟨delimPos + delim.length, s.results ++ [value]⟩)
      else pure (.inl ⟨delimPos + delim.length, s.results⟩)
  else pure (.inr s.results)

/-- `StringSplit_`. -/
def stringSplit_ (str delim : Text) : Comp Fault (List T) :=
  if str = [] then pure [] else loop (stringSplitStep_ castFromString str delim) ⟨0, []⟩

end Template

/-- The two copies agree: `cast_from_string<std::string>` keeps the word. -/
theorem stringSplit_eq (str delim : Text) : stringSplit str delim = stringSplit_ .ok str delim :=
  rfl

/-! ## Trimmed segments -/

/-- The list without its first element when that is empty. -/
def trimFirst (words : List Text) : List Text := if words.head? = some [] then words.tail else words

/-- The list without its last element when that is empty. -/
def trimLast (words : List Text) : List Text :=
  if words.getLast? = some [] then words.dropLast else words

theorem trimLast_cons (word : Text) {words : List Text} (h : words ≠ []) :
    trimLast (word :: words) = word :: trimLast words := by
  unfold trimLast
  rw [List.getLast?_cons_of_ne_nil h, List.dropLast_cons_of_ne_nil h]
  split <;> rfl

theorem trimLast_singleton {word : Text} (h : word ≠ []) : trimLast [word] = [word] := by
  simp [trimLast, h]

theorem trimFirst_nil_cons (words : List Text) : trimFirst ([] :: words) = words := by
  simp [trimFirst]

theorem trimFirst_cons {word : Text} (h : word ≠ []) (words : List Text) :
    trimFirst (word :: words) = word :: words := by
  simp [trimFirst, h]

/-- The words of the reference split. -/
def splitWords (delim str : Text) : List Text := trimLast (trimFirst (segments delim str))

/-! ## The loop -/

section Step

variable {T : Type} (castFromString : Text → Except Fault T) {delim rest : Text}
  (before : Text) (results : List T) {p : Nat}

/-- The condition of the loop holds at a position that is not behind the last character. -/
theorem inside_of_ne_nil (hrest : rest ≠ []) : before.length ≤ (before ++ rest).length - 1 := by
  have pos := List.length_pos_iff.mpr hrest
  rw [List.length_append]
  omega

theorem splitStep_of_none (hrest : rest ≠ []) (h : indexOf delim rest = none) :
    stringSplitStep_ castFromString (before ++ rest) delim ⟨before.length, results⟩ =
      (liftM (castFromString rest) >>= fun value => pure (.inr (results ++ [value]))) := by
  have inside := inside_of_ne_nil before hrest
  simp only [stringSplitStep_, if_pos inside, find_append, h, Option.map_none, substrFrom_append,
    liftM_ok_bind]

/-- A delimiter that is not at the start of the string. -/
theorem splitStep_of_some (hrest : rest ≠ []) (h : indexOf delim rest = some p)
    (inner : 0 < before.length + p) :
    stringSplitStep_ castFromString (before ++ rest) delim ⟨before.length, results⟩ =
      (liftM (castFromString (rest.take p)) >>= fun value =>
        pure (.inl ⟨before.length + p + delim.length, results ++ [value]⟩)) := by
  have inside := inside_of_ne_nil before hrest
  simp only [stringSplitStep_, if_pos inside, find_append, h, Option.map_some, if_pos inner,
    Nat.add_sub_cancel_left, substr_append, liftM_ok_bind]

/-- A delimiter at the start of the string. -/
theorem splitStep_of_start (h : indexOf delim rest = some 0) :
    stringSplitStep_ castFromString rest delim ⟨0, results⟩ =
      pure (.inl ⟨delim.length, results⟩) := by
  have found : find rest delim 0 = some 0 := by simp [find, h]
  simp [stringSplitStep_, found]

end Step

/-- The results so far followed by the words cast one by one, up to the first cast that faults. -/
def castWords {T : Type} (castFromString : Text → Except Fault T) (results : List T)
    (words : List Text) : Except Fault (List T) :=
  (words.mapM castFromString).map (results ++ ·)

section CastWords

variable {T : Type} {castFromString : Text → Except Fault T} (results : List T) {word : Text}
  (words : List Text)

theorem castWords_nil : castWords castFromString results [] = .ok results := by
  simp [castWords, Except.map, pure, Except.pure]

theorem castWords_nil_results :
    castWords castFromString [] words = words.mapM castFromString := by
  cases h : words.mapM castFromString <;> simp [castWords, h, Except.map]

theorem castWords_cons_of_error {e : Fault} (h : castFromString word = .error e) :
    castWords castFromString results (word :: words) = .error e := by
  simp [castWords, h, Except.map, bind, Except.bind]

theorem castWords_cons_of_ok {value : T} (h : castFromString word = .ok value) :
    castWords castFromString results (word :: words) =
      castWords castFromString (results ++ [value]) words := by
  cases rest : words.mapM castFromString <;>
    simp [castWords, h, rest, Except.map, bind, Except.bind, pure, Except.pure]

end CastWords

section Iteration

variable {T : Type} {castFromString : Text → Except Fault T} {delim rest : Text}
  (before : Text) (results : List T) {p : Nat}

/-- Without a further delimiter the rest is the last word. -/
theorem loop_ends_of_none (hrest : rest ≠ []) (h : indexOf delim rest = none) :
    (loop (stringSplitStep_ castFromString (before ++ rest) delim) ⟨before.length, results⟩).Ends
      (castWords castFromString results [rest]) := by
  have step := splitStep_of_none castFromString before results hrest h
  cases hcast : castFromString rest with
  | error e =>
    rw [hcast, liftM_error_bind] at step
    rw [castWords_cons_of_error results [] hcast]
    exact ends_loop_of_error step
  | ok value =>
    rw [hcast, liftM_ok_bind] at step
    rw [castWords_cons_of_ok results [] hcast, castWords_nil]
    exact ends_loop_of_done step

/-- A word before a delimiter, unless it is at the start of the string, then the words behind. -/
theorem loop_ends_of_some (hrest : rest ≠ []) (h : indexOf delim rest = some p)
    (inner : 0 < before.length + p) {words : List Text}
    (tail : ∀ results : List T, (loop (stringSplitStep_ castFromString (before ++ rest) delim)
      ⟨before.length + p + delim.length, results⟩).Ends (castWords castFromString results words)) :
    (loop (stringSplitStep_ castFromString (before ++ rest) delim) ⟨before.length, results⟩).Ends
      (castWords castFromString results (rest.take p :: words)) := by
  have step := splitStep_of_some castFromString before results hrest h inner
  cases hcast : castFromString (rest.take p) with
  | error e =>
    rw [hcast, liftM_error_bind] at step
    rw [castWords_cons_of_error results words hcast]
    exact ends_loop_of_error step
  | ok value =>
    rw [hcast, liftM_ok_bind] at step
    rw [castWords_cons_of_ok results words hcast]
    exact (ends_loop_of_next step).mpr (tail _)

/-- The string and the position behind an occurrence. -/
theorem behind (h : indexOf delim rest = some p) :
    before ++ rest = before ++ (rest.take p ++ delim) ++ rest.drop (p + delim.length) ∧
      before.length + p + delim.length = (before ++ (rest.take p ++ delim)).length := by
  have fits := indexOf_le h
  constructor
  · rw [List.append_assoc, List.append_assoc, ← indexOf_spec h]
  · rw [List.length_append, List.length_append, List.length_take]
    omega

end Iteration

section Loop

variable {T : Type} (castFromString : Text → Except Fault T) {delim : Text} (hdelim : delim ≠ [])

include hdelim

/-- From a position behind the first delimiter on, by induction along the search. -/
theorem loop_stringSplit_ends (rest : Text) {before : Text} (hbefore : before ≠ [])
    (results : List T) :
    (loop (stringSplitStep_ castFromString (before ++ rest) delim) ⟨before.length, results⟩).Ends
      (castWords castFromString results (trimLast (segments delim rest))) := by
  have ahead := List.length_pos_iff.mpr hbefore
  induction rest using search_induction hdelim generalizing before results with
  | none rest h =>
    rw [segments_of_none h]
    by_cases hrest : rest = []
    · subst hrest
      have outside : ¬ before.length ≤ (before ++ []).length - 1 := by
        rw [List.append_nil]
        omega
      have leave : stringSplitStep_ castFromString (before ++ []) delim
          ⟨before.length, results⟩ = pure (.inr results) := if_neg outside
      have empty : castWords castFromString results (trimLast [[]]) = .ok results :=
        castWords_nil results
      rw [empty]
      exact ends_loop_of_done leave
    · rw [trimLast_singleton hrest]
      exact loop_ends_of_none before results hrest h
  | some rest p h ih =>
    have hrest : rest ≠ [] := by
      rintro rfl
      simp [indexOf, hdelim] at h
    obtain ⟨whole, position⟩ := behind before h
    rw [segments_of_some hdelim h, trimLast_cons _ (segments_ne_nil _ _)]
    refine loop_ends_of_some before results hrest h (by omega) fun results => ?_
    have hnext : before ++ (rest.take p ++ delim) ≠ [] := by simp [hdelim]
    rw [whole, position]
    exact ih hnext results (List.length_pos_iff.mpr hnext)

/-- From the start of the string on. -/
theorem stringSplit_ends (str : Text) :
    (stringSplit_ castFromString str delim).Ends
      (castWords castFromString [] (splitWords delim str)) := by
  rw [splitWords, stringSplit_]
  by_cases hstr : str = []
  · rw [if_pos hstr, hstr, segments_nil hdelim]
    exact ends_pure.mpr (castWords_nil [])
  rw [if_neg hstr]
  cases h : indexOf delim str with
  | none =>
    rw [segments_of_none h, trimFirst_cons hstr, trimLast_singleton hstr]
    exact loop_ends_of_none [] [] hstr h
  | some p =>
    obtain ⟨whole, position⟩ := behind [] h
    have tail (results : List T) :
        (loop (stringSplitStep_ castFromString str delim)
          ⟨([] : Text).length + p + delim.length, results⟩).Ends
        (castWords castFromString results
          (trimLast (segments delim (str.drop (p + delim.length))))) := by
      have hnext : [] ++ (str.take p ++ delim) ≠ [] := by simp [hdelim]
      have behindFirst := loop_stringSplit_ends castFromString hdelim (str.drop (p + delim.length))
        hnext results
      rwa [← whole, ← position, List.nil_append] at behindFirst
    rw [segments_of_some hdelim h]
    cases p with
    | zero =>
      have step := splitStep_of_start castFromString [] h
      rw [List.take_zero, trimFirst_nil_cons]
      exact (ends_loop_of_next step).mpr (by simpa using tail [])
    | succ p =>
      have word : str.take (p + 1) ≠ [] := by simp [hstr]
      rw [trimFirst_cons word, trimLast_cons _ (segments_ne_nil _ _)]
      exact loop_ends_of_some [] [] hstr h (by omega) tail

end Loop

/-- The copy for strings keeps every word. -/
theorem stringSplit_returns {delim : Text} (hdelim : delim ≠ []) (str : Text) :
    (stringSplit str delim).Returns (splitWords delim str) := by
  have kept : castWords (.ok : Text → Except Fault Text) [] (splitWords delim str) =
      .ok (splitWords delim str) := by
    rw [castWords_nil_results]
    change (splitWords delim str).mapM (fun word => pure (id word)) = _
    rw [List.mapM_pure, List.map_id]
    rfl
  rw [Returns, ← kept, stringSplit_eq]
  exact stringSplit_ends .ok hdelim str

/-- Both copies split at the successive leftmost occurrences of the delimiter, and trim an empty
word at either end. -/
theorem stringSplit_refines {delim : Text} (hdelim : delim ≠ []) (str : Text) :
    delim.intercalate (segments delim str) = str ∧
      (stringSplit str delim).Returns (splitWords delim str) ∧
      ∀ (T : Type) (castFromString : Text → Except Fault T),
        (stringSplit_ castFromString str delim).Ends
          ((splitWords delim str).mapM castFromString) := by
  refine ⟨intercalate_segments hdelim str, stringSplit_returns hdelim str, ?_⟩
  intro T castFromString
  have ends := stringSplit_ends castFromString hdelim str
  rwa [castWords_nil_results] at ends

/-- A delimiter of two characters that overlaps itself. -/
theorem stringSplit_refines_overlapping :
    "aa".toList.intercalate (segments "aa".toList "aaaba".toList) = "aaaba".toList ∧
      (stringSplit "aaaba".toList "aa".toList).Returns
        (splitWords "aa".toList "aaaba".toList) ∧
      ∀ (T : Type) (castFromString : Text → Except Fault T),
        (stringSplit_ castFromString "aaaba".toList "aa".toList).Ends
          ((splitWords "aa".toList "aaaba".toList).mapM castFromString) :=
  stringSplit_refines (by decide) _

end LibMip
