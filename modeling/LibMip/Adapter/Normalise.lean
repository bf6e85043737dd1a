import LibMip.Foundation.Words
import LibMip.Text.StringSplit

/-!
# Words of a command output

Before it looks for an address, `bluetooth_mac2device` replaces newlines and tabs by spaces, makes
two spaces next to each other one until there are no such spaces left, and splits at the spaces.

Each pass of the last loop takes a character from the text for every pair it finds, so the passes
end, with the words of the text as the segments between single spaces. `tokenises_iff` says that
this holds of every text on which none of the counts runs over.
-/

namespace LibMip

open CNum Segments Words Loops Loops.Comp

/-- `while (find_and_replace(result, "  ", " ")) {}`, one evaluation of the condition. -/
def squeezeStep (result : Text) : Comp Fault (Text ⊕ Text) := do
  let (result, found) ← findAndReplace result [' ', ' '] [' ']
  if found ≠ 0 then pure (.inl result) else pure (.inr result)

/-- The text with its white space normalised. -/
def normalise (result : Text) : Comp Fault Text := do
  let (result, _) ← findAndReplace result ['\n'] [' ']
  let (result, _) ← findAndReplace result ['\t'] [' ']
  loop squeezeStep result

/-- The three characters that separate words. -/
def isBlank (c : Char) : Bool := c = ' ' || c = '\n' || c = '\t'

/-- The text after the first two calls. -/
def spaces (text : Text) : Text := text.map fun c => if isBlank c then ' ' else c

/-- No call counts past the greatest `int`. -/
structure Countable (text : Text) : Prop where
  newlines : text.count '\n' ≤ 2147483647
  tabs : text.count '\t' ≤ 2147483647
  spacePairs : pairCount ' ' (spaces text) ≤ 2147483647

/-- The passes end without two spaces next to each other, and with the words of the text. -/
theorem loop_squeezeStep_returns {t : Text} (room : pairCount ' ' t ≤ 2147483647) :
    ∃ r, (loop squeezeStep t).Returns r ∧ ¬ [' ', ' '] <:+: r ∧
      tokens (· = ' ') r = tokens (· = ' ') t := by
  induction h : t.length using Nat.strong_induction_on generalizing t with
  | _ n ih =>
    have pass :
        (findAndReplace t [' ', ' '] [' ']).Returns (squeeze ' ' t, (pairCount ' ' t : Int)) :=
      findAndReplace_returns (by simp) [' '] room
    by_cases none : pairCount ' ' t = 0
    · refine ⟨t, (ends_loop_done (returns_bind.mpr ⟨_, pass, ?_⟩)).mpr rfl,
        not_pair_of_pairCount none, rfl⟩
      simp [none, squeeze_of_pairCount none]
    · have shorter : (squeeze ' ' t).length < n := by
        have := length_squeeze ' ' t
        omega
      obtain ⟨r, returns, noPair, same⟩ :=
        ih _ shorter ((pairCount_squeeze_le ' ' t).trans room) rfl
      refine ⟨r, (ends_loop_next (returns_bind.mpr ⟨_, pass, ?_⟩)).mpr returns, noPair, ?_⟩
      · simp [none]
      · rw [same, tokens_squeeze (by simp)]

/-- The first two calls. -/
theorem spaces_eq (text : Text) :
    substitute ['\t'] [' '] (substitute ['\n'] [' '] text) = spaces text := by
  rw [substitute_singleton, substitute_singleton, List.map_map, spaces]
  apply List.map_congr_left
  intro c _
  by_cases newline : c = '\n'
  · simp [newline, isBlank]
  · by_cases tab : c = '\t' <;> simp [newline, tab, isBlank]

/-- The tabs are left by the first call. -/
theorem count_tab_substitute (text : Text) :
    (substitute ['\n'] [' '] text).count '\t' = text.count '\t' := by
  rw [substitute_singleton]
  induction text with
  | nil => rfl
  | cons c text ih => by_cases newline : c = '\n' <;> simp [newline, List.count_cons, ih]

theorem normalise_returns {text : Text} (room : Countable text) :
    ∃ r, (normalise text).Returns r ∧ ¬ [' ', ' '] <:+: r ∧
      tokens (· = ' ') r = tokens isBlank text := by
  have newlines : occurrences ['\n'] text ≤ 2147483647 :=
    (occurrences_singleton _ _).trans_le room.newlines
  have tabs : occurrences ['\t'] (substitute ['\n'] [' '] text) ≤ 2147483647 := by
    rw [occurrences_singleton, count_tab_substitute]
    exact room.tabs
  obtain ⟨r, returns, noPair, same⟩ := loop_squeezeStep_returns room.spacePairs
  refine ⟨r, returns_bind.mpr ⟨_, findAndReplace_returns (by simp) [' '] newlines,
    returns_bind.mpr ⟨_, findAndReplace_returns (by simp) [' '] tabs, ?_⟩⟩, noPair, ?_⟩
  · rwa [← spaces_eq] at returns
  · rw [same]
    apply tokens_map
    · intro c
      by_cases hc : isBlank c
      · simp [hc]
      · have notSpace : c ≠ ' ' := by
          rintro rfl
          exact hc rfl
        simp [hc, notSpace]
    · intro c hc
      simp [hc]

theorem countable_of_normalise_returns {text r : Text} (h : (normalise text).Returns r) :
    Countable text := by
  obtain ⟨⟨t₁, n₁⟩, first, h⟩ := returns_bind.mp h
  obtain ⟨⟨t₂, n₂⟩, second, h⟩ := returns_bind.mp h
  have newlines := room_of_findAndReplace_returns (by simp) [' '] first
  obtain ⟨rfl, rfl⟩ := Prod.mk.inj (first.unique (findAndReplace_returns (by simp) [' '] newlines))
  have tabs := room_of_findAndReplace_returns (by simp) [' '] second
  obtain ⟨rfl, rfl⟩ := Prod.mk.inj (second.unique (findAndReplace_returns (by simp) [' '] tabs))
  rw [spaces_eq] at h
  obtain ⟨x, step, -⟩ := returns_bind.mp (ends_loop.mp h)
  obtain ⟨t₃, third, -⟩ := returns_bind.mp step
  rw [occurrences_singleton] at newlines tabs
  rw [count_tab_substitute] at tabs
  exact ⟨newlines, tabs, room_of_findAndReplace_returns (by simp) [' '] third⟩

/-! ## The split -/

/-- The filter of `tokens`. -/
theorem trimLast_cons_eq_filter {word : Text} {words : List Text} (ne : word ≠ [])
    (h : trimLast words = words.filter fun w => !w.isEmpty) :
    trimLast (word :: words) = (word :: words).filter fun w => !w.isEmpty := by
  have keep : (word :: words).filter (fun w => !w.isEmpty) =
      word :: words.filter fun w => !w.isEmpty := by
    simp [ne]
  rw [keep, ← h]
  by_cases last : words = []
  · subst last
    simp [trimLast, ne]
  · exact trimLast_cons word last

/-- The segment at the start is empty only in the empty text and before a space. -/
theorem head_of_splitOnP {r : Text} {rest : List Text} (cut : r.splitOnP (· = ' ') = [] :: rest) :
    ∀ c ∈ r.head?, c = ' ' := by
  cases r with
  | nil => simp
  | cons d r =>
    by_contra notSpace
    have hd : d ≠ ' ' := by simpa using notSpace
    obtain ⟨first, tail, cut'⟩ := List.exists_cons_of_ne_nil (List.splitOnP_ne_nil (· = ' ') r)
    rw [List.splitOnP_cons_eq_if_modifyHead, if_neg (by simpa using hd), cut',
      List.modifyHead_cons] at cut
    cases (List.cons.inj cut).1

/-- Behind the first of them, the segments between single spaces are empty at the end only. -/
theorem trimLast_tail_splitOnP {r : Text} (h : ¬ [' ', ' '] <:+: r) :
    trimLast (r.splitOnP (· = ' ')).tail =
      (r.splitOnP (· = ' ')).tail.filter fun w => !w.isEmpty := by
  induction r with
  | nil => simp [trimLast]
  | cons c r ih =>
    rw [List.infix_cons_iff, not_or] at h
    have behind := ih h.2
    obtain ⟨first, rest, cut⟩ := List.exists_cons_of_ne_nil (List.splitOnP_ne_nil (· = ' ') r)
    rw [cut, List.tail_cons] at behind
    by_cases hc : c = ' '
    · rw [List.splitOnP_cons_eq_if_modifyHead, if_pos (by simpa using hc), List.tail_cons, cut]
      by_cases ne : first = []
      · subst ne
        -- the segment behind a space is empty only at the end, as no space follows
        obtain rfl : r = [] := by
          cases r with
          | nil => rfl
          | cons d r =>
            obtain rfl : d = ' ' := head_of_splitOnP cut d rfl
            exact absurd (pair_prefix_cons.mpr ⟨hc, rfl⟩) h.1
        rw [List.splitOnP_nil] at cut
        obtain rfl := (List.cons.inj cut).2
        rfl
      · exact trimLast_cons_eq_filter ne behind
    · rw [List.splitOnP_cons_eq_if_modifyHead, if_neg (by simpa using hc), cut,
        List.modifyHead_cons, List.tail_cons]
      exact behind

/-- Between single spaces only the two ends can be empty words. -/
theorem splitWords_space {r : Text} (h : ¬ [' ', ' '] <:+: r) :
    splitWords [' '] r = tokens (· = ' ') r := by
  obtain ⟨first, rest, cut⟩ := List.exists_cons_of_ne_nil (List.splitOnP_ne_nil (· = ' ') r)
  have behind := trimLast_tail_splitOnP h
  rw [splitWords, segments_singleton, tokens, cut]
  rw [cut, List.tail_cons] at behind
  by_cases ne : first = []
  · subst ne
    rw [trimFirst_nil_cons, behind]
    simp
  · rw [trimFirst_cons ne]
    exact trimLast_cons_eq_filter ne behind

/-- The part of `bluetooth_mac2device` between the command and the search. -/
def splitIntoWords (text : Text) : Comp Fault (List Text) := do
  let result ← normalise text
  stringSplit result [' ']

/-- Normalising and splitting finds the words of the text, by way of a text without two spaces
next to each other. -/
def Tokenises (text : Text) : Prop :=
  ∃ result words, (normalise text).Returns result ∧ ¬ [' ', ' '] <:+: result ∧
    (stringSplit result [' ']).Returns words ∧ Spaced isBlank text words

theorem splitIntoWords_returns {text : Text} (room : Countable text) :
    (splitIntoWords text).Returns (tokens isBlank text) := by
  obtain ⟨r, returns, noPair, same⟩ := normalise_returns room
  refine returns_bind.mpr ⟨r, returns, ?_⟩
  rw [← same, ← splitWords_space noPair]
  exact stringSplit_returns (by simp) r

theorem tokenises_iff (text : Text) : Tokenises text ↔ Countable text := by
  constructor
  · rintro ⟨result, words, returns, -⟩
    exact countable_of_normalise_returns returns
  · intro room
    obtain ⟨r, returns, noPair, same⟩ := normalise_returns room
    refine ⟨r, _, returns, noPair, stringSplit_returns (by simp) r, spaced_iff.mpr ?_⟩
    rw [splitWords_space noPair, same]

/-- As many newlines as make the first count run over. -/
theorem not_tokenises_of_two_pow : ¬ Tokenises (List.replicate 2147483648 '\n') := by
  rintro ⟨result, words, returns, -⟩
  have newlines := (countable_of_normalise_returns returns).newlines
  rw [List.count_replicate_self] at newlines
  exact absurd newlines (by decide)

end LibMip
