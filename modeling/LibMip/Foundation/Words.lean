import LibMip.Foundation.Segments

/-!
# Words between blanks

The words of a text are its maximal runs of letters that are not blank. `Spaced` says so: a text
is made of blanks and of words that end where the text does or at a blank. `tokens` computes them,
and `spaced_iff` says that it computes just them.

The words do not change when blanks are exchanged for blanks, nor when two blanks next to each
other are made one, which is what `squeeze` stands for: one pass over the text that takes the pairs
as it finds them.
-/

namespace Words

open Segments

variable {α : Type*}

/-- The text consists of the words in order, each one maximal, and of blanks. -/
inductive Spaced (blank : α → Bool) : List α → List (List α) → Prop
  | nil : Spaced blank [] []
  | blank {b : α} {s : List α} {ws : List (List α)} (hb : blank b = true)
      (hs : Spaced blank s ws) : Spaced blank (b :: s) ws
  | word {w s : List α} {ws : List (List α)} (ne : w ≠ []) (solid : ∀ c ∈ w, blank c = false)
      (stop : ∀ c ∈ s.head?, blank c = true) (hs : Spaced blank s ws) :
      Spaced blank (w ++ s) (w :: ws)

def tokens (blank : α → Bool) (s : List α) : List (List α) :=
  (s.splitOnP blank).filter fun w => !w.isEmpty

section Tokens

variable {blank : α → Bool} {b c : α} {s t w : List α}

@[simp] theorem tokens_nil : tokens blank [] = [] := by simp [tokens]

theorem tokens_cons_of_blank (hb : blank b = true) : tokens blank (b :: s) = tokens blank s := by
  simp [tokens, List.splitOnP_cons_eq_if_modifyHead, hb]

/-- A letter belongs to the first word exactly when the text goes on with a letter. -/
theorem tokens_cons_of_not_blank (hc : blank c = false) :
    tokens blank (c :: s) =
      if ∀ x ∈ s.head?, blank x = true then [c] :: tokens blank s
      else (tokens blank s).modifyHead (c :: ·) := by
  unfold tokens
  rw [List.splitOnP_cons_eq_if_modifyHead, if_neg (by simp [hc])]
  cases s with
  | nil => simp
  | cons x s =>
    rw [List.splitOnP_cons_eq_if_modifyHead]
    obtain ⟨first, rest, cut⟩ := List.exists_cons_of_ne_nil (List.splitOnP_ne_nil blank s)
    cases hx : blank x <;> simp [cut, hx]

/-- Texts that start alike and have the same words have them behind a letter as well. -/
theorem tokens_cons_congr (head : s.head? = t.head?) (same : tokens blank s = tokens blank t) :
    tokens blank (c :: s) = tokens blank (c :: t) := by
  cases hc : blank c with
  | true => rw [tokens_cons_of_blank hc, tokens_cons_of_blank hc, same]
  | false => rw [tokens_cons_of_not_blank hc, tokens_cons_of_not_blank hc, head, same]

theorem tokens_append (ne : w ≠ []) (solid : ∀ c ∈ w, blank c = false)
    (stop : ∀ c ∈ s.head?, blank c = true) : tokens blank (w ++ s) = w :: tokens blank s := by
  cases s with
  | nil => simp [tokens, List.splitOnP_eq_singleton solid, ne]
  | cons b s =>
    have hb : blank b = true := stop b rfl
    rw [tokens_cons_of_blank hb, tokens, List.splitOnP_append_cons_of_forall_mem solid b hb]
    simp [tokens, ne]

theorem spaced_tokens (blank : α → Bool) (s : List α) : Spaced blank s (tokens blank s) := by
  induction s with
  | nil =>
    rw [tokens_nil]
    exact .nil
  | cons c s ih =>
    cases hc : blank c with
    | true =>
      rw [tokens_cons_of_blank hc]
      exact .blank hc ih
    | false =>
      rw [tokens_cons_of_not_blank hc]
      split_ifs with stop
      · exact .word (w := [c]) (by simp) (by simpa using hc) stop ih
      · generalize tokens blank s = ws at ih
        -- the text goes on with a letter, so its first word does, too
        cases ih with
        | nil => simp at stop
        | blank hb _ => simp [hb] at stop
        | @word w s ws ne solid stop' hs =>
          have solid' : ∀ x ∈ c :: w, blank x = false := by simpa [hc] using solid
          exact .word (w := c :: w) (by simp) solid' stop' hs

theorem spaced_iff {ws : List (List α)} : Spaced blank s ws ↔ ws = tokens blank s := by
  constructor
  · intro h
    induction h with
    | nil => exact tokens_nil.symm
    | blank hb _ ih => rw [tokens_cons_of_blank hb, ih]
    | word ne solid stop _ ih => rw [tokens_append ne solid stop, ih]
  · rintro rfl
    exact spaced_tokens blank s

/-- Blanks may be exchanged for blanks. -/
theorem tokens_map {blank' : α → Bool} {f : α → α} (agree : ∀ c, blank' (f c) = blank c)
    (keep : ∀ c, blank c = false → f c = c) (s : List α) :
    tokens blank' (s.map f) = tokens blank s := by
  have cut : (s.map f).splitOnP blank' = s.splitOnP blank := by
    induction s with
    | nil => simp
    | cons c s ih =>
      rw [List.map_cons, List.splitOnP_cons_eq_if_modifyHead, List.splitOnP_cons_eq_if_modifyHead,
        ih, agree]
      cases hc : blank c with
      | true => rfl
      | false => rw [keep c hc]
  rw [tokens, cut, tokens]

end Tokens

/-! ## Squeezing blanks -/

section Squeeze

variable [DecidableEq α] {blank : α → Bool} {b c : α} {s : List α}

/-- Two blanks found next to each other are made one. -/
def squeeze (b : α) (s : List α) : List α := substitute [b, b] [b] s

/-- Number of pairs that are found. -/
def pairCount (b : α) (s : List α) : Nat := occurrences [b, b] s

omit [DecidableEq α] in
theorem pair_prefix_cons : [b, b] <+: c :: s ↔ c = b ∧ s.head? = some b := by
  cases s <;> simp [List.cons_prefix_cons, eq_comm]

theorem squeeze_pair (b : α) (s : List α) : squeeze b (b :: b :: s) = b :: squeeze b s :=
  substitute_append_left (by simp) [b] s

theorem squeeze_cons (h : ¬ [b, b] <+: c :: s) : squeeze b (c :: s) = c :: squeeze b s :=
  substitute_cons (by simp) [b] h

theorem pairCount_pair (b : α) (s : List α) : pairCount b (b :: b :: s) = pairCount b s + 1 :=
  occurrences_append_left (by simp) s

theorem pairCount_cons (h : ¬ [b, b] <+: c :: s) : pairCount b (c :: s) = pairCount b s :=
  occurrences_cons (by simp) h

/-- Induction on a text, two blanks at a time. -/
theorem pair_induction (b : α) {P : List α → Prop} (nil : P [])
    (pair : ∀ s, P s → P (b :: b :: s))
    (cons : ∀ c s, ¬ [b, b] <+: c :: s → P s → P (c :: s)) (s : List α) : P s :=
  letter_induction (List.cons_ne_nil b [b]) nil pair cons s

theorem head_squeeze (b : α) (s : List α) : (squeeze b s).head? = s.head? := by
  induction s using pair_induction b with
  | nil => rw [squeeze, substitute_nil (by simp)]
  | pair s _ => rw [squeeze_pair, List.head?_cons, List.head?_cons]
  | cons c s h _ => rw [squeeze_cons h, List.head?_cons, List.head?_cons]

theorem tokens_squeeze (hb : blank b = true) (s : List α) :
    tokens blank (squeeze b s) = tokens blank s := by
  induction s using pair_induction b with
  | nil => rw [squeeze, substitute_nil (by simp)]
  | pair s ih =>
    rw [squeeze_pair, tokens_cons_of_blank hb, tokens_cons_of_blank hb, tokens_cons_of_blank hb, ih]
  | cons c s h ih =>
    rw [squeeze_cons h]
    exact tokens_cons_congr (head_squeeze b s) ih

/-- One more letter makes at most one more pair, and no fewer. -/
theorem pairCount_le_cons (b c : α) (s : List α) :
    pairCount b s ≤ pairCount b (c :: s) ∧ pairCount b (c :: s) ≤ pairCount b s + 1 := by
  induction s generalizing c with
  | nil =>
    have h : ¬ [b, b] <+: [c] := by simp
    rw [pairCount_cons h]
    omega
  | cons d s ih =>
    by_cases h : [b, b] <+: c :: d :: s
    · obtain ⟨rfl, hd⟩ := pair_prefix_cons.mp h
      obtain rfl : d = c := by simpa using hd
      have := ih d
      rw [pairCount_pair]
      omega
    · rw [pairCount_cons h]
      omega

/-- A pass leaves no more pairs than it found. -/
theorem pairCount_squeeze_le (b : α) (s : List α) : pairCount b (squeeze b s) ≤ pairCount b s := by
  induction s using pair_induction b with
  | nil => rw [squeeze, substitute_nil (by simp)]
  | pair s ih =>
    have := (pairCount_le_cons b b (squeeze b s)).2
    rw [squeeze_pair, pairCount_pair]
    omega
  | cons c s h ih =>
    have h' : ¬ [b, b] <+: c :: squeeze b s := by
      rwa [pair_prefix_cons, head_squeeze, ← pair_prefix_cons]
    rw [squeeze_cons h, pairCount_cons h, pairCount_cons h']
    exact ih

/-- A pass takes one letter from the text for each pair. -/
theorem length_squeeze (b : α) (s : List α) : (squeeze b s).length + pairCount b s = s.length := by
  have length : ((squeeze b s).length : Int) = s.length + pairCount b s * ((1 : Nat) - (2 : Nat)) :=
    length_substitute (by simp) [b] s
  omega

/-- Where no pair is found there is none. -/
theorem not_pair_of_pairCount (h : pairCount b s = 0) : ¬ [b, b] <:+: s := by
  induction s using pair_induction b with
  | nil => simp
  | pair s _ => simp [pairCount_pair] at h
  | cons c s hp ih =>
    rw [pairCount_cons hp] at h
    rw [List.infix_cons_iff]
    rintro (hpre | hin)
    · exact hp hpre
    · exact ih h hin

theorem squeeze_of_pairCount (h : pairCount b s = 0) : squeeze b s = s := by
  induction s using pair_induction b with
  | nil => exact substitute_nil (by simp) [b]
  | pair s _ => simp [pairCount_pair] at h
  | cons c s hp ih =>
    rw [pairCount_cons hp] at h
    rw [squeeze_cons hp, ih h]

end Squeeze

end Words
