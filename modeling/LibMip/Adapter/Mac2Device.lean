import LibMip.Adapter.Normalise
import Mathlib.Data.List.Induction

/-!
# The adapter with a given address

`bluetooth_mac2device` finds the first word of the output of `hciconfig` that equals the address,
goes back to the nearest word that starts with `hci`, and returns its first four characters.

The search compares an iterator with `begin()` to stop, and has to step before `begin()` for the
comparison to fail: `foundSafely_iff` says that this is what goes wrong, apart from a count that
runs over, and that every other answer is as it should be.
-/

namespace LibMip

open CNum CString Words Loops Loops.Comp

/-- `*it`, for an iterator given by its distance from `begin()`. -/
def deref (words : List Text) (it : Int) : Except Fault Text :=
  if 0 ≤ it then
    match words[it.toNat]? with
    | some word => .ok word
    | none => .error .outOfRange
  else .error .outOfRange

/-- `--it`. No iterator comes before `begin()`. -/
def previous (it : Int) : Except Fault Int := if 0 < it then .ok (it - 1) else .error .outOfRange

/-- `it->size() > 3 && it->substr(0, 3) == "hci"`. -/
def startsWithHci (word : Text) : Except Fault Bool :=
  if 3 < word.length then do
    let start ← CString.substr word 0 3
    .ok (start = ['h', 'c', 'i'])
  else .ok false

/-- One evaluation of the condition `it >= words.begin()`, and of the body when it holds. -/
def searchStep (words : List Text) (it : Int) : Comp Fault (Int ⊕ Text) :=
  if 0 ≤ it then do
    let word ← deref words it
    let found ← startsWithHci word
    if found then
      let device ← CString.substr word 0 4
      pure (.inr device)
    else
      let it ← previous it
      pure (.inl it)
  else pure (.inr [])

/-- `bluetooth_mac2device`, given what `exec_system_get_output` returned for `hciconfig`, where each
chunk of the output that was read ends at its first NUL. -/
def bluetoothMac2device (hciconfig macAddress : Text) : Comp Fault Text := do
  let words ← splitIntoWords hciconfig
  match words.findIdx? (· = macAddress) with
  | none => pure []
  | some it => loop (searchStep words) it

/-! ## The search -/

/-- The word is taken for the name of an adapter. -/
def IsAdapter (word : Text) : Prop := 3 < word.length ∧ ['h', 'c', 'i'] <+: word

instance : DecidablePred IsAdapter := fun _ => inferInstanceAs (Decidable (_ ∧ _))

/-- The nearest name of an adapter at or before the first occurrence of the address. -/
def nearestAdapter (words : List Text) (macAddress : Text) : Option Text :=
  (macAddress :: (words.takeWhile (· ≠ macAddress)).reverse).find? (IsAdapter ·)

theorem startsWithHci_eq (word : Text) : startsWithHci word = .ok (decide (IsAdapter word)) := by
  unfold startsWithHci
  by_cases long : 3 < word.length
  · have start : word.take 3 = ['h', 'c', 'i'] ↔ ['h', 'c', 'i'] <+: word := by
      rw [List.prefix_iff_eq_take, eq_comm]
      rfl
    simp [CString.substr, IsAdapter, long, start, bind, Except.bind]
  · simp [IsAdapter, long]

section Search

variable (front back : List Text) (word : Text)

theorem deref_append : deref (front ++ word :: back) front.length = .ok word := by
  simp [deref]

/-- At a word that names an adapter the search ends; at another it goes back. -/
theorem searchStep_append :
    searchStep (front ++ word :: back) front.length =
      if IsAdapter word then pure (.inr (word.take 4))
      else liftM (previous front.length) >>= fun it => pure (.inl it) := by
  have inside : (0 : Int) ≤ front.length := Int.natCast_nonneg _
  rw [searchStep, if_pos inside, deref_append, liftM_ok_bind, startsWithHci_eq, liftM_ok_bind]
  by_cases adapter : IsAdapter word
  · simp [adapter, CString.substr]
  · simp [adapter]

theorem loop_searchStep_of_adapter {word : Text} (adapter : IsAdapter word) :
    (loop (searchStep (front ++ word :: back)) front.length).Ends (.ok (word.take 4)) := by
  have step := searchStep_append front back word
  rw [if_pos adapter] at step
  exact ends_loop_of_done step

/-- The search backward from a word, by induction on the words before it. -/
theorem loop_searchStep_ends :
    (loop (searchStep (front ++ word :: back)) front.length).Ends
      (match (word :: front.reverse).find? (IsAdapter ·) with
        | some adapter => .ok (adapter.take 4)
        | none => .error .outOfRange) := by
  induction front using List.reverseRecOn generalizing word back with
  | nil =>
    by_cases adapter : IsAdapter word
    · rw [List.find?_cons_of_pos (by simpa using adapter)]
      exact loop_searchStep_of_adapter [] back adapter
    · have step := searchStep_append [] back word
      rw [if_neg adapter] at step
      rw [List.find?_cons_of_neg (by simpa using adapter)]
      exact ends_loop_of_error step
  | append_singleton front last ih =>
    by_cases adapter : IsAdapter word
    · rw [List.find?_cons_of_pos (by simpa using adapter)]
      exact loop_searchStep_of_adapter (front ++ [last]) back adapter
    · have step := searchStep_append (front ++ [last]) back word
      have back' : previous ((front ++ [last]).length : Int) = .ok front.length := by
        rw [List.length_append, List.length_singleton, previous, if_pos (by omega)]
        simp
      rw [if_neg adapter, back', liftM_ok_bind] at step
      rw [List.find?_cons_of_neg (by simpa using adapter), List.reverse_append,
        ends_loop_of_next step, List.append_assoc]
      exact ih (word :: back) last

end Search

/-- `std::find` reaches the end of the words without the address among them. -/
theorem findIdx?_of_not_mem {words : List Text} {macAddress : Text} (h : macAddress ∉ words) :
    words.findIdx? (· = macAddress) = none := by
  rw [List.findIdx?_eq_none_iff]
  intro word hword
  rw [decide_eq_false_iff_not]
  rintro rfl
  exact h hword

section FirstOccurrence

variable {front back : List Text} {macAddress : Text} (first : macAddress ∉ front)

include first

theorem nearestAdapter_append : nearestAdapter (front ++ macAddress :: back) macAddress =
    (macAddress :: front.reverse).find? (IsAdapter ·) := by
  have before : (front ++ macAddress :: back).takeWhile (· ≠ macAddress) = front := by
    rw [List.takeWhile_append_of_pos]
    · simp
    · intro word hword
      rw [decide_eq_true_iff]
      rintro rfl
      exact first hword
  rw [nearestAdapter, before]

theorem findIdx?_append_cons :
    (front ++ macAddress :: back).findIdx? (· = macAddress) = some front.length := by
  rw [List.findIdx?_append, findIdx?_of_not_mem first]
  simp [List.findIdx?_cons]

end FirstOccurrence

/-- What comes of a call on which no count runs over. -/
theorem bluetoothMac2device_ends {hciconfig : Text} (room : Countable hciconfig)
    (macAddress : Text) :
    (bluetoothMac2device hciconfig macAddress).Ends
      (if macAddress ∈ tokens isBlank hciconfig then
        match nearestAdapter (tokens isBlank hciconfig) macAddress with
        | some adapter => .ok (adapter.take 4)
        | none => .error .outOfRange
      else .ok []) := by
  rw [bluetoothMac2device, (splitIntoWords_returns room).ends_bind]
  split_ifs with listed
  · obtain ⟨front, back, cut, first⟩ := List.eq_append_cons_of_mem listed
    rw [cut, findIdx?_append_cons first, nearestAdapter_append first]
    exact loop_searchStep_ends front back macAddress
  · rw [findIdx?_of_not_mem listed]
    exact ends_pure.mpr rfl

/-- A call that returns has counted everything there was to replace. -/
theorem countable_of_mac2device_returns {hciconfig macAddress device : Text}
    (h : (bluetoothMac2device hciconfig macAddress).Returns device) : Countable hciconfig := by
  obtain ⟨words, split, -⟩ := returns_bind.mp h
  obtain ⟨result, returns, -⟩ := returns_bind.mp split
  exact countable_of_normalise_returns returns

/-! ## Arbitrary text -/

/-- The first four characters of the nearest name of an adapter, or nothing. -/
def deviceName (words : List Text) (macAddress : Text) : Text :=
  if macAddress ∈ words then
    match nearestAdapter words macAddress with
    | some adapter => adapter.take 4
    | none => []
  else []

/-- The call returns the name, and forms no iterator before the first word. -/
def FoundSafely (hciconfig macAddress : Text) : Prop :=
  (bluetoothMac2device hciconfig macAddress).Returns
    (deviceName (tokens isBlank hciconfig) macAddress)

/-- The search is safe exactly when the address is no word, or has the name of an adapter at or
before its first occurrence. -/
theorem foundSafely_iff (hciconfig macAddress : Text) :
    FoundSafely hciconfig macAddress ↔ Countable hciconfig ∧
      (macAddress ∈ tokens isBlank hciconfig →
        ∃ adapter, nearestAdapter (tokens isBlank hciconfig) macAddress = some adapter) := by
  constructor
  · intro found
    have room := countable_of_mac2device_returns found
    refine ⟨room, fun listed => ?_⟩
    have ends := bluetoothMac2device_ends room macAddress
    rw [if_pos listed] at ends
    cases h : nearestAdapter (tokens isBlank hciconfig) macAddress with
    | some adapter => exact ⟨adapter, rfl⟩
    | none =>
      rw [h] at ends
      cases ends.unique found
  · rintro ⟨room, named⟩
    have ends := bluetoothMac2device_ends room macAddress
    unfold FoundSafely deviceName
    split_ifs at ends ⊢ with listed
    · obtain ⟨adapter, h⟩ := named listed
      rw [h] at ends ⊢
      exact ends
    · exact ends

/-- An address and nothing else. -/
theorem not_foundSafely_alone : ¬ FoundSafely ['A', 'A'] ['A', 'A'] := by
  intro found
  have ends := bluetoothMac2device_ends (countable_of_mac2device_returns found) ['A', 'A']
  exact absurd (ends.unique found) (by decide)

end LibMip
