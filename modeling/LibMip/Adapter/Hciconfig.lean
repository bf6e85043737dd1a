import LibMip.Adapter.Mac2Device
import Mathlib.Data.List.Nodup

/-!
# The output of hciconfig

`hciconfig` prints a block for each adapter: its name, `hci` with a number and a colon, then words
among which the address of the adapter stands once. `bluetooth_mac2device` goes back from the
address to the name and cuts it after four characters, so `namesAdapter_iff` holds it to the
adapters whose number has a single digit.
-/

namespace LibMip

open CNum Words Loops Loops.Comp

/-- `hci` and the number of the adapter. -/
def adapterName (index : Nat) : Text := ['h', 'c', 'i'] ++ Nat.toDigits 10 index

/-- What is printed for one adapter, as words. -/
structure Block where
  index : Nat
  before : List Text
  mac : Text
  after : List Text

namespace Block

def header (b : Block) : Text := adapterName b.index ++ [':']

def words (b : Block) : List Text := b.header :: (b.before ++ b.mac :: b.after)

end Block

/-- An output: the words of the blocks with white space around them, different addresses, and no
other word that could be taken for a name or an address. -/
structure Hciconfig where
  blocks : List Block
  nonempty : blocks ≠ []
  text : Text
  spaced : Spaced isBlank text (blocks.flatMap Block.words)
  distinct : (blocks.map Block.mac).Nodup
  macs : ∀ b ∈ blocks, ¬ ['h', 'c', 'i'] <+: b.mac
  others : ∀ b ∈ blocks, ∀ word ∈ b.before ++ b.after,
    ¬ ['h', 'c', 'i'] <+: word ∧ word ∉ blocks.map Block.mac

/-- The call names the adapter of the block. -/
def NamesAdapter (output : Hciconfig) (b : Block) : Prop :=
  (bluetoothMac2device output.text b.mac).Returns (adapterName b.index)

/-- Four characters are the name of the adapter when its number has one digit. -/
theorem header_take_iff (b : Block) : b.header.take 4 = adapterName b.index ↔ b.index < 10 := by
  obtain ⟨digit, digits, cut⟩ :=
    List.exists_cons_of_ne_nil (Nat.toDigits_ne_nil (n := b.index) (b := 10))
  have short : (Nat.toDigits 10 b.index).length ≤ 1 ↔ b.index < 10 ^ 1 :=
    Nat.length_toDigits_le_iff (by decide) (by decide)
  rw [cut, List.length_cons, pow_one] at short
  rw [← short]
  simp [Block.header, adapterName, cut]

theorem header_isAdapter (b : Block) : IsAdapter b.header := by
  have pos := Nat.length_toDigits_pos (n := b.index) (b := 10)
  refine ⟨?_, ?_⟩
  · simp only [Block.header, adapterName, List.length_append, List.length_cons, List.length_nil]
    omega
  · rw [Block.header, adapterName, List.append_assoc]
    exact List.prefix_append _ _

namespace Hciconfig

variable (output : Hciconfig) {b : Block}

/-- The address of a block is not among the words before it. -/
theorem mac_notMem_before {front back : List Block} (cut : output.blocks = front ++ b :: back) :
    b.mac ∉ front.flatMap Block.words ++ b.header :: b.before := by
  have mem {c : Block} (hc : c ∈ front ∨ c = b) : c ∈ output.blocks := by
    rw [cut]
    grind
  have listed : b.mac ∈ output.blocks.map Block.mac := List.mem_map_of_mem (mem (.inr rfl))
  have noHeader (c : Block) : b.mac ≠ c.header := fun same =>
    output.macs b (mem (.inr rfl)) (same ▸ (header_isAdapter c).2)
  have other {c : Block} (hc : c ∈ front ∨ c = b) : b.mac ∉ c.before ++ c.after := fun among =>
    (output.others c (mem hc) _ among).2 listed
  have distinct : b.mac ∉ front.map Block.mac := by
    have nodup := output.distinct
    rw [cut, List.map_append, List.map_cons, List.nodup_middle, List.nodup_cons] at nodup
    exact fun among => nodup.1 (List.mem_append_left _ among)
  intro h
  rw [List.mem_append, List.mem_cons] at h
  rcases h with inFront | isHeader | inBefore
  · obtain ⟨c, hc, word⟩ := List.mem_flatMap.mp inFront
    rw [Block.words, List.mem_cons, List.mem_append, List.mem_cons] at word
    rcases word with isHeader | inBefore | isMac | inAfter
    · exact noHeader c isHeader
    · exact other (.inl hc) (List.mem_append_left _ inBefore)
    · exact distinct (isMac ▸ List.mem_map_of_mem hc)
    · exact other (.inl hc) (List.mem_append_right _ inAfter)
  · exact noHeader b isHeader
  · exact other (.inr rfl) (List.mem_append_left _ inBefore)

/-- From the address of a block the nearest name of an adapter is the header of the block. -/
theorem nearestAdapter_eq (hb : b ∈ output.blocks) :
    b.mac ∈ tokens isBlank output.text ∧
      nearestAdapter (tokens isBlank output.text) b.mac = some b.header := by
  obtain ⟨front, back, cut⟩ := List.append_of_mem hb
  have first := output.mac_notMem_before cut
  have words : tokens isBlank output.text =
      (front.flatMap Block.words ++ b.header :: b.before) ++
        b.mac :: (b.after ++ back.flatMap Block.words) := by
    rw [← spaced_iff.mp output.spaced, cut]
    simp [Block.words]
  have skipped : ∀ word ∈ b.before.reverse, ¬ IsAdapter word := by
    intro word hword adapter
    exact (output.others b hb word (by grind)).1 adapter.2
  rw [words]
  refine ⟨by simp, ?_⟩
  have notMac : ¬ IsAdapter b.mac := fun adapter => output.macs b hb adapter.2
  have none : b.before.reverse.find? (IsAdapter ·) = none := by
    rw [List.find?_eq_none]
    intro word hword
    simpa using skipped word hword
  rw [nearestAdapter_append first, List.find?_cons_of_neg (by simpa using notMac),
    List.reverse_append, List.reverse_cons, List.append_assoc, List.find?_append, none,
    Option.none_or, List.singleton_append,
    List.find?_cons_of_pos (by simpa using header_isAdapter b)]

/-- What comes of a call with an address of the output. -/
theorem mac2device_returns_iff (hb : b ∈ output.blocks) {device : Text} :
    (bluetoothMac2device output.text b.mac).Returns device ↔
      Countable output.text ∧ b.header.take 4 = device := by
  obtain ⟨listed, nearest⟩ := output.nearestAdapter_eq hb
  constructor
  · intro returns
    have room := countable_of_mac2device_returns returns
    have ends := bluetoothMac2device_ends room b.mac
    rw [if_pos listed, nearest] at ends
    exact ⟨room, Except.ok.inj (ends.unique returns)⟩
  · rintro ⟨room, rfl⟩
    have ends := bluetoothMac2device_ends room b.mac
    rwa [if_pos listed, nearest] at ends

end Hciconfig

/-- The adapters that are named are those with a number of one digit. -/
theorem namesAdapter_iff (output : Hciconfig) (b : Block) (hb : b ∈ output.blocks) :
    NamesAdapter output b ↔ b.index < 10 ∧ Countable output.text := by
  rw [NamesAdapter, output.mac2device_returns_iff hb, header_take_iff, and_comm]

/-- The block of an adapter with the address `AA`. -/
def blockAA (index : Nat) : Block := ⟨index, [], ['A', 'A'], []⟩

theorem header_solid (b : Block) : ∀ c ∈ b.header, isBlank c = false := by
  intro c hc
  simp only [Block.header, adapterName, List.mem_append, List.mem_cons, List.not_mem_nil,
    or_false] at hc
  rcases hc with ((rfl | rfl | rfl) | digit) | rfl
  case inr => rfl
  case inl.inr =>
    have isDigit := Nat.isDigit_of_mem_toDigits (by decide) (by decide) digit
    by_contra isBlank
    simp only [LibMip.isBlank, Bool.not_eq_false, Bool.or_eq_true, decide_eq_true_eq] at isBlank
    rcases isBlank with (rfl | rfl) | rfl <;> exact absurd isDigit (by decide)
  all_goals rfl

/-- An output with that block only, on two lines. -/
def outputAA (index : Nat) : Hciconfig where
  blocks := [blockAA index]
  nonempty := by simp
  text := (blockAA index).header ++ ['\n', '\t', 'A', 'A']
  spaced := .word (by simp [Block.header]) (header_solid _) (by simp [isBlank])
    (.blank rfl (.blank rfl (.word (w := ['A', 'A']) (by simp) (by simp [isBlank]) (by simp) .nil)))
  distinct := by simp
  macs := by simp [blockAA]
  others := by simp [blockAA]

theorem namesAdapter_iff_hci0 :
    NamesAdapter (outputAA 0) (blockAA 0) ↔
      (blockAA 0).index < 10 ∧ Countable (outputAA 0).text :=
  namesAdapter_iff (outputAA 0) (blockAA 0) (List.mem_singleton_self _)

/-- For the adapter `hci10` the call names `hci1`. -/
theorem not_namesAdapter_hci10 : ¬ NamesAdapter (outputAA 10) (blockAA 10) := by
  intro named
  have listed : blockAA 10 ∈ (outputAA 10).blocks := List.mem_singleton_self _
  have device := ((outputAA 10).mac2device_returns_iff listed).mp named
  exact absurd device.2 (by decide)

end LibMip
