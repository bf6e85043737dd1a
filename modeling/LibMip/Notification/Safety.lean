import LibMip.Notification.Decode

/-!
# What the dispatcher hands over

`match_event` lets a PDU through to a handler registered for one opcode and one handle only if it
has at least the three bytes of a header. The handler needs two more: below five bytes the
subtraction that counts the pairs goes below zero, and the count that comes out of it asks for
characters the answer does not have. From five bytes on the handler stays within its strings
and within the PDU on every payload; what is left that stops it is a pair of blanks.
-/

namespace LibMip

open CNum

/-! ## The dispatcher -/

def gattribAllEvents : UInt8 := 0xFF
def gattribAllReqs : UInt8 := 0xFE
def gattribAllHandles : Nat := 0x0000

/-- `struct event`: what a handler was registered for. -/
structure GattEvent where
  expected : UInt8
  handle : Nat

def isResponse (opcode : UInt8) : Bool :=
  opcode ∈ [0x01, 0x03, 0x05, 0x07, 0x09, 0x0B, 0x0D, 0x0F, 0x11, 0x13, 0x17, 0x19, 0x1E]

/-- `match_event`, on the bytes read into a buffer of zeros. -/
def matchEvent (evt : GattEvent) (bytes : List UInt8) : Except Fault Bool :=
  let opcode := bytes.headD 0
  if evt.expected = gattribAllEvents then .ok true
  else if isResponse opcode = false ∧ evt.expected = gattribAllReqs then .ok true
  else if evt.expected = opcode ∧ evt.handle = gattribAllHandles then .ok true
  else if bytes.length < 3 then .ok false
  else do
    let handle ← attGetU16 bytes 1
    .ok (evt.expected = opcode ∧ evt.handle = handle)

/-- The two registrations of `connect_cb`. -/
def Mip.events (m : Mip) : List GattEvent :=
  [⟨attOpHandleNotify, (m.handleRead % 65536).toNat⟩,
    ⟨attOpHandleInd, (m.handleRead % 65536).toNat⟩]

/-- What passes a registration of `connect_cb` is a notification or an indication with a whole
header, as long as the handle is not the one that stands for all. -/
theorem header_of_matchEvent {m : Mip} {evt : GattEvent} {pdu : Pdu} (registered : evt ∈ m.events)
    (handle : (m.handleRead % 65536).toNat ≠ gattribAllHandles)
    (passed : matchEvent evt pdu.bytes = .ok true) : 3 ≤ pdu.bytes.length ∧ pdu.IsEvent := by
  have opcode : (evt.expected = attOpHandleNotify ∨ evt.expected = attOpHandleInd) ∧
      evt.handle ≠ gattribAllHandles := by
    simp only [Mip.events, List.mem_cons, List.not_mem_nil, or_false] at registered
    rcases registered with rfl | rfl
    · exact ⟨.inl rfl, handle⟩
    · exact ⟨.inr rfl, handle⟩
  have notAll : evt.expected ≠ gattribAllEvents ∧ evt.expected ≠ gattribAllReqs := by
    rcases opcode.1 with h | h <;> rw [h] <;> decide
  unfold matchEvent at passed
  simp only [notAll, opcode.2, if_false, and_false] at passed
  split_ifs at passed with short
  · simp at passed
  · obtain ⟨found, -, same⟩ := bind_eq_ok.mp passed
    have same : evt.expected = pdu.bytes.headD 0 ∧ evt.handle = found := by simpa using same
    refine ⟨by omega, ?_⟩
    have first : pdu.bytes[0]? = some evt.expected := by
      rw [same.1]
      cases h : pdu.bytes with
      | nil => simp [h] at short
      | cons b bytes => simp
    rcases opcode.1 with h | h
    · exact .inl (h ▸ first)
    · exact .inr (h ▸ first)

/-! ## The handler -/

/-- The handler stays within the PDU and within the string of its characters, with the number of
pairs that the length of the PDU gives. -/
structure InBounds (pdu : Pdu) : Prop where
  handle : ∃ handle, attGetU16 pdu.bytes 1 = .ok handle
  chars : ∃ hexAns, readChars pdu.bytes 3 (pdu.bytes.length - 3) = .ok hexAns
  count : npairs pdu.payload.length =
    if 5 ≤ pdu.bytes.length then (pdu.bytes.length - 3 - 2) / 2 else 0
  starts : ∀ i < npairs pdu.payload.length, (2 + i * 2) % 4294967296 ≤ pdu.payload.length

/-- The handler also returns. -/
def HandledSafely (m : Mip) (pdu : Pdu) : Prop := InBounds pdu ∧ ∃ r, m.eventsHandler pdu = .ok r

theorem Pdu.payload_length (pdu : Pdu) : pdu.payload.length = pdu.bytes.length - 3 := by
  simp [Pdu.payload]

/-- On a header with less than a pair after it, the count wraps. -/
theorem npairs_of_lt_two {n : Nat} (h : n < 2) : npairs n = 4294967295 := by
  unfold npairs
  omega

theorem InBounds.five_le {pdu : Pdu} (h : InBounds pdu) : 5 ≤ pdu.bytes.length := by
  by_contra short
  have wraps := npairs_of_lt_two (n := pdu.payload.length) (by rw [pdu.payload_length]; omega)
  have count := h.count
  rw [wraps, if_neg short] at count
  omega

theorem inBounds_of_five_le {pdu : Pdu} (h : 5 ≤ pdu.bytes.length) : InBounds pdu := by
  have fits := pdu.fits
  have count : npairs pdu.payload.length = (pdu.bytes.length - 3 - 2) / 2 := by
    rw [pdu.payload_length, npairs_eq (by omega) (by omega)]
  refine ⟨attGetU16_ok pdu.bytes 1 (by omega), ⟨_, readChars_eq _ _ _ (by omega)⟩, ?_,
    fun i hi => ?_⟩
  · rw [count, if_pos h]
  · rw [count] at hi
    rw [pdu.payload_length]
    omega

/-- Every PDU of five bytes or more keeps the handler within bounds, and no shorter one does; it
returns when, besides, no two characters it takes for a number are blanks. The sum an odometer
reading goes through is read as wrapping where it leaves `int`. -/
theorem handledSafely_iff (m : Mip) (pdu : Pdu) (event : pdu.IsEvent) :
    (InBounds pdu ↔ 5 ≤ pdu.bytes.length) ∧
      (HandledSafely m pdu ↔ 5 ≤ pdu.bytes.length ∧ ∀ p ∈ pairs pdu.payload, ¬ Blank p) := by
  refine ⟨⟨InBounds.five_le, inBounds_of_five_le⟩, fun safe => ?_, fun ⟨long, readable⟩ => ?_⟩
  · obtain ⟨inside, r, returns⟩ := safe
    have long := inside.five_le
    refine ⟨long, ?_⟩
    by_contra blank
    have stops : decode pdu = .error .indeterminate := by
      rw [decode_eq pdu event long]
      exact if_neg blank
    simp [Mip.eventsHandler, stops, bind, Except.bind] at returns
  · exact ⟨inBounds_of_five_le long, _, eventsHandler_eq m pdu event long readable⟩

/-- The characters `8` and `2`. -/
theorem handledSafely_iff_game_mode :
    (InBounds ⟨[0x1B, 0x0E, 0x00, 0x38, 0x32], by decide⟩ ↔ 5 ≤ 5) ∧
      (HandledSafely Mip.init ⟨[0x1B, 0x0E, 0x00, 0x38, 0x32], by decide⟩ ↔
        5 ≤ 5 ∧ ∀ p ∈ pairs [0x38, 0x32], ¬ Blank p) :=
  handledSafely_iff Mip.init ⟨[0x1B, 0x0E, 0x00, 0x38, 0x32], by decide⟩ (Or.inl rfl)

/-- A notification with one character passes the registration and throws. -/
theorem one_character_throws :
    matchEvent ⟨attOpHandleNotify, 0x000e⟩ [0x1B, 0x0E, 0x00, 0x38] = .ok true ∧
      Mip.init.eventsHandler ⟨[0x1B, 0x0E, 0x00, 0x38], by decide⟩ = .error .outOfRange ∧
      ¬ HandledSafely Mip.init ⟨[0x1B, 0x0E, 0x00, 0x38], by decide⟩ := by
  refine ⟨by decide, rfl, ?_⟩
  intro safe
  exact absurd safe.1.five_le (by decide)

end LibMip
