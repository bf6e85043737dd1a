import LibMip.Notification.Decode

/-!
# Payloads that are not what the robot writes

Nothing between the radio and `store_results` checks the characters of a payload. An odd last
character is dropped by the division that counts the pairs, and a pair that is no hexadecimal
number still reads as a small number. What keeps junk out is the chain of tests in
`store_results`: a payload has an effect only if its first pair reads as a known command and the
number of pairs after it is the one that command expects.
-/

namespace LibMip

open CNum HexStream

/-- The object is changed or the hook is invoked. -/
def HasEffect (m : Mip) (r : Mip × List Notification) : Prop := r.1 ≠ m ∨ r.2 ≠ []

theorem not_hasEffect_storeResults {m : Mip} {cmd : MipCommand} {v : List Int}
    (h : (cmd, nvalues v) ∉ Mip.accepted) : ¬ HasEffect m (m.storeResults cmd v) := by
  rw [Mip.storeResults_of_not_mem h]
  simp [HasEffect]

/-- The values are those of the pairs after the first. -/
theorem Pdu.mem_values {pdu : Pdu} {v : Int} (h : v ∈ pdu.values) :
    ∃ p ∈ (pairs pdu.payload).tail, pairValue p = v := by
  simpa [Pdu.values, Pdu.reads, ← List.map_tail] using h

/-- A pair is read as a byte when it is two digits, and within a digit of zero otherwise. -/
theorem pairValue_range (p : UInt8 × UInt8) :
    (IsHex p → 0 ≤ pairValue p ∧ pairValue p ≤ 255) ∧
      (¬ IsHex p → -15 ≤ pairValue p ∧ pairValue p ≤ 15 ∧ (pairValue p < 0 → p.1 = 45)) :=
  ⟨pairValue_of_isHex, pairValue_of_not_isHex⟩

/-- On a payload without a blank pair the handler returns. It has an effect only when the
command read is in the table with as many values as there are further pairs, and the hook then
receives exactly the numbers read. -/
theorem effect_only_of_accepted (m : Mip) (pdu : Pdu) (event : pdu.IsEvent)
    (hlen : 5 ≤ pdu.bytes.length) (readable : ∀ p ∈ pairs pdu.payload, ¬ Blank p) :
    ∃ r, m.eventsHandler pdu = .ok r ∧
      (HasEffect m r →
        (pdu.command, (pdu.payload.length - 2) / 2) ∈ Mip.accepted ∧
        0 ≤ pdu.command ∧ pdu.command ≤ 255 ∧
        (∀ v ∈ pdu.values, ∃ p ∈ (pairs pdu.payload).tail, pairValue p = v ∧
          (IsHex p → 0 ≤ v ∧ v ≤ 255) ∧
          (¬ IsHex p → -15 ≤ v ∧ v ≤ 15 ∧ (v < 0 → p.1 = 45))) ∧
        r.2 = [⟨pdu.command, pdu.values⟩]) ∧
      ((pdu.command, (pdu.payload.length - 2) / 2) ∉ Mip.accepted → r = (m, [])) := by
  refine ⟨_, eventsHandler_eq m pdu event hlen readable, fun effect => ?_, fun rejected => ?_⟩
  · have known : (pdu.command, nvalues pdu.values) ∈ Mip.accepted := by
      by_contra unknown
      exact not_hasEffect_storeResults unknown effect
    obtain ⟨lo, hi, -, -⟩ := Mip.mem_accepted_range known
    refine ⟨by rwa [← pdu.nvalues_values], lo, hi, fun v hv => ?_, Mip.storeResults_hook known⟩
    obtain ⟨p, hp, rfl⟩ := pdu.mem_values hv
    exact ⟨p, hp, rfl, pairValue_range p⟩
  · rw [← pdu.nvalues_values] at rejected
    exact Mip.storeResults_of_not_mem rejected

/-- The payload `82 5`, with a blank where a digit is expected. -/
def blankDigitPdu : Pdu := ⟨[0x1B, 0x0E, 0x00, 0x38, 0x32, 0x20, 0x35], by decide⟩

/-- The payload `82051`, of odd length. -/
def oddPdu : Pdu := ⟨[0x1B, 0x0E, 0x00, 0x38, 0x32, 0x30, 0x35, 0x31], by decide⟩

/-- The payload `82-1`. -/
def minusPdu : Pdu := ⟨[0x1B, 0x0E, 0x00, 0x38, 0x32, 0x2D, 0x31], by decide⟩

/-- A rejected payload is left alone although it consists of digits: `8205` with one more pair. -/
theorem effect_only_of_accepted_rejected :
    ∃ r, Mip.init.eventsHandler
        ⟨[0x1B, 0x0E, 0x00, 0x38, 0x32, 0x30, 0x35, 0x31, 0x31], by decide⟩ = .ok r ∧
      r = (Mip.init, []) := by
  have readable : Readable [0x38, 0x32, 0x30, 0x35, 0x31, 0x31] := by decide
  obtain ⟨r, hr, -, rejected⟩ := effect_only_of_accepted Mip.init
    ⟨[0x1B, 0x0E, 0x00, 0x38, 0x32, 0x30, 0x35, 0x31, 0x31], by decide⟩
    (Or.inl rfl) (by decide) readable
  exact ⟨r, hr, rejected (by decide)⟩

/-- A blank among the digits, an odd length and a minus sign each reach the game mode and the
hook. -/
theorem malformed_payload_has_effect :
    ((Mip.init.eventsHandler blankDigitPdu).map fun r => (r.1.gameMode, r.2)) =
        .ok (5, [⟨0x82, [5]⟩]) ∧
      ((Mip.init.eventsHandler oddPdu).map fun r => (r.1.gameMode, r.2)) =
        .ok (5, [⟨0x82, [5]⟩]) ∧
      ((Mip.init.eventsHandler minusPdu).map fun r => (r.1.gameMode, r.2)) =
        .ok (-1, [⟨0x82, [-1]⟩]) ∧
      Mip.init.gameMode = -100 ∧
      ¬ (∀ b ∈ blankDigitPdu.payload, (hexVal b).isSome = true) ∧
      oddPdu.payload.length % 2 = 1 := by
  refine ⟨?_, ?_, ?_, rfl, by decide, rfl⟩ <;> decide +kernel

end LibMip
