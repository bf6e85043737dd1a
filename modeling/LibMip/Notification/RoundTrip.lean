import LibMip.Notification.Decode

/-!
# The robot's encoding and its inverse

A notification carries the command and each value as two ASCII hexadecimal digits. The robot may
write a letter in upper or lower case, digit by digit, so an encoded byte is a byte with two
case choices. Decoding gives back the bytes, in order and in number, for a payload of any length
that a PDU can hold.
-/

namespace LibMip

open CNum HexStream

/-- A byte as the robot spells it; the flags choose upper case for the high and the low digit. -/
structure HexByte where
  value : UInt8
  hiUpper : Bool
  loUpper : Bool

namespace HexByte

def pair (b : HexByte) : UInt8 × UInt8 :=
  (hexDigit b.hiUpper (b.value.toNat / 16), hexDigit b.loUpper (b.value.toNat % 16))

def chars (b : HexByte) : List UInt8 := [b.pair.1, b.pair.2]

theorem hexVal_fst (b : HexByte) : hexVal b.pair.1 = some (b.value.toNat / 16) :=
  hexVal_hexDigit _ (by have := b.value.toNat_lt; omega)

theorem hexVal_snd (b : HexByte) : hexVal b.pair.2 = some (b.value.toNat % 16) :=
  hexVal_hexDigit _ (by omega)

@[simp] theorem pairValue_pair (b : HexByte) : pairValue b.pair = b.value.toNat := by
  simp only [pairValue, hexVal_fst, hexVal_snd]
  omega

theorem not_blank (b : HexByte) : ¬ Blank b.pair := by
  intro blank
  have := hexVal_eq_none_of_special (Or.inl blank.1)
  simp [hexVal_fst] at this

end HexByte

/-- The characters of a notification: the command, then the values. -/
def robotPayload (c : HexByte) (vs : List HexByte) : List UInt8 :=
  c.chars ++ vs.flatMap HexByte.chars

def robotBytes (op h1 h2 : UInt8) (c : HexByte) (vs : List HexByte) : List UInt8 :=
  op :: h1 :: h2 :: robotPayload c vs

theorem pairs_flatMap_chars (vs : List HexByte) :
    pairs (vs.flatMap HexByte.chars) = vs.map HexByte.pair := by
  induction vs with
  | nil => rfl
  | cons v vs ih => simp [HexByte.chars, pairs, ih]

theorem pairs_robotPayload (c : HexByte) (vs : List HexByte) :
    pairs (robotPayload c vs) = c.pair :: vs.map HexByte.pair := by
  simp [robotPayload, HexByte.chars, pairs, pairs_flatMap_chars]

/-- The PDU has five bytes of opcode, handle and command, and two for each value. -/
theorem robotBytes_length (op h1 h2 : UInt8) (c : HexByte) (vs : List HexByte) :
    (robotBytes op h1 h2 c vs).length = 2 * vs.length + 5 := by
  have h : (vs.flatMap HexByte.chars).length = 2 * vs.length := by
    induction vs with
    | nil => rfl
    | cons v vs ih =>
      rw [List.flatMap_cons, List.length_append, ih]
      simp [HexByte.chars]
      omega
  simp [robotBytes, robotPayload, HexByte.chars, h]

theorem decode_robotBytes {op h1 h2 : UInt8} {c : HexByte} {vs : List HexByte}
    (hop : op = attOpHandleNotify ∨ op = attOpHandleInd)
    (fits : (robotBytes op h1 h2 c vs).length < 65536) :
    decode ⟨robotBytes op h1 h2 c vs, fits⟩ =
      .ok [⟨c.value.toNat, vs.map fun v => (v.value.toNat : Int)⟩] := by
  have hpairs : pairs (Pdu.payload ⟨robotBytes op h1 h2 c vs, fits⟩) =
      c.pair :: vs.map HexByte.pair := pairs_robotPayload c vs
  have event : Pdu.IsEvent ⟨robotBytes op h1 h2 c vs, fits⟩ := by
    simpa [Pdu.IsEvent, robotBytes] using hop
  have hlen : 5 ≤ (robotBytes op h1 h2 c vs).length := by
    rw [robotBytes_length]
    omega
  have readable : Readable (Pdu.payload ⟨robotBytes op h1 h2 c vs, fits⟩) := by
    intro p hp
    rcases List.mem_cons.mp (hpairs ▸ hp) with rfl | hp
    · exact c.not_blank
    · obtain ⟨v, -, rfl⟩ := List.mem_map.mp hp
      exact v.not_blank
  rw [decode_eq _ event hlen, if_pos readable]
  simp [Pdu.command, Pdu.values, Pdu.reads, hpairs, Function.comp_def]

/-- Decoding undoes the encoding: one call of `store_results`, with the command and the values
that were sent. -/
theorem notification_round_trip (m : Mip) (op h1 h2 : UInt8) (c : HexByte) (vs : List HexByte)
    (hop : op = attOpHandleNotify ∨ op = attOpHandleInd)
    (fits : (robotBytes op h1 h2 c vs).length < 65536) :
    decode ⟨robotBytes op h1 h2 c vs, fits⟩ =
        .ok [⟨c.value.toNat, vs.map fun v => (v.value.toNat : Int)⟩] ∧
      m.eventsHandler ⟨robotBytes op h1 h2 c vs, fits⟩ =
        .ok (m.storeResults c.value.toNat (vs.map fun v => (v.value.toNat : Int))) :=
  ⟨decode_robotBytes hop fits, eventsHandler_of_decode (decode_robotBytes hop fits)⟩

/-- The firmware version notification of the notes: `140E031602` on handle `0x000e`. -/
theorem notification_round_trip_firmware :
    decode ⟨[0x1B, 0x0E, 0x00, 0x31, 0x34, 0x30, 0x45, 0x30, 0x33, 0x31, 0x36, 0x30, 0x32],
      by decide⟩ = .ok [⟨0x14, [14, 3, 22, 2]⟩] :=
  (notification_round_trip Mip.init 0x1B 0x0E 0x00 ⟨0x14, true, true⟩
    [⟨14, true, true⟩, ⟨3, true, true⟩, ⟨22, true, true⟩, ⟨2, true, true⟩]
    (Or.inl rfl) (by decide)).1

end LibMip
