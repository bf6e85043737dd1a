import LibMip.Att.Opcodes
import LibMip.Foundation.Octets

/-!
# PDUs with a header

The encoders and decoders of `att.c` for the PDUs made of an opcode, some 16-bit words and
possibly a value. An encoder is given the size of a buffer: it writes nothing when the header
does not fit, and cuts the value where the buffer ends. The decoders of PDUs without a value pay
no attention to what follows the words.

`decPrepWriteResp` looks for the opcode of the request it should be the response to.
-/

namespace LibMip.Att

open Octets

/-- The common part of the encoders, for a buffer of `len` octets. -/
def encHeader (opcode : UInt8) (words : List UInt16) (value : List UInt8) (len : Nat) :
    Option (List UInt8) :=
  if len < 1 + 2 * words.length then none
  else some (opcode :: (putWords words ++ value.take (len - (1 + 2 * words.length))))

/-- The common part of the decoders, for a header of `n` words: the words and the octets after
them. -/
def decHeader (opcode : UInt8) (n : Nat) : List UInt8 → Option (List UInt16 × List UInt8)
  | [] => none
  | b :: bs => if b = opcode then takeWords n bs else none

/-- A decoder for one word. -/
def decWord (opcode : UInt8) (pdu : List UInt8) : Option UInt16 :=
  match decHeader opcode 1 pdu with
  | some ([w], _) => some w
  | _ => none

/-- A decoder for two words. -/
def decWords (opcode : UInt8) (pdu : List UInt8) : Option (UInt16 × UInt16) :=
  match decHeader opcode 2 pdu with
  | some ([v, w], _) => some (v, w)
  | _ => none

/-- A decoder for a word and a value. -/
def decWordValue (opcode : UInt8) (pdu : List UInt8) : Option (UInt16 × List UInt8) :=
  match decHeader opcode 1 pdu with
  | some ([w], value) => some (w, value)
  | _ => none

/-! ## The functions of `att.c` -/

/-- `enc_read_req`. -/
def encReadReq (handle : UInt16) (len : Nat) : Option (List UInt8) :=
  encHeader attOpReadReq [handle] [] len

/-- `dec_read_req`. -/
def decReadReq (pdu : List UInt8) : Option UInt16 := decWord attOpReadReq pdu

/-- `enc_read_blob_req`. -/
def encReadBlobReq (handle offset : UInt16) (len : Nat) : Option (List UInt8) :=
  encHeader attOpReadBlobReq [handle, offset] [] len

/-- `dec_read_blob_req`. -/
def decReadBlobReq (pdu : List UInt8) : Option (UInt16 × UInt16) := decWords attOpReadBlobReq pdu

/-- `enc_find_info_req`. -/
def encFindInfoReq (start finish : UInt16) (len : Nat) : Option (List UInt8) :=
  encHeader attOpFindInfoReq [start, finish] [] len

/-- `dec_find_info_req`. -/
def decFindInfoReq (pdu : List UInt8) : Option (UInt16 × UInt16) := decWords attOpFindInfoReq pdu

/-- `enc_mtu_req`. -/
def encMtuReq (mtu : UInt16) (len : Nat) : Option (List UInt8) := encHeader attOpMtuReq [mtu] [] len

/-- `dec_mtu_req`. -/
def decMtuReq (pdu : List UInt8) : Option UInt16 := decWord attOpMtuReq pdu

/-- `enc_mtu_resp`. -/
def encMtuResp (mtu : UInt16) (len : Nat) : Option (List UInt8) :=
  encHeader attOpMtuResp [mtu] [] len

/-- `dec_mtu_resp`. -/
def decMtuResp (pdu : List UInt8) : Option UInt16 := decWord attOpMtuResp pdu

/-- `enc_write_cmd`. -/
def encWriteCmd (handle : UInt16) (value : List UInt8) (len : Nat) : Option (List UInt8) :=
  encHeader attOpWriteCmd [handle] value len

/-- `dec_write_cmd`. -/
def decWriteCmd (pdu : List UInt8) : Option (UInt16 × List UInt8) := decWordValue attOpWriteCmd pdu

/-- `enc_write_req`. -/
def encWriteReq (handle : UInt16) (value : List UInt8) (len : Nat) : Option (List UInt8) :=
  encHeader attOpWriteReq [handle] value len

/-- `dec_write_req`. -/
def decWriteReq (pdu : List UInt8) : Option (UInt16 × List UInt8) := decWordValue attOpWriteReq pdu

/-- `enc_prep_write_req`. -/
def encPrepWriteReq (handle offset : UInt16) (value : List UInt8) (len : Nat) :
    Option (List UInt8) := encHeader attOpPrepWriteReq [handle, offset] value len

/-- `dec_prep_write_resp`, which tests for `ATT_OP_PREP_WRITE_REQ`. -/
def decPrepWriteResp (pdu : List UInt8) : Option (UInt16 × UInt16 × List UInt8) :=
  match decHeader attOpPrepWriteReq 2 pdu with
  | some ([handle, offset], value) => some (handle, offset, value)
  | _ => none

/-- `enc_find_by_type_req`, for a 16-bit UUID. -/
def encFindByTypeReq (start finish uuid : UInt16) (value : List UInt8) (len : Nat) :
    Option (List UInt8) := encHeader attOpFindByTypeReq [start, finish, uuid] value len

/-- `dec_find_by_type_req`. -/
def decFindByTypeReq (pdu : List UInt8) : Option (UInt16 × UInt16 × UInt16 × List UInt8) :=
  match decHeader attOpFindByTypeReq 3 pdu with
  | some ([start, finish, uuid], value) => some (start, finish, uuid, value)
  | _ => none

/-- `enc_exec_write_req`. -/
def encExecWriteReq (flags : UInt8) (len : Nat) : Option (List UInt8) :=
  if len < 2 then none else if flags > 1 then none else some [attOpExecWriteReq, flags]

/-- `enc_error_resp`. -/
def encErrorResp (opcode : UInt8) (handle : UInt16) (status : UInt8) (len : Nat) :
    Option (List UInt8) :=
  if len < 5 then none else some ([attOpError, opcode] ++ putU16 handle ++ [status])

/-- `enc_read_resp`, for a buffer that is not empty: what fits of the value. -/
def encReadResp (value : List UInt8) (len : Nat) : List UInt8 :=
  attOpReadResp :: value.take (len - 1)

/-- `enc_read_blob_resp`, for an offset within the value. -/
def encReadBlobResp (value : List UInt8) (offset len : Nat) : List UInt8 :=
  attOpReadBlobResp :: (value.drop offset).take (len - 1)

/-! ## Headers -/

/-- What a decoder accepts is what would be encoded for it. -/
theorem decHeader_eq_some_iff {opcode : UInt8} {n : Nat} {pdu value : List UInt8}
    {words : List UInt16} :
    decHeader opcode n pdu = some (words, value) ↔
      words.length = n ∧ pdu = opcode :: (putWords words ++ value) := by
  cases pdu with
  | nil => simp [decHeader]
  | cons b bs =>
    by_cases hb : b = opcode
    · rw [decHeader, if_pos hb, takeWords_eq_some_iff]
      simp [hb]
    · rw [decHeader, if_neg hb]
      simp [hb]

/-- Decoding undoes encoding, up to the end of the buffer. -/
theorem decHeader_encHeader {opcode : UInt8} {words : List UInt16} {value pdu : List UInt8}
    {len : Nat} (h : encHeader opcode words value len = some pdu) :
    decHeader opcode words.length pdu =
      some (words, value.take (len - (1 + 2 * words.length))) := by
  unfold encHeader at h
  split_ifs at h
  rw [decHeader_eq_some_iff]
  exact ⟨rfl, (Option.some.inj h).symm⟩

/-- A PDU that is decoded is encoded again from what was decoded, for a buffer it fits in. -/
theorem encHeader_decHeader {opcode : UInt8} {n : Nat} {words : List UInt16}
    {value pdu : List UInt8} {len : Nat} (h : decHeader opcode n pdu = some (words, value))
    (fits : pdu.length ≤ len) : encHeader opcode words value len = some pdu := by
  obtain ⟨rfl, rfl⟩ := decHeader_eq_some_iff.mp h
  simp only [List.length_cons, List.length_append, putWords_length] at fits
  have whole : value.take (len - (1 + 2 * words.length)) = value :=
    List.take_of_length_le (by omega)
  rw [encHeader, if_neg (by omega), whole]

theorem encHeader_length {opcode : UInt8} {words : List UInt16} {value pdu : List UInt8}
    {len : Nat} (h : encHeader opcode words value len = some pdu) :
    pdu.length = min len (1 + 2 * words.length + value.length) := by
  unfold encHeader at h
  split_ifs at h with short
  obtain rfl := Option.some.inj h
  simp only [List.length_cons, List.length_append, putWords_length, List.length_take]
  omega

/-- What a decoder for a header accepts is what the encoder writes for it in every buffer it fits
in. -/
theorem decHeader_iff_encHeader {opcode : UInt8} {n : Nat} {pdu value : List UInt8}
    {words : List UInt16} :
    decHeader opcode n pdu = some (words, value) ↔ words.length = n ∧
      ∀ len, pdu.length ≤ len → encHeader opcode words value len = some pdu := by
  constructor
  · intro h
    exact ⟨(decHeader_eq_some_iff.mp h).1, fun len fits => encHeader_decHeader h fits⟩
  · rintro ⟨rfl, h⟩
    have wide := h (pdu.length + value.length) (by omega)
    have whole := decHeader_encHeader wide
    have room := encHeader_length wide
    rwa [List.take_of_length_le (by omega)] at whole

/-! ## Members -/

theorem decWord_eq_some_iff {opcode : UInt8} {pdu : List UInt8} {w : UInt16} :
    decWord opcode pdu = some w ↔ ∃ rest, pdu = opcode :: (putU16 w ++ rest) := by
  unfold decWord
  constructor
  · intro h
    split at h
    next v rest header =>
      obtain rfl := Option.some.inj h
      obtain ⟨-, rfl⟩ := decHeader_eq_some_iff.mp header
      exact ⟨rest, by simp [putWords]⟩
    next => cases h
  · rintro ⟨rest, rfl⟩
    have header : decHeader opcode 1 (opcode :: (putU16 w ++ rest)) = some ([w], rest) :=
      decHeader_eq_some_iff.mpr ⟨rfl, by simp [putWords]⟩
    rw [header]

theorem decWords_eq_some_iff {opcode : UInt8} {pdu : List UInt8} {v w : UInt16} :
    decWords opcode pdu = some (v, w) ↔
      ∃ rest, pdu = opcode :: (putU16 v ++ putU16 w ++ rest) := by
  unfold decWords
  constructor
  · intro h
    split at h
    next v' w' rest header =>
      obtain ⟨rfl, rfl⟩ := Prod.mk.inj (Option.some.inj h)
      obtain ⟨-, rfl⟩ := decHeader_eq_some_iff.mp header
      exact ⟨rest, by simp [putWords]⟩
    next => cases h
  · rintro ⟨rest, rfl⟩
    have header : decHeader opcode 2 (opcode :: (putU16 v ++ putU16 w ++ rest)) =
        some ([v, w], rest) := decHeader_eq_some_iff.mpr ⟨rfl, by simp [putWords]⟩
    rw [header]

theorem decWordValue_eq_some_iff {opcode : UInt8} {pdu value : List UInt8} {w : UInt16} :
    decWordValue opcode pdu = some (w, value) ↔
      ∀ len, pdu.length ≤ len → encHeader opcode [w] value len = some pdu := by
  have exact := @decHeader_iff_encHeader opcode 1 pdu value [w]
  simp only [List.length_singleton, true_and] at exact
  rw [← exact, decWordValue]
  constructor
  · intro h
    split at h
    next v rest header =>
      obtain ⟨rfl, rfl⟩ := Prod.mk.inj (Option.some.inj h)
      exact header
    next => cases h
  · intro header
    rw [header]

/-- The decoders of PDUs with a value accept what their encoders write in a buffer it fits in, and
nothing else. Among them, the decoder of the response to a prepared write accepts the requests, and
none of the responses. -/
theorem value_decoders_exact (handle offset start finish uuid : UInt16) (value pdu : List UInt8) :
    (decWriteCmd pdu = some (handle, value) ↔
      ∀ len, pdu.length ≤ len → encWriteCmd handle value len = some pdu) ∧
    (decWriteReq pdu = some (handle, value) ↔
      ∀ len, pdu.length ≤ len → encWriteReq handle value len = some pdu) ∧
    (decPrepWriteResp pdu = some (handle, offset, value) ↔
      ∀ len, pdu.length ≤ len → encPrepWriteReq handle offset value len = some pdu) ∧
    (decFindByTypeReq pdu = some (start, finish, uuid, value) ↔
      ∀ len, pdu.length ≤ len → encFindByTypeReq start finish uuid value len = some pdu) ∧
    (pdu.head? = some attOpPrepWriteResp → decPrepWriteResp pdu = none) := by
  refine ⟨decWordValue_eq_some_iff, decWordValue_eq_some_iff, ?_, ?_, ?_⟩
  · have exact := @decHeader_iff_encHeader attOpPrepWriteReq 2 pdu value [handle, offset]
    simp only [List.length_cons, List.length_nil, true_and] at exact
    simp only [encPrepWriteReq]
    rw [← exact, decPrepWriteResp]
    constructor
    · intro h
      split at h
      next h' o' rest header =>
        simp only [Option.some.injEq, Prod.mk.injEq] at h
        obtain ⟨rfl, rfl, rfl⟩ := h
        exact header
      next => cases h
    · intro header
      rw [header]
  · have exact := @decHeader_iff_encHeader attOpFindByTypeReq 3 pdu value [start, finish, uuid]
    simp only [List.length_cons, List.length_nil, true_and] at exact
    simp only [encFindByTypeReq]
    rw [← exact, decFindByTypeReq]
    constructor
    · intro h
      split at h
      next s' f' u' rest header =>
        simp only [Option.some.injEq, Prod.mk.injEq] at h
        obtain ⟨rfl, rfl, rfl, rfl⟩ := h
        exact header
      next => cases h
    · intro header
      rw [header]
  · intro first
    obtain ⟨bs, rfl⟩ : ∃ bs, pdu = attOpPrepWriteResp :: bs := by
      cases pdu with
      | nil => simp at first
      | cons b bs => exact ⟨bs, by simpa using first⟩
    have other : attOpPrepWriteResp ≠ attOpPrepWriteReq := by decide
    rw [decPrepWriteResp, decHeader, if_neg other]

/-- The decoders of PDUs without a value accept what their encoders write, with anything after it;
each encoder writes the same whatever the buffer, when it writes at all. -/
theorem word_decoders_exact (handle offset start finish mtu : UInt16) (pdu : List UInt8) (len : Nat)
    (room : 5 ≤ len) :
    (decReadReq pdu = some handle ↔
      ∃ out rest, encReadReq handle len = some out ∧ pdu = out ++ rest) ∧
    (decMtuReq pdu = some mtu ↔ ∃ out rest, encMtuReq mtu len = some out ∧ pdu = out ++ rest) ∧
    (decMtuResp pdu = some mtu ↔ ∃ out rest, encMtuResp mtu len = some out ∧ pdu = out ++ rest) ∧
    (decReadBlobReq pdu = some (handle, offset) ↔
      ∃ out rest, encReadBlobReq handle offset len = some out ∧ pdu = out ++ rest) ∧
    (decFindInfoReq pdu = some (start, finish) ↔
      ∃ out rest, encFindInfoReq start finish len = some out ∧ pdu = out ++ rest) := by
  have one (opcode : UInt8) (w : UInt16) : decWord opcode pdu = some w ↔
      ∃ out rest, encHeader opcode [w] [] len = some out ∧ pdu = out ++ rest := by
    have fits : 3 ≤ len := by omega
    simp [decWord_eq_some_iff, encHeader, fits, putWords]
  have two (opcode : UInt8) (v w : UInt16) : decWords opcode pdu = some (v, w) ↔
      ∃ out rest, encHeader opcode [v, w] [] len = some out ∧ pdu = out ++ rest := by
    simp [decWords_eq_some_iff, encHeader, room, putWords]
  exact ⟨one _ _, one _ _, one _ _, two _ _ _, two _ _ _⟩

end LibMip.Att
