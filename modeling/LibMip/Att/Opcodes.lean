import LibMip.Notification.Safety

/-!
# Opcodes

The opcodes and error codes of the attribute protocol, and the two tables of `gattrib.c`: which
opcodes are responses, and which response a request expects.
-/

namespace LibMip

def attOpError : UInt8 := 0x01
def attOpMtuReq : UInt8 := 0x02
def attOpMtuResp : UInt8 := 0x03
def attOpFindInfoReq : UInt8 := 0x04
def attOpFindInfoResp : UInt8 := 0x05
def attOpFindByTypeReq : UInt8 := 0x06
def attOpFindByTypeResp : UInt8 := 0x07
def attOpReadByTypeReq : UInt8 := 0x08
def attOpReadByTypeResp : UInt8 := 0x09
def attOpReadReq : UInt8 := 0x0A
def attOpReadResp : UInt8 := 0x0B
def attOpReadBlobReq : UInt8 := 0x0C
def attOpReadBlobResp : UInt8 := 0x0D
def attOpReadMultiReq : UInt8 := 0x0E
def attOpReadMultiResp : UInt8 := 0x0F
def attOpReadByGroupReq : UInt8 := 0x10
def attOpReadByGroupResp : UInt8 := 0x11
def attOpWriteReq : UInt8 := 0x12
def attOpWriteResp : UInt8 := 0x13
def attOpWriteCmd : UInt8 := 0x52
def attOpPrepWriteReq : UInt8 := 0x16
def attOpPrepWriteResp : UInt8 := 0x17
def attOpExecWriteReq : UInt8 := 0x18
def attOpExecWriteResp : UInt8 := 0x19
def attOpHandleCnf : UInt8 := 0x1E

def attEcodeInvalidHandle : UInt8 := 0x01
def attEcodeInvalidOffset : UInt8 := 0x07
def attEcodePrepQueueFull : UInt8 := 0x09
def attEcodeAttrNotFound : UInt8 := 0x0A
def attEcodeIo : UInt8 := 0x80
def attEcodeTimeout : UInt8 := 0x81
def attEcodeAborted : UInt8 := 0x82

def attCancelAllPrepWrites : UInt8 := 0x00
def attWriteAllPrepWrites : UInt8 := 0x01

def attDefaultLeMtu : Nat := 23

/-- `opcode2expected`. -/
def opcode2expected (opcode : UInt8) : UInt8 :=
  if opcode = attOpMtuReq then attOpMtuResp
  else if opcode = attOpFindInfoReq then attOpFindInfoResp
  else if opcode = attOpFindByTypeReq then attOpFindByTypeResp
  else if opcode = attOpReadByTypeReq then attOpReadByTypeResp
  else if opcode = attOpReadReq then attOpReadResp
  else if opcode = attOpReadBlobReq then attOpReadBlobResp
  else if opcode = attOpReadMultiReq then attOpReadMultiResp
  else if opcode = attOpReadByGroupReq then attOpReadByGroupResp
  else if opcode = attOpWriteReq then attOpWriteResp
  else if opcode = attOpPrepWriteReq then attOpPrepWriteResp
  else if opcode = attOpExecWriteReq then attOpExecWriteResp
  else if opcode = attOpHandleInd then attOpHandleCnf
  else 0

/-- What is expected is a response, and a response expects nothing. -/
theorem opcode2expected_table :
    ∀ opcode : UInt8, (opcode2expected opcode ≠ 0 → isResponse (opcode2expected opcode) = true) ∧
      (isResponse opcode = true → opcode2expected opcode = 0) := by
  have h : ∀ n < 256,
      (opcode2expected (UInt8.ofNat n) ≠ 0 →
        isResponse (opcode2expected (UInt8.ofNat n)) = true) ∧
      (isResponse (UInt8.ofNat n) = true → opcode2expected (UInt8.ofNat n) = 0) := by
    decide +kernel
  intro opcode
  simpa using h opcode.toNat opcode.toNat_lt

theorem opcode2expected_of_isResponse {opcode : UInt8} (h : isResponse opcode = true) :
    opcode2expected opcode = 0 := (opcode2expected_table opcode).2 h

/-- No request expects an error. -/
theorem opcode2expected_ne_error (opcode : UInt8) : opcode2expected opcode ≠ attOpError := by
  have h : ∀ n < 256, opcode2expected (UInt8.ofNat n) ≠ attOpError := by decide +kernel
  simpa using h opcode.toNat opcode.toNat_lt

end LibMip
