import LibMip.Att.Codec
import LibMip.Channel.Attrib
import LibMip.Foundation.Exchange

/-!
# Requests of the procedures

The procedures of `gatt.c` send requests with a callback, and each callback sends the next one or
reports a result. What a callback is given for a request is decided by `received_data`: the
response as far as its buffer of 512 octets goes, and a status that is zero for the response the
request expects, the code in an error response, and an error of its own otherwise.
-/

namespace LibMip.Gatt

open Att Channel Octets

/-- The status of a response and the response itself, as a callback receives them. -/
abbrev Answer := UInt8 × List UInt8

/-- The size of the buffer of a channel, which is never below the default. -/
structure Buflen where
  len : Nat
  least : attDefaultLeMtu ≤ len

/-- The status of a response to a request. -/
def status (request response : List UInt8) : UInt8 :=
  Attrib.responseStatus (.new 0 0 request true () false) response

/-- A server's response to a request as the callback receives it. -/
def reported {ρ : Type*} (respond : ρ → List UInt8 → ρ × List UInt8) (w : ρ)
    (request : List UInt8) : ρ × Answer :=
  ((respond w request).1, status request ((respond w request).2.take 512),
    (respond w request).2.take 512)

/-- A response that fits in the buffer is received whole. -/
theorem reported_eq {ρ : Type*} {respond : ρ → List UInt8 → ρ × List UInt8} {w : ρ}
    {request response : List UInt8} (h : (respond w request).2 = response)
    (fits : response.length ≤ 512) :
    (reported respond w request).2 = (status request response, response) := by
  rw [reported, h, List.take_of_length_le fits]

/-- The response a request expects has no error. -/
theorem status_expected {opcode : UInt8} {request response : List UInt8} :
    status (opcode :: request) (opcode2expected opcode :: response) = 0 := by
  have noError := opcode2expected_ne_error opcode
  simp [status, Attrib.responseStatus, Command.new, noError]

/-- An error response has the error it names. -/
theorem status_error (request : List UInt8) (opcode lo hi code : UInt8) :
    status request [attOpError, opcode, lo, hi, code] = code := by
  simp [status, Attrib.responseStatus]

/-- The header of a request fits in every buffer. -/
theorem Buflen.room (b : Buflen) {n : Nat} (small : n ≤ attDefaultLeMtu) : ¬ b.len < n :=
  Nat.not_lt.mpr (small.trans b.least)

theorem readReq_eq (b : Buflen) (handle : UInt16) :
    (encReadReq handle b.len).getD [] = attOpReadReq :: putU16 handle := by
  have fits : ¬ b.len < 3 := b.room (by decide)
  simp [encReadReq, encHeader, putWords, fits]

end LibMip.Gatt
