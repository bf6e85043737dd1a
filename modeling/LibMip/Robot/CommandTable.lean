import LibMip.Orders
import LibMip.Store

/-!
# The robot behind the command table

The robot keeps the bytes of each attribute that can be set. An order whose code sets an
attribute stores its parameters; any other order whose code is that of a request, with or
without parameters, is answered by a notification of the same code carrying the stored bytes.
-/

namespace LibMip

open CNum

/-- A notification before its bytes are spelled out. -/
structure Answer where
  cmd : UInt8
  values : List UInt8
  deriving DecidableEq

/-- What the client is to make of an answer. -/
def Answer.notification (a : Answer) : Notification :=
  ⟨a.cmd.toNat, a.values.map fun v => (v.toNat : Int)⟩

structure ChestBytes where
  r : UInt8
  g : UInt8
  b : UInt8
  on : UInt8
  off : UInt8
  deriving DecidableEq

structure HeadBytes where
  l1 : UInt8
  l2 : UInt8
  l3 : UInt8
  l4 : UInt8
  deriving DecidableEq

structure Robot where
  gameMode : UInt8
  volume : UInt8
  chestLed : ChestBytes
  headLed : HeadBytes
  gestureOrRadarMode : UInt8
  deriving DecidableEq

namespace Robot

/-- The robot after an order that sets an attribute. -/
def store (r : Robot) : Order → Option Robot
  | [cmd, p1] =>
    if cmd = uint8 cmdSetGameMode then some { r with gameMode := p1 }
    else if cmd = uint8 cmdSetMipVolume then some { r with volume := p1 }
    else if cmd = uint8 cmdSetGestureOrRadarMode then some { r with gestureOrRadarMode := p1 }
    else none
  | [cmd, p1, p2, p3] =>
    if cmd = uint8 cmdSetChestLed then some { r with chestLed := ⟨p1, p2, p3, 0, 0⟩ } else none
  | [cmd, p1, p2, p3, p4] =>
    if cmd = uint8 cmdSetHeadLed then some { r with headLed := ⟨p1, p2, p3, p4⟩ } else none
  | [cmd, p1, p2, p3, p4, p5] =>
    if cmd = uint8 cmdFlashChestLed then some { r with chestLed := ⟨p1, p2, p3, p4, p5⟩ }
    else none
  | _ => none

/-- The bytes a request code asks for. -/
def answer (r : Robot) (cmd : UInt8) : List Answer :=
  if cmd = uint8 cmdGetCurrentMipGameMode then [⟨cmd, [r.gameMode]⟩]
  else if cmd = uint8 cmdGetMipVolume then [⟨cmd, [r.volume]⟩]
  else if cmd = uint8 cmdChestLed then
    [⟨cmd, [r.chestLed.r, r.chestLed.g, r.chestLed.b, r.chestLed.on, r.chestLed.off]⟩]
  else if cmd = uint8 cmdHeadLed then
    [⟨cmd, [r.headLed.l1, r.headLed.l2, r.headLed.l3, r.headLed.l4]⟩]
  else if cmd = uint8 cmdRadarModeStatus then [⟨cmd, [r.gestureOrRadarMode]⟩]
  else []

/-- One order. -/
def serve (r : Robot) (o : Order) : Robot × List Answer :=
  match r.store o with
  | some r' => (r', [])
  | none => (r, (o.head?.map r.answer).getD [])

end Robot

end LibMip
