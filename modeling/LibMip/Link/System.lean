import LibMip.Calls
import LibMip.Channel.Commands
import LibMip.Foundation.Duplex
import LibMip.Robot.ReadBack

/-!
# The object, its channel and the robot

The whole path of an order and of its answer. A call of the class issues orders, one at a time
between iterations of the main loop; `send_order` encodes each as a write command and queues it on
the channel; the channel hands the commands to the radio; the robot decodes and serves them in the
order of arrival, and spells its answers out in notifications; `received_data` reads these one at
a time and gives them to the handlers `connect_cb` registered.

The radio carries PDUs in order in both directions, and tells the channel whether it can write,
whether the write succeeds, and whether a read fails or the connection is gone.
-/

namespace LibMip

open Channel Octets Runs

namespace Mip

/-- The handle orders are written to, as the parameter of `gatt_write_cmd` receives it. -/
def writeHandle (m : Mip) : UInt16 := UInt16.ofNat (m.handleWrite % 65536).toNat

/-- The handle answers arrive on, as the parameter of `g_attrib_register` receives it. -/
def readHandle (m : Mip) : UInt16 := UInt16.ofNat (m.handleRead % 65536).toNat

/-- The handlers of the events among the effects of a step, in turn. -/
def handleEvents (m : Mip) : List (Effect Unit) → Option Mip
  | [] => some m
  | .event bytes _ :: out =>
    if fits : bytes.length < 65536 then
      match m.eventsHandler ⟨bytes, fits⟩ with
      | .ok r => r.1.handleEvents out
      | .error _ => none
    else none
  | _ :: out => m.handleEvents out

end Mip

/-- The choices the robot has in writing an answer: a notification or an indication, and the case
of the letters of each byte. -/
structure Spelling where
  indicates : Bool
  upper : Nat → Bool × Bool

namespace Spelling

variable (sp : Spelling)

def opcode : UInt8 := if sp.indicates then attOpHandleInd else attOpHandleNotify

def byte (i : Nat) (value : UInt8) : HexByte := ⟨value, (sp.upper i).1, (sp.upper i).2⟩

/-- The PDU of an answer on the handle the object reads. -/
def pdu (a : Answer) : List UInt8 :=
  let handle := Mip.init.readHandle
  robotBytes sp.opcode (UInt8.ofNat handle.toNat) (UInt8.ofNat (handle.toNat / 256))
    (sp.byte 0 a.cmd) (a.values.mapIdx fun i value => sp.byte (i + 1) value)

end Spelling

/-- The robot as it is switched on. -/
def Robot.switchedOn : Robot := ⟨1, 7, ⟨0, 255, 0, 0, 0⟩, ⟨1, 1, 1, 1⟩, 0⟩

/-- The robot serves the write commands on the handle the object writes, and no other PDU. -/
def Robot.onPdu (r : Robot) (sp : Spelling) (bytes : List UInt8) : Robot × List (List UInt8) :=
  match Att.decWriteCmd bytes with
  | some (handle, order) =>
    if handle = Mip.init.writeHandle then ((r.serve order).1, (r.serve order).2.map sp.pdu)
    else (r, [])
  | none => (r, [])

/-- `issuing` are the orders of the call in progress that are still to be sent; `down` and `up`
are the PDUs in the air. -/
structure Link where
  mip : Mip
  issuing : List Order
  attrib : Attrib Unit
  down : List (List UInt8)
  robot : Robot
  up : List (List UInt8)

inductive LinkAct where
  | call (c : Call)
  /-- The call in progress reaches its next `send_order`. -/
  | sendOrder
  | canWrite (hup written : Bool)
  | serve (sp : Spelling)
  | receive
  | readFails
  | hangUp

namespace Link

/-- The channel `connect_cb` makes, with its two registrations. -/
def connected (m : Mip) : Attrib Unit :=
  m.events.foldl (fun a evt => (a.register evt.expected evt.handle () false).1)
    (Channel.gAttribNew true attDefaultLeMtu)

/-- A new object just after `connect_cb`, with a robot in some state. -/
def init (r : Robot) : Link where
  mip := { Mip.init with attrib := some 0, isConnected := true }
  issuing := []
  attrib := connected Mip.init
  down := []
  robot := r
  up := []

variable (s : Link)

/-- `Mip::send_order` up to the comparison, with the value `gatt_write_cmd` returned. -/
def sendOrder : Option (Link × UInt32) :=
  match s.issuing with
  | [] => none
  | order :: issuing =>
    (gattWriteCmd s.attrib s.mip.writeHandle order () false).map fun r =>
      ({ s with mip := { s.mip with nattrib := s.mip.nattrib + 1 }, issuing, attrib := r.1 }, r.2)

def step : LinkAct → Option Link
  | .call c =>
    if s.issuing = [] then
      match s.mip.perform c with
      | .ok (mip, orders) => some { s with mip, issuing := orders }
      | .error _ => none
    else none
  | .sendOrder => s.sendOrder.map Prod.fst
  | .canWrite hup written =>
    (s.attrib.step (.canWrite hup written)).map fun r =>
      { s with attrib := r.1, down := s.down ++ (writes r.2).map Command.pdu }
  | .serve sp =>
    match s.down with
    | [] => none
    | bytes :: down =>
      let r := s.robot.onPdu sp bytes
      some { s with down, robot := r.1, up := s.up ++ r.2 }
  | .receive =>
    match s.up with
    | [] => none
    | bytes :: up =>
      (s.attrib.step (.received false (some bytes))).bind fun r =>
        (s.mip.handleEvents r.2).map fun mip => { s with mip, attrib := r.1, up }
  | .readFails => (s.attrib.step (.received false none)).map fun r => { s with attrib := r.1 }
  | .hangUp => (s.attrib.step (.received true none)).map fun r => { s with attrib := r.1 }

def machine (r : Robot) : Machine Link LinkAct := ⟨init r, step⟩

end Link

/-! ## The same with nothing in between

Calls put orders straight on a queue for the robot, counting all of them, and its answers wait in
a queue for the object. -/

/-- The object when it has sent so many orders more. -/
def Mip.counting (m : Mip) (n : Nat) : Mip := { m with nattrib := m.nattrib + UInt32.ofNat n }

def mipSystem : Duplex.System Call Mip Robot Order Answer where
  call m c := (m.perform c).toOption.map fun r => (r.1.counting r.2.length, r.2)
  serve r o := r.serve o
  receive m a := some (m.storeResults a.notification.cmd a.notification.values).1

def mipInit (r : Robot) : Duplex.State Mip Robot Order Answer := ⟨(Link.init r).mip, [], r, []⟩

/-- What an action is in the system without the channel. -/
def LinkAct.image : LinkAct → List (Duplex.Act Call)
  | .call c => [.call c]
  | .serve _ => [.serve]
  | .receive => [.receive]
  | .sendOrder | .canWrite _ _ | .readFails | .hangUp => []

end LibMip
