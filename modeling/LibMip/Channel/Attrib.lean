import LibMip.Att.Opcodes
import LibMip.Foundation.Outputs

/-!
# The attribute channel

`gattrib.c` keeps two queues of commands, one of requests and one of responses, and hands their
heads to the radio from a watch that is on only while there is something to write. A request
stays at the head of its queue, marked as sent, until a response, a timeout or a cancellation
removes it; the timer runs from its transmission on. `World.GAttrib` is what is left of this
when only write commands are sent.

A step is a call of one of the public functions, or an invocation of one of the three functions
the main loop calls, which happens only while the source it belongs to is attached. Functions
that a callback calls in turn are taken as steps after the one that invoked it. The code runs
some of them in its midst: what the `func` of a request calls when it times out comes before
`disconnect_timeout` makes the channel stale, and what a registration calls comes before
`received_data` takes the request off its queue.
-/

namespace LibMip.Channel

variable {κ : Type*}

/-- `struct command`; of the two functions, whether they are set. -/
structure Command (κ : Type*) where
  id : UInt32
  opcode : UInt8
  pdu : List UInt8
  expected : UInt8
  sent : Bool
  func : Bool
  userData : κ
  notify : Bool

/-- The command `g_attrib_send` makes, with the identifier given or else the counter's value. -/
def Command.new (id nextCmdId : UInt32) (pdu : List UInt8) (func : Bool) (userData : κ)
    (notify : Bool) : Command κ :=
  ⟨if id ≠ 0 then id else nextCmdId, pdu.headD 0, pdu, opcode2expected (pdu.headD 0), false, func,
    userData, notify⟩

/-- `struct event`. -/
structure Event (κ : Type*) extends GattEvent where
  id : UInt32
  userData : κ
  notify : Bool

/-- What a step does besides changing the channel: a command is queued, written to the radio,
reported to its `func` or destroyed, a PDU is reported to a registration, a registration is
destroyed. -/
inductive Effect (κ : Type*) where
  | push (cmd : Command κ)
  | write (cmd : Command κ)
  | func (status : UInt8) (bytes : List UInt8) (cmd : Command κ)
  | destroy (cmd : Command κ)
  | event (bytes : List UInt8) (evt : Event κ)
  | eventDestroy (evt : Event κ)

/-- The part of `struct _GAttrib` that deals with commands. The sources of `can_write_data` and
`disconnect_timeout` are attached while `writeWatch` and `ticking` hold. Once the structure is
`freed`, there is no behaviour. -/
structure Sender (κ : Type*) where
  writeWatch : Bool
  timeoutWatch : Bool
  ticking : Bool
  requests : List (Command κ)
  responses : List (Command κ)
  nextCmdId : UInt32
  stale : Bool
  freed : Bool

/-- `struct _GAttrib`. The source of `received_data` is attached while `reading` holds. -/
structure Attrib (κ : Type*) extends Sender κ where
  refs : Nat
  buflen : Nat
  reading : Bool
  events : List (Event κ)
  nextEvtId : UInt32

/-- `g_attrib_new`, on a channel for the attribute protocol or with a given MTU. -/
def gAttribNew (attCid : Bool) (imtu : Nat) : Attrib κ where
  refs := 1
  buflen := if attCid then attDefaultLeMtu else imtu
  reading := true
  writeWatch := false
  timeoutWatch := false
  ticking := false
  requests := []
  responses := []
  events := []
  nextCmdId := 0
  nextEvtId := 0
  stale := false
  freed := false

namespace Attrib

variable (a : Attrib κ)

/-! ## References -/

/-- `attrib_destroy`. -/
def attribDestroy : Attrib κ × List (Effect κ) :=
  ({ a with reading := false, writeWatch := false, timeoutWatch := false, ticking := false,
            requests := [], responses := [], events := [], freed := true },
    a.requests.map .destroy ++ a.responses.map .destroy ++ a.events.map .eventDestroy)

/-- `g_attrib_ref`. -/
def ref : Attrib κ := { a with refs := a.refs + 1 }

/-- `g_attrib_unref`. Dropping, while the watch is on, more references than were taken is not
followed into `attrib_destroy`, which removes the watch and with it drops one more. -/
def unref : Attrib κ × List (Effect κ) :=
  if a.refs - 1 > 0 then ({ a with refs := a.refs - 1 }, [])
  else { a with refs := a.refs - 1 }.attribDestroy

/-! ## The sender -/

/-- `wake_up_sender`. -/
def wakeUpSender : Attrib κ :=
  if a.writeWatch then a else { a with refs := a.refs + 1, writeWatch := true }

/-- `destroy_sender`. -/
def destroySender : Attrib κ × List (Effect κ) := { a with writeWatch := false }.unref

/-- What `can_write_data` does with the head `cmd` of the queue that `put` writes back; the rest
of the queue is `queue`. -/
def writeHead (put : List (Command κ) → Attrib κ) (cmd : Command κ) (queue : List (Command κ))
    (written : Bool) : Attrib κ × List (Effect κ) × Bool :=
  if cmd.sent then (a, [], false)
  else if written = false then (a, [], false)
  else if cmd.expected = 0 then (put queue, [.write cmd, .destroy cmd], true)
  else
    let b := put ({ cmd with sent := true } :: queue)
    (if b.timeoutWatch then b else { b with timeoutWatch := true, ticking := true },
      [.write cmd], false)

/-- `can_write_data`, on a condition with or without an error, when the write would succeed or
not; the flag returned says whether the source stays attached. -/
def canWriteData (hup written : Bool) : Attrib κ × List (Effect κ) × Bool :=
  if a.stale then (a, [], false)
  else if hup then (a, [], false)
  else
    match a.responses, a.requests with
    | cmd :: queue, _ => a.writeHead (fun q => { a with responses := q }) cmd queue written
    | [], cmd :: queue => a.writeHead (fun q => { a with requests := q }) cmd queue written
    | [], [] => (a, [], false)

/-- The main loop invokes `can_write_data`, and `destroy_sender` when the source goes. -/
def onWritable (hup written : Bool) : Attrib κ × List (Effect κ) :=
  let r := a.canWriteData hup written
  if r.2.2 then (r.1, r.2.1)
  else (r.1.destroySender.1, r.2.1 ++ r.1.destroySender.2)

/-! ## Sending and cancelling -/

/-- The end of `g_attrib_send`, where `front` says that an identifier was given. -/
def enqueue (c : Command κ) (front : Bool) : Attrib κ :=
  if isResponse c.opcode then
    let b := { a with responses := a.responses ++ [c] }
    if b.responses.length = 1 then b.wakeUpSender else b
  else
    let b := { a with requests := if front then c :: a.requests else a.requests ++ [c] }
    if b.requests.length = 1 then b.wakeUpSender else b

/-- `g_attrib_send`, with the number it returns. -/
def send (id : UInt32) (pdu : List UInt8) (func : Bool) (userData : κ) (notify : Bool) :
    Attrib κ × UInt32 × List (Effect κ) :=
  if a.stale then (a, 0, [])
  else
    let count := if id ≠ 0 then a.nextCmdId else a.nextCmdId + 1
    let c := Command.new id count pdu func userData notify
    ({ a with nextCmdId := count }.enqueue c (id ≠ 0), c.id, [.push c])

/-- The first command with a given identifier taken out of a queue. -/
def removeById (id : UInt32) : List (Command κ) → Option (Command κ × List (Command κ))
  | [] => none
  | c :: q => if c.id = id then some (c, q) else (removeById id q).map fun r => (r.1, c :: r.2)

/-- `g_attrib_cancel` on one queue; a command that was sent stays, without its `func`. -/
def cancelPerQueue (id : UInt32) : List (Command κ) → Option (List (Command κ) × List (Effect κ))
  | [] => none
  | c :: q =>
    if c.id = id ∧ c.sent then some ({ c with func := false } :: q, [])
    else (removeById id (c :: q)).map fun r => (r.2, [.destroy r.1])

/-- `g_attrib_cancel`. -/
def cancel (id : UInt32) : Attrib κ × Bool × List (Effect κ) :=
  match cancelPerQueue id a.requests with
  | some r => ({ a with requests := r.1 }, true, r.2)
  | none =>
    match cancelPerQueue id a.responses with
    | some r => ({ a with responses := r.1 }, true, r.2)
    | none => (a, false, [])

/-- The loop of `cancel_all_per_queue`, with the command it puts back in the queue: as long as
none was destroyed, a command that was sent takes the place of the one kept so far. -/
def cancelAllLoop (head : Option (Command κ)) (first : Bool) :
    List (Command κ) → List (Command κ) × List (Effect κ)
  | [] => (head.toList, [])
  | c :: q =>
    if first && c.sent then cancelAllLoop (some { c with func := false }) first q
    else
      let r := cancelAllLoop head false q
      (r.1, .destroy c :: r.2)

/-- `cancel_all_per_queue`. -/
def cancelAllPerQueue (q : List (Command κ)) : List (Command κ) × List (Effect κ) :=
  cancelAllLoop none true q

/-- `g_attrib_cancel_all`. -/
def cancelAll : Attrib κ × List (Effect κ) :=
  ({ a with requests := (cancelAllPerQueue a.requests).1
            responses := (cancelAllPerQueue a.responses).1 },
    (cancelAllPerQueue a.requests).2 ++ (cancelAllPerQueue a.responses).2)

/-! ## Receiving and the timer -/

/-- Wake the sender if anything is queued. -/
def wakeIfQueued : Attrib κ :=
  if a.requests = [] ∧ a.responses = [] then a else a.wakeUpSender

/-- The status a response gives to the request at the head. -/
def responseStatus (cmd : Command κ) (bytes : List UInt8) : UInt8 :=
  if bytes.headD 0 = attOpError then bytes.getD 4 0
  else if cmd.expected ≠ bytes.headD 0 then attEcodeIo
  else 0

/-- The calls of `func` and `command_destroy` at the end of a command. -/
def finish (cmd : Command κ) (status : UInt8) (bytes : List UInt8) : List (Effect κ) :=
  (if cmd.func then [.func status bytes cmd] else []) ++ [.destroy cmd]

/-- The registrations a PDU is reported to. -/
def dispatch (bytes : List UInt8) : List (Effect κ) :=
  (a.events.filter fun evt => matchEvent evt.toGattEvent bytes = .ok true).map (.event bytes)

/-- `received_data`, on a condition with or without an error, when the read gives some bytes or
fails. The buffer is of zeros after them. -/
def receivedData (hup : Bool) (read : Option (List UInt8)) : Attrib κ × List (Effect κ) :=
  if a.stale then ({ a with reading := false }, [])
  else if hup then ({ a with reading := false }, [])
  else
    match read with
    | none => (a.wakeIfQueued, [])
    | some bytes =>
      if isResponse (bytes.headD 0) = false then (a, a.dispatch bytes)
      else
        let b := { a with timeoutWatch := false, ticking := false }
        match a.requests with
        | [] => ({ b with reading := !a.events.isEmpty }, a.dispatch bytes)
        | cmd :: requests =>
          ({ b with requests := requests }.wakeIfQueued,
            a.dispatch bytes ++ finish cmd (responseStatus cmd bytes) bytes)

/-- The first request timed out, those after it are aborted. -/
def expire : List (Command κ) → List (Effect κ)
  | [] => []
  | c :: cs => finish c attEcodeTimeout [] ++ cs.flatMap fun c => finish c attEcodeAborted []

/-- `disconnect_timeout`. -/
def disconnectTimeout : Attrib κ × List (Effect κ) :=
  ({ a with requests := [], stale := true, ticking := false }, expire a.requests)

/-! ## Registrations -/

/-- `g_attrib_register`; the counter of identifiers is static. -/
def register (opcode : UInt8) (handle : Nat) (userData : κ) (notify : Bool) : Attrib κ × UInt32 :=
  ({ a with nextEvtId := a.nextEvtId + 1
            events := a.events ++ [⟨⟨opcode, handle⟩, a.nextEvtId + 1, userData, notify⟩] },
    a.nextEvtId + 1)

/-- The first registration with a given identifier taken out of the list. -/
def removeEvent (id : UInt32) : List (Event κ) → Option (Event κ × List (Event κ))
  | [] => none
  | e :: l => if e.id = id then some (e, l) else (removeEvent id l).map fun r => (r.1, e :: r.2)

/-- `g_attrib_unregister`. -/
def unregister (id : UInt32) : Attrib κ × Bool × List (Effect κ) :=
  if id = 0 then (a, false, [])
  else
    match removeEvent id a.events with
    | none => (a, false, [])
    | some r => ({ a with events := r.2 }, true, [.eventDestroy r.1])

/-- `g_attrib_unregister_all`. -/
def unregisterAll : Attrib κ × Bool × List (Effect κ) :=
  if a.events = [] then (a, false, [])
  else ({ a with events := [] }, true, a.events.map .eventDestroy)

/-- `g_attrib_set_mtu`. -/
def setMtu (mtu : Int) : Attrib κ × Bool :=
  if mtu < attDefaultLeMtu then (a, false) else ({ a with buflen := mtu.toNat }, true)

end Attrib

/-! ## Steps -/

inductive Op (κ : Type*) where
  | send (id : UInt32) (pdu : List UInt8) (func : Bool) (userData : κ) (notify : Bool)
  | cancel (id : UInt32)
  | cancelAll
  | canWrite (hup written : Bool)
  | received (hup : Bool) (read : Option (List UInt8))
  | timeout
  | register (opcode : UInt8) (handle : Nat) (userData : κ) (notify : Bool)
  | unregister (id : UInt32)
  | unregisterAll
  | setMtu (mtu : Int)
  | ref
  | unref

/-- The steps of a channel that has not been freed. A function of the main loop runs while its
source is attached, and a PDU to send has an opcode. -/
def Attrib.stepLive (a : Attrib κ) : Op κ → Option (Attrib κ × List (Effect κ))
  | .send id pdu func userData notify =>
    if pdu = [] then none
    else some ((a.send id pdu func userData notify).1, (a.send id pdu func userData notify).2.2)
  | .cancel id => some ((a.cancel id).1, (a.cancel id).2.2)
  | .cancelAll => some a.cancelAll
  | .canWrite hup written => if a.writeWatch then some (a.onWritable hup written) else none
  | .received hup read =>
    if a.reading then some (a.receivedData hup (read.map (List.take 512))) else none
  | .timeout => if a.ticking then some a.disconnectTimeout else none
  | .register opcode handle userData notify =>
    some ((a.register opcode handle userData notify).1, [])
  | .unregister id => some ((a.unregister id).1, (a.unregister id).2.2)
  | .unregisterAll => some (a.unregisterAll.1, a.unregisterAll.2.2)
  | .setMtu mtu => some ((a.setMtu mtu).1, [])
  | .ref => some (a.ref, [])
  | .unref => some a.unref

def Attrib.step (a : Attrib κ) (op : Op κ) : Option (Attrib κ × List (Effect κ)) :=
  if a.freed then none else a.stepLive op

/-- A channel from `g_attrib_new` on. -/
def channel (attCid : Bool) (imtu : Nat) : Runs.Transducer (Attrib κ) (Op κ) (Effect κ) where
  init := gAttribNew attCid imtu
  step := Attrib.step

end LibMip.Channel
