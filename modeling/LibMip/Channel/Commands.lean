import LibMip.Att.Codec
import LibMip.Channel.WakeUp

/-!
# A channel for write commands only

A client that sends nothing but write commands, to a peer that answers none of them, keeps its
channel in a small part of its states: no responses are queued, no command is ever out, the timer
never starts and the channel never goes stale. There each operation changes the queue of requests,
the watch that writes and the counter, as `withQueue` does, and what it changes is given by one
equation for each.
-/

namespace LibMip.Channel

variable {κ : Type*}

/-- `gatt_write_cmd`, when the buffer has room for the header. -/
def gattWriteCmd (a : Attrib κ) (handle : UInt16) (value : List UInt8) (userData : κ)
    (notify : Bool) : Option (Attrib κ × UInt32) :=
  (Att.encWriteCmd handle value a.buflen).map fun pdu =>
    ((a.send 0 pdu false userData notify).1, (a.send 0 pdu false userData notify).2.1)

/-- A command that waits to be written and expects no response. -/
def Command.Waits (c : Command κ) : Prop := c.sent = false ∧ c.expected = 0

namespace Attrib

/-- The owner holds one reference to the channel, the watch that writes another. -/
structure Commanding (a : Attrib κ) : Prop where
  alive : a.freed = false
  fresh : a.stale = false
  counted : a.refs = if a.writeWatch then 2 else 1
  still : a.timeoutWatch = false ∧ a.ticking = false
  noResponse : a.responses = []
  waits : ∀ c ∈ a.requests, c.Waits

/-- The channel with another queue of requests, counter and watch. -/
def withQueue (a : Attrib κ) (awake : Bool) (n : UInt32) (q : List (Command κ)) : Attrib κ :=
  { a with writeWatch := awake, refs := if awake then 2 else 1, nextCmdId := n, requests := q }

section Fields

variable (a : Attrib κ) (awake : Bool) (n : UInt32) (q : List (Command κ))

@[simp] theorem withQueue_requests : (a.withQueue awake n q).requests = q := rfl

@[simp] theorem withQueue_writeWatch : (a.withQueue awake n q).writeWatch = awake := rfl

@[simp] theorem withQueue_reading : (a.withQueue awake n q).reading = a.reading := rfl

@[simp] theorem withQueue_buflen : (a.withQueue awake n q).buflen = a.buflen := rfl

@[simp] theorem withQueue_events : (a.withQueue awake n q).events = a.events := rfl

@[simp] theorem withQueue_nextCmdId : (a.withQueue awake n q).nextCmdId = n := rfl

end Fields

namespace Commanding

variable {a : Attrib κ}

theorem withQueue (h : a.Commanding) {awake : Bool} {n : UInt32} {q : List (Command κ)}
    (waits : ∀ c ∈ q, c.Waits) : (a.withQueue awake n q).Commanding :=
  ⟨h.alive, h.fresh, rfl, h.still, h.noResponse, waits⟩

theorem withQueue_self (h : a.Commanding) :
    a.withQueue a.writeWatch a.nextCmdId a.requests = a := by
  rw [Attrib.withQueue, ← h.counted]

theorem wakeUpSender_eq (h : a.Commanding) (n : UInt32) (q : List (Command κ)) :
    ({ a with nextCmdId := n, requests := q } : Attrib κ).wakeUpSender =
      a.withQueue true n q := by
  have counted := h.counted
  unfold wakeUpSender Attrib.withQueue
  cases watch : a.writeWatch <;> simp_all

theorem send_eq (h : a.Commanding) {pdu : List UInt8} (cmd : pdu.headD 0 = attOpWriteCmd)
    (func : Bool) (u : κ) (n : Bool) :
    a.send 0 pdu func u n =
      (a.withQueue (a.writeWatch || a.requests.isEmpty) (a.nextCmdId + 1)
        (a.requests ++ [.new 0 (a.nextCmdId + 1) pdu func u n]), a.nextCmdId + 1,
        [.push (.new 0 (a.nextCmdId + 1) pdu func u n)]) := by
  have request : isResponse (pdu.headD 0) = false := by
    rw [cmd]
    decide
  have counted := h.counted
  rw [send, if_neg (by simp [h.fresh])]
  simp only [ne_eq, not_true_eq_false, if_false, decide_false, enqueue, Command.new, request,
    Bool.false_eq_true, List.length_append, List.length_singleton]
  cases queue : a.requests with
  | nil => simp [h.wakeUpSender_eq]
  | cons c q => simp [Attrib.withQueue, ← counted]

theorem new_waits {id n : UInt32} {pdu : List UInt8} (cmd : pdu.headD 0 = attOpWriteCmd)
    (func : Bool) (u : κ) (notify : Bool) : (Command.new id n pdu func u notify).Waits := by
  refine ⟨rfl, ?_⟩
  simp only [Command.new, cmd]
  decide

/-- The watch writes the oldest command and stays on, or goes without writing. -/
theorem onWritable_eq (h : a.Commanding) (on : a.writeWatch = true) (hup written : Bool) :
    a.onWritable hup written =
      match a.requests with
      | c :: q =>
        if hup = false ∧ written = true then
          (a.withQueue true a.nextCmdId q, [.write c, .destroy c])
        else (a.withQueue false a.nextCmdId a.requests, [])
      | [] => (a.withQueue false a.nextCmdId [], []) := by
  have counted : a.refs = 2 := by simpa [on] using h.counted
  have goes : a.destroySender = (a.withQueue false a.nextCmdId a.requests, []) := by
    simp [destroySender, unref, counted, Attrib.withQueue]
  unfold onWritable canWriteData
  rw [h.fresh, h.noResponse]
  cases queue : a.requests with
  | nil => cases hup <;> simp [goes, queue]
  | cons c q =>
    obtain ⟨unsent, expects⟩ := h.waits c (by simp [queue])
    cases hup <;> cases written <;>
      simp [writeHead, unsent, expects, goes, queue, Attrib.withQueue, on, counted,
        h.noResponse, h.fresh]

theorem receivedData_eq (h : a.Commanding) {bytes : List UInt8}
    (event : isResponse (bytes.headD 0) = false) :
    a.receivedData false (some bytes) = (a, a.dispatch bytes) := by
  simp only [receivedData, h.fresh, event, Bool.false_eq_true, if_false, if_true]

theorem receivedData_none (h : a.Commanding) :
    a.receivedData false none =
      (a.withQueue (a.writeWatch || !a.requests.isEmpty) a.nextCmdId a.requests, []) := by
  simp only [receivedData, h.fresh, wakeIfQueued, h.noResponse, and_true, Bool.false_eq_true,
    if_false]
  cases queue : a.requests with
  | nil => simpa [queue] using h.withQueue_self.symm
  | cons c q =>
    have woken : a.wakeUpSender = a.withQueue true a.nextCmdId (c :: q) := by
      rw [← queue]
      exact h.wakeUpSender_eq a.nextCmdId a.requests
    simpa [queue] using woken

end Commanding

end Attrib

end LibMip.Channel
