import LibMip.Channel.Requests
import LibMip.Foundation.Simulation
import LibMip.Gatt.Request

/-!
# Procedures over the channel

A procedure is a client of the channel: it sends requests with a callback, and the callback sends
more. Its requests are queued and written, the server answers what arrives, and what the server
sends reaches the channel, each at its own time; notifications come in between, and writes and reads
may fail. No request times out and none is cancelled.

The procedures are stated with their requests answered one after the other. Every session over the
channel is a run of that: what a client reports in a session is what it reports then, as far as the
session got. It can still get to the end exactly when nothing is left, or the channel reads and the
sender is not asleep, as a write that fails leaves it with a request queued.
-/

namespace LibMip.Gatt

open Channel Runs Sender

variable {σ κ ω ρ : Type*}

/-! ## Clients -/

/-- What a client has sent first, and what it does with the answer to a request it gave the data of
type `κ` with: the requests it sends, with their data, and what it reports. -/
structure Client (σ κ ω : Type*) where
  init : σ
  asks : List (κ × List UInt8)
  answered : σ → κ → Answer → Option (σ × List (κ × List UInt8) × List ω)

namespace Client

variable (c : Client σ κ ω)

/-- Its requests are answered in their order. -/
def inTurn : Transducer (σ × List (κ × List UInt8)) Answer ω where
  init := (c.init, c.asks)
  step s answer :=
    match s.2 with
    | [] => none
    | (data, _) :: queue =>
      (c.answered s.1 data answer).map fun r => ((r.1, queue ++ r.2.1), r.2.2)

/-- The calls of the callback in a step of the channel. -/
def callbacks (s : σ) : List (Effect κ) → Option (σ × List (κ × List UInt8) × List ω)
  | [] => some (s, [], [])
  | .func status bytes cmd :: out =>
    (c.answered s cmd.userData (status, bytes)).bind fun r =>
      (callbacks r.1 out).map fun t => (t.1, r.2.1 ++ t.2.1, r.2.2 ++ t.2.2)
  | _ :: out => callbacks s out

/-- Each request it sends is of some kind. -/
structure Asks (P : List UInt8 → Prop) : Prop where
  first : ∀ r ∈ c.asks, P r.2
  next : ∀ s data answer s' sent reports, c.answered s data answer = some (s', sent, reports) →
    ∀ r ∈ sent, P r.2

variable {c}

theorem callbacks_quiet {s : σ} {evts out : List (Effect κ)} (quiet : ∀ e ∈ evts, e.Quiet) :
    c.callbacks s (evts ++ out) = c.callbacks s out := by
  induction evts with
  | nil => rfl
  | cons e evts ih =>
    have here := quiet e List.mem_cons_self
    have rest := ih fun e he => quiet e (List.mem_cons_of_mem _ he)
    cases e with
    | event | eventDestroy => exact rest
    | _ => exact here.elim

theorem callbacks_finish {s : σ} {cmd : Command κ} (func : cmd.func = true) (status : UInt8)
    (bytes : List UInt8) : c.callbacks s (Attrib.finish cmd status bytes) =
      c.answered s cmd.userData (status, bytes) := by
  simp only [Attrib.finish, func, if_true, List.cons_append, List.nil_append, callbacks]
  cases c.answered s cmd.userData (status, bytes) <;> simp

end Client

/-- The request whose answer comes next. -/
def awaited (s : σ × List (κ × List UInt8)) : Option (List UInt8) := s.2.head?.map Prod.snd

/-! ## Sessions -/

/-- `sending` are the requests the callback has still to send; `down` and `up` are the PDUs in the
air. -/
structure Session (σ κ ω ρ : Type*) where
  client : σ
  sending : List (κ × List UInt8)
  attrib : Attrib κ
  down : List (List UInt8)
  server : ρ
  up : List (List UInt8)
  reports : List ω

inductive SessionAct where
  /-- The next request goes to `g_attrib_send`, with an identifier of its own only when nothing is
  queued, as in `gatt_read_char`. -/
  | send (id : UInt32) (notify : Bool)
  | canWrite (hup written : Bool)
  | serve
  | receive
  /-- The server sends something that is no response. -/
  | event (bytes : List UInt8)
  | readFails
  | hangUp

namespace Session

variable (c : Client σ κ ω) (respond : ρ → List UInt8 → ρ × List UInt8)

/-- A step of the channel, with the callbacks it makes. -/
def channelStep (s : Session σ κ ω ρ) (op : Op κ) : Option (Session σ κ ω ρ) :=
  (s.attrib.step op).bind fun r =>
    (c.callbacks s.client r.2).map fun k =>
      { s with attrib := r.1, client := k.1, sending := s.sending ++ k.2.1,
               down := s.down ++ (writes r.2).map Command.pdu, reports := s.reports ++ k.2.2 }

def step (s : Session σ κ ω ρ) : SessionAct → Option (Session σ κ ω ρ)
  | .send id notify =>
    match s.sending with
    | [] => none
    | (data, request) :: sending =>
      if id ≠ 0 ∧ s.attrib.requests ≠ [] then none
      else channelStep c { s with sending } (.send id request true data notify)
  | .canWrite hup written => channelStep c s (.canWrite hup written)
  | .serve =>
    match s.down with
    | [] => none
    | request :: down =>
      some { s with down, server := (respond s.server request).1,
                    up := s.up ++ [(respond s.server request).2] }
  | .receive =>
    match s.up with
    | [] => none
    | bytes :: up => channelStep c { s with up } (.received false (some bytes))
  | .event bytes =>
    if isResponse (bytes.headD 0) then none
    else channelStep c s (.received false (some bytes))
  | .readFails => channelStep c s (.received false none)
  | .hangUp => channelStep c s (.received true none)

/-- A session over a channel, with the server in some state. -/
def machine (a : Attrib κ) (w : ρ) : Machine (Session σ κ ω ρ) SessionAct :=
  ⟨⟨c.init, c.asks, a, [], w, [], []⟩, step c respond⟩

/-- Nothing is left to send and nothing is queued. -/
def Done (s : Session σ κ ω ρ) : Prop := s.sending = [] ∧ s.attrib.requests = []

end Session

/-- What an action is when the requests are answered one after the other. -/
def SessionAct.image : SessionAct → List Unit
  | .receive => [()]
  | _ => []

/-- The server answers each request of some kind with a response, and these requests expect one. -/
structure Replies (respond : ρ → List UInt8 → ρ × List UInt8) (P : List UInt8 → Prop) : Prop where
  expects : ∀ request, P request → opcode2expected (request.headD 0) ≠ 0
  replies : ∀ w request, P request → isResponse ((respond w request).2.headD 0) = true

theorem headD_take (bytes : List UInt8) : (bytes.take 512).headD 0 = bytes.headD 0 := by
  cases bytes <;> rfl

/-- The status of a response does not depend on the rest of the request. -/
theorem responseStatus_eq {cmd : Command κ} (typed : cmd.Typed) (bytes : List UInt8) :
    Attrib.responseStatus cmd bytes = status cmd.pdu bytes := by
  unfold status Attrib.responseStatus
  rw [typed.expected, typed.opcode]
  rfl

/-- A request in the queue, with its data. -/
def asked (cmd : Command κ) : κ × List UInt8 := (cmd.userData, cmd.pdu)

/-! ## The relation -/

/-- Where the request that is out is: on its way down, or its response on its way up. -/
inductive Air (respond : ρ → List UInt8 → ρ × List UInt8) (w : ρ) (s : Session σ κ ω ρ) : Prop where
  | idle (out : s.attrib.outstanding = none) (down : s.down = []) (up : s.up = [])
      (server : s.server = w)
  | down {cmd : Command κ} (out : s.attrib.outstanding = some cmd) (down : s.down = [cmd.pdu])
      (up : s.up = []) (server : s.server = w)
  | up {cmd : Command κ} (out : s.attrib.outstanding = some cmd) (down : s.down = [])
      (up : s.up = [(respond w cmd.pdu).2]) (server : s.server = (respond w cmd.pdu).1)

/-- The channel is there for its owner, and has requests only. -/
structure Serving (a : Attrib κ) : Prop where
  owned : ∃ n, 0 < n ∧ a.OwnedBy n
  asking : a.toSender.Asking

/-- The requests queued and those to send are the ones that wait, and the first of them is answered
when its response is received. -/
structure Related (respond : ρ → List UInt8 → ρ × List UInt8) (P : List UInt8 → Prop)
    (s : Session σ κ ω ρ) (t : ρ × ((σ × List (κ × List UInt8)) × List ω)) : Prop where
  client : t.2.1.1 = s.client
  queue : t.2.1.2 = s.attrib.requests.map asked ++ s.sending
  reports : t.2.2 = s.reports
  serving : Serving s.attrib
  kind : ∀ r ∈ t.2.1.2, P r.2
  air : Air respond t.1 s

section Steps

variable {c : Client σ κ ω} {respond : ρ → List UInt8 → ρ × List UInt8} {s s' : Session σ κ ω ρ}
  {t : ρ × ((σ × List (κ × List UInt8)) × List ω)} {P : List UInt8 → Prop}

namespace Session

/-- Nothing can be written: requests are queued, none of them is out and the watch is off. -/
def Asleep (s : Session σ κ ω ρ) : Prop :=
  s.attrib.writeWatch = false ∧ s.attrib.requests ≠ [] ∧ s.attrib.outstanding = none

theorem channelStep_eq_some {op : Op κ} (h : channelStep c s op = some s') :
    ∃ b out k, s.attrib.step op = some (b, out) ∧ c.callbacks s.client out = some k ∧
      s' = { s with attrib := b, client := k.1, sending := s.sending ++ k.2.1,
                    down := s.down ++ (writes out).map Command.pdu,
                    reports := s.reports ++ k.2.2 } := by
  obtain ⟨⟨b, out⟩, step, h⟩ := Option.bind_eq_some_iff.mp h
  obtain ⟨k, calls, rfl⟩ := Option.map_eq_some_iff.mp h
  exact ⟨b, out, k, step, calls, rfl⟩

theorem reading_of_channelStep {hup : Bool} {read : Option (List UInt8)}
    (h : channelStep c s (.received hup read) = some s') : s.attrib.reading = true := by
  obtain ⟨b, out, k, next, -⟩ := channelStep_eq_some h
  simp only [Attrib.step, Attrib.stepLive] at next
  split_ifs at next with freed reading
  exact reading

theorem asleep_congr (same : s'.attrib.toSender = s.attrib.toSender) : s'.Asleep ↔ s.Asleep := by
  unfold Asleep
  rw [same]

/-- A step that makes no callback. -/
theorem channelStep_silent {op : Op κ} {b : Attrib κ} {out : List (Effect κ)}
    (step : s.attrib.step op = some (b, out)) (silent : c.callbacks s.client out =
      some (s.client, [], [])) :
    channelStep c s op = some { s with attrib := b,
                                       down := s.down ++ (writes out).map Command.pdu } := by
  simp [channelStep, step, silent]

end Session

theorem Serving.step {a b : Attrib κ} {op : Op κ} {out : List (Effect κ)} (h : Serving a)
    (step : a.step op = some (b, out)) (none : op.taken = 0) :
    (∃ n, 0 < n ∧ b.OwnedBy n) ∧ Next a.toSender op b.toSender out ∧ b.freed = false := by
  obtain ⟨n, positive, owned⟩ := h.owned
  rcases owned.step step with owned | ⟨dropped, -⟩
  · rw [none, Int.add_zero] at owned
    exact ⟨⟨n, positive, owned⟩, Attrib.step_next h.asking.typed step, owned.alive⟩
  · rw [none, Int.add_zero] at dropped
    omega

theorem outstanding_concat {q : List (Command κ)} {cmd : Command κ} (unsent : cmd.sent = false) :
    (q ++ [cmd]).head?.filter (·.sent) = q.head?.filter (·.sent) := by
  cases q <;> simp [unsent]

theorem Air.of_eq {w : ρ} (air : Air respond w s)
    (out : s'.attrib.outstanding = s.attrib.outstanding) (down : s'.down = s.down)
    (up : s'.up = s.up) (server : s'.server = s.server) : Air respond w s' := by
  cases air with
  | idle out' down' up' server' =>
    exact .idle (out.trans out') (down.trans down') (up.trans up') (server.trans server')
  | down out' down' up' server' =>
    exact .down (out.trans out') (down.trans down') (up.trans up') (server.trans server')
  | up out' down' up' server' =>
    exact .up (out.trans out') (down.trans down') (up.trans up') (server.trans server')

namespace Related

/-- Requests that are queued change neither what is out nor whether the sender is asleep. -/
theorem send {id : UInt32} {notify : Bool} (replies : Replies respond P) (h : Related respond P s t)
    (hs : s.step c respond (.send id notify) = some s') :
    Related respond P s' t ∧ s'.attrib.requests ≠ [] ∧
      s'.attrib.reading = s.attrib.reading ∧ (s'.Asleep ↔ s.Asleep) := by
  match sending : s.sending with
  | [] => simp [Session.step, sending] at hs
  | (data, request) :: rest =>
    simp only [Session.step, sending] at hs
    split_ifs at hs with front
    obtain ⟨b, out, k, next, calls, rfl⟩ := Session.channelStep_eq_some hs
    obtain ⟨owned, here, alive⟩ := h.serving.step next rfl
    have expects := replies.expects request
      (h.kind (data, request) (by rw [h.queue, sending]; simp))
    obtain ⟨asking, cmd, unsent, rfl, rfl, queued, watch, rfl⟩ :=
      here.sent_request h.serving.asking alive expects (fun given => by_contra fun some =>
        front ⟨given, some⟩)
    obtain rfl : (s.client, [], []) = k := Option.some.inj calls
    have out : b.outstanding = s.attrib.outstanding := by
      rw [outstanding, queued, outstanding_concat unsent]
      rfl
    refine ⟨⟨h.client, ?_, ?_, ⟨owned, asking⟩, ?_, ?_⟩, ?_, ?_, ?_⟩
    · rw [h.queue, sending]
      simp [queued, asked]
    · simp [h.reports]
    · exact h.kind
    · exact h.air.of_eq out (by simp) rfl rfl
    · simp [queued]
    · exact Attrib.step_send_reading next
    · unfold Session.Asleep
      dsimp only
      rw [out, watch, queued]
      cases requests : s.attrib.requests <;> simp

/-- A write takes the first request away, when it is not out yet, or the watch goes. -/
theorem canWrite {hup written : Bool} (h : Related respond P s t)
    (hs : s.step c respond (.canWrite hup written) = some s') :
    Related respond P s' t ∧ s'.attrib.requests.length = s.attrib.requests.length ∧
      s'.attrib.reading = s.attrib.reading ∧
      (hup = false → written = true → s.attrib.requests ≠ [] → s'.attrib.outstanding.isSome) := by
  obtain ⟨b, out, k, next, calls, rfl⟩ := Session.channelStep_eq_some hs
  obtain ⟨owned, here, alive⟩ := h.serving.step next rfl
  have reading := Attrib.step_canWrite_reading next alive
  obtain ⟨asking, ⟨same, rfl, sent⟩ | ⟨cmd, q, head, unsent, queued, rfl⟩⟩ :=
    here.wrote_request h.serving.asking alive
  · obtain rfl : (s.client, [], []) = k := Option.some.inj calls
    have queued : b.requests = s.attrib.requests := by
      have requests := congrArg Sender.requests same
      exact requests
    have out : b.outstanding = s.attrib.outstanding := by rw [outstanding, queued]; rfl
    refine ⟨⟨h.client, ?_, ?_, ⟨owned, asking⟩, ?_, ?_⟩, congrArg List.length queued, reading, ?_⟩
    · simp [h.queue, queued]
    · simp [h.reports]
    · exact h.kind
    · exact h.air.of_eq out (by simp) rfl rfl
    · intro open_ done some
      obtain ⟨cmd, q, head⟩ := List.exists_cons_of_ne_nil some
      have := sent open_ done cmd (by rw [head]; rfl)
      dsimp only
      rw [out, outstanding_of_cons head, this]
  · obtain rfl : (s.client, [], []) = k := Option.some.inj calls
    have none : s.attrib.outstanding = none :=
      outstanding_eq_none_iff.mpr fun d hd => by
        rw [head] at hd
        obtain rfl := Option.some.inj hd
        exact unsent
    have out : b.outstanding = some { cmd with sent := true } := by
      rw [outstanding, queued]
      simp
    obtain ⟨down, up, server⟩ : s.down = [] ∧ s.up = [] ∧ s.server = t.1 := by
      cases h.air with
      | idle _ down up server => exact ⟨down, up, server⟩
      | down out' | up out' => exact absurd (none.symm.trans out') (by simp)
    refine ⟨⟨h.client, ?_, ?_, ⟨owned, asking⟩, ?_, ?_⟩, by simp [queued, head], reading, ?_⟩
    · simp [h.queue, queued, head, asked]
    · simp [h.reports]
    · exact h.kind
    · exact .down out (by simp [down]) up server
    · exact fun _ _ _ => by simp [out]

theorem serve (h : Related respond P s t) (hs : s.step c respond .serve = some s') :
    Related respond P s' t ∧ s'.attrib = s.attrib ∧ s'.up ≠ [] := by
  match down : s.down with
  | [] => simp [Session.step, down] at hs
  | request :: rest =>
    simp only [Session.step, down, Option.some.injEq] at hs
    subst hs
    refine ⟨⟨h.client, h.queue, h.reports, h.serving, h.kind, ?_⟩, rfl, by simp⟩
    cases h.air with
    | idle _ none | up _ none => exact absurd (down.symm.trans none) (by simp)
    | down out only up server =>
      obtain ⟨rfl, rfl⟩ := List.cons.inj (down.symm.trans only)
      exact .up out rfl (by simp [up, server]) (by simp [server])

/-- What is on its way up is the response to the first request, and nothing else is in the air. -/
theorem first_of_up (h : Related respond P s t) {bytes : List UInt8} {up : List (List UInt8)}
    (first : s.up = bytes :: up) :
    ∃ cmd q, s.attrib.requests = cmd :: q ∧ bytes = (respond t.1 cmd.pdu).2 ∧ up = [] ∧
      s.down = [] ∧ s.server = (respond t.1 cmd.pdu).1 := by
  cases h.air with
  | idle _ _ none | down _ _ none => exact absurd (first.symm.trans none) (by simp)
  | @up cmd isOut down only server =>
    obtain ⟨rfl, rfl⟩ := List.cons.inj (first.symm.trans only)
    cases requests : s.attrib.requests with
    | nil => simp [outstanding, requests] at isOut
    | cons d q =>
      rw [outstanding, requests] at isOut
      obtain rfl : d = cmd := Option.some.inj (Option.filter_eq_some_iff.mp isOut).1
      exact ⟨d, q, rfl, rfl, rfl, down, server⟩

/-- The response of the request that is out is what is on its way up: the callback is told what is
reported of it, and the other requests are left. -/
theorem received (replies : Replies respond P) (h : Related respond P s t) {bytes : List UInt8}
    {up : List (List UInt8)} {b : Attrib κ} {out : List (Effect κ)} (first : s.up = bytes :: up)
    (next : s.attrib.step (.received false (some bytes)) = some (b, out)) :
    up = [] ∧ s.down = [] ∧ writes out = [] ∧ Serving b ∧ b.reading = s.attrib.reading ∧
      b.outstanding = none ∧ (b.requests ≠ [] → b.writeWatch = true) ∧
      ∃ data request, t.2.1.2 = (data, request) :: (b.requests.map asked ++ s.sending) ∧
        s.server = (respond t.1 request).1 ∧
        ∀ client, c.callbacks client out =
          c.answered client data (reported respond t.1 request).2 := by
  obtain ⟨cmd, q, head, rfl, rfl, down, server⟩ := h.first_of_up first
  have asks := h.serving.asking.asks cmd (by simp [head])
  have resp : isResponse (((respond t.1 cmd.pdu).2.take 512).headD 0) = true := by
    rw [headD_take]
    refine replies.replies t.1 cmd.pdu (h.kind (asked cmd) ?_)
    rw [h.queue, head]
    exact List.mem_cons_self
  obtain ⟨owned, here, -⟩ := h.serving.step next rfl
  obtain ⟨asking, queued, watch, evts, quiet, rfl⟩ :=
    here.answered_request h.serving.asking resp head
  have unsent : ∀ d ∈ q, d.sent = false := by simpa [head] using h.serving.asking.first
  refine ⟨rfl, down, ?_, ⟨owned, asking⟩, ?_, ?_, ?_, cmd.userData, cmd.pdu, ?_, server, ?_⟩
  · rw [writes_append, quiet_writes quiet]
    simp [Attrib.finish, asks.func]
  · refine Attrib.step_received_reading next h.serving.asking.fresh fun _ => ?_
    rw [head]
    exact List.cons_ne_nil _ _
  · refine outstanding_eq_none_iff.mpr fun d hd => unsent d ?_
    rw [queued] at hd
    exact List.mem_of_head? hd
  · rw [queued, watch]
    intro some
    simp [some]
  · rw [h.queue, head, queued]
    rfl
  · intro client
    rw [Client.callbacks_quiet quiet, Client.callbacks_finish asks.func,
      responseStatus_eq asks.typed]
    rfl

/-- What is received is the answer to the request that waits for its answer first. -/
theorem receive (asks : c.Asks P) (replies : Replies respond P) {w : ρ} (h : Related respond P s t)
    (hs : s.step c respond .receive = some s') :
    ∃ t', (c.inTurn.peer awaited (reported respond) w).step t () = some t' ∧
      Related respond P s' t' := by
  match first : s.up with
  | [] => simp [Session.step, first] at hs
  | bytes :: up =>
    simp only [Session.step, first] at hs
    obtain ⟨b, out, k, next, calls, rfl⟩ := Session.channelStep_eq_some hs
    obtain ⟨rfl, down, silent, serving, -, none, -, data, request, queue, server, told⟩ :=
      h.received (c := c) replies first next
    rw [told] at calls
    have answered : c.inTurn.machine.step t.2 (reported respond t.1 request).2 =
        some ((k.1, b.requests.map asked ++ s.sending ++ k.2.1), t.2.2 ++ k.2.2) := by
      simp only [Transducer.machine, Client.inTurn, queue, h.client, calls, Option.map_some]
    refine ⟨((respond t.1 request).1,
      (k.1, b.requests.map asked ++ s.sending ++ k.2.1), t.2.2 ++ k.2.2), ?_,
      ⟨rfl, ?_, ?_, serving, ?_, ?_⟩⟩
    · simp only [Transducer.peer, awaited, queue, List.head?_cons, Option.map_some,
        Option.bind_some, answered]
      rfl
    · simp
    · simp [h.reports]
    · intro r hr
      rcases List.mem_append.mp hr with hr | hr
      · exact h.kind r (by rw [queue]; exact List.mem_cons_of_mem _ hr)
      · exact asks.next _ _ _ _ _ _ calls r hr
    · exact .idle none (by simp [down, silent]) rfl server

/-- A read without a response makes no callback. -/
theorem read (h : Related respond P s t) {hup : Bool} {read : Option (List UInt8)}
    (other : (Op.received hup read : Op κ).response = none)
    (hs : Session.channelStep c s (.received hup read) = some s') :
    Related respond P s' t ∧
      (hup = true ∨ read ≠ none → s'.attrib.toSender = s.attrib.toSender) := by
  obtain ⟨b, out, k, next, calls, rfl⟩ := Session.channelStep_eq_some hs
  obtain ⟨owned, here, -⟩ := h.serving.step next rfl
  obtain ⟨asking, queued, quiet, same⟩ := here.read_other h.serving.asking other
  have silent : c.callbacks s.client (out ++ []) = some (s.client, [], []) :=
    Client.callbacks_quiet quiet
  rw [List.append_nil] at silent
  obtain rfl : (s.client, [], []) = k := Option.some.inj (silent.symm.trans calls)
  refine ⟨⟨h.client, ?_, ?_, ⟨owned, asking⟩, ?_, ?_⟩, same⟩
  · simp [h.queue, queued]
  · simp [h.reports]
  · exact h.kind
  · refine h.air.of_eq ?_ (by simp [quiet_writes quiet]) rfl rfl
    rw [outstanding, queued]
    rfl

end Related

/-- No response is read. -/
theorem response_event {bytes : List UInt8} (event : isResponse (bytes.headD 0) = false) :
    (Op.received false (some bytes) : Op κ).response = none := by
  rw [Op.response, headD_take, event]
  rfl

variable {a : Attrib κ} {w : ρ}

/-- A channel on which nothing is queued. -/
structure Fresh (a : Attrib κ) : Prop where
  owned : ∃ n, 0 < n ∧ a.OwnedBy n
  fresh : a.stale = false
  noRequest : a.requests = []
  noResponse : a.responses = []

theorem Fresh.serving (h : Fresh a) : Serving a where
  owned := h.owned
  asking := ⟨h.fresh, h.noResponse, by simp [h.noRequest], by simp [h.noRequest]⟩

theorem fresh_new (attCid : Bool) (imtu : Nat) :
    Fresh (Channel.gAttribNew attCid imtu : Attrib κ) :=
  ⟨⟨1, Int.one_pos, rfl, Nat.one_pos, rfl⟩, rfl, rfl, rfl⟩

/-- Every session over the channel is a run of the requests answered one after the other. -/
theorem session_simulates (asks : c.Asks P) (replies : Replies respond P) (fresh : Fresh a) :
    Simulates (Session.machine c respond a w) (c.inTurn.peer awaited (reported respond) w)
      SessionAct.image (Related respond P) where
  initial := by
    refine ⟨rfl, ?_, rfl, fresh.serving, asks.first, .idle ?_ rfl rfl rfl⟩
    · simp [Session.machine, Transducer.peer, Transducer.machine, Client.inTurn, fresh.noRequest]
    · exact outstanding_eq_none_iff.mpr (by simp [Session.machine, fresh.noRequest])
  matched {s s' t act} h hs := by
    cases act with
    | send id notify => exact ⟨t, rfl, (h.send replies hs).1⟩
    | canWrite hup written => exact ⟨t, rfl, (h.canWrite hs).1⟩
    | serve => exact ⟨t, rfl, (h.serve (c := c) hs).1⟩
    | receive =>
      obtain ⟨t', step, related⟩ := h.receive (w := w) asks replies hs
      exact ⟨t', by rw [SessionAct.image, Machine.runFrom_cons, step]; rfl, related⟩
    | event bytes =>
      simp only [Session.machine, Session.step] at hs
      split_ifs at hs with resp
      exact ⟨t, rfl, (h.read (response_event (by simpa using resp)) hs).1⟩
    | readFails => exact ⟨t, rfl, (h.read rfl hs).1⟩
    | hangUp => exact ⟨t, rfl, (h.read rfl hs).1⟩

/-! ## Getting to the end -/

namespace Related

theorem done_iff (h : Related respond P s t) : s.Done ↔ awaited t.2.1 = none := by
  rw [awaited, h.queue, Option.map_eq_none_iff, List.head?_eq_none_iff, List.append_eq_nil_iff,
    List.map_eq_nil_iff]
  exact and_comm

/-- When nothing is left, the server has answered everything. -/
theorem server_eq (h : Related respond P s t) (done : s.Done) : s.server = t.1 := by
  have none : s.attrib.outstanding = none :=
    outstanding_eq_none_iff.mpr (by simp [done.2])
  cases h.air with
  | idle _ _ _ server => exact server
  | down out | up out => exact absurd (none.symm.trans out) (by simp)

/-- A session in which nothing can be written, or that no longer reads, goes on without an answer
until a read fails. -/
theorem blocked {w : ρ} (replies : Replies respond P) (h : Related respond P s t)
    (stuck : s.attrib.reading = false ∨ s.Asleep) {act : SessionAct} (reads : act ≠ .readFails)
    (hs : (Session.machine c respond a w).step s act = some s') :
    Related respond P s' t ∧ (s'.attrib.reading = false ∨ s'.Asleep) := by
  have deaf {u : Session σ κ ω ρ} {read : Option (List UInt8)} {hup : Bool}
      (same : u.attrib = s.attrib)
      (hu : Session.channelStep c u (.received hup read) = some s') : s.Asleep := by
    have reading := Session.reading_of_channelStep hu
    rw [same] at reading
    rcases stuck with closed | asleep
    · exact absurd (closed.symm.trans reading) (by simp)
    · exact asleep
  cases act with
  | send id notify =>
    obtain ⟨related, -, reading, asleep⟩ := h.send replies hs
    exact ⟨related, by rwa [reading, asleep]⟩
  | canWrite hup written =>
    obtain ⟨related, -, reading, -⟩ := h.canWrite hs
    rcases stuck with closed | ⟨off, -⟩
    · exact ⟨related, .inl (reading.trans closed)⟩
    · obtain ⟨b, out, k, next, -⟩ := Session.channelStep_eq_some hs
      simp [Attrib.step, Attrib.stepLive, off] at next
  | serve =>
    obtain ⟨related, same, -⟩ := h.serve (c := c) hs
    refine ⟨related, ?_⟩
    rwa [Session.Asleep, same]
  | receive =>
    cases first : s.up with
    | nil => simp [Session.machine, Session.step, first] at hs
    | cons bytes up =>
      simp only [Session.machine, Session.step, first] at hs
      have asleep := deaf (by rfl) hs
      cases h.air with
      | idle _ _ none => exact absurd (first.symm.trans none) (by simp)
      | down out | up out => exact absurd (asleep.2.2.symm.trans out) (by simp)
  | event bytes =>
    simp only [Session.machine, Session.step] at hs
    split_ifs at hs with resp
    obtain ⟨related, same⟩ := h.read (response_event (by simpa using resp)) hs
    exact ⟨related, .inr ((Session.asleep_congr (same (.inr (by simp)))).mpr (deaf rfl hs))⟩
  | readFails => exact absurd rfl reads
  | hangUp =>
    obtain ⟨related, same⟩ := h.read rfl hs
    exact ⟨related, .inr ((Session.asleep_congr (same (.inl rfl))).mpr (deaf rfl hs))⟩

theorem leads {w : ρ} {act : SessionAct} (reads : act ≠ .readFails)
    (step : s.step c respond act = some s') :
    (Session.machine c respond a w).Leads (· ≠ .readFails) s s' := Machine.Leads.single reads step

/-- With some request left, one is queued. -/
theorem exists_queued {w : ρ} (replies : Replies respond P) (h : Related respond P s t)
    (reading : s.attrib.reading = true) (awake : ¬ s.Asleep) (left : ¬ s.Done) :
    ∃ v, (Session.machine c respond a w).Leads (· ≠ .readFails) s v ∧ Related respond P v t ∧
      v.attrib.reading = true ∧ ¬ v.Asleep ∧ v.attrib.requests ≠ [] := by
  by_cases queued : s.attrib.requests ≠ []
  · exact ⟨s, .refl s, h, reading, awake, queued⟩
  obtain ⟨n, -, owned⟩ := h.serving.owned
  match sending : s.sending with
  | [] => exact absurd ⟨sending, by simpa using queued⟩ left
  | (data, request) :: rest =>
    have expects := replies.expects request
      (h.kind (data, request) (by rw [h.queue, sending]; simp))
    have some : request ≠ [] := by
      rintro rfl
      exact expects (show opcode2expected 0 = 0 by decide)
    obtain ⟨b, out, next⟩ : ∃ b out,
        s.attrib.step (.send 0 request true data false) = Option.some (b, out) := by
      simp only [Attrib.step, Attrib.stepLive, owned.alive, if_neg some]
      exact ⟨_, _, rfl⟩
    obtain ⟨-, here, alive⟩ := h.serving.step next rfl
    obtain ⟨-, cmd, -, -, -, -, -, rfl⟩ := here.sent_request h.serving.asking alive
      expects (fun given => absurd rfl given)
    have step : s.step c respond (.send 0 false) =
        Option.some { s with attrib := b, sending := rest,
                             down := s.down ++ (writes [.push cmd]).map Command.pdu } := by
      simp only [Session.step, sending]
      rw [if_neg (by simp)]
      exact Session.channelStep_silent next rfl
    obtain ⟨related, queued, reads, asleep⟩ := h.send replies step
    exact ⟨_, leads (by simp) step, related, reads.trans reading, by rwa [asleep], queued⟩

/-- The first request goes out. -/
theorem exists_out {w : ρ} (h : Related respond P s t) (reading : s.attrib.reading = true)
    (awake : ¬ s.Asleep) (queued : s.attrib.requests ≠ []) :
    ∃ v, (Session.machine c respond a w).Leads (· ≠ .readFails) s v ∧ Related respond P v t ∧
      v.attrib.reading = true ∧ v.attrib.outstanding.isSome := by
  cases out : s.attrib.outstanding with
  | some cmd => exact ⟨s, .refl s, h, reading, by simp [out]⟩
  | none =>
    have on : s.attrib.writeWatch = true := by
      by_contra off
      exact awake ⟨by simpa using off, queued, out⟩
    obtain ⟨n, -, owned⟩ := h.serving.owned
    obtain ⟨b, evts, next⟩ : ∃ b evts, s.attrib.step (.canWrite false true) = some (b, evts) := by
      simp only [Attrib.step, Attrib.stepLive, owned.alive, on]
      exact ⟨_, _, rfl⟩
    obtain ⟨-, here, alive⟩ := h.serving.step next rfl
    have silent : c.callbacks s.client evts = some (s.client, [], []) := by
      obtain ⟨-, ⟨-, rfl, -⟩ | ⟨cmd, q, -, -, -, rfl⟩⟩ :=
        here.wrote_request h.serving.asking alive
      · rfl
      · rfl
    have step : s.step c respond (.canWrite false true) = some _ :=
      Session.channelStep_silent next silent
    obtain ⟨related, -, reads, goes⟩ := h.canWrite step
    exact ⟨_, leads (by simp) step, related, reads.trans reading, goes rfl rfl queued⟩

/-- It is answered. -/
theorem exists_up {w : ρ} (h : Related respond P s t) (reading : s.attrib.reading = true)
    (out : s.attrib.outstanding.isSome) :
    ∃ v, (Session.machine c respond a w).Leads (· ≠ .readFails) s v ∧ Related respond P v t ∧
      v.attrib.reading = true ∧ v.up ≠ [] := by
  cases h.air with
  | idle none => simp [none] at out
  | up _ _ up => exact ⟨s, .refl s, h, reading, by simp [up]⟩
  | @down cmd _ down =>
    have step : s.step c respond .serve =
        some { s with down := [], server := (respond s.server cmd.pdu).1,
                      up := s.up ++ [(respond s.server cmd.pdu).2] } := by
      rw [Session.step, down]
    obtain ⟨related, same, up⟩ := h.serve step
    exact ⟨_, leads (by simp) step, related, by rw [same, reading], up⟩

/-- The answer is received, as the client takes it. -/
theorem exists_received {w : ρ} {t' : ρ × ((σ × List (κ × List UInt8)) × List ω)} (asks : c.Asks P)
    (replies : Replies respond P) (h : Related respond P s t) (reading : s.attrib.reading = true)
    (up : s.up ≠ [])
    (takes : (c.inTurn.peer awaited (reported respond) w).step t () = some t') :
    ∃ v, (Session.machine c respond a w).Leads (· ≠ .readFails) s v ∧ Related respond P v t' ∧
      v.attrib.reading = true ∧ ¬ v.Asleep := by
  obtain ⟨bytes, rest, first⟩ := List.exists_cons_of_ne_nil up
  obtain ⟨n, -, owned⟩ := h.serving.owned
  obtain ⟨b, out, next⟩ : ∃ b out,
      s.attrib.step (.received false (some bytes)) = some (b, out) := by
    simp only [Attrib.step, Attrib.stepLive, owned.alive, reading]
    exact ⟨_, _, rfl⟩
  obtain ⟨rfl, -, -, -, reads, -, watch, data, request, queue, -, told⟩ :=
    h.received (c := c) replies first next
  obtain ⟨k, answered⟩ : ∃ k, c.answered s.client data (reported respond t.1 request).2 =
      some k := by
    cases taken : c.answered s.client data (reported respond t.1 request).2 with
    | some k => exact ⟨k, rfl⟩
    | none =>
      simp [Transducer.peer, awaited, queue, Transducer.machine, Client.inTurn, h.client, taken]
        at takes
  obtain ⟨v, step, attrib⟩ : ∃ v, s.step c respond .receive = some v ∧ v.attrib = b := by
    simp only [Session.step, first]
    simp only [Session.channelStep, next, Option.bind_some, told, answered, Option.map_some]
    exact ⟨_, rfl, rfl⟩
  obtain ⟨t'', step', related⟩ := h.receive (w := w) asks replies step
  obtain rfl := Option.some.inj (takes.symm.trans step')
  refine ⟨v, leads (by simp) step, related, by rw [attrib, reads, reading], ?_⟩
  rintro ⟨off, queued, -⟩
  rw [attrib] at off queued
  exact absurd ((watch queued).symm.trans off) (by simp)

end Related

/-- An awake session gets to the end of what its requests are answered to in turn. -/
theorem exists_done {w w' : ρ} {u t : (σ × List (κ × List UInt8)) × List ω} {v : ρ}
    (asks : c.Asks P) (replies : Replies respond P)
    (drives : c.inTurn.Drives awaited (reported respond) v u w' t)
    (h : Related respond P s (v, u)) (reading : s.attrib.reading = true) (awake : ¬ s.Asleep) :
    ∃ s', (Session.machine c respond a w).Leads (· ≠ .readFails) s s' ∧ s'.Done ∧
      Related respond P s' (w', t) := by
  refine drives.induct (P := fun v u => ∀ s, Related respond P s (v, u) →
    s.attrib.reading = true → ¬ s.Asleep →
    ∃ s', (Session.machine c respond a w).Leads (· ≠ .readFails) s s' ∧ s'.Done ∧
      Related respond P s' (w', t)) ?_ ?_ s h reading awake
  · exact fun done s h _ _ => ⟨s, .refl s, h.done_iff.mpr done, h⟩
  · intro v u q u' wants next _ ih s h reading awake
    have left : ¬ s.Done := by
      rw [h.done_iff, wants]
      simp
    obtain ⟨s₁, to₁, h₁, reading₁, awake₁, queued₁⟩ :=
      h.exists_queued (c := c) (a := a) (w := w) replies reading awake left
    obtain ⟨s₂, to₂, h₂, reading₂, out₂⟩ :=
      h₁.exists_out (c := c) (a := a) (w := w) reading₁ awake₁ queued₁
    obtain ⟨s₃, to₃, h₃, reading₃, up₃⟩ := h₂.exists_up (c := c) (a := a) (w := w) reading₂ out₂
    have takes : (c.inTurn.peer awaited (reported respond) w).step (v, u) () =
        some ((reported respond v q).1, u') := by
      simp only [Transducer.peer, wants, Option.bind_some, next, Option.map_some]
    obtain ⟨s₄, to₄, h₄, reading₄, awake₄⟩ :=
      h₃.exists_received (a := a) (w := w) asks replies reading₃ up₃ takes
    obtain ⟨s', to', done, related⟩ := ih s₄ h₄ reading₄ awake₄
    exact ⟨s', to₁.trans (to₂.trans (to₃.trans (to₄.trans to'))), done, related⟩

/-! ## Sessions and their ends -/

section Ends

variable {w w' : ρ} {t : (σ × List (κ × List UInt8)) × List ω} {h : List SessionAct}

theorem session_refines (asks : c.Asks P) (replies : Replies respond P) (fresh : Fresh a)
    (hr : (Session.machine c respond a w).run h = some s) :
    ∃ u, (c.inTurn.peer awaited (reported respond) w).run (h.flatMap SessionAct.image) = some u ∧
      Related respond P s u :=
  (session_simulates asks replies fresh).run hr

/-- What a client reports when its requests are answered one after the other is what it reports in a
session: as much of it as the session got to, and all of it when nothing is left. -/
theorem session_reports (asks : c.Asks P) (replies : Replies respond P) (fresh : Fresh a)
    (drives : c.inTurn.Drives awaited (reported respond) w c.inTurn.machine.init w' t)
    (hr : (Session.machine c respond a w).run h = some s) :
    s.reports <+: t.2 ∧
      (s.Done → s.client = t.1.1 ∧ s.server = w' ∧ s.reports = t.2) := by
  obtain ⟨⟨v, u⟩, run, related⟩ := session_refines asks replies fresh hr
  have rest := drives.of_peer run
  refine ⟨related.reports ▸ rest.outputs, fun done => ?_⟩
  obtain ⟨rfl, rfl⟩ := rest.of_none (related.done_iff.mp done)
  exact ⟨related.client.symm, related.server_eq done, related.reports.symm⟩

/-- A session can still get to the end, without another failed read, exactly when it is there, or
reads and is not asleep. -/
theorem session_completes_iff (asks : c.Asks P) (replies : Replies respond P) (fresh : Fresh a)
    (drives : c.inTurn.Drives awaited (reported respond) w c.inTurn.machine.init w' t)
    (hr : (Session.machine c respond a w).run h = some s) :
    (∃ k v, (∀ act ∈ k, act ≠ .readFails) ∧
        (Session.machine c respond a w).runFrom s k = some v ∧ v.Done ∧ v.reports = t.2) ↔
      s.Done ∨ s.attrib.reading = true ∧ ¬ s.Asleep := by
  obtain ⟨u, run, related⟩ := session_refines asks replies fresh hr
  constructor
  · rintro ⟨k, v, kind, run', done, -⟩
    by_cases stuck : s.attrib.reading = false ∨ s.Asleep
    · -- Nothing is answered any more, so there is as much left at the end.
      have leads : (Session.machine c respond a w).Leads (· ≠ .readFails) s v := ⟨k, kind, run'⟩
      have kept := leads.invariant
        (I := fun s => Related respond P s u ∧ (s.attrib.reading = false ∨ s.Asleep))
        (fun s act s' inv reads step => inv.1.blocked replies inv.2 reads step) ⟨related, stuck⟩
      exact .inl (related.done_iff.mpr (kept.1.done_iff.mp done))
    · exact .inr (by simpa using stuck)
  · rintro (done | ⟨reading, awake⟩)
    · exact ⟨[], s, by simp, rfl, done,
        ((session_reports asks replies fresh drives hr).2 done).2.2⟩
    · obtain ⟨s', ⟨k, kind, run'⟩, done, related'⟩ :=
        exists_done (a := a) (w := w) asks replies (drives.of_peer run) related reading awake
      exact ⟨k, s', kind, run', done, related'.reports.symm⟩

end Ends

end Steps

end LibMip.Gatt
