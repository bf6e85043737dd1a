import LibMip.Foundation.Delivery
import LibMip.Foundation.Simulation
import LibMip.Link.System

/-!
# The channel in between changes nothing

Every run of the object, its channel and the robot is a run of the object and the robot alone,
with the same calls, services and receipts in the same order: the orders in flight are those in
the air, those queued on the channel and those still to be sent, in that order. Whatever writes
and reads fail, the robot therefore serves exactly a prefix of the orders issued, each once and in
their order, and the object receives a prefix of its answers.
-/

namespace LibMip

open Att Channel CNum Octets Runs

/-! ## Orders -/

/-- No order is longer than a command with five parameters. -/
def Order.Short (o : Order) : Prop := o.length ≤ 6

namespace Mip

variable {m m' : Mip} {orders : List Order}

theorem short_continuousDrive {v w : Int} {force : Bool}
    (h : m.continuousDrive v w force = .ok (m', orders)) : ∀ o ∈ orders, o.Short := by
  have short (v w : Int) : (driveOrder v w).Short := by simp [Order.Short, driveOrder, sendOrder2]
  have inner {v' w' : Int} {r : Mip × List Order} (h : m.continuousDrive v' w' false = .ok r) :
      ∀ o ∈ r.2 ++ [driveOrder v w], o.Short := by
    rw [continuousDrive_false] at h
    obtain rfl := Except.ok.inj h
    simp [short]
  rw [continuousDrive] at h
  split_ifs at h
  · obtain ⟨opposite, -, h⟩ := bind_eq_ok.mp h
    obtain ⟨first, hf, h⟩ := bind_eq_ok.mp h
    obtain ⟨-, rfl⟩ := Prod.mk.inj (Except.ok.inj h)
    exact inner hf
  · obtain ⟨opposite, -, h⟩ := bind_eq_ok.mp h
    obtain ⟨first, hf, h⟩ := bind_eq_ok.mp h
    obtain ⟨-, rfl⟩ := Prod.mk.inj (Except.ok.inj h)
    exact inner hf
  · obtain ⟨first, hf, h⟩ := bind_eq_ok.mp h
    obtain rfl := Except.ok.inj hf
    obtain ⟨-, rfl⟩ := Prod.mk.inj (Except.ok.inj h)
    simp [short]

theorem short_setChestLEDFlash {r g b : Int} {on off : ℚ}
    (h : m.setChestLEDFlash r g b on off = .ok (m', orders)) : ∀ o ∈ orders, o.Short := by
  obtain ⟨onTicks, -, h⟩ := bind_eq_ok.mp h
  obtain ⟨offTicks, -, h⟩ := bind_eq_ok.mp h
  obtain ⟨-, rfl⟩ := Prod.mk.inj (Except.ok.inj h)
  simp [Order.Short, sendOrder5]

theorem short_setHeadLED (m : Mip) (l1 l2 l3 l4 : UInt32) :
    ∀ o ∈ (m.setHeadLED l1 l2 l3 l4).2, o.Short := by
  simp [setHeadLED, Order.Short, sendOrder4]

theorem short_setHeadLEDIdx (m : Mip) (idx value : UInt32) :
    ∀ o ∈ (m.setHeadLEDIdx idx value).2, o.Short := by
  unfold setHeadLEDIdx
  split_ifs
  · exact short_setHeadLED m _ _ _ _
  · exact short_setHeadLED m _ _ _ _
  · exact short_setHeadLED m _ _ _ _
  · exact short_setHeadLED m _ _ _ _
  · simp

theorem short_of_perform {c : Call} (h : m.perform c = .ok (m', orders)) :
    ∀ o ∈ orders, o.Short := by
  have plain {r : Mip × List Order} (short : ∀ o ∈ r.2, o.Short)
      (done : (Except.ok r : Except Fault (Mip × List Order)) = .ok (m', orders)) :
      ∀ o ∈ orders, o.Short := by
    obtain rfl := Except.ok.inj done
    exact short
  cases c with
  | distanceDrive d a =>
    obtain ⟨angle, -, h⟩ := bind_eq_ok.mp h
    obtain ⟨cm, -, h⟩ := bind_eq_ok.mp h
    obtain ⟨magnitude, -, h⟩ := bind_eq_ok.mp h
    obtain ⟨-, rfl⟩ := Prod.mk.inj (Except.ok.inj h)
    simp [Order.Short, sendOrder5]
  | timeDrive speed t =>
    obtain ⟨time, -, h⟩ := bind_eq_ok.mp h
    dsimp only at h
    split_ifs at h
    · obtain ⟨-, rfl⟩ := Prod.mk.inj (Except.ok.inj h)
      simp [Order.Short, sendOrder2]
    · obtain ⟨opposite, -, h⟩ := bind_eq_ok.mp h
      obtain ⟨-, rfl⟩ := Prod.mk.inj (Except.ok.inj h)
      simp [Order.Short, sendOrder2]
  | angleDrive a speed =>
    obtain ⟨angle, -, h⟩ := bind_eq_ok.mp h
    obtain ⟨fast, -, h⟩ := bind_eq_ok.mp h
    obtain ⟨steps, -, h⟩ := bind_eq_ok.mp h
    obtain ⟨-, rfl⟩ := Prod.mk.inj (Except.ok.inj h)
    simp [Order.Short, sendOrder2]
  | continuousDrive v w force => exact short_continuousDrive h
  | continuousDriveMetric v w =>
    obtain ⟨ticks, -, h⟩ := bind_eq_ok.mp h
    exact short_continuousDrive h
  | setChestLED r g b => exact plain (by simp [setChestLED, Order.Short, sendOrder3]) h
  | setChestLEDFlash r g b on off => exact short_setChestLEDFlash h
  | setChestLEDStruct l =>
    rw [perform, setChestLEDStruct] at h
    split_ifs at h
    · exact short_setChestLEDFlash h
    · exact plain (by simp [setChestLED, Order.Short, sendOrder3]) h
  | setHeadLED l1 l2 l3 l4 => exact plain (short_setHeadLED m _ _ _ _) h
  | setHeadLEDIdx idx value => exact plain (short_setHeadLEDIdx m idx value) h
  | setHeadLEDStruct l => exact plain (short_setHeadLED m _ _ _ _) h
  | playSound | setGameMode | up | setGestureOrRadarMode | setVolume =>
    exact plain (by simp [playSound, setGameMode, up, setGestureOrRadarMode, setVolume,
      Order.Short, sendOrder1]) h
  | requestGameMode | stop | requestBatteryVoltage | requestStatus
  | requestWeightUpdate | requestChestLED | requestHeadLED | requestOdometerReading
  | requestGestureOrRadarMode | requestSoftwareVersion | requestHardwareVersion
  | requestVolume =>
    exact plain (by simp [requestGameMode, stop, requestBatteryVoltage, requestStatus,
      requestWeightUpdate, requestChestLED, requestHeadLED, requestOdometerReading,
      requestGestureOrRadarMode, requestSoftwareVersion, requestHardwareVersion, requestVolume,
      Order.Short, sendOrder0]) h

/-! ## Handles and the count -/

/-- The two handles, which are never changed. -/
def handles (m : Mip) : Int × Int := (m.handleRead, m.handleWrite)

theorem handles_of_perform {c : Call} (h : m.perform c = .ok (m', orders)) :
    m'.handles = m.handles ∧ m'.nattrib = m.nattrib := by
  obtain ⟨v, w, chest, head, rfl⟩ := cachesOnly_of_perform h
  exact ⟨rfl, rfl⟩

/-- A notification leaves the handles and the count alone, and reads neither. -/
theorem branch_handles {cmd : MipCommand} {n : Nat} :
    ∀ put, branch cmd n = some put → ∀ m v, (put m v).handles = m.handles ∧
      (put m v).nattrib = m.nattrib ∧ ∀ k, put (m.counting k) v = (put m v).counting k := by
  unfold branch
  repeat refine ite_some_forall (fun _ _ => ⟨rfl, rfl, fun _ => rfl⟩) ?_
  intro put h
  cases h

theorem storeResults_handles (m : Mip) (cmd : MipCommand) (v : List Int) :
    (m.storeResults cmd v).1.handles = m.handles ∧
      (m.storeResults cmd v).1.nattrib = m.nattrib ∧
      ∀ k, ((m.counting k).storeResults cmd v).1 = (m.storeResults cmd v).1.counting k := by
  unfold storeResults
  cases hb : branch cmd (nvalues v) with
  | none => exact ⟨rfl, rfl, fun _ => rfl⟩
  | some put => exact branch_handles put hb m v

@[simp] theorem counting_zero (m : Mip) : m.counting 0 = m := by
  simp [counting]

theorem counting_succ (m : Mip) (n : Nat) :
    m.counting (n + 1) = { m with nattrib := m.nattrib + 1 }.counting n := by
  have reorder (k : UInt32) : k + UInt32.ofNat (n + 1) = k + 1 + UInt32.ofNat n := by
    rw [UInt32.ofNat_add, UInt32.add_comm (UInt32.ofNat n), ← UInt32.add_assoc]
    rfl
  simp only [counting, reorder]

end Mip

/-! ## PDUs -/

/-- The write command that carries an order. -/
def Order.pdu (o : Order) : List UInt8 := attOpWriteCmd :: (putU16 Mip.init.writeHandle ++ o)

theorem Order.decWriteCmd_pdu (o : Order) :
    decWriteCmd o.pdu = some (Mip.init.writeHandle, o) := by
  have header : decHeader attOpWriteCmd 1 o.pdu = some ([Mip.init.writeHandle], o) :=
    decHeader_eq_some_iff.mpr ⟨rfl, by simp [Order.pdu, putWords]⟩
  rw [decWriteCmd, decWordValue, header]

theorem Order.Short.encWriteCmd {o : Order} (short : o.Short) :
    Att.encWriteCmd Mip.init.writeHandle o attDefaultLeMtu = some o.pdu := by
  have whole : o.take (attDefaultLeMtu - (1 + 2 * 1)) = o :=
    List.take_of_length_le (short.trans (by decide))
  rw [Att.encWriteCmd, encHeader, List.length_singleton, if_neg (by decide), whole]
  simp [Order.pdu, putWords]

theorem Order.Short.gattWriteCmd {o : Order} (short : o.Short) {a : Attrib Unit}
    (h : a.Commanding) (room : a.buflen = attDefaultLeMtu) :
    gattWriteCmd a Mip.init.writeHandle o () false =
      some (a.withQueue (a.writeWatch || a.requests.isEmpty) (a.nextCmdId + 1)
        (a.requests ++ [.new 0 (a.nextCmdId + 1) o.pdu false () false]), a.nextCmdId + 1) := by
  rw [Channel.gattWriteCmd, room, short.encWriteCmd, Option.map_some, h.send_eq rfl]

namespace Spelling

variable (sp : Spelling)

theorem pdu_length (a : Answer) : (sp.pdu a).length = 2 * a.values.length + 5 := by
  simp [pdu, robotBytes_length]

theorem pdu_spells (a : Answer) (fits : (sp.pdu a).length < 65536) : Spells ⟨sp.pdu a, fits⟩ a := by
  refine ⟨sp.opcode, _, _, sp.byte 0 a.cmd, _, ?_, rfl, rfl, ?_⟩
  · unfold opcode
    split_ifs
    · exact .inr rfl
    · exact .inl rfl
  · refine List.ext_getElem? fun i => ?_
    simp [Function.comp_def, byte]

theorem pdu_event (a : Answer) : isResponse ((sp.pdu a).headD 0) = false := by
  have head : (sp.pdu a).headD 0 = sp.opcode := rfl
  rw [head, opcode]
  split_ifs <;> decide

/-- An answer passes exactly one of the two registrations. -/
theorem dispatch_pdu {a : Attrib Unit} (registered : a.events = (Link.connected Mip.init).events)
    (answer : Answer) :
    ∃ evt, a.dispatch (sp.pdu answer) = [.event (sp.pdu answer) evt] := by
  have long : ¬ (sp.pdu answer).length < 3 := by
    rw [pdu_length]
    omega
  have handle : attGetU16 (sp.pdu answer) 1 = .ok 0x000e := rfl
  have head : (sp.pdu answer).headD 0 = sp.opcode := rfl
  have events : a.events = [⟨⟨attOpHandleNotify, 0x000e⟩, 1, (), false⟩,
      ⟨⟨attOpHandleInd, 0x000e⟩, 2, (), false⟩] := registered
  have passes (opcode : UInt8) (known : opcode = attOpHandleNotify ∨ opcode = attOpHandleInd) :
      matchEvent ⟨opcode, 0x000e⟩ (sp.pdu answer) = .ok (decide (opcode = sp.opcode)) := by
    have notAll : opcode ≠ gattribAllEvents ∧ opcode ≠ gattribAllReqs := by
      rcases known with rfl | rfl <;> decide
    have oneHandle : (0x000e : Nat) ≠ gattribAllHandles := by decide
    simp only [matchEvent, head, handle, long, notAll, oneHandle, if_false, and_false, and_true,
      bind, Except.bind]
  have differ : attOpHandleNotify ≠ attOpHandleInd := by decide
  rw [Attrib.dispatch, events]
  cases which : sp.indicates <;>
    simp [passes, opcode, which, differ, differ.symm]

end Spelling

theorem Robot.serve_short (r : Robot) (o : Order) : ∀ a ∈ (r.serve o).2, a.values.length ≤ 5 := by
  have answers (cmd : UInt8) : ∀ a ∈ r.answer cmd, a.values.length ≤ 5 := by
    unfold Robot.answer
    split_ifs <;> simp
  unfold Robot.serve
  cases r.store o with
  | some r' => simp
  | none =>
    cases o with
    | nil => simp
    | cons cmd ps => exact answers cmd

/-! ## The relation -/

/-- The state with the channel and the one without: the orders in flight are those in the air,
those queued and those still to be sent, and the last are not counted yet. -/
structure Related (s : Link) (t : Duplex.State Mip Robot Order Answer) : Prop where
  client : t.client = s.mip.counting s.issuing.length
  server : t.server = s.robot
  orders : s.down ++ s.attrib.requests.map Command.pdu ++ s.issuing.map Order.pdu =
    t.orders.map Order.pdu
  replies : List.Forall₂ (fun bytes a => a.values.length ≤ 5 ∧ ∃ sp : Spelling, bytes = sp.pdu a)
    s.up t.replies
  issuing : ∀ o ∈ s.issuing, o.Short
  handles : s.mip.handles = Mip.init.handles
  counted : s.attrib.nextCmdId = s.mip.nattrib
  commanding : s.attrib.Commanding
  room : s.attrib.buflen = attDefaultLeMtu
  events : s.attrib.events = (Link.connected Mip.init).events

theorem Order.pdu_injective : Function.Injective Order.pdu := by
  intro o p h
  simpa [Order.pdu] using h

theorem related_init (r : Robot) : Related (Link.init r) (mipInit r) where
  client := (Mip.counting_zero _).symm
  server := rfl
  orders := rfl
  replies := .nil
  issuing := by simp [Link.init]
  handles := rfl
  counted := rfl
  commanding := by
    refine ⟨rfl, rfl, rfl, ⟨rfl, rfl⟩, rfl, ?_⟩
    simp [Link.init, Link.connected, Mip.events, Attrib.register, Channel.gAttribNew]
  room := rfl
  events := rfl

namespace Related

variable {s s' : Link} {t : Duplex.State Mip Robot Order Answer}

theorem writeHandle (h : Related s t) : s.mip.writeHandle = Mip.init.writeHandle := by
  have same : s.mip.handleWrite = Mip.init.handleWrite := congrArg Prod.snd h.handles
  rw [Mip.writeHandle, same, Mip.writeHandle]

/-! What each action does in a related state. -/

theorem step_call {c : Call} (hs : s.step (.call c) = some s') :
    s.issuing = [] ∧ ∃ mip orders, s.mip.perform c = .ok (mip, orders) ∧
      s' = { s with mip, issuing := orders } := by
  simp only [Link.step] at hs
  split_ifs at hs with idle
  cases done : s.mip.perform c with
  | error e => simp [done] at hs
  | ok r =>
    simp only [done, Option.some.injEq] at hs
    exact ⟨idle, r.1, r.2, rfl, hs.symm⟩

/-- The value returned is the count of the object, as `send_order` expects. -/
theorem sendOrder_eq (h : Related s t) {o : Order} {os : List Order}
    (next : s.issuing = o :: os) :
    s.sendOrder = some ({ s with
      mip := { s.mip with nattrib := s.mip.nattrib + 1 }
      attrib := s.attrib.withQueue (s.attrib.writeWatch || s.attrib.requests.isEmpty)
        (s.attrib.nextCmdId + 1)
        (s.attrib.requests ++ [.new 0 (s.attrib.nextCmdId + 1) o.pdu false () false])
      issuing := os }, s.mip.nattrib + 1) := by
  have short := h.issuing o (by simp [next])
  simp only [Link.sendOrder, next, h.writeHandle, short.gattWriteCmd h.commanding h.room,
    Option.map_some, h.counted]

theorem step_sendOrder (h : Related s t) {o : Order} {os : List Order}
    (next : s.issuing = o :: os) :
    s.step .sendOrder = some { s with
      mip := { s.mip with nattrib := s.mip.nattrib + 1 }
      attrib := s.attrib.withQueue (s.attrib.writeWatch || s.attrib.requests.isEmpty)
        (s.attrib.nextCmdId + 1)
        (s.attrib.requests ++ [.new 0 (s.attrib.nextCmdId + 1) o.pdu false () false])
      issuing := os } := by
  rw [Link.step, h.sendOrder_eq next, Option.map_some]

theorem step_canWrite (h : Related s t) (hup written : Bool) :
    s.step (.canWrite hup written) =
      if s.attrib.writeWatch then
        match s.attrib.requests with
        | c :: q =>
          if hup = false ∧ written = true then
            some { s with
              attrib := s.attrib.withQueue true s.attrib.nextCmdId q
              down := s.down ++ [c.pdu] }
          else some { s with attrib := s.attrib.withQueue false s.attrib.nextCmdId (c :: q) }
        | [] => some { s with attrib := s.attrib.withQueue false s.attrib.nextCmdId [] }
      else none := by
  simp only [Link.step, Attrib.step, h.commanding.alive, Attrib.stepLive, Bool.false_eq_true,
    if_false]
  by_cases on : s.attrib.writeWatch = true
  · rw [if_pos on, if_pos on, h.commanding.onWritable_eq on]
    cases queue : s.attrib.requests with
    | nil => simp [writes]
    | cons c q =>
      have wrote : writes [Effect.write c, .destroy c] = [c] := rfl
      by_cases ok : hup = false ∧ written = true
      · simp [ok, wrote]
      · simp [if_neg ok, writes]
  · rw [if_neg on, if_neg on, Option.map_none]

theorem step_serve (h : Related s t) (sp : Spelling) {bytes : List UInt8} {down : List (List UInt8)}
    (air : s.down = bytes :: down) :
    ∃ o os, bytes = o.pdu ∧ t.orders = o :: os ∧
      down ++ s.attrib.requests.map Command.pdu ++ s.issuing.map Order.pdu = os.map Order.pdu ∧
      s.step (.serve sp) = some { s with
        down
        robot := (s.robot.serve o).1
        up := s.up ++ (s.robot.serve o).2.map sp.pdu } := by
  have inFlight := h.orders
  rw [air] at inFlight
  cases orders : t.orders with
  | nil => simp [orders] at inFlight
  | cons o os =>
    rw [orders, List.map_cons, List.cons_append, List.cons_append, List.cons_eq_cons] at inFlight
    obtain ⟨rfl, rest⟩ := inFlight
    refine ⟨o, os, rfl, rfl, rest, ?_⟩
    simp only [Link.step, air, Robot.onPdu, o.decWriteCmd_pdu, if_true]

theorem step_receive (h : Related s t) {bytes : List UInt8} {up : List (List UInt8)}
    (air : s.up = bytes :: up) :
    ∃ a as, t.replies = a :: as ∧
      List.Forall₂ (fun bytes a => a.values.length ≤ 5 ∧ ∃ sp : Spelling, bytes = sp.pdu a) up as ∧
      s.step .receive = if s.attrib.reading then
        some { s with
          mip := (s.mip.storeResults a.notification.cmd a.notification.values).1
          up }
      else none := by
  have arriving := h.replies
  rw [air] at arriving
  obtain ⟨a, as, ⟨short, sp, rfl⟩, rest, replies⟩ := List.forall₂_cons_left_iff.mp arriving
  refine ⟨a, as, replies, rest, ?_⟩
  have length := sp.pdu_length a
  have whole : (sp.pdu a).take 512 = sp.pdu a := List.take_of_length_le (by omega)
  have fits : (sp.pdu a).length < 65536 := by omega
  obtain ⟨evt, dispatched⟩ := sp.dispatch_pdu h.events a
  have handled : s.mip.handleEvents [.event (sp.pdu a) evt] =
      some (s.mip.storeResults a.notification.cmd a.notification.values).1 := by
    rw [Mip.handleEvents, dif_pos fits, eventsHandler_of_spells (sp.pdu_spells a fits)]
    rfl
  simp only [Link.step, air, Attrib.step, h.commanding.alive, Attrib.stepLive, Option.map_some,
    whole, h.commanding.receivedData_eq (sp.pdu_event a), dispatched, Bool.false_eq_true, if_false]
  split_ifs with reading
  · simp [handled]
  · rfl

theorem step_readFails (h : Related s t) :
    s.step .readFails = if s.attrib.reading then
      some { s with
        attrib := s.attrib.withQueue (s.attrib.writeWatch || !s.attrib.requests.isEmpty)
          s.attrib.nextCmdId s.attrib.requests }
    else none := by
  simp only [Link.step, Attrib.step, h.commanding.alive, Attrib.stepLive, Option.map_none,
    h.commanding.receivedData_none, Bool.false_eq_true, if_false]
  split_ifs <;> rfl

theorem step_hangUp (h : Related s t) :
    s.step .hangUp = if s.attrib.reading then
      some { s with attrib := { s.attrib with reading := false } }
    else none := by
  simp only [Link.step, Attrib.step, h.commanding.alive, Attrib.stepLive, Attrib.receivedData,
    h.commanding.fresh, Bool.false_eq_true, if_false, if_true]
  split_ifs <;> rfl

/-! Each action keeps the relation. -/

theorem call (h : Related s t) {c : Call} (hs : s.step (.call c) = some s') :
    ∃ t', mipSystem.step t (.call c) = some t' ∧ Related s' t' := by
  obtain ⟨idle, mip, orders, done, rfl⟩ := step_call hs
  have inFlight := h.orders
  rw [idle, List.map_nil, List.append_nil] at inFlight
  have before : t.client = s.mip := by rw [h.client, idle, List.length_nil, Mip.counting_zero]
  obtain ⟨handles, count⟩ := Mip.handles_of_perform done
  refine ⟨{ t with client := mip.counting orders.length, orders := t.orders ++ orders }, ?_, ?_⟩
  · simp [Duplex.System.step, mipSystem, before, done, Except.toOption]
  · exact { h with
      client := rfl
      orders := by rw [List.map_append, ← inFlight]
      issuing := Mip.short_of_perform done
      handles := handles.trans h.handles
      counted := h.counted.trans count.symm }

theorem sendOrder (h : Related s t) (hs : s.step .sendOrder = some s') : Related s' t := by
  cases queue : s.issuing with
  | nil => simp [Link.step, Link.sendOrder, queue] at hs
  | cons o os =>
    rw [h.step_sendOrder queue, Option.some.injEq] at hs
    subst hs
    have inFlight := h.orders
    have short := h.issuing
    rw [queue] at inFlight short
    have waits : ∀ c ∈ s.attrib.requests ++
        [Command.new 0 (s.attrib.nextCmdId + 1) o.pdu false () false], c.Waits := by
      intro c hc
      rcases List.mem_append.mp hc with hc | hc
      · exact h.commanding.waits c hc
      · obtain rfl := List.mem_singleton.mp hc
        exact Attrib.Commanding.new_waits rfl false () false
    exact { h with
      client := by rw [h.client, queue, List.length_cons, Mip.counting_succ]
      orders := by simpa [Command.new] using inFlight
      issuing := fun o' ho' => short o' (List.mem_cons_of_mem o ho')
      counted := by rw [← h.counted]; rfl
      commanding := h.commanding.withQueue waits }

/-- A command written to the radio moves from the queue to the air. -/
theorem canWrite (h : Related s t) {hup written : Bool}
    (hs : s.step (.canWrite hup written) = some s') : Related s' t := by
  have inFlight := h.orders
  have waits := h.commanding.waits
  have on : s.attrib.writeWatch = true := by
    by_contra off
    simp [h.step_canWrite, off] at hs
  rw [h.step_canWrite, if_pos on] at hs
  cases queue : s.attrib.requests with
  | nil =>
    rw [queue] at hs
    obtain rfl := Option.some.inj hs
    exact { h with
      orders := by simpa [queue] using inFlight
      commanding := h.commanding.withQueue (by simp) }
  | cons c q =>
    rw [queue] at hs waits
    dsimp only at hs
    split_ifs at hs
    · obtain rfl := Option.some.inj hs
      exact { h with
        orders := by simpa [queue] using inFlight
        commanding := h.commanding.withQueue fun d hd => waits d (List.mem_cons_of_mem c hd) }
    · obtain rfl := Option.some.inj hs
      exact { h with
        orders := by simpa [queue] using inFlight
        commanding := h.commanding.withQueue waits }

theorem serve (h : Related s t) {sp : Spelling} (hs : s.step (.serve sp) = some s') :
    ∃ t', mipSystem.step t .serve = some t' ∧ Related s' t' := by
  cases air : s.down with
  | nil => simp [Link.step, air] at hs
  | cons bytes down =>
    obtain ⟨o, os, rfl, orders, rest, done⟩ := h.step_serve sp air
    obtain rfl := Option.some.inj (done.symm.trans hs)
    have spelled : List.Forall₂
        (fun bytes a => a.values.length ≤ 5 ∧ ∃ sp : Spelling, bytes = sp.pdu a)
        ((s.robot.serve o).2.map sp.pdu) (s.robot.serve o).2 := by
      rw [List.forall₂_map_left_iff, List.forall₂_same]
      exact fun a ha => ⟨s.robot.serve_short o a ha, sp, rfl⟩
    refine ⟨{ t with orders := os, server := (s.robot.serve o).1,
                     replies := t.replies ++ (s.robot.serve o).2 }, ?_, ?_⟩
    · simp [Duplex.System.step, orders, mipSystem, h.server]
    · exact { h with
        server := rfl
        orders := rest
        replies := List.rel_append h.replies spelled }

theorem receive (h : Related s t) (hs : s.step .receive = some s') :
    ∃ t', mipSystem.step t .receive = some t' ∧ Related s' t' := by
  cases air : s.up with
  | nil => simp [Link.step, air] at hs
  | cons bytes up =>
    obtain ⟨a, as, replies, rest, done⟩ := h.step_receive air
    rw [done] at hs
    split_ifs at hs with reading
    obtain rfl := Option.some.inj hs
    obtain ⟨handles, count, aside⟩ :=
      s.mip.storeResults_handles a.notification.cmd a.notification.values
    refine ⟨{ t with
      client := (t.client.storeResults a.notification.cmd a.notification.values).1
      replies := as }, ?_, ?_⟩
    · simp [Duplex.System.step, replies, mipSystem]
    · exact { h with
        client := by rw [h.client, aside]
        replies := rest
        handles := handles.trans h.handles
        counted := h.counted.trans count.symm }

theorem readFails (h : Related s t) (hs : s.step .readFails = some s') : Related s' t := by
  rw [h.step_readFails] at hs
  split_ifs at hs with reading
  obtain rfl := Option.some.inj hs
  exact { h with commanding := h.commanding.withQueue h.commanding.waits }

theorem hangUp (h : Related s t) (hs : s.step .hangUp = some s') : Related s' t := by
  rw [h.step_hangUp] at hs
  split_ifs at hs with reading
  obtain rfl := Option.some.inj hs
  have same := h.commanding
  exact { h with commanding := ⟨same.alive, same.fresh, same.counted, same.still,
    same.noResponse, same.waits⟩ }

end Related

/-- The system without the channel follows every step of the system with it. -/
theorem link_simulates (r : Robot) :
    Simulates (Link.machine r) (mipSystem.machine (mipInit r)) LinkAct.image Related where
  initial := related_init r
  matched := by
    intro s s' t a h hs
    cases a with
    | call c =>
      obtain ⟨t', ht, related⟩ := h.call hs
      exact ⟨t', by simpa [LinkAct.image, Duplex.System.machine] using ht, related⟩
    | sendOrder => exact ⟨t, rfl, h.sendOrder hs⟩
    | canWrite hup written => exact ⟨t, rfl, h.canWrite hs⟩
    | serve sp =>
      obtain ⟨t', ht, related⟩ := h.serve hs
      exact ⟨t', by simpa [LinkAct.image, Duplex.System.machine] using ht, related⟩
    | receive =>
      obtain ⟨t', ht, related⟩ := h.receive hs
      exact ⟨t', by simpa [LinkAct.image, Duplex.System.machine] using ht, related⟩
    | readFails => exact ⟨t, rfl, h.readFails hs⟩
    | hangUp => exact ⟨t, rfl, h.hangUp hs⟩

end LibMip
