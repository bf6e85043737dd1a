import LibMip.Notification.Decode
import LibMip.Orders

/-!
# Attempts, channels and the object

`gatt_connect` opens an attempt, whose `connect_cb` the main loop invokes once, at some later
iteration or never. A callback without error gives the object a new attribute channel; the one
it replaces stays registered but is no longer sent on. A channel counts the commands queued on
it, hands them to the radio one at a time, and goes stale after a timeout.

`Mip::send_order` counts the orders of the object, sends on its channel and compares the two
counts; running the main loop is a separate event, since nothing of it lies between the count
and the comparison.
-/

namespace LibMip

open CNum

/-- An attribute channel, as far as write commands go. -/
structure GAttrib where
  nextCmdId : UInt32
  stale : Bool
  requests : List Order
  deriving DecidableEq

/-- `g_attrib_new`. -/
def gAttribNew : GAttrib := ⟨0, false, []⟩

namespace GAttrib

variable (a : GAttrib)

/-- `g_attrib_send` with id 0: the number of the command, or 0 when nothing is queued. -/
def send (pdu : Order) : GAttrib × UInt32 :=
  if a.stale then (a, 0)
  else
    let id := a.nextCmdId + 1
    ({ a with nextCmdId := id, requests := a.requests ++ [pdu] }, id)

/-- `can_write_data` when the write succeeds: a write command expects no response. -/
def canWriteData : GAttrib := if a.stale then a else { a with requests := a.requests.tail }

/-- `disconnect_timeout`. -/
def disconnectTimeout : GAttrib := { a with requests := [], stale := true }

end GAttrib

/-- The object with its channels, which `Mip.attrib` names by position, and its attempts. -/
structure World where
  mip : Mip
  attribs : List GAttrib
  opened : Nat
  pending : List Nat
  succeeded : List Nat

/-- An invocation of `connect_cb`. -/
structure Callback where
  attempt : Nat
  err : Bool
  deriving DecidableEq

namespace World

def init : World := ⟨Mip.init, [], 0, [], []⟩

variable (w : World)

/-- `gatt_connect` when it returns a channel. -/
def gattConnect : World := { w with opened := w.opened + 1, pending := w.pending ++ [w.opened] }

/-- `Mip::connect_cb`, for an attempt whose callback is still to come. -/
def connectCb (cb : Callback) : Option World :=
  if cb.attempt ∈ w.pending then
    if cb.err then some { w with pending := w.pending.erase cb.attempt }
    else some { w with
      mip := { w.mip with attrib := some w.attribs.length, isConnected := true }
      attribs := w.attribs ++ [gAttribNew]
      pending := w.pending.erase cb.attempt
      succeeded := w.succeeded ++ [cb.attempt] }
  else none

/-- `Mip::send_order` up to the comparison, with the value `gatt_write_cmd` returned. Without a
channel the pointer is not set, and there is no behaviour. -/
def sendOrder (value : Order) : Option (World × UInt32) := do
  let i ← w.mip.attrib
  let a ← w.attribs[i]?
  some ({ w with mip := { w.mip with nattrib := w.mip.nattrib + 1 },
                 attribs := w.attribs.set i (a.send value).1 }, (a.send value).2)

/-- Something happens to a channel, current or not. -/
def onChannel (i : Nat) (f : GAttrib → GAttrib) : World :=
  { w with attribs := w.attribs.modify i f }

/-- A registered handle receives a PDU. -/
def notification (pdu : Pdu) : Option World :=
  match w.mip.eventsHandler pdu with
  | .ok r => some { w with mip := r.1 }
  | .error _ => none

/-- The channel orders are sent on, unless it is stale. -/
def Live (i : Nat) (a : GAttrib) : Prop :=
  w.mip.attrib = some i ∧ w.attribs[i]? = some a ∧ a.stale = false

end World

/-! ## The fields of the connection -/

/-- What the connection keeps in the object. -/
def Mip.link (m : Mip) : Option Nat × UInt32 × Bool := (m.attrib, m.nattrib, m.isConnected)

theorem branch_link {cmd : MipCommand} {n : Nat} :
    ∀ put, Mip.branch cmd n = some put → ∀ m v, (put m v).link = m.link := by
  unfold Mip.branch
  repeat refine Mip.ite_some_forall (fun _ _ => rfl) ?_
  intro put h
  cases h

theorem storeResults_link (m : Mip) (cmd : MipCommand) (v : List Int) :
    (m.storeResults cmd v).1.link = m.link := by
  unfold Mip.storeResults
  cases hb : Mip.branch cmd (nvalues v) with
  | none => rfl
  | some put => exact branch_link put hb m v

/-- No notification touches the connection. -/
theorem eventsHandler_link {m : Mip} {pdu : Pdu} {r : Mip × List Notification}
    (h : m.eventsHandler pdu = .ok r) : r.1.link = m.link := by
  have fold (calls : List Notification) (q : Mip × List Notification) :
      (calls.foldl (fun r c =>
        let s := r.1.storeResults c.cmd c.values
        (s.1, r.2 ++ s.2)) q).1.link = q.1.link := by
    induction calls generalizing q with
    | nil => rfl
    | cons c calls ih => exact (ih _).trans (storeResults_link q.1 c.cmd c.values)
  unfold Mip.eventsHandler at h
  cases hd : decode pdu with
  | error e => simp [hd, bind, Except.bind] at h
  | ok calls =>
    rw [hd] at h
    obtain rfl := Except.ok.inj h
    exact fold calls (m, [])

namespace World

variable {w t : World}

theorem connectCb_err {cb : Callback} (err : cb.err = true) (h : w.connectCb cb = some t) :
    cb.attempt ∈ w.pending ∧ t = { w with pending := w.pending.erase cb.attempt } := by
  unfold connectCb at h
  split_ifs at h with hp
  exact ⟨hp, (Option.some.inj h).symm⟩

theorem connectCb_ok {cb : Callback} (ok : ¬ cb.err = true) (h : w.connectCb cb = some t) :
    cb.attempt ∈ w.pending ∧ t = { w with
      mip := { w.mip with attrib := some w.attribs.length, isConnected := true }
      attribs := w.attribs ++ [gAttribNew]
      pending := w.pending.erase cb.attempt
      succeeded := w.succeeded ++ [cb.attempt] } := by
  unfold connectCb at h
  split_ifs at h with hp
  exact ⟨hp, (Option.some.inj h).symm⟩

theorem sendOrder_some {value : Order} {retval : UInt32}
    (h : w.sendOrder value = some (t, retval)) :
    ∃ i a, w.mip.attrib = some i ∧ w.attribs[i]? = some a ∧ retval = (a.send value).2 ∧
      t = { w with mip := { w.mip with nattrib := w.mip.nattrib + 1 },
                   attribs := w.attribs.set i (a.send value).1 } := by
  obtain ⟨i, hi, h⟩ := Option.bind_eq_some_iff.mp h
  obtain ⟨a, ha, h⟩ := Option.bind_eq_some_iff.mp h
  obtain ⟨rfl, rfl⟩ := Prod.mk.inj (Option.some.inj h)
  exact ⟨i, a, hi, ha, rfl, rfl⟩

theorem sendOrder_live {i : Nat} {a : GAttrib} (live : w.Live i a) (value : Order) :
    ∃ t, w.sendOrder value = some (t, a.nextCmdId + 1) ∧ t.mip.nattrib = w.mip.nattrib + 1 := by
  obtain ⟨hi, ha, fresh⟩ := live
  have sent : (a.send value).2 = a.nextCmdId + 1 := by simp [GAttrib.send, fresh]
  rw [← sent]
  exact ⟨{ w with mip := { w.mip with nattrib := w.mip.nattrib + 1 },
                  attribs := w.attribs.set i (a.send value).1 }, by simp [sendOrder, hi, ha], rfl⟩

theorem notification_some {pdu : Pdu} (h : w.notification pdu = some t) :
    ∃ m, m.link = w.mip.link ∧ t = { w with mip := m } := by
  unfold notification at h
  cases hr : w.mip.eventsHandler pdu with
  | error e => simp [hr] at h
  | ok r =>
    rw [hr] at h
    exact ⟨r.1, eventsHandler_link hr, (Option.some.inj h).symm⟩

/-- The channel orders are sent on after something happened to some channel. -/
theorem live_onChannel {j i : Nat} {f : GAttrib → GAttrib} {b : GAttrib}
    (stays : ∀ a : GAttrib, (f a).stale = false → a.stale = false ∧ (f a).nextCmdId = a.nextCmdId)
    (h : (w.onChannel j f).Live i b) : ∃ a, w.Live i a ∧ b.nextCmdId = a.nextCmdId := by
  obtain ⟨hi, hb, fresh⟩ := h
  simp only [onChannel, List.getElem?_modify] at hb
  obtain ⟨a, ha, rfl⟩ := Option.map_eq_some_iff.mp hb
  by_cases hj : j = i
  · simp only [if_pos hj] at fresh ⊢
    exact ⟨a, ⟨hi, ha, (stays a fresh).1⟩, (stays a fresh).2⟩
  · simp only [if_neg hj] at fresh ⊢
    exact ⟨a, ⟨hi, ha, fresh⟩, rfl⟩

end World

end LibMip
