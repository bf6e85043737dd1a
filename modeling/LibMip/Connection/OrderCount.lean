import LibMip.Connection.World
import LibMip.Foundation.Runs

/-!
# The two order counts

The object numbers its orders from the day it is built, a channel numbers its commands from the
day it is opened, and `send_order` expects the two numbers to be equal. `connect_cb` replaces
the channel and leaves the count of the object alone. So the numbers agree on a channel exactly
when no order was issued before the channel was opened.
-/

namespace LibMip

open CNum Runs

/-- What can happen to the object and its channels, in the order in which it happens. Opening an
attempt and running its callback are separate, and a callback, an order method called from the
notification hook or a new attempt may come at any point. -/
inductive Event where
  | gattConnect
  | connectCb (cb : Callback)
  | sendOrder (value : Order)
  | canWriteData (i : Nat)
  | disconnectTimeout (i : Nat)
  | notification (pdu : Pdu)

def transport : Machine World Event where
  init := World.init
  step w
    | .gattConnect => some w.gattConnect
    | .connectCb cb => w.connectCb cb
    | .sendOrder value => (w.sendOrder value).map Prod.fst
    | .canWriteData i => some (w.onChannel i GAttrib.canWriteData)
    | .disconnectTimeout i => some (w.onChannel i GAttrib.disconnectTimeout)
    | .notification pdu => w.notification pdu

/-- The orders of a history, and those of them issued before the last callback without error. -/
structure Tally where
  issued : Nat
  beforeChannel : Nat

def Tally.add (n : Tally) : Event → Tally
  | .sendOrder _ => { n with issued := n.issued + 1 }
  | .connectCb cb => if cb.err then n else { n with beforeChannel := n.issued }
  | _ => n

def tally (h : List Event) : Tally := h.foldl Tally.add ⟨0, 0⟩

/-- An order on a channel that is not stale is numbered alike on both sides. -/
def InStep (w : World) : Event → Prop
  | .sendOrder value => ∀ i a, w.Live i a →
      ∃ t retval, w.sendOrder value = some (t, retval) ∧ retval = t.mip.nattrib
  | _ => True

/-- An order on a channel that is not stale is sent when none was issued before the callback
that opened the channel. -/
def OnFirstChannel (h : List Event) (w : World) : Event → Prop
  | .sendOrder _ => (∃ i a, w.Live i a) → (tally h).beforeChannel = 0
  | _ => True

@[simp] theorem tally_concat (h : List Event) (e : Event) :
    tally (h ++ [e]) = (tally h).add e := by
  simp [tally]

theorem Tally.add_connectCb (n : Tally) (cb : Callback) :
    n.add (.connectCb cb) = if cb.err then n else { n with beforeChannel := n.issued } := rfl

theorem tally_add_mono (n : Tally) (e : Event) : n.issued ≤ (n.add e).issued := by
  cases e with
  | connectCb cb =>
    rw [Tally.add_connectCb]
    split <;> exact Nat.le_refl n.issued
  | sendOrder => exact Nat.le_succ _
  | gattConnect | canWriteData | disconnectTimeout | notification => exact le_rfl

/-- A history issues at least the orders of any part of it that comes first. -/
theorem issued_mono {p h : List Event} (hp : p <+: h) : (tally p).issued ≤ (tally h).issued := by
  obtain ⟨q, rfl⟩ := hp
  induction q using List.reverseRecOn with
  | nil => simp
  | append_singleton q e ih =>
    rw [← List.append_assoc, tally_concat]
    exact ih.trans (tally_add_mono _ e)

/-- What the two counters hold after a history. -/
structure Counted (n : Tally) (w : World) : Prop where
  before : n.beforeChannel ≤ n.issued
  object : w.mip.nattrib = UInt32.ofNat n.issued
  channel : ∀ i a, w.Live i a → a.nextCmdId = UInt32.ofNat (n.issued - n.beforeChannel)

/-- Nothing but an order or a new channel moves a counter. -/
theorem Counted.of_live {n : Tally} {w t : World} (counted : Counted n w)
    (object : t.mip.nattrib = w.mip.nattrib)
    (channel : ∀ i b, t.Live i b → ∃ a, w.Live i a ∧ b.nextCmdId = a.nextCmdId) : Counted n t := by
  refine ⟨counted.before, object.trans counted.object, fun i b live => ?_⟩
  obtain ⟨a, ha, same⟩ := channel i b live
  exact same.trans (counted.channel i a ha)

theorem Counted.sendOrder {n : Tally} {w t : World} {value : Order} {retval : UInt32}
    (counted : Counted n w) (h : w.sendOrder value = some (t, retval)) :
    Counted { n with issued := n.issued + 1 } t := by
  obtain ⟨i, a, hi, ha, -, rfl⟩ := World.sendOrder_some h
  obtain ⟨before, object, channel⟩ := counted
  refine ⟨before.trans (Nat.le_succ _), ?_, fun j b live => ?_⟩
  · simp [object]
  · obtain ⟨hj, hb, fresh⟩ := live
    obtain rfl : i = j := Option.some.inj (hi.symm.trans hj)
    have hlt : i < w.attribs.length := (List.getElem?_eq_some_iff.mp ha).1
    rw [List.getElem?_set_self hlt] at hb
    obtain rfl := Option.some.inj hb
    by_cases stale : a.stale = true
    · simp [GAttrib.send, stale] at fresh
    · have count := channel i a ⟨hi, ha, by simpa using stale⟩
      have next : n.issued + 1 - n.beforeChannel = n.issued - n.beforeChannel + 1 := by omega
      simp [GAttrib.send, stale, count, next]

theorem Counted.step {n : Tally} {w t : World} {e : Event} (counted : Counted n w)
    (h : transport.step w e = some t) : Counted (n.add e) t := by
  cases e with
  | gattConnect =>
    obtain rfl := Option.some.inj h
    exact counted.of_live rfl fun i b live => ⟨b, live, rfl⟩
  | connectCb cb =>
    rw [Tally.add_connectCb]
    by_cases err : cb.err = true
    · obtain ⟨-, rfl⟩ := World.connectCb_err err h
      rw [if_pos err]
      exact counted.of_live rfl fun i b live => ⟨b, live, rfl⟩
    · obtain ⟨-, rfl⟩ := World.connectCb_ok err h
      rw [if_neg err]
      refine ⟨le_rfl, counted.object, fun i b live => ?_⟩
      obtain ⟨hi, hb, -⟩ := live
      obtain rfl := Option.some.inj hi
      obtain rfl : gAttribNew = b := by simpa using hb
      simp [gAttribNew]
  | sendOrder value =>
    obtain ⟨⟨t', retval⟩, hsend, rfl⟩ := Option.map_eq_some_iff.mp h
    exact counted.sendOrder hsend
  | canWriteData j =>
    obtain rfl := Option.some.inj h
    refine counted.of_live rfl fun i b live => World.live_onChannel (fun a fresh => ?_) live
    unfold GAttrib.canWriteData at fresh ⊢
    by_cases stale : a.stale = true
    · simp [stale] at fresh
    · simp [stale]
  | disconnectTimeout j =>
    obtain rfl := Option.some.inj h
    refine counted.of_live rfl fun i b live => World.live_onChannel (fun a fresh => ?_) live
    simp [GAttrib.disconnectTimeout] at fresh
  | notification pdu =>
    obtain ⟨m, link, rfl⟩ := World.notification_some h
    have attrib : m.attrib = w.mip.attrib := congrArg Prod.fst link
    have nattrib : m.nattrib = w.mip.nattrib := congrArg (fun l => l.2.1) link
    exact counted.of_live nattrib fun i b live => ⟨b, ⟨attrib.symm.trans live.1, live.2⟩, rfl⟩

theorem counted_run {h : List Event} {w : World} (hr : transport.run h = some w) :
    Counted (tally h) w := by
  refine transport.run_invariant (I := fun h w => Counted (tally h) w) ?_
    (fun h w e t _ counted hs => ?_) hr
  · refine ⟨le_rfl, rfl, fun i a live => ?_⟩
    cases live.1
  · rw [tally_concat]
    exact counted.step hs

/-- One order: the two numbers are equal when none was issued before the channel. -/
theorem inStep_iff {h : List Event} {w : World} (hr : transport.run h = some w)
    (few : (tally h).issued < 4294967296) (e : Event) : InStep w e ↔ OnFirstChannel h w e := by
  obtain ⟨before, object, channel⟩ := counted_run hr
  cases e with
  | sendOrder value =>
    have numbers {i : Nat} {a : GAttrib} (live : w.Live i a) :
        a.nextCmdId + 1 = w.mip.nattrib + 1 ↔ (tally h).beforeChannel = 0 := by
      rw [channel i a live, object, UInt32.add_left_inj, ← UInt32.toNat_inj, UInt32.toNat_ofNat',
        UInt32.toNat_ofNat']
      omega
    constructor
    · rintro same ⟨i, a, live⟩
      obtain ⟨t, retval, hsend, equal⟩ := same i a live
      obtain ⟨t', hsend', count⟩ := World.sendOrder_live live value
      obtain ⟨rfl, rfl⟩ := Prod.mk.inj (Option.some.inj (hsend'.symm.trans hsend))
      exact (numbers live).mp (equal.trans count)
    · intro first i a live
      obtain ⟨t, hsend, count⟩ := World.sendOrder_live live value
      exact ⟨t, _, hsend, ((numbers live).mpr (first ⟨i, a, live⟩)).trans count.symm⟩
  | gattConnect | connectCb | canWriteData | disconnectTimeout | notification => exact Iff.rfl

/-- In a run of fewer than 2^32 orders the numbers agree on every channel in use exactly when
every order on one is sent with none issued before the channel was opened. -/
theorem orderCount_iff (h : List Event) (few : (tally h).issued < 4294967296) :
    transport.EveryStep (fun _ w e => InStep w e) h ↔ transport.EveryStep OnFirstChannel h := by
  apply Machine.EveryStep.congr
  intro p e w hp hw
  exact inStep_iff hw ((issued_mono ((List.prefix_append p [e]).trans hp)).trans_lt few) e

/-- On the first connection an order is numbered alike. -/
theorem orderCount_iff_first :
    transport.EveryStep (fun _ w e => InStep w e)
      ([] ++ [.gattConnect] ++ [.connectCb ⟨0, false⟩] ++ [.sendOrder [0x77]]) := by
  apply (orderCount_iff _ (by decide)).mpr
  rw [Machine.EveryStep.concat_iff, Machine.EveryStep.concat_iff, Machine.EveryStep.concat_iff]
  exact ⟨⟨⟨Machine.EveryStep.nil, fun _ _ => trivial⟩, fun _ _ => trivial⟩, fun _ _ _ => rfl⟩

/-- After a second connection the channel counts from 0 again and the object goes on counting:
the order is queued with number 1 and expected to have number 2. -/
theorem order_count_lost_on_reconnect :
    ¬ transport.EveryStep (fun _ w e => InStep w e)
      ([.gattConnect, .connectCb ⟨0, false⟩, .sendOrder [0x77], .gattConnect,
        .connectCb ⟨1, false⟩] ++ [.sendOrder [0x77]]) := by
  intro all
  obtain ⟨t, retval, hsend, equal⟩ :=
    (Machine.EveryStep.concat_iff.mp all).2 _ rfl 1 gAttribNew ⟨rfl, rfl, rfl⟩
  obtain ⟨rfl, rfl⟩ := Prod.mk.inj (Option.some.inj hsend)
  exact absurd equal (by decide)

end LibMip
