import LibMip.Orders
import LibMip.Foundation.Runs

/-!
# Continuous drive

`Mip::continuous_drive` clamps the requested ticks, places each in one of the byte bands of the
protocol and sends one order. When the request is slower than the previous one it first calls
itself with the sign of one component reversed. The inner call has `force_decelerating` unset,
so it does not call itself again; it also overwrites the remembered request, which the outer
call then overwrites with its own.

`motionOf` reads an order with the bands of the source's comments. `continuousDrive_eq` gives
the object and the orders of a call, and `continuousDrive_run_spec` describes each call of a run.
-/

namespace LibMip

open CNum Runs

/-- The first parameter, forward or backward speed. -/
def driveParam1 (vTicks : Int) : Int :=
  let v := clamp vTicks (-64) 64
  if 32 < v then 96 + v
  else if 0 ≤ v then v
  else if -32 ≤ v then 32 - v
  else 128 - v

/-- The second parameter, left or right spin. -/
def driveParam2 (wTicks : Int) : Int :=
  let w := clamp wTicks (-64) 63
  if 32 < w then 192 + w
  else if 0 < w then 96 + w
  else if w = 0 then 0
  else if -32 ≤ w then 64 - w
  else 160 - w

def driveOrder (vTicks wTicks : Int) : Order :=
  sendOrder2 cmdContinuousDrive (driveParam1 vTicks) (driveParam2 wTicks)

/-- `fabs` of an `int` is exact, so the two tests compare magnitudes. -/
def Mip.continuousDrive (m : Mip) (vTicks wTicks : Int) (forceDecelerating : Bool) :
    Except Fault (Mip × List Order) := do
  let first ←
    if _ : forceDecelerating = true ∧ vTicks.natAbs < m.lastVTicks.natAbs then do
      let v ← negate vTicks
      m.continuousDrive v wTicks false
    else if _ : forceDecelerating = true ∧ wTicks.natAbs < m.lastWTicks.natAbs then do
      let w ← negate wTicks
      m.continuousDrive vTicks w false
    else .ok (m, [])
  .ok ({ first.1 with lastVTicks := vTicks, lastWTicks := wTicks },
    first.2 ++ [driveOrder vTicks wTicks])
termination_by forceDecelerating.toNat
decreasing_by all_goals (rename_i slower; simp [slower.1])

/-! ## The byte bands -/

/-- Forward `0x01`-`0x20`, backward `0x21`-`0x40`, and the crazy bands `0x81`-`0xA0` and
`0xA1`-`0xC0`, each from slow to fast. -/
def forwardOf (b : UInt8) : Option Int :=
  let n : Int := b.toNat
  if n = 0 then some 0
  else if 0x01 ≤ n ∧ n ≤ 0x20 then some (1 + (n - 0x01))
  else if 0x21 ≤ n ∧ n ≤ 0x40 then some (-(1 + (n - 0x21)))
  else if 0x81 ≤ n ∧ n ≤ 0xA0 then some (33 + (n - 0x81))
  else if 0xA1 ≤ n ∧ n ≤ 0xC0 then some (-(33 + (n - 0xA1)))
  else none

/-- Right `0x41`-`0x60`, left `0x61`-`0x80`, and the crazy bands `0xC1`-`0xE0` and
`0xE1`-`0xFF`, each from slow to fast; left is positive. -/
def spinOf (b : UInt8) : Option Int :=
  let n : Int := b.toNat
  if n = 0 then some 0
  else if 0x41 ≤ n ∧ n ≤ 0x60 then some (-(1 + (n - 0x41)))
  else if 0x61 ≤ n ∧ n ≤ 0x80 then some (1 + (n - 0x61))
  else if 0xC1 ≤ n ∧ n ≤ 0xE0 then some (-(33 + (n - 0xC1)))
  else if 0xE1 ≤ n ∧ n ≤ 0xFF then some (33 + (n - 0xE1))
  else none

/-- The motion a continuous drive order commands. -/
def motionOf : Order → Option (Int × Int)
  | [cmd, param1, param2] =>
    if cmd = 0x78 then
      match forwardOf param1, spinOf param2 with
      | some v, some w => some (v, w)
      | _, _ => none
    else none
  | _ => none

theorem clamp_forward_mem (v : Int) : -64 ≤ clamp v (-64) 64 ∧ clamp v (-64) 64 ≤ 64 :=
  ⟨le_clamp (by decide), clamp_le (by decide)⟩

theorem clamp_spin_mem (w : Int) : -64 ≤ clamp w (-64) 63 ∧ clamp w (-64) 63 ≤ 63 :=
  ⟨le_clamp (by decide), clamp_le (by decide)⟩

theorem driveParam1_mem (v : Int) : 0 ≤ driveParam1 v ∧ driveParam1 v ≤ 255 := by
  have range := clamp_forward_mem v
  simp only [driveParam1]
  split_ifs <;> omega

theorem driveParam2_mem (w : Int) : 0 ≤ driveParam2 w ∧ driveParam2 w ≤ 255 := by
  have range := clamp_spin_mem w
  simp only [driveParam2]
  split_ifs <;> omega

theorem forwardOf_driveParam1 (v : Int) :
    forwardOf (uint8 (driveParam1 v)) = some (clamp v (-64) 64) := by
  have hn := uint8_of_mem (driveParam1_mem v).1 (driveParam1_mem v).2
  have range := clamp_forward_mem v
  unfold forwardOf
  simp only [driveParam1] at hn ⊢
  split_ifs at hn ⊢ <;> first | omega | (congr 1; omega)

theorem spinOf_driveParam2 (w : Int) :
    spinOf (uint8 (driveParam2 w)) = some (clamp w (-64) 63) := by
  have hn := uint8_of_mem (driveParam2_mem w).1 (driveParam2_mem w).2
  have range := clamp_spin_mem w
  unfold spinOf
  simp only [driveParam2] at hn ⊢
  split_ifs at hn ⊢ <;> first | omega | (congr 1; omega)

/-- An order decodes to the clamped request. -/
@[simp] theorem motionOf_driveOrder (v w : Int) :
    motionOf (driveOrder v w) = some (clamp v (-64) 64, clamp w (-64) 63) := by
  have hcmd : uint8 0x78 = 0x78 := by decide
  simp [motionOf, driveOrder, sendOrder2, hcmd, forwardOf_driveParam1, spinOf_driveParam2]

theorem driveOrder_inj {v w v' w' : Int} :
    driveOrder v w = driveOrder v' w' ↔
      clamp v (-64) 64 = clamp v' (-64) 64 ∧ clamp w (-64) 63 = clamp w' (-64) 63 := by
  refine ⟨fun h => ?_, fun ⟨hv, hw⟩ => ?_⟩
  · simpa using congrArg motionOf h
  · simp only [driveOrder, driveParam1, driveParam2, hv, hw]

/-! ## One call -/

/-- The extra order of a forced deceleration after the request `last`. -/
def reversal (last : Int × Int) (v w : Int) (force : Bool) : List Order :=
  if force = true ∧ v.natAbs < last.1.natAbs then [driveOrder (-v) w]
  else if force = true ∧ w.natAbs < last.2.natAbs then [driveOrder v (-w)]
  else []

theorem continuousDrive_false (m : Mip) (v w : Int) :
    m.continuousDrive v w false =
      .ok ({ m with lastVTicks := v, lastWTicks := w }, [driveOrder v w]) := by
  rw [Mip.continuousDrive]
  simp [bind, Except.bind]

/-- A call does not fault when the component it reverses has an opposite. -/
theorem continuousDrive_of_negate (m : Mip) {v w : Int} (force : Bool)
    (hv : v.natAbs < m.lastVTicks.natAbs → negate v = .ok (-v))
    (hw : w.natAbs < m.lastWTicks.natAbs → negate w = .ok (-w)) :
    m.continuousDrive v w force =
      .ok ({ m with lastVTicks := v, lastWTicks := w },
        reversal (m.lastVTicks, m.lastWTicks) v w force ++ [driveOrder v w]) := by
  rw [Mip.continuousDrive]
  by_cases slowerV : force = true ∧ v.natAbs < m.lastVTicks.natAbs
  · have hneg : negate v = .ok (-v) := hv slowerV.2
    simp [reversal, slowerV, hneg, continuousDrive_false, bind, Except.bind]
  · by_cases slowerW : force = true ∧ w.natAbs < m.lastWTicks.natAbs
    · have hneg : negate w = .ok (-w) := hw slowerW.2
      simp only [reversal, if_neg slowerV, dif_neg slowerV, if_pos slowerW, dif_pos slowerW]
      simp [hneg, continuousDrive_false, bind, Except.bind]
    · simp only [reversal, if_neg slowerV, dif_neg slowerV, if_neg slowerW, dif_neg slowerW]
      simp [bind, Except.bind]

/-- A call whose request and remembered request are `int`s does not fault: a component is
negated only when its magnitude is below that of another `int`. -/
theorem continuousDrive_eq (m : Mip) {v w : Int} (force : Bool) (hv : InInt v) (hw : InInt w)
    (hlv : InInt m.lastVTicks) (hlw : InInt m.lastWTicks) :
    m.continuousDrive v w force =
      .ok ({ m with lastVTicks := v, lastWTicks := w },
        reversal (m.lastVTicks, m.lastWTicks) v w force ++ [driveOrder v w]) :=
  continuousDrive_of_negate m force (fun slower => negate_of_lt hv (by omega))
    (fun slower => negate_of_lt hw (by omega))

/-! ## Runs of calls -/

/-- An object and every order it has sent. -/
structure Session where
  mip : Mip
  sent : List Order

/-- Run an order method; a fault ends the session. -/
def Session.perform (s : Session) (method : Mip → Except Fault (Mip × List Order)) :
    Option Session :=
  match method s.mip with
  | .ok (m, orders) => some ⟨m, s.sent ++ orders⟩
  | .error _ => none

/-- The ticks a caller asks for. -/
abbrev Request := CInt × CInt

/-- The request an object starts from. -/
def rest : Request := (⟨0, by decide⟩, ⟨0, by decide⟩)

structure DriveCall where
  v : CInt
  w : CInt
  force : Bool

def DriveCall.request (c : DriveCall) : Request := (c.v, c.w)

def driveMachine : Machine Session DriveCall where
  init := ⟨Mip.init, []⟩
  step s c := s.perform fun m => m.continuousDrive c.v c.w c.force

/-- The request of the last call. -/
def lastArgs (h : List DriveCall) : Request := (h.map DriveCall.request).getLastD rest

/-- The component comes with a smaller magnitude than the last time. -/
def Slower (last now : CInt) : Prop := now.val.natAbs < last.val.natAbs

instance (last now : CInt) : Decidable (Slower last now) :=
  inferInstanceAs (Decidable (now.val.natAbs < last.val.natAbs))

/-- The orders of a call after the request `last`. -/
def callOrders (last : Request) (c : DriveCall) : List Order :=
  reversal (last.1, last.2) c.v c.w c.force ++ [driveOrder c.v c.w]

/-- The orders of a run of calls after the request `last`. -/
def ordersFrom : Request → List DriveCall → List Order
  | _, [] => []
  | last, c :: h => callOrders last c ++ ordersFrom c.request h

/-- A continuous drive order whose parameters fit in a byte before they are narrowed. -/
def IsDrive (o : Order) : Prop :=
  ∃ v w, o = sendOrder2 cmdContinuousDrive (driveParam1 v) (driveParam2 w) ∧
    (0 ≤ driveParam1 v ∧ driveParam1 v ≤ 255) ∧ 0 ≤ driveParam2 w ∧ driveParam2 w ≤ 255

theorem isDrive_driveOrder (v w : Int) : IsDrive (driveOrder v w) :=
  ⟨v, w, rfl, driveParam1_mem v, driveParam2_mem w⟩

/-- What a call sends after the request `last`. -/
structure CallSpec (last : Request) (c : DriveCall) (orders : List Order) : Prop where
  drives : ∀ o ∈ orders, IsDrive o
  one_or_two : orders.length = 1 ∨ orders.length = 2
  final : orders.getLast?.bind motionOf = some (clamp c.v.val (-64) 64, clamp c.w.val (-64) 63)
  reversed_iff : orders.length = 2 ↔
    c.force = true ∧ (Slower last.1 c.v ∨ Slower last.2 c.w)
  reversed : orders.length = 2 → orders.head?.bind motionOf = some
    (if Slower last.1 c.v then (clamp (-c.v.val) (-64) 64, clamp c.w.val (-64) 63)
      else (clamp c.v.val (-64) 64, clamp (-c.w.val) (-64) 63))

section CallOrders

variable {last : Request} {c : DriveCall}

theorem callOrders_slowerV (force : c.force = true) (slower : Slower last.1 c.v) :
    callOrders last c = [driveOrder (-c.v.val) c.w, driveOrder c.v c.w] := by
  rw [callOrders, reversal, if_pos ⟨force, slower⟩]
  rfl

theorem callOrders_slowerW (force : c.force = true) (notV : ¬ Slower last.1 c.v)
    (slower : Slower last.2 c.w) :
    callOrders last c = [driveOrder c.v (-c.w.val), driveOrder c.v c.w] := by
  rw [callOrders, reversal, if_neg fun h => notV h.2, if_pos ⟨force, slower⟩]
  rfl

theorem callOrders_straight
    (straight : ¬ (c.force = true ∧ (Slower last.1 c.v ∨ Slower last.2 c.w))) :
    callOrders last c = [driveOrder c.v c.w] := by
  rw [callOrders, reversal, if_neg fun h => straight ⟨h.1, .inl h.2⟩,
    if_neg fun h => straight ⟨h.1, .inr h.2⟩]
  rfl

theorem callOrders_ne_nil : callOrders last c ≠ [] := by
  simp [callOrders]

theorem callSpec_callOrders (last : Request) (c : DriveCall) :
    CallSpec last c (callOrders last c) := by
  by_cases forced : c.force = true ∧ (Slower last.1 c.v ∨ Slower last.2 c.w)
  · obtain ⟨force, slower⟩ := forced
    by_cases slowerV : Slower last.1 c.v
    · rw [callOrders_slowerV force slowerV]
      constructor <;> simp [isDrive_driveOrder, force, slowerV]
    · have slowerW := slower.resolve_left slowerV
      rw [callOrders_slowerW force slowerV slowerW]
      constructor <;> simp [isDrive_driveOrder, force, slowerV, slowerW]
  · rw [callOrders_straight forced]
    constructor <;> simp [isDrive_driveOrder, forced]

end CallOrders

/-- A call from an object that remembers `last` does not fault. -/
theorem continuousDrive_after {m : Mip} {last : Request}
    (hv : m.lastVTicks = last.1) (hw : m.lastWTicks = last.2) (c : DriveCall) :
    m.continuousDrive c.v c.w c.force =
      .ok ({ m with lastVTicks := c.v, lastWTicks := c.w }, callOrders last c) := by
  rw [callOrders, ← hv, ← hw]
  exact continuousDrive_eq m c.force c.v.2 c.w.2 (hv ▸ last.1.2) (hw ▸ last.2.2)

/-- No run faults, and it sends the orders of its calls one after the other. -/
theorem drive_runFrom (s : Session) (last : Request) (hv : s.mip.lastVTicks = last.1)
    (hw : s.mip.lastWTicks = last.2) (h : List DriveCall) :
    ∃ t, driveMachine.runFrom s h = some t ∧ t.sent = s.sent ++ ordersFrom last h ∧
      t.mip.lastVTicks = ((h.map DriveCall.request).getLastD last).1 ∧
      t.mip.lastWTicks = ((h.map DriveCall.request).getLastD last).2 := by
  induction h generalizing s last with
  | nil => exact ⟨s, rfl, (List.append_nil _).symm, hv, hw⟩
  | cons c h ih =>
    have hstep : driveMachine.step s c =
        some ⟨{ s.mip with lastVTicks := c.v, lastWTicks := c.w },
          s.sent ++ callOrders last c⟩ := by
      simp only [driveMachine, Session.perform, continuousDrive_after hv hw c]
    obtain ⟨t, ht, sent, last⟩ := ih ⟨{ s.mip with lastVTicks := c.v, lastWTicks := c.w },
      s.sent ++ callOrders last c⟩ c.request rfl rfl
    refine ⟨t, ?_, ?_, ?_⟩
    · rw [Machine.runFrom_cons, hstep]
      exact ht
    · rw [sent, ordersFrom, List.append_assoc]
    · simpa only [List.map_cons, List.getLastD_cons] using last

theorem drive_run (h : List DriveCall) :
    ∃ s, driveMachine.run h = some s ∧ s.sent = ordersFrom rest h ∧
      s.mip.lastVTicks = (lastArgs h).1 ∧ s.mip.lastWTicks = (lastArgs h).2 :=
  drive_runFrom driveMachine.init rest rfl rfl h

/-- A call made in a run sends the orders for the request before it. -/
theorem continuousDrive_run {h : List DriveCall} {s : Session}
    (hr : driveMachine.run h = some s) (c : DriveCall) :
    s.mip.continuousDrive c.v c.w c.force =
      .ok ({ s.mip with lastVTicks := c.v, lastWTicks := c.w }, callOrders (lastArgs h) c) := by
  obtain ⟨t, ht, -, hv, hw⟩ := drive_run h
  obtain rfl : t = s := Option.some.inj (ht.symm.trans hr)
  exact continuousDrive_after hv hw c

/-- No sequence of calls makes a negation overflow, and each call sends what `CallSpec` says
about the request before it. -/
theorem continuousDrive_run_spec (h : List DriveCall) :
    (∃ s, driveMachine.run h = some s) ∧
      driveMachine.EveryStep (fun p s c => ∃ m orders,
        s.mip.continuousDrive c.v c.w c.force = .ok (m, orders) ∧
          CallSpec (lastArgs p) c orders) h := by
  obtain ⟨s, hs, -⟩ := drive_run h
  exact ⟨⟨s, hs⟩, fun p c u _ hu =>
    ⟨_, _, continuousDrive_run hu c, callSpec_callOrders (lastArgs p) c⟩⟩

end LibMip
