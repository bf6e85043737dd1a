import LibMip.Drive.Saturation

/-!
# Driving and stopping

`Mip::stop` brings the robot to rest but leaves the remembered request as it is, so the next
`continuous_drive` compares itself with a motion that is over. A run of the two methods sends a
reverse order to a robot at rest exactly when a call after a stop asks for less than the last
call before it.
-/

namespace LibMip

open CNum Runs

/-- A request within the range of the protocol, which clamping leaves alone. -/
abbrev InRange (r : Request) : Prop :=
  (-64 ≤ r.1.val ∧ r.1.val ≤ 64) ∧ -64 ≤ r.2.val ∧ r.2.val ≤ 63

abbrev RangedRequest := { r : Request // InRange r }

inductive Move where
  | drive (r : RangedRequest)
  | stop
  deriving DecidableEq

/-- The request of a move, when it is one. -/
def Move.request : Move → Option Request
  | .drive r => some r
  | .stop => none

def moveMachine : Machine Session Move where
  init := ⟨Mip.init, []⟩
  step s
    | .drive r => s.perform fun m => m.continuousDrive r.1.1 r.1.2 true
    | .stop => s.perform fun m => .ok m.stop

/-- The motion the robot was last commanded, read off the orders sent: that of the last order
if it is a drive order, rest if it is a stop or there is none. -/
def motionInForce (sent : List Order) : Int × Int := (sent.getLast?.bind motionOf).getD (0, 0)

/-- If the call sends an order before its own, the motion in force is faster than the one asked
for. -/
def Justified (s : Session) : Move → Prop
  | .drive r => ∃ m orders, s.mip.continuousDrive r.1.1 r.1.2 true = .ok (m, orders) ∧
      (1 < orders.length →
        r.1.1.val.natAbs < (motionInForce s.sent).1.natAbs ∨
          r.1.2.val.natAbs < (motionInForce s.sent).2.natAbs)
  | .stop => True

/-- The last request of a history, stops passed over. -/
def lastRequest (h : List Move) : Request := (h.filterMap Move.request).getLastD rest

/-- A call that comes right after a stop asks for at least the magnitudes of the call before. -/
def NotSlowerAfterStop (h : List Move) : Move → Prop
  | .drive r => h.getLast? = some .stop →
      ¬ Slower (lastRequest h).1 r.1.1 ∧ ¬ Slower (lastRequest h).2 r.1.2
  | .stop => True

/-- The request the robot is still following. -/
def followed (h : List Move) : Request := (h.getLast?.bind Move.request).getD rest

@[simp] theorem lastRequest_drive (h : List Move) (r : RangedRequest) :
    lastRequest (h ++ [.drive r]) = r := by
  simp [lastRequest, Move.request]

@[simp] theorem lastRequest_stop (h : List Move) :
    lastRequest (h ++ [.stop]) = lastRequest h := by
  simp [lastRequest, Move.request]

/-- Nothing but a stop parts the motion in force from the last request. -/
theorem followed_eq (h : List Move) :
    followed h = if h.getLast? = some .stop then rest else lastRequest h := by
  induction h using List.reverseRecOn with
  | nil => rfl
  | append_singleton h a _ => cases a <;> simp [followed, Move.request]

theorem motionInForce_concat (sent orders : List Order) (o : Order) :
    motionInForce (sent ++ (orders ++ [o])) = (motionOf o).getD (0, 0) := by
  simp [motionInForce, ← List.append_assoc]

/-- What an object and its orders remember of a history. -/
structure Follows (h : List Move) (s : Session) : Prop where
  lastV : s.mip.lastVTicks = (lastRequest h).1
  lastW : s.mip.lastWTicks = (lastRequest h).2
  inForce : motionInForce s.sent = ((followed h).1.val, (followed h).2.val)

theorem moveMachine_drive {h : List Move} {s : Session} (hs : Follows h s) (r : RangedRequest) :
    moveMachine.step s (.drive r) =
      some ⟨{ s.mip with lastVTicks := r.1.1, lastWTicks := r.1.2 },
        s.sent ++ callOrders (lastRequest h) (forcedCall r)⟩ := by
  have call := continuousDrive_after hs.lastV hs.lastW (forcedCall r)
  simp only [forcedCall] at call
  simp only [moveMachine, Session.perform, call]
  rfl

theorem moveMachine_stop (s : Session) :
    moveMachine.step s .stop = some ⟨s.mip, s.sent ++ s.mip.stop.2⟩ := rfl

theorem Follows.step {h : List Move} {s t : Session} {a : Move} (hs : Follows h s)
    (hstep : moveMachine.step s a = some t) : Follows (h ++ [a]) t := by
  cases a with
  | drive r =>
    obtain rfl := Option.some.inj ((moveMachine_drive hs r).symm.trans hstep)
    obtain ⟨⟨loV, hiV⟩, loW, hiW⟩ := r.2
    refine ⟨by simp, by simp, ?_⟩
    rw [callOrders, motionInForce_concat, motionOf_driveOrder]
    simp [followed, Move.request, forcedCall, clamp_of_mem loV hiV, clamp_of_mem loW hiW]
  | stop =>
    obtain rfl := Option.some.inj ((moveMachine_stop s).symm.trans hstep)
    refine ⟨by simpa using hs.lastV, by simpa using hs.lastW, ?_⟩
    simp [motionInForce, followed, Mip.stop, motionOf, Move.request, sendOrder0, rest]

theorem follows_run {h : List Move} {s : Session} (hr : moveMachine.run h = some s) :
    Follows h s :=
  moveMachine.run_invariant ⟨rfl, rfl, rfl⟩ (fun _ _ _ _ _ hs hstep => hs.step hstep) hr

theorem moves_run (h : List Move) : ∃ s, moveMachine.run h = some s := by
  induction h using List.reverseRecOn with
  | nil => exact ⟨_, rfl⟩
  | append_singleton h a ih =>
    obtain ⟨s, hs⟩ := ih
    rw [Machine.run_concat, hs, Option.bind_some]
    cases a with
    | drive r => exact ⟨_, moveMachine_drive (follows_run hs) r⟩
    | stop => exact ⟨_, moveMachine_stop s⟩

/-- A forced call sends an order before its own exactly when a component has slowed down. -/
theorem one_lt_forced {last now : Request} :
    1 < (callOrders last (forcedCall now)).length ↔
      Slower last.1 now.1 ∨ Slower last.2 now.2 := by
  by_cases slowerV : Slower last.1 now.1
  · simp [forced_slowerV slowerV, slowerV]
  · by_cases slowerW : Slower last.2 now.2
    · simp [forced_slowerW slowerV slowerW, slowerW]
    · simp [forced_straight slowerV slowerW, slowerV, slowerW]

/-- One step: the reverse order is justified unless a stop came in between. -/
theorem justified_iff {h : List Move} {s : Session} (hs : Follows h s) (a : Move) :
    Justified s a ↔ NotSlowerAfterStop h a := by
  cases a with
  | stop => exact Iff.rfl
  | drive r =>
    have call : s.mip.continuousDrive r.1.1 r.1.2 true = .ok (_, _) :=
      continuousDrive_after hs.lastV hs.lastW (forcedCall r)
    have slowed : 1 < (callOrders (lastRequest h) (forcedCall r)).length ↔
        Slower (lastRequest h).1 r.1.1 ∨ Slower (lastRequest h).2 r.1.2 := one_lt_forced
    have force := hs.inForce
    rw [followed_eq] at force
    by_cases stopped : h.getLast? = some .stop
    · rw [if_pos stopped] at force
      constructor
      · rintro ⟨m, orders, hm, reverse⟩ _
        obtain ⟨-, rfl⟩ := Prod.mk.inj (Except.ok.inj (call.symm.trans hm))
        rw [force] at reverse
        apply not_or.mp
        intro slower
        rcases reverse (slowed.mpr slower) with faster | faster
        · exact Nat.not_lt_zero _ faster
        · exact Nat.not_lt_zero _ faster
      · intro notSlower
        refine ⟨_, _, call, fun two => ?_⟩
        exact absurd (slowed.mp two) (not_or.mpr (notSlower stopped))
    · rw [if_neg stopped] at force
      refine iff_of_true ⟨_, _, call, fun two => ?_⟩ fun h => absurd h stopped
      rw [force]
      exact slowed.mp two

/-- In a run of drives and stops no call faults, and each reverse order goes to a robot that
was commanded to move faster exactly when no call right after a stop asks for less than the
last call before it. -/
theorem reversal_justified_iff (h : List Move) :
    (∃ s, moveMachine.run h = some s) ∧
      (moveMachine.EveryStep (fun _ s a => Justified s a) h ↔
        moveMachine.EveryStep (fun p _ a => NotSlowerAfterStop p a) h) :=
  ⟨moves_run h, Machine.EveryStep.congr fun _ a _ _ hs => justified_iff (follows_run hs) a⟩

/-- The request for forward ticks alone. -/
def ahead (v : Int) (hv : -64 ≤ v ∧ v ≤ 64) : RangedRequest :=
  ⟨(⟨v, by omega⟩, rest.2), hv, by simp [rest]⟩

/-- Driving on more slowly after a stop sends a backward order to a robot at rest. -/
theorem reversal_after_stop :
    ¬ moveMachine.EveryStep (fun _ s a => Justified s a)
      [.drive (ahead 30 (by decide)), .stop, .drive (ahead 10 (by decide))] := by
  intro all
  obtain ⟨s, hs⟩ := moves_run [.drive (ahead 30 (by decide)), .stop]
  have last : Justified s (.drive (ahead 10 (by decide))) :=
    all [.drive (ahead 30 (by decide)), .stop] _ s (List.prefix_refl _) hs
  have notSlower := (justified_iff (follows_run hs) _).mp last rfl
  exact notSlower.1 (by decide)

end LibMip
