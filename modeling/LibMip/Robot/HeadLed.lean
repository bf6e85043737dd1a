import LibMip.Foundation.Duplex
import LibMip.Robot.CommandTable

/-!
# Head LED updates

`set_head_LED(idx, value)` completes its order with the cached values of the other three LEDs,
and a notification overwrites the cache with what the robot held when it answered. A reply that
was in flight while the client set an LED therefore takes that LED's value out of the cache, and
the next call for another LED sends the old value back to the robot.

The run is an interleaving of client calls, robot steps and deliveries on two ordered links.
`headLed_settles_iff` says for which runs no update is lost.
-/

namespace LibMip

open CNum Runs Duplex

/-- The client calls; a single-LED call names one of the four LEDs. -/
inductive HeadCall where
  | all (l1 l2 l3 l4 : UInt32)
  | one (idx value : UInt32) (valid : 1 ≤ idx ∧ idx ≤ 4)
  | request

def headSystem : System HeadCall Mip Robot Order Notification where
  call m
    | .all l1 l2 l3 l4 => some (m.setHeadLED l1 l2 l3 l4)
    | .one idx value _ => some (m.setHeadLEDIdx idx value)
    | .request => some m.requestHeadLED
  serve r o := ((r.serve o).1, (r.serve o).2.map Answer.notification)
  receive m n := some (m.storeResults n.cmd n.values).1

abbrev HeadState := Duplex.State Mip Robot Order Notification

/-- The library's default on both sides; the robot's other attributes are arbitrary. -/
def headInit (r : Robot) : HeadState :=
  ⟨Mip.init, [], { r with headLed := ⟨1, 1, 1, 1⟩ }, []⟩

def headMachine (r : Robot) : Machine HeadState (Act HeadCall) := headSystem.machine (headInit r)

/-- The stored bytes as LED values. -/
def HeadBytes.value (b : HeadBytes) : HeadLed := ⟨b.l1.toNat, b.l2.toNat, b.l3.toNat, b.l4.toNat⟩

namespace HeadLed

/-- Give one LED a value. -/
def set (l : HeadLed) (idx : UInt32) (value : Int) : HeadLed :=
  if idx = 1 then { l with l1 := value }
  else if idx = 2 then { l with l2 := value }
  else if idx = 3 then { l with l3 := value }
  else if idx = 4 then { l with l4 := value }
  else l

/-- The two agree on the LEDs other than `idx`. -/
def AgreeOff (idx : UInt32) (l k : HeadLed) : Prop :=
  (idx ≠ 1 → l.l1 = k.l1) ∧ (idx ≠ 2 → l.l2 = k.l2) ∧
    (idx ≠ 3 → l.l3 = k.l3) ∧ (idx ≠ 4 → l.l4 = k.l4)

/-- Each LED has one of the four documented values. -/
def Valid (l : HeadLed) : Prop :=
  (0 ≤ l.l1 ∧ l.l1 ≤ 3) ∧ (0 ≤ l.l2 ∧ l.l2 ≤ 3) ∧ (0 ≤ l.l3 ∧ l.l3 ≤ 3) ∧ 0 ≤ l.l4 ∧ l.l4 ≤ 3

end HeadLed

/-- `min(v, 3)`. -/
def saturated (v : UInt32) : Int := min v.toNat 3

/-- The LEDs a call asks for when those it does not name are as in `l`. -/
def HeadCall.leds (l : HeadLed) : HeadCall → Option HeadLed
  | .all l1 l2 l3 l4 => some ⟨saturated l1, saturated l2, saturated l3, saturated l4⟩
  | .one idx value _ => some (l.set idx (saturated value))
  | .request => none

/-- What the client last asked for after one more event. -/
def want (w : HeadLed) : Act HeadCall → HeadLed
  | .call c => (c.leds w).getD w
  | .serve | .receive => w

/-- The value last given for each LED, `1` if there was none. -/
def wanted (h : List (Act HeadCall)) : HeadLed := h.foldl want ⟨1, 1, 1, 1⟩

/-- Whenever the run so far, or the run so far followed by deliveries alone, leaves nothing in
flight, the robot shows what was last asked for. -/
def NoLostUpdate (r : Robot) (h : List (Act HeadCall)) : Prop :=
  ∀ p d s, p <+: h → (∀ a ∈ d, a.IsDelivery) → (headMachine r).run (p ++ d) = some s →
    s.Quiescent → s.server.headLed.value = wanted p

/-- A single-LED call finds in the cache the values last given for the other three LEDs. -/
def CacheCurrent (h : List (Act HeadCall)) (s : HeadState) : Act HeadCall → Prop
  | .call (.one idx _ _) => HeadLed.AgreeOff idx s.client.headLedCached (wanted h)
  | _ => True

/-! ## One call -/

theorem intOfUnsigned_clamp (v : UInt32) : intOfUnsigned (clamp v 0 3) = saturated v := by
  have hv : (clamp v 0 3).toNat = min v.toNat 3 := toNat_clamp v 3
  rw [intOfUnsigned_of_lt (by omega), hv]
  simp [saturated]

theorem saturated_mem (v : UInt32) : 0 ≤ saturated v ∧ saturated v ≤ 3 := by
  unfold saturated
  omega

theorem headLed_valid_saturated (l1 l2 l3 l4 : UInt32) :
    HeadLed.Valid ⟨saturated l1, saturated l2, saturated l3, saturated l4⟩ :=
  ⟨saturated_mem l1, saturated_mem l2, saturated_mem l3, saturated_mem l4⟩

/-- A value that is one of the four survives its way through `unsigned int`. -/
theorem saturated_unsignedOfInt {x : Int} (h : 0 ≤ x ∧ x ≤ 3) :
    saturated (unsignedOfInt x) = x := by
  have := toNat_unsignedOfInt x
  unfold saturated
  omega

theorem setHeadLED_eq (m : Mip) (l1 l2 l3 l4 : UInt32) :
    m.setHeadLED l1 l2 l3 l4 =
      ({ m with headLedCached := ⟨saturated l1, saturated l2, saturated l3, saturated l4⟩ },
        [sendOrder4 cmdSetHeadLed (saturated l1) (saturated l2) (saturated l3)
          (saturated l4)]) := by
  simp only [Mip.setHeadLED, intOfUnsigned_clamp]

/-- The order that shows the given values. -/
def headOrder (l : HeadLed) : Order := sendOrder4 cmdSetHeadLed l.l1 l.l2 l.l3 l.l4

theorem idx_cases {idx : UInt32} (valid : 1 ≤ idx ∧ idx ≤ 4) :
    idx = 1 ∨ idx = 2 ∨ idx = 3 ∨ idx = 4 := by
  obtain ⟨lo, hi⟩ := valid
  rw [UInt32.le_iff_toNat_le] at lo hi
  simp only [← UInt32.toNat_inj]
  have h1 : (1 : UInt32).toNat = 1 := rfl
  have h4 : (4 : UInt32).toNat = 4 := rfl
  have h2 : (2 : UInt32).toNat = 2 := rfl
  have h3 : (3 : UInt32).toNat = 3 := rfl
  omega

/-- A single-LED call sends the cache with that LED set, and caches the same. -/
theorem setHeadLEDIdx_eq {m : Mip} (cached : m.headLedCached.Valid) {idx : UInt32}
    (valid : 1 ≤ idx ∧ idx ≤ 4) (value : UInt32) :
    m.setHeadLEDIdx idx value =
      ({ m with headLedCached := m.headLedCached.set idx (saturated value) },
        [headOrder (m.headLedCached.set idx (saturated value))]) := by
  obtain ⟨h1, h2, h3, h4⟩ := cached
  rcases idx_cases valid with rfl | rfl | rfl | rfl <;>
    simp [Mip.setHeadLEDIdx, setHeadLED_eq, HeadLed.set, headOrder, saturated_unsignedOfInt,
      h1, h2, h3, h4]

theorem headLed_valid_set {l : HeadLed} (valid : l.Valid) (idx v : UInt32) :
    (l.set idx (saturated v)).Valid := by
  have hv := saturated_mem v
  obtain ⟨h1, h2, h3, h4⟩ := valid
  unfold HeadLed.set
  split_ifs <;> exact ⟨by assumption, by assumption, by assumption, by assumption⟩

theorem HeadCall.leds_valid {l k : HeadLed} (valid : l.Valid) {c : HeadCall}
    (h : c.leds l = some k) : k.Valid := by
  cases c with
  | all l1 l2 l3 l4 =>
    obtain rfl := Option.some.inj h
    exact headLed_valid_saturated l1 l2 l3 l4
  | one idx value _ =>
    obtain rfl := Option.some.inj h
    exact headLed_valid_set valid idx value
  | request => cases h

/-- Completing from two values of the LEDs asks for the same exactly when they agree on the
LEDs the call does not name. -/
theorem HeadLed.set_eq_iff {l k : HeadLed} {idx : UInt32} (valid : 1 ≤ idx ∧ idx ≤ 4) (v : Int) :
    l.set idx v = k.set idx v ↔ HeadLed.AgreeOff idx l k := by
  rcases idx_cases valid with rfl | rfl | rfl | rfl <;> simp [HeadLed.set, HeadLed.AgreeOff]

/-- What a call does to the object, and its order. -/
def HeadCall.effect (m : Mip) (c : HeadCall) : Mip × List Order :=
  match c.leds m.headLedCached with
  | some l => ({ m with headLedCached := l }, [headOrder l])
  | none => (m, [sendOrder0 cmdHeadLed])

theorem HeadCall.effect_some {m : Mip} {c : HeadCall} {l : HeadLed}
    (h : c.leds m.headLedCached = some l) :
    c.effect m = ({ m with headLedCached := l }, [headOrder l]) := by
  simp only [HeadCall.effect, h]

theorem HeadCall.effect_none {m : Mip} {c : HeadCall} (h : c.leds m.headLedCached = none) :
    c.effect m = (m, [sendOrder0 cmdHeadLed]) := by
  simp only [HeadCall.effect, h]

theorem headSystem_call {m : Mip} (cached : m.headLedCached.Valid) (c : HeadCall) :
    headSystem.call m c = some (c.effect m) := by
  cases c with
  | all l1 l2 l3 l4 => exact congrArg some (setHeadLED_eq m l1 l2 l3 l4)
  | one idx value valid => exact congrArg some (setHeadLEDIdx_eq cached valid value)
  | request => rfl

/-! ## What is in flight -/

def headNotification (l : HeadLed) : Notification := ⟨cmdHeadLed, [l.l1, l.l2, l.l3, l.l4]⟩

theorem headSystem_serve_order (r : Robot) (l : HeadLed) :
    headSystem.serve r (headOrder l) =
      ({ r with headLed := ⟨uint8 l.l1, uint8 l.l2, uint8 l.l3, uint8 l.l4⟩ }, []) := rfl

theorem headSystem_serve_request (r : Robot) :
    headSystem.serve r (sendOrder0 cmdHeadLed) = (r, [headNotification r.headLed.value]) := rfl

theorem headSystem_receive (m : Mip) (l : HeadLed) :
    headSystem.receive m (headNotification l) =
      some { m with headLed := l, headLedCached := l } := rfl

theorem value_uint8 {l : HeadLed} (valid : l.Valid) :
    HeadBytes.value ⟨uint8 l.l1, uint8 l.l2, uint8 l.l3, uint8 l.l4⟩ = l := by
  obtain ⟨h1, h2, h3, h4⟩ := valid
  have byte {x : Int} (h : 0 ≤ x ∧ x ≤ 3) : ((uint8 x).toNat : Int) = x :=
    uint8_of_mem h.1 (by omega)
  simp only [HeadBytes.value, byte h1, byte h2, byte h3, byte h4]

/-- Only the four documented values travel, and only head LED orders and notifications. -/
structure Tame (s : HeadState) : Prop where
  cached : s.client.headLedCached.Valid
  orders : ∀ o ∈ s.orders, (∃ l : HeadLed, l.Valid ∧ o = headOrder l) ∨
    o = sendOrder0 cmdHeadLed
  shown : s.server.headLed.value.Valid
  replies : ∀ n ∈ s.replies, ∃ l : HeadLed, l.Valid ∧ n = headNotification l

theorem Tame.init (r : Robot) : Tame (headInit r) := by
  have one : HeadLed.Valid ⟨1, 1, 1, 1⟩ := by simp [HeadLed.Valid]
  exact ⟨one, by simp [headInit], one, by simp [headInit]⟩

theorem Tame.step {s t : HeadState} {a : Act HeadCall} (tame : Tame s)
    (h : headSystem.step s a = some t) : Tame t := by
  cases a with
  | call c =>
    obtain ⟨m, os, hc, rfl⟩ := headSystem.step_call h
    rw [headSystem_call tame.cached] at hc
    cases hl : c.leds s.client.headLedCached with
    | none =>
      rw [HeadCall.effect_none hl] at hc
      obtain ⟨rfl, rfl⟩ := Prod.mk.inj (Option.some.inj hc)
      refine ⟨tame.cached, fun o ho => ?_, tame.shown, tame.replies⟩
      rcases List.mem_append.mp ho with ho | ho
      · exact tame.orders o ho
      · exact .inr (List.mem_singleton.mp ho)
    | some l =>
      rw [HeadCall.effect_some hl] at hc
      obtain ⟨rfl, rfl⟩ := Prod.mk.inj (Option.some.inj hc)
      have valid := HeadCall.leds_valid tame.cached hl
      refine ⟨valid, fun o ho => ?_, tame.shown, tame.replies⟩
      rcases List.mem_append.mp ho with ho | ho
      · exact tame.orders o ho
      · exact .inl ⟨l, valid, List.mem_singleton.mp ho⟩
  | serve =>
    obtain ⟨o, os, ho, rfl⟩ := headSystem.step_serve h
    have rest : ∀ p ∈ os, (∃ l : HeadLed, l.Valid ∧ p = headOrder l) ∨
        p = sendOrder0 cmdHeadLed :=
      fun p hp => tame.orders p (ho ▸ List.mem_cons_of_mem o hp)
    rcases tame.orders o (ho ▸ List.mem_cons_self) with ⟨l, valid, rfl⟩ | rfl
    · rw [headSystem_serve_order, List.append_nil]
      exact ⟨tame.cached, rest, (value_uint8 valid).symm ▸ valid, tame.replies⟩
    · rw [headSystem_serve_request]
      refine ⟨tame.cached, rest, tame.shown, fun n hn => ?_⟩
      rcases List.mem_append.mp hn with hn | hn
      · exact tame.replies n hn
      · exact ⟨_, tame.shown, List.mem_singleton.mp hn⟩
  | receive =>
    obtain ⟨n, ns, m, hn, hm, rfl⟩ := headSystem.step_receive h
    obtain ⟨l, valid, rfl⟩ := tame.replies n (hn ▸ List.mem_cons_self)
    obtain rfl := Option.some.inj ((headSystem_receive _ l).symm.trans hm)
    exact ⟨valid, tame.orders, tame.shown,
      fun k hk => tame.replies k (hn ▸ List.mem_cons_of_mem _ hk)⟩

theorem tame_run {r : Robot} {h : List (Act HeadCall)} {s : HeadState}
    (hr : (headMachine r).run h = some s) : Tame s :=
  (headMachine r).run_invariant (I := fun _ s => Tame s) (Tame.init r)
    (fun _ _ _ _ _ tame hs => tame.step hs) hr

/-! ## What the robot settles to -/

/-- The LEDs of the robot once it has served everything in flight. -/
def settledLeds (s : HeadState) : HeadLed := (headSystem.settledServer s).headLed.value

theorem headSystem_step_call {s : HeadState} (tame : Tame s) (c : HeadCall) :
    headSystem.step s (.call c) =
      some { s with client := (c.effect s.client).1,
                    orders := s.orders ++ (c.effect s.client).2 } := by
  simp [System.step, headSystem_call tame.cached]

theorem settledLeds_call {s t : HeadState} (tame : Tame s) {c : HeadCall}
    (h : headSystem.step s (.call c) = some t) :
    settledLeds t = (c.leds s.client.headLedCached).getD (settledLeds s) := by
  unfold settledLeds
  have hc := headSystem_call tame.cached c
  cases hl : c.leds s.client.headLedCached with
  | none =>
    rw [HeadCall.effect_none hl] at hc
    rw [headSystem.settledServer_call hc h]
    rfl
  | some l =>
    rw [HeadCall.effect_some hl] at hc
    rw [headSystem.settledServer_call hc h]
    exact value_uint8 (HeadCall.leds_valid tame.cached hl)

theorem settledLeds_delivery {s t : HeadState} {a : Act HeadCall} (ha : a.IsDelivery)
    (h : headSystem.step s a = some t) : settledLeds t = settledLeds s := by
  unfold settledLeds
  rw [(headSystem.settled_step ha h).1]

@[simp] theorem wanted_concat (h : List (Act HeadCall)) (a : Act HeadCall) :
    wanted (h ++ [a]) = want (wanted h) a := by
  simp [wanted]

/-- A step that finds the cache current keeps the robot settling to what is wanted. -/
theorem settledLeds_step {h : List (Act HeadCall)} {s t : HeadState} {a : Act HeadCall}
    (tame : Tame s) (shows : settledLeds s = wanted h) (current : CacheCurrent h s a)
    (hstep : headSystem.step s a = some t) : settledLeds t = wanted (h ++ [a]) := by
  rw [wanted_concat]
  cases a with
  | serve => exact (settledLeds_delivery (a := .serve) trivial hstep).trans shows
  | receive => exact (settledLeds_delivery (a := .receive) trivial hstep).trans shows
  | call c =>
    rw [settledLeds_call tame hstep]
    cases c with
    | all l1 l2 l3 l4 => rfl
    | one idx value valid =>
      exact (HeadLed.set_eq_iff valid _).mpr current
    | request => exact shows

theorem exists_headDrain (r : Robot) (s : HeadState) :
    ∃ d t, (∀ a ∈ d, a.IsDelivery) ∧ (headMachine r).runFrom s d = some t ∧ t.Quiescent := by
  have receives (m : Mip) (ns : List Notification) :
      ∃ m', headSystem.receiveAll m ns = some m' := by
    induction ns generalizing m with
    | nil => exact ⟨m, rfl⟩
    | cons n ns ih => exact ih _
  obtain ⟨m, hm⟩ := receives s.client (headSystem.pending s)
  obtain ⟨d, hd, hr⟩ := headSystem.exists_drain (headInit r) hm
  exact ⟨d, _, hd, hr, rfl, rfl⟩

/-- The robot shows what it settles to once everything in flight has been delivered. -/
theorem settledLeds_drain {r : Robot} {s t : HeadState} {d : List (Act HeadCall)}
    (hd : ∀ a ∈ d, a.IsDelivery) (hr : (headMachine r).runFrom s d = some t)
    (quiet : t.Quiescent) : t.server.headLed.value = settledLeds s := by
  unfold settledLeds
  rw [← (headSystem.settled_runFrom _ hd hr).1, (headSystem.settled_of_quiescent quiet).1]

/-- No update of the head LEDs is lost in a run exactly when each of its single-LED calls finds
in the cache the values last given for the other LEDs. -/
theorem headLed_settles_iff (r : Robot) (h : List (Act HeadCall)) :
    NoLostUpdate r h ↔ (headMachine r).EveryStep CacheCurrent h := by
  constructor
  · intro noLost p a s hp hs
    cases a with
    | serve => trivial
    | receive => trivial
    | call c =>
      cases c with
      | all => trivial
      | request => trivial
      | one idx value valid =>
        have tame := tame_run hs
        have hstep := headSystem_step_call tame (.one idx value valid)
        obtain ⟨d, t, hd, ht, quiet⟩ := exists_headDrain r _
        have hrun : (headMachine r).run (p ++ [.call (.one idx value valid)] ++ d) = some t := by
          rw [Machine.run_append, Machine.run_concat, hs, Option.bind_some]
          exact (congrArg (Option.bind · _) hstep).trans ht
        have shown := noLost _ d t hp hd hrun quiet
        rw [settledLeds_drain hd ht quiet, settledLeds_call tame hstep, wanted_concat] at shown
        exact (HeadLed.set_eq_iff valid _).mp shown
  · intro current p d s hp hd hr quiet
    obtain ⟨u, hu, hd'⟩ := Option.bind_eq_some_iff.mp (Machine.run_append _ p d ▸ hr)
    have shows : settledLeds u = wanted p :=
      Machine.run_invariant_of_everyStep (I := fun h s => settledLeds s = wanted h) rfl
        (fun _ _ _ _ hr shows current hstep => settledLeds_step (tame_run hr) shows current hstep)
        (current.of_prefix hp) hu
    rw [settledLeds_drain hd hd' quiet, shows]

/-- A request is answered, LED 1 is set while the answer is on its way, then LED 2 is set. -/
def overtakenUpdate : List (Act HeadCall) :=
  [.call .request, .serve, .call (.one 1 2 (by decide)), .receive,
    .call (.one 2 3 (by decide)), .serve, .serve]

/-- The value of LED 1 is lost: the robot shows 1 although 2 was asked for. -/
theorem overtaken_update_lost :
    ∃ s, (headMachine ⟨1, 7, ⟨0, 255, 0, 0, 0⟩, ⟨1, 1, 1, 1⟩, 0⟩).run overtakenUpdate = some s ∧
      s.Quiescent ∧ s.server.headLed.value = ⟨1, 3, 1, 1⟩ ∧
      wanted overtakenUpdate = ⟨2, 3, 1, 1⟩ :=
  ⟨_, rfl, ⟨rfl, rfl⟩, by decide, by decide⟩

end LibMip
