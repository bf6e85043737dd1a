import LibMip.Link.Refinement

/-!
# What reaches the robot

In every run the orders issued are those the robot has served, in their order and each once,
followed by those in flight; the answers to those served are those received followed by those in
the air. From a state of a run the orders in flight can all be brought to the robot, without a
further call, exactly when the sender of the channel is awake or has nothing queued. In the other
states, which a failed write leads to, no later order has any effect on the robot until a read
fails too: that wakes the sender, as long as the connection has not hung up.
-/

namespace LibMip

open Channel Runs

/-! ## Exactly once, in order -/

namespace Link

variable (s : Link)

/-- The PDUs of the orders in flight: in the air, queued on the channel, still to be sent. -/
def inFlight : List (List UInt8) :=
  s.down ++ s.attrib.requests.map Command.pdu ++ s.issuing.map Order.pdu

/-- The orders one action issues. -/
def issues : LinkAct → List Order
  | .call c => ((s.mip.perform c).toOption.map Prod.snd).getD []
  | _ => []

/-- The PDUs one action receives. -/
def receives : LinkAct → List (List UInt8)
  | .receive => s.up.head?.toList
  | _ => []

/-- The orders issued along a run. -/
def issued (s : Link) : List LinkAct → List Order
  | [] => []
  | a :: h => s.issues a ++ ((s.step a).map fun t => issued t h).getD []

/-- The PDUs received along a run. -/
def received (s : Link) : List LinkAct → List (List UInt8)
  | [] => []
  | a :: h => s.receives a ++ ((s.step a).map fun t => received t h).getD []

end Link

/-- A PDU spells an answer out. -/
def SpellsOut (bytes : List UInt8) (a : Answer) : Prop := ∃ sp : Spelling, bytes = sp.pdu a

namespace Related

variable {s s' : Link} {t : Duplex.State Mip Robot Order Answer} {h : List LinkAct} {r : Robot}

theorem spells (rel : Related s t) : List.Forall₂ SpellsOut s.up t.replies :=
  rel.replies.imp fun _ _ spelled => spelled.2

/-- Both levels issue the same orders. -/
theorem issued_eq (rel : Related s t) (hr : (Link.machine r).runFrom s h = some s') :
    mipSystem.issued t (h.flatMap LinkAct.image) = s.issued h := by
  induction h generalizing s t with
  | nil => rfl
  | cons a h ih =>
    obtain ⟨u, hu, hr⟩ := Option.bind_eq_some_iff.mp hr
    obtain ⟨v, hv, rel'⟩ := (link_simulates r).matched rel hu
    have hu : s.step a = some u := hu
    have rest := ih rel' hr
    cases a with
    | call c =>
      have hv : mipSystem.step t (.call c) = some v := by
        simpa [LinkAct.image, Duplex.System.machine] using hv
      obtain ⟨idle, -⟩ := step_call hu
      have same : (mipSystem.call t.client c).map Prod.snd =
          (s.mip.perform c).toOption.map Prod.snd := by
        rw [rel.client, idle, List.length_nil, Mip.counting_zero, mipSystem, Option.map_map]
        rfl
      simpa [LinkAct.image, Duplex.System.issued, Duplex.System.issues, Link.issued, Link.issues,
        hv, hu, same] using rest
    | serve sp =>
      have hv : mipSystem.step t .serve = some v := by
        simpa [LinkAct.image, Duplex.System.machine] using hv
      simpa [LinkAct.image, Duplex.System.issued, Duplex.System.issues, Link.issued, Link.issues,
        hv, hu] using rest
    | receive =>
      have hv : mipSystem.step t .receive = some v := by
        simpa [LinkAct.image, Duplex.System.machine] using hv
      simpa [LinkAct.image, Duplex.System.issued, Duplex.System.issues, Link.issued, Link.issues,
        hv, hu] using rest
    | sendOrder | canWrite | readFails | hangUp =>
      obtain rfl : t = v := by simpa [LinkAct.image] using hv
      simpa [LinkAct.image, Link.issued, Link.issues, hu] using rest

/-- What is received spells out what is received without the channel. -/
theorem received_spells (rel : Related s t) (hr : (Link.machine r).runFrom s h = some s') :
    List.Forall₂ SpellsOut (s.received h) (mipSystem.received t (h.flatMap LinkAct.image)) := by
  induction h generalizing s t with
  | nil => exact .nil
  | cons a h ih =>
    obtain ⟨u, hu, hr⟩ := Option.bind_eq_some_iff.mp hr
    obtain ⟨v, hv, rel'⟩ := (link_simulates r).matched rel hu
    have hu : s.step a = some u := hu
    have rest := ih rel' hr
    cases a with
    | call c =>
      have hv : mipSystem.step t (.call c) = some v := by
        simpa [LinkAct.image, Duplex.System.machine] using hv
      simpa [LinkAct.image, Duplex.System.received, Duplex.System.receives, Link.received,
        Link.receives, hv, hu] using rest
    | serve sp =>
      have hv : mipSystem.step t .serve = some v := by
        simpa [LinkAct.image, Duplex.System.machine] using hv
      simpa [LinkAct.image, Duplex.System.received, Duplex.System.receives, Link.received,
        Link.receives, hv, hu] using rest
    | receive =>
      have hv : mipSystem.step t .receive = some v := by
        simpa [LinkAct.image, Duplex.System.machine] using hv
      have first : List.Forall₂ SpellsOut s.up.head?.toList t.replies.head?.toList := by
        have spells := rel.spells
        cases up : s.up with
        | nil =>
          rw [up, List.forall₂_nil_left_iff] at spells
          simp [spells]
        | cons bytes up =>
          rw [up] at spells
          obtain ⟨a, as, spelled, -, replies⟩ := List.forall₂_cons_left_iff.mp spells
          simp [replies, spelled]
      simpa [LinkAct.image, Duplex.System.received, Duplex.System.receives, Link.received,
        Link.receives, hv, hu] using List.rel_append first rest
    | sendOrder | canWrite | readFails | hangUp =>
      obtain rfl : t = v := by simpa [LinkAct.image] using hv
      simpa [LinkAct.image, Link.received, Link.receives, hu] using rest

end Related

section Runs

variable {r : Robot} {h : List LinkAct} {s : Link}

/-- A run with the channel is one without it, action by action. -/
theorem link_refines (hr : (Link.machine r).run h = some s) :
    ∃ t, (mipSystem.machine (mipInit r)).run (h.flatMap LinkAct.image) = some t ∧ Related s t :=
  (link_simulates r).run hr

/-- One order, still queued. -/
theorem link_refines_stop :
    ∃ s, (Link.machine .switchedOn).run [.call .stop, .sendOrder] = some s ∧
      ∃ t, (mipSystem.machine (mipInit .switchedOn)).run [.call .stop] = some t ∧ Related s t :=
  ⟨_, rfl, link_refines (h := [.call .stop, .sendOrder]) rfl⟩

/-- The orders issued are those served, in their order, and those in flight; the answers are those
received without the channel and those on their way. -/
theorem served_of_run (hr : (Link.machine r).run h = some s) :
    ∃ t served, Related s t ∧
      ((Link.init r).issued h).map Order.pdu = served.map Order.pdu ++ s.inFlight ∧
      s.robot = (r.serveAll served).1 ∧
      (r.serveAll served).2 =
        mipSystem.received (mipInit r) (h.flatMap LinkAct.image) ++ t.replies := by
  obtain ⟨t, ht, rel⟩ := (link_simulates r).run hr
  obtain ⟨served, issued, server, replies⟩ := Duplex.System.delivered_run ht
  refine ⟨t, served, rel, ?_, ?_, ?_⟩
  · rw [← (related_init r).issued_eq hr]
    have issued : mipSystem.issued (mipInit r) (h.flatMap LinkAct.image) = served ++ t.orders :=
      issued
    rw [issued, List.map_append, Link.inFlight, rel.orders]
  · rw [← rel.server, server]
    rfl
  · exact replies

/-- The robot serves the orders issued, in their order, each once, and nothing else; what the
object receives are its answers, in their order, each once. -/
theorem link_exactly_once (hr : (Link.machine r).run h = some s) :
    ∃ served, ((Link.init r).issued h).map Order.pdu = served.map Order.pdu ++ s.inFlight ∧
      s.robot = (r.serveAll served).1 ∧
      List.Forall₂ SpellsOut ((Link.init r).received h ++ s.up) (r.serveAll served).2 := by
  obtain ⟨t, served, rel, issued, robot, replies⟩ := served_of_run hr
  refine ⟨served, issued, robot, ?_⟩
  rw [replies]
  exact List.rel_append ((related_init r).received_spells hr) rel.spells

/-- The volume is set, asked for, served and received. -/
theorem link_exactly_once_volume :
    ∃ s, (Link.machine .switchedOn).run
        [.call (.setVolume 3), .sendOrder, .call .requestVolume, .canWrite false true, .sendOrder,
          .serve ⟨false, fun _ => (true, true)⟩, .canWrite false true,
          .serve ⟨true, fun _ => (false, true)⟩, .receive] = some s ∧ s.mip.volume = 3 ∧
      ∃ served, ((Link.init .switchedOn).issued
          [.call (.setVolume 3), .sendOrder, .call .requestVolume, .canWrite false true, .sendOrder,
            .serve ⟨false, fun _ => (true, true)⟩, .canWrite false true,
            .serve ⟨true, fun _ => (false, true)⟩, .receive]).map Order.pdu =
          served.map Order.pdu ++ s.inFlight ∧
        s.robot = (Robot.switchedOn.serveAll served).1 ∧
        List.Forall₂ SpellsOut ((Link.init .switchedOn).received
            [.call (.setVolume 3), .sendOrder, .call .requestVolume, .canWrite false true,
              .sendOrder, .serve ⟨false, fun _ => (true, true)⟩, .canWrite false true,
              .serve ⟨true, fun _ => (false, true)⟩, .receive] ++ s.up)
          (Robot.switchedOn.serveAll served).2 :=
  ⟨_, rfl, by decide, link_exactly_once rfl⟩

end Runs

/-! ## Awake and asleep -/

def LinkAct.IsCall : LinkAct → Prop
  | .call _ => True
  | _ => False

/-- Neither a call nor a failed read. -/
def LinkAct.IsDelivery (a : LinkAct) : Prop := ¬ a.IsCall ∧ a ≠ .readFails

namespace Link

/-- Commands are queued that the sender will not write. -/
def Asleep (s : Link) : Prop := s.attrib.writeWatch = false ∧ s.attrib.requests ≠ []

/-- The actions bring everything in flight to the robot, which has then served the orders
issued along the run before them. -/
def Flushes (r : Robot) (h d : List LinkAct) (s : Link) : Prop :=
  ∃ u, (machine r).runFrom s d = some u ∧ u.inFlight = [] ∧
    u.robot = (r.serveAll ((init r).issued h)).1

theorem issued_of_delivery (s : Link) {d : List LinkAct} (calls : ∀ a ∈ d, ¬ a.IsCall) :
    s.issued d = [] := by
  induction d generalizing s with
  | nil => rfl
  | cons a d ih =>
    have none : s.issues a = [] := by
      have other := calls a List.mem_cons_self
      cases a with
      | call c => exact (other trivial).elim
      | sendOrder | canWrite | serve | receive | readFails | hangUp => rfl
    rw [issued, none]
    cases s.step a with
    | none => rfl
    | some t => simpa using ih t fun b hb => calls b (List.mem_cons_of_mem a hb)

theorem issued_append {r : Robot} {s u : Link} {h : List LinkAct}
    (hr : (machine r).runFrom s h = some u) (k : List LinkAct) :
    s.issued (h ++ k) = s.issued h ++ u.issued k := by
  induction h generalizing s with
  | nil =>
    obtain rfl : s = u := by simpa using hr
    rfl
  | cons a h ih =>
    obtain ⟨t, ht, hr⟩ := Option.bind_eq_some_iff.mp hr
    have ht : s.step a = some t := ht
    simp [issued, ht, ih hr]

end Link

namespace Related

variable {s u : Link} {t : Duplex.State Mip Robot Order Answer} {a : LinkAct} {r : Robot}

/-- A sender that is asleep stays so unless a read fails, which it cannot once the channel does not
read, and the robot serves at most what is in the air. -/
theorem asleep_step (rel : Related s t) (asleep : s.Asleep)
    (reads : a ≠ .readFails ∨ s.attrib.reading = false) (hs : s.step a = some u) :
    u.Asleep ∧ (s.attrib.reading = false → u.attrib.reading = false) ∧
      ∃ served : List Order, s.down = served.map Order.pdu ++ u.down ∧
        u.robot = (s.robot.serveAll served).1 := by
  obtain ⟨off, queued⟩ := asleep
  cases a with
  | call c =>
    obtain ⟨-, mip, orders, -, rfl⟩ := step_call hs
    exact ⟨⟨off, queued⟩, id, [], rfl, rfl⟩
  | sendOrder =>
    cases queue : s.issuing with
    | nil => simp [Link.step, Link.sendOrder, queue] at hs
    | cons o os =>
      rw [rel.step_sendOrder queue, Option.some.injEq] at hs
      subst hs
      exact ⟨⟨by simpa [off] using queued, by simp⟩, id, [], rfl, rfl⟩
  | canWrite hup written => simp [rel.step_canWrite, off] at hs
  | serve sp =>
    cases air : s.down with
    | nil => simp [Link.step, air] at hs
    | cons bytes down =>
      obtain ⟨o, os, rfl, -, -, done⟩ := rel.step_serve sp air
      obtain rfl := Option.some.inj (done.symm.trans hs)
      exact ⟨⟨off, queued⟩, id, [o], rfl, rfl⟩
  | receive =>
    cases air : s.up with
    | nil => simp [Link.step, air] at hs
    | cons bytes up =>
      obtain ⟨a, as, -, -, done⟩ := rel.step_receive air
      rw [done] at hs
      split_ifs at hs
      obtain rfl := Option.some.inj hs
      exact ⟨⟨off, queued⟩, id, [], rfl, rfl⟩
  | readFails =>
    have closed : s.attrib.reading = false := reads.resolve_left (not_not.mpr rfl)
    simp [rel.step_readFails, closed] at hs
  | hangUp =>
    rw [rel.step_hangUp] at hs
    split_ifs at hs
    obtain rfl := Option.some.inj hs
    exact ⟨⟨off, queued⟩, fun _ => rfl, [], rfl, rfl⟩

theorem asleep_runFrom (rel : Related s t) (asleep : s.Asleep) {k : List LinkAct}
    (reads : (∀ a ∈ k, a ≠ .readFails) ∨ s.attrib.reading = false)
    (hr : (Link.machine r).runFrom s k = some u) :
    u.Asleep ∧ ∃ served : List Order, s.down = served.map Order.pdu ++ u.down ∧
      u.robot = (s.robot.serveAll served).1 := by
  induction k generalizing s t with
  | nil =>
    obtain rfl : s = u := by simpa using hr
    exact ⟨asleep, [], rfl, rfl⟩
  | cons a k ih =>
    obtain ⟨v, hv, hr⟩ := Option.bind_eq_some_iff.mp hr
    obtain ⟨asleep', closed, first, air, robot⟩ :=
      rel.asleep_step asleep (reads.imp_left fun all => all a List.mem_cons_self) hv
    obtain ⟨t', -, rel'⟩ := (link_simulates r).matched rel hv
    obtain ⟨asleep'', rest, air', robot'⟩ :=
      ih rel' asleep' (reads.imp (fun all b hb => all b (List.mem_cons_of_mem a hb)) closed) hr
    refine ⟨asleep'', first ++ rest, by rw [air, air', List.map_append, List.append_assoc], ?_⟩
    rw [robot', robot, Robot.serveAll, Robot.serveAll, Robot.serveAll, Duplex.serveAll_append]

theorem leads (delivery : a.IsDelivery) (step : s.step a = some u) :
    (Link.machine r).Leads LinkAct.IsDelivery s u := Machine.Leads.single delivery step

/-- The orders still to be sent can all be queued. -/
theorem exists_sendOrders (rel : Related s t) (awake : ¬ s.Asleep) :
    ∃ u, (Link.machine r).Leads LinkAct.IsDelivery s u ∧ Related u t ∧
      ¬ u.Asleep ∧ u.issuing = [] := by
  induction n : s.issuing.length generalizing s with
  | zero => exact ⟨s, .refl s, rel, awake, List.length_eq_zero_iff.mp n⟩
  | succ k ih =>
    obtain ⟨o, os, next⟩ := List.exists_cons_of_length_eq_add_one n
    have step := rel.step_sendOrder next
    have awake' : ∀ v, s.step .sendOrder = some v → ¬ v.Asleep := by
      rintro v hv ⟨off, -⟩
      obtain rfl := Option.some.inj (step.symm.trans hv)
      have both : s.attrib.writeWatch = false ∧ s.attrib.requests ≠ [] := by simpa using off
      exact awake both
    obtain ⟨u, rest, done⟩ :=
      ih (rel.sendOrder step) (awake' _ step) (by simpa [next] using n)
    exact ⟨u, (leads (a := .sendOrder) ⟨id, by simp⟩ step).trans rest, done⟩

/-- What is queued can all be written. -/
theorem exists_writes (rel : Related s t) (awake : ¬ s.Asleep) (sent : s.issuing = []) :
    ∃ u, (Link.machine r).Leads LinkAct.IsDelivery s u ∧ Related u t ∧
      u.attrib.requests = [] ∧ u.issuing = [] := by
  induction n : s.attrib.requests.length generalizing s with
  | zero => exact ⟨s, .refl s, rel, List.length_eq_zero_iff.mp n, sent⟩
  | succ k ih =>
    obtain ⟨c, q, queue⟩ := List.exists_cons_of_length_eq_add_one n
    have on : s.attrib.writeWatch = true := by
      by_contra off
      exact awake ⟨by simpa using off, by simp [queue]⟩
    have step := rel.step_canWrite false true
    simp only [on, queue, and_self, if_true] at step
    obtain ⟨u, rest, done⟩ :=
      ih (rel.canWrite step) (by simp [Link.Asleep]) sent (by simpa [queue] using n)
    exact ⟨u, (leads (a := .canWrite false true) ⟨id, by simp⟩ step).trans rest, done⟩

/-- What is in the air can all be served. -/
theorem exists_serves (rel : Related s t) (sp : Spelling) :
    ∃ u t', (Link.machine r).Leads LinkAct.IsDelivery s u ∧ Related u t' ∧
      u.down = [] ∧ u.attrib = s.attrib ∧ u.issuing = s.issuing := by
  induction n : s.down.length generalizing s t with
  | zero => exact ⟨s, t, .refl s, rel, List.length_eq_zero_iff.mp n, rfl, rfl⟩
  | succ k ih =>
    obtain ⟨bytes, down, air⟩ := List.exists_cons_of_length_eq_add_one n
    obtain ⟨o, os, -, -, -, step⟩ := rel.step_serve sp air
    obtain ⟨t', -, rel'⟩ := rel.serve step
    obtain ⟨u, t'', rest, done⟩ := ih rel' (by simpa [air] using n)
    exact ⟨u, t'', (leads (a := .serve sp) ⟨id, by simp⟩ step).trans rest, done⟩

/-- An awake sender lets everything in flight reach the robot. -/
theorem exists_flush (rel : Related s t) (awake : ¬ s.Asleep) :
    ∃ u, (Link.machine r).Leads LinkAct.IsDelivery s u ∧ u.inFlight = [] := by
  obtain ⟨u₁, to₁, rel₁, awake₁, sent₁⟩ := rel.exists_sendOrders (r := r) awake
  obtain ⟨u₂, to₂, rel₂, written₂, sent₂⟩ := rel₁.exists_writes (r := r) awake₁ sent₁
  obtain ⟨u₃, -, to₃, -, air₃, attrib₃, issuing₃⟩ :=
    rel₂.exists_serves (r := r) ⟨false, fun _ => (false, false)⟩
  refine ⟨u₃, to₁.trans (to₂.trans to₃), ?_⟩
  simp [Link.inFlight, air₃, attrib₃, issuing₃, written₂, sent₂]

/-- A read that fails wakes the sender, and from there on the same goes. -/
theorem exists_flush_of_reading (rel : Related s t) (reading : s.attrib.reading = true) :
    ∃ u, (Link.machine r).Leads (fun a => ¬ a.IsCall) s u ∧ u.inFlight = [] := by
  have step := rel.step_readFails
  rw [if_pos reading] at step
  have woken := rel.readFails step
  obtain ⟨u, ⟨d, deliveries, run⟩, arrived⟩ :=
    woken.exists_flush (r := r) (by simp [Link.Asleep])
  have first : (Link.machine r).Leads (fun a => ¬ a.IsCall) s _ :=
    .single (a := .readFails) id step
  exact ⟨u, first.trans ⟨d, fun a ha => (deliveries a ha).1, run⟩, arrived⟩

end Related

section Runs

variable {r : Robot} {h : List LinkAct} {s : Link}

/-- A run without calls from a state of another one that leaves nothing in flight has brought the
orders issued before it to the robot. -/
theorem flushes_of_arrived (hr : (Link.machine r).run h = some s) {d : List LinkAct} {u : Link}
    (calls : ∀ a ∈ d, ¬ a.IsCall) (run : (Link.machine r).runFrom s d = some u)
    (arrived : u.inFlight = []) : Link.Flushes r h d s := by
  have whole : (Link.machine r).run (h ++ d) = some u := by
    rw [Machine.run_append, hr, Option.bind_some, run]
  obtain ⟨-, served, -, issued, robot, -⟩ := served_of_run whole
  have issued_h : (Link.init r).issued (h ++ d) = (Link.init r).issued h := by
    have split : (Link.init r).issued (h ++ d) = (Link.init r).issued h ++ s.issued d :=
      Link.issued_append hr d
    rw [split, s.issued_of_delivery calls, List.append_nil]
  rw [arrived, List.append_nil, issued_h] at issued
  exact ⟨u, run, arrived, by rw [Order.pdu_injective.list_map issued, robot]⟩

/-- Without another call the robot can still be brought to serve every order issued so far, exactly
when the sender is not asleep or, if a read may fail, when the channel still reads. -/
theorem flush_iff (hr : (Link.machine r).run h = some s) :
    ((∃ d, (∀ a ∈ d, ¬ a.IsCall ∧ a ≠ .readFails) ∧ Link.Flushes r h d s) ↔ ¬ s.Asleep) ∧
      ((∃ d, (∀ a ∈ d, ¬ a.IsCall) ∧ Link.Flushes r h d s) ↔
        ¬ s.Asleep ∨ s.attrib.reading = true) := by
  obtain ⟨t, -, rel⟩ := (link_simulates r).run hr
  have stays {d : List LinkAct} (reads : (∀ a ∈ d, a ≠ .readFails) ∨ s.attrib.reading = false)
      (flushes : Link.Flushes r h d s) : ¬ s.Asleep := by
    intro asleep
    obtain ⟨u, run, arrived, -⟩ := flushes
    obtain ⟨⟨-, queued⟩, -⟩ := rel.asleep_runFrom asleep reads run
    simp [Link.inFlight, queued] at arrived
  have awakes (awake : ¬ s.Asleep) : ∃ d, (∀ a ∈ d, a.IsDelivery) ∧ Link.Flushes r h d s := by
    obtain ⟨u, ⟨d, deliveries, run⟩, arrived⟩ := rel.exists_flush (r := r) awake
    exact ⟨d, deliveries, flushes_of_arrived hr (fun a ha => (deliveries a ha).1) run arrived⟩
  refine ⟨⟨?_, awakes⟩, ?_, ?_⟩
  · rintro ⟨d, deliveries, flushes⟩
    exact stays (.inl fun a ha => (deliveries a ha).2) flushes
  · rintro ⟨d, -, flushes⟩
    by_contra none
    obtain ⟨asleep, closed⟩ := not_or.mp none
    exact asleep (stays (.inr (by simpa using closed)) flushes)
  · rintro (awake | reading)
    · obtain ⟨d, deliveries, flushes⟩ := awakes awake
      exact ⟨d, fun a ha => (deliveries a ha).1, flushes⟩
    · obtain ⟨u, ⟨d, calls, run⟩, arrived⟩ := rel.exists_flush_of_reading (r := r) reading
      exact ⟨d, calls, flushes_of_arrived hr calls run arrived⟩

/-- Two orders, of which the first cannot be written. -/
theorem flush_iff_failed :
    ∃ s, (Link.machine .switchedOn).run
        [.call .stop, .sendOrder, .canWrite false false, .call .up, .sendOrder] = some s ∧
      (¬ ∃ d, (∀ a ∈ d, ¬ a.IsCall ∧ a ≠ .readFails) ∧ Link.Flushes .switchedOn
        [.call .stop, .sendOrder, .canWrite false false, .call .up, .sendOrder] d s) ∧
      ∃ d, (∀ a ∈ d, ¬ a.IsCall) ∧ Link.Flushes .switchedOn
        [.call .stop, .sendOrder, .canWrite false false, .call .up, .sendOrder] d s :=
  ⟨_, rfl,
    fun flushed => (flush_iff
      (h := [.call .stop, .sendOrder, .canWrite false false, .call .up, .sendOrder]) rfl).1.mp
        flushed ⟨rfl, List.cons_ne_nil _ _⟩,
    (flush_iff
      (h := [.call .stop, .sendOrder, .canWrite false false, .call .up, .sendOrder]) rfl).2.mpr
        (.inr rfl)⟩

/-- After a write that failed with orders queued, and until a read fails, the robot serves nothing
but what was in the air at that moment, whatever is called. -/
theorem unreachable_after_failed_write {hup written : Bool} {k : List LinkAct} {u : Link}
    (hr : (Link.machine r).run h = some s) (failed : hup = true ∨ written = false)
    (queued : s.attrib.requests ≠ []) (reads : ∀ a ∈ k, a ≠ .readFails)
    (hk : (Link.machine r).runFrom s (.canWrite hup written :: k) = some u) :
    u.Asleep ∧ ∃ served : List Order, s.down = served.map Order.pdu ++ u.down ∧
      u.robot = (s.robot.serveAll served).1 := by
  obtain ⟨t, -, rel⟩ := (link_simulates r).run hr
  obtain ⟨v, hv, hk⟩ := Option.bind_eq_some_iff.mp hk
  have hv : s.step (.canWrite hup written) = some v := hv
  have notWritten : ¬ (hup = false ∧ written = true) := by
    rcases failed with rfl | rfl <;> simp
  have rel' := rel.canWrite hv
  rw [rel.step_canWrite] at hv
  cases queue : s.attrib.requests with
  | nil => exact (queued queue).elim
  | cons c q =>
    simp only [queue, if_neg notWritten] at hv
    split_ifs at hv
    obtain rfl := Option.some.inj hv
    exact rel'.asleep_runFrom ⟨rfl, by simp⟩ (.inl reads) hk

/-- Nothing is in the air when the write fails, so that the robot stays as it is. -/
theorem unreachable_after_failed_write_stop :
    ∃ s u, (Link.machine .switchedOn).run [.call .stop, .sendOrder] = some s ∧
      (Link.machine .switchedOn).runFrom s
        [.canWrite false false, .call (.setVolume 3), .sendOrder] = some u ∧
      u.Asleep ∧ ∃ served : List Order, s.down = served.map Order.pdu ++ u.down ∧
        u.robot = (s.robot.serveAll served).1 :=
  ⟨_, _, rfl, rfl, @unreachable_after_failed_write _ [.call .stop, .sendOrder] _ false false
    [.call (.setVolume 3), .sendOrder] _ rfl (.inr rfl) (List.cons_ne_nil _ _) (by simp) rfl⟩

end Runs

end LibMip
