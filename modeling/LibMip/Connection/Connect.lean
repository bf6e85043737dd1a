import LibMip.Connection.World
import LibMip.Foundation.Runs

/-!
# Connecting

`connect` opens an attempt and runs the main loop until the object is connected, a hundred
times at most; then it reports whether the object is connected. The flag belongs to the object,
so the callback of any attempt sets it and nothing resets it. What `connect` reports is the fate
of its own attempt exactly when the flag was not set before and no other attempt sets it alone
while the call waits.
-/

namespace LibMip

open CNum Runs

namespace World

/-- The callbacks that one iteration of the main loop dispatches. -/
def dispatch (w : World) : List Callback → Option World
  | [] => some w
  | cb :: cbs => (w.connectCb cb).bind fun t => t.dispatch cbs

/-- `Mip::set_main_loop`, with at most `n` iterations left. The script lists what each iteration
dispatches; those after its end dispatch nothing. The flag ends the loop, and a script that goes
on after that is not one that can happen. -/
def setMainLoop (w : World) : Nat → List (List Callback) → Option World
  | 0, script => if script = [] then some w else none
  | n + 1, script =>
    if w.mip.isConnected then if script = [] then some w else none
    else
      match script with
      | [] => w.setMainLoop n []
      | cbs :: rest => (w.dispatch cbs).bind fun t => t.setMainLoop n rest

/-- `Mip::connect`, with what it returns; `opens` tells whether `gatt_connect` returns a
channel. -/
def connect (w : World) (opens : Bool) (script : List (List Callback)) : Option (World × Bool) :=
  if opens then (w.gattConnect.setMainLoop 100 script).map fun t => (t, t.mip.isConnected)
  else if script = [] then some (w, false) else none

end World

/-- A call of `connect`, or an iteration of the main loop between calls. -/
inductive ConnectAct where
  | connect (opens : Bool) (script : List (List Callback))
  | iterate (cbs : List Callback)

def attempts : Machine World ConnectAct where
  init := World.init
  step w
    | .connect opens script => (w.connect opens script).map Prod.fst
    | .iterate cbs => w.dispatch cbs

/-- If the call returns true, it opened an attempt whose callback has come without error. -/
def Truthful (w : World) : ConnectAct → Prop
  | .connect opens script => ∀ t, w.connect opens script = some (t, true) →
      opens = true ∧ w.opened ∈ t.succeeded
  | .iterate _ => True

/-- The call opens no attempt, or it finds the object not connected and no attempt succeeds
while it waits unless its own does. -/
def OwnAttempt (w : World) : ConnectAct → Prop
  | .connect opens script => opens = true →
      w.mip.isConnected = false ∧
        ((∃ cb ∈ script.flatten, cb.err = false) → ⟨w.opened, false⟩ ∈ script.flatten)
  | .iterate _ => True

/-! ## What callbacks do -/

/-- The attempts among the callbacks that succeed. -/
def successes (cbs : List Callback) : List Nat :=
  (cbs.filter fun cb => !cb.err).map Callback.attempt

theorem mem_successes {cbs : List Callback} {n : Nat} : n ∈ successes cbs ↔ ⟨n, false⟩ ∈ cbs := by
  simp only [successes, List.mem_map, List.mem_filter, Bool.not_eq_true']
  constructor
  · rintro ⟨⟨attempt, err⟩, ⟨mem, rfl⟩, rfl⟩
    exact mem
  · intro mem
    exact ⟨_, ⟨mem, rfl⟩, rfl⟩

theorem successes_ne_nil {cbs : List Callback} :
    successes cbs ≠ [] ↔ ∃ cb ∈ cbs, cb.err = false := by
  simp [successes]

/-- The part of the world that callbacks change, after the callbacks `cbs`. -/
structure Dispatched (cbs : List Callback) (w t : World) : Prop where
  opened : t.opened = w.opened
  pending : ∀ n ∈ t.pending, n ∈ w.pending
  known : ∀ cb ∈ cbs, cb.attempt ∈ w.pending
  succeeded : t.succeeded = w.succeeded ++ successes cbs
  connected : t.mip.isConnected = true ↔ w.mip.isConnected = true ∨ successes cbs ≠ []

theorem Dispatched.refl (w : World) : Dispatched [] w w := by
  constructor <;> simp [successes]

theorem Dispatched.trans {w t u : World} {cbs ds : List Callback} (first : Dispatched cbs w t)
    (second : Dispatched ds t u) : Dispatched (cbs ++ ds) w u where
  opened := second.opened.trans first.opened
  pending n hn := first.pending n (second.pending n hn)
  known cb hcb := by
    rcases List.mem_append.mp hcb with h | h
    · exact first.known cb h
    · exact first.pending _ (second.known cb h)
  succeeded := by
    rw [second.succeeded, first.succeeded]
    simp [successes]
  connected := by
    rw [second.connected, first.connected]
    simp only [successes, List.filter_append, List.map_append, ne_eq, List.append_eq_nil_iff,
      not_and_or, or_assoc]

theorem dispatched_connectCb {w t : World} {cb : Callback} (h : w.connectCb cb = some t) :
    Dispatched [cb] w t := by
  by_cases err : cb.err = true
  · obtain ⟨hp, rfl⟩ := World.connectCb_err err h
    refine ⟨rfl, fun n hn => List.mem_of_mem_erase hn, by simpa using hp, ?_, ?_⟩ <;>
      simp [successes, err]
  · obtain ⟨hp, rfl⟩ := World.connectCb_ok err h
    refine ⟨rfl, fun n hn => List.mem_of_mem_erase hn, by simpa using hp, ?_, ?_⟩ <;>
      simp [successes, err]

theorem dispatched_dispatch {cbs : List Callback} {w t : World} (h : w.dispatch cbs = some t) :
    Dispatched cbs w t := by
  induction cbs generalizing w with
  | nil =>
    obtain rfl := Option.some.inj h
    exact .refl w
  | cons cb cbs ih =>
    obtain ⟨u, hu, ht⟩ := Option.bind_eq_some_iff.mp h
    exact (dispatched_connectCb hu).trans (ih ht)

theorem dispatched_setMainLoop {n : Nat} {script : List (List Callback)} {w t : World}
    (h : w.setMainLoop n script = some t) : Dispatched script.flatten w t := by
  induction n generalizing w script with
  | zero =>
    obtain ⟨rfl, ht⟩ : script = [] ∧ w = t := by simpa [World.setMainLoop] using h
    exact ht ▸ .refl w
  | succ n ih =>
    unfold World.setMainLoop at h
    by_cases connected : w.mip.isConnected = true
    · obtain ⟨rfl, ht⟩ : script = [] ∧ w = t := by simpa [connected] using h
      exact ht ▸ .refl w
    · rw [if_neg connected] at h
      cases script with
      | nil => exact ih h
      | cons cbs rest =>
        obtain ⟨u, hu, ht⟩ := Option.bind_eq_some_iff.mp h
        exact (dispatched_dispatch hu).trans (ih ht)

/-- The loop does not run when the object is connected. -/
theorem setMainLoop_connected {n : Nat} {script : List (List Callback)} {w t : World}
    (connected : w.mip.isConnected = true) (h : w.setMainLoop n script = some t) :
    script = [] := by
  cases n with
  | zero => exact (by simpa [World.setMainLoop] using h : script = [] ∧ w = t).1
  | succ n => exact (by simpa [World.setMainLoop, connected] using h : script = [] ∧ w = t).1

/-! ## Runs -/

/-- Attempts are numbered in the order in which they are opened. -/
structure Numbered (w : World) : Prop where
  pending : ∀ n ∈ w.pending, n < w.opened
  succeeded : ∀ n ∈ w.succeeded, n < w.opened

theorem Numbered.dispatched {w t : World} {cbs : List Callback} (numbered : Numbered w)
    (h : Dispatched cbs w t) : Numbered t := by
  refine ⟨fun n hn => ?_, fun n hn => ?_⟩
  · rw [h.opened]
    exact numbered.pending n (h.pending n hn)
  · rw [h.opened]
    rw [h.succeeded] at hn
    rcases List.mem_append.mp hn with hn | hn
    · exact numbered.succeeded n hn
    · exact numbered.pending n (h.known _ (mem_successes.mp hn))

theorem Numbered.gattConnect {w : World} (numbered : Numbered w) : Numbered w.gattConnect := by
  refine ⟨fun n hn => ?_, fun n hn => Nat.lt_succ_of_lt (numbered.succeeded n hn)⟩
  rcases List.mem_append.mp hn with hn | hn
  · exact Nat.lt_succ_of_lt (numbered.pending n hn)
  · obtain rfl := List.mem_singleton.mp hn
    exact Nat.lt_succ_self _

theorem connect_some {w t : World} {opens b : Bool} {script : List (List Callback)}
    (h : w.connect opens script = some (t, b)) :
    opens = true ∧ w.gattConnect.setMainLoop 100 script = some t ∧ b = t.mip.isConnected ∨
      opens = false ∧ t = w ∧ b = false := by
  cases opens with
  | false =>
    right
    obtain ⟨-, rfl, rfl⟩ : script = [] ∧ w = t ∧ false = b := by simpa [World.connect] using h
    exact ⟨rfl, rfl, rfl⟩
  | true =>
    left
    obtain ⟨u, hu, heq⟩ := Option.map_eq_some_iff.mp h
    obtain ⟨rfl, rfl⟩ := Prod.mk.inj heq
    exact ⟨rfl, hu, rfl⟩

theorem Numbered.step {w t : World} {a : ConnectAct} (numbered : Numbered w)
    (h : attempts.step w a = some t) : Numbered t := by
  cases a with
  | iterate cbs => exact numbered.dispatched (dispatched_dispatch h)
  | connect opens script =>
    obtain ⟨⟨u, b⟩, hu, rfl⟩ := Option.map_eq_some_iff.mp h
    rcases connect_some hu with ⟨-, hloop, -⟩ | ⟨-, rfl, -⟩
    · exact numbered.gattConnect.dispatched (dispatched_setMainLoop hloop)
    · exact numbered

theorem numbered_run {h : List ConnectAct} {w : World} (hr : attempts.run h = some w) :
    Numbered w :=
  attempts.run_invariant (I := fun _ w => Numbered w) ⟨by simp [attempts, World.init],
    by simp [attempts, World.init]⟩ (fun _ _ _ _ _ numbered hs => numbered.step hs) hr

/-- A call that opens an attempt and ends. -/
theorem truthful_connect_iff {w u : World} {script : List (List Callback)}
    (numbered : Numbered w) (hloop : w.gattConnect.setMainLoop 100 script = some u) :
    Truthful w (.connect true script) ↔ OwnAttempt w (.connect true script) := by
  have call : w.connect true script = some (u, u.mip.isConnected) := by
    simp [World.connect, hloop]
  have effect := dispatched_setMainLoop hloop
  have own : w.opened ∈ u.succeeded ↔ ⟨w.opened, false⟩ ∈ script.flatten := by
    have new : w.opened ∉ w.gattConnect.succeeded :=
      fun old => Nat.lt_irrefl _ (numbered.succeeded _ old)
    rw [effect.succeeded, List.mem_append, mem_successes]
    exact or_iff_right new
  constructor
  · intro truthful _
    have mine : u.mip.isConnected = true → ⟨w.opened, false⟩ ∈ script.flatten := by
      intro connected
      rw [connected] at call
      exact own.mp (truthful u call).2
    constructor
    · by_contra connected
      rw [Bool.not_eq_false] at connected
      have empty := setMainLoop_connected (w := w.gattConnect) connected hloop
      have mem := mine (effect.connected.mpr (.inl connected))
      simp [empty] at mem
    · intro some
      exact mine (effect.connected.mpr (.inr (successes_ne_nil.mpr some)))
  · intro alone t ht
    obtain ⟨before, first⟩ := alone rfl
    obtain ⟨rfl, connected⟩ := Prod.mk.inj (Option.some.inj (call.symm.trans ht))
    refine ⟨rfl, own.mpr (first ?_)⟩
    rcases effect.connected.mp connected with old | new
    · exact absurd (before.symm.trans old) Bool.false_ne_true
    · exact successes_ne_nil.mp new

/-- One step that takes place. -/
theorem truthful_iff {w t : World} {a : ConnectAct} (numbered : Numbered w)
    (hstep : attempts.step w a = some t) : Truthful w a ↔ OwnAttempt w a := by
  cases a with
  | iterate cbs => exact Iff.rfl
  | connect opens script =>
    obtain ⟨⟨u, b⟩, hu, rfl⟩ := Option.map_eq_some_iff.mp hstep
    rcases connect_some hu with ⟨rfl, hloop, -⟩ | ⟨rfl, -, -⟩
    · exact truthful_connect_iff numbered hloop
    · refine iff_of_true (fun t ht => ?_) (fun h => absurd h Bool.false_ne_true)
      rcases connect_some ht with ⟨h, -⟩ | ⟨-, -, h⟩
      · exact absurd h Bool.false_ne_true
      · exact absurd h Bool.false_ne_true.symm

/-- In a run of calls and callbacks, each call that returns true has seen its own attempt
succeed exactly when each call that opens an attempt finds the object not connected and sees no
attempt succeed unless its own does. -/
theorem connect_truthful_iff {h : List ConnectAct} {w : World} (hr : attempts.run h = some w) :
    attempts.EveryStep (fun _ w a => Truthful w a) h ↔
      attempts.EveryStep (fun _ w a => OwnAttempt w a) h := by
  apply Machine.EveryStep.congr
  rintro p a u ⟨q, rfl⟩ hu
  rw [List.append_assoc] at hr
  obtain ⟨v, t, hv, ht, -⟩ := attempts.run_split hr
  obtain rfl : v = u := Option.some.inj (hv.symm.trans hu)
  exact truthful_iff (numbered_run hu) ht

/-- A call whose own attempt succeeds during the second iteration. -/
theorem connect_truthful_iff_first :
    attempts.EveryStep (fun _ w a => Truthful w a) ([] ++ [.connect true [[], [⟨0, false⟩]]]) := by
  apply (connect_truthful_iff rfl).mpr
  rw [Machine.EveryStep.concat_iff]
  refine ⟨Machine.EveryStep.nil, fun w hw _ => ?_⟩
  obtain rfl := Option.some.inj hw
  exact ⟨rfl, fun _ => by decide⟩

/-- A second call returns true at once, although its attempt is still pending. -/
theorem connect_reports_earlier_attempt :
    ¬ attempts.EveryStep (fun _ w a => Truthful w a)
      ([.connect true [[⟨0, false⟩]]] ++ [.connect true []]) := by
  intro all
  obtain ⟨-, mine⟩ := (Machine.EveryStep.concat_iff.mp all).2 _ rfl _ rfl
  exact absurd mine (by decide)

end LibMip
