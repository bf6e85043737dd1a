import LibMip.Foundation.Runs

/-!
# Machines that put out a log

A transducer answers an action with the next state and a list of outputs. Its machine keeps the
outputs of a run in one log, which only grows, so that a property of a run can be stated on the
state it ends in together with everything that was put out on the way.

Where the actions answer requests that the state makes, `Drives` is the run in which a peer answers
them one after the other until there are none. `peer` is the same answer by answer.
-/

namespace Runs

structure Transducer (σ α β : Type*) where
  init : σ
  step : σ → α → Option (σ × List β)

namespace Transducer

variable {σ α β : Type*} (T : Transducer σ α β)

/-- The state with the outputs of the run so far. -/
def machine : Machine (σ × List β) α where
  init := (T.init, [])
  step s a := (T.step s.1 a).map fun r => (r.1, s.2 ++ r.2)

variable {T}

theorem step_eq_some {s t : σ × List β} {a : α} (h : T.machine.step s a = some t) :
    ∃ out, T.step s.1 a = some (t.1, out) ∧ t.2 = s.2 ++ out := by
  obtain ⟨r, hr, rfl⟩ := Option.map_eq_some_iff.mp h
  exact ⟨r.2, hr, rfl⟩

/-- An invariant of the history, the state and the log, when `P` holds at every step. -/
theorem invariant {P : σ → α → Prop} {I : List α → σ → List β → Prop} (initial : I [] T.init [])
    (preserved : ∀ h s log a t out, T.machine.run h = some (s, log) → I h s log → P s a →
      T.step s a = some (t, out) → I (h ++ [a]) t (log ++ out))
    {h : List α} {s : σ} {log : List β} (all : T.machine.EveryStep (fun _ s => P s.1) h)
    (hr : T.machine.run h = some (s, log)) : I h s log := by
  refine T.machine.run_invariant_of_everyStep (I := fun h s => I h s.1 s.2) initial ?_ all hr
  intro h s a t hs inv ha ht
  obtain ⟨out, next, hlog⟩ := step_eq_some ht
  rw [hlog]
  exact preserved h s.1 s.2 a t.1 out hs inv ha next

/-- An invariant that every step keeps. -/
theorem always {I : List α → σ → List β → Prop} (initial : I [] T.init [])
    (preserved : ∀ h s log a t out, T.machine.run h = some (s, log) → I h s log →
      T.step s a = some (t, out) → I (h ++ [a]) t (log ++ out))
    {h : List α} {s : σ} {log : List β} (hr : T.machine.run h = some (s, log)) : I h s log :=
  invariant (P := fun _ _ => True) initial
    (fun h s log a t out run inv _ next => preserved h s log a t out run inv next)
    (fun _ _ _ _ _ => trivial) hr

/-! ## With a peer that decides the actions -/

section Peer

variable {ρ θ : Type*} (T) (request : σ → Option θ) (answer : ρ → θ → ρ × α)

/-- The peer answers the requests as long as there are any, at most `n` of them. -/
def drive : Nat → ρ → σ × List β → Option (ρ × (σ × List β))
  | n, w, s =>
    match request s.1 with
    | none => some (w, s)
    | some q =>
      match n with
      | 0 => none
      | n + 1 => (T.machine.step s (answer w q).2).bind (drive n (answer w q).1)

/-- With enough answers there are no more requests. -/
def Drives (w : ρ) (s : σ × List β) (w' : ρ) (t : σ × List β) : Prop :=
  ∃ n, T.drive request answer n w s = some (w', t)

variable {T request answer} {w w' : ρ} {s t u : σ × List β} {q : θ}

theorem drives_done (h : request s.1 = none) : T.Drives request answer w s w s :=
  ⟨0, by rw [drive, h]⟩

theorem drives_step (h : request s.1 = some q) (next : T.machine.step s (answer w q).2 = some u)
    (rest : T.Drives request answer (answer w q).1 u w' t) : T.Drives request answer w s w' t := by
  obtain ⟨n, hn⟩ := rest
  exact ⟨n + 1, by rw [drive, h]; simp only [next, Option.bind_some, hn]⟩

theorem Drives.of_none (drives : T.Drives request answer w s w' t) (h : request s.1 = none) :
    w' = w ∧ t = s := by
  obtain ⟨n, hn⟩ := drives
  rw [drive, h] at hn
  obtain ⟨rfl, rfl⟩ := Prod.mk.inj (Option.some.inj hn)
  exact ⟨rfl, rfl⟩

/-- The first answer is taken, and the others drive what is left. -/
theorem Drives.of_some (drives : T.Drives request answer w s w' t) (h : request s.1 = some q) :
    ∃ u, T.machine.step s (answer w q).2 = some u ∧
      T.Drives request answer (answer w q).1 u w' t := by
  obtain ⟨n, hn⟩ := drives
  rw [drive, h] at hn
  cases n with
  | zero => cases hn
  | succ n =>
    obtain ⟨u, next, rest⟩ := Option.bind_eq_some_iff.mp hn
    exact ⟨u, next, n, rest⟩

/-- What holds in the end, and before an answer if it does after it, holds from the start. -/
theorem Drives.induct {P : ρ → σ × List β → Prop} (drives : T.Drives request answer w s w' t)
    (done : request t.1 = none → P w' t)
    (answered : ∀ w s q u, request s.1 = some q → T.machine.step s (answer w q).2 = some u →
      T.Drives request answer (answer w q).1 u w' t → P (answer w q).1 u → P w s) : P w s := by
  obtain ⟨n, hn⟩ := drives
  induction n generalizing w s with
  | zero =>
    cases h : request s.1 with
    | none =>
      obtain ⟨rfl, rfl⟩ := Drives.of_none ⟨0, hn⟩ h
      exact done h
    | some q =>
      rw [drive, h] at hn
      cases hn
  | succ n ih =>
    cases h : request s.1 with
    | none =>
      obtain ⟨rfl, rfl⟩ := Drives.of_none ⟨n + 1, hn⟩ h
      exact done h
    | some q =>
      rw [drive, h] at hn
      obtain ⟨u, next, rest⟩ := Option.bind_eq_some_iff.mp hn
      exact answered w s q u h next ⟨n, rest⟩ (ih rest)

/-- In the end there is no request. -/
theorem Drives.done (drives : T.Drives request answer w s w' t) : request t.1 = none :=
  drives.induct (P := fun _ _ => request t.1 = none) id fun _ _ _ _ _ _ _ rest => rest

/-- The log grows. -/
theorem Drives.outputs (drives : T.Drives request answer w s w' t) : s.2 <+: t.2 := by
  refine drives.induct (P := fun _ s => s.2 <+: t.2) (fun _ => List.prefix_rfl) ?_
  intro w s q u asked next _ rest
  obtain ⟨out, -, log⟩ := step_eq_some next
  exact (log ▸ List.prefix_append s.2 out).trans rest

variable (T request answer)

/-- The machine whose one action is the answer to the request that comes next. -/
def peer (w : ρ) : Machine (ρ × (σ × List β)) Unit where
  init := (w, T.machine.init)
  step s _ := (request s.2.1).bind fun q =>
    (T.machine.step s.2 (answer s.1 q).2).map fun t => ((answer s.1 q).1, t)

variable {T request answer}

/-- After some of the answers, those that are left drive to the same end. -/
theorem Drives.of_peer {w₀ v : ρ} {h : List Unit} (drives : T.Drives request answer w s w' t)
    (hr : (T.peer request answer w₀).runFrom (w, s) h = some (v, u)) :
    T.Drives request answer v u w' t := by
  induction h generalizing w s with
  | nil =>
    obtain ⟨rfl, rfl⟩ := Prod.mk.inj (Option.some.inj hr)
    exact drives
  | cons a h ih =>
    obtain ⟨⟨w₁, s₁⟩, step, hr⟩ := Option.bind_eq_some_iff.mp hr
    obtain ⟨q, asked, step⟩ := Option.bind_eq_some_iff.mp step
    obtain ⟨x, next, same⟩ := Option.map_eq_some_iff.mp step
    obtain ⟨rfl, rfl⟩ := Prod.mk.inj same
    obtain ⟨y, next', rest⟩ := drives.of_some asked
    obtain rfl := Option.some.inj (next.symm.trans next')
    exact ih rest hr

/-- Its runs are runs of the machine with the answers given. -/
theorem run_of_peer {w₀ v : ρ} {h : List Unit}
    (hr : (T.peer request answer w₀).run h = some (v, u)) :
    ∃ answers, T.machine.run answers = some u := by
  refine Machine.run_invariant (M := T.peer request answer w₀)
    (I := fun _ s => ∃ answers, T.machine.run answers = some s.2) ⟨[], rfl⟩ ?_ hr
  rintro h ⟨v, s⟩ a ⟨v', s'⟩ - ⟨answers, run⟩ answered
  obtain ⟨q, -, answered⟩ := Option.bind_eq_some_iff.mp answered
  obtain ⟨x, next, same⟩ := Option.map_eq_some_iff.mp answered
  obtain ⟨-, rfl⟩ := Prod.mk.inj same
  exact ⟨answers ++ [(answer v q).2], by rw [Machine.run_concat, run, Option.bind_some, next]⟩

end Peer

end Transducer

end Runs
