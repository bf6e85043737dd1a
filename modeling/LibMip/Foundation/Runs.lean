import Mathlib.Data.List.Induction
import Mathlib.Data.List.Infix

/-!
# Partial machines and their runs

A machine answers an action in a state with the next state, or with `none` when the action
cannot happen there. A run is identified with its history, the list of actions taken from the
initial state, so a property may speak about the past as well as about the present state.

`Machine.EveryStep` says that each step of a run satisfies a predicate of the history before
it, the state before it and the action. Two such properties are compared step by step with
`EveryStep.congr`, and invariants that mention the history are proved with `run_invariant`.
-/

namespace Runs

structure Machine (σ α : Type*) where
  init : σ
  step : σ → α → Option σ

namespace Machine

variable {σ α : Type*} (M : Machine σ α)

/-- Take the actions in order; `none` as soon as one of them is impossible. -/
def runFrom (s : σ) : List α → Option σ
  | [] => some s
  | a :: h => (M.step s a).bind fun t => runFrom t h

def run (h : List α) : Option σ := M.runFrom M.init h

@[simp] theorem runFrom_nil (s : σ) : M.runFrom s [] = some s := rfl

@[simp] theorem runFrom_cons (s : σ) (a : α) (h : List α) :
    M.runFrom s (a :: h) = (M.step s a).bind fun t => M.runFrom t h := rfl

@[simp] theorem run_nil : M.run [] = some M.init := rfl

theorem runFrom_append (s : σ) (h k : List α) :
    M.runFrom s (h ++ k) = (M.runFrom s h).bind fun t => M.runFrom t k := by
  induction h generalizing s with
  | nil => rfl
  | cons a h ih => cases hs : M.step s a <;> simp [hs, ih]

theorem run_append (h k : List α) :
    M.run (h ++ k) = (M.run h).bind fun t => M.runFrom t k :=
  M.runFrom_append M.init h k

@[simp] theorem run_concat (h : List α) (a : α) :
    M.run (h ++ [a]) = (M.run h).bind fun s => M.step s a := by
  rw [run_append]
  congr 1
  funext s
  cases hs : M.step s a <;> simp [hs]

/-- A run that ends splits at any action into the run before it, its step and the rest. -/
theorem run_split {h k : List α} {a : α} {t : σ} (hr : M.run (h ++ a :: k) = some t) :
    ∃ s u, M.run h = some s ∧ M.step s a = some u ∧ M.runFrom u k = some t := by
  rw [run_append] at hr
  obtain ⟨s, hs, hr⟩ := Option.bind_eq_some_iff.mp hr
  rw [runFrom_cons] at hr
  obtain ⟨u, hu, hr⟩ := Option.bind_eq_some_iff.mp hr
  exact ⟨s, u, hs, hu, hr⟩

/-- Induction over a run, for a predicate of the history and the state it leads to. -/
theorem run_invariant {I : List α → σ → Prop} (initial : I [] M.init)
    (preserved : ∀ h s a t, M.run h = some s → I h s → M.step s a = some t → I (h ++ [a]) t)
    {h : List α} {s : σ} (hr : M.run h = some s) : I h s := by
  induction h using List.reverseRecOn generalizing s with
  | nil =>
    obtain rfl : M.init = s := by simpa using hr
    exact initial
  | append_singleton h a ih =>
    rw [run_concat] at hr
    obtain ⟨u, hu, hs⟩ := Option.bind_eq_some_iff.mp hr
    exact preserved h u a s hu (ih hu) hs

/-- Every step of the history satisfies `P`, given the history and the state before it. -/
def EveryStep (P : List α → σ → α → Prop) (h : List α) : Prop :=
  ∀ p a s, p ++ [a] <+: h → M.run p = some s → P p s a

variable {M} {P Q : List α → σ → α → Prop}

theorem EveryStep.nil : M.EveryStep P [] := by
  intro p a s hp
  simp at hp

theorem EveryStep.concat_iff {h : List α} {a : α} :
    M.EveryStep P (h ++ [a]) ↔ M.EveryStep P h ∧ ∀ s, M.run h = some s → P h s a := by
  constructor
  · intro all
    refine ⟨fun p b s hp => all p b s (hp.trans (List.prefix_append _ _)), fun s => ?_⟩
    exact all h a s (List.prefix_refl _)
  · rintro ⟨all, last⟩ p b s hp hs
    rcases List.prefix_concat_iff.mp hp with heq | hp
    · obtain ⟨rfl, hb⟩ := List.append_inj' heq rfl
      obtain rfl : b = a := by simpa using hb
      exact last s hs
    · exact all p b s hp hs

theorem EveryStep.of_prefix {h k : List α} (all : M.EveryStep P k) (hp : h <+: k) :
    M.EveryStep P h :=
  fun p a s hpa => all p a s (hpa.trans hp)

/-- Two step properties that agree at each step of a history agree on the history. -/
theorem EveryStep.congr {h : List α}
    (agree : ∀ p a s, p ++ [a] <+: h → M.run p = some s → (P p s a ↔ Q p s a)) :
    M.EveryStep P h ↔ M.EveryStep Q h :=
  ⟨fun all p a s hp hs => (agree p a s hp hs).mp (all p a s hp hs),
    fun all p a s hp hs => (agree p a s hp hs).mpr (all p a s hp hs)⟩

/-- An invariant that survives only the steps satisfying `P` holds along any run all of whose
steps do. -/
theorem run_invariant_of_everyStep {I : List α → σ → Prop} (initial : I [] M.init)
    (preserved : ∀ h s a t, M.run h = some s → I h s → P h s a → M.step s a = some t →
      I (h ++ [a]) t)
    {h : List α} {s : σ} (all : M.EveryStep P h) (hr : M.run h = some s) : I h s := by
  refine M.run_invariant (I := fun k t => M.EveryStep P k → I k t) (fun _ => initial)
    ?_ hr all
  intro k u a t hu ih ht all
  obtain ⟨before, last⟩ := EveryStep.concat_iff.mp all
  exact preserved k u a t hu (ih before) (last u hu) ht

/-- A property of states that holds at first, that every good step keeps and every bad one breaks
holds at every point of a run if and only if no step of the run is bad. -/
theorem always_iff {I : σ → Prop} {B : σ → α → Prop} {h : List α} {t : σ}
    (hr : M.run h = some t) (initial : I M.init)
    (kept : ∀ p a s u, p ++ [a] <+: h → M.run p = some s → M.step s a = some u → I s → ¬ B s a →
      I u)
    (broken : ∀ p a s u, p ++ [a] <+: h → M.run p = some s → M.step s a = some u → B s a → ¬ I u) :
    (∀ p s, p <+: h → M.run p = some s → I s) ↔ M.EveryStep (fun _ s a => ¬ B s a) h := by
  constructor
  · intro always p a s hp hs bad
    obtain ⟨k, rfl⟩ := hp
    rw [List.append_assoc, List.singleton_append] at hr
    obtain ⟨s', u, hs', hu, -⟩ := M.run_split hr
    obtain rfl := Option.some.inj (hs.symm.trans hs')
    have reached : M.run (p ++ [a]) = some u := by rw [run_concat, hs, Option.bind_some, hu]
    exact broken p a s u (List.prefix_append _ _) hs hu bad
      (always _ u (List.prefix_append _ _) reached)
  · intro good p s hp hs
    refine M.run_invariant (I := fun p s => p <+: h → I s) (fun _ => initial) ?_ hs hp
    intro p s a u hs inv hu hp
    exact kept p a s u hp hs hu (inv ((List.prefix_append _ _).trans hp)) (good p a s hp hs)

/-! ## Reaching a state from another -/

variable (M) in
/-- The machine in a state it has reached. -/
def after (s : σ) : Machine σ α := { M with init := s }

@[simp] theorem runFrom_after (h : List α) : (M.after s).runFrom t h = M.runFrom t h := by
  induction h generalizing t with
  | nil => rfl
  | cons a h ih =>
    rw [runFrom_cons, runFrom_cons]
    exact congrArg _ (funext fun _ => ih)

@[simp] theorem run_after (h : List α) : (M.after s).run h = M.runFrom s h := runFrom_after h

variable {A : α → Prop} {s t u : σ}

variable (M A) in
/-- Some actions of one kind lead from a state to another. -/
def Leads (s t : σ) : Prop := ∃ h, (∀ a ∈ h, A a) ∧ M.runFrom s h = some t

theorem Leads.refl (s : σ) : M.Leads A s s := ⟨[], by simp, rfl⟩

theorem Leads.single {a : α} (kind : A a) (step : M.step s a = some t) : M.Leads A s t :=
  ⟨[a], by simpa using kind, by simp [step]⟩

theorem Leads.trans (first : M.Leads A s t) (second : M.Leads A t u) : M.Leads A s u := by
  obtain ⟨h, kind, hh⟩ := first
  obtain ⟨k, kind', hk⟩ := second
  refine ⟨h ++ k, ?_, by rw [runFrom_append, hh, Option.bind_some, hk]⟩
  intro a ha
  exact (List.mem_append.mp ha).elim (kind a) (kind' a)

/-- What each of the actions keeps holds in the end. -/
theorem Leads.invariant {I : σ → Prop} (leads : M.Leads A s t)
    (kept : ∀ s a t, I s → A a → M.step s a = some t → I t) (start : I s) : I t := by
  obtain ⟨h, kind, hr⟩ := leads
  induction h generalizing s with
  | nil =>
    obtain rfl := Option.some.inj hr
    exact start
  | cons a h ih =>
    obtain ⟨v, hv, hr⟩ := Option.bind_eq_some_iff.mp hr
    exact ih (kept s a v start (kind a List.mem_cons_self) hv)
      (fun b hb => kind b (List.mem_cons_of_mem _ hb)) hr

end Machine

end Runs
