import Mathlib.Data.Nat.Init
import Mathlib.Tactic.Common

/-!
# Procedures of requests and answers

A procedure asks one request at a time and resumes with the answer, either to ask again or to stop
with a result. Its peer answers each request from a state of its own. The peer may keep a procedure
asking for ever, so a procedure `Ends` when some number of answers is enough.

`Ends.invariant` is the rule of partial correctness and `exists_ends` that of total correctness,
for an invariant of the peer's state and the procedure's turn; `not_ends` shows that a procedure
goes on for ever.
-/

namespace Exchange

inductive Turn (σ θ τ : Type*) where
  | ask (s : σ) (request : θ)
  | stop (result : τ)

/-- A procedure with the peer that answers it. -/
structure Dialogue (σ ρ θ α τ : Type*) where
  resume : σ → α → Turn σ θ τ
  answer : ρ → θ → ρ × α

namespace Dialogue

variable {σ ρ θ α τ : Type*} (D : Dialogue σ ρ θ α τ)

/-- The same with a peer that keeps the answers it has given. -/
def logged : Dialogue σ (ρ × List α) θ α τ where
  resume := D.resume
  answer w request :=
    (((D.answer w.1 request).1, w.2 ++ [(D.answer w.1 request).2]), (D.answer w.1 request).2)

/-- What follows a request: the peer's new state, and the procedure's turn after the answer. -/
def follow (w : ρ) (s : σ) (request : θ) : ρ × Turn σ θ τ :=
  ((D.answer w request).1, D.resume s (D.answer w request).2)

/-- The result and the peer's state after it, when at most `n` answers are given. -/
def run : Nat → ρ → Turn σ θ τ → Option (ρ × τ)
  | _, w, .stop result => some (w, result)
  | 0, _, .ask _ _ => none
  | n + 1, w, .ask s request => run n (D.follow w s request).1 (D.follow w s request).2

/-- Enough answers lead to the result. -/
def Ends (w : ρ) (t : Turn σ θ τ) (w' : ρ) (result : τ) : Prop :=
  ∃ n, D.run n w t = some (w', result)

variable {D} {w w' : ρ} {t : Turn σ θ τ} {s : σ} {request : θ} {result : τ}

@[simp] theorem run_stop (n : Nat) : D.run n w (.stop result) = some (w, result) := by
  cases n <;> rfl

@[simp] theorem ends_stop {result' : τ} :
    D.Ends w (.stop result) w' result' ↔ w' = w ∧ result' = result := by
  simp [Ends, eq_comm]

@[simp] theorem ends_ask :
    D.Ends w (.ask s request) w' result ↔
      D.Ends (D.follow w s request).1 (D.follow w s request).2 w' result := by
  constructor
  · rintro ⟨n, h⟩
    cases n with
    | zero => cases h
    | succ n => exact ⟨n, h⟩
  · rintro ⟨n, h⟩
    exact ⟨n + 1, h⟩

theorem Ends.unique {w₁ w₂ : ρ} {r₁ r₂ : τ} (h₁ : D.Ends w t w₁ r₁) (h₂ : D.Ends w t w₂ r₂) :
    w₁ = w₂ ∧ r₁ = r₂ := by
  obtain ⟨n, h₁⟩ := h₁
  induction n generalizing w t with
  | zero =>
    cases t with
    | stop result =>
      simp only [run_stop, Option.some.injEq, Prod.mk.injEq] at h₁
      obtain ⟨rfl, rfl⟩ := h₁
      obtain ⟨rfl, rfl⟩ := ends_stop.mp h₂
      exact ⟨rfl, rfl⟩
    | ask s request => cases h₁
  | succ n ih =>
    cases t with
    | stop result =>
      simp only [run_stop, Option.some.injEq, Prod.mk.injEq] at h₁
      obtain ⟨rfl, rfl⟩ := h₁
      obtain ⟨rfl, rfl⟩ := ends_stop.mp h₂
      exact ⟨rfl, rfl⟩
    | ask s request => exact ih (ends_ask.mp h₂) h₁

/-- What each answer keeps holds of the result. -/
theorem Ends.invariant {I : ρ → Turn σ θ τ → Prop}
    (kept : ∀ w s request, I w (.ask s request) →
      I (D.follow w s request).1 (D.follow w s request).2)
    (start : I w t) (h : D.Ends w t w' result) : I w' (.stop result) := by
  obtain ⟨n, h⟩ := h
  induction n generalizing w t with
  | zero =>
    cases t with
    | stop result =>
      simp only [run_stop, Option.some.injEq, Prod.mk.injEq] at h
      obtain ⟨rfl, rfl⟩ := h
      exact start
    | ask s request => cases h
  | succ n ih =>
    cases t with
    | stop result =>
      simp only [run_stop, Option.some.injEq, Prod.mk.injEq] at h
      obtain ⟨rfl, rfl⟩ := h
      exact start
    | ask s request => exact ih (kept w s request start) h

/-- A procedure ends when a quantity gets smaller with each answer after which it asks again. -/
theorem exists_ends {I : ρ → Turn σ θ τ → Prop} (variant : ρ → σ → Nat)
    (kept : ∀ w s request, I w (.ask s request) →
      I (D.follow w s request).1 (D.follow w s request).2 ∧
      ∀ s' request', (D.follow w s request).2 = .ask s' request' →
        variant (D.follow w s request).1 s' < variant w s)
    (start : I w t) : ∃ w' result, D.Ends w t w' result ∧ I w' (.stop result) := by
  have asks (n : Nat) : ∀ w s request, variant w s < n → I w (.ask s request) →
      ∃ w' result, D.Ends w (.ask s request) w' result := by
    induction n with
    | zero => exact fun _ _ _ h => (Nat.not_lt_zero _ h).elim
    | succ n ih =>
      intro w s request bound inv
      obtain ⟨inv', smaller⟩ := kept w s request inv
      cases next : (D.follow w s request).2 with
      | stop result =>
        exact ⟨_, result, ends_ask.mpr (by rw [next]; exact ends_stop.mpr ⟨rfl, rfl⟩)⟩
      | ask s' request' =>
        have less := smaller s' request' next
        rw [next] at inv'
        obtain ⟨w', result, ends⟩ := ih _ s' request' (by omega) inv'
        exact ⟨w', result, ends_ask.mpr (by rw [next]; exact ends)⟩
  cases t with
  | stop result => exact ⟨w, result, ends_stop.mpr ⟨rfl, rfl⟩, start⟩
  | ask s request =>
    obtain ⟨w', result, ends⟩ := asks (variant w s + 1) w s request (by omega) start
    exact ⟨w', result, ends, ends.invariant (fun w s request inv => (kept w s request inv).1) start⟩

/-- A procedure that every answer makes ask again never ends. -/
theorem not_ends {I : ρ → σ → θ → Prop}
    (again : ∀ w s request, I w s request → ∃ s' request',
      (D.follow w s request).2 = .ask s' request' ∧ I (D.follow w s request).1 s' request')
    (start : I w s request) : ¬ D.Ends w (.ask s request) w' result := by
  intro h
  obtain ⟨s', q', same, -⟩ := h.invariant
    (I := fun w t => ∃ s q, t = (.ask s q : Turn σ θ τ) ∧ I w s q)
    (fun w s request ⟨s', q', same, inv⟩ => by
      obtain ⟨rfl, rfl⟩ := Turn.ask.inj same
      exact again w s request inv) ⟨s, request, rfl, start⟩
  cases same

end Dialogue

end Exchange
