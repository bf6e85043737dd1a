import Mathlib.Logic.Relation

/-!
# Loops that need not end

A computation is run under a bound on the iterations of its loops. It answers `none` when the
bound stops it, and otherwise with a value or an error; a larger bound changes no answer, which
`Comp.mono` carries along. `Comp.Ends` leaves the bound out.

`Comp.loop` repeats a body that either goes on with the next state or leaves the loop with a
result. `ends_loop` unfolds one iteration. An invariant under which the body goes on shows that
a loop never ends, and `Reaches` speaks of the states on the way.
-/

namespace Loops

universe u v

structure Comp (ε : Type u) (α : Type v) where
  run : Nat → Option (Except ε α)
  mono : ∀ {n k r}, n ≤ k → run n = some r → run k = some r

namespace Comp

variable {ε : Type u} {α β σ ρ : Type v}

/-- For every bound that is large enough the answer is `r`. -/
def Ends (c : Comp ε α) (r : Except ε α) : Prop := ∃ n, c.run n = some r

def Returns (c : Comp ε α) (a : α) : Prop := c.Ends (.ok a)

/-- A computation without loops. -/
def lift (x : Except ε α) : Comp ε α where
  run _ := some x
  mono _ h := h

/-- Run the first computation, then the second on its value, under the same bound. -/
def bindRun (c : Comp ε α) (f : α → Comp ε β) (n : Nat) : Option (Except ε β) :=
  match c.run n with
  | none => none
  | some (.error e) => some (.error e)
  | some (.ok a) => (f a).run n

theorem bindRun_mono (c : Comp ε α) (f : α → Comp ε β) {n k : Nat} {r : Except ε β} (hk : n ≤ k)
    (h : bindRun c f n = some r) : bindRun c f k = some r := by
  unfold bindRun at h ⊢
  cases hc : c.run n with
  | none => simp [hc] at h
  | some x =>
    rw [c.mono hk hc]
    cases x with
    | error e => simpa [hc] using h
    | ok a =>
      rw [hc] at h
      exact (f a).mono hk h

instance : Monad (Comp ε) where
  pure a := lift (.ok a)
  bind c f := ⟨bindRun c f, bindRun_mono c f⟩

instance : MonadLift (Except ε) (Comp ε) := ⟨lift⟩

/-- At most `n` iterations: `inl` is the state to go on with, `inr` the result. -/
def iterate (body : σ → Comp ε (σ ⊕ ρ)) : Nat → σ → Option (Except ε ρ)
  | 0, _ => none
  | n + 1, s =>
    match (body s).run n with
    | none => none
    | some (.error e) => some (.error e)
    | some (.ok (.inl t)) => iterate body n t
    | some (.ok (.inr r)) => some (.ok r)

theorem iterate_mono (body : σ → Comp ε (σ ⊕ ρ)) {n k : Nat} {s : σ} {r : Except ε ρ}
    (hk : n ≤ k) (h : iterate body n s = some r) : iterate body k s = some r := by
  induction n generalizing k s with
  | zero => simp [iterate] at h
  | succ n ih =>
    obtain ⟨k, rfl⟩ : ∃ j, k = j + 1 := ⟨k - 1, by omega⟩
    have hk' : n ≤ k := by omega
    unfold iterate at h ⊢
    cases hb : (body s).run n with
    | none => simp [hb] at h
    | some x =>
      rw [(body s).mono hk' hb]
      rw [hb] at h
      rcases x with e | t | a
      · exact h
      · exact ih hk' h
      · exact h

def loop (body : σ → Comp ε (σ ⊕ ρ)) (s : σ) : Comp ε ρ where
  run n := iterate body n s
  mono := iterate_mono body

/-! ## Ends -/

theorem Ends.unique {c : Comp ε α} {r r' : Except ε α} (h : c.Ends r) (h' : c.Ends r') :
    r = r' := by
  obtain ⟨n, hn⟩ := h
  obtain ⟨k, hk⟩ := h'
  have both := (c.mono (Nat.le_max_left n k) hn).symm.trans (c.mono (Nat.le_max_right n k) hk)
  exact Option.some.inj both

theorem Returns.unique {c : Comp ε α} {a b : α} (h : c.Returns a) (h' : c.Returns b) : a = b :=
  Except.ok.inj (Ends.unique h h')

theorem Ends.ends_iff {c : Comp ε α} {r r' : Except ε α} (h : c.Ends r) :
    c.Ends r' ↔ r' = r :=
  ⟨fun h' => h'.unique h, fun hr => hr ▸ h⟩

@[simp] theorem ends_lift {x r : Except ε α} : (lift x).Ends r ↔ r = x := by
  simp [Ends, lift, eq_comm]

@[simp] theorem ends_liftM {x r : Except ε α} : (liftM x : Comp ε α).Ends r ↔ r = x := ends_lift

@[simp] theorem ends_pure {a : α} {r : Except ε α} :
    (pure a : Comp ε α).Ends r ↔ r = .ok a := ends_lift

@[simp] theorem returns_pure {a b : α} : (pure a : Comp ε α).Returns b ↔ b = a := by
  rw [Returns, ends_pure, Except.ok.injEq]

@[simp] theorem pure_bind (a : α) (f : α → Comp ε β) : pure a >>= f = f a := rfl

@[simp] theorem liftM_ok_bind (a : α) (f : α → Comp ε β) :
    (liftM (Except.ok a : Except ε α) >>= f) = f a := rfl

@[simp] theorem liftM_error_bind (e : ε) (f : α → Comp ε β) :
    (liftM (Except.error e : Except ε α) >>= f) = lift (.error e) := rfl

/-- A sequence ends with the error of the first computation, or as the second does. -/
theorem ends_bind {c : Comp ε α} {f : α → Comp ε β} {r : Except ε β} :
    (c >>= f).Ends r ↔
      (∃ e, c.Ends (.error e) ∧ r = .error e) ∨ ∃ a, c.Returns a ∧ (f a).Ends r := by
  constructor
  · rintro ⟨n, hn⟩
    change bindRun c f n = some r at hn
    unfold bindRun at hn
    cases hc : c.run n with
    | none => simp [hc] at hn
    | some x =>
      rw [hc] at hn
      cases x with
      | error e => exact .inl ⟨e, ⟨n, hc⟩, (Option.some.inj hn).symm⟩
      | ok a => exact .inr ⟨a, ⟨n, hc⟩, n, hn⟩
  · rintro (⟨e, ⟨n, hn⟩, rfl⟩ | ⟨a, ⟨n, hn⟩, k, hk⟩)
    · refine ⟨n, ?_⟩
      change bindRun c f n = _
      rw [bindRun, hn]
    · refine ⟨max n k, ?_⟩
      change bindRun c f _ = _
      rw [bindRun, c.mono (Nat.le_max_left n k) hn]
      exact (f a).mono (Nat.le_max_right n k) hk

theorem returns_bind {c : Comp ε α} {f : α → Comp ε β} {b : β} :
    (c >>= f).Returns b ↔ ∃ a, c.Returns a ∧ (f a).Returns b := by
  simp [Returns, ends_bind]

theorem Returns.ends_bind {c : Comp ε α} {f : α → Comp ε β} {a : α} {r : Except ε β}
    (h : c.Returns a) : (c >>= f).Ends r ↔ (f a).Ends r := by
  rw [Comp.ends_bind]
  constructor
  · rintro (⟨e, error, -⟩ | ⟨b, returns, ends⟩)
    · exact absurd (error.unique h) (by simp)
    · rwa [h.unique returns]
  · exact fun ends => .inr ⟨a, h, ends⟩

/-! ## Loops -/

section Loop

variable {body : σ → Comp ε (σ ⊕ ρ)} {s t : σ} {a : ρ} {r : Except ε ρ}

/-- A loop is its body, followed by the loop from the state that the body goes on with. -/
theorem ends_loop : (loop body s).Ends r ↔ (body s >>= Sum.elim (loop body) pure).Ends r := by
  have unroll (n : Nat) : (loop body s).run (n + 1) =
      (body s >>= Sum.elim (loop body) pure).run n := by
    change iterate body (n + 1) s = bindRun (body s) _ n
    unfold iterate bindRun
    rcases (body s).run n with _ | e | t | a <;> rfl
  constructor
  · rintro ⟨n, hn⟩
    cases n with
    | zero => exact absurd hn (by simp [loop, iterate])
    | succ n => exact ⟨n, (unroll n).symm.trans hn⟩
  · rintro ⟨n, hn⟩
    exact ⟨n + 1, (unroll n).trans hn⟩

theorem ends_loop_next (h : (body s).Returns (.inl t)) :
    (loop body s).Ends r ↔ (loop body t).Ends r :=
  ends_loop.trans h.ends_bind

theorem ends_loop_done (h : (body s).Returns (.inr a)) : (loop body s).Ends r ↔ r = .ok a :=
  ends_loop.trans (h.ends_bind.trans ends_pure)

theorem ends_loop_error {e : ε} (h : (body s).Ends (.error e)) :
    (loop body s).Ends r ↔ r = .error e :=
  Ends.ends_iff (ends_loop.mpr (ends_bind.mpr (.inl ⟨e, h, rfl⟩)))

/-! The same for a state on which the body is already evaluated. -/

theorem ends_loop_of_next (h : body s = pure (.inl t)) :
    (loop body s).Ends r ↔ (loop body t).Ends r :=
  ends_loop_next (h ▸ returns_pure.mpr rfl)

theorem ends_loop_of_done (h : body s = pure (.inr a)) : (loop body s).Ends (.ok a) :=
  (ends_loop_done (h ▸ returns_pure.mpr rfl)).mpr rfl

theorem ends_loop_of_error {e : ε} (h : body s = lift (.error e)) :
    (loop body s).Ends (.error e) :=
  (ends_loop_error (h ▸ ends_lift.mpr rfl)).mpr rfl

/-- Induction over the iterations of a loop that ends, from the last one to the first. -/
theorem Ends.loop_induction {P : σ → Prop}
    (error : ∀ s e, (body s).Ends (.error e) → r = .error e → P s)
    (done : ∀ s a, (body s).Returns (.inr a) → r = .ok a → P s)
    (next : ∀ s t, (body s).Returns (.inl t) → P t → P s) (h : (loop body s).Ends r) : P s := by
  obtain ⟨n, hn⟩ := h
  change iterate body n s = some r at hn
  induction n generalizing s with
  | zero => simp [iterate] at hn
  | succ n ih =>
    unfold iterate at hn
    rcases hb : (body s).run n with _ | e | t | a
    · simp [hb] at hn
    · rw [hb] at hn
      exact error s e ⟨n, hb⟩ (Option.some.inj hn).symm
    · rw [hb] at hn
      exact next s t ⟨n, hb⟩ (ih hn)
    · rw [hb] at hn
      exact done s a ⟨n, hb⟩ (Option.some.inj hn).symm

/-- A loop whose body never leaves it with a result does not return. -/
theorem not_returns_loop {I : σ → Prop}
    (stays : ∀ s x, I s → (body s).Returns x → ∃ t, x = .inl t ∧ I t) (hs : I s) :
    ¬ (loop body s).Returns a := by
  refine fun returns => Ends.loop_induction (P := fun s => ¬ I s) ?_ ?_ ?_ returns hs
  · intro s e _ he
    cases he
  · intro s b hb _ hs
    obtain ⟨t, ht, -⟩ := stays s _ hs hb
    cases ht
  · intro s t ht notInv hs
    obtain ⟨t', ht', inv⟩ := stays s _ hs ht
    obtain rfl := Sum.inl.inj ht'
    exact notInv inv

/-- A loop whose body always goes on does not end. -/
theorem not_ends_loop {I : σ → Prop} (goesOn : ∀ s, I s → ∃ t, (body s).Returns (.inl t) ∧ I t)
    (hs : I s) : ¬ (loop body s).Ends r := by
  refine fun ends => ends.loop_induction (P := fun s => ¬ I s) ?_ ?_ ?_ hs
  · intro s e he _ hs
    obtain ⟨t, ht, -⟩ := goesOn s hs
    cases he.unique ht
  · intro s a ha _ hs
    obtain ⟨t, ht, -⟩ := goesOn s hs
    cases ha.unique ht
  · intro s t ht notInv hs
    obtain ⟨t', ht', inv⟩ := goesOn s hs
    obtain rfl := Sum.inl.inj (ht'.unique ht)
    exact notInv inv

/-- The states at the head of the loop, from the first on. -/
def Reaches (body : σ → Comp ε (σ ⊕ ρ)) : σ → σ → Prop :=
  Relation.ReflTransGen fun s t => (body s).Returns (.inl t)

theorem Reaches.invariant {I : σ → Prop} (keeps : ∀ s t, I s → (body s).Returns (.inl t) → I t)
    (hs : I s) (h : Reaches body s t) : I t := by
  induction h with
  | refl => exact hs
  | tail _ step ih => exact keeps _ _ ih step

end Loop

end Comp

end Loops
