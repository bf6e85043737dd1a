import LibMip.Foundation.Runs

/-!
# Forward simulation

A machine simulates another through a translation of actions when every step of the second is
matched by the translated actions of the first, from related states to related states. Every run
then has a translated run to a related state, so that what holds in all reachable states of the
simulating machine holds, through the relation, in all those of the simulated one.
-/

namespace Runs

variable {σ τ α β : Type*}

/-- `N` can follow every step of `M`; an action with an empty translation is invisible to it. -/
structure Simulates (M : Machine σ α) (N : Machine τ β) (image : α → List β)
    (R : σ → τ → Prop) : Prop where
  initial : R M.init N.init
  matched : ∀ {s s' : σ} {t : τ} {a : α}, R s t → M.step s a = some s' →
    ∃ t', N.runFrom t (image a) = some t' ∧ R s' t'

namespace Simulates

variable {M : Machine σ α} {N : Machine τ β} {image : α → List β} {R : σ → τ → Prop}

theorem runFrom (sim : Simulates M N image R) {s s' : σ} {t : τ} {h : List α} (related : R s t)
    (hr : M.runFrom s h = some s') :
    ∃ t', N.runFrom t (h.flatMap image) = some t' ∧ R s' t' := by
  induction h generalizing s t with
  | nil =>
    obtain rfl : s = s' := by simpa using hr
    exact ⟨t, rfl, related⟩
  | cons a h ih =>
    obtain ⟨u, hu, hr⟩ := Option.bind_eq_some_iff.mp hr
    obtain ⟨v, hv, related⟩ := sim.matched related hu
    obtain ⟨t', ht', related⟩ := ih related hr
    refine ⟨t', ?_, related⟩
    rw [List.flatMap_cons, N.runFrom_append, hv]
    exact ht'

theorem run (sim : Simulates M N image R) {s : σ} {h : List α} (hr : M.run h = some s) :
    ∃ t, N.run (h.flatMap image) = some t ∧ R s t :=
  sim.runFrom sim.initial hr

/-- What holds in every state the simulating machine reaches holds in the simulated one. -/
theorem invariant (sim : Simulates M N image R) {I : List β → τ → Prop} {J : List α → σ → Prop}
    (always : ∀ k t, N.run k = some t → I k t)
    (seen : ∀ h s t, R s t → I (h.flatMap image) t → J h s)
    {h : List α} {s : σ} (hr : M.run h = some s) : J h s := by
  obtain ⟨t, ht, related⟩ := sim.run hr
  exact seen h s t related (always _ t ht)

end Simulates

end Runs
