import LibMip.Foundation.Duplex

/-!
# Exactly-once delivery over two ordered links

`issued` lists the orders the calls of a run produced and `received` the replies its receipts
consumed. In every run the orders issued are those served followed by those in flight, and the
replies of the orders served are those received followed by those in flight: nothing is lost,
repeated or overtaken on either link (`delivered_run`).
-/

namespace Duplex

open Runs

variable {κ γ ρ α β : Type*}

namespace System

variable (D : System κ γ ρ α β)

/-- The orders one action issues. -/
def issues (s : State γ ρ α β) : Act κ → List α
  | .call c => ((D.call s.client c).map Prod.snd).getD []
  | .serve | .receive => []

/-- The replies one action receives. -/
def receives (s : State γ ρ α β) : Act κ → List β
  | .receive => s.replies.head?.toList
  | .call _ | .serve => []

/-- The orders issued along a run. -/
def issued (s : State γ ρ α β) : List (Act κ) → List α
  | [] => []
  | a :: h => D.issues s a ++ ((D.step s a).map fun t => issued t h).getD []

/-- The replies received along a run. -/
def received (s : State γ ρ α β) : List (Act κ) → List β
  | [] => []
  | a :: h => receives s a ++ ((D.step s a).map fun t => received t h).getD []

/-- The orders issued are those served and those in flight; the replies to those served are those
received and those in flight. -/
def Delivered (r : ρ) (issued : List α) (received : List β) (s : State γ ρ α β) : Prop :=
  ∃ served, issued = served ++ s.orders ∧ s.server = (serveAll D.serve r served).1 ∧
    (serveAll D.serve r served).2 = received ++ s.replies

variable {D}

theorem Delivered.step {r : ρ} {os : List α} {bs : List β} {s t : State γ ρ α β} {a : Act κ}
    (d : D.Delivered r os bs s) (h : D.step s a = some t) :
    D.Delivered r (os ++ D.issues s a) (bs ++ receives s a) t := by
  obtain ⟨served, rfl, server, replies⟩ := d
  cases a with
  | call c =>
    obtain ⟨g, new, hc, rfl⟩ := D.step_call h
    exact ⟨served, by simp [issues, hc], server, by simpa [receives] using replies⟩
  | serve =>
    obtain ⟨o, rest, ho, rfl⟩ := D.step_serve h
    refine ⟨served ++ [o], by simp [issues, ho], ?_, ?_⟩
    · simp [serveAll_append, serveAll, server]
    · simp [serveAll_append, serveAll, server, receives, ← List.append_assoc, replies]
  | receive =>
    obtain ⟨b, rest, c, hb, -, rfl⟩ := D.step_receive h
    exact ⟨served, by simp [issues], server, by simpa [receives, hb] using replies⟩

theorem Delivered.runFrom {i : State γ ρ α β} {r : ρ} {os : List α} {bs : List β}
    {s t : State γ ρ α β} {h : List (Act κ)} (d : D.Delivered r os bs s)
    (hr : (D.machine i).runFrom s h = some t) :
    D.Delivered r (os ++ D.issued s h) (bs ++ D.received s h) t := by
  induction h generalizing s os bs with
  | nil =>
    obtain rfl : s = t := by simpa using hr
    simpa [issued, received] using d
  | cons a h ih =>
    obtain ⟨u, hu, hr⟩ := Option.bind_eq_some_iff.mp hr
    have hu : D.step s a = some u := hu
    have rest := ih (d.step hu) hr
    simpa [issued, received, hu, List.append_assoc] using rest

/-- From a state with nothing in flight. -/
theorem delivered_run {g : γ} {r : ρ} {h : List (Act κ)} {t : State γ ρ α β}
    (hr : (D.machine ⟨g, [], r, []⟩).run h = some t) :
    D.Delivered r (D.issued ⟨g, [], r, []⟩ h) (D.received ⟨g, [], r, []⟩ h) t := by
  have none : D.Delivered r [] [] (⟨g, [], r, []⟩ : State γ ρ α β) := ⟨[], rfl, rfl, rfl⟩
  simpa using none.runFrom hr

end System

end Duplex
