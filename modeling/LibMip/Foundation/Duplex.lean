import LibMip.Foundation.Runs

/-!
# A client and a server joined by two ordered links

The client's calls put orders on one link, the server serves them first in first out and puts
its replies on the other, and the client receives the replies first in first out. A step is a
call, the service of the oldest order or the receipt of the oldest reply, so a run is an
arbitrary interleaving of the three.

`settledServer` and `settledClient` say what the two sides become once nothing is in flight.
They do not depend on how service and receipt are interleaved (`settled_runFrom`), and a state
whose client is settled does reach such a point (`exists_drain`).
-/

namespace Duplex

open Runs

/-- A call or a receipt may be impossible for the client; the server takes every order. -/
structure System (κ γ ρ α β : Type*) where
  call : γ → κ → Option (γ × List α)
  serve : ρ → α → ρ × List β
  receive : γ → β → Option γ

structure State (γ ρ α β : Type*) where
  client : γ
  orders : List α
  server : ρ
  replies : List β
  deriving DecidableEq

inductive Act (κ : Type*) where
  | call (c : κ)
  | serve
  | receive
  deriving DecidableEq

/-- Progress of the messages in flight, as opposed to a new call. -/
def Act.IsDelivery {κ : Type*} : Act κ → Prop
  | .call _ => False
  | .serve | .receive => True

variable {κ γ ρ α β : Type*}

def State.Quiescent (s : State γ ρ α β) : Prop := s.orders = [] ∧ s.replies = []

/-- Serve the orders in turn, collecting the replies. -/
def serveAll (serve : ρ → α → ρ × List β) : ρ → List α → ρ × List β
  | r, [] => (r, [])
  | r, o :: os =>
    let here := serve r o
    let rest := serveAll serve here.1 os
    (rest.1, here.2 ++ rest.2)

theorem serveAll_append (serve : ρ → α → ρ × List β) (r : ρ) (os ps : List α) :
    serveAll serve r (os ++ ps) =
      ((serveAll serve (serveAll serve r os).1 ps).1,
        (serveAll serve r os).2 ++ (serveAll serve (serveAll serve r os).1 ps).2) := by
  induction os generalizing r with
  | nil => simp [serveAll]
  | cons o os ih => simp [serveAll, ih]

namespace System

variable (D : System κ γ ρ α β)

def step (s : State γ ρ α β) : Act κ → Option (State γ ρ α β)
  | .call c => (D.call s.client c).map fun r =>
      { s with client := r.1, orders := s.orders ++ r.2 }
  | .serve =>
    match s.orders with
    | [] => none
    | o :: os =>
      let r := D.serve s.server o
      some { s with orders := os, server := r.1, replies := s.replies ++ r.2 }
  | .receive =>
    match s.replies with
    | [] => none
    | b :: bs => (D.receive s.client b).map fun c => { s with client := c, replies := bs }

def machine (init : State γ ρ α β) : Machine (State γ ρ α β) (Act κ) := ⟨init, D.step⟩

def receiveAll : γ → List β → Option γ
  | c, [] => some c
  | c, b :: bs => (D.receive c b).bind fun c' => receiveAll c' bs

/-- The server once it has served everything in flight. -/
def settledServer (s : State γ ρ α β) : ρ := (serveAll D.serve s.server s.orders).1

/-- Every reply the client has yet to receive, those of the orders in flight included. -/
def pending (s : State γ ρ α β) : List β := s.replies ++ (serveAll D.serve s.server s.orders).2

/-- The client once it has received everything in flight. -/
def settledClient (s : State γ ρ α β) : Option γ := D.receiveAll s.client (D.pending s)

/-! ## One step -/

theorem step_call {s t : State γ ρ α β} {c : κ} (h : D.step s (.call c) = some t) :
    ∃ g os, D.call s.client c = some (g, os) ∧
      t = { s with client := g, orders := s.orders ++ os } := by
  obtain ⟨⟨g, os⟩, hc, rfl⟩ := Option.map_eq_some_iff.mp h
  exact ⟨g, os, hc, rfl⟩

theorem step_serve {s t : State γ ρ α β} (h : D.step s .serve = some t) :
    ∃ o os, s.orders = o :: os ∧
      t = { s with orders := os, server := (D.serve s.server o).1,
                   replies := s.replies ++ (D.serve s.server o).2 } := by
  obtain ⟨c, orders, r, bs⟩ := s
  cases orders with
  | nil => simp [step] at h
  | cons o os => exact ⟨o, os, rfl, (Option.some.inj h).symm⟩

theorem step_receive {s t : State γ ρ α β} (h : D.step s .receive = some t) :
    ∃ b bs c, s.replies = b :: bs ∧ D.receive s.client b = some c ∧
      t = { s with client := c, replies := bs } := by
  obtain ⟨g, os, r, replies⟩ := s
  cases replies with
  | nil => simp [step] at h
  | cons b bs =>
    obtain ⟨c, hc, rfl⟩ := Option.map_eq_some_iff.mp h
    exact ⟨b, bs, c, rfl, hc, rfl⟩

/-- A call settles the server as if its orders were served after all those in flight. -/
theorem settledServer_call {s t : State γ ρ α β} {c : κ} {g : γ} {os : List α}
    (hc : D.call s.client c = some (g, os)) (h : D.step s (.call c) = some t) :
    D.settledServer t = (serveAll D.serve (D.settledServer s) os).1 := by
  obtain ⟨g', os', hc', rfl⟩ := D.step_call h
  obtain ⟨rfl, rfl⟩ : g' = g ∧ os' = os := by simpa [hc'] using hc
  simp [settledServer, serveAll_append]

/-- A delivery changes what neither side settles to. -/
theorem settled_step {s t : State γ ρ α β} {a : Act κ} (ha : a.IsDelivery)
    (h : D.step s a = some t) :
    D.settledServer t = D.settledServer s ∧ D.settledClient t = D.settledClient s := by
  cases a with
  | call c => exact ha.elim
  | serve =>
    obtain ⟨o, os, ho, rfl⟩ := D.step_serve h
    simp [settledServer, settledClient, pending, ho, serveAll]
  | receive =>
    obtain ⟨b, bs, c, hb, hc, rfl⟩ := D.step_receive h
    simp [settledServer, settledClient, pending, hb, receiveAll, hc]

/-! ## Runs of deliveries -/

/-- Whatever the order of service and receipt, both sides settle to the same states. -/
theorem settled_runFrom (i : State γ ρ α β) {s t : State γ ρ α β} {d : List (Act κ)}
    (hd : ∀ a ∈ d, a.IsDelivery) (h : (D.machine i).runFrom s d = some t) :
    D.settledServer t = D.settledServer s ∧ D.settledClient t = D.settledClient s := by
  induction d generalizing s with
  | nil =>
    obtain rfl : s = t := by simpa using h
    exact ⟨rfl, rfl⟩
  | cons a d ih =>
    obtain ⟨u, hu, ht⟩ := Option.bind_eq_some_iff.mp h
    obtain ⟨server, client⟩ := ih (fun b hb => hd b (List.mem_cons_of_mem a hb)) ht
    obtain ⟨server', client'⟩ := D.settled_step (hd a List.mem_cons_self) hu
    exact ⟨server.trans server', client.trans client'⟩

theorem settled_of_quiescent {s : State γ ρ α β} (h : s.Quiescent) :
    D.settledServer s = s.server ∧ D.settledClient s = some s.client := by
  simp [settledServer, settledClient, pending, h.1, h.2, serveAll, receiveAll]

/-- Serving everything in flight is possible from any state. -/
theorem exists_serves (i s : State γ ρ α β) :
    ∃ d : List (Act κ), (∀ a ∈ d, a.IsDelivery) ∧
      (D.machine i).runFrom s d =
        some ⟨s.client, [], D.settledServer s, D.pending s⟩ := by
  obtain ⟨c, os, r, bs⟩ := s
  induction os generalizing r bs with
  | nil => exact ⟨[], by simp, by simp [settledServer, pending, serveAll]⟩
  | cons o os ih =>
    obtain ⟨d, hd, hr⟩ := ih (D.serve r o).1 (bs ++ (D.serve r o).2)
    refine ⟨.serve :: d, by simpa [Act.IsDelivery] using hd, ?_⟩
    simpa [machine, step, settledServer, pending, serveAll, List.append_assoc] using hr

/-- Receiving everything in flight is possible when no receipt is refused. -/
theorem exists_receives (i s : State γ ρ α β) {c : γ}
    (hc : D.receiveAll s.client s.replies = some c) :
    ∃ d : List (Act κ), (∀ a ∈ d, a.IsDelivery) ∧
      (D.machine i).runFrom s d = some { s with client := c, replies := [] } := by
  obtain ⟨g, os, r, bs⟩ := s
  induction bs generalizing g with
  | nil => exact ⟨[], by simp, by simpa [receiveAll] using hc⟩
  | cons b bs ih =>
    obtain ⟨g', hg, hc⟩ := Option.bind_eq_some_iff.mp hc
    obtain ⟨d, hd, hr⟩ := ih g' hc
    refine ⟨.receive :: d, by simpa [Act.IsDelivery] using hd, ?_⟩
    simpa [machine, step, hg] using hr

/-- A state whose client settles reaches, by deliveries alone, a state with nothing in flight. -/
theorem exists_drain (i : State γ ρ α β) {s : State γ ρ α β} {c : γ}
    (hc : D.settledClient s = some c) :
    ∃ d : List (Act κ), (∀ a ∈ d, a.IsDelivery) ∧
      (D.machine i).runFrom s d = some ⟨c, [], D.settledServer s, []⟩ := by
  obtain ⟨d, hd, hs⟩ := D.exists_serves i s
  obtain ⟨e, he, hr⟩ := D.exists_receives i ⟨s.client, [], D.settledServer s, D.pending s⟩ hc
  refine ⟨d ++ e, fun a ha => (List.mem_append.mp ha).elim (hd a) (he a), ?_⟩
  rw [Machine.runFrom_append, hs]
  exact hr

end System

end Duplex
