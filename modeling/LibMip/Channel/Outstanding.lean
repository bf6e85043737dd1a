import LibMip.Channel.Ledger

/-!
# The request that is out

The protocol allows one request at a time. The sender keeps to it by writing only the head of the
queue and only once, and the timer runs exactly as long as that head waits for its response. The
exception is a request sent with an identifier of its own, which goes to the front: in front of a
request that is out, it is written as well, and the response to the older one is taken for its.
-/

namespace LibMip.Channel

variable {κ : Type*}

namespace Sender

variable (s : Sender κ)

/-- The request at the head, when it was sent. -/
def outstanding : Option (Command κ) := s.requests.head?.filter (·.sent)

/-- No request but the first was sent, the timer runs while that one waits, and a stale channel
has no requests. -/
structure Orderly : Prop where
  first : ∀ c ∈ s.requests.tail, c.sent = false
  timer : s.ticking = s.outstanding.isSome
  watch : s.stale = false → s.timeoutWatch = s.ticking
  stale : s.stale = true → s.requests = []

/-- A request is queued in front of one that is out. -/
def Overtakes : Op κ → Prop
  | .send id pdu _ _ _ => id ≠ 0 ∧ isResponse (pdu.headD 0) = false ∧ s.stale = false ∧
      s.outstanding.isSome
  | _ => False

variable {s}

theorem outstanding_eq_none_iff :
    s.outstanding = none ↔ ∀ c ∈ s.requests.head?, c.sent = false := by
  unfold outstanding
  cases s.requests <;> simp

theorem outstanding_of_cons {c : Command κ} {q : List (Command κ)} (head : s.requests = c :: q) :
    s.outstanding.isSome = c.sent := by
  cases h : c.sent <;> simp [outstanding, head, h]

/-- With nothing out, none of the requests was sent. -/
theorem Orderly.unsent (h : s.Orderly) (none : s.outstanding = none) :
    ∀ c ∈ s.requests, c.sent = false := by
  intro c hc
  cases head : s.requests with
  | nil => simp [head] at hc
  | cons d q =>
    have unsent : d.sent = false := by rw [← outstanding_of_cons head, none, Option.isSome_none]
    rcases List.mem_cons.mp (head ▸ hc) with rfl | hc
    · exact unsent
    · exact h.first c (by simpa [head] using hc)

end Sender

open Sender

/-- A command that lost its `func`. -/
def Command.silenced (c : Command κ) : Command κ := { c with func := false }

/-- Cancelling in a queue of which only the head may have been sent leaves one of that kind, with
the same head out, though perhaps silenced. -/
theorem cancelPerQueue_outstanding {id : UInt32} {q q' : List (Command κ)}
    {out : List (Effect κ)} (h : Attrib.cancelPerQueue id q = some (q', out))
    (first : ∀ c ∈ q.tail, c.sent = false) :
    (∀ c ∈ q'.tail, c.sent = false) ∧
      (q'.head?.filter (·.sent) = q.head?.filter (·.sent) ∨
        q'.head?.filter (·.sent) = (q.head?.filter (·.sent)).map Command.silenced) := by
  rcases Attrib.cancelPerQueue_some h with
    ⟨d, l, rfl, sent, rfl, -⟩ | ⟨l₁, d, l₂, rfl, rfl, -, unsent⟩
  · exact ⟨first, .inr (by simp [Option.filter, sent, Command.silenced])⟩
  · cases l₁ with
    | nil =>
      have rest : ∀ c ∈ l₂, c.sent = false := by simpa using first
      refine ⟨fun c hc => rest c (List.mem_of_mem_tail hc), .inl ?_⟩
      cases l₂ with
      | nil => simp [Option.filter, unsent rfl]
      | cons e l₂ => simp [Option.filter, unsent rfl, rest e List.mem_cons_self]
    | cons e l₁ => exact ⟨fun c hc => first c (by grind), .inl rfl⟩

theorem cancelAllPerQueue_outstanding {q : List (Command κ)}
    (first : ∀ c ∈ q.tail, c.sent = false) :
    (∀ c ∈ (Attrib.cancelAllPerQueue q).1.tail, c.sent = false) ∧
      (Attrib.cancelAllPerQueue q).1.head?.filter (·.sent) =
        (q.head?.filter (·.sent)).map Command.silenced := by
  rw [Attrib.cancelAllPerQueue_eq]
  cases q with
  | nil => simp
  | cons c q =>
    cases sent : c.sent with
    | false => simp [Option.filter, sent]
    | true =>
      have rest : q.takeWhile (·.sent) = [] := by
        cases q with
        | nil => rfl
        | cons d q => simp [first d (by simp)]
      simp [Option.filter, sent, rest, Command.silenced]

/-- What a step leaves of the watch and of a stale channel: the watch stands for the timer until
that has run out, and then no request is queued. -/
theorem Next.watched {s t : Sender κ} {op : Op κ} {out : List (Effect κ)} (h : Next s op t out)
    (watch : s.stale = false → s.timeoutWatch = s.ticking)
    (stale : s.stale = true → s.requests = []) :
    (t.stale = false → t.timeoutWatch = t.ticking) ∧ (t.stale = true → t.requests = []) := by
  have never {p : Prop} (fresh : s.stale = false) (stale : s.stale = true) : p :=
    absurd (fresh.symm.trans stale) (by simp)
  induction h with
  | idle | sleep | wake | pushResponse | cancelResponse | writeResponse => exact ⟨watch, stale⟩
  | pushRequest fresh | writeCommand _ fresh => exact ⟨watch, never fresh⟩
  | cancelRequest found =>
    refine ⟨watch, fun old => ?_⟩
    rw [stale old] at found
    cases found
  | cancelAll =>
    refine ⟨watch, fun old => ?_⟩
    simp [stale old, Attrib.cancelAllPerQueue, Attrib.cancelAllLoop]
  | writeRequest _ fresh => exact ⟨fun _ => by simp [watch fresh], never fresh⟩
  | unasked fresh | answer fresh => exact ⟨fun _ => rfl, never fresh⟩
  | timeout => exact ⟨by simp, fun _ => rfl⟩
  | free => exact ⟨fun _ => rfl, fun _ => rfl⟩

theorem Next.orderly {s t : Sender κ} {op : Op κ} {out : List (Effect κ)} (h : Next s op t out)
    (orderly : s.Orderly) (inTurn : ¬ s.Overtakes op) : t.Orderly := by
  obtain ⟨watch, stale⟩ := h.watched orderly.watch orderly.stale
  suffices parts : (∀ c ∈ t.requests.tail, c.sent = false) ∧ t.ticking = t.outstanding.isSome from
    ⟨parts.1, parts.2, watch, stale⟩
  clear watch stale
  induction h with
  | idle | sleep | wake fresh => exact ⟨orderly.first, orderly.timer⟩
  | pushResponse | cancelResponse | writeResponse => exact ⟨orderly.first, orderly.timer⟩
  | @pushRequest id pdu func u n count fresh req counts =>
    have unsent : (Command.new id count pdu func u n).sent = false := rfl
    have none (given : id ≠ 0) : s.outstanding = none := by
      by_contra out
      exact inTurn ⟨given, req, fresh, Option.ne_none_iff_isSome.mp out⟩
    constructor
    · by_cases given : id ≠ 0
      · simpa [given] using orderly.unsent (none given)
      · simp only [given, if_false]
        cases head : s.requests with
        | nil => simp
        | cons d q =>
          have rest := orderly.first
          rw [head] at rest
          intro c hc
          rcases List.mem_append.mp hc with hc | hc
          · exact rest c hc
          · rw [List.mem_singleton.mp hc, unsent]
    · rw [orderly.timer]
      by_cases given : id ≠ 0
      · rw [none given]
        simp [outstanding, given, unsent]
      · simp only [outstanding, given, if_false]
        cases s.requests <;> simp [unsent]
  | cancelRequest found =>
    obtain ⟨first, same⟩ := cancelPerQueue_outstanding found orderly.first
    refine ⟨first, ?_⟩
    rcases same with same | same <;> simp [outstanding, same, orderly.timer]
  | cancelAll =>
    obtain ⟨first, same⟩ := cancelAllPerQueue_outstanding orderly.first
    exact ⟨first, by simp [outstanding, same, orderly.timer]⟩
  | @writeCommand c q awake fresh noResponse head unsent expects =>
    have none : s.outstanding = none := by simpa [unsent] using outstanding_of_cons head
    have rest : ∀ d ∈ q, d.sent = false :=
      fun d hd => orderly.unsent none d (head ▸ List.mem_cons_of_mem _ hd)
    refine ⟨fun d hd => rest d (List.mem_of_mem_tail hd), ?_⟩
    rw [orderly.timer, none]
    cases q with
    | nil => rfl
    | cons d q => simp [outstanding, rest d List.mem_cons_self]
  | @writeRequest c q awake fresh noResponse head unsent expects =>
    refine ⟨by simpa [head] using orderly.first, ?_⟩
    simp [outstanding, orderly.watch fresh]
  | unasked fresh resp empty quiet => exact ⟨by simp [empty], by simp [outstanding, empty]⟩
  | @answer bytes c q out fresh resp head quiet =>
    have rest : ∀ d ∈ q, d.sent = false := by simpa [head] using orderly.first
    refine ⟨fun d hd => rest d (List.mem_of_mem_tail hd), ?_⟩
    cases q with
    | nil => rfl
    | cons d q => simp [outstanding, rest d List.mem_cons_self]
  | timeout => exact ⟨by simp, rfl⟩
  | free => exact ⟨by simp [destroyed], rfl⟩

/-- A request queued in front of one that is out leaves that one behind the head. -/
theorem Next.not_orderly {s t : Sender κ} {op : Op κ} {out : List (Effect κ)}
    (h : Next s op t out) (overtakes : s.Overtakes op) : ¬ t.Orderly := by
  cases h with
  | idle may => cases op with
    | send => exact absurd (overtakes.2.2.1.symm.trans may) (by simp)
    | _ => exact overtakes.elim
  | pushResponse fresh resp => exact absurd (resp.symm.trans overtakes.2.1) (by simp)
  | pushRequest fresh req =>
    intro orderly
    obtain ⟨given, -, -, out⟩ := overtakes
    cases head : s.requests with
    | nil => simp [outstanding, head] at out
    | cons c q =>
      have unsent := orderly.first c (by simp [given, head])
      rw [outstanding_of_cons head, unsent] at out
      cases out
  | free before drops => cases op <;> first | exact drops.elim | exact overtakes.elim
  | _ => exact overtakes.elim

/-! ## Runs -/

variable {attCid : Bool} {imtu : Nat} {h : List (Op κ)} {a : Attrib κ} {log : List (Effect κ)}

theorem orderly_initial : (gAttribNew attCid imtu : Attrib κ).toSender.Orderly :=
  ⟨by simp [gAttribNew], rfl, fun _ => rfl, fun _ => rfl⟩

/-- Of what makes a channel orderly, the watch and the queue of a stale channel are so in every
run. -/
theorem watched_run (hr : (channel attCid imtu).machine.run h = some (a, log)) :
    (a.stale = false → a.timeoutWatch = a.ticking) ∧ (a.stale = true → a.requests = []) :=
  sender_invariant (P := fun _ _ => True)
    (I := fun _ s _ => (s.stale = false → s.timeoutWatch = s.ticking) ∧
      (s.stale = true → s.requests = []))
    ⟨orderly_initial.watch, orderly_initial.stale⟩
    (fun _ _ _ _ _ _ _ _ _ inv _ next => next.watched inv.1 inv.2)
    (fun _ _ _ _ _ => trivial) hr

/-- At every point of a run only the first request may be out, and the timer runs exactly while
it is, if and only if no step of the run queues a request in front of one that is out. -/
theorem orderly_iff (hr : (channel attCid imtu).machine.run h = some (a, log)) :
    (∀ p b l, p <+: h → (channel attCid imtu).machine.run p = some (b, l) →
        (b : Attrib κ).toSender.Orderly) ↔
      (channel attCid imtu).machine.EveryStep
        (fun _ (a : Attrib κ × List (Effect κ)) op => ¬ a.1.toSender.Overtakes op) h :=
  sender_always_iff hr orderly_initial
    (fun _ _ _ _ _ next orderly inTurn => next.orderly orderly inTurn)
    (fun _ _ _ _ _ next overtakes => next.not_orderly overtakes)

/-- A request that is sent. -/
theorem orderly_iff_request :
    (∀ p b l, p <+: [.send 0 [0x0A] true () false, .canWrite false true] →
        (channel true 23).machine.run p = some (b, l) → (b : Attrib Unit).toSender.Orderly) ↔
      (channel true 23).machine.EveryStep
        (fun _ (a : Attrib Unit × List (Effect Unit)) op => ¬ a.1.toSender.Overtakes op)
        [.send 0 [0x0A] true () false, .canWrite false true] :=
  orderly_iff rfl

end LibMip.Channel
