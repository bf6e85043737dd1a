import LibMip.Channel.Outstanding

/-!
# Waking the sender

The watch that writes is on only while it is needed: `g_attrib_send` turns it on when a queue
stops being empty, `received_data` after the answer to a request or a failed read. Two steps
forget a command that could be written: a failed write, which turns the watch off with the
command still queued, and a request queued in front of one that is out. After a failed write
nothing that is sent behind the command still queued turns it on again, although each call of
`g_attrib_send` returns the number of a command.
-/

namespace LibMip.Channel

open Sender

variable {κ : Type*}

namespace Sender

/-- There is a command to write. -/
def Writable (s : Sender κ) : Prop :=
  s.stale = false ∧ (s.responses ≠ [] ∨ ∃ c ∈ s.requests.head?, c.sent = false)

/-- The watch is on whenever there is a command to write. -/
def Awake (s : Sender κ) : Prop := s.Writable → s.writeWatch = true

/-- The step leaves a command to write behind with the watch off: the write failed, or a request
went in front of one that is out while the watch was off. -/
def Forgets (s : Sender κ) : Op κ → Prop
  | .canWrite hup written => s.Writable ∧ (hup = true ∨ written = false)
  | .send id pdu func u n => s.Overtakes (.send id pdu func u n) ∧ s.writeWatch = false
  | _ => False

end Sender

/-- A cancellation gives the sender nothing new to write. -/
theorem cancelPerQueue_head {id : UInt32} {q q' : List (Command κ)} {out : List (Effect κ)}
    (h : Attrib.cancelPerQueue id q = some (q', out)) :
    (∃ c ∈ q'.head?, c.sent = false) → ∃ c ∈ q.head?, c.sent = false := by
  rcases Attrib.cancelPerQueue_some h with
    ⟨d, l, rfl, sent, rfl, -⟩ | ⟨l₁, d, l₂, rfl, rfl, -, unsent⟩
  · simp [sent]
  · cases l₁ with
    | nil => exact fun _ => ⟨d, rfl, unsent rfl⟩
    | cons e l₁ => exact fun first => first

theorem cancelPerQueue_ne_nil {id : UInt32} {q q' : List (Command κ)} {out : List (Effect κ)}
    (h : Attrib.cancelPerQueue id q = some (q', out)) : q ≠ [] := by
  rintro rfl
  cases h

/-- Cancelling everything leaves nothing to write. -/
theorem cancelAllPerQueue_head (q : List (Command κ)) :
    ∀ c ∈ (Attrib.cancelAllPerQueue q).1, c.sent = true := by
  intro c hc
  rw [Attrib.cancelAllPerQueue_eq, Option.mem_toList, Option.map_eq_some_iff] at hc
  obtain ⟨d, hd, rfl⟩ := hc
  have sent := List.mem_takeWhile_imp (List.mem_of_getLast? hd)
  exact sent

theorem Next.awake {s t : Sender κ} {op : Op κ} {out : List (Effect κ)} (h : Next s op t out)
    (awake : s.Awake) (recalls : ¬ s.Forgets op) (alive : t.freed = false) :
    t.Awake := by
  cases h with
  | idle | unasked => exact awake
  | pushResponse fresh resp counts =>
    rintro -
    cases queue : s.responses with
    | nil => simp
    | cons c q => simp [awake ⟨fresh, .inl (by simp [queue])⟩]
  | @pushRequest id pdu func u n count fresh req counts =>
    rintro ⟨-, some | first⟩
    · simp [awake ⟨fresh, .inl some⟩]
    · cases queue : s.requests with
      | nil => simp
      | cons c q =>
        have head : c.sent = false → s.writeWatch = true :=
          fun unsent => awake ⟨fresh, .inr ⟨c, by simp [queue], unsent⟩⟩
        by_cases given : id ≠ 0
        · by_contra off
          have off : s.writeWatch = false := by simpa using off
          have sent : c.sent = true := by
            by_contra unsent
            simp [head (by simpa using unsent)] at off
          exact recalls ⟨⟨given, req, fresh, by rw [outstanding_of_cons queue, sent]⟩, off⟩
        · obtain ⟨d, hd, unsent⟩ := first
          rw [if_neg given, queue] at hd
          obtain rfl : c = d := by simpa using hd
          simp [head unsent]
  | cancelRequest found =>
    rintro ⟨fresh, some | first⟩
    · exact awake ⟨fresh, .inl some⟩
    · exact awake ⟨fresh, .inr (cancelPerQueue_head found first)⟩
  | cancelResponse _ found =>
    rintro ⟨fresh, -⟩
    exact awake ⟨fresh, .inl (cancelPerQueue_ne_nil found)⟩
  | cancelAll =>
    rintro ⟨fresh, some | ⟨c, hc, unsent⟩⟩
    · refine awake ⟨fresh, .inl fun none => some ?_⟩
      simp [none, Attrib.cancelAllPerQueue, Attrib.cancelAllLoop]
    · have sent := cancelAllPerQueue_head s.requests c (List.mem_of_head? hc)
      exact absurd (sent.symm.trans unsent) (by simp)
  | sleep on silent =>
    rintro ⟨fresh, waits⟩
    rcases silent with stale | closed | failed | ⟨noResponse, sent⟩
    · exact absurd (fresh.symm.trans stale) (by simp)
    · exact (recalls ⟨⟨fresh, waits⟩, .inl closed⟩).elim
    · exact (recalls ⟨⟨fresh, waits⟩, .inr failed⟩).elim
    · rcases waits with some | ⟨c, hc, unsent⟩
      · exact absurd noResponse some
      · exact absurd ((sent c hc).symm.trans unsent) (by simp)
  | writeResponse on | writeCommand on => exact fun _ => on
  | writeRequest on fresh noResponse head unsent expects =>
    rintro ⟨-, some | ⟨c, hc, unsent⟩⟩
    · exact absurd noResponse some
    · obtain rfl := Option.some.inj hc
      cases unsent
  | wake fresh =>
    rintro ⟨-, waits⟩
    have queued : s.queued.isEmpty = false := by
      rcases waits with some | ⟨c, hc, -⟩
      · simp [queued, some]
      · cases head : s.requests <;> simp [queued, head] at hc ⊢
    simp [queued]
  | answer fresh resp head quiet =>
    rintro ⟨-, some | ⟨c, hc, -⟩⟩
    · simp [some]
    · have here : _ ∈ _ := List.mem_of_head? hc
      simp [List.ne_nil_of_mem here]
  | timeout => exact fun writable => absurd writable.1 (by simp)
  | free => exact absurd alive (by simp [destroyed])

/-- A step that forgets leaves the watch off with a command to write. -/
theorem Next.not_awake {s t : Sender κ} {op : Op κ} {out : List (Effect κ)} (h : Next s op t out)
    (forgets : s.Forgets op) (alive : t.freed = false) : ¬ t.Awake := by
  cases h with
  | idle may =>
    cases op with
    | send => exact absurd (forgets.1.2.2.1.symm.trans may) (by simp)
    | canWrite => exact may.elim
    | _ => exact forgets.elim
  | pushResponse fresh resp => exact absurd (resp.symm.trans forgets.1.2.1) (by simp)
  | pushRequest fresh req =>
    obtain ⟨⟨given, -, -, out⟩, off⟩ := forgets
    intro awake
    have some : s.requests ≠ [] := by
      intro none
      simp [outstanding, none] at out
    have on := awake ⟨fresh, .inr ⟨_, by rw [if_pos given]; rfl, rfl⟩⟩
    simp [off, some] at on
  | sleep =>
    intro awake
    have on := awake forgets.1
    cases on
  | writeResponse | writeCommand | writeRequest => rcases forgets.2 with h | h <;> cases h
  | free => exact absurd alive (by simp [destroyed])
  | _ => exact forgets.elim

/-! ## While the watch is off -/

/-- The step turns the watch on: a command is put in a queue that is empty, or the read fails, or
a request is answered, with something left in the queues. -/
def Sender.Wakes (s : Sender κ) : Op κ → Prop
  | .send _ pdu _ _ _ =>
    s.stale = false ∧ (if isResponse (pdu.headD 0) then s.responses else s.requests) = []
  | .received hup none => s.stale = false ∧ hup = false ∧ s.queued ≠ []
  | .received hup (some bytes) =>
    s.stale = false ∧ hup = false ∧ isResponse ((bytes.take 512).headD 0) = true ∧
      ∃ c q, s.requests = c :: q ∧ q ++ s.responses ≠ []
  | _ => False

@[simp] def Effect.written : Effect κ → Option (Command κ)
  | .write c => some c
  | _ => none

/-- The commands written in the course of a log. -/
def writes (log : List (Effect κ)) : List (Command κ) := log.filterMap Effect.written

@[simp] theorem writes_nil : writes ([] : List (Effect κ)) = [] := rfl

@[simp] theorem writes_cons (e : Effect κ) (l : List (Effect κ)) :
    writes (e :: l) = e.written.toList ++ writes l := by
  cases e <;> rfl

@[simp] theorem writes_append (l m : List (Effect κ)) : writes (l ++ m) = writes l ++ writes m :=
  List.filterMap_append

theorem quiet_writes {out : List (Effect κ)} (quiet : ∀ e ∈ out, e.Quiet) : writes out = [] := by
  refine List.filterMap_eq_nil_iff.mpr fun e he => ?_
  have here := quiet e he
  cases e <;> first | rfl | exact here.elim

theorem finish_writes (c : Command κ) (status : UInt8) (bytes : List UInt8) :
    writes (Attrib.finish c status bytes) = [] := by
  unfold Attrib.finish
  cases c.func <;> rfl

theorem expire_writes (cs : List (Command κ)) : writes (Attrib.expire cs) = [] := by
  have aborted (cs : List (Command κ)) :
      writes (cs.flatMap fun c => Attrib.finish c attEcodeAborted []) = [] := by
    induction cs with
    | nil => rfl
    | cons c cs ih => rw [List.flatMap_cons, writes_append, finish_writes, ih, List.append_nil]
  cases cs with
  | nil => rfl
  | cons c cs => rw [Attrib.expire, writes_append, finish_writes, aborted, List.append_nil]

theorem destroy_writes (q : List (Command κ)) : writes (q.map .destroy) = [] := by
  induction q with
  | nil => rfl
  | cons c q ih => exact ih

/-- With the watch off nothing is written, and it stays off in a step that does not wake. -/
theorem Next.asleep {s t : Sender κ} {op : Op κ} {out : List (Effect κ)} (h : Next s op t out)
    (off : s.writeWatch = false) (sleeps : ¬ s.Wakes op) :
    t.writeWatch = false ∧ writes out = [] := by
  have asleep {p : Prop} (on : s.writeWatch = true) : p := absurd (off.symm.trans on) (by simp)
  induction h with
  | idle may quiet => exact ⟨off, quiet_writes quiet⟩
  | pushResponse fresh resp =>
    have queued : s.responses ≠ [] := fun none => sleeps ⟨fresh, by rw [if_pos resp, none]⟩
    exact ⟨by simp [off, queued], rfl⟩
  | @pushRequest id pdu func u n count fresh req =>
    have other : ¬ isResponse (pdu.headD 0) = true := by rw [req]; exact Bool.false_ne_true
    have queued : s.requests ≠ [] := fun none => sleeps ⟨fresh, by rw [if_neg other, none]⟩
    exact ⟨by simp [off, queued], rfl⟩
  | cancelRequest found | cancelResponse _ found =>
    rcases Attrib.cancelPerQueue_some found with
      ⟨-, -, -, -, -, rfl⟩ | ⟨-, d, -, -, -, rfl, -⟩ <;> exact ⟨off, rfl⟩
  | cancelAll =>
    refine ⟨off, ?_⟩
    rw [Attrib.cancelAllPerQueue_eq, Attrib.cancelAllPerQueue_eq, writes_append, destroy_writes,
      destroy_writes, List.append_nil]
  | sleep on | writeResponse on | writeCommand on | writeRequest on => exact asleep on
  | wake fresh =>
    have empty : s.queued = [] := by
      by_contra queued
      exact sleeps ⟨fresh, rfl, queued⟩
    exact ⟨by simp [off, empty], rfl⟩
  | unasked _ _ _ quiet => exact ⟨off, quiet_writes quiet⟩
  | @answer bytes c q out fresh resp head quiet =>
    have empty : q ++ s.responses = [] := by
      by_contra queued
      exact sleeps ⟨fresh, rfl, resp, c, q, head, queued⟩
    refine ⟨by simp [off, empty], ?_⟩
    rw [writes_append, quiet_writes quiet, finish_writes, List.append_nil]
  | timeout => exact ⟨off, expire_writes s.requests⟩
  | free before drops quiet ih =>
    refine ⟨rfl, ?_⟩
    rw [writes_append, writes_append, (ih sleeps).2, destroy_writes, quiet_writes quiet]
    rfl

/-- A step that wakes leaves the watch on. -/
theorem Next.awakened {s t : Sender κ} {op : Op κ} {out : List (Effect κ)} (h : Next s op t out)
    (wakes : s.Wakes op) : t.writeWatch = true := by
  cases h with
  | idle may =>
    cases op with
    | send => exact absurd (wakes.1.symm.trans may) (by simp)
    | received hup read =>
      cases read with
      | none =>
        obtain ⟨fresh, rfl, -⟩ := wakes
        simp [Sender.MayIdle, fresh] at may
      | some bytes =>
        obtain ⟨fresh, rfl, resp, -⟩ := wakes
        simp only [Sender.MayIdle, Op.response, resp, fresh] at may
        simp at may
    | _ => exact wakes.elim
  | pushResponse fresh resp =>
    have empty : s.responses = [] := by rw [← wakes.2, if_pos resp]
    simp [empty]
  | pushRequest fresh req =>
    have empty : s.requests = [] := by rw [← wakes.2, req, if_neg Bool.false_ne_true]
    simp [empty]
  | wake => simp [wakes.2.2]
  | unasked _ _ empty =>
    obtain ⟨-, -, -, c, q, head, -⟩ := wakes
    cases empty.symm.trans head
  | @answer bytes c q out fresh resp head =>
    obtain ⟨-, -, -, c', q', head', queued⟩ := wakes
    obtain ⟨-, rfl⟩ := List.cons.inj (head.symm.trans head')
    simp [queued]
  | free before drops => cases op <;> first | exact drops.elim | exact wakes.elim
  | _ => exact wakes.elim

/-- A write that fails turns the watch off. -/
theorem Next.failed {s t : Sender κ} {hup written : Bool} {out : List (Effect κ)}
    (h : Next s (.canWrite hup written) t out) (failed : hup = true ∨ written = false) :
    t.writeWatch = false ∧ writes out = [] := by
  generalize hop : Op.canWrite hup written = op at h
  induction h with
  | idle may => subst hop; exact may.elim
  | sleep => exact ⟨rfl, rfl⟩
  | writeResponse | writeCommand | writeRequest =>
    cases hop
    rcases failed with h | h <;> cases h
  | free before drops quiet ih =>
    refine ⟨rfl, ?_⟩
    rw [writes_append, writes_append, (ih hop).2, destroy_writes, quiet_writes quiet]
    rfl
  | _ => cases hop

/-! ## Runs -/

variable {attCid : Bool} {imtu : Nat} {h : List (Op κ)} {a : Attrib κ} {log : List (Effect κ)}

/-- In a run that does not free the channel, the watch is on at every point where there is a
command to write, if and only if no step of the run forgets one. -/
theorem awake_iff (hr : (channel attCid imtu).machine.run h = some (a, log))
    (alive : a.freed = false) :
    (∀ p b l, p <+: h → (channel attCid imtu).machine.run p = some (b, l) →
        (b : Attrib κ).toSender.Awake) ↔
      (channel attCid imtu).machine.EveryStep
        (fun _ (a : Attrib κ × List (Effect κ)) op => ¬ a.1.toSender.Forgets op) h := by
  refine sender_always_iff hr ?_
    (fun _ _ _ _ live next awake recalls => next.awake awake recalls (live alive))
    (fun _ _ _ _ live next forgets => next.not_awake forgets (live alive))
  rintro ⟨-, some | ⟨c, hc, -⟩⟩
  · exact absurd rfl some
  · cases hc

/-- A command that is queued. -/
theorem awake_iff_command :
    (∀ p b l, p <+: [.send 0 [0x52] false () false] →
        (channel true 23).machine.run p = some (b, l) → (b : Attrib Unit).toSender.Awake) ↔
      (channel true 23).machine.EveryStep
        (fun _ (a : Attrib Unit × List (Effect Unit)) op => ¬ a.1.toSender.Forgets op)
        [.send 0 [0x52] false () false] :=
  awake_iff rfl rfl

/-- After a write that failed, whatever the client or the radio does, the watch stays off and no
command at all is written as long as, and only as long as, no step wakes: sending is such a step
only where its queue is empty, so what is sent behind the command that failed waits with it. -/
theorem silent_after_failed_write {hup written : Bool} {k : List (Op κ)} {b : Attrib κ}
    {s : Attrib κ × List (Effect κ)} {log' : List (Effect κ)}
    (hr : (channel attCid imtu).machine.run h = some (a, log))
    (failed : hup = true ∨ written = false)
    (hs : (channel attCid imtu).machine.step (a, log) (.canWrite hup written) = some s)
    (hk : ((channel attCid imtu).machine.after s).run k = some (b, log')) :
    (∀ p c, p <+: k → ((channel attCid imtu).machine.after s).run p = some c →
        c.1.writeWatch = false ∧ writes c.2 = writes log) ↔
      ((channel attCid imtu).machine.after s).EveryStep
        (fun _ (c : Attrib κ × List (Effect κ)) op => ¬ c.1.toSender.Wakes op) k := by
  have typed {p : List (Op κ)} {c : Attrib κ} {l : List (Effect κ)}
      (hp : ((channel attCid imtu).machine.after s).run p = some (c, l)) : c.toSender.Typed := by
    have whole : (channel attCid imtu).machine.run (h ++ .canWrite hup written :: p) =
        some (c, l) := by
      rw [Runs.Machine.run_append, hr, Option.bind_some, Runs.Machine.runFrom_cons, hs,
        Option.bind_some, ← hp, Runs.Machine.run_after]
    exact typed_run whole
  refine Runs.Machine.always_iff (M := (channel attCid imtu).machine.after s)
    (I := fun c => c.1.writeWatch = false ∧ writes c.2 = writes log)
    (B := fun c op => c.1.toSender.Wakes op) hk ?_ ?_ ?_
  · obtain ⟨c, l⟩ := s
    obtain ⟨out, step, rfl⟩ := Runs.Transducer.step_eq_some hs
    obtain ⟨off, quiet⟩ := (Attrib.step_next (typed_run hr) step).failed failed
    refine ⟨off, ?_⟩
    change writes (log ++ out) = writes log
    rw [writes_append, quiet, List.append_nil]
  · rintro p op ⟨c, l⟩ ⟨d, m⟩ - hp next ⟨off, silent⟩ sleeps
    obtain ⟨out, step, rfl⟩ := Runs.Transducer.step_eq_some next
    obtain ⟨off, quiet⟩ := (Attrib.step_next (typed hp) step).asleep off sleeps
    exact ⟨off, by rw [writes_append, quiet, List.append_nil, silent]⟩
  · rintro p op ⟨c, l⟩ ⟨d, m⟩ - hp next wakes ⟨off, -⟩
    obtain ⟨out, step, rfl⟩ := Runs.Transducer.step_eq_some next
    have on := (Attrib.step_next (typed hp) step).awakened wakes
    exact absurd (off.symm.trans on) (by simp)

/-- Two commands, of which the first cannot be written. -/
theorem silent_after_failed_write_command :
    (∀ p c, p <+: [.send 0 [0x52] false () false] →
        ((channel true 23).machine.after
          (⟨⟨false, false, false, [.new 0 1 [0x52] false () false], [], 1, false, false⟩, 1, 23,
            true, [], 0⟩, [.push (.new 0 1 [0x52] false () false)])).run p = some c →
        (c.1 : Attrib Unit).writeWatch = false ∧
          writes c.2 = writes [.push (.new 0 1 [0x52] false () false)]) ↔
      ((channel true 23).machine.after
          (⟨⟨false, false, false, [.new 0 1 [0x52] false () false], [], 1, false, false⟩, 1, 23,
            true, [], 0⟩, [.push (.new 0 1 [0x52] false () false)])).EveryStep
        (fun _ (c : Attrib Unit × List (Effect Unit)) op => ¬ c.1.toSender.Wakes op)
        [.send 0 [0x52] false () false] :=
  @silent_after_failed_write Unit true 23 [.send 0 [0x52] false () false]
    ⟨⟨true, false, false, [.new 0 1 [0x52] false () false], [], 1, false, false⟩, 2, 23, true,
      [], 0⟩ _ false false [.send 0 [0x52] false () false]
    ⟨⟨false, false, false, [.new 0 1 [0x52] false () false, .new 0 2 [0x52] false () false],
      [], 2, false, false⟩, 1, 23, true, [], 0⟩ _ _
    rfl (.inr rfl) rfl rfl

end LibMip.Channel
