import LibMip.Channel.WakeUp

/-!
# Requests on the radio in the order of the calls

A client that never gives an identifier to `g_attrib_send` has its requests and commands written
in the order it sent them, each at most once. None is missing as long as no step takes one out of
the queue before it was written: a cancellation, a timeout, or a response that comes while the
request at the head has not been sent.
-/

namespace LibMip.Channel

open Sender

variable {κ : Type*}

/-- The requests and commands of a list, which responses are not. -/
def notResponses (q : List (Command κ)) : List (Command κ) :=
  q.filter fun c => !isResponse c.opcode

/-- The commands of a queue that are still to be written. -/
def unsent (q : List (Command κ)) : List (Command κ) := q.filter fun c => !c.sent

/-- Requests and commands are sent without an identifier. -/
def Op.InTurn : Op κ → Prop
  | .send id pdu _ _ _ => isResponse (pdu.headD 0) = false → id = 0
  | _ => True

/-- The step takes a request out of the queue that was not written. -/
def Sender.Drops (s : Sender κ) : Op κ → Prop
  | .cancel id => ∃ q c, Attrib.cancelPerQueue id s.requests = some (q, [.destroy c])
  | .cancelAll | .timeout => unsent s.requests ≠ []
  | .received hup read => (Op.received hup read : Op κ).response.isSome ∧ s.stale = false ∧
      s.requests ≠ [] ∧ s.outstanding = none
  | _ => False

/-- A step writes what was queued, in order, and queues behind it; so many requests go missing. -/
structure InLine (s : Sender κ) (op : Op κ) (t : Sender κ) (out : List (Effect κ)) : Prop where
  sublist : ((notResponses (writes out) ++ unsent t.requests).map Command.key).Sublist
    ((unsent s.requests ++ notResponses (pushes out)).map Command.key)
  missing : ∃ n, (notResponses (writes out)).length + (unsent t.requests).length + n =
    (unsent s.requests).length + (notResponses (pushes out)).length ∧ (n = 0 ↔ ¬ s.Drops op)

/-- A step that only keeps the requests that are to be written. -/
theorem InLine.of_eq {s t : Sender κ} {op : Op κ} {out : List (Effect κ)}
    (same : (notResponses (writes out) ++ unsent t.requests).map Command.key =
      (unsent s.requests ++ notResponses (pushes out)).map Command.key)
    (kept : ¬ s.Drops op) : InLine s op t out := by
  refine ⟨same ▸ List.Sublist.refl _, 0, ?_, by simpa using kept⟩
  have lengths := congrArg List.length same
  simpa using lengths

/-- A step that takes some of them out. -/
theorem InLine.of_drop {s t : Sender κ} {op : Op κ} {out : List (Effect κ)}
    (silent : writes out = []) (none : pushes out = [])
    (sub : ((unsent t.requests).map Command.key).Sublist ((unsent s.requests).map Command.key))
    (fewer : (unsent t.requests).length < (unsent s.requests).length ↔ s.Drops op) :
    InLine s op t out := by
  have le : (unsent t.requests).length ≤ (unsent s.requests).length := by
    simpa using sub.length_le
  refine ⟨by simpa [silent, none, notResponses] using sub,
    (unsent s.requests).length - (unsent t.requests).length, ?_, ?_⟩
  · simp only [silent, none, notResponses, List.filter_nil, List.length_nil]
    omega
  · rw [← fewer]
    omega

@[simp] theorem unsent_cons (c : Command κ) (q : List (Command κ)) :
    unsent (c :: q) = if c.sent then unsent q else c :: unsent q := by
  unfold unsent
  cases h : c.sent <;> simp [h]

@[simp] theorem unsent_append (q r : List (Command κ)) : unsent (q ++ r) = unsent q ++ unsent r :=
  List.filter_append ..

@[simp] theorem notResponses_nil : notResponses ([] : List (Command κ)) = [] := rfl

@[simp] theorem notResponses_append (q r : List (Command κ)) :
    notResponses (q ++ r) = notResponses q ++ notResponses r := List.filter_append ..

theorem notResponses_request {c : Command κ} (req : isResponse c.opcode = false) :
    notResponses [c] = [c] := by
  simp [notResponses, req]

theorem notResponses_response {c : Command κ} (resp : isResponse c.opcode = true) :
    notResponses [c] = [] := by
  simp [notResponses, resp]

theorem unsent_cancelAll (q : List (Command κ)) :
    unsent (Attrib.cancelAllPerQueue q).1 = [] := by
  refine List.filter_eq_nil_iff.mpr fun c hc => ?_
  simp [cancelAllPerQueue_head q c hc]

theorem Next.inLine {s t : Sender κ} {op : Op κ} {out : List (Effect κ)} (h : Next s op t out)
    (typed : s.Typed) (orderly : s.Orderly) (inTurn : op.InTurn) (alive : t.freed = false) :
    InLine s op t out := by
  cases h with
  | idle may quiet =>
    refine .of_eq (by simp [quiet_writes quiet, (quiet_books quiet).1, notResponses]) ?_
    cases op with
    | cancel id =>
      rintro ⟨q, c, found⟩
      exact absurd (found.symm.trans may) (by simp)
    | received hup read =>
      rintro ⟨some, fresh, -, -⟩
      rcases may with stale | ⟨none, -⟩
      · exact absurd (fresh.symm.trans stale) (by simp)
      · simp [none] at some
    | cancelAll | timeout | canWrite => exact may.elim
    | _ => exact id
  | @pushResponse id pdu func u n count fresh resp counts =>
    have other : notResponses [Command.new id count pdu func u n] = [] :=
      notResponses_response resp
    exact .of_eq (by simp [other]) (fun h => h)
  | @pushRequest id pdu func u n count fresh req counts =>
    obtain rfl := inTurn req
    have own : notResponses [Command.new 0 count pdu func u n] = [_] := notResponses_request req
    have new : (Command.new 0 count pdu func u n).sent = false := rfl
    exact .of_eq (by simp [own, new, unsent]) (fun h => h)
  | cancelRequest found =>
    rcases Attrib.cancelPerQueue_some found with
      ⟨c, l, queue, sent, rfl, rfl⟩ | ⟨l₁, c, l₂, queue, rfl, rfl, head⟩
    · refine .of_eq (by simp [queue, sent]) ?_
      rintro ⟨q, d, other⟩
      exact absurd (found.symm.trans other) (by simp)
    · have new : c.sent = false := by
        cases l₁ with
        | nil => exact head rfl
        | cons d l₁ => exact orderly.first c (by simp [queue])
      refine .of_drop rfl rfl ?_ ?_
      · simp [queue, new]
      · simp only [queue, unsent_append, unsent_cons, new]
        simp [Sender.Drops, found]
  | cancelResponse none found =>
    rcases Attrib.cancelPerQueue_some found with
      ⟨c, l, queue, sent, rfl, rfl⟩ | ⟨l₁, c, l₂, queue, rfl, rfl, head⟩ <;>
    · refine .of_eq (by simp) ?_
      rintro ⟨q, d, other⟩
      exact absurd (none.symm.trans other) (by simp)
  | cancelAll =>
    have silent : writes ((Attrib.cancelAllPerQueue s.requests).2 ++
        (Attrib.cancelAllPerQueue s.responses).2) = [] := by
      simp [Attrib.cancelAllPerQueue_eq, destroy_writes]
    have none := unsent_cancelAll s.requests
    refine .of_drop silent (by simp [(cancelAllPerQueue_balance _).1]) (by simp [none]) ?_
    simp [none, Sender.Drops, List.length_pos_iff]
  | sleep => exact .of_eq (by simp) (fun h => h)
  | @writeResponse c q on fresh head =>
    have own := notResponses_response (typed.responses c (head ▸ List.mem_cons_self)).2
    exact .of_eq (by simp [own]) (fun h => h)
  | @writeCommand c q on fresh noResponse head new expects =>
    have own := notResponses_request (typed.requests c (head ▸ List.mem_cons_self)).2
    exact .of_eq (by simp [own, head, new]) (fun h => h)
  | @writeRequest c q on fresh noResponse head new expects =>
    have own := notResponses_request (typed.requests c (head ▸ List.mem_cons_self)).2
    exact .of_eq (by simp [own, head, new]) (fun h => h)
  | wake => exact .of_eq (by simp) (fun h => absurd h.1 (by simp [Op.response]))
  | unasked fresh resp empty quiet =>
    refine .of_eq (by simp [quiet_writes quiet, (quiet_books quiet).1]) ?_
    exact fun h => h.2.2.1 empty
  | @answer bytes c q out fresh resp head quiet =>
    have received : (Op.received false (some bytes) : Op κ).response = some (bytes.take 512) :=
      if_pos resp
    have out : s.outstanding = none ↔ c.sent = false := by
      rw [← outstanding_of_cons head]
      simp
    refine .of_drop (by simp [quiet_writes quiet, finish_writes])
      (by simp [(quiet_books quiet).1, (finish_books c _ _).1]) ?_ ?_
    · simp only [head, unsent_cons]
      split_ifs <;> simp
    · simp only [head, unsent_cons, Sender.Drops, received, fresh, out]
      cases c.sent <;> simp
  | timeout running =>
    refine .of_drop (expire_writes _) (expire_books _).1 (by simp [unsent]) ?_
    simp [Sender.Drops, unsent, List.length_pos_iff]
  | free => exact absurd alive (by simp [destroyed])

theorem Op.InTurn.not_overtakes {s : Sender κ} {op : Op κ} (h : op.InTurn) :
    ¬ s.Overtakes op := by
  cases op with
  | send => exact fun overtakes => overtakes.1 (h overtakes.2.1)
  | _ => exact fun overtakes => overtakes

/-! ## Runs -/

variable {attCid : Bool} {imtu : Nat} {h : List (Op κ)} {a : Attrib κ} {log : List (Effect κ)}

/-- What was written and what is still to be written is what was queued, in order, but for the
requests that steps took out. -/
structure Line (bad : Prop) (s : Sender κ) (log : List (Effect κ)) : Prop where
  sublist : ((notResponses (writes log) ++ unsent s.requests).map Command.key).Sublist
    ((notResponses (pushes log)).map Command.key)
  missing : ∃ n, (notResponses (writes log)).length + (unsent s.requests).length + n =
    (notResponses (pushes log)).length ∧ (n = 0 ↔ ¬ bad)

theorem Line.next {bad : Prop} {s t : Sender κ} {op : Op κ} {log out : List (Effect κ)}
    (line : Line bad s log) (step : InLine s op t out) :
    Line (bad ∨ s.Drops op) t (log ++ out) := by
  obtain ⟨n, before, good⟩ := line.missing
  obtain ⟨m, after, kept⟩ := step.missing
  refine ⟨?_, n + m, ?_, ?_⟩
  · have first := step.sublist.append_left ((notResponses (writes log)).map Command.key)
    have second := line.sublist.append_right ((notResponses (pushes out)).map Command.key)
    simp only [writes_append, pushes_append, notResponses_append, List.map_append,
      List.append_assoc] at first second ⊢
    exact first.trans second
  · simp only [writes_append, pushes_append, notResponses_append, List.length_append]
    omega
  · rw [not_or, ← good, ← kept]
    omega

theorem line_run (inTurn : ∀ op ∈ h, op.InTurn)
    (hr : (channel attCid imtu).machine.run h = some (a, log)) (alive : a.freed = false) :
    Line (¬ (channel attCid imtu).machine.EveryStep
      (fun _ (a : Attrib κ × List (Effect κ)) op => ¬ a.1.toSender.Drops op) h)
      a.toSender log := by
  have both : a.toSender.Orderly ∧ (a.freed = false →
      Line (¬ (channel attCid imtu).machine.EveryStep
        (fun _ (a : Attrib κ × List (Effect κ)) op => ¬ a.1.toSender.Drops op) h)
        a.toSender log) := by
    refine sender_invariant (P := fun _ op => op.InTurn) (I := fun h s log => s.Orderly ∧
      (s.freed = false → Line (¬ (channel attCid imtu).machine.EveryStep
        (fun _ (a : Attrib κ × List (Effect κ)) op => ¬ a.1.toSender.Drops op) h) s log))
      ⟨orderly_initial, fun _ =>
        ⟨List.Sublist.refl _, 0, rfl, by simp [Runs.Machine.EveryStep.nil]⟩⟩
      ?_ (fun p op s hp _ => inTurn op (hp.subset (by simp))) hr
    intro h a log op t out run typed live inv inTurn next
    refine ⟨next.orderly inv.1 inTurn.not_overtakes, fun alive => ?_⟩
    have line := (inv.2 live).next (next.inLine typed inv.1 inTurn alive)
    have same : (¬ (channel attCid imtu).machine.EveryStep
        (fun _ (a : Attrib κ × List (Effect κ)) op => ¬ a.1.toSender.Drops op) (h ++ [op])) ↔
        (¬ (channel attCid imtu).machine.EveryStep
          (fun _ (a : Attrib κ × List (Effect κ)) op => ¬ a.1.toSender.Drops op) h ∨
          a.toSender.Drops op) := by
      rw [Runs.Machine.EveryStep.concat_iff, not_and_or]
      simp [run]
    rw [same]
    exact line
  exact both.2 alive

/-- A client that gives no identifiers has its requests and commands written in the order it sent
them, and those not yet written are queued behind; none is missing if and only if no step of the
run takes a request out of the queue that was not written. -/
theorem fifo_iff (inTurn : ∀ op ∈ h, op.InTurn)
    (hr : (channel attCid imtu).machine.run h = some (a, log)) (alive : a.freed = false) :
    ((notResponses (writes log) ++ unsent a.requests).map Command.key).Sublist
        ((notResponses (pushes log)).map Command.key) ∧
      ((notResponses (writes log) ++ unsent a.requests).map Command.key =
          (notResponses (pushes log)).map Command.key ↔
        (channel attCid imtu).machine.EveryStep
          (fun _ (a : Attrib κ × List (Effect κ)) op => ¬ a.1.toSender.Drops op) h) := by
  obtain ⟨sub, n, lengths, good⟩ := line_run inTurn hr alive
  refine ⟨sub, ?_⟩
  rw [not_not] at good
  rw [← good]
  constructor
  · intro same
    have here := congrArg List.length same
    simp only [List.length_map, List.length_append] at here
    omega
  · rintro rfl
    exact sub.eq_of_length (by simpa using lengths)

/-- Two commands, of which the first is written. -/
theorem fifo_iff_commands :
    ((notResponses (writes [.push (.new 0 1 [0x52, 0x01] false () false),
          .push (.new 0 2 [0x52, 0x02] false () false),
          .write (.new 0 1 [0x52, 0x01] false () false),
          .destroy (.new 0 1 [0x52, 0x01] false () false)]) ++
        unsent [.new 0 2 [0x52, 0x02] false () false]).map Command.key).Sublist
      ((notResponses (pushes [.push (.new 0 1 [0x52, 0x01] false () false),
          .push (.new 0 2 [0x52, 0x02] false () false),
          .write (.new 0 1 [0x52, 0x01] false () false),
          .destroy (.new 0 1 [0x52, 0x01] false () false)])).map Command.key) :=
  (@fifo_iff Unit true 23 [.send 0 [0x52, 0x01] false () false, .send 0 [0x52, 0x02] false () false,
    .canWrite false true]
    ⟨⟨true, false, false, [.new 0 2 [0x52, 0x02] false () false], [], 2, false, false⟩, 2, 23, true,
      [], 0⟩ _ (by simp [Op.InTurn]) rfl rfl).1

end LibMip.Channel
