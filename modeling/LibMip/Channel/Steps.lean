import LibMip.Channel.Attrib

/-!
# What a step does to the queues

`Next` lists what a step can do to the sender of a channel, whatever becomes of its references
and registrations: each invariant of the queues is a case analysis on it. The commands in the
queues have the opcode of their PDU and expect the response that belongs to it, so no command
among the responses is ever kept as sent.
-/

namespace LibMip.Channel

variable {κ : Type*}

/-! ## Commands -/

/-- The expected response is the one that belongs to the opcode, and only a command that expects
one is kept after it was sent. -/
structure Command.Typed (c : Command κ) : Prop where
  opcode : c.opcode = c.pdu.headD 0
  expected : c.expected = opcode2expected c.opcode
  sent : c.sent = true → c.expected ≠ 0

/-- Both queues hold typed commands, each of its own kind. -/
structure Sender.Typed (s : Sender κ) : Prop where
  requests : ∀ c ∈ s.requests, c.Typed ∧ isResponse c.opcode = false
  responses : ∀ c ∈ s.responses, c.Typed ∧ isResponse c.opcode = true

theorem Command.Typed.of_response {c : Command κ} (h : c.Typed)
    (resp : isResponse c.opcode = true) :
    c.expected = 0 ∧ c.sent = false := by
  have expected : c.expected = 0 := h.expected.trans (opcode2expected_of_isResponse resp)
  refine ⟨expected, ?_⟩
  cases sent : c.sent with
  | false => rfl
  | true => exact absurd expected (h.sent sent)

theorem Command.Typed.new (id n : UInt32) (pdu : List UInt8) (func : Bool) (userData : κ)
    (notify : Bool) : (Command.new id n pdu func userData notify).Typed :=
  ⟨rfl, rfl, fun h => absurd h (by simp [Command.new])⟩

/-! ## Effects on commands -/

namespace Effect

/-- Effects on registrations. -/
def Quiet : Effect κ → Prop
  | .event _ _ | .eventDestroy _ => True
  | _ => False

end Effect

/-- The response a step receives, as the buffer holds it. -/
def Op.response : Op κ → Option (List UInt8)
  | .received false (some bytes) =>
    if isResponse ((bytes.take 512).headD 0) then some (bytes.take 512) else none
  | _ => none

namespace Sender

variable (s : Sender κ)

/-- Everything that waits to be written or answered. -/
def queued : List (Command κ) := s.requests ++ s.responses

/-- What `attrib_destroy` leaves. -/
def destroyed : Sender κ :=
  { s with writeWatch := false, timeoutWatch := false, ticking := false,
           requests := [], responses := [], freed := true }

/-- The steps that may leave the queues, the watch and the timer alone. -/
def MayIdle : Op κ → Prop
  | .send _ _ _ _ _ => s.stale = true
  | .cancel id => Attrib.cancelPerQueue id s.requests = none
  | .received hup read =>
    s.stale = true ∨ (Op.received hup read : Op κ).response = none ∧ (hup = true ∨ read.isSome)
  | .cancelAll | .canWrite _ _ | .timeout => False
  | _ => True

end Sender

/-- The steps that drop a reference. -/
def Op.Drops : Op κ → Prop
  | .canWrite _ _ | .unref => True
  | _ => False

/-- What a step can do to the queues, the watch and the timer. -/
inductive Next (s : Sender κ) : Op κ → Sender κ → List (Effect κ) → Prop where
  /-- Nothing. -/
  | idle {op : Op κ} {out : List (Effect κ)} (may : s.MayIdle op) (quiet : ∀ e ∈ out, e.Quiet) :
      Next s op s out
  | pushResponse {id : UInt32} {pdu : List UInt8} {func : Bool} {u : κ} {n : Bool}
      {count : UInt32} (fresh : s.stale = false) (resp : isResponse (pdu.headD 0) = true)
      (counts : count = if id ≠ 0 then s.nextCmdId else s.nextCmdId + 1) :
      Next s (.send id pdu func u n)
        { s with nextCmdId := count, responses := s.responses ++ [.new id count pdu func u n],
                 writeWatch := s.writeWatch || s.responses.isEmpty }
        [.push (.new id count pdu func u n)]
  | pushRequest {id : UInt32} {pdu : List UInt8} {func : Bool} {u : κ} {n : Bool}
      {count : UInt32} (fresh : s.stale = false) (req : isResponse (pdu.headD 0) = false)
      (counts : count = if id ≠ 0 then s.nextCmdId else s.nextCmdId + 1) :
      Next s (.send id pdu func u n)
        { s with nextCmdId := count,
                 requests := if id ≠ 0 then .new id count pdu func u n :: s.requests
                   else s.requests ++ [.new id count pdu func u n],
                 writeWatch := s.writeWatch || s.requests.isEmpty }
        [.push (.new id count pdu func u n)]
  | cancelRequest {id : UInt32} {q : List (Command κ)} {out : List (Effect κ)}
      (found : Attrib.cancelPerQueue id s.requests = some (q, out)) :
      Next s (.cancel id) { s with requests := q } out
  | cancelResponse {id : UInt32} {q : List (Command κ)} {out : List (Effect κ)}
      (noRequest : Attrib.cancelPerQueue id s.requests = none)
      (found : Attrib.cancelPerQueue id s.responses = some (q, out)) :
      Next s (.cancel id) { s with responses := q } out
  | cancelAll : Next s .cancelAll
      { s with requests := (Attrib.cancelAllPerQueue s.requests).1
               responses := (Attrib.cancelAllPerQueue s.responses).1 }
      ((Attrib.cancelAllPerQueue s.requests).2 ++ (Attrib.cancelAllPerQueue s.responses).2)
  /-- The sender writes nothing and goes. -/
  | sleep {hup written : Bool} (awake : s.writeWatch = true)
      (silent : s.stale = true ∨ hup = true ∨ written = false ∨
        s.responses = [] ∧ ∀ c ∈ s.requests.head?, c.sent = true) :
      Next s (.canWrite hup written) { s with writeWatch := false } []
  | writeResponse {c : Command κ} {q : List (Command κ)} (awake : s.writeWatch = true)
      (fresh : s.stale = false) (head : s.responses = c :: q) :
      Next s (.canWrite false true) { s with responses := q } [.write c, .destroy c]
  | writeCommand {c : Command κ} {q : List (Command κ)} (awake : s.writeWatch = true)
      (fresh : s.stale = false) (noResponse : s.responses = []) (head : s.requests = c :: q)
      (unsent : c.sent = false) (expects : c.expected = 0) :
      Next s (.canWrite false true) { s with requests := q } [.write c, .destroy c]
  | writeRequest {c : Command κ} {q : List (Command κ)} (awake : s.writeWatch = true)
      (fresh : s.stale = false) (noResponse : s.responses = []) (head : s.requests = c :: q)
      (unsent : c.sent = false) (expects : c.expected ≠ 0) :
      Next s (.canWrite false true)
        { s with requests := { c with sent := true } :: q, writeWatch := false,
                 timeoutWatch := true, ticking := s.ticking || !s.timeoutWatch } [.write c]
  /-- The read failed. -/
  | wake (fresh : s.stale = false) :
      Next s (.received false none)
        { s with writeWatch := s.writeWatch || !s.queued.isEmpty } []
  /-- A response that no request waits for. -/
  | unasked {bytes : List UInt8} {out : List (Effect κ)} (fresh : s.stale = false)
      (resp : isResponse ((bytes.take 512).headD 0) = true) (empty : s.requests = [])
      (quiet : ∀ e ∈ out, e.Quiet) :
      Next s (.received false (some bytes)) { s with timeoutWatch := false, ticking := false } out
  | answer {bytes : List UInt8} {c : Command κ} {q : List (Command κ)} {out : List (Effect κ)}
      (fresh : s.stale = false) (resp : isResponse ((bytes.take 512).headD 0) = true)
      (head : s.requests = c :: q) (quiet : ∀ e ∈ out, e.Quiet) :
      Next s (.received false (some bytes))
        { s with timeoutWatch := false, ticking := false, requests := q,
                 writeWatch := s.writeWatch || !(q ++ s.responses).isEmpty }
        (out ++ Attrib.finish c (Attrib.responseStatus c (bytes.take 512)) (bytes.take 512))
  | timeout (ticking : s.ticking = true) :
      Next s .timeout { s with requests := [], stale := true, ticking := false }
        (Attrib.expire s.requests)
  /-- The step dropped the last reference. -/
  | free {op : Op κ} {t : Sender κ} {out evts : List (Effect κ)} (before : Next s op t out)
      (drops : op.Drops) (quiet : ∀ e ∈ evts, e.Quiet) :
      Next s op t.destroyed (out ++ (t.queued.map .destroy ++ evts))

namespace Attrib

variable {a b : Attrib κ} {out : List (Effect κ)}

@[simp] theorem wakeUpSender_toSender (a : Attrib κ) :
    a.wakeUpSender.toSender = { a.toSender with writeWatch := true } := by
  unfold wakeUpSender
  split_ifs with h
  · rw [← h]
  · rfl

/-- Waking the sender under a condition. -/
theorem wakeIf_toSender (a : Attrib κ) (p : Prop) [Decidable p] :
    (if p then a.wakeUpSender else a).toSender =
      { a.toSender with writeWatch := a.writeWatch || decide p } := by
  split_ifs with h <;> simp [h]

theorem wakeIfQueued_toSender (a : Attrib κ) : a.wakeIfQueued.toSender =
    { a.toSender with writeWatch := a.writeWatch || !(a.requests ++ a.responses).isEmpty } := by
  unfold wakeIfQueued
  split_ifs with h
  · have none : (a.requests ++ a.responses).isEmpty = true := by simp [h]
    simp [none]
  · have queued : (a.requests ++ a.responses).isEmpty = false := by
      rwa [List.isEmpty_eq_false_iff, ne_eq, List.append_eq_nil_iff]
    simp [queued]

theorem dispatch_quiet (a : Attrib κ) (bytes : List UInt8) : ∀ e ∈ a.dispatch bytes, e.Quiet := by
  intro e he
  obtain ⟨evt, -, rfl⟩ := List.mem_map.mp he
  trivial

theorem eventDestroy_quiet (l : List (Event κ)) :
    ∀ e ∈ l.map (Effect.eventDestroy : Event κ → Effect κ), e.Quiet := by
  intro e he
  obtain ⟨evt, -, rfl⟩ := List.mem_map.mp he
  trivial

/-- Dropping a reference does nothing to the sender, or frees the channel. -/
theorem unref_next {s : Sender κ} {op : Op κ} (h : Next s op a.toSender out) (drops : op.Drops) :
    Next s op a.unref.1.toSender (out ++ a.unref.2) := by
  unfold unref
  split_ifs
  · simpa using h
  · have freed := Next.free h drops (eventDestroy_quiet a.events)
    simpa [attribDestroy, Sender.destroyed, Sender.queued] using freed

theorem length_concat_eq_one (q : List (Command κ)) (c : Command κ) :
    decide ((q ++ [c]).length = 1) = q.isEmpty := by
  cases q <;> simp

theorem enqueue_response {c : Command κ} (resp : isResponse c.opcode = true) (front : Bool) :
    (a.enqueue c front).toSender =
      { a.toSender with responses := a.responses ++ [c],
                        writeWatch := a.writeWatch || a.responses.isEmpty } := by
  rw [enqueue, if_pos resp, wakeIf_toSender, length_concat_eq_one]

theorem enqueue_request {c : Command κ} (req : isResponse c.opcode = false) (front : Bool) :
    (a.enqueue c front).toSender =
      { a.toSender with requests := if front then c :: a.requests else a.requests ++ [c],
                        writeWatch := a.writeWatch || a.requests.isEmpty } := by
  rw [enqueue, if_neg (by simp [req]), wakeIf_toSender]
  cases front with
  | true => cases h : a.requests <;> simp
  | false => simp only [Bool.false_eq_true, if_false, length_concat_eq_one]

theorem send_next (a : Attrib κ) (id : UInt32) (pdu : List UInt8) (func : Bool) (u : κ)
    (n : Bool) : Next a.toSender (.send id pdu func u n) (a.send id pdu func u n).1.toSender
      (a.send id pdu func u n).2.2 := by
  unfold send
  by_cases stale : a.stale = true
  · rw [if_pos stale]
    exact .idle stale (by simp)
  rw [if_neg stale]
  have fresh : a.stale = false := by simpa using stale
  cases resp : isResponse (pdu.headD 0) with
  | true =>
    rw [enqueue_response (by exact resp)]
    exact .pushResponse fresh resp rfl
  | false =>
    rw [enqueue_request (by exact resp)]
    simpa using @Next.pushRequest κ a.toSender id pdu func u n _ fresh resp rfl

theorem cancel_next (a : Attrib κ) (id : UInt32) :
    Next a.toSender (.cancel id) (a.cancel id).1.toSender (a.cancel id).2.2 := by
  unfold cancel
  cases noRequest : cancelPerQueue id a.requests with
  | some r => exact .cancelRequest noRequest
  | none =>
    cases found : cancelPerQueue id a.responses with
    | some r => exact .cancelResponse noRequest found
    | none => exact .idle noRequest (by simp)

theorem receivedData_next (a : Attrib κ) (hup : Bool) (read : Option (List UInt8)) :
    Next a.toSender (.received hup read) (a.receivedData hup (read.map (List.take 512))).1.toSender
      (a.receivedData hup (read.map (List.take 512))).2 := by
  have silent {out : List (Effect κ)} (may : a.MayIdle (.received hup read))
      (quiet : ∀ e ∈ out, e.Quiet) : Next a.toSender (.received hup read) a.toSender out :=
    .idle may quiet
  unfold receivedData
  split_ifs with stale closed
  · exact silent (.inl stale) (by simp)
  · exact silent (.inr ⟨by subst closed; rfl, .inl closed⟩) (by simp)
  have fresh : a.stale = false := by simpa using stale
  obtain rfl : hup = false := by simpa using closed
  cases read with
  | none =>
    simpa [wakeIfQueued_toSender, Sender.queued] using Next.wake (s := a.toSender) fresh
  | some bytes =>
    cases resp : isResponse ((bytes.take 512).headD 0) with
    | false =>
      simp only [Option.map_some, resp, if_true]
      exact silent (.inr ⟨if_neg (by rw [resp]; simp), .inr rfl⟩) (a.dispatch_quiet _)
    | true =>
      simp only [Option.map_some, resp, Bool.true_eq_false, if_false]
      cases head : a.requests with
      | nil =>
        simpa [head] using Next.unasked (s := a.toSender) fresh resp head (a.dispatch_quiet _)
      | cons c q =>
        simpa [wakeIfQueued_toSender] using
          Next.answer (s := a.toSender) fresh resp head (a.dispatch_quiet (bytes.take 512))

/-- The sender goes after it did something else. -/
theorem destroySender_next {s : Sender κ} {op : Op κ}
    (h : Next s op { a.toSender with writeWatch := false } out) (drops : op.Drops) :
    Next s op a.destroySender.1.toSender (out ++ a.destroySender.2) :=
  unref_next (a := { a with writeWatch := false }) h drops

theorem onWritable_next (a : Attrib κ) (typed : a.toSender.Typed) (awake : a.writeWatch = true)
    (hup written : Bool) :
    Next a.toSender (.canWrite hup written) (a.onWritable hup written).1.toSender
      (a.onWritable hup written).2 := by
  have sleeps (silent : a.stale = true ∨ hup = true ∨ written = false ∨
      a.responses = [] ∧ ∀ c ∈ a.requests.head?, c.sent = true)
      (h : a.canWriteData hup written = (a, [], false)) :
      Next a.toSender (.canWrite hup written) (a.onWritable hup written).1.toSender
        (a.onWritable hup written).2 := by
    simp only [onWritable, h]
    exact destroySender_next (.sleep awake silent) trivial
  by_cases stale : a.stale = true
  · exact sleeps (.inl stale) (by simp [canWriteData, stale])
  by_cases closed : hup = true
  · exact sleeps (.inr (.inl closed)) (by simp [canWriteData, closed])
  by_cases failed : written = false
  · refine sleeps (.inr (.inr (.inl failed))) ?_
    unfold canWriteData writeHead
    rw [if_neg stale, if_neg closed]
    split <;> simp [failed]
  obtain ⟨rfl, rfl⟩ : hup = false ∧ written = true := by simpa using And.intro closed failed
  have fresh : a.stale = false := by simpa using stale
  cases noResponse : a.responses with
  | cons c q =>
    obtain ⟨expects, unsent⟩ := (typed.responses c (by simp [noResponse])).1.of_response
      (typed.responses c (by simp [noResponse])).2
    have h : a.canWriteData false true =
        ({ a with responses := q }, [.write c, .destroy c], true) := by
      simp [canWriteData, writeHead, fresh, noResponse, unsent, expects]
    simpa [onWritable, h] using Next.writeResponse (s := a.toSender) awake fresh noResponse
  | nil =>
    cases head : a.requests with
    | nil =>
      refine sleeps (.inr (.inr (.inr ⟨noResponse, by simp [head]⟩))) ?_
      simp [canWriteData, fresh, noResponse, head]
    | cons c q =>
      by_cases sent : c.sent = true
      · refine sleeps (.inr (.inr (.inr ⟨noResponse, by simp [head, sent]⟩))) ?_
        simp [canWriteData, writeHead, fresh, noResponse, head, sent]
      have unsent : c.sent = false := by simpa using sent
      by_cases expects : c.expected = 0
      · have h : a.canWriteData false true =
            ({ a with requests := q }, [.write c, .destroy c], true) := by
          simp [canWriteData, writeHead, fresh, noResponse, head, unsent, expects]
        simpa [onWritable, h] using
          Next.writeCommand (s := a.toSender) awake fresh noResponse head unsent expects
      · have next := Next.writeRequest (s := a.toSender) awake fresh noResponse head unsent expects
        cases running : a.timeoutWatch with
        | true =>
          have h : a.canWriteData false true =
              ({ a with requests := { c with sent := true } :: q }, [.write c], false) := by
            simp [canWriteData, writeHead, fresh, noResponse, head, unsent, expects, running]
          simp only [onWritable, h]
          exact destroySender_next (by simpa [running] using next) trivial
        | false =>
          have h : a.canWriteData false true =
              ({ a with requests := { c with sent := true } :: q, timeoutWatch := true,
                        ticking := true }, [.write c], false) := by
            simp [canWriteData, writeHead, fresh, noResponse, head, unsent, expects, running]
          simp only [onWritable, h]
          exact destroySender_next (by simpa [running] using next) trivial

theorem live_of_step {op : Op κ} (h : a.step op = some (b, out)) : a.freed = false := by
  unfold step at h
  split_ifs at h with freed
  simpa using freed

/-- Every step of a channel is one of those listed. -/
theorem step_next {op : Op κ} (typed : a.toSender.Typed) (h : a.step op = some (b, out)) :
    Next a.toSender op b.toSender out := by
  unfold step at h
  split_ifs at h
  have idle {op : Op κ} {t : Attrib κ} {o : List (Effect κ)} (same : t.toSender = a.toSender)
      (quiet : ∀ e ∈ o, e.Quiet) (may : a.MayIdle op) : Next a.toSender op t.toSender o :=
    by rw [same]; exact .idle may quiet
  cases op with simp only [stepLive] at h
  | send id pdu func u n =>
    split_ifs at h
    obtain ⟨rfl, rfl⟩ := Prod.mk.inj (Option.some.inj h)
    exact a.send_next id pdu func u n
  | cancel id =>
    obtain ⟨rfl, rfl⟩ := Prod.mk.inj (Option.some.inj h)
    exact a.cancel_next id
  | cancelAll =>
    obtain ⟨rfl, rfl⟩ := Prod.mk.inj (Option.some.inj h)
    exact .cancelAll
  | canWrite hup written =>
    split_ifs at h with awake
    obtain ⟨rfl, rfl⟩ := Prod.ext_iff.mp (Option.some.inj h)
    exact a.onWritable_next typed awake hup written
  | received hup read =>
    split_ifs at h
    obtain ⟨rfl, rfl⟩ := Prod.ext_iff.mp (Option.some.inj h)
    exact a.receivedData_next hup read
  | timeout =>
    split_ifs at h with ticking
    obtain ⟨rfl, rfl⟩ := Prod.mk.inj (Option.some.inj h)
    exact .timeout ticking
  | register opcode handle u n =>
    obtain ⟨rfl, rfl⟩ := Prod.mk.inj (Option.some.inj h)
    exact idle rfl (by simp) trivial
  | unregister id =>
    obtain ⟨rfl, rfl⟩ := Prod.mk.inj (Option.some.inj h)
    refine idle ?_ ?_ trivial
    · unfold unregister
      split_ifs
      · rfl
      · split <;> rfl
    · unfold unregister
      split_ifs
      · simp
      · split <;> simp [Effect.Quiet]
  | unregisterAll =>
    obtain ⟨rfl, rfl⟩ := Prod.mk.inj (Option.some.inj h)
    refine idle ?_ ?_ trivial
    · unfold unregisterAll
      split_ifs <;> rfl
    · unfold unregisterAll
      split_ifs
      · simp
      · exact eventDestroy_quiet a.events
  | setMtu mtu =>
    obtain ⟨rfl, rfl⟩ := Prod.mk.inj (Option.some.inj h)
    refine idle ?_ (by simp) trivial
    unfold setMtu
    split_ifs <;> rfl
  | ref =>
    obtain ⟨rfl, rfl⟩ := Prod.mk.inj (Option.some.inj h)
    exact idle rfl (by simp) trivial
  | unref =>
    obtain ⟨rfl, rfl⟩ := Prod.ext_iff.mp (Option.some.inj h)
    have same : Next a.toSender .unref a.toSender [] :=
      idle rfl (by simp) trivial
    simpa using unref_next same trivial

/-! ## The queues after a cancellation -/

theorem removeById_some {id : UInt32} {q : List (Command κ)} {r : Command κ × List (Command κ)}
    (h : removeById id q = some r) :
    ∃ l₁ l₂, q = l₁ ++ r.1 :: l₂ ∧ r.2 = l₁ ++ l₂ ∧ r.1.id = id ∧ ∀ c ∈ l₁, c.id ≠ id := by
  induction q generalizing r with
  | nil => simp [removeById] at h
  | cons c q ih =>
    unfold removeById at h
    split_ifs at h with hc
    · obtain rfl := Option.some.inj h
      exact ⟨[], q, rfl, rfl, hc, by simp⟩
    · obtain ⟨r', hr, rfl⟩ := Option.map_eq_some_iff.mp h
      obtain ⟨l₁, l₂, rfl, rest, same, before⟩ := ih hr
      exact ⟨c :: l₁, l₂, rfl, by simp [rest], same, by simpa using ⟨hc, before⟩⟩

/-- A cancellation silences the command at the head, when it was sent, or takes one out that was
not sent before it. -/
theorem cancelPerQueue_some {id : UInt32} {q q' : List (Command κ)}
    (h : cancelPerQueue id q = some (q', out)) :
    (∃ c l, q = c :: l ∧ c.sent = true ∧ q' = { c with func := false } :: l ∧ out = []) ∨
      ∃ l₁ c l₂, q = l₁ ++ c :: l₂ ∧ q' = l₁ ++ l₂ ∧ out = [.destroy c] ∧
        (l₁ = [] → c.sent = false) := by
  cases q with
  | nil => simp [cancelPerQueue] at h
  | cons c q =>
    simp only [cancelPerQueue] at h
    split_ifs at h with hc
    · obtain ⟨rfl, rfl⟩ := Prod.mk.inj (Option.some.inj h)
      exact .inl ⟨c, q, rfl, hc.2, rfl, rfl⟩
    · obtain ⟨r, hr, heq⟩ := Option.map_eq_some_iff.mp h
      obtain ⟨rfl, rfl⟩ := Prod.mk.inj heq
      obtain ⟨l₁, l₂, split, rest, same, -⟩ := removeById_some hr
      refine .inr ⟨l₁, r.1, l₂, split, rest, rfl, fun none => ?_⟩
      subst none
      obtain ⟨rfl, rfl⟩ := List.cons.inj split
      simpa [same] using hc

theorem cancelAllLoop_false (head : Option (Command κ)) (q : List (Command κ)) :
    cancelAllLoop head false q = (head.toList, q.map .destroy) := by
  induction q with
  | nil => rfl
  | cons c q ih => simp [cancelAllLoop, ih]

/-- Of the commands that were sent, at the front of the queue, the last stays, without its
`func`; the others are gone and everything after them is destroyed. -/
theorem cancelAllLoop_true (head : Option (Command κ)) (q : List (Command κ)) :
    cancelAllLoop head true q =
      ((((q.takeWhile (·.sent)).getLast?.map fun c => { c with func := false }).or head).toList,
        (q.dropWhile (·.sent)).map .destroy) := by
  induction q generalizing head with
  | nil => simp [cancelAllLoop]
  | cons c q ih =>
    cases sent : c.sent with
    | false => simp [cancelAllLoop, sent, cancelAllLoop_false]
    | true =>
      simp only [cancelAllLoop, sent, Bool.and_self, if_true, ih, List.takeWhile_cons,
        List.dropWhile_cons, List.getLast?_cons]
      cases (q.takeWhile (·.sent)).getLast? <;> simp [sent]

theorem cancelAllPerQueue_eq (q : List (Command κ)) :
    cancelAllPerQueue q =
      (((q.takeWhile (·.sent)).getLast?.map fun c => { c with func := false }).toList,
        (q.dropWhile (·.sent)).map .destroy) := by
  simp [cancelAllPerQueue, cancelAllLoop_true]

end Attrib

/-! ## Typed queues -/

/-- What a cancellation leaves was in the queue, up to its `func`. -/
theorem mem_of_cancelPerQueue {id : UInt32} {q q' : List (Command κ)} {out : List (Effect κ)}
    (h : Attrib.cancelPerQueue id q = some (q', out)) {c : Command κ} (hc : c ∈ q') :
    c ∈ q ∨ ∃ d ∈ q, c = { d with func := false } := by
  rcases Attrib.cancelPerQueue_some h with ⟨d, l, rfl, -, rfl, -⟩ | ⟨l₁, d, l₂, rfl, rfl, -, -⟩
  · rcases List.mem_cons.mp hc with rfl | hc
    · exact .inr ⟨d, List.mem_cons_self, rfl⟩
    · exact .inl (List.mem_cons_of_mem _ hc)
  · exact .inl (by grind)

theorem mem_of_cancelAllPerQueue {q : List (Command κ)} {c : Command κ}
    (hc : c ∈ (Attrib.cancelAllPerQueue q).1) : ∃ d ∈ q, c = { d with func := false } := by
  rw [Attrib.cancelAllPerQueue_eq, Option.mem_toList, Option.map_eq_some_iff] at hc
  obtain ⟨d, hd, rfl⟩ := hc
  exact ⟨d, List.takeWhile_prefix _ |>.subset (List.mem_of_getLast? hd), rfl⟩

theorem Command.Typed.silenced {c : Command κ} (h : c.Typed) :
    ({ c with func := false } : Command κ).Typed := ⟨h.opcode, h.expected, h.sent⟩

theorem Next.typed {s t : Sender κ} {op : Op κ} {out : List (Effect κ)} (h : Next s op t out)
    (typed : s.Typed) : t.Typed := by
  induction h with
  | idle | sleep | wake | unasked => exact ⟨typed.requests, typed.responses⟩
  | pushResponse fresh resp counts =>
    refine ⟨typed.requests, fun c hc => ?_⟩
    rcases List.mem_append.mp hc with hc | hc
    · exact typed.responses c hc
    · obtain rfl := List.mem_singleton.mp hc
      exact ⟨.new .., resp⟩
  | @pushRequest id pdu func u n count fresh req counts =>
    refine ⟨fun c hc => ?_, typed.responses⟩
    have either : c = .new id count pdu func u n ∨ c ∈ s.requests := by
      by_cases given : id ≠ 0
      · rwa [if_pos given, List.mem_cons] at hc
      · rwa [if_neg given, List.mem_append, List.mem_singleton, or_comm] at hc
    rcases either with rfl | hc
    · exact ⟨.new .., req⟩
    · exact typed.requests c hc
  | cancelRequest found =>
    refine ⟨fun c hc => ?_, typed.responses⟩
    rcases mem_of_cancelPerQueue found hc with hc | ⟨d, hd, rfl⟩
    · exact typed.requests c hc
    · exact ⟨(typed.requests d hd).1.silenced, (typed.requests d hd).2⟩
  | cancelResponse _ found =>
    refine ⟨typed.requests, fun c hc => ?_⟩
    rcases mem_of_cancelPerQueue found hc with hc | ⟨d, hd, rfl⟩
    · exact typed.responses c hc
    · exact ⟨(typed.responses d hd).1.silenced, (typed.responses d hd).2⟩
  | cancelAll =>
    refine ⟨fun c hc => ?_, fun c hc => ?_⟩
    · obtain ⟨d, hd, rfl⟩ := mem_of_cancelAllPerQueue hc
      exact ⟨(typed.requests d hd).1.silenced, (typed.requests d hd).2⟩
    · obtain ⟨d, hd, rfl⟩ := mem_of_cancelAllPerQueue hc
      exact ⟨(typed.responses d hd).1.silenced, (typed.responses d hd).2⟩
  | writeResponse awake fresh head =>
    exact ⟨typed.requests, fun c hc => typed.responses c (head ▸ List.mem_cons_of_mem _ hc)⟩
  | writeCommand awake fresh noResponse head unsent expects =>
    exact ⟨fun c hc => typed.requests c (head ▸ List.mem_cons_of_mem _ hc), typed.responses⟩
  | @writeRequest c q awake fresh noResponse head unsent expects =>
    refine ⟨fun d hd => ?_, typed.responses⟩
    obtain ⟨here, kind⟩ := typed.requests c (head ▸ List.mem_cons_self)
    rcases List.mem_cons.mp hd with rfl | hd
    · exact ⟨⟨here.opcode, here.expected, fun _ => expects⟩, kind⟩
    · exact typed.requests d (head ▸ List.mem_cons_of_mem _ hd)
  | answer fresh resp head quiet =>
    exact ⟨fun c hc => typed.requests c (head ▸ List.mem_cons_of_mem _ hc), typed.responses⟩
  | timeout => exact ⟨by simp, typed.responses⟩
  | free => exact ⟨by simp [Sender.destroyed], by simp [Sender.destroyed]⟩

/-! ## Runs -/

variable {attCid : Bool} {imtu : Nat} {h : List (Op κ)} {a : Attrib κ} {log : List (Effect κ)}

theorem typed_run (hr : (channel attCid imtu).machine.run h = some (a, log)) :
    a.toSender.Typed := by
  have initial : (gAttribNew attCid imtu : Attrib κ).toSender.Typed :=
    ⟨by simp [gAttribNew], by simp [gAttribNew]⟩
  exact Runs.Transducer.always (I := fun _ a _ => a.toSender.Typed) initial
    (fun _ a _ op b out _ typed hs => (Attrib.step_next typed hs).typed typed) hr

/-- An invariant of the sender and the log in the runs whose steps satisfy `P`. -/
theorem sender_invariant {P : Sender κ → Op κ → Prop}
    {I : List (Op κ) → Sender κ → List (Effect κ) → Prop}
    (initial : I [] (gAttribNew attCid imtu : Attrib κ).toSender [])
    (preserved : ∀ h a log op t out, (channel attCid imtu).machine.run h = some (a, log) →
      a.toSender.Typed → a.freed = false → I h a.toSender log → P a.toSender op →
      Next a.toSender op t out → I (h ++ [op]) t (log ++ out))
    (all : (channel attCid imtu).machine.EveryStep (fun _ a op => P a.1.toSender op) h)
    (hr : (channel attCid imtu).machine.run h = some (a, log)) : I h a.toSender log := by
  have both : a.toSender.Typed ∧ I h a.toSender log :=
    Runs.Transducer.invariant (P := fun a op => P a.toSender op)
      (I := fun h a log => a.toSender.Typed ∧ I h a.toSender log)
      ⟨typed_run (h := []) rfl, initial⟩
      (fun h a log op b out run inv ha hs => ⟨(Attrib.step_next inv.1 hs).typed inv.1,
        preserved h a log op b.toSender out run inv.1 (Attrib.live_of_step hs) inv.2 ha
          (Attrib.step_next inv.1 hs)⟩)
      all hr
  exact both.2

/-- A channel that is not freed in the end was not freed on the way. -/
theorem live_of_runFrom {b : Attrib κ} {l : List (Effect κ)} {k : List (Op κ)}
    (hr : (channel attCid imtu).machine.runFrom (b, l) k = some (a, log))
    (alive : a.freed = false) : b.freed = false := by
  cases k with
  | nil =>
    obtain ⟨rfl, -⟩ := Prod.mk.inj (Option.some.inj hr)
    exact alive
  | cons op k =>
    obtain ⟨u, next, -⟩ := Option.bind_eq_some_iff.mp hr
    obtain ⟨out, step, -⟩ := Runs.Transducer.step_eq_some next
    exact Attrib.live_of_step step

/-- A property of the sender that each step keeps or breaks, by what the step finds, holds at
every point of a run if and only if no step breaks it. -/
theorem sender_always_iff {I : Sender κ → Prop} {B : Sender κ → Op κ → Prop}
    (hr : (channel attCid imtu).machine.run h = some (a, log))
    (initial : I (gAttribNew attCid imtu : Attrib κ).toSender)
    (kept : ∀ s t op out, (a.freed = false → t.freed = false) → Next s op t out → I s → ¬ B s op →
      I t)
    (broken : ∀ s t op out, (a.freed = false → t.freed = false) → Next s op t out → B s op →
      ¬ I t) :
    (∀ p b l, p <+: h → (channel attCid imtu).machine.run p = some (b, l) →
        I (b : Attrib κ).toSender) ↔
      (channel attCid imtu).machine.EveryStep
        (fun _ (a : Attrib κ × List (Effect κ)) op => ¬ B a.1.toSender op) h := by
  have step {p : List (Op κ)} {op : Op κ} {b c : Attrib κ × List (Effect κ)}
      (hp : p ++ [op] <+: h) (run : (channel attCid imtu).machine.run p = some b)
      (next : (channel attCid imtu).machine.step b op = some c) :
      (a.freed = false → c.1.freed = false) ∧ ∃ out, Next b.1.toSender op c.1.toSender out := by
    have reached : (channel attCid imtu).machine.run (p ++ [op]) = some c := by
      rw [Runs.Machine.run_concat, run, Option.bind_some, next]
    obtain ⟨out, hs, -⟩ := Runs.Transducer.step_eq_some next
    obtain ⟨k, rfl⟩ := hp
    rw [Runs.Machine.run_append, reached, Option.bind_some] at hr
    exact ⟨live_of_runFrom hr, out, Attrib.step_next (typed_run run) hs⟩
  rw [← Runs.Machine.always_iff (I := fun b : Attrib κ × List (Effect κ) => I b.1.toSender)
    (B := fun b op => B b.1.toSender op) hr initial ?_ ?_]
  · exact ⟨fun always p s hp run => always p s.1 s.2 hp run,
      fun always p b l hp run => always p (b, l) hp run⟩
  · intro p op b c hp run next inv good
    obtain ⟨live, out, h⟩ := step hp run next
    exact kept _ _ _ _ live h inv good
  · intro p op b c hp run next bad
    obtain ⟨live, out, h⟩ := step hp run next
    exact broken _ _ _ _ live h bad

end LibMip.Channel
