import LibMip.Channel.References
import LibMip.Channel.WakeUp

/-!
# A channel for requests only

A client that sends nothing but requests with a callback keeps its channel in a small part of its
states: no responses are queued and at most the first request is out. What each operation does there
to the queue and to the watch that writes is given by one lemma for each, together with what the
callbacks are told.
-/

namespace LibMip.Channel

variable {κ : Type*}

/-- A request whose answer is reported. -/
structure Command.Asks (c : Command κ) : Prop where
  typed : c.Typed
  func : c.func = true
  expects : c.expected ≠ 0

theorem Command.Asks.request {c : Command κ} (h : c.Asks) : isResponse c.opcode = false := by
  cases resp : isResponse c.opcode with
  | false => rfl
  | true => exact absurd (h.typed.of_response resp).1 h.expects

namespace Sender

/-- There are requests only, of which at most the first is out. -/
structure Asking (s : Sender κ) : Prop where
  fresh : s.stale = false
  noResponse : s.responses = []
  asks : ∀ c ∈ s.requests, c.Asks
  first : ∀ c ∈ s.requests.tail, c.sent = false

theorem Asking.typed {s : Sender κ} (h : s.Asking) : s.Typed where
  requests c hc := ⟨(h.asks c hc).typed, (h.asks c hc).request⟩
  responses c hc := by
    rw [h.noResponse] at hc
    cases hc

end Sender

variable {s t : Sender κ} {out : List (Effect κ)}

section Steps

variable (asking : s.Asking)

include asking

/-- A request is queued behind the others. -/
theorem Next.sent_request {id : UInt32} {pdu : List UInt8} {u : κ} {notify : Bool}
    (h : Next s (.send id pdu true u notify) t out)
    (alive : t.freed = false) (expects : opcode2expected (pdu.headD 0) ≠ 0)
    (front : id ≠ 0 → s.requests = []) :
    t.Asking ∧ ∃ c : Command κ, c.sent = false ∧ c.userData = u ∧ c.pdu = pdu ∧
      t.requests = s.requests ++ [c] ∧
      t.writeWatch = (s.writeWatch || s.requests.isEmpty) ∧ out = [.push c] := by
  cases h with
  | idle may => exact absurd (asking.fresh.symm.trans may) (by simp)
  | pushResponse fresh resp => exact absurd (opcode2expected_of_isResponse resp) expects
  | @pushRequest _ _ _ _ _ count fresh req counts =>
    have queue : (if id ≠ 0 then .new id count pdu true u notify :: s.requests
        else s.requests ++ [.new id count pdu true u notify]) =
        s.requests ++ [Command.new id count pdu true u notify] := by
      split_ifs with given
      · simp [front given]
      · rfl
    refine ⟨⟨asking.fresh, asking.noResponse, ?_, ?_⟩, _, rfl, rfl, rfl, queue, rfl, rfl⟩
    · dsimp only
      rw [queue]
      intro c hc
      rcases List.mem_append.mp hc with hc | hc
      · exact asking.asks c hc
      · obtain rfl := List.mem_singleton.mp hc
        exact ⟨.new id count pdu true u notify, rfl, expects⟩
    · dsimp only
      rw [queue]
      intro c hc
      cases requests : s.requests with
      | nil => simp [requests] at hc
      | cons d q =>
        rw [requests] at hc
        rcases List.mem_append.mp hc with hc | hc
        · exact asking.first c (by rwa [requests])
        · obtain rfl := List.mem_singleton.mp hc
          rfl
  | free => exact absurd alive (by simp [Sender.destroyed])

/-- The first request is written, or the watch goes. -/
theorem Next.wrote_request {hup written : Bool} (h : Next s (.canWrite hup written) t out)
    (alive : t.freed = false) :
    t.Asking ∧
      (t = { s with writeWatch := false } ∧ out = [] ∧
          (hup = false → written = true → ∀ c ∈ s.requests.head?, c.sent = true) ∨
        ∃ c q, s.requests = c :: q ∧ c.sent = false ∧
          t.requests = { c with sent := true } :: q ∧ out = [.write c]) := by
  cases h with
  | idle may => exact may.elim
  | sleep _ silent =>
    refine ⟨⟨asking.fresh, asking.noResponse, asking.asks, asking.first⟩, .inl ⟨rfl, rfl, ?_⟩⟩
    rintro rfl rfl
    rcases silent with stale | closed | failed | ⟨-, sent⟩
    · exact absurd (asking.fresh.symm.trans stale) (by simp)
    · cases closed
    · cases failed
    · exact sent
  | writeResponse _ _ head => exact absurd (asking.noResponse.symm.trans head) (by simp)
  | @writeCommand c q _ _ _ head _ expects =>
    exact absurd expects (asking.asks c (by simp [head])).expects
  | @writeRequest c q _ _ _ head unsent expects =>
    have all := asking.asks
    have rest := asking.first
    rw [head] at all rest
    refine ⟨⟨asking.fresh, asking.noResponse, ?_, rest⟩, .inr ⟨c, q, head, unsent, rfl, rfl⟩⟩
    intro d hd
    rcases List.mem_cons.mp hd with rfl | hd
    · obtain ⟨⟨opcode, expected, -⟩, func, -⟩ := all c (by simp)
      exact ⟨⟨opcode, expected, fun _ => expects⟩, func, expects⟩
    · exact all d (List.mem_cons_of_mem _ hd)
  | free => exact absurd alive (by simp [Sender.destroyed])

/-- A response is reported to the first request, whatever it was, and the next one is written. -/
theorem Next.answered_request {bytes : List UInt8} {c : Command κ} {q : List (Command κ)}
    (h : Next s (.received false (some bytes)) t out)
    (resp : isResponse ((bytes.take 512).headD 0) = true) (head : s.requests = c :: q) :
    t.Asking ∧ t.requests = q ∧ t.writeWatch = (s.writeWatch || !q.isEmpty) ∧
      ∃ evts, (∀ e ∈ evts, e.Quiet) ∧ out = evts ++
        Attrib.finish c (Attrib.responseStatus c (bytes.take 512)) (bytes.take 512) := by
  cases h with
  | idle may =>
    rcases may with stale | ⟨none, -⟩
    · exact absurd (asking.fresh.symm.trans stale) (by simp)
    · simp only [Op.response, resp, if_true] at none
      cases none
  | unasked _ _ empty => exact absurd (head.symm.trans empty) (by simp)
  | answer _ _ head' quiet =>
    obtain ⟨rfl, rfl⟩ := List.cons.inj (head.symm.trans head')
    have all := asking.asks
    have rest := asking.first
    rw [head] at all rest
    refine ⟨⟨asking.fresh, asking.noResponse, fun d hd => all d (List.mem_cons_of_mem _ hd),
      fun d hd => rest d (List.mem_of_mem_tail hd)⟩, rfl, ?_, _, quiet, rfl⟩
    simp [asking.noResponse]
  | free _ drops => exact drops.elim

/-- A read that gives no response reports to no callback, and wakes the sender at most. -/
theorem Next.read_other {hup : Bool} {read : Option (List UInt8)}
    (h : Next s (.received hup read) t out)
    (other : (Op.received hup read : Op κ).response = none) :
    t.Asking ∧ t.requests = s.requests ∧ (∀ e ∈ out, e.Quiet) ∧
      (hup = true ∨ read ≠ none → t = s) := by
  cases h with
  | idle _ quiet => exact ⟨asking, rfl, quiet, fun _ => rfl⟩
  | wake =>
    refine ⟨⟨asking.fresh, asking.noResponse, asking.asks, asking.first⟩, rfl, by simp, ?_⟩
    rintro (closed | bytes)
    · cases closed
    · exact absurd rfl bytes
  | unasked _ resp | answer _ resp =>
    simp only [Op.response, resp, if_true] at other
    cases other
  | free _ drops => exact drops.elim

end Steps

end LibMip.Channel
