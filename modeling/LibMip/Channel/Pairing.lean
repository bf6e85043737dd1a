import LibMip.Channel.Outstanding

/-!
# Requests and their responses

A response carries no reference to the request it answers. `received_data` takes it for the
answer to the request at the head of the queue, and this is right as long as the peer sends a
response only while a request is out and no request overtakes another: then the results that the
callers get are the requests written and the responses received, paired in order.
-/

namespace LibMip.Channel

open Sender

variable {κ : Type*}

/-- The responses received in a run. -/
def responses (h : List (Op κ)) : List (List UInt8) := h.filterMap Op.response

namespace Effect

/-- A command written that expects a response. -/
@[simp] def asked : Effect κ → Option (Command κ)
  | .write c => if c.expected ≠ 0 then some c else none
  | _ => none

/-- The result a caller gets: the status, the bytes and the request they are for. -/
@[simp] def result : Effect κ → Option (UInt8 × List UInt8 × UInt32 × List UInt8 × κ × Bool)
  | .func status bytes c => some (status, bytes, c.key)
  | _ => none

end Effect

/-- The requests written in the course of a log. -/
def asks (log : List (Effect κ)) : List (Command κ) := log.filterMap Effect.asked

def results (log : List (Effect κ)) : List (UInt8 × List UInt8 × UInt32 × List UInt8 × κ × Bool) :=
  log.filterMap Effect.result

/-- The result of a request that a response answers. -/
def answer (c : Command κ) (bytes : List UInt8) :
    UInt8 × List UInt8 × UInt32 × List UInt8 × κ × Bool :=
  (Attrib.responseStatus c bytes, bytes, c.key)

/-- The step keeps the order of the protocol: no request overtakes another, a response comes while
a request is out, and the timer does not expire. -/
structure Prompt (s : Sender κ) (op : Op κ) : Prop where
  inTurn : ¬ s.Overtakes op
  asked : op.response.isSome → s.outstanding.isSome
  inTime : op ≠ .timeout

/-- The step cancels nothing. -/
def Op.Keeps : Op κ → Prop
  | .cancel _ | .cancelAll => False
  | _ => True

@[simp] theorem asks_append (l m : List (Effect κ)) : asks (l ++ m) = asks l ++ asks m :=
  List.filterMap_append

@[simp] theorem results_append (l m : List (Effect κ)) :
    results (l ++ m) = results l ++ results m := List.filterMap_append

@[simp] theorem responses_concat (h : List (Op κ)) (op : Op κ) :
    responses (h ++ [op]) = responses h ++ op.response.toList := by
  simp only [responses, List.filterMap_append]
  cases h : op.response <;> simp [h]

/-! ## The invariant -/

/-- The requests written and not answered are the one that is out; it may have lost its `func`
since, unless `kept` holds. -/
def Waiting (kept : Prop) (s : Sender κ) (pending : List (Command κ)) : Prop :=
  match s.outstanding with
  | none => pending = []
  | some d => ∃ c, pending = [c] ∧ d.key = c.key ∧ d.expected = c.expected ∧
      (d.func = true → c.func = true) ∧ (kept → d.func = c.func)

/-- The results that pairing the requests with the responses gives. -/
def paired (asked : List (Command κ)) (received : List (List UInt8)) :
    List (UInt8 × List UInt8 × UInt32 × List UInt8 × κ × Bool) :=
  ((asked.zip received).filter (·.1.func)).map fun p => answer p.1 p.2

/-- All requests written but those in `pending` have had their response, and the results are
those of the pairs; a cancellation only takes results out. -/
structure InOrder (h : List (Op κ)) (log : List (Effect κ)) (pending : List (Command κ)) :
    Prop where
  one : pending.length ≤ 1
  past : ∃ past, asks log = past ++ pending ∧ past.length = (responses h).length ∧
    (results log).Sublist (paired past (responses h)) ∧
    ((∀ op ∈ h, op.Keeps) → results log = paired past (responses h))

/-- The request pending is the one that is out. -/
def Paired (h : List (Op κ)) (s : Sender κ) (log : List (Effect κ)) : Prop :=
  ∃ pending, InOrder h log pending ∧
    (s.freed = false → Waiting (∀ op ∈ h, op.Keeps) s pending)

theorem paired_concat {past : List (Command κ)} {received : List (List UInt8)} (c : Command κ)
    (bytes : List UInt8) (same : past.length = received.length) :
    paired (past ++ [c]) (received ++ [bytes]) =
      paired past received ++ if c.func then [answer c bytes] else [] := by
  simp only [paired, List.zip_append same, List.zip_cons_cons, List.zip_nil_right,
    List.filter_append, List.map_append]
  cases hf : c.func <;> simp [hf]

theorem Waiting.weaken {kept kept' : Prop} {s t : Sender κ} {pending : List (Command κ)}
    (h : Waiting kept s pending) (less : kept' → kept) (same : t.outstanding = s.outstanding) :
    Waiting kept' t pending := by
  unfold Waiting at h ⊢
  rw [same]
  cases out : s.outstanding with
  | none => simpa [out] using h
  | some d =>
    rw [out] at h
    obtain ⟨c, hc, key, expected, func, flag⟩ := h
    exact ⟨c, hc, key, expected, func, fun hk => flag (less hk)⟩

/-- A step without requests or results keeps the pairs. -/
theorem Paired.frame {h : List (Op κ)} {s t : Sender κ} {op : Op κ} {log out : List (Effect κ)}
    (inv : Paired h s log) (asked : asks out = []) (result : results out = [])
    (response : op.response = none)
    (live : s.freed = false) (waiting : ∀ pending, Waiting (∀ o ∈ h, o.Keeps) s pending →
      Waiting (∀ o ∈ h ++ [op], o.Keeps) t pending) :
    Paired (h ++ [op]) t (log ++ out) := by
  obtain ⟨pending, ⟨one, past, split, same, sub, eq⟩, waits⟩ := inv
  refine ⟨pending, ⟨one, past, ?_, ?_, ?_, fun kept => ?_⟩, fun _ => waiting pending (waits live)⟩
  · rw [asks_append, asked, List.append_nil, split]
  · rw [responses_concat, response, same]
    simp
  · simpa [responses_concat, response, result] using sub
  · simpa [responses_concat, response, result] using
      eq fun o ho => kept o (List.mem_append_left _ ho)

/-- A request that is out and silenced waits as before. -/
theorem Waiting.silenced {kept kept' : Prop} {s t : Sender κ} {pending : List (Command κ)}
    (h : Waiting kept s pending) (drops : ¬ kept')
    (same : t.outstanding = s.outstanding.map Command.silenced) :
    Waiting kept' t pending := by
  unfold Waiting at h ⊢
  rw [same]
  cases out : s.outstanding with
  | none => simpa [out] using h
  | some d =>
    rw [out] at h
    obtain ⟨c, hc, key, expected, -, -⟩ := h
    exact ⟨c, hc, key, expected, by simp [Command.silenced], fun hk => absurd hk drops⟩

/-- Effects without a write of a request and without a report. -/
theorem quiet_asks {out : List (Effect κ)} (quiet : ∀ e ∈ out, e.Quiet) :
    asks out = [] ∧ results out = [] := by
  constructor <;> refine List.filterMap_eq_nil_iff.mpr fun e he => ?_ <;>
    (have here := quiet e he; cases e <;> first | rfl | exact here.elim)

theorem finish_asks (c : Command κ) (status : UInt8) (bytes : List UInt8) :
    asks (Attrib.finish c status bytes) = [] ∧
      results (Attrib.finish c status bytes) =
        if c.func then [(status, bytes, c.key)] else [] := by
  unfold Attrib.finish
  cases c.func <;> exact ⟨rfl, rfl⟩

theorem destroy_asks (q : List (Command κ)) :
    asks (q.map .destroy) = [] ∧ results (q.map Effect.destroy) = [] := by
  induction q with
  | nil => exact ⟨rfl, rfl⟩
  | cons c q ih => exact ih

theorem cancelPerQueue_asks {id : UInt32} {q q' : List (Command κ)} {out : List (Effect κ)}
    (h : Attrib.cancelPerQueue id q = some (q', out)) : asks out = [] ∧ results out = [] := by
  rcases Attrib.cancelPerQueue_some h with ⟨d, l, -, -, -, rfl⟩ | ⟨l₁, d, l₂, -, -, rfl, -⟩ <;>
    exact ⟨rfl, rfl⟩

theorem cancelAllPerQueue_asks (q : List (Command κ)) :
    asks (Attrib.cancelAllPerQueue q).2 = [] ∧ results (Attrib.cancelAllPerQueue q).2 = [] := by
  rw [Attrib.cancelAllPerQueue_eq]
  exact destroy_asks _

/-- A request is written while none is out. -/
theorem Paired.ask {h : List (Op κ)} {s t : Sender κ} {op : Op κ} {log out : List (Effect κ)}
    {c : Command κ} (inv : Paired h s log) (live : s.freed = false) (none : s.outstanding = none)
    (asked : asks out = [c]) (result : results out = []) (response : op.response = Option.none)
    (sent : t.outstanding = some { c with sent := true }) :
    Paired (h ++ [op]) t (log ++ out) := by
  obtain ⟨pending, ⟨one, past, split, same, sub, eq⟩, waits⟩ := inv
  obtain rfl : pending = [] := by simpa [Waiting, none] using waits live
  have waiting : Waiting (∀ o ∈ h ++ [op], o.Keeps) t [c] := by
    simp only [Waiting, sent]
    exact ⟨c, rfl, rfl, rfl, fun hf => hf, fun _ => rfl⟩
  refine ⟨[c], ⟨le_rfl, past, ?_, ?_, ?_, fun kept => ?_⟩, fun _ => waiting⟩
  · rw [asks_append, split, asked, List.append_nil]
  · rw [same, responses_concat, response, Option.toList_none, List.append_nil]
  · simpa [responses_concat, response, result] using sub
  · simpa [responses_concat, response, result] using
      eq fun o ho => kept o (List.mem_append_left _ ho)

/-- A response is received while a request is out. -/
theorem Paired.answered {h : List (Op κ)} {s t : Sender κ} {op : Op κ} {log out : List (Effect κ)}
    {c : Command κ} {bytes : List UInt8} (inv : Paired h s log) (live : s.freed = false)
    (waiting : s.outstanding = some c) (asked : asks out = [])
    (result : results out = if c.func then [answer c bytes] else [])
    (response : op.response = some bytes) (none : t.outstanding = none) :
    Paired (h ++ [op]) t (log ++ out) := by
  obtain ⟨pending, ⟨one, past, split, same, sub, eq⟩, waits⟩ := inv
  obtain ⟨d, rfl, key, expected, func, flag⟩ : ∃ d, pending = [d] ∧ c.key = d.key ∧
      c.expected = d.expected ∧ (c.func = true → d.func = true) ∧
      ((∀ op ∈ h, op.Keeps) → c.func = d.func) := by simpa [Waiting, waiting] using waits live
  have answered : answer c bytes = answer d bytes := by
    simp [answer, Attrib.responseStatus, key, expected]
  refine ⟨[], ⟨Nat.zero_le _, past ++ [d], ?_, ?_, ?_, fun kept => ?_⟩, fun _ => ?_⟩
  · rw [asks_append, split, asked]
  · simp [same, response]
  · rw [responses_concat, response, Option.toList_some, paired_concat d _ same, results_append,
      result, answered]
    refine sub.append ?_
    by_cases hf : c.func = true
    · rw [if_pos hf, if_pos (func hf)]
    · rw [if_neg hf]
      exact List.nil_sublist _
  · have before : ∀ o ∈ h, o.Keeps := fun o ho => kept o (List.mem_append_left _ ho)
    rw [responses_concat, response, Option.toList_some, paired_concat d _ same, results_append,
      result, answered, eq before, flag before]
  · simp [Waiting, none]

theorem Next.paired {h : List (Op κ)} {s t : Sender κ} {op : Op κ} {log out : List (Effect κ)}
    (next : Next s op t out) (typed : s.Typed) (live : s.freed = false) (orderly : s.Orderly)
    (prompt : Prompt s op) (inv : Paired h s log) : Paired (h ++ [op]) t (log ++ out) := by
  have less : (∀ o ∈ h ++ [op], o.Keeps) → ∀ o ∈ h, o.Keeps :=
    fun kept o ho => kept o (List.mem_append_left _ ho)
  have still {t : Sender κ} (same : t.outstanding = s.outstanding) (pending : List (Command κ))
      (waits : Waiting (∀ o ∈ h, o.Keeps) s pending) :
      Waiting (∀ o ∈ h ++ [op], o.Keeps) t pending := waits.weaken less same
  have silenced {t : Sender κ} (drops : ¬ op.Keeps)
      (same : t.outstanding = s.outstanding.map Command.silenced) (pending : List (Command κ))
      (waits : Waiting (∀ o ∈ h, o.Keeps) s pending) :
      Waiting (∀ o ∈ h ++ [op], o.Keeps) t pending :=
    waits.silenced (fun kept => drops (kept op (by simp))) same
  induction next with
  | @idle op out may quiet =>
    obtain ⟨asked, result⟩ := quiet_asks quiet
    have response : op.response = none := by
      cases op with
      | received hup read =>
        rcases may with stale | ⟨none, -⟩
        · by_contra some
          have out := prompt.asked (Option.ne_none_iff_isSome.mp some)
          simp [outstanding, orderly.stale stale] at out
        · exact none
      | _ => rfl
    exact inv.frame asked result response live (still rfl)
  | pushResponse | wake | sleep => exact inv.frame rfl rfl rfl live (still rfl)
  | writeResponse awake fresh head =>
    have here := typed.responses _ (head ▸ List.mem_cons_self)
    have expects := (here.1.of_response here.2).1
    exact inv.frame (by simp [asks, expects]) rfl rfl live (still rfl)
  | @pushRequest id pdu func u n count fresh req counts =>
    refine inv.frame rfl rfl rfl live (still ?_)
    have unsent : (Command.new id count pdu func u n).sent = false := rfl
    by_cases given : id ≠ 0
    · have none : s.outstanding = none := by
        by_contra out
        exact prompt.inTurn ⟨given, req, fresh, Option.ne_none_iff_isSome.mp out⟩
      rw [none]
      simp [outstanding, given, Option.filter, unsent]
    · simp only [outstanding, given, if_false]
      cases s.requests <;> simp [Option.filter, unsent]
  | cancelRequest found =>
    obtain ⟨asked, result⟩ := cancelPerQueue_asks found
    obtain ⟨-, same | same⟩ := cancelPerQueue_outstanding found orderly.first
    · exact inv.frame asked result rfl live (still same)
    · exact inv.frame asked result rfl live (silenced id same)
  | cancelResponse _ found =>
    obtain ⟨asked, result⟩ := cancelPerQueue_asks found
    exact inv.frame asked result rfl live (still rfl)
  | cancelAll =>
    obtain ⟨asked, result⟩ := cancelAllPerQueue_asks s.requests
    obtain ⟨asked', result'⟩ := cancelAllPerQueue_asks s.responses
    exact inv.frame (by simp [asked, asked']) (by simp [result, result']) rfl
      live (silenced id (cancelAllPerQueue_outstanding orderly.first).2)
  | @writeCommand c q awake fresh noResponse head unsent expects =>
    have none : s.outstanding = none := by simpa [unsent] using outstanding_of_cons head
    have rest := orderly.unsent none
    refine inv.frame (by simp [asks, expects]) rfl rfl live (still ?_)
    rw [none, outstanding_eq_none_iff]
    exact fun d hd => rest d (head ▸ List.mem_cons_of_mem _ (List.mem_of_head? hd))
  | @writeRequest c q awake fresh noResponse head unsent expects =>
    have none : s.outstanding = none := by simpa [unsent] using outstanding_of_cons head
    have asked : asks [Effect.write c] = [c] := List.filterMap_cons_some (if_pos expects)
    exact inv.ask live none asked rfl rfl (by simp [outstanding, Option.filter])
  | unasked fresh resp empty quiet =>
    have out := prompt.asked (by rw [Op.response, if_pos resp]; rfl)
    simp [outstanding, empty] at out
  | @answer bytes c q out fresh resp head quiet =>
    have received : (Op.received false (some bytes) : Op κ).response = some (bytes.take 512) :=
      if_pos resp
    have sent : c.sent = true := by
      rw [← outstanding_of_cons head]
      exact prompt.asked (by rw [received]; rfl)
    have waiting : s.outstanding = some c := by simp [outstanding, head, Option.filter, sent]
    have rest : ∀ d ∈ q, d.sent = false := by simpa [head] using orderly.first
    obtain ⟨a, r⟩ := quiet_asks quiet
    obtain ⟨a', r'⟩ := finish_asks c (Attrib.responseStatus c (bytes.take 512)) (bytes.take 512)
    exact inv.answered live waiting (by simp [a, a']) (by rw [results_append, r, r']; rfl) received
      (outstanding_eq_none_iff.mpr fun d hd => rest d (List.mem_of_head? hd))
  | timeout => exact absurd rfl prompt.inTime
  | @free op t out evts before drops quiet ih =>
    obtain ⟨pending, ⟨one, past, split, same, sub, eq⟩, -⟩ := ih prompt less still silenced
    obtain ⟨a, r⟩ := quiet_asks quiet
    obtain ⟨a', r'⟩ := destroy_asks t.queued
    refine ⟨pending, ⟨one, past, ?_, same, ?_, fun kept => ?_⟩,
      fun alive => absurd alive (by simp [destroyed])⟩
    · rw [← split]
      simp [a, a']
    · simpa [r, r'] using sub
    · simpa [r, r'] using eq kept

/-! ## Runs -/

variable {attCid : Bool} {imtu : Nat} {h : List (Op κ)} {a : Attrib κ} {log : List (Effect κ)}

end LibMip.Channel
