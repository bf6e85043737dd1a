import LibMip.Channel.Steps

/-!
# What becomes of a command

A command that was queued is destroyed once, and reported at most once, just before. The books
balance over a run except for one defect: `cancel_all_per_queue` keeps the command it finds sent
at the front of the queue, and when it finds several, each takes the place of the one before,
which is then neither in the queue nor destroyed.
-/

namespace LibMip.Channel

variable {κ : Type*}

/-- What stays the same of a command while it is queued. -/
def Command.key (c : Command κ) : UInt32 × List UInt8 × κ × Bool :=
  (c.id, c.pdu, c.userData, c.notify)

namespace Effect

@[simp] def pushed : Effect κ → Option (Command κ)
  | .push c => some c
  | _ => none

@[simp] def destroyed : Effect κ → Option (Command κ)
  | .destroy c => some c
  | _ => none

@[simp] def reported : Effect κ → Option (Command κ)
  | .func _ _ c => some c
  | _ => none

end Effect

/-- The commands queued in the course of a log. -/
def pushes (log : List (Effect κ)) : List (Command κ) := log.filterMap Effect.pushed

def destroys (log : List (Effect κ)) : List (Command κ) := log.filterMap Effect.destroyed

def reports (log : List (Effect κ)) : List (Command κ) := log.filterMap Effect.reported

@[simp] theorem pushes_cons (e : Effect κ) (l : List (Effect κ)) :
    pushes (e :: l) = e.pushed.toList ++ pushes l := by
  cases e <;> rfl

@[simp] theorem destroys_cons (e : Effect κ) (l : List (Effect κ)) :
    destroys (e :: l) = e.destroyed.toList ++ destroys l := by
  cases e <;> rfl

@[simp] theorem reports_cons (e : Effect κ) (l : List (Effect κ)) :
    reports (e :: l) = e.reported.toList ++ reports l := by
  cases e <;> rfl

@[simp] theorem books_nil :
    pushes ([] : List (Effect κ)) = [] ∧ destroys ([] : List (Effect κ)) = [] ∧
      reports ([] : List (Effect κ)) = [] := ⟨rfl, rfl, rfl⟩

@[simp] theorem pushes_append (l m : List (Effect κ)) : pushes (l ++ m) = pushes l ++ pushes m :=
  List.filterMap_append

@[simp] theorem destroys_append (l m : List (Effect κ)) :
    destroys (l ++ m) = destroys l ++ destroys m := List.filterMap_append

@[simp] theorem reports_append (l m : List (Effect κ)) :
    reports (l ++ m) = reports l ++ reports m := List.filterMap_append

@[simp] theorem pushes_destroy (q : List (Command κ)) : pushes (q.map .destroy) = [] := by
  induction q with
  | nil => rfl
  | cons c q ih => exact ih

@[simp] theorem destroys_destroy (q : List (Command κ)) : destroys (q.map .destroy) = q := by
  induction q with
  | nil => rfl
  | cons c q ih => exact congrArg (c :: ·) ih

@[simp] theorem reports_destroy (q : List (Command κ)) : reports (q.map .destroy) = [] := by
  induction q with
  | nil => rfl
  | cons c q ih => exact ih

/-- Effects on registrations are no effects on commands. -/
theorem quiet_books {out : List (Effect κ)} (quiet : ∀ e ∈ out, e.Quiet) :
    pushes out = [] ∧ destroys out = [] ∧ reports out = [] := by
  have nothing (f : Effect κ → Option (Command κ)) (h : ∀ e : Effect κ, e.Quiet → f e = none) :
      out.filterMap f = [] := List.filterMap_eq_nil_iff.mpr fun e he => h e (quiet e he)
  refine ⟨nothing _ ?_, nothing _ ?_, nothing _ ?_⟩ <;>
    (intro e he; cases e <;> first | rfl | exact he.elim)

/-- The end of a command destroys it and reports at most it. -/
theorem finish_books (c : Command κ) (status : UInt8) (bytes : List UInt8) :
    pushes (Attrib.finish c status bytes) = [] ∧ destroys (Attrib.finish c status bytes) = [c] ∧
      reports (Attrib.finish c status bytes) = if c.func then [c] else [] := by
  unfold Attrib.finish
  cases c.func <;> exact ⟨rfl, rfl, rfl⟩

theorem aborted_books (cs : List (Command κ)) :
    let out := cs.flatMap fun c => Attrib.finish c attEcodeAborted []
    pushes out = [] ∧ destroys out = cs ∧ reports out = cs.filter (·.func) := by
  induction cs with
  | nil => exact ⟨rfl, rfl, rfl⟩
  | cons c cs ih =>
    obtain ⟨p, d, r⟩ := finish_books c attEcodeAborted []
    simp only [List.flatMap_cons, pushes_append, destroys_append, reports_append, p, d, r, ih,
      List.filter_cons]
    cases c.func <;> simp

theorem expire_books (cs : List (Command κ)) :
    pushes (Attrib.expire cs) = [] ∧ destroys (Attrib.expire cs) = cs ∧
      reports (Attrib.expire cs) = cs.filter (·.func) := by
  cases cs with
  | nil => exact ⟨rfl, rfl, rfl⟩
  | cons c cs =>
    obtain ⟨p, d, r⟩ := finish_books c attEcodeTimeout []
    obtain ⟨ps, ds, rs⟩ := aborted_books cs
    simp only [Attrib.expire, pushes_append, destroys_append, reports_append, p, d, r, ps, ds, rs,
      List.filter_cons]
    cases c.func <;> simp

/-! ## One step -/

open Classical in
/-- How many commands of a list have a given key. -/
noncomputable def held (k : UInt32 × List UInt8 × κ × Bool) (q : List (Command κ)) : Nat :=
  q.countP fun c => c.key = k

@[simp] theorem held_nil (k : UInt32 × List UInt8 × κ × Bool) : held k [] = 0 := rfl

@[simp] theorem held_append (k : UInt32 × List UInt8 × κ × Bool) (q r : List (Command κ)) :
    held k (q ++ r) = held k q + held k r := List.countP_append

theorem held_cons (k : UInt32 × List UInt8 × κ × Bool) (c : Command κ) (q : List (Command κ)) :
    held k (c :: q) = held k [c] + held k q := held_append k [c] q

theorem perm_iff_held {q r : List (Command κ)} :
    (q.map Command.key).Perm (r.map Command.key) ↔ ∀ k, held k q = held k r := by
  classical
  rw [List.perm_iff_count]
  simp only [List.count, List.countP_map, held]
  refine forall_congr' fun k => ?_
  have same : ((fun x => x == k) ∘ Command.key : Command κ → Bool) =
      fun c => decide (c.key = k) := by
    funext c
    rw [Bool.eq_iff_iff]
    simp
  rw [same]

/-- What `cancel_all_per_queue` loses of a queue. -/
def leaked (q : List (Command κ)) : List (Command κ) := (q.takeWhile (·.sent)).dropLast

/-- What a step loses. -/
def lost (s : Sender κ) : Op κ → List (Command κ)
  | .cancelAll => leaked s.requests
  | _ => []

theorem cancelPerQueue_balance {id : UInt32} {q q' : List (Command κ)} {out : List (Effect κ)}
    (h : Attrib.cancelPerQueue id q = some (q', out)) :
    pushes out = [] ∧ reports out = [] ∧ ∀ k, held k q = held k q' + held k (destroys out) := by
  rcases Attrib.cancelPerQueue_some h with ⟨d, l, rfl, -, rfl, rfl⟩ | ⟨l₁, d, l₂, rfl, rfl, rfl, -⟩
  · refine ⟨rfl, rfl, fun k => ?_⟩
    rw [held_cons, held_cons k { d with func := false }]
    rfl
  · refine ⟨rfl, rfl, fun k => ?_⟩
    have one : destroys [Effect.destroy d] = [d] := rfl
    rw [one, held_append, held_append, held_cons]
    omega

theorem cancelAllPerQueue_balance (q : List (Command κ)) :
    pushes (Attrib.cancelAllPerQueue q).2 = [] ∧ reports (Attrib.cancelAllPerQueue q).2 = [] ∧
      ∀ k, held k q = held k (Attrib.cancelAllPerQueue q).1 +
        held k (destroys (Attrib.cancelAllPerQueue q).2) + held k (leaked q) := by
  rw [Attrib.cancelAllPerQueue_eq]
  refine ⟨pushes_destroy _, reports_destroy _, fun k => ?_⟩
  have split := List.takeWhile_append_dropWhile (p := fun c : Command κ => c.sent) (l := q)
  conv_lhs => rw [← split]
  rw [destroys_destroy, held_append, leaked]
  rcases List.eq_nil_or_concat (q.takeWhile (·.sent)) with none | ⟨l, c, some⟩
  · simp [none]
  · have same : held k [{ c with func := false }] = held k [c] := rfl
    simp only [some, List.concat_eq_append, List.getLast?_append, List.getLast?_singleton,
      Option.some_or, Option.map_some, Option.toList_some, List.dropLast_concat, held_append, same]
    omega

/-- Of the responses nothing is lost, as none is kept as sent. -/
theorem leaked_responses {s : Sender κ} (typed : s.Typed) : leaked s.responses = [] := by
  cases h : s.responses with
  | nil => rfl
  | cons c q =>
    have here := typed.responses c (by simp [h])
    simp [leaked, (here.1.of_response here.2).2]

/-- The step keeps the books of a command with key `k`. -/
def Balanced (s : Sender κ) (op : Op κ) (t : Sender κ) (out : List (Effect κ)) : Prop :=
  (∀ k, held k s.queued + held k (pushes out) =
    held k t.queued + held k (destroys out) + held k (lost s op)) ∧
  (reports out).Sublist (destroys out)

/-- Whatever is queued and not lost is still queued or destroyed, and reported only in the step
that destroys it. -/
theorem Next.balanced {s t : Sender κ} {op : Op κ} {out : List (Effect κ)} (h : Next s op t out)
    (typed : s.Typed) : Balanced s op t out := by
  induction h with
  | @idle op out may quiet =>
    obtain ⟨p, d, r⟩ := quiet_books quiet
    have kept : lost s op = [] := by cases op <;> first | rfl | exact may.elim
    simp [Balanced, p, d, r, kept]
  | pushResponse fresh resp counts =>
    refine ⟨fun k => ?_, by simp⟩
    simp only [Sender.queued, held_append, lost, held_nil, pushes_cons, destroys_cons,
      Effect.pushed, Effect.destroyed, Option.toList_some, Option.toList_none, books_nil]
    omega
  | @pushRequest id pdu func u n count fresh req counts =>
    refine ⟨fun k => ?_, by simp⟩
    simp only [Sender.queued, held_append, lost, held_nil, pushes_cons, destroys_cons,
      Effect.pushed, Effect.destroyed, Option.toList_some, Option.toList_none, books_nil]
    split_ifs
    · rw [held_cons k _ s.requests]
      omega
    · rw [held_append]
      omega
  | cancelRequest found =>
    obtain ⟨p, r, same⟩ := cancelPerQueue_balance found
    refine ⟨fun k => ?_, by simp [r]⟩
    simp only [Sender.queued, p, held_append, held_nil, lost, same k]
    omega
  | cancelResponse _ found =>
    obtain ⟨p, r, same⟩ := cancelPerQueue_balance found
    refine ⟨fun k => ?_, by simp [r]⟩
    simp only [Sender.queued, p, held_append, held_nil, lost, same k]
    omega
  | cancelAll =>
    obtain ⟨p, r, same⟩ := cancelAllPerQueue_balance s.requests
    obtain ⟨p', r', same'⟩ := cancelAllPerQueue_balance s.responses
    refine ⟨fun k => ?_, by simp [r, r']⟩
    simp only [Sender.queued, pushes_append, destroys_append, p, p', held_append, held_nil, lost,
      same k, same' k, leaked_responses typed]
    omega
  | sleep | wake =>
    exact ⟨fun k => by simp [Sender.queued, lost], by simp⟩
  | unasked fresh resp empty quiet =>
    obtain ⟨p, d, r⟩ := quiet_books quiet
    exact ⟨fun k => by simp [Sender.queued, lost, p, d], by simp [d, r]⟩
  | @writeResponse c q awake fresh head =>
    refine ⟨fun k => ?_, by simp⟩
    simp only [Sender.queued, held_append, lost, held_nil, pushes_cons, destroys_cons, head,
      Effect.pushed, Effect.destroyed, Option.toList_some, Option.toList_none, books_nil]
    rw [held_cons k c q]
    omega
  | @writeCommand c q awake fresh noResponse head unsent expects =>
    refine ⟨fun k => ?_, by simp⟩
    simp only [Sender.queued, held_append, lost, held_nil, pushes_cons, destroys_cons, head,
      Effect.pushed, Effect.destroyed, Option.toList_some, Option.toList_none, books_nil]
    rw [held_cons k c q]
    omega
  | @writeRequest c q awake fresh noResponse head unsent expects =>
    refine ⟨fun k => ?_, by simp⟩
    have same : held k [{ c with sent := true }] = held k [c] := rfl
    simp only [Sender.queued, held_append, lost, held_nil, pushes_cons, destroys_cons, head,
      Effect.pushed, Effect.destroyed, Option.toList_none, books_nil]
    rw [held_cons k c q, held_cons k _ q, same]
  | @answer bytes c q out fresh resp head quiet =>
    obtain ⟨p, d, r⟩ := quiet_books quiet
    obtain ⟨p', d', r'⟩ := finish_books c
      (Attrib.responseStatus c (bytes.take 512)) (bytes.take 512)
    refine ⟨fun k => ?_, ?_⟩
    · simp only [Sender.queued, held_append, lost, held_nil, pushes_append, destroys_append, head,
        p, p', d, d']
      rw [held_cons k c q]
      omega
    · simp only [reports_append, destroys_append, d, d', r, r']
      split_ifs <;> simp
  | timeout running =>
    obtain ⟨p, d, r⟩ := expire_books s.requests
    refine ⟨fun k => ?_, ?_⟩
    · simp only [Sender.queued, held_append, lost, held_nil, p, d]
      omega
    · rw [r, d]
      exact List.filter_sublist
  | free before drops quiet ih =>
    obtain ⟨p, d, r⟩ := quiet_books quiet
    obtain ⟨same, sub⟩ := ih
    refine ⟨fun k => ?_, ?_⟩
    · have here := same k
      simp only [pushes_append, destroys_append, held_append, pushes_destroy, destroys_destroy, p,
        d, held_nil, Sender.destroyed, Sender.queued] at here ⊢
      omega
    · simp only [reports_append, destroys_append, reports_destroy, destroys_destroy, d, r]
      simpa using sub.trans (List.sublist_append_left _ _)

/-! ## Runs -/

/-- The step cancels everything while two requests that were sent stand at the front. -/
def Leaks (s : Sender κ) (op : Op κ) : Prop := lost s op ≠ []

/-- What stays true of the books: what was lost is made up, and nothing is reported that is not
destroyed. -/
structure Books (s : Sender κ) (log : List (Effect κ)) (gone : List (Command κ)) : Prop where
  balance : ∀ k, held k (pushes log) = held k s.queued + held k (destroys log) + held k gone
  reports : (reports log).Sublist (destroys log)

theorem Books.next {s t : Sender κ} {op : Op κ} {out log : List (Effect κ)}
    {gone : List (Command κ)} (books : Books s log gone) (h : Next s op t out) (typed : s.Typed) :
    Books t (log ++ out) (gone ++ lost s op) := by
  obtain ⟨same, sub⟩ := h.balanced typed
  refine ⟨fun k => ?_, ?_⟩
  · have before := books.balance k
    have step := same k
    simp only [pushes_append, destroys_append, held_append]
    omega
  · simpa using books.reports.append sub

variable {attCid : Bool} {imtu : Nat} {h : List (Op κ)} {a : Attrib κ} {log : List (Effect κ)}

theorem books_run (hr : (channel attCid imtu).machine.run h = some (a, log)) :
    ∃ gone, Books a.toSender log gone ∧
      (gone = [] ↔ (channel attCid imtu).machine.EveryStep
        (fun _ a op => ¬ Leaks a.1.toSender op) h) := by
  refine sender_invariant (P := fun _ _ => True)
    (I := fun h s log => ∃ gone, Books s log gone ∧ (gone = [] ↔
      (channel attCid imtu).machine.EveryStep (fun _ a op => ¬ Leaks a.1.toSender op) h))
    ⟨[], ⟨fun k => rfl, List.nil_sublist _⟩, by simp [Runs.Machine.EveryStep.nil]⟩
    ?_ (fun _ _ _ _ _ => trivial) hr
  rintro h a log op t out run typed - ⟨gone, books, none⟩ - next
  refine ⟨gone ++ lost a.toSender op, books.next next typed, ?_⟩
  rw [List.append_eq_nil_iff, Runs.Machine.EveryStep.concat_iff, none]
  simp [run, Leaks]

/-- The commands queued in a run are those still queued and those destroyed, each as often, if
and only if no cancellation of everything finds two requests sent. The commands reported are among
the destroyed ones, in the order of their destruction. -/
theorem ledger_iff (hr : (channel attCid imtu).machine.run h = some (a, log)) :
    (((pushes log).map Command.key).Perm ((a.queued ++ destroys log).map Command.key) ↔
      (channel attCid imtu).machine.EveryStep (fun _ a op => ¬ Leaks a.1.toSender op) h) ∧
      (reports log).Sublist (destroys log) := by
  obtain ⟨gone, books, none⟩ := books_run hr
  refine ⟨?_, books.reports⟩
  rw [← none, perm_iff_held]
  constructor
  · intro same
    cases gone with
    | nil => rfl
    | cons c gone =>
      have here := books.balance c.key
      have there := same c.key
      have counted : held c.key [c] = 1 := by simp [held]
      rw [held_append] at there
      rw [held_cons, counted] at here
      omega
  · rintro rfl k
    have here := books.balance k
    simpa using here

/-- A command queued and written. -/
theorem ledger_iff_command :
    (((pushes [.push (.new 0 1 [0x52] false () false), .write (.new 0 1 [0x52] false () false),
          .destroy (.new 0 1 [0x52] false () false)]).map Command.key).Perm
        ((Sender.queued ⟨true, false, false, [], [], 1, false, false⟩ ++
          destroys [.push (.new 0 1 [0x52] false () false),
            .write (.new 0 1 [0x52] false () false),
            .destroy (.new 0 1 [0x52] false () false)]).map Command.key) ↔
      (channel true 23).machine.EveryStep (fun _ a op => ¬ Leaks a.1.toSender op)
        [.send 0 [0x52] false () false, .canWrite false true]) ∧
      (reports [Effect.push (.new 0 1 [0x52] false () false),
        .write (.new 0 1 [0x52] false () false),
        .destroy (.new 0 1 [0x52] false () false)]).Sublist
          (destroys [.push (.new 0 1 [0x52] false () false),
            .write (.new 0 1 [0x52] false () false),
            .destroy (.new 0 1 [0x52] false () false)]) :=
  ledger_iff (a := ⟨⟨true, false, false, [], [], 1, false, false⟩, 2, 23, true, [], 0⟩) rfl

end LibMip.Channel
