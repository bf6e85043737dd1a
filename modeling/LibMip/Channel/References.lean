import LibMip.Channel.Steps

/-!
# References and watches

The watch that writes holds a reference to the channel while it is attached, besides those that
`g_attrib_ref` and `g_attrib_unref` count. The channel goes with the last reference and not before,
so that an owner who dropped the only reference may still have the channel until the watch goes. The
watch that reads holds none: it goes with a hang-up, or with a response that no request waits for.
-/

namespace LibMip.Channel

variable {κ : Type*}

namespace Attrib

variable {a b : Attrib κ} {op : Op κ} {out : List (Effect κ)} {n : Int}

/-! ## Changes that concern neither the references nor the watch -/

structure Steady (a b : Attrib κ) : Prop where
  refs : b.refs = a.refs
  writeWatch : b.writeWatch = a.writeWatch
  freed : b.freed = a.freed
  reading : b.reading = a.reading

theorem Steady.refl (a : Attrib κ) : a.Steady a := ⟨rfl, rfl, rfl, rfl⟩

theorem steady_writeHead {put : List (Command κ) → Attrib κ} (puts : ∀ q, a.Steady (put q))
    (c : Command κ) (q : List (Command κ)) (written : Bool) :
    a.Steady (a.writeHead put c q written).1 := by
  unfold writeHead
  split_ifs
  · exact .refl a
  · exact .refl a
  · exact puts q
  · obtain ⟨refs, writeWatch, freed, reading⟩ := puts ({ c with sent := true } :: q)
    dsimp only
    split_ifs <;> exact ⟨refs, writeWatch, freed, reading⟩

theorem steady_canWriteData (a : Attrib κ) (hup written : Bool) :
    a.Steady (a.canWriteData hup written).1 := by
  unfold canWriteData
  split_ifs
  · exact .refl a
  · exact .refl a
  · split
    · refine steady_writeHead (fun q => ?_) _ _ _
      exact ⟨rfl, rfl, rfl, rfl⟩
    · refine steady_writeHead (fun q => ?_) _ _ _
      exact ⟨rfl, rfl, rfl, rfl⟩
    · exact .refl a

theorem steady_cancel (a : Attrib κ) (id : UInt32) : a.Steady (a.cancel id).1 := by
  unfold cancel
  split
  · exact ⟨rfl, rfl, rfl, rfl⟩
  · split <;> exact ⟨rfl, rfl, rfl, rfl⟩

theorem steady_cancelAll (a : Attrib κ) : a.Steady a.cancelAll.1 := ⟨rfl, rfl, rfl, rfl⟩

theorem steady_disconnectTimeout (a : Attrib κ) : a.Steady a.disconnectTimeout.1 :=
  ⟨rfl, rfl, rfl, rfl⟩

theorem steady_register (a : Attrib κ) (opcode : UInt8) (handle : Nat) (u : κ) (notify : Bool) :
    a.Steady (a.register opcode handle u notify).1 := ⟨rfl, rfl, rfl, rfl⟩

theorem steady_unregister (a : Attrib κ) (id : UInt32) : a.Steady (a.unregister id).1 := by
  unfold unregister
  split_ifs
  · exact .refl a
  · split <;> exact ⟨rfl, rfl, rfl, rfl⟩

theorem steady_unregisterAll (a : Attrib κ) : a.Steady a.unregisterAll.1 := by
  unfold unregisterAll
  split_ifs <;> exact ⟨rfl, rfl, rfl, rfl⟩

theorem steady_setMtu (a : Attrib κ) (mtu : Int) : a.Steady (a.setMtu mtu).1 := by
  unfold setMtu
  split_ifs <;> exact ⟨rfl, rfl, rfl, rfl⟩

/-! ## The count -/

/-- The channel is there, with `n` references besides that of the watch. -/
structure OwnedBy (n : Int) (a : Attrib κ) : Prop where
  alive : a.freed = false
  positive : 0 < a.refs
  counted : (a.refs : Int) = n + if a.writeWatch then 1 else 0

/-- The channel is gone, and its watch with it. -/
def Gone (a : Attrib κ) : Prop := a.freed = true ∧ a.writeWatch = false

namespace OwnedBy

theorem of_eq (h : a.OwnedBy n) (refs : b.refs = a.refs) (watch : b.writeWatch = a.writeWatch)
    (freed : b.freed = a.freed) : b.OwnedBy n := by
  refine ⟨freed.trans h.alive, refs ▸ h.positive, ?_⟩
  rw [watch, refs]
  exact h.counted

theorem steady (h : a.OwnedBy n) (s : a.Steady b) : b.OwnedBy n :=
  h.of_eq s.refs s.writeWatch s.freed

theorem wakeUpSender (h : a.OwnedBy n) : a.wakeUpSender.OwnedBy n := by
  obtain ⟨alive, positive, counted⟩ := h
  unfold Attrib.wakeUpSender
  split_ifs with on
  · exact ⟨alive, positive, counted⟩
  · rw [if_neg on] at counted
    refine ⟨alive, Nat.succ_pos _, ?_⟩
    simp only [Nat.cast_add, Nat.cast_one, counted, if_true]
    omega

theorem wakeIf (h : a.OwnedBy n) (p : Prop) [Decidable p] :
    (if p then a.wakeUpSender else a).OwnedBy n := by
  split_ifs
  · exact h.wakeUpSender
  · exact h

theorem wakeIfQueued (h : a.OwnedBy n) : a.wakeIfQueued.OwnedBy n := by
  unfold Attrib.wakeIfQueued
  split_ifs
  · exact h
  · exact h.wakeUpSender

theorem ref (h : a.OwnedBy n) : a.ref.OwnedBy (n + 1) := by
  obtain ⟨alive, positive, counted⟩ := h
  refine ⟨alive, Nat.succ_pos _, ?_⟩
  rw [Attrib.ref, Nat.cast_add, Nat.cast_one, counted]
  exact Int.add_right_comm _ _ _

theorem unref (h : a.OwnedBy n) : a.unref.1.OwnedBy (n - 1) ∨ n - 1 ≤ 0 ∧ a.unref.1.Gone := by
  obtain ⟨alive, positive, counted⟩ := h
  unfold Attrib.unref
  split_ifs with more
  · refine .inl ⟨alive, more, ?_⟩
    dsimp only
    rw [Nat.cast_sub positive, counted]
    omega
  · refine .inr ⟨?_, rfl, rfl⟩
    split_ifs at counted <;> omega

/-- The reference of the watch goes with it. -/
theorem destroySender (h : a.OwnedBy n) (on : a.writeWatch = true) :
    a.destroySender.1.OwnedBy n ∨ n ≤ 0 ∧ a.destroySender.1.Gone := by
  have without : ({ a with writeWatch := false } : Attrib κ).OwnedBy (n + 1) := by
    refine ⟨h.alive, h.positive, ?_⟩
    simp only [h.counted, on, Bool.false_eq_true, if_true, if_false]
    omega
  have goes := without.unref
  rw [Int.add_sub_cancel] at goes
  exact goes

theorem onWritable (h : a.OwnedBy n) (on : a.writeWatch = true) (hup written : Bool) :
    (a.onWritable hup written).1.OwnedBy n ∨ n ≤ 0 ∧ (a.onWritable hup written).1.Gone := by
  have steady := a.steady_canWriteData hup written
  unfold Attrib.onWritable
  dsimp only
  split_ifs
  · exact .inl (h.steady steady)
  · exact (h.steady steady).destroySender (steady.writeWatch.trans on)

theorem enqueue (h : a.OwnedBy n) (c : Command κ) (front : Bool) :
    (a.enqueue c front).OwnedBy n := by
  unfold Attrib.enqueue
  by_cases resp : isResponse c.opcode = true
  · rw [if_pos resp]
    refine wakeIf ?_ _
    exact h.steady ⟨rfl, rfl, rfl, rfl⟩
  · rw [if_neg resp]
    refine wakeIf ?_ _
    exact h.steady ⟨rfl, rfl, rfl, rfl⟩

theorem send (h : a.OwnedBy n) (id : UInt32) (pdu : List UInt8) (func : Bool) (u : κ)
    (notify : Bool) : (a.send id pdu func u notify).1.OwnedBy n := by
  unfold Attrib.send
  by_cases stale : a.stale = true
  · rw [if_pos stale]
    exact h
  · rw [if_neg stale]
    refine enqueue ?_ _ _
    exact h.steady ⟨rfl, rfl, rfl, rfl⟩

theorem receivedData (h : a.OwnedBy n) (hup : Bool) (read : Option (List UInt8)) :
    (a.receivedData hup read).1.OwnedBy n := by
  unfold Attrib.receivedData
  split_ifs
  · exact h.of_eq rfl rfl rfl
  · exact h.of_eq rfl rfl rfl
  · split
    · exact h.wakeIfQueued
    · split_ifs
      · exact h
      · dsimp only
        split
        · exact h.of_eq rfl rfl rfl
        · refine wakeIfQueued ?_
          exact h.of_eq rfl rfl rfl

end OwnedBy

/-! ## The watch that reads -/

@[simp] theorem wakeUpSender_reading (a : Attrib κ) : a.wakeUpSender.reading = a.reading := by
  unfold wakeUpSender
  split_ifs <;> rfl

theorem wakeIfQueued_reading (a : Attrib κ) : a.wakeIfQueued.reading = a.reading := by
  unfold wakeIfQueued
  split_ifs
  · rfl
  · exact a.wakeUpSender_reading

theorem enqueue_reading (a : Attrib κ) (c : Command κ) (front : Bool) :
    (a.enqueue c front).reading = a.reading := by
  unfold enqueue
  by_cases resp : isResponse c.opcode = true
  · rw [if_pos resp]
    dsimp only
    split_ifs <;> simp
  · rw [if_neg resp]
    dsimp only
    split_ifs <;> simp

theorem send_reading (a : Attrib κ) (id : UInt32) (pdu : List UInt8) (func : Bool) (u : κ)
    (notify : Bool) : (a.send id pdu func u notify).1.reading = a.reading := by
  unfold send
  by_cases stale : a.stale = true
  · rw [if_pos stale]
  · rw [if_neg stale]
    exact enqueue_reading _ _ _

theorem unref_reading (alive : a.unref.1.freed = false) : a.unref.1.reading = a.reading := by
  unfold unref at *
  split_ifs at * with more
  · rfl
  · cases alive

theorem onWritable_reading {hup written : Bool}
    (alive : (a.onWritable hup written).1.freed = false) :
    (a.onWritable hup written).1.reading = a.reading := by
  have steady := (a.steady_canWriteData hup written).reading
  unfold onWritable at *
  dsimp only at *
  split_ifs at * with stays
  · exact steady
  · exact (unref_reading alive).trans steady

/-- A response to the request at the head of the queue keeps the watch on. -/
theorem receivedData_reading {bytes : List UInt8} (fresh : a.stale = false)
    (asked : isResponse (bytes.headD 0) = true → a.requests ≠ []) :
    (a.receivedData false (some bytes)).1.reading = a.reading := by
  unfold receivedData
  simp only [fresh, Bool.false_eq_true, if_false]
  split_ifs with event
  · rfl
  · cases head : a.requests with
    | nil => exact absurd head (asked (by simpa using event))
    | cons c q => exact wakeIfQueued_reading _

theorem step_send_reading {id : UInt32} {pdu : List UInt8} {func : Bool} {u : κ} {notify : Bool}
    (h : a.step (.send id pdu func u notify) = some (b, out)) : b.reading = a.reading := by
  simp only [step, stepLive] at h
  split_ifs at h
  obtain ⟨rfl, -⟩ := Prod.mk.inj (Option.some.inj h)
  exact a.send_reading id pdu func u notify

theorem step_canWrite_reading {hup written : Bool}
    (h : a.step (.canWrite hup written) = some (b, out)) (alive : b.freed = false) :
    b.reading = a.reading := by
  simp only [step, stepLive] at h
  split_ifs at h
  obtain ⟨rfl, -⟩ := Prod.ext_iff.mp (Option.some.inj h)
  exact onWritable_reading alive

theorem step_received_reading {bytes : List UInt8}
    (h : a.step (.received false (some bytes)) = some (b, out)) (fresh : a.stale = false)
    (asked : isResponse ((bytes.take 512).headD 0) = true → a.requests ≠ []) :
    b.reading = a.reading := by
  simp only [step, stepLive] at h
  split_ifs at h
  obtain ⟨rfl, -⟩ := Prod.ext_iff.mp (Option.some.inj h)
  exact receivedData_reading fresh asked

end Attrib

/-- The references a step takes, or drops. -/
def Op.taken : Op κ → Int
  | .ref => 1
  | .unref => -1
  | _ => 0

/-- The references of the owner, who has one from `g_attrib_new` on. -/
def owners (h : List (Op κ)) : Int := 1 + (h.map Op.taken).sum

open Attrib

variable {a b : Attrib κ} {op : Op κ} {out : List (Effect κ)} {n : Int}

/-- A step keeps the count, or frees a channel that has no owner any more. -/
theorem Attrib.OwnedBy.step (h : a.OwnedBy n) (next : a.step op = some (b, out)) :
    b.OwnedBy (n + op.taken) ∨ n + op.taken ≤ 0 ∧ b.Gone := by
  have stays {t : Attrib κ} {o : List (Effect κ)} (kept : t.OwnedBy n)
      (same : some (t, o) = some (b, out)) : b.OwnedBy (n + 0) := by
    obtain ⟨rfl, -⟩ := Prod.mk.inj (Option.some.inj same)
    rwa [Int.add_zero]
  rw [Attrib.step, if_neg (by simp [h.alive])] at next
  cases op with simp only [stepLive] at next
  | send id pdu func u notify =>
    split_ifs at next
    exact .inl (stays (h.send id pdu func u notify) next)
  | cancel id => exact .inl (stays (h.steady (a.steady_cancel id)) next)
  | cancelAll => exact .inl (stays (h.steady a.steady_cancelAll) next)
  | canWrite hup written =>
    split_ifs at next with on
    obtain ⟨rfl, -⟩ := Prod.ext_iff.mp (Option.some.inj next)
    simpa [Op.taken] using h.onWritable on hup written
  | received hup read =>
    split_ifs at next
    exact .inl (stays (h.receivedData hup _) next)
  | timeout =>
    split_ifs at next
    exact .inl (stays (h.steady a.steady_disconnectTimeout) next)
  | register opcode handle u notify =>
    exact .inl (stays (h.steady (a.steady_register opcode handle u notify)) next)
  | unregister id => exact .inl (stays (h.steady (a.steady_unregister id)) next)
  | unregisterAll => exact .inl (stays (h.steady a.steady_unregisterAll) next)
  | setMtu mtu => exact .inl (stays (h.steady (a.steady_setMtu mtu)) next)
  | ref =>
    obtain ⟨rfl, -⟩ := Prod.mk.inj (Option.some.inj next)
    exact .inl h.ref
  | unref =>
    obtain ⟨rfl, -⟩ := Prod.ext_iff.mp (Option.some.inj next)
    exact h.unref

/-- In every run the channel is freed exactly when the watch that writes is off and the owner has
dropped all references taken. -/
theorem freed_iff {attCid : Bool} {imtu : Nat} {h : List (Op κ)} {log : List (Effect κ)}
    (hr : (channel attCid imtu).machine.run h = some (a, log)) :
    a.freed = true ↔ a.writeWatch = false ∧ owners h ≤ 0 := by
  have counted : a.OwnedBy (owners h) ∨ owners h ≤ 0 ∧ a.Gone := by
    refine Runs.Transducer.always (I := fun h a _ => a.OwnedBy (owners h) ∨ owners h ≤ 0 ∧ a.Gone)
      (.inl ⟨rfl, Nat.one_pos, rfl⟩) ?_ hr
    rintro h a log op b out - (owned | ⟨-, freed, -⟩) next
    · have taken : owners (h ++ [op]) = owners h + op.taken := by
        simp [owners, Int.add_assoc]
      rw [taken]
      exact owned.step next
    · rw [show (channel attCid imtu).step a op = a.step op from rfl, Attrib.step,
        if_pos freed] at next
      cases next
  rcases counted with ⟨alive, positive, counted⟩ | ⟨dropped, freed, off⟩
  · constructor
    · intro freed
      exact absurd (alive.symm.trans freed) (by simp)
    · rintro ⟨off, dropped⟩
      rw [off, if_neg (by simp)] at counted
      omega
  · exact ⟨fun _ => ⟨off, dropped⟩, fun _ => freed⟩

/-- The only reference is dropped with a command queued: the command is still written, and the
channel goes when there is nothing more to write. -/
theorem freed_iff_late :
    ∃ a log, (channel true 23).machine.run
        [.send 0 [0x52] false () false, .unref, .canWrite false true, .canWrite false true] =
        some ((a : Attrib Unit), log) ∧
      (a.freed = true ↔ a.writeWatch = false ∧ owners ([.send 0 [0x52] false () false, .unref,
        .canWrite false true, .canWrite false true] : List (Op Unit)) ≤ 0) :=
  ⟨_, _, rfl, freed_iff rfl⟩

end LibMip.Channel
