import LibMip.Gatt.Request
import Mathlib.Logic.Function.Basic

/-!
# Writing a characteristic

`gatt_write_char` writes a value that fits in one request with a write request. A longer one it
sends to the server piece by piece, in prepared writes that the server keeps in a queue, and then
asks it to execute these. The offset, which the responses advance, has 16 bits. The procedure never
cancels what it has prepared.
-/

namespace LibMip.Gatt

open Att Channel Exchange Octets

/-! ## The procedure -/

/-- `vlen - offset` is not a length, and what is sent lies outside of the value. -/
inductive WriteFault where
  | overread
  deriving DecidableEq

/-- What waits for a response: the callback of the caller, or `prepare_write_cb` with
`struct write_long_data`. -/
inductive WriteLong where
  | final
  | prepare (handle offset : UInt16) (value : List UInt8)

abbrev WriteTurn := Turn WriteLong (List UInt8) (Except WriteFault Answer)

variable (b : Buflen)

/-- `execute_write`. -/
def executeWrite (flags : UInt8) : WriteTurn :=
  .ask .final ((encExecWriteReq flags b.len).getD [])

/-- `prepare_write`. -/
def prepareWrite (handle offset : UInt16) (value : List UInt8) : WriteTurn :=
  if value.length < offset.toNat then .stop (.error .overread)
  else .ask (.prepare handle offset value)
    ((encPrepWriteReq handle offset (value.drop offset.toNat) b.len).getD [])

/-- `prepare_write_cb`. -/
def prepareWriteCb (handle offset : UInt16) (value : List UInt8) (answer : Answer) : WriteTurn :=
  if answer.1 ≠ 0 then .stop (.ok answer)
  else
    let offset := offset + UInt16.ofNat answer.2.length - 5
    if offset.toNat = value.length then executeWrite b attWriteAllPrepWrites
    else prepareWrite b handle offset value

/-- `gatt_write_char`, with a callback. -/
def gattWriteChar (handle : UInt16) (value : List UInt8) : WriteTurn :=
  if value.length ≤ b.len - 3 then .ask .final ((encWriteReq handle value b.len).getD [])
  else prepareWrite b handle 0 value

def writeLong {ρ : Type*} (answer : ρ → List UInt8 → ρ × Answer) :
    Dialogue WriteLong ρ (List UInt8) Answer (Except WriteFault Answer) where
  resume
    | .final => fun answer => .stop (.ok answer)
    | .prepare handle offset value => prepareWriteCb b handle offset value
  answer

/-! ## A server that keeps a queue -/

/-- A part of a value for a handle, to be written at an offset. -/
structure Prepared where
  handle : UInt16
  offset : UInt16
  part : List UInt8

/-- The attributes of a server and its queue of prepared writes. -/
structure Store where
  attr : UInt16 → List UInt8
  queue : List Prepared

/-- A value with some octets replaced from an offset on. -/
def splice (offset : Nat) (part value : List UInt8) : List UInt8 :=
  value.take offset ++ part ++ value.drop (offset + part.length)

def writeAt (attr : UInt16 → List UInt8) (handle : UInt16) (offset : Nat) (part : List UInt8) :
    UInt16 → List UInt8 :=
  Function.update attr handle (splice offset part (attr handle))

/-- The attributes after the prepared writes, in the order they were prepared. -/
def commit (attr : UInt16 → List UInt8) (queue : List Prepared) : UInt16 → List UInt8 :=
  queue.foldl (fun attr p => writeAt attr p.handle p.offset.toNat p.part) attr

/-- The response of a server that takes another prepared write when its queue has room. -/
def serveWrite (room : Nat → Bool) (w : Store) (request : List UInt8) : Store × List UInt8 :=
  match decWriteReq request, decHeader attOpPrepWriteReq 2 request with
  | some (handle, value), _ => ({ w with attr := writeAt w.attr handle 0 value }, [attOpWriteResp])
  | none, some ([handle, offset], part) =>
    if room w.queue.length then
      ({ w with queue := w.queue ++ [⟨handle, offset, part⟩] }, attOpPrepWriteResp :: request.tail)
    else (w, (encErrorResp attOpPrepWriteReq handle attEcodePrepQueueFull b.len).getD [])
  | none, _ =>
    if request = [attOpExecWriteReq, attWriteAllPrepWrites] then
      (⟨commit w.attr w.queue, []⟩, [attOpExecWriteResp])
    else if request = [attOpExecWriteReq, attCancelAllPrepWrites] then
      ({ w with queue := [] }, [attOpExecWriteResp])
    else (w, [])

/-- The procedure with that server. -/
def writeStore (room : Nat → Bool) :
    Dialogue WriteLong Store (List UInt8) Answer (Except WriteFault Answer) :=
  writeLong b (reported (serveWrite b room))

/-! ## Requests -/

theorem prepReq_eq (handle offset : UInt16) (part : List UInt8) :
    (encPrepWriteReq handle offset part b.len).getD [] =
      attOpPrepWriteReq :: (putU16 handle ++ putU16 offset ++ part.take (b.len - 5)) := by
  have fits : ¬ b.len < 5 := b.room (by decide)
  simp [encPrepWriteReq, encHeader, putWords, fits]

theorem writeReq_eq {value : List UInt8} (handle : UInt16) (fits : value.length ≤ b.len - 3) :
    (encWriteReq handle value b.len).getD [] = attOpWriteReq :: (putU16 handle ++ value) := by
  have room : ¬ b.len < 3 := b.room (by decide)
  have whole : value.take (b.len - 3) = value := List.take_of_length_le fits
  simp [encWriteReq, encHeader, putWords, room, whole]

theorem execReq_eq {flags : UInt8} (known : ¬ flags > 1) :
    (encExecWriteReq flags b.len).getD [] = [attOpExecWriteReq, flags] := by
  have room : ¬ b.len < 2 := b.room (by decide)
  rw [encExecWriteReq, if_neg room, if_neg known]
  rfl

theorem decWriteReq_prep (rest : List UInt8) : decWriteReq (attOpPrepWriteReq :: rest) = none := by
  have other : attOpPrepWriteReq ≠ attOpWriteReq := by decide
  simp [decWriteReq, decWordValue, decHeader, other]

theorem decPrep (handle offset : UInt16) (part : List UInt8) :
    decHeader attOpPrepWriteReq 2
        (attOpPrepWriteReq :: (putU16 handle ++ putU16 offset ++ part)) =
      some ([handle, offset], part) :=
  decHeader_eq_some_iff.mpr ⟨rfl, by simp [putWords]⟩

section Served

variable {b} {room : Nat → Bool} {w : Store} {handle offset : UInt16} {value part : List UInt8}

theorem serveWrite_prep (free : room w.queue.length = true) :
    serveWrite b room w (attOpPrepWriteReq :: (putU16 handle ++ putU16 offset ++ part)) =
      ({ w with queue := w.queue ++ [⟨handle, offset, part⟩] },
        attOpPrepWriteResp :: (putU16 handle ++ putU16 offset ++ part)) := by
  simp only [serveWrite, decWriteReq_prep, decPrep, free, if_true, List.tail_cons]

theorem serveWrite_full (full : room w.queue.length = false) :
    serveWrite b room w (attOpPrepWriteReq :: (putU16 handle ++ putU16 offset ++ part)) =
      (w, (encErrorResp attOpPrepWriteReq handle attEcodePrepQueueFull b.len).getD []) := by
  simp only [serveWrite, decWriteReq_prep, decPrep, full, Bool.false_eq_true, if_false]

theorem serveWrite_exec :
    serveWrite b room w [attOpExecWriteReq, attWriteAllPrepWrites] =
      (⟨commit w.attr w.queue, []⟩, [attOpExecWriteResp]) := by
  have notWrite : decWriteReq [attOpExecWriteReq, attWriteAllPrepWrites] = none := by decide
  have notPrep :
      decHeader attOpPrepWriteReq 2 [attOpExecWriteReq, attWriteAllPrepWrites] = none := by
    decide
  simp only [serveWrite, notWrite, notPrep, if_true]

/-- How far the response to a prepared write advances the offset. -/
def advance (b : Buflen) : Nat := min (b.len - 5) 507

/-- The addition in 16 bits is exact as long as the sum has 16 bits. -/
theorem offset_toNat {length : Nat} (header : 5 ≤ length) (cut : length ≤ 512)
    (fits : offset.toNat + (length - 5) < 65536) :
    (offset + UInt16.ofNat length - 5).toNat = offset.toNat + (length - 5) := by
  have five : (5 : UInt16).toNat = 5 := rfl
  rw [UInt16.toNat_sub, UInt16.toNat_add, UInt16.toNat_ofNat', five]
  omega

/-- The response to a prepared write that is taken repeats it, as far as it is read. -/
theorem follow_prepareCb (free : room w.queue.length = true) :
    (writeStore b room).follow w (.prepare handle offset value)
        (attOpPrepWriteReq :: (putU16 handle ++ putU16 offset ++ part)) =
      ({ w with queue := w.queue ++ [⟨handle, offset, part⟩] },
        prepareWriteCb b handle offset value
          (0, attOpPrepWriteResp :: (putU16 handle ++ putU16 offset ++ part).take 511)) := by
  have ok : status (attOpPrepWriteReq :: (putU16 handle ++ putU16 offset ++ part))
      (attOpPrepWriteResp :: (putU16 handle ++ putU16 offset ++ part).take 511) = 0 :=
    status_expected
  simp only [Dialogue.follow, writeStore, writeLong, reported, serveWrite_prep free,
    List.take_succ_cons, ok]

theorem follow_prepare (free : room w.queue.length = true) (small : value.length < 65536)
    (within : offset.toNat < value.length) :
    ∃ offset' : UInt16,
      offset'.toNat = offset.toNat + min (advance b) (value.length - offset.toNat) ∧
      (writeStore b room).follow w (.prepare handle offset value) (attOpPrepWriteReq ::
          (putU16 handle ++ putU16 offset ++ (value.drop offset.toNat).take (b.len - 5))) =
        ({ w with queue := w.queue ++
            [⟨handle, offset, (value.drop offset.toNat).take (b.len - 5)⟩] },
          if offset'.toNat = value.length then executeWrite b attWriteAllPrepWrites
          else prepareWrite b handle offset' value) := by
  have least : 23 ≤ b.len := b.least
  have length : (attOpPrepWriteResp :: (putU16 handle ++ putU16 offset ++
      (value.drop offset.toNat).take (b.len - 5)).take 511).length =
        min (advance b) (value.length - offset.toNat) + 5 := by
    simp only [List.length_cons, List.length_take, List.length_append, putU16_length,
      List.length_drop, advance]
    omega
  refine ⟨offset + UInt16.ofNat (min (advance b) (value.length - offset.toNat) + 5) - 5, ?_, ?_⟩
  · rw [offset_toNat (by omega) (by rw [advance]; omega) (by omega), Nat.add_sub_cancel]
  · rw [follow_prepareCb free, prepareWriteCb, if_neg (by simp)]
    simp only [length]

theorem follow_full (full : room w.queue.length = false) :
    ∃ response, (writeStore b room).follow w (.prepare handle offset value) (attOpPrepWriteReq ::
        (putU16 handle ++ putU16 offset ++ part)) =
      (w, .stop (.ok (attEcodePrepQueueFull, response))) := by
  obtain ⟨lo, hi, written, -⟩ := putU16_eq handle
  have fits : ¬ b.len < 5 := b.room (by decide)
  have error : (encErrorResp attOpPrepWriteReq handle attEcodePrepQueueFull b.len).getD [] =
      [attOpError, attOpPrepWriteReq, lo, hi, attEcodePrepQueueFull] := by
    simp [encErrorResp, fits, written]
  have code : attEcodePrepQueueFull ≠ 0 := by decide
  refine ⟨[attOpError, attOpPrepWriteReq, lo, hi, attEcodePrepQueueFull], ?_⟩
  simp only [Dialogue.follow, writeStore, writeLong, reported, serveWrite_full full, error,
    List.take_succ_cons, List.take_nil, status_error, prepareWriteCb]
  rw [if_pos code]

theorem follow_exec :
    (writeStore b room).follow w .final [attOpExecWriteReq, attWriteAllPrepWrites] =
      (⟨commit w.attr w.queue, []⟩, .stop (.ok (0, [attOpExecWriteResp]))) := by
  have ok : status [attOpExecWriteReq, attWriteAllPrepWrites]
      (List.take 512 [attOpExecWriteResp]) = 0 := status_expected
  simp only [Dialogue.follow, writeStore, writeLong, reported, serveWrite_exec, ok]
  rfl

/-- A piece of a value written over a value that starts with as much of it. -/
theorem splice_piece {value old : List UInt8} {offset m count : Nat} (reached : offset ≤ m)
    (within : m ≤ value.length) (further : m ≤ offset + count) :
    splice offset ((value.drop offset).take count) (value.take m ++ old.drop m) =
      value.take (min (offset + count) value.length) ++
        old.drop (min (offset + count) value.length) := by
  have before : (value.take m ++ old.drop m).take offset = value.take offset := by
    rw [List.take_append_of_le_length (by rw [List.length_take]; omega), List.take_take,
      Nat.min_eq_left reached]
  have piece : offset + ((value.drop offset).take count).length =
      min (offset + count) value.length := by
    rw [List.length_take, List.length_drop]
    omega
  have after : (value.take m ++ old.drop m).drop (min (offset + count) value.length) =
      old.drop (min (offset + count) value.length) := by
    have length : (value.take m).length = m := by
      rw [List.length_take]
      omega
    rw [List.drop_append, length, List.drop_eq_nil_of_le (by omega), List.nil_append,
      List.drop_drop]
    congr 1
    omega
  have joined : value.take offset ++ (value.drop offset).take count =
      value.take (min (offset + count) value.length) := by
    rw [← List.take_add, List.take_eq_take_iff]
    omega
  rw [splice, before, piece, after, joined]

theorem commit_concat (attr : UInt16 → List UInt8) (queue : List Prepared) (p : Prepared) :
    commit attr (queue ++ [p]) = writeAt (commit attr queue) p.handle p.offset.toNat p.part := by
  simp [commit]

variable (b room) in
/-- So many octets of the value have been prepared, in pieces that follow each other and that the
queue had room for. -/
structure Writing (w₀ w : Store) (handle offset : UInt16) (value : List UInt8) : Prop where
  attr : w.attr = w₀.attr
  sent : w.queue.length * advance b = offset.toNat
  roomy : ∀ k < w.queue.length, room k = true
  prepared : ∃ m, offset.toNat ≤ m ∧ m ≤ value.length ∧ m ≤ offset.toNat + (b.len - 5) ∧
    commit w₀.attr w.queue =
      Function.update w₀.attr handle (value.take m ++ (w₀.attr handle).drop m)

variable (b room) in
/-- The value is the queue's, or the attribute's when the procedure stops without an error. -/
def WritingTurn (w₀ : Store) (handle : UInt16) (value : List UInt8) (w : Store) : WriteTurn → Prop
  | .ask (.prepare h offset v) request => h = handle ∧ v = value ∧
      request = attOpPrepWriteReq ::
        (putU16 handle ++ putU16 offset ++ (value.drop offset.toNat).take (b.len - 5)) ∧
      offset.toNat < value.length ∧ Writing b room w₀ w handle offset value
  | .ask .final request => request = [attOpExecWriteReq, attWriteAllPrepWrites] ∧
      w.attr = w₀.attr ∧ (∀ k, k * advance b < value.length → room k = true) ∧
      commit w₀.attr w.queue =
        Function.update w₀.attr handle (value ++ (w₀.attr handle).drop value.length)
  | .stop (.ok answer) =>
      (answer.1 = 0 ∧ (∀ k, k * advance b < value.length → room k = true) ∧
        w = ⟨Function.update w₀.attr handle (value ++ (w₀.attr handle).drop value.length), []⟩) ∨
      (answer.1 = attEcodePrepQueueFull ∧ w.attr = w₀.attr ∧ room w.queue.length = false ∧
        w.queue.length * advance b < value.length ∧ ∀ k < w.queue.length, room k = true)
  | .stop (.error _) => False

/-- What is left to prepare. -/
def unsentOctets : WriteLong → Nat
  | .final => 0
  | .prepare _ offset value => value.length - offset.toNat + 1

/-- The queue has room for another piece: it is prepared, and the next one is sent, or they are all
executed. -/
theorem writing_prepare {w₀ : Store} (small : value.length < 65536)
    (free : room w.queue.length = true) (within : offset.toNat < value.length)
    (writing : Writing b room w₀ w handle offset value) :
    ∃ next, (writeStore b room).follow w (.prepare handle offset value) (attOpPrepWriteReq ::
          (putU16 handle ++ putU16 offset ++ (value.drop offset.toNat).take (b.len - 5))) =
        ({ w with queue := w.queue ++
            [⟨handle, offset, (value.drop offset.toNat).take (b.len - 5)⟩] }, next) ∧
      WritingTurn b room w₀ handle value { w with queue := w.queue ++
            [⟨handle, offset, (value.drop offset.toNat).take (b.len - 5)⟩] } next ∧
      ∀ s request, next = .ask s request →
        unsentOctets s < unsentOctets (.prepare handle offset value) := by
  have least : 23 ≤ b.len := b.least
  have positive : 0 < advance b := by
    rw [advance]
    omega
  obtain ⟨offset', moved, next⟩ := @follow_prepare b room w handle offset value free small within
  obtain ⟨m, reached, inside, further, committed⟩ := writing.prepared
  have committed' : commit w₀.attr (w.queue ++
        [⟨handle, offset, (value.drop offset.toNat).take (b.len - 5)⟩]) =
      Function.update w₀.attr handle (value.take (min (offset.toNat + (b.len - 5)) value.length) ++
        (w₀.attr handle).drop (min (offset.toNat + (b.len - 5)) value.length)) := by
    rw [commit_concat, committed, writeAt, Function.update_self, Function.update_idem,
      splice_piece reached inside further]
  have roomy : ∀ k < w.queue.length + 1, room k = true := by
    intro k hk
    rcases Nat.lt_succ_iff_lt_or_eq.mp hk with old | rfl
    · exact writing.roomy k old
    · exact free
  refine ⟨_, next, ?_, ?_⟩
  · split_ifs with last
    · have all : min (offset.toNat + (b.len - 5)) value.length = value.length := by
        rw [advance] at moved
        omega
      refine ⟨execReq_eq b (by decide), writing.attr, ?_, ?_⟩
      · intro k hk
        refine roomy k ?_
        by_contra many
        have : (w.queue.length + 1) * advance b ≤ k * advance b :=
          Nat.mul_le_mul_right _ (by omega)
        rw [Nat.succ_mul, writing.sent] at this
        omega
      · rw [committed', all, List.take_length]
    · have more : offset'.toNat < value.length := by omega
      have inside' : ¬ value.length < offset'.toNat := by omega
      rw [prepareWrite, if_neg inside']
      refine ⟨rfl, rfl, prepReq_eq b handle offset' _, more, writing.attr, ?_, ?_,
        min (offset.toNat + (b.len - 5)) value.length, ?_, ?_, ?_, committed'⟩
      · rw [List.length_append, List.length_singleton, Nat.succ_mul, writing.sent]
        omega
      · rw [List.length_append, List.length_singleton]
        exact roomy
      · rw [moved, advance]
        omega
      · omega
      · omega
  · intro s request same
    split_ifs at same with last
    · obtain ⟨rfl, -⟩ := Turn.ask.inj same
      simp [unsentOctets]
    · have inside' : ¬ value.length < offset'.toNat := by omega
      rw [prepareWrite, if_neg inside'] at same
      obtain ⟨rfl, -⟩ := Turn.ask.inj same
      simp only [unsentOctets]
      omega

theorem writing_follow {w₀ : Store} (small : value.length < 65536) (w : Store) (s : WriteLong)
    (request : List UInt8) (writing : WritingTurn b room w₀ handle value w (.ask s request)) :
    WritingTurn b room w₀ handle value ((writeStore b room).follow w s request).1
        ((writeStore b room).follow w s request).2 ∧
      ∀ s' request', ((writeStore b room).follow w s request).2 = .ask s' request' →
        unsentOctets s' < unsentOctets s := by
  cases s with
  | final =>
    obtain ⟨rfl, attr, roomy, committed⟩ := writing
    rw [follow_exec, attr, committed]
    exact ⟨.inl ⟨rfl, roomy, rfl⟩, fun _ _ same => by cases same⟩
  | prepare h offset v =>
    obtain ⟨rfl, rfl, rfl, within, writing⟩ := writing
    cases free : room w.queue.length with
    | true =>
      obtain ⟨next, follow, turn, less⟩ := writing_prepare small free within writing
      rw [follow]
      exact ⟨turn, less⟩
    | false =>
      obtain ⟨response, follow⟩ := follow_full free
      rw [follow]
      refine ⟨.inr ⟨rfl, writing.attr, free, ?_, writing.roomy⟩, fun _ _ same => by cases same⟩
      rw [writing.sent]
      exact within

theorem writing_start {w₀ : Store} (empty : w₀.queue = []) (long : ¬ value.length ≤ b.len - 3) :
    WritingTurn b room w₀ handle value w₀ (gattWriteChar b handle value) := by
  have least : 23 ≤ b.len := b.least
  have zero : (0 : UInt16).toNat = 0 := rfl
  rw [gattWriteChar, if_neg long, prepareWrite, if_neg (by rw [zero]; omega)]
  refine ⟨rfl, rfl, prepReq_eq b handle 0 _, by rw [zero]; omega, rfl, ?_, ?_, 0, ?_, ?_, ?_, ?_⟩
  · simp [empty]
  · simp [empty]
  · simp
  · omega
  · omega
  · simp [empty, commit]

/-- A long value is written, or the queue is full first. -/
theorem exists_ends_long (small : value.length < 65536) (empty : w.queue = [])
    (long : ¬ value.length ≤ b.len - 3) :
    ∃ w' answer, (writeStore b room).Ends w (gattWriteChar b handle value) w' (.ok answer) ∧
      WritingTurn b room w handle value w' (.stop (.ok answer)) := by
  obtain ⟨w', result, ends, turn⟩ := (writeStore b room).exists_ends
    (I := WritingTurn b room w handle value) (fun _ s => unsentOctets s)
    (fun w' s request writing => writing_follow small w' s request writing)
    (writing_start empty long)
  cases result with
  | error fault => exact turn.elim
  | ok answer => exact ⟨w', answer, ends, turn⟩

end Served

/-- A long write that meets a full queue fails, and leaves what it has prepared in the queue: no
attribute has changed, and no later long write succeeds. -/
theorem gattWriteChar_leaves_queue (b : Buflen) (room : Nat → Bool) (handle : UInt16)
    (value : List UInt8) (w : Store) (small : value.length < 65536) (empty : w.queue = [])
    (long : b.len - 3 < value.length) (n : Nat) (full : room n = false)
    (more : n * advance b < value.length) (before : ∀ k < n, room k = true) :
    ∃ w' response, (writeStore b room).Ends w (gattWriteChar b handle value) w'
        (.ok (attEcodePrepQueueFull, response)) ∧
      w'.attr = w.attr ∧ w'.queue.length = n ∧
      ∀ handle' value', b.len - 3 < value'.length →
        ∃ response, (writeStore b room).Ends w' (gattWriteChar b handle' value') w'
          (.ok (attEcodePrepQueueFull, response)) := by
  obtain ⟨w', answer, ends, turn⟩ :=
    @exists_ends_long b room w handle value small empty (by omega)
  rcases turn with ⟨-, roomy, -⟩ | ⟨code, attr, full', -, before'⟩
  · rw [roomy n more] at full
    cases full
  have count : w'.queue.length = n := by
    rcases Nat.lt_trichotomy w'.queue.length n with less | same | greater
    · rw [before _ less] at full'
      cases full'
    · exact same
    · rw [before' n greater] at full
      cases full
  refine ⟨w', answer.2, by rw [← code]; exact ends, attr, count, ?_⟩
  intro handle' value' long'
  have zero : (0 : UInt16).toNat = 0 := rfl
  obtain ⟨response, follow⟩ := @follow_full b room w' handle' 0 value'
    ((value'.drop (0 : UInt16).toNat).take (b.len - 5)) full'
  refine ⟨response, ?_⟩
  rw [gattWriteChar, if_neg (by omega), prepareWrite, if_neg (by rw [zero]; omega), prepReq_eq,
    Dialogue.ends_ask, follow]
  exact Dialogue.ends_stop.mpr ⟨rfl, rfl⟩

/-- A queue for two pieces, and a value of three. -/
theorem gattWriteChar_leaves_queue_two :
    ∃ w' response, (writeStore ⟨23, le_rfl⟩ fun k => decide (k < 2)).Ends ⟨fun _ => [], []⟩
        (gattWriteChar ⟨23, le_rfl⟩ 0x0013 (List.replicate 40 7)) w'
        (.ok (attEcodePrepQueueFull, response)) ∧
      w'.attr = (fun _ => []) ∧ w'.queue.length = 2 ∧
      ∀ handle' value', 23 - 3 < value'.length →
        ∃ response, (writeStore ⟨23, le_rfl⟩ fun k => decide (k < 2)).Ends w'
          (gattWriteChar ⟨23, le_rfl⟩ handle' value') w' (.ok (attEcodePrepQueueFull, response)) :=
  gattWriteChar_leaves_queue ⟨23, le_rfl⟩ (fun k => decide (k < 2)) 0x0013 (List.replicate 40 7)
    ⟨fun _ => [], []⟩ (by simp) rfl (by simp) 2 rfl (by simp [advance]) (by simp)

/-- A value with more octets than the offset can count is prepared over and over, for as long as
the server's queue has room. -/
theorem gattWriteChar_endless (b : Buflen) (handle : UInt16) (value : List UInt8) (w w' : Store)
    (result : Except WriteFault Answer) (long : b.len - 3 < value.length)
    (large : 65536 ≤ value.length) :
    ¬ (writeStore b fun _ => true).Ends w (gattWriteChar b handle value) w' result := by
  have asks (offset : UInt16) : prepareWrite b handle offset value =
      .ask (.prepare handle offset value) (attOpPrepWriteReq ::
        (putU16 handle ++ putU16 offset ++ (value.drop offset.toNat).take (b.len - 5))) := by
    have := offset.toNat_lt
    rw [prepareWrite, if_neg (by omega), prepReq_eq]
  rw [gattWriteChar, if_neg (by omega), asks]
  refine Dialogue.not_ends (I := fun _ s request => ∃ offset : UInt16,
    s = .prepare handle offset value ∧ request = attOpPrepWriteReq ::
      (putU16 handle ++ putU16 offset ++ (value.drop offset.toNat).take (b.len - 5))) ?_
    ⟨0, rfl, rfl⟩
  rintro w s request ⟨offset, rfl, rfl⟩
  rw [follow_prepareCb rfl, prepareWriteCb, if_neg (by simp)]
  have missed (offset : UInt16) : offset.toNat ≠ value.length := by
    have := offset.toNat_lt
    omega
  dsimp only
  rw [if_neg (missed _), asks]
  exact ⟨_, _, rfl, _, rfl, rfl⟩

/-! ## Any server -/

/-- A response with one octet more makes the procedure send what lies behind the value. -/
example : (writeLong ⟨23, le_rfl⟩ (reported fun (w : Unit) request =>
      (w, attOpPrepWriteResp :: (request.tail ++ [0])))).Ends ()
    (gattWriteChar ⟨23, le_rfl⟩ 0x0013 (List.replicate 21 7)) () (.error .overread) :=
  ⟨2, rfl⟩

end LibMip.Gatt
