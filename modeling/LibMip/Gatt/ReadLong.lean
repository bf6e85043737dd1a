import LibMip.Gatt.Request

/-!
# Reading a characteristic

`gatt_read_char` asks for the value and, as long as the responses fill the buffer, for the rest of
it, one blob at a time, with the octets read so far as the offset. It reports the first response as
it is when it is short or an error. Otherwise it reports the pieces put together, and always
without an error, since an error in place of a blob only ends the value. What fills the buffer is
measured on the client's side, so the responses of a server with a smaller MTU all look short.
-/

namespace LibMip.Gatt

open Att Channel Exchange Octets

/-! ## The procedure -/

/-- What waits for a response: `read_char_helper`, or `read_blob_helper` with the buffer and its
size so far. -/
inductive ReadLong where
  | char (handle : UInt16)
  | blob (handle : UInt16) (buffer : List UInt8) (size : UInt16)

variable (b : Buflen)

/-- Ask for the blob after the octets read so far, which have the opcode in front. -/
def askBlob (handle : UInt16) (buffer : List UInt8) (size : UInt16) :
    Turn ReadLong (List UInt8) Answer :=
  .ask (.blob handle buffer size) ((encReadBlobReq handle (size - 1) b.len).getD [])

/-- `read_blob_helper`. The buffer is enlarged by the payload of the response. -/
def readBlobHelper (handle : UInt16) (buffer : List UInt8) (size : UInt16) (answer : Answer) :
    Turn ReadLong (List UInt8) Answer :=
  if answer.1 ≠ 0 ∨ answer.2.length = 1 then .stop (0, buffer.take size.toNat)
  else
    let buffer := buffer.take size.toNat ++ answer.2.tail
    let size := size + UInt16.ofNat (answer.2.length - 1)
    if answer.2.length < b.len then .stop (0, buffer.take size.toNat)
    else askBlob b handle buffer size

/-- `read_char_helper`. -/
def readCharHelper (handle : UInt16) (answer : Answer) : Turn ReadLong (List UInt8) Answer :=
  if answer.1 ≠ 0 ∨ answer.2.length < b.len then .stop answer
  else askBlob b handle answer.2 (UInt16.ofNat answer.2.length)

/-- `gatt_read_char`. -/
def gattReadChar (handle : UInt16) : Turn ReadLong (List UInt8) Answer :=
  .ask (.char handle) ((encReadReq handle b.len).getD [])

def readLong {ρ : Type*} (answer : ρ → List UInt8 → ρ × Answer) :
    Dialogue ReadLong ρ (List UInt8) Answer Answer where
  resume
    | .char handle => readCharHelper b handle
    | .blob handle buffer size => readBlobHelper b handle buffer size
  answer

/-! ## A server that has the value -/

/-- The response of a server with one readable attribute and an MTU of its own. -/
def serveRead (mtu : Buflen) (handle : UInt16) (value : List UInt8) (request : List UInt8) :
    List UInt8 :=
  match decReadReq request with
  | some h =>
    if h = handle then encReadResp value mtu.len
    else (encErrorResp attOpReadReq h attEcodeInvalidHandle mtu.len).getD []
  | none =>
    match decReadBlobReq request with
    | some (h, offset) =>
      if h ≠ handle then (encErrorResp attOpReadBlobReq h attEcodeInvalidHandle mtu.len).getD []
      else if value.length < offset.toNat then
        (encErrorResp attOpReadBlobReq h attEcodeInvalidOffset mtu.len).getD []
      else encReadBlobResp value offset.toNat mtu.len
    | none => []

/-- The procedure with that server. -/
def readValue (mtu : Buflen) (handle : UInt16) (value : List UInt8) :
    Dialogue ReadLong Unit (List UInt8) Answer Answer :=
  readLong b (reported fun _ request => ((), serveRead mtu handle value request))

/-- The largest response that is received whole: the server sends at most its MTU, and 512 octets
are read at once. -/
def Buflen.received (mtu : Buflen) : Nat := min mtu.len 512

section Served

variable {b mtu : Buflen} {handle : UInt16} {value : List UInt8}

theorem Buflen.received_least (mtu : Buflen) : 23 ≤ mtu.received ∧ mtu.received ≤ 512 :=
  ⟨le_min mtu.least (by decide), min_le_right _ _⟩

theorem blobReq_eq (b : Buflen) (handle offset : UInt16) :
    (encReadBlobReq handle offset b.len).getD [] =
      attOpReadBlobReq :: (putU16 handle ++ putU16 offset) := by
  have fits : ¬ b.len < 5 := b.room (by decide)
  simp [encReadBlobReq, encHeader, putWords, fits]

/-- A response with the rest of the value, as it is received. -/
theorem take_resp (mtu : Buflen) (opcode : UInt8) (rest : List UInt8) :
    (opcode :: rest.take (mtu.len - 1)).take 512 = opcode :: rest.take (mtu.received - 1) := by
  have least : 23 ≤ mtu.len := mtu.least
  rw [List.take_succ_cons, List.take_take, Buflen.received]
  congr 2
  omega

theorem serveRead_char :
    serveRead mtu handle value (attOpReadReq :: putU16 handle) = encReadResp value mtu.len := by
  have asked : decReadReq (attOpReadReq :: putU16 handle) = some handle :=
    decWord_eq_some_iff.mpr ⟨[], by simp⟩
  simp only [serveRead, asked, if_true]

theorem serveRead_blob {offset : UInt16} (within : offset.toNat ≤ value.length) :
    serveRead mtu handle value (attOpReadBlobReq :: (putU16 handle ++ putU16 offset)) =
      encReadBlobResp value offset.toNat mtu.len := by
  have other : attOpReadBlobReq ≠ attOpReadReq := by decide
  have notRead : decReadReq (attOpReadBlobReq :: (putU16 handle ++ putU16 offset)) = none := by
    simp [decReadReq, decWord, decHeader, other]
  have asked : decReadBlobReq (attOpReadBlobReq :: (putU16 handle ++ putU16 offset)) =
      some (handle, offset) := decWords_eq_some_iff.mpr ⟨[], by simp⟩
  have inside : ¬ value.length < offset.toNat := by omega
  simp only [serveRead, notRead, asked, inside, ne_eq, not_true_eq_false, if_false]

/-- The first answer, as much of the value as is received. -/
theorem follow_char :
    (readValue b mtu handle value).follow () (.char handle) (attOpReadReq :: putU16 handle) =
      ((), readCharHelper b handle (0, attOpReadResp :: value.take (mtu.received - 1))) := by
  simp only [Dialogue.follow, readValue, readLong, reported, serveRead_char]
  rw [encReadResp, take_resp]
  exact congrArg (fun st => ((), readCharHelper b handle (st, _))) status_expected

theorem follow_blob {buffer : List UInt8} {size offset : UInt16}
    (within : offset.toNat ≤ value.length) :
    (readValue b mtu handle value).follow () (.blob handle buffer size)
        (attOpReadBlobReq :: (putU16 handle ++ putU16 offset)) =
      ((), readBlobHelper b handle buffer size
        (0, attOpReadBlobResp :: (value.drop offset.toNat).take (mtu.received - 1))) := by
  simp only [Dialogue.follow, readValue, readLong, reported, serveRead_blob within]
  rw [encReadBlobResp, take_resp]
  exact congrArg (fun st => ((), readBlobHelper b handle buffer size (st, _)))
    status_expected

/-- The first `k` octets have been read when another blob is asked for, and the whole value is what
is reported. -/
def Reading (handle : UInt16) (value : List UInt8) : Turn ReadLong (List UInt8) Answer → Prop
  | .ask (.char h) request => h = handle ∧ request = attOpReadReq :: putU16 handle
  | .ask (.blob h buffer size) request => h = handle ∧ ∃ k ≤ value.length,
      buffer = attOpReadResp :: value.take k ∧ size.toNat = k + 1 ∧
      request = attOpReadBlobReq :: (putU16 handle ++ putU16 (UInt16.ofNat k))
  | .stop result => result = (0, attOpReadResp :: value)

/-- What is left to read. -/
def unread (value : List UInt8) : ReadLong → Nat
  | .char _ => value.length + 2
  | .blob _ _ size => value.length + 1 - size.toNat

/-- The invariant, with a bound on what is left to read. -/
def ReadingBelow (handle : UInt16) (value : List UInt8) (bound : Nat)
    (t : Turn ReadLong (List UInt8) Answer) : Prop :=
  Reading handle value t ∧ ∀ s request, t = .ask s request → unread value s < bound

theorem reading_askBlob {k bound : Nat} {size : UInt16} (within : k ≤ value.length)
    (counted : size.toNat = k + 1) (less : value.length - k < bound) :
    ReadingBelow handle value bound (askBlob b handle (attOpReadResp :: value.take k) size) := by
  have offset : size - 1 = UInt16.ofNat k := by
    have := size.toNat_lt
    rw [← UInt16.toNat_inj,
      UInt16.toNat_sub_of_le _ _ (by rw [UInt16.le_iff_toNat_le]; simp [counted]), counted,
      UInt16.toNat_ofNat']
    simp
    omega
  refine ⟨⟨rfl, k, within, rfl, counted, by rw [blobReq_eq, offset]⟩, ?_⟩
  intro s request same
  obtain ⟨rfl, -⟩ := Turn.ask.inj same
  rw [unread]
  omega

theorem reading_stop {bound : Nat} :
    ReadingBelow handle value bound (.stop (0, attOpReadResp :: value)) :=
  ⟨rfl, fun _ _ same => by cases same⟩

/-- The first response is the whole value, or as much as fills the buffer. -/
theorem reading_char (whole : b.len ≤ mtu.received) (small : value.length < 65535) :
    ReadingBelow handle value (value.length + 2)
      (readCharHelper b handle (0, attOpReadResp :: value.take (mtu.received - 1))) := by
  obtain ⟨least, most⟩ := mtu.received_least
  generalize mtu.received = n at *
  rw [readCharHelper]
  have length : (attOpReadResp :: value.take (n - 1)).length = min (n - 1) value.length + 1 := by
    simp
  by_cases short : min (n - 1) value.length + 1 < b.len
  · have all : value.take (n - 1) = value := List.take_of_length_le (by omega)
    rw [if_pos (.inr (by rw [length]; exact short)), all]
    exact reading_stop
  · rw [if_neg (by
      rintro (failed | short') <;> [exact failed rfl; (rw [length] at short'; omega)])]
    have some : value.take (n - 1) = value.take (min (n - 1) value.length) :=
      List.take_eq_take_iff.mpr (by omega)
    dsimp only
    rw [length, some]
    refine reading_askBlob (by omega) ?_ (by omega)
    rw [UInt16.toNat_ofNat', Nat.mod_eq_of_lt (by omega)]

/-- A blob is the rest of the value, or as much of it as fills the buffer. -/
theorem reading_blob {k : Nat} {size : UInt16} (whole : b.len ≤ mtu.received)
    (small : value.length < 65535) (within : k ≤ value.length) (counted : size.toNat = k + 1) :
    ReadingBelow handle value (value.length - k) (readBlobHelper b handle
      (attOpReadResp :: value.take k) size
      (0, attOpReadBlobResp :: (value.drop k).take (mtu.received - 1))) := by
  obtain ⟨least, most⟩ := mtu.received_least
  generalize mtu.received = n at *
  have sofar : (attOpReadResp :: value.take k).take size.toNat = attOpReadResp :: value.take k := by
    rw [List.take_of_length_le]
    simp only [List.length_cons, List.length_take]
    omega
  have length : (attOpReadBlobResp :: (value.drop k).take (n - 1)).length =
      min (n - 1) (value.length - k) + 1 := by simp
  have more : attOpReadResp :: value.take k ++ (value.drop k).take (n - 1) =
      attOpReadResp :: value.take (k + min (n - 1) (value.length - k)) := by
    rw [List.cons_append, ← List.take_add, List.take_eq_take_iff.mpr]
    omega
  rw [readBlobHelper]
  dsimp only
  rw [length, sofar, List.tail_cons, more]
  by_cases done : k = value.length
  · have empty : min (n - 1) (value.length - k) + 1 = 1 := by omega
    have all : value.take k = value := List.take_of_length_le (by omega)
    rw [if_pos (.inr empty), all]
    exact reading_stop
  · have some : ¬ ((0 : UInt8) ≠ 0 ∨ min (n - 1) (value.length - k) + 1 = 1) := by
      rintro (failed | empty)
      · exact failed rfl
      · omega
    have counted' : (size + UInt16.ofNat (min (n - 1) (value.length - k) + 1 - 1)).toNat =
        k + min (n - 1) (value.length - k) + 1 := by
      rw [UInt16.toNat_add, UInt16.toNat_ofNat', counted]
      omega
    rw [if_neg some]
    by_cases short : min (n - 1) (value.length - k) + 1 < b.len
    · have all : value.take (k + min (n - 1) (value.length - k)) = value :=
        List.take_of_length_le (by omega)
      rw [if_pos short, counted', all, List.take_of_length_le (by simp; omega)]
      exact reading_stop
    · rw [if_neg short]
      exact reading_askBlob (by omega) counted' (by omega)

theorem reading_follow (whole : b.len ≤ mtu.received) (small : value.length < 65535) (w : Unit)
    (s : ReadLong) (request : List UInt8) (reading : Reading handle value (.ask s request)) :
    ReadingBelow handle value (unread value s)
      ((readValue b mtu handle value).follow w s request).2 := by
  cases s with
  | char h =>
    obtain ⟨rfl, rfl⟩ := reading
    rw [follow_char]
    exact reading_char whole small
  | blob h buffer size =>
    obtain ⟨rfl, k, within, rfl, counted, rfl⟩ := reading
    have offset : (UInt16.ofNat k).toNat = k := by
      rw [UInt16.toNat_ofNat', Nat.mod_eq_of_lt (by omega)]
    have left : unread value (.blob h (attOpReadResp :: value.take k) size) = value.length - k := by
      rw [unread]
      omega
    rw [follow_blob (by omega), offset, left]
    exact reading_blob whole small within counted

/-- A buffer larger than any response that is received takes the first one for the end. -/
theorem read_cut (large : mtu.received < b.len) :
    (readValue b mtu handle value).Ends () (gattReadChar b handle) ()
      (0, attOpReadResp :: value.take (mtu.received - 1)) := by
  obtain ⟨least, -⟩ := mtu.received_least
  have short : (attOpReadResp :: value.take (mtu.received - 1)).length < b.len := by
    simp only [List.length_cons, List.length_take]
    omega
  rw [gattReadChar, readReq_eq, Dialogue.ends_ask, follow_char, readCharHelper,
    if_pos (.inr short)]
  exact Dialogue.ends_stop.mpr ⟨rfl, rfl⟩

end Served

/-- From a server that has the value, `gatt_read_char` reports the whole value, however many
responses it takes, exactly when the buffer of the channel is not larger than what a response can
bring, the MTU of the server or the 512 octets that are read at once, or the value fits in one
response. -/
theorem gattReadChar_whole_iff (b mtu : Buflen) (handle : UInt16) (value : List UInt8)
    (small : value.length < 65535) :
    (readValue b mtu handle value).Ends () (gattReadChar b handle) () (0, attOpReadResp :: value) ↔
      b.len ≤ min mtu.len 512 ∨ value.length < min mtu.len 512 := by
  obtain ⟨least, -⟩ := mtu.received_least
  change _ ↔ b.len ≤ mtu.received ∨ value.length < mtu.received
  by_cases whole : b.len ≤ mtu.received
  · simp only [whole, true_or, iff_true]
    obtain ⟨w', result, ends, done⟩ := (readValue b mtu handle value).exists_ends
      (I := fun _ t => Reading handle value t) (fun _ s => unread value s)
      (fun w s request reading => reading_follow whole small w s request reading)
      (w := ()) (t := gattReadChar b handle) ⟨rfl, readReq_eq b handle⟩
    obtain rfl : result = (0, attOpReadResp :: value) := done
    exact ends
  · have cut := @read_cut b mtu handle value (by omega)
    constructor
    · intro ends
      have same := (cut.unique ends).2
      have all : value.take (mtu.received - 1) = value := by simpa using same
      have fits := congrArg List.length all
      rw [List.length_take] at fits
      exact .inr (by omega)
    · rintro (whole' | fits)
      · exact (whole whole').elim
      · rwa [List.take_of_length_le (by omega)] at cut

/-- Thirty octets over a channel of the default size take two responses; with a larger buffer than
the server's, they are cut. -/
theorem gattReadChar_whole_iff_thirty : (List.replicate 30 (7 : UInt8)).length < 65535 ∧
    (readValue ⟨23, le_rfl⟩ ⟨23, le_rfl⟩ 0x000e (List.replicate 30 7)).Ends ()
      (gattReadChar ⟨23, le_rfl⟩ 0x000e) () (0, attOpReadResp :: List.replicate 30 7) ∧
    ¬ (readValue ⟨100, by decide⟩ ⟨23, le_rfl⟩ 0x000e (List.replicate 30 7)).Ends ()
      (gattReadChar ⟨100, by decide⟩ 0x000e) () (0, attOpReadResp :: List.replicate 30 7) :=
  ⟨by decide,
    (gattReadChar_whole_iff ⟨23, le_rfl⟩ ⟨23, le_rfl⟩ 0x000e (List.replicate 30 7)
      (by decide)).mpr (.inl (by decide)),
    fun ends => absurd ((gattReadChar_whole_iff ⟨100, by decide⟩ ⟨23, le_rfl⟩ 0x000e
      (List.replicate 30 7) (by decide)).mp ends) (by decide)⟩

/-! ## Any server -/

section AnyServer

variable (b : Buflen)

/-- The answer is a response that fills the buffer, after which the rest is asked for. -/
def Full (answer : Answer) : Prop := answer.1 = 0 ∧ b.len ≤ answer.2.length

/-- What an answer in place of a blob adds to the value: nothing when it is an error. -/
def payload (answer : Answer) : List UInt8 := if answer.1 = 0 then answer.2.tail else []

/-- As many of the octets as a size of 16 bits counts. -/
def counted (octets : List UInt8) : List UInt8 := octets.take (octets.length % 65536)

/-- The first answer with what the others add, cut each time the size overflows. -/
def assembled (first : Answer) (blobs : List Answer) : List UInt8 :=
  blobs.foldl (fun octets blob => counted (octets ++ payload blob)) (counted first.2)

/-- What the answers so far say about the next turn. -/
def Assembling (log : List Answer) : Turn ReadLong (List UInt8) Answer → Prop
  | .ask (.char _) _ => log = []
  | .ask (.blob _ buffer size) _ => ∃ first blobs, log = first :: blobs ∧ Full b first ∧
      (∀ blob ∈ blobs, Full b blob) ∧ buffer.take size.toNat = assembled first blobs ∧
      size.toNat = (assembled first blobs).length
  | .stop result => ∃ first blobs, log = first :: blobs ∧
      (blobs = [] → ¬ Full b first ∧ result = first) ∧
      (blobs ≠ [] → Full b first ∧ (∀ blob ∈ blobs.dropLast, Full b blob) ∧
        result = (0, assembled first blobs))

variable {b}

theorem counted_length (octets : List UInt8) :
    (counted octets).length = octets.length % 65536 := by
  rw [counted, List.length_take, Nat.min_eq_left (Nat.mod_le _ _)]

theorem counted_eq {octets : List UInt8} (small : octets.length < 65536) :
    counted octets = octets := by
  rw [counted, Nat.mod_eq_of_lt small, List.take_length]

theorem assembled_concat (first : Answer) (blobs : List Answer) (blob : Answer) :
    assembled first (blobs ++ [blob]) = counted (assembled first blobs ++ payload blob) := by
  simp [assembled]

theorem assembled_length (first : Answer) (blobs : List Answer) :
    (assembled first blobs).length < 65536 := by
  cases blobs using List.reverseRecOn with
  | nil =>
    rw [assembled, List.foldl_nil, counted_length]
    exact Nat.mod_lt _ (by decide)
  | append_singleton blobs blob =>
    rw [assembled_concat, counted_length]
    exact Nat.mod_lt _ (by decide)

/-- Below the overflow the answers are put together as they are. -/
theorem assembled_eq {first : Answer} {blobs : List Answer}
    (small : (first.2 ++ blobs.flatMap payload).length < 65536) :
    assembled first blobs = first.2 ++ blobs.flatMap payload := by
  induction blobs using List.reverseRecOn with
  | nil => simpa [assembled] using counted_eq (by simpa using small)
  | append_singleton blobs blob ih =>
    have whole : first.2 ++ (blobs ++ [blob]).flatMap payload =
        first.2 ++ blobs.flatMap payload ++ payload blob := by simp
    rw [whole] at small ⊢
    rw [assembled_concat, ih (by rw [List.length_append] at small; omega), counted_eq small]

theorem assembling_char {handle : UInt16} (answer : Answer) :
    Assembling b [answer] (readCharHelper b handle answer) := by
  unfold readCharHelper
  split_ifs with ends
  · refine ⟨answer, [], rfl, fun _ => ⟨?_, rfl⟩, fun some => (some rfl).elim⟩
    rintro ⟨ok, full⟩
    rcases ends with failed | short
    · exact failed ok
    · omega
  · have full : Full b answer := by
      simp only [not_or, not_not, not_lt] at ends
      exact ends
    have size : (UInt16.ofNat answer.2.length).toNat = answer.2.length % 65536 :=
      UInt16.toNat_ofNat'
    have only : assembled answer [] = counted answer.2 := rfl
    exact ⟨answer, [], rfl, full, by simp, by rw [size, only, counted],
      by rw [size, only, counted_length]⟩

theorem assembling_blob {handle : UInt16} {log : List Answer} {buffer : List UInt8} {size : UInt16}
    {request : List UInt8} (answer : Answer)
    (sofar : Assembling b log (.ask (.blob handle buffer size) request)) :
    Assembling b (log ++ [answer]) (readBlobHelper b handle buffer size answer) := by
  obtain ⟨first, blobs, rfl, full, blobsFull, kept, sized⟩ := sofar
  unfold readBlobHelper
  by_cases last : answer.1 ≠ 0 ∨ answer.2.length = 1
  · rw [if_pos last]
    refine ⟨first, blobs ++ [answer], by simp, by simp, fun _ => ?_⟩
    refine ⟨full, by simpa using blobsFull, ?_⟩
    have nothing : payload answer = [] := by
      unfold payload
      split_ifs with ok
      · rcases last with failed | empty
        · exact (failed ok).elim
        · rw [← List.length_eq_zero_iff, List.length_tail, empty]
      · rfl
    rw [assembled_concat, nothing, List.append_nil, counted_eq (assembled_length _ _), kept]
  · have ok : answer.1 = 0 := by
      by_contra failed
      exact last (.inl failed)
    have adds : payload answer = answer.2.tail := if_pos ok
    have next : assembled first (blobs ++ [answer]) =
        counted (assembled first blobs ++ answer.2.tail) := by rw [assembled_concat, adds]
    -- The size is the number of octets put together, as far as 16 bits count them.
    have size' : (size + UInt16.ofNat (answer.2.length - 1)).toNat =
        (assembled first blobs ++ answer.2.tail).length % 65536 := by
      rw [UInt16.toNat_add, UInt16.toNat_ofNat', sized, List.length_append, List.length_tail]
      omega
    rw [if_neg last]
    dsimp only
    rw [kept]
    by_cases short : answer.2.length < b.len
    · rw [if_pos short]
      refine ⟨first, blobs ++ [answer], by simp, by simp, fun _ => ?_⟩
      exact ⟨full, by simpa using blobsFull, by rw [size', next, counted]⟩
    · rw [if_neg short]
      refine ⟨first, blobs ++ [answer], by simp, full, ?_, by rw [size', next, counted],
        by rw [size', next, counted_length]⟩
      intro blob hblob
      rcases List.mem_append.mp hblob with old | new
      · exact blobsFull blob old
      · obtain rfl := List.mem_singleton.mp new
        exact ⟨ok, by omega⟩

/-- Whatever the server answers, `gatt_read_char` reports the first answer as it is when it does
not fill the buffer. Otherwise it reports no error and what the answers add up to, the last of which
may be an error that cut the value off: all of it below 65536 octets, and no more than the size
counts at each overflow from there on. -/
theorem gattReadChar_reports {ρ : Type*} (respond : ρ → List UInt8 → ρ × List UInt8)
    (handle : UInt16) {w w' : ρ} {log : List Answer} {result : Answer}
    (ends : (readLong b (reported respond)).logged.Ends (w, []) (gattReadChar b handle) (w', log)
      result) :
    ∃ first blobs, log = first :: blobs ∧
      (blobs = [] → ¬ Full b first ∧ result = first) ∧
      (blobs ≠ [] → Full b first ∧ (∀ blob ∈ blobs.dropLast, Full b blob) ∧
        result = (0, assembled first blobs)) ∧
      ((first.2 ++ blobs.flatMap payload).length < 65536 →
        assembled first blobs = first.2 ++ blobs.flatMap payload) := by
  have kept : ∀ (w : ρ × List Answer) s request, Assembling b w.2 (.ask s request) →
      Assembling b ((readLong b (reported respond)).logged.follow w s request).1.2
        ((readLong b (reported respond)).logged.follow w s request).2 := by
    rintro ⟨w, log⟩ s request sofar
    cases s with
    | char h =>
      obtain rfl : log = [] := sofar
      exact assembling_char _
    | blob h buffer size => exact assembling_blob _ sofar
  have start : Assembling b [] (gattReadChar b handle) := rfl
  obtain ⟨first, blobs, same, one, more⟩ :=
    ends.invariant (I := fun w t => Assembling b w.2 t) kept start
  exact ⟨first, blobs, same, one, more, assembled_eq⟩

/-- A server that answers one request and fails from then on. -/
def failAfterFirst (n : Nat) (_ : List UInt8) : Nat × List UInt8 :=
  (n + 1, if n = 0 then attOpReadResp :: List.replicate 22 7
    else [attOpError, attOpReadBlobReq, 0x0E, 0x00, attEcodeInvalidHandle])

/-- An error in place of the second response: the part of the value before it, without an error. -/
theorem gattReadChar_reports_cut :
    ∃ w' log, (readLong ⟨23, le_rfl⟩ (reported failAfterFirst)).logged.Ends (0, [])
        (gattReadChar ⟨23, le_rfl⟩ 0x000e) (w', log) (0, attOpReadResp :: List.replicate 22 7) ∧
      ∃ first blobs, log = first :: blobs ∧
        (blobs = [] → ¬ Full ⟨23, le_rfl⟩ first ∧
          (0, attOpReadResp :: List.replicate 22 7) = first) ∧
        (blobs ≠ [] → Full ⟨23, le_rfl⟩ first ∧
          (∀ blob ∈ blobs.dropLast, Full ⟨23, le_rfl⟩ blob) ∧
          (0, attOpReadResp :: List.replicate 22 7) = ((0 : UInt8), assembled first blobs)) ∧
        ((first.2 ++ blobs.flatMap payload).length < 65536 →
          assembled first blobs = first.2 ++ blobs.flatMap payload) := by
  have ends : (readLong ⟨23, le_rfl⟩ (reported failAfterFirst)).logged.Ends (0, [])
      (gattReadChar ⟨23, le_rfl⟩ 0x000e) (2, [(0, attOpReadResp :: List.replicate 22 7),
        (attEcodeInvalidHandle, [attOpError, attOpReadBlobReq, 0x0E, 0x00, attEcodeInvalidHandle])])
      (0, attOpReadResp :: List.replicate 22 7) := ⟨2, rfl⟩
  exact ⟨_, _, ends, gattReadChar_reports failAfterFirst 0x000e ends⟩

/-- A server whose responses all fill the buffer is asked for ever. -/
theorem gattReadChar_endless {ρ : Type*} {respond : ρ → List UInt8 → ρ × List UInt8}
    (full : ∀ w request, request.headD 0 = attOpReadReq ∨ request.headD 0 = attOpReadBlobReq →
      Full b (reported respond w request).2)
    (handle : UInt16) (w w' : ρ) (result : Answer) :
    ¬ (readLong b (reported respond)).Ends w (gattReadChar b handle) w' result := by
  have least : 23 ≤ b.len := b.least
  refine Dialogue.not_ends
    (I := fun _ _ request => request.headD 0 = attOpReadReq ∨ request.headD 0 = attOpReadBlobReq)
    ?_ (.inl (by rw [readReq_eq]; rfl))
  intro w s request known
  obtain ⟨ok, long⟩ := full w request known
  have next (handle : UInt16) (buffer : List UInt8) (size : UInt16) : ∃ s' request',
      askBlob b handle buffer size = .ask s' request' ∧
        (request'.headD 0 = attOpReadReq ∨ request'.headD 0 = attOpReadBlobReq) :=
    ⟨_, _, rfl, .inr (by rw [blobReq_eq]; rfl)⟩
  cases s with
  | char h =>
    simp only [Dialogue.follow, readLong, readCharHelper]
    rw [if_neg (by rintro (failed | short) <;> [exact failed ok; omega])]
    exact next _ _ _
  | blob h buffer size =>
    simp only [Dialogue.follow, readLong, readBlobHelper]
    rw [if_neg (by rintro (failed | short) <;> [exact failed ok; omega]), if_neg (by omega)]
    exact next _ _ _

end AnyServer

end LibMip.Gatt
