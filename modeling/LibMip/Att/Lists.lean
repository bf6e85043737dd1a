import LibMip.Att.Codec
import LibMip.Att.Uuid

/-!
# PDUs of the discovery procedures

The responses to the discovery requests carry a list of entries of one length. The decoders of
`att.c` divide by that length and copy as many entries as the quotient says out of the buffer the
PDU was read into, which is zero after the PDU. `decReadByResp_spec` says what becomes of any PDU: a
length of zero, which a PDU that ends with its opcode has too, makes the division fault; otherwise
the entries are the whole ones, and nothing outside of the PDU is read.

A list of information without its format is the exception: its decoder reads beyond the buffer.
-/

namespace LibMip.Att

open Octets

inductive ListFault where
  | divisionByZero
  | outOfBounds
  deriving DecidableEq

/-- `struct att_data_list`: entries of one length that fits in an octet. -/
structure AttDataList where
  len : Nat
  data : List (List UInt8)
  sized : ∀ entry ∈ data, entry.length = len
  small : len < 256

/-- `(len - 2) / elen`, a 64-bit subtraction and a conversion to 16 bits. -/
def entryCount (len elen : Nat) : Nat :=
  (len + 18446744073709551616 - 2) % 18446744073709551616 / elen % 65536

/-- The loop of the decoders over a buffer of 512 octets, for entries of `elen` octets. -/
def decEntries (bytes : List UInt8) (elen : Nat) : Except ListFault (List (List UInt8)) :=
  if elen = 0 then .error .divisionByZero
  else
    match takeChunks elen (entryCount bytes.length elen)
        ((bytes ++ List.replicate (512 - bytes.length) 0).drop 2) with
    | some (entries, _) => .ok entries
    | none => .error .outOfBounds

theorem decEntries_zero (bytes : List UInt8) : decEntries bytes 0 = .error .divisionByZero := by
  rw [decEntries, if_pos rfl]

theorem sized_of_decEntries {bytes : List UInt8} {elen : Nat} {entries : List (List UInt8)}
    (h : decEntries bytes elen = .ok entries) : ∀ entry ∈ entries, entry.length = elen := by
  unfold decEntries at h
  split_ifs at h
  split at h
  next es rest taken =>
    obtain rfl := Except.ok.inj h
    exact (takeChunks_eq_some_iff.mp taken).2.1
  next => cases h

/-- `dec_read_by_grp_resp` and `dec_read_by_type_resp`. -/
def decReadByResp (opcode : UInt8) (bytes : List UInt8) : Except ListFault (Option AttDataList) :=
  if bytes.headD 0 ≠ opcode then .ok none
  else
    match h : decEntries bytes (bytes.getD 1 0).toNat with
    | .ok entries =>
      .ok (some ⟨(bytes.getD 1 0).toNat, entries, sized_of_decEntries h, UInt8.toNat_lt _⟩)
    | .error e => .error e

/-- `dec_read_by_grp_resp`. -/
def decReadByGrpResp (bytes : List UInt8) : Except ListFault (Option AttDataList) :=
  decReadByResp attOpReadByGroupResp bytes

/-- `dec_read_by_type_resp`. -/
def decReadByTypeResp (bytes : List UInt8) : Except ListFault (Option AttDataList) :=
  decReadByResp attOpReadByTypeResp bytes

def infoLen (format : UInt8) : Nat := if format = 0x01 then 4 else if format = 0x02 then 18 else 2

/-- `dec_find_info_resp`, with the format. -/
def decFindInfoResp (bytes : List UInt8) : Except ListFault (Option (UInt8 × List (List UInt8))) :=
  if bytes.headD 0 ≠ attOpFindInfoResp then .ok none
  else
    match decEntries bytes (infoLen (bytes.getD 1 0)) with
    | .ok entries => .ok (some (bytes.getD 1 0, entries))
    | .error e => .error e

/-- The entries an encoder writes: those that fit whole. -/
def encEntries (opcode second : UInt8) (list : AttDataList) (len : Nat) : Option (List UInt8) :=
  if len < list.len + 2 then none
  else some (opcode :: second :: (list.data.take (if list.len = 0 then list.data.length
    else (len - 2) / list.len)).flatten)

/-- `enc_read_by_grp_resp`. -/
def encReadByGrpResp (list : AttDataList) (len : Nat) : Option (List UInt8) :=
  encEntries attOpReadByGroupResp (UInt8.ofNat list.len) list len

/-- `enc_read_by_type_resp`, for a buffer of at least two octets: entries that do not fit in it
even alone are cut. -/
def encReadByTypeResp (list : AttDataList) (len : Nat) : List UInt8 :=
  let l := min (len - 2) list.len
  attOpReadByTypeResp :: UInt8.ofNat l ::
    ((list.data.take (if l = 0 then list.data.length else (len - 2) / l)).map (·.take l)).flatten

/-- `enc_find_info_resp`. -/
def encFindInfoResp (format : UInt8) (list : AttDataList) (len : Nat) : Option (List UInt8) :=
  encEntries attOpFindInfoResp format list len

/-- `struct att_range`. -/
structure AttRange where
  start : UInt16
  finish : UInt16
  deriving DecidableEq

/-- The loop of `dec_find_by_type_resp`. -/
def decRanges : List UInt8 → List AttRange
  | a :: b :: c :: d :: rest => ⟨getU16 a b, getU16 c d⟩ :: decRanges rest
  | _ => []

/-- `dec_find_by_type_resp`. -/
def decFindByTypeResp (bytes : List UInt8) : Option (List AttRange) :=
  if bytes.length < 5 then none
  else if bytes.headD 0 ≠ attOpFindByTypeResp then none
  else some (decRanges bytes.tail)

/-- `enc_find_by_type_resp`: as many ranges as fit. -/
def encFindByTypeResp (ranges : List AttRange) (len : Nat) : Option (List UInt8) :=
  if len < 5 then none
  else some (attOpFindByTypeResp ::
    (ranges.take ((len - 1) / 4)).flatMap fun r => putU16 r.start ++ putU16 r.finish)

/-! ## Requests -/

/-- `att_put_uuid`, whose UUID of 32 bits is read as one of 128. -/
def attPutUuid : Uuid → List UInt8
  | .uuid16 u16 => putU16 u16
  | .uuid32 u32 => octets 4 u32.toNat ++ List.replicate 12 0
  | .uuid128 u128 => u128.data

/-- `att_get_uuid16` or `att_get_uuid128`, as many octets as there are. -/
def attGetUuid (bs : List UInt8) : Option Uuid :=
  if sized : bs.length = 16 then some (.uuid128 ⟨bs, sized⟩)
  else
    match bs with
    | [lo, hi] => some (.uuid16 (getU16 lo hi))
    | _ => none

/-- The common part of the requests for a type of attributes. -/
def encReadByReq (opcode : UInt8) (start finish : UInt16) (uuid : Uuid) (len : Nat) :
    Option (List UInt8) :=
  match uuid with
  | .uuid32 _ => none
  | _ =>
    if len < 5 + (attPutUuid uuid).length then none
    else some (opcode :: (putU16 start ++ putU16 finish ++ attPutUuid uuid))

/-- `enc_read_by_grp_req`. -/
def encReadByGrpReq (start finish : UInt16) (uuid : Uuid) (len : Nat) : Option (List UInt8) :=
  encReadByReq attOpReadByGroupReq start finish uuid len

/-- `enc_read_by_type_req`. -/
def encReadByTypeReq (start finish : UInt16) (uuid : Uuid) (len : Nat) : Option (List UInt8) :=
  encReadByReq attOpReadByTypeReq start finish uuid len

/-- The UUIDs that have a place in a PDU come out of it as they went in. -/
theorem attGetUuid_attPutUuid {u : Uuid} (h : ∀ u32, u ≠ .uuid32 u32) :
    attGetUuid (attPutUuid u) = some u := by
  cases u with
  | uuid16 u16 =>
    obtain ⟨lo, hi, written, read⟩ := putU16_eq u16
    rw [attPutUuid, written, attGetUuid, dif_neg (by simp), ← read]
  | uuid32 u32 => exact (h u32 rfl).elim
  | uuid128 u128 => rw [attPutUuid, attGetUuid, dif_pos u128.sized]

/-! ## Entries -/

theorem entryCount_eq {len : Nat} (elen : Nat) (fits : len ≤ 512) (long : 2 ≤ len) :
    entryCount len elen = (len - 2) / elen := by
  have exact : (len + 18446744073709551616 - 2) % 18446744073709551616 = len - 2 := by omega
  have small : (len - 2) / elen < 65536 := (Nat.div_le_self _ _).trans_lt (by omega)
  rw [entryCount, exact, Nat.mod_eq_of_lt small]

/-- The zeros behind a PDU in its buffer are not read. -/
theorem decEntries_of_count {bytes rest : List UInt8} {entries : List (List UInt8)} {elen : Nat}
    (fits : bytes.length ≤ 512) (long : 2 ≤ bytes.length) (positive : 0 < elen)
    (count : entries.length = (bytes.length - 2) / elen)
    (sized : ∀ entry ∈ entries, entry.length = elen)
    (split : bytes.drop 2 = entries.flatten ++ rest) : decEntries bytes elen = .ok entries := by
  have padded : takeChunks elen (entryCount bytes.length elen)
      ((bytes ++ List.replicate (512 - bytes.length) 0).drop 2) =
        some (entries, rest ++ List.replicate (512 - bytes.length) 0) := by
    rw [entryCount_eq elen fits long, takeChunks_eq_some_iff]
    refine ⟨count, sized, ?_⟩
    rw [List.drop_append_of_le_length long, split, List.append_assoc]
  rw [decEntries, if_neg (by omega), padded]

/-- Of a PDU that fits in the buffer, the decoders copy the whole entries. -/
theorem decEntries_eq {bytes : List UInt8} {elen : Nat} (fits : bytes.length ≤ 512)
    (long : 2 ≤ bytes.length) (positive : 0 < elen) :
    ∃ entries rest, decEntries bytes elen = .ok entries ∧ bytes.drop 2 = entries.flatten ++ rest ∧
      (∀ entry ∈ entries, entry.length = elen) ∧ rest.length < elen := by
  have room : (bytes.length - 2) / elen * elen ≤ (bytes.drop 2).length := by
    rw [List.length_drop]
    exact Nat.div_mul_le_self _ _
  obtain ⟨entries, rest, taken⟩ := exists_takeChunks room
  obtain ⟨count, sized, split⟩ := takeChunks_eq_some_iff.mp taken
  refine ⟨entries, rest, decEntries_of_count fits long positive count sized split, split, sized, ?_⟩
  have total := congrArg List.length split
  rw [List.length_append, flatten_length sized, count, List.length_drop] at total
  have := Nat.mod_add_div' (bytes.length - 2) elen
  have := Nat.mod_lt (bytes.length - 2) positive
  omega

/-- The split of a PDU into whole entries is unique. -/
theorem decEntries_of_split {bytes rest : List UInt8} {entries : List (List UInt8)} {elen : Nat}
    (fits : bytes.length ≤ 512) (long : 2 ≤ bytes.length)
    (split : bytes.drop 2 = entries.flatten ++ rest)
    (sized : ∀ entry ∈ entries, entry.length = elen) (short : rest.length < elen) :
    decEntries bytes elen = .ok entries := by
  have total := congrArg List.length split
  rw [List.length_append, flatten_length sized, List.length_drop] at total
  have count : (bytes.length - 2) / elen = entries.length := by
    rw [total, Nat.mul_comm, Nat.mul_add_div (by omega), Nat.div_eq_of_lt short, Nat.add_zero]
  exact decEntries_of_count fits long (by omega) count.symm sized split

theorem decEntries_eq_ok_iff {bytes : List UInt8} {entries : List (List UInt8)} {elen : Nat}
    (fits : bytes.length ≤ 512) (long : 2 ≤ bytes.length) (positive : 0 < elen) :
    decEntries bytes elen = .ok entries ↔ ∃ rest, bytes.drop 2 = entries.flatten ++ rest ∧
      (∀ entry ∈ entries, entry.length = elen) ∧ rest.length < elen := by
  constructor
  · intro h
    obtain ⟨entries', rest, done, whole⟩ := decEntries_eq fits long positive
    obtain rfl := Except.ok.inj (done.symm.trans h)
    exact ⟨rest, whole⟩
  · rintro ⟨rest, split, sized, short⟩
    exact decEntries_of_split fits long split sized short

/-! ## Responses with a length -/

section Responses

variable {opcode : UInt8} {bytes : List UInt8}

theorem decReadByResp_eq_ok {list : AttDataList} :
    decReadByResp opcode bytes = .ok (some list) ↔ bytes.headD 0 = opcode ∧
      list.len = (bytes.getD 1 0).toNat ∧
      decEntries bytes (bytes.getD 1 0).toNat = .ok list.data := by
  obtain ⟨len, data, sized, small⟩ := list
  unfold decReadByResp
  by_cases head : bytes.headD 0 = opcode
  · rw [if_neg (not_not.mpr head)]
    split
    next entries h =>
      simp only [Except.ok.injEq, Option.some.injEq, AttDataList.mk.injEq, head, true_and]
      constructor
      · rintro ⟨rfl, rfl⟩
        exact ⟨rfl, h⟩
      · rintro ⟨rfl, same⟩
        exact ⟨rfl, Except.ok.inj (h.symm.trans same)⟩
    next e h => simp only [h, reduceCtorEq, and_false]
  · rw [if_pos head]
    simp only [head, false_and, Except.ok.injEq, reduceCtorEq]

theorem decReadByResp_eq_error {e : ListFault} :
    decReadByResp opcode bytes = .error e ↔ bytes.headD 0 = opcode ∧
      decEntries bytes (bytes.getD 1 0).toNat = .error e := by
  unfold decReadByResp
  by_cases head : bytes.headD 0 = opcode
  · rw [if_neg (not_not.mpr head)]
    split
    next entries h => simp only [h, reduceCtorEq, and_false]
    next e' h =>
      rw [h, and_iff_right head]
      simp only [Except.error.injEq]
  · rw [if_pos head]
    simp only [head, false_and, reduceCtorEq]

/-- A length of zero makes the division fault. -/
theorem decReadByResp_of_zero (zero : bytes.getD 1 0 = 0) :
    (∀ list, decReadByResp opcode bytes ≠ .ok (some list)) ∧
      ∀ fault, decReadByResp opcode bytes = .error fault ↔
        bytes.headD 0 = opcode ∧ fault = .divisionByZero := by
  have fails : decEntries bytes (bytes.getD 1 0).toNat = .error .divisionByZero := by
    rw [zero]
    exact decEntries_zero bytes
  constructor
  · intro list accepted
    obtain ⟨-, -, whole⟩ := decReadByResp_eq_ok.mp accepted
    cases fails.symm.trans whole
  · intro fault
    rw [decReadByResp_eq_error, fails, Except.error.injEq, eq_comm (a := ListFault.divisionByZero)]

/-- With another length, the entries are the whole ones. -/
theorem decReadByResp_of_positive {head second : UInt8} {tail : List UInt8}
    (fits : (head :: second :: tail).length ≤ 512) (positive : 0 < second.toNat) :
    (∀ list, decReadByResp opcode (head :: second :: tail) = .ok (some list) ↔ head = opcode ∧
      list.len = second.toNat ∧ ∃ rest, tail = list.data.flatten ++ rest ∧
        rest.length < list.len) ∧
      ∀ fault, decReadByResp opcode (head :: second :: tail) ≠ .error fault := by
  have long : 2 ≤ (head :: second :: tail).length := by simp
  constructor
  · intro list
    rw [decReadByResp_eq_ok, List.getD_cons_succ, List.getD_cons_zero,
      decEntries_eq_ok_iff fits long positive]
    constructor
    · rintro ⟨rfl, len, rest, split, sized, short⟩
      exact ⟨rfl, len, rest, split, len ▸ short⟩
    · rintro ⟨rfl, len, rest, split, short⟩
      exact ⟨rfl, len, rest, split, len ▸ list.sized, len ▸ short⟩
  · intro fault failed
    obtain ⟨-, failed⟩ := decReadByResp_eq_error.mp failed
    obtain ⟨entries, rest, done, -⟩ := decEntries_eq fits long positive
    cases done.symm.trans failed

/-- Of a PDU that fits in the buffer, the decoders of the two responses with a length of entries
accept the opcode and the length of the entries with the whole entries and less than one more. The
length zero, which a PDU that ends with the opcode has too, faults, and nothing else does. -/
theorem decReadByResp_spec (known : opcode ≠ 0) (fits : bytes.length ≤ 512) :
    (∀ list, decReadByResp opcode bytes = .ok (some list) ↔
      ∃ rest, bytes = opcode :: UInt8.ofNat list.len :: (list.data.flatten ++ rest) ∧
        rest.length < list.len) ∧
    ∀ fault, decReadByResp opcode bytes = .error fault ↔
      fault = .divisionByZero ∧ (bytes = [opcode] ∨ ∃ tail, bytes = opcode :: 0 :: tail) := by
  match bytes, fits with
  | [], _ =>
    have none : decReadByResp opcode [] = .ok none := by
      rw [decReadByResp, if_pos (by simpa using known.symm)]
    rw [none]
    simp
  | [head], _ =>
    obtain ⟨rejects, faults⟩ := @decReadByResp_of_zero opcode [head] rfl
    refine ⟨fun list => iff_of_false (rejects list) (by simp), fun fault => ?_⟩
    rw [faults]
    simp [and_comm]
  | head :: second :: tail, fits =>
    by_cases zero : second = 0
    · subst zero
      obtain ⟨rejects, faults⟩ := @decReadByResp_of_zero opcode (head :: 0 :: tail) rfl
      refine ⟨fun list => iff_of_false (rejects list) ?_, fun fault => ?_⟩
      · rintro ⟨rest, same, short⟩
        have len := congrArg UInt8.toNat (List.cons.inj (List.cons.inj same).2).1
        rw [UInt8.toNat_ofNat', Nat.mod_eq_of_lt list.small] at len
        exact absurd short (by rw [← len]; simp)
      · rw [faults]
        simp [and_comm]
    · have positive : 0 < second.toNat := by
        have : second.toNat ≠ 0 := fun h => zero (UInt8.toNat_inj.mp h)
        omega
      obtain ⟨accepts, sound⟩ := @decReadByResp_of_positive opcode head second tail fits positive
      refine ⟨fun list => ?_, fun fault => iff_of_false (sound fault) ?_⟩
      · rw [accepts]
        constructor
        · rintro ⟨rfl, len, rest, rfl, short⟩
          exact ⟨rest, by rw [len, UInt8.ofNat_toNat], short⟩
        · rintro ⟨rest, same, short⟩
          obtain ⟨rfl, behind⟩ := List.cons.inj same
          obtain ⟨second', split⟩ := List.cons.inj behind
          have len : list.len = second.toNat := by
            rw [second', UInt8.toNat_ofNat', Nat.mod_eq_of_lt list.small]
          exact ⟨rfl, len, rest, split, short⟩
      · rintro ⟨-, single | ⟨tail', same⟩⟩
        · cases single
        · exact zero (List.cons.inj (List.cons.inj same).2).1

end Responses

/-- The lengths that the format of a list of information stands for. -/
theorem infoLen_pos (format : UInt8) : 0 < infoLen format := by
  unfold infoLen
  split_ifs <;> decide

/-- A list of information is read beyond the buffer when there is nothing but its opcode, and
otherwise has the whole entries. -/
theorem decFindInfoResp_spec {bytes : List UInt8} (fits : bytes.length ≤ 512) :
    (∀ format entries, decFindInfoResp bytes = .ok (some (format, entries)) ↔
      ∃ rest, bytes = attOpFindInfoResp :: format :: (entries.flatten ++ rest) ∧
        rest.length < infoLen format ∧ ∀ entry ∈ entries, entry.length = infoLen format) ∧
    (∀ fault, decFindInfoResp bytes = .error fault ↔
      fault = .outOfBounds ∧ bytes = [attOpFindInfoResp]) := by
  match bytes, fits with
  | [], _ =>
    have other : ([] : List UInt8).headD 0 ≠ attOpFindInfoResp := by decide
    rw [decFindInfoResp, if_pos other]
    simp
  | [opcode], _ =>
    by_cases head : opcode = attOpFindInfoResp
    · subst head
      have two : infoLen ([attOpFindInfoResp].getD 1 0) = 2 := rfl
      have beyond : takeChunks 2 (entryCount [attOpFindInfoResp].length 2)
          (([attOpFindInfoResp] ++ List.replicate (512 - [attOpFindInfoResp].length) 0).drop 2) =
            none := by
        refine takeChunks_eq_none ?_
        simp only [List.length_drop, List.length_append, List.length_replicate,
          List.length_singleton, entryCount]
        decide
      have fault : decFindInfoResp [attOpFindInfoResp] = .error .outOfBounds := by
        rw [decFindInfoResp, if_neg (by decide), two, decEntries, if_neg (by decide), beyond]
      rw [fault]
      simp [eq_comm]
    · rw [decFindInfoResp, if_pos (by simpa using head)]
      simp [head]
  | opcode :: format :: tail, fits =>
    have whole := fun entries => @decEntries_eq_ok_iff (opcode :: format :: tail) entries
      (infoLen format) fits (by simp) (infoLen_pos format)
    obtain ⟨entries', rest', done, -⟩ :=
      @decEntries_eq (opcode :: format :: tail) (infoLen format) fits (by simp) (infoLen_pos format)
    by_cases head : opcode = attOpFindInfoResp
    · subst head
      have read : decFindInfoResp (attOpFindInfoResp :: format :: tail) =
          .ok (some (format, entries')) := by
        simp only [decFindInfoResp, List.headD_cons, ne_eq, not_true_eq_false, if_false,
          List.getD_cons_succ, List.getD_cons_zero, done]
      rw [read]
      refine ⟨fun format' entries => ?_, by simp⟩
      simp only [Except.ok.injEq, Option.some.injEq, Prod.mk.injEq, List.cons.injEq, true_and]
      constructor
      · rintro ⟨rfl, rfl⟩
        obtain ⟨rest, split, sized, short⟩ := (whole entries').mp done
        exact ⟨rest, ⟨rfl, split⟩, short, sized⟩
      · rintro ⟨rest, ⟨rfl, split⟩, short, sized⟩
        have same := (whole entries).mpr ⟨rest, split, sized, short⟩
        exact ⟨rfl, Except.ok.inj (done.symm.trans same)⟩
    · rw [decFindInfoResp, if_pos (by simpa using head)]
      simp [head]

/-! ## Ranges -/

theorem decRanges_append (ranges : List AttRange) {rest : List UInt8} (short : rest.length < 4) :
    decRanges (ranges.flatMap (fun r => putU16 r.start ++ putU16 r.finish) ++ rest) = ranges := by
  induction ranges with
  | nil =>
    match rest, short with
    | [], _ | [_], _ | [_, _], _ | [_, _, _], _ => rfl
  | cons r ranges ih =>
    obtain ⟨a, b, start, readStart⟩ := putU16_eq r.start
    obtain ⟨c, d, finish, readFinish⟩ := putU16_eq r.finish
    have split : (r :: ranges).flatMap (fun r => putU16 r.start ++ putU16 r.finish) ++ rest =
        a :: b :: c :: d ::
          (ranges.flatMap (fun r => putU16 r.start ++ putU16 r.finish) ++ rest) := by
      simp [start, finish]
    rw [split, decRanges, ih, readStart, readFinish]

theorem exists_decRanges (bytes : List UInt8) : ∃ rest, rest.length < 4 ∧
    bytes = (decRanges bytes).flatMap (fun r => putU16 r.start ++ putU16 r.finish) ++ rest := by
  induction bytes using decRanges.induct with
  | case1 a b c d bytes ih =>
    obtain ⟨rest, short, split⟩ := ih
    refine ⟨rest, short, ?_⟩
    rw [decRanges, List.flatMap_cons, putU16_getU16, putU16_getU16, List.append_assoc, ← split]
    rfl
  | case2 bytes few =>
    refine ⟨bytes, ?_, by rw [decRanges]; rfl; exact few⟩
    match bytes, few with
    | [], _ | [_], _ | [_, _], _ | [_, _, _], _ => simp
    | a :: b :: c :: d :: bytes, few => exact (few a b c d bytes rfl).elim

/-- A list of ranges has the whole ones, and at least one. -/
theorem decFindByTypeResp_eq_some_iff {bytes : List UInt8} {ranges : List AttRange} :
    decFindByTypeResp bytes = some ranges ↔ ranges ≠ [] ∧ ∃ rest, rest.length < 4 ∧
      bytes = attOpFindByTypeResp ::
        (ranges.flatMap (fun r => putU16 r.start ++ putU16 r.finish) ++ rest) := by
  unfold decFindByTypeResp
  match bytes with
  | [] => simp
  | opcode :: bytes =>
    obtain ⟨rest, short, split⟩ := exists_decRanges bytes
    by_cases few : (opcode :: bytes).length < 5
    · rw [if_pos few]
      constructor
      · intro h
        cases h
      · rintro ⟨some_range, rest, -, same⟩
        obtain ⟨r, ranges, rfl⟩ := List.exists_cons_of_ne_nil some_range
        rw [same] at few
        simp only [List.length_cons, List.length_append, List.flatMap_cons, putU16_length] at few
        omega
    · rw [if_neg few, List.headD_cons, List.tail_cons]
      by_cases head : opcode = attOpFindByTypeResp
      · subst head
        rw [if_neg (not_not.mpr rfl), Option.some.injEq]
        constructor
        · rintro rfl
          refine ⟨fun none => ?_, rest, short, by rw [← split]⟩
          rw [none, List.flatMap_nil, List.nil_append] at split
          rw [split, List.length_cons] at few
          omega
        · rintro ⟨-, rest', short', same⟩
          rw [(List.cons.inj same).2, decRanges_append ranges short']
      · rw [if_pos head]
        simp [head]

/-- What the decoders of lists accept and what makes them fault, for every PDU that fits in the
buffer it is read into. -/
theorem list_decoders_exact {bytes : List UInt8} (fits : bytes.length ≤ 512) :
    ((∀ list, decReadByGrpResp bytes = .ok (some list) ↔
      ∃ rest, bytes = attOpReadByGroupResp :: UInt8.ofNat list.len :: (list.data.flatten ++ rest) ∧
        rest.length < list.len) ∧
    ∀ fault, decReadByGrpResp bytes = .error fault ↔ fault = .divisionByZero ∧
      (bytes = [attOpReadByGroupResp] ∨ ∃ tail, bytes = attOpReadByGroupResp :: 0 :: tail)) ∧
    ((∀ list, decReadByTypeResp bytes = .ok (some list) ↔
      ∃ rest, bytes = attOpReadByTypeResp :: UInt8.ofNat list.len :: (list.data.flatten ++ rest) ∧
        rest.length < list.len) ∧
    ∀ fault, decReadByTypeResp bytes = .error fault ↔ fault = .divisionByZero ∧
      (bytes = [attOpReadByTypeResp] ∨ ∃ tail, bytes = attOpReadByTypeResp :: 0 :: tail)) ∧
    (∀ format entries, decFindInfoResp bytes = .ok (some (format, entries)) ↔
      ∃ rest, bytes = attOpFindInfoResp :: format :: (entries.flatten ++ rest) ∧
        rest.length < infoLen format ∧ ∀ entry ∈ entries, entry.length = infoLen format) ∧
    ∀ fault, decFindInfoResp bytes = .error fault ↔
      fault = .outOfBounds ∧ bytes = [attOpFindInfoResp] :=
  ⟨decReadByResp_spec (by decide) fits, decReadByResp_spec (by decide) fits,
    decFindInfoResp_spec fits⟩

/-- A response that ends with its opcode makes the division fault. -/
theorem list_decoders_exact_opcode : decReadByGrpResp [0x11] = .error .divisionByZero :=
  ((list_decoders_exact (by decide)).1.2 .divisionByZero).mpr ⟨rfl, .inl rfl⟩

/-! ## Encoding -/

/-- The entries that fit in a buffer are no longer than it. -/
theorem takeEntries_length {entries : List (List UInt8)} {elen len : Nat}
    (sized : ∀ entry ∈ entries, entry.length = elen) (room : 2 ≤ len) :
    (entries.take ((len - 2) / elen)).flatten.length + 2 ≤ len := by
  have sized' : ∀ entry ∈ entries.take ((len - 2) / elen), entry.length = elen :=
    fun entry he => sized entry (List.mem_of_mem_take he)
  have product := (Nat.mul_le_mul_right elen
    (Nat.min_le_left ((len - 2) / elen) entries.length)).trans (Nat.div_mul_le_self (len - 2) elen)
  rw [flatten_length sized', List.length_take]
  omega

/-- A PDU made of an opcode, a length and entries of that length is decoded as these. -/
theorem decReadByResp_entries {opcode : UInt8} {entries : List (List UInt8)} {elen len : Nat}
    (known : opcode ≠ 0) (positive : 0 < elen) (small : elen < 256) (room : 2 ≤ len)
    (fits : len ≤ 512) (sized : ∀ entry ∈ entries, entry.length = elen) :
    ∃ list, decReadByResp opcode (opcode :: UInt8.ofNat elen ::
        (entries.take ((len - 2) / elen)).flatten) = .ok (some list) ∧
      list.len = elen ∧ list.data = entries.take ((len - 2) / elen) := by
  have whole := takeEntries_length sized room
  refine ⟨⟨elen, _, fun entry he => sized entry (List.mem_of_mem_take he), small⟩, ?_, rfl, rfl⟩
  refine ((decReadByResp_spec known ?_).1 _).mpr ⟨[], by rw [List.append_nil], positive⟩
  simp only [List.length_cons]
  omega

/-- What the encoders of lists write in a buffer no larger than the one a PDU is read into is
decoded as what fits of the list. `enc_read_by_type_resp` cuts entries that do not fit alone. -/
theorem list_round_trip {list : AttDataList} {len : Nat} (positive : 0 < list.len) (room : 2 < len)
    (fits : len ≤ 512) :
    (∀ pdu, encReadByGrpResp list len = some pdu → ∃ short,
      decReadByGrpResp pdu = .ok (some short) ∧ short.len = list.len ∧
        short.data = list.data.take ((len - 2) / list.len)) ∧
    (∃ short, decReadByTypeResp (encReadByTypeResp list len) = .ok (some short) ∧
      short.len = min (len - 2) list.len ∧ short.data =
        (list.data.take ((len - 2) / short.len)).map (·.take short.len)) ∧
    (∀ format pdu, infoLen format = list.len → encFindInfoResp format list len = some pdu →
      decFindInfoResp pdu = .ok (some (format, list.data.take ((len - 2) / list.len)))) ∧
    (∀ ranges pdu, ranges ≠ [] → encFindByTypeResp ranges len = some pdu →
      decFindByTypeResp pdu = some (ranges.take ((len - 1) / 4))) := by
  have small := list.small
  refine ⟨fun pdu done => ?_, ?_, fun format pdu same done => ?_,
    fun ranges pdu some_range done => ?_⟩
  · unfold encReadByGrpResp encEntries at done
    split_ifs at done with short zero
    · omega
    obtain rfl := Option.some.inj done
    exact decReadByResp_entries (by decide) positive small (by omega) fits list.sized
  · have cut : ∀ entry ∈ list.data.map (·.take (min (len - 2) list.len)),
        entry.length = min (len - 2) list.len := by
      intro entry he
      obtain ⟨whole, hw, rfl⟩ := List.mem_map.mp he
      rw [List.length_take, list.sized whole hw]
      omega
    obtain ⟨short, decoded, length, data⟩ := @decReadByResp_entries attOpReadByTypeResp
      (list.data.map (·.take (min (len - 2) list.len))) (min (len - 2) list.len) len (by decide)
      (by omega) (by omega) (by omega) fits cut
    have some_octet : ¬ min (len - 2) list.len = 0 := by omega
    refine ⟨short, ?_, length, ?_⟩
    · rw [← List.map_take] at decoded
      simp only [decReadByTypeResp, encReadByTypeResp, some_octet, if_false, decoded]
    · rw [data, length, List.map_take]
  · unfold encFindInfoResp encEntries at done
    split_ifs at done with short zero
    · omega
    obtain rfl := Option.some.inj done
    have whole := takeEntries_length list.sized (show 2 ≤ len by omega)
    refine ((decFindInfoResp_spec ?_).1 format _).mpr ⟨[], by rw [List.append_nil], ?_, ?_⟩
    · simp only [List.length_cons]
      omega
    · exact infoLen_pos format
    · exact fun entry he => same ▸ list.sized entry (List.mem_of_mem_take he)
  · unfold encFindByTypeResp at done
    split_ifs at done with short
    obtain rfl := Option.some.inj done
    refine decFindByTypeResp_eq_some_iff.mpr ⟨?_, [], by simp, by rw [List.append_nil]⟩
    have one : 0 < (len - 1) / 4 := Nat.div_pos (by omega) (by decide)
    rw [ne_eq, List.take_eq_nil_iff]
    rintro (none | none)
    · omega
    · exact some_range none

/-- Three services, of which a buffer of 18 octets has room for two. -/
theorem list_round_trip_two :
    ∃ short, decReadByGrpResp [attOpReadByGroupResp, 6, 1, 0, 7, 0, 0, 0x18, 8, 0, 11, 0, 1, 0x18] =
      .ok (some short) ∧ short.len = 6 ∧
      short.data = [[1, 0, 7, 0, 0, 0x18], [8, 0, 11, 0, 1, 0x18]] := by
  have written : encReadByGrpResp ⟨6, [[1, 0, 7, 0, 0, 0x18], [8, 0, 11, 0, 1, 0x18],
      [12, 0, 15, 0, 2, 0x18]], by simp, by decide⟩ 18 =
      some [attOpReadByGroupResp, 6, 1, 0, 7, 0, 0, 0x18, 8, 0, 11, 0, 1, 0x18] := rfl
  exact (list_round_trip (by decide) (by decide) (by decide)).1 _ written

end LibMip.Att
