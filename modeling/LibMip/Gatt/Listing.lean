import LibMip.Att.Lists
import LibMip.Foundation.Paging
import LibMip.Gatt.Request

/-!
# Servers that list a table

The discovery procedures ask for the entries of a table from a handle on. A server that has the
table answers with some of the entries left and says when there are none, and `Lists.finds` is what
the procedures have of that.
-/

namespace LibMip.Gatt

open Att Channel Exchange Octets

/-- What is reported: a list and an error, unless a response makes its decoding fault. -/
abbrev Report (α : Type*) := Except ListFault (List α × UInt8)

/-- The server answers each request with some of the entries left, from the first one on and as
many as it cares to, and with an error when there are none. -/
structure Lists {ρ ε : Type*} (respond : ρ → List UInt8 → ρ × List UInt8) (T : Table ε)
    (request : UInt16 → List UInt8) (Resp : List ε → List UInt8 → Prop) : Prop where
  page (w : ρ) (start : UInt16) : T.rest start.toNat ≠ [] → ∃ page more,
    T.rest start.toNat = page ++ more ∧ page ≠ [] ∧ Resp page (respond w (request start)).2
  none (w : ρ) (start : UInt16) : T.rest start.toNat = [] → ∃ opcode lo hi,
    (respond w (request start)).2 = [attOpError, opcode, lo, hi, attEcodeAttrNotFound]

/-- A procedure that takes over the entries of each response and goes on behind the last one, up to
a limit from which on nothing is to be reported, reports the whole table. -/
theorem Lists.finds {ρ ε σ τ : Type*} {respond : ρ → List UInt8 → ρ × List UInt8} {T : Table ε}
    {request : UInt16 → List UInt8} {Resp : List ε → List UInt8 → Prop}
    (lists : Lists respond T request Resp) {D : Dialogue σ ρ (List UInt8) Answer τ}
    (answers : D.answer = reported respond) (state : List ε → σ) (result : List ε → τ) {limit : Nat}
    (small : limit ≤ 65536)
    (behind : ∀ found, ∀ last ∈ T.entries, limit ≤ T.next last →
      result (found ++ T.rest (T.next last)) = result found)
    (stops : ∀ found response, D.resume (state found) (attEcodeAttrNotFound, response) =
      .stop (result found))
    (takes : ∀ found page last start response, last ∈ T.entries → Resp (page ++ [last]) response →
      response.length ≤ 512 ∧ status (request start) response = 0 ∧
      D.resume (state found) (0, response) =
        if T.next last < limit then
          .ask (state (found ++ (page ++ [last]))) (request (UInt16.ofNat (T.next last)))
        else .stop (result (found ++ (page ++ [last]))))
    (w : ρ) (start : UInt16) :
    ∃ w', D.Ends w (.ask (state []) (request start)) w' (result (T.rest start.toNat)) := by
  have exact (n : Nat) (h : n < 65536) : (UInt16.ofNat n).toNat = n := by
    rw [UInt16.toNat_ofNat', Nat.mod_eq_of_lt h]
  have follows (w : ρ) (s : σ) (q : List UInt8) :
      (D.follow w s q).2 = D.resume s (reported respond w q).2 := by
    rw [Dialogue.follow, answers]
  have found := @Table.lists ε σ ρ (List UInt8) Answer τ T D state
    (fun n => request (UInt16.ofNat n)) result 65536
  have ends := found ?_ w [] start.toNat start.toNat_lt
  · rwa [UInt16.ofNat_toNat, List.nil_append] at ends
  intro w found start within
  rw [← exact start within]
  by_cases none : T.rest (UInt16.ofNat start).toNat = []
  · obtain ⟨opcode, lo, hi, response⟩ := lists.none w _ none
    rw [UInt16.ofNat_toNat, follows, reported_eq response (by simp), status_error, none,
      List.append_nil]
    exact .inr (stops found _)
  · obtain ⟨page, more, split, nonempty, response⟩ := lists.page w _ none
    obtain ⟨page, last, rfl⟩ : ∃ before last, page = before ++ [last] :=
      ⟨_, _, (List.dropLast_append_getLast nonempty).symm⟩
    have cut : T.rest (UInt16.ofNat start).toNat = page ++ last :: more := by
      rw [split, List.append_assoc, List.singleton_append]
    have left : last ∈ T.entries := Table.mem_of_mem_rest (by rw [cut]; simp)
    obtain ⟨fits, ok, resumed⟩ := takes found page last (UInt16.ofNat start) _ left response
    rw [UInt16.ofNat_toNat, follows, reported_eq rfl fits, ok, resumed]
    by_cases again : T.next last < limit
    · exact .inl ⟨page, last, more, cut, by omega, if_pos again⟩
    · -- Nothing behind is to be reported.
      have all := behind (found ++ (page ++ [last])) last left (by omega)
      rw [Table.rest_next cut, List.append_assoc] at all
      rw [if_neg again, ← all, split]
      exact .inr rfl

/-- The last handle is followed by none. -/
theorem next_lt_iff (finish : UInt16) :
    finish.toNat + 1 < 65536 ↔ ¬ finish = 0xffff := by
  have := finish.toNat_lt
  have top : (0xffff : UInt16).toNat = 65535 := rfl
  rw [← UInt16.toNat_inj, top]
  omega

/-! ## Requests and responses -/

/-- A request for a type of attributes fits in every buffer. -/
theorem encReadByReq_uuid16 (b : Buflen) (opcode : UInt8) (start finish u16 : UInt16) :
    (encReadByReq opcode start finish (.uuid16 u16) b.len).getD [] =
      opcode :: (putU16 start ++ putU16 finish ++ putU16 u16) := by
  have fits : ¬ b.len < 7 := b.room (by decide)
  simp [encReadByReq, attPutUuid, fits]

section Entries

variable {ε : Type*} {opcode : UInt8} {entry : ε → List UInt8} {page : List ε}
  {response : List UInt8}

/-- The response with some entries of one length. -/
def EntriesResp (opcode : UInt8) (entry : ε → List UInt8) (page : List ε) (response : List UInt8) :
    Prop :=
  ∃ width, (∀ e ∈ page, (entry e).length = width) ∧ 2 + page.length * width ≤ 512 ∧
    response = opcode :: UInt8.ofNat width :: page.flatMap entry

theorem entriesResp_sized {width : Nat} (sized : ∀ e ∈ page, (entry e).length = width) :
    ∀ data ∈ page.map entry, data.length = width := by
  intro data h
  obtain ⟨e, he, rfl⟩ := List.mem_map.mp h
  exact sized e he

theorem entriesResp_length (h : EntriesResp opcode entry page response) :
    response.length ≤ 512 := by
  obtain ⟨width, sized, fits, rfl⟩ := h
  rw [List.length_cons, List.length_cons, List.flatMap_def,
    flatten_length (entriesResp_sized sized), List.length_map]
  omega

/-- It is decoded as the entries. -/
theorem decReadByResp_entriesResp (known : opcode ≠ 0)
    (bounds : ∀ e, 0 < (entry e).length ∧ (entry e).length < 256)
    (h : EntriesResp opcode entry page response) (some_entry : page ≠ []) :
    ∃ list, decReadByResp opcode response = .ok (some list) ∧ list.data = page.map entry := by
  have long := entriesResp_length h
  obtain ⟨width, sized, fits, rfl⟩ := h
  obtain ⟨e, mem⟩ := List.exists_mem_of_ne_nil page some_entry
  obtain ⟨positive, small⟩ := bounds e
  rw [sized e mem] at positive small
  refine ⟨⟨width, page.map entry, entriesResp_sized sized, small⟩, ?_, rfl⟩
  refine ((decReadByResp_spec known long).1 _).mpr ⟨[], ?_, positive⟩
  rw [List.append_nil, List.flatMap_def]

/-- The response with one entry. -/
def entryResp (opcode : UInt8) (entry : ε → List UInt8) (e : ε) : List UInt8 :=
  opcode :: UInt8.ofNat (entry e).length :: entry e

theorem entriesResp_single {e : ε} (small : (entry e).length ≤ 510) :
    EntriesResp opcode entry [e] (entryResp opcode entry e) :=
  ⟨(entry e).length, by simp, by simp; omega, by simp [entryResp]⟩

end Entries

/-- A server that answers with one entry at a time. -/
def serveFirst {ε ρ : Type*} (T : Table ε) (encode : ε → List UInt8) (w : ρ) :
    List UInt8 → ρ × List UInt8
  | opcode :: lo :: hi :: _ =>
    match T.rest (getU16 lo hi).toNat with
    | [] => (w, [attOpError, opcode, lo, hi, attEcodeAttrNotFound])
    | e :: _ => (w, encode e)
  | _ => (w, [])

section ServeFirst

variable {ε ρ : Type*} {T : Table ε} {encode : ε → List UInt8} {opcode : UInt8}
  {tail : List UInt8} {start : UInt16}

theorem serveFirst_some {e : ε} {more : List ε} (w : ρ) (split : T.rest start.toNat = e :: more) :
    (serveFirst T encode w (opcode :: (putU16 start ++ tail))).2 = encode e := by
  obtain ⟨lo, hi, written, rfl⟩ := putU16_eq start
  simp only [written, List.cons_append, List.nil_append, serveFirst, split]

theorem serveFirst_none (w : ρ) (none : T.rest start.toNat = []) :
    ∃ lo hi, (serveFirst T encode w (opcode :: (putU16 start ++ tail))).2 =
      [attOpError, opcode, lo, hi, attEcodeAttrNotFound] := by
  obtain ⟨lo, hi, written, rfl⟩ := putU16_eq start
  refine ⟨lo, hi, ?_⟩
  simp only [written, List.cons_append, List.nil_append, serveFirst, none]

theorem serveFirst_lists {request : UInt16 → List UInt8} {Resp : List ε → List UInt8 → Prop}
    (asks : ∀ start, request start = opcode :: (putU16 start ++ tail))
    (encodes : ∀ e, Resp [e] (encode e)) :
    Lists (serveFirst T encode : ρ → _) T request Resp := by
  constructor
  · intro w start some_entry
    obtain ⟨e, more, split⟩ := List.exists_cons_of_ne_nil some_entry
    refine ⟨[e], more, split, by simp, ?_⟩
    rw [asks, serveFirst_some w split]
    exact encodes e
  · intro w start none
    rw [asks]
    exact ⟨opcode, serveFirst_none w none⟩

end ServeFirst

end LibMip.Gatt
