import LibMip.Foundation.Outputs
import LibMip.Gatt.Listing

/-!
# Finding included services

`gatt_find_included` asks for the declarations of included services in a range of handles. A
declaration that has no UUID of 16 bits is resolved by a request of its own, and all these requests
are outstanding at once with the one for the next declarations; the channel has them answered in the
order they were sent. Each holds a reference to the discovery, and the last one that goes reports.

So there is one report, made with the last answer. A single error leaves it without the services
that were found.
-/

namespace LibMip.Gatt

open Att Channel Exchange Octets Runs

/-! ## The procedure -/

/-- `struct gatt_included`, without a UUID as long as that is not resolved. -/
structure GattIncluded where
  uuid : List UInt8
  handle : UInt16
  range : AttRange
  deriving DecidableEq

/-- `struct included_discovery`. -/
structure IncludedDiscovery where
  refs : Int
  err : UInt8
  endHandle : UInt16
  includes : List GattIncluded

/-- What a request was sent for, `resolve` with its `struct included_uuid_query`. -/
inductive IncludedQuery where
  | find
  | resolve (included : GattIncluded)

/-- The list, unless there is an error, and the error. -/
abbrev IncludedReport := Option (List GattIncluded) × UInt8

abbrev IncludedRequest := IncludedQuery × List UInt8

def gattIncludeUuid : UInt16 := 0x2802

/-- The call of the callback. -/
def IncludedDiscovery.report (isd : IncludedDiscovery) : IncludedReport :=
  if isd.err ≠ 0 then (none, isd.err) else (some isd.includes, isd.err)

/-- `isd_ref`. -/
def isdRef (isd : IncludedDiscovery) : IncludedDiscovery :=
  { isd with refs := isd.refs + 1 }

/-- `isd_unref`, with the calls of the callback. -/
def isdUnref (isd : IncludedDiscovery) : IncludedDiscovery × List IncludedReport :=
  let isd := { isd with refs := isd.refs - 1 }
  (isd, if isd.refs > 0 then [] else [isd.report])

/-- The first error is kept. -/
def IncludedDiscovery.setErr (isd : IncludedDiscovery) (err : UInt8) : IncludedDiscovery :=
  if isd.err = 0 then { isd with err := err } else isd

def IncludedDiscovery.append (isd : IncludedDiscovery) (included : GattIncluded) :
    IncludedDiscovery :=
  { isd with includes := isd.includes ++ [included] }

/-- `included_from_buf`, for entries of six or eight octets. -/
def includedFromBuf (data : List UInt8) : GattIncluded where
  handle := getU16 (data.getD 0 0) (data.getD 1 0)
  range := ⟨getU16 (data.getD 2 0) (data.getD 3 0), getU16 (data.getD 4 0) (data.getD 5 0)⟩
  uuid :=
    if data.length = 8 then
      btUuidToString (.uuid128 (Uuid.uuid16 (getU16 (data.getD 6 0) (data.getD 7 0))).to128)
    else []

variable (b : Buflen)

/-- The request of `find_included`. -/
def includeReq (finish start : UInt16) : List UInt8 :=
  (encReadByTypeReq start finish (.uuid16 gattIncludeUuid) b.len).getD []

/-- `find_included`. -/
def findIncluded (isd : IncludedDiscovery) (start : UInt16) : IncludedDiscovery × IncludedRequest :=
  (isdRef isd, .find, includeReq b isd.endHandle start)

/-- `resolve_included_uuid`. -/
def resolveIncludedUuid (isd : IncludedDiscovery) (included : GattIncluded) :
    IncludedDiscovery × IncludedRequest :=
  (isdRef isd, .resolve included, (encReadReq included.range.start b.len).getD [])

/-- The loop of `find_included_cb`: the requests it sends and the handle of the last entry. -/
def includedLoop : List (List UInt8) → IncludedDiscovery → UInt16 →
    IncludedDiscovery × List IncludedRequest × UInt16
  | [], isd, last => (isd, [], last)
  | data :: rest, isd, _ =>
    let included := includedFromBuf data
    if data.length = 6 then
      let r := resolveIncludedUuid b isd included
      let l := includedLoop rest r.1 included.handle
      (l.1, r.2 :: l.2.1, l.2.2)
    else includedLoop rest (isd.append included) included.handle

/-- `find_included_cb`. -/
def findIncludedCb (isd : IncludedDiscovery) (answer : Answer) :
    Except ListFault (IncludedDiscovery × List IncludedRequest) :=
  if answer.1 ≠ 0 then
    .ok (isd.setErr (if answer.1 = attEcodeAttrNotFound then 0 else answer.1), [])
  else
    match decReadByTypeResp answer.2 with
    | .error fault => .error fault
    | .ok none => .ok (isd.setErr attEcodeIo, [])
    | .ok (some list) =>
      if list.len ≠ 6 ∧ list.len ≠ 8 then .ok (isd.setErr attEcodeIo, [])
      else
        let l := includedLoop b list.data isd isd.endHandle
        if l.2.2 < isd.endHandle then
          let r := findIncluded b l.1 (l.2.2 + 1)
          .ok (r.1.setErr 0, l.2.1 ++ [r.2])
        else .ok (l.1.setErr 0, l.2.1)

/-- `dec_read_resp`, for a buffer of `len` octets. -/
def decReadResp (pdu : List UInt8) (len : Nat) : Option (List UInt8) :=
  if pdu.headD 0 ≠ attOpReadResp ∨ len < pdu.length - 1 then none else some pdu.tail

/-- `resolve_included_uuid_cb`. -/
def resolveIncludedUuidCb (isd : IncludedDiscovery) (included : GattIncluded) (answer : Answer) :
    IncludedDiscovery :=
  if answer.1 ≠ 0 then isd.setErr answer.1
  else
    match decReadResp answer.2 b.len with
    | none => isd.setErr attEcodeIo
    | some uuid =>
      if sized : uuid.length = 16 then
        isd.append { included with uuid := btUuidToString (.uuid128 ⟨uuid, sized⟩) }
      else isd.setErr attEcodeIo

/-- A request is answered: what its callback does, and then its reference goes. -/
def includedAnswered (isd : IncludedDiscovery) (query : IncludedQuery) (answer : Answer) :
    Except ListFault (IncludedDiscovery × List IncludedRequest × List IncludedReport) :=
  match query with
  | .find =>
    match findIncludedCb b isd answer with
    | .error fault => .error fault
    | .ok (isd, sent) => .ok ((isdUnref isd).1, sent, (isdUnref isd).2)
  | .resolve included =>
    let r := isdUnref (resolveIncludedUuidCb b isd included answer)
    .ok (r.1, [], r.2)

/-- The discovery from `gatt_find_included` on, with the requests that wait for their answers, which
come in the order of the requests. -/
def findIncludedSystem (start finish : UInt16) :
    Transducer (IncludedDiscovery × List IncludedRequest) Answer IncludedReport where
  init :=
    let r := findIncluded b ⟨0, 0, finish, []⟩ start
    (r.1, [r.2])
  step s answer :=
    match s.2 with
    | [] => none
    | (query, _) :: queue =>
      match includedAnswered b s.1 query answer with
      | .error _ => none
      | .ok (isd, sent, reports) => some ((isd, queue ++ sent), reports)

/-! ## References -/

/-- The request whose answer comes next. -/
def waiting (s : IncludedDiscovery × List IncludedRequest) : Option (List UInt8) :=
  s.2.head?.map Prod.snd

section References

variable {b} {isd isd' : IncludedDiscovery} {start finish : UInt16}

@[simp] theorem setErr_refs (isd : IncludedDiscovery) (err : UInt8) :
    (isd.setErr err).refs = isd.refs := by
  unfold IncludedDiscovery.setErr
  split_ifs <;> rfl

@[simp] theorem append_refs (isd : IncludedDiscovery) (included : GattIncluded) :
    (isd.append included).refs = isd.refs := rfl

theorem includedLoop_refs (entries : List (List UInt8)) (isd : IncludedDiscovery) (last : UInt16) :
    (includedLoop b entries isd last).1.refs =
      isd.refs + (includedLoop b entries isd last).2.1.length := by
  induction entries generalizing isd last with
  | nil => simp [includedLoop]
  | cons data entries ih =>
    by_cases unresolved : data.length = 6
    · simp only [includedLoop, if_pos unresolved, List.length_cons, ih]
      simp only [resolveIncludedUuid, isdRef]
      omega
    · simp only [includedLoop, if_neg unresolved, ih, append_refs]

/-- Each request that is sent holds a reference. -/
theorem findIncludedCb_refs {answer : Answer} {sent : List IncludedRequest}
    (h : findIncludedCb b isd answer = .ok (isd', sent)) :
    isd'.refs = isd.refs + sent.length := by
  by_cases failed : answer.1 ≠ 0
  · rw [findIncludedCb, if_pos failed] at h
    obtain ⟨rfl, rfl⟩ := Prod.mk.inj (Except.ok.inj h)
    simp
  · rw [findIncludedCb, if_neg failed] at h
    match decoded : decReadByTypeResp answer.2 with
    | .error fault =>
      rw [decoded] at h
      cases h
    | .ok none =>
      rw [decoded] at h
      obtain ⟨rfl, rfl⟩ := Prod.mk.inj (Except.ok.inj h)
      simp
    | .ok (some list) =>
      have loop := @includedLoop_refs b list.data isd isd.endHandle
      simp only [decoded] at h
      split_ifs at h with lengths more
      · obtain ⟨rfl, rfl⟩ := Prod.mk.inj (Except.ok.inj h)
        simp
      · obtain ⟨rfl, rfl⟩ := Prod.mk.inj (Except.ok.inj h)
        simp only [setErr_refs, findIncluded, isdRef, loop, List.length_append,
          List.length_singleton]
        omega
      · obtain ⟨rfl, rfl⟩ := Prod.mk.inj (Except.ok.inj h)
        rw [setErr_refs, loop]

/-- The reference that goes with an answer leaves one for each request that waits. -/
theorem includedAnswered_refs {query : IncludedQuery} {answer : Answer}
    {sent : List IncludedRequest} {reports : List IncludedReport}
    (h : includedAnswered b isd query answer = .ok (isd', sent, reports)) :
    isd'.refs = isd.refs + sent.length - 1 ∧
      reports = if isd'.refs > 0 then [] else [isd'.report] := by
  cases query with
  | find =>
    match done : findIncludedCb b isd answer with
    | .error fault =>
      rw [includedAnswered, done] at h
      cases h
    | .ok (isd₁, sent₁) =>
      rw [includedAnswered, done] at h
      obtain ⟨rfl, rest⟩ := Prod.mk.inj (Except.ok.inj h)
      obtain ⟨rfl, rfl⟩ := Prod.mk.inj rest
      have refs := findIncludedCb_refs done
      exact ⟨by simp only [isdUnref, refs], rfl⟩
  | resolve included =>
    obtain ⟨rfl, rest⟩ := Prod.mk.inj (Except.ok.inj h)
    obtain ⟨rfl, rfl⟩ := Prod.mk.inj rest
    have refs : (resolveIncludedUuidCb b isd included answer).refs = isd.refs := by
      unfold resolveIncludedUuidCb
      split_ifs
      · simp
      · split
        next => simp
        next => split_ifs <;> simp
    exact ⟨by simp [isdUnref, refs], rfl⟩

/-- Whatever the answers, each request that waits holds one of the references, nothing is reported
as long as one waits, and when none does there was one report, of what was found. -/
theorem findIncluded_once {answers : List Answer} {isd : IncludedDiscovery}
    {queue : List IncludedRequest} {reports : List IncludedReport}
    (run : (findIncludedSystem b start finish).machine.run answers =
      some ((isd, queue), reports)) :
    isd.refs = queue.length ∧ reports = if queue = [] then [isd.report] else [] := by
  refine Transducer.always (I := fun _ s log => s.1.refs = s.2.length ∧
    log = if s.2 = [] then [s.1.report] else []) ⟨rfl, rfl⟩ ?_ run
  rintro h ⟨isd, queue⟩ log answer ⟨isd', queue'⟩ out - ⟨refs, so_far⟩ next
  match queue, refs, so_far, next with
  | [], _, _, next => cases next
  | (query, request) :: queue, refs, so_far, next =>
    match done : includedAnswered b isd query answer with
    | .error fault =>
      simp only [findIncludedSystem, done] at next
      cases next
    | .ok (isd₁, sent, calls) =>
      simp only [findIncludedSystem, done] at next
      obtain ⟨same, rfl⟩ := Prod.mk.inj (Option.some.inj next)
      obtain ⟨rfl, rfl⟩ := Prod.mk.inj same
      obtain ⟨left, rfl⟩ := includedAnswered_refs done
      simp only [List.length_cons] at refs
      have count : isd₁.refs = (queue ++ sent).length := by
        rw [left, refs, List.length_append]
        omega
      refine ⟨count, ?_⟩
      rw [so_far, if_neg (List.cons_ne_nil _ _), List.nil_append]
      by_cases empty : queue ++ sent = []
      · rw [empty, List.length_nil] at count
        rw [if_pos empty, if_neg (by omega)]
      · have := List.length_pos_iff.mpr empty
        rw [if_neg empty, if_pos (by omega)]

end References

/-! ## The included services of a server -/

structure Inclusion where
  handle : UInt16
  range : AttRange
  uuid : Uuid
  known : ∀ u32, uuid ≠ .uuid32 u32

/-- The declaration in a list: only a UUID of 16 bits is part of it. -/
def Inclusion.entry (i : Inclusion) : List UInt8 :=
  putU16 i.handle ++ (putU16 i.range.start ++ (putU16 i.range.finish ++
    match i.uuid with
    | .uuid16 u16 => putU16 u16
    | _ => []))

/-- The included service as it is reported. -/
def Inclusion.reported (i : Inclusion) : GattIncluded :=
  ⟨btUuidToString (.uuid128 i.uuid.to128), i.handle, i.range⟩

/-- The inclusions declared in a range of handles, in order. -/
structure Inclusions (start finish : UInt16) where
  list : List Inclusion
  first : ∀ i ∈ list, start.toNat ≤ i.handle.toNat
  within : ∀ i ∈ list, i.handle.toNat ≤ finish.toNat
  ordered : list.Pairwise fun i i' => i.handle.toNat < i'.handle.toNat

def Inclusions.table {start finish : UInt16} (I : Inclusions start finish) : Table Inclusion where
  entries := I.list
  key i := i.handle.toNat
  next i := i.handle.toNat + 1
  advances _ _ := Nat.lt_succ_self _
  ordered := I.ordered

/-- The response with some declarations. -/
def IncludeResp : List Inclusion → List UInt8 → Prop :=
  EntriesResp attOpReadByTypeResp Inclusion.entry

/-- The server lists its inclusions, and has the declarations of the services they include. -/
structure Includes {ρ : Type*} (respond : ρ → List UInt8 → ρ × List UInt8) (b : Buflen)
    {start finish : UInt16} (I : Inclusions start finish) : Prop where
  lists : Lists respond I.table (includeReq b finish) IncludeResp
  resolves : ∀ i ∈ I.list, ∀ u128, i.uuid = .uuid128 u128 → ∀ w,
    (respond w ((encReadReq i.range.start b.len).getD [])).2 = attOpReadResp :: u128.data

section Honest

variable {b} {start finish : UInt16}

/-- A declaration with its UUID is read as the service. -/
theorem includedFromBuf_short {i : Inclusion} {u16 : UInt16} (h : i.uuid = .uuid16 u16) :
    i.entry.length = 8 ∧ includedFromBuf i.entry = i.reported := by
  obtain ⟨h₁, h₂, handle, readHandle⟩ := putU16_eq i.handle
  obtain ⟨s₁, s₂, first, readFirst⟩ := putU16_eq i.range.start
  obtain ⟨e₁, e₂, last, readLast⟩ := putU16_eq i.range.finish
  obtain ⟨u₁, u₂, uuid, readUuid⟩ := putU16_eq u16
  have whole : i.entry = [h₁, h₂, s₁, s₂, e₁, e₂, u₁, u₂] := by
    simp [Inclusion.entry, h, handle, first, last, uuid]
  rw [whole, Inclusion.reported, h, ← readHandle, ← readUuid]
  refine ⟨rfl, ?_⟩
  show GattIncluded.mk _ _ ⟨getU16 s₁ s₂, getU16 e₁ e₂⟩ = _
  rw [readFirst, readLast]
  rfl

/-- A declaration without is read as the service but for the UUID. -/
theorem includedFromBuf_long {i : Inclusion} {u128 : UInt128} (h : i.uuid = .uuid128 u128) :
    i.entry.length = 6 ∧ includedFromBuf i.entry = ⟨[], i.handle, i.range⟩ := by
  obtain ⟨h₁, h₂, handle, readHandle⟩ := putU16_eq i.handle
  obtain ⟨s₁, s₂, first, readFirst⟩ := putU16_eq i.range.start
  obtain ⟨e₁, e₂, last, readLast⟩ := putU16_eq i.range.finish
  have whole : i.entry = [h₁, h₂, s₁, s₂, e₁, e₂] := by
    simp [Inclusion.entry, h, handle, first, last]
  rw [whole, ← readHandle]
  refine ⟨rfl, ?_⟩
  show GattIncluded.mk _ _ ⟨getU16 s₁ s₂, getU16 e₁ e₂⟩ = _
  rw [readFirst, readLast]
  rfl

theorem inclusionEntry_length (i : Inclusion) : 5 < i.entry.length ∧ i.entry.length < 9 := by
  cases h : i.uuid with
  | uuid16 u16 =>
    rw [(includedFromBuf_short h).1]
    decide
  | uuid32 u32 => exact (i.known u32 h).elim
  | uuid128 u128 =>
    rw [(includedFromBuf_long h).1]
    decide

/-- Entries of one length are all with or all without their UUIDs. -/
theorem uniform {page : List Inclusion} {width : Nat} (some_inclusion : page ≠ [])
    (sized : ∀ i ∈ page, i.entry.length = width) :
    (width = 8 ∧ ∀ i ∈ page, ∃ u16, i.uuid = .uuid16 u16) ∨
      (width = 6 ∧ ∀ i ∈ page, ∃ u128, i.uuid = .uuid128 u128) := by
  have size (i : Inclusion) : (i.entry.length = 8 ∧ ∃ u16, i.uuid = .uuid16 u16) ∨
      (i.entry.length = 6 ∧ ∃ u128, i.uuid = .uuid128 u128) := by
    cases h : i.uuid with
    | uuid16 u16 => exact .inl ⟨(includedFromBuf_short h).1, u16, rfl⟩
    | uuid32 u32 => exact (i.known u32 h).elim
    | uuid128 u128 => exact .inr ⟨(includedFromBuf_long h).1, u128, rfl⟩
  obtain ⟨i, mem⟩ := List.exists_mem_of_ne_nil page some_inclusion
  rcases size i with ⟨eight, -⟩ | ⟨six, -⟩
  · refine .inl ⟨(sized i mem).symm.trans eight, fun j hj => ?_⟩
    rcases size j with ⟨-, short⟩ | ⟨six, -⟩
    · exact short
    · have := (sized i mem).symm.trans eight
      have := (sized j hj).symm.trans six
      omega
  · refine .inr ⟨(sized i mem).symm.trans six, fun j hj => ?_⟩
    rcases size j with ⟨eight, -⟩ | ⟨-, long⟩
    · have := (sized i mem).symm.trans six
      have := (sized j hj).symm.trans eight
      omega
    · exact long

/-- The request for the UUID of a service. -/
def resolveRequest (b : Buflen) (i : Inclusion) : IncludedRequest :=
  (.resolve ⟨[], i.handle, i.range⟩, (encReadReq i.range.start b.len).getD [])

theorem includedLoop_short (page : List Inclusion) (i : Inclusion) (isd : IncludedDiscovery)
    (last : UInt16) (short : ∀ j ∈ page ++ [i], ∃ u16, j.uuid = .uuid16 u16) :
    includedLoop b ((page ++ [i]).map Inclusion.entry) isd last =
      ({ isd with includes := isd.includes ++ (page ++ [i]).map Inclusion.reported }, [],
        i.handle) := by
  induction page generalizing isd last with
  | nil =>
    obtain ⟨u16, h⟩ := short i (by simp)
    obtain ⟨eight, read⟩ := includedFromBuf_short h
    simp [includedLoop, eight, read, IncludedDiscovery.append, Inclusion.reported]
  | cons j page ih =>
    obtain ⟨u16, h⟩ := short j (by simp)
    obtain ⟨eight, read⟩ := includedFromBuf_short h
    have rest := fun isd last => ih isd last fun i hi => short i (List.mem_cons_of_mem j hi)
    simp only [List.cons_append, List.map_cons, includedLoop, eight, read, rest,
      IncludedDiscovery.append, List.append_assoc]
    rfl

theorem includedLoop_long (page : List Inclusion) (i : Inclusion) (isd : IncludedDiscovery)
    (last : UInt16) (long : ∀ j ∈ page ++ [i], ∃ u128, j.uuid = .uuid128 u128) :
    includedLoop b ((page ++ [i]).map Inclusion.entry) isd last =
      ({ isd with refs := isd.refs + (page ++ [i]).length },
        (page ++ [i]).map (resolveRequest b), i.handle) := by
  induction page generalizing isd last with
  | nil =>
    obtain ⟨u128, h⟩ := long i (by simp)
    obtain ⟨six, read⟩ := includedFromBuf_long h
    simp [includedLoop, six, read, resolveIncludedUuid, isdRef, resolveRequest]
  | cons j page ih =>
    obtain ⟨u128, h⟩ := long j (by simp)
    obtain ⟨six, read⟩ := includedFromBuf_long h
    have rest := fun isd last => ih isd last fun i hi => long i (List.mem_cons_of_mem j hi)
    simp only [List.cons_append, List.map_cons, includedLoop, six, read, rest,
      resolveIncludedUuid, isdRef, if_true, List.length_cons, resolveRequest]
    congr 2
    push_cast
    omega

/-- The request for the declarations behind the last one, unless that has the last handle. -/
def askBehind (b : Buflen) (finish : UInt16) (i : Inclusion) : List IncludedRequest :=
  if i.handle < finish then [(.find, includeReq b finish (i.handle + 1))] else []

/-- Declarations are taken over or wait to be resolved. -/
theorem findIncludedCb_page {page : List Inclusion} {i : Inclusion} {response : List UInt8}
    (h : IncludeResp (page ++ [i]) response) (refs : Int) (found : List GattIncluded) :
    findIncludedCb b ⟨refs, 0, finish, found⟩ (0, response) =
        .ok (⟨refs + (askBehind b finish i).length, 0, finish,
          found ++ (page ++ [i]).map Inclusion.reported⟩, askBehind b finish i) ∨
      (∀ j ∈ page ++ [i], ∃ u128, j.uuid = .uuid128 u128) ∧
      findIncludedCb b ⟨refs, 0, finish, found⟩ (0, response) =
        .ok (⟨refs + (page ++ [i]).length + (askBehind b finish i).length, 0, finish, found⟩,
          (page ++ [i]).map (resolveRequest b) ++ askBehind b finish i) := by
  obtain ⟨list, decoded, data⟩ := decReadByResp_entriesResp
    (show attOpReadByTypeResp ≠ 0 by decide) (fun i => by have := inclusionEntry_length i; omega) h
    (by simp)
  have read : decReadByTypeResp response = .ok (some list) := decoded
  have len : ∀ j ∈ page ++ [i], j.entry.length = list.len := fun j hj =>
    list.sized j.entry (by rw [data]; exact List.mem_map_of_mem hj)
  rcases uniform (by simp) len with ⟨eight, short⟩ | ⟨six, long⟩
  · have loop := @includedLoop_short b page i ⟨refs, 0, finish, found⟩ finish short
    left
    simp only [findIncludedCb, ne_eq, not_true_eq_false, if_false, read, data, loop, eight]
    by_cases more : i.handle < finish
    · simp [askBehind, more, findIncluded, isdRef, IncludedDiscovery.setErr]
    · simp [askBehind, more, IncludedDiscovery.setErr]
  · have loop := @includedLoop_long b page i ⟨refs, 0, finish, found⟩ finish long
    refine .inr ⟨long, ?_⟩
    simp only [findIncludedCb, ne_eq, not_true_eq_false, if_false, read, data, loop, six]
    by_cases more : i.handle < finish
    · simp [askBehind, more, findIncluded, isdRef, IncludedDiscovery.setErr]
    · simp [askBehind, more, IncludedDiscovery.setErr]

variable {ρ : Type*} {respond : ρ → List UInt8 → ρ × List UInt8} {I : Inclusions start finish}

/-- The answer to the last request that waits makes the report. -/
theorem resolve_step {i : Inclusion} {u128 : UInt128} (long : i.uuid = .uuid128 u128)
    (refs : Int) (found : List GattIncluded) (queue : List IncludedRequest)
    (log : List IncludedReport) :
    (findIncludedSystem b start finish).machine.step
        ((⟨refs, 0, finish, found⟩, resolveRequest b i :: queue), log)
        (0, attOpReadResp :: u128.data) =
      some ((⟨refs - 1, 0, finish, found ++ [i.reported]⟩, queue),
        log ++ if refs - 1 > 0 then [] else [(some (found ++ [i.reported]), 0)]) := by
  have least : 23 ≤ b.len := b.least
  have sized := u128.sized
  have fits : ¬ (attOpReadResp ≠ attOpReadResp ∨
      b.len < (attOpReadResp :: u128.data).length - 1) := by
    rintro (other | small)
    · exact other rfl
    · simp only [List.length_cons] at small
      omega
  have read : decReadResp (attOpReadResp :: u128.data) b.len = some u128.data := if_neg fits
  have resolved : resolveIncludedUuidCb b ⟨refs, 0, finish, found⟩ ⟨[], i.handle, i.range⟩
      (0, attOpReadResp :: u128.data) = ⟨refs, 0, finish, found ++ [i.reported]⟩ := by
    simp only [resolveIncludedUuidCb, ne_eq, not_true_eq_false, if_false, read, sized, dif_pos,
      IncludedDiscovery.append, Inclusion.reported, long]
    rfl
  simp only [Transducer.machine, findIncludedSystem, resolveRequest, includedAnswered, resolved,
    isdUnref, Option.map_some, List.append_nil]
  rfl

theorem resolve_answer (inc : Includes respond b I) {i : Inclusion} (mem : i ∈ I.list)
    {u128 : UInt128} (long : i.uuid = .uuid128 u128) (w : ρ) :
    (reported respond w (resolveRequest b i).2).2 = (0, attOpReadResp :: u128.data) := by
  have response := inc.resolves i mem u128 long w
  rw [resolveRequest, reported_eq response (by simp [u128.sized]), readReq_eq]
  exact congrArg (·, _) status_expected

/-- The requests in front are resolved one after the other. -/
theorem drives_resolves (inc : Includes respond b I) {page : List Inclusion}
    (mem : ∀ i ∈ page, i ∈ I.list) (long : ∀ i ∈ page, ∃ u128, i.uuid = .uuid128 u128)
    {tail : List IncludedRequest} (more : tail ≠ []) (w : ρ) (found : List GattIncluded) :
    ∃ w₁, ∀ w' t,
      (findIncludedSystem b start finish).Drives waiting (reported respond) w₁
        ((⟨tail.length, 0, finish, found ++ page.map Inclusion.reported⟩, tail), []) w' t →
      (findIncludedSystem b start finish).Drives waiting (reported respond) w
        ((⟨page.length + tail.length, 0, finish, found⟩,
          page.map (resolveRequest b) ++ tail), []) w' t := by
  induction page generalizing w found with
  | nil => exact ⟨w, fun w' t drives => by simpa using drives⟩
  | cons i page ih =>
    obtain ⟨u128, h⟩ := long i List.mem_cons_self
    have answer := resolve_answer inc (mem i List.mem_cons_self) h w
    obtain ⟨w₁, rest⟩ := ih (fun j hj => mem j (List.mem_cons_of_mem i hj))
      (fun j hj => long j (List.mem_cons_of_mem i hj))
      (reported respond w (resolveRequest b i).2).1 (found ++ [i.reported])
    refine ⟨w₁, fun w' t drives => ?_⟩
    have count := List.length_pos_iff.mpr more
    have step := @resolve_step b start finish i u128 h ((page.length + 1 + tail.length : Nat) : Int)
      found (page.map (resolveRequest b) ++ tail) []
    have one : ((page.length + 1 + tail.length : Nat) : Int) - 1 = page.length + tail.length := by
      push_cast
      omega
    have all : ((i :: page).length : Int) + tail.length =
        ((page.length + 1 + tail.length : Nat) : Int) := by
      rw [List.length_cons]
      push_cast
      rfl
    rw [if_pos (by omega), one, ← answer, List.append_nil] at step
    rw [all]
    refine Transducer.drives_step (q := (resolveRequest b i).2) rfl step (rest w' t ?_)
    simpa using drives

/-- So they are until none is left. -/
theorem drives_resolves_last (inc : Includes respond b I) {page : List Inclusion} {i : Inclusion}
    (mem : ∀ j ∈ page ++ [i], j ∈ I.list) (long : ∀ j ∈ page ++ [i], ∃ u128, j.uuid = .uuid128 u128)
    (w : ρ) (found : List GattIncluded) :
    ∃ w' isd, (findIncludedSystem b start finish).Drives waiting (reported respond) w
      ((⟨(page ++ [i]).length, 0, finish, found⟩, (page ++ [i]).map (resolveRequest b)), []) w'
      ((isd, []), [(some (found ++ (page ++ [i]).map Inclusion.reported), 0)]) := by
  obtain ⟨u128, h⟩ := long i (by simp)
  obtain ⟨w₁, before⟩ := @drives_resolves b start finish ρ respond I inc page
    (fun j hj => mem j (by simp [hj])) (fun j hj => long j (by simp [hj])) [resolveRequest b i]
    (by simp) w found
  have answer := resolve_answer inc (mem i (by simp)) h w₁
  have step := @resolve_step b start finish i u128 h 1 (found ++ page.map Inclusion.reported) [] []
  rw [if_neg (by decide), ← answer, List.nil_append] at step
  have drives := before _ _ (Transducer.drives_step (q := (resolveRequest b i).2) rfl step
    (Transducer.drives_done rfl))
  refine ⟨(reported respond w₁ (resolveRequest b i).2).1, ⟨1 - 1, 0, finish,
    found ++ page.map Inclusion.reported ++ [i.reported]⟩, ?_⟩
  simpa using drives

/-- Nothing is reported as long as there is another reference. -/
theorem isdUnref_succ {refs : Int} (another : 0 < refs) (err : UInt8) (found : List GattIncluded) :
    isdUnref ⟨1 + refs, err, finish, found⟩ = (⟨refs, err, finish, found⟩, []) := by
  have left : 1 + refs - 1 = refs := by omega
  simp only [isdUnref, left, gt_iff_lt, if_pos another]

theorem includeReq_eq (b : Buflen) (finish start : UInt16) :
    includeReq b finish start =
      attOpReadByTypeReq :: (putU16 start ++ putU16 finish ++ putU16 gattIncludeUuid) :=
  encReadByReq_uuid16 b _ _ _ _

theorem include_answer {page : List Inclusion} {w : ρ} {ask : UInt16}
    (h : IncludeResp page (respond w (includeReq b finish ask)).2) :
    (reported respond w (includeReq b finish ask)).2 =
      (0, (respond w (includeReq b finish ask)).2) := by
  have ok : status (includeReq b finish ask) (respond w (includeReq b finish ask)).2 = 0 := by
    obtain ⟨width, -, -, response⟩ := h
    rw [response, includeReq_eq]
    exact status_expected
  rw [reported_eq rfl (entriesResp_length h), ok]

theorem find_step {answer : Answer} {isd isd' : IncludedDiscovery} {sent : List IncludedRequest}
    (h : findIncludedCb b isd answer = .ok (isd', sent)) (request : List UInt8) :
    (findIncludedSystem b start finish).machine.step ((isd, [(.find, request)]), []) answer =
      some (((isdUnref isd').1, sent), (isdUnref isd').2) := by
  simp only [Transducer.machine, findIncludedSystem, includedAnswered, h, Option.map_some,
    List.nil_append]

/-- Behind a page are the declarations from the next handle on, if there is one. -/
theorem rest_behind {ask : UInt16} {page more : List Inclusion} {i : Inclusion}
    (split : I.table.rest ask.toNat = page ++ i :: more) :
    (i.handle < finish → I.table.rest (i.handle + 1).toNat = more) ∧
      (¬ i.handle < finish → more = []) := by
  have behind : I.table.rest (i.handle.toNat + 1) = more := Table.rest_next split
  have := finish.toNat_lt
  constructor
  · intro less
    have := UInt16.lt_iff_toNat_lt.mp less
    have next : (i.handle + 1).toNat = i.handle.toNat + 1 := by
      rw [UInt16.toNat_add]
      exact Nat.mod_eq_of_lt (by show i.handle.toNat + 1 < 65536; omega)
    rw [next, behind]
  · intro last
    rw [UInt16.lt_iff_toNat_lt] at last
    rw [← behind]
    refine List.eq_nil_iff_forall_not_mem.mpr fun j hj => ?_
    have from_next : i.handle.toNat + 1 ≤ j.handle.toNat :=
      of_decide_eq_true (List.mem_filter.mp hj).2
    have := I.within j (Table.mem_of_mem_rest hj)
    omega

/-- With a page that others follow, those of the page are found, and the next are asked for. -/
theorem drives_page (inc : Includes respond b I) {w : ρ} {ask : UInt16} {page : List Inclusion}
    {i : Inclusion} (mem : ∀ j ∈ page ++ [i], j ∈ I.list)
    (response : IncludeResp (page ++ [i]) (respond w (includeReq b finish ask)).2)
    (less : i.handle < finish) (found : List GattIncluded) :
    ∃ w₁, ∀ w' last, (findIncludedSystem b start finish).Drives waiting (reported respond) w₁
        ((⟨1, 0, finish, found ++ (page ++ [i]).map Inclusion.reported⟩,
          [(.find, includeReq b finish (i.handle + 1))]), []) w' last →
      (findIncludedSystem b start finish).Drives waiting (reported respond) w
        ((⟨1, 0, finish, found⟩, [(.find, includeReq b finish ask)]), []) w' last := by
  have answer := include_answer response
  obtain done | ⟨long, done⟩ := @findIncludedCb_page b finish page i _ response 1 found
  all_goals
    rw [← answer, askBehind, if_pos less] at done
    have step := @find_step b start finish _ _ _ _ done (includeReq b finish ask)
  · refine ⟨(reported respond w (includeReq b finish ask)).1, fun w' last rest => ?_⟩
    exact Transducer.drives_step (q := includeReq b finish ask) rfl step rest
  · obtain ⟨w₁, resolved⟩ := @drives_resolves b start finish ρ respond I inc (page ++ [i]) mem
      long [(.find, includeReq b finish (i.handle + 1))] (by simp)
      (reported respond w (includeReq b finish ask)).1 found
    refine ⟨w₁, fun w' last rest => ?_⟩
    refine Transducer.drives_step (q := includeReq b finish ask) rfl step ?_
    rw [Int.add_assoc, isdUnref_succ (by simp; omega)]
    exact resolved _ _ rest

/-- With the last page, what was found is reported. -/
theorem drives_last_page (inc : Includes respond b I) {w : ρ} {ask : UInt16}
    {page : List Inclusion} {i : Inclusion} (mem : ∀ j ∈ page ++ [i], j ∈ I.list)
    (response : IncludeResp (page ++ [i]) (respond w (includeReq b finish ask)).2)
    (last : ¬ i.handle < finish) (found : List GattIncluded) :
    ∃ w' isd, (findIncludedSystem b start finish).Drives waiting (reported respond) w
      ((⟨1, 0, finish, found⟩, [(.find, includeReq b finish ask)]), []) w'
      ((isd, []), [(some (found ++ (page ++ [i]).map Inclusion.reported), 0)]) := by
  have answer := include_answer response
  obtain done | ⟨long, done⟩ := @findIncludedCb_page b finish page i _ response 1 found
  all_goals
    rw [← answer, askBehind, if_neg last] at done
    have step := @find_step b start finish _ _ _ _ done (includeReq b finish ask)
  · exact ⟨(reported respond w (includeReq b finish ask)).1,
      ⟨1 + 0 - 1, 0, finish, found ++ (page ++ [i]).map Inclusion.reported⟩,
      Transducer.drives_step (q := includeReq b finish ask) rfl step (Transducer.drives_done rfl)⟩
  · obtain ⟨w', isd, drives⟩ := @drives_resolves_last b start finish ρ respond I inc page i
      mem long (reported respond w (includeReq b finish ask)).1 found
    refine ⟨w', isd, Transducer.drives_step (q := includeReq b finish ask) rfl step ?_⟩
    rw [List.append_nil, Int.add_assoc, isdUnref_succ (by simp), List.length_nil,
      Int.natCast_zero, Int.add_zero]
    exact drives

/-- When there are no declarations left, what was found is reported. -/
theorem drives_none (inc : Includes respond b I) (w : ρ) {ask : UInt16}
    (none : I.table.rest ask.toNat = []) (found : List GattIncluded) :
    ∃ w' isd, (findIncludedSystem b start finish).Drives waiting (reported respond) w
      ((⟨1, 0, finish, found⟩, [(.find, includeReq b finish ask)]), []) w'
      ((isd, []), [(some found, 0)]) := by
  obtain ⟨opcode, lo, hi, response⟩ := inc.lists.none w ask none
  have answer : (reported respond w (includeReq b finish ask)).2 =
      (attEcodeAttrNotFound, [attOpError, opcode, lo, hi, attEcodeAttrNotFound]) := by
    rw [reported_eq response (by simp), status_error]
  have done : findIncludedCb b ⟨1, 0, finish, found⟩
      (reported respond w (includeReq b finish ask)).2 = .ok (⟨1, 0, finish, found⟩, []) := by
    rw [answer]
    rfl
  exact ⟨(reported respond w (includeReq b finish ask)).1, ⟨1 - 1, 0, finish, found⟩,
    Transducer.drives_step (q := includeReq b finish ask) rfl (find_step done _)
      (Transducer.drives_done rfl)⟩

/-- From a request for declarations on, those left are found. -/
theorem drives_find (inc : Includes respond b I) (w : ρ) (ask : UInt16)
    (found : List GattIncluded) :
    ∃ w' isd, (findIncludedSystem b start finish).Drives waiting (reported respond) w
      ((⟨1, 0, finish, found⟩, [(.find, includeReq b finish ask)]), []) w'
      ((isd, []), [(some (found ++ (I.table.rest ask.toNat).map Inclusion.reported), 0)]) := by
  induction left : (I.table.rest ask.toNat).length using Nat.strong_induction_on
    generalizing w ask found with
  | _ n ih =>
    by_cases none : I.table.rest ask.toNat = []
    · rw [none, List.map_nil, List.append_nil]
      exact drives_none inc w none found
    · obtain ⟨page, more, split, nonempty, response⟩ := inc.lists.page w ask none
      obtain ⟨page, i, rfl⟩ : ∃ before i, page = before ++ [i] :=
        ⟨_, _, (List.dropLast_append_getLast nonempty).symm⟩
      have mem : ∀ j ∈ page ++ [i], j ∈ I.list := fun j hj =>
        @Table.mem_of_mem_rest _ I.table ask.toNat j
          (by rw [split]; exact List.mem_append_left _ hj)
      have cut : I.table.rest ask.toNat = page ++ i :: more := by
        rw [split, List.append_assoc, List.singleton_append]
      obtain ⟨goes_on, ends⟩ := rest_behind cut
      rw [split, List.map_append, ← List.append_assoc]
      by_cases less : i.handle < finish
      · have fewer : more.length < n := by
          rw [← left, cut, List.length_append, List.length_cons]
          omega
        obtain ⟨w₁, first⟩ := @drives_page b start finish ρ respond I inc w ask page i mem
          response less found
        obtain ⟨w', isd, rest⟩ := ih more.length fewer w₁ (i.handle + 1)
          (found ++ (page ++ [i]).map Inclusion.reported) (by rw [goes_on less])
        rw [goes_on less] at rest
        exact ⟨w', isd, first _ _ rest⟩
      · rw [ends less, List.map_nil, List.append_nil]
        exact drives_last_page inc mem response less found

/-- `gatt_find_included` reports the services that a server includes, in order and each once, with
the UUIDs that have to be resolved, however few the server lists at a time. -/
theorem findIncluded_finds (inc : Includes respond b I) (w : ρ) :
    ∃ w' isd, (findIncludedSystem b start finish).Drives waiting (reported respond) w
      ((findIncludedSystem b start finish).init, []) w'
      ((isd, []), [(some (I.list.map Inclusion.reported), 0)]) := by
  have drives := drives_find inc w start []
  have all : I.table.rest start.toNat = I.list := Table.rest_eq_entries I.first
  rw [all, List.nil_append] at drives
  exact drives

/-- An included service with a short UUID and one with a long. -/
def twoInclusions : Inclusions 1 9 where
  list := [⟨2, ⟨20, 29⟩, .uuid16 0x180a, by simp⟩,
    ⟨3, ⟨30, 39⟩, .uuid128 ⟨List.replicate 16 9, rfl⟩, by simp⟩]
  first := by decide
  within := by decide
  ordered := by decide

/-- A server that lists the two and has one long UUID. -/
def serveInclusions (w : Unit) (request : List UInt8) : Unit × List UInt8 :=
  if request.headD 0 = attOpReadReq then (w, attOpReadResp :: List.replicate 16 9)
  else serveFirst twoInclusions.table (entryResp attOpReadByTypeResp Inclusion.entry) w request

theorem serveInclusions_includes (b : Buflen) : Includes serveInclusions b twoInclusions := by
  have same (w : Unit) (start : UInt16) : serveInclusions w (includeReq b 9 start) =
      serveFirst twoInclusions.table (entryResp attOpReadByTypeResp Inclusion.entry) w
        (includeReq b 9 start) := by
    rw [includeReq_eq]
    rfl
  have lists := @serveFirst_lists _ Unit twoInclusions.table
    (entryResp attOpReadByTypeResp Inclusion.entry) attOpReadByTypeReq
    (putU16 9 ++ putU16 gattIncludeUuid) (includeReq b 9) IncludeResp
    (fun start => by rw [includeReq_eq, List.append_assoc])
    (fun i => entriesResp_single (by have := inclusionEntry_length i; omega))
  refine ⟨⟨fun w start some_entry => ?_, fun w start none => ?_⟩, ?_⟩
  · rw [same]
    exact lists.page w start some_entry
  · rw [same]
    exact lists.none w start none
  · intro i mem u128 long w
    have nines : u128.data = List.replicate 16 9 := by
      simp only [twoInclusions, List.mem_cons, List.not_mem_nil, or_false] at mem
      rcases mem with rfl | rfl
      · cases long
      · rw [← (Uuid.uuid128.inj long)]
    rw [readReq_eq, nines]
    rfl

end Honest

end LibMip.Gatt
