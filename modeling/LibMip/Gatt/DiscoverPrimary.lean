import LibMip.Gatt.Listing

/-!
# Discovering primary services

`gatt_discover_primary` asks for the services from the first handle on, and again from behind the
last one it was told, until a service ends with the last handle or the server has no more. With a
UUID it asks for the ranges of the services that have it.

Both find every service of a server that answers with some of the services left, however few at a
time. They end when the lists they are answered with go on from where they asked, and may go on for
ever when they do not.
-/

namespace LibMip.Gatt

open Att Channel Exchange Octets

/-! ## The procedures -/

/-- `struct gatt_primary`. -/
structure GattPrimary where
  uuid : List UInt8
  range : AttRange
  deriving DecidableEq

def gattPrimSvcUuid : UInt16 := 0x2800

variable (b : Buflen)

/-- `encode_discover_primary`. -/
def encodeDiscoverPrimary (start finish : UInt16) (uuid : Option Uuid) : Option (List UInt8) :=
  match uuid with
  | none => encReadByGrpReq start finish (.uuid16 gattPrimSvcUuid) b.len
  | some uuid => encFindByTypeReq start finish gattPrimSvcUuid (attPutUuid uuid) b.len

/-- An entry of a list: where the service ends, and the service when its UUID has a known size. -/
def primaryOfData : List UInt8 → Except ListFault (UInt16 × Option GattPrimary)
  | s :: s' :: e :: e' :: uuid =>
    .ok (getU16 e e', (attGetUuid uuid).map fun u =>
      ⟨btUuidToString (.uuid128 u.to128), getU16 s s', getU16 e e'⟩)
  | _ => .error .outOfBounds

/-- The loop of `primary_all_cb`: the services and where the last entry ends. -/
def primaryLoop : List (List UInt8) → List GattPrimary → UInt16 →
    Except ListFault (List GattPrimary × UInt16)
  | [], primaries, finish => .ok (primaries, finish)
  | data :: rest, primaries, _ =>
    match primaryOfData data with
    | .ok (finish, primary) => primaryLoop rest (primaries ++ primary.toList) finish
    | .error fault => .error fault

/-- `primary_all_cb`. -/
def primaryAllCb (primaries : List GattPrimary) (answer : Answer) :
    Turn (List GattPrimary) (List UInt8) (Report GattPrimary) :=
  if answer.1 ≠ 0 then
    .stop (.ok (primaries, if answer.1 = attEcodeAttrNotFound then 0 else answer.1))
  else
    match decReadByGrpResp answer.2 with
    | .error fault => .stop (.error fault)
    | .ok none => .stop (.ok (primaries, attEcodeIo))
    | .ok (some list) =>
      match primaryLoop list.data primaries 0 with
      | .error fault => .stop (.error fault)
      | .ok (primaries, finish) =>
        if finish = 0xffff then .stop (.ok (primaries, 0))
        else .ask primaries ((encodeDiscoverPrimary b (finish + 1) 0xffff none).getD [])

/-- `primary_by_uuid_cb`. -/
def primaryByUuidCb (uuid : Uuid) (primaries : List AttRange) (answer : Answer) :
    Turn (List AttRange) (List UInt8) (Report AttRange) :=
  if answer.1 ≠ 0 then
    .stop (.ok (primaries, if answer.1 = attEcodeAttrNotFound then 0 else answer.1))
  else
    match decFindByTypeResp answer.2 with
    | none => .stop (.ok (primaries, 0))
    | some ranges =>
      match ranges.getLast? with
      | none => .stop (.ok (primaries, 0))
      | some range =>
        if range.finish = 0xffff then .stop (.ok (primaries ++ ranges, 0))
        else
          match encodeDiscoverPrimary b (range.finish + 1) 0xffff (some uuid) with
          | none => .stop (.ok (primaries ++ ranges, 0))
          | some request => .ask (primaries ++ ranges) request

def discoverPrimary {ρ : Type*} (answer : ρ → List UInt8 → ρ × Answer) :
    Dialogue (List GattPrimary) ρ (List UInt8) Answer (Report GattPrimary) where
  resume := primaryAllCb b
  answer

def discoverPrimaryByUuid {ρ : Type*} (uuid : Uuid) (answer : ρ → List UInt8 → ρ × Answer) :
    Dialogue (List AttRange) ρ (List UInt8) Answer (Report AttRange) where
  resume := primaryByUuidCb b uuid
  answer

/-- `gatt_discover_primary` without a UUID. -/
def gattDiscoverPrimary : Turn (List GattPrimary) (List UInt8) (Report GattPrimary) :=
  .ask [] ((encodeDiscoverPrimary b 0x0001 0xffff none).getD [])

/-- `gatt_discover_primary` with a UUID. -/
def gattDiscoverPrimaryByUuid (uuid : Uuid) : Turn (List AttRange) (List UInt8) (Report AttRange) :=
  .ask [] ((encodeDiscoverPrimary b 0x0001 0xffff (some uuid)).getD [])

/-! ## The services of a server -/

structure Service where
  range : AttRange
  uuid : Uuid
  valid : range.start.toNat ≤ range.finish.toNat
  known : ∀ u32, uuid ≠ .uuid32 u32

/-- The service in a list of services. -/
def Service.entry (s : Service) : List UInt8 :=
  putU16 s.range.start ++ (putU16 s.range.finish ++ attPutUuid s.uuid)

/-- The service as it is reported. -/
def Service.primary (s : Service) : GattPrimary :=
  ⟨btUuidToString (.uuid128 s.uuid.to128), s.range⟩

/-- The services of a server in the order of their handles, none of which is zero. -/
structure Services where
  list : List Service
  first : ∀ s ∈ list, 1 ≤ s.range.start.toNat
  ordered : list.Pairwise fun s s' => s.range.finish.toNat < s'.range.start.toNat

def Services.table (S : Services) : Table Service where
  entries := S.list
  key s := s.range.start.toNat
  next s := s.range.finish.toNat + 1
  advances s _ := Nat.lt_succ_of_le s.valid
  ordered := S.ordered

/-- The services with a UUID, in whatever size. -/
def Services.having (S : Services) (uuid : Uuid) : Services where
  list := S.list.filter fun s => btUuidCmp s.uuid uuid
  first s hs := S.first s (List.mem_filter.mp hs).1
  ordered := S.ordered.filter _

/-- The request for the services from a handle on. -/
def groupReq (start : UInt16) : List UInt8 :=
  attOpReadByGroupReq :: (putU16 start ++ putU16 0xffff ++ putU16 gattPrimSvcUuid)

/-- The response with some services. -/
def GroupResp : List Service → List UInt8 → Prop :=
  EntriesResp attOpReadByGroupResp Service.entry

/-- The request for the ranges of the services with a UUID from a handle on. -/
def findReq (uuid : Uuid) (start : UInt16) : List UInt8 :=
  attOpFindByTypeReq :: (putWords [start, 0xffff, gattPrimSvcUuid] ++ attPutUuid uuid)

/-- The response with the ranges of some services. -/
def FindResp (page : List Service) (response : List UInt8) : Prop :=
  1 + 4 * page.length ≤ 512 ∧ response = attOpFindByTypeResp ::
    page.flatMap fun s => putU16 s.range.start ++ putU16 s.range.finish

section All

variable {b}

theorem groupReq_eq (b : Buflen) (start : UInt16) :
    (encodeDiscoverPrimary b start 0xffff none).getD [] = groupReq start :=
  encReadByReq_uuid16 b _ _ _ _

theorem primaryOfData_entry (s : Service) :
    primaryOfData s.entry = .ok (s.range.finish, some s.primary) := by
  obtain ⟨a, a', start, readStart⟩ := putU16_eq s.range.start
  obtain ⟨e, e', finish, readFinish⟩ := putU16_eq s.range.finish
  rw [Service.entry, start, finish]
  simp only [List.cons_append, List.nil_append, primaryOfData, readStart, readFinish,
    attGetUuid_attPutUuid s.known, Option.map_some]
  rfl

theorem entry_length (s : Service) : 4 < s.entry.length ∧ s.entry.length < 256 := by
  obtain ⟨range, uuid, valid, known⟩ := s
  simp only [Service.entry, List.length_append, putU16_length]
  cases uuid with
  | uuid16 u16 => simp [attPutUuid]
  | uuid32 u32 => exact (known u32 rfl).elim
  | uuid128 u128 => simp [attPutUuid, u128.sized]

/-- The loop takes over the services of a page. -/
theorem primaryLoop_page (page : List Service) (last : Service) (primaries : List GattPrimary)
    (finish : UInt16) :
    primaryLoop ((page ++ [last]).map Service.entry) primaries finish =
      .ok (primaries ++ (page ++ [last]).map Service.primary, last.range.finish) := by
  induction page generalizing primaries finish with
  | nil => simp [primaryLoop, primaryOfData_entry]
  | cons s page ih =>
    rw [List.cons_append, List.map_cons, primaryLoop, primaryOfData_entry]
    simp only [ih, Option.toList_some, List.append_assoc, List.map_cons, List.singleton_append]

theorem decReadByGrpResp_groupResp {page : List Service} {response : List UInt8}
    (h : GroupResp page response) (some_service : page ≠ []) :
    ∃ list, decReadByGrpResp response = .ok (some list) ∧ list.data = page.map Service.entry :=
  decReadByResp_entriesResp (by decide) (fun s => by have := entry_length s; omega) h some_service

/-- Such a response takes the procedure on to the services behind it. -/
theorem primaryAllCb_groupResp {page : List Service} {last : Service} {response : List UInt8}
    (h : GroupResp (page ++ [last]) response) (primaries : List GattPrimary) :
    primaryAllCb b primaries (0, response) =
      if last.range.finish = 0xffff then
        .stop (.ok (primaries ++ (page ++ [last]).map Service.primary, 0))
      else .ask (primaries ++ (page ++ [last]).map Service.primary)
        (groupReq (last.range.finish + 1)) := by
  obtain ⟨list, decoded, data⟩ := decReadByGrpResp_groupResp h (by simp)
  simp only [primaryAllCb, ne_eq, not_true_eq_false, if_false, decoded, data, primaryLoop_page,
    groupReq_eq]

/-- `gatt_discover_primary` reports the services of a server, all of them in order and each once,
however few the server lists at a time. -/
theorem gattDiscoverPrimary_finds {ρ : Type*} {respond : ρ → List UInt8 → ρ × List UInt8}
    {S : Services} (lists : Lists respond S.table groupReq GroupResp) (w : ρ) :
    ∃ w', (discoverPrimary b (reported respond)).Ends w (gattDiscoverPrimary b) w'
      (.ok (S.list.map Service.primary, 0)) := by
  have finds := lists.finds (D := discoverPrimary b (reported respond)) rfl
    (fun found => found.map Service.primary)
    (fun found => .ok (found.map Service.primary, 0)) (le_refl 65536)
    (fun found last _ past => ?_) ?_ ?_ w 0x0001
  · have all : S.table.rest (0x0001 : UInt16).toNat = S.list := Table.rest_eq_entries S.first
    rw [all] at finds
    rw [gattDiscoverPrimary, groupReq_eq]
    exact finds
  · rw [Table.rest_eq_nil fun s _ => s.range.start.toNat_lt.trans_le past, List.append_nil]
  · intro found response
    have code : attEcodeAttrNotFound ≠ 0 := by decide
    simp only [discoverPrimary, primaryAllCb, ne_eq, code, not_false_eq_true, if_true]
  · intro found page last start response _ h
    refine ⟨entriesResp_length h, ?_, ?_⟩
    · obtain ⟨width, -, -, rfl⟩ := h
      exact status_expected
    · show primaryAllCb b (found.map Service.primary) (0, response) =
        if last.range.finish.toNat + 1 < 65536 then _ else _
      rw [primaryAllCb_groupResp h]
      simp only [next_lt_iff, ite_not, List.map_append]
      rfl

theorem groupResp_single (s : Service) :
    GroupResp [s] (entryResp attOpReadByGroupResp Service.entry s) :=
  entriesResp_single (by have := entry_length s; omega)

/-- Two services, the second of which goes up to the last handle. -/
def twoServices : Services where
  list := [⟨⟨1, 7⟩, .uuid16 0x1800, by decide, by simp⟩,
    ⟨⟨8, 0xffff⟩, .uuid128 ⟨List.replicate 16 7, rfl⟩, by decide, by simp⟩]
  first := by decide
  ordered := by decide

theorem gattDiscoverPrimary_finds_two :
    ∃ w', (discoverPrimary ⟨23, le_rfl⟩
        (reported (serveFirst twoServices.table
          (entryResp attOpReadByGroupResp Service.entry)))).Ends ()
      (gattDiscoverPrimary ⟨23, le_rfl⟩) w' (.ok (twoServices.list.map Service.primary, 0)) :=
  gattDiscoverPrimary_finds (serveFirst_lists (fun _ => rfl) groupResp_single) ()

end All

/-! ## With a UUID -/

section ByUuid

variable {b} {uuid : Uuid}

theorem attPutUuid_length_le (uuid : Uuid) : (attPutUuid uuid).length ≤ 16 := by
  cases uuid with
  | uuid16 u16 => simp [attPutUuid]
  | uuid32 u32 => simp [attPutUuid]
  | uuid128 u128 => simp [attPutUuid, u128.sized]

theorem findReq_eq (b : Buflen) (uuid : Uuid) (start : UInt16) :
    encodeDiscoverPrimary b start 0xffff (some uuid) = some (findReq uuid start) := by
  have least : 23 ≤ b.len := b.least
  have fits : ¬ b.len < 1 + 2 * [start, 0xffff, gattPrimSvcUuid].length := by simp; omega
  have short := attPutUuid_length_le uuid
  have whole : (attPutUuid uuid).take (b.len - (1 + 2 * [start, 0xffff, gattPrimSvcUuid].length)) =
      attPutUuid uuid := List.take_of_length_le (by simp; omega)
  rw [encodeDiscoverPrimary, encFindByTypeReq, encHeader, if_neg fits, whole, findReq]

theorem findResp_length {page : List Service} {response : List UInt8}
    (h : FindResp page response) : response.length ≤ 512 := by
  obtain ⟨fits, rfl⟩ := h
  have ranges : (page.flatMap fun s => putU16 s.range.start ++ putU16 s.range.finish).length =
      4 * page.length := by simp [Nat.mul_comm]
  rw [List.length_cons, ranges]
  omega

theorem decFindByTypeResp_findResp {page : List Service} {response : List UInt8}
    (h : FindResp page response) (some_service : page ≠ []) :
    decFindByTypeResp response = some (page.map Service.range) := by
  obtain ⟨-, rfl⟩ := h
  refine decFindByTypeResp_eq_some_iff.mpr ⟨by simpa using some_service, [], by simp, ?_⟩
  rw [List.append_nil, List.flatMap_map]

/-- With a UUID, the ranges of the services that have it are reported. -/
theorem gattDiscoverPrimaryByUuid_finds {ρ : Type*} {respond : ρ → List UInt8 → ρ × List UInt8}
    {S : Services} (lists : Lists respond (S.having uuid).table (findReq uuid) FindResp) (w : ρ) :
    ∃ w', (discoverPrimaryByUuid b uuid (reported respond)).Ends w
      (gattDiscoverPrimaryByUuid b uuid) w' (.ok ((S.having uuid).list.map Service.range, 0)) := by
  have finds := lists.finds (D := discoverPrimaryByUuid b uuid (reported respond)) rfl
    (fun found => found.map Service.range)
    (fun found => .ok (found.map Service.range, 0)) (le_refl 65536)
    (fun found last _ past => ?_) ?_ ?_ w 0x0001
  · have all : (S.having uuid).table.rest (0x0001 : UInt16).toNat = (S.having uuid).list :=
      Table.rest_eq_entries (S.having uuid).first
    rw [all] at finds
    rw [gattDiscoverPrimaryByUuid, findReq_eq]
    exact finds
  · rw [Table.rest_eq_nil fun s _ => s.range.start.toNat_lt.trans_le past, List.append_nil]
  · intro found response
    have code : attEcodeAttrNotFound ≠ 0 := by decide
    simp only [discoverPrimaryByUuid, primaryByUuidCb, ne_eq, code, not_false_eq_true, if_true]
  · intro found page last start response _ h
    refine ⟨findResp_length h, ?_, ?_⟩
    · obtain ⟨-, rfl⟩ := h
      exact status_expected
    · show primaryByUuidCb b uuid (found.map Service.range) (0, response) =
        if last.range.finish.toNat + 1 < 65536 then _ else _
      have decoded := decFindByTypeResp_findResp h (by simp)
      have ending : ((page ++ [last]).map Service.range).getLast? = some last.range := by simp
      simp only [primaryByUuidCb, ne_eq, not_true_eq_false, if_false, decoded, ending, findReq_eq,
        next_lt_iff, ite_not]
      rw [@List.map_append _ _ Service.range found]
      rfl

def rangeResp (s : Service) : List UInt8 :=
  attOpFindByTypeResp :: (putU16 s.range.start ++ putU16 s.range.finish)

/-- A service with a short UUID is found by the same one in its long form. -/
theorem gattDiscoverPrimaryByUuid_finds_first :
    ∃ w', (discoverPrimaryByUuid ⟨23, le_rfl⟩ (.uuid128 (Uuid.uuid16 0x1800).to128)
        (reported (serveFirst (twoServices.having (.uuid128 (Uuid.uuid16 0x1800).to128)).table
          rangeResp))).Ends
      () (gattDiscoverPrimaryByUuid ⟨23, le_rfl⟩ (.uuid128 (Uuid.uuid16 0x1800).to128)) w'
      (.ok ([⟨1, 7⟩], 0)) :=
  gattDiscoverPrimaryByUuid_finds (serveFirst_lists (fun _ => rfl)
    fun s => ⟨by simp, by simp [rangeResp]⟩) ()

end ByUuid

/-! ## Any server -/

section AnyServer

/-- Where the last entry of a list ends, zero for a list without entries. -/
def lastEnd (entries : List (List UInt8)) : UInt16 :=
  match entries.getLast? with
  | some data => getU16 (data.getD 2 0) (data.getD 3 0)
  | none => 0

/-- The service an entry stands for, unless its UUID has no known size. -/
def serviceOf (data : List UInt8) : List GattPrimary :=
  match primaryOfData data with
  | .ok (_, primary) => primary.toList
  | .error _ => []

/-- The services in an answer. -/
def servicesOf (answer : Answer) : List GattPrimary :=
  if answer.1 ≠ 0 then []
  else
    match decReadByGrpResp answer.2 with
    | .ok (some list) => list.data.flatMap serviceOf
    | _ => []

/-- The error that an answer leads to. -/
def errorOf (answer : Answer) : UInt8 :=
  if answer.1 ≠ 0 then if answer.1 = attEcodeAttrNotFound then 0 else answer.1
  else
    match decReadByGrpResp answer.2 with
    | .ok none => attEcodeIo
    | _ => 0

variable {b}

theorem primaryOfData_eq (data : List UInt8) :
    primaryOfData data = if 4 ≤ data.length then
      .ok (getU16 (data.getD 2 0) (data.getD 3 0), (serviceOf data).head?)
      else .error .outOfBounds := by
  match data with
  | [] | [_] | [_, _] | [_, _, _] => rfl
  | s :: s' :: e :: e' :: uuid =>
    rw [if_pos (by simp)]
    cases found : attGetUuid uuid <;> simp [serviceOf, primaryOfData, found]

theorem serviceOf_eq (data : List UInt8) : (serviceOf data).head?.toList = serviceOf data := by
  unfold serviceOf
  split
  next finish primary _ => cases primary <;> rfl
  next => rfl

/-- The loop takes over what the entries stand for, when each has a range. -/
theorem primaryLoop_eq (entries : List (List UInt8)) (primaries : List GattPrimary)
    (finish : UInt16) :
    primaryLoop entries primaries finish = if ∀ data ∈ entries, 4 ≤ data.length then
      .ok (primaries ++ entries.flatMap serviceOf, if entries = [] then finish else lastEnd entries)
      else .error .outOfBounds := by
  induction entries generalizing primaries finish with
  | nil => simp [primaryLoop]
  | cons data entries ih =>
    rw [primaryLoop, primaryOfData_eq]
    by_cases long : 4 ≤ data.length
    · have last : (if entries = [] then getU16 (data.getD 2 0) (data.getD 3 0) else
          lastEnd entries) = lastEnd (data :: entries) := by
        cases entries with
        | nil => simp [lastEnd]
        | cons d ds => simp [lastEnd, List.getLast?_cons_cons]
      rw [if_pos long]
      simp only [ih, serviceOf_eq, last, List.forall_mem_cons, long, true_and, List.append_assoc,
        List.flatMap_cons, reduceCtorEq, if_false]
    · rw [if_neg long, if_neg fun all => long (all data List.mem_cons_self)]

/-- With a list whose entries have ranges, it goes on behind the last one. -/
theorem primaryAllCb_list {answer : Answer} {list : AttDataList} (primaries : List GattPrimary)
    (ok : answer.1 = 0) (decoded : decReadByGrpResp answer.2 = .ok (some list))
    (long : ∀ data ∈ list.data, 4 ≤ data.length) :
    primaryAllCb b primaries answer = if lastEnd list.data = 0xffff then
      .stop (.ok (primaries ++ list.data.flatMap serviceOf, 0))
      else .ask (primaries ++ list.data.flatMap serviceOf) (groupReq (lastEnd list.data + 1)) := by
  have ending : (if list.data = [] then 0 else lastEnd list.data) = lastEnd list.data := by
    split_ifs with none
    · simp [none, lastEnd]
    · rfl
  rw [primaryAllCb, if_neg (not_not.mpr ok)]
  simp only [decoded, primaryLoop_eq, if_pos long, ending, groupReq_eq]

/-- What `primary_all_cb` does with any answer. -/
theorem primaryAllCb_eq (primaries : List GattPrimary) (answer : Answer) :
    (∃ list, decReadByGrpResp answer.2 = .ok (some list) ∧ lastEnd list.data ≠ 0xffff ∧
        primaryAllCb b primaries answer =
          .ask (primaries ++ servicesOf answer) (groupReq (lastEnd list.data + 1))) ∨
      primaryAllCb b primaries answer =
        .stop (.ok (primaries ++ servicesOf answer, errorOf answer)) ∨
      ∃ fault, primaryAllCb b primaries answer = .stop (.error fault) := by
  by_cases failed : answer.1 ≠ 0
  · refine .inr (.inl ?_)
    rw [primaryAllCb, servicesOf, errorOf, if_pos failed, if_pos failed, if_pos failed,
      List.append_nil]
  · have ok : answer.1 = 0 := not_not.mp failed
    match decoded : decReadByGrpResp answer.2 with
    | .error fault =>
      refine .inr (.inr ⟨fault, ?_⟩)
      rw [primaryAllCb, if_neg failed]
      simp only [decoded]
    | .ok none =>
      refine .inr (.inl ?_)
      rw [primaryAllCb, servicesOf, errorOf, if_neg failed, if_neg failed, if_neg failed]
      simp only [decoded, List.append_nil]
    | .ok (some list) =>
      have services : servicesOf answer = list.data.flatMap serviceOf := by
        rw [servicesOf, if_neg failed]
        simp only [decoded]
      have noError : errorOf answer = 0 := by
        rw [errorOf, if_neg failed]
        simp only [decoded]
      rw [services, noError]
      by_cases long : ∀ data ∈ list.data, 4 ≤ data.length
      · rw [primaryAllCb_list primaries ok decoded long]
        by_cases top : lastEnd list.data = 0xffff
        · exact .inr (.inl (if_pos top))
        · exact .inl ⟨list, rfl, top, if_neg top⟩
      · refine .inr (.inr ⟨.outOfBounds, ?_⟩)
        rw [primaryAllCb, if_neg failed]
        simp only [decoded, primaryLoop_eq, if_neg long]

/-- Whatever the server answers, the services reported are those of its answers, in order, and the
error is that of the last one. -/
theorem gattDiscoverPrimary_reports {ρ : Type*} (respond : ρ → List UInt8 → ρ × List UInt8)
    {w w' : ρ} {log : List Answer} {primaries : List GattPrimary} {err : UInt8}
    (ends : (discoverPrimary b (reported respond)).logged.Ends (w, []) (gattDiscoverPrimary b)
      (w', log) (.ok (primaries, err))) :
    primaries = log.flatMap servicesOf ∧ ∃ last, log.getLast? = some last ∧ err = errorOf last := by
  have each (primaries : List GattPrimary) (answer : Answer) :
      (∃ request, primaryAllCb b primaries answer = .ask (primaries ++ servicesOf answer) request) ∨
      ∃ report, primaryAllCb b primaries answer = .stop report ∧ ∀ found err,
        report = .ok (found, err) → found = primaries ++ servicesOf answer ∧
          err = errorOf answer := by
    obtain ⟨list, -, -, resumed⟩ | resumed | ⟨fault, resumed⟩ := @primaryAllCb_eq b primaries answer
    · exact .inl ⟨_, resumed⟩
    · refine .inr ⟨_, resumed, ?_⟩
      rintro found err same
      obtain ⟨rfl, rfl⟩ := Prod.mk.inj (Except.ok.inj same)
      exact ⟨rfl, rfl⟩
    · exact .inr ⟨_, resumed, fun _ _ same => by cases same⟩
  obtain ⟨last, behind, done⟩ := Dialogue.collected servicesOf
    (fun found last report => ∀ primaries err, report = .ok (primaries, err) →
      primaries = found ∧ err = errorOf last) each ends
  obtain ⟨all, error⟩ := done primaries err rfl
  exact ⟨all, last, behind, error⟩

/-- A service and then an error other than that there are no more. -/
def oneService (n : Nat) (_ : List UInt8) : Nat × List UInt8 :=
  (n + 1, if n = 0 then [attOpReadByGroupResp, 6, 1, 0, 7, 0, 0x00, 0x18]
    else [attOpError, attOpReadByGroupReq, 0x08, 0x00, attEcodeInvalidHandle])

set_option maxRecDepth 4000 in
theorem gattDiscoverPrimary_reports_one :
    ∃ w' log, (discoverPrimary ⟨23, le_rfl⟩ (reported oneService)).logged.Ends (0, [])
        (gattDiscoverPrimary ⟨23, le_rfl⟩) (w', log)
        (.ok ([⟨btUuidToString (.uuid128 (Uuid.uuid16 0x1800).to128), 1, 7⟩],
          attEcodeInvalidHandle)) ∧
      [⟨btUuidToString (.uuid128 (Uuid.uuid16 0x1800).to128), 1, 7⟩] = log.flatMap servicesOf ∧
      ∃ last, log.getLast? = some last ∧ attEcodeInvalidHandle = errorOf last := by
  have ends : (discoverPrimary ⟨23, le_rfl⟩ (reported oneService)).logged.Ends (0, [])
      (gattDiscoverPrimary ⟨23, le_rfl⟩)
      (2, [(0, [attOpReadByGroupResp, 6, 1, 0, 7, 0, 0x00, 0x18]),
        (attEcodeInvalidHandle,
          [attOpError, attOpReadByGroupReq, 0x08, 0x00, attEcodeInvalidHandle])])
      (.ok ([⟨btUuidToString (.uuid128 (Uuid.uuid16 0x1800).to128), 1, 7⟩],
        attEcodeInvalidHandle)) := ⟨2, rfl⟩
  exact ⟨2, _, ends, gattDiscoverPrimary_reports oneService ends⟩

/-- The endings of the lists a server answers with do not lie before where it was asked from. -/
def Advances {ρ : Type*} (respond : ρ → List UInt8 → ρ × List UInt8) : Prop :=
  ∀ w start list, decReadByGrpResp ((respond w (groupReq start)).2.take 512) = .ok (some list) →
    start.toNat ≤ (lastEnd list.data).toNat

/-- `gatt_discover_primary` ends with every server whose lists advance. -/
theorem gattDiscoverPrimary_ends {ρ : Type*} {respond : ρ → List UInt8 → ρ × List UInt8}
    (advances : Advances respond) (w : ρ) :
    ∃ w' report,
      (discoverPrimary b (reported respond)).Ends w (gattDiscoverPrimary b) w' report := by
  have forward : ∀ w primaries n, n < 65536 →
      (∃ report, ((discoverPrimary b (reported respond)).follow w primaries
        (groupReq (UInt16.ofNat n))).2 = .stop report) ∨
      ∃ primaries' m, n < m ∧ m < 65536 ∧ ((discoverPrimary b (reported respond)).follow w primaries
        (groupReq (UInt16.ofNat n))).2 = .ask primaries' (groupReq (UInt16.ofNat m)) := by
    intro w primaries n within
    have start : (UInt16.ofNat n).toNat = n := by
      rw [UInt16.toNat_ofNat', Nat.mod_eq_of_lt within]
    obtain ⟨list, decoded, top, resumed⟩ | resumed | ⟨fault, resumed⟩ :=
      @primaryAllCb_eq b primaries (reported respond w (groupReq (UInt16.ofNat n))).2
    · have later := advances w (UInt16.ofNat n) list decoded
      have next := (next_lt_iff (lastEnd list.data)).mpr top
      exact .inr ⟨_, (lastEnd list.data).toNat + 1, by omega, next, resumed⟩
    · exact .inl ⟨_, resumed⟩
    · exact .inl ⟨_, resumed⟩
  rw [gattDiscoverPrimary, groupReq_eq]
  exact Dialogue.ends_of_forward (fun n => groupReq (UInt16.ofNat n)) forward w []
    (n := 1) (by decide)

/-- A list with one service from the first handle on. -/
def listUpTo (finish : UInt16) : List UInt8 :=
  entryResp attOpReadByGroupResp Service.entry
    ⟨⟨0, finish⟩, .uuid16 0x1800, Nat.zero_le _, by simp⟩

theorem decReadByGrpResp_listUpTo (finish : UInt16) :
    ∃ list, decReadByGrpResp ((listUpTo finish).take 512) = .ok (some list) ∧
      (∀ data ∈ list.data, 4 ≤ data.length) ∧ lastEnd list.data = finish := by
  obtain ⟨list, decoded, data⟩ := decReadByGrpResp_groupResp
    (groupResp_single ⟨⟨0, finish⟩, .uuid16 0x1800, Nat.zero_le _, by simp⟩) (by simp)
  refine ⟨list, decoded, ?_, ?_⟩
  · rw [data]
    simp [Service.entry, attPutUuid]
  · obtain ⟨lo, hi, written, read⟩ := putU16_eq finish
    obtain ⟨lo', hi', written', -⟩ := putU16_eq 0
    rw [data, lastEnd]
    simp [Service.entry, written, written', read]

theorem gattDiscoverPrimary_ends_top :
    ∃ w' report, (discoverPrimary ⟨23, le_rfl⟩
      (reported fun (w : Unit) _ => (w, listUpTo 0xffff))).Ends ()
        (gattDiscoverPrimary ⟨23, le_rfl⟩) w' report := by
  refine gattDiscoverPrimary_ends (fun w start list decoded => ?_) ()
  obtain ⟨list', decoded', -, finish⟩ := decReadByGrpResp_listUpTo 0xffff
  obtain rfl := Option.some.inj (Except.ok.inj (decoded'.symm.trans decoded))
  rw [finish]
  exact Nat.le_of_lt_succ start.toNat_lt

/-- It never ends with a server that always has a list that does not end with the last handle. -/
theorem gattDiscoverPrimary_endless {ρ : Type*} {respond : ρ → List UInt8 → ρ × List UInt8}
    (more : ∀ w start, (reported respond w (groupReq start)).2.1 = 0 ∧
      ∃ list, decReadByGrpResp ((respond w (groupReq start)).2.take 512) = .ok (some list) ∧
      (∀ data ∈ list.data, 4 ≤ data.length) ∧ lastEnd list.data ≠ 0xffff)
    (w w' : ρ) (report : Report GattPrimary) :
    ¬ (discoverPrimary b (reported respond)).Ends w (gattDiscoverPrimary b) w' report := by
  refine Dialogue.not_ends (I := fun _ _ request => ∃ start, request = groupReq start) ?_
    ⟨1, groupReq_eq b 1⟩
  rintro w primaries request ⟨start, rfl⟩
  obtain ⟨ok, list, decoded, long, top⟩ := more w start
  have resumed := @primaryAllCb_list b (reported respond w (groupReq start)).2 list primaries ok
    decoded long
  rw [if_neg top] at resumed
  exact ⟨_, _, resumed, _, rfl⟩

end AnyServer

end LibMip.Gatt
