import LibMip.Gatt.Listing

/-!
# Discovering characteristics

`gatt_discover_char` asks for the declarations of characteristics in a range of handles, from behind
the last one it was told as long as a declaration and its value have room up to the end. It reports
those with the UUID it was given, or all of them without one. A declaration at the end of the range
itself is missed when the one before it was the last of a response.

An error counts only when nothing was found: the error of a server that fails in the middle is not
reported.
-/

namespace LibMip.Gatt

open Att Channel Exchange Octets

/-! ## The procedure -/

/-- `struct gatt_char`. -/
structure GattChar where
  uuid : List UInt8
  handle : UInt16
  properties : UInt8
  valueHandle : UInt16
  deriving DecidableEq

def gattCharacUuid : UInt16 := 0x2803

/-- The UUID of a declaration: all that is not one of 16 bits is read as one of 128. -/
def declaredUuid : List UInt8 → Option Uuid
  | [lo, hi] => some (.uuid16 (getU16 lo hi))
  | bs => if long : 16 ≤ bs.length then some (.uuid128 ⟨bs.take 16, by simp [long]⟩) else none

/-- A declaration: its UUID and the characteristic. -/
def charOfData : List UInt8 → Except ListFault (Uuid × GattChar)
  | h :: h' :: properties :: v :: v' :: bs =>
    match declaredUuid bs with
    | some uuid =>
      .ok (uuid, ⟨btUuidToString (.uuid128 uuid.to128), getU16 h h', properties, getU16 v v'⟩)
    | none => .error .outOfBounds
  | _ => .error .outOfBounds

/-- The UUID is the one looked for, if any. -/
def wanted (uuid : Option Uuid) (u : Uuid) : Bool := uuid.all fun uuid => btUuidCmp uuid u

/-- The loop of `char_discovered_cb`: the characteristics and the handle of the last one. -/
def charLoop (uuid : Option Uuid) : List (List UInt8) → List GattChar → UInt16 →
    Except ListFault (List GattChar × UInt16)
  | [], characteristics, last => .ok (characteristics, last)
  | data :: rest, characteristics, _ =>
    match charOfData data with
    | .ok (u, c) =>
      let found := if wanted uuid u then characteristics ++ [c] else characteristics
      charLoop uuid rest found c.handle
    | .error fault => .error fault

/-- `done` in `char_discovered_cb`: an error counts when there is no characteristic. -/
def charDone (characteristics : List GattChar) (err : UInt8) :
    Turn (List GattChar) (List UInt8) (Report GattChar) :=
  .stop (.ok (characteristics, if characteristics = [] then err else 0))

variable (b : Buflen)

/-- The request of the declarations in a range. -/
def encodeDiscoverChar (start finish : UInt16) : Option (List UInt8) :=
  encReadByTypeReq start finish (.uuid16 gattCharacUuid) b.len

/-- `char_discovered_cb`. -/
def charDiscoveredCb (finish : UInt16) (uuid : Option Uuid) (characteristics : List GattChar)
    (answer : Answer) : Turn (List GattChar) (List UInt8) (Report GattChar) :=
  if answer.1 ≠ 0 then charDone characteristics answer.1
  else
    match decReadByTypeResp answer.2 with
    | .error fault => .stop (.error fault)
    | .ok none => charDone characteristics attEcodeIo
    | .ok (some list) =>
      match charLoop uuid list.data characteristics 0 with
      | .error fault => .stop (.error fault)
      | .ok (characteristics, last) =>
        if last ≠ 0 ∧ last.toNat + 1 < finish.toNat then
          .ask characteristics ((encodeDiscoverChar b (last + 1) finish).getD [])
        else charDone characteristics attEcodeAttrNotFound

def discoverChar {ρ : Type*} (finish : UInt16) (uuid : Option Uuid)
    (answer : ρ → List UInt8 → ρ × Answer) :
    Dialogue (List GattChar) ρ (List UInt8) Answer (Report GattChar) where
  resume := charDiscoveredCb b finish uuid
  answer

/-- `gatt_discover_char`. -/
def gattDiscoverChar (start finish : UInt16) :
    Turn (List GattChar) (List UInt8) (Report GattChar) :=
  .ask [] ((encodeDiscoverChar b start finish).getD [])

/-! ## The characteristics of a server -/

structure Characteristic where
  handle : UInt16
  properties : UInt8
  valueHandle : UInt16
  uuid : Uuid
  known : ∀ u32, uuid ≠ .uuid32 u32

/-- The declaration in a list. -/
def Characteristic.entry (c : Characteristic) : List UInt8 :=
  putU16 c.handle ++ (c.properties :: (putU16 c.valueHandle ++ attPutUuid c.uuid))

/-- The characteristic as it is reported. -/
def Characteristic.reported (c : Characteristic) : GattChar :=
  ⟨btUuidToString (.uuid128 c.uuid.to128), c.handle, c.properties, c.valueHandle⟩

/-- The characteristics declared in a range of handles, in order. -/
structure Characteristics (start finish : UInt16) where
  list : List Characteristic
  first : ∀ c ∈ list, start.toNat ≤ c.handle.toNat
  positive : ∀ c ∈ list, c.handle ≠ 0
  within : ∀ c ∈ list, c.handle.toNat ≤ finish.toNat
  ordered : list.Pairwise fun c c' => c.handle.toNat < c'.handle.toNat

def Characteristics.table {start finish : UInt16} (C : Characteristics start finish) :
    Table Characteristic where
  entries := C.list
  key c := c.handle.toNat
  next c := c.handle.toNat + 1
  advances _ _ := Nat.lt_succ_self _
  ordered := C.ordered

/-- The request for the declarations from a handle on. -/
def typeReq (finish start : UInt16) : List UInt8 :=
  attOpReadByTypeReq :: (putU16 start ++ putU16 finish ++ putU16 gattCharacUuid)

/-- The response with some declarations. -/
def TypeResp : List Characteristic → List UInt8 → Prop :=
  EntriesResp attOpReadByTypeResp Characteristic.entry

/-- The characteristics that are looked for, as they are reported. -/
def sought (uuid : Option Uuid) (cs : List Characteristic) : List GattChar :=
  (cs.filter fun c => wanted uuid c.uuid).map Characteristic.reported

universe u

variable {b} {start finish : UInt16} {uuid : Option Uuid}

theorem typeReq_eq (b : Buflen) (start finish : UInt16) :
    (encodeDiscoverChar b start finish).getD [] = typeReq finish start :=
  encReadByReq_uuid16 b _ _ _ _

theorem declaredUuid_attPutUuid {u : Uuid} (h : ∀ u32, u ≠ .uuid32 u32) :
    declaredUuid (attPutUuid u) = some u := by
  cases u with
  | uuid16 u16 =>
    obtain ⟨lo, hi, written, read⟩ := putU16_eq u16
    rw [attPutUuid, written, declaredUuid, ← read]
  | uuid32 u32 => exact (h u32 rfl).elim
  | uuid128 u128 =>
    obtain ⟨data, sized⟩ := u128
    rw [attPutUuid, declaredUuid]
    · simp [sized]
    · rintro lo hi rfl
      cases sized

theorem charOfData_entry (c : Characteristic) :
    charOfData c.entry = .ok (c.uuid, c.reported) := by
  obtain ⟨h, h', handle, readHandle⟩ := putU16_eq c.handle
  obtain ⟨v, v', value, readValue⟩ := putU16_eq c.valueHandle
  rw [Characteristic.entry, handle, value]
  simp only [List.cons_append, List.nil_append, charOfData, readHandle, readValue,
    declaredUuid_attPutUuid c.known]
  rfl

theorem charEntry_length (c : Characteristic) : 5 < c.entry.length ∧ c.entry.length < 256 := by
  obtain ⟨handle, properties, valueHandle, u, known⟩ := c
  simp only [Characteristic.entry, List.length_append, List.length_cons, putU16_length]
  cases u with
  | uuid16 u16 => simp [attPutUuid]
  | uuid32 u32 => exact (known u32 rfl).elim
  | uuid128 u128 => simp [attPutUuid, u128.sized]

/-- The loop takes over what is looked for of a page. -/
theorem charLoop_page (page : List Characteristic) (c : Characteristic)
    (characteristics : List GattChar) (last : UInt16) :
    charLoop uuid ((page ++ [c]).map Characteristic.entry) characteristics last =
      .ok (characteristics ++ sought uuid (page ++ [c]), c.handle) := by
  induction page generalizing characteristics last with
  | nil =>
    simp only [List.nil_append, List.map_cons, List.map_nil, charLoop, charOfData_entry, sought]
    cases found : wanted uuid c.uuid <;> simp [found, Characteristic.reported]
  | cons d page ih =>
    rw [List.cons_append, List.map_cons, charLoop, charOfData_entry]
    simp only [ih, sought]
    cases found : wanted uuid d.uuid <;> simp [found]

/-- A page takes the procedure on to the declarations behind it. -/
theorem charDiscoveredCb_typeResp {page : List Characteristic} {c : Characteristic}
    {response : List UInt8} (h : TypeResp (page ++ [c]) response) (positive : c.handle ≠ 0)
    (characteristics : List GattChar) :
    charDiscoveredCb b finish uuid characteristics (0, response) =
      if c.handle.toNat + 1 < finish.toNat then
        .ask (characteristics ++ sought uuid (page ++ [c])) (typeReq finish (c.handle + 1))
      else charDone (characteristics ++ sought uuid (page ++ [c])) attEcodeAttrNotFound := by
  obtain ⟨list, decoded, data⟩ := decReadByResp_entriesResp
    (show attOpReadByTypeResp ≠ 0 by decide) (fun c => by have := charEntry_length c; omega) h
    (by simp)
  have read : decReadByTypeResp response = .ok (some list) := decoded
  simp only [charDiscoveredCb, ne_eq, not_true_eq_false, if_false, read, data, charLoop_page,
    positive, not_false_eq_true, true_and, typeReq_eq]

theorem sought_append (cs cs' : List Characteristic) :
    sought uuid (cs ++ cs') = sought uuid cs ++ sought uuid cs' := by simp [sought]

/-- The last two handles of the range are declarations, of which the second is looked for. -/
def Characteristics.Crowded (C : Characteristics start finish) (uuid : Option Uuid) : Prop :=
  ∃ c ∈ C.list, ∃ c' ∈ C.list, c.handle.toNat + 1 = finish.toNat ∧ c'.handle = finish ∧
    wanted uuid c'.uuid = true

/-- Behind a declaration after which the procedure does not ask again, nothing is looked for. -/
theorem sought_rest {C : Characteristics start finish} (free : ¬ C.Crowded uuid)
    {last : Characteristic} (mem : last ∈ C.list) (past : finish.toNat ≤ last.handle.toNat + 1) :
    sought uuid (C.table.rest (last.handle.toNat + 1)) = [] := by
  rw [sought, List.map_eq_nil_iff, List.filter_eq_nil_iff]
  intro c hc looked
  have mem' : c ∈ C.list := Table.mem_of_mem_rest hc
  have behind : last.handle.toNat + 1 ≤ c.handle.toNat :=
    of_decide_eq_true (List.mem_filter.mp hc).2
  have within := C.within c mem'
  refine free ⟨last, mem, c, mem', by omega, ?_, looked⟩
  rw [← UInt16.toNat_inj]
  omega

theorem finds_of_not_crowded {ρ : Type*} {respond : ρ → List UInt8 → ρ × List UInt8}
    {C : Characteristics start finish} (lists : Lists respond C.table (typeReq finish) TypeResp)
    (free : ¬ C.Crowded uuid) (w : ρ) :
    ∃ w', (discoverChar b finish uuid (reported respond)).Ends w (gattDiscoverChar b start finish)
      w' (.ok (sought uuid C.list,
        if sought uuid C.list = [] then attEcodeAttrNotFound else 0)) := by
  have finds := lists.finds (D := discoverChar b finish uuid (reported respond)) rfl
    (sought uuid) (fun found => .ok (sought uuid found,
      if sought uuid found = [] then attEcodeAttrNotFound else 0)) (Nat.le_of_lt finish.toNat_lt)
    (fun found last mem past => ?_) ?_ ?_ w start
  · have all : C.table.rest start.toNat = C.list := Table.rest_eq_entries C.first
    rw [all] at finds
    rw [gattDiscoverChar, typeReq_eq]
    exact finds
  · have nothing : sought uuid (C.table.rest (C.table.next last)) = [] :=
      sought_rest free mem past
    rw [sought_append, nothing, List.append_nil]
  · intro found response
    have code : attEcodeAttrNotFound ≠ 0 := by decide
    simp only [discoverChar, charDiscoveredCb, ne_eq, code, not_false_eq_true, if_true, charDone]
  · intro found page c start' response mem h
    refine ⟨entriesResp_length h, ?_, ?_⟩
    · obtain ⟨width, -, -, rfl⟩ := h
      exact status_expected
    · show charDiscoveredCb b finish uuid (sought uuid found) (0, response) =
        if c.handle.toNat + 1 < finish.toNat then _ else _
      rw [charDiscoveredCb_typeResp h (C.positive c mem), charDone, ← sought_append]
      rfl

/-- The server that lists one declaration at a time. -/
def listOne {ρ : Type*} (C : Characteristics start finish) : ρ → List UInt8 → ρ × List UInt8 :=
  serveFirst C.table (entryResp attOpReadByTypeResp Characteristic.entry)

theorem typeResp_single (c : Characteristic) :
    TypeResp [c] (entryResp attOpReadByTypeResp Characteristic.entry c) :=
  entriesResp_single (by have := charEntry_length c; omega)

theorem listOne_lists {ρ : Type*} (C : Characteristics start finish) :
    Lists (listOne C : ρ → _) C.table (typeReq finish) TypeResp :=
  serveFirst_lists (fun _ => rfl) typeResp_single

theorem listOne_answer {ρ : Type*} {C : Characteristics start finish} {e : Characteristic}
    {more : List Characteristic} {start' : UInt16} (w : ρ)
    (split : C.table.rest start'.toNat = e :: more) :
    (reported (listOne C) w (typeReq finish start')).2 =
      (0, entryResp attOpReadByTypeResp Characteristic.entry e) := by
  have asked : typeReq finish start' =
      attOpReadByTypeReq :: (putU16 start' ++ (putU16 finish ++ putU16 gattCharacUuid)) := rfl
  have served : (listOne C w (typeReq finish start')).2 =
      entryResp attOpReadByTypeResp Characteristic.entry e := by
    rw [asked]
    exact serveFirst_some w split
  rw [reported_eq served (entriesResp_length (typeResp_single e))]
  exact congrArg (·, _) status_expected

/-- With a declaration just before the end, the first of those left from before the end is itself
before the end. -/
theorem first_left {C : Characteristics start finish} {c : Characteristic} (mem : c ∈ C.list)
    (next : c.handle.toNat + 1 = finish.toNat) {start' : UInt16}
    (below : start'.toNat < finish.toNat) :
    ∃ e more, C.table.rest start'.toNat = e :: more ∧ e ∈ C.list ∧
      e.handle.toNat < finish.toNat := by
  have left : c ∈ C.table.rest start'.toNat :=
    List.mem_filter.mpr ⟨mem, decide_eq_true (show start'.toNat ≤ c.handle.toNat by omega)⟩
  obtain ⟨e, more, split⟩ := List.exists_cons_of_ne_nil (List.ne_nil_of_mem left)
  have ordered : (e :: more).Pairwise fun e e' => e.handle.toNat < e'.handle.toNat :=
    split ▸ C.ordered.filter _
  refine ⟨e, more, split, Table.mem_of_mem_rest (by rw [split]; exact List.mem_cons_self), ?_⟩
  rw [split] at left
  rcases List.mem_cons.mp left with rfl | later
  · omega
  · have := List.rel_of_pairwise_cons ordered later
    omega

/-- Nothing at the end of the range is found, and what is asked for begins before the end. -/
def BeforeEnd (finish : UInt16) : Turn (List GattChar) (List UInt8) (Report GattChar) → Prop
  | .ask found request => (∀ g ∈ found, g.handle ≠ finish) ∧
      ∃ start, request = typeReq finish start ∧ start.toNat < finish.toNat
  | .stop report => ∀ found err, report = .ok (found, err) → ∀ g ∈ found, g.handle ≠ finish

/-- From that server, a declaration just before the end is the last that is asked for. -/
theorem beforeEnd_follow {ρ : Type*} {C : Characteristics start finish} {c : Characteristic}
    (mem : c ∈ C.list) (next : c.handle.toNat + 1 = finish.toNat) (w : ρ) (found : List GattChar)
    (request : List UInt8) (before : BeforeEnd finish (.ask found request)) :
    BeforeEnd finish
      ((discoverChar b finish uuid (reported (listOne C))).follow w found request).2 := by
  obtain ⟨none, start', rfl, below⟩ := before
  obtain ⟨e, more, split, memE, inside⟩ := first_left mem next below
  have resumed :=
    @charDiscoveredCb_typeResp b finish uuid [] e _ (typeResp_single e) (C.positive e memE) found
  have grown : ∀ g ∈ found ++ sought uuid ([] ++ [e]), g.handle ≠ finish := by
    intro g hg
    rcases List.mem_append.mp hg with old | new
    · exact none g old
    · obtain ⟨d, hd, rfl⟩ := List.mem_map.mp new
      obtain rfl : d = e := by simpa using (List.mem_filter.mp hd).1
      rintro (same : d.handle = finish)
      rw [same] at inside
      omega
  show BeforeEnd finish (charDiscoveredCb b finish uuid found
    (reported (listOne C) w (typeReq finish start')).2)
  rw [listOne_answer w split, resumed]
  split_ifs with again
  · have one : (1 : UInt16).toNat = 1 := rfl
    have most := finish.toNat_lt
    refine ⟨grown, e.handle + 1, rfl, ?_⟩
    rw [UInt16.toNat_add, one, Nat.mod_eq_of_lt (by omega)]
    exact again
  · rintro found' err same
    obtain ⟨rfl, -⟩ := Prod.mk.inj (Except.ok.inj same)
    exact grown

/-- Nothing is reported at the end of the range then. -/
theorem listOne_misses {ρ : Type*} {C : Characteristics start finish} {c : Characteristic}
    (mem : c ∈ C.list) (next : c.handle.toNat + 1 = finish.toNat) {w w' : ρ}
    {found : List GattChar} {err : UInt8}
    (ends : (discoverChar b finish uuid (reported (listOne C))).Ends w
      (gattDiscoverChar b start finish) w' (.ok (found, err))) :
    ∀ g ∈ found, g.handle ≠ finish := by
  have first := C.first c mem
  have begins : BeforeEnd finish (gattDiscoverChar b start finish) :=
    ⟨by simp, start, typeReq_eq b start finish, by omega⟩
  exact ends.invariant (I := fun _ t => BeforeEnd finish t)
    (fun w found request before => beforeEnd_follow mem next w found request before)
    begins found err rfl

/-- Every server that lists the characteristics of a range, however few at a time, has those that
are looked for reported, in order and each once, or an error when there are none, if and only if the
last two handles of the range are not both declarations, with the second looked for: the procedure
does not ask again when the first of the two comes last in a response. -/
theorem gattDiscoverChar_finds_iff (C : Characteristics start finish) (uuid : Option Uuid) :
    (∀ (ρ : Type u) (respond : ρ → List UInt8 → ρ × List UInt8),
      Lists respond C.table (typeReq finish) TypeResp → ∀ w, ∃ w',
        (discoverChar b finish uuid (reported respond)).Ends w (gattDiscoverChar b start finish) w'
          (.ok (sought uuid C.list,
            if sought uuid C.list = [] then attEcodeAttrNotFound else 0))) ↔
      ¬ C.Crowded uuid := by
  constructor
  · rintro finds ⟨c, mem, c', mem', next, last, looked⟩
    obtain ⟨w', ends⟩ := finds PUnit (listOne C) (listOne_lists C) ⟨⟩
    have there : c'.reported ∈ sought uuid C.list :=
      List.mem_map_of_mem (List.mem_filter.mpr ⟨mem', looked⟩)
    exact listOne_misses mem next ends _ there last
  · intro free ρ respond lists w
    exact finds_of_not_crowded lists free w

/-- Three characteristics, two of which have a UUID looked for. -/
def threeChars : Characteristics 1 20 where
  list := [⟨2, 0x12, 3, .uuid16 0x2a00, by simp⟩, ⟨5, 0x02, 6, .uuid16 0x2a01, by simp⟩,
    ⟨19, 0x12, 20, .uuid16 0x2a00, by simp⟩]
  first := by decide
  positive := by decide
  within := by decide
  ordered := by decide

/-- Two characteristics at the end of the range. -/
def lastChars : Characteristics 1 20 where
  list := [⟨19, 0x02, 2, .uuid16 0x2a01, by simp⟩, ⟨20, 0x12, 3, .uuid16 0x2a00, by simp⟩]
  first := by decide
  positive := by decide
  within := by decide
  ordered := by decide

/-- The three are found, and of the last two the second is not. -/
theorem gattDiscoverChar_finds_iff_last :
    (∃ w', (discoverChar ⟨23, le_rfl⟩ 20 none (reported (listOne threeChars))).Ends ()
      (gattDiscoverChar ⟨23, le_rfl⟩ 1 20) w' (.ok (sought none threeChars.list, 0))) ∧
    ¬ ∀ (ρ : Type) (respond : ρ → List UInt8 → ρ × List UInt8),
      Lists respond lastChars.table (typeReq 20) TypeResp → ∀ w, ∃ w',
        (discoverChar ⟨23, le_rfl⟩ 20 none (reported respond)).Ends w
          (gattDiscoverChar ⟨23, le_rfl⟩ 1 20) w' (.ok (sought none lastChars.list,
            if sought none lastChars.list = [] then attEcodeAttrNotFound else 0)) := by
  constructor
  · exact (gattDiscoverChar_finds_iff threeChars none).mpr (by
      rintro ⟨c, mem, c', mem', -, last, -⟩
      revert last
      revert c'
      decide) Unit _ (listOne_lists threeChars) ()
  · intro finds
    exact (gattDiscoverChar_finds_iff lastChars none).mp finds
      ⟨_, List.mem_cons_self, _, List.mem_cons_of_mem _ List.mem_cons_self, rfl, rfl, rfl⟩

/-! ## Any server -/

/-- The characteristic looked for that an entry declares. -/
def charOf (uuid : Option Uuid) (data : List UInt8) : List GattChar :=
  match charOfData data with
  | .ok (u, c) => if wanted uuid u then [c] else []
  | .error _ => []

/-- The characteristics looked for in an answer. -/
def charsOf (uuid : Option Uuid) (answer : Answer) : List GattChar :=
  if answer.1 ≠ 0 then []
  else
    match decReadByTypeResp answer.2 with
    | .ok (some list) => list.data.flatMap (charOf uuid)
    | _ => []

theorem charLoop_eq_ok {entries : List (List UInt8)} {characteristics found : List GattChar}
    {last last' : UInt16} (h : charLoop uuid entries characteristics last = .ok (found, last')) :
    found = characteristics ++ entries.flatMap (charOf uuid) := by
  induction entries generalizing characteristics last with
  | nil =>
    obtain ⟨rfl, -⟩ := Prod.mk.inj (Except.ok.inj h)
    rw [List.flatMap_nil, List.append_nil]
  | cons data entries ih =>
    rw [charLoop] at h
    cases read : charOfData data with
    | error fault =>
      rw [read] at h
      cases h
    | ok declared =>
      obtain ⟨u, c⟩ := declared
      rw [read] at h
      rw [ih h, List.flatMap_cons, charOf, read]
      by_cases looked : wanted uuid u = true <;> simp [looked]

/-- What `char_discovered_cb` does with any answer: an error is not zero. -/
theorem charDiscoveredCb_eq (characteristics : List GattChar) (answer : Answer) :
    (∃ request, charDiscoveredCb b finish uuid characteristics answer =
        .ask (characteristics ++ charsOf uuid answer) request) ∨
      (∃ err ≠ 0, charDiscoveredCb b finish uuid characteristics answer =
        charDone (characteristics ++ charsOf uuid answer) err) ∨
      ∃ fault, charDiscoveredCb b finish uuid characteristics answer = .stop (.error fault) := by
  by_cases failed : answer.1 ≠ 0
  · refine .inr (.inl ⟨answer.1, failed, ?_⟩)
    rw [charDiscoveredCb, charsOf, if_pos failed, if_pos failed, List.append_nil]
  · rw [charDiscoveredCb, charsOf, if_neg failed, if_neg failed]
    match decReadByTypeResp answer.2 with
    | .error fault => exact .inr (.inr ⟨fault, rfl⟩)
    | .ok none =>
      refine .inr (.inl ⟨attEcodeIo, by decide, ?_⟩)
      simp only [List.append_nil]
    | .ok (some list) =>
      simp only
      match read : charLoop uuid list.data characteristics 0 with
      | .error fault => exact .inr (.inr ⟨fault, rfl⟩)
      | .ok (found, last) =>
        rw [← charLoop_eq_ok read]
        by_cases again : last ≠ 0 ∧ last.toNat + 1 < finish.toNat
        · exact .inl ⟨_, if_pos again⟩
        · exact .inr (.inl ⟨attEcodeAttrNotFound, by decide, if_neg again⟩)

/-- Whatever the server answers, the characteristics reported are those looked for in its answers,
in order, and an error is reported just when there are none. -/
theorem gattDiscoverChar_reports {ρ : Type*} (respond : ρ → List UInt8 → ρ × List UInt8)
    {w w' : ρ} {log : List Answer} {characteristics : List GattChar} {err : UInt8}
    (ends : (discoverChar b finish uuid (reported respond)).logged.Ends (w, [])
      (gattDiscoverChar b start finish) (w', log) (.ok (characteristics, err))) :
    characteristics = log.flatMap (charsOf uuid) ∧ (err = 0 ↔ characteristics ≠ []) := by
  have each (characteristics : List GattChar) (answer : Answer) :
      (∃ request, charDiscoveredCb b finish uuid characteristics answer =
        .ask (characteristics ++ charsOf uuid answer) request) ∨
      ∃ report, charDiscoveredCb b finish uuid characteristics answer = .stop report ∧
        ∀ found err, report = .ok (found, err) → found = characteristics ++ charsOf uuid answer ∧
          (err = 0 ↔ found ≠ []) := by
    obtain ⟨request, resumed⟩ | ⟨code, error, resumed⟩ | ⟨fault, resumed⟩ :=
      @charDiscoveredCb_eq b finish uuid characteristics answer
    · exact .inl ⟨request, resumed⟩
    · refine .inr ⟨_, resumed, ?_⟩
      rintro found err same
      obtain ⟨rfl, rfl⟩ := Prod.mk.inj (Except.ok.inj same)
      refine ⟨rfl, ?_⟩
      split_ifs with none
      · exact iff_of_false error (not_not.mpr none)
      · exact iff_of_true rfl none
    · exact .inr ⟨_, resumed, fun _ _ same => by cases same⟩
  obtain ⟨last, -, done⟩ := Dialogue.collected (charsOf uuid)
    (fun found _ report => ∀ characteristics err, report = .ok (characteristics, err) →
      characteristics = found ∧ (err = 0 ↔ characteristics ≠ [])) each ends
  exact done characteristics err rfl

/-- A characteristic and then an error. -/
def oneChar (n : Nat) (_ : List UInt8) : Nat × List UInt8 :=
  (n + 1, if n = 0 then [attOpReadByTypeResp, 7, 2, 0, 0x12, 3, 0, 0x00, 0x2a]
    else [attOpError, attOpReadByTypeReq, 0x03, 0x00, attEcodeInvalidHandle])

set_option maxRecDepth 4000 in
/-- The error does not come through. -/
theorem gattDiscoverChar_reports_one :
    ∃ w' log, (discoverChar ⟨23, le_rfl⟩ 20 none (reported oneChar)).logged.Ends (0, [])
        (gattDiscoverChar ⟨23, le_rfl⟩ 1 20) (w', log)
        (.ok ([⟨btUuidToString (.uuid128 (Uuid.uuid16 0x2a00).to128), 2, 0x12, 3⟩], 0)) ∧
      [⟨btUuidToString (.uuid128 (Uuid.uuid16 0x2a00).to128), 2, 0x12, 3⟩] =
        log.flatMap (charsOf none) := by
  have ends : (discoverChar ⟨23, le_rfl⟩ 20 none (reported oneChar)).logged.Ends (0, [])
      (gattDiscoverChar ⟨23, le_rfl⟩ 1 20)
      (2, [(0, [attOpReadByTypeResp, 7, 2, 0, 0x12, 3, 0, 0x00, 0x2a]), (attEcodeInvalidHandle,
        [attOpError, attOpReadByTypeReq, 0x03, 0x00, attEcodeInvalidHandle])])
      (.ok ([⟨btUuidToString (.uuid128 (Uuid.uuid16 0x2a00).to128), 2, 0x12, 3⟩], 0)) := ⟨2, rfl⟩
  exact ⟨2, _, ends, (gattDiscoverChar_reports oneChar ends).1⟩

end LibMip.Gatt
