import LibMip.Gatt.DiscoverChar
import LibMip.Gatt.DiscoverPrimary
import LibMip.Gatt.FindIncluded
import LibMip.Gatt.ReadLong
import LibMip.Gatt.Session
import LibMip.Gatt.WriteLong

/-!
# The procedures as clients

A procedure that asks one request at a time is a client whose callback is given the state it left
with the request. `gatt_find_included`, which has several requests waiting at once, is a client
whose callback is given what the request was for. What was proved of them with their requests
answered in turn therefore holds in every session.
-/

namespace LibMip.Gatt

open Att Channel Exchange Octets Runs

/-! ## One request at a time -/

section Procedure

variable {σ ρ τ κ : Type*}

/-- The request of a turn that asks, with the state it leaves. -/
def turnRequests : Turn σ (List UInt8) τ → List (σ × List UInt8)
  | .ask s request => [(s, request)]
  | .stop _ => []

/-- The result of a turn that stops. -/
def turnResults : Turn σ (List UInt8) τ → List τ
  | .ask _ _ => []
  | .stop outcome => [outcome]

/-- A procedure from its first request on. -/
def procedure (D : Dialogue σ ρ (List UInt8) Answer τ) (s : σ) (request : List UInt8) :
    Client Unit σ τ where
  init := ()
  asks := [(s, request)]
  answered _ s answer :=
    some ((), turnRequests (D.resume s answer), turnResults (D.resume s answer))

/-- The state of the client at a turn of the procedure. -/
def atTurn (t : Turn σ (List UInt8) τ) : (Unit × List (σ × List UInt8)) × List τ :=
  (((), turnRequests t), turnResults t)

variable {D : Dialogue σ ρ (List UInt8) Answer τ} {respond : ρ → List UInt8 → ρ × List UInt8}
  {s : σ} {request : List UInt8} {w : ρ}

theorem procedure_asks {P : List UInt8 → Prop} (first : P request)
    (next : ∀ s answer s' request', D.resume s answer = .ask s' request' → P request') :
    (procedure D s request).Asks P where
  first := by simpa [procedure] using first
  next := by
    intro _ s answer _ sent _ answered r hr
    obtain rfl : turnRequests (D.resume s answer) = sent :=
      congrArg (·.2.1) (Option.some.inj answered)
    cases turn : D.resume s answer with
    | ask s' request' =>
      rw [turn, turnRequests, List.mem_singleton] at hr
      rw [hr]
      exact next s answer s' request' turn
    | stop outcome =>
      rw [turn] at hr
      cases hr

theorem procedure_step (answers : D.answer = reported respond) (v : ρ) (s' : σ)
    (request' : List UInt8) :
    (procedure D s request).inTurn.machine.step (atTurn (.ask s' request'))
        (reported respond v request').2 =
      some (atTurn (D.follow v s' request').2) := by
  rw [Dialogue.follow, answers]
  simp [Transducer.machine, Client.inTurn, procedure, atTurn, turnRequests, turnResults]

/-- A procedure that ends has its requests answered until there are none. -/
theorem procedure_drives (answers : D.answer = reported respond) {v w' : ρ} {outcome : τ}
    {t : Turn σ (List UInt8) τ} (ends : D.Ends v t w' outcome) :
    (procedure D s request).inTurn.Drives awaited (reported respond) v (atTurn t) w'
      (atTurn (.stop outcome)) := by
  obtain ⟨n, h⟩ := ends
  induction n generalizing v t with
  | zero =>
    cases t with
    | stop r =>
      obtain ⟨rfl, rfl⟩ := by simpa using h
      exact Transducer.drives_done rfl
    | ask s' request' => cases h
  | succ n ih =>
    cases t with
    | stop r =>
      obtain ⟨rfl, rfl⟩ := by simpa using h
      exact Transducer.drives_done rfl
    | ask s' request' =>
      refine Transducer.drives_step (q := request') rfl
        (procedure_step answers v s' request') ?_
      have server : (reported respond v request').1 = (D.follow v s' request').1 := by
        rw [Dialogue.follow, answers]
      rw [server]
      exact ih h

/-- With the requests answered in turn, the client is at a turn of the procedure, and ends as that
does. -/
theorem procedure_run (answers : D.answer = reported respond) {h : List Unit} {v : ρ}
    {u : (Unit × List (σ × List UInt8)) × List τ}
    (hr : ((procedure D s request).inTurn.peer awaited (reported respond) w).run h = some (v, u)) :
    ∃ t, u = atTurn t ∧
      ∀ w' outcome, D.Ends v t w' outcome → D.Ends w (.ask s request) w' outcome := by
  refine Machine.run_invariant
    (M := (procedure D s request).inTurn.peer awaited (reported respond) w)
    (I := fun _ x => ∃ t, x.2 = atTurn t ∧
      ∀ w' outcome, D.Ends x.1 t w' outcome → D.Ends w (.ask s request) w' outcome)
    ⟨.ask s request, rfl, fun _ _ ends => ends⟩ ?_ hr
  rintro h ⟨v, u⟩ a ⟨v', u'⟩ - ⟨t, rfl, ends⟩ step
  obtain ⟨q, wants, step⟩ := Option.bind_eq_some_iff.mp step
  obtain ⟨x, next, same⟩ := Option.map_eq_some_iff.mp step
  obtain ⟨rfl, rfl⟩ := Prod.mk.inj same
  cases t with
  | stop r => cases wants
  | ask s' request' =>
    obtain rfl : request' = q := Option.some.inj wants
    obtain rfl := Option.some.inj ((procedure_step answers v s' request').symm.trans next)
    refine ⟨(D.follow v s' request').2, rfl, fun w' outcome rest => ends w' outcome ?_⟩
    rw [Dialogue.ends_ask]
    have server : (reported respond v request').1 = (D.follow v s' request').1 := by
      rw [Dialogue.follow, answers]
    rwa [← server]

end Procedure

/-! ## The requests of each procedure -/

section Requests

variable {ρ : Type*} (b : Buflen) (answer : ρ → List UInt8 → ρ × Answer)

/-- The request has one of some opcodes. -/
def HasOpcode (opcodes : List UInt8) (request : List UInt8) : Prop := request.headD 0 ∈ opcodes

theorem hasOpcode_cons {opcodes request : List UInt8} {opcode : UInt8} (h : opcode ∈ opcodes) :
    HasOpcode opcodes (opcode :: request) := h

theorem gattReadChar_asks (handle : UInt16) :
    (procedure (readLong b answer) (.char handle) ((encReadReq handle b.len).getD [])).Asks
      (HasOpcode [attOpReadReq, attOpReadBlobReq]) := by
  have blob {handle : UInt16} {buffer : List UInt8} {size : UInt16} {s' : ReadLong}
      {request' : List UInt8} (asked : askBlob b handle buffer size = .ask s' request') :
      HasOpcode [attOpReadReq, attOpReadBlobReq] request' := by
    obtain ⟨-, rfl⟩ := Turn.ask.inj asked
    rw [blobReq_eq]
    exact hasOpcode_cons (by decide)
  refine procedure_asks (by rw [readReq_eq]; exact hasOpcode_cons (by decide)) ?_
  intro s answer s' request' asked
  cases s with
  | char handle =>
    simp only [readLong, readCharHelper] at asked
    split_ifs at asked
    exact blob asked
  | blob handle buffer size =>
    simp only [readLong, readBlobHelper] at asked
    split_ifs at asked
    exact blob asked

theorem prepareWrite_asks {handle offset : UInt16} {value request' : List UInt8} {s' : WriteLong}
    (asked : prepareWrite b handle offset value = .ask s' request') :
    HasOpcode [attOpWriteReq, attOpPrepWriteReq, attOpExecWriteReq] request' := by
  unfold prepareWrite at asked
  split_ifs at asked
  obtain ⟨-, rfl⟩ := Turn.ask.inj asked
  rw [prepReq_eq]
  exact hasOpcode_cons (by decide)

theorem gattWriteChar_asks {handle : UInt16} {value request : List UInt8} {s : WriteLong}
    (first : gattWriteChar b handle value = .ask s request) :
    (procedure (writeLong b answer) s request).Asks
      (HasOpcode [attOpWriteReq, attOpPrepWriteReq, attOpExecWriteReq]) := by
  refine procedure_asks ?_ ?_
  · unfold gattWriteChar at first
    split_ifs at first with fits
    · obtain ⟨-, rfl⟩ := Turn.ask.inj first
      rw [writeReq_eq b handle fits]
      exact hasOpcode_cons (by decide)
    · exact prepareWrite_asks b first
  · intro s answer s' request' asked
    cases s with
    | final => cases asked
    | prepare handle offset value =>
      simp only [writeLong, prepareWriteCb] at asked
      split_ifs at asked
      · obtain ⟨-, rfl⟩ := Turn.ask.inj asked
        rw [execReq_eq b (by decide)]
        exact hasOpcode_cons (by decide)
      · exact prepareWrite_asks b asked

theorem gattDiscoverPrimary_asks :
    (procedure (discoverPrimary b answer) []
      ((encodeDiscoverPrimary b 0x0001 0xffff none).getD [])).Asks
      (HasOpcode [attOpReadByGroupReq]) := by
  refine procedure_asks (by rw [groupReq_eq]; exact hasOpcode_cons (by decide)) ?_
  intro primaries answer s' request' asked
  simp only [discoverPrimary, primaryAllCb] at asked
  split_ifs at asked
  split at asked
  · cases asked
  · cases asked
  · split at asked
    · cases asked
    · split_ifs at asked
      obtain ⟨-, rfl⟩ := Turn.ask.inj asked
      rw [groupReq_eq]
      exact hasOpcode_cons (by decide)

theorem gattDiscoverPrimaryByUuid_asks (uuid : Uuid) :
    (procedure (discoverPrimaryByUuid b uuid answer) []
      ((encodeDiscoverPrimary b 0x0001 0xffff (some uuid)).getD [])).Asks
      (HasOpcode [attOpFindByTypeReq]) := by
  refine procedure_asks (by rw [findReq_eq]; exact hasOpcode_cons (by decide)) ?_
  intro primaries answer s' request' asked
  simp only [discoverPrimaryByUuid, primaryByUuidCb, findReq_eq] at asked
  split_ifs at asked
  split at asked
  · cases asked
  · split at asked
    · cases asked
    · split_ifs at asked
      obtain ⟨-, rfl⟩ := Turn.ask.inj asked
      exact hasOpcode_cons (by decide)

theorem gattDiscoverChar_asks (start finish : UInt16) (uuid : Option Uuid) :
    (procedure (discoverChar b finish uuid answer) []
      ((encodeDiscoverChar b start finish).getD [])).Asks (HasOpcode [attOpReadByTypeReq]) := by
  refine procedure_asks (by rw [typeReq_eq]; exact hasOpcode_cons (by decide)) ?_
  intro characteristics answer s' request' asked
  simp only [discoverChar, charDiscoveredCb] at asked
  split_ifs at asked
  · cases asked
  · split at asked
    · cases asked
    · cases asked
    · split at asked
      · cases asked
      · split_ifs at asked
        · obtain ⟨-, rfl⟩ := Turn.ask.inj asked
          rw [typeReq_eq]
          exact hasOpcode_cons (by decide)
        · cases asked

/-- A server that has a response of the expected kind for every request. -/
theorem replies_expected {opcodes : List UInt8} (known : ∀ o ∈ opcodes, opcode2expected o ≠ 0)
    (tail : ρ → List UInt8 → List UInt8) :
    Replies (fun w request => (w, opcode2expected (request.headD 0) :: tail w request))
      (HasOpcode opcodes) where
  expects _ kind := known _ kind
  replies _ request kind := (opcode2expected_table (request.headD 0)).1 (known _ kind)

/-- A server that answers every request with a seven. -/
def serveSeven (w : Unit) (request : List UInt8) : Unit × List UInt8 :=
  (w, opcode2expected (request.headD 0) :: [7])

end Requests

/-! ## Sessions of a procedure -/

section Sessions

variable {σ ρ τ : Type*} {D : Dialogue σ ρ (List UInt8) Answer τ}
  {respond : ρ → List UInt8 → ρ × List UInt8} {s : σ} {request : List UInt8} {w : ρ}
  {P : List UInt8 → Prop} {a : Attrib σ} {h : List SessionAct} {u : Session Unit σ τ ρ}

/-- A session of a procedure is at one of its turns. -/
theorem procedure_session (answers : D.answer = reported respond)
    (asks : (procedure D s request).Asks P) (replies : Replies respond P) (fresh : Fresh a)
    (hr : (Session.machine (procedure D s request) respond a w).run h = some u) :
    ∃ v t, Related respond P u (v, atTurn t) ∧
      ∀ w' outcome, D.Ends v t w' outcome → D.Ends w (.ask s request) w' outcome := by
  obtain ⟨⟨v, x⟩, run, related⟩ := session_refines asks replies fresh hr
  obtain ⟨t, rfl, ends⟩ := procedure_run answers run
  exact ⟨v, t, related, ends⟩

theorem done_iff_reports {v : ρ} {t : Turn σ (List UInt8) τ}
    (related : Related respond P u (v, atTurn t)) : u.Done ↔ u.reports ≠ [] := by
  rw [related.done_iff, ← related.reports]
  cases t <;> simp [atTurn, turnRequests, turnResults, awaited]

/-- In every session of a procedure nothing is reported as long as a request is left, and after that
one result was, the one that the procedure ends with. -/
theorem procedure_reports (answers : D.answer = reported respond)
    (asks : (procedure D s request).Asks P) (replies : Replies respond P) (fresh : Fresh a)
    (hr : (Session.machine (procedure D s request) respond a w).run h = some u) :
    (¬ u.Done ∧ u.reports = []) ∨
      u.Done ∧ ∃ outcome, u.reports = [outcome] ∧ D.Ends w (.ask s request) u.server outcome := by
  obtain ⟨v, t, related, ends⟩ := procedure_session answers asks replies fresh hr
  by_cases done : u.Done
  · refine .inr ⟨done, ?_⟩
    cases t with
    | ask s' request' => exact absurd related.reports.symm ((done_iff_reports related).mp done)
    | stop outcome =>
      refine ⟨outcome, related.reports.symm, ?_⟩
      rw [related.server_eq done]
      exact ends _ _ (Dialogue.ends_stop.mpr ⟨rfl, rfl⟩)
  · exact .inl ⟨done, by simpa [done_iff_reports related] using done⟩

theorem serveSeven_replies : Replies serveSeven (HasOpcode [attOpReadReq, attOpReadBlobReq]) := by
  refine replies_expected ?_ _
  intro o ho
  rcases List.mem_cons.mp ho with rfl | ho
  · decide
  · rw [List.mem_singleton.mp ho]
    decide

/-- `gatt_read_char` over a channel of the default size. -/
theorem procedure_reports_seven :
    ∃ u, (Session.machine (procedure (readLong ⟨23, le_rfl⟩ (reported serveSeven)) (.char 14)
        ((encReadReq 14 23).getD [])) serveSeven (Channel.gAttribNew true 23) ()).run
        [.send 0 false, .canWrite false true, .serve, .receive] = some u ∧
      ((¬ u.Done ∧ u.reports = []) ∨ u.Done ∧ ∃ outcome, u.reports = [outcome] ∧
        (readLong ⟨23, le_rfl⟩ (reported serveSeven)).Ends () (.ask (.char 14)
          ((encReadReq 14 23).getD [])) u.server outcome) := by
  obtain ⟨u, run⟩ : ∃ u, (Session.machine (procedure (readLong ⟨23, le_rfl⟩ (reported serveSeven))
      (.char 14) ((encReadReq 14 23).getD [])) serveSeven (Channel.gAttribNew true 23) ()).run
      [.send 0 false, .canWrite false true, .serve, .receive] = some u := ⟨_, rfl⟩
  exact ⟨u, run, procedure_reports rfl (gattReadChar_asks ⟨23, le_rfl⟩ _ 14)
    serveSeven_replies (fresh_new true 23) run⟩

/-- A procedure that ends can still report its result, without another failed read, exactly when it
has, or the channel reads and the sender is not asleep. -/
theorem procedure_completes_iff {w' : ρ} {outcome : τ} (answers : D.answer = reported respond)
    (asks : (procedure D s request).Asks P) (replies : Replies respond P) (fresh : Fresh a)
    (ends : D.Ends w (.ask s request) w' outcome)
    (hr : (Session.machine (procedure D s request) respond a w).run h = some u) :
    (∃ k v, (∀ act ∈ k, act ≠ .readFails) ∧
        (Session.machine (procedure D s request) respond a w).runFrom u k = some v ∧
        v.reports = [outcome]) ↔
      u.reports = [outcome] ∨ u.attrib.reading = true ∧ ¬ u.Asleep := by
  have drives : (procedure D s request).inTurn.Drives awaited (reported respond) w
      (procedure D s request).inTurn.machine.init w' (atTurn (.stop outcome)) :=
    procedure_drives answers ends
  have iff := session_completes_iff asks replies fresh drives hr
  constructor
  · rintro ⟨k, v, kind, run, reports⟩
    have whole : (Session.machine (procedure D s request) respond a w).run (h ++ k) = some v := by
      rw [Machine.run_append, hr, Option.bind_some, run]
    obtain ⟨_, _, related, -⟩ := procedure_session answers asks replies fresh whole
    have done : v.Done := (done_iff_reports related).mpr (by simp [reports])
    rcases iff.mp ⟨k, v, kind, run, done, reports⟩ with here | goes
    · exact .inl ((session_reports asks replies fresh drives hr).2 here).2.2
    · exact .inr goes
  · rintro (here | goes)
    · exact ⟨[], u, by simp, rfl, here⟩
    · obtain ⟨k, v, kind, run, -, reports⟩ := iff.mpr (.inr goes)
      exact ⟨k, v, kind, run, reports⟩

/-- A write that fails leaves the request of `gatt_read_char` in the queue. -/
theorem procedure_completes_iff_failed :
    ∃ u, (Session.machine (procedure (readLong ⟨23, le_rfl⟩ (reported serveSeven)) (.char 14)
        ((encReadReq 14 23).getD [])) serveSeven (Channel.gAttribNew true 23) ()).run
        [.send 0 false, .canWrite false false] = some u ∧
      ((∃ k v, (∀ act ∈ k, act ≠ .readFails) ∧
          (Session.machine (procedure (readLong ⟨23, le_rfl⟩ (reported serveSeven)) (.char 14)
            ((encReadReq 14 23).getD [])) serveSeven (Channel.gAttribNew true 23) ()).runFrom u k =
            some v ∧ v.reports = [(0, [attOpReadResp, 7])]) ↔
        u.reports = [(0, [attOpReadResp, 7])] ∨ u.attrib.reading = true ∧ ¬ u.Asleep) := by
  obtain ⟨u, run⟩ : ∃ u, (Session.machine (procedure (readLong ⟨23, le_rfl⟩ (reported serveSeven))
      (.char 14) ((encReadReq 14 23).getD [])) serveSeven (Channel.gAttribNew true 23) ()).run
      [.send 0 false, .canWrite false false] = some u := ⟨_, rfl⟩
  have ends : (readLong ⟨23, le_rfl⟩ (reported serveSeven)).Ends () (.ask (.char 14)
      ((encReadReq 14 23).getD [])) () (0, [attOpReadResp, 7]) := ⟨1, rfl⟩
  exact ⟨u, run, procedure_completes_iff rfl (gattReadChar_asks ⟨23, le_rfl⟩ _ 14)
    serveSeven_replies (fresh_new true 23) ends run⟩

end Sessions

/-! ## Several requests at once -/

section Included

variable {ρ κ : Type*} {b : Buflen} {start finish : UInt16}
  {respond : ρ → List UInt8 → ρ × List UInt8} {w : ρ} {a : Attrib IncludedQuery}
  {h : List SessionAct} {s : Session IncludedDiscovery IncludedQuery IncludedReport ρ}

/-- `gatt_find_included`, whose callbacks are given the discovery. A fault of the decoder ends the
session. -/
def includedClient (b : Buflen) (start finish : UInt16) :
    Client IncludedDiscovery IncludedQuery IncludedReport where
  init := (findIncluded b ⟨0, 0, finish, []⟩ start).1
  asks := [(findIncluded b ⟨0, 0, finish, []⟩ start).2]
  answered isd query answer := (includedAnswered b isd query answer).toOption

theorem includedClient_inTurn (b : Buflen) (start finish : UInt16) :
    (includedClient b start finish).inTurn = findIncludedSystem b start finish := by
  unfold Client.inTurn includedClient findIncludedSystem
  congr
  funext s answer
  match s.2 with
  | [] => rfl
  | (query, request) :: queue =>
    dsimp only
    cases includedAnswered b s.1 query answer <;> rfl

/-- A request of `find_included` or of `resolve_included_uuid`. -/
def IncludedKind (b : Buflen) (request : List UInt8) : Prop :=
  (∃ finish start, request = includeReq b finish start) ∨
    ∃ handle, request = (encReadReq handle b.len).getD []

theorem includedLoop_kind (entries : List (List UInt8)) (isd : IncludedDiscovery) (last : UInt16) :
    ∀ r ∈ (includedLoop b entries isd last).2.1, IncludedKind b r.2 := by
  induction entries generalizing isd last with
  | nil =>
    intro r hr
    cases hr
  | cons data entries ih =>
    intro r hr
    simp only [includedLoop] at hr
    split_ifs at hr
    · rcases List.mem_cons.mp hr with rfl | hr
      · exact .inr ⟨_, rfl⟩
      · exact ih _ _ r hr
    · exact ih _ _ r hr

theorem findIncludedCb_kind {isd isd' : IncludedDiscovery} {answer : Answer}
    {sent : List IncludedRequest} (done : findIncludedCb b isd answer = .ok (isd', sent)) :
    ∀ r ∈ sent, IncludedKind b r.2 := by
  have none {e : Except ListFault (IncludedDiscovery × List IncludedRequest)}
      {isd : IncludedDiscovery} (same : e = .ok (isd, [])) (here : e = .ok (isd', sent)) :
      ∀ r ∈ sent, IncludedKind b r.2 := by
    obtain ⟨-, rfl⟩ := Prod.mk.inj (Except.ok.inj (same.symm.trans here))
    simp
  unfold findIncludedCb at done
  split_ifs at done
  · exact none rfl done
  · exact none rfl done
  · split at done
    · cases done
    · exact none rfl done
    next list _ =>
      have loop := @includedLoop_kind b list.data isd isd.endHandle
      simp only at done
      split_ifs at done
      · exact none rfl done
      · obtain ⟨-, rfl⟩ := Prod.mk.inj (Except.ok.inj done)
        intro r hr
        rcases List.mem_append.mp hr with hr | hr
        · exact loop r hr
        · rw [List.mem_singleton.mp hr]
          exact .inl ⟨_, _, rfl⟩
      · obtain ⟨-, rfl⟩ := Prod.mk.inj (Except.ok.inj done)
        exact loop

theorem includedClient_asks (b : Buflen) (start finish : UInt16) :
    (includedClient b start finish).Asks (IncludedKind b) where
  first := by
    intro r hr
    rw [List.mem_singleton.mp hr]
    exact .inl ⟨_, _, rfl⟩
  next := by
    intro isd query answer isd' sent reports answered
    cases query with
    | find =>
      simp only [includedClient, includedAnswered] at answered
      cases done : findIncludedCb b isd answer with
      | error fault =>
        rw [done] at answered
        cases answered
      | ok r =>
        rw [done] at answered
        obtain ⟨-, rest⟩ := Prod.mk.inj (Option.some.inj answered)
        obtain ⟨rfl, -⟩ := Prod.mk.inj rest
        exact findIncludedCb_kind done
    | resolve included =>
      obtain ⟨-, rest⟩ := Prod.mk.inj (Option.some.inj answered)
      obtain ⟨rfl, -⟩ := Prod.mk.inj rest
      simp

theorem serveInclusions_replies (b : Buflen) : Replies serveInclusions (IncludedKind b) where
  expects := by
    rintro request (⟨finish, start, rfl⟩ | ⟨handle, rfl⟩)
    · rw [includeReq_eq, List.headD_cons]
      decide
    · rw [readReq_eq, List.headD_cons]
      decide
  replies := by
    rintro w request (⟨finish, start, rfl⟩ | ⟨handle, rfl⟩)
    · obtain ⟨lo, hi, written, -⟩ := putU16_eq start
      have served : serveInclusions w (includeReq b finish start) = serveFirst twoInclusions.table
          (entryResp attOpReadByTypeResp Inclusion.entry) w (includeReq b finish start) := by
        rw [includeReq_eq]
        rfl
      rw [served, includeReq_eq, written]
      simp only [serveFirst, List.cons_append]
      split <;> rfl
    · rw [readReq_eq]
      rfl

/-- In every session each request that is queued or still to send holds one of the references,
nothing is reported as long as one is left, and when none is there was one report, of what was
found. -/
theorem findIncluded_session (replies : Replies respond (IncludedKind b)) (fresh : Fresh a)
    (hr : (Session.machine (includedClient b start finish) respond a w).run h = some s) :
    s.client.refs = s.attrib.requests.length + s.sending.length ∧
      (s.Done → s.reports = [s.client.report]) ∧ (¬ s.Done → s.reports = []) := by
  obtain ⟨⟨v, ⟨isd, queue⟩, reports⟩, run, related⟩ :=
    session_refines (includedClient_asks b start finish) replies fresh hr
  obtain ⟨answers, alone⟩ := Transducer.run_of_peer run
  rw [includedClient_inTurn] at alone
  obtain ⟨refs, once⟩ := findIncluded_once alone
  have done : s.Done ↔ queue = [] := by
    rw [related.done_iff, awaited, Option.map_eq_none_iff, List.head?_eq_none_iff]
  have queued := related.queue
  have client := related.client
  have reported := related.reports
  dsimp only at queued client reported
  subst client reported
  rw [done, refs, once, queued]
  refine ⟨by simp, fun none => if_pos none, fun left => if_neg left⟩

set_option maxRecDepth 4000 in
/-- The first of two services is found. -/
theorem findIncluded_session_two :
    ∃ s, (Session.machine (includedClient ⟨23, le_rfl⟩ 1 9) serveInclusions
        (Channel.gAttribNew true 23) ()).run
        [.send 0 false, .canWrite false true, .serve, .receive] = some s ∧
      s.client.refs = s.attrib.requests.length + s.sending.length ∧
      (s.Done → s.reports = [s.client.report]) ∧ (¬ s.Done → s.reports = []) := by
  obtain ⟨s, run⟩ : ∃ s, (Session.machine (includedClient ⟨23, le_rfl⟩ 1 9) serveInclusions
      (Channel.gAttribNew true 23) ()).run
      [.send 0 false, .canWrite false true, .serve, .receive] = some s := ⟨_, rfl⟩
  exact ⟨s, run, findIncluded_session (serveInclusions_replies _) (fresh_new true 23) run⟩

/-- In every session with a server that lists the services it includes, nothing is reported but all
of them, and they can still be reported, without another failed read, exactly when they were, or the
channel reads and the sender is not asleep. -/
theorem findIncluded_session_finds {I : Inclusions start finish} (inc : Includes respond b I)
    (replies : Replies respond (IncludedKind b)) (fresh : Fresh a)
    (hr : (Session.machine (includedClient b start finish) respond a w).run h = some s) :
    s.reports <+: [(some (I.list.map Inclusion.reported), 0)] ∧
      ((∃ k v, (∀ act ∈ k, act ≠ .readFails) ∧
          (Session.machine (includedClient b start finish) respond a w).runFrom s k = some v ∧
          v.Done ∧ v.reports = [(some (I.list.map Inclusion.reported), 0)]) ↔
        s.Done ∨ s.attrib.reading = true ∧ ¬ s.Asleep) := by
  obtain ⟨w', isd, drives⟩ := findIncluded_finds inc w
  rw [← includedClient_inTurn] at drives
  have asks := includedClient_asks b start finish
  exact ⟨(session_reports asks replies fresh drives hr).1,
    session_completes_iff asks replies fresh drives hr⟩

set_option maxRecDepth 4000 in
/-- The first of two services is found. -/
theorem findIncluded_session_finds_two :
    ∃ s, (Session.machine (includedClient ⟨23, le_rfl⟩ 1 9) serveInclusions
        (Channel.gAttribNew true 23) ()).run
        [.send 0 false, .canWrite false true, .serve, .receive] = some s ∧
      s.reports <+: [(some (twoInclusions.list.map Inclusion.reported), 0)] ∧
      ((∃ k v, (∀ act ∈ k, act ≠ .readFails) ∧
          (Session.machine (includedClient ⟨23, le_rfl⟩ 1 9) serveInclusions
            (Channel.gAttribNew true 23) ()).runFrom s k = some v ∧
          v.Done ∧ v.reports = [(some (twoInclusions.list.map Inclusion.reported), 0)]) ↔
        s.Done ∨ s.attrib.reading = true ∧ ¬ s.Asleep) := by
  obtain ⟨s, run⟩ : ∃ s, (Session.machine (includedClient ⟨23, le_rfl⟩ 1 9) serveInclusions
      (Channel.gAttribNew true 23) ()).run
      [.send 0 false, .canWrite false true, .serve, .receive] = some s := ⟨_, rfl⟩
  exact ⟨s, run, findIncluded_session_finds (serveInclusions_includes _)
    (serveInclusions_replies _) (fresh_new true 23) run⟩

end Included

end LibMip.Gatt
