import LibMip.Store
import LibMip.Foundation.HexStream

/-!
# Decoding a notification

`Mip::events_handler` takes the characters after the opcode and the handle, reads the first two
as the command and every further two as a value, and passes the result to `store_results`.
`hex2int` does not look at the state of the stream it extracts from, so what it returns for a
pair that is no hexadecimal number is decided by the extraction alone: `pairValue` is the table
of all pairs. Only a pair of two blanks leaves the variable unset, and reading it is undefined.

`eventsHandler_eq` gives the effect of the handler on an arbitrary payload.
-/

namespace LibMip

open CNum HexStream

def attOpHandleNotify : UInt8 := 0x1B
def attOpHandleInd : UInt8 := 0x1D

/-- A PDU as the dispatcher hands it over; its length is a `uint16_t`. -/
structure Pdu where
  bytes : List UInt8
  fits : bytes.length < 65536

/-- `std::string::substr`, which throws for a position past the end. -/
def substr (s : List UInt8) (pos n : Nat) : Except Fault (List UInt8) :=
  if pos ≤ s.length then .ok ((s.drop pos).take n) else .error .outOfRange

/-- `Mip::hex2int`. -/
def hex2int (charPair : List UInt8) : Except Fault UInt32 :=
  match extractHex charPair with
  | some buffer => .ok buffer
  | none => .error .indeterminate

/-- The loop over `pdu[i]`, `n` characters from index `i` on. -/
def readChars (bytes : List UInt8) : Nat → Nat → Except Fault (List UInt8)
  | _, 0 => .ok []
  | i, n + 1 =>
    match bytes[i]? with
    | some b => do
      let rest ← readChars bytes (i + 1) n
      .ok (b :: rest)
    | none => .error .outOfRange

/-- The loop over the pairs, `n` values from pair `i` on; offsets are `unsigned int`. -/
def readValues (hexAns : List UInt8) : Nat → Nat → Except Fault (List Int)
  | _, 0 => .ok []
  | i, n + 1 => do
    let charPair ← substr hexAns ((2 + i * 2) % 4294967296) 2
    let value ← hex2int charPair
    let rest ← readValues hexAns (i + 1) n
    .ok (intOfUnsigned value :: rest)

/-- `(hex_ans.size() - 2) / 2`: a 64-bit subtraction, then a conversion to `unsigned int`. -/
def npairs (size : Nat) : Nat :=
  (size + 18446744073709551616 - 2) % 18446744073709551616 / 2 % 4294967296

/-- The command and the values of an answer. -/
def decodeAnswer (hexAns : List UInt8) : Except Fault Notification := do
  let charPair ← substr hexAns 0 2
  let cmd ← hex2int charPair
  let values ← readValues hexAns 0 (npairs hexAns.length)
  .ok ⟨intOfUnsigned cmd, values⟩

/-- `att_get_u16`, which reads two bytes. -/
def attGetU16 (bytes : List UInt8) (i : Nat) : Except Fault Nat :=
  match bytes[i]?, bytes[i + 1]? with
  | some lo, some hi => .ok (lo.toNat + 256 * hi.toNat)
  | _, _ => .error .outOfRange

/-- The calls of `store_results` that `events_handler` makes. The handle is read first and only
printed. -/
def decode (pdu : Pdu) : Except Fault (List Notification) := do
  let _handle ← attGetU16 pdu.bytes 1
  match pdu.bytes[0]? with
  | none => .error .outOfRange
  | some opcode =>
    if opcode = attOpHandleNotify ∨ opcode = attOpHandleInd then do
      let hexAns ← readChars pdu.bytes 3 (pdu.bytes.length - 3)
      let call ← decodeAnswer hexAns
      .ok [call]
    else .ok []

/-- `Mip::events_handler`, with the invocations of `notification_post_hook`. -/
def Mip.eventsHandler (m : Mip) (pdu : Pdu) : Except Fault (Mip × List Notification) := do
  let calls ← decode pdu
  .ok (calls.foldl (fun r c =>
    let s := r.1.storeResults c.cmd c.values
    (s.1, r.2 ++ s.2)) (m, []))

/-! ## Pairs -/

/-- The pairs of a string; an odd last character belongs to none. -/
def pairs : List UInt8 → List (UInt8 × UInt8)
  | a :: b :: s => (a, b) :: pairs s
  | _ => []

/-- What a pair reads as. A blank or a plus sign before a digit is skipped, a minus sign
negates, a digit before anything else stands alone, and every other pair reads as `0`. -/
def pairValue (p : UInt8 × UInt8) : Int :=
  match hexVal p.1, hexVal p.2 with
  | some x, some y => 16 * x + y
  | some x, none => x
  | none, some y => if isSpace p.1 ∨ p.1 = 43 then y else if p.1 = 45 then -y else 0
  | none, none => 0

def Blank (p : UInt8 × UInt8) : Prop := isSpace p.1 = true ∧ isSpace p.2 = true

instance (p : UInt8 × UInt8) : Decidable (Blank p) := inferInstanceAs (Decidable (_ ∧ _))

/-- No pair of the string is blank. -/
def Readable (s : List UInt8) : Prop := ∀ p ∈ pairs s, ¬ Blank p

instance (s : List UInt8) : Decidable (Readable s) := List.decidableBAll _ _

/-- Both characters are hexadecimal digits. -/
def IsHex (p : UInt8 × UInt8) : Prop := (hexVal p.1).isSome = true ∧ (hexVal p.2).isSome = true

instance (p : UInt8 × UInt8) : Decidable (IsHex p) := inferInstanceAs (Decidable (_ ∧ _))

@[simp] theorem hexVal_plus : hexVal 43 = none := by decide

@[simp] theorem hexVal_minus : hexVal 45 = none := by decide

theorem intOfUnsigned_saturate {n : Nat} (h : n < 256) : intOfUnsigned (saturate n) = n := by
  unfold saturate
  rw [if_pos (by omega), intOfUnsigned_of_lt] <;> simp <;> omega

theorem intOfUnsigned_saturateNeg {n : Nat} (h : n < 16) :
    intOfUnsigned (saturateNeg n) = -n := by
  unfold saturateNeg
  interval_cases n <;> decide

/-- One character after the blanks: its digit, or nothing. -/
theorem convert_singleton (b : UInt8) :
    intOfUnsigned (convert [b]) = ((hexVal b).getD 0 : Nat) := by
  by_cases hp : b = 43
  · subst hp; decide
  by_cases hm : b = 45
  · subst hm; decide
  have hd : (hexVal b).getD 0 < 256 := by
    cases hb : hexVal b with
    | none => simp
    | some d => simpa using (hexVal_lt hb).trans (by omega)
  simp [convert, hp, hm, intOfUnsigned_saturate hd]

/-- Two characters, the first no blank. -/
theorem convert_pair {a b : UInt8} (ha : isSpace a = false) :
    intOfUnsigned (convert [a, b]) = pairValue (a, b) := by
  have hb : (hexVal b).getD 0 < 16 := by
    cases hb : hexVal b with
    | none => simp
    | some d => simpa using hexVal_lt hb
  by_cases hp : a = 43
  · subst hp
    have := intOfUnsigned_saturate (n := (hexVal b).getD 0) (by omega)
    cases hv : hexVal b <;> simp_all [convert, pairValue]
  by_cases hm : a = 45
  · subst hm
    have := intOfUnsigned_saturateNeg hb
    cases hv : hexVal b <;> simp_all [convert, pairValue]
  have hf : field [a, b] < 256 := by simpa using field_lt [a, b]
  rw [convert, if_neg hp, if_neg hm, intOfUnsigned_saturate hf, field_pair]
  cases va : hexVal a <;> cases vb : hexVal b <;> simp [pairValue, va, vb, ha, hp, hm]

@[simp] theorem readable_nil : Readable [] := by simp [Readable, pairs]

@[simp] theorem readable_singleton {a : UInt8} : Readable [a] := by simp [Readable, pairs]

@[simp] theorem readable_cons {a b : UInt8} {s : List UInt8} :
    Readable (a :: b :: s) ↔ ¬ Blank (a, b) ∧ Readable s := by
  simp only [Readable, pairs, List.forall_mem_cons]

theorem hex2int_blank {p : UInt8 × UInt8} (h : Blank p) :
    hex2int [p.1, p.2] = .error .indeterminate := by
  have hn : extractHex [p.1, p.2] = none :=
    extractHex_eq_none_iff.mpr (by simpa using And.intro h.1 h.2)
  simp [hex2int, hn]

theorem hex2int_pair {p : UInt8 × UInt8} (h : ¬ Blank p) :
    ∃ u, hex2int [p.1, p.2] = .ok u ∧ intOfUnsigned u = pairValue p := by
  obtain ⟨a, b⟩ := p
  by_cases ha : isSpace a = true
  · have hb : isSpace b = false := by simpa [Blank, ha] using h
    refine ⟨convert [b], by simp [hex2int, extractHex, List.dropWhile, ha, hb], ?_⟩
    have va := hexVal_eq_none_of_special (Or.inl ha)
    rw [convert_singleton]
    cases vb : hexVal b <;> simp [pairValue, va, vb, ha]
  · have ha : isSpace a = false := by simpa using ha
    exact ⟨convert [a, b], by simp [hex2int, extractHex, List.dropWhile, ha], convert_pair ha⟩

theorem pairValue_of_isHex {p : UInt8 × UInt8} (h : IsHex p) :
    0 ≤ pairValue p ∧ pairValue p ≤ 255 := by
  obtain ⟨x, hx⟩ := Option.isSome_iff_exists.mp h.1
  obtain ⟨y, hy⟩ := Option.isSome_iff_exists.mp h.2
  have := hexVal_lt hx
  have := hexVal_lt hy
  simp only [pairValue, hx, hy]
  omega

/-- A pair that is not two digits reads as one digit, its opposite after a minus, or `0`. -/
theorem pairValue_of_not_isHex {p : UInt8 × UInt8} (h : ¬ IsHex p) :
    -15 ≤ pairValue p ∧ pairValue p ≤ 15 ∧ (pairValue p < 0 → p.1 = 45) := by
  cases hx : hexVal p.1 with
  | none =>
    cases hy : hexVal p.2 with
    | none => simp [pairValue, hx, hy]
    | some y =>
      have := hexVal_lt hy
      simp only [pairValue, hx, hy]
      split_ifs with h1 h2 <;> simp_all <;> omega
  | some x =>
    cases hy : hexVal p.2 with
    | none =>
      have := hexVal_lt hx
      simp only [pairValue, hx, hy]
      omega
    | some y => simp [IsHex, hx, hy] at h

/-! ## The loops -/

theorem readChars_eq (bytes : List UInt8) (i n : Nat) (h : i + n = bytes.length) :
    readChars bytes i n = .ok (bytes.drop i) := by
  induction n generalizing i with
  | zero =>
    have : bytes.drop i = [] := List.drop_eq_nil_of_le (by omega)
    simp [readChars, this]
  | succ n ih =>
    have hi : i < bytes.length := by omega
    rw [readChars, List.getElem?_eq_getElem hi, List.drop_eq_getElem_cons hi]
    simp only [ih (i + 1) (by omega), bind, Except.bind]

@[simp] theorem pairs_length : ∀ s : List UInt8, (pairs s).length = s.length / 2
  | [] => rfl
  | [_] => by simp [pairs]
  | a :: b :: s => by
    have ih := pairs_length s
    simp only [pairs, List.length_cons, ih]
    omega

/-- The value loop reads the pairs in order and stops at a blank one. -/
theorem readValues_eq (s : List UInt8) (hs : s.length < 65536) : ∀ (t : List UInt8) (i : Nat),
    s.drop (2 + i * 2) = t → 2 + i * 2 ≤ s.length →
    readValues s i (t.length / 2) =
      if Readable t then .ok ((pairs t).map pairValue)
      else .error .indeterminate
  | [], _, _, _ => by simp [readValues, pairs]
  | [_], _, _, _ => by simp [readValues, pairs]
  | a :: b :: t, i, ht, hi => by
    have hlen : (a :: b :: t).length = s.length - (2 + i * 2) := by simp [← ht]
    simp only [List.length_cons] at hlen
    have hnext : s.drop (2 + (i + 1) * 2) = t := by
      rw [show 2 + (i + 1) * 2 = (2 + i * 2) + 2 by omega, ← List.drop_drop, ht]
      rfl
    have hrest := readValues_eq s hs t (i + 1) hnext (by omega)
    have hsub : substr s ((2 + i * 2) % 4294967296) 2 = .ok [a, b] := by
      rw [Nat.mod_eq_of_lt (by omega)]
      simp [substr, hi, ht]
    have hcount : (a :: b :: t).length / 2 = t.length / 2 + 1 := by
      simp only [List.length_cons]
      omega
    rw [hcount, readValues, hsub]
    by_cases blank : Blank (a, b)
    · have he : hex2int [a, b] = .error .indeterminate := hex2int_blank blank
      simp [he, blank, bind, Except.bind]
    · obtain ⟨u, hu, hv⟩ := hex2int_pair blank
      by_cases all : Readable t
      · rw [if_pos all] at hrest
        simp [hu, hrest, hv, pairs, blank, all, bind, Except.bind]
      · rw [if_neg all] at hrest
        simp [hu, hrest, all, bind, Except.bind]

/-- Three bytes are enough for the handle. -/
theorem attGetU16_ok (bytes : List UInt8) (i : Nat) (h : i + 1 < bytes.length) :
    ∃ handle, attGetU16 bytes i = .ok handle := by
  have hi : i < bytes.length := by omega
  simp [attGetU16, List.getElem?_eq_getElem h, List.getElem?_eq_getElem hi]

theorem npairs_eq {n : Nat} (h2 : 2 ≤ n) (h : n < 65536) : npairs n = (n - 2) / 2 := by
  unfold npairs
  omega

/-! ## The handler -/

/-- The characters of the answer, from index 3 on. -/
def Pdu.payload (pdu : Pdu) : List UInt8 := pdu.bytes.drop 3

def Pdu.IsEvent (pdu : Pdu) : Prop :=
  pdu.bytes[0]? = some attOpHandleNotify ∨ pdu.bytes[0]? = some attOpHandleInd

/-- The numbers the pairs of the payload read as: the command, then the values. -/
def Pdu.reads (pdu : Pdu) : List Int := (pairs pdu.payload).map pairValue

def Pdu.command (pdu : Pdu) : MipCommand := pdu.reads.headI

def Pdu.values (pdu : Pdu) : List Int := pdu.reads.tail

theorem Pdu.values_length (pdu : Pdu) :
    pdu.values.length = (pdu.payload.length - 2) / 2 := by
  simp [Pdu.values, Pdu.reads]
  omega

theorem Pdu.nvalues_values (pdu : Pdu) :
    nvalues pdu.values = (pdu.payload.length - 2) / 2 := by
  have := pdu.fits
  have hlen := pdu.values_length
  rw [nvalues_of_lt, hlen]
  simp only [Pdu.payload, List.length_drop] at hlen
  omega

theorem decodeAnswer_eq (a b : UInt8) (t : List UInt8) (fits : t.length + 2 < 65536) :
    decodeAnswer (a :: b :: t) =
      if Readable (a :: b :: t) then
        .ok ⟨pairValue (a, b), (pairs t).map pairValue⟩
      else .error .indeterminate := by
  have hsub : substr (a :: b :: t) 0 2 = .ok [a, b] := by simp [substr]
  have hn : npairs (a :: b :: t).length = t.length / 2 := by
    rw [npairs_eq (by simp) (by simpa using fits)]
    simp
  have hvalues := readValues_eq (a :: b :: t) (by simpa using fits) t 0 (by simp) (by simp)
  rw [decodeAnswer, hsub, hn, hvalues]
  by_cases blank : Blank (a, b)
  · have he : hex2int [a, b] = .error .indeterminate := hex2int_blank blank
    simp [he, blank, bind, Except.bind]
  · obtain ⟨u, hu, hv⟩ := hex2int_pair blank
    by_cases all : Readable t <;> simp [hu, hv, blank, all, bind, Except.bind]

/-- Decoding reads every pair; it has no meaning when one of them is blank. -/
theorem decode_eq (pdu : Pdu) (event : pdu.IsEvent) (hlen : 5 ≤ pdu.bytes.length) :
    decode pdu =
      if Readable pdu.payload then .ok [⟨pdu.command, pdu.values⟩]
      else .error .indeterminate := by
  have hchars := readChars_eq pdu.bytes 3 (pdu.bytes.length - 3) (by omega)
  obtain ⟨op, hop, hget⟩ : ∃ op, (op = attOpHandleNotify ∨ op = attOpHandleInd) ∧
      pdu.bytes[0]? = some op := by
    rcases event with h | h
    · exact ⟨_, Or.inl rfl, h⟩
    · exact ⟨_, Or.inr rfl, h⟩
  obtain ⟨a, b, t, ht⟩ : ∃ a b t, pdu.payload = a :: b :: t := by
    have hp : 2 ≤ pdu.payload.length := by simp [Pdu.payload]; omega
    match pdu.payload, hp with
    | a :: b :: t, _ => exact ⟨a, b, t, rfl⟩
  have hfits : t.length + 2 < 65536 := by
    have := congrArg List.length ht
    have := pdu.fits
    simp [Pdu.payload] at *
    omega
  have hanswer := decodeAnswer_eq a b t hfits
  change readChars pdu.bytes 3 (pdu.bytes.length - 3) = .ok pdu.payload at hchars
  obtain ⟨handle, hhandle⟩ := attGetU16_ok pdu.bytes 1 (by omega)
  simp only [decode, hhandle, hget, if_pos hop, hchars, ht, hanswer, bind, Except.bind]
  split_ifs with all
  · simp [Pdu.command, Pdu.values, Pdu.reads, ht, pairs]
  · rfl

theorem eventsHandler_of_decode {m : Mip} {pdu : Pdu} {c : Notification}
    (h : decode pdu = .ok [c]) : m.eventsHandler pdu = .ok (m.storeResults c.cmd c.values) := by
  simp [Mip.eventsHandler, h, bind, Except.bind]

/-- One call of `store_results`, with the numbers read. -/
theorem eventsHandler_eq (m : Mip) (pdu : Pdu) (event : pdu.IsEvent)
    (hlen : 5 ≤ pdu.bytes.length) (readable : Readable pdu.payload) :
    m.eventsHandler pdu = .ok (m.storeResults pdu.command pdu.values) := by
  have calls : decode pdu = .ok [⟨pdu.command, pdu.values⟩] := by
    rw [decode_eq pdu event hlen, if_pos readable]
  exact eventsHandler_of_decode calls

end LibMip
