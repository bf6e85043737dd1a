import LibMip.Foundation.Duplex
import LibMip.Notification.RoundTrip
import LibMip.Robot.HeadLed

/-!
# Reading back what was set

A setter, the request for the same attribute and the getter, with the robot in between: the
robot serves the orders in turn and spells out its answers, the events handler decodes them.
`readBack_iff` says which settings come back. The setter of the game mode sends the code of the
request, so the robot answers it instead of storing the mode; and the LED values of a `HeadLed`
structure pass through `unsigned int`, where a negative one is large.
-/

namespace LibMip

open CNum

/-- A flash time for which the number of ticks is within the range of `int`. -/
abbrev FlashTime := { t : ℚ // 0 < t ∧ 50 * t < 2147483648 }

/-- The calls of the setters, overloads included. -/
inductive Setting where
  | gameMode (mode : Int) (documented : 1 ≤ mode ∧ mode ≤ 8)
  | volume (vol : UInt32)
  | chestLED (r g b : CInt)
  | chestLEDFlash (r g b : CInt) (on off : FlashTime)
  | chestLEDStruct (r g b : CInt) (on off : ℚ)
      (inRange : 0 < on ∧ 0 < off → 50 * on < 2147483648 ∧ 50 * off < 2147483648)
  | headLED (l1 l2 l3 l4 : UInt32)
  | headLEDIdx (idx value : UInt32) (valid : 1 ≤ idx ∧ idx ≤ 4)
  | headLEDStruct (l1 l2 l3 l4 : CInt)
  | gestureOrRadarMode (mode : Int) (documented : mode = 0 ∨ mode = 2 ∨ mode = 4)

namespace Setting

def call (m : Mip) : Setting → Except Fault (Mip × List Order)
  | .gameMode mode _ => .ok (m.setGameMode mode)
  | .volume vol => .ok (m.setVolume vol)
  | .chestLED r g b => .ok (m.setChestLED r g b)
  | .chestLEDFlash r g b on off => m.setChestLEDFlash r g b on off
  | .chestLEDStruct r g b on off _ => m.setChestLEDStruct ⟨r, g, b, on, off⟩
  | .headLED l1 l2 l3 l4 => .ok (m.setHeadLED l1 l2 l3 l4)
  | .headLEDIdx idx value _ => .ok (m.setHeadLEDIdx idx value)
  | .headLEDStruct l1 l2 l3 l4 => .ok (m.setHeadLEDStruct ⟨l1, l2, l3, l4⟩)
  | .gestureOrRadarMode mode _ => .ok (m.setGestureOrRadarMode mode)

/-- The matching request. -/
def request (m : Mip) : Setting → Mip × List Order
  | .gameMode .. => m.requestGameMode
  | .volume .. => m.requestVolume
  | .chestLED .. | .chestLEDFlash .. | .chestLEDStruct .. => m.requestChestLED
  | .headLED .. | .headLEDIdx .. | .headLEDStruct .. => m.requestHeadLED
  | .gestureOrRadarMode .. => m.requestGestureOrRadarMode

/-- A flash time as a whole number of 20 ms ticks within one byte, in seconds. -/
def flashSeconds (t : ℚ) : ℚ := (clamp (trunc (50 * t)) 1 255 : Int) * 0.02

/-- The matching getter returns the value set, clamped to its documented range. -/
def Shown (m : Mip) : Setting → Prop
  | .gameMode mode _ => m.getGameMode = mode
  | .volume vol => m.getVolume.toNat = min vol.toNat 7
  | .chestLED r g b => m.getChestLED =
      ⟨clamp r.val 0 255, clamp g.val 0 255, clamp b.val 0 255, 0, 0⟩
  | .chestLEDFlash r g b on off => m.getChestLED =
      ⟨clamp r.val 0 255, clamp g.val 0 255, clamp b.val 0 255, flashSeconds on, flashSeconds off⟩
  | .chestLEDStruct r g b on off _ => m.getChestLED =
      ⟨clamp r.val 0 255, clamp g.val 0 255, clamp b.val 0 255,
        if 0 < on ∧ 0 < off then flashSeconds on else 0,
        if 0 < on ∧ 0 < off then flashSeconds off else 0⟩
  | .headLED l1 l2 l3 l4 =>
      m.getHeadLED = ⟨saturated l1, saturated l2, saturated l3, saturated l4⟩
  | .headLEDIdx idx value _ => m.getHeadLED = m.getHeadLED.set idx (saturated value)
  | .headLEDStruct l1 l2 l3 l4 =>
      m.getHeadLED = ⟨clamp l1.val 0 3, clamp l2.val 0 3, clamp l3.val 0 3, clamp l4.val 0 3⟩
  | .gestureOrRadarMode mode _ => m.getGestureOrRadarMode = mode

end Setting

/-- The robot serves the orders in the order of arrival. -/
def Robot.serveAll (r : Robot) (orders : List Order) : Robot × List Answer :=
  Duplex.serveAll Robot.serve r orders

/-- The PDU spells out the answer, each letter in either case. -/
def Spells (pdu : Pdu) (a : Answer) : Prop :=
  ∃ (op h1 h2 : UInt8) (c : HexByte) (vs : List HexByte),
    (op = attOpHandleNotify ∨ op = attOpHandleInd) ∧ pdu.bytes = robotBytes op h1 h2 c vs ∧
    c.value = a.cmd ∧ vs.map HexByte.value = a.values

/-- The events handler receives the PDUs in turn. -/
def Mip.deliver (m : Mip) : List Pdu → Except Fault Mip
  | [] => .ok m
  | pdu :: pdus => do
    let r ← m.eventsHandler pdu
    r.1.deliver pdus

/-- Set, request, let the robot answer in any spelling, receive: the getter shows the setting. -/
def ReadBack (s : Setting) (m : Mip) (r : Robot) : Prop :=
  ∃ m₁ orders, s.call m = .ok (m₁, orders) ∧
    ∀ pdus, List.Forall₂ Spells pdus (r.serveAll (orders ++ (s.request m₁).2)).2 →
      ∃ m₂, (s.request m₁).1.deliver pdus = .ok m₂ ∧ s.Shown m₂

/-! ## Delivery of answers -/

def Mip.receive (m : Mip) (answers : List Answer) : Mip :=
  answers.foldl (fun m a => (m.storeResults a.notification.cmd a.notification.values).1) m

theorem eventsHandler_of_spells {m : Mip} {pdu : Pdu} {a : Answer} (h : Spells pdu a) :
    m.eventsHandler pdu = .ok (m.storeResults a.notification.cmd a.notification.values) := by
  obtain ⟨bytes, fits⟩ := pdu
  obtain ⟨op, h1, h2, c, vs, hop, rfl, hc, hvs⟩ := h
  rw [eventsHandler_of_decode (decode_robotBytes hop fits)]
  simp [Answer.notification, ← hc, ← hvs, Function.comp_def]

/-- However the answers are spelled, the object is the one that receives their bytes. -/
theorem deliver_of_spells {m : Mip} {pdus : List Pdu} {answers : List Answer}
    (h : List.Forall₂ Spells pdus answers) : m.deliver pdus = .ok (m.receive answers) := by
  induction h generalizing m with
  | nil => rfl
  | cons spells _ ih =>
    simp only [Mip.deliver, eventsHandler_of_spells spells, bind, Except.bind, ih]
    rfl

/-- An answer that fits in a PDU can be spelled. -/
theorem exists_spells {a : Answer} (h : a.values.length ≤ 5) : ∃ pdu, Spells pdu a := by
  have fits : (robotBytes attOpHandleNotify 0 0 ⟨a.cmd, true, true⟩
      (a.values.map fun v => ⟨v, true, true⟩)).length < 65536 := by
    rw [robotBytes_length, List.length_map]
    omega
  exact ⟨⟨_, fits⟩, _, _, _, _, _, .inl rfl, rfl, rfl, by simp [Function.comp_def]⟩

theorem exists_spells_all {answers : List Answer} (h : ∀ a ∈ answers, a.values.length ≤ 5) :
    ∃ pdus, List.Forall₂ Spells pdus answers := by
  induction answers with
  | nil => exact ⟨[], .nil⟩
  | cons a answers ih =>
    obtain ⟨pdu, hp⟩ := exists_spells (h a List.mem_cons_self)
    obtain ⟨pdus, hps⟩ := ih fun b hb => h b (List.mem_cons_of_mem a hb)
    exact ⟨pdu :: pdus, .cons hp hps⟩

/-- What is read back is what the object shows after the bytes of the answers. -/
theorem readBack_iff_of_answers {s : Setting} {m m₁ : Mip} {r : Robot} {orders : List Order}
    {answers : List Answer} (hcall : s.call m = .ok (m₁, orders))
    (hserve : (r.serveAll (orders ++ (s.request m₁).2)).2 = answers)
    (short : ∀ a ∈ answers, a.values.length ≤ 5) :
    ReadBack s m r ↔ s.Shown ((s.request m₁).1.receive answers) := by
  constructor
  · rintro ⟨m', orders', hcall', all⟩
    obtain ⟨rfl, rfl⟩ := Prod.mk.inj (Except.ok.inj (hcall.symm.trans hcall'))
    obtain ⟨pdus, hpdus⟩ := exists_spells_all short
    rw [← hserve] at hpdus
    obtain ⟨m₂, hm₂, shown⟩ := all pdus hpdus
    obtain rfl := Except.ok.inj ((deliver_of_spells hpdus).symm.trans hm₂)
    rwa [hserve] at shown
  · intro shown
    refine ⟨m₁, orders, hcall, fun pdus hpdus => ?_⟩
    rw [hserve] at hpdus
    exact ⟨_, deliver_of_spells hpdus, shown⟩

/-! ## The settings -/

/-- The condition under which a setting comes back. -/
def Setting.Readable (r : Robot) : Setting → Prop
  | .gameMode mode _ => (r.gameMode.toNat : Int) = mode
  | .headLEDStruct l1 l2 l3 l4 => 0 ≤ l1.val ∧ 0 ≤ l2.val ∧ 0 ≤ l3.val ∧ 0 ≤ l4.val
  | _ => True

section Settings

variable {s : Setting} (m : Mip) (r : Robot)

/-- The robot answers both orders with the mode it has. -/
theorem readBack_gameMode (mode : Int) (documented : 1 ≤ mode ∧ mode ≤ 8) :
    ReadBack (.gameMode mode documented) m r ↔ (r.gameMode.toNat : Int) = mode := by
  have answers : (r.serveAll ([sendOrder1 0x82 mode] ++ [sendOrder0 0x82])).2 =
      [⟨0x82, [r.gameMode]⟩, ⟨0x82, [r.gameMode]⟩] := rfl
  rw [readBack_iff_of_answers (s := .gameMode mode documented) rfl answers (by simp)]
  exact Iff.rfl

theorem readBack_volume (vol : UInt32) : ReadBack (.volume vol) m r := by
  have answers : (r.serveAll ([sendOrder1 cmdSetMipVolume (clamp vol 0 7).toNat] ++
      [sendOrder0 cmdGetMipVolume])).2 = [⟨0x16, [uint8 (clamp vol 0 7).toNat]⟩] := rfl
  apply (readBack_iff_of_answers (s := .volume vol) rfl answers (by simp)).mpr
  have hvol : (clamp vol 0 7).toNat = min vol.toNat 7 := toNat_clamp vol 7
  have sent : ((uint8 (clamp vol 0 7).toNat).toNat : Int) = (clamp vol 0 7).toNat :=
    uint8_of_mem (by omega) (by omega)
  have stored := toNat_unsignedOfInt (uint8 (clamp vol 0 7).toNat).toNat
  change (unsignedOfInt (uint8 (clamp vol 0 7).toNat).toNat).toNat = min vol.toNat 7
  omega

theorem readBack_gestureOrRadarMode (mode : Int) (documented : mode = 0 ∨ mode = 2 ∨ mode = 4) :
    ReadBack (.gestureOrRadarMode mode documented) m r := by
  have answers : (r.serveAll ([sendOrder1 cmdSetGestureOrRadarMode mode] ++
      [sendOrder0 cmdRadarModeStatus])).2 = [⟨0x0D, [uint8 mode]⟩] := rfl
  apply (readBack_iff_of_answers (s := .gestureOrRadarMode mode documented) rfl answers
    (by simp)).mpr
  exact uint8_of_mem (by omega) (by omega)

/-- An order that stores five chest bytes has them shown, the times in steps of 20 ms. -/
theorem readBack_chest {m' : Mip} {o : Order} {c : ChestBytes}
    (hrequest : s.request m' = m'.requestChestLED) (hcall : s.call m = .ok (m', [o]))
    (hserve : r.serve o = ({ r with chestLed := c }, [])) :
    ReadBack s m r ↔ s.Shown (m'.putChestLed
      [c.r.toNat, c.g.toNat, c.b.toNat, c.on.toNat, c.off.toNat]) := by
  have answers : (r.serveAll ([o] ++ (s.request m').2)).2 =
      [⟨0x83, [c.r, c.g, c.b, c.on, c.off]⟩] := by
    rw [hrequest, List.singleton_append, Robot.serveAll, Duplex.serveAll, hserve]
    rfl
  rw [readBack_iff_of_answers hcall answers (by simp), hrequest]
  exact Iff.rfl

/-- An order that shows valid LED values has them read back. -/
theorem readBack_head {m' : Mip} {l : HeadLed} (valid : l.Valid)
    (hrequest : s.request m' = m'.requestHeadLED)
    (hcall : s.call m = .ok (m', [headOrder l])) :
    ReadBack s m r ↔ s.Shown { m' with headLed := l, headLedCached := l } := by
  have answers : (r.serveAll ([headOrder l] ++ (s.request m').2)).2 =
      [⟨0x8B, [uint8 l.l1, uint8 l.l2, uint8 l.l3, uint8 l.l4]⟩] := by
    rw [hrequest]
    rfl
  have received : m'.receive [⟨0x8B, [uint8 l.l1, uint8 l.l2, uint8 l.l3, uint8 l.l4]⟩] =
      { m' with headLed := l, headLedCached := l } := by
    have bytes := value_uint8 valid
    conv_rhs => rw [← bytes]
    rfl
  rw [readBack_iff_of_answers hcall answers (by simp), hrequest]
  exact received ▸ Iff.rfl

theorem uint8_clamp (lo : Int) (h : 0 ≤ lo ∧ lo ≤ 255) (x : Int) :
    ((uint8 (clamp x lo 255)).toNat : Int) = clamp x lo 255 :=
  uint8_of_mem (h.1.trans (le_clamp h.2)) (clamp_le h.2)

theorem readBack_chestLED (red green blue : CInt) :
    ReadBack (.chestLED red green blue) m r := by
  apply (readBack_chest (s := .chestLED red green blue) m r rfl rfl rfl).mpr
  have byte := uint8_clamp 0 (by decide)
  simp [Setting.Shown, Mip.getChestLED, Mip.putChestLed, byte]

/-- With times in range the flash setter does not fault. -/
theorem setChestLEDFlash_eq (red green blue : Int) (on off : FlashTime) :
    m.setChestLEDFlash red green blue on off =
      .ok ({ m with chestLedCached := ⟨clamp red 0 255, clamp green 0 255, clamp blue 0 255,
          (clamp (trunc (50 * on.val)) 1 255 : Int), (clamp (trunc (50 * off.val)) 1 255 : Int)⟩ },
        [sendOrder5 cmdFlashChestLed (clamp red 0 255) (clamp green 0 255) (clamp blue 0 255)
          (clamp (trunc (50 * on.val)) 1 255) (clamp (trunc (50 * off.val)) 1 255)]) := by
  have fits (t : FlashTime) : InInt (trunc (50 * t.val)) := by
    apply inInt_trunc
    rw [abs_of_pos (by linarith [t.2.1])]
    exact t.2.2
  exact Mip.setChestLEDFlash_of_fits red green blue (fits on) (fits off)

theorem readBack_chestLEDFlash (red green blue : CInt) (on off : FlashTime) :
    ReadBack (.chestLEDFlash red green blue on off) m r := by
  apply (readBack_chest (s := .chestLEDFlash red green blue on off) m r rfl
    (setChestLEDFlash_eq m red green blue on off) rfl).mpr
  have byte := uint8_clamp 0 (by decide)
  have time := uint8_clamp 1 (by decide)
  have step : (20E-3 : ℚ) = 0.02 := by norm_num
  simp only [Setting.Shown, Mip.getChestLED, Mip.putChestLed, Setting.flashSeconds, step]
  simp [byte, time, -Int.cast_natCast]

/-- The structure overload is one of the two others, by whether both times are positive. -/
theorem readBack_chestLEDStruct (red green blue : CInt) (on off : ℚ)
    (inRange : 0 < on ∧ 0 < off → 50 * on < 2147483648 ∧ 50 * off < 2147483648) :
    ReadBack (.chestLEDStruct red green blue on off inRange) m r := by
  by_cases flash : 0 < on ∧ 0 < off
  · have back := readBack_chestLEDFlash m r red green blue
      ⟨on, flash.1, (inRange flash).1⟩ ⟨off, flash.2, (inRange flash).2⟩
    simpa only [ReadBack, Setting.call, Setting.request, Setting.Shown, Mip.setChestLEDStruct,
      if_pos flash] using back
  · have back := readBack_chestLED m r red green blue
    simpa only [ReadBack, Setting.call, Setting.request, Setting.Shown, Mip.setChestLEDStruct,
      if_neg flash] using back

theorem readBack_headLED (l1 l2 l3 l4 : UInt32) : ReadBack (.headLED l1 l2 l3 l4) m r := by
  have valid := headLed_valid_saturated l1 l2 l3 l4
  exact (readBack_head (s := .headLED l1 l2 l3 l4) m r valid rfl
    (congrArg Except.ok (setHeadLED_eq m l1 l2 l3 l4))).mpr rfl

/-- The named LED comes back whatever the cache completes the order with. -/
theorem readBack_headLEDIdx (idx value : UInt32) (valid : 1 ≤ idx ∧ idx ≤ 4) :
    ReadBack (.headLEDIdx idx value valid) m r := by
  obtain ⟨l1, l2, l3, l4, sent, named⟩ : ∃ l1 l2 l3 l4,
      m.setHeadLEDIdx idx value = m.setHeadLED l1 l2 l3 l4 ∧
      HeadLed.set ⟨saturated l1, saturated l2, saturated l3, saturated l4⟩ idx (saturated value) =
        ⟨saturated l1, saturated l2, saturated l3, saturated l4⟩ := by
    rcases idx_cases valid with rfl | rfl | rfl | rfl <;> exact ⟨_, _, _, _, rfl, rfl⟩
  have range := headLed_valid_saturated l1 l2 l3 l4
  apply (readBack_head (s := .headLEDIdx idx value valid) m r range rfl
    (congrArg Except.ok (sent.trans (setHeadLED_eq m l1 l2 l3 l4)))).mpr
  exact named.symm

/-- Converted to `unsigned int`, a negative value saturates at the other end. -/
theorem saturated_eq_clamp_iff (x : CInt) :
    saturated (unsignedOfInt x.val) = clamp x.val 0 3 ↔ 0 ≤ x.val := by
  obtain ⟨x, lo, hi⟩ := x
  have conv := toNat_unsignedOfInt x
  have cases := clamp_cases x 0 3
  simp only [saturated]
  omega

theorem readBack_headLEDStruct (l1 l2 l3 l4 : CInt) :
    ReadBack (.headLEDStruct l1 l2 l3 l4) m r ↔
      0 ≤ l1.val ∧ 0 ≤ l2.val ∧ 0 ≤ l3.val ∧ 0 ≤ l4.val := by
  have range := headLed_valid_saturated (unsignedOfInt l1) (unsignedOfInt l2)
    (unsignedOfInt l3) (unsignedOfInt l4)
  rw [readBack_head (s := .headLEDStruct l1 l2 l3 l4) m r range rfl
    (congrArg Except.ok (setHeadLED_eq m _ _ _ _))]
  simp only [Setting.Shown, Mip.getHeadLED, HeadLed.mk.injEq, saturated_eq_clamp_iff]

end Settings

/-- A setting comes back from every state of the client and the robot, unless it is a game mode
other than the one the robot is in, or a structure of LED values with a negative one. -/
theorem readBack_iff (s : Setting) (m : Mip) (r : Robot) : ReadBack s m r ↔ s.Readable r := by
  cases s with
  | gameMode mode documented => exact readBack_gameMode m r mode documented
  | volume vol => exact iff_of_true (readBack_volume m r vol) trivial
  | chestLED red green blue => exact iff_of_true (readBack_chestLED m r red green blue) trivial
  | chestLEDFlash red green blue on off =>
    exact iff_of_true (readBack_chestLEDFlash m r red green blue on off) trivial
  | chestLEDStruct red green blue on off inRange =>
    exact iff_of_true (readBack_chestLEDStruct m r red green blue on off inRange) trivial
  | headLED l1 l2 l3 l4 => exact iff_of_true (readBack_headLED m r l1 l2 l3 l4) trivial
  | headLEDIdx idx value valid =>
    exact iff_of_true (readBack_headLEDIdx m r idx value valid) trivial
  | headLEDStruct l1 l2 l3 l4 => exact readBack_headLEDStruct m r l1 l2 l3 l4
  | gestureOrRadarMode mode documented =>
    exact iff_of_true (readBack_gestureOrRadarMode m r mode documented) trivial

/-- Mode 2 does not come back from a robot in mode 1, and mode 1 is what the client reads. -/
theorem gameMode_not_read_back :
    ¬ ReadBack (.gameMode 2 (by decide)) Mip.init ⟨1, 7, ⟨0, 255, 0, 0, 0⟩, ⟨1, 1, 1, 1⟩, 0⟩ := by
  rw [readBack_gameMode]
  decide

end LibMip
