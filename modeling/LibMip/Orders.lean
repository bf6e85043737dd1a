import LibMip.State

/-!
# Orders

An order is the array of bytes that `send_order` hands to the transport: the command, then the
parameters, each narrowed to `uint8_t`. An order method is modelled by the object it leaves and
the orders it sends, in the order sent; the Boolean it returns is that of its last `send_order`,
or `false` when it sends nothing. A method that converts a floating argument to `int` may fault.
-/

namespace LibMip

open CNum

abbrev Order := List UInt8

def sendOrder0 (cmd : MipCommand) : Order := [uint8 cmd]

def sendOrder1 (cmd : MipCommand) (param1 : Int) : Order := [uint8 cmd, uint8 param1]

def sendOrder2 (cmd : MipCommand) (param1 param2 : Int) : Order :=
  [uint8 cmd, uint8 param1, uint8 param2]

def sendOrder3 (cmd : MipCommand) (param1 param2 param3 : Int) : Order :=
  [uint8 cmd, uint8 param1, uint8 param2, uint8 param3]

def sendOrder4 (cmd : MipCommand) (param1 param2 param3 param4 : Int) : Order :=
  [uint8 cmd, uint8 param1, uint8 param2, uint8 param3, uint8 param4]

def sendOrder5 (cmd : MipCommand) (param1 param2 param3 param4 param5 : Int) : Order :=
  [uint8 cmd, uint8 param1, uint8 param2, uint8 param3, uint8 param4, uint8 param5]

/-- The bytes of an order as numbers. -/
def numbers (o : Order) : List Int := o.map fun byte => byte.toNat

/-- The value of a byte. -/
abbrev InByte (x : Int) : Prop := 0 ≤ x ∧ x ≤ 255

section Numbers

variable {cmd : MipCommand} {p1 p2 p3 p4 p5 : Int}

/-- Narrowing alters no parameter that fits in a byte. -/
theorem numbers_sendOrder2 (hc : InByte cmd) (h1 : InByte p1) (h2 : InByte p2) :
    numbers (sendOrder2 cmd p1 p2) = [cmd, p1, p2] := by
  simp [numbers, sendOrder2, uint8_of_mem hc.1 hc.2, uint8_of_mem h1.1 h1.2,
    uint8_of_mem h2.1 h2.2]

theorem numbers_sendOrder3 (hc : InByte cmd) (h1 : InByte p1) (h2 : InByte p2) (h3 : InByte p3) :
    numbers (sendOrder3 cmd p1 p2 p3) = [cmd, p1, p2, p3] := by
  simp [numbers, sendOrder3, uint8_of_mem hc.1 hc.2, uint8_of_mem h1.1 h1.2,
    uint8_of_mem h2.1 h2.2, uint8_of_mem h3.1 h3.2]

theorem numbers_sendOrder5 (hc : InByte cmd) (h1 : InByte p1) (h2 : InByte p2) (h3 : InByte p3)
    (h4 : InByte p4) (h5 : InByte p5) :
    numbers (sendOrder5 cmd p1 p2 p3 p4 p5) = [cmd, p1, p2, p3, p4, p5] := by
  simp [numbers, sendOrder5, uint8_of_mem hc.1 hc.2, uint8_of_mem h1.1 h1.2,
    uint8_of_mem h2.1 h2.2, uint8_of_mem h3.1 h3.2, uint8_of_mem h4.1 h4.2,
    uint8_of_mem h5.1 h5.2]

end Numbers

namespace Mip

variable (m : Mip)

def playSound (soundIdx : UInt32) : Mip × List Order :=
  (m, [sendOrder1 cmdPlaySound (clamp soundIdx 1 106).toNat])

/-- The setter sends the code of the request, `0x82`, with the mode as a parameter. -/
def setGameMode (mode : Int) : Mip × List Order := (m, [sendOrder1 0x82 mode])

def requestGameMode : Mip × List Order := (m, [sendOrder0 0x82])

def stop : Mip × List Order := (m, [sendOrder0 0x77])

def requestBatteryVoltage : Mip × List Order := (m, [sendOrder0 cmdMipStatus])

def getBatteryVoltage : ℚ := m.batteryVoltage

/-- In 0~100, or `ERROR`; the conditional is a `double` before it is returned. -/
def getBatteryPercentage : Except Fault Int :=
  let voltage := m.getBatteryVoltage
  toInt (if voltage < 0 then (error : ℚ) else (voltage - 4.0) / 2.4 * 100)

def requestStatus : Mip × List Order := (m, [sendOrder0 cmdMipStatus])

def getStatus : Int := m.status

def up : Mip × List Order := (m, [sendOrder1 0x23 2])

def requestWeightUpdate : Mip × List Order := (m, [sendOrder0 0x81])

def getWeightUpdate : Int := m.weight

/-! ## Chest LED -/

/-- `set_chest_LED(r, g, b)`. -/
def setChestLED (r g b : Int) : Mip × List Order :=
  let led : ChestLed := ⟨clamp r 0 255, clamp g 0 255, clamp b 0 255, 0, 0⟩
  ({ m with chestLedCached := led }, [sendOrder3 cmdSetChestLed led.r led.g led.b])

/-- `set_chest_LED(r, g, b, time_flash_on_sec, time_flash_off_sec)`. The cached times are the
numbers of 20 ms ticks that are sent. -/
def setChestLEDFlash (r g b : Int) (timeFlashOnSec timeFlashOffSec : ℚ) :
    Except Fault (Mip × List Order) := do
  let on ← toInt (timeFlashOnSec * 50)
  let off ← toInt (timeFlashOffSec * 50)
  let led : ChestLed := ⟨clamp r 0 255, clamp g 0 255, clamp b 0 255,
    (clamp on 1 255 : Int), (clamp off 1 255 : Int)⟩
  .ok ({ m with chestLedCached := led },
    [sendOrder5 cmdFlashChestLed led.r led.g led.b
      (trunc led.timeFlashOnSec) (trunc led.timeFlashOffSec)])

/-- Without a fault both times are clamped and sent, and cached as the ticks that are sent. -/
theorem setChestLEDFlash_of_fits {m : Mip} (red green blue : Int) {on off : ℚ}
    (fitsOn : InInt (trunc (50 * on))) (fitsOff : InInt (trunc (50 * off))) :
    m.setChestLEDFlash red green blue on off =
      .ok ({ m with chestLedCached := ⟨clamp red 0 255, clamp green 0 255, clamp blue 0 255,
          (clamp (trunc (50 * on)) 1 255 : Int), (clamp (trunc (50 * off)) 1 255 : Int)⟩ },
        [sendOrder5 cmdFlashChestLed (clamp red 0 255) (clamp green 0 255) (clamp blue 0 255)
          (clamp (trunc (50 * on)) 1 255) (clamp (trunc (50 * off)) 1 255)]) := by
  simp only [setChestLEDFlash, mul_comm _ (50 : ℚ), toInt_of_mem fitsOn, toInt_of_mem fitsOff,
    trunc_intCast, bind, Except.bind]

/-- `set_chest_LED(const ChestLed &)`. -/
def setChestLEDStruct (l : ChestLed) : Except Fault (Mip × List Order) :=
  if 0 < l.timeFlashOnSec ∧ 0 < l.timeFlashOffSec then
    m.setChestLEDFlash l.r l.g l.b l.timeFlashOnSec l.timeFlashOffSec
  else .ok (m.setChestLED l.r l.g l.b)

def requestChestLED : Mip × List Order := (m, [sendOrder0 0x83])

def getChestLED : ChestLed := m.chestLed

def getChestLEDCached : ChestLed := m.chestLedCached

/-! ## Head LED -/

/-- `set_head_LED(l1, l2, l3, l4)`. -/
def setHeadLED (l1 l2 l3 l4 : UInt32) : Mip × List Order :=
  let led : HeadLed :=
    ⟨intOfUnsigned (clamp l1 0 3), intOfUnsigned (clamp l2 0 3),
      intOfUnsigned (clamp l3 0 3), intOfUnsigned (clamp l4 0 3)⟩
  ({ m with headLedCached := led }, [sendOrder4 cmdSetHeadLed led.l1 led.l2 led.l3 led.l4])

/-- `set_head_LED(idx, value)`: the other three LEDs are taken from the cached value. -/
def setHeadLEDIdx (idx value : UInt32) : Mip × List Order :=
  let c := m.headLedCached
  if idx = 1 then
    m.setHeadLED value (unsignedOfInt c.l2) (unsignedOfInt c.l3) (unsignedOfInt c.l4)
  else if idx = 2 then
    m.setHeadLED (unsignedOfInt c.l1) value (unsignedOfInt c.l3) (unsignedOfInt c.l4)
  else if idx = 3 then
    m.setHeadLED (unsignedOfInt c.l1) (unsignedOfInt c.l2) value (unsignedOfInt c.l4)
  else if idx = 4 then
    m.setHeadLED (unsignedOfInt c.l1) (unsignedOfInt c.l2) (unsignedOfInt c.l3) value
  else (m, [])

/-- `set_head_LED(const HeadLed &)`. -/
def setHeadLEDStruct (l : HeadLed) : Mip × List Order :=
  m.setHeadLED (unsignedOfInt l.l1) (unsignedOfInt l.l2) (unsignedOfInt l.l3) (unsignedOfInt l.l4)

def requestHeadLED : Mip × List Order := (m, [sendOrder0 cmdHeadLed])

def getHeadLED : HeadLed := m.headLed

def getHeadLEDCached : HeadLed := m.headLedCached

/-! ## Other attributes -/

def getGameMode : Int := m.gameMode

def requestOdometerReading : Mip × List Order := (m, [sendOrder0 cmdOdometerReading])

def getOdometerReading : ℚ := m.odometerReadingM

def getGestureDetect : Int := m.gestureDetect

def setGestureOrRadarMode (mode : Int) : Mip × List Order :=
  (m, [sendOrder1 cmdSetGestureOrRadarMode mode])

def requestGestureOrRadarMode : Mip × List Order := (m, [sendOrder0 cmdRadarModeStatus])

def getGestureOrRadarMode : Int := m.gestureOrRadarMode

def getRadarResponse : Int := m.radarResponse

def requestSoftwareVersion : Mip × List Order := (m, [sendOrder0 cmdMipSoftwareVersion])

def requestHardwareVersion : Mip × List Order := (m, [sendOrder0 cmdMipHardwareInfo])

def setVolume (vol : UInt32) : Mip × List Order :=
  (m, [sendOrder1 cmdSetMipVolume (clamp vol 0 7).toNat])

def requestVolume : Mip × List Order := (m, [sendOrder0 cmdGetMipVolume])

def getVolume : UInt32 := m.volume

end Mip

end LibMip
