import LibMip.Drive.Bounded
import LibMip.Sensors.LastWriter
import LibMip.Speed.Range

/-!
# Calls

The methods of the class that send orders, as one type. A getter sends nothing and is no call,
nor is `connect`, which sends nothing either but gives the object another channel.

What a call may write are the remembered request of `continuous_drive` and the two cached LED
values; `sensors_of_perform` is the frame: every other field that a notification writes is left
to notifications.
-/

namespace LibMip

open CNum

inductive Call where
  | playSound (soundIdx : UInt32)
  | distanceDrive (distanceM angleRad : ℚ)
  | timeDrive (speed : CInt) (timeS : ℚ)
  | angleDrive (angleRad speed : ℚ)
  | continuousDrive (vTicks wTicks : CInt) (forceDecelerating : Bool)
  | continuousDriveMetric (vMs wRads : ℚ)
  | setGameMode (mode : CInt)
  | requestGameMode
  | stop
  | requestBatteryVoltage
  | requestStatus
  | up
  | requestWeightUpdate
  | setChestLED (r g b : CInt)
  | setChestLEDFlash (r g b : CInt) (timeFlashOnSec timeFlashOffSec : ℚ)
  | setChestLEDStruct (l : ChestLed)
  | requestChestLED
  | setHeadLED (l1 l2 l3 l4 : UInt32)
  | setHeadLEDIdx (idx value : UInt32)
  | setHeadLEDStruct (l : HeadLed)
  | requestHeadLED
  | requestOdometerReading
  | setGestureOrRadarMode (mode : CInt)
  | requestGestureOrRadarMode
  | requestSoftwareVersion
  | requestHardwareVersion
  | setVolume (vol : UInt32)
  | requestVolume

namespace Mip

def perform (m : Mip) : Call → Except Fault (Mip × List Order)
  | .playSound soundIdx => .ok (m.playSound soundIdx)
  | .distanceDrive distanceM angleRad => m.distanceDrive distanceM angleRad
  | .timeDrive speed timeS => m.timeDrive speed timeS
  | .angleDrive angleRad speed => m.angleDrive angleRad speed
  | .continuousDrive vTicks wTicks force => m.continuousDrive vTicks wTicks force
  | .continuousDriveMetric vMs wRads => m.continuousDriveMetric vMs wRads
  | .setGameMode mode => .ok (m.setGameMode mode)
  | .requestGameMode => .ok m.requestGameMode
  | .stop => .ok m.stop
  | .requestBatteryVoltage => .ok m.requestBatteryVoltage
  | .requestStatus => .ok m.requestStatus
  | .up => .ok m.up
  | .requestWeightUpdate => .ok m.requestWeightUpdate
  | .setChestLED r g b => .ok (m.setChestLED r g b)
  | .setChestLEDFlash r g b on off => m.setChestLEDFlash r g b on off
  | .setChestLEDStruct l => m.setChestLEDStruct l
  | .requestChestLED => .ok m.requestChestLED
  | .setHeadLED l1 l2 l3 l4 => .ok (m.setHeadLED l1 l2 l3 l4)
  | .setHeadLEDIdx idx value => .ok (m.setHeadLEDIdx idx value)
  | .setHeadLEDStruct l => .ok (m.setHeadLEDStruct l)
  | .requestHeadLED => .ok m.requestHeadLED
  | .requestOdometerReading => .ok m.requestOdometerReading
  | .setGestureOrRadarMode mode => .ok (m.setGestureOrRadarMode mode)
  | .requestGestureOrRadarMode => .ok m.requestGestureOrRadarMode
  | .requestSoftwareVersion => .ok m.requestSoftwareVersion
  | .requestHardwareVersion => .ok m.requestHardwareVersion
  | .setVolume vol => .ok (m.setVolume vol)
  | .requestVolume => .ok m.requestVolume

/-- The object with what a call may write. -/
def withCaches (m : Mip) (vTicks wTicks : Int) (chest : ChestLed) (head : HeadLed) : Mip :=
  { m with lastVTicks := vTicks, lastWTicks := wTicks, chestLedCached := chest,
           headLedCached := head }

/-- Nothing but the remembered request and the cached values differs. -/
def CachesOnly (m m' : Mip) : Prop :=
  ∃ vTicks wTicks chest head, m' = m.withCaches vTicks wTicks chest head

theorem CachesOnly.refl (m : Mip) : m.CachesOnly m := ⟨_, _, _, _, rfl⟩

theorem CachesOnly.drive (m : Mip) (vTicks wTicks : Int) :
    m.CachesOnly { m with lastVTicks := vTicks, lastWTicks := wTicks } :=
  ⟨_, _, _, _, rfl⟩

theorem CachesOnly.chest (m : Mip) (led : ChestLed) :
    m.CachesOnly { m with chestLedCached := led } :=
  ⟨_, _, _, _, rfl⟩

theorem CachesOnly.head (m : Mip) (led : HeadLed) :
    m.CachesOnly { m with headLedCached := led } :=
  ⟨_, _, _, _, rfl⟩

/-! ## The frame of each method that may fault -/

section Frame

variable {m m' : Mip} {orders : List Order}

theorem cachesOnly_distanceDrive {d a : ℚ} (h : m.distanceDrive d a = .ok (m', orders)) :
    m.CachesOnly m' := by
  obtain ⟨angle, -, h⟩ := bind_eq_ok.mp h
  obtain ⟨cm, -, h⟩ := bind_eq_ok.mp h
  obtain ⟨magnitude, -, h⟩ := bind_eq_ok.mp h
  obtain ⟨rfl, -⟩ := Prod.mk.inj (Except.ok.inj h)
  exact .refl m

theorem cachesOnly_timeDrive {speed : Int} {t : ℚ} (h : m.timeDrive speed t = .ok (m', orders)) :
    m.CachesOnly m' := by
  obtain ⟨time, -, h⟩ := bind_eq_ok.mp h
  dsimp only at h
  split_ifs at h
  · obtain ⟨rfl, -⟩ := Prod.mk.inj (Except.ok.inj h)
    exact .refl m
  · obtain ⟨opposite, -, h⟩ := bind_eq_ok.mp h
    obtain ⟨rfl, -⟩ := Prod.mk.inj (Except.ok.inj h)
    exact .refl m

theorem cachesOnly_angleDrive {a speed : ℚ} (h : m.angleDrive a speed = .ok (m', orders)) :
    m.CachesOnly m' := by
  obtain ⟨angle, -, h⟩ := bind_eq_ok.mp h
  obtain ⟨fast, -, h⟩ := bind_eq_ok.mp h
  obtain ⟨steps, -, h⟩ := bind_eq_ok.mp h
  obtain ⟨rfl, -⟩ := Prod.mk.inj (Except.ok.inj h)
  exact .refl m

/-- The inner call of a forced deceleration writes what the outer one then overwrites. -/
theorem cachesOnly_continuousDrive {v w : Int} {force : Bool}
    (h : m.continuousDrive v w force = .ok (m', orders)) : m.CachesOnly m' := by
  have after (v' w' : Int) : m.CachesOnly
      { (m.withCaches v' w' m.chestLedCached m.headLedCached) with
        lastVTicks := v, lastWTicks := w } :=
    .drive m v w
  rw [continuousDrive] at h
  split_ifs at h
  · obtain ⟨opposite, -, h⟩ := bind_eq_ok.mp h
    obtain ⟨first, inner, h⟩ := bind_eq_ok.mp h
    rw [continuousDrive_false] at inner
    obtain rfl := Except.ok.inj inner
    obtain ⟨rfl, -⟩ := Prod.mk.inj (Except.ok.inj h)
    exact after opposite w
  · obtain ⟨opposite, -, h⟩ := bind_eq_ok.mp h
    obtain ⟨first, inner, h⟩ := bind_eq_ok.mp h
    rw [continuousDrive_false] at inner
    obtain rfl := Except.ok.inj inner
    obtain ⟨rfl, -⟩ := Prod.mk.inj (Except.ok.inj h)
    exact after v opposite
  · obtain ⟨first, inner, h⟩ := bind_eq_ok.mp h
    obtain rfl := Except.ok.inj inner
    obtain ⟨rfl, -⟩ := Prod.mk.inj (Except.ok.inj h)
    exact .drive m v w

theorem cachesOnly_setChestLEDFlash {r g b : Int} {on off : ℚ}
    (h : m.setChestLEDFlash r g b on off = .ok (m', orders)) : m.CachesOnly m' := by
  obtain ⟨onTicks, -, h⟩ := bind_eq_ok.mp h
  obtain ⟨offTicks, -, h⟩ := bind_eq_ok.mp h
  obtain ⟨rfl, -⟩ := Prod.mk.inj (Except.ok.inj h)
  exact .chest m _

theorem cachesOnly_setHeadLEDIdx (m : Mip) (idx value : UInt32) :
    m.CachesOnly (m.setHeadLEDIdx idx value).1 := by
  unfold setHeadLEDIdx
  split_ifs <;> exact .head m _

/-- A call writes nothing but the remembered request and the cached LED values. -/
theorem cachesOnly_of_perform {c : Call} (h : m.perform c = .ok (m', orders)) :
    m.CachesOnly m' := by
  have plain {r : Mip × List Order} (frame : m.CachesOnly r.1)
      (done : (Except.ok r : Except Fault (Mip × List Order)) = .ok (m', orders)) :
      m.CachesOnly m' := by
    obtain rfl := Except.ok.inj done
    exact frame
  cases c with
  | distanceDrive d a => exact cachesOnly_distanceDrive h
  | timeDrive speed t => exact cachesOnly_timeDrive h
  | angleDrive a speed => exact cachesOnly_angleDrive h
  | continuousDrive v w force => exact cachesOnly_continuousDrive h
  | continuousDriveMetric v w =>
    obtain ⟨ticks, -, h⟩ := bind_eq_ok.mp h
    exact cachesOnly_continuousDrive h
  | setChestLED r g b => exact plain (.chest m _) h
  | setChestLEDFlash r g b on off => exact cachesOnly_setChestLEDFlash h
  | setChestLEDStruct l =>
    rw [perform, setChestLEDStruct] at h
    split_ifs at h
    · exact cachesOnly_setChestLEDFlash h
    · exact plain (.chest m _) h
  | setHeadLED l1 l2 l3 l4 => exact plain (.head m _) h
  | setHeadLEDIdx idx value => exact plain (cachesOnly_setHeadLEDIdx m idx value) h
  | setHeadLEDStruct l => exact plain (.head m _) h
  | playSound | setGameMode | requestGameMode | stop | requestBatteryVoltage | requestStatus | up
  | requestWeightUpdate | requestChestLED | requestHeadLED | requestOdometerReading
  | setGestureOrRadarMode | requestGestureOrRadarMode | requestSoftwareVersion
  | requestHardwareVersion | setVolume | requestVolume =>
    exact plain (.refl m) h

end Frame

end Mip

/-- The cached values are written by setters too. -/
def Field.Cached (f : Field) : Prop := f = .chestLedCached ∨ f = .headLedCached

/-- A field that no setter writes is left alone by every call. -/
theorem sensors_of_perform {m m' : Mip} {c : Call} {orders : List Order} {f : Field}
    (h : m.perform c = .ok (m', orders)) (own : ¬ f.Cached) : f.get m' = f.get m := by
  obtain ⟨v, w, chest, head, rfl⟩ := Mip.cachesOnly_of_perform h
  cases f with
  | chestLedCached => exact absurd (.inl rfl) own
  | headLedCached => exact absurd (.inr rfl) own
  | _ => rfl

end LibMip
