import Mathlib.Init

/-!
# The command table

The codes of `mipcommands.h` that the class sends or understands. `MipCommand` is an `int`
there, so a code read from a notification may be one that no name stands for. A setter, the request
for the same attribute and the notification that answers it are told apart by the code alone,
and `0x0C` is both an order (gesture or radar mode) and a notification (radar response).
-/

namespace LibMip

abbrev MipCommand := Int

@[simp] def cmdPlaySound : MipCommand := 0x06
@[simp] def cmdDistanceDrive : MipCommand := 0x70
@[simp] def cmdDriveForwardWithTime : MipCommand := 0x71
@[simp] def cmdDriveBackwardWithTime : MipCommand := 0x72
@[simp] def cmdTurnLeftByAngle : MipCommand := 0x73
@[simp] def cmdTurnRightByAngle : MipCommand := 0x74
@[simp] def cmdContinuousDrive : MipCommand := 0x78
@[simp] def cmdSetGameMode : MipCommand := 0x76
@[simp] def cmdGetCurrentMipGameMode : MipCommand := 0x82
@[simp] def cmdStop : MipCommand := 0x77
@[simp] def cmdMipStatus : MipCommand := 0x79
@[simp] def cmdMipGetUp : MipCommand := 0x23
@[simp] def cmdRequestWeightUpdate : MipCommand := 0x81
@[simp] def cmdChestLed : MipCommand := 0x83
@[simp] def cmdSetChestLed : MipCommand := 0x84
@[simp] def cmdFlashChestLed : MipCommand := 0x89
@[simp] def cmdSetHeadLed : MipCommand := 0x8A
@[simp] def cmdHeadLed : MipCommand := 0x8B
@[simp] def cmdOdometerReading : MipCommand := 0x85
@[simp] def cmdGestureDetect : MipCommand := 0x0A
@[simp] def cmdSetGestureOrRadarMode : MipCommand := 0x0C
@[simp] def cmdRadarModeStatus : MipCommand := 0x0D
@[simp] def cmdRadarResponse : MipCommand := 0x0C
@[simp] def cmdShakeDetected : MipCommand := 0x1A
@[simp] def cmdMipSoftwareVersion : MipCommand := 0x14
@[simp] def cmdMipHardwareInfo : MipCommand := 0x19
@[simp] def cmdSetMipVolume : MipCommand := 0x15
@[simp] def cmdGetMipVolume : MipCommand := 0x16
@[simp] def cmdMipVolume : MipCommand := 0x16

/-- `ERROR`: the value of a field that no notification has set. -/
@[simp] def error : Int := -100

end LibMip
