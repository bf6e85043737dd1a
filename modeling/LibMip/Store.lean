import LibMip.State

/-!
# Storing a notification

`Mip::store_results`: the branch is chosen by the command and by the number of values, which is
counted in an `unsigned int`; the fields of that branch are written, and
`notification_post_hook` is invoked. Any other pair is dropped. The hook is virtual and does
nothing by default, so the model records its invocations next to the new object. Products that
may leave the range of `int` wrap.
-/

namespace LibMip

open CNum

/-- The arguments of a call of `store_results` or of the hook. -/
structure Notification where
  cmd : MipCommand
  values : List Int
  deriving DecidableEq, Repr

/-- `unsigned int nvalues = values.size()`. -/
def nvalues (values : List Int) : Nat := values.length % 4294967296

theorem nvalues_of_lt {v : List Int} (h : v.length < 4294967296) : nvalues v = v.length :=
  Nat.mod_eq_of_lt h

/-- An `int` printed with `setw(2)` and `setfill('0')`. -/
def pad2 (n : Int) : String := "".pushn '0' (2 - (toString n).length) ++ toString n

/-- The odometer sum, operation by operation, before it is widened to `double`. -/
def odometerSum (v : List Int) : Int :=
  wrap32 (wrap32 (wrap32 (v[3]! + wrap32 (255 * v[2]!)) + wrap32 (255 * 255 * v[1]!))
    + wrap32 (255 * 255 * 255 * v[0]!))

def odometerMetres (v : List Int) : ℚ := (odometerSum v : ℚ) / 48.5 * 0.01

/-- `0x4D` = 77 stands for 4.0 V and `0x7C` = 124 for 6.4 V. -/
def batteryVolts (value : Int) : ℚ := (4.0 : ℚ) + (wrap32 (value - 77) : ℚ) * 2.4 / 47

/-- `0xD3` = 211 to `0xFF` = 255 stand for a negative angle; five degrees when not moving. -/
def weightDegrees (value : Int) : Int :=
  wrap32 ((if value < 100 then value else value - 256) + 5)

namespace Mip

/-! ## The branches, each with the fields it writes -/

def putGameMode (m : Mip) (v : List Int) : Mip := { m with gameMode := v[0]! }

def putStatus (m : Mip) (v : List Int) : Mip :=
  { m with batteryVoltage := batteryVolts v[0]!, status := v[1]! }

def putWeight (m : Mip) (v : List Int) : Mip := { m with weight := weightDegrees v[0]! }

/-- The cached value follows the notified one. -/
def putChestLed (m : Mip) (v : List Int) : Mip :=
  let led : ChestLed := ⟨v[0]!, v[1]!, v[2]!, v[3]! * 20E-3, v[4]! * 20E-3⟩
  { m with chestLed := led, chestLedCached := led }

/-- The cached value follows the notified one. -/
def putHeadLed (m : Mip) (v : List Int) : Mip :=
  let led : HeadLed := ⟨v[0]!, v[1]!, v[2]!, v[3]!⟩
  { m with headLed := led, headLedCached := led }

def putOdometer (m : Mip) (v : List Int) : Mip := { m with odometerReadingM := odometerMetres v }

def putGesture (m : Mip) (v : List Int) : Mip := { m with gestureDetect := v[0]! }

def putGestureOrRadarMode (m : Mip) (v : List Int) : Mip := { m with gestureOrRadarMode := v[0]! }

def putRadarResponse (m : Mip) (v : List Int) : Mip := { m with radarResponse := v[0]! }

def putShake (m : Mip) (v : List Int) : Mip := { m with shakeDetected := v[0]! }

/-- Year, month, day and version of the day. -/
def putSoftwareVersion (m : Mip) (v : List Int) : Mip :=
  { m with softwareVersion :=
      "20" ++ pad2 v[0]! ++ "/" ++ pad2 v[1]! ++ "/" ++ pad2 v[2]! ++ "-" ++ pad2 v[3]! }

/-- Voice chip and hardware. -/
def putHardwareVersion (m : Mip) (v : List Int) : Mip :=
  { m with hardwareVersion := pad2 v[0]! ++ "-" ++ pad2 v[1]! }

def putVolume (m : Mip) (v : List Int) : Mip := { m with volume := unsignedOfInt v[0]! }

/-- The chain of tests; `none` is the last `else`, which returns before the hook. -/
def branch (cmd : MipCommand) (nvalues : Nat) : Option (Mip → List Int → Mip) :=
  if cmd = cmdGetCurrentMipGameMode ∧ nvalues = 1 then some putGameMode
  else if cmd = cmdMipStatus ∧ nvalues = 2 then some putStatus
  else if cmd = cmdRequestWeightUpdate ∧ nvalues = 1 then some putWeight
  else if cmd = cmdChestLed ∧ nvalues = 5 then some putChestLed
  else if cmd = cmdHeadLed ∧ nvalues = 4 then some putHeadLed
  else if cmd = cmdOdometerReading ∧ nvalues = 4 then some putOdometer
  else if cmd = cmdGestureDetect ∧ nvalues = 1 then some putGesture
  else if cmd = cmdRadarModeStatus ∧ nvalues = 1 then some putGestureOrRadarMode
  else if cmd = cmdRadarResponse ∧ nvalues = 1 then some putRadarResponse
  else if cmd = cmdShakeDetected ∧ nvalues = 1 then some putShake
  else if cmd = cmdMipSoftwareVersion ∧ nvalues = 4 then some putSoftwareVersion
  else if cmd = cmdMipHardwareInfo ∧ nvalues = 2 then some putHardwareVersion
  else if cmd = cmdMipVolume ∧ nvalues = 1 then some putVolume
  else none

/-- `store_results`, with the invocations of `notification_post_hook`. -/
def storeResults (m : Mip) (cmd : MipCommand) (values : List Int) : Mip × List Notification :=
  match branch cmd (nvalues values) with
  | some put => (put m values, [⟨cmd, values⟩])
  | none => (m, [])

/-- The commands that have a branch, each with the number of values it expects. -/
def accepted : List (MipCommand × Nat) :=
  [(cmdGetCurrentMipGameMode, 1), (cmdMipStatus, 2), (cmdRequestWeightUpdate, 1),
    (cmdChestLed, 5), (cmdHeadLed, 4), (cmdOdometerReading, 4), (cmdGestureDetect, 1),
    (cmdRadarModeStatus, 1), (cmdRadarResponse, 1), (cmdShakeDetected, 1),
    (cmdMipSoftwareVersion, 4), (cmdMipHardwareInfo, 2), (cmdMipVolume, 1)]

private theorem isSome_ite_some {α : Type*} (p : Prop) [Decidable p] (x : α) (y : Option α) :
    (if p then some x else y).isSome = true ↔ p ∨ y.isSome = true := by
  by_cases h : p <;> simp [h]

/-- What each branch satisfies, the branch taken satisfies. -/
theorem ite_some_forall {α : Type*} {p : Prop} [Decidable p] {x : α} {y : Option α}
    {P : α → Prop} (hx : P x) (hy : ∀ z, y = some z → P z) :
    ∀ z, (if p then some x else y) = some z → P z := by
  intro z h
  by_cases hp : p
  · rw [if_pos hp] at h
    exact Option.some.inj h ▸ hx
  · rw [if_neg hp] at h
    exact hy z h

theorem branch_isSome (cmd : MipCommand) (n : Nat) :
    (branch cmd n).isSome ↔ (cmd, n) ∈ accepted := by
  simp only [branch, isSome_ite_some, accepted, List.mem_cons, Prod.mk.injEq,
    List.not_mem_nil, Option.isSome_none, Bool.false_eq_true, or_false]

/-- A rejected pair changes nothing and does not reach the hook. -/
theorem storeResults_of_not_mem {m : Mip} {cmd : MipCommand} {v : List Int}
    (h : (cmd, nvalues v) ∉ accepted) : m.storeResults cmd v = (m, []) := by
  have hn : branch cmd (nvalues v) = none := by
    rwa [← branch_isSome, Option.not_isSome_iff_eq_none] at h
  simp [storeResults, hn]

/-- An accepted pair reaches the hook exactly once. -/
theorem storeResults_hook {m : Mip} {cmd : MipCommand} {v : List Int}
    (h : (cmd, nvalues v) ∈ accepted) : (m.storeResults cmd v).2 = [⟨cmd, v⟩] := by
  obtain ⟨put, hp⟩ := Option.isSome_iff_exists.mp ((branch_isSome cmd (nvalues v)).mpr h)
  simp [storeResults, hp]

/-- Accepted commands are bytes. -/
theorem mem_accepted_range {cmd : MipCommand} {n : Nat} (h : (cmd, n) ∈ accepted) :
    0 ≤ cmd ∧ cmd ≤ 255 ∧ 1 ≤ n ∧ n ≤ 5 := by
  simp only [accepted, List.mem_cons, Prod.mk.injEq, List.not_mem_nil, or_false] at h
  rcases h with h | h | h | h | h | h | h | h | h | h | h | h | h <;>
    obtain ⟨rfl, rfl⟩ := h <;> decide

end Mip

end LibMip
