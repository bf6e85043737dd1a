import LibMip.Store
import LibMip.Foundation.Registers

/-!
# Sensor state after a sequence of notifications

Each branch of `store_results` writes fields that no other branch writes, from its values alone.
So the sensor fields are registers, each owned by one command, and after any sequence of pairs a
field holds what the last accepted pair of its command gave it. The number of values is counted
in an `unsigned int`, so it is taken modulo 2^32.
-/

namespace LibMip

open CNum

/-- The fields that `store_results` writes. -/
inductive Field where
  | gameMode
  | batteryVoltage
  | status
  | weight
  | chestLed
  | chestLedCached
  | headLed
  | headLedCached
  | odometerReadingM
  | gestureDetect
  | gestureOrRadarMode
  | radarResponse
  | shakeDetected
  | softwareVersion
  | hardwareVersion
  | volume
  deriving DecidableEq

namespace Field

abbrev Value : Field → Type
  | batteryVoltage | odometerReadingM => ℚ
  | chestLed | chestLedCached => ChestLed
  | headLed | headLedCached => HeadLed
  | softwareVersion | hardwareVersion => String
  | volume => UInt32
  | gameMode | status | weight | gestureDetect | gestureOrRadarMode | radarResponse
  | shakeDetected => Int

/-- The command that owns the field, with the number of values it expects. -/
def owner : Field → MipCommand × Nat
  | gameMode => (cmdGetCurrentMipGameMode, 1)
  | batteryVoltage | status => (cmdMipStatus, 2)
  | weight => (cmdRequestWeightUpdate, 1)
  | chestLed | chestLedCached => (cmdChestLed, 5)
  | headLed | headLedCached => (cmdHeadLed, 4)
  | odometerReadingM => (cmdOdometerReading, 4)
  | gestureDetect => (cmdGestureDetect, 1)
  | gestureOrRadarMode => (cmdRadarModeStatus, 1)
  | radarResponse => (cmdRadarResponse, 1)
  | shakeDetected => (cmdShakeDetected, 1)
  | softwareVersion => (cmdMipSoftwareVersion, 4)
  | hardwareVersion => (cmdMipHardwareInfo, 2)
  | volume => (cmdMipVolume, 1)

def get (m : Mip) : (f : Field) → f.Value
  | gameMode => m.gameMode
  | batteryVoltage => m.batteryVoltage
  | status => m.status
  | weight => m.weight
  | chestLed => m.chestLed
  | chestLedCached => m.chestLedCached
  | headLed => m.headLed
  | headLedCached => m.headLedCached
  | odometerReadingM => m.odometerReadingM
  | gestureDetect => m.gestureDetect
  | gestureOrRadarMode => m.gestureOrRadarMode
  | radarResponse => m.radarResponse
  | shakeDetected => m.shakeDetected
  | softwareVersion => m.softwareVersion
  | hardwareVersion => m.hardwareVersion
  | volume => m.volume

/-- The value computed from the values of a notification. -/
def compute (v : List Int) : (f : Field) → f.Value
  | gameMode | gestureDetect | gestureOrRadarMode | radarResponse | shakeDetected => v[0]!
  | batteryVoltage => batteryVolts v[0]!
  | status => v[1]!
  | weight => weightDegrees v[0]!
  | chestLed | chestLedCached => ⟨v[0]!, v[1]!, v[2]!, v[3]! * 20E-3, v[4]! * 20E-3⟩
  | headLed | headLedCached => ⟨v[0]!, v[1]!, v[2]!, v[3]!⟩
  | odometerReadingM => odometerMetres v
  | softwareVersion =>
    "20" ++ pad2 v[0]! ++ "/" ++ pad2 v[1]! ++ "/" ++ pad2 v[2]! ++ "-" ++ pad2 v[3]!
  | hardwareVersion => pad2 v[0]! ++ "-" ++ pad2 v[1]!
  | volume => unsignedOfInt v[0]!

theorem owner_mem_accepted (f : Field) : f.owner ∈ Mip.accepted := by
  cases f <;> decide

end Field

/-- The command and the number of values counted. -/
def Notification.key (n : Notification) : MipCommand × Nat := (n.cmd, nvalues n.values)

/-- What no notification writes. -/
structure Mip.Core where
  attrib : Option Nat
  nattrib : UInt32
  isConnected : Bool
  handleRead : Int
  handleWrite : Int
  lastVTicks : Int
  lastWTicks : Int

namespace Mip

def core (m : Mip) : Core :=
  ⟨m.attrib, m.nattrib, m.isConnected, m.handleRead, m.handleWrite, m.lastVTicks, m.lastWTicks⟩

def store (m : Mip) (n : Notification) : Mip := (m.storeResults n.cmd n.values).1

def storeAll (m : Mip) (ns : List Notification) : Mip := ns.foldl store m

/-- The thirteen branches: each writes the fields of its command and no other. -/
theorem branch_fields {c : MipCommand × Nat} (h : c ∈ accepted) (m : Mip) (v : List Int) :
    ∃ put, branch c.1 c.2 = some put ∧ (put m v).core = m.core ∧
      ∀ f : Field, f.get (put m v) = if c = f.owner then f.compute v else f.get m := by
  simp only [accepted, List.mem_cons, List.not_mem_nil, or_false] at h
  rcases h with rfl | rfl | rfl | rfl | rfl | rfl | rfl | rfl | rfl | rfl | rfl | rfl | rfl <;>
    exact ⟨_, rfl, rfl, fun f => by cases f <;> rfl⟩

theorem store_of_not_accepted {m : Mip} {n : Notification} (h : n.key ∉ accepted) :
    m.store n = m := by
  rw [store, storeResults_of_not_mem h]

theorem store_fields (m : Mip) (n : Notification) :
    (m.store n).core = m.core ∧
      ∀ f : Field, f.get (m.store n) = if n.key = f.owner then f.compute n.values else f.get m := by
  by_cases h : n.key ∈ accepted
  · obtain ⟨put, taken, frame, fields⟩ := branch_fields h m n.values
    have stored : m.store n = put m n.values := by
      simp only [Notification.key] at taken
      simp only [store, storeResults, taken]
    rw [stored]
    exact ⟨frame, fields⟩
  · rw [store_of_not_accepted h]
    refine ⟨rfl, fun f => ?_⟩
    rw [if_neg]
    intro same
    exact h (same ▸ f.owner_mem_accepted)

/-- An object is its sensor fields and the rest. -/
theorem ext_fields {m k : Mip} (core : m.core = k.core)
    (fields : ∀ f : Field, f.get m = f.get k) : m = k := by
  obtain ⟨⟩ := m
  obtain ⟨⟩ := k
  simp only [Mip.core, Core.mk.injEq] at core
  simp only [Mip.mk.injEq, core, true_and]
  exact ⟨fields .volume, fields .gameMode, fields .batteryVoltage, fields .status, fields .weight,
    fields .softwareVersion, fields .hardwareVersion, fields .chestLed, fields .chestLedCached,
    fields .headLed, fields .headLedCached, fields .odometerReadingM, fields .gestureDetect,
    fields .gestureOrRadarMode, fields .radarResponse, fields .shakeDetected⟩

end Mip

/-- The sensor fields as registers. -/
def sensors : Registers.File Mip Notification Field Mip.Core Field.Value where
  write := Mip.store
  owns n f := n.key = f.owner
  value f n := f.compute n.values
  read f m := f.get m
  frame := Mip.core
  read_write m n f := by simpa using (m.store_fields n).2 f
  frame_write m n := (m.store_fields n).1
  ext _ _ := Mip.ext_fields

/-! ## The hook -/

/-- `store_results` of a subclass that overrides the hook. The hook is called last, and may change
the object and what the subclass keeps. -/
def Mip.storeHooked {σ : Type*} (hook : Mip × σ → Notification → Mip × σ) (s : Mip × σ)
    (n : Notification) : Mip × σ :=
  match Mip.branch n.cmd (nvalues n.values) with
  | some put => hook (put s.1 n.values, s.2) n
  | none => s

/-- A hook that leaves the object alone and records what it was called with and what it saw. -/
def recordingHook (s : Mip × List (Mip × Notification)) (n : Notification) :
    Mip × List (Mip × Notification) :=
  (s.1, s.2 ++ [(s.1, n)])

/-- The object and the calls of the hook after a sequence of pairs. -/
def Mip.storeRecorded (m : Mip) (ns : List Notification) : Mip × List (Mip × Notification) :=
  ns.foldl (Mip.storeHooked recordingHook) (m, [])

theorem storeHooked_recordingHook (s : Mip × List (Mip × Notification)) (n : Notification) :
    Mip.storeHooked recordingHook s n =
      (s.1.store n, s.2 ++ if n.key ∈ Mip.accepted then [(s.1.store n, n)] else []) := by
  have known : (Mip.branch n.cmd (nvalues n.values)).isSome ↔ n.key ∈ Mip.accepted :=
    Mip.branch_isSome n.cmd (nvalues n.values)
  unfold Mip.storeHooked Mip.store Mip.storeResults
  cases hb : Mip.branch n.cmd (nvalues n.values) with
  | none =>
    rw [if_neg (by simpa [hb] using known)]
    simp
  | some put =>
    rw [if_pos (by simpa [hb] using known)]
    rfl

theorem storeRecorded_concat (m : Mip) (ns : List Notification) (n : Notification) :
    m.storeRecorded (ns ++ [n]) = Mip.storeHooked recordingHook (m.storeRecorded ns) n := by
  simp [Mip.storeRecorded]

theorem storeRecorded_fst (m : Mip) (ns : List Notification) :
    (m.storeRecorded ns).1 = m.storeAll ns := by
  induction ns using List.reverseRecOn with
  | nil => rfl
  | append_singleton ns n ih =>
    rw [storeRecorded_concat, storeHooked_recordingHook, ih]
    simp [Mip.storeAll]

/-- The calls are those of the accepted pairs, in order. -/
theorem storeRecorded_calls (m : Mip) (ns : List Notification) :
    (m.storeRecorded ns).2.map Prod.snd = ns.filter (·.key ∈ Mip.accepted) := by
  induction ns using List.reverseRecOn with
  | nil => rfl
  | append_singleton ns n ih =>
    rw [storeRecorded_concat, storeHooked_recordingHook, List.map_append, ih, List.filter_append]
    by_cases h : n.key ∈ Mip.accepted <;> simp [h]

/-- The pairs that are accepted for one command. -/
def acceptedFor (cmd : MipCommand) (ns : List Notification) : List Notification :=
  ns.filter fun n => n.key ∈ Mip.accepted ∧ n.cmd = cmd

/-- The last pair that writes a field is the last of those accepted for its command. -/
theorem lastWriter_congr {ns ks : List Notification}
    (h : ∀ cmd, acceptedFor cmd ns = acceptedFor cmd ks) (f : Field) :
    sensors.lastWriter ns f = sensors.lastWriter ks f := by
  have part (js : List Notification) : js.filter (sensors.owns · f) =
      (acceptedFor f.owner.1 js).filter (sensors.owns · f) := by
    rw [acceptedFor, List.filter_filter]
    congr 1
    funext n
    by_cases own : n.key = f.owner
    · have cmd : n.cmd = f.owner.1 := congrArg Prod.fst own
      simp [sensors, own, cmd, f.owner_mem_accepted]
    · simp [sensors, own]
  unfold Registers.File.lastWriter
  rw [part ns, part ks, h f.owner.1]

/-- What `store_results` makes of any sequence of pairs. -/
structure LastWriterWins (m : Mip) : Prop where
  field : ∀ (ns : List Notification) (f : Field), f.get (m.storeAll ns) =
    ((ns.filter (·.key = f.owner)).getLast?.map fun n => f.compute n.values).getD (f.get m)
  core : ∀ ns, (m.storeAll ns).core = m.core
  calls : ∀ ns, (m.storeRecorded ns).2.map Prod.snd = ns.filter (·.key ∈ Mip.accepted)
  rejected : ∀ ns n, n.key ∉ Mip.accepted → m.storeRecorded (ns ++ [n]) = m.storeRecorded ns
  accepted : ∀ ns n, n.key ∈ Mip.accepted → m.storeRecorded (ns ++ [n]) =
    (m.storeAll (ns ++ [n]), (m.storeRecorded ns).2 ++ [(m.storeAll (ns ++ [n]), n)])
  interleaved : ∀ ns ks, (∀ cmd, acceptedFor cmd ns = acceptedFor cmd ks) →
    m.storeAll ns = m.storeAll ks

/-- A field holds what the last accepted pair of its command gave it; a rejected pair does
nothing, and an accepted one calls the hook once, on the object with its fields updated; and
only the order among the accepted pairs of one command matters. -/
theorem lastWriterWins (m : Mip) : LastWriterWins m where
  field ns f := sensors.read_writeAll m ns f
  core ns := sensors.frame_writeAll m ns
  calls ns := storeRecorded_calls m ns
  rejected ns n unknown := by
    rw [storeRecorded_concat, storeHooked_recordingHook, if_neg unknown,
      Mip.store_of_not_accepted unknown, List.append_nil]
  accepted ns n known := by
    have stored : (m.storeRecorded ns).1.store n = m.storeAll (ns ++ [n]) := by
      simp [storeRecorded_fst, Mip.storeAll]
    rw [storeRecorded_concat, storeHooked_recordingHook, if_pos known, stored]
  interleaved ns ks same := sensors.writeAll_congr m (lastWriter_congr same)

/-- The count wraps: a list of any length congruent to one is taken for one value. -/
theorem storeResults_gameMode_replicate (m : Mip) {count : Nat} (mode : Int)
    (wraps : count % 4294967296 = 1) :
    m.storeResults cmdGetCurrentMipGameMode (List.replicate count mode) =
      ({ m with gameMode := mode },
        [⟨cmdGetCurrentMipGameMode, List.replicate count mode⟩]) := by
  have counted : nvalues (List.replicate count mode) = 1 := by
    rw [nvalues, List.length_replicate, wraps]
  obtain ⟨k, rfl⟩ : ∃ k, count = k + 1 := ⟨count - 1, by omega⟩
  simp only [Mip.storeResults, counted]
  rfl

/-- With 2^32 + 1 values, which is a wrong number, a game mode is stored. -/
theorem game_mode_with_too_many_values :
    (cmdGetCurrentMipGameMode, (List.replicate 4294967297 (5 : Int)).length) ∉ Mip.accepted ∧
      Mip.init.storeResults cmdGetCurrentMipGameMode (List.replicate 4294967297 5) =
        ({ Mip.init with gameMode := 5 },
          [⟨cmdGetCurrentMipGameMode, List.replicate 4294967297 5⟩]) ∧
      Mip.init.gameMode = -100 := by
  refine ⟨?_, storeResults_gameMode_replicate Mip.init 5 (by norm_num), rfl⟩
  rw [List.length_replicate]
  decide

end LibMip
