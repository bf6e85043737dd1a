import LibMip.Calls
import LibMip.Notification.Decode
import LibMip.Foundation.Runs
import LibMip.Sensors.Odometer

/-!
# The marker of missing data

The constructor puts `ERROR`, which is -100, into the fields that notifications fill, and callers
take it for "no data yet". It lives in the same type as the readings. In a run of calls and
notifications, in any order, a getter returns it as long as no notification of its command has
been accepted and never after: each reading is computed from bytes that keep it away from the
marker, the odometer sum even where it wraps.
-/

namespace LibMip

open CNum Runs

/-! ## Runs -/

/-- The values are bytes within the ranges that `store_results` documents: the battery from 4.0 V
to 6.4 V, the weight from -45 to 45 degrees. -/
structure Notification.Documented (n : Notification) : Prop where
  bytes : ∀ v ∈ n.values, 0 ≤ v ∧ v ≤ 255
  battery : n.key = (cmdMipStatus, 2) → 77 ≤ n.values[0]! ∧ n.values[0]! ≤ 124
  weight : n.key = (cmdRequestWeightUpdate, 1) → n.values[0]! ≤ 45 ∨ 211 ≤ n.values[0]!

/-- A PDU of any content, as long as what is read from it is documented. -/
abbrev HeardPdu :=
  { pdu : Pdu // ∀ calls, decode pdu = .ok calls → ∀ n ∈ calls, n.Documented }

inductive Act where
  | call (c : Call)
  | heard (pdu : HeardPdu)

/-- An act that faults ends the run. -/
def sensing : Machine Mip Act where
  init := Mip.init
  step m
    | .call c => (m.perform c).toOption.map Prod.fst
    | .heard pdu => (m.eventsHandler pdu).toOption.map Prod.fst

/-- The calls of `store_results` that an act makes. -/
def Act.notified : Act → List Notification
  | .call _ => []
  | .heard pdu => (decode pdu).toOption.getD []

def notified (h : List Act) : List Notification := h.flatMap Act.notified

/-- A notification with the command of the field and the number of values it takes. -/
def Heard (f : Field) (h : List Act) : Prop :=
  ∃ n ∈ notified h, n.cmd = f.owner.1 ∧ n.values.length = f.owner.2

/-! ## The getters -/

inductive Gauge where
  | gameMode
  | status
  | batteryVoltage
  | batteryPercentage
  | weight
  | odometer
  | gesture
  | gestureOrRadarMode
  | radarResponse
  | volume

namespace Gauge

/-- The field a getter reads. -/
def field : Gauge → Field
  | gameMode => .gameMode
  | status => .status
  | batteryVoltage | batteryPercentage => .batteryVoltage
  | weight => .weight
  | odometer => .odometerReadingM
  | gesture => .gestureDetect
  | gestureOrRadarMode => .gestureOrRadarMode
  | radarResponse => .radarResponse
  | volume => .volume

/-- What a getter returns, as a number. -/
def read (m : Mip) : Gauge → Except Fault ℚ
  | gameMode => .ok m.getGameMode
  | status => .ok m.getStatus
  | batteryVoltage => .ok m.getBatteryVoltage
  | batteryPercentage => m.getBatteryPercentage.map fun percent => (percent : ℚ)
  | weight => .ok m.getWeightUpdate
  | odometer => .ok m.getOdometerReading
  | gesture => .ok m.getGestureDetect
  | gestureOrRadarMode => .ok m.getGestureOrRadarMode
  | radarResponse => .ok m.getRadarResponse
  | volume => .ok m.getVolume.toNat

/-- `ERROR`, converted to `unsigned int` for the volume. -/
def marker : Gauge → ℚ
  | volume => (unsignedOfInt error).toNat
  | _ => error

end Gauge

/-! ## What a run leaves in a field -/

section Run

variable {m m' s : Mip} {f : Field} {h : List Act}

/-- The handler stores what it decodes. -/
theorem eventsHandler_toOption (m : Mip) (pdu : Pdu) :
    (m.eventsHandler pdu).toOption.map Prod.fst = (decode pdu).toOption.map m.storeAll := by
  have stored (calls : List Notification) (r : Mip × List Notification) :
      (calls.foldl (fun r c =>
        let s := r.1.storeResults c.cmd c.values
        (s.1, r.2 ++ s.2)) r).1 = r.1.storeAll calls := by
    induction calls generalizing r with
    | nil => rfl
    | cons c calls ih => exact ih _
  cases hd : decode pdu with
  | error e => simp [Mip.eventsHandler, hd, bind, Except.bind, Except.toOption]
  | ok calls =>
    simp [Mip.eventsHandler, hd, bind, Except.bind, Except.toOption, stored]

/-- What a field holds after a sequence of notifications depends on what it held before only. -/
theorem get_storeAll_congr (same : f.get m = f.get m') (ns : List Notification) :
    f.get (m.storeAll ns) = f.get (m'.storeAll ns) := by
  have left := sensors.read_writeAll m ns f
  have right := sensors.read_writeAll m' ns f
  exact left.trans ((congrArg _ same).trans right.symm)

theorem storeAll_append (m : Mip) (ns ks : List Notification) :
    m.storeAll (ns ++ ks) = (m.storeAll ns).storeAll ks :=
  List.foldl_append

/-- On a field that no setter writes, an act is its notifications. -/
theorem get_of_step {a : Act} (own : ¬ f.Cached) (step : sensing.step m a = some m') :
    f.get m' = f.get (m.storeAll a.notified) := by
  cases a with
  | call c =>
    obtain ⟨r, done, rfl⟩ := Option.map_eq_some_iff.mp step
    cases performed : m.perform c with
    | error e => simp [performed, Except.toOption] at done
    | ok r' =>
      obtain rfl : r' = r := by simpa [performed, Except.toOption] using done
      exact sensors_of_perform performed own
  | heard pdu =>
    have step : (decode pdu.val).toOption.map m.storeAll = some m' :=
      (eventsHandler_toOption m pdu.val).symm.trans step
    obtain ⟨calls, decoded, rfl⟩ := Option.map_eq_some_iff.mp step
    rw [Act.notified, decoded]
    rfl

/-- So is a run. -/
theorem get_of_run (own : ¬ f.Cached) (hr : sensing.run h = some s) :
    f.get s = f.get (Mip.init.storeAll (notified h)) := by
  refine sensing.run_invariant (I := fun h s => f.get s = f.get (Mip.init.storeAll (notified h)))
    rfl ?_ hr
  intro h s a t _ ih step
  have all : notified (h ++ [a]) = notified h ++ a.notified := by simp [notified]
  rw [get_of_step own step, all, storeAll_append]
  exact get_storeAll_congr ih _

end Run

/-! ## What is heard -/

theorem readValues_length {hexAns : List UInt8} {i n : Nat} {values : List Int}
    (h : readValues hexAns i n = .ok values) : values.length = n := by
  induction n generalizing i values with
  | zero =>
    obtain rfl := Except.ok.inj h
    rfl
  | succ n ih =>
    obtain ⟨charPair, -, h⟩ := bind_eq_ok.mp h
    obtain ⟨value, -, h⟩ := bind_eq_ok.mp h
    obtain ⟨rest, hrest, h⟩ := bind_eq_ok.mp h
    obtain rfl := Except.ok.inj h
    rw [List.length_cons, ih hrest]

/-- The handler counts its values in an `unsigned int` itself. -/
theorem nvalues_of_decode {pdu : Pdu} {calls : List Notification} (h : decode pdu = .ok calls) :
    ∀ n ∈ calls, nvalues n.values = n.values.length := by
  intro n hn
  unfold decode at h
  obtain ⟨handle, -, h⟩ := bind_eq_ok.mp h
  split at h
  · cases h
  · split_ifs at h with event
    · obtain ⟨hexAns, -, h⟩ := bind_eq_ok.mp h
      obtain ⟨call, answer, h⟩ := bind_eq_ok.mp h
      obtain rfl := Except.ok.inj h
      obtain rfl := List.mem_singleton.mp hn
      obtain ⟨charPair, -, answer⟩ := bind_eq_ok.mp answer
      obtain ⟨cmd, -, answer⟩ := bind_eq_ok.mp answer
      obtain ⟨values, hvalues, answer⟩ := bind_eq_ok.mp answer
      obtain rfl := Except.ok.inj answer
      apply nvalues_of_lt
      rw [readValues_length hvalues, npairs]
      exact Nat.mod_lt _ (by decide)
    · obtain rfl := Except.ok.inj h
      simp at hn

theorem mem_notified {h : List Act} {n : Notification} (hn : n ∈ notified h) :
    n.Documented ∧ nvalues n.values = n.values.length := by
  obtain ⟨a, -, hn⟩ := List.mem_flatMap.mp hn
  cases a with
  | call c => simp [Act.notified] at hn
  | heard pdu =>
    cases decoded : decode pdu.val with
    | error e => simp [Act.notified, decoded, Except.toOption] at hn
    | ok calls =>
      have hn : n ∈ calls := by simpa [Act.notified, decoded, Except.toOption] using hn
      exact ⟨pdu.2 calls decoded n hn, nvalues_of_decode decoded n hn⟩

/-- A field holds what a notification of its command gave it, or what the constructor did. -/
theorem get_of_run_cases {f : Field} {h : List Act} {s : Mip} (own : ¬ f.Cached)
    (hr : sensing.run h = some s) :
    ¬ Heard f h ∧ f.get s = f.get Mip.init ∨
      Heard f h ∧ ∃ n : Notification, n.Documented ∧ n.key = f.owner ∧
        f.get s = f.compute n.values := by
  have held := (get_of_run own hr).trans (sensors.read_writeAll Mip.init (notified h) f)
  cases last : sensors.lastWriter (notified h) f with
  | none =>
    rw [last] at held
    refine .inl ⟨?_, held⟩
    rintro ⟨n, hn, cmd, count⟩
    have counted := (mem_notified hn).2
    have silent := List.getLast?_eq_none_iff.mp last
    have own : n ∈ (notified h).filter (sensors.owns · f) := by
      rw [List.mem_filter]
      refine ⟨hn, ?_⟩
      simp [sensors, Notification.key, cmd, counted, count]
    rw [silent] at own
    simp at own
  | some n =>
    rw [last] at held
    have own := List.mem_of_getLast? last
    obtain ⟨hn, key⟩ := List.mem_filter.mp own
    have key : n.key = f.owner := by simpa [sensors] using key
    obtain ⟨documented, counted⟩ := mem_notified hn
    refine .inr ⟨⟨n, hn, congrArg Prod.fst key, ?_⟩, n, documented, key, held⟩
    rw [← counted]
    exact congrArg Prod.snd key

/-! ## The readings -/

namespace Notification.Documented

variable {n : Notification}

theorem byte (documented : n.Documented) {i : Nat} (counted : i < nvalues n.values) :
    0 ≤ n.values[i]! ∧ n.values[i]! ≤ 255 := by
  have lt : i < n.values.length := counted.trans_le (Nat.mod_le _ _)
  rw [getElem!_pos n.values i lt]
  exact documented.bytes _ (List.getElem_mem lt)

theorem batteryVolts_range (documented : n.Documented) (key : n.key = (cmdMipStatus, 2)) :
    (4 : ℚ) ≤ batteryVolts n.values[0]! ∧ batteryVolts n.values[0]! ≤ 6.4 := by
  obtain ⟨lo, hi⟩ := documented.battery key
  have lo' : (77 : ℚ) ≤ (n.values[0]! : Int) := by exact_mod_cast lo
  have hi' : ((n.values[0]! : Int) : ℚ) ≤ 124 := by exact_mod_cast hi
  rw [batteryVolts, wrap32_of_mem ⟨by omega, by omega⟩]
  push_cast
  constructor <;> linarith

theorem weightDegrees_range (documented : n.Documented)
    (key : n.key = (cmdRequestWeightUpdate, 1)) :
    -40 ≤ weightDegrees n.values[0]! ∧ weightDegrees n.values[0]! ≤ 50 := by
  have range := documented.weight key
  have count : nvalues n.values = 1 := congrArg Prod.snd key
  have byte := documented.byte (i := 0) (by omega)
  unfold weightDegrees
  split_ifs <;> rw [wrap32_of_mem] <;> constructor <;> omega

/-- The largest sum of four bytes stays below every number that wraps to the marker. -/
theorem odometerMetres_ne (documented : n.Documented) (key : n.key = (cmdOdometerReading, 4)) :
    odometerMetres n.values ≠ -100 := by
  have count : nvalues n.values = 4 := congrArg Prod.snd key
  have b1 := documented.byte (i := 0) (by omega)
  have b2 := documented.byte (i := 1) (by omega)
  have b3 := documented.byte (i := 2) (by omega)
  have b4 := documented.byte (i := 3) (by omega)
  have sum : odometerSum n.values = wrap32 (n.values[3]! + 255 * n.values[2]! +
      65025 * n.values[1]! + 16581375 * n.values[0]!) :=
    odometerSum_eq_wrap n.values[0]! n.values[1]! n.values[2]! n.values[3]!
  have apart : odometerSum n.values ≠ -485000 := by
    rw [sum, wrap32, Int.bmod_def, Int.emod_eq_of_lt (by omega) (by omega)]
    split_ifs <;> omega
  intro collision
  rw [odometerMetres, unit_metres, div_eq_iff (by norm_num)] at collision
  apply apart
  have scaled : (odometerSum n.values : ℚ) = (-485000 : Int) := by
    push_cast
    linarith
  exact_mod_cast scaled

end Notification.Documented

namespace Gauge

variable {s : Mip}

/-- What the constructor leaves is the marker, for every getter. -/
theorem read_of_init (g : Gauge) (same : g.field.get s = g.field.get Mip.init) :
    g.read s = .ok g.marker := by
  cases g with
  | batteryPercentage =>
    have voltage : s.getBatteryVoltage = (error : Int) := same
    have low : ((error : Int) : ℚ) < 0 := by norm_num
    simp only [read, Mip.getBatteryPercentage, voltage, if_pos low]
    rw [toInt_of_mem (by rw [trunc_intCast]; decide), trunc_intCast]
    rfl
  | batteryVoltage | odometer => exact congrArg Except.ok same
  | volume => exact congrArg (fun u : UInt32 => Except.ok (u.toNat : ℚ)) same
  | gameMode | status | weight | gesture | gestureOrRadarMode | radarResponse =>
    exact congrArg (fun i : Int => Except.ok (i : ℚ)) same

/-- An `int` above -100 is not the marker. -/
theorem exists_reading {i j : Int} (held : i = j) (above : -100 < j) :
    ∃ x, (Except.ok (i : ℚ) : Except Fault ℚ) = .ok x ∧ x ≠ (error : Int) := by
  refine ⟨i, rfl, fun collision => ?_⟩
  have same : i = error := by exact_mod_cast collision
  simp only [error] at same
  omega

theorem percent_range {volts : ℚ} (lo : 4 ≤ volts) (hi : volts ≤ 6.4) :
    0 ≤ trunc ((volts - 4.0) / 2.4 * 100) ∧ trunc ((volts - 4.0) / 2.4 * 100) ≤ 100 := by
  rw [div_mul_eq_mul_div]
  constructor
  · apply le_trunc
    rw [le_div_iff₀ (by norm_num)]
    push_cast
    linarith
  · apply trunc_le
    rw [div_le_iff₀ (by norm_num)]
    push_cast
    linarith

theorem getBatteryPercentage_eq (lo : 4 ≤ s.getBatteryVoltage) (hi : s.getBatteryVoltage ≤ 6.4) :
    s.getBatteryPercentage = .ok (trunc ((s.getBatteryVoltage - 4.0) / 2.4 * 100)) := by
  obtain ⟨least, most⟩ := percent_range lo hi
  have high : ¬ s.getBatteryVoltage < 0 := by linarith
  simp only [Mip.getBatteryPercentage, if_neg high]
  exact toInt_of_mem ⟨by omega, by omega⟩

/-- The marker of the volume is a large number. -/
theorem unsignedOfInt_ne_error {x : Int} (h : InByte x) :
    (unsignedOfInt x).toNat ≠ (unsignedOfInt error).toNat := by
  have stored := toNat_unsignedOfInt x
  have marked := toNat_unsignedOfInt error
  simp only [error] at marked ⊢
  omega

/-- No documented notification makes a getter return the marker. -/
theorem read_of_heard (g : Gauge) {n : Notification} (documented : n.Documented)
    (key : n.key = g.field.owner) (held : g.field.get s = g.field.compute n.values) :
    ∃ x, g.read s = .ok x ∧ x ≠ g.marker := by
  have count : nvalues n.values = g.field.owner.2 := congrArg Prod.snd key
  cases g with
  | batteryVoltage =>
    obtain ⟨lo, -⟩ := documented.batteryVolts_range key
    refine ⟨_, congrArg Except.ok held, fun collision => ?_⟩
    have marked : batteryVolts n.values[0]! = (error : Int) := collision
    rw [marked] at lo
    norm_num at lo
  | batteryPercentage =>
    obtain ⟨lo, hi⟩ := documented.batteryVolts_range key
    have voltage : s.getBatteryVoltage = batteryVolts n.values[0]! := held
    rw [← voltage] at lo hi
    have least := (percent_range lo hi).1
    rw [read, getBatteryPercentage_eq lo hi]
    exact exists_reading rfl (by omega)
  | weight =>
    have range := documented.weightDegrees_range key
    exact exists_reading (j := weightDegrees n.values[0]!) held (by omega)
  | odometer =>
    refine ⟨_, congrArg Except.ok held, fun collision => ?_⟩
    have marked : odometerMetres n.values = (error : Int) := collision
    exact documented.odometerMetres_ne key (by simpa using marked)
  | volume =>
    have byte := documented.byte (i := 0) (by rw [count]; decide)
    have held : s.getVolume = unsignedOfInt n.values[0]! := held
    refine ⟨s.getVolume.toNat, rfl, fun collision => ?_⟩
    have same : s.getVolume.toNat = (unsignedOfInt error).toNat := Nat.cast_injective collision
    exact unsignedOfInt_ne_error byte (held ▸ same)
  | status =>
    have byte := documented.byte (i := 1) (by rw [count]; decide)
    exact exists_reading (j := n.values[1]!) held (by omega)
  | gameMode | gesture | gestureOrRadarMode | radarResponse =>
    have byte := documented.byte (i := 0) (by rw [count]; decide)
    exact exists_reading (j := n.values[0]!) held (by omega)

theorem field_not_cached (g : Gauge) : ¬ g.field.Cached := by
  cases g <;> rintro (h | h) <;> cases h

end Gauge

/-- In every run each getter returns a value, and it is the marker exactly as long as no
notification of its command with the right number of values has come. -/
theorem marker_iff (h : List Act) (s : Mip) (hr : sensing.run h = some s) (g : Gauge) :
    (∃ x, g.read s = .ok x) ∧ (g.read s = .ok g.marker ↔ ¬ Heard g.field h) := by
  rcases get_of_run_cases g.field_not_cached hr with ⟨silent, same⟩ | ⟨spoken, n, doc, key, held⟩
  · have marked := g.read_of_init same
    exact ⟨⟨_, marked⟩, iff_of_true marked silent⟩
  · obtain ⟨x, hx, differs⟩ := g.read_of_heard doc key held
    refine ⟨⟨x, hx⟩, iff_of_false (fun marked => ?_) (not_not_intro spoken)⟩
    exact differs (Except.ok.inj (hx.symm.trans marked))

/-- The notification `8205`, game mode 5. -/
def gameModePdu : HeardPdu :=
  ⟨⟨[0x1B, 0x0E, 0x00, 0x38, 0x32, 0x30, 0x35], by decide⟩, by
    intro calls decoded n hn
    have reads : decode ⟨[0x1B, 0x0E, 0x00, 0x38, 0x32, 0x30, 0x35], by decide⟩ =
        .ok [⟨0x82, [5]⟩] := by decide +kernel
    obtain rfl := Except.ok.inj (reads.symm.trans decoded)
    obtain rfl := List.mem_singleton.mp hn
    exact ⟨by simp, fun key => absurd (congrArg Prod.fst key) (by decide),
      fun key => absurd (congrArg Prod.fst key) (by decide)⟩⟩

/-- After a request and its answer the game mode is there and the weight is not. -/
theorem marker_iff_game_mode :
    ∃ s, sensing.run [.call .requestGameMode, .heard gameModePdu] = some s ∧
      ((∃ x, Gauge.weight.read s = .ok x) ∧ (Gauge.weight.read s = .ok Gauge.weight.marker ↔
        ¬ Heard Gauge.weight.field [.call .requestGameMode, .heard gameModePdu])) :=
  have run : sensing.run [.call .requestGameMode, .heard gameModePdu] =
      some { Mip.init with gameMode := 5 } := by decide +kernel
  ⟨_, run, marker_iff _ _ run .weight⟩

end LibMip
