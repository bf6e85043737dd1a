import LibMip.Robot.ReadBack

/-!
# The chest LED cache

The cached chest LED is written by the setters and by the notification. Both write the colours
as they are sent, but the flash setter caches the numbers of 20 ms ticks in the fields for the
seconds, where the notification scales them back. `cacheAgrees_iff` says that the two writers
agree, and that the cache can be handed back to the setter, for the calls that do not flash.
-/

namespace LibMip

open CNum

/-- A call of `set_chest_LED`, in any of its overloads. -/
def Setting.IsChest : Setting → Prop
  | .chestLED .. | .chestLEDFlash .. | .chestLEDStruct .. => True
  | _ => False

abbrev ChestSetting := { s : Setting // s.IsChest }

/-- The call makes the LED flash: it is the overload with two times, or the structure with two
positive times. -/
def Setting.Flashes : Setting → Prop
  | .chestLEDFlash .. => True
  | .chestLEDStruct _ _ _ on off _ => 0 < on ∧ 0 < off
  | _ => False

/-- The values of the notification that answers a chest order with the bytes of the order; the
times are zero for the order that has none. -/
def chestEcho (o : Order) : List Int :=
  match numbers o with
  | [_, r, g, b] => [r, g, b, 0, 0]
  | [_, r, g, b, on, off] => [r, g, b, on, off]
  | _ => []

/-- The echo of the order leaves the cache as the call left it, and the cached value handed back
to the setter sends the same order. -/
def CacheAgrees (s : Setting) (m : Mip) : Prop :=
  ∃ m₁ o, s.call m = .ok (m₁, [o]) ∧
    (m₁.storeResults cmdChestLed (chestEcho o)).1.getChestLEDCached = m₁.getChestLEDCached ∧
    ∃ m₂, m₁.setChestLEDStruct m₁.getChestLEDCached = .ok (m₂, [o])

section Calls

variable (m : Mip) (red green blue : Int)

/-- Clamped colours are sent as they are. -/
theorem chestEcho_plain :
    chestEcho (sendOrder3 cmdSetChestLed (clamp red 0 255) (clamp green 0 255)
      (clamp blue 0 255)) = [clamp red 0 255, clamp green 0 255, clamp blue 0 255, 0, 0] := by
  have byte (x : Int) : InByte (clamp x 0 255) := ⟨le_clamp (by decide), clamp_le (by decide)⟩
  rw [chestEcho, numbers_sendOrder3 (by decide) (byte red) (byte green) (byte blue)]

theorem chestEcho_flash (on off : Int) :
    chestEcho (sendOrder5 cmdFlashChestLed (clamp red 0 255) (clamp green 0 255)
      (clamp blue 0 255) (clamp on 1 255) (clamp off 1 255)) =
    [clamp red 0 255, clamp green 0 255, clamp blue 0 255, clamp on 1 255, clamp off 1 255] := by
  have byte (x : Int) : InByte (clamp x 0 255) := ⟨le_clamp (by decide), clamp_le (by decide)⟩
  have time (x : Int) : InByte (clamp x 1 255) := by
    have least : 1 ≤ clamp x 1 255 := le_clamp (by decide)
    exact ⟨by omega, clamp_le (by decide)⟩
  rw [chestEcho, numbers_sendOrder5 (by decide) (byte red) (byte green) (byte blue) (time on)
    (time off)]

/-- Without flash the cache holds what was sent. -/
theorem cacheAgrees_chestLED (red green blue : CInt) :
    CacheAgrees (.chestLED red green blue) m := by
  let m₁ := (m.setChestLED red green blue).1
  refine ⟨m₁, _, rfl, ?_, m₁, ?_⟩
  · rw [chestEcho_plain]
    simp [Mip.storeResults, Mip.branch, nvalues, Mip.putChestLed, Mip.getChestLEDCached, m₁,
      Mip.setChestLED]
  · have idle : ¬ ((0 : ℚ) < 0 ∧ (0 : ℚ) < 0) := by simp
    have again : (0 : Int) ≤ 255 := by decide
    simp only [m₁, Mip.setChestLEDStruct, Mip.getChestLEDCached, if_neg idle, Mip.setChestLED,
      clamp_clamp again]

/-- With flash the setter caches a number of ticks, and the echo the fiftieth part of it. -/
theorem not_cacheAgrees_chestLEDFlash (red green blue : CInt) (on off : FlashTime) :
    ¬ CacheAgrees (.chestLEDFlash red green blue on off) m := by
  rintro ⟨m₁, o, sent, echo, -⟩
  have call := setChestLEDFlash_eq m red green blue on off
  obtain ⟨rfl, orders⟩ := Prod.mk.inj (Except.ok.inj (call.symm.trans sent))
  obtain rfl := (List.cons.inj orders).1
  rw [chestEcho_flash] at echo
  have times := congrArg ChestLed.timeFlashOnSec echo
  have ticks : (1 : ℚ) ≤ (clamp (trunc (50 * on.val)) 1 255 : Int) := by
    exact_mod_cast le_clamp (by decide)
  simp [Mip.storeResults, Mip.branch, nvalues, Mip.putChestLed, Mip.getChestLEDCached] at times
  linarith

end Calls

/-- The cache agrees with the echo, and can be handed back, exactly after the calls that do not
make the LED flash. -/
theorem cacheAgrees_iff (s : ChestSetting) (m : Mip) : CacheAgrees s m ↔ ¬ s.val.Flashes := by
  obtain ⟨s, chest⟩ := s
  cases s with
  | chestLED red green blue => exact iff_of_true (cacheAgrees_chestLED m red green blue) not_false
  | chestLEDFlash red green blue on off =>
    have differs := not_cacheAgrees_chestLEDFlash m red green blue on off
    exact iff_of_false differs (not_not_intro trivial)
  | chestLEDStruct red green blue on off inRange =>
    by_cases flash : 0 < on ∧ 0 < off
    · have differs := not_cacheAgrees_chestLEDFlash m red green blue
        ⟨on, flash.1, (inRange flash).1⟩ ⟨off, flash.2, (inRange flash).2⟩
      refine iff_of_false ?_ (not_not_intro flash)
      simpa only [CacheAgrees, Setting.call, Mip.setChestLEDStruct, if_pos flash] using differs
    · have agrees := cacheAgrees_chestLED m red green blue
      refine iff_of_true ?_ flash
      simpa only [CacheAgrees, Setting.call, Mip.setChestLEDStruct, if_neg flash] using agrees
  | gameMode | volume | headLED | headLEDIdx | headLEDStruct | gestureOrRadarMode =>
    exact chest.elim

def oneSecond : FlashTime := ⟨1, by norm_num⟩

/-- A flash of one second on and one second off is cached as 50 and 50, and the echo makes it 1
and 1. -/
theorem not_cacheAgrees_one_second :
    ¬ CacheAgrees (.chestLEDFlash ⟨255, by decide⟩ ⟨200, by decide⟩ ⟨100, by decide⟩ oneSecond
      oneSecond) Mip.init :=
  not_cacheAgrees_chestLEDFlash _ _ _ _ _ _

end LibMip
