import LibMip.Drive.ContinuousDrive
import Mathlib.Data.List.Chain

/-!
# Saturated requests

The bytes of an order are computed from the clamped ticks, but the deceleration test compares
the ticks as they were requested. Beyond the clamp range the test sees changes the robot does
not, and the range of the spin is not symmetric. `SaturationSafe` lists the pairs of consecutive
requests for which the difference does not show.
-/

namespace LibMip

open CNum Runs

/-- The calls with the default value of `force_decelerating`. -/
def forcedCall (r : Request) : DriveCall := ⟨r.1, r.2, true⟩

def forced (reqs : List Request) : List DriveCall := reqs.map forcedCall

/-- The request with both components clamped. -/
def clampRequest (r : Request) : Request :=
  (⟨clamp r.1.val (-64) 64, by
      have range := clamp_forward_mem r.1.val
      constructor <;> omega⟩,
    ⟨clamp r.2.val (-64) 63, by
      have range := clamp_spin_mem r.2.val
      constructor <;> omega⟩)

/-- Clamping hides nothing from the deceleration test between these two requests. -/
def SaturationSafe (last now : Request) : Prop :=
  if Slower last.1 now.1 then now.1.val.natAbs < 64
  else if Slower last.2 now.2 then
    now.2.val.natAbs < 63 ∨ now.2.val.natAbs = 63 ∧ last.2.val < 0
  else ¬ (64 ≤ now.2.val ∧ last.2.val ≤ -64)

/-- The orders of a sequence of forced calls are those of the clamped requests, and a call
whose clamped ticks have not decreased sends only its own. -/
structure SaturationInvisible (reqs : List Request) : Prop where
  same_orders : (driveMachine.run (forced reqs)).map Session.sent =
    (driveMachine.run (forced (reqs.map clampRequest))).map Session.sent
  no_reversal : driveMachine.EveryStep (fun p s c =>
    ¬ Slower (clampRequest (lastArgs p)).1 (clampRequest c.request).1 →
    ¬ Slower (clampRequest (lastArgs p)).2 (clampRequest c.request).2 →
      ∃ m o, s.mip.continuousDrive c.v c.w c.force = .ok (m, [o])) (forced reqs)

/-! ## Two consecutive requests -/

variable {last now : Request}

theorem slower_saturate_fst :
    Slower (clampRequest last).1 (clampRequest now).1 ↔
      Slower last.1 now.1 ∧ now.1.val.natAbs < 64 := by
  simp only [Slower, clampRequest]
  have hlast := clamp_cases last.1.val (-64) 64
  have hnow := clamp_cases now.1.val (-64) 64
  omega

theorem slower_saturate_snd :
    Slower (clampRequest last).2 (clampRequest now).2 ↔
      Slower last.2 now.2 ∧
          (now.2.val.natAbs < 63 ∨ now.2.val.natAbs = 63 ∧ last.2.val < 0) ∨
        64 ≤ now.2.val ∧ last.2.val ≤ -64 := by
  simp only [Slower, clampRequest]
  have hlast := clamp_cases last.2.val (-64) 63
  have hnow := clamp_cases now.2.val (-64) 63
  omega

/-- Clamping a component twice, or before and after a change of sign, is clamping it once,
except where the range of the spin is not symmetric. -/
theorem driveOrder_saturate (now : Request) :
    driveOrder (clampRequest now).1 (clampRequest now).2 = driveOrder now.1 now.2 ∧
      driveOrder (-(clampRequest now).1.val) (clampRequest now).2 = driveOrder (-now.1.val) now.2 ∧
      (now.2.val ≤ 63 →
        driveOrder (clampRequest now).1 (-(clampRequest now).2.val) =
          driveOrder now.1 (-now.2.val)) := by
  simp only [driveOrder_inj, clampRequest, clamp]
  refine ⟨?_, ?_, fun hw => ?_⟩ <;> constructor <;> split_ifs <;> omega

theorem forced_slowerV (slower : Slower last.1 now.1) :
    callOrders last (forcedCall now) =
      [driveOrder (-now.1.val) now.2, driveOrder now.1 now.2] :=
  callOrders_slowerV rfl slower

theorem forced_slowerW (notV : ¬ Slower last.1 now.1) (slower : Slower last.2 now.2) :
    callOrders last (forcedCall now) =
      [driveOrder now.1 (-now.2.val), driveOrder now.1 now.2] :=
  callOrders_slowerW rfl notV slower

theorem forced_straight (notV : ¬ Slower last.1 now.1) (notW : ¬ Slower last.2 now.2) :
    callOrders last (forcedCall now) = [driveOrder now.1 now.2] :=
  callOrders_straight fun h => h.2.elim notV notW

/-- Between safe requests the same branch is taken and the same orders are sent. -/
theorem callOrders_saturate (safe : SaturationSafe last now) :
    callOrders (clampRequest last) (forcedCall (clampRequest now)) =
      callOrders last (forcedCall now) := by
  obtain ⟨own, revV, revW⟩ := driveOrder_saturate now
  unfold SaturationSafe at safe
  by_cases slowerV : Slower last.1 now.1
  · rw [if_pos slowerV] at safe
    have satV := slower_saturate_fst.mpr ⟨slowerV, safe⟩
    rw [forced_slowerV slowerV, forced_slowerV satV, own, revV]
  · have satV : ¬ Slower (clampRequest last).1 (clampRequest now).1 :=
      fun h => slowerV (slower_saturate_fst.mp h).1
    rw [if_neg slowerV] at safe
    by_cases slowerW : Slower last.2 now.2
    · rw [if_pos slowerW] at safe
      have satW := slower_saturate_snd.mpr (.inl ⟨slowerW, safe⟩)
      rw [forced_slowerW slowerV slowerW, forced_slowerW satV satW, own, revW (by omega)]
    · rw [if_neg slowerW] at safe
      have satW : ¬ Slower (clampRequest last).2 (clampRequest now).2 := by
        intro h
        rcases slower_saturate_snd.mp h with ⟨slower, -⟩ | range
        · exact slowerW slower
        · exact safe range
      rw [forced_straight slowerV slowerW, forced_straight satV satW, own]

/-- A call that has not slowed down forward starts with the forward ticks asked for. -/
theorem forced_head (notV : ¬ Slower last.1 now.1) :
    (callOrders last (forcedCall now)).head? =
      some (driveOrder now.1 (if Slower last.2 now.2 then -now.2.val else now.2.val)) := by
  by_cases slowerW : Slower last.2 now.2
  · rw [forced_slowerW notV slowerW, if_pos slowerW]
    rfl
  · rw [forced_straight notV slowerW, if_neg slowerW]
    rfl

/-- Between other requests the first orders already differ. -/
theorem forced_head_ne (visible : ¬ SaturationSafe last now) :
    (callOrders (clampRequest last) (forcedCall (clampRequest now))).head? ≠
      (callOrders last (forcedCall now)).head? := by
  unfold SaturationSafe at visible
  have hv := clamp_cases now.1.val (-64) 64
  have hw := clamp_cases now.2.val (-64) 63
  by_cases slowerV : Slower last.1 now.1
  · rw [if_pos slowerV] at visible
    have satV : ¬ Slower (clampRequest last).1 (clampRequest now).1 :=
      fun h => visible (slower_saturate_fst.mp h).2
    rw [forced_head satV, forced_slowerV slowerV]
    intro same
    have hclamp := (driveOrder_inj.mp (Option.some.inj same)).1
    simp only [clampRequest, clamp] at hclamp
    split_ifs at hclamp <;> omega
  · have satV : ¬ Slower (clampRequest last).1 (clampRequest now).1 :=
      fun h => slowerV (slower_saturate_fst.mp h).1
    rw [if_neg slowerV] at visible
    rw [forced_head satV, forced_head slowerV]
    intro same
    have hclamp := (driveOrder_inj.mp (Option.some.inj same)).2
    by_cases slowerW : Slower last.2 now.2
    · rw [if_pos slowerW] at visible hclamp
      by_cases satW : Slower (clampRequest last).2 (clampRequest now).2
      · rw [if_pos satW] at hclamp
        have range := (slower_saturate_snd.mp satW).resolve_left fun h => visible h.2
        simp only [clampRequest, clamp] at hclamp
        split_ifs at hclamp <;> omega
      · rw [if_neg satW] at hclamp
        simp only [clampRequest, clamp] at hclamp
        split_ifs at hclamp <;> omega
    · rw [if_neg slowerW] at visible hclamp
      have satW := slower_saturate_snd.mpr (.inr (not_not.mp visible))
      rw [if_pos satW] at hclamp
      simp only [clampRequest, clamp] at hclamp
      split_ifs at hclamp <;> omega

/-! ## Runs -/

@[simp] theorem forced_request (reqs : List Request) :
    (forced reqs).map DriveCall.request = reqs := by
  simp [forced, Function.comp_def, forcedCall, DriveCall.request]

/-- The first pair that is not safe makes the sequences of orders differ. -/
theorem ordersFrom_saturate_iff (last : Request) (reqs : List Request) :
    ordersFrom (clampRequest last) (forced (reqs.map clampRequest)) =
        ordersFrom last (forced reqs) ↔
      List.IsChain SaturationSafe (last :: reqs) := by
  induction reqs generalizing last with
  | nil => simp [forced, ordersFrom]
  | cons now reqs ih =>
    have unfoldOrders (l r : Request) (rs : List Request) : ordersFrom l (forced (r :: rs)) =
        callOrders l (forcedCall r) ++ ordersFrom r (forced rs) := rfl
    rw [List.isChain_cons_cons, ← ih now, List.map_cons, unfoldOrders, unfoldOrders]
    by_cases safe : SaturationSafe last now
    · rw [callOrders_saturate safe, List.append_cancel_left_eq]
      exact (and_iff_right safe).symm
    · refine iff_of_false (fun same => ?_) (fun both => safe both.1)
      apply forced_head_ne safe
      have heads := congrArg List.head? same
      rwa [List.head?_append_of_ne_nil _ callOrders_ne_nil,
        List.head?_append_of_ne_nil _ callOrders_ne_nil] at heads

theorem saturate_rest : clampRequest rest = rest := by decide

/-- A safe pair whose clamped ticks have not decreased takes the branch without reversal. -/
theorem forced_of_not_decreased (safe : SaturationSafe last now)
    (notV : ¬ Slower (clampRequest last).1 (clampRequest now).1)
    (notW : ¬ Slower (clampRequest last).2 (clampRequest now).2) :
    callOrders last (forcedCall now) = [driveOrder now.1 now.2] := by
  rw [← callOrders_saturate safe, forced_straight notV notW, (driveOrder_saturate now).1]

/-- Clamping is invisible exactly when each request and the one before it are safe. -/
theorem saturationInvisible_iff (reqs : List Request) :
    SaturationInvisible reqs ↔ List.IsChain SaturationSafe (rest :: reqs) := by
  obtain ⟨s, hs, sent, -⟩ := drive_run (forced reqs)
  obtain ⟨t, ht, sent', -⟩ := drive_run (forced (reqs.map clampRequest))
  have same : (driveMachine.run (forced reqs)).map Session.sent =
      (driveMachine.run (forced (reqs.map clampRequest))).map Session.sent ↔
        List.IsChain SaturationSafe (rest :: reqs) := by
    rw [← ordersFrom_saturate_iff, saturate_rest, hs, ht, Option.map_some, Option.map_some,
      Option.some.injEq, sent, sent', eq_comm]
  refine ⟨fun invisible => same.mp invisible.same_orders, fun safe => ⟨same.mpr safe, ?_⟩⟩
  intro p c u hp hu notV notW
  have hc : forcedCall c.request = c := by
    obtain ⟨r, -, hr⟩ := List.mem_map.mp (hp.subset (List.mem_append_right p List.mem_cons_self))
    rw [← hr]
    rfl
  have hchain : List.IsChain SaturationSafe
      ((rest :: p.map DriveCall.request) ++ [c.request]) := by
    have hmap := hp.map DriveCall.request
    rw [forced_request, List.map_append] at hmap
    exact safe.infix ((List.prefix_cons_inj rest).mpr hmap).isInfix
  have pair : SaturationSafe (lastArgs p) c.request :=
    (List.isChain_append.mp hchain).2.2 _ (by simp [lastArgs, List.getLast?_cons]) _ rfl
  have own := forced_of_not_decreased pair notV notW
  rw [hc] at own
  have call := continuousDrive_run hu c
  rw [own] at call
  exact ⟨_, _, call⟩

/-- The requests `(0, 64)` and `(0, 63)`, both within the documented range. -/
def fullThenNearlyFull : List Request :=
  [(rest.1, ⟨64, by decide⟩), (rest.1, ⟨63, by decide⟩)]

/-- The same left spin is commanded twice, yet a right spin is sent in between. -/
theorem saturation_visible_at_64 :
    ¬ SaturationInvisible fullThenNearlyFull ∧
      (driveMachine.run (forced fullThenNearlyFull)).map (fun s => s.sent.map motionOf) =
        some [some (0, 63), some (0, -63), some (0, 63)] ∧
      (driveMachine.run (forced (fullThenNearlyFull.map clampRequest))).map
          (fun s => s.sent.map motionOf) = some [some (0, 63), some (0, 63)] := by
  have orders (h : List DriveCall) :
      (driveMachine.run h).map (fun s => s.sent.map motionOf) =
        some ((ordersFrom rest h).map motionOf) := by
    obtain ⟨s, hs, sent, -⟩ := drive_run h
    rw [hs, Option.map_some, sent]
  have original := orders (forced fullThenNearlyFull)
  have clamped := orders (forced (fullThenNearlyFull.map clampRequest))
  refine ⟨fun invisible => ?_, original, clamped⟩
  have same : (driveMachine.run (forced fullThenNearlyFull)).map (fun s => s.sent.map motionOf) =
      (driveMachine.run (forced (fullThenNearlyFull.map clampRequest))).map
        (fun s => s.sent.map motionOf) := by
    simpa only [Option.map_map, Function.comp_def] using
      congrArg (Option.map (List.map motionOf)) invisible.same_orders
  rw [original, clamped] at same
  exact absurd same (by decide)

end LibMip
