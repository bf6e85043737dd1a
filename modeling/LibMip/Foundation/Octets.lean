import Mathlib.Algebra.Ring.Nat
import Mathlib.Data.List.Basic
import Mathlib.Tactic.Common

/-!
# Little-endian words in a sequence of octets

A word of `n` octets is written with its least significant octet first. Reading undoes writing,
and every sequence of octets is what is written for the number it reads as, so a decoder made of
these two accepts exactly what the encoder produces.

`takeWords` splits off a number of 16-bit words at the front of a sequence, `takeChunks` a number
of chunks of one length.
-/

namespace Octets

/-- The `n` least significant octets of a number. -/
def octets : Nat → Nat → List UInt8
  | 0, _ => []
  | n + 1, v => UInt8.ofNat v :: octets n (v / 256)

/-- The number a sequence of octets stands for. -/
def value : List UInt8 → Nat
  | [] => 0
  | b :: bs => b.toNat + 256 * value bs

@[simp] theorem octets_length (n v : Nat) : (octets n v).length = n := by
  induction n generalizing v with
  | zero => rfl
  | succ n ih => simp [octets, ih]

theorem value_octets (n v : Nat) : value (octets n v) = v % 256 ^ n := by
  induction n generalizing v with
  | zero => simp [octets, value, Nat.mod_one]
  | succ n ih =>
    have low : (UInt8.ofNat v).toNat = v % 256 := UInt8.toNat_ofNat'
    rw [octets, value, ih, low, Nat.pow_succ, Nat.mul_comm (256 ^ n), Nat.mod_mul]

theorem octets_value (bs : List UInt8) : octets bs.length (value bs) = bs := by
  induction bs with
  | nil => rfl
  | cons b bs ih =>
    have := b.toNat_lt
    have low : UInt8.ofNat (b.toNat + 256 * value bs) = b := by
      rw [← UInt8.toNat_inj, UInt8.toNat_ofNat']
      omega
    have high : (b.toNat + 256 * value bs) / 256 = value bs := by omega
    rw [List.length_cons, value, octets, low, high, ih]

/-! ## Words of 16 bits -/

def putU16 (v : UInt16) : List UInt8 := octets 2 v.toNat

def getU16 (lo hi : UInt8) : UInt16 := UInt16.ofNat (value [lo, hi])

@[simp] theorem putU16_length (v : UInt16) : (putU16 v).length = 2 := octets_length 2 _

theorem putU16_eq (v : UInt16) : ∃ lo hi, putU16 v = [lo, hi] ∧ getU16 lo hi = v := by
  refine ⟨UInt8.ofNat v.toNat, UInt8.ofNat (v.toNat / 256), rfl, ?_⟩
  have := v.toNat_lt
  have low : (UInt8.ofNat v.toNat).toNat = v.toNat % 256 := UInt8.toNat_ofNat'
  have high : (UInt8.ofNat (v.toNat / 256)).toNat = v.toNat / 256 % 256 := UInt8.toNat_ofNat'
  rw [← UInt16.toNat_inj, getU16, UInt16.toNat_ofNat', value, value, value, low, high]
  omega

theorem putU16_getU16 (lo hi : UInt8) : putU16 (getU16 lo hi) = [lo, hi] := by
  have small : value [lo, hi] < 2 ^ 16 := by
    have := lo.toNat_lt
    have := hi.toNat_lt
    simp only [value]
    omega
  rw [putU16, getU16, UInt16.toNat_ofNat', Nat.mod_eq_of_lt small]
  exact octets_value [lo, hi]

def putWords (ws : List UInt16) : List UInt8 := ws.flatMap putU16

@[simp] theorem putWords_length (ws : List UInt16) : (putWords ws).length = 2 * ws.length := by
  induction ws with
  | nil => rfl
  | cons w ws ih =>
    rw [putWords, List.flatMap_cons, List.length_append, putU16_length, List.length_cons]
    rw [putWords] at ih
    omega

/-- The first `n` words, with the octets after them. -/
def takeWords : Nat → List UInt8 → Option (List UInt16 × List UInt8)
  | 0, bs => some ([], bs)
  | n + 1, lo :: hi :: bs => (takeWords n bs).map fun r => (getU16 lo hi :: r.1, r.2)
  | _ + 1, _ => none

theorem takeWords_putWords (ws : List UInt16) (rest : List UInt8) :
    takeWords ws.length (putWords ws ++ rest) = some (ws, rest) := by
  induction ws with
  | nil => rfl
  | cons w ws ih =>
    obtain ⟨lo, hi, written, read⟩ := putU16_eq w
    have split : putWords (w :: ws) ++ rest = lo :: hi :: (putWords ws ++ rest) := by
      simp [putWords, written]
    rw [split, List.length_cons, takeWords, ih, Option.map_some, read]

/-- What is read is what would be written for it. -/
theorem takeWords_eq_some {n : Nat} {bs rest : List UInt8} {ws : List UInt16}
    (h : takeWords n bs = some (ws, rest)) : ws.length = n ∧ bs = putWords ws ++ rest := by
  induction n, bs using takeWords.induct generalizing ws with
  | case1 bs =>
    obtain ⟨rfl, rfl⟩ := Prod.mk.inj (Option.some.inj h)
    exact ⟨rfl, rfl⟩
  | case2 n lo hi bs ih =>
    rw [takeWords] at h
    obtain ⟨⟨ws', rest'⟩, hr, heq⟩ := Option.map_eq_some_iff.mp h
    obtain ⟨rfl, rfl⟩ := Prod.mk.inj heq
    obtain ⟨hn, rfl⟩ := ih hr
    exact ⟨by simp [hn], by simp [putWords, putU16_getU16]⟩
  | case3 n bs short =>
    unfold takeWords at h
    split at h <;> simp_all

theorem takeWords_eq_some_iff {n : Nat} {bs rest : List UInt8} {ws : List UInt16} :
    takeWords n bs = some (ws, rest) ↔ ws.length = n ∧ bs = putWords ws ++ rest := by
  refine ⟨takeWords_eq_some, ?_⟩
  rintro ⟨rfl, rfl⟩
  exact takeWords_putWords ws rest

/-! ## Chunks of one length -/

/-- The first `k` chunks of `n` octets, with the octets after them. -/
def takeChunks (n : Nat) : Nat → List UInt8 → Option (List (List UInt8) × List UInt8)
  | 0, bs => some ([], bs)
  | k + 1, bs =>
    if bs.length < n then none
    else (takeChunks n k (bs.drop n)).map fun r => (bs.take n :: r.1, r.2)

theorem takeChunks_flatten {n : Nat} {cs : List (List UInt8)} (sized : ∀ c ∈ cs, c.length = n)
    (rest : List UInt8) : takeChunks n cs.length (cs.flatten ++ rest) = some (cs, rest) := by
  induction cs with
  | nil => rfl
  | cons c cs ih =>
    have len : c.length = n := sized c List.mem_cons_self
    have long : ¬ ((c :: cs).flatten ++ rest).length < n := by simp [len]
    have first : ((c :: cs).flatten ++ rest).take n = c := by simp [← len]
    have others : ((c :: cs).flatten ++ rest).drop n = cs.flatten ++ rest := by simp [← len]
    rw [List.length_cons, takeChunks, if_neg long, first, others,
      ih fun d hd => sized d (List.mem_cons_of_mem c hd), Option.map_some]

theorem takeChunks_eq_some_iff {n k : Nat} {bs rest : List UInt8} {cs : List (List UInt8)} :
    takeChunks n k bs = some (cs, rest) ↔
      cs.length = k ∧ (∀ c ∈ cs, c.length = n) ∧ bs = cs.flatten ++ rest := by
  constructor
  · intro h
    induction k generalizing bs cs with
    | zero =>
      obtain ⟨rfl, rfl⟩ := Prod.mk.inj (Option.some.inj h)
      simp
    | succ k ih =>
      rw [takeChunks] at h
      split_ifs at h with short
      obtain ⟨⟨cs', rest'⟩, hr, heq⟩ := Option.map_eq_some_iff.mp h
      obtain ⟨rfl, rfl⟩ := Prod.mk.inj heq
      obtain ⟨count, sized, split⟩ := ih hr
      refine ⟨by simp [count], ?_, ?_⟩
      · rw [List.forall_mem_cons]
        exact ⟨by rw [List.length_take]; omega, sized⟩
      · rw [List.flatten_cons, List.append_assoc, ← split, List.take_append_drop]
  · rintro ⟨rfl, sized, rfl⟩
    exact takeChunks_flatten sized rest

/-- As many whole chunks as there are can be taken. -/
theorem exists_takeChunks {n k : Nat} {bs : List UInt8} (fits : k * n ≤ bs.length) :
    ∃ cs rest, takeChunks n k bs = some (cs, rest) := by
  induction k generalizing bs with
  | zero => exact ⟨[], bs, rfl⟩
  | succ k ih =>
    rw [Nat.succ_mul] at fits
    obtain ⟨cs, rest, h⟩ := @ih (bs.drop n) (by rw [List.length_drop]; omega)
    exact ⟨bs.take n :: cs, rest, by rw [takeChunks, if_neg (by omega), h, Option.map_some]⟩

theorem flatten_length {n : Nat} {cs : List (List UInt8)} (sized : ∀ c ∈ cs, c.length = n) :
    cs.flatten.length = cs.length * n := by
  induction cs with
  | nil => simp
  | cons c cs ih =>
    rw [List.flatten_cons, List.length_append, sized c List.mem_cons_self,
      ih fun d hd => sized d (List.mem_cons_of_mem c hd), List.length_cons, Nat.succ_mul,
      Nat.add_comm]

theorem takeChunks_eq_none {n k : Nat} {bs : List UInt8} (short : bs.length < k * n) :
    takeChunks n k bs = none := by
  rw [Option.eq_none_iff_forall_ne_some]
  rintro ⟨cs, rest⟩ taken
  obtain ⟨rfl, sized, rfl⟩ := takeChunks_eq_some_iff.mp taken
  rw [List.length_append, flatten_length sized] at short
  omega

end Octets
