import Mathlib.Data.List.Induction

/-!
# Registers written by messages

A message writes the registers it owns, each with a value that depends on the message alone, and
leaves the others as they are. A state is what its registers hold and a frame that no message
touches. After a sequence of messages a register holds the value of its last writer
(`read_writeAll`), so sequences that give every register the same last writer end in the same
state, however the messages for different registers are interleaved (`writeAll_congr`).
-/

namespace Registers

structure File (σ α κ φ : Type*) (V : κ → Type*) where
  write : σ → α → σ
  owns : α → κ → Bool
  value : (k : κ) → α → V k
  read : (k : κ) → σ → V k
  frame : σ → φ
  read_write : ∀ s a k, read k (write s a) = if owns a k then value k a else read k s
  frame_write : ∀ s a, frame (write s a) = frame s
  ext : ∀ s t, frame s = frame t → (∀ k, read k s = read k t) → s = t

namespace File

variable {σ α κ φ : Type*} {V : κ → Type*} (F : File σ α κ φ V)

def writeAll (s : σ) (as : List α) : σ := as.foldl F.write s

/-- The last message of a sequence that writes the register. -/
def lastWriter (as : List α) (k : κ) : Option α := (as.filter (F.owns · k)).getLast?

@[simp] theorem writeAll_nil (s : σ) : F.writeAll s [] = s := rfl

@[simp] theorem writeAll_concat (s : σ) (as : List α) (a : α) :
    F.writeAll s (as ++ [a]) = F.write (F.writeAll s as) a := by
  simp [writeAll]

@[simp] theorem lastWriter_nil (k : κ) : F.lastWriter [] k = none := rfl

theorem lastWriter_concat (as : List α) (a : α) (k : κ) :
    F.lastWriter (as ++ [a]) k = if F.owns a k then some a else F.lastWriter as k := by
  unfold lastWriter
  cases h : F.owns a k <;> simp [h]

/-- A register holds what its last writer gave it. -/
theorem read_writeAll (s : σ) (as : List α) (k : κ) :
    F.read k (F.writeAll s as) = ((F.lastWriter as k).map (F.value k)).getD (F.read k s) := by
  induction as using List.reverseRecOn with
  | nil => rfl
  | append_singleton as a ih =>
    rw [writeAll_concat, F.read_write, lastWriter_concat]
    cases h : F.owns a k with
    | false => simpa using ih
    | true => simp

theorem frame_writeAll (s : σ) (as : List α) : F.frame (F.writeAll s as) = F.frame s := by
  induction as using List.reverseRecOn with
  | nil => rfl
  | append_singleton as a ih => rw [writeAll_concat, F.frame_write, ih]

/-- Only the last writer of each register matters. -/
theorem writeAll_congr (s : σ) {as bs : List α}
    (h : ∀ k, F.lastWriter as k = F.lastWriter bs k) : F.writeAll s as = F.writeAll s bs := by
  apply F.ext
  · rw [F.frame_writeAll, F.frame_writeAll]
  · intro k
    rw [F.read_writeAll, F.read_writeAll, h k]

end File

end Registers
