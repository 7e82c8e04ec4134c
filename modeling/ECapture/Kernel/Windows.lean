import Mathlib.Data.List.TakeWhile
import ECapture.Kernel.Lines

/-!
# The PostgreSQL and zsh probes

`kern/postgres_kern.c` with `internal/probe/postgres`, and `kern/zsh_kern.c` with
`internal/probe/zsh`, up to the text handler. A program of either probe runs at one place of a
traced process, copies 256 bytes from the address of a string and emits them; the event cuts them
at the first NUL. If one of the 256 bytes cannot be read, the copy is all zeros, however short the
string.
-/

namespace ECapture.Kernel
open Library

/-- `MAX_DATA_SIZE_POSTGRES` and `MAX_DATA_SIZE_ZSH`. -/
def windowSize : Nat := 256

/-- The text of the bytes that are copied from this address. -/
def windowText (mem : UserMemory) (addr : UInt64) : Bytes :=
  Events.commToString (mem.probeRead addr windowSize).2.toList

/-- A NUL-terminated string stands at this address, and the whole window can be read. -/
def HoldsString (mem : UserMemory) (addr : UInt64) (s : Bytes) : Prop :=
  0 ∉ s ∧ ∃ window beyond, mem.read addr windowSize = some window ∧
    window.toList = (s ++ 0 :: beyond).take windowSize

theorem windowText_of_string {mem : UserMemory} {addr : UInt64} {s : Bytes}
    (holds : HoldsString mem addr s) : windowText mem addr = s.take windowSize := by
  obtain ⟨clean, window, beyond, read, held⟩ := holds
  have text : ∀ b ∈ s.take windowSize, (decide (b ≠ 0)) = true := by
    intro b mem
    rw [decide_eq_true_iff]
    rintro rfl
    exact clean (List.mem_of_mem_take mem)
  rw [windowText, UserMemory.probeRead, read, Events.commToString, held]
  by_cases long : windowSize ≤ s.length
  · rw [List.take_append_of_le_length long]
    exact List.takeWhile_eq_self_iff.mpr text
  · have whole : s.take windowSize = s := List.take_of_length_le (by omega)
    rw [List.take_append, whole]
    obtain ⟨room, size⟩ : ∃ room, windowSize - s.length = room + 1 :=
      ⟨windowSize - s.length - 1, by omega⟩
    rw [size, List.take_succ_cons, List.takeWhile_append_of_pos (whole ▸ text)]
    simp

theorem windowText_of_fault {mem : UserMemory} {addr : UInt64}
    (fault : mem.read addr windowSize = none) : windowText mem addr = [] := by
  rw [windowText, UserMemory.probeRead, fault]
  decide

end ECapture.Kernel
