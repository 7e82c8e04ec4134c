import Mathlib.Data.List.Basic
import ECapture.Library.Bytes

/-!
# Dumps determine what they show

A line of a dump has a fixed width up to the printable column, so the length of a dump gives the
number of bytes and its columns give each of them.
-/

namespace ECapture.Library

/-- Two concatenations of blocks of the same lengths agree block by block. -/
theorem eq_of_flatMap_eq {α β : Type*} {f g : α → List β} {l : List α}
    (width : ∀ a ∈ l, (f a).length = (g a).length) (eq : l.flatMap f = l.flatMap g) :
    ∀ a ∈ l, f a = g a := by
  induction l with
  | nil => simp
  | cons a l ih =>
    rw [List.flatMap_cons, List.flatMap_cons] at eq
    obtain ⟨first, rest⟩ := List.append_inj eq (width a List.mem_cons_self)
    have later := ih (fun b mem => width b (List.mem_cons_of_mem _ mem)) rest
    intro b mem
    rcases List.mem_cons.mp mem with rfl | mem
    · exact first
    · exact later b mem

/-! ## A line -/

/-- The bytes of the `k`-th line. -/
def dumpRow (bs : Bytes) (k : Nat) : Bytes := (bs.drop (16 * k)).take 16

/-- The `k`-th line. -/
def dumpLine (bs : Bytes) (k : Nat) : Bytes :=
  hexInt 8 (16 * k % 2 ^ 32 : Nat) ++ [32, 32] ++
    (List.range 16).flatMap (dumpCell (dumpRow bs k)) ++ (dumpRow bs k).map dumpChar ++ [124, 10]

theorem hexDump_eq (bs : Bytes) :
    hexDump bs = (List.range ((bs.length + 15) / 16)).flatMap (dumpLine bs) := rfl

theorem length_dumpRow (bs : Bytes) (k : Nat) :
    (dumpRow bs k).length = min 16 (bs.length - 16 * k) := by
  rw [dumpRow, List.length_take, List.length_drop]

theorem length_dumpCell (row : Bytes) (i : Nat) :
    (dumpCell row i).length = 3 + if i = 7 then 1 else if i = 15 then 2 else 0 := by
  unfold dumpCell
  rw [List.length_append]
  congr 1
  · cases row[i]? <;> rfl
  · split
    · rfl
    · split <;> rfl

/-- An offset has eight digits. -/
theorem length_offset {n : Nat} (small : n < 2 ^ 32) : (hexInt 8 (n : Int)).length = 8 := by
  have digits : (Nat.toDigits 16 n).length ≤ 8 :=
    (Nat.length_toDigits_le_iff (by decide) (by decide)).mpr small
  have positive : ¬ (n : Int) < 0 := by omega
  simp only [hexInt, positive, if_false, Int.natAbs_natCast, List.length_append, List.length_nil,
    List.length_replicate, List.length_map]
  omega

theorem length_dumpLine (bs : Bytes) (k : Nat) :
    (dumpLine bs k).length = 63 + min 16 (bs.length - 16 * k) := by
  have offset := length_offset (n := 16 * k % 2 ^ 32) (Nat.mod_lt _ (by decide))
  have cells : ((List.range 16).flatMap (dumpCell (dumpRow bs k))).length = 51 := by
    simp only [List.length_flatMap, length_dumpCell]
    decide
  simp only [dumpLine, List.length_append, offset, cells, List.length_map, length_dumpRow,
    List.length_cons, List.length_nil]
  omega

/-! ## A dump -/

theorem length_dumpLines (bs : Bytes) (lines : Nat) :
    ((List.range lines).flatMap (dumpLine bs)).length =
      63 * lines + min bs.length (16 * lines) := by
  induction lines with
  | zero => simp
  | succ lines ih =>
    rw [List.range_succ, List.flatMap_append, List.length_append, ih, List.flatMap_singleton,
      length_dumpLine]
    omega

theorem length_hexDump (bs : Bytes) :
    (hexDump bs).length = 63 * ((bs.length + 15) / 16) + bs.length := by
  rw [hexDump_eq, length_dumpLines]
  omega

/-- The columns of a line give its bytes. -/
theorem dumpRow_eq {row row' : Bytes} (length : row.length = row'.length)
    (short : row.length ≤ 16) (cells : (List.range 16).flatMap (dumpCell row) =
      (List.range 16).flatMap (dumpCell row')) : row = row' := by
  have each := eq_of_flatMap_eq (fun i _ => by rw [length_dumpCell, length_dumpCell]) cells
  refine List.ext_getElem length fun i bound bound' => ?_
  have cell := each i (List.mem_range.mpr (by omega))
  simp only [dumpCell, List.getElem?_eq_getElem bound, List.getElem?_eq_getElem bound',
    List.append_assoc] at cell
  exact hexByte_inj (List.append_inj cell rfl).1

theorem getElem?_dumpRow (bs : Bytes) (i : Nat) :
    (dumpRow bs (i / 16))[i % 16]? = bs[i]? := by
  rw [dumpRow, List.getElem?_take_of_lt (Nat.mod_lt i (by decide)), List.getElem?_drop,
    Nat.div_add_mod]

theorem hexDump_injective : Function.Injective hexDump := by
  intro bs bs' eq
  have length : bs.length = bs'.length := by
    have := congrArg List.length eq
    rw [length_hexDump, length_hexDump] at this
    omega
  rw [hexDump_eq, hexDump_eq, ← length] at eq
  have lines := eq_of_flatMap_eq (fun k _ => by rw [length_dumpLine, length_dumpLine, length]) eq
  have rows : ∀ k < (bs.length + 15) / 16, dumpRow bs k = dumpRow bs' k := by
    intro k bound
    have line := lines k (List.mem_range.mpr bound)
    have short : (dumpRow bs k).length = (dumpRow bs' k).length := by
      rw [length_dumpRow, length_dumpRow, length]
    simp only [dumpLine, List.append_assoc] at line
    have cells := List.append_cancel_left (List.append_cancel_left line)
    refine dumpRow_eq short (by rw [length_dumpRow]; omega) (List.append_inj cells ?_).1
    simp only [List.length_flatMap, length_dumpCell]
  refine List.ext_getElem? fun i => ?_
  by_cases bound : i < bs.length
  · rw [← getElem?_dumpRow bs, rows (i / 16) (by omega), getElem?_dumpRow bs']
  · rw [List.getElem?_eq_none (by omega), List.getElem?_eq_none (by omega)]

end ECapture.Library
