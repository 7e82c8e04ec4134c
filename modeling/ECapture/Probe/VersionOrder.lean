import ECapture.Library.Padded
import ECapture.Probe.Version
import Mathlib.Data.List.GetD
import Mathlib.Data.Prod.Lex

/-!
# The order of versions

`isVersionLessOrEqual` compares the components of two versions as pairs of a number and a suffix,
and pads the shorter version. It is the padded comparison of lists over a linear order, and so a
total preorder.
-/

namespace ECapture.Probe
open Library

/-- A component: its number, then the bytes of its suffix. -/
abbrev Component := ℕ ×ₗ List ℕ

def componentOf (part : Bytes) : Component :=
  toLex ((extractVersionPart part).1, (extractVersionPart part).2.map UInt8.toNat)

def components (v : Bytes) : List Component := (versionParts v).map componentOf

/-! ## Suffixes -/

theorem map_toNat_inj {s t : Bytes} : s.map UInt8.toNat = t.map UInt8.toNat ↔ s = t :=
  List.map_inj_right fun _ _ => UInt8.toNat_inj.mp

theorem map_toNat_lt {s t : Bytes} : s.map UInt8.toNat < t.map UInt8.toNat ↔ s < t := by
  induction s generalizing t with
  | nil => cases t <;> simp
  | cons x s ih =>
    cases t with
    | nil => simp
    | cons y t =>
      rw [List.map_cons, List.map_cons, List.cons_lt_cons_iff, List.cons_lt_cons_iff, ih,
        UInt8.toNat_inj, UInt8.lt_iff_toNat_lt]

/-! ## Components -/

theorem componentOf_inj {p q : Bytes} :
    componentOf p = componentOf q ↔ extractVersionPart p = extractVersionPart q := by
  rw [componentOf, componentOf, toLex_inj, Prod.mk.injEq, map_toNat_inj, Prod.ext_iff]

theorem componentOf_lt {p q : Bytes} : componentOf p < componentOf q ↔
    (extractVersionPart p).1 < (extractVersionPart q).1 ∨
      (extractVersionPart p).1 = (extractVersionPart q).1 ∧
        (extractVersionPart p).2 < (extractVersionPart q).2 := by
  rw [componentOf, componentOf, Prod.Lex.toLex_lt_toLex, map_toNat_lt]

/-- The loop compares the lists of components. -/
theorem partsLessOrEqual_iff (pairs : List (Bytes × Bytes)) : partsLessOrEqual pairs = true ↔
    (pairs.map fun p => componentOf p.1) ≤ pairs.map fun p => componentOf p.2 := by
  induction pairs with
  | nil => simp [partsLessOrEqual]
  | cons pair pairs ih =>
    obtain ⟨p, q⟩ := pair
    rw [List.map_cons, List.map_cons, cons_le_cons, ← ih, componentOf_lt, componentOf_inj,
      Prod.ext_iff, partsLessOrEqual]
    grind

/-! ## Versions -/

def zeroComponent : Component := componentOf (str "0")

theorem getD_components (v : Bytes) (i : ℕ) :
    (components v).getD i zeroComponent = componentOf ((versionParts v).getD i (str "0")) := by
  rw [components, zeroComponent, List.getD_map]

theorem isVersionLessOrEqual_iff_padLe (v1 v2 : Bytes) : isVersionLessOrEqual v1 v2 = true ↔
    PadLe zeroComponent (components v1) (components v2) := by
  have length : ∀ v, (components v).length = (versionParts v).length :=
    fun v => List.length_map componentOf
  rw [isVersionLessOrEqual, partsLessOrEqual_iff, PadLe, padTo, padTo, List.map_map, List.map_map,
    length, length]
  simp only [Function.comp_def, getD_components]

/-- The comparison is a total preorder. Versions that precede each other have the same numbers
and suffixes, component by component. -/
theorem isVersionLessOrEqual_total_preorder :
    (∀ v, isVersionLessOrEqual v v = true) ∧
    (∀ v1 v2 v3, isVersionLessOrEqual v1 v2 = true → isVersionLessOrEqual v2 v3 = true →
      isVersionLessOrEqual v1 v3 = true) ∧
    (∀ v1 v2, isVersionLessOrEqual v1 v2 = true ∨ isVersionLessOrEqual v2 v1 = true) ∧
    ∀ v1 v2, isVersionLessOrEqual v1 v2 = true ∧ isVersionLessOrEqual v2 v1 = true ↔
      ∀ i, extractVersionPart ((versionParts v1).getD i (str "0")) =
        extractVersionPart ((versionParts v2).getD i (str "0")) := by
  simp only [isVersionLessOrEqual_iff_padLe]
  refine ⟨fun v => PadLe.refl _, fun _ _ _ => PadLe.trans, fun v1 v2 => PadLe.total _ _, ?_⟩
  intro v1 v2
  simp only [padLe_antisymm_iff, getD_components, componentOf_inj]

theorem isVersionLessOrEqual_total_preorder_at :
    isVersionLessOrEqual (str "openssl 1.1.1") (str "3.0.2") = true := by
  obtain ⟨-, trans, -, -⟩ := isVersionLessOrEqual_total_preorder
  exact trans _ (str "1.1.1w") _ (by decide +kernel) (by decide +kernel)

example : isVersionLessOrEqual (str "1.1") (str "openssl 1.1.0") = true ∧
    isVersionLessOrEqual (str "1.1.0") (str "1.1") = true := by decide +kernel

end ECapture.Probe
