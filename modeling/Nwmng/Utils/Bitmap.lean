/-
Module: Nwmng.Utils.Bitmap
Purpose: The bit map helpers of the source, on bit vectors.
Trusted boundary: none
Main exports:
  utilsCtz, utilsFrz, utilsPopcount, bitSet, bitClr
-/
import Mathlib.Data.List.Basic

namespace Nwmng

/-- `BIT_SET`. -/
def bitSet {w : Nat} (map : BitVec w) (bit : Nat) : BitVec w :=
  map ||| BitVec.twoPow w bit

/-- `BIT_CLR`. -/
def bitClr {w : Nat} (map : BitVec w) (bit : Nat) : BitVec w :=
  map &&& ~~~(BitVec.twoPow w bit)

/-- `utils_ctz`: the position of the lowest bit that is set. -/
def utilsCtz {w : Nat} (map : BitVec w) : Option Nat :=
  (List.range w).find? fun bit => map.getLsbD bit

/-- `utils_frz`: the position of the lowest bit that is clear. -/
def utilsFrz {w : Nat} (map : BitVec w) : Nat :=
  ((List.range w).find? fun bit => !map.getLsbD bit).getD w

/-- `utils_popcount`. -/
def utilsPopcount {w : Nat} (map : BitVec w) : Nat :=
  (List.range w).countP fun bit => map.getLsbD bit

@[simp] theorem getLsbD_bitSet {w : Nat} (map : BitVec w) (bit other : Nat) :
    (bitSet map bit).getLsbD other =
      (map.getLsbD other || (decide (bit = other) && decide (other < w))) := by
  rw [bitSet, BitVec.getLsbD_or, BitVec.getLsbD_twoPow]
  by_cases same : bit = other
  · subst same
    simp
  · simp [same]

@[simp] theorem getLsbD_bitClr {w : Nat} (map : BitVec w) (bit other : Nat) :
    (bitClr map bit).getLsbD other =
      (map.getLsbD other && !decide (bit = other)) := by
  rw [bitClr, BitVec.getLsbD_and, BitVec.getLsbD_not, BitVec.getLsbD_twoPow]
  by_cases inside : other < w
  · by_cases same : bit = other
    · subst same
      simp [inside]
    · simp [inside, same]
  · simp [inside, BitVec.getLsbD_of_ge map other (Nat.le_of_not_lt inside)]

theorem utilsCtz_eq_some {w : Nat} {map : BitVec w} {bit : Nat}
    (found : utilsCtz map = some bit) : map.getLsbD bit = true ∧ bit < w := by
  have set := List.find?_some found
  have member := List.mem_of_find?_eq_some found
  exact ⟨set, List.mem_range.mp member⟩

theorem utilsCtz_eq_none {w : Nat} {map : BitVec w} (none_set : utilsCtz map = none) :
    map = 0 := by
  apply BitVec.eq_of_getLsbD_eq
  intro bit inside
  have clear := List.find?_eq_none.mp none_set bit (List.mem_range.mpr inside)
  simpa using clear

theorem utilsFrz_clear {w : Nat} {map : BitVec w} (inside : utilsFrz map < w) :
    map.getLsbD (utilsFrz map) = false := by
  unfold utilsFrz at inside ⊢
  cases found : (List.range w).find? (fun bit => !map.getLsbD bit) with
  | none => simp [found] at inside
  | some bit =>
      have clear := List.find?_some found
      simpa using clear

end Nwmng
