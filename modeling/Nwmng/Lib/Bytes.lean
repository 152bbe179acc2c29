/-
Module: Nwmng.Lib.Bytes
Purpose: Byte memories that hold an encoding somewhere, and the little-endian
sixteen-bit values read from them.
Trusted boundary: none
Main exports:
  Memory, Holds, u16le, readU16, Holds.readU16
-/
import Mathlib.Data.List.Basic

/-!
An encoding stands in a memory of which nothing else is known.  What is read at a place depends
on the bytes that stand there only.
-/

namespace Bytes

/-- A byte for every position; only part of it is usually known. -/
abbrev Memory := Nat → UInt8

/-- The bytes stand in the memory from the given position on. -/
def Holds (memory : Memory) (position : Nat) (bytes : List UInt8) : Prop :=
  ∀ index (inside : index < bytes.length), memory (position + index) = bytes[index]

/-- Memory that starts with the bytes and continues with anything. -/
def Memory.startingWith (bytes : List UInt8) (beyond : Memory) : Memory :=
  fun position => (bytes[position]?).getD (beyond position)

theorem Memory.startingWith_holds (bytes : List UInt8) (beyond : Memory) :
    Holds (Memory.startingWith bytes beyond) 0 bytes := by
  intro index inside
  simp [Memory.startingWith, inside]

theorem Holds.append {memory : Memory} {position : Nat}
    {first second : List UInt8} :
    Holds memory position (first ++ second) ↔
      Holds memory position first ∧
        Holds memory (position + first.length) second := by
  constructor
  · intro held
    refine ⟨fun index inside => ?_, fun index inside => ?_⟩
    · have here := held index (by simp; omega)
      rwa [List.getElem_append_left inside] at here
    · have here := held (first.length + index) (by simpa using inside)
      rw [← Nat.add_assoc] at here
      simpa using here
  · rintro ⟨heldFirst, heldSecond⟩ index inside
    by_cases early : index < first.length
    · rw [List.getElem_append_left early]
      exact heldFirst index early
    · have late : first.length ≤ index := Nat.le_of_not_lt early
      rw [List.getElem_append_right late]
      have here := heldSecond (index - first.length) (by simp at inside; omega)
      rwa [show position + first.length + (index - first.length) = position + index
        by omega] at here

theorem Holds.cons {memory : Memory} {position : Nat} {byte : UInt8}
    {bytes : List UInt8} :
    Holds memory position (byte :: bytes) ↔
      memory position = byte ∧ Holds memory (position + 1) bytes := by
  rw [show byte :: bytes = [byte] ++ bytes from rfl, Holds.append]
  refine and_congr_left fun _ => ?_
  constructor
  · intro held
    exact held 0 (by simp)
  · intro same index inside
    cases index with
    | zero => exact same
    | succ index => simp at inside

@[simp] theorem Holds.nil (memory : Memory) (position : Nat) :
    Holds memory position [] := by
  intro index inside
  cases inside

/-- The two bytes of a value, low byte first. -/
def u16le (value : UInt16) : List UInt8 :=
  [value.toUInt8, (value >>> 8).toUInt8]

@[simp] theorem length_u16le (value : UInt16) : (u16le value).length = 2 := rfl

/-- Two bytes read as one value. -/
def readU16 (memory : Memory) (position : Nat) : UInt16 :=
  (memory position).toUInt16 + ((memory (position + 1)).toUInt16 <<< 8)

theorem Holds.readU16 {memory : Memory} {position : Nat} {value : UInt16}
    (held : Holds memory position (u16le value)) :
    Bytes.readU16 memory position = value := by
  obtain ⟨low, rest⟩ := Holds.cons.mp held
  obtain ⟨high, _⟩ := Holds.cons.mp rest
  rw [Bytes.readU16, low, high]
  apply UInt16.toNat_inj.mp
  have bound : value.toNat < 65536 := value.toNat_lt
  simp [Nat.shiftLeft_eq, Nat.shiftRight_eq_div_pow]
  omega

end Bytes
