/-
Module: Nwmng.Lib.Ring
Purpose: A ring of cells with a place to write and a place to read, as a bounded queue: one cell
is always kept free, and while it is kept the cell that was read last stays as it was read.
Trusted boundary: none
Main exports:
  Ring, Ring.put, Ring.next, Ring.contents, Ring.contents_put, Ring.contents_next,
  Ring.full_iff, Ring.lent_put
-/
import Mathlib.Data.List.OfFn

/-!
A ring holds one item less than it has cells: the cell before the place that is read stays free,
so that a full ring and an empty one differ.  That cell is also the one which was read last, and
what it holds stays there until the next item is read.
-/

namespace Rings

universe u

variable {Cell : Type u} {size : Nat}

/-- The cells, the place that is written next and the place that is read next.  One cell is
always left free, so that an empty ring can be told from a full one. -/
structure Ring (Cell : Type u) (size : Nat) where
  cells : Vector Cell size
  w : Nat
  r : Nat
  wInside : w < size
  rInside : r < size

/-- The place after a place. -/
def after (size place : Nat) : Nat := (place + 1) % size

theorem after_lt {place : Nat} (inside : place < size) : after size place < size :=
  Nat.mod_lt _ (Nat.zero_lt_of_lt inside)

theorem after_eq {place : Nat} (inside : place < size) :
    after size place = if place + 1 = size then 0 else place + 1 := by
  unfold after
  split
  · next last => rw [last, Nat.mod_self]
  · next notLast => exact Nat.mod_eq_of_lt (by omega)

namespace Ring

/-- Nothing is left to read. -/
def Empty (ring : Ring Cell size) : Prop := ring.w = ring.r

/-- The next write would leave no free cell. -/
def Full (ring : Ring Cell size) : Prop := after size ring.w = ring.r

instance (ring : Ring Cell size) : Decidable ring.Empty := inferInstanceAs (Decidable (_ = _))

instance (ring : Ring Cell size) : Decidable ring.Full := inferInstanceAs (Decidable (_ = _))

/-- The cell that is read next. -/
def head (ring : Ring Cell size) : Cell := ring.cells.get ⟨ring.r, ring.rInside⟩

/-- The cell that is written next, with what it still holds. -/
def free (ring : Ring Cell size) : Cell := ring.cells.get ⟨ring.w, ring.wInside⟩

/-- Write the next cell. -/
def put (ring : Ring Cell size) (cell : Cell) : Ring Cell size :=
  { ring with
    cells := ring.cells.set ring.w cell ring.wInside
    w := after size ring.w
    wInside := after_lt ring.wInside }

/-- Read the next cell. -/
def next (ring : Ring Cell size) : Ring Cell size :=
  { ring with r := after size ring.r, rInside := after_lt ring.rInside }

theorem put_w (ring : Ring Cell size) (cell : Cell) :
    (ring.put cell).w = if ring.w + 1 = size then 0 else ring.w + 1 :=
  after_eq ring.wInside

@[simp] theorem put_r (ring : Ring Cell size) (cell : Cell) : (ring.put cell).r = ring.r := rfl

theorem next_r (ring : Ring Cell size) :
    ring.next.r = if ring.r + 1 = size then 0 else ring.r + 1 :=
  after_eq ring.rInside

@[simp] theorem next_w (ring : Ring Cell size) : ring.next.w = ring.w := rfl

/-- How many cells are waiting to be read. -/
def used (ring : Ring Cell size) : Nat :=
  if ring.r ≤ ring.w then ring.w - ring.r else ring.w + size - ring.r

/-- The place of the cell that is the `index`-th to be read. -/
def place (ring : Ring Cell size) (index : Nat) : Nat :=
  if ring.r + index < size then ring.r + index else ring.r + index - size

theorem used_lt (ring : Ring Cell size) : ring.used < size := by
  have wInside := ring.wInside
  have rInside := ring.rInside
  unfold used
  split <;> omega

theorem place_lt (ring : Ring Cell size) {index : Nat} (inside : index < size) :
    ring.place index < size := by
  have rInside := ring.rInside
  unfold place
  split <;> omega

/-- The cells that wait to be read, the next one first. -/
def contents (ring : Ring Cell size) : List Cell :=
  List.ofFn fun index : Fin ring.used =>
    ring.cells.get ⟨ring.place index, ring.place_lt (index.isLt.trans ring.used_lt)⟩

@[simp] theorem length_contents (ring : Ring Cell size) : ring.contents.length = ring.used :=
  List.length_ofFn

theorem getElem_contents (ring : Ring Cell size) {index : Nat}
    (inside : index < ring.contents.length) :
    ring.contents[index] = ring.cells.get ⟨ring.place index,
      ring.place_lt ((ring.length_contents ▸ inside).trans ring.used_lt)⟩ :=
  List.getElem_ofFn _

theorem full_iff (ring : Ring Cell size) : ring.Full ↔ ring.contents.length + 1 = size := by
  have wInside := ring.wInside
  have rInside := ring.rInside
  rw [length_contents, Full, after_eq wInside, used]
  split <;> split <;> omega

theorem empty_iff (ring : Ring Cell size) : ring.Empty ↔ ring.contents = [] := by
  have wInside := ring.wInside
  have rInside := ring.rInside
  rw [← List.length_eq_zero_iff, length_contents, Empty, used]
  split <;> omega

theorem used_put {ring : Ring Cell size} (room : ¬ ring.Full) (cell : Cell) :
    (ring.put cell).used = ring.used + 1 := by
  have wInside := ring.wInside
  have rInside := ring.rInside
  rw [Full, after_eq wInside] at room
  rw [used, used, put_w, put_r]
  split at room <;> split <;> split <;> split <;> omega

theorem used_next {ring : Ring Cell size} (waiting : ¬ ring.Empty) :
    ring.next.used + 1 = ring.used := by
  have wInside := ring.wInside
  have rInside := ring.rInside
  unfold Empty at waiting
  rw [used, used, next_r, next_w]
  split <;> split <;> split <;> omega

theorem place_used {ring : Ring Cell size} : ring.place ring.used = ring.w := by
  have wInside := ring.wInside
  have rInside := ring.rInside
  unfold place used
  split <;> split <;> omega

theorem place_ne_w {ring : Ring Cell size} {index : Nat} (inside : index < ring.used) :
    ring.place index ≠ ring.w := by
  have wInside := ring.wInside
  have rInside := ring.rInside
  unfold used at inside
  unfold place
  split at inside <;> split <;> omega

theorem get_set_other {cells : Vector Cell size} {place other : Nat} (inside : place < size)
    (otherInside : other < size) (apart : other ≠ place) (cell : Cell) :
    (cells.set place cell inside).get ⟨other, otherInside⟩ = cells.get ⟨other, otherInside⟩ :=
  Vector.getElem_set_ne inside otherInside (Ne.symm apart)

theorem get_set_same {cells : Vector Cell size} {place : Nat} (inside : place < size)
    (cell : Cell) : (cells.set place cell inside).get ⟨place, inside⟩ = cell :=
  Vector.getElem_set_self inside

/-- A write to a ring that is not full joins the end of the queue. -/
theorem contents_put {ring : Ring Cell size} (room : ¬ ring.Full) (cell : Cell) :
    (ring.put cell).contents = ring.contents ++ [cell] := by
  have longer := used_put room cell
  refine List.ext_getElem (by simp [longer]) fun index here there => ?_
  rw [getElem_contents]
  have samePlace : (ring.put cell).place index = ring.place index := rfl
  by_cases older : index < ring.used
  · have inside : index < ring.contents.length := by rwa [length_contents]
    rw [List.getElem_append_left inside, getElem_contents]
    simp only [samePlace]
    exact get_set_other ring.wInside _ (place_ne_w older) cell
  · have last : index = ring.used := by
      rw [length_contents, longer] at here
      omega
    subst last
    have atEnd : ring.contents.length ≤ ring.used := by rw [length_contents]
    rw [List.getElem_append_right atEnd]
    simp only [samePlace, place_used, length_contents, Nat.sub_self, List.getElem_cons_zero]
    exact get_set_same ring.wInside cell

/-- A read from a ring that is not empty takes the front of the queue. -/
theorem contents_next {ring : Ring Cell size} (waiting : ¬ ring.Empty) :
    ring.contents = ring.head :: ring.next.contents := by
  have shorter := used_next waiting
  have rInside := ring.rInside
  refine List.ext_getElem (by simp [shorter]) fun index here there => ?_
  rw [getElem_contents]
  cases index with
  | zero =>
      have first : ring.place 0 = ring.r := by simp [place, rInside]
      simp only [first, List.getElem_cons_zero]
      rfl
  | succ index =>
      rw [List.getElem_cons_succ, getElem_contents]
      have samePlace : ring.place (index + 1) = ring.next.place index := by
        have bound : index + 1 < ring.used := by simpa using here
        have wInside := ring.wInside
        rw [used] at bound
        rw [place, place, next_r]
        split at bound <;> split <;> split <;> split <;> omega
      simp only [samePlace]
      rfl

/-- The place of the cell that was read last. -/
def lentPlace (ring : Ring Cell size) : Nat := if ring.r = 0 then size - 1 else ring.r - 1

theorem lentPlace_lt (ring : Ring Cell size) : ring.lentPlace < size := by
  have rInside := ring.rInside
  unfold lentPlace
  split <;> omega

/-- The cell that was read last. -/
def lent (ring : Ring Cell size) : Cell := ring.cells.get ⟨ring.lentPlace, ring.lentPlace_lt⟩

/-- A write that leaves a cell free does not touch the cell that was read last.  So a reader may
go on using the cell until the ring is full. -/
theorem lent_put {ring : Ring Cell size} (room : ¬ ring.Full) (cell : Cell) :
    (ring.put cell).lent = ring.lent := by
  have apart : ring.lentPlace ≠ ring.w := by
    have wInside := ring.wInside
    have rInside := ring.rInside
    rw [Full, after_eq wInside] at room
    unfold lentPlace
    split at room <;> split <;> omega
  exact get_set_other ring.wInside _ apart cell

theorem lentPlace_next (ring : Ring Cell size) : ring.next.lentPlace = ring.r := by
  have rInside := ring.rInside
  rw [lentPlace, next_r]
  split <;> split <;> omega

end Ring

end Rings
