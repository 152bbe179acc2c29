/-
Module: Nwmng.Utils.StartupMemory
Purpose: Reads and writes of the members that share the union of the arguments.
Trusted boundary: as in Nwmng.Utils.Startup
Main exports:
  HoldsText, getText_of_holds, holds_putText, EndsAt, ends_trim, holds_trim, number_trim
-/
import Mathlib.Data.List.TakeWhile
import Mathlib.Tactic.IntervalCases
import Nwmng.Utils.Startup

namespace Nwmng

/-! ## Bytes -/

theorem byteAt_cellsOf {byte : Nat → Char} {i : Nat} (inside : i < unionSize) :
    byteAt (cellsOf byte) i = byte i := by
  simp [byteAt, cellsOf, List.getD, inside]

theorem byteAt_putText_of_outside {cells text : List Char} {start i : Nat}
    (outside : i < start ∨ start + text.length < i) (inside : i < unionSize) :
    byteAt (putText cells start text) i = byteAt cells i := by
  rw [putText, byteAt_cellsOf inside, if_pos outside]

theorem byteAt_putNumber {cells : List Char} {number i : Nat} (inside : i < 4) :
    byteAt (putNumber cells number) i = numberByte number i := by
  rw [putNumber, byteAt_cellsOf (by simp only [unionSize]; omega), if_pos inside]

theorem byteAt_putNumber_of_outside {cells : List Char} {number i : Nat} (outside : 4 ≤ i)
    (inside : i < unionSize) : byteAt (putNumber cells number) i = byteAt cells i := by
  rw [putNumber, byteAt_cellsOf inside, if_neg (by omega)]

theorem byteAt_putByte_self {cells : List Char} {byte : Char} {place : Nat}
    (inside : place < unionSize) : byteAt (putByte cells place byte) place = byte := by
  rw [putByte, byteAt_cellsOf inside, if_pos rfl]

theorem byteAt_putByte_of_ne {cells : List Char} {byte : Char} {place i : Nat}
    (other : i ≠ place) (inside : i < unionSize) :
    byteAt (putByte cells place byte) i = byteAt cells i := by
  rw [putByte, byteAt_cellsOf inside, if_neg other]

/-! ## Overwrites that do not meet -/

/-- A write sets its own bytes, whatever was there, and leaves the others.  Two writes with bytes
of their own can be made in either order. -/
structure Overwrites (write : List Char → List Char) (own : Nat → Prop) : Prop where
  whole : ∀ cells, ∃ byte, write cells = cellsOf byte
  inside : ∀ cells other i, own i → i < unionSize →
    byteAt (write cells) i = byteAt (write other) i
  outside : ∀ cells i, ¬ own i → i < unionSize → byteAt (write cells) i = byteAt cells i

theorem cellsOf_byteAt {cells : List Char} {byte : Nat → Char} (whole : cells = cellsOf byte) :
    cells = cellsOf (byteAt cells) := by
  subst whole
  refine List.map_congr_left fun i inside => ?_
  rw [byteAt_cellsOf (List.mem_range.1 inside)]

theorem Overwrites.comm {first second : List Char → List Char} {own other : Nat → Prop}
    (writes : Overwrites first own) (writes' : Overwrites second other)
    (apart : ∀ i, own i → ¬ other i) (cells : List Char) :
    first (second cells) = second (first cells) := by
  obtain ⟨_, left⟩ := writes.whole (second cells)
  obtain ⟨_, right⟩ := writes'.whole (first cells)
  rw [cellsOf_byteAt left, cellsOf_byteAt right]
  refine List.map_congr_left fun i range => ?_
  have inside := List.mem_range.1 range
  by_cases mine : own i
  · rw [writes'.outside _ i (apart i mine) inside]
    exact writes.inside _ _ i mine inside
  · rw [writes.outside _ i mine inside]
    by_cases yours : other i
    · exact writes'.inside _ _ i yours inside
    · rw [writes'.outside _ i yours inside, writes'.outside _ i yours inside,
        writes.outside _ i mine inside]

theorem writes_putText (start : Nat) (text : List Char) :
    Overwrites (fun cells => putText cells start text)
      fun i => start ≤ i ∧ i ≤ start + text.length where
  whole _ := ⟨_, rfl⟩
  inside cells other i own inside := by
    rw [putText, putText, byteAt_cellsOf inside, byteAt_cellsOf inside, if_neg (by omega),
      if_neg (by omega)]
  outside cells i other inside := byteAt_putText_of_outside (by omega) inside

theorem writes_putNumber (number : Nat) :
    Overwrites (fun cells => putNumber cells number) fun i => i < 4 where
  whole _ := ⟨_, rfl⟩
  inside cells other i own _ := by rw [byteAt_putNumber own, byteAt_putNumber own]
  outside cells i other inside := byteAt_putNumber_of_outside (by omega) inside

theorem writes_putFlag (flag : Bool) :
    Overwrites (fun cells => putFlag cells flag) fun i => i = 0 where
  whole cells := ⟨fun i => if i = 0 then (if flag then Char.ofNat 1 else nulChar)
    else byteAt cells i, rfl⟩
  inside cells other i own inside := by
    subst own
    rw [putFlag, putFlag, byteAt_putByte_self inside, byteAt_putByte_self inside]
  outside cells i other inside := byteAt_putByte_of_ne other inside

/-!
## Strings

The members of a mode overlap with those of the other one.  A string is a fact about bytes at an
offset, and survives every write elsewhere.
-/

/-- A string and the byte that ends it are at an offset. -/
def HoldsText (cells : List Char) (start : Nat) (text : List Char) : Prop :=
  start + text.length < unionSize ∧
    ∀ k ≤ text.length, byteAt cells (start + k) = text.getD k nulChar

theorem HoldsText.frame {cells other text : List Char} {start : Nat}
    (holds : HoldsText cells start text)
    (same : ∀ i, start ≤ i → i ≤ start + text.length → byteAt other i = byteAt cells i) :
    HoldsText other start text :=
  ⟨holds.1, fun k inside => (same _ (by omega) (by omega)).trans (holds.2 k inside)⟩

theorem HoldsText.putFlag {cells text : List Char} {start : Nat}
    (holds : HoldsText cells start text) (late : 0 < start) (flag : Bool) :
    HoldsText (putFlag cells flag) start text :=
  holds.frame fun i low high =>
    byteAt_putByte_of_ne (by omega) (by have := holds.1; omega)

theorem holds_putText {text : List Char} {start : Nat} (cells : List Char)
    (room : start + text.length < unionSize) : HoldsText (putText cells start text) start text := by
  refine ⟨room, fun k inside => ?_⟩
  rw [putText, byteAt_cellsOf (by omega), if_neg (by omega), Nat.add_sub_cancel_left]

/-- The bytes from an offset on, as far as the string and its end. -/
theorem HoldsText.bytes {cells text : List Char} {start : Nat}
    (holds : HoldsText cells start text) :
    ∃ rest, ((List.range (unionSize - start)).map fun i => byteAt cells (start + i)) =
      text ++ nulChar :: rest := by
  obtain ⟨room, bytes⟩ := holds
  have front : ((List.range (text.length + 1)).map fun i => byteAt cells (start + i)) =
      text ++ [nulChar] := by
    refine List.ext_getElem (by simp) fun k inside _ => ?_
    have within : k ≤ text.length := by simpa [Nat.lt_succ_iff] using inside
    rw [List.getElem_map, List.getElem_range, bytes k within]
    by_cases last : k < text.length
    · rw [List.getElem_append_left last, List.getD_eq_getElem _ _ last]
    · have : k = text.length := by omega
      subst this
      simp
  obtain ⟨more, size⟩ := Nat.exists_eq_add_of_le (show text.length + 1 ≤ unionSize - start by omega)
  refine ⟨(List.range more).map fun i => byteAt cells (start + (text.length + 1 + i)), ?_⟩
  rw [size, List.range_add, List.map_append, front, List.map_map, List.append_assoc]
  rfl

theorem cString_of_split {front : List Char} (plain : nulChar ∉ front) (rest : List Char) :
    cString (front ++ nulChar :: rest) = front := by
  have every : ∀ char ∈ front, decide (char ≠ nulChar) = true := fun char inside =>
    decide_eq_true fun same => plain (same ▸ inside)
  rw [cString, List.takeWhile_append_of_pos every, List.takeWhile_cons_of_neg (by simp),
    List.append_nil]

theorem getText_of_holds {cells text : List Char} {start : Nat}
    (holds : HoldsText cells start text) (plain : nulChar ∉ text) : getText cells start = text := by
  obtain ⟨rest, bytes⟩ := holds.bytes
  rw [getText, bytes, cString_of_split plain]

/-- Each character of a string that is read stands in the union. -/
theorem byteAt_of_getText {cells : List Char} {start k : Nat} {char : Char}
    (read : (getText cells start)[k]? = some char) :
    byteAt cells (start + k) = char ∧ start + k < unionSize := by
  have whole : getText cells start <+:
      (List.range (unionSize - start)).map fun i => byteAt cells (start + i) :=
    List.takeWhile_prefix _
  obtain ⟨rest, split⟩ := whole
  have inside := (List.getElem?_eq_some_iff.1 read).1
  have there : ((List.range (unionSize - start)).map fun i => byteAt cells (start + i))[k]? =
      some char := by
    rw [← split, List.getElem?_append_left inside, read]
  obtain ⟨bound, value⟩ := List.getElem?_eq_some_iff.1 there
  rw [List.getElem_map, List.getElem_range] at value
  rw [List.length_map, List.length_range] at bound
  exact ⟨value, by omega⟩

/-! ## The newline that is cut off -/

/-- The place of the last newline of a string. -/
def lastNewline (text : List Char) : Nat := text.length - 1 - text.reverse.idxOf '\n'

theorem lastNewline_spec {text : List Char} (inside : '\n' ∈ text) :
    text[lastNewline text]? = some '\n' := by
  have found : text.reverse.idxOf '\n' < text.reverse.length :=
    List.idxOf_lt_length_of_mem (List.mem_reverse.2 inside)
  have value := List.getElem_idxOf found
  rw [List.length_reverse] at found
  rw [List.getElem_reverse] at value
  rw [lastNewline, List.getElem?_eq_getElem (by omega), value]

theorem lastNewline_append {front tail : List Char} (plain : '\n' ∉ tail)
    (inside : '\n' ∈ front) : lastNewline (front ++ tail) = lastNewline front := by
  have absent : '\n' ∉ tail.reverse := fun there => plain (List.mem_reverse.1 there)
  have found : front.reverse.idxOf '\n' < front.reverse.length :=
    List.idxOf_lt_length_of_mem (List.mem_reverse.2 inside)
  rw [List.length_reverse] at found
  rw [lastNewline, lastNewline, List.reverse_append, List.idxOf_append_of_notMem absent,
    List.length_append, List.length_reverse]
  omega

theorem trimNewline_of_plain {cells : List Char} {start : Nat}
    (plain : '\n' ∉ getText cells start) : trimNewline start cells = cells :=
  if_neg plain

theorem trimNewline_of_newline {cells : List Char} {start : Nat}
    (inside : '\n' ∈ getText cells start) :
    trimNewline start cells = putByte cells (start + lastNewline (getText cells start)) nulChar :=
  if_pos inside

/-- All that a trim can do: one newline behind its offset becomes the end of a string. -/
theorem trimNewline_cases (start : Nat) (cells : List Char) :
    trimNewline start cells = cells ∨
      ∃ place, start ≤ place ∧ place < unionSize ∧ byteAt cells place = '\n' ∧
        trimNewline start cells = putByte cells place nulChar := by
  by_cases inside : '\n' ∈ getText cells start
  · obtain ⟨newline, bound⟩ := byteAt_of_getText (lastNewline_spec inside)
    exact .inr ⟨_, Nat.le_add_right .., bound, newline, trimNewline_of_newline inside⟩
  · exact .inl (trimNewline_of_plain inside)

/-- A string stays as it is where it has no newline. -/
theorem HoldsText.trim {cells text : List Char} {start : Nat} (holds : HoldsText cells start text)
    (plain : '\n' ∉ text) (other : Nat) : HoldsText (trimNewline other cells) start text := by
  rcases trimNewline_cases other cells with same | ⟨place, -, bound, newline, trimmed⟩
  · rwa [same]
  · rw [trimmed]
    refine holds.frame fun i low high => byteAt_putByte_of_ne (fun same => ?_) ?_
    · subst same
      obtain ⟨k, rfl⟩ := Nat.exists_eq_add_of_le low
      rw [holds.2 k (by omega)] at newline
      by_cases last : k < text.length
      · rw [List.getD_eq_getElem _ _ last] at newline
        exact plain (newline ▸ List.getElem_mem last)
      · rw [List.getD_eq_default _ _ (by omega)] at newline
        exact absurd newline (by decide)
    · have := holds.1
      omega

/-- A string at an offset, possibly with the newline of its line.  Paths that come from the file
keep the newline, paths from the command line have none. -/
def EndsAt (cells : List Char) (start : Nat) (text : List Char) : Prop :=
  HoldsText cells start text ∨ HoldsText cells start (text ++ ['\n'])

/-- With its newline cut off, a string that ended in it is there without it. -/
theorem holds_putByte {cells text : List Char} {start : Nat}
    (holds : HoldsText cells start (text ++ ['\n'])) :
    HoldsText (putByte cells (start + text.length) nulChar) start text := by
  obtain ⟨room, bytes⟩ := holds
  rw [List.length_append, List.length_singleton] at room bytes
  refine ⟨by omega, fun k inside => ?_⟩
  by_cases last : k < text.length
  · rw [byteAt_putByte_of_ne (by omega) (by omega), bytes k (by omega)]
    exact List.getD_append _ _ _ _ last
  · have : k = text.length := by omega
    subst this
    rw [byteAt_putByte_self (by omega), List.getD_eq_default _ _ (Nat.le_refl _)]

theorem ends_trim {cells text : List Char} {start : Nat} (ends : EndsAt cells start text)
    (plain : '\n' ∉ text) (other : Nat) : EndsAt (trimNewline other cells) start text := by
  rcases ends with holds | holds
  · exact .inl (holds.trim plain other)
  · rcases trimNewline_cases other cells with same | ⟨place, -, bound, newline, trimmed⟩
    · rw [same]
      exact .inr holds
    · rw [trimmed]
      by_cases own : place = start + text.length
      · subst own
        exact .inl (holds_putByte holds)
      · refine .inr (holds.frame fun i low high => byteAt_putByte_of_ne (fun same => ?_) ?_)
        · subst same
          obtain ⟨k, rfl⟩ := Nat.exists_eq_add_of_le low
          rw [List.length_append, List.length_singleton] at high
          have value := holds.2 k (by simp; omega)
          rw [newline] at value
          by_cases front : k < text.length
          · rw [List.getD_append _ _ _ _ front, List.getD_eq_getElem _ _ front] at value
            exact plain (value ▸ List.getElem_mem front)
          · rw [List.getD_eq_default _ _ (by simp; omega)] at value
            exact absurd value (by decide)
        · have := holds.1
          omega

theorem mem_of_nul {text : List Char} (plain : nulChar ∉ text) :
    nulChar ∉ text ++ ['\n'] := by
  simp [plain, show nulChar ≠ '\n' by decide]

/-- The string at the offset that is trimmed ends without a newline. -/
theorem holds_trim {cells text : List Char} {start : Nat} (ends : EndsAt cells start text)
    (plain : '\n' ∉ text) (proper : nulChar ∉ text) :
    HoldsText (trimNewline start cells) start text := by
  rcases ends with holds | holds
  · exact holds.trim plain start
  · have read := getText_of_holds holds (mem_of_nul proper)
    have inside : '\n' ∈ getText cells start := by rw [read]; simp
    have place : lastNewline (getText cells start) = text.length := by
      rw [read, lastNewline]
      simp
    rw [trimNewline_of_newline inside, place]
    exact holds_putByte holds

/-!
## The number that shares its bytes with a string

The trim of the first path runs in both modes.  In one of them the bytes that it takes for a path
are those of the baud rate, and it ends them at a newline.
-/

theorem numberByte_toNat (number place : Nat) :
    (numberByte number place).toNat = number / 256 ^ place % 256 := by
  have valid : (number / 256 ^ place % 256).isValidChar := .inl (by omega)
  rw [numberByte, Char.ofNat, dif_pos valid]
  rfl

/-- The number whose bytes stand at the front of the union. -/
def Numbers (cells : List Char) (number : Nat) : Prop :=
  number < 2 ^ 32 ∧ ∀ i < 4, byteAt cells i = numberByte number i

theorem Numbers.getNumber {cells : List Char} {number : Nat} (numbers : Numbers cells number) :
    getNumber cells = number := by
  obtain ⟨bound, bytes⟩ := numbers
  rw [Nwmng.getNumber, bytes 0 (by decide), bytes 1 (by decide), bytes 2 (by decide),
    bytes 3 (by decide)]
  simp only [numberByte_toNat]
  omega

theorem Numbers.frame {cells other : List Char} {number : Nat} (numbers : Numbers cells number)
    (same : ∀ i < 4, byteAt other i = byteAt cells i) : Numbers other number :=
  ⟨numbers.1, fun i inside => (same i inside).trans (numbers.2 i inside)⟩

theorem numbers_putNumber {number : Nat} (bound : number < 2 ^ 32) (cells : List Char) :
    Numbers (putNumber cells number) number :=
  ⟨bound, fun _ inside => byteAt_putNumber inside⟩

theorem getNumber_putByte {cells : List Char} {place : Nat} (inside : place < 4)
    (nonzero : 0 < (byteAt cells place).toNat) :
    getNumber (putByte cells place nulChar) < getNumber cells := by
  have own : (byteAt (putByte cells place nulChar) place).toNat = 0 := by
    rw [byteAt_putByte_self (by simp only [unionSize]; omega)]
    rfl
  have lower : ∀ i < 4, (byteAt (putByte cells place nulChar) i).toNat ≤
      (byteAt cells i).toNat := fun i low => by
    by_cases same : i = place
    · subst same
      omega
    · rw [byteAt_putByte_of_ne same (by simp only [unionSize]; omega)]
  have first := lower 0 (by decide)
  have second := lower 1 (by decide)
  have third := lower 2 (by decide)
  have fourth := lower 3 (by decide)
  rw [getNumber, getNumber]
  interval_cases place <;> omega

/-- A trim behind the number leaves it. -/
theorem Numbers.trim {cells : List Char} {number start : Nat} (numbers : Numbers cells number)
    (behind : 4 ≤ start) : Numbers (trimNewline start cells) number := by
  rcases trimNewline_cases start cells with same | ⟨place, low, bound, -, trimmed⟩
  · rwa [same]
  · rw [trimmed]
    exact numbers.frame fun i inside =>
      byteAt_putByte_of_ne (by omega) (by simp only [unionSize]; omega)

/-- The bytes of a number that the trim of the first path reads as text. -/
def highBytes (number : Nat) : List Char := cString ([1, 2, 3].map (numberByte number))

/-- Bytes with a zero byte among them hold the string before it. -/
theorem holds_cString {cells bytes : List Char} {start : Nat}
    (room : start + bytes.length ≤ unionSize) (ends : nulChar ∈ bytes)
    (same : ∀ k < bytes.length, byteAt cells (start + k) = bytes.getD k nulChar) :
    HoldsText cells start (cString bytes) := by
  obtain ⟨front, rest, rfl, plain⟩ := List.eq_append_cons_of_mem ends
  rw [cString_of_split plain]
  rw [List.length_append, List.length_cons] at room same
  refine ⟨by omega, fun k inside => ?_⟩
  rw [same k (by omega)]
  by_cases last : k < front.length
  · exact List.getD_append _ _ _ _ last
  · have : k = front.length := by omega
    subst this
    rw [List.getD_append_right _ _ _ _ (Nat.le_refl _), Nat.sub_self, List.getD_cons_zero,
      List.getD_eq_default _ _ (Nat.le_refl _)]

theorem holds_append {cells bytes text : List Char} {start : Nat}
    (same : ∀ k < bytes.length, byteAt cells (start + k) = bytes.getD k nulChar)
    (behind : HoldsText cells (start + bytes.length) text) :
    HoldsText cells start (bytes ++ text) := by
  obtain ⟨room, rest⟩ := behind
  refine ⟨by rw [List.length_append]; omega, fun k inside => ?_⟩
  rw [List.length_append] at inside
  by_cases front : k < bytes.length
  · rw [same k front, List.getD_append _ _ _ _ front]
  · obtain ⟨more, rfl⟩ := Nat.exists_eq_add_of_le (Nat.not_lt.1 front)
    rw [← Nat.add_assoc, rest more (by omega), List.getD_append_right _ _ _ _ (by omega),
      Nat.add_sub_cancel_left]

theorem highBytes_plain (number : Nat) : nulChar ∉ highBytes number := fun inside => by
  simpa using List.mem_takeWhile_imp inside

theorem Numbers.high {cells : List Char} {number : Nat} (numbers : Numbers cells number) :
    ∀ k < ([1, 2, 3].map (numberByte number)).length,
      byteAt cells (1 + k) = ([1, 2, 3].map (numberByte number)).getD k nulChar
  | 0, _ => numbers.2 1 (by decide)
  | 1, _ => numbers.2 2 (by decide)
  | 2, _ => numbers.2 3 (by decide)

/-- What the trim of the first path reads over a number and a port: the bytes up to the
first zero, and when there is none the port as well. -/
theorem getText_over_number {cells port : List Char} {number : Nat}
    (numbers : Numbers cells number) (holds : HoldsText cells portAt port)
    (proper : nulChar ∉ port) :
    ∃ tail, getText cells srvAt = highBytes number ++ tail ∧ (tail = [] ∨ tail = port) := by
  by_cases zero : nulChar ∈ [1, 2, 3].map (numberByte number)
  · have short : HoldsText cells srvAt (highBytes number) :=
      holds_cString (by simp [srvAt, unionSize]) zero numbers.high
    exact ⟨[], (getText_of_holds short (highBytes_plain number)).trans (List.append_nil _).symm,
      .inl rfl⟩
  · have all : highBytes number = [1, 2, 3].map (numberByte number) :=
      List.takeWhile_eq_self_iff.2 fun char inside =>
        decide_eq_true fun same => zero (same ▸ inside)
    have long : HoldsText cells srvAt (highBytes number ++ port) := by
      rw [all]
      exact holds_append numbers.high holds
    refine ⟨port, getText_of_holds long fun inside => ?_, .inr rfl⟩
    rcases List.mem_append.1 inside with high | behind
    · exact highBytes_plain number high
    · exact proper behind

/-- The trim of the first path leaves a number exactly when it reads no newline among its
bytes. -/
theorem number_trim {cells port : List Char} {number : Nat} (numbers : Numbers cells number)
    (holds : HoldsText cells portAt port) (proper : nulChar ∉ port) (plain : '\n' ∉ port) :
    getNumber (trimNewline srvAt cells) = number ↔ '\n' ∉ highBytes number := by
  obtain ⟨tail, read, short⟩ := getText_over_number numbers holds proper
  have tailPlain : '\n' ∉ tail := by
    rcases short with rfl | rfl
    · exact List.not_mem_nil
    · exact plain
  constructor
  · intro kept inside
    have newline : '\n' ∈ getText cells srvAt := read ▸ List.mem_append_left tail inside
    have place : lastNewline (getText cells srvAt) = lastNewline (highBytes number) := by
      rw [read, lastNewline_append tailPlain inside]
    have spec := lastNewline_spec inside
    have few : (highBytes number).length ≤ 3 := (List.takeWhile_prefix _).length_le
    have bound := (List.getElem?_eq_some_iff.1 spec).1
    have value := (byteAt_of_getText (lastNewline_spec newline)).1
    rw [trimNewline_of_newline newline, place] at kept
    rw [place] at value
    generalize lastNewline (highBytes number) = k at *
    have lower : getNumber (putByte cells (srvAt + k) nulChar) < getNumber cells :=
      getNumber_putByte (by simp only [srvAt]; omega) (by rw [value]; decide)
    rw [kept, numbers.getNumber] at lower
    exact Nat.lt_irrefl _ lower
  · intro absent
    have none : '\n' ∉ getText cells srvAt := by
      rw [read]
      exact fun inside => (List.mem_append.1 inside).elim absent tailPlain
    rw [trimNewline_of_plain none, numbers.getNumber]

end Nwmng
