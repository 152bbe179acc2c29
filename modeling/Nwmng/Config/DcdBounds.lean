/-
Module: Nwmng.Config.DcdBounds
Purpose: Which bytes `__dcd_store` reads, where its one-byte cursor goes, and for which data both
stay inside the page that was received.
Trusted boundary: none
Main exports:
  DcdAccess, dcdAccesses, dcdStore_congr, DcdSafe, DcdPage.Announced, dcd_safe_iff,
  dcd_reads_behind_page
-/
import Mathlib
import Nwmng.Config.DcdCodec

namespace Nwmng

open Bytes

/-! ## The accesses -/

/-- What `__dcd_store` does with its cursor: it reads the byte at a place, or moves the cursor
by an amount. -/
inductive DcdAccess where
  | read (place : Nat)
  | advance (i : UInt8) (amount : Nat)
deriving Repr, DecidableEq

/-- The byte was received, and the cursor does not wrap. -/
def DcdAccess.Inside (len : Nat) : DcdAccess → Prop
  | .read place => place < len
  | .advance i amount => i.toNat + amount < 256

instance (len : Nat) : (access : DcdAccess) → Decidable (access.Inside len)
  | .read place => inferInstanceAs (Decidable (place < len))
  | .advance i amount => inferInstanceAs (Decidable (i.toNat + amount < 256))

/-- The accesses of the first pass. -/
def countAccesses (sigmCnt vmCnt len : UInt8) : Nat → UInt8 → List DcdAccess
  | 0, _ => []
  | fuel + 1, i =>
      let half := i + 2 * sigmCnt
      let next := half + 2 * vmCnt * 2
      .advance i (2 * sigmCnt.toNat) :: .advance half (4 * vmCnt.toNat) ::
        if next < len then countAccesses sigmCnt vmCnt len fuel next else []

/-- The accesses for some values of two bytes, one after the other. -/
def valueAccesses : Nat → UInt8 → List DcdAccess
  | 0, _ => []
  | count + 1, i =>
      .read i.toNat :: .read (i.toNat + 1) :: .advance i 2 :: valueAccesses count (i + 2)

/-- The accesses for one element, from its model counts on; a vendor model has two values. -/
def elementAccesses (data : Memory) (i : UInt8) : List DcdAccess :=
  let sigmCnt := data i.toNat
  let vmCnt := data (i + 1).toNat
  .read i.toNat :: .advance i 1 :: .read (i + 1).toNat :: .advance (i + 1) 1 ::
    (valueAccesses sigmCnt.toNat (i + 2) ++
      valueAccesses (2 * vmCnt.toNat) (i + 2 + 2 * sigmCnt))

/-- The cursor behind an element. -/
def elementCursor (data : Memory) (i : UInt8) : UInt8 :=
  i + 2 + 2 * data i.toNat + 4 * data (i + 1).toNat

/-- The accesses of the second pass; the location is skipped between two elements. -/
def elementsAccesses (data : Memory) : Nat → UInt8 → List DcdAccess
  | 0, _ => []
  | 1, i => elementAccesses data i
  | count + 2, i =>
      let last := elementCursor data i
      elementAccesses data i ++ .advance last 2 :: elementsAccesses data (count + 1) (last + 2)

/-- The accesses of `__dcd_store`, in order. -/
def dcdAccesses (fuel : Nat) (data : Memory) (len : UInt8) : List DcdAccess :=
  .read 12 :: .read 13 :: .advance 12 2 :: (countAccesses (data 12) (data 13) len fuel 14 ++
    match countElements (data 12) (data 13) len fuel 14 0 with
    | none => []
    | some elementCnt =>
        .read 8 :: .read 9 :: .advance 8 2 :: .advance 10 2 ::
          elementsAccesses data elementCnt.toNat 12)

/-!
## The accesses are those of the program

The list of accesses is not a second model that could differ from the first: changing a byte that
is not in the list does not change the result.
-/

/-- The same bytes at every place that is read.  Two memories that agree there are decoded alike,
so a decoding that stays inside depends on the received bytes only. -/
def SameReads (accesses : List DcdAccess) (data other : Memory) : Prop :=
  ∀ place, .read place ∈ accesses → data place = other place

theorem SameReads.cons {access : DcdAccess} {accesses : List DcdAccess} {data other : Memory}
    (same : SameReads (access :: accesses) data other) : SameReads accesses data other :=
  fun place member => same place (List.mem_cons_of_mem _ member)

theorem SameReads.head {place : Nat} {accesses : List DcdAccess} {data other : Memory}
    (same : SameReads (.read place :: accesses) data other) : data place = other place :=
  same place List.mem_cons_self

theorem SameReads.append {first second : List DcdAccess} {data other : Memory}
    (same : SameReads (first ++ second) data other) :
    SameReads first data other ∧ SameReads second data other :=
  ⟨fun place member => same place (List.mem_append_left _ member),
    fun place member => same place (List.mem_append_right _ member)⟩

theorem readU16_congr {data other : Memory} {place : Nat} (low : data place = other place)
    (high : data (place + 1) = other (place + 1)) : readU16 data place = readU16 other place := by
  rw [readU16, readU16, low, high]

theorem readSigModels_congr {data other : Memory} {count : Nat} {i : UInt8} (func : BitVec 8)
    (same : SameReads (valueAccesses count i) data other) :
    readSigModels data count i func = readSigModels other count i func := by
  induction count generalizing i func with
  | zero => rfl
  | succ count hypothesis =>
      have low := same.head
      have high := same.cons.head
      have later := hypothesis (func ||| funcBit (readU16 data i.toNat)) same.cons.cons.cons
      simp only [readSigModels, later]
      rw [readU16_congr low high]

theorem readVendorModels_congr {data other : Memory} {count : Nat} {i : UInt8}
    (same : SameReads (valueAccesses (2 * count) i) data other) :
    readVendorModels data count i = readVendorModels other count i := by
  induction count generalizing i with
  | zero => rfl
  | succ count hypothesis =>
      have vid := readU16_congr same.head same.cons.head
      have second := same.cons.cons.cons
      have mid := readU16_congr second.head second.cons.head
      have behind : i + 2 + 2 = i + 4 := by rw [UInt8.add_assoc]; rfl
      have later := second.cons.cons.cons
      rw [behind] at later
      simp only [readVendorModels, vid, mid, hypothesis later]

/-- The cursor behind some SIG models. -/
theorem cursor_readSigModels (data : Memory) (count : Nat) (i : UInt8) (func : BitVec 8) :
    (readSigModels data count i func).2.1 = i + 2 * UInt8.ofNat count := by
  induction count generalizing i func with
  | zero => simp [readSigModels]
  | succ count hypothesis =>
      simp only [readSigModels, hypothesis]
      rw [UInt8.ofNat_add, UInt8.mul_add, UInt8.add_assoc, UInt8.add_comm 2]
      rfl

theorem cursor_readVendorModels (data : Memory) (count : Nat) (i : UInt8) :
    (readVendorModels data count i).2 = i + 4 * UInt8.ofNat count := by
  induction count generalizing i with
  | zero => simp [readVendorModels]
  | succ count hypothesis =>
      simp only [readVendorModels, hypothesis]
      rw [UInt8.ofNat_add, UInt8.mul_add, UInt8.add_assoc, UInt8.add_comm 4]
      rfl

theorem cursor_readElement (data : Memory) (i : UInt8) (func : BitVec 8) :
    (readElement data i func).2.1 = elementCursor data i := by
  simp only [readElement, elementCursor, cursor_readVendorModels, cursor_readSigModels,
    UInt8.ofNat_toNat]

theorem readElement_congr {data other : Memory} {i : UInt8} (func : BitVec 8)
    (same : SameReads (elementAccesses data i) data other) :
    readElement data i func = readElement other i func := by
  have first := same.head
  have second := same.cons.cons.head
  obtain ⟨sig, vendor⟩ := same.cons.cons.cons.cons.append
  have sigRead := readSigModels_congr func sig
  have cursor := cursor_readSigModels data (data i.toNat).toNat (i + 2) func
  rw [UInt8.ofNat_toNat] at cursor
  rw [← cursor] at vendor
  have vendorRead := readVendorModels_congr vendor
  simp only [readElement]
  rw [← first, ← second, ← sigRead, vendorRead]

theorem readElements_congr {data other : Memory} {count : Nat} {i : UInt8} (func : BitVec 8)
    (same : SameReads (elementsAccesses data count i) data other) :
    (readElements data count i func).1 = (readElements other count i func).1 ∧
      (readElements data count i func).2.2 = (readElements other count i func).2.2 := by
  induction count generalizing i func with
  | zero => exact ⟨rfl, rfl⟩
  | succ count hypothesis =>
      cases count with
      | zero =>
          have element := readElement_congr func same
          simp only [readElements, element, and_self]
      | succ count =>
          obtain ⟨here, later⟩ := same.append
          have element := readElement_congr func here
          have cursor := cursor_readElement data i func
          have rest := later.cons
          rw [← cursor] at rest
          obtain ⟨elems, bits⟩ := hypothesis (readElement data i func).2.2 rest
          rw [element] at elems bits
          constructor
          · rw [readElements, readElements, element]
            dsimp only
            rw [elems]
          · rw [readElements, readElements, element]
            exact bits

/-- The result depends on the bytes that the accesses read, and on no others.  So what lies
behind the page matters only if an access is outside. -/
theorem dcdStore_congr {fuel : Nat} {data other : Memory} {len : UInt8} (func : BitVec 8)
    (same : SameReads (dcdAccesses fuel data len) data other) :
    dcdStore fuel data len func = dcdStore fuel other len func := by
  have first := same.head
  have second := same.cons.head
  obtain ⟨-, later⟩ := same.cons.cons.cons.append
  unfold dcdStore
  rw [← first, ← second]
  cases count : countElements (data 12) (data 13) len fuel 14 0 with
  | none => rfl
  | some elementCnt =>
      rw [count] at later
      have feature := readU16_congr later.head later.cons.head
      obtain ⟨elems, bits⟩ := readElements_congr func later.cons.cons.cons.cons
      dsimp only
      rw [elems, bits, feature]

/-!
## Where the passes end

The cursor has one byte.  As long as nothing wraps it counts like a number, and both passes can
be followed in plain arithmetic; the first wrap is at the same time the first access that is not
inside.
-/

/-- The end of an element, in numbers that do not wrap. -/
def elementEnd (data : Memory) (i : Nat) : Nat :=
  i + 2 + 2 * (data i).toNat + 4 * (data (i + 1)).toNat

/-- The end of some elements. -/
def elementsEnd (data : Memory) : Nat → Nat → Nat
  | 0, i => i
  | 1, i => elementEnd data i
  | count + 2, i => elementsEnd data (count + 1) (elementEnd data i + 2)

theorem le_elementEnd (data : Memory) (i : Nat) : i + 2 ≤ elementEnd data i := by
  unfold elementEnd
  omega

theorem le_elementsEnd (data : Memory) (count i : Nat) :
    elementEnd data i ≤ elementsEnd data (count + 1) i := by
  induction count generalizing i with
  | zero => exact Nat.le_refl _
  | succ count hypothesis =>
      have later := hypothesis (elementEnd data i + 2)
      have grown := le_elementEnd data (elementEnd data i + 2)
      change elementEnd data i ≤ elementsEnd data (count + 1) (elementEnd data i + 2)
      omega

/-- Every access is inside.  Reads are judged against the bytes that were received, stores
against the arrays that the first pass made room for. -/
def AllInside (len : Nat) (accesses : List DcdAccess) : Prop :=
  ∀ access ∈ accesses, access.Inside len

@[simp] theorem allInside_nil (len : Nat) : AllInside len [] :=
  fun _ impossible => nomatch impossible

@[simp] theorem allInside_read {len place : Nat} {accesses : List DcdAccess} :
    AllInside len (.read place :: accesses) ↔ place < len ∧ AllInside len accesses :=
  List.forall_mem_cons

@[simp] theorem allInside_advance {len amount : Nat} {i : UInt8} {accesses : List DcdAccess} :
    AllInside len (.advance i amount :: accesses) ↔
      i.toNat + amount < 256 ∧ AllInside len accesses :=
  List.forall_mem_cons

@[simp] theorem allInside_append {len : Nat} {first second : List DcdAccess} :
    AllInside len (first ++ second) ↔ AllInside len first ∧ AllInside len second :=
  List.forall_mem_append

theorem toNat_add_two {i : UInt8} {len : Nat} (short : len ≤ 255) (inside : i.toNat + 1 < len) :
    (i + 2).toNat = i.toNat + 2 :=
  UInt8.toNat_add_of_lt (by simp; omega)

theorem valueAccesses_inside_iff {len : Nat} (short : len ≤ 255) (count : Nat) (i : UInt8) :
    AllInside len (valueAccesses count i) ↔
      count = 0 ∨ i.toNat + 2 * count ≤ len := by
  induction count generalizing i with
  | zero => simp [valueAccesses]
  | succ count hypothesis =>
      simp only [valueAccesses, allInside_read, allInside_advance, hypothesis]
      constructor
      · rintro ⟨_, high, _, later⟩
        have behind := toNat_add_two short high
        omega
      · intro inside
        have high : i.toNat + 1 < len := by omega
        have behind := toNat_add_two short high
        omega

theorem elementAccesses_inside_iff {len : Nat} (short : len ≤ 255) (data : Memory) (i : UInt8) :
    AllInside len (elementAccesses data i) ↔ elementEnd data i.toNat ≤ len := by
  simp only [elementAccesses, allInside_read, allInside_advance, allInside_append,
    valueAccesses_inside_iff short, elementEnd]
  by_cases second : i.toNat + 1 < len
  · have next : (i + 1).toNat = i.toNat + 1 := UInt8.toNat_add_of_lt (by simp; omega)
    have behind := toNat_add_two short second
    rw [next]
    by_cases sig : i.toNat + 2 + 2 * (data i.toNat).toNat ≤ len
    · have middle : (i + 2 + 2 * data i.toNat).toNat =
          i.toNat + 2 + 2 * (data i.toNat).toNat := by
        have twice : (2 * data i.toNat).toNat = 2 * (data i.toNat).toNat := by
          rw [UInt8.toNat_mul]
          exact Nat.mod_eq_of_lt (by simp; omega)
        rw [UInt8.toNat_add_of_lt, behind, twice]
        rw [behind, twice]
        omega
      rw [behind, middle]
      omega
    · rw [behind]
      constructor
      · intro inside
        omega
      · intro inside
        omega
  · constructor
    · rintro ⟨_, advance, place, _⟩
      have next : (i + 1).toNat = i.toNat + 1 := UInt8.toNat_add_of_lt (by simp; omega)
      omega
    · intro inside
      omega

/-- Behind an element that lies inside, the cursor has not wrapped. -/
theorem elementCursor_toNat {len : Nat} (short : len ≤ 255) {data : Memory} {i : UInt8}
    (inside : elementEnd data i.toNat ≤ len) :
    (elementCursor data i).toNat = elementEnd data i.toNat := by
  unfold elementEnd at inside
  have next : (i + 1).toNat = i.toNat + 1 := UInt8.toNat_add_of_lt (by simp; omega)
  simp only [elementCursor, elementEnd, UInt8.toNat_add, UInt8.toNat_mul, UInt8.reduceToNat]
  rw [show (i.toNat + 1) % 256 = i.toNat + 1 by omega]
  omega

theorem elementsAccesses_inside_iff {len : Nat} (short : len ≤ 255) (data : Memory) (count : Nat)
    (i : UInt8) :
    AllInside len (elementsAccesses data (count + 1) i) ↔
      elementsEnd data (count + 1) i.toNat ≤ len := by
  induction count generalizing i with
  | zero => exact elementAccesses_inside_iff short data i
  | succ count hypothesis =>
      simp only [elementsAccesses, allInside_append, allInside_advance, hypothesis,
        elementAccesses_inside_iff short, elementsEnd]
      have later := le_elementsEnd data count (elementEnd data i.toNat + 2)
      have grown := le_elementEnd data (elementEnd data i.toNat + 2)
      constructor
      · rintro ⟨here, advance, behind⟩
        have cursor := elementCursor_toNat short here
        have skipped : (elementCursor data i + 2).toNat = elementEnd data i.toNat + 2 := by
          rw [← cursor]
          exact UInt8.toNat_add_of_lt advance
        rwa [skipped] at behind
      · intro behind
        have here : elementEnd data i.toNat ≤ len := by omega
        have cursor := elementCursor_toNat short here
        have advance : (elementCursor data i).toNat + 2 < 256 := by omega
        have skipped : (elementCursor data i + 2).toNat = elementEnd data i.toNat + 2 := by
          rw [← cursor]
          exact UInt8.toNat_add_of_lt advance
        rw [skipped]
        exact ⟨here, advance, behind⟩

/-- The cursor of the first pass behind one round that does not wrap. -/
theorem toNat_countNext {sigmCnt vmCnt i : UInt8} {step : Nat}
    (stepIs : step = 2 * sigmCnt.toNat + 4 * vmCnt.toNat) (fits : i.toNat + step < 256) :
    (i + 2 * sigmCnt).toNat = i.toNat + 2 * sigmCnt.toNat ∧
      (i + 2 * sigmCnt + 2 * vmCnt * 2).toNat = i.toNat + step := by
  simp only [UInt8.toNat_add, UInt8.toNat_mul, UInt8.reduceToNat]
  omega

/-- The first pass ends without a wrap exactly after the first round that leaves the page, if
this round's end fits a byte. -/
theorem countAccesses_inside_iff {sigmCnt vmCnt len i eles counted : UInt8} {step fuel : Nat}
    (stepIs : step = 2 * sigmCnt.toNat + 4 * vmCnt.toNat) :
    countElements sigmCnt vmCnt len fuel i eles = some counted ∧
        AllInside len.toNat (countAccesses sigmCnt vmCnt len fuel i) ↔
      ∃ rounds < fuel, (∀ earlier < rounds, i.toNat + (earlier + 1) * step < len.toNat) ∧
        len.toNat ≤ i.toNat + (rounds + 1) * step ∧ i.toNat + (rounds + 1) * step < 256 ∧
        counted = eles + UInt8.ofNat (rounds + 1) := by
  induction fuel generalizing i eles with
  | zero => simp [countElements]
  | succ fuel hypothesis =>
      simp only [countElements, countAccesses, allInside_advance]
      by_cases fits : i.toNat + step < 256
      · obtain ⟨half, next⟩ := toNat_countNext stepIs fits
        have firstFits : i.toNat + 2 * sigmCnt.toNat < 256 := by omega
        have secondFits : (i + 2 * sigmCnt).toNat + 4 * vmCnt.toNat < 256 := by omega
        have shifted : ∀ rounds : Nat, (i + 2 * sigmCnt + 2 * vmCnt * 2).toNat +
            (rounds + 1) * step = i.toNat + (rounds + 1 + 1) * step := by
          intro rounds
          rw [next, Nat.add_mul (rounds + 1) 1]
          omega
        have once : i.toNat + (0 + 1) * step = i.toNat + step := by omega
        simp only [firstFits, secondFits, true_and]
        by_cases inside : i + 2 * sigmCnt + 2 * vmCnt * 2 < len
        · have insideNat := UInt8.lt_iff_toNat_lt.mp inside
          rw [next] at insideNat
          simp only [inside, if_true]
          rw [hypothesis]
          simp only [shifted]
          constructor
          · rintro ⟨rounds, bound, before, leaves, small, rfl⟩
            refine ⟨rounds + 1, by omega, ?_, leaves, small, ?_⟩
            · intro earlier early
              cases earlier with
              | zero =>
                  rw [once]
                  exact insideNat
              | succ earlier => exact before earlier (by omega)
            · rw [UInt8.add_assoc, UInt8.ofNat_add (rounds + 1) 1,
                UInt8.add_comm (UInt8.ofNat (rounds + 1))]
              rfl
          · rintro ⟨rounds, bound, before, leaves, small, rfl⟩
            cases rounds with
            | zero => omega
            | succ rounds =>
                refine ⟨rounds, by omega, ?_, leaves, small, ?_⟩
                · intro earlier early
                  exact before (earlier + 1) (by omega)
                · rw [UInt8.add_assoc, UInt8.ofNat_add (rounds + 1) 1,
                    UInt8.add_comm (UInt8.ofNat (rounds + 1))]
                  rfl
        · have outside : len.toNat ≤ i.toNat + step := by
            rw [UInt8.lt_iff_toNat_lt, next] at inside
            omega
          simp only [inside, if_false, allInside_nil, and_true, Option.some.injEq]
          constructor
          · intro same
            refine ⟨0, by omega, (fun earlier early => absurd early (Nat.not_lt_zero _)),
              by omega, by omega, ?_⟩
            rw [← same]
            rfl
          · rintro ⟨rounds, bound, before, leaves, small, rfl⟩
            cases rounds with
            | zero => rfl
            | succ rounds =>
                have first := before 0 (by omega)
                omega
      · constructor
        · rintro ⟨_, first, second, _⟩
          exfalso
          have half : (i + 2 * sigmCnt).toNat = i.toNat + 2 * sigmCnt.toNat := by
            simp only [UInt8.toNat_add, UInt8.toNat_mul, UInt8.reduceToNat]
            omega
          omega
        · rintro ⟨rounds, bound, before, leaves, small, rfl⟩
          have one : 1 * step ≤ (rounds + 1) * step := Nat.mul_le_mul_right _ (by omega)
          omega

/-! ## When the data are safe -/

/-- What an element holds, in bytes: the location, the counts and the models. -/
def Elem.bytes (elem : Elem) : Nat := 4 + 2 * elem.sigmCnt.toNat + 4 * elem.vmCnt.toNat

/-- The elements and models fit some received bytes, behind the ten of the header. -/
def Dcd.FitsIn (dcd : Dcd) (len : Nat) : Prop :=
  ∃ elems, dcd.elems = some elems ∧ elems.length = dcd.elementCnt.toNat ∧
    10 + (elems.map Elem.bytes).sum ≤ len

/-- The program stores the data: it terminates, reads received bytes only and never wraps its
cursor, and what it stores fits the bytes. -/
structure DcdSafe (data : Memory) (len : UInt8) (func : BitVec 8) (fuel : Nat) (dcd : Dcd)
    (after : BitVec 8) : Prop where
  stores : dcdStore fuel data len func = some (dcd, after)
  inside : ∀ access ∈ dcdAccesses fuel data len, access.Inside len.toNat
  fits : dcd.FitsIn len.toNat

/-- What is kept of an element is no more than its counts announce. -/
theorem readElement_counts (data : Memory) (i : UInt8) (func : BitVec 8) :
    (readElement data i func).1.sigmCnt.toNat ≤ (data i.toNat).toNat ∧
      (readElement data i func).1.vmCnt = data (i + 1).toNat := by
  refine ⟨?_, rfl⟩
  simp only [readElement]
  rw [UInt8.toNat_sub_of_le]
  · omega
  · rw [UInt8.le_iff_toNat_le, UInt8.toNat_ofNat']
    have bound := (data i.toNat).toNat_lt
    omega

/-- Elements that lie inside are stored, with no more models than there are. -/
theorem bytes_readElements {len : Nat} (short : len ≤ 255) {data : Memory} {count : Nat}
    {i : UInt8} (func : BitVec 8) (inside : elementsEnd data (count + 1) i.toNat ≤ len) :
    (readElements data (count + 1) i func).1.length = count + 1 ∧
      i.toNat + ((readElements data (count + 1) i func).1.map Elem.bytes).sum ≤
        elementsEnd data (count + 1) i.toNat + 2 := by
  induction count generalizing i func with
  | zero =>
      obtain ⟨sig, vendor⟩ := readElement_counts data i func
      have next : (i + 1).toNat = i.toNat + 1 := by
        have ends : elementEnd data i.toNat ≤ len := inside
        unfold elementEnd at ends
        exact UInt8.toNat_add_of_lt (by simp; omega)
      refine ⟨rfl, ?_⟩
      simp only [readElements, List.map_cons, List.map_nil, List.sum_cons, List.sum_nil,
        elementsEnd, elementEnd, Elem.bytes, vendor, next]
      omega
  | succ count hypothesis =>
      have behind : elementsEnd data (count + 1) (elementEnd data i.toNat + 2) ≤ len := inside
      have later := le_elementsEnd data count (elementEnd data i.toNat + 2)
      have grown := le_elementEnd data (elementEnd data i.toNat + 2)
      have here : elementEnd data i.toNat ≤ len := by omega
      have cursor := elementCursor_toNat short here
      have skipped : (elementCursor data i + 2).toNat = elementEnd data i.toNat + 2 := by
        rw [← cursor]
        exact UInt8.toNat_add_of_lt (by simp; omega)
      obtain ⟨sig, vendor⟩ := readElement_counts data i func
      have next : (i + 1).toNat = i.toNat + 1 := by
        unfold elementEnd at here
        exact UInt8.toNat_add_of_lt (by simp; omega)
      rw [← skipped] at behind
      obtain ⟨many, fewer⟩ := @hypothesis (elementCursor data i + 2)
        (readElement data i func).2.2 behind
      rw [readElements]
      dsimp only
      rw [cursor_readElement]
      refine ⟨by rw [List.length_cons, many], ?_⟩
      have element : i.toNat + (readElement data i func).1.bytes ≤
          elementEnd data i.toNat + 2 := by
        simp only [Elem.bytes, elementEnd, vendor, next]
        omega
      rw [skipped] at fewer
      rw [List.map_cons, List.sum_cons, ← Nat.add_assoc]
      exact Nat.le_trans (Nat.add_le_add_right element _) fewer

/-! ## Pages at the beginning of the bytes -/

/-- The bytes of a value are where it was read. -/
theorem holds_readU16 (data : Memory) (place : Nat) :
    Holds data place (u16le (readU16 data place)) := by
  have low : (readU16 data place).toUInt8 = data place := by
    apply UInt8.toNat_inj.mp
    have bound := (data place).toNat_lt
    simp [readU16, Nat.shiftLeft_eq]
  have high : (readU16 data place >>> 8).toUInt8 = data (place + 1) := by
    apply UInt8.toNat_inj.mp
    have bound := (data place).toNat_lt
    have next := (data (place + 1)).toNat_lt
    simp [readU16, Nat.shiftLeft_eq, Nat.shiftRight_eq_div_pow]
    omega
  rw [u16le, low, high]
  exact Holds.cons.mpr ⟨rfl, Holds.cons.mpr ⟨rfl, Holds.nil _ _⟩⟩

/-- The SIG models that stand somewhere. -/
def sigModelsAt (data : Memory) : Nat → Nat → List UInt16
  | 0, _ => []
  | count + 1, i => readU16 data i :: sigModelsAt data count (i + 2)

def vendorModelsAt (data : Memory) : Nat → Nat → List VendorModel
  | 0, _ => []
  | count + 1, i =>
      { vid := readU16 data i, mid := readU16 data (i + 2) } ::
        vendorModelsAt data count (i + 4)

theorem sigModelsAt_spec (data : Memory) (count i : Nat) :
    (sigModelsAt data count i).length = count ∧
      Holds data i ((sigModelsAt data count i).flatMap u16le) := by
  induction count generalizing i with
  | zero => exact ⟨rfl, Holds.nil _ _⟩
  | succ count hypothesis =>
      obtain ⟨many, later⟩ := hypothesis (i + 2)
      refine ⟨by rw [sigModelsAt, List.length_cons, many], ?_⟩
      rw [sigModelsAt, List.flatMap_cons]
      exact Holds.append.mpr ⟨holds_readU16 data i, later⟩

theorem vendorModelsAt_spec (data : Memory) (count i : Nat) :
    (vendorModelsAt data count i).length = count ∧
      Holds data i ((vendorModelsAt data count i).flatMap VendorModel.encode) := by
  induction count generalizing i with
  | zero => exact ⟨rfl, Holds.nil _ _⟩
  | succ count hypothesis =>
      obtain ⟨many, later⟩ := hypothesis (i + 4)
      refine ⟨by rw [vendorModelsAt, List.length_cons, many], ?_⟩
      rw [vendorModelsAt, List.flatMap_cons]
      have model := Holds.append.mpr ⟨holds_readU16 data i, holds_readU16 data (i + 2)⟩
      exact Holds.append.mpr ⟨model, later⟩

/-- The element whose counts stand somewhere. -/
def elementPageAt (data : Memory) (location : UInt16) (i : Nat) : ElementPage where
  location := location
  sigModels := sigModelsAt data (data i).toNat (i + 2)
  vendorModels := vendorModelsAt data (data (i + 1)).toNat (i + 2 + 2 * (data i).toNat)

theorem elementPageAt_spec (data : Memory) (location : UInt16) (i : Nat) :
    Holds data i (elementPageAt data location i).encodeBody ∧
      i + (elementPageAt data location i).encodeBody.length = elementEnd data i := by
  obtain ⟨sigMany, sig⟩ := sigModelsAt_spec data (data i).toNat (i + 2)
  obtain ⟨vendorMany, vendor⟩ := vendorModelsAt_spec data (data (i + 1)).toNat
    (i + 2 + 2 * (data i).toNat)
  constructor
  · have models : Holds data (i + 1 + 1) (elementPageAt data location i).encodeModels := by
      refine Holds.append.mpr ⟨sig, ?_⟩
      rw [length_flatMap_u16le]
      have place : i + 1 + 1 + 2 * (elementPageAt data location i).sigModels.length =
          i + 2 + 2 * (data i).toNat := by rw [elementPageAt, sigMany]
      rw [place]
      exact vendor
    refine Holds.cons.mpr ⟨?_, Holds.cons.mpr ⟨?_, models⟩⟩
    · rw [elementPageAt, sigMany, UInt8.ofNat_toNat]
    · rw [elementPageAt, vendorMany, UInt8.ofNat_toNat]
  · rw [ElementPage.length_encodeBody, ElementPage.modelBytes, elementPageAt, sigMany, vendorMany,
      elementEnd]
    omega

/-- The elements behind the first, with their locations. -/
def elementPagesAt (data : Memory) : Nat → Nat → List ElementPage
  | 0, _ => []
  | count + 1, i =>
      elementPageAt data (readU16 data i) (i + 2) ::
        elementPagesAt data count (elementEnd data (i + 2))

theorem elementPagesAt_spec (data : Memory) (location : UInt16) (count i : Nat) :
    (elementPagesAt data count (elementEnd data i)).length = count ∧
      Holds data i ((elementPageAt data location i).encodeBody ++
        (elementPagesAt data count (elementEnd data i)).flatMap ElementPage.encode) ∧
      i + ((elementPageAt data location i).encodeBody ++
        (elementPagesAt data count (elementEnd data i)).flatMap ElementPage.encode).length =
        elementsEnd data (count + 1) i := by
  induction count generalizing i location with
  | zero =>
      obtain ⟨held, ends⟩ := elementPageAt_spec data location i
      rw [elementPagesAt, List.flatMap_nil, List.append_nil]
      exact ⟨rfl, held, ends⟩
  | succ count hypothesis =>
      obtain ⟨held, ends⟩ := elementPageAt_spec data location i
      obtain ⟨many, later, laterEnds⟩ :=
        hypothesis (readU16 data (elementEnd data i)) (elementEnd data i + 2)
      rw [elementPagesAt, List.flatMap_cons, ElementPage.encode, List.append_assoc]
      refine ⟨by rw [List.length_cons, many], Holds.append.mpr ⟨held, ?_⟩, ?_⟩
      · rw [ends]
        exact Holds.append.mpr ⟨holds_readU16 data _, later⟩
      · rw [List.length_append, ← Nat.add_assoc, ends, List.length_append, length_u16le,
          ← Nat.add_assoc]
        exact laterEnds

/-!
## The exact condition

The first pass advances by the counts of the first element in every round.  The number of rounds
that it makes is therefore a condition on the counts and on the length, whatever stands in the
other elements.
-/

/-- Both passes in numbers that do not wrap: the first leaves the bytes after some rounds, and
so many elements lie inside them. -/
theorem dcdSafe_iff_ends {data : Memory} {len : UInt8} {func : BitVec 8} {step : Nat}
    (stepIs : step = 2 * (data 12).toNat + 4 * (data 13).toNat) :
    (∃ fuel dcd after, DcdSafe data len func fuel dcd after) ↔
      14 ≤ len.toNat ∧ ∃ rounds,
        (∀ earlier < rounds, 14 + (earlier + 1) * step < len.toNat) ∧
        len.toNat ≤ 14 + (rounds + 1) * step ∧ 14 + (rounds + 1) * step < 256 ∧
        elementsEnd data (rounds + 1) 12 ≤ len.toNat := by
  have short : len.toNat ≤ 255 := Nat.le_of_lt_succ len.toNat_lt
  have counted : ∀ rounds, (∀ earlier < rounds, 14 + (earlier + 1) * step < len.toNat) →
      len.toNat ≤ 14 + (rounds + 1) * step → 14 + (rounds + 1) * step < 256 →
      (0 + UInt8.ofNat (rounds + 1)).toNat = rounds + 1 := by
    intro rounds before leaves small
    have few : rounds + 1 < 256 := by
      cases rounds with
      | zero => omega
      | succ rounds =>
          have first := before 0 (Nat.succ_pos _)
          have some_ : 1 ≤ step := by
            by_contra none_
            have zero : step = 0 := by omega
            rw [zero] at first leaves
            omega
          have grown := Nat.mul_le_mul_left (rounds + 1 + 1) some_
          omega
    rw [UInt8.zero_add, UInt8.toNat_ofNat']
    omega
  constructor
  · rintro ⟨fuel, dcd, after, safe⟩
    have count := countElements_of_dcdStore safe.stores
    have inside : AllInside len.toNat (dcdAccesses fuel data len) := safe.inside
    rw [dcdAccesses, count] at inside
    simp only [allInside_read, allInside_advance, allInside_append] at inside
    obtain ⟨-, second, -, firstPass, -, -, -, -, secondPass⟩ := inside
    obtain ⟨rounds, -, before, leaves, small, isCount⟩ :=
      (countAccesses_inside_iff stepIs).mp ⟨count, firstPass⟩
    rw [isCount, counted rounds before leaves small] at secondPass
    have ends := (elementsAccesses_inside_iff short data rounds 12).mp secondPass
    exact ⟨second, rounds, before, leaves, small, ends⟩
  · rintro ⟨long, rounds, before, leaves, small, ends⟩
    have firstPass := (@countAccesses_inside_iff (data 12) (data 13) len 14 0 _ step (rounds + 1)
      stepIs).mpr ⟨rounds, Nat.lt_succ_self _, before, leaves, small, rfl⟩
    obtain ⟨count, firstInside⟩ := firstPass
    have many := counted rounds before leaves small
    have secondInside := (elementsAccesses_inside_iff short data rounds 12).mpr ends
    obtain ⟨stored, fits⟩ := @bytes_readElements len.toNat short data rounds 12 func ends
    let dcd : Dcd :=
      { feature := readU16 data 8
        elementCnt := 0 + UInt8.ofNat (rounds + 1)
        elems := some (readElements data (rounds + 1) 12 func).1 }
    refine ⟨rounds + 1, dcd, (readElements data (rounds + 1) 12 func).2.2, ?_, ?_, ?_⟩
    · rw [dcdStore, count]
      dsimp only
      rw [many]
    · have inside : AllInside len.toNat (dcdAccesses (rounds + 1) data len) := by
        rw [dcdAccesses, count]
        simp only [allInside_read, allInside_advance, allInside_append]
        rw [many]
        refine ⟨by omega, by omega, by decide, firstInside, by omega, by omega, by decide,
          by decide, secondInside⟩
      exact inside
    · refine ⟨_, rfl, by rw [stored, many], ?_⟩
      have twelve : (12 : UInt8).toNat = 12 := rfl
      rw [twelve] at fits
      omega

/-- The number of elements is the one that the first pass works out from the counts of the
first element and the number of bytes, and its cursor fits a byte. -/
structure DcdPage.Announced (page : DcdPage) (len : Nat) : Prop where
  before : ∀ rounds, 1 ≤ rounds → rounds < page.elements.length →
    14 + rounds * page.first.modelBytes < len
  leaves : len ≤ 14 + page.elements.length * page.first.modelBytes
  small : 14 + page.elements.length * page.first.modelBytes < 256

theorem holds_of_leading {bytes part : List UInt8} (beyond : Memory) (leading : part <+: bytes) :
    Holds (Memory.startingWith bytes beyond) 0 part := by
  obtain ⟨rest, whole⟩ := leading
  have held := Memory.startingWith_holds bytes beyond
  rw [← whole] at held ⊢
  exact (Holds.append.mp held).1

theorem leading_of_holds {bytes part : List UInt8} {beyond : Memory}
    (held : Holds (Memory.startingWith bytes beyond) 0 part) (short : part.length ≤ bytes.length) :
    part <+: bytes := by
  rw [List.prefix_iff_eq_take]
  apply List.ext_getElem
  · rw [List.length_take]
    omega
  · intro index inside within
    have here := held index inside
    rw [List.length_take] at within
    have received : index < bytes.length := by omega
    rw [List.getElem_take, ← here]
    simp [Memory.startingWith, received]

/-- The header and the elements that stand in the memory. -/
def pageAt (data : Memory) (rounds : Nat) : DcdPage where
  cid := readU16 data 0
  pid := readU16 data 2
  vid := readU16 data 4
  crpl := readU16 data 6
  features := readU16 data 8
  first := elementPageAt data (readU16 data 10) 12
  rest := elementPagesAt data rounds (elementEnd data 12)

theorem holds_pageAt (data : Memory) (rounds : Nat) :
    Holds data 0 (pageAt data rounds).encode ∧
      (pageAt data rounds).encode.length = elementsEnd data (rounds + 1) 12 := by
  obtain ⟨_, held, ends⟩ := elementPagesAt_spec data (readU16 data 10) rounds 12
  have elements : Holds data 10 ((pageAt data rounds).elements.flatMap ElementPage.encode) := by
    rw [DcdPage.elements, List.flatMap_cons, ElementPage.encode, List.append_assoc]
    exact Holds.append.mpr ⟨holds_readU16 data 10, held⟩
  constructor
  · have four := Holds.append.mpr ⟨Holds.append.mpr ⟨Holds.append.mpr
      ⟨holds_readU16 data 0, holds_readU16 data 2⟩, holds_readU16 data 4⟩, holds_readU16 data 6⟩
    exact Holds.append.mpr ⟨Holds.append.mpr ⟨four, holds_readU16 data 8⟩, elements⟩
  · rw [DcdPage.length_encode, DcdPage.elements, List.flatMap_cons, ElementPage.encode,
      List.append_assoc, List.length_append, length_u16le]
    change 10 + (2 + ((elementPageAt data (readU16 data 10) 12).encodeBody ++
      (elementPagesAt data rounds (elementEnd data 12)).flatMap ElementPage.encode).length) = _
    omega

theorem elementEnd_of_holds {data : Memory} {page : ElementPage} {i : Nat}
    (held : Holds data i page.encodeBody) (short : page.encodeBody.length < 256) :
    elementEnd data i = i + page.encodeBody.length ∧
      page.modelBytes = 2 * (data i).toNat + 4 * (data (i + 1)).toNat := by
  rw [ElementPage.length_encodeBody, ElementPage.modelBytes] at short
  obtain ⟨sigmCnt, rest⟩ := Holds.cons.mp held
  obtain ⟨vmCnt, _⟩ := Holds.cons.mp rest
  have sigNat : (data i).toNat = page.sigModels.length := by
    rw [sigmCnt, UInt8.toNat_ofNat']
    omega
  have vendorNat : (data (i + 1)).toNat = page.vendorModels.length := by
    rw [vmCnt, UInt8.toNat_ofNat']
    omega
  rw [ElementPage.length_encodeBody, elementEnd, ElementPage.modelBytes, sigNat, vendorNat]
  omega

/-- The end of the elements that an encoded page begins with. -/
theorem elementsEnd_of_holds {data : Memory} {first : ElementPage} {rest : List ElementPage}
    {i : Nat} (held : Holds data i (first.encodeBody ++ rest.flatMap ElementPage.encode))
    (short : (first.encodeBody ++ rest.flatMap ElementPage.encode).length < 256) :
    elementsEnd data (rest.length + 1) i =
      i + (first.encodeBody ++ rest.flatMap ElementPage.encode).length := by
  induction rest generalizing first i with
  | nil =>
      rw [List.flatMap_nil, List.append_nil] at held short ⊢
      exact (elementEnd_of_holds held short).1
  | cons second rest hypothesis =>
      obtain ⟨here, later⟩ := Holds.append.mp held
      rw [List.flatMap_cons, ElementPage.encode, List.append_assoc] at later short ⊢
      rw [List.length_append, List.length_append, length_u16le] at short
      have ends := (elementEnd_of_holds here (by omega)).1
      have behind := (Holds.append.mp later).2
      rw [← ends, length_u16le] at behind
      have whole := hypothesis behind (by omega)
      rw [List.length_append, List.length_append, length_u16le, ← Nat.add_assoc, ← ends,
        ← Nat.add_assoc, ← whole]
      rfl

/-- A page that leads the bytes is read where it stands. -/
theorem ends_of_leading {page : DcdPage} {bytes : List UInt8} (fits : bytes.length ≤ 255)
    (beyond : Memory) (leading : page.encode <+: bytes) :
    let data := Memory.startingWith bytes beyond
    page.first.modelBytes = 2 * (data 12).toNat + 4 * (data 13).toNat ∧
      elementsEnd data page.elements.length 12 = page.encode.length := by
  have short := leading.length_le
  obtain ⟨_, body⟩ := page.holds_encode (holds_of_leading beyond leading)
  have whole : page.encode.length = 12 + (page.first.encodeBody ++
      page.rest.flatMap ElementPage.encode).length := by
    rw [page.length_encode, DcdPage.elements, List.flatMap_cons, ElementPage.encode,
      List.append_assoc, List.length_append, length_u16le]
    omega
  constructor
  · refine (elementEnd_of_holds (Holds.append.mp body).1 ?_).2
    rw [List.length_append] at whole
    omega
  · rw [whole]
    exact elementsEnd_of_holds body (by omega)

/-- `__dcd_store` is safe exactly for the bytes that begin with a page whose number of elements
is the one that its first pass works out.  Safe means that no access is outside, and that what is
stored depends on the received bytes alone. -/
theorem dcd_safe_iff (bytes : List UInt8) (fits : bytes.length ≤ 255) (beyond : Memory)
    (func : BitVec 8) :
    (∃ fuel dcd after,
      DcdSafe (Memory.startingWith bytes beyond) (UInt8.ofNat bytes.length) func fuel dcd after) ↔
      ∃ page : DcdPage, page.encode <+: bytes ∧ page.Announced bytes.length := by
  have lenNat : (UInt8.ofNat bytes.length).toNat = bytes.length := by
    rw [UInt8.toNat_ofNat']
    omega
  rw [dcdSafe_iff_ends rfl, lenNat]
  constructor
  · rintro ⟨-, rounds, before, leaves, small, ends⟩
    obtain ⟨held, length⟩ := holds_pageAt (Memory.startingWith bytes beyond) rounds
    have leading := leading_of_holds held (Nat.le_trans (Nat.le_of_eq length) ends)
    obtain ⟨modelBytes, -⟩ := ends_of_leading fits beyond leading
    obtain ⟨many, -⟩ := elementPagesAt_spec (Memory.startingWith bytes beyond) 0 rounds 12
    have count : (pageAt (Memory.startingWith bytes beyond) rounds).elements.length =
        rounds + 1 := by
      rw [DcdPage.elements, List.length_cons]
      exact congrArg Nat.succ many
    refine ⟨_, leading, ⟨?_, ?_, ?_⟩⟩
    · rw [count, modelBytes]
      intro earlier positive inside
      have round := before (earlier - 1) (by omega)
      rwa [Nat.sub_add_cancel positive] at round
    · rw [count, modelBytes]
      exact leaves
    · rw [count, modelBytes]
      exact small
  · rintro ⟨page, leading, before, leaves, small⟩
    obtain ⟨modelBytes, ends⟩ := ends_of_leading fits beyond leading
    have short := leading.length_le
    have long := DcdPage.length_elements_le page.elements
    have whole := page.length_encode
    have count : page.elements.length = page.rest.length + 1 := rfl
    rw [count] at before leaves small ends long
    rw [← modelBytes]
    refine ⟨by omega, page.rest.length, ?_, leaves, small, by omega⟩
    intro earlier inside
    exact before (earlier + 1) (by omega) (by omega)

/-! ## Two pages -/

/-- A page of one element with a SIG model. -/
def singlePage : DcdPage :=
  { evenPage with
    first := { location := 0, sigModels := [0x1000], vendorModels := [] }
    rest := [] }

/-- A page of one element is stored as it should be. -/
theorem dcd_safe_iff_single :
    ∃ fuel dcd after, DcdSafe (Memory.startingWith singlePage.encode fun _ => 0)
      (UInt8.ofNat singlePage.encode.length) 0 fuel dcd after := by
  have announced : singlePage.Announced singlePage.encode.length := by
    refine ⟨fun rounds positive inside => ?_, by decide, by decide⟩
    have one : singlePage.elements.length = 1 := rfl
    omega
  exact (dcd_safe_iff singlePage.encode (by decide) (fun _ => 0) 0).mpr
    ⟨singlePage, List.prefix_refl _, announced⟩

/-- For a page of two elements with three models each, the first pass makes out a third element,
and the second reads it behind the page, whatever lies there. -/
theorem dcd_reads_behind_page :
    evenPage.encode.length ≤ 255 ∧ ∀ beyond func, ¬ ∃ fuel dcd after,
      DcdSafe (Memory.startingWith evenPage.encode beyond) (UInt8.ofNat evenPage.encode.length)
        func fuel dcd after := by
  refine ⟨by decide, fun beyond func safe => ?_⟩
  have step : 6 = 2 * (Memory.startingWith evenPage.encode beyond 12).toNat +
      4 * (Memory.startingWith evenPage.encode beyond 13).toNat := rfl
  have len : (UInt8.ofNat evenPage.encode.length).toNat = 30 := by decide
  obtain ⟨_, rounds, before, leaves, _, ends⟩ := (dcdSafe_iff_ends step).mp safe
  rw [len] at before leaves ends
  have three : rounds = 2 := by
    by_contra other
    have early := before 2 (by omega)
    omega
  rw [three] at ends
  have second : elementEnd (Memory.startingWith evenPage.encode beyond)
      (elementEnd (Memory.startingWith evenPage.encode beyond) 12 + 2) = 30 := rfl
  simp only [elementsEnd] at ends
  rw [second] at ends
  have third := le_elementEnd (Memory.startingWith evenPage.encode beyond) (30 + 2)
  omega

end Nwmng
