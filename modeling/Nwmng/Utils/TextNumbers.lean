/-
Module: Nwmng.Utils.TextNumbers
Purpose: Which texts `str2uint` takes for numbers, and what it stores for them.
Trusted boundary: double precision rounds to the nearest, ties to even; a character stands
for one byte
Main exports:
  str2uintInto, Denotes, ParsesExactly, SumsFit, ReadsExactly, str2uint_exact_iff
-/
import Mathlib
import Nwmng.Lib.Fallible
import Nwmng.Utils.Numbers

namespace Nwmng

open Fallible

/-! ## The function -/

/-- What `str2uint` returns. -/
inductive UintResult where
  | success
  | paramInvalid
  | format
deriving DecidableEq, Repr

/-- The bytes that are stored, for a given size of the destination. -/
def storedBytes (retlen : Nat) : Nat :=
  if retlen < 2 then 1
  else if retlen < 3 then 2
  else if retlen < 5 then 4
  else 8

/-- `length - 1` as an `int`. -/
def lastIndex (length : Nat) : Int := Int.bmod ((length : Int) - 1) (2 ^ 32)

/-- The loop over the digits, from the last index down to 0. -/
def readDigits (value : Char → Option Nat) (base : Nat) (digits : List Char) :
    Except Abort (Option Nat) :=
  let last := lastIndex digits.length
  if last < 0 then .ok (some 0)
  else
    addDigits value base (digits.take (last.toNat + 1)).reverse
      (digits.length - 1 - last.toNat) 0

/-- How the digits of a text are read, and where they are. -/
def digitsOf : List Char → (Char → Option Nat) × Nat × List Char
  | '0' :: 'x' :: digits => (hexValue, 16, digits)
  | digits => (decValue, 10, digits)

/-- `str2uint` on a text with its length: the result, and the destination after it. -/
def str2uintInto (retlen : Nat) (text : List Char) (dest : Nat) :
    Except Abort (UintResult × Nat) :=
  if retlen = 0 ∨ text = [] then .ok (.paramInvalid, dest)
  else do
    let (value, base, digits) := digitsOf text
    match ← readDigits value base digits with
    | none => .ok (.format, dest)
    | some number => .ok (.success, number % 2 ^ (8 * storedBytes retlen))

/-! ## Numbers in a text -/

/-- The digits are those of a number. -/
def Numeral (value : Char → Option Nat) (base : Nat) (digits : List Char) (number : Nat) :
    Prop :=
  digits ≠ [] ∧ ∃ values, List.Forall₂ (fun char digit => value char = some digit) digits values ∧
    number = Nat.ofDigits base values.reverse

/-- A text is a number: `0x` and hexadecimal digits, or decimal digits.  It is the meaning of the
texts, stated without the function: digits with their places, and no bound. -/
def Denotes (text : List Char) (number : Nat) : Prop :=
  (∃ digits, text = '0' :: 'x' :: digits ∧ Numeral hexValue 16 digits number) ∨
    Numeral decValue 10 text number

/-- The function accepts exactly the numbers that fit, stores them, and leaves the
destination otherwise. -/
def ParsesExactly (width : Nat) (text : List Char) (dest : Nat) : Prop :=
  ∃ result after, str2uintInto width text dest = .ok (result, after) ∧
    (result = .success ↔ ∃ number, Denotes text number ∧ number < 2 ^ (8 * width)) ∧
    (result = .success → Denotes text after) ∧ (result ≠ .success → after = dest)

/-!
## When the text is read as it is meant

Three things can go wrong: a partial sum is rounded or exceeds 64 bits, the index wraps for a
very long text, and the result is cut to the width of its destination.
-/

/-- The digits at the end of a text, from the last one on. -/
def lastDigits (value : Char → Option Nat) : List Char → List Nat
  | [] => []
  | char :: rest =>
      match value char with
      | none => []
      | some digit => digit :: lastDigits value rest

/-- The sum of digits in double precision. -/
def sumInDoubles (base : Nat) : List Nat → Nat → Nat → Nat
  | [], _, sum => sum
  | digit :: rest, place, sum =>
      sumInDoubles base rest (place + 1) (toDouble (toDouble sum + digit * base ^ place))

/-- The places are numbers of double precision, and every partial sum has 64 bits. -/
def SumsFit (base : Nat) (digits : List Nat) : Prop :=
  ∀ count < digits.length, base ^ count < doubleOverflow ∧
    sumInDoubles base (digits.take (count + 1)) 0 0 < 2 ^ 64

/-- The digits are read as they are meant.  Beyond `2 ^ 31` digits the index overflows.  Up to
there the sums must be exact although they are made in numbers of double precision; beyond, what
decides is the one character that the wrapped index leads to. -/
def ReadsExactly (width : Nat) (value : Char → Option Nat) (base : Nat) (digits : List Char) :
    Prop :=
  digits ≠ [] ∧
    if digits.length ≤ 2 ^ 31 then
      (∀ number, Numeral value base digits number → number < 2 ^ (8 * width)) ∧
        SumsFit base (lastDigits value digits.reverse)
    else if lastIndex digits.length < 0 then ∀ char ∈ digits, value char = some 0
    else ∀ char, digits[(lastIndex digits.length).toNat]? = some char → value char = none

/-!
## The sum of the digits

The loop runs from the last digit to the first, so its partial sums are those of the suffixes of
the text.  The induction carries the sum so far and the place of the next digit.
-/

/-- From some place on, with the sum of the digits before it. -/
def SumsFitFrom (base : Nat) (digits : List Nat) (place sum : Nat) : Prop :=
  ∀ count < digits.length, base ^ (place + count) < doubleOverflow ∧
    sumInDoubles base (digits.take (count + 1)) place sum < 2 ^ 64

theorem sumsFitFrom_nil (base place sum : Nat) : SumsFitFrom base [] place sum :=
  fun _ few => absurd few (Nat.not_lt_zero _)

theorem sumsFitFrom_cons {base digit place sum : Nat} {rest : List Nat} :
    SumsFitFrom base (digit :: rest) place sum ↔
      ¬ (doubleOverflow ≤ base ^ place ∨
        2 ^ 64 ≤ toDouble (toDouble sum + digit * base ^ place)) ∧
      SumsFitFrom base rest (place + 1) (toDouble (toDouble sum + digit * base ^ place)) := by
  constructor
  · intro fits
    have first := fits 0 (Nat.zero_lt_succ _)
    have here : sumInDoubles base ((digit :: rest).take 1) place sum =
        toDouble (toDouble sum + digit * base ^ place) := rfl
    rw [here] at first
    refine ⟨not_or.mpr ⟨Nat.not_le.mpr first.1, Nat.not_le.mpr first.2⟩, ?_⟩
    intro count few
    have later := fits (count + 1) (Nat.succ_lt_succ few)
    have place_ : place + (count + 1) = place + 1 + count := by omega
    rw [place_] at later
    exact later
  · rintro ⟨first, later⟩ count few
    obtain ⟨range, fits⟩ := not_or.mp first
    cases count with
    | zero => exact ⟨Nat.not_le.mp range, Nat.not_le.mp fits⟩
    | succ count =>
        have here := later count (Nat.lt_of_succ_lt_succ few)
        have place_ : place + 1 + count = place + (count + 1) := by omega
        rw [place_] at here
        exact here

/-- The loop stops at the first character that is no digit, or where a sum does not fit. -/
theorem addDigits_eq (value : Char → Option Nat) (base : Nat) (chars : List Char)
    (place sum : Nat) :
    (SumsFitFrom base (lastDigits value chars) place sum →
      addDigits value base chars place sum =
        .ok (if ∀ char ∈ chars, (value char).isSome
          then some (sumInDoubles base (lastDigits value chars) place sum) else none)) ∧
    (¬ SumsFitFrom base (lastDigits value chars) place sum →
      addDigits value base chars place sum = .error .numberRange) := by
  induction chars generalizing place sum with
  | nil =>
      constructor
      · intro _
        rw [if_pos (fun _ impossible => nomatch impossible)]
        rfl
      · intro fails
        exact absurd (sumsFitFrom_nil base place sum) fails
  | cons char rest hypothesis =>
      cases isDigit : value char with
      | none =>
          have none_ : lastDigits value (char :: rest) = [] := by simp only [lastDigits, isDigit]
          rw [none_]
          constructor
          · intro _
            have stops : ¬ ∀ other ∈ char :: rest, (value other).isSome := by
              intro every
              have first := every char List.mem_cons_self
              rw [isDigit] at first
              cases first
            rw [if_neg stops, addDigits, isDigit]
          · intro fails
            exact absurd (sumsFitFrom_nil base place sum) fails
      | some digit =>
          have more : lastDigits value (char :: rest) = digit :: lastDigits value rest := by
            simp only [lastDigits, isDigit]
          have all : (∀ other ∈ char :: rest, (value other).isSome) ↔
              ∀ other ∈ rest, (value other).isSome := by
            rw [List.forall_mem_cons, isDigit]
            exact and_iff_right rfl
          rw [more, sumsFitFrom_cons, addDigits, isDigit]
          simp only [all]
          obtain ⟨runs, stops⟩ := hypothesis (place + 1)
            (toDouble (toDouble sum + digit * base ^ place))
          constructor
          · rintro ⟨range, later⟩
            rw [if_neg range]
            exact runs later
          · intro fails
            by_cases range : doubleOverflow ≤ base ^ place ∨
                2 ^ 64 ≤ toDouble (toDouble sum + digit * base ^ place)
            · rw [if_pos range]
            · rw [if_neg range]
              exact stops fun later => fails ⟨range, later⟩

/-- A sum of few digits is exact. -/
theorem sumInDoubles_exact {base : Nat} {digits : List Nat} {place sum : Nat}
    (small : sum + base ^ place * Nat.ofDigits base digits < 2 ^ 53) :
    sumInDoubles base digits place sum = sum + base ^ place * Nat.ofDigits base digits := by
  induction digits generalizing place sum with
  | nil => rfl
  | cons digit rest hypothesis =>
      have split_ : sum + base ^ place * Nat.ofDigits base (digit :: rest) =
          (sum + digit * base ^ place) + base ^ (place + 1) * Nat.ofDigits base rest := by
        rw [Nat.ofDigits_cons, Nat.pow_succ]
        ring
      rw [split_] at small ⊢
      have first : sum + digit * base ^ place < 2 ^ 53 := Nat.lt_of_le_of_lt (Nat.le_add_right _ _)
        small
      have before : sum < 2 ^ 53 := Nat.lt_of_le_of_lt (Nat.le_add_right _ _) first
      rw [sumInDoubles, toDouble_of_lt before, toDouble_of_lt first]
      exact hypothesis small

/-! ## Numerals -/

section

variable {value : Char → Option Nat} {base : Nat}

/-- The values of digits, all of which are digits. -/
theorem lastDigits_of_forall₂ {chars : List Char} {values : List Nat}
    (digits : List.Forall₂ (fun char digit => value char = some digit) chars values) :
    lastDigits value chars = values := by
  induction digits with
  | nil => rfl
  | cons first rest hypothesis => simp only [lastDigits, first, hypothesis]

theorem forall₂_of_digits {chars : List Char} (every : ∀ char ∈ chars, (value char).isSome) :
    ∃ values, List.Forall₂ (fun char digit => value char = some digit) chars values := by
  induction chars with
  | nil => exact ⟨[], .nil⟩
  | cons char rest hypothesis =>
      obtain ⟨first, others⟩ := List.forall_mem_cons.mp every
      obtain ⟨digit, isDigit⟩ := Option.isSome_iff_exists.mp first
      obtain ⟨values, rest⟩ := hypothesis others
      exact ⟨digit :: values, .cons isDigit rest⟩

theorem digits_of_forall₂ {chars : List Char} {values : List Nat}
    (digits : List.Forall₂ (fun char digit => value char = some digit) chars values) :
    ∀ char ∈ chars, (value char).isSome := by
  induction digits with
  | nil => exact fun _ impossible => nomatch impossible
  | cons first rest hypothesis =>
      rw [List.forall_mem_cons, first]
      exact ⟨rfl, hypothesis⟩

/-- A numeral is a list of digits, and its number the sum of their values. -/
theorem numeral_iff {chars : List Char} {number : Nat} :
    Numeral value base chars number ↔ chars ≠ [] ∧ (∀ char ∈ chars, (value char).isSome) ∧
      number = Nat.ofDigits base (lastDigits value chars.reverse) := by
  have reversed : ∀ {values}, List.Forall₂ (fun char digit => value char = some digit) chars
      values → lastDigits value chars.reverse = values.reverse := fun digits =>
    lastDigits_of_forall₂ (List.forall₂_reverse_iff.mpr digits)
  constructor
  · rintro ⟨nonempty, values, digits, isNumber⟩
    rw [reversed digits]
    exact ⟨nonempty, digits_of_forall₂ digits, isNumber⟩
  · rintro ⟨nonempty, every, isNumber⟩
    obtain ⟨values, digits⟩ := forall₂_of_digits every
    rw [reversed digits] at isNumber
    exact ⟨nonempty, values, digits, isNumber⟩

theorem numeral_of_digits {chars : List Char} (nonempty : chars ≠ [])
    (every : ∀ char ∈ chars, (value char).isSome) :
    Numeral value base chars (Nat.ofDigits base (lastDigits value chars.reverse)) :=
  numeral_iff.mpr ⟨nonempty, every, rfl⟩

/-- The reading of the digits is that of a numeral which fits, or fails. -/
def ReadsNumeral (width : Nat) (value : Char → Option Nat) (base : Nat) (digits : List Char) :
    Prop :=
  ∃ number, readDigits value base digits = .ok number ∧
    (number.isSome = true ↔
      ∃ denoted, Numeral value base digits denoted ∧ denoted < 2 ^ (8 * width)) ∧
    ∀ result, number = some result → Numeral value base digits (result % 2 ^ (8 * width))

/-- Without an overflow of the index. -/
theorem readDigits_short {digits : List Char} (short : digits.length ≤ 2 ^ 31)
    (nonempty : digits ≠ []) :
    readDigits value base digits = addDigits value base digits.reverse 0 0 := by
  have positive : 0 < digits.length := List.length_pos_of_ne_nil nonempty
  have last : lastIndex digits.length = ((digits.length - 1 : Nat) : Int) := by
    unfold lastIndex
    rw [Int.bmod_def]
    omega
  unfold readDigits
  simp only [last]
  rw [if_neg (by omega), Int.toNat_natCast, Nat.sub_add_cancel positive, List.take_length,
    Nat.sub_self]

theorem Numeral.unique {digits : List Char} {first second : Nat}
    (one : Numeral value base digits first) (two : Numeral value base digits second) :
    first = second :=
  (numeral_iff.mp one).2.2.trans (numeral_iff.mp two).2.2.symm

/-- The sums of the digits decide, as long as the index does not overflow. -/
theorem readsNumeral_short {width : Nat} (narrow : 8 * width ≤ 53) {digits : List Char}
    (short : digits.length ≤ 2 ^ 31) (nonempty : digits ≠ []) :
    ReadsNumeral width value base digits ↔
      (∀ number, Numeral value base digits number → number < 2 ^ (8 * width)) ∧
        SumsFit base (lastDigits value digits.reverse) := by
  have sameFit : SumsFit base (lastDigits value digits.reverse) ↔
      SumsFitFrom base (lastDigits value digits.reverse) 0 0 := by
    unfold SumsFit SumsFitFrom
    simp only [Nat.zero_add]
  obtain ⟨runs, stops⟩ := addDigits_eq value base digits.reverse 0 0
  unfold ReadsNumeral
  rw [readDigits_short short nonempty, sameFit]
  by_cases fits : SumsFitFrom base (lastDigits value digits.reverse) 0 0
  · rw [runs fits]
    have sameDigits : (∀ char ∈ digits.reverse, (value char).isSome) ↔
        ∀ char ∈ digits, (value char).isSome := by
      simp only [List.mem_reverse]
    by_cases every : ∀ char ∈ digits, (value char).isSome
    · have isNumeral := @numeral_of_digits _ base _ nonempty every
      rw [if_pos (sameDigits.mpr every)]
      constructor
      · rintro ⟨number, isRead, accepted, _⟩
        cases isRead
        obtain ⟨denoted, isDenoted, small⟩ := accepted.mp rfl
        refine ⟨fun other isOther => ?_, fits⟩
        rw [isOther.unique isDenoted]
        exact small
      · rintro ⟨small, _⟩
        have below := small _ isNumeral
        have exact_ : sumInDoubles base (lastDigits value digits.reverse) 0 0 =
            Nat.ofDigits base (lastDigits value digits.reverse) := by
          have few : 0 + base ^ 0 * Nat.ofDigits base (lastDigits value digits.reverse) <
              2 ^ 53 := by
            rw [Nat.pow_zero, Nat.one_mul, Nat.zero_add]
            exact Nat.lt_of_lt_of_le below (Nat.pow_le_pow_right (by decide) narrow)
          rw [sumInDoubles_exact few, Nat.pow_zero, Nat.one_mul, Nat.zero_add]
        refine ⟨_, rfl, ⟨fun _ => ⟨_, isNumeral, below⟩, fun _ => rfl⟩, ?_⟩
        rintro result ⟨⟩
        rw [exact_, Nat.mod_eq_of_lt below]
        exact isNumeral
    · have noNumeral : ∀ number, ¬ Numeral value base digits number := fun number isNumeral =>
        every (numeral_iff.mp isNumeral).2.1
      rw [if_neg fun all => every (sameDigits.mp all)]
      constructor
      · intro _
        exact ⟨fun number isNumeral => absurd isNumeral (noNumeral number), fits⟩
      · intro _
        refine ⟨none, rfl, ⟨fun impossible => (nomatch impossible), ?_⟩,
          fun result impossible => (nomatch impossible)⟩
        rintro ⟨denoted, isNumeral, _⟩
        exact absurd isNumeral (noNumeral denoted)
  · rw [stops fits]
    constructor
    · rintro ⟨number, impossible, _⟩
      cases impossible
    · rintro ⟨_, fine⟩
      exact absurd fine fits

theorem ofDigits_eq_zero_iff (positive : 0 < base) {digits : List Nat} :
    Nat.ofDigits base digits = 0 ↔ ∀ digit ∈ digits, digit = 0 := by
  induction digits with
  | nil => simp
  | cons digit rest hypothesis =>
      rw [Nat.ofDigits_cons, List.forall_mem_cons, ← hypothesis, Nat.add_eq_zero_iff,
        Nat.mul_eq_zero]
      exact and_congr_right fun _ => or_iff_right (Nat.pos_iff_ne_zero.mp positive)

theorem zeros_of_forall₂ {chars : List Char} {values : List Nat}
    (digits : List.Forall₂ (fun char digit => value char = some digit) chars values) :
    (∀ digit ∈ values, digit = 0) ↔ ∀ char ∈ chars, value char = some 0 := by
  induction digits with
  | nil => simp
  | cons first rest hypothesis =>
      rw [List.forall_mem_cons, List.forall_mem_cons, hypothesis, first, Option.some.injEq]

/-- A number is 0 when its digits are. -/
theorem numeral_zero_iff (positive : 0 < base) {digits : List Char} (nonempty : digits ≠ []) :
    Numeral value base digits 0 ↔ ∀ char ∈ digits, value char = some 0 := by
  have zero_iff : ∀ {values},
      List.Forall₂ (fun char digit => value char = some digit) digits values →
      (0 = Nat.ofDigits base values.reverse ↔ ∀ char ∈ digits, value char = some 0) := by
    intro values each
    rw [eq_comm, ofDigits_eq_zero_iff positive, ← zeros_of_forall₂ each]
    simp only [List.mem_reverse]
  constructor
  · rintro ⟨_, values, each, isZero⟩
    exact (zero_iff each).mp isZero
  · intro zeros
    have every : ∀ char ∈ digits, (value char).isSome = true := by
      intro char member
      rw [zeros char member]
      rfl
    obtain ⟨values, each⟩ := forall₂_of_digits every
    exact ⟨nonempty, values, each, (zero_iff each).mpr zeros⟩

/-- The place of the first digit that is read of a long text has no number. -/
theorem lastIndex_long {length : Nat} (long : 2 ^ 31 < length) :
    (lastIndex length).toNat < length ∧
      doubleBits ≤ length - 1 - (lastIndex length).toNat := by
  unfold lastIndex doubleBits
  rw [Int.bmod_def]
  omega

theorem two_pow_le_pow (wide : 2 ≤ base) {bits place : Nat} (far : bits ≤ place) :
    2 ^ bits ≤ base ^ place :=
  Nat.le_trans (Nat.pow_le_pow_left wide bits)
    (Nat.pow_le_pow_right (Nat.lt_of_lt_of_le Nat.zero_lt_two wide) far)

/-- A digit at a place that has no number stops the program. -/
theorem readsNumeral_long {width : Nat} (wide : 2 ≤ base) {digits : List Char}
    (long : 2 ^ 31 < digits.length) :
    ReadsNumeral width value base digits ↔
      if lastIndex digits.length < 0 then ∀ char ∈ digits, value char = some 0
      else ∀ char, digits[(lastIndex digits.length).toNat]? = some char → value char = none := by
  have positive : 0 < base := Nat.lt_of_lt_of_le Nat.zero_lt_two wide
  have nonempty : digits ≠ [] := by
    rintro rfl
    exact absurd long (Nat.not_lt_zero _)
  unfold ReadsNumeral readDigits
  by_cases negative : lastIndex digits.length < 0
  · -- nothing is read, and the number is 0
    simp only [if_pos negative]
    rw [← @numeral_zero_iff _ _ positive _ nonempty]
    constructor
    · rintro ⟨number, isRead, _, stored⟩
      cases isRead
      have zero := stored 0 rfl
      rwa [Nat.zero_mod] at zero
    · intro zero
      refine ⟨_, rfl, ⟨fun _ => ⟨0, zero, Nat.two_pow_pos _⟩, fun _ => rfl⟩, ?_⟩
      rintro result ⟨⟩
      rwa [Nat.zero_mod]
  · simp only [if_neg negative]
    obtain ⟨inside, far⟩ := lastIndex_long long
    generalize (lastIndex digits.length).toNat = index at inside far
    obtain ⟨char, here⟩ : ∃ char, digits[index]? = some char :=
      ⟨_, List.getElem?_eq_getElem inside⟩
    have first : (digits.take (index + 1)).reverse = char :: (digits.take index).reverse := by
      rw [List.take_add_one, here, Option.toList_some, List.reverse_append, List.reverse_singleton,
        List.singleton_append]
    rw [first, addDigits, here]
    have large : doubleOverflow ≤ base ^ (digits.length - 1 - index) :=
      two_pow_le_pow wide far
    cases isDigit : value char with
    | none =>
        have refused : ∀ denoted, ¬ Numeral value base digits denoted := by
          intro denoted isNumeral
          have every := (numeral_iff.mp isNumeral).2.1 char (List.mem_of_getElem? here)
          rw [isDigit] at every
          cases every
        constructor
        · rintro _ other ⟨⟩
          exact isDigit
        · intro _
          refine ⟨none, rfl, ⟨fun impossible => (by cases impossible), ?_⟩,
            fun result impossible => (by cases impossible)⟩
          rintro ⟨denoted, isNumeral, _⟩
          exact absurd isNumeral (refused denoted)
    | some digit =>
        dsimp only
        rw [if_pos (.inl large)]
        constructor
        · rintro ⟨number, impossible, _⟩
          cases impossible
        · intro none_
          have isNone := none_ _ rfl
          rw [isDigit] at isNone
          cases isNone

theorem readsNumeral_iff {width : Nat} (narrow : 8 * width ≤ 53) (wide : 2 ≤ base)
    {digits : List Char} :
    ReadsNumeral width value base digits ↔ ReadsExactly width value base digits := by
  unfold ReadsExactly
  by_cases empty : digits = []
  · subst empty
    constructor
    · rintro ⟨number, isRead, accepted, _⟩
      cases isRead
      obtain ⟨denoted, isNumeral, _⟩ := accepted.mp rfl
      exact absurd rfl isNumeral.1
    · rintro ⟨nonempty, _⟩
      exact absurd rfl nonempty
  · rw [and_iff_right empty]
    by_cases short : digits.length ≤ 2 ^ 31
    · rw [if_pos short]
      exact readsNumeral_short narrow short empty
    · rw [if_neg short]
      exact readsNumeral_long wide (Nat.not_le.mp short)

end

/-! ## The whole text -/

/-- The condition for a whole text. -/
def TextReads (width : Nat) (text : List Char) : Prop :=
  text = [] ∨ ReadsExactly width (digitsOf text).1 (digitsOf text).2.1 (digitsOf text).2.2

theorem denotes_iff {text : List Char} {number : Nat} :
    Denotes text number ↔
      Numeral (digitsOf text).1 (digitsOf text).2.1 (digitsOf text).2.2 number := by
  unfold digitsOf
  split
  · rename_i digits
    constructor
    · rintro (⟨others, same, isNumeral⟩ | ⟨_, values, each, _⟩)
      · cases same
        exact isNumeral
      · -- the second character is no decimal digit
        cases each with
        | cons zero rest =>
            cases rest with
            | cons isDigit _ => cases isDigit
    · intro isNumeral
      exact .inl ⟨digits, rfl, isNumeral⟩
  · rename_i notHex
    constructor
    · rintro (⟨digits, same, _⟩ | isNumeral)
      · exact absurd same (notHex digits)
      · exact isNumeral
    · exact .inr

theorem base_digitsOf (text : List Char) : 2 ≤ (digitsOf text).2.1 := by
  unfold digitsOf
  split
  · exact Nat.le_add_left 2 14
  · exact Nat.le_add_left 2 8

/-- `str2uint` accepts exactly the numbers that fit, when its digits are read as they are meant.
Texts that are too long are refused by their value, not by their length, so the sums have to be
right beyond every width. -/
theorem str2uint_exact_iff {width : Nat} (isWidth : width = 1 ∨ width = 2 ∨ width = 4)
    (text : List Char) (dest : Nat) :
    ParsesExactly width text dest ↔ TextReads width text := by
  have bytes : storedBytes width = width := by
    rcases isWidth with rfl | rfl | rfl
    · rfl
    · rfl
    · rfl
  have nonzero : width ≠ 0 := by omega
  have narrow : 8 * width ≤ 53 := by omega
  unfold ParsesExactly TextReads str2uintInto
  simp only [denotes_iff, bytes]
  by_cases empty : text = []
  · subst empty
    rw [if_pos (.inr rfl)]
    constructor
    · intro _
      exact .inl rfl
    · intro _
      refine ⟨_, _, rfl, ⟨fun impossible => (nomatch impossible), ?_⟩,
        fun impossible => (nomatch impossible), fun _ => rfl⟩
      rintro ⟨number, isNumeral, _⟩
      exact absurd rfl isNumeral.1
  · rw [or_iff_right empty, if_neg (not_or.mpr ⟨nonzero, empty⟩),
      ← readsNumeral_iff narrow (base_digitsOf text)]
    obtain ⟨value, base, digits⟩ := digitsOf text
    dsimp only
    unfold ReadsNumeral
    cases readDigits value base digits with
    | error abort =>
        constructor
        · rintro ⟨result, after, impossible, _⟩
          cases impossible
        · rintro ⟨number, impossible, _⟩
          cases impossible
    | ok number =>
        rw [ok_bind]
        cases number with
        | none =>
            dsimp only
            constructor
            · rintro ⟨result, after, same, accepted, _⟩
              cases same
              refine ⟨none, rfl, ⟨fun impossible => (nomatch impossible), ?_⟩,
                fun result impossible => (nomatch impossible)⟩
              intro denoted
              exact nomatch accepted.mpr denoted
            · rintro ⟨number, same, accepted, _⟩
              cases same
              refine ⟨_, _, rfl, ⟨fun impossible => (nomatch impossible), ?_⟩,
                fun impossible => (nomatch impossible), fun _ => rfl⟩
              intro denoted
              exact nomatch accepted.mpr denoted
        | some number =>
            dsimp only
            constructor
            · rintro ⟨result, after, same, accepted, stored, _⟩
              cases same
              refine ⟨_, rfl, ⟨fun _ => accepted.mp rfl, fun _ => rfl⟩, ?_⟩
              rintro other ⟨⟩
              exact stored rfl
            · rintro ⟨other, same, accepted, stored⟩
              cases same
              exact ⟨_, _, rfl, ⟨fun _ => accepted.mp rfl, fun _ => rfl⟩,
                fun _ => stored number rfl, fun failed => absurd rfl failed⟩

/-- The largest number of one byte is stored. -/
theorem str2uint_exact_iff_byte : ParsesExactly 1 "255".toList 7 := by
  apply (str2uint_exact_iff (.inl rfl) "255".toList 7).mpr
  have numeral : Numeral decValue 10 "255".toList 255 :=
    ⟨by decide, [2, 5, 5], .cons rfl (.cons rfl (.cons rfl .nil)), rfl⟩
  have fits : ∀ count < 3, 10 ^ count < doubleOverflow ∧
      sumInDoubles 10 ([5, 5, 2].take (count + 1)) 0 0 < 2 ^ 64 := by
    decide +kernel
  refine .inr ⟨by decide, ?_⟩
  rw [if_pos (by decide +kernel)]
  refine ⟨?_, fits⟩
  intro number isNumber
  rw [isNumber.unique numeral]
  decide

/-- `256` is accepted for one byte, and 0 is stored. -/
theorem str2uint_truncates :
    ¬ ∀ (width : Nat) (text : List Char) (dest : Nat), width = 1 ∨ width = 2 ∨ width = 4 →
      ParsesExactly width text dest := by
  intro claim
  have stored : str2uintInto 1 "256".toList 7 = .ok (.success, 0) := by decide +kernel
  obtain ⟨result, after, same, _, denoted, _⟩ := claim 1 "256".toList 7 (.inl rfl)
  rw [stored] at same
  cases same
  have zero := denotes_iff.mp (denoted rfl)
  have numeral : Numeral decValue 10 "256".toList 256 :=
    ⟨by decide, [2, 5, 6], .cons rfl (.cons rfl (.cons rfl .nil)), rfl⟩
  exact absurd (zero.unique numeral) (by decide)

/-! ## The numbers of the files -/

/-- What is made of a number that was read, or of a text that is none. -/
def storeNumber (retlen : Nat) (text : List Char) (dest : Nat) : Option Nat → UintResult × Nat
  | none => (if text = [] then .paramInvalid else .format, dest)
  | some number => (.success, number % 2 ^ (8 * storedBytes retlen))

/-- On a text that is not too long for the index, the loaders read what is stored. -/
theorem str2uintInto_eq {retlen : Nat} (sized : retlen ≠ 0) {text : List Char}
    (short : text.length ≤ 2 ^ 31) (dest : Nat) :
    str2uintInto retlen text dest = (str2uint text).map (storeNumber retlen text dest) := by
  have reads : ∀ (value : Char → Option Nat) (base : Nat) (digits : List Char),
      digits.length ≤ text.length →
      readDigits value base digits = addDigits value base digits.reverse 0 0 := by
    intro value base digits shorter
    by_cases empty : digits = []
    · subst empty
      rfl
    · exact readDigits_short (Nat.le_trans shorter short) empty
  by_cases empty : text = []
  · subst empty
    unfold str2uintInto
    rw [if_pos (.inr rfl)]
    rfl
  · have same : str2uint text =
        readDigits (digitsOf text).1 (digitsOf text).2.1 (digitsOf text).2.2 := by
      unfold str2uint digitsOf
      split
      · exact absurd rfl empty
      · rename_i digits
        exact (reads hexValue 16 digits (by simp only [List.length_cons]; omega)).symm
      · rename_i notHex
        split
        · exact absurd rfl (notHex _)
        · exact (reads decValue 10 text (Nat.le_refl _)).symm
    unfold str2uintInto
    rw [if_neg (not_or.mpr ⟨sized, empty⟩), same]
    dsimp only
    cases readDigits (digitsOf text).1 (digitsOf text).2.1 (digitsOf text).2.2 with
    | error abort => rfl
    | ok number =>
        cases number with
        | none =>
            rw [ok_bind, Except.map, storeNumber, if_neg empty]
        | some number => rfl

end Nwmng
