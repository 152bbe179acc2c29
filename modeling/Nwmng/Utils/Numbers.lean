/-
Module: Nwmng.Utils.Numbers
Purpose: The conversions between numbers and text of the source: decimal and
hexadecimal numbers to integers, integers and buffers to hexadecimal digits.
Trusted boundary: double precision rounds to the nearest, ties to even
Main exports:
  str2uint, uint8ToStr, uint16ToStr, uint32ToStr, hex, cbuf2str, str2cbuf
-/
import Mathlib.Data.Nat.Bitwise
import Nwmng.Cfg.Moves

namespace Nwmng

/-!
## Text to numbers

The source sums up digits by powers that are computed in double precision, and converts every sum
to an integer again.  Up to 53 bits nothing is rounded.
-/

/-- The nearest number with a significand of 53 bits, ties to even. -/
def toDouble (value : Nat) : Nat :=
  let shift := Nat.log2 value - 52
  if value < 2 ^ 53 then value
  else
    let low := value >>> shift
    let rest := value - low <<< shift
    let half := 1 <<< (shift - 1)
    if rest < half ∨ rest = half ∧ low % 2 = 0 then low <<< shift
    else (low + 1) <<< shift

/-- A digit of a decimal number. -/
def decValue (char : Char) : Option Nat :=
  if '0' ≤ char ∧ char ≤ '9' then some (char.toNat - '0'.toNat) else none

/-- A digit of a hexadecimal number. -/
def hexValue (char : Char) : Option Nat :=
  if '0' ≤ char ∧ char ≤ '9' then some (char.toNat - '0'.toNat)
  else if 'a' ≤ char ∧ char ≤ 'f' then some (char.toNat - 'a'.toNat + 10)
  else if 'A' ≤ char ∧ char ≤ 'F' then some (char.toNat - 'A'.toNat + 10)
  else none

/-- The numbers beyond double precision have this many binary digits. -/
def doubleBits : Nat := 1024

def doubleOverflow : Nat := 2 ^ doubleBits

/-- The loop of `str2uint`, over the digits from the last one on.  Each round adds in
double precision, and converts back to 64 bits; a sum that does not fit has no
defined result. -/
def addDigits (value : Char → Option Nat) (base : Nat) :
    List Char → Nat → Nat → Except Abort (Option Nat)
  | [], _, sum => .ok (some sum)
  | char :: rest, place, sum =>
      match value char with
      | none => .ok none
      | some digit =>
          let total := toDouble (toDouble sum + digit * base ^ place)
          if doubleOverflow ≤ base ^ place ∨ 2 ^ 64 ≤ total then .error .numberRange
          else addDigits value base rest (place + 1) total

/-- `str2uint`, before the number is cut to the width of its destination; `none` for
text that is no number. -/
def str2uint (text : List Char) : Except Abort (Option Nat) :=
  match text with
  | [] => .ok none
  | '0' :: 'x' :: digits => addDigits hexValue 16 digits.reverse 0 0
  | digits => addDigits decValue 10 digits.reverse 0 0

/-- `str2cbuf`: two digits for each byte; `none` for text that does not fit into the
buffer or has an odd length or another character.  Bytes behind the text keep their
values. -/
def hexPairs : List Char → Option (List UInt8)
  | [] => some []
  | [_] => none
  | high :: low :: rest =>
      match hexValue high, hexValue low with
      | some high, some low => (hexPairs rest).map (UInt8.ofNat (high * 16 + low) :: ·)
      | _, _ => none

def str2cbuf (text : List Char) (buffer : Vector UInt8 16) : Option (Vector UInt8 16) :=
  if 16 < text.length / 2 then none
  else
    (hexPairs text).map fun bytes =>
      Vector.ofFn fun index => (bytes[index.val]?).getD buffer[index]

/-! ## Numbers to text -/

/-- `hex_value_to_char`, on the values of a digit. -/
def hexValueToChar (value : Nat) : Char :=
  if value ≤ 9 then Char.ofNat (value + '0'.toNat)
  else Char.ofNat (value + 'a'.toNat - 10)

/-- The digits of a number, highest first. -/
def hexDigits : Nat → Nat → List Char
  | 0, _ => []
  | width + 1, value => hexDigits width (value / 16) ++ [hexValueToChar (value % 16)]

/-- The text that the functions which write a number build: a prefix, and two digits
for each byte, from `uint8_tostr`, `uint16_tostr` or `uint32_tostr`. -/
def hexText (width value : Nat) : List Char :=
  '0' :: 'x' :: hexDigits width value

def uint8ToStr (value : UInt8) : List Char := hexText 2 value.toNat

def uint16ToStr (value : UInt16) : List Char := hexText 4 value.toNat

def uint32ToStr (value : UInt32) : List Char := hexText 8 value.toNat

/-- `cbuf2str`, from the first byte to the last. -/
def cbuf2str (bytes : Vector UInt8 16) : List Char :=
  bytes.toList.flatMap fun byte => hexDigits 2 byte.toNat

/-! ## Round trips -/

theorem hexValue_hexValueToChar {digit : Nat} (small : digit < 16) :
    hexValue (hexValueToChar digit) = some digit := by
  have every : ∀ digit : Fin 16, hexValue (hexValueToChar digit.val) = some digit.val := by
    decide
  exact every ⟨digit, small⟩

theorem toDouble_of_lt {value : Nat} (small : value < 2 ^ 53) : toDouble value = value := by
  unfold toDouble
  exact if_pos small

theorem doubleOverflow_large : 2 ^ 52 < doubleOverflow := by
  apply Nat.pow_lt_pow_right
  · decide
  · decide

/-- The sum of the digits is exact as long as there are few of them. -/
theorem addDigits_hexDigits (width : Nat) {value place sum : Nat} (few : place + width ≤ 13)
    (fits : value < 16 ^ width) (before : sum < 16 ^ place) :
    addDigits hexValue 16 (hexDigits width value).reverse place sum =
      .ok (some (sum + value * 16 ^ place)) := by
  induction width generalizing value place sum with
  | zero =>
      have zero : value = 0 := by simpa using fits
      simp [hexDigits, addDigits, zero]
  | succ width hypothesis =>
      have digit : value % 16 < 16 := Nat.mod_lt _ (by decide)
      have power : 16 ^ (place + 1) = 16 * 16 ^ place := by
        rw [Nat.pow_succ, Nat.mul_comm]
      have small : 16 ^ (place + 1) ≤ 16 ^ 13 := Nat.pow_le_pow_right (by decide) (by omega)
      have next : sum + value % 16 * 16 ^ place < 16 ^ (place + 1) := by
        have term : value % 16 * 16 ^ place ≤ 15 * 16 ^ place :=
          Nat.mul_le_mul_right _ (by omega)
        omega
      have rest : addDigits hexValue 16 (hexDigits width (value / 16)).reverse (place + 1)
          (sum + value % 16 * 16 ^ place) =
          .ok (some (sum + value % 16 * 16 ^ place + value / 16 * 16 ^ (place + 1))) := by
        apply hypothesis (by omega) _ next
        rw [Nat.div_lt_iff_lt_mul (by decide)]
        rwa [Nat.pow_succ] at fits
      have exact_ : toDouble (toDouble sum + value % 16 * 16 ^ place) =
          sum + value % 16 * 16 ^ place := by
        have inner : toDouble sum = sum := toDouble_of_lt (by omega)
        rw [inner, toDouble_of_lt (by omega)]
      have range : ¬ (doubleOverflow ≤ 16 ^ place ∨ 2 ^ 64 ≤ sum + value % 16 * 16 ^ place) := by
        have huge := doubleOverflow_large
        omega
      have total : sum + value % 16 * 16 ^ place + value / 16 * 16 ^ (place + 1) =
          sum + value * 16 ^ place := by
        rw [power, ← Nat.mul_assoc, Nat.add_assoc, ← Nat.add_mul, Nat.mod_add_div']
      rw [hexDigits, List.reverse_append, List.reverse_singleton, List.singleton_append,
        addDigits, hexValue_hexValueToChar digit]
      simp only [exact_, if_neg range]
      rw [rest, total]

/-- What is written is read. -/
theorem str2uint_hexText {width value : Nat} (few : width ≤ 13) (fits : value < 16 ^ width) :
    str2uint (hexText width value) = .ok (some value) := by
  have digits : addDigits hexValue 16 (hexDigits width value).reverse 0 0 =
      .ok (some (0 + value * 16 ^ 0)) :=
    addDigits_hexDigits width (by omega) fits (by simp)
  simpa [str2uint, hexText] using digits

@[simp] theorem str2uint_uint8ToStr (value : UInt8) :
    str2uint (uint8ToStr value) = .ok (some value.toNat) :=
  str2uint_hexText (by decide) value.toNat_lt

@[simp] theorem str2uint_uint16ToStr (value : UInt16) :
    str2uint (uint16ToStr value) = .ok (some value.toNat) :=
  str2uint_hexText (by decide) value.toNat_lt

@[simp] theorem str2uint_uint32ToStr (value : UInt32) :
    str2uint (uint32ToStr value) = .ok (some value.toNat) :=
  str2uint_hexText (by decide) value.toNat_lt

theorem hexPairs_byte (byte : UInt8) (rest : List Char) :
    hexPairs (hexDigits 2 byte.toNat ++ rest) = (hexPairs rest).map (byte :: ·) := by
  have wide := byte.toNat_lt
  have high : hexValue (hexValueToChar (byte.toNat / 16 % 16)) =
      some (byte.toNat / 16 % 16) := hexValue_hexValueToChar (by omega)
  have low : hexValue (hexValueToChar (byte.toNat % 16)) = some (byte.toNat % 16) :=
    hexValue_hexValueToChar (by omega)
  have value : byte.toNat / 16 % 16 * 16 + byte.toNat % 16 = byte.toNat := by omega
  simp only [hexDigits, List.nil_append, List.cons_append, hexPairs, high, low, value,
    UInt8.ofNat_toNat]

theorem hexPairs_bytes (bytes : List UInt8) :
    hexPairs (bytes.flatMap fun byte => hexDigits 2 byte.toNat) = some bytes := by
  induction bytes with
  | nil => rfl
  | cons byte rest hypothesis =>
      rw [List.flatMap_cons, hexPairs_byte, hypothesis]
      rfl

theorem length_cbuf2str (bytes : Vector UInt8 16) : (cbuf2str bytes).length = 32 := by
  have every : ∀ list : List UInt8,
      (list.flatMap fun byte => hexDigits 2 byte.toNat).length = 2 * list.length := by
    intro list
    induction list with
    | nil => rfl
    | cons byte rest hypothesis =>
        rw [List.flatMap_cons, List.length_append, hypothesis, List.length_cons]
        simp only [hexDigits, List.nil_append, List.cons_append, List.length_cons,
          List.length_nil]
        omega
  rw [cbuf2str, every, Vector.length_toList]

theorem length_hexPairs {text : List Char} {bytes : List UInt8}
    (parsed : hexPairs text = some bytes) : text.length = 2 * bytes.length := by
  induction text using hexPairs.induct generalizing bytes with
  | case1 =>
      cases parsed
      rfl
  | case2 char => cases parsed
  | case3 high low rest highDigit lowDigit isHigh isLow hypothesis =>
      simp only [hexPairs, isHigh, isLow, Option.map_eq_some_iff] at parsed
      obtain ⟨tail, tailParsed, rfl⟩ := parsed
      have shorter := hypothesis tailParsed
      simp only [List.length_cons, shorter]
      omega
  | case4 high low rest malformed =>
      rw [hexPairs] at parsed
      split at parsed
      · rename_i one two isHigh isLow
        exact (malformed one two isHigh isLow).elim
      · cases parsed

/-- Digits in pairs are parsed. -/
theorem hexPairs_isSome {text : List Char} (even : text.length % 2 = 0)
    (hex : ∀ char ∈ text, (hexValue char).isSome = true) : (hexPairs text).isSome = true := by
  induction text using hexPairs.induct with
  | case1 => rfl
  | case2 single => cases even
  | case3 high low rest one two isLow isHigh hypothesis =>
      rw [List.length_cons, List.length_cons] at even
      have later : ∀ char ∈ rest, (hexValue char).isSome = true := fun char member =>
        hex char (List.mem_cons_of_mem _ (List.mem_cons_of_mem _ member))
      rw [hexPairs, isHigh, isLow]
      simp only [Option.isSome_map]
      exact hypothesis (by omega) later
  | case4 high low rest malformed =>
      have isHigh := hex high List.mem_cons_self
      have isLow := hex low (List.mem_cons_of_mem _ List.mem_cons_self)
      obtain ⟨one, isOne⟩ := Option.isSome_iff_exists.mp isHigh
      obtain ⟨two, isTwo⟩ := Option.isSome_iff_exists.mp isLow
      exact (malformed one two isOne isTwo).elim

/-- A text that fills the buffer leaves nothing of what was in it. -/
theorem str2cbuf_full {text : List Char} (full : text.length = 32)
    (first second : Vector UInt8 16) : str2cbuf text first = str2cbuf text second := by
  have fits : ¬ 16 < text.length / 2 := by omega
  simp only [str2cbuf, if_neg fits]
  cases parsed : hexPairs text with
  | none => simp only [Option.map_none]
  | some bytes =>
      have long := length_hexPairs parsed
      have cells : ∀ buffer : Vector UInt8 16,
          (fun index : Fin 16 => (bytes[index.val]?).getD buffer[index]) =
            fun index => (bytes[index.val]?).getD 0 := by
        intro buffer
        funext index
        have inside : index.val < bytes.length := by
          have bound := index.isLt
          omega
        simp only [List.getElem?_eq_getElem inside, Option.getD_some]
      simp only [Option.map_some, cells first, cells second]

/-- A buffer that is written is read, whatever the destination held. -/
theorem str2cbuf_cbuf2str (bytes buffer : Vector UInt8 16) :
    str2cbuf (cbuf2str bytes) buffer = some bytes := by
  have fits : ¬ 16 < (cbuf2str bytes).length / 2 := by
    rw [length_cbuf2str]
    decide
  rw [str2cbuf, if_neg fits, cbuf2str, hexPairs_bytes]
  simp only [Option.map_some, Option.some.injEq]
  apply Vector.ext
  intro index inside
  simp

end Nwmng
