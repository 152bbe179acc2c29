/-
Module: Nwmng.Utils.HexBuffers
Purpose: Buffers of any length as hexadecimal text and back, in either order of the bytes.
Trusted boundary: a character stands for one byte; no object has more than `2 ^ 63 - 1` bytes
Main exports:
  cbuf2strInto, str2cbufInto, RoundTrips, RoundTripsText, Rejects, hex_buffers_iff
-/
import Mathlib
import Nwmng.Lib.Fallible
import Nwmng.Utils.Numbers

namespace Nwmng

open Fallible

/-!
## The functions

Lengths are of type `size_t` outside and `int` inside.  The conversions in both directions are
part of the model, since buffers of any length are allowed.
-/

/-- What the two functions return. -/
inductive HexResult where
  | success
  | paramInvalid
  | notExist
  | lengthLeak
deriving DecidableEq, Repr

/-- A `size_t` as an `int`. -/
def intOf (size : Nat) : Int := Int.bmod size (2 ^ 32)

/-- An `int` as a `size_t`. -/
def sizeOfInt (value : Int) : Nat := (value % 2 ^ 64).toNat

/-- The character that ends a text. -/
def nulChar : Char := Char.ofNat 0

/-- The text that a buffer starts with. -/
def cString (buffer : List Char) : List Char := buffer.takeWhile (· ≠ nulChar)

/-- The loop of `cbuf2str`. -/
def writePairs (rev : Bool) (len : Nat) : Nat → List UInt8 → List Char → List Char
  | _, [], dest => dest
  | i, byte :: rest, dest =>
      let high := hexValueToChar (byte.toNat / 16)
      let low := hexValueToChar (byte.toNat % 16)
      writePairs rev len (i + 1) rest
        (if rev then (dest.set (len * 2 - 1 - i * 2) low).set (len * 2 - 2 - i * 2) high
        else (dest.set (i * 2) high).set (i * 2 + 1) low)

/-- `cbuf2str`, into a buffer; twice the length must be an `int`. -/
def cbuf2strInto (src : List UInt8) (rev : Bool) (dest : List Char) :
    Except Abort (HexResult × List Char) :=
  let len := intOf src.length
  if len * 2 < -(2 ^ 31) ∨ 2 ^ 31 ≤ len * 2 then .error .numberRange
  else if dest.length < sizeOfInt (len * 2) then .ok (.notExist, dest)
  else .ok (.success, writePairs rev len.toNat 0 (src.take len.toNat) dest)

/-- The loop of `str2cbuf`. -/
def readPairs (rev : Bool) (half : Nat) : Nat → List Char → List UInt8 → HexResult × List UInt8
  | i, high :: low :: rest, dest =>
      match hexValue high, hexValue low with
      | some high, some low =>
          readPairs rev half (i + 1) rest
            (dest.set (if rev then half - 1 - i else i) (UInt8.ofNat (high * 16 + low)))
      | _, _ => (.paramInvalid, dest)
  | _, _, dest => (.success, dest)

/-- `str2cbuf`, into a buffer. -/
def str2cbufInto (text : List Char) (rev : Bool) (dest : List UInt8) : HexResult × List UInt8 :=
  let len := intOf text.length
  if dest.length < sizeOfInt (len.tdiv 2) then (.lengthLeak, dest)
  else if len.tmod 2 ≠ 0 then (.paramInvalid, dest)
  else
    readPairs rev (len.tdiv 2).toNat 0 (text.take (2 * (len.tdiv 2).toNat)) dest

/-! ## What they are for -/

/-- The digits of a buffer, from its first byte on. -/
def hexOf (bytes : List UInt8) : List Char := bytes.flatMap fun byte => hexDigits 2 byte.toNat

/-- The bytes in the order in which they stand in the text. -/
def ordered (rev : Bool) (bytes : List UInt8) : List UInt8 := if rev then bytes.reverse else bytes

/-- A buffer that is written to a text is read back.  Direct and reversed order are both asked
for, and any buffer with room for the digits and the byte that ends them. -/
def RoundTrips (n : Nat) : Prop :=
  ∀ (bytes out : List UInt8) (rev : Bool) (room : Nat), bytes.length = n → out.length = n →
    2 * n + 1 ≤ room →
    ∃ written, cbuf2strInto bytes rev (List.replicate room nulChar) = .ok (.success, written) ∧
      str2cbufInto (cString written) rev out = (.success, bytes)

/-- Digits that are read to a buffer are written again, in lower case. -/
def RoundTripsText (n : Nat) : Prop :=
  ∀ (text : List Char) (out : List UInt8) (rev : Bool) (room : Nat), text.length = 2 * n →
    (∀ char ∈ text, (hexValue char).isSome) → out.length = n → 2 * n + 1 ≤ room →
    ∃ bytes written, str2cbufInto text rev out = (.success, bytes) ∧
      cbuf2strInto bytes rev (List.replicate room nulChar) = .ok (.success, written) ∧
      cString written = text.map Char.toLower

/-- A text that is no list of pairs of digits for the destination.  Too long counts as well: the
destination has a fixed size and no byte behind it may be written. -/
def Unsuitable (text : List Char) (destLen : Nat) : Prop :=
  text.length % 2 = 1 ∨ (∃ char ∈ text, hexValue char = none) ∨ 2 * destLen < text.length

/-- Every text of a length that does not suit the destination is refused. -/
def Rejects (length : Nat) : Prop :=
  ∀ (text : List Char) (out : List UInt8) (rev : Bool), text.length = length →
    out.length < 2 ^ 63 → Unsuitable text out.length → (str2cbufInto text rev out).1 ≠ .success

/-! ## The loops -/

theorem set_pair {α : Type} (before after : List α) (first second one two : α) :
    ((before ++ first :: second :: after).set before.length one).set (before.length + 1) two =
      before ++ one :: two :: after := by
  induction before with
  | nil => rfl
  | cons head rest hypothesis =>
      rw [List.cons_append, List.length_cons, List.set_cons_succ, List.set_cons_succ, hypothesis,
        List.cons_append]

theorem hexDigits_byte (byte : UInt8) :
    hexDigits 2 byte.toNat =
      [hexValueToChar (byte.toNat / 16), hexValueToChar (byte.toNat % 16)] := by
  have wide := byte.toNat_lt
  have high : byte.toNat / 16 % 16 = byte.toNat / 16 := Nat.mod_eq_of_lt (by omega)
  rw [hexDigits, hexDigits, hexDigits, high]
  rfl

theorem hexOf_cons (byte : UInt8) (rest : List UInt8) :
    hexOf (byte :: rest) = hexValueToChar (byte.toNat / 16) ::
      hexValueToChar (byte.toNat % 16) :: hexOf rest := by
  unfold hexOf
  rw [List.flatMap_cons, hexDigits_byte]
  rfl

theorem hexOf_append (first second : List UInt8) :
    hexOf (first ++ second) = hexOf first ++ hexOf second := List.flatMap_append

theorem length_hexOf (bytes : List UInt8) : (hexOf bytes).length = 2 * bytes.length := by
  induction bytes with
  | nil => rfl
  | cons byte rest hypothesis =>
      rw [hexOf_cons, List.length_cons, List.length_cons, hypothesis, List.length_cons,
        Nat.mul_succ]

/-- The digits are written one pair behind the other. -/
theorem writePairs_forward (len : Nat) (bytes : List UInt8) {i : Nat} {before after : List Char}
    (place : before.length = i * 2) (room : 2 * bytes.length ≤ after.length) :
    writePairs false len i bytes (before ++ after) =
      before ++ hexOf bytes ++ after.drop (2 * bytes.length) := by
  induction bytes generalizing i before after with
  | nil => simp [writePairs, hexOf]
  | cons byte rest hypothesis =>
      rw [List.length_cons] at room
      match after, room with
      | first :: second :: later, room =>
          rw [List.length_cons, List.length_cons] at room
          have written := set_pair before later first second (hexValueToChar (byte.toNat / 16))
            (hexValueToChar (byte.toNat % 16))
          rw [place] at written
          have longer : (before ++ [hexValueToChar (byte.toNat / 16),
              hexValueToChar (byte.toNat % 16)]).length = (i + 1) * 2 := by
            rw [List.length_append, place]
            simp only [List.length_cons, List.length_nil]
            omega
          have rest_ := @hypothesis (i + 1) _ later longer (by omega)
          rw [writePairs, if_neg Bool.false_ne_true, written, hexOf_cons]
          rw [List.append_assoc] at rest_
          simp only [List.cons_append, List.nil_append] at rest_
          rw [rest_, List.length_cons, Nat.mul_succ]
          simp [List.append_assoc]

/-- The digits are written from the end on. -/
theorem writePairs_backward {len : Nat} (bytes : List UInt8) {i : Nat}
    {before after : List Char} (isLen : len = i + bytes.length)
    (place : before.length = 2 * bytes.length) :
    writePairs true len i bytes (before ++ after) = hexOf bytes.reverse ++ after := by
  induction bytes generalizing i before after with
  | nil =>
      have empty : before = [] := List.length_eq_zero_iff.mp place
      rw [empty]
      rfl
  | cons byte rest hypothesis =>
      rw [List.length_cons] at isLen place
      have two : (before.drop (2 * rest.length)).length = 2 := by
        rw [List.length_drop, place]
        omega
      obtain ⟨first, second, tail⟩ := List.length_eq_two.mp two
      have whole := List.take_append_drop (2 * rest.length) before
      rw [tail] at whole
      have shorter : (before.take (2 * rest.length)).length = 2 * rest.length := by
        rw [List.length_take, place]
        omega
      generalize before.take (2 * rest.length) = start at whole shorter
      subst whole
      have high : len * 2 - 2 - i * 2 = start.length := by omega
      have low : len * 2 - 1 - i * 2 = start.length + 1 := by omega
      have written := set_pair start after first second (hexValueToChar (byte.toNat / 16))
        (hexValueToChar (byte.toNat % 16))
      have later := @hypothesis (i + 1) start (hexValueToChar (byte.toNat / 16) ::
        hexValueToChar (byte.toNat % 16) :: after) (by omega) shorter
      have isWhole : start ++ [first, second] ++ after = start ++ first :: second :: after := by
        rw [List.append_assoc]
        rfl
      rw [writePairs, if_pos rfl, high, low, isWhole,
        List.set_comm _ _ (Nat.succ_ne_self _), written, later, List.reverse_cons, hexOf_append,
        hexOf_cons, List.append_assoc]
      rfl

/-- The text of a buffer, in front of what the destination had. -/
theorem writePairs_all (rev : Bool) {bytes : List UInt8} {dest : List Char}
    (room : 2 * bytes.length ≤ dest.length) :
    writePairs rev bytes.length 0 bytes dest =
      hexOf (ordered rev bytes) ++ dest.drop (2 * bytes.length) := by
  cases rev with
  | false => exact @writePairs_forward _ bytes 0 [] dest rfl room
  | true =>
      have start : (dest.take (2 * bytes.length)).length = 2 * bytes.length := by
        rw [List.length_take]
        omega
      have written := @writePairs_backward bytes.length bytes 0 (dest.take (2 * bytes.length))
        (dest.drop (2 * bytes.length)) (Nat.zero_add _).symm start
      rwa [List.take_append_drop] at written

/-- Another character among the pairs ends the loop. -/
theorem readPairs_none (rev : Bool) (half : Nat) {chars : List Char} {i : Nat}
    {dest : List UInt8} (even : chars.length % 2 = 0) (none_ : hexPairs chars = none) :
    (readPairs rev half i chars dest).1 = .paramInvalid := by
  induction chars using hexPairs.induct generalizing i dest with
  | case1 => cases none_
  | case2 char => cases even
  | case3 high low rest one two isLow isHigh hypothesis =>
      rw [List.length_cons, List.length_cons] at even
      rw [hexPairs, isHigh, isLow] at none_
      rw [readPairs, isHigh, isLow]
      exact hypothesis (by omega) (Option.map_eq_none_iff.mp none_)
  | case4 high low rest malformed =>
      rw [readPairs]
      split
      · rename_i one two isHigh isLow
        exact (malformed one two isHigh isLow).elim
      · rfl

theorem readPairs_forward (half : Nat) {chars : List Char} {bytes : List UInt8} {i : Nat}
    {before after : List UInt8} (pairs : hexPairs chars = some bytes) (place : before.length = i)
    (room : bytes.length ≤ after.length) :
    readPairs false half i chars (before ++ after) =
      (.success, before ++ bytes ++ after.drop bytes.length) := by
  induction chars using hexPairs.induct generalizing bytes i before after with
  | case1 =>
      cases pairs
      simp [readPairs]
  | case2 char => cases pairs
  | case3 high low rest one two isLow isHigh hypothesis =>
      rw [hexPairs, isHigh, isLow] at pairs
      obtain ⟨others, isOthers, rfl⟩ := Option.map_eq_some_iff.mp pairs
      rw [List.length_cons] at room
      cases after with
      | nil => exact absurd room (Nat.not_succ_le_zero _)
      | cons first later =>
          rw [List.length_cons] at room
          have longer : (before ++ [UInt8.ofNat (one * 16 + two)]).length = i + 1 := by
            rw [List.length_append, place, List.length_singleton]
          have rest_ := @hypothesis others (i + 1) _ later isOthers longer (by omega)
          have written : (before ++ first :: later).set i (UInt8.ofNat (one * 16 + two)) =
              before ++ [UInt8.ofNat (one * 16 + two)] ++ later := by
            rw [← place, List.set_append_right _ _ (Nat.le_refl _), Nat.sub_self,
              List.set_cons_zero, List.append_assoc, List.singleton_append]
          rw [readPairs, isHigh, isLow]
          dsimp only
          rw [if_neg Bool.false_ne_true, written, rest_]
          simp [List.append_assoc]
  | case4 high low rest malformed =>
      rw [hexPairs] at pairs
      split at pairs
      · rename_i one two isHigh isLow
        exact (malformed one two isHigh isLow).elim
      · cases pairs

theorem readPairs_backward {half : Nat} {chars : List Char} {bytes : List UInt8} {i : Nat}
    {before after : List UInt8} (pairs : hexPairs chars = some bytes)
    (isHalf : half = i + bytes.length) (place : before.length = bytes.length) :
    readPairs true half i chars (before ++ after) = (.success, bytes.reverse ++ after) := by
  induction chars using hexPairs.induct generalizing bytes i before after with
  | case1 =>
      cases pairs
      have empty : before = [] := List.length_eq_zero_iff.mp place
      rw [empty]
      rfl
  | case2 char => cases pairs
  | case3 high low rest one two isLow isHigh hypothesis =>
      rw [hexPairs, isHigh, isLow] at pairs
      obtain ⟨others, isOthers, rfl⟩ := Option.map_eq_some_iff.mp pairs
      rw [List.length_cons] at isHalf place
      have last : (before.drop others.length).length = 1 := by
        rw [List.length_drop, place]
        omega
      obtain ⟨first, tail⟩ := List.length_eq_one_iff.mp last
      have whole := List.take_append_drop others.length before
      rw [tail] at whole
      have shorter : (before.take others.length).length = others.length := by
        rw [List.length_take, place]
        omega
      generalize before.take others.length = start at whole shorter
      subst whole
      have index : half - 1 - i = start.length := by omega
      have written : (start ++ [first] ++ after).set start.length
          (UInt8.ofNat (one * 16 + two)) = start ++ UInt8.ofNat (one * 16 + two) :: after := by
        rw [List.append_assoc, List.set_append_right _ _ (Nat.le_refl _), Nat.sub_self]
        rfl
      have later := @hypothesis others (i + 1) start (UInt8.ofNat (one * 16 + two) :: after)
        isOthers (by omega) shorter
      rw [readPairs, isHigh, isLow]
      dsimp only
      rw [if_pos rfl, index, written, later, List.reverse_cons, List.append_assoc]
      rfl
  | case4 high low rest malformed =>
      rw [hexPairs] at pairs
      split at pairs
      · rename_i one two isHigh isLow
        exact (malformed one two isHigh isLow).elim
      · cases pairs

theorem readPairs_all (rev : Bool) {chars : List Char} {bytes dest : List UInt8}
    (pairs : hexPairs chars = some bytes) (room : bytes.length ≤ dest.length) :
    readPairs rev bytes.length 0 chars dest =
      (.success, ordered rev bytes ++ dest.drop bytes.length) := by
  cases rev with
  | false => exact @readPairs_forward bytes.length chars bytes 0 [] dest pairs rfl room
  | true =>
      have start : (dest.take bytes.length).length = bytes.length := by
        rw [List.length_take]
        omega
      have read := @readPairs_backward bytes.length chars bytes 0 (dest.take bytes.length)
        (dest.drop bytes.length) pairs (Nat.zero_add _).symm start
      rwa [List.take_append_drop] at read

/-! ## The calls -/

theorem intOf_small {size : Nat} (small : size < 2 ^ 31) : intOf size = size := by
  unfold intOf
  rw [Int.bmod_def]
  omega

theorem hexValueToChar_ne_nul {digit : Nat} (small : digit < 16) :
    hexValueToChar digit ≠ nulChar := by
  have every : ∀ digit : Fin 16, hexValueToChar digit.val ≠ nulChar := by decide
  exact every ⟨digit, small⟩

theorem hexOf_ne_nul (bytes : List UInt8) : ∀ char ∈ hexOf bytes, char ≠ nulChar := by
  induction bytes with
  | nil => exact fun _ impossible => nomatch impossible
  | cons byte rest hypothesis =>
      have wide := byte.toNat_lt
      rw [hexOf_cons, List.forall_mem_cons, List.forall_mem_cons]
      exact ⟨hexValueToChar_ne_nul (by omega), hexValueToChar_ne_nul (by omega), hypothesis⟩

/-- The text in a buffer that was full of zeros. -/
theorem cString_hexOf (bytes : List UInt8) (more : Nat) :
    cString (hexOf bytes ++ List.replicate more nulChar) = hexOf bytes := by
  have text : ∀ char ∈ hexOf bytes, decide (char ≠ nulChar) = true := fun char member =>
    decide_eq_true (hexOf_ne_nul bytes char member)
  have zeros : (List.replicate more nulChar).takeWhile (fun char => decide (char ≠ nulChar)) =
      [] := by
    cases more with
    | zero => rfl
    | succ more => rfl
  unfold cString
  rw [List.takeWhile_append_of_pos text, zeros, List.append_nil]

theorem length_ordered (rev : Bool) (bytes : List UInt8) :
    (ordered rev bytes).length = bytes.length := by
  cases rev with
  | false => rfl
  | true => exact List.length_reverse

theorem ordered_ordered (rev : Bool) (bytes : List UInt8) :
    ordered rev (ordered rev bytes) = bytes := by
  cases rev with
  | false => rfl
  | true => exact List.reverse_reverse bytes

/-- What a call that succeeds has written: the bytes that its `int` counts. -/
theorem cbuf2strInto_success {src : List UInt8} {rev : Bool} {room : Nat} {written : List Char}
    (done : cbuf2strInto src rev (List.replicate room nulChar) = .ok (.success, written)) :
    (intOf src.length).toNat < 2 ^ 30 ∧ written =
      hexOf (ordered rev (src.take (intOf src.length).toNat)) ++
        List.replicate (room - 2 * (intOf src.length).toNat) nulChar := by
  unfold cbuf2strInto at done
  dsimp only at done
  split at done
  · cases done
  · rename_i range
    split at done
    · cases done
    · rename_i fits
      have isWritten := (Prod.mk.inj (Except.ok.inj done)).2
      rw [List.length_replicate] at fits
      have counted : (src.take (intOf src.length).toNat).length = (intOf src.length).toNat := by
        rw [List.length_take]
        unfold intOf
        rw [Int.bmod_def]
        omega
      have size : 2 * (intOf src.length).toNat ≤ room := by
        unfold sizeOfInt at fits
        omega
      have all := @writePairs_all rev (src.take (intOf src.length).toNat)
        (List.replicate room nulChar) (by rw [counted, List.length_replicate]; exact size)
      rw [counted, List.drop_replicate] at all
      exact ⟨by omega, isWritten.symm.trans all⟩

theorem cbuf2strInto_short {src : List UInt8} {rev : Bool} {room : Nat}
    (short : src.length < 2 ^ 30) (fits : 2 * src.length ≤ room) :
    cbuf2strInto src rev (List.replicate room nulChar) =
      .ok (.success, hexOf (ordered rev src) ++
        List.replicate (room - 2 * src.length) nulChar) := by
  have len : intOf src.length = src.length := intOf_small (by omega)
  have size : sizeOfInt ((src.length : Int) * 2) = 2 * src.length := by
    unfold sizeOfInt
    omega
  have all := @writePairs_all rev src (List.replicate room nulChar)
    (by rw [List.length_replicate]; exact fits)
  rw [List.drop_replicate] at all
  unfold cbuf2strInto
  simp only [len]
  rw [if_neg (by omega), size, List.length_replicate, if_neg (Nat.not_lt.mpr fits),
    Int.toNat_natCast, List.take_length, all]

theorem str2cbufInto_short {text : List Char} (rev : Bool) (dest : List UInt8)
    (short : text.length < 2 ^ 31) :
    str2cbufInto text rev dest =
      if dest.length < text.length / 2 then (.lengthLeak, dest)
      else if text.length % 2 ≠ 0 then (.paramInvalid, dest)
      else readPairs rev (text.length / 2) 0 text dest := by
  have len : intOf text.length = text.length := intOf_small short
  have half : (text.length : Int).tdiv 2 = (text.length / 2 : Nat) := by
    rw [Int.tdiv_eq_ediv_of_nonneg (by omega)]
    rfl
  have parity : (text.length : Int).tmod 2 = (text.length % 2 : Nat) := by
    rw [Int.tmod_eq_emod_of_nonneg (by omega)]
    rfl
  have size : sizeOfInt ((text.length / 2 : Nat) : Int) = text.length / 2 := by
    unfold sizeOfInt
    omega
  unfold str2cbufInto
  simp only [len, half, parity, size, Int.toNat_natCast]
  by_cases odd : text.length % 2 = 0
  · have whole : 2 * (text.length / 2) = text.length := by omega
    rw [whole, List.take_length]
    simp [odd]
  · have notWhole : ((text.length % 2 : Nat) : Int) ≠ 0 := by omega
    rw [if_pos notWhole, if_pos odd]

/-- A text of pairs is read into the first bytes of the destination. -/
theorem str2cbufInto_pairs {text : List Char} {rev : Bool} {bytes dest : List UInt8}
    (short : text.length < 2 ^ 31) (pairs : hexPairs text = some bytes)
    (room : bytes.length ≤ dest.length) :
    str2cbufInto text rev dest = (.success, ordered rev bytes ++ dest.drop bytes.length) := by
  have length := length_hexPairs pairs
  have half : text.length / 2 = bytes.length := by omega
  have even : ¬ text.length % 2 ≠ 0 := by omega
  rw [str2cbufInto_short rev dest short, half, if_neg (Nat.not_lt.mpr room), if_neg even,
    readPairs_all rev pairs room]

theorem hexPairs_hexOf (bytes : List UInt8) : hexPairs (hexOf bytes) = some bytes :=
  hexPairs_bytes bytes

/-! ## Round trips -/

theorem roundTrips_short {n : Nat} (short : n < 2 ^ 30) : RoundTrips n := by
  intro bytes out rev room isLength outLength fits
  subst isLength
  refine ⟨_, cbuf2strInto_short short (by omega), ?_⟩
  rw [cString_hexOf]
  have pairs := hexPairs_hexOf (ordered rev bytes)
  have textLength := length_hexOf (ordered rev bytes)
  have size := length_ordered rev bytes
  rw [str2cbufInto_pairs (by omega) pairs (by omega), ordered_ordered, size, ← outLength,
    List.drop_length, List.append_nil]

/-- Beyond that, what is written is not the whole buffer. -/
theorem not_roundTrips {n : Nat} (large : 2 ^ 30 ≤ n) : ¬ RoundTrips n := by
  intro trips
  obtain ⟨written, writes, reads⟩ := trips (List.replicate n 0) (List.replicate n 1) false
    (2 * n + 1) List.length_replicate List.length_replicate (Nat.le_refl _)
  obtain ⟨small, isWritten⟩ := cbuf2strInto_success writes
  rw [List.length_replicate] at small isWritten
  generalize (intOf n).toNat = count at small isWritten
  rw [isWritten, cString_hexOf, List.take_replicate] at reads
  have fewer : min count n = count := by omega
  rw [fewer] at reads
  have pairs := hexPairs_hexOf (ordered false (List.replicate count 0))
  have textLength := length_hexOf (ordered false (List.replicate count 0))
  have size : (ordered false (List.replicate count (0 : UInt8))).length = count := by
    rw [length_ordered, List.length_replicate]
  rw [str2cbufInto_pairs (by omega) pairs (by rw [size, List.length_replicate]; omega),
    ordered_ordered, size, List.drop_replicate] at reads
  have same := (Prod.mk.inj reads).2
  have last : (1 : UInt8) ∈ List.replicate n (0 : UInt8) := by
    rw [← same]
    apply List.mem_append_right
    exact List.mem_replicate.mpr ⟨by omega, rfl⟩
  exact absurd (List.mem_replicate.mp last).2 (by decide)

theorem digits_lower : ∀ code : Fin 103, (hexValue (Char.ofNat code.val)).all (fun digit =>
    decide (hexValueToChar digit = (Char.ofNat code.val).toLower ∧ digit < 16)) = true := by
  decide +kernel

/-- A digit is written in lower case. -/
theorem hexValueToChar_hexValue {char : Char} {digit : Nat}
    (isDigit : hexValue char = some digit) :
    hexValueToChar digit = char.toLower ∧ digit < 16 := by
  have small : char.toNat < 103 := by
    unfold hexValue at isDigit
    split at isDigit
    · rename_i range
      have last : char.toNat ≤ 57 := range.2
      omega
    · split at isDigit
      · rename_i range
        have last : char.toNat ≤ 102 := range.2
        omega
      · split at isDigit
        · rename_i range
          have last : char.toNat ≤ 70 := range.2
          omega
        · cases isDigit
  have shown := digits_lower ⟨char.toNat, small⟩
  simp only [Char.ofNat_toNat, isDigit] at shown
  exact of_decide_eq_true shown

/-- The digits of what was read, in lower case. -/
theorem hexOf_hexPairs {text : List Char} {bytes : List UInt8}
    (pairs : hexPairs text = some bytes) : hexOf bytes = text.map Char.toLower := by
  induction text using hexPairs.induct generalizing bytes with
  | case1 =>
      cases pairs
      rfl
  | case2 char => cases pairs
  | case3 high low rest one two isLow isHigh hypothesis =>
      rw [hexPairs, isHigh, isLow] at pairs
      obtain ⟨others, isOthers, rfl⟩ := Option.map_eq_some_iff.mp pairs
      obtain ⟨highLower, highSmall⟩ := hexValueToChar_hexValue isHigh
      obtain ⟨lowLower, lowSmall⟩ := hexValueToChar_hexValue isLow
      have byte : (UInt8.ofNat (one * 16 + two)).toNat = one * 16 + two := by
        rw [UInt8.toNat_ofNat']
        omega
      have upper : (one * 16 + two) / 16 = one := by omega
      have lower : (one * 16 + two) % 16 = two := by omega
      rw [hexOf_cons, byte, upper, lower, highLower, lowLower, hypothesis isOthers, List.map_cons,
        List.map_cons]
  | case4 high low rest malformed =>
      rw [hexPairs] at pairs
      split at pairs
      · rename_i one two isHigh isLow
        exact (malformed one two isHigh isLow).elim
      · cases pairs

theorem roundTripsText_short {n : Nat} (short : n < 2 ^ 30) : RoundTripsText n := by
  intro text out rev room length digits outLength fits
  obtain ⟨bytes, pairs⟩ := Option.isSome_iff_exists.mp (hexPairs_isSome (by omega) digits)
  have bytesLength := length_hexPairs pairs
  have size := length_ordered rev bytes
  have all : out.drop bytes.length = [] := List.drop_eq_nil_of_le (by omega)
  refine ⟨ordered rev bytes, _, ?_, cbuf2strInto_short (by omega) (by omega), ?_⟩
  · rw [str2cbufInto_pairs (by omega) pairs (by omega), all, List.append_nil]
  · rw [cString_hexOf, ordered_ordered, hexOf_hexPairs pairs]

theorem not_roundTripsText {n : Nat} (large : 2 ^ 30 ≤ n) : ¬ RoundTripsText n := by
  intro trips
  have digits : ∀ char ∈ List.replicate (2 * n) '0', (hexValue char).isSome = true := by
    intro char member
    rw [(List.mem_replicate.mp member).2]
    rfl
  obtain ⟨bytes, written, _, writes, lower⟩ := trips (List.replicate (2 * n) '0')
    (List.replicate n 1) false (2 * n + 1) List.length_replicate digits List.length_replicate
    (Nat.le_refl _)
  obtain ⟨small, isWritten⟩ := cbuf2strInto_success writes
  rw [isWritten, cString_hexOf] at lower
  have lengths := congrArg List.length lower
  rw [length_hexOf, length_ordered, List.length_take, List.length_map, List.length_replicate]
    at lengths
  omega

/-!
## Texts that do not suit

An odd length, and one that is too long for the destination, are to be refused.  The tests are
made on the length as an `int`, which differs from the length only for very long texts.
-/

theorem hexPairs_digits {text : List Char} {bytes : List UInt8}
    (pairs : hexPairs text = some bytes) : ∀ char ∈ text, hexValue char ≠ none := by
  induction text using hexPairs.induct generalizing bytes with
  | case1 => exact fun _ impossible => absurd impossible List.not_mem_nil
  | case2 char => cases pairs
  | case3 high low rest one two isLow isHigh hypothesis =>
      rw [hexPairs, isHigh, isLow] at pairs
      obtain ⟨others, isOthers, _⟩ := Option.map_eq_some_iff.mp pairs
      rw [List.forall_mem_cons, List.forall_mem_cons, isHigh, isLow]
      exact ⟨Option.some_ne_none _, Option.some_ne_none _, hypothesis isOthers⟩
  | case4 high low rest malformed =>
      rw [hexPairs] at pairs
      split at pairs
      · rename_i one two isHigh isLow
        exact (malformed one two isHigh isLow).elim
      · cases pairs

theorem rejects_short {length : Nat} (short : length < 2 ^ 31) : Rejects length := by
  rintro text out rev rfl _ unsuitable success
  rw [str2cbufInto_short rev out short] at success
  split at success
  · cases success
  · rename_i room
    split at success
    · cases success
    · rename_i even
      cases pairs : hexPairs text with
      | none =>
          rw [readPairs_none rev _ (by omega) pairs] at success
          cases success
      | some bytes =>
          rcases unsuitable with odd | ⟨char, member, other⟩ | long
          · omega
          · exact hexPairs_digits pairs char member other
          · omega

/-- An odd length stays odd as an `int`, and a negative one asks for more than there is. -/
theorem rejects_wrapped {length : Nat} (wraps : length % 2 = 1 ∨ 2 ^ 31 ≤ length % 2 ^ 32) :
    Rejects length := by
  rintro text out rev rfl object _ success
  unfold str2cbufInto at success
  dsimp only at success
  split at success
  · cases success
  · rename_i room
    split at success
    · cases success
    · rename_i even
      have isInt : intOf text.length = if (text.length : Int) % 2 ^ 32 < 2 ^ 31
          then (text.length : Int) % 2 ^ 32 else (text.length : Int) % 2 ^ 32 - 2 ^ 32 := by
        unfold intOf
        rw [Int.bmod_def]
        rfl
      rw [isInt] at even room
      unfold sizeOfInt at room
      split at even
      · rename_i positive
        rw [Int.tmod_eq_emod_of_nonneg (by omega)] at even
        omega
      · rename_i negative
        rw [if_neg negative] at room
        have parity := Int.tmod_add_mul_tdiv ((text.length : Int) % 2 ^ 32 - 2 ^ 32) 2
        omega

/-- A text that wraps around to fewer characters is read as far as these go. -/
theorem not_rejects {length : Nat} (even : length % 2 = 0) (long : 2 ^ 32 ≤ length)
    (positive : length % 2 ^ 32 < 2 ^ 31) : ¬ Rejects length := by
  intro rejects
  have textLength : (List.replicate (length - 1) '0' ++ ['g']).length = length := by
    rw [List.length_append, List.length_replicate, List.length_singleton]
    omega
  have object : (List.replicate (length % 2 ^ 32 / 2) (0 : UInt8)).length < 2 ^ 63 := by
    rw [List.length_replicate]
    omega
  apply rejects (List.replicate (length - 1) '0' ++ ['g'])
    (List.replicate (length % 2 ^ 32 / 2) 0) false textLength object
  · refine .inr (.inl ⟨'g', ?_, rfl⟩)
    exact List.mem_append_right _ (List.mem_singleton.mpr rfl)
  · have isInt : intOf length = ((length % 2 ^ 32 : Nat) : Int) := by
      unfold intOf
      rw [Int.bmod_def]
      omega
    have half : ((length % 2 ^ 32 : Nat) : Int).tdiv 2 = (length % 2 ^ 32 / 2 : Nat) := by
      rw [Int.tdiv_eq_ediv_of_nonneg (by omega)]
      rfl
    have parity : ((length % 2 ^ 32 : Nat) : Int).tmod 2 = 0 := by
      rw [Int.tmod_eq_emod_of_nonneg (by omega)]
      omega
    have size : sizeOfInt ((length % 2 ^ 32 / 2 : Nat) : Int) = length % 2 ^ 32 / 2 := by
      unfold sizeOfInt
      omega
    have front : (List.replicate (length - 1) '0' ++ ['g']).take (2 * (length % 2 ^ 32 / 2)) =
        List.replicate (2 * (length % 2 ^ 32 / 2)) '0' := by
      rw [List.take_append_of_le_length (by rw [List.length_replicate]; omega),
        List.take_replicate, Nat.min_eq_left (by omega)]
    have digits : ∀ char ∈ List.replicate (2 * (length % 2 ^ 32 / 2)) '0',
        (hexValue char).isSome = true := by
      intro char member
      rw [(List.mem_replicate.mp member).2]
      rfl
    obtain ⟨bytes, pairs⟩ := Option.isSome_iff_exists.mp
      (hexPairs_isSome (by rw [List.length_replicate]; omega) digits)
    have count := length_hexPairs pairs
    rw [List.length_replicate] at count
    have isHalf : length % 2 ^ 32 / 2 = bytes.length := by omega
    unfold str2cbufInto
    simp only [textLength, isInt, half, parity, size, Int.toNat_natCast, List.length_replicate,
      front, Nat.lt_irrefl, ne_eq, not_true_eq_false, if_false]
    rw [isHalf] at pairs ⊢
    rw [readPairs_all false pairs (by rw [List.length_replicate])]

/-- Buffers and texts are converted as they are meant exactly as long as the lengths, and what
the functions compute from them, are within an `int`.  The failing inputs are gigantic, but no
caller and no check excludes them. -/
theorem hex_buffers_iff (n length : Nat) :
    (RoundTrips n ↔ n < 2 ^ 30) ∧ (RoundTripsText n ↔ n < 2 ^ 30) ∧
      (Rejects length ↔
        ¬ (length % 2 = 0 ∧ 2 ^ 32 ≤ length ∧ length % 2 ^ 32 < 2 ^ 31)) := by
  refine ⟨⟨fun trips => ?_, roundTrips_short⟩, ⟨fun trips => ?_, roundTripsText_short⟩,
    ⟨?_, fun other => ?_⟩⟩
  · exact Nat.not_le.mp fun large => not_roundTrips large trips
  · exact Nat.not_le.mp fun large => not_roundTripsText large trips
  · rintro rejects ⟨even, long, positive⟩
    exact not_rejects even long positive rejects
  · by_cases short : length < 2 ^ 31
    · exact rejects_short short
    · exact rejects_wrapped (by omega)

/-- A buffer of `2 ^ 30` bytes is not converted. -/
theorem large_buffer_overflows : ¬ ∀ n, RoundTrips n := fun claim =>
  not_roundTrips (Nat.le_refl _) (claim (2 ^ 30))

/-! ## The buffers of 16 bytes -/

theorem cbuf2str_eq (bytes : Vector UInt8 16) : cbuf2str bytes = hexOf bytes.toList := rfl

/-- The loaders of the UUIDs and keys read what is stored in their buffer. -/
theorem str2cbufInto_uuid {text : List Char} (short : text.length < 2 ^ 31)
    {buffer uuid : Vector UInt8 16} (decoded : str2cbuf text buffer = some uuid) :
    str2cbufInto text false buffer.toList = (.success, uuid.toList) := by
  unfold str2cbuf at decoded
  split at decoded
  · cases decoded
  · obtain ⟨bytes, pairs, isUuid⟩ := Option.map_eq_some_iff.mp decoded
    have count := length_hexPairs pairs
    have room : bytes.length ≤ buffer.toList.length := by
      rw [Vector.length_toList]
      omega
    rw [str2cbufInto_pairs short pairs room]
    congr 1
    subst isUuid
    apply List.ext_getElem?
    intro index
    rw [List.getElem?_append]
    simp only [ordered, Bool.false_eq_true, if_false, List.getElem?_drop]
    by_cases inside : index < bytes.length
    · rw [if_pos inside]
      have small : index < 16 := by
        rw [Vector.length_toList] at room
        omega
      simp [small, inside]
    · rw [if_neg inside]
      have same : bytes.length + (index - bytes.length) = index := by omega
      rw [same]
      by_cases small : index < 16
      · simp [small, List.getElem?_eq_none (Nat.not_lt.mp inside)]
      · simp [small]

/-- What they refuse, the function refuses too. -/
theorem str2cbufInto_refused {text : List Char} (short : text.length < 2 ^ 31)
    {buffer : Vector UInt8 16} (refused : str2cbuf text buffer = none) :
    (str2cbufInto text false buffer.toList).1 ≠ .success := by
  intro success
  rw [str2cbufInto_short false _ short, Vector.length_toList] at success
  unfold str2cbuf at refused
  split at success
  · cases success
  · rename_i room
    rw [if_neg room] at refused
    have none_ := Option.map_eq_none_iff.mp refused
    split at success
    · cases success
    · rw [readPairs_none false _ (by omega) none_] at success
      cases success

end Nwmng
