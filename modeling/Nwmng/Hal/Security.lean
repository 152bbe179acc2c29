/-
Module: Nwmng.Hal.Security
Purpose: The encryption of packets between the daemon and the NCP target: forty-bit packet
counters as nonces, and a receiver that accepts no counter below the one it expects.
Trusted boundary: AES-CCM is a parameter; a nonce is the struct that holds its counter and vectors
Main exports:
  ConnNonce, Ccm, Channel, encryptPacket, decryptPacket, encryptAll, decryptAll,
  nonces_distinct_iff, accepted_increasing_iff
-/
import Mathlib
import Nwmng.Lib.Fallible
import Nwmng.Hal.Bglib

namespace Nwmng

open Fallible

/-!
## Counters

Each side of the encrypted link counts the packets it sends and names the counter in every
packet.  The counter and the two vectors of the handshake are the nonce of AES-CCM, so that a
counter that came back under one key would encrypt two packets with one nonce.  A counter is
kept in a word and a byte; `ConnNonce.value` reads the two as one number.
-/

/-- `conn_nonce_t` -/
structure ConnNonce where
  counter : UInt32
  counterHi : UInt8
  hostIv : List UInt8
  targetIv : List UInt8
deriving Repr, DecidableEq, Inhabited

/-- `increase_counter` -/
def increaseCounter (nonce : ConnNonce) : ConnNonce :=
  { nonce with
    counterHi := if nonce.counter = 0xffffffff then nonce.counterHi + 1 else nonce.counterHi
    counter := nonce.counter + 1 }

/-- The counter as one number of forty bits. -/
def ConnNonce.value (nonce : ConnNonce) : Nat :=
  nonce.counterHi.toNat * 4294967296 + nonce.counter.toNat

def counterSize : Nat := 1099511627776

theorem ConnNonce.value_lt (nonce : ConnNonce) : nonce.value < counterSize := by
  have high := nonce.counterHi.toNat_lt
  have low := nonce.counter.toNat_lt
  unfold ConnNonce.value counterSize
  omega

theorem value_increaseCounter (nonce : ConnNonce) :
    (increaseCounter nonce).value = (nonce.value + 1) % counterSize := by
  have high := nonce.counterHi.toNat_lt
  have low := nonce.counter.toNat_lt
  unfold ConnNonce.value counterSize increaseCounter
  dsimp only
  by_cases last : nonce.counter = 0xffffffff
  · have lastNat : nonce.counter.toNat = 4294967295 := by rw [last]; rfl
    rw [if_pos last, UInt8.toNat_add, UInt32.toNat_add, lastNat]
    simp
    omega
  · have notLast : nonce.counter.toNat ≠ 4294967295 := by
      intro same
      exact last (UInt32.toNat_inj.1 same)
    rw [if_neg last, UInt32.toNat_add]
    simp
    omega

theorem ConnNonce.eq_of_value {first second : ConnNonce} (same : first.value = second.value) :
    first.counter = second.counter ∧ first.counterHi = second.counterHi := by
  have lowFirst := first.counter.toNat_lt
  have lowSecond := second.counter.toNat_lt
  unfold ConnNonce.value at same
  constructor
  · apply UInt32.toNat_inj.1
    omega
  · apply UInt8.toNat_inj.1
    omega

/-!
## Packets

`sl_security_encrypt_packet` keeps the two length bytes of a packet readable, encrypts the
rest, and puts the tag and the counter behind it.  `sl_security_decrypt_packet` looks at the
counter first: a packet that names an old one is dropped before any cryptography.
-/

/-- `aes_ccm_encrypt` and `aes_ccm_decrypt`: a text and the data that is authenticated with it
give a cipher text and its tag; a cipher text and its tag give the text, or an error. -/
structure Ccm (Key : Type) where
  encrypt : Key → ConnNonce → List UInt8 → List UInt8 → Option (List UInt8 × List UInt8)
  decrypt : Key → ConnNonce → List UInt8 → List UInt8 → List UInt8 → Option (List UInt8)

/-- `ccm_key`, `sec_counter_in` and `sec_counter_out` -/
structure Channel (Key : Type) where
  ccmKey : Key
  counterIn : ConnNonce
  counterOut : ConnNonce
deriving DecidableEq, Repr

/-- For fewer than nine bytes the length without the trailer wraps, and the counter is read four
gigabytes behind the packet. -/
inductive SecurityFault where
  | shortPacket
deriving Repr, DecidableEq

variable {Key : Type}

/-- The bytes of a counter behind a packet. -/
def ConnNonce.bytes (nonce : ConnNonce) : List UInt8 :=
  headerBytes nonce.counter ++ [nonce.counterHi]

/-- `sl_security_encrypt_packet`: the packet that is written, empty after an error. -/
def encryptPacket (ccm : Ccm Key) (channel : Channel Key) :
    List UInt8 → List UInt8 × Channel Key
  | first :: second :: text =>
      let head := [first ||| 0x40, second + 9]
      match ccm.encrypt channel.ccmKey channel.counterOut text
          (head ++ channel.counterOut.bytes) with
      | none => ([], channel)
      | some (cipher, mac) =>
          (head ++ cipher ++ mac ++ channel.counterOut.bytes,
            { channel with counterOut := increaseCounter channel.counterOut })
  -- the text has a negative length, and OpenSSL refuses it
  | _ => ([], channel)

/-- The nonce that a packet of `size` bytes and nine more names. -/
def nonceOf (channel : Channel Key) (src : List UInt8) (size : Nat) : ConnNonce :=
  { channel.counterIn with
    counter := headerOf ((src.drop (size + 4)).take 4)
    counterHi := (src.drop (size + 8)).headD 0 }

/-- Does the receiver still expect the counter? -/
def counterValid (expected nonce : ConnNonce) : Bool :=
  nonce.counterHi > expected.counterHi ||
    (nonce.counterHi == expected.counterHi && nonce.counter ≥ expected.counter)

/-- What OpenSSL makes of a packet: its text, when the tag is right. -/
def openText (ccm : Ccm Key) (channel : Channel Key) (src : List UInt8) : Option (List UInt8) :=
  let size := src.length - 9
  let nonce := nonceOf channel src size
  ccm.decrypt channel.ccmKey nonce ((src.take size).drop 2) (src.take 2 ++ nonce.bytes)
    ((src.drop size).take 4)

/-- `sl_security_decrypt_packet`: the packet that is forwarded, empty after an error. -/
def decryptPacket (ccm : Ccm Key) (channel : Channel Key) (src : List UInt8) :
    Except SecurityFault (List UInt8 × Channel Key) :=
  if src.length < 9 then .error .shortPacket
  else
    let nonce := nonceOf channel src (src.length - 9)
    if !counterValid channel.counterIn nonce then .ok ([], channel)
    -- the text has a negative length, and OpenSSL refuses it
    else if src.length < 11 then .ok ([], channel)
    else match openText ccm channel src with
      | none => .ok ([], channel)
      | some text =>
          .ok ([src.headD 0 &&& 0xbf, (src.drop 1).headD 0 - 9] ++ text,
            { channel with counterIn := increaseCounter nonce })

theorem counterValid_iff (expected nonce : ConnNonce) :
    counterValid expected nonce = true ↔ expected.value ≤ nonce.value := by
  have lowFirst := expected.counter.toNat_lt
  have lowSecond := nonce.counter.toNat_lt
  unfold counterValid ConnNonce.value
  simp only [Bool.or_eq_true, decide_eq_true_eq, Bool.and_eq_true, beq_iff_eq, gt_iff_lt, ge_iff_le,
    UInt8.lt_iff_toNat_lt, UInt32.le_iff_toNat_le, ← UInt8.toNat_inj]
  omega

/-! ## Sequences of packets -/

/-- A packet that was sent: the nonce, what was encrypted, and what was written.  It is recorded
beside the run, for the theorems about nonces and about what is received. -/
structure Sealed where
  nonce : ConnNonce
  packet : List UInt8
  wire : List UInt8
deriving Repr, DecidableEq

/-- What is written is the packet's head with the encrypted bit and nine bytes more, its text
encrypted under the nonce, the tag, and the counter. -/
def Sealed.Made (ccm : Ccm Key) (key : Key) (entry : Sealed) : Prop :=
  ∃ first second text cipher mac, entry.packet = first :: second :: text ∧
    ccm.encrypt key entry.nonce text ([first ||| 0x40, second + 9] ++ entry.nonce.bytes) =
      some (cipher, mac) ∧
    entry.wire = [first ||| 0x40, second + 9] ++ cipher ++ mac ++ entry.nonce.bytes

/-- Encrypt packets one after the other, with a record of those that were written. -/
def encryptAll (ccm : Ccm Key) :
    Channel Key → List (List UInt8) → List Sealed × Channel Key
  | channel, [] => ([], channel)
  | channel, packet :: packets =>
      let (wire, next) := encryptPacket ccm channel packet
      let (others, last) := encryptAll ccm next packets
      (if wire = [] then others else ⟨channel.counterOut, packet, wire⟩ :: others, last)

/-- A packet that was accepted: the nonce it named, and what was forwarded. -/
structure Opened where
  nonce : ConnNonce
  packet : List UInt8
deriving Repr, DecidableEq

/-- Decrypt packets one after the other, with a record of those that were accepted. -/
def decryptAll (ccm : Ccm Key) :
    Channel Key → List (List UInt8) → Except SecurityFault (List Opened × Channel Key)
  | channel, [] => .ok ([], channel)
  | channel, src :: rest => do
      let (packet, next) ← decryptPacket ccm channel src
      let (others, last) ← decryptAll ccm next rest
      .ok (if packet = [] then others
        else ⟨nonceOf channel src (src.length - 9), packet⟩ :: others, last)

/-!
## What one packet does

A packet is refused, which leaves the channel as it is, or sealed or accepted, which moves the
counter to the one behind its own.  The sequences below are folds over these two cases.
-/

theorem Sealed.Made.written {ccm : Ccm Key} {key : Key} {entry : Sealed}
    (made : entry.Made ccm key) : entry.wire ≠ [] := by
  obtain ⟨_, _, _, _, _, _, _, wireIs⟩ := made
  rw [wireIs]
  exact List.cons_ne_nil _ _

theorem encryptPacket_cases (ccm : Ccm Key) (channel : Channel Key) (packet : List UInt8) :
    encryptPacket ccm channel packet = ([], channel) ∨
      ∃ wire, Sealed.Made ccm channel.ccmKey ⟨channel.counterOut, packet, wire⟩ ∧
        encryptPacket ccm channel packet =
          (wire, { channel with counterOut := increaseCounter channel.counterOut }) := by
  cases packet with
  | nil => exact .inl rfl
  | cons first rest =>
      cases rest with
      | nil => exact .inl rfl
      | cons second text =>
          rw [encryptPacket]
          split
          · exact .inl rfl
          · next cipher mac encrypted =>
              exact .inr ⟨_, ⟨first, second, text, cipher, mac, rfl, encrypted, rfl⟩, rfl⟩

/-- A sequence of packets, after its first packet was refused or sealed. -/
theorem encryptAll_cases (ccm : Ccm Key) (channel : Channel Key) (packet : List UInt8)
    (packets : List (List UInt8)) :
    encryptAll ccm channel (packet :: packets) = encryptAll ccm channel packets ∨
      ∃ entry, entry.Made ccm channel.ccmKey ∧ entry.nonce = channel.counterOut ∧
        entry.packet = packet ∧
        encryptAll ccm channel (packet :: packets) =
          (entry :: (encryptAll ccm
            { channel with counterOut := increaseCounter channel.counterOut } packets).1,
          (encryptAll ccm
            { channel with counterOut := increaseCounter channel.counterOut } packets).2) := by
  rw [encryptAll]
  rcases encryptPacket_cases ccm channel packet with refused | ⟨wire, made, sealed⟩
  · rw [refused]
    exact .inl rfl
  · rw [sealed]
    refine .inr ⟨_, made, rfl, rfl, ?_⟩
    dsimp only
    rw [if_neg made.written]

theorem decryptPacket_cases {ccm : Ccm Key} {channel next : Channel Key}
    {src packet : List UInt8} (decrypts : decryptPacket ccm channel src = .ok (packet, next)) :
    (packet = [] ∧ next = channel) ∨
      ∃ text, 11 ≤ src.length ∧
        channel.counterIn.value ≤ (nonceOf channel src (src.length - 9)).value ∧
        openText ccm channel src = some text ∧
        packet = [src.headD 0 &&& 0xbf, (src.drop 1).headD 0 - 9] ++ text ∧
        next = { channel with
          counterIn := increaseCounter (nonceOf channel src (src.length - 9)) } := by
  rw [decryptPacket] at decrypts
  split at decrypts
  · cases decrypts
  · dsimp only at decrypts
    split at decrypts
    · cases decrypts
      exact .inl ⟨rfl, rfl⟩
    · next valid =>
        have expected := (counterValid_iff _ _).mp (by simpa using valid)
        split at decrypts
        · cases decrypts
          exact .inl ⟨rfl, rfl⟩
        · split at decrypts
          · cases decrypts
            exact .inl ⟨rfl, rfl⟩
          · next long _ text opened =>
              cases decrypts
              exact .inr ⟨text, Nat.le_of_not_lt long, expected, opened, rfl, rfl⟩

/-- Nine bytes are enough for the counter to be read. -/
theorem decryptPacket_ok (ccm : Ccm Key) (channel : Channel Key) {src : List UInt8}
    (long : 9 ≤ src.length) : ∃ result, decryptPacket ccm channel src = .ok result := by
  rw [decryptPacket, if_neg (Nat.not_lt.mpr long)]
  dsimp only
  split
  · exact ⟨_, rfl⟩
  · split
    · exact ⟨_, rfl⟩
    · split
      · exact ⟨_, rfl⟩
      · exact ⟨_, rfl⟩

theorem decryptAll_ok (ccm : Ccm Key) {channel : Channel Key} {srcs : List (List UInt8)}
    (long : ∀ src ∈ srcs, 9 ≤ src.length) :
    ∃ opened last, decryptAll ccm channel srcs = .ok (opened, last) := by
  induction srcs generalizing channel with
  | nil => exact ⟨[], channel, rfl⟩
  | cons src rest hypothesis =>
      obtain ⟨⟨packet, next⟩, decrypts⟩ :=
        decryptPacket_ok ccm channel (long src List.mem_cons_self)
      obtain ⟨opened, last, later⟩ := @hypothesis next fun other member =>
        long other (List.mem_cons_of_mem _ member)
      rw [decryptAll, decrypts, ok_bind]
      dsimp only
      rw [later, ok_bind]
      exact ⟨_, _, rfl⟩

/-! ## The nonces of the packets that are sent -/

/-- The vectors of a nonce do not change while packets are sent.  Only a handshake draws new
ones, so nonces of one session differ by their counters alone. -/
def SameVectors (first second : ConnNonce) : Prop :=
  first.hostIv = second.hostIv ∧ first.targetIv = second.targetIv

theorem ConnNonce.eq_of_vectors {first second : ConnNonce} (vectors : SameVectors first second)
    (same : first.value = second.value) : first = second := by
  obtain ⟨counter, counterHi⟩ := ConnNonce.eq_of_value same
  obtain ⟨host, target⟩ := vectors
  cases first
  cases second
  simp_all

theorem encryptAll_nonces (ccm : Ccm Key) (channel : Channel Key) (packets : List (List UInt8)) :
    ((encryptAll ccm channel packets).1.map fun entry => entry.nonce.value) =
        (List.range (encryptAll ccm channel packets).1.length).map (fun index =>
          (channel.counterOut.value + index) % counterSize) ∧
      ∀ entry ∈ (encryptAll ccm channel packets).1, SameVectors entry.nonce channel.counterOut := by
  induction packets generalizing channel with
  | nil => exact ⟨rfl, fun _ member => absurd member List.not_mem_nil⟩
  | cons packet packets hypothesis =>
      have counts := ConnNonce.value_lt channel.counterOut
      rcases encryptAll_cases ccm channel packet packets with
        refused | ⟨entry, _, nonceIs, _, sealed⟩
      · rw [refused]
        exact hypothesis channel
      · obtain ⟨values, vectors⟩ := hypothesis
          { channel with counterOut := increaseCounter channel.counterOut }
        rw [sealed]
        dsimp only
        constructor
        · rw [List.map_cons, values, List.length_cons, List.range_succ_eq_map, List.map_cons,
            List.map_map, nonceIs, Nat.add_zero, Nat.mod_eq_of_lt counts]
          refine congrArg (channel.counterOut.value :: ·) (List.map_congr_left ?_)
          intro index _
          rw [Function.comp_apply, value_increaseCounter, Nat.mod_add_mod, Nat.succ_eq_add_one,
            Nat.add_assoc, Nat.add_comm 1 index]
        · intro other member
          rcases List.mem_cons.mp member with rfl | later
          · exact nonceIs ▸ ⟨rfl, rfl⟩
          · exact vectors other later

/-- What is sent was made with the key of the channel. -/
theorem encryptAll_made (ccm : Ccm Key) (channel : Channel Key) (packets : List (List UInt8)) :
    ∀ entry ∈ (encryptAll ccm channel packets).1,
      entry.Made ccm channel.ccmKey ∧ entry.packet ∈ packets := by
  induction packets generalizing channel with
  | nil => exact fun _ member => absurd member List.not_mem_nil
  | cons packet packets hypothesis =>
      intro entry member
      rcases encryptAll_cases ccm channel packet packets with
        refused | ⟨first, made, _, packetIs, sealed⟩
      · rw [refused] at member
        obtain ⟨madeToo, listed⟩ := hypothesis channel entry member
        exact ⟨madeToo, List.mem_cons_of_mem _ listed⟩
      · rw [sealed] at member
        rcases List.mem_cons.mp member with rfl | later
        · exact ⟨made, packetIs ▸ List.mem_cons_self⟩
        · obtain ⟨madeToo, listed⟩ := hypothesis _ entry later
          exact ⟨madeToo, List.mem_cons_of_mem _ listed⟩

/-- The packets that are encrypted between two handshakes have nonces of their own, exactly as
long as there are no more of them than counters. -/
theorem nonces_distinct_iff (ccm : Ccm Key) (channel : Channel Key)
    (packets : List (List UInt8)) :
    (∀ entry ∈ (encryptAll ccm channel packets).1, entry.Made ccm channel.ccmKey) ∧
      (((encryptAll ccm channel packets).1.map Sealed.nonce).Nodup ↔
        (encryptAll ccm channel packets).1.length ≤ counterSize) := by
  refine ⟨fun entry member => (encryptAll_made ccm channel packets entry member).1, ?_⟩
  obtain ⟨values, vectors⟩ := encryptAll_nonces ccm channel packets
  generalize (encryptAll ccm channel packets).1 = seals at values vectors ⊢
  have toValues : (seals.map Sealed.nonce).Nodup ↔
      (seals.map fun entry => entry.nonce.value).Nodup := by
    have composed : (seals.map fun entry => entry.nonce.value) =
        (seals.map Sealed.nonce).map ConnNonce.value := by simp
    rw [composed]
    refine ⟨fun distinct => distinct.map_on ?_, fun distinct => distinct.of_map _⟩
    intro one inOne two inTwo same
    obtain ⟨first, listed, rfl⟩ := List.mem_map.mp inOne
    obtain ⟨second, listedToo, rfl⟩ := List.mem_map.mp inTwo
    obtain ⟨host, target⟩ := vectors first listed
    obtain ⟨hostToo, targetToo⟩ := vectors second listedToo
    exact ConnNonce.eq_of_vectors ⟨host.trans hostToo.symm, target.trans targetToo.symm⟩ same
  rw [toValues, values]
  constructor
  · intro distinct
    have inside : ((List.range seals.length).map fun index =>
        (channel.counterOut.value + index) % counterSize) ⊆ List.range counterSize := by
      intro value member
      obtain ⟨index, _, rfl⟩ := List.mem_map.mp member
      exact List.mem_range.mpr (Nat.mod_lt _ (by decide))
    have short := (List.subperm_of_subset distinct inside).length_le
    rwa [List.length_map, List.length_range, List.length_range] at short
  · intro few
    refine List.Nodup.map_on ?_ List.nodup_range
    intro one inOne two inTwo same
    rw [List.mem_range] at inOne inTwo
    unfold counterSize at *
    omega

/-!
## The nonces of the packets that are accepted

A receiver raises the counter it expects with every packet it accepts, and never accepts one
below it.  What it accepts can therefore only run through the counters once, until the largest
of them has been accepted: behind that one the counter that is expected is zero again.
-/

/-- Each number is at least the one that is expected, which is the one behind the number before
it. -/
def Follows : Nat → List Nat → Prop
  | _, [] => True
  | expected, value :: values =>
      expected ≤ value ∧ value < counterSize ∧ Follows ((value + 1) % counterSize) values

/-- Counters that follow each other increase as long as none of them is the last there is. -/
theorem Follows.increasing {expected : Nat} {values : List Nat} (follows : Follows expected values)
    (noLast : ∀ value ∈ values.dropLast, value + 1 < counterSize) :
    values.Pairwise (· < ·) ∧ ∀ value ∈ values, expected ≤ value := by
  induction values generalizing expected with
  | nil => exact ⟨.nil, fun _ member => absurd member List.not_mem_nil⟩
  | cons value values hypothesis =>
      obtain ⟨least, _, later⟩ := follows
      cases values with
      | nil => exact ⟨List.pairwise_singleton _ _, by simpa using least⟩
      | cons next rest =>
          have small : value + 1 < counterSize := noLast value (by simp)
          rw [Nat.mod_eq_of_lt small] at later
          obtain ⟨pairs, above⟩ := hypothesis later fun other member =>
            noLast other (by simp [member])
          refine ⟨List.pairwise_cons.mpr ⟨above, pairs⟩, ?_⟩
          intro other member
          rcases List.mem_cons.mp member with rfl | inRest
          · exact least
          · exact Nat.le_of_succ_le (Nat.le_trans (Nat.succ_le_succ least) (above other inRest))

theorem Follows.bounded {expected : Nat} {values : List Nat}
    (follows : Follows expected values) : ∀ value ∈ values, value < counterSize := by
  induction values generalizing expected with
  | nil => exact fun _ member => absurd member List.not_mem_nil
  | cons value values hypothesis =>
      intro other member
      rcases List.mem_cons.mp member with rfl | later
      · exact follows.2.1
      · exact hypothesis follows.2.2 other later

theorem Follows.increasing_iff {expected : Nat} {values : List Nat}
    (follows : Follows expected values) :
    values.Pairwise (· < ·) ↔ ∀ value ∈ values.dropLast, value + 1 < counterSize := by
  refine ⟨fun pairs value member => ?_, fun noLast => (follows.increasing noLast).1⟩
  have nonempty : values ≠ [] := by
    rintro rfl
    exact absurd member List.not_mem_nil
  have split := List.dropLast_append_getLast nonempty
  have greater : value < values.getLast nonempty := by
    rw [← split, List.pairwise_append] at pairs
    exact pairs.2.2 value member _ (List.mem_singleton.mpr rfl)
  have bound := follows.bounded _ (List.getLast_mem nonempty)
  omega

theorem decryptAll_follows {ccm : Ccm Key} {channel last : Channel Key}
    {srcs : List (List UInt8)} {opened : List Opened}
    (received : decryptAll ccm channel srcs = .ok (opened, last)) :
    Follows channel.counterIn.value (opened.map fun entry => entry.nonce.value) := by
  induction srcs generalizing channel opened with
  | nil =>
      cases received
      trivial
  | cons src rest hypothesis =>
      rw [decryptAll] at received
      obtain ⟨⟨packet, next⟩, decrypts, continues⟩ := bind_ok.1 received
      obtain ⟨⟨others, final⟩, later, result⟩ := bind_ok.1 continues
      clear received continues
      rcases decryptPacket_cases decrypts with ⟨rfl, rfl⟩ | ⟨text, _, least, _, rfl, rfl⟩
      · cases result
        exact hypothesis later
      · cases result
        have others := hypothesis later
        rw [value_increaseCounter] at others
        exact ⟨least, ConnNonce.value_lt _, others⟩

/-- Whatever packets are received between two handshakes, in whatever order and however often,
the counters of those that are accepted increase, and so none is accepted twice, exactly as long
as the last counter has not been accepted and then followed by another. -/
theorem accepted_increasing_iff {ccm : Ccm Key} {channel : Channel Key}
    {srcs : List (List UInt8)} (long : ∀ src ∈ srcs, 9 ≤ src.length) :
    ∃ opened last, decryptAll ccm channel srcs = .ok (opened, last) ∧
      ((opened.map fun entry => entry.nonce.value).Pairwise (· < ·) ↔
        ∀ value ∈ (opened.map fun entry => entry.nonce.value).dropLast,
          value + 1 < counterSize) := by
  obtain ⟨opened, last, received⟩ := @decryptAll_ok _ ccm channel srcs long
  exact ⟨opened, last, received, (decryptAll_follows received).increasing_iff⟩

/-- A tag that is right: the sum of all bytes that are authenticated. -/
def sumTag (text additional : List UInt8) : List UInt8 :=
  [(text ++ additional).foldl (· + ·) 0, 0, 0, 0]

/-- A cipher that leaves a text as it is. -/
def sumCcm : Ccm Unit where
  encrypt _ _ text additional := some (text, sumTag text additional)
  decrypt _ _ cipher additional mac :=
    if mac = sumTag cipher additional then some cipher else none

def sampleChannel : Channel Unit := { ccmKey := (), counterIn := default, counterOut := default }

/-- Two packets, the first of which comes twice, one with a wrong tag and one that is too short to
have a text. -/
def sampleArrivals : List (List UInt8) :=
  [[0x60, 0x0a, 0x07, 0x71, 0, 0, 0, 0, 0, 0, 0, 0],
    [0x60, 0x0a, 0x07, 0x71, 0, 0, 0, 0, 0, 0, 0, 0],
    [0x60, 0x0a, 0x08, 0x71, 0, 0, 0, 1, 0, 0, 0, 0],
    [0x60, 0x09, 0, 0, 0, 1, 0, 0, 0],
    [0x60, 0x0a, 0x08, 0x73, 0, 0, 0, 1, 0, 0, 0, 0]]

/-- Two of the packets are accepted. -/
theorem accepted_increasing_sample : ∃ opened last,
    decryptAll sumCcm sampleChannel sampleArrivals = .ok (opened, last) ∧
      opened.map Opened.packet = [[0x20, 0x01, 0x07], [0x20, 0x01, 0x08]] ∧
      (opened.map fun entry => entry.nonce.value).Pairwise (· < ·) := by
  obtain ⟨opened, last, received, increasing⟩ :=
    @accepted_increasing_iff _ sumCcm sampleChannel sampleArrivals (by decide)
  have known : decryptAll sumCcm sampleChannel sampleArrivals =
      .ok ([{ nonce := default, packet := [0x20, 0x01, 0x07] },
          { nonce := increaseCounter default, packet := [0x20, 0x01, 0x08] }],
        { sampleChannel with counterIn := increaseCounter (increaseCounter default) }) := by decide
  rw [known] at received
  cases received
  exact ⟨_, _, known, rfl, increasing.mpr (by decide)⟩

end Nwmng
