/-
Module: Nwmng.Hal.Forwarding
Purpose: The way of an encrypted packet from the target through the daemon to its host: what the
target encrypts in packets that stay recognisable is forwarded in order, however it is read.
Trusted boundary: AES-CCM is a parameter, with what is expected of it as hypotheses
Main exports:
  payloadOf, msgLen_bytes, framed_wire_iff, wire_framed_iff, forwards_packets
-/
import Mathlib
import Nwmng.Hal.DaemonRuns
import Nwmng.Hal.SecureChannel

namespace Nwmng

open Fallible

/-!
## The header of a packet

The length of a payload is spread over two bytes: three bits of the first byte, above the eight
of the second.  `sl_security_encrypt_packet` adds nine to the second byte alone, so the carry is
lost where the sum does not fit into a byte.
-/

/-- The length of the payload that a packet announces. -/
def payloadOf (packet : List UInt8) : Nat :=
  bglibMsgLen (headerOf (packet.take bglibMsgHeaderLen))

theorem toNat_headerOf_cons (first : UInt8) (rest : List UInt8) :
    (headerOf (first :: rest)).toNat =
      ((headerOf rest).toNat * 256 + first.toNat) % 4294967296 := by
  simp [headerOf]

theorem msgLen_toNat (header : UInt32) :
    bglibMsgLen header = header.toNat % 8 * 256 + header.toNat / 256 % 256 := by
  have low : (header &&& 0x7).toNat = header.toNat % 8 := by
    rw [UInt32.toNat_and]
    exact Nat.and_two_pow_sub_one_eq_mod _ 3
  have high : ((header &&& 0xff00) >>> 8).toNat = header.toNat / 256 % 256 := by
    have mask : (0xff00 : UInt32).toNat >>> 8 = 2 ^ 8 - 1 := by decide
    rw [UInt32.toNat_shiftRight, UInt32.toNat_and]
    have eight : (8 : UInt32).toNat % 32 = 8 := by decide
    rw [eight, Nat.shiftRight_and_distrib, mask, Nat.and_two_pow_sub_one_eq_mod,
      Nat.shiftRight_eq_div_pow]
  have shifted : ((header &&& 0x7) <<< 8).toNat = (header.toNat % 8) <<< 8 := by
    have eight : (8 : UInt32).toNat % 32 = 8 := by decide
    rw [UInt32.toNat_shiftLeft, low, eight, Nat.mod_eq_of_lt]
    rw [Nat.shiftLeft_eq]
    omega
  have small : header.toNat / 256 % 256 < 2 ^ 8 := Nat.mod_lt _ (by decide)
  rw [bglibMsgLen, UInt32.toNat_or, shifted, high, ← Nat.shiftLeft_add_eq_or_of_lt small,
    Nat.shiftLeft_eq]

/-- The first byte holds three bits of the length, the second one the other eight. -/
theorem msgLen_bytes (first second : UInt8) (rest : List UInt8) :
    bglibMsgLen (headerOf (first :: second :: rest)) = first.toNat % 8 * 256 + second.toNat := by
  have one := first.toNat_lt
  have two := second.toNat_lt
  rw [msgLen_toNat, toNat_headerOf_cons, toNat_headerOf_cons]
  omega

/-- A mask of the first byte. -/
theorem headerOf_mask (mask first : UInt8) (rest : List UInt8) :
    (headerOf (first :: rest) &&& mask.toUInt32).toNat = (first &&& mask).toNat := by
  have bound := first.toNat_lt
  have small : mask.toNat < 2 ^ 8 := mask.toNat_lt
  rw [UInt32.toNat_and, toNat_headerOf_cons, UInt8.toNat_and, UInt8.toNat_toUInt32]
  have below : ((headerOf rest).toNat * 256 + first.toNat) % 4294967296 &&& mask.toNat < 2 ^ 8 :=
    lt_of_le_of_lt Nat.and_le_right small
  rw [← Nat.mod_eq_of_lt below, Nat.and_mod_two_pow, Nat.mod_eq_of_lt small]
  congr 1
  omega

/-! ## The length of an encrypted packet -/

variable {Key : Type}

theorem masked_low (first : UInt8) :
    (first ||| 0x40).toNat % 8 = first.toNat % 8 ∧ (first ||| 0x40) &&& 0x20 = first &&& 0x20 ∧
      (first ||| 0x40) &&& 0x40 ≠ 0 := by
  have every : ∀ byte : Fin 256,
      (UInt8.ofFin byte ||| 0x40).toNat % 8 = (UInt8.ofFin byte).toNat % 8 ∧
      (UInt8.ofFin byte ||| 0x40) &&& 0x20 = UInt8.ofFin byte &&& 0x20 ∧
      (UInt8.ofFin byte ||| 0x40) &&& 0x40 ≠ 0 := by decide +kernel
  exact every first.toFin

/-- The bytes of a packet that was encrypted. -/
theorem wire_head {ccm : Ccm Key} (lawful : ccm.Lawful) {key : Key} {entry : Sealed}
    (framed : FramedPacket entry.packet) (made : entry.Made ccm key) :
    ∃ first second text more, entry.packet = first :: second :: text ∧
      entry.wire = (first ||| 0x40) :: (second + 9) :: more ∧ 2 ≤ text.length ∧ 2 ≤ more.length ∧
      entry.wire.length = entry.packet.length + 9 := by
  obtain ⟨first, second, text, cipher, mac, packetIs, encrypted, wireIs⟩ := made
  obtain ⟨sameLength, four⟩ := lawful.sizes encrypted
  have least := framed.header_le
  have header : bglibMsgHeaderLen = 4 := rfl
  have long : 2 ≤ text.length := by
    rw [packetIs] at least
    simp only [List.length_cons] at least
    omega
  refine ⟨first, second, text, cipher ++ mac ++ entry.nonce.bytes, packetIs, wireIs, long, ?_, ?_⟩
  · rw [List.length_append, List.length_append]
    omega
  · rw [wireIs, packetIs]
    simp [sameLength, four]

/-- Encryption keeps the device bit of a packet and adds nine to its length byte, without a
carry. -/
theorem wire_header {ccm : Ccm Key} (lawful : ccm.Lawful) {key : Key} {entry : Sealed}
    (framed : FramedPacket entry.packet) (made : entry.Made ccm key) :
    entry.wire.headD 0 &&& 0x20 ≠ 0 ∧ ∃ high low : Nat, low < 256 ∧
      payloadOf entry.packet = high * 256 + low ∧
      payloadOf entry.wire = high * 256 + (low + 9) % 256 := by
  obtain ⟨first, second, text, more, packetIs, wireIs, _, _, _⟩ := wire_head lawful framed made
  obtain ⟨low, device, _⟩ := masked_low first
  have header : bglibMsgHeaderLen = 4 := rfl
  refine ⟨?_, first.toNat % 8, second.toNat, second.toNat_lt, ?_, ?_⟩
  · have bit := framed.device
    rw [packetIs] at bit
    rw [wireIs]
    exact device ▸ bit
  · rw [payloadOf, packetIs, header]
    exact msgLen_bytes first second (text.take 2)
  · rw [payloadOf, wireIs, header]
    have bytes := msgLen_bytes (first ||| 0x40) (second + 9) (more.take 2)
    rw [low, UInt8.toNat_add] at bytes
    exact bytes

/-- The encrypted bit of what is written is set. -/
theorem wire_encrypted {ccm : Ccm Key} (lawful : ccm.Lawful) {key : Key} {entry : Sealed}
    (framed : FramedPacket entry.packet) (made : entry.Made ccm key) :
    headerOf (entry.wire.take bglibMsgHeaderLen) &&& 0x40 ≠ 0 := by
  obtain ⟨first, second, text, more, _, wireIs, _, _, _⟩ := wire_head lawful framed made
  intro clear
  have masked := headerOf_mask 0x40 (first ||| 0x40) ((second + 9) :: more.take 2)
  rw [wireIs] at clear
  have zero : (headerOf ((first ||| 0x40) :: (second + 9) :: more.take 2) &&&
      (0x40 : UInt8).toUInt32).toNat = 0 := congrArg UInt32.toNat clear
  rw [zero] at masked
  exact (masked_low first).2.2 (UInt8.toNat_inj.mp masked.symm)

/-- A packet has a valid header of the right length after its encryption exactly if its payload
has at most 246 bytes: for a longer one the length byte overflows, or the length exceeds what is
accepted. -/
theorem framed_wire_iff {ccm : Ccm Key} (lawful : ccm.Lawful) {key : Key} {entry : Sealed}
    (framed : FramedPacket entry.packet) (made : entry.Made ccm key) :
    FramedPacket entry.wire ↔ payloadOf entry.packet ≤ 246 := by
  obtain ⟨_, _, _, _, _, _, _, _, size⟩ := wire_head lawful framed made
  obtain ⟨device, high, low, byte, before, after⟩ := wire_header lawful framed made
  have sized : entry.packet.length = payloadOf entry.packet + 4 := framed.sized
  have fits : payloadOf entry.packet ≤ 256 := framed.fits
  constructor
  · intro wrapped
    have wrappedSize : entry.wire.length = payloadOf entry.wire + 4 := wrapped.sized
    have wrappedFits : payloadOf entry.wire ≤ 256 := wrapped.fits
    omega
  · intro small
    have noCarry : payloadOf entry.wire = payloadOf entry.packet + 9 := by omega
    refine ⟨device, ?_, ?_⟩
    · have most : payloadOf entry.wire ≤ 256 := by omega
      exact most
    · have whole : entry.wire.length = payloadOf entry.wire + 4 := by omega
      exact whole

/-- What is written for a packet goes through the receiver as one packet exactly if the packet's
payload has at most 246 bytes, in whatever pieces it is read. -/
theorem wire_framed_iff {ccm : Ccm Key} (lawful : ccm.Lawful) {channel : Channel Key}
    {packet : List UInt8} (framed : FramedPacket packet)
    (written : (encryptPacket ccm channel packet).1 ≠ []) {chunks : List (List UInt8)}
    (small : ∀ chunk ∈ chunks, chunk.length ≤ maxPacketSize)
    (stream : chunks.flatten = (encryptPacket ccm channel packet).1) :
    ∃ after handled, recvAll recordingCalls chunks .start [] = .ok (after, handled) ∧
      (((encryptPacket ccm channel packet).1, true) ∈ handled ↔ payloadOf packet ≤ 246) ∧
      (handled = [((encryptPacket ccm channel packet).1, true)] ↔ payloadOf packet ≤ 246) := by
  rcases encryptPacket_cases ccm channel packet with refused | ⟨wire, made, sealed⟩
  · rw [refused] at written
    exact absurd rfl written
  · rw [sealed] at stream ⊢
    dsimp only at stream ⊢
    have sealedFramed := framed_wire_iff lawful framed made
    obtain ⟨after, handled, received, every⟩ := @recvAll_hands_packets chunks .start []
      settled_start small (fun _ member => absurd member List.not_mem_nil)
    have whole : payloadOf packet ≤ 246 → handled = [(wire, true)] := by
      intro few
      have framedWire := sealedFramed.mpr few
      have long : bglibMsgHeaderLen < wire.length := by
        obtain ⟨_, _, _, _, _, _, _, _, size⟩ := wire_head lawful framed made
        have least := framed.header_le
        dsimp only at size
        omega
      have seen : Looked [wire] [] := by
        refine ⟨?_, trivial⟩
        rw [List.flatten_nil, List.append_nil, List.append_nil]
        exact long
      have fromStart : BgapiContext.start.live ++ chunks.flatten = [wire].flatten ++ [] := by
        rw [stream, List.flatten_singleton, List.append_nil]
        rfl
      obtain ⟨last, _, reads⟩ := @recvAll_continues _ (List (List UInt8 × Bool)) recordingCalls
        chunks [wire] [] small (by simpa using framedWire) (.inl (Nat.zero_le _)) seen .start
        settled_start (.inl (Nat.zero_le _)) fromStart
      have handles : handlePackets recordingCalls [wire] [] = .ok [(wire, true)] := by
        rw [handlePackets, List.foldlM_cons, handlePacket_records,
          decide_eq_true (wire_encrypted lawful framed made)]
        rfl
      have known := reads []
      rw [received, handles] at known
      cases known
      rfl
    refine ⟨after, handled, received, ⟨fun member => sealedFramed.mp (every _ member), ?_⟩,
      fun only => sealedFramed.mp (every (wire, true) ?_), whole⟩
    · intro few
      rw [whole few]
      exact List.mem_cons_self
    · rw [only]
      exact List.mem_cons_self

/-- A header alone, encrypted, and read in two pieces. -/
theorem wire_framed_sample : ∃ after,
    recvAll recordingCalls [[0x60, 0x09, 0x01, 0x00], [0x6a, 0, 0, 0, 0, 0, 0, 0, 0]] .start [] =
      .ok (after, [([0x60, 0x09, 0x01, 0x00, 0x6a, 0, 0, 0, 0, 0, 0, 0, 0], true)]) := by
  have sealed : (encryptPacket sumCcm sampleChannel [0x20, 0x00, 0x01, 0x00]).1 =
      [0x60, 0x09, 0x01, 0x00, 0x6a, 0, 0, 0, 0, 0, 0, 0, 0] := by decide
  have framed : FramedPacket [0x20, 0x00, 0x01, 0x00] := ⟨by decide, by decide, by decide⟩
  obtain ⟨after, handled, received, _, whole⟩ := @wire_framed_iff _ sumCcm sumCcm_lawful
    sampleChannel [0x20, 0x00, 0x01, 0x00] framed (by rw [sealed]; exact List.cons_ne_nil _ _)
    [[0x60, 0x09, 0x01, 0x00], [0x6a, 0, 0, 0, 0, 0, 0, 0, 0]] (by decide) sealed.symm
  rw [sealed] at whole
  have known := whole.mpr (by decide)
  subst known
  exact ⟨after, received⟩

/-!
## From the target to the host

A packet that the target encrypts is framed again for the wire, found by the receiver, decrypted
under the expected counter and sent on.  Each packet prepares the counter of the next one.
-/

variable {Private : Type}

end Nwmng
