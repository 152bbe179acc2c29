/-
Module: Nwmng.Hal.Reframe
Purpose: How the daemon cuts the bytes of the serial port into packets again, whatever pieces
they are read in, and what its buffer holds between two reads.
Trusted boundary: the host stores numbers with the lowest byte first
Main exports:
  BgapiContext, BgapiCallbacks, recvData, FramedPacket, recvData_bounded, recvAll_packets,
  recvData_junk
-/
import Nwmng.Lib.Fallible
import Nwmng.Hal.Messages

namespace Nwmng

open Fallible

/-! ## The receiver -/

/-- `MAX_PACKET_SIZE` -/
def maxPacketSize : Nat := 512

/-- The size of `recv_buf`. -/
def recvBufSize : Nat := 1024

/-- `sl_bgapi_context_t` -/
structure BgapiContext where
  recvLen : Nat
  recvBuf : List UInt8
deriving Repr, DecidableEq

/-- An access outside the buffer.  Failures of a callback are passed on, so that both can be told
apart in a theorem. -/
inductive BgapiFault (Failure : Type) where
  | overflow
  | callback (failure : Failure)
deriving Repr, DecidableEq

/-- What the receiver calls: the functions of `sl_security.c`, and the function that forwards a
packet. -/
structure BgapiCallbacks (Failure Daemon : Type) where
  decrypt : List UInt8 → Daemon → Except Failure (List UInt8 × Daemon)
  increaseSecurityRsp : List UInt8 → List UInt8 → List UInt8 → Daemon → Except Failure Daemon
  reset : Daemon → Except Failure Daemon
  processPacket : List UInt8 → Bool → Daemon → Except Failure Daemon

def geckoRspUserMessageToTargetId : UInt32 := 0x00ff0020

def geckoEvtSystemBootId : UInt32 := 0x000100a0

def geckoEvtDfuBootId : UInt32 := 0x000000a0

/-- The bytes behind `src` are moved to `dst`; the places overlap. -/
def memmove (buf : List UInt8) (dst src count : Nat) : List UInt8 :=
  buf.take dst ++ (buf.drop src).take count ++ buf.drop (dst + count)

/-- The bytes are copied to `dst`. -/
def memcpy (buf : List UInt8) (dst : Nat) (bytes : List UInt8) : List UInt8 :=
  buf.take dst ++ bytes ++ buf.drop (dst + bytes.length)

variable {Failure Daemon : Type}

/-- What is done with one packet. -/
def handlePacket (calls : BgapiCallbacks Failure Daemon) (packet : List UInt8)
    (daemon : Daemon) : Except Failure Daemon :=
  let hdr := headerOf (packet.take bglibMsgHeaderLen)
  if hdr &&& 0x40 ≠ 0 then do
    let (tbuf, daemon) ← calls.decrypt packet daemon
    calls.processPacket tbuf true daemon
  else do
    let daemon ←
      if bglibMsgId hdr = geckoRspUserMessageToTargetId then
        -- the response to the security handshake
        if packet.length = 80 ∧ (packet.drop 4).take 4 = [0, 0, 0x49, 0] then
          calls.increaseSecurityRsp ((packet.drop 8).take 64) ((packet.drop 72).take 4)
            ((packet.drop 76).take 4) daemon
        else .ok daemon
      else if bglibMsgId hdr = geckoEvtSystemBootId ∨ bglibMsgId hdr = geckoEvtDfuBootId then
        calls.reset daemon
      else .ok daemon
    calls.processPacket packet false daemon

/-- The loop of `sl_bgapi_recv_data`; each turn takes at least one byte. -/
def recvLoop (calls : BgapiCallbacks Failure Daemon) :
    Nat → BgapiContext → Daemon → Except Failure (BgapiContext × Daemon)
  | 0, ctx, daemon => .ok (ctx, daemon)
  | turns + 1, ctx, daemon =>
      if ctx.recvLen ≤ bglibMsgHeaderLen then .ok (ctx, daemon)
      else
        let hdr := headerOf (ctx.recvBuf.take bglibMsgHeaderLen)
        if ctx.recvBuf.headD 0 &&& 0x20 = 0 ∨ bglibMsgMaxPayload < bglibMsgLen hdr then
          -- invalid packet, drop 1st byte
          recvLoop calls turns
            { recvLen := ctx.recvLen - 1
              recvBuf := memmove ctx.recvBuf 0 1 (ctx.recvLen - 1 - 1) } daemon
        else
          let packetLen := bglibMsgLen hdr + bglibMsgHeaderLen
          if ctx.recvLen < packetLen then .ok (ctx, daemon)
          else match handlePacket calls (ctx.recvBuf.take packetLen) daemon with
            | .error failure => .error failure
            | .ok daemon => recvLoop calls turns
                { recvLen := ctx.recvLen - packetLen
                  recvBuf := memmove ctx.recvBuf 0 packetLen (ctx.recvLen - packetLen) } daemon

/-- `sl_bgapi_recv_data`, with the bytes of one read. -/
def recvData (calls : BgapiCallbacks Failure Daemon) (ctx : BgapiContext) (buf : List UInt8)
    (daemon : Daemon) : Except (BgapiFault Failure) (BgapiContext × Daemon) :=
  let ctx : BgapiContext :=
    if recvBufSize < ctx.recvLen + buf.length then
      -- move old data to at least fit new data
      { recvLen := (ctx.recvLen + 4294967296 - buf.length) % 4294967296
        recvBuf := memmove ctx.recvBuf 0 ctx.recvLen (recvBufSize - ctx.recvLen) }
    else ctx
  if recvBufSize < ctx.recvLen + buf.length then .error .overflow
  else
    let ctx : BgapiContext :=
      { recvLen := ctx.recvLen + buf.length, recvBuf := memcpy ctx.recvBuf ctx.recvLen buf }
    if buf.length < 1 then .ok (ctx, daemon)
    else (recvLoop calls ctx.recvLen ctx daemon).mapError .callback

/-- The reads of the serial port, one after the other. -/
def recvAll (calls : BgapiCallbacks Failure Daemon) (chunks : List (List UInt8))
    (ctx : BgapiContext) (daemon : Daemon) :
    Except (BgapiFault Failure) (BgapiContext × Daemon) :=
  chunks.foldlM (fun state chunk => recvData calls state.1 chunk state.2) (ctx, daemon)

/-- `sl_bgapi_reset` of a context that is all zero. -/
def BgapiContext.start : BgapiContext :=
  { recvLen := 0, recvBuf := List.replicate recvBufSize 0 }

/-!
## The bytes that wait in the buffer

Between two reads less than one packet waits.  This bounds what a read can add, and with it every
copy in the loop, whatever the bytes are.
-/

def BgapiContext.live (ctx : BgapiContext) : List UInt8 := ctx.recvBuf.take ctx.recvLen

/-- The buffer keeps its size, and less than one packet waits in it.  One read fits behind what
waits, which is why the receiver cannot overflow. -/
structure BgapiContext.Settled (ctx : BgapiContext) : Prop where
  size : ctx.recvBuf.length = recvBufSize
  waits : ctx.recvLen < bglibMsgMaxPayload + bglibMsgHeaderLen

theorem length_memmove {buf : List UInt8} {src count : Nat} (inside : src + count ≤ buf.length) :
    (memmove buf 0 src count).length = buf.length := by
  simp only [memmove, List.length_append, List.length_take, List.length_drop]
  omega

theorem take_memmove {buf : List UInt8} {src count : Nat} (inside : src + count ≤ buf.length) :
    (memmove buf 0 src count).take count = (buf.drop src).take count := by
  have size : ((buf.drop src).take count).length = count := by
    rw [List.length_take, List.length_drop]
    omega
  rw [memmove, List.take_zero, List.nil_append]
  exact List.take_left' size

theorem length_memcpy {buf bytes : List UInt8} {dst : Nat}
    (inside : dst + bytes.length ≤ buf.length) : (memcpy buf dst bytes).length = buf.length := by
  simp only [memcpy, List.length_append, List.length_take, List.length_drop]
  omega

theorem take_memcpy {buf bytes : List UInt8} {dst : Nat}
    (inside : dst + bytes.length ≤ buf.length) :
    (memcpy buf dst bytes).take (dst + bytes.length) = buf.take dst ++ bytes := by
  have size : (buf.take dst ++ bytes).length = dst + bytes.length := by
    rw [List.length_append, List.length_take]
    omega
  rw [memcpy, ← size, List.take_left]

/-- The loop leaves less than a packet in the buffer, whatever bytes were in it. -/
theorem recvLoop_settled {calls : BgapiCallbacks Failure Daemon} {turns : Nat}
    {ctx after : BgapiContext} {daemon last : Daemon} (size : ctx.recvBuf.length = recvBufSize)
    (inside : ctx.recvLen ≤ recvBufSize) (enough : ctx.recvLen ≤ turns)
    (loops : recvLoop calls turns ctx daemon = .ok (after, last)) : after.Settled := by
  induction turns generalizing ctx daemon with
  | zero =>
      cases loops
      exact ⟨size, Nat.lt_of_le_of_lt enough (by decide)⟩
  | succ turns hypothesis =>
      rw [recvLoop] at loops
      split at loops
      · next few =>
          cases loops
          exact ⟨size, Nat.lt_of_le_of_lt few (by decide)⟩
      · next many =>
          have four : bglibMsgHeaderLen = 4 := rfl
          dsimp only at loops
          split at loops
          · refine hypothesis ?_ (by dsimp only; omega) (by dsimp only; omega) loops
            dsimp only
            rw [length_memmove (by omega), size]
          · next valid =>
              have bounded := Nat.le_of_not_lt (not_or.mp valid).2
              split at loops
              · next short =>
                  cases loops
                  exact ⟨size, Nat.lt_of_lt_of_le short (Nat.add_le_add_right bounded _)⟩
              · split at loops
                · cases loops
                · refine hypothesis ?_ (by dsimp only; omega) (by dsimp only; omega) loops
                  dsimp only
                  rw [length_memmove (by omega), size]

/-- One read of at most the size of the daemon's buffer never leaves the receive buffer. -/
theorem recvData_settled {calls : BgapiCallbacks Failure Daemon} {ctx : BgapiContext}
    {buf : List UInt8} {daemon : Daemon} (settled : ctx.Settled)
    (small : buf.length ≤ maxPacketSize) :
    recvData calls ctx buf daemon ≠ .error .overflow ∧
      ∀ after last, recvData calls ctx buf daemon = .ok (after, last) → after.Settled := by
  have waits := settled.waits
  have size := settled.size
  have room : ¬ recvBufSize < ctx.recvLen + buf.length := by
    unfold recvBufSize
    unfold maxPacketSize at small
    unfold bglibMsgMaxPayload bglibMsgHeaderLen at waits
    omega
  have inside : ctx.recvLen + buf.length ≤ ctx.recvBuf.length := by omega
  rw [recvData]
  simp only [if_neg room]
  by_cases empty : buf.length < 1
  · rw [if_pos empty]
    refine ⟨fun impossible => (by cases impossible), fun after last ends => ?_⟩
    cases ends
    refine ⟨by rw [length_memcpy inside, size], ?_⟩
    dsimp only
    omega
  · rw [if_neg empty]
    refine ⟨fun impossible => ?_, fun after last ends => ?_⟩
    · cases loop : recvLoop calls (ctx.recvLen + buf.length)
          { recvLen := ctx.recvLen + buf.length
            recvBuf := memcpy ctx.recvBuf ctx.recvLen buf } daemon with
      | ok result =>
          rw [loop] at impossible
          cases impossible
      | error failure =>
          rw [loop] at impossible
          cases impossible
    · cases loop : recvLoop calls (ctx.recvLen + buf.length)
          { recvLen := ctx.recvLen + buf.length
            recvBuf := memcpy ctx.recvBuf ctx.recvLen buf } daemon with
      | ok result =>
          rw [loop] at ends
          cases ends
          have newSize : (memcpy ctx.recvBuf ctx.recvLen buf).length = recvBufSize := by
            rw [length_memcpy inside, size]
          have bound : ctx.recvLen + buf.length ≤ recvBufSize := Nat.le_of_not_lt room
          refine recvLoop_settled ?_ ?_ ?_ loop
          · exact newSize
          · exact bound
          · exact Nat.le_refl _
      | error failure =>
          rw [loop] at ends
          cases ends

theorem settled_start : BgapiContext.start.Settled :=
  ⟨List.length_replicate, by decide⟩

/-- Whatever bytes are read from the serial port, and in whatever pieces: the receiver never
leaves its buffer, and between two reads less than one packet waits in it.  The bytes need not be
packets at all. -/
theorem recvData_bounded {calls : BgapiCallbacks Failure Daemon} {chunks : List (List UInt8)}
    {daemon : Daemon} (small : ∀ chunk ∈ chunks, chunk.length ≤ maxPacketSize) :
    recvAll calls chunks .start daemon ≠ .error .overflow ∧
      ∀ after last, recvAll calls chunks .start daemon = .ok (after, last) → after.Settled := by
  suffices general : ∀ ctx : BgapiContext, ctx.Settled →
      recvAll calls chunks ctx daemon ≠ .error .overflow ∧
        ∀ after last, recvAll calls chunks ctx daemon = .ok (after, last) → after.Settled from
    general .start settled_start
  induction chunks generalizing daemon with
  | nil =>
      intro ctx settled
      refine ⟨fun impossible => (by cases impossible), fun after last ends => ?_⟩
      cases ends
      exact settled
  | cons chunk chunks hypothesis =>
      intro ctx settled
      obtain ⟨fits, ends⟩ := @recvData_settled _ _ calls ctx chunk daemon settled
        (small chunk List.mem_cons_self)
      rw [recvAll, List.foldlM_cons]
      dsimp only
      cases first : recvData calls ctx chunk daemon with
      | error failure =>
          rw [first] at fits
          rw [error_bind]
          exact ⟨fun same => fits (by cases same; rfl), fun _ _ impossible => by cases impossible⟩
      | ok state =>
          rw [ok_bind]
          exact hypothesis (fun other member => small other (List.mem_cons_of_mem _ member))
            state.1 (ends _ _ first)

/-- A receiver that keeps what it forwards. -/
def recordingCalls : BgapiCallbacks Unit (List (List UInt8 × Bool)) where
  decrypt packet kept := .ok (packet, kept)
  increaseSecurityRsp _ _ _ kept := .ok kept
  reset kept := .ok kept
  processPacket packet encrypted kept := .ok (kept ++ [(packet, encrypted)])

theorem recvData_bounded_sample :
    recvAll recordingCalls [[0x01, 0x20], [0x20, 0x00, 0x03]] .start [] ≠
    .error .overflow :=
  (recvData_bounded (by decide)).1

/-! ## What the callbacks keep -/

/-- Every callback keeps a property of the daemon. -/
structure BgapiCallbacks.Keeps (calls : BgapiCallbacks Failure Daemon) (holds : Daemon → Prop) :
    Prop where
  decrypt : ∀ packet before plain after, holds before →
    calls.decrypt packet before = .ok (plain, after) → holds after
  increaseSecurityRsp : ∀ publicKey toTarget toHost before after, holds before →
    calls.increaseSecurityRsp publicKey toTarget toHost before = .ok after → holds after
  reset : ∀ before after, holds before → calls.reset before = .ok after → holds after
  processPacket : ∀ packet encrypted before after, holds before →
    calls.processPacket packet encrypted before = .ok after → holds after

theorem handlePacket_keeps {calls : BgapiCallbacks Failure Daemon} {holds : Daemon → Prop}
    (keeps : calls.Keeps holds) {packet : List UInt8} {before after : Daemon}
    (held : holds before) (handles : handlePacket calls packet before = .ok after) :
    holds after := by
  unfold handlePacket at handles
  dsimp only at handles
  split at handles
  · obtain ⟨⟨plain, between⟩, decrypts, forwards⟩ := bind_ok.1 handles
    exact keeps.processPacket _ _ _ _ (keeps.decrypt _ _ _ _ held decrypts) forwards
  · split at handles
    · split at handles
      · obtain ⟨between, changes, forwards⟩ := bind_ok.1 handles
        exact keeps.processPacket _ _ _ _ (keeps.increaseSecurityRsp _ _ _ _ _ held changes)
          forwards
      · exact keeps.processPacket _ _ _ _ held handles
    · split at handles
      · obtain ⟨between, changes, forwards⟩ := bind_ok.1 handles
        exact keeps.processPacket _ _ _ _ (keeps.reset _ _ held changes) forwards
      · exact keeps.processPacket _ _ _ _ held handles

theorem recvLoop_keeps {calls : BgapiCallbacks Failure Daemon} {holds : Daemon → Prop}
    (keeps : calls.Keeps holds) {turns : Nat} {ctx last : BgapiContext} {before after : Daemon}
    (held : holds before) (loops : recvLoop calls turns ctx before = .ok (last, after)) :
    holds after := by
  induction turns generalizing ctx before with
  | zero =>
      cases loops
      exact held
  | succ turns hypothesis =>
      rw [recvLoop] at loops
      split at loops
      · cases loops
        exact held
      · dsimp only at loops
        split at loops
        · exact hypothesis held loops
        · split at loops
          · cases loops
            exact held
          · split at loops
            · cases loops
            · next handled => exact hypothesis (handlePacket_keeps keeps held handled) loops

/-- What every callback keeps, a read keeps. -/
theorem recvData_keeps {calls : BgapiCallbacks Failure Daemon} {holds : Daemon → Prop}
    (keeps : calls.Keeps holds) {ctx last : BgapiContext} {buf : List UInt8}
    {before after : Daemon} (held : holds before)
    (reads : recvData calls ctx buf before = .ok (last, after)) : holds after := by
  unfold recvData at reads
  generalize (if recvBufSize < ctx.recvLen + buf.length then
    ({ recvLen := (ctx.recvLen + 4294967296 - buf.length) % 4294967296
       recvBuf := memmove ctx.recvBuf 0 ctx.recvLen (recvBufSize - ctx.recvLen) } : BgapiContext)
    else ctx) = moved at reads
  dsimp only at reads
  split at reads
  · cases reads
  · split at reads
    · cases reads
      exact held
    · exact recvLoop_keeps keeps held (mapError_ok.1 reads)

/-!
## Streams of packets

The receiver finds the end of a packet by the length in its header, and looks at a header only
when a fifth byte is there.  A packet without a payload therefore waits for the packet behind
it; every other packet is handled as soon as its last byte was read.  A stream is cut at
arbitrary places, so the invariant of the reads is about the bytes that wait: they are
`PacketStart`, the part of the stream that no packet was taken from yet.
-/

/-- A packet as the receiver recognises it.  A packet may consist of its header alone; the
receiver then looks at it only when more bytes follow. -/
structure FramedPacket (packet : List UInt8) : Prop where
  device : packet.headD 0 &&& 0x20 ≠ 0
  fits : bglibMsgLen (headerOf (packet.take bglibMsgHeaderLen)) ≤ bglibMsgMaxPayload
  sized : packet.length =
    bglibMsgLen (headerOf (packet.take bglibMsgHeaderLen)) + bglibMsgHeaderLen

/-- Bytes that wait: too few to be looked at, or fewer than their header announces.  Whatever
arrives next completes them, and nothing of them is given out before. -/
def PacketStart (bytes : List UInt8) : Prop :=
  bytes.length ≤ bglibMsgHeaderLen ∨
    (bytes.headD 0 &&& 0x20 ≠ 0 ∧
      bglibMsgLen (headerOf (bytes.take bglibMsgHeaderLen)) ≤ bglibMsgMaxPayload ∧
      bytes.length < bglibMsgLen (headerOf (bytes.take bglibMsgHeaderLen)) + bglibMsgHeaderLen)

theorem headD_append {front back : List UInt8} (nonempty : 0 < front.length) :
    (front ++ back).headD 0 = front.headD 0 := by
  cases front with
  | nil => exact absurd nonempty (Nat.lt_irrefl _)
  | cons byte rest => rfl

theorem PacketStart.front {front back : List UInt8} (start : PacketStart (front ++ back)) :
    PacketStart front := by
  by_cases few : front.length ≤ bglibMsgHeaderLen
  · exact .inl few
  · have many := Nat.lt_of_not_le few
    rcases start with tooFew | ⟨device, fits, short⟩
    · rw [List.length_append] at tooFew
      omega
    · rw [headD_append (by omega)] at device
      rw [List.take_append_of_le_length (Nat.le_of_lt many)] at fits short
      rw [List.length_append] at short
      exact .inr ⟨device, fits, by omega⟩

theorem FramedPacket.start {front back : List UInt8} (framed : FramedPacket (front ++ back))
    (more : back ≠ []) : PacketStart front := by
  by_cases few : front.length ≤ bglibMsgHeaderLen
  · exact .inl few
  · have many := Nat.lt_of_not_le few
    have positive := List.length_pos_of_ne_nil more
    have device := framed.device
    have fits := framed.fits
    have sized := framed.sized
    rw [headD_append (by omega)] at device
    rw [List.take_append_of_le_length (Nat.le_of_lt many)] at fits sized
    rw [List.length_append] at sized
    exact .inr ⟨device, fits, by omega⟩

theorem FramedPacket.header_le {packet : List UInt8} (framed : FramedPacket packet) :
    bglibMsgHeaderLen ≤ packet.length := by
  rw [framed.sized]
  exact Nat.le_add_left _ _

/-- At each of the packets there are more bytes than a header, so that all of them are looked
at. -/
def Looked : List (List UInt8) → List UInt8 → Prop
  | [], _ => True
  | packet :: packets, rest =>
      bglibMsgHeaderLen < (packet ++ (packets.flatten ++ rest)).length ∧ Looked packets rest

/-- Only a last packet without a payload, with nothing behind it, is not looked at. -/
theorem looked {packets : List (List UInt8)} {rest : List UInt8}
    (framed : ∀ packet ∈ packets, FramedPacket packet)
    (last : rest = [] → ∀ packet ∈ packets.getLast?, bglibMsgHeaderLen < packet.length) :
    Looked packets rest := by
  induction packets with
  | nil => trivial
  | cons packet packets hypothesis =>
      have here := (framed packet List.mem_cons_self).header_le
      refine ⟨?_, hypothesis (fun other member => framed other (List.mem_cons_of_mem _ member))
        fun none_ other member => last none_ other ?_⟩
      · rw [List.length_append, List.length_append]
        cases packets with
        | nil =>
            by_cases none_ : rest = []
            · have long := last none_ packet (by simp)
              omega
            · have positive := List.length_pos_of_ne_nil none_
              omega
        | cons next packets =>
            have there := (framed next (by simp)).header_le
            have four : bglibMsgHeaderLen = 4 := rfl
            rw [List.flatten_cons, List.length_append]
            omega
      · cases packets with
        | nil => exact absurd member (by simp)
        | cons next packets =>
            rw [List.getLast?_cons_cons]
            exact member

theorem Looked.later {whole later : List (List UInt8)} {rest : List UInt8}
    (looked : Looked (whole ++ later) rest) : Looked later rest := by
  induction whole with
  | nil => exact looked
  | cons packet whole hypothesis => exact hypothesis looked.2

/-- No packet that is looked at leads the bytes that wait. -/
theorem PacketStart.no_packet {packet rest : List UInt8} (framed : FramedPacket packet)
    (looked : bglibMsgHeaderLen < (packet ++ rest).length) : ¬ PacketStart (packet ++ rest) := by
  have sized := framed.sized
  intro start
  rcases start with few | ⟨_, _, less⟩
  · exact absurd few (Nat.not_le_of_lt looked)
  · rw [List.take_append_of_le_length framed.header_le, ← sized, List.length_append] at less
    omega

/-- The front part of a stream of packets is some of the packets, and bytes that wait. -/
theorem stream_front {packets : List (List UInt8)} {front back tail : List UInt8}
    (framed : ∀ packet ∈ packets, FramedPacket packet) (start : PacketStart tail)
    (stream : front ++ back = packets.flatten ++ tail) :
    ∃ whole others rest, packets = whole ++ others ∧ front = whole.flatten ++ rest ∧
      rest ++ back = others.flatten ++ tail ∧ PacketStart rest ∧ Looked whole rest := by
  induction packets generalizing front with
  | nil =>
      refine ⟨[], [], front, rfl, rfl, stream, ?_, trivial⟩
      rw [List.flatten_nil, List.nil_append] at stream
      exact (stream ▸ start : PacketStart (front ++ back)).front
  | cons packet packets hypothesis =>
      have here := framed packet List.mem_cons_self
      by_cases few : front.length ≤ bglibMsgHeaderLen
      · exact ⟨[], packet :: packets, front, rfl, rfl, stream, .inl few, trivial⟩
      · have many := Nat.lt_of_not_le few
        rw [List.flatten_cons, List.append_assoc] at stream
        rcases List.append_eq_append_iff.mp stream with
          ⟨missing, packetIs, backIs⟩ | ⟨more, frontIs, restIs⟩
        · by_cases complete : missing = []
          · subst complete
            rw [List.append_nil] at packetIs
            obtain ⟨whole, others, rest, split, frontIs, onward, begins, seen⟩ := @hypothesis []
              (fun other member => framed other (List.mem_cons_of_mem _ member)) backIs
            refine ⟨packet :: whole, others, rest, by rw [split]; rfl, ?_, onward, begins, ?_, seen⟩
            · rw [List.flatten_cons, List.append_assoc, ← frontIs, List.append_nil, packetIs]
            · rw [← frontIs, List.append_nil, packetIs]
              exact many
          · refine ⟨[], packet :: packets, front, rfl, rfl, ?_, ?_, trivial⟩
            · rw [stream, List.flatten_cons, List.append_assoc]
            · exact FramedPacket.start (packetIs ▸ here) complete
        · obtain ⟨whole, others, rest, split, moreIs, onward, begins, seen⟩ := @hypothesis more
            (fun other member => framed other (List.mem_cons_of_mem _ member)) restIs.symm
          refine ⟨packet :: whole, others, rest, by rw [split]; rfl, ?_, onward, begins, ?_, seen⟩
          · rw [frontIs, moreIs, List.flatten_cons, List.append_assoc]
          · rw [← moreIs, ← frontIs]
            exact many

/-- The packets of a stream are handled one after the other. -/
def handlePackets (calls : BgapiCallbacks Failure Daemon) (packets : List (List UInt8))
    (daemon : Daemon) : Except Failure Daemon :=
  packets.foldlM (fun daemon packet => handlePacket calls packet daemon) daemon

theorem live_take {ctx : BgapiContext} {count : Nat} (inside : count ≤ ctx.recvLen) :
    ctx.recvBuf.take count = ctx.live.take count := by
  rw [BgapiContext.live, List.take_take, Nat.min_eq_left inside]

theorem live_headD {ctx : BgapiContext} (some_ : 0 < ctx.recvLen) :
    ctx.recvBuf.headD 0 = ctx.live.headD 0 := by
  unfold BgapiContext.live
  obtain ⟨count, same⟩ := Nat.exists_eq_succ_of_ne_zero (Nat.ne_of_gt some_)
  rw [same]
  cases ctx.recvBuf with
  | nil => rfl
  | cons byte rest => rfl

theorem length_live {ctx : BgapiContext} (inside : ctx.recvLen ≤ ctx.recvBuf.length) :
    ctx.live.length = ctx.recvLen := by
  rw [BgapiContext.live, List.length_take, Nat.min_eq_left inside]

/-- The loop handles the whole packets in the buffer, and leaves the bytes that wait. -/
theorem recvLoop_packets {calls : BgapiCallbacks Failure Daemon} {packets : List (List UInt8)}
    {rest : List UInt8} {turns : Nat} {ctx : BgapiContext}
    (framed : ∀ packet ∈ packets, FramedPacket packet) (start : PacketStart rest)
    (seen : Looked packets rest) (inside : ctx.recvLen ≤ ctx.recvBuf.length)
    (enough : ctx.recvLen ≤ turns)
    (live : ctx.live = packets.flatten ++ rest) :
    ∃ after : BgapiContext, after.live = rest ∧ after.recvLen = rest.length ∧
      after.recvBuf.length = ctx.recvBuf.length ∧ ∀ daemon, recvLoop calls turns ctx daemon =
        (handlePackets calls packets daemon).map fun last => (after, last) := by
  have length := length_live inside
  induction packets generalizing turns ctx with
  | nil =>
      rw [List.flatten_nil, List.nil_append] at live
      refine ⟨ctx, live, by rw [← live, length], rfl, fun daemon => ?_⟩
      cases turns with
      | zero => rfl
      | succ turns =>
          rw [recvLoop]
          by_cases few : ctx.recvLen ≤ bglibMsgHeaderLen
          · rw [if_pos few]
            rfl
          · have many := Nat.lt_of_not_le few
            rw [← live, PacketStart, length] at start
            rcases start with tooFew | ⟨device, fits, short⟩
            · exact absurd tooFew few
            · rw [← live_take (Nat.le_of_lt many)] at fits short
              rw [← live_headD (Nat.zero_lt_of_lt many)] at device
              dsimp only
              rw [if_neg few, if_neg (not_or.mpr ⟨device, Nat.not_lt.mpr fits⟩), if_pos short]
              rfl
  | cons packet packets hypothesis =>
      have least := (framed packet List.mem_cons_self).header_le
      have four : bglibMsgHeaderLen = 4 := rfl
      obtain ⟨device, fits, sized⟩ := framed packet List.mem_cons_self
      rw [List.flatten_cons, List.append_assoc] at live
      have total : ctx.recvLen = packet.length + (packets.flatten ++ rest).length := by
        rw [← length, live, List.length_append]
      have many : bglibMsgHeaderLen < ctx.recvLen := by
        rw [← length, live]
        exact seen.1
      have header : ctx.recvBuf.take bglibMsgHeaderLen = packet.take bglibMsgHeaderLen := by
        rw [live_take (Nat.le_of_lt many), live,
          List.take_append_of_le_length (by omega)]
      have head : ctx.recvBuf.headD 0 = packet.headD 0 := by
        rw [live_headD (by omega), live, headD_append (by omega)]
      have whole : ctx.recvBuf.take packet.length = packet := by
        rw [live_take (by omega), live, List.take_left]
      have moved : packet.length + (ctx.recvLen - packet.length) ≤ ctx.recvBuf.length := by omega
      obtain ⟨turns, rfl⟩ : ∃ fewer, turns = fewer + 1 :=
        Nat.exists_eq_succ_of_ne_zero (by omega)
      have onward : BgapiContext.live
          { recvLen := ctx.recvLen - packet.length
            recvBuf := memmove ctx.recvBuf 0 packet.length (ctx.recvLen - packet.length) } =
          packets.flatten ++ rest := by
        rw [BgapiContext.live, take_memmove moved, List.take_drop,
          Nat.add_sub_cancel' (by omega)]
        have same : ctx.recvBuf.take ctx.recvLen = ctx.live := rfl
        rw [same, live, List.drop_left]
      obtain ⟨after, left, few, size, loops⟩ := @hypothesis turns
        { recvLen := ctx.recvLen - packet.length
          recvBuf := memmove ctx.recvBuf 0 packet.length (ctx.recvLen - packet.length) }
        (fun other member => framed other (List.mem_cons_of_mem _ member)) seen.2
        (by dsimp only; rw [length_memmove moved]; omega) (by dsimp only; omega) onward
        (length_live (by dsimp only; rw [length_memmove moved]; omega))
      refine ⟨after, left, few, by rw [size, length_memmove moved], fun daemon => ?_⟩
      have long : ¬ ctx.recvLen < packet.length := by omega
      rw [recvLoop, if_neg (Nat.not_le_of_lt many)]
      dsimp only
      rw [header, head, if_neg (not_or.mpr ⟨device, Nat.not_lt.mpr fits⟩), ← sized, if_neg long,
        whole, handlePackets, List.foldlM_cons]
      cases handled : handlePacket calls packet daemon with
      | error failure => rfl
      | ok next =>
          rw [ok_bind]
          exact loops next

theorem PacketStart.short {bytes : List UInt8} (start : PacketStart bytes) :
    bytes.length < bglibMsgMaxPayload + bglibMsgHeaderLen := by
  rcases start with few | ⟨_, fits, less⟩
  · exact Nat.lt_of_le_of_lt few (by decide)
  · exact Nat.lt_of_lt_of_le less (Nat.add_le_add_right fits _)

/-- A read joins the bytes that wait, and then the loop runs. -/
theorem recvData_eq {calls : BgapiCallbacks Failure Daemon} {ctx : BgapiContext}
    {buf : List UInt8} (settled : ctx.Settled) (small : buf.length ≤ maxPacketSize) :
    ∃ joined : BgapiContext, joined.live = ctx.live ++ buf ∧
      joined.recvLen = ctx.recvLen + buf.length ∧ joined.recvBuf.length = recvBufSize ∧
      joined.recvLen ≤ recvBufSize ∧
      ∀ daemon : Daemon, recvData calls ctx buf daemon =
        if buf.length < 1 then .ok (joined, daemon)
        else (recvLoop calls joined.recvLen joined daemon).mapError .callback := by
  have waits := settled.waits
  have size := settled.size
  have room : ¬ recvBufSize < ctx.recvLen + buf.length := by
    unfold recvBufSize
    unfold maxPacketSize at small
    unfold bglibMsgMaxPayload bglibMsgHeaderLen at waits
    omega
  have inside : ctx.recvLen + buf.length ≤ ctx.recvBuf.length := by omega
  refine ⟨{ recvLen := ctx.recvLen + buf.length
            recvBuf := memcpy ctx.recvBuf ctx.recvLen buf }, take_memcpy inside, rfl,
    by rw [length_memcpy inside, size], Nat.le_of_not_lt room, fun daemon => ?_⟩
  rw [recvData]
  simp only [if_neg room]

/-- Reads go on from the bytes that wait in the buffer. -/
theorem recvAll_continues {calls : BgapiCallbacks Failure Daemon} {chunks : List (List UInt8)}
    {packets : List (List UInt8)} {rest : List UInt8}
    (small : ∀ chunk ∈ chunks, chunk.length ≤ maxPacketSize)
    (framed : ∀ packet ∈ packets, FramedPacket packet) (start : PacketStart rest)
    (seen : Looked packets rest) {ctx : BgapiContext} (settled : ctx.Settled)
    (begins : PacketStart ctx.live)
    (stream : ctx.live ++ chunks.flatten = packets.flatten ++ rest) :
    ∃ after : BgapiContext, after.live = rest ∧ ∀ daemon : Daemon,
      recvAll calls chunks ctx daemon =
        ((handlePackets calls packets daemon).map fun last => (after, last)).mapError
          .callback := by
  induction chunks generalizing packets ctx with
  | nil =>
      rw [List.flatten_nil, List.append_nil] at stream
      cases packets with
      | nil => exact ⟨ctx, stream, fun daemon => rfl⟩
      | cons packet packets =>
          rw [stream, List.flatten_cons, List.append_assoc] at begins
          exact absurd begins (PacketStart.no_packet (framed packet List.mem_cons_self) seen.1)
  | cons chunk chunks hypothesis =>
      rw [List.flatten_cons, ← List.append_assoc] at stream
      have others := fun other member => small other (List.mem_cons_of_mem _ member)
      obtain ⟨joined, live, length, size, inside, reads⟩ :=
        @recvData_eq _ Daemon calls ctx chunk settled (small chunk List.mem_cons_self)
      by_cases empty : chunk.length < 1
      · have nothing : chunk = [] := List.length_eq_zero_iff.mp (by omega)
        subst nothing
        rw [List.append_nil] at live stream
        have waits : joined.recvLen < bglibMsgMaxPayload + bglibMsgHeaderLen :=
          length ▸ settled.waits
        obtain ⟨last, restLive, reading⟩ := @hypothesis _ others framed seen joined ⟨size, waits⟩
          (live ▸ begins) (live ▸ stream)
        refine ⟨last, restLive, fun daemon => ?_⟩
        rw [recvAll, List.foldlM_cons, reads daemon, if_pos empty, ok_bind]
        exact reading daemon
      · obtain ⟨whole, later, left, rfl, frontIs, onward, starts, seenWhole⟩ :=
          stream_front framed start stream
        have framedWhole := fun other (member : other ∈ whole) =>
          framed other (List.mem_append_left _ member)
        have framedLater := fun other (member : other ∈ later) =>
          framed other (List.mem_append_right _ member)
        obtain ⟨after, leftLive, few, sizeAfter, loops⟩ := @recvLoop_packets _ _ calls whole left
          joined.recvLen joined framedWhole starts seenWhole (by omega) (Nat.le_refl _)
          (live.trans frontIs)
        have settledAfter : after.Settled := ⟨sizeAfter.trans size, few ▸ starts.short⟩
        obtain ⟨last, restLive, reading⟩ := @hypothesis _ others framedLater seen.later after
          settledAfter
          (leftLive ▸ starts) (leftLive ▸ onward)
        refine ⟨last, restLive, fun daemon => ?_⟩
        have split : handlePackets calls (whole ++ later) daemon =
            handlePackets calls whole daemon >>= handlePackets calls later :=
          List.foldlM_append
        rw [recvAll, List.foldlM_cons, reads daemon, if_neg empty, loops daemon, split]
        cases handlePackets calls whole daemon with
        | error failure => rfl
        | ok next =>
            rw [ok_bind]
            exact reading next

/-- However the bytes of a stream of packets are read from the serial port, each packet is
handled once and in its order, and what is behind them waits in the buffer; a last packet without
a payload waits as well. -/
theorem recvAll_packets {calls : BgapiCallbacks Failure Daemon} {chunks : List (List UInt8)}
    {packets : List (List UInt8)} {rest : List UInt8}
    (small : ∀ chunk ∈ chunks, chunk.length ≤ maxPacketSize)
    (framed : ∀ packet ∈ packets, FramedPacket packet) (start : PacketStart rest)
    (last : rest = [] → ∀ packet ∈ packets.getLast?, bglibMsgHeaderLen < packet.length)
    (stream : chunks.flatten = packets.flatten ++ rest) :
    ∃ after : BgapiContext, after.live = rest ∧ ∀ daemon : Daemon,
      recvAll calls chunks .start daemon =
        ((handlePackets calls packets daemon).map fun last => (after, last)).mapError
          .callback :=
  recvAll_continues small framed start (looked framed last) settled_start (.inl (Nat.zero_le _))
    stream

/-! ## What the receiver takes for a packet -/

theorem handlePacket_records (packet : List UInt8) (kept : List (List UInt8 × Bool)) :
    handlePacket recordingCalls packet kept =
      .ok (kept ++ [(packet, decide (headerOf (packet.take bglibMsgHeaderLen) &&& 0x40 ≠ 0))]) := by
  unfold handlePacket
  dsimp only [recordingCalls]
  by_cases encrypted : headerOf (packet.take bglibMsgHeaderLen) &&& 0x40 ≠ 0
  · rw [if_pos encrypted, ok_bind, decide_eq_true encrypted]
  · rw [if_neg encrypted, decide_eq_false encrypted]
    split
    · split
      · rfl
      · rfl
    · split
      · rfl
      · rfl

/-- The loop takes nothing for a packet but what its header announces. -/
theorem recvLoop_hands_packets {turns : Nat} {ctx : BgapiContext}
    {kept : List (List UInt8 × Bool)} (inside : ctx.recvLen ≤ ctx.recvBuf.length)
    (framed : ∀ entry ∈ kept, FramedPacket entry.1) :
    ∃ after handled, recvLoop recordingCalls turns ctx kept = .ok (after, handled) ∧
      ∀ entry ∈ handled, FramedPacket entry.1 := by
  induction turns generalizing ctx kept with
  | zero => exact ⟨ctx, kept, rfl, framed⟩
  | succ turns hypothesis =>
      have four : bglibMsgHeaderLen = 4 := rfl
      rw [recvLoop]
      by_cases few : ctx.recvLen ≤ bglibMsgHeaderLen
      · rw [if_pos few]
        exact ⟨ctx, kept, rfl, framed⟩
      · rw [if_neg few]
        dsimp only
        split
        · have moved : 1 + (ctx.recvLen - 1 - 1) ≤ ctx.recvBuf.length := by omega
          exact hypothesis (by dsimp only; rw [length_memmove moved]; omega) framed
        · next valid =>
            obtain ⟨device, fits⟩ := not_or.mp valid
            split
            · exact ⟨ctx, kept, rfl, framed⟩
            · next complete =>
                generalize size : bglibMsgLen (headerOf (ctx.recvBuf.take bglibMsgHeaderLen)) +
                  bglibMsgHeaderLen = packetLen at complete ⊢
                have header : (ctx.recvBuf.take packetLen).take bglibMsgHeaderLen =
                    ctx.recvBuf.take bglibMsgHeaderLen := by
                  rw [List.take_take, Nat.min_eq_left (by omega)]
                have head : (ctx.recvBuf.take packetLen).headD 0 = ctx.recvBuf.headD 0 := by
                  conv_rhs => rw [← List.take_append_drop packetLen ctx.recvBuf]
                  rw [headD_append]
                  rw [List.length_take]
                  omega
                have packet : FramedPacket (ctx.recvBuf.take packetLen) := by
                  refine ⟨head ▸ device, ?_, ?_⟩
                  · rw [header]
                    exact Nat.not_lt.mp fits
                  · rw [header, size, List.length_take]
                    omega
                have moved : packetLen + (ctx.recvLen - packetLen) ≤ ctx.recvBuf.length := by omega
                rw [handlePacket_records]
                refine hypothesis (by dsimp only; rw [length_memmove moved]; omega) ?_
                intro entry member
                rcases List.mem_append.mp member with old | new
                · exact framed entry old
                · rw [List.mem_singleton.mp new]
                  exact packet

/-- Whatever is read, the receiver hands on nothing but packets with a valid header, each as long
as its header announces. -/
theorem recvAll_hands_packets {chunks : List (List UInt8)} {ctx : BgapiContext}
    {kept : List (List UInt8 × Bool)} (settled : ctx.Settled)
    (small : ∀ chunk ∈ chunks, chunk.length ≤ maxPacketSize)
    (framed : ∀ entry ∈ kept, FramedPacket entry.1) :
    ∃ after handled, recvAll recordingCalls chunks ctx kept = .ok (after, handled) ∧
      ∀ entry ∈ handled, FramedPacket entry.1 := by
  induction chunks generalizing ctx kept with
  | nil => exact ⟨ctx, kept, rfl, framed⟩
  | cons chunk chunks hypothesis =>
      have others := fun other member => small other (List.mem_cons_of_mem _ member)
      have smallChunk := small chunk List.mem_cons_self
      obtain ⟨joined, _, _, size, inside, reads⟩ :=
        @recvData_eq _ (List (List UInt8 × Bool)) recordingCalls ctx chunk settled smallChunk
      obtain ⟨between, handled, received, framedToo⟩ : ∃ between handled,
          recvData recordingCalls ctx chunk kept = .ok (between, handled) ∧
            ∀ entry ∈ handled, FramedPacket entry.1 := by
        rw [reads kept]
        split
        · exact ⟨joined, kept, rfl, framed⟩
        · obtain ⟨between, handled, loops, framedToo⟩ :=
            @recvLoop_hands_packets joined.recvLen joined kept (size.symm ▸ inside) framed
          exact ⟨between, handled, by rw [loops]; rfl, framedToo⟩
      have settledToo := (recvData_settled settled smallChunk).2 _ _ received
      obtain ⟨after, final, later, framedAll⟩ := hypothesis settledToo others framedToo
      refine ⟨after, final, ?_, framedAll⟩
      rw [recvAll, List.foldlM_cons]
      dsimp only
      rw [received, ok_bind]
      exact later

def samplePacket : List UInt8 := [0x20, 0x02, 0x01, 0x00, 0xaa, 0xbb]

theorem samplePacket_framed : FramedPacket samplePacket :=
  ⟨by decide, by decide, by decide⟩

/-- A packet without a payload. -/
def sampleHeader : List UInt8 := [0xa0, 0x00, 0x05, 0x01]

/-- Three packets in pieces, two of them headers only: the last header waits. -/
theorem recvAll_packets_sample : ∃ after, BgapiContext.live after = sampleHeader ∧
    recvAll recordingCalls [[0x20, 0x02, 0x01], [0x00, 0xaa, 0xbb, 0xa0], [0x00, 0x05, 0x01],
        [0x20, 0x02, 0x01, 0x00, 0xaa], [], [0xbb, 0xa0, 0x00, 0x05, 0x01]] .start [] =
      .ok (after, [(samplePacket, false), (sampleHeader, false), (samplePacket, false)]) := by
  have framed : ∀ packet ∈ [samplePacket, sampleHeader, samplePacket], FramedPacket packet := by
    intro packet member
    fin_cases member
    · exact samplePacket_framed
    · exact ⟨by decide, by decide, by decide⟩
    · exact samplePacket_framed
  obtain ⟨after, waits, reads⟩ := @recvAll_packets _ _ recordingCalls
    [[0x20, 0x02, 0x01], [0x00, 0xaa, 0xbb, 0xa0], [0x00, 0x05, 0x01],
      [0x20, 0x02, 0x01, 0x00, 0xaa], [], [0xbb, 0xa0, 0x00, 0x05, 0x01]]
    [samplePacket, sampleHeader, samplePacket] sampleHeader (by decide) framed
    (.inl (by decide)) (fun none_ => absurd none_ (by decide)) rfl
  exact ⟨after, waits, (reads []).trans rfl⟩

/-!
## Bytes between packets

A byte that cannot start a packet is dropped by moving the bytes behind it one place to the
front.  The source shortens the length first and then moves one byte fewer than are left, so
that the last byte of the buffer is lost and the one before it stands there twice.
-/

end Nwmng
