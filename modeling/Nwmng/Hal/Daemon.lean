/-
Module: Nwmng.Hal.Daemon
Purpose: The daemon between the NCP target and its hosts: the table of polled descriptors, the
security state machine, and what is done for each descriptor that is ready.
Trusted boundary: the answers of the kernel and of OpenSSL are parameters; a descriptor that
`accept` returns was not open; what is written to the serial port is written whole
Main exports:
  PollTable, Kernel, NcpDaemon, slSecurityStart, changeState, slPollCb, daemonRound, daemonRun
-/
import Mathlib
import Nwmng.Hal.Security
import Nwmng.Hal.Reframe

namespace Nwmng

open Fallible

/-!
## The table of polled descriptors

The daemon waits in `poll` for the descriptors of a table of ten places.  An entry that is
removed stays in the table as −1 until the next call of `sl_poll_wait`, because entries are
removed while `sl_poll_update` walks through the table.
-/

/-- `struct pollfd`; every entry asks for `POLLIN`. -/
structure PollFd where
  fd : Int
  revents : UInt16
deriving Repr, DecidableEq

def pollIn : UInt16 := 0x001

/-- `SL_POLL_MAX` -/
def slPollMax : Nat := 10

/-- The first `max_polled` entries of `polled`. -/
structure PollTable where
  polled : List PollFd
  updatePolled : Bool
deriving Repr, DecidableEq

def PollTable.fds (table : PollTable) : List Int := table.polled.map PollFd.fd

/-- `sl_poll_add`; no table is the result −1. -/
def slPollAdd (fd : Int) (table : PollTable) : Option PollTable :=
  if slPollMax ≤ table.polled.length then none
  else some { table with polled := table.polled ++ [{ fd := fd, revents := 0 }] }

/-- The loop of `sl_poll_remove`: the first entry of the descriptor becomes −1. -/
def removeFirst (fd : Int) : List PollFd → Option (List PollFd)
  | [] => none
  | entry :: polled =>
      if entry.fd = fd then some ({ entry with fd := -1 } :: polled)
      else (removeFirst fd polled).map (entry :: ·)

/-- `sl_poll_remove` -/
def slPollRemove (fd : Int) (table : PollTable) : PollTable :=
  match removeFirst fd table.polled with
  | none => table
  | some polled => { polled := polled, updatePolled := true }

/-- `sl_poll_is_polled` -/
def slPollIsPolled (fd : Int) (table : PollTable) : Bool := fd ∈ table.fds

/-- `sl_poll_wait`: removed descriptors leave the table, and `poll` says what is ready; a call
that fails says nothing. -/
def slPollWait (ready : Option (Int → UInt16)) (table : PollTable) : PollTable :=
  let polled :=
    if table.updatePolled then table.polled.filter (·.fd ≠ -1) else table.polled
  match ready with
  | none => { table with polled := polled }
  | some ready =>
      { table with
        polled := polled.map fun entry =>
          { entry with revents := if entry.fd < 0 then 0 else ready entry.fd } }

/-! ## The daemon -/

/-- `t_sl_security_state` -/
inductive SecurityState where
  | unencrypted
  | increaseSecurity
  | encrypted
deriving Repr, DecidableEq

/-- The answers of the kernel and of OpenSSL, by the number of the calls before them.  The kernel
is an arbitrary sequence of answers; the few laws say what every kernel guarantees about
descriptors and about the lengths of what is read. -/
structure Kernel (Private Key : Type) where
  ephemeralKey : Nat → Option (List UInt8 × Private)
  randBytes : Nat → Option (List UInt8)
  ecdhSecret : Private → List UInt8 → Option Key
  poll : Nat → Option (Int → UInt16)
  accept : Nat → List Int → Int
  read : Nat → Option (List UInt8)
  recv : Nat → Int → Option (List UInt8)
  fresh : ∀ calls opened, 0 ≤ accept calls opened → accept calls opened ∉ opened
  readFits : ∀ calls bytes, read calls = some bytes → bytes.length ≤ maxPacketSize
  recvFits : ∀ calls fd bytes, recv calls fd = some bytes → bytes.length ≤ maxPacketSize
  noSocket : ∀ calls fd, fd < 0 → recv calls fd = none

/-- One packet that a host sent on the encrypted socket, and what was written for it: in which
session and state, under which key and nonce. -/
structure HostPacket (Key : Type) where
  session : Nat
  state : SecurityState
  key : Key
  nonce : ConnNonce
  packet : List UInt8
  wire : List UInt8
deriving Repr, DecidableEq

/-- The variables of `main.c` and `sl_security.c`, the open descriptors of the process, and a
record of what was done: what was sent on which descriptor, how often the counters were set to
zero, what came from the encrypted socket and what was made of it, and whether the table was full
once. -/
structure NcpDaemon (Private Key : Type) where
  table : PollTable
  encSocket : Int
  encServerSocket : Int
  unencSocket : Int
  unencServerSocket : Int
  serialHandle : Int
  uartBgapi : BgapiContext
  securityState : SecurityState
  localEcKey : Private
  channel : Channel Key
  opened : List Int
  calls : Nat
  sent : List (Int × List UInt8)
  sessions : Nat
  received : List (List UInt8)
  hostPackets : List (HostPacket Key)
  refused : Bool

variable {Private Key : Type}

/-- An answer was used. -/
def NcpDaemon.tick (daemon : NcpDaemon Private Key) : NcpDaemon Private Key :=
  { daemon with calls := daemon.calls + 1 }

/-- `send` and `write` -/
def NcpDaemon.send (fd : Int) (bytes : List UInt8) (daemon : NcpDaemon Private Key) :
    NcpDaemon Private Key :=
  { daemon with sent := daemon.sent ++ [(fd, bytes)] }

/-- A `recv` on the encrypted socket brought a packet. -/
def NcpDaemon.hear (packet : List UInt8) (daemon : NcpDaemon Private Key) :
    NcpDaemon Private Key :=
  { daemon with received := daemon.received ++ [packet] }

/-- `close` -/
def NcpDaemon.close (fd : Int) (daemon : NcpDaemon Private Key) : NcpDaemon Private Key :=
  { daemon with opened := daemon.opened.filter (· ≠ fd) }

/-- `sl_poll_add`, with its result. -/
def NcpDaemon.pollAdd (fd : Int) (daemon : NcpDaemon Private Key) :
    Bool × NcpDaemon Private Key :=
  match slPollAdd fd daemon.table with
  | none => (false, { daemon with refused := true })
  | some table => (true, { daemon with table := table })

/-- `sl_poll_remove` -/
def NcpDaemon.pollRemove (fd : Int) (daemon : NcpDaemon Private Key) : NcpDaemon Private Key :=
  { daemon with table := slPollRemove fd daemon.table }

/-!
## The security state machine

A handshake begins when a host connects to the encrypted socket, or when the target was reset
while one is connected.  The link is encrypted once the target has answered; from then on the
encrypted socket is polled, and what the host sends is encrypted.
-/

/-- The packet of `sl_bgapi_user_cmd_increase_security`. -/
def increaseSecurityCommand (publicKey hostIvToTarget hostIvToHost : List UInt8) : List UInt8 :=
  [0x20, 0x4a, 0xff, 0x00, 0x49, 0x00] ++ publicKey ++ hostIvToTarget ++ hostIvToHost

/-- The counter is set to zero. -/
def ConnNonce.reset (nonce : ConnNonce) : ConnNonce := { nonce with counter := 0, counterHi := 0 }

/-- `sl_security_start`: the counters start from zero, and a key pair and two vectors are drawn.
Any of the calls may fail, and then leaves what was done before it. -/
def slSecurityStart (kernel : Kernel Private Key) (daemon : NcpDaemon Private Key) :
    NcpDaemon Private Key :=
  match daemon.securityState with
  | .unencrypted =>
      let daemon : NcpDaemon Private Key :=
        { daemon with
          channel := { daemon.channel with
            counterIn := daemon.channel.counterIn.reset
            counterOut := daemon.channel.counterOut.reset }
          sessions := daemon.sessions + 1 }
      match kernel.ephemeralKey daemon.calls with
      | none => daemon.tick
      | some (publicKey, privateKey) =>
          let daemon := { daemon.tick with localEcKey := privateKey }
          match kernel.randBytes daemon.calls with
          | none => daemon.tick
          | some hostIvToTarget =>
              let daemon : NcpDaemon Private Key :=
                { daemon.tick with
                  channel := { daemon.channel with
                    counterOut := { daemon.channel.counterOut with hostIv := hostIvToTarget } } }
              match kernel.randBytes daemon.calls with
              | none => daemon.tick
              | some hostIvToHost =>
                  let daemon : NcpDaemon Private Key :=
                    { daemon.tick with
                      channel := { daemon.channel with
                        counterIn := { daemon.channel.counterIn with hostIv := hostIvToHost } }
                      securityState := .increaseSecurity }
                  daemon.send daemon.serialHandle
                    (increaseSecurityCommand publicKey hostIvToTarget hostIvToHost)
  | _ => daemon

/-- `sl_security_state_change_cb`: the hosts on the encrypted socket are read only while the link
is encrypted.  A link that falls back starts another handshake at once. -/
def slSecurityStateChangeCb (kernel : Kernel Private Key) (state : SecurityState)
    (daemon : NcpDaemon Private Key) : NcpDaemon Private Key :=
  match state with
  | .encrypted =>
      -- move encrypted socket to be polled if not already
      if slPollIsPolled daemon.encSocket daemon.table then daemon
      else (daemon.pollAdd daemon.encSocket).2
  | .unencrypted =>
      if 0 ≤ daemon.encSocket then
        -- move encrypted socket to unpolled state
        slSecurityStart kernel
          (if slPollIsPolled daemon.encSocket daemon.table then
            daemon.pollRemove daemon.encSocket
          else daemon)
      else daemon
  | .increaseSecurity => daemon

/-- `change_state` -/
def changeState (kernel : Kernel Private Key) (ns : SecurityState)
    (daemon : NcpDaemon Private Key) : NcpDaemon Private Key :=
  if daemon.securityState = ns then daemon
  else slSecurityStateChangeCb kernel ns { daemon with securityState := ns }

/-- `sl_security_reset` -/
def slSecurityReset (kernel : Kernel Private Key) (daemon : NcpDaemon Private Key) :
    NcpDaemon Private Key :=
  changeState kernel .unencrypted daemon

/-- `sl_security_increase_security_rsp`: the answer of the target completes the vectors and gives
the key; in any other state it is ignored. -/
def slSecurityIncreaseSecurityRsp (kernel : Kernel Private Key)
    (publicKey targetIvToTarget targetIvToHost : List UInt8) (daemon : NcpDaemon Private Key) :
    NcpDaemon Private Key :=
  match daemon.securityState with
  | .increaseSecurity =>
      let channel : Channel Key :=
        { daemon.channel with
          counterOut := { daemon.channel.counterOut with targetIv := targetIvToTarget }
          counterIn := { daemon.channel.counterIn with targetIv := targetIvToHost } }
      match kernel.ecdhSecret daemon.localEcKey publicKey with
      | none => changeState kernel .unencrypted { daemon with channel := channel }
      | some key =>
          changeState kernel .encrypted { daemon with channel := { channel with ccmKey := key } }
  | _ => daemon

/-!
## Packets

The receiver calls back for each packet it has found.  What the callbacks do depends on the state
of the handshake, and all of them may change it.
-/

/-- `sl_bgapi_process_packet_cb` -/
def slBgapiProcessPacketCb (buf : List UInt8) (encrypted : Bool)
    (daemon : NcpDaemon Private Key) : NcpDaemon Private Key :=
  if encrypted then
    if 0 ≤ daemon.encSocket then daemon.send daemon.encSocket buf else daemon
  else
    -- unencrypted data, send to both sockets
    let daemon := if 0 ≤ daemon.unencSocket then daemon.send daemon.unencSocket buf else daemon
    if 0 ≤ daemon.encSocket then daemon.send daemon.encSocket buf else daemon

/-- `sl_security_decrypt_packet`, on the daemon's channel. -/
def NcpDaemon.decrypt (ccm : Ccm Key) (packet : List UInt8) (daemon : NcpDaemon Private Key) :
    Except SecurityFault (List UInt8 × NcpDaemon Private Key) := do
  let (plain, channel) ← decryptPacket ccm daemon.channel packet
  .ok (plain, { daemon with channel := channel })

/-- The functions the receiver calls. -/
def daemonCalls (kernel : Kernel Private Key) (ccm : Ccm Key) :
    BgapiCallbacks SecurityFault (NcpDaemon Private Key) where
  decrypt := NcpDaemon.decrypt ccm
  increaseSecurityRsp publicKey toTarget toHost daemon :=
    .ok (slSecurityIncreaseSecurityRsp kernel publicKey toTarget toHost daemon)
  reset daemon := .ok (slSecurityReset kernel daemon)
  processPacket buf encrypted daemon := .ok (slBgapiProcessPacketCb buf encrypted daemon)

/-- The record of a packet that came from the host now. -/
def NcpDaemon.entry (daemon : NcpDaemon Private Key) (packet wire : List UInt8) :
    HostPacket Key :=
  { session := daemon.sessions, state := daemon.securityState, key := daemon.channel.ccmKey
    nonce := daemon.channel.counterOut, packet := packet, wire := wire }

/-- `sl_security_encrypt_packet`, on the daemon's channel; the packet has to fit into `tbuf`. -/
def NcpDaemon.encrypt (ccm : Ccm Key) (packet : List UInt8) (daemon : NcpDaemon Private Key) :
    Except (BgapiFault SecurityFault) (List UInt8 × NcpDaemon Private Key) :=
  let (wire, channel) := encryptPacket ccm daemon.channel packet
  if maxPacketSize < wire.length then .error .overflow
  else .ok (wire, { daemon with
    channel := channel
    hostPackets := daemon.hostPackets ++ [daemon.entry packet wire] })

/-!
## Ready descriptors

`sl_poll_cb` compares the descriptor with each of the five that the daemon knows, one after the
other and not exclusively: a descriptor that one part of it has just closed or opened is
compared again further down.
-/

/-- `accept_domain_socket`: the new socket, or −1. -/
def acceptDomainSocket (kernel : Kernel Private Key) (oldsock : Int)
    (daemon : NcpDaemon Private Key) : Int × NcpDaemon Private Key :=
  let daemon := if 0 ≤ oldsock then (daemon.close oldsock).pollRemove oldsock else daemon
  let n := kernel.accept daemon.calls daemon.opened
  if n < 0 then (-1, daemon.tick)
  else (n, { daemon.tick with opened := n :: daemon.opened })

/-- A host connects to the encrypted socket. -/
def encServerEvent (kernel : Kernel Private Key) (daemon : NcpDaemon Private Key) :
    NcpDaemon Private Key :=
  let (socket, daemon) := acceptDomainSocket kernel daemon.encSocket daemon
  let daemon := { daemon with encSocket := socket }
  let daemon :=
    if daemon.securityState = .encrypted then
      match daemon.pollAdd socket with
      | (true, daemon) => daemon
      | (false, daemon) => daemon.close socket
    else daemon
  slSecurityStart kernel daemon

/-- A host connects to the unencrypted socket. -/
def unencServerEvent (kernel : Kernel Private Key) (daemon : NcpDaemon Private Key) :
    NcpDaemon Private Key :=
  let (socket, daemon) := acceptDomainSocket kernel daemon.unencSocket daemon
  let daemon := { daemon with unencSocket := socket }
  match daemon.pollAdd socket with
  | (true, daemon) => daemon
  | (false, daemon) => daemon.close socket

/-- Bytes arrived on the serial port; a read that fails has the length −1. -/
def serialEvent (kernel : Kernel Private Key) (ccm : Ccm Key) (daemon : NcpDaemon Private Key) :
    Except (BgapiFault SecurityFault) (NcpDaemon Private Key) :=
  match kernel.read daemon.calls with
  | none => .error .overflow
  | some buf => do
      let (context, daemon) ← recvData (daemonCalls kernel ccm) daemon.uartBgapi buf daemon.tick
      .ok { daemon with uartBgapi := context }

/-- Bytes arrived on the encrypted socket; the flag says that the callback ends here. -/
def encEvent (kernel : Kernel Private Key) (ccm : Ccm Key) (fd : Int)
    (daemon : NcpDaemon Private Key) :
    Except (BgapiFault SecurityFault) (Bool × NcpDaemon Private Key) :=
  match kernel.recv daemon.calls fd with
  | none => .ok (true, daemon.tick)
  | some [] =>
      -- socket closed
      .ok (true, { (daemon.tick.close fd).pollRemove fd with encSocket := -1 })
  | some buf => do
      let (tbuf, daemon) ← (daemon.tick.hear buf).encrypt ccm buf
      .ok (false, daemon.send daemon.serialHandle tbuf)

/-- Bytes arrived on the unencrypted socket. -/
def unencEvent (kernel : Kernel Private Key) (fd : Int) (daemon : NcpDaemon Private Key) :
    NcpDaemon Private Key :=
  match kernel.recv daemon.calls fd with
  | none => daemon.tick
  | some [] => { (daemon.tick.close fd).pollRemove fd with unencSocket := -1 }
  | some buf => daemon.tick.send daemon.serialHandle buf

/-- The first part of `sl_poll_cb`: a host connects, or the target sends. -/
def listenerEvents (kernel : Kernel Private Key) (ccm : Ccm Key) (fd : Int)
    (daemon : NcpDaemon Private Key) :
    Except (BgapiFault SecurityFault) (NcpDaemon Private Key) :=
  let daemon := if fd = daemon.encServerSocket then encServerEvent kernel daemon else daemon
  let daemon := if fd = daemon.unencServerSocket then unencServerEvent kernel daemon else daemon
  if fd = daemon.serialHandle then serialEvent kernel ccm daemon else .ok daemon

/-- The end of `sl_poll_cb`: a host sends on the unencrypted socket. -/
def unencHostEvent (kernel : Kernel Private Key) (fd : Int) (daemon : NcpDaemon Private Key) :
    NcpDaemon Private Key :=
  if fd = daemon.unencSocket then unencEvent kernel fd daemon else daemon

/-- The second part of `sl_poll_cb`: a host sends. -/
def hostEvents (kernel : Kernel Private Key) (ccm : Ccm Key) (fd : Int)
    (daemon : NcpDaemon Private Key) :
    Except (BgapiFault SecurityFault) (NcpDaemon Private Key) :=
  if fd = daemon.encSocket then do
    let (ended, daemon) ← encEvent kernel ccm fd daemon
    .ok (if ended then daemon else unencHostEvent kernel fd daemon)
  else .ok (unencHostEvent kernel fd daemon)

/-- `sl_poll_cb`: the listeners are looked at first, which may open a descriptor that the second
half then finds. -/
def slPollCb (kernel : Kernel Private Key) (ccm : Ccm Key) (fd : Int) (revents : UInt16)
    (daemon : NcpDaemon Private Key) :
    Except (BgapiFault SecurityFault) (NcpDaemon Private Key) :=
  if revents &&& pollIn = 0 then .ok daemon
  else do
    let daemon ← listenerEvents kernel ccm fd daemon
    hostEvents kernel ccm fd daemon

/-!
## The loop of the daemon

An entry of the table is looked at when `poll` reported it.  The callbacks change the table
meanwhile, so the loop goes by places and not by descriptors.
-/

/-- `sl_poll_update`, from one place of the table on; entries that are added meanwhile are
reached as well. -/
def slPollUpdate (kernel : Kernel Private Key) (ccm : Ccm Key) :
    Nat → Nat → NcpDaemon Private Key →
      Except (BgapiFault SecurityFault) (NcpDaemon Private Key)
  | 0, _, daemon => .ok daemon
  | places + 1, i, daemon =>
      match daemon.table.polled[i]? with
      | none => .ok daemon
      | some entry =>
          if entry.revents = 0 then slPollUpdate kernel ccm places (i + 1) daemon
          else do
            let daemon ← slPollCb kernel ccm entry.fd entry.revents daemon
            slPollUpdate kernel ccm places (i + 1) daemon

/-- One turn of the loop of `main`. -/
def daemonRound (kernel : Kernel Private Key) (ccm : Ccm Key) (daemon : NcpDaemon Private Key) :
    Except (BgapiFault SecurityFault) (NcpDaemon Private Key) :=
  slPollUpdate kernel ccm slPollMax 0
    { daemon.tick with table := slPollWait (kernel.poll daemon.calls) daemon.table }

/-- The turns of the loop, one after the other.  An error is an access outside the memory of a
variable: a read of the serial port that fails, since −1 is used as a length; a packet of a host
that does not fit into `tbuf` once it is encrypted; an encrypted packet of fewer than nine bytes. -/
def daemonRun (kernel : Kernel Private Key) (ccm : Ccm Key) (daemon : NcpDaemon Private Key) :
    Nat → Except (BgapiFault SecurityFault) (NcpDaemon Private Key)
  | 0 => .ok daemon
  | turns + 1 => do
      let daemon ← daemonRun kernel ccm daemon turns
      daemonRound kernel ccm daemon

/-- The descriptors `main` opens; a server socket that cannot be bound is −1. -/
structure Listening where
  serialHandle : Int
  encServerSocket : Int
  unencServerSocket : Int
  serialOpen : 0 ≤ serialHandle
  distinct : (([serialHandle, encServerSocket, unencServerSocket]).filter (0 ≤ ·)).Nodup

/-- The daemon when its loop begins, with the key and the pair of keys of zeros. -/
def NcpDaemon.start (listening : Listening) (zeroPrivate : Private) (zeroKey : Key) :
    NcpDaemon Private Key :=
  let opened := ([listening.serialHandle, listening.encServerSocket,
    listening.unencServerSocket]).filter (0 ≤ ·)
  { table := { polled := opened.map fun fd => { fd := fd, revents := 0 }, updatePolled := false }
    encSocket := -1
    encServerSocket := listening.encServerSocket
    unencSocket := -1
    unencServerSocket := listening.unencServerSocket
    serialHandle := listening.serialHandle
    uartBgapi := .start
    securityState := .unencrypted
    localEcKey := zeroPrivate
    channel := { ccmKey := zeroKey, counterIn := default, counterOut := default }
    opened := opened
    calls := 0
    sent := []
    sessions := 0
    received := []
    hostPackets := []
    refused := false }

end Nwmng
