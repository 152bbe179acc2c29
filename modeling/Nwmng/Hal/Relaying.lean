/-
Module: Nwmng.Hal.Relaying
Purpose: What becomes of the packets that a host sends on the encrypted socket: each of them is
written to the target once, in its order, encrypted under the key of the session and the next
counter.
Trusted boundary: none
Main exports:
  HostPacket.Encrypted, Logged, logged_daemonRun, session_counters
-/
import Mathlib
import Nwmng.Hal.DaemonRuns

namespace Nwmng

open Fallible

variable {Private Key : Type} {daemon : NcpDaemon Private Key}

/-!
## What is logged

`received` is written when `recv` returns, `hostPackets` when a packet was encrypted, and `sent`
when something is written to a descriptor: three places of the source, which nothing but its
control flow connects.  `Logged` says how they move together, from any state of the daemon to any
later one.
-/

/-- What was written for a packet is what `sl_security_encrypt_packet` makes of it under the key
and the counter that are recorded, which is nothing when OpenSSL refuses it. -/
def HostPacket.Encrypted (ccm : Ccm Key) (entry : HostPacket Key) : Prop :=
  ∃ channel : Channel Key, channel.ccmKey = entry.key ∧ channel.counterOut = entry.nonce ∧
    (encryptPacket ccm channel entry.packet).1 = entry.wire

/-- Between two states of the daemon, each packet that came from the encrypted socket was
encrypted, and what it was encrypted to was written to the serial port, in this order. -/
structure Logged (ccm : Ccm Key) (before after : NcpDaemon Private Key) : Prop where
  serial : after.serialHandle = before.serialHandle
  log : ∃ (news : List (HostPacket Key)) (sends : List (Int × List UInt8)),
    after.hostPackets = before.hostPackets ++ news ∧
    after.received = before.received ++ news.map (·.packet) ∧
    after.sent = before.sent ++ sends ∧
    (news.map fun new => (before.serialHandle, new.wire)).Sublist sends ∧
    ∀ new ∈ news, new.Encrypted ccm

/-- Nothing came from the encrypted socket; something may have been sent. -/
theorem Logged.quiet {ccm : Ccm Key} {before after : NcpDaemon Private Key}
    (serial : after.serialHandle = before.serialHandle)
    (packets : after.hostPackets = before.hostPackets) (received : after.received = before.received)
    (sends : before.sent <+: after.sent) : Logged ccm before after := by
  obtain ⟨sends, sent⟩ := sends
  refine ⟨serial, [], sends, ?_, ?_, sent.symm, List.nil_sublist _, ?_⟩
  · rw [packets, List.append_nil]
  · rw [received, List.map_nil, List.append_nil]
  · exact fun _ member => absurd member List.not_mem_nil

theorem Logged.rfl {ccm : Ccm Key} : Logged ccm daemon daemon :=
  .quiet (Eq.refl _) (Eq.refl _) (Eq.refl _) List.prefix_rfl

theorem Logged.trans {ccm : Ccm Key} {first second third : NcpDaemon Private Key}
    (one : Logged ccm first second) (two : Logged ccm second third) : Logged ccm first third := by
  obtain ⟨news, sends, packets, received, sent, written, encrypted⟩ := one.log
  obtain ⟨newsToo, sendsToo, packetsToo, receivedToo, sentToo, writtenToo, encryptedToo⟩ := two.log
  refine ⟨two.serial.trans one.serial, news ++ newsToo, sends ++ sendsToo, ?_, ?_, ?_, ?_, ?_⟩
  · rw [packetsToo, packets, List.append_assoc]
  · rw [receivedToo, received, List.map_append, List.append_assoc]
  · rw [sentToo, sent, List.append_assoc]
  · rw [List.map_append, ← one.serial]
    rw [← one.serial] at written
    exact written.append writtenToo
  · intro new member
    rcases List.mem_append.mp member with old | later
    · exact encrypted new old
    · exact encryptedToo new later

section Functions

variable {ccm : Ccm Key}

/-! ## The handshake and the socket table -/

theorem logged_send {fd : Int} {bytes : List UInt8} : Logged ccm daemon (daemon.send fd bytes) :=
  .quiet rfl rfl rfl (List.prefix_append _ _)

theorem logged_pollAdd {fd : Int} : Logged ccm daemon (daemon.pollAdd fd).2 := by
  unfold NcpDaemon.pollAdd
  split
  · exact .quiet rfl rfl rfl List.prefix_rfl
  · exact .quiet rfl rfl rfl List.prefix_rfl

theorem logged_slSecurityStart (kernel : Kernel Private Key) :
    Logged ccm daemon (slSecurityStart kernel daemon) := by
  unfold slSecurityStart
  split
  · dsimp only
    split
    · exact .quiet rfl rfl rfl List.prefix_rfl
    · split
      · exact .quiet rfl rfl rfl List.prefix_rfl
      · split
        · exact .quiet rfl rfl rfl List.prefix_rfl
        · exact .quiet rfl rfl rfl (List.prefix_append _ _)
  · exact .rfl

theorem logged_changeState (kernel : Kernel Private Key) (state : SecurityState) :
    Logged ccm daemon (changeState kernel state daemon) := by
  have changed : ∀ before : NcpDaemon Private Key,
      Logged ccm before (slSecurityStateChangeCb kernel state before) := by
    intro before
    unfold slSecurityStateChangeCb
    split
    · split
      · exact .rfl
      · exact logged_pollAdd
    · split
      · refine Logged.trans ?_ (logged_slSecurityStart kernel)
        split
        · exact .quiet rfl rfl rfl List.prefix_rfl
        · exact .rfl
      · exact .rfl
    · exact .rfl
  unfold changeState
  split
  · exact .rfl
  · refine Logged.trans ?_ (changed _)
    exact .quiet rfl rfl rfl List.prefix_rfl

theorem logged_increaseSecurityRsp (kernel : Kernel Private Key)
    {publicKey toTarget toHost : List UInt8} :
    Logged ccm daemon (slSecurityIncreaseSecurityRsp kernel publicKey toTarget toHost daemon) := by
  unfold slSecurityIncreaseSecurityRsp
  split
  · dsimp only
    split
    · refine Logged.trans ?_ (logged_changeState kernel _)
      exact .quiet rfl rfl rfl List.prefix_rfl
    · refine Logged.trans ?_ (logged_changeState kernel _)
      exact .quiet rfl rfl rfl List.prefix_rfl
  · exact .rfl

/-! ## What the target sends -/

theorem logged_processPacket {buf : List UInt8} {encrypted : Bool} :
    Logged ccm daemon (slBgapiProcessPacketCb buf encrypted daemon) := by
  have forwards : ∀ (socket : Int) (before : NcpDaemon Private Key),
      Logged ccm before (if 0 ≤ socket then before.send socket buf else before) := by
    intro socket before
    split
    · exact logged_send
    · exact .rfl
  unfold slBgapiProcessPacketCb
  split
  · exact forwards _ _
  · exact (forwards _ _).trans (forwards _ _)

theorem logged_serialEvent {kernel : Kernel Private Key} {after : NcpDaemon Private Key}
    (reads : serialEvent kernel ccm daemon = .ok after) : Logged ccm daemon after := by
  unfold serialEvent at reads
  split at reads
  · cases reads
  · obtain ⟨⟨context, between⟩, received, same⟩ := bind_ok.1 reads
    cases same
    have keeps : (daemonCalls kernel ccm).Keeps (Logged ccm daemon) := by
      refine ⟨?_, ?_, ?_, ?_⟩
      · intro packet before plain after logged decrypts
        obtain ⟨⟨text, channel⟩, _, same⟩ := bind_ok.1 decrypts
        cases same
        exact logged.trans (.quiet rfl rfl rfl List.prefix_rfl)
      · intro publicKey toTarget toHost before after logged changes
        cases changes
        exact logged.trans (logged_increaseSecurityRsp kernel)
      · intro before after logged changes
        cases changes
        exact logged.trans (logged_changeState kernel _)
      · intro packet encrypted before after logged forwards
        cases forwards
        exact logged.trans logged_processPacket
    have tick : Logged ccm daemon daemon.tick := .quiet rfl rfl rfl List.prefix_rfl
    exact (recvData_keeps keeps tick received).trans (.quiet rfl rfl rfl List.prefix_rfl)

/-!
## What hosts send

There is one place in the daemon where a packet of a host is received.  What follows it in the
same step is all that can become of the packet.
-/

theorem logged_acceptDomainSocket (kernel : Kernel Private Key) (oldsock : Int) :
    Logged ccm daemon (acceptDomainSocket kernel oldsock daemon).2 := by
  have closes : Logged ccm daemon
      (if 0 ≤ oldsock then (daemon.close oldsock).pollRemove oldsock else daemon) := by
    split
    · exact .quiet rfl rfl rfl List.prefix_rfl
    · exact .rfl
  unfold acceptDomainSocket
  generalize (if 0 ≤ oldsock then (daemon.close oldsock).pollRemove oldsock else daemon) = base
    at closes ⊢
  dsimp only
  split
  · exact closes.trans (.quiet rfl rfl rfl List.prefix_rfl)
  · exact closes.trans (.quiet rfl rfl rfl List.prefix_rfl)

/-- A socket is registered, or closed again when the table is full. -/
theorem logged_register {socket : Int} :
    Logged ccm daemon (match daemon.pollAdd socket with
      | (true, daemon) => daemon
      | (false, daemon) => daemon.close socket) := by
  have added := @logged_pollAdd _ _ daemon ccm socket
  generalize daemon.pollAdd socket = result at added ⊢
  obtain ⟨registered, after⟩ := result
  cases registered with
  | true => exact added
  | false => exact added.trans (.quiet rfl rfl rfl List.prefix_rfl)

theorem logged_encServerEvent (kernel : Kernel Private Key) :
    Logged ccm daemon (encServerEvent kernel daemon) := by
  have accepts := @logged_acceptDomainSocket _ _ daemon ccm kernel daemon.encSocket
  unfold encServerEvent
  generalize acceptDomainSocket kernel daemon.encSocket daemon = result at accepts ⊢
  obtain ⟨socket, accepted⟩ := result
  dsimp only at accepts ⊢
  refine Logged.trans ?_ (logged_slSecurityStart kernel)
  have connects : Logged ccm daemon { accepted with encSocket := socket } :=
    accepts.trans (.quiet rfl rfl rfl List.prefix_rfl)
  split
  · exact connects.trans logged_register
  · exact connects

theorem logged_unencServerEvent (kernel : Kernel Private Key) :
    Logged ccm daemon (unencServerEvent kernel daemon) := by
  have accepts := @logged_acceptDomainSocket _ _ daemon ccm kernel daemon.unencSocket
  unfold unencServerEvent
  generalize acceptDomainSocket kernel daemon.unencSocket daemon = result at accepts ⊢
  obtain ⟨socket, accepted⟩ := result
  dsimp only at accepts ⊢
  have connects : Logged ccm daemon { accepted with unencSocket := socket } :=
    accepts.trans (.quiet rfl rfl rfl List.prefix_rfl)
  exact connects.trans logged_register

/-- The one place where the log grows: a packet is received, encrypted and written. -/
theorem logged_encEvent {kernel : Kernel Private Key} {fd : Int} {ended : Bool}
    {after : NcpDaemon Private Key}
    (receives : encEvent kernel ccm fd daemon = .ok (ended, after)) :
    Logged ccm daemon after := by
  unfold encEvent at receives
  split at receives
  · cases receives
    exact .quiet rfl rfl rfl List.prefix_rfl
  · cases receives
    exact .quiet rfl rfl rfl List.prefix_rfl
  · next buf _ _ =>
      obtain ⟨⟨tbuf, between⟩, encrypts, same⟩ := bind_ok.1 receives
      cases same
      have entry : Logged ccm daemon (between.send between.serialHandle tbuf) := by
        have made : (daemon.entry buf tbuf).Encrypted ccm := by
          refine ⟨daemon.channel, rfl, rfl, ?_⟩
          rcases encrypt_cases encrypts with ⟨none_, _, refused⟩ | ⟨_, _, sealed⟩
          · exact refused.trans none_.symm
          · exact sealed
        rcases encrypt_cases encrypts with ⟨rfl, rfl, _⟩ | ⟨_, rfl, _⟩
        · exact ⟨rfl, [daemon.entry buf []], [(daemon.serialHandle, [])], rfl, rfl, rfl,
            List.Sublist.refl _, by simpa using made⟩
        · exact ⟨rfl, [daemon.entry buf tbuf], [(daemon.serialHandle, tbuf)], rfl, rfl, rfl,
            List.Sublist.refl _, by simpa using made⟩
      exact entry

theorem logged_unencHostEvent (kernel : Kernel Private Key) {fd : Int} :
    Logged ccm daemon (unencHostEvent kernel fd daemon) := by
  unfold unencHostEvent unencEvent
  split
  · split
    · exact .quiet rfl rfl rfl List.prefix_rfl
    · exact .quiet rfl rfl rfl List.prefix_rfl
    · exact .quiet rfl rfl rfl (List.prefix_append _ _)
  · exact .rfl

/-! ## Whole runs -/

theorem logged_slPollCb {kernel : Kernel Private Key} {fd : Int} {revents : UInt16}
    {after : NcpDaemon Private Key} (calls : slPollCb kernel ccm fd revents daemon = .ok after) :
    Logged ccm daemon after := by
  unfold slPollCb at calls
  split at calls
  · cases calls
    exact .rfl
  · obtain ⟨between, first, second⟩ := bind_ok.1 calls
    clear calls
    have listens : Logged ccm daemon between := by
      unfold listenerEvents at first
      dsimp only at first
      have enc : Logged ccm daemon
          (if fd = daemon.encServerSocket then encServerEvent kernel daemon else daemon) := by
        split
        · exact logged_encServerEvent kernel
        · exact .rfl
      generalize (if fd = daemon.encServerSocket then encServerEvent kernel daemon else daemon) =
        served at first enc
      have unenc : Logged ccm served
          (if fd = served.unencServerSocket then unencServerEvent kernel served else served) := by
        split
        · exact logged_unencServerEvent kernel
        · exact .rfl
      generalize (if fd = served.unencServerSocket then unencServerEvent kernel served
        else served) = servedToo at first unenc
      split at first
      · exact (enc.trans unenc).trans (logged_serialEvent first)
      · cases first
        exact enc.trans unenc
    refine listens.trans ?_
    unfold hostEvents at second
    split at second
    · obtain ⟨⟨ended, heard⟩, receives, rest⟩ := bind_ok.1 second
      cases rest
      split
      · exact logged_encEvent receives
      · exact (logged_encEvent receives).trans (logged_unencHostEvent kernel)
    · cases second
      exact logged_unencHostEvent kernel

theorem logged_slPollUpdate {kernel : Kernel Private Key} {places i : Nat}
    {after : NcpDaemon Private Key}
    (updates : slPollUpdate kernel ccm places i daemon = .ok after) : Logged ccm daemon after := by
  induction places generalizing i daemon with
  | zero =>
      cases updates
      exact .rfl
  | succ places hypothesis =>
      rw [slPollUpdate] at updates
      split at updates
      · cases updates
        exact .rfl
      · split at updates
        · exact hypothesis updates
        · obtain ⟨between, calls, rest⟩ := bind_ok.1 updates
          exact (logged_slPollCb calls).trans (hypothesis rest)

theorem logged_daemonRun {kernel : Kernel Private Key} {after : NcpDaemon Private Key}
    {turns : Nat} (runs : daemonRun kernel ccm daemon turns = .ok after) :
    Logged ccm daemon after := by
  induction turns generalizing after with
  | zero =>
      cases runs
      exact .rfl
  | succ turns hypothesis =>
      obtain ⟨between, earlier, turn⟩ := bind_ok.1 runs
      have waits : Logged ccm between
          { between.tick with
            table := slPollWait (kernel.poll between.calls) between.table } :=
        .quiet rfl rfl rfl List.prefix_rfl
      exact (hypothesis earlier).trans (waits.trans (logged_slPollUpdate turn))

end Functions

/-- In every run with room in the table, whatever is received on the encrypted socket is, packet by
packet and in this order, encrypted and written to the serial port, or refused by OpenSSL; and the
packets that are encrypted in one session have one key, and the n-th of them has the counter n. -/
theorem session_counters {kernel : Kernel Private Key} {ccm : Ccm Key} {listening : Listening}
    {zeroPrivate : Private} {zeroKey : Key} {turns : Nat}
    (runs : daemonRun kernel ccm (.start listening zeroPrivate zeroKey) turns = .ok daemon)
    (room : daemon.refused = false) :
    daemon.hostPackets.map (·.packet) = daemon.received ∧
      (daemon.hostPackets.map fun entry => (listening.serialHandle, entry.wire)).Sublist
        daemon.sent ∧
      (∀ entry ∈ daemon.hostPackets, entry.Encrypted ccm) ∧
      ∀ session, InOrder (daemon.packetsOf session) ∧
        ((daemon.packetsOf session).length ≤ counterSize →
          ((daemon.packetsOf session).map (·.nonce)).Nodup) := by
  obtain ⟨news, sends, packets, received, sent, written, encrypted⟩ := (logged_daemonRun runs).log
  have packetsAre : daemon.hostPackets = news := packets.trans (List.nil_append _)
  have receivedAre : daemon.received = news.map (·.packet) := received.trans (List.nil_append _)
  have sentAre : daemon.sent = sends := sent.trans (List.nil_append _)
  refine ⟨?_, ?_, ?_, fun session => ⟨?_, fun few => ?_⟩⟩
  · rw [packetsAre, receivedAre]
  · rw [packetsAre, sentAre]
    exact written
  · rw [packetsAre]
    exact encrypted
  · exact (sound_of_run runs room).sessions.ordered session
  · have ordered := (sound_of_run runs room).sessions.ordered session
    have values : (((daemon.packetsOf session).map (·.nonce)).map ConnNonce.value).Nodup := by
      rw [List.map_map]
      have counters : (daemon.packetsOf session).map (ConnNonce.value ∘ (·.nonce)) = _ :=
        ordered.counters
      rw [counters]
      refine List.Nodup.map_on ?_ List.nodup_range
      intro first one second two same
      rw [Nat.mod_eq_of_lt (lt_of_lt_of_le (List.mem_range.mp one) few),
        Nat.mod_eq_of_lt (lt_of_lt_of_le (List.mem_range.mp two) few)] at same
      exact same
    exact values.of_map _

/-- Two packets and a single byte in one session: the packets have the counters zero and one, and
nothing is written for the byte. -/
def sampleHostPackets : List (HostPacket Unit) :=
  [{ session := 1, state := .encrypted, key := ()
     nonce :=
      { counter := 0, counterHi := 0, hostIv := [0, 0, 0, 0], targetIv := [0, 0, 0, 0] }
     packet := [0x20, 0x00, 0x01, 0x02]
     wire := [0x60, 0x09, 0x01, 0x02, 0x6c, 0, 0, 0, 0, 0, 0, 0, 0] },
    { session := 1, state := .encrypted, key := ()
      nonce :=
        { counter := 1, counterHi := 0, hostIv := [0, 0, 0, 0], targetIv := [0, 0, 0, 0] }
      packet := [0x20]
      wire := [] },
    { session := 1, state := .encrypted, key := ()
      nonce :=
        { counter := 1, counterHi := 0, hostIv := [0, 0, 0, 0], targetIv := [0, 0, 0, 0] }
      packet := [0x20, 0x01, 0x02, 0x02, 0x05]
      wire := [0x60, 0x0a, 0x02, 0x02, 0x05, 0x74, 0, 0, 0, 1, 0, 0, 0, 0] }]

theorem session_counters_sample : ∃ daemon,
    daemonRun sampleKernel sumCcm (.start sampleListening () ()) 5 = .ok daemon ∧
      daemon.hostPackets = sampleHostPackets ∧
      daemon.received = [[0x20, 0x00, 0x01, 0x02], [0x20], [0x20, 0x01, 0x02, 0x02, 0x05]] ∧
      ([(3, [0x60, 0x09, 0x01, 0x02, 0x6c, 0, 0, 0, 0, 0, 0, 0, 0]), (3, []),
        (3, [0x60, 0x0a, 0x02, 0x02, 0x05, 0x74, 0, 0, 0, 1, 0, 0, 0, 0])]).Sublist daemon.sent ∧
      ((daemon.packetsOf 1).map (·.nonce)).Nodup := by
  have ends : (daemonRun sampleKernel sumCcm (.start sampleListening () ()) 5).toOption.map
      (fun daemon => (daemon.refused, daemon.hostPackets)) = some (false, sampleHostPackets) := by
    decide +kernel
  obtain ⟨daemon, ran, facts⟩ := Option.map_eq_some_iff.mp ends
  have runs := ok_of_toOption ran
  have packets : daemon.hostPackets = sampleHostPackets := congrArg Prod.snd facts
  obtain ⟨all, written, _, sessions⟩ := session_counters runs (congrArg Prod.fst facts)
  rw [packets] at all written
  have few : (daemon.packetsOf 1).length ≤ counterSize := by
    rw [NcpDaemon.packetsOf, packets]
    decide
  exact ⟨daemon, runs, packets, all.symm, written, (sessions 1).2 few⟩

end Nwmng
