/-
Module: Nwmng.Hal.DaemonRuns
Purpose: What holds in every run of the daemon's loop, whatever the hosts, the target, the kernel
and OpenSSL answer: which descriptors are polled, and with which counters packets are encrypted.
Trusted boundary: none
Main exports:
  InOrder, Sessions, Kept, recvData_keeps, daemon_polls, session_counters
-/
import Mathlib
import Nwmng.Hal.Polling

namespace Nwmng

open Fallible

variable {Private Key : Type}

/-!
## Sessions

A session begins when `sl_security_start` sets the counters to zero, and lasts until it does so
again.  Within it the key changes once at most, when the target answers, and nothing is encrypted
before; so the counters of a session count the packets that were encrypted in it.
-/

/-- The packets that were encrypted in one session, oldest first. -/
def NcpDaemon.packetsOf (daemon : NcpDaemon Private Key) (session : Nat) :
    List (HostPacket Key) :=
  daemon.hostPackets.filter fun packet => packet.session = session ∧ packet.wire ≠ []

/-- Packets of one session: the counters count from zero, and one key encrypts them all.
Together with the vectors of the handshake, this is what makes the nonces of a session differ. -/
structure InOrder (packets : List (HostPacket Key)) : Prop where
  counters : packets.map (·.nonce.value) = (List.range packets.length).map (· % counterSize)
  encrypted : ∀ packet ∈ packets, packet.state = .encrypted
  oneKey : ∀ first ∈ packets, ∀ second ∈ packets, first.key = second.key

theorem InOrder.nil : InOrder ([] : List (HostPacket Key)) :=
  ⟨rfl, fun _ member => absurd member List.not_mem_nil,
    fun _ member => absurd member List.not_mem_nil⟩

theorem InOrder.snoc {packets : List (HostPacket Key)} (ordered : InOrder packets)
    {packet : HostPacket Key} (next : packet.nonce.value = packets.length % counterSize)
    (encrypted : packet.state = .encrypted) (key : ∀ other ∈ packets, other.key = packet.key) :
    InOrder (packets ++ [packet]) := by
  refine ⟨?_, ?_, ?_⟩
  · rw [List.map_append, ordered.counters, List.length_append, List.length_singleton,
      List.range_succ, List.map_append, List.map_singleton, List.map_singleton, next]
  · intro other member
    rcases List.mem_append.mp member with old | new
    · exact ordered.encrypted other old
    · rw [List.mem_singleton.mp new]
      exact encrypted
  · have same : ∀ other ∈ packets ++ [packet], other.key = packet.key := by
      intro other member
      rcases List.mem_append.mp member with old | new
      · exact key other old
      · rw [List.mem_singleton.mp new]
    exact fun first one second two => (same first one).trans (same second two).symm

/-- The sessions so far, and where the current one stands.  The counter of the channel is the
number of packets of the current session, which connects the program's state with the record of
what it wrote. -/
structure Sessions (daemon : NcpDaemon Private Key) : Prop where
  past : ∀ packet ∈ daemon.hostPackets, packet.session ≤ daemon.sessions
  ordered : ∀ session, InOrder (daemon.packetsOf session)
  current : daemon.securityState = .encrypted →
    daemon.channel.counterOut.value = (daemon.packetsOf daemon.sessions).length % counterSize ∧
      ∀ packet ∈ daemon.packetsOf daemon.sessions, packet.key = daemon.channel.ccmKey
  waiting : daemon.securityState = .increaseSecurity →
    daemon.packetsOf daemon.sessions = [] ∧ daemon.channel.counterOut.value = 0

theorem sessions_start (listening : Listening) (zeroPrivate : Private) (zeroKey : Key) :
    Sessions (NcpDaemon.start listening zeroPrivate zeroKey) where
  past := fun _ member => absurd member List.not_mem_nil
  ordered := fun _ => .nil
  current := fun impossible => by cases impossible
  waiting := fun impossible => by cases impossible

/-- No packet was encrypted in a session that has just begun. -/
theorem Sessions.packetsOf_next {daemon : NcpDaemon Private Key} (sessions : Sessions daemon) :
    daemon.packetsOf (daemon.sessions + 1) = [] := by
  refine List.filter_eq_nil_iff.mpr fun packet member => ?_
  have old := sessions.past packet member
  rw [decide_eq_true_eq]
  intro later
  have session := later.1
  omega

/-- The daemon after the link ceased to be encrypted. -/
theorem Sessions.expose {daemon : NcpDaemon Private Key} (sessions : Sessions daemon)
    (table : PollTable) :
    Sessions { daemon with table := table, securityState := .unencrypted } where
  past := sessions.past
  ordered := sessions.ordered
  current := fun impossible => by cases impossible
  waiting := fun impossible => by cases impossible

/-!
## What every change keeps

The source changes the daemon in many small steps, some of which leave the table and the state
of the link out of step until the next one.  `Kept` is the relation that whole functions stand
in: it composes, so that the invariant of a run follows from one lemma for each function.
-/

/-- The invariant of the daemon.  Both parts hold whatever the hosts and the target send, as long
as the table of descriptors has room. -/
structure Sound (daemon : NcpDaemon Private Key) : Prop where
  polls : Polls daemon
  sessions : Sessions daemon

/-- A change of the daemon keeps the invariant, unless the table was full; the listeners stay.  A
full table is remembered for good, so the theorems can be stated of the runs in which it never
was. -/
structure Kept (before after : NcpDaemon Private Key) : Prop where
  refused : before.refused = true → after.refused = true
  listeners : after.listeners = before.listeners
  sound : Sound before → after.refused = true ∨ Sound after

theorem Kept.rfl {daemon : NcpDaemon Private Key} : Kept daemon daemon :=
  ⟨id, Eq.refl _, .inr⟩

theorem Kept.trans {first second third : NcpDaemon Private Key} (one : Kept first second)
    (two : Kept second third) : Kept first third where
  refused := two.refused ∘ one.refused
  listeners := two.listeners.trans one.listeners
  sound := by
    intro sound
    rcases one.sound sound with full | sound
    · exact .inl (two.refused full)
    · exact two.sound sound

section Changes

variable {daemon : NcpDaemon Private Key}

theorem kept_tick : Kept daemon daemon.tick where
  refused := id
  listeners := Eq.refl _
  sound sound := .inr ⟨⟨sound.polls.perm, sound.polls.distinct, sound.polls.openAll⟩,
    ⟨sound.sessions.past, sound.sessions.ordered, sound.sessions.current,
      sound.sessions.waiting⟩⟩

theorem kept_hear {packet : List UInt8} : Kept daemon (daemon.hear packet) where
  refused := id
  listeners := Eq.refl _
  sound sound := .inr ⟨⟨sound.polls.perm, sound.polls.distinct, sound.polls.openAll⟩,
    ⟨sound.sessions.past, sound.sessions.ordered, sound.sessions.current,
      sound.sessions.waiting⟩⟩

theorem kept_send {fd : Int} {bytes : List UInt8} : Kept daemon (daemon.send fd bytes) where
  refused := id
  listeners := Eq.refl _
  sound sound := .inr ⟨⟨sound.polls.perm, sound.polls.distinct, sound.polls.openAll⟩,
    ⟨sound.sessions.past, sound.sessions.ordered, sound.sessions.current,
      sound.sessions.waiting⟩⟩

theorem kept_context {context : BgapiContext} :
    Kept daemon { daemon with uartBgapi := context } where
  refused := id
  listeners := Eq.refl _
  sound sound := .inr ⟨⟨sound.polls.perm, sound.polls.distinct, sound.polls.openAll⟩,
    ⟨sound.sessions.past, sound.sessions.ordered, sound.sessions.current,
      sound.sessions.waiting⟩⟩

/-- The counter of what arrives plays no part. -/
theorem kept_counterIn {nonce : ConnNonce} :
    Kept daemon { daemon with channel := { daemon.channel with counterIn := nonce } } where
  refused := id
  listeners := Eq.refl _
  sound sound := .inr ⟨⟨sound.polls.perm, sound.polls.distinct, sound.polls.openAll⟩,
    ⟨sound.sessions.past, sound.sessions.ordered, sound.sessions.current,
      sound.sessions.waiting⟩⟩

/-- A handshake that begins: the counters are zero, and nothing was encrypted since. -/
theorem Sessions.begin (sessions : Sessions daemon) {counterIn counterOut : ConnNonce}
    {state : SecurityState} {localEcKey : Private} {calls : Nat} {sent : List (Int × List UInt8)}
    (zero : counterOut.value = 0) (plain : state ≠ .encrypted) :
    Sessions { daemon with
      channel := { daemon.channel with counterIn := counterIn, counterOut := counterOut }
      sessions := daemon.sessions + 1
      localEcKey := localEcKey, calls := calls, sent := sent, securityState := state } where
  past := fun packet member => Nat.le_succ_of_le (sessions.past packet member)
  ordered := sessions.ordered
  current := fun encrypted => absurd encrypted plain
  waiting := fun _ => ⟨sessions.packetsOf_next, zero⟩

/-- The polled descriptors of a daemon that was not encrypted and is not. -/
theorem Polls.begin (polls : Polls daemon) {channel : Channel Key} {sessions : Nat}
    {state : SecurityState} {localEcKey : Private} {calls : Nat} {sent : List (Int × List UInt8)}
    (before : daemon.securityState ≠ .encrypted) (plain : state ≠ .encrypted) :
    Polls { daemon with
      channel := channel, sessions := sessions
      localEcKey := localEcKey, calls := calls, sent := sent, securityState := state } := by
  refine ⟨?_, polls.distinct, polls.openAll⟩
  have perm := polls.perm
  rw [watched_plain before] at perm
  rw [watched_plain plain]
  exact perm

theorem value_zero {nonce : ConnNonce} (low : nonce.counter = 0) (high : nonce.counterHi = 0) :
    nonce.value = 0 := by
  simp [ConnNonce.value, low, high]

theorem kept_slSecurityStart (kernel : Kernel Private Key) :
    Kept daemon (slSecurityStart kernel daemon) := by
  unfold slSecurityStart
  cases state : daemon.securityState with
  | increaseSecurity => exact .rfl
  | encrypted => exact .rfl
  | unencrypted =>
      have before : daemon.securityState ≠ .encrypted := by
        rw [state]
        intro impossible
        cases impossible
      have still : SecurityState.unencrypted ≠ .encrypted := by
        intro impossible
        cases impossible
      dsimp only
      split
      · refine ⟨id, Eq.refl _, fun sound => .inr ⟨?_, ?_⟩⟩
        · exact sound.polls.begin before still
        · exact sound.sessions.begin (value_zero (Eq.refl _) (Eq.refl _)) still
      · split
        · refine ⟨id, Eq.refl _, fun sound => .inr ⟨?_, ?_⟩⟩
          · exact sound.polls.begin before still
          · exact sound.sessions.begin (value_zero (Eq.refl _) (Eq.refl _)) still
        · split
          · refine ⟨id, Eq.refl _, fun sound => .inr ⟨?_, ?_⟩⟩
            · exact sound.polls.begin before still
            · exact sound.sessions.begin (value_zero (Eq.refl _) (Eq.refl _)) still
          · have plain : SecurityState.increaseSecurity ≠ .encrypted := by
              intro impossible
              cases impossible
            refine ⟨id, Eq.refl _, fun sound => .inr ⟨?_, ?_⟩⟩
            · exact sound.polls.begin before plain
            · exact sound.sessions.begin (value_zero (Eq.refl _) (Eq.refl _)) plain

/-- The link ceases to be encrypted, and a new handshake begins when a host is connected. -/
theorem kept_changeState_unencrypted (kernel : Kernel Private Key) :
    Kept daemon (changeState kernel .unencrypted daemon) := by
  unfold changeState
  split
  · exact .rfl
  · have still : SecurityState.unencrypted ≠ .encrypted := by
      intro impossible
      cases impossible
    rw [slSecurityStateChangeCb]
    dsimp only
    by_cases socket : 0 ≤ daemon.encSocket
    · rw [if_pos socket]
      refine Kept.trans ?_ (kept_slSecurityStart kernel)
      by_cases polled : slPollIsPolled daemon.encSocket daemon.table
      · rw [if_pos polled]
        refine ⟨id, Eq.refl _, fun sound => .inr ⟨?_, sound.sessions.expose _⟩⟩
        refine sound.polls.expose still ?_
        rw [if_pos socket, sockets_remove _ socket]
      · rw [if_neg polled]
        refine ⟨id, Eq.refl _, fun sound => .inr ⟨?_, sound.sessions.expose _⟩⟩
        refine sound.polls.expose still ?_
        have absent : daemon.encSocket ∉ daemon.table.sockets := by
          intro member
          exact polled (by simpa [slPollIsPolled] using (mem_valid.mp member).1)
        rw [if_pos socket, List.erase_of_not_mem absent]
    · rw [if_neg socket]
      refine ⟨id, Eq.refl _, fun sound => .inr ⟨?_, sound.sessions.expose _⟩⟩
      refine sound.polls.expose still ?_
      rw [if_neg socket]

/-- The sessions of a daemon whose handshake is complete. -/
theorem Sessions.keyed (sessions : Sessions daemon)
    (waiting : daemon.securityState = .increaseSecurity) {channel : Channel Key}
    {table : PollTable} (counter : channel.counterOut.value = daemon.channel.counterOut.value) :
    Sessions { daemon with channel := channel, table := table, securityState := .encrypted } := by
  obtain ⟨nothing, zero⟩ := sessions.waiting waiting
  refine ⟨sessions.past, sessions.ordered, fun _ => ⟨?_, ?_⟩,
    fun impossible => (by cases impossible)⟩
  · have none_ : (NcpDaemon.packetsOf { daemon with
        channel := channel, table := table, securityState := .encrypted } daemon.sessions) = [] :=
      nothing
    dsimp only
    rw [none_, counter, zero]
    rfl
  · intro packet member
    have impossible : packet ∈ daemon.packetsOf daemon.sessions := member
    rw [nothing] at impossible
    exact absurd impossible List.not_mem_nil

/-- The handshake is complete, and the encrypted socket is polled from now on. -/
theorem kept_keyed (kernel : Kernel Private Key)
    (waiting : daemon.securityState = .increaseSecurity) {channel : Channel Key}
    (counter : channel.counterOut.value = daemon.channel.counterOut.value) :
    Kept daemon (changeState kernel .encrypted { daemon with channel := channel }) := by
  have plain : daemon.securityState ≠ .encrypted := by
    rw [waiting]
    intro impossible
    cases impossible
  unfold changeState
  dsimp only
  rw [if_neg plain, slSecurityStateChangeCb]
  dsimp only
  split
  · next polled =>
      refine ⟨id, Eq.refl _, fun sound => .inr ⟨?_, sound.sessions.keyed waiting counter⟩⟩
      have adds : daemon.table.sockets = daemon.table.sockets ++ valid [daemon.encSocket] := by
        have none_ : valid [daemon.encSocket] = [] := by
          refine List.filter_eq_nil_iff.mpr fun fd member => ?_
          rw [List.mem_singleton.mp member, decide_eq_true_eq]
          intro socket
          have listed : daemon.encSocket ∈ daemon.table.fds := by
            simpa [slPollIsPolled] using polled
          exact plain ((sound.polls.enc_iff socket).mp listed)
        rw [none_, List.append_nil]
      have polls := sound.polls.encrypt plain adds
      exact ⟨polls.perm, polls.distinct, polls.openAll⟩
  · unfold NcpDaemon.pollAdd
    dsimp only
    cases added : slPollAdd daemon.encSocket daemon.table with
    | none => exact ⟨fun _ => Eq.refl _, Eq.refl _, fun _ => .inl (Eq.refl _)⟩
    | some table =>
        refine ⟨id, Eq.refl _, fun sound => .inr ⟨?_, sound.sessions.keyed waiting counter⟩⟩
        have polls := sound.polls.encrypt plain (sockets_add added)
        exact ⟨polls.perm, polls.distinct, polls.openAll⟩

/-- The vectors of the target play no part before the handshake is complete. -/
theorem kept_vectors {counterIn counterOut : ConnNonce}
    (counter : counterOut.value = daemon.channel.counterOut.value) :
    Kept daemon { daemon with
      channel := { daemon.channel with counterOut := counterOut, counterIn := counterIn } } where
  refused := id
  listeners := Eq.refl _
  sound sound := by
    refine .inr ⟨⟨sound.polls.perm, sound.polls.distinct, sound.polls.openAll⟩,
      sound.sessions.past, sound.sessions.ordered, fun encrypted => ?_, fun waiting => ?_⟩
    · obtain ⟨value, keys⟩ := sound.sessions.current encrypted
      exact ⟨counter.trans value, keys⟩
    · obtain ⟨nothing, zero⟩ := sound.sessions.waiting waiting
      exact ⟨nothing, counter.trans zero⟩

theorem kept_increaseSecurityRsp (kernel : Kernel Private Key)
    {publicKey toTarget toHost : List UInt8} :
    Kept daemon (slSecurityIncreaseSecurityRsp kernel publicKey toTarget toHost daemon) := by
  unfold slSecurityIncreaseSecurityRsp
  cases state : daemon.securityState with
  | unencrypted => exact .rfl
  | encrypted => exact .rfl
  | increaseSecurity =>
      dsimp only
      split
      · have restarted := @kept_changeState_unencrypted _ _ { daemon with
          channel := { daemon.channel with
            counterOut := { daemon.channel.counterOut with targetIv := toTarget }
            counterIn := { daemon.channel.counterIn with targetIv := toHost } } } kernel
        rw [state] at restarted
        have vectors := @kept_vectors _ _ daemon
          { daemon.channel.counterIn with targetIv := toHost }
          { daemon.channel.counterOut with targetIv := toTarget } (Eq.refl _)
        rw [state] at vectors
        exact vectors.trans restarted
      · next key derived =>
          have keyed := @kept_keyed _ _ daemon kernel state { daemon.channel with
            ccmKey := key
            counterOut := { daemon.channel.counterOut with targetIv := toTarget }
            counterIn := { daemon.channel.counterIn with targetIv := toHost } } (Eq.refl _)
          rw [state] at keyed
          exact keyed

/-! ## Packets -/

theorem kept_decrypt {ccm : Ccm Key} {packet plain : List UInt8}
    {after : NcpDaemon Private Key} (decrypts : daemon.decrypt ccm packet = .ok (plain, after)) :
    Kept daemon after := by
  unfold NcpDaemon.decrypt at decrypts
  obtain ⟨⟨text, channel⟩, decrypted, same⟩ := bind_ok.1 decrypts
  cases same
  rcases decryptPacket_cases decrypted with ⟨_, unchanged⟩ | ⟨_, _, _, _, _, accepted⟩
  · rw [unchanged]
    exact .rfl
  · rw [accepted]
    exact kept_counterIn

theorem kept_processPacket {buf : List UInt8} {encrypted : Bool} :
    Kept daemon (slBgapiProcessPacketCb buf encrypted daemon) := by
  have forwards : ∀ (socket : Int) (before : NcpDaemon Private Key),
      Kept before (if 0 ≤ socket then before.send socket buf else before) := by
    intro socket before
    split
    · exact kept_send
    · exact .rfl
  unfold slBgapiProcessPacketCb
  split
  · exact forwards _ _
  · exact (forwards _ _).trans (forwards _ _)

/-- A read of the serial port keeps the invariant. -/
theorem kept_serialEvent (kernel : Kernel Private Key) (ccm : Ccm Key)
    {after : NcpDaemon Private Key} (reads : serialEvent kernel ccm daemon = .ok after) :
    Kept daemon after := by
  unfold serialEvent at reads
  split at reads
  · cases reads
  · obtain ⟨⟨context, between⟩, received, same⟩ := bind_ok.1 reads
    cases same
    have keeps : (daemonCalls kernel ccm).Keeps (Kept daemon) := by
      refine ⟨?_, ?_, ?_, ?_⟩
      · intro packet before plain after kept decrypts
        exact kept.trans (kept_decrypt decrypts)
      · intro publicKey toTarget toHost before after kept changes
        cases changes
        exact kept.trans (kept_increaseSecurityRsp kernel)
      · intro before after kept changes
        cases changes
        exact kept.trans (kept_changeState_unencrypted kernel)
      · intro packet encrypted before after kept forwards
        cases forwards
        exact kept.trans kept_processPacket
    exact (recvData_keeps keeps kept_tick received).trans kept_context

/-- One more packet came from the host. -/
def NcpDaemon.record (daemon : NcpDaemon Private Key) (counterOut : ConnNonce)
    (packet wire : List UInt8) : NcpDaemon Private Key :=
  { daemon with
    channel := { daemon.channel with counterOut := counterOut }
    hostPackets := daemon.hostPackets ++ [daemon.entry packet wire] }

theorem packetsOf_record (counterOut : ConnNonce) (packet wire : List UInt8) (session : Nat) :
    (daemon.record counterOut packet wire).packetsOf session = daemon.packetsOf session ++
      if daemon.sessions = session ∧ wire ≠ [] then [daemon.entry packet wire] else [] := by
  unfold NcpDaemon.packetsOf NcpDaemon.record NcpDaemon.entry
  dsimp only
  rw [List.filter_append, List.filter_singleton]
  by_cases seals : daemon.sessions = session ∧ wire ≠ []
  · simp [seals]
  · simp [seals]

theorem Sessions.past_record (sessions : Sessions daemon) {counterOut : ConnNonce}
    {packet wire : List UInt8} :
    ∀ other ∈ (daemon.record counterOut packet wire).hostPackets,
      other.session ≤ daemon.sessions := by
  intro other member
  rcases List.mem_append.mp member with old | new
  · exact sessions.past other old
  · rw [List.mem_singleton.mp new]
    exact Nat.le_refl _

/-- A packet that OpenSSL refuses leaves the session as it is. -/
theorem Sessions.refuse (sessions : Sessions daemon) (packet : List UInt8) :
    Sessions (daemon.record daemon.channel.counterOut packet []) := by
  have same : ∀ session, (daemon.record daemon.channel.counterOut packet []).packetsOf session =
      daemon.packetsOf session := by
    intro session
    rw [packetsOf_record, if_neg (fun seals => seals.2 (Eq.refl _)), List.append_nil]
  refine ⟨sessions.past_record, fun session => ?_, fun encrypted => ?_, fun waiting => ?_⟩
  · rw [same session]
    exact sessions.ordered session
  · have current := sessions.current encrypted
    rw [← same daemon.sessions] at current
    exact current
  · have waits := sessions.waiting waiting
    rw [← same daemon.sessions] at waits
    exact waits

/-- One more packet is encrypted in the session. -/
theorem Sessions.seal_ (sessions : Sessions daemon)
    (encrypted : daemon.securityState = .encrypted) {packet wire : List UInt8}
    (written : wire ≠ []) :
    Sessions (daemon.record (increaseCounter daemon.channel.counterOut) packet wire) := by
  obtain ⟨value, keys⟩ := sessions.current encrypted
  have now := @packetsOf_record _ _ daemon (increaseCounter daemon.channel.counterOut) packet
    wire daemon.sessions
  rw [if_pos ⟨Eq.refl _, written⟩] at now
  refine ⟨sessions.past_record, fun session => ?_, fun _ => ⟨?_, ?_⟩, fun waiting => ?_⟩
  · by_cases same : daemon.sessions = session
    · rw [← same, now]
      exact (sessions.ordered _).snoc value encrypted keys
    · rw [packetsOf_record, if_neg (fun seals => same seals.1), List.append_nil]
      exact sessions.ordered session
  · have counts : (increaseCounter daemon.channel.counterOut).value =
        (daemon.packetsOf daemon.sessions ++ [daemon.entry packet wire]).length % counterSize := by
      rw [value_increaseCounter, value, Nat.mod_add_mod, List.length_append,
        List.length_singleton]
    exact counts.trans (congrArg (·.length % counterSize) now.symm)
  · intro other member
    have listed : other ∈ daemon.packetsOf daemon.sessions ++ [daemon.entry packet wire] :=
      now ▸ member
    rcases List.mem_append.mp listed with old | new
    · exact keys other old
    · rw [List.mem_singleton.mp new]
      exact Eq.refl _
  · have impossible : SecurityState.encrypted = .increaseSecurity := encrypted.symm.trans waiting
    cases impossible

/-- What the daemon's encryption comes to: a packet that is refused, or one that is sealed. -/
theorem encrypt_cases {ccm : Ccm Key} {packet wire : List UInt8} {after : NcpDaemon Private Key}
    (encrypts : daemon.encrypt ccm packet = .ok (wire, after)) :
    (wire = [] ∧ after = daemon.record daemon.channel.counterOut packet [] ∧
        (encryptPacket ccm daemon.channel packet).1 = []) ∨
      (Sealed.Made ccm daemon.channel.ccmKey ⟨daemon.channel.counterOut, packet, wire⟩ ∧
        after = daemon.record (increaseCounter daemon.channel.counterOut) packet wire ∧
        (encryptPacket ccm daemon.channel packet).1 = wire) := by
  unfold NcpDaemon.encrypt at encrypts
  dsimp only at encrypts
  split at encrypts
  · cases encrypts
  · rcases encryptPacket_cases ccm daemon.channel packet with refused | ⟨sent, made, sealed⟩
    · rw [refused] at encrypts ⊢
      cases encrypts
      exact .inl ⟨Eq.refl _, Eq.refl _, Eq.refl _⟩
    · rw [sealed] at encrypts ⊢
      cases encrypts
      exact .inr ⟨made, Eq.refl _, Eq.refl _⟩

/-- A packet is encrypted while the link is. -/
theorem kept_encrypt {ccm : Ccm Key} {packet wire : List UInt8} {after : NcpDaemon Private Key}
    (state : Sound daemon → daemon.securityState = .encrypted)
    (encrypts : daemon.encrypt ccm packet = .ok (wire, after)) : Kept daemon after := by
  rcases encrypt_cases encrypts with ⟨_, rfl, _⟩ | ⟨made, rfl, _⟩
  · refine ⟨id, Eq.refl _, fun sound => .inr ⟨?_, sound.sessions.refuse packet⟩⟩
    exact ⟨sound.polls.perm, sound.polls.distinct, sound.polls.openAll⟩
  · refine ⟨id, Eq.refl _, fun sound =>
      .inr ⟨?_, sound.sessions.seal_ (state sound) made.written⟩⟩
    exact ⟨sound.polls.perm, sound.polls.distinct, sound.polls.openAll⟩

/-! ## Connections -/

/-- The encrypted socket before a new host is accepted: closed, if there was one. -/
theorem kept_closeEnc : Kept daemon
    { (if 0 ≤ daemon.encSocket then
        (daemon.close daemon.encSocket).pollRemove daemon.encSocket else daemon) with
      encSocket := -1 } := by
  split
  · next socket =>
      refine ⟨id, Eq.refl _, fun sound => .inr ⟨sound.polls.close_enc socket, ?_⟩⟩
      exact ⟨sound.sessions.past, sound.sessions.ordered, sound.sessions.current,
        sound.sessions.waiting⟩
  · next none_ =>
      refine ⟨id, Eq.refl _, fun sound => .inr ⟨?_, ?_⟩⟩
      · have closed : valid [daemon.encSocket] = [] := by simp [valid, none_]
        refine sound.polls.open_enc closed (fun fd member => absurd member List.not_mem_nil)
          (fun fd open_ => open_.resolve_right List.not_mem_nil) ?_
        split <;> exact (List.append_nil _).symm
      · exact ⟨sound.sessions.past, sound.sessions.ordered, sound.sessions.current,
          sound.sessions.waiting⟩

theorem kept_closeUnenc : Kept daemon
    { (if 0 ≤ daemon.unencSocket then
        (daemon.close daemon.unencSocket).pollRemove daemon.unencSocket else daemon) with
      unencSocket := -1 } := by
  split
  · next socket =>
      refine ⟨id, Eq.refl _, fun sound => .inr ⟨sound.polls.close_unenc socket, ?_⟩⟩
      exact ⟨sound.sessions.past, sound.sessions.ordered, sound.sessions.current,
        sound.sessions.waiting⟩
  · next none_ =>
      refine ⟨id, Eq.refl _, fun sound => .inr ⟨?_, ?_⟩⟩
      · have closed : valid [daemon.unencSocket] = [] := by simp [valid, none_]
        exact sound.polls.open_unenc closed (fun fd member => absurd member List.not_mem_nil)
          (fun fd open_ => open_.resolve_right List.not_mem_nil) (List.append_nil _).symm
      · exact ⟨sound.sessions.past, sound.sessions.ordered, sound.sessions.current,
          sound.sessions.waiting⟩

/-- A socket that was accepted was not open. -/
theorem accepted_fresh (kernel : Kernel Private Key) {calls : Nat} {opened : List Int} {fd : Int}
    (member : fd ∈ valid [kernel.accept calls opened]) : fd ∉ opened := by
  obtain ⟨same, socket⟩ := mem_valid.mp member
  rw [List.mem_singleton.mp same] at socket ⊢
  exact kernel.fresh calls opened socket

/-- What `accept` returned becomes the encrypted socket. -/
theorem kept_openEnc {socket : Int} {table : PollTable} {opened : List Int}
    (none_ : daemon.encSocket = -1) (fresh : ∀ fd ∈ valid [socket], fd ∉ daemon.opened)
    (opens : ∀ fd, fd ∈ daemon.opened ∨ fd ∈ valid [socket] → fd ∈ opened)
    (adds : table.sockets = daemon.table.sockets ++
      if daemon.securityState = .encrypted then valid [socket] else []) :
    Kept daemon { daemon with
      calls := daemon.calls + 1, encSocket := socket, opened := opened, table := table } where
  refused := id
  listeners := Eq.refl _
  sound sound := by
    have closed : valid [daemon.encSocket] = [] := by rw [none_, valid_none]
    have polls := sound.polls.open_enc closed fresh opens adds
    exact .inr ⟨⟨polls.perm, polls.distinct, polls.openAll⟩, sound.sessions.past,
      sound.sessions.ordered, sound.sessions.current, sound.sessions.waiting⟩

theorem kept_openUnenc {socket : Int} {table : PollTable} {opened : List Int}
    (none_ : daemon.unencSocket = -1) (fresh : ∀ fd ∈ valid [socket], fd ∉ daemon.opened)
    (opens : ∀ fd, fd ∈ daemon.opened ∨ fd ∈ valid [socket] → fd ∈ opened)
    (adds : table.sockets = daemon.table.sockets ++ valid [socket]) :
    Kept daemon { daemon with
      calls := daemon.calls + 1, unencSocket := socket, opened := opened, table := table } where
  refused := id
  listeners := Eq.refl _
  sound sound := by
    have closed : valid [daemon.unencSocket] = [] := by rw [none_, valid_none]
    have polls := sound.polls.open_unenc closed fresh opens adds
    exact .inr ⟨⟨polls.perm, polls.distinct, polls.openAll⟩, sound.sessions.past,
      sound.sessions.ordered, sound.sessions.current, sound.sessions.waiting⟩

/-- The socket of `accept`, and the descriptors that are open then. -/
theorem acceptDomainSocket_eq (kernel : Kernel Private Key) (oldsock : Int) :
    ∃ socket opened, acceptDomainSocket kernel oldsock daemon =
      (socket, { (if 0 ≤ oldsock then (daemon.close oldsock).pollRemove oldsock else daemon) with
        calls := (if 0 ≤ oldsock then (daemon.close oldsock).pollRemove oldsock
          else daemon).calls + 1
        opened := opened }) ∧
      (∀ fd ∈ valid [socket], fd ∉ (if 0 ≤ oldsock then
        (daemon.close oldsock).pollRemove oldsock else daemon).opened) ∧
      ∀ fd, fd ∈ (if 0 ≤ oldsock then
        (daemon.close oldsock).pollRemove oldsock else daemon).opened ∨ fd ∈ valid [socket] →
          fd ∈ opened := by
  unfold acceptDomainSocket
  generalize (if 0 ≤ oldsock then (daemon.close oldsock).pollRemove oldsock else daemon) = base
  dsimp only
  split
  · refine ⟨-1, base.opened, Eq.refl _, ?_, ?_⟩
    · exact fun fd member => absurd member List.not_mem_nil
    · exact fun fd open_ => open_.resolve_right List.not_mem_nil
  · refine ⟨_, _, Eq.refl _, fun fd member => accepted_fresh kernel member, ?_⟩
    intro fd open_
    rcases open_ with old | new
    · exact List.mem_cons_of_mem _ old
    · rw [List.mem_singleton.mp (mem_valid.mp new).1]
      exact List.mem_cons_self

theorem kept_encServerEvent (kernel : Kernel Private Key) :
    Kept daemon (encServerEvent kernel daemon) := by
  obtain ⟨socket, opened, accepts, fresh, opens⟩ :=
    @acceptDomainSocket_eq _ _ daemon kernel daemon.encSocket
  have closed := @kept_closeEnc _ _ daemon
  unfold encServerEvent
  rw [accepts]
  generalize (if 0 ≤ daemon.encSocket then
    (daemon.close daemon.encSocket).pollRemove daemon.encSocket else daemon) = base at *
  dsimp only
  refine (closed.trans ?_).trans (kept_slSecurityStart kernel)
  split
  · next encrypted =>
      unfold NcpDaemon.pollAdd
      dsimp only
      cases added : slPollAdd socket base.table with
      | none => exact ⟨fun _ => Eq.refl _, Eq.refl _, fun _ => .inl (Eq.refl _)⟩
      | some table =>
          refine @kept_openEnc _ _ { base with encSocket := -1 } socket table opened (Eq.refl _)
            fresh opens ?_
          dsimp only
          rw [if_pos encrypted]
          exact sockets_add added
  · next plain =>
      refine @kept_openEnc _ _ { base with encSocket := -1 } socket base.table opened (Eq.refl _)
        fresh opens ?_
      dsimp only
      rw [if_neg plain, List.append_nil]

theorem kept_unencServerEvent (kernel : Kernel Private Key) :
    Kept daemon (unencServerEvent kernel daemon) := by
  obtain ⟨socket, opened, accepts, fresh, opens⟩ :=
    @acceptDomainSocket_eq _ _ daemon kernel daemon.unencSocket
  have closed := @kept_closeUnenc _ _ daemon
  unfold unencServerEvent
  rw [accepts]
  generalize (if 0 ≤ daemon.unencSocket then
    (daemon.close daemon.unencSocket).pollRemove daemon.unencSocket else daemon) = base at *
  dsimp only
  refine closed.trans ?_
  unfold NcpDaemon.pollAdd
  dsimp only
  cases added : slPollAdd socket base.table with
  | none => exact ⟨fun _ => Eq.refl _, Eq.refl _, fun _ => .inl (Eq.refl _)⟩
  | some table =>
      exact @kept_openUnenc _ _ { base with unencSocket := -1 } socket table opened (Eq.refl _)
        fresh opens (sockets_add added)

/-!
## Sockets that are ready

The two parts of the callback for a ready descriptor are put together here, and with them one
round of the daemon.
-/

/-- A descriptor that was received from is a socket. -/
theorem received_socket {kernel : Kernel Private Key} {calls : Nat} {fd : Int}
    {bytes : List UInt8} (received : kernel.recv calls fd = some bytes) : 0 ≤ fd := by
  by_contra none_
  rw [kernel.noSocket calls fd (not_le.mp none_)] at received
  cases received

theorem kept_encEvent {kernel : Kernel Private Key} {ccm : Ccm Key} {ended : Bool}
    {after : NcpDaemon Private Key}
    (state : Sound daemon → 0 ≤ daemon.encSocket → daemon.securityState = .encrypted)
    (receives : encEvent kernel ccm daemon.encSocket daemon = .ok (ended, after)) :
    Kept daemon after := by
  unfold encEvent at receives
  split at receives
  · cases receives
    exact kept_tick
  · next received =>
      cases receives
      refine kept_tick.trans ⟨id, Eq.refl _, fun sound => .inr ⟨?_, ?_⟩⟩
      · exact sound.polls.close_enc (received_socket received)
      · exact ⟨sound.sessions.past, sound.sessions.ordered, sound.sessions.current,
          sound.sessions.waiting⟩
  · next buf _ received =>
      obtain ⟨⟨tbuf, between⟩, encrypts, same⟩ := bind_ok.1 receives
      cases same
      have socket := received_socket received
      have before : Sound (daemon.tick.hear buf) → Sound daemon := fun sound =>
        ⟨⟨sound.polls.perm, sound.polls.distinct, sound.polls.openAll⟩,
          sound.sessions.past, sound.sessions.ordered, sound.sessions.current,
          sound.sessions.waiting⟩
      have encrypted : Sound (daemon.tick.hear buf) →
          (daemon.tick.hear buf).securityState = .encrypted :=
        fun sound => state (before sound) socket
      exact ((kept_tick.trans kept_hear).trans (kept_encrypt encrypted encrypts)).trans kept_send

theorem kept_unencEvent (kernel : Kernel Private Key) :
    Kept daemon (unencEvent kernel daemon.unencSocket daemon) := by
  unfold unencEvent
  split
  · exact kept_tick
  · next received =>
      refine kept_tick.trans ⟨id, Eq.refl _, fun sound => .inr ⟨?_, ?_⟩⟩
      · exact sound.polls.close_unenc (received_socket received)
      · exact ⟨sound.sessions.past, sound.sessions.ordered, sound.sessions.current,
          sound.sessions.waiting⟩
  · exact kept_tick.trans kept_send

/-- What is done for a listener, and for no other descriptor. -/
theorem kept_listenerEvents {kernel : Kernel Private Key} {ccm : Ccm Key} {fd : Int}
    {after : NcpDaemon Private Key} (calls : listenerEvents kernel ccm fd daemon = .ok after) :
    Kept daemon after ∧ (fd ∈ daemon.listeners ∨ after = daemon) := by
  unfold listenerEvents at calls
  dsimp only at calls
  by_cases enc : fd = daemon.encServerSocket
  · rw [if_pos enc] at calls
    have listener : fd ∈ daemon.listeners := by simp [NcpDaemon.listeners, enc]
    refine ⟨Kept.trans (kept_encServerEvent kernel) ?_, .inl listener⟩
    split at calls
    · have kept := @kept_unencServerEvent _ _ (encServerEvent kernel daemon) kernel
      split at calls
      · exact kept.trans (kept_serialEvent kernel ccm calls)
      · cases calls
        exact kept
    · split at calls
      · exact kept_serialEvent kernel ccm calls
      · cases calls
        exact .rfl
  · rw [if_neg enc] at calls
    by_cases unenc : fd = daemon.unencServerSocket
    · rw [if_pos unenc] at calls
      have listener : fd ∈ daemon.listeners := by simp [NcpDaemon.listeners, unenc]
      refine ⟨Kept.trans (kept_unencServerEvent kernel) ?_, .inl listener⟩
      split at calls
      · exact kept_serialEvent kernel ccm calls
      · cases calls
        exact .rfl
    · rw [if_neg unenc] at calls
      split at calls
      · next serial =>
          have listener : fd ∈ daemon.listeners := by simp [NcpDaemon.listeners, serial]
          exact ⟨kept_serialEvent kernel ccm calls, .inl listener⟩
      · cases calls
        exact ⟨.rfl, .inr (Eq.refl _)⟩

theorem kept_unencHostEvent (kernel : Kernel Private Key) {fd : Int} :
    Kept daemon (unencHostEvent kernel fd daemon) := by
  unfold unencHostEvent
  split
  · next same =>
      rw [same]
      exact kept_unencEvent kernel
  · exact .rfl

/-- What is done for a socket of a host, which is encrypted only while the link is. -/
theorem kept_hostEvents {kernel : Kernel Private Key} {ccm : Ccm Key} {fd : Int}
    {after : NcpDaemon Private Key}
    (state : Sound daemon → 0 ≤ daemon.encSocket → fd = daemon.encSocket →
      daemon.securityState = .encrypted)
    (calls : hostEvents kernel ccm fd daemon = .ok after) : Kept daemon after := by
  unfold hostEvents at calls
  split at calls
  · next same =>
      obtain ⟨⟨ended, between⟩, receives, rest⟩ := bind_ok.1 calls
      clear calls
      have kept : Kept daemon between := by
        rw [same] at receives
        exact kept_encEvent (fun sound socket => state sound socket same) receives
      cases rest
      split
      · exact kept
      · exact kept.trans (kept_unencHostEvent kernel)
  · cases calls
    exact kept_unencHostEvent kernel

/-- What is done for a descriptor of the table keeps the invariant. -/
theorem kept_slPollCb {kernel : Kernel Private Key} {ccm : Ccm Key} {fd : Int} {revents : UInt16}
    {after : NcpDaemon Private Key} (polled : fd ∈ daemon.table.fds)
    (calls : slPollCb kernel ccm fd revents daemon = .ok after) : Kept daemon after := by
  unfold slPollCb at calls
  split at calls
  · cases calls
    exact .rfl
  · obtain ⟨between, first, second⟩ := bind_ok.1 calls
    clear calls
    obtain ⟨kept, place⟩ := kept_listenerEvents first
    refine kept.trans (kept_hostEvents (fun sound socket same => ?_) second)
    rcases place with listener | unchanged
    · -- a socket of a host is no listener
      rw [← kept.listeners, same] at listener
      exact absurd listener (sound.polls.enc_listener socket)
    · rw [unchanged] at same sound socket ⊢
      rw [same] at polled
      exact (sound.polls.enc_iff socket).mp polled

theorem kept_slPollUpdate {kernel : Kernel Private Key} {ccm : Ccm Key} {places i : Nat}
    {after : NcpDaemon Private Key}
    (updates : slPollUpdate kernel ccm places i daemon = .ok after) :
    Kept daemon after := by
  induction places generalizing i daemon with
  | zero =>
      cases updates
      exact .rfl
  | succ places hypothesis =>
      rw [slPollUpdate] at updates
      split at updates
      · cases updates
        exact .rfl
      · next entry found =>
          split at updates
          · exact hypothesis updates
          · obtain ⟨between, calls, rest⟩ := bind_ok.1 updates
            clear updates
            have polled : entry.fd ∈ daemon.table.fds :=
              List.mem_map_of_mem (List.mem_of_getElem? found)
            exact (kept_slPollCb polled calls).trans (hypothesis rest)

theorem kept_daemonRound {kernel : Kernel Private Key} {ccm : Ccm Key}
    {after : NcpDaemon Private Key} (turn : daemonRound kernel ccm daemon = .ok after) :
    Kept daemon after := by
  unfold daemonRound at turn
  refine Kept.trans ?_ (kept_slPollUpdate turn)
  refine ⟨id, Eq.refl _, fun sound => .inr ⟨⟨?_, ?_, ?_⟩, ?_⟩⟩
  · exact (List.Perm.of_eq (sockets_wait _ _)).trans sound.polls.perm
  · exact sound.polls.distinct
  · exact sound.polls.openAll
  · exact ⟨sound.sessions.past, sound.sessions.ordered, sound.sessions.current,
      sound.sessions.waiting⟩

end Changes

theorem kept_daemonRun {kernel : Kernel Private Key} {ccm : Ccm Key}
    {daemon after : NcpDaemon Private Key} {turns : Nat}
    (runs : daemonRun kernel ccm daemon turns = .ok after) : Kept daemon after := by
  induction turns generalizing after with
  | zero =>
      cases runs
      exact .rfl
  | succ turns hypothesis =>
      obtain ⟨between, earlier, turn⟩ := bind_ok.1 runs
      exact (hypothesis earlier).trans (kept_daemonRound turn)

/-- The invariant of a run in which the table had room. -/
theorem sound_of_run {kernel : Kernel Private Key} {ccm : Ccm Key} {listening : Listening}
    {zeroPrivate : Private} {zeroKey : Key} {daemon : NcpDaemon Private Key} {turns : Nat}
    (runs : daemonRun kernel ccm (.start listening zeroPrivate zeroKey) turns = .ok daemon)
    (room : daemon.refused = false) : Sound daemon := by
  have start : Sound (NcpDaemon.start listening zeroPrivate zeroKey) :=
    ⟨polls_start listening zeroPrivate zeroKey, sessions_start listening zeroPrivate zeroKey⟩
  rcases (kept_daemonRun runs).sound start with full | sound
  · rw [room] at full
    cases full
  · exact sound


/-- Whatever the hosts, the target, the kernel and OpenSSL answer, as long as the table has room:
the encrypted socket is polled exactly while the link is encrypted, the unencrypted socket and the
listeners are polled, and what is polled is open and in the table once. -/
theorem daemon_polls {kernel : Kernel Private Key} {ccm : Ccm Key} {listening : Listening}
    {zeroPrivate : Private} {zeroKey : Key} {daemon : NcpDaemon Private Key} {turns : Nat}
    (runs : daemonRun kernel ccm (.start listening zeroPrivate zeroKey) turns = .ok daemon)
    (room : daemon.refused = false) :
    (0 ≤ daemon.encSocket →
      (daemon.encSocket ∈ daemon.table.fds ↔ daemon.securityState = .encrypted)) ∧
    (∀ fd ∈ daemon.listeners ++ [daemon.unencSocket], 0 ≤ fd → fd ∈ daemon.table.fds) ∧
    ∀ fd ∈ daemon.table.fds, 0 ≤ fd → daemon.table.fds.count fd = 1 ∧ fd ∈ daemon.opened := by
  have polls := (sound_of_run runs room).polls
  refine ⟨polls.enc_iff, fun fd member socket => ?_, fun fd member socket => ⟨?_, ?_⟩⟩
  · have watched : fd ∈ daemon.watched := by
      rw [NcpDaemon.watched, valid_append]
      exact List.mem_append_left _ (mem_valid.mpr ⟨member, socket⟩)
    exact (mem_valid.mp (polls.perm.mem_iff.mpr watched)).1
  · have counted : daemon.table.sockets.count fd = daemon.table.fds.count fd :=
      List.count_filter (by simpa using socket)
    rw [← counted]
    exact List.count_eq_one_of_mem polls.once (mem_valid.mpr ⟨member, socket⟩)
  · have watched := polls.perm.mem_iff.mp (mem_valid.mpr ⟨member, socket⟩)
    apply polls.openAll
    by_cases encrypted : daemon.securityState = .encrypted
    · rwa [watched_encrypted encrypted] at watched
    · rw [watched_plain encrypted] at watched
      rw [valid_descriptors]
      exact List.mem_append_left _ watched

/-- A host connects, the target answers the handshake, and the host sends a packet, a single byte,
and another packet; in its last turn the daemon has nothing to do. -/
def sampleKernel : Kernel Unit Unit where
  ephemeralKey _ := some (List.replicate 64 0, ())
  randBytes _ := some [0, 0, 0, 0]
  ecdhSecret _ _ := some ()
  poll calls := some fun fd =>
    if (calls, fd) ∈ [(0, 4), (5, 3), (7, 6), (9, 6), (11, 6)] then pollIn else 0
  accept _ opened := if 6 ∈ opened then -1 else 6
  read _ := some ([0x20, 0x4c, 0xff, 0x00, 0x00, 0x00, 0x49, 0x00] ++ List.replicate 72 0)
  recv calls fd :=
    if fd = 6 then
      some (if calls = 8 then [0x20, 0x00, 0x01, 0x02] else if calls = 10 then [0x20]
        else [0x20, 0x01, 0x02, 0x02, 0x05])
    else none
  fresh := by
    intro calls opened socket
    split at socket
    · exact absurd socket (by decide)
    · next free =>
        rw [if_neg free]
        exact free
  readFits := by
    intro calls bytes reads
    cases reads
    decide
  recvFits := by
    intro calls fd bytes receives
    split at receives
    · cases receives
      split
      · decide
      · split
        · decide
        · decide
    · cases receives
  noSocket := by
    intro calls fd none_
    have other : fd ≠ 6 := by omega
    exact if_neg other

def sampleListening : Listening where
  serialHandle := 3
  encServerSocket := 4
  unencServerSocket := 5
  serialOpen := by decide
  distinct := by decide

/-- After its handshake the encrypted socket is polled. -/
theorem daemon_polls_sample : ∃ daemon,
    daemonRun sampleKernel sumCcm (.start sampleListening () ()) 2 = .ok daemon ∧
      daemon.encSocket = 6 ∧ (6 ∈ daemon.table.fds ↔ daemon.securityState = .encrypted) := by
  have ends : (daemonRun sampleKernel sumCcm (.start sampleListening () ()) 2).toOption.map
      (fun daemon => (daemon.refused, daemon.encSocket)) = some (false, 6) := by decide +kernel
  obtain ⟨daemon, ran, facts⟩ := Option.map_eq_some_iff.mp ends
  have runs := ok_of_toOption ran
  have socket : daemon.encSocket = 6 := congrArg Prod.snd facts
  have polled := (daemon_polls runs (congrArg Prod.fst facts)).1
  rw [socket] at polled
  exact ⟨daemon, runs, socket, polled (by decide)⟩

end Nwmng
