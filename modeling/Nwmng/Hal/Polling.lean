/-
Module: Nwmng.Hal.Polling
Purpose: Which descriptors the daemon polls: its listeners, the unencrypted socket, and the
encrypted socket exactly while the link is encrypted; every change of the sockets keeps this.
Trusted boundary: none
Main exports:
  PollTable.sockets, NcpDaemon.watched, Polls, polls_start
-/
import Mathlib
import Nwmng.Hal.Daemon

namespace Nwmng

/-! ## The sockets of a table -/

/-- The descriptors that are not −1. -/
def valid (fds : List Int) : List Int := fds.filter (0 ≤ ·)

theorem mem_valid {fds : List Int} {fd : Int} : fd ∈ valid fds ↔ fd ∈ fds ∧ 0 ≤ fd := by
  simp [valid]

@[simp] theorem valid_append (front back : List Int) :
    valid (front ++ back) = valid front ++ valid back :=
  List.filter_append _ _

@[simp] theorem valid_nil : valid [] = [] := rfl

theorem valid_singleton {fd : Int} (socket : 0 ≤ fd) : valid [fd] = [fd] := by
  simp [valid, socket]

@[simp] theorem valid_none : valid [-1] = [] := rfl

def PollTable.sockets (table : PollTable) : List Int := valid table.fds

theorem sockets_add {fd : Int} {table after : PollTable} (added : slPollAdd fd table = some after) :
    after.sockets = table.sockets ++ valid [fd] := by
  unfold slPollAdd at added
  split at added
  · cases added
  · cases added
    rw [PollTable.sockets, PollTable.fds, List.map_append, valid_append]
    rfl

/-- The first entry of a descriptor leaves the table, and no other. -/
theorem removeFirst_sockets {fd : Int} (socket : 0 ≤ fd) (polled : List PollFd) :
    (∀ after, removeFirst fd polled = some after →
      valid (after.map PollFd.fd) = (valid (polled.map PollFd.fd)).erase fd) ∧
    (removeFirst fd polled = none → fd ∉ polled.map PollFd.fd) := by
  induction polled with
  | nil => exact ⟨fun after impossible => (by cases impossible), fun _ => List.not_mem_nil⟩
  | cons entry polled hypothesis =>
      rw [removeFirst]
      by_cases first : entry.fd = fd
      · rw [if_pos first]
        refine ⟨fun after removed => ?_, fun impossible => (by cases impossible)⟩
        cases removed
        simp [valid, first, socket]
      · rw [if_neg first]
        have front : ∀ rest : List PollFd, valid ((entry :: rest).map PollFd.fd) =
            valid [entry.fd] ++ valid (rest.map PollFd.fd) := by
          intro rest
          rw [← valid_append]
          rfl
        have other : fd ∉ valid [entry.fd] := by
          intro member
          exact first (List.mem_singleton.mp (mem_valid.mp member).1).symm
        refine ⟨fun after removed => ?_, fun nothing => ?_⟩
        · obtain ⟨rest, later, rfl⟩ := Option.map_eq_some_iff.mp removed
          rw [front, front, hypothesis.1 rest later, List.erase_append_right _ other]
        · have later := hypothesis.2 (Option.map_eq_none_iff.mp nothing)
          rw [List.map_cons, List.mem_cons, not_or]
          exact ⟨fun same => first same.symm, later⟩

theorem sockets_remove {fd : Int} (table : PollTable) (socket : 0 ≤ fd) :
    (slPollRemove fd table).sockets = table.sockets.erase fd := by
  obtain ⟨removes, absent⟩ := removeFirst_sockets socket table.polled
  unfold slPollRemove
  cases removed : removeFirst fd table.polled with
  | none =>
      refine (List.erase_of_not_mem fun member => ?_).symm
      exact absent removed (mem_valid.mp member).1
  | some polled => exact removes polled removed

/-- Waiting changes no socket of the table. -/
theorem sockets_wait (ready : Option (Int → UInt16)) (table : PollTable) :
    (slPollWait ready table).sockets = table.sockets := by
  have kept : valid ((table.polled.filter (·.fd ≠ -1)).map PollFd.fd) =
      valid (table.polled.map PollFd.fd) := by
    induction table.polled with
    | nil => rfl
    | cons entry polled hypothesis =>
        by_cases removed : entry.fd = -1
        · rw [List.filter_cons_of_neg (by simp [removed]), hypothesis]
          simp [valid, removed]
        · rw [List.filter_cons_of_pos (by simp [removed]), List.map_cons, List.map_cons,
            ← List.singleton_append, valid_append, hypothesis, ← valid_append,
            List.singleton_append]
  have clean : valid ((if table.updatePolled then table.polled.filter (·.fd ≠ -1)
      else table.polled).map PollFd.fd) = valid (table.polled.map PollFd.fd) := by
    split
    · exact kept
    · rfl
  unfold slPollWait
  cases ready with
  | none => exact clean
  | some ready =>
      rw [← show _ = table.sockets from clean]
      unfold PollTable.sockets PollTable.fds
      dsimp only
      rw [List.map_map]
      rfl

/-!
## The descriptors of the daemon

What should be polled can be read off the variables of the daemon.  The invariant says that the
table holds just that, and that the kernel has not reused any of these descriptors.
-/

variable {Private Key : Type}

/-- The descriptors that are polled from the start. -/
def NcpDaemon.listeners (daemon : NcpDaemon Private Key) : List Int :=
  [daemon.serialHandle, daemon.encServerSocket, daemon.unencServerSocket]

def NcpDaemon.descriptors (daemon : NcpDaemon Private Key) : List Int :=
  daemon.listeners ++ [daemon.unencSocket] ++ [daemon.encSocket]

/-- What should be polled: the encrypted socket only while the link is encrypted. -/
def NcpDaemon.watched (daemon : NcpDaemon Private Key) : List Int :=
  valid (daemon.listeners ++ [daemon.unencSocket] ++
    if daemon.securityState = .encrypted then [daemon.encSocket] else [])

/-- The table holds what should be polled and nothing twice, and every descriptor is open.  What
should be polled is worked out from the state of the daemon; the order in the table is left open. -/
structure Polls (daemon : NcpDaemon Private Key) : Prop where
  perm : daemon.table.sockets.Perm daemon.watched
  distinct : (valid daemon.descriptors).Nodup
  openAll : ∀ fd ∈ valid daemon.descriptors, fd ∈ daemon.opened

theorem watched_encrypted {daemon : NcpDaemon Private Key}
    (encrypted : daemon.securityState = .encrypted) :
    daemon.watched = valid daemon.descriptors := by
  rw [NcpDaemon.watched, if_pos encrypted]
  rfl

theorem watched_plain {daemon : NcpDaemon Private Key}
    (plain : daemon.securityState ≠ .encrypted) :
    daemon.watched = valid (daemon.listeners ++ [daemon.unencSocket]) := by
  rw [NcpDaemon.watched, if_neg plain, List.append_nil]

theorem valid_descriptors (daemon : NcpDaemon Private Key) :
    valid daemon.descriptors =
      valid (daemon.listeners ++ [daemon.unencSocket]) ++ valid [daemon.encSocket] := by
  rw [NcpDaemon.descriptors, valid_append]

/-- The encrypted socket is polled exactly while the link is encrypted. -/
theorem Polls.enc_iff {daemon : NcpDaemon Private Key} (polls : Polls daemon)
    (socket : 0 ≤ daemon.encSocket) :
    daemon.encSocket ∈ daemon.table.fds ↔ daemon.securityState = .encrypted := by
  have listed : daemon.encSocket ∈ daemon.table.fds ↔ daemon.encSocket ∈ daemon.watched := by
    rw [← polls.perm.mem_iff, PollTable.sockets, mem_valid]
    exact (and_iff_left socket).symm
  rw [listed]
  constructor
  · intro member
    by_contra plain
    rw [watched_plain plain] at member
    have distinct := polls.distinct
    rw [valid_descriptors, valid_singleton socket] at distinct
    exact (List.nodup_append.mp distinct).2.2 _ member _ (List.mem_singleton.mpr rfl) rfl
  · intro encrypted
    rw [watched_encrypted encrypted, valid_descriptors, valid_singleton socket]
    exact List.mem_append_right _ (List.mem_singleton.mpr rfl)

theorem Polls.once {daemon : NcpDaemon Private Key} (polls : Polls daemon) :
    daemon.table.sockets.Nodup := by
  rw [polls.perm.nodup_iff]
  by_cases encrypted : daemon.securityState = .encrypted
  · rw [watched_encrypted encrypted]
    exact polls.distinct
  · have distinct := polls.distinct
    rw [valid_descriptors] at distinct
    rw [watched_plain encrypted]
    exact (List.nodup_append.mp distinct).1

/-- A socket of the host is none of the listeners. -/
theorem Polls.enc_listener {daemon : NcpDaemon Private Key} (polls : Polls daemon)
    (socket : 0 ≤ daemon.encSocket) : daemon.encSocket ∉ daemon.listeners := by
  intro member
  have distinct := polls.distinct
  rw [valid_descriptors, valid_singleton socket] at distinct
  refine (List.nodup_append.mp distinct).2.2 daemon.encSocket (mem_valid.mpr ⟨?_, socket⟩) _
    (List.mem_singleton.mpr rfl) rfl
  exact List.mem_append_left _ member

theorem polls_start (listening : Listening) (zeroPrivate : Private) (zeroKey : Key) :
    Polls (NcpDaemon.start listening zeroPrivate zeroKey) := by
  have opened : (NcpDaemon.start listening zeroPrivate zeroKey).opened =
      valid (NcpDaemon.start listening zeroPrivate zeroKey).listeners := rfl
  have described : valid (NcpDaemon.start listening zeroPrivate zeroKey).descriptors =
      valid (NcpDaemon.start listening zeroPrivate zeroKey).listeners := by
    rw [NcpDaemon.descriptors, valid_append, valid_append]
    exact (List.append_nil _).trans (List.append_nil _)
  have plain : (NcpDaemon.start listening zeroPrivate zeroKey).securityState ≠ .encrypted := by
    intro impossible
    cases impossible
  refine ⟨?_, ?_, ?_⟩
  · rw [watched_plain plain, valid_append, PollTable.sockets]
    have fds : (NcpDaemon.start listening zeroPrivate zeroKey).table.fds =
        valid (NcpDaemon.start listening zeroPrivate zeroKey).listeners := by
      rw [← opened]
      exact (List.map_map ..).trans (List.map_id _)
    have twice : valid (valid (NcpDaemon.start listening zeroPrivate zeroKey).listeners) =
        valid (NcpDaemon.start listening zeroPrivate zeroKey).listeners := by
      unfold valid
      exact List.filter_filter.trans (List.filter_congr fun fd _ => Bool.and_self _)
    rw [fds, twice]
    exact .of_eq (List.append_nil _).symm
  · rw [described]
    exact listening.distinct
  · rw [described, opened]
    exact fun fd member => member

/-!
## Sockets that come and go

A descriptor is removed from the table before it is closed, since the kernel may return the same
number for the next socket.
-/

/-- The unencrypted socket is closed. -/
theorem Polls.close_unenc {daemon : NcpDaemon Private Key} (polls : Polls daemon)
    (socket : 0 ≤ daemon.unencSocket) :
    Polls { (daemon.close daemon.unencSocket).pollRemove daemon.unencSocket with
      unencSocket := -1 } := by
  have distinct := polls.distinct
  have apart : daemon.unencSocket ∉ valid daemon.listeners := by
    rw [NcpDaemon.descriptors, valid_append, valid_append, valid_singleton socket] at distinct
    have front := (List.nodup_append.mp distinct).1
    exact fun member => (List.nodup_append.mp front).2.2 _ member _ (List.mem_singleton.mpr rfl) rfl
  have remains : daemon.watched.erase daemon.unencSocket =
      NcpDaemon.watched { (daemon.close daemon.unencSocket).pollRemove daemon.unencSocket with
        unencSocket := -1 } := by
    unfold NcpDaemon.watched
    rw [valid_append, valid_append, valid_append, valid_append, valid_singleton socket,
      List.append_assoc, List.erase_append_right _ apart, List.singleton_append,
      List.erase_cons_head, List.append_assoc]
    rfl
  have described : valid daemon.descriptors = valid daemon.listeners ++
      ([daemon.unencSocket] ++ valid [daemon.encSocket]) := by
    rw [NcpDaemon.descriptors, valid_append, valid_append, valid_singleton socket,
      List.append_assoc]
  have fewer : (valid (NcpDaemon.descriptors { (daemon.close daemon.unencSocket).pollRemove
      daemon.unencSocket with unencSocket := -1 })) =
        valid daemon.listeners ++ valid [daemon.encSocket] := by
    rw [NcpDaemon.descriptors, valid_append, valid_append]
    exact congrArg (· ++ _) (List.append_nil _)
  rw [described] at distinct
  obtain ⟨once, others, cross⟩ := List.nodup_append.mp distinct
  refine ⟨?_, ?_, ?_⟩
  · rw [← remains]
    have erased := polls.perm.erase daemon.unencSocket
    rw [← sockets_remove _ socket] at erased
    exact erased
  · rw [fewer]
    exact distinct.sublist (List.Sublist.append_left (List.sublist_append_right _ _) _)
  · rw [fewer]
    intro fd member
    have open_ : fd ∈ daemon.opened := by
      apply polls.openAll
      rw [described]
      exact (List.Sublist.append_left (List.sublist_append_right _ _) _).mem member
    refine List.mem_filter.mpr ⟨open_, ?_⟩
    have other : fd ≠ daemon.unencSocket := by
      intro same
      rw [same] at member
      rcases List.mem_append.mp member with listener | enc
      · exact apart listener
      · exact (List.nodup_cons.mp others).1 enc
    simpa using other

/-- The encrypted socket is closed, whether it is polled or not. -/
theorem Polls.close_enc {daemon : NcpDaemon Private Key} (polls : Polls daemon)
    (socket : 0 ≤ daemon.encSocket) :
    Polls { (daemon.close daemon.encSocket).pollRemove daemon.encSocket with encSocket := -1 } := by
  have distinct := polls.distinct
  rw [valid_descriptors, valid_singleton socket] at distinct
  obtain ⟨once, _, cross⟩ := List.nodup_append.mp distinct
  have apart : daemon.encSocket ∉ valid (daemon.listeners ++ [daemon.unencSocket]) :=
    fun member => cross _ member _ (List.mem_singleton.mpr rfl) rfl
  have remains : daemon.watched.erase daemon.encSocket =
      NcpDaemon.watched { (daemon.close daemon.encSocket).pollRemove daemon.encSocket with
        encSocket := -1 } := by
    have fewer : NcpDaemon.watched { (daemon.close daemon.encSocket).pollRemove daemon.encSocket
        with encSocket := -1 } = valid (daemon.listeners ++ [daemon.unencSocket]) := by
      unfold NcpDaemon.watched
      rw [valid_append]
      split <;> exact List.append_nil _
    rw [fewer]
    by_cases encrypted : daemon.securityState = .encrypted
    · rw [watched_encrypted encrypted, valid_descriptors, valid_singleton socket,
        List.erase_append_right _ apart, List.erase_cons_head, List.append_nil]
    · rw [watched_plain encrypted, List.erase_of_not_mem apart]
  have fewer : valid (NcpDaemon.descriptors { (daemon.close daemon.encSocket).pollRemove
      daemon.encSocket with encSocket := -1 }) =
        valid (daemon.listeners ++ [daemon.unencSocket]) := by
    rw [valid_descriptors]
    exact List.append_nil _
  refine ⟨?_, ?_, ?_⟩
  · rw [← remains]
    have erased := polls.perm.erase daemon.encSocket
    rw [← sockets_remove _ socket] at erased
    exact erased
  · rw [fewer]
    exact once
  · rw [fewer]
    intro fd member
    have open_ : fd ∈ daemon.opened := by
      apply polls.openAll
      rw [valid_descriptors]
      exact List.mem_append_left _ member
    have other : fd ≠ daemon.encSocket := by
      intro same
      exact apart (same ▸ member)
    exact List.mem_filter.mpr ⟨open_, by simpa using other⟩

/-- A new encrypted socket, polled when the link is encrypted. -/
theorem Polls.open_enc {daemon : NcpDaemon Private Key} (polls : Polls daemon)
    (closed : valid [daemon.encSocket] = []) {socket : Int} {table : PollTable}
    {opened : List Int} (fresh : ∀ fd ∈ valid [socket], fd ∉ daemon.opened)
    (opens : ∀ fd, fd ∈ daemon.opened ∨ fd ∈ valid [socket] → fd ∈ opened)
    (adds : table.sockets = daemon.table.sockets ++
      if daemon.securityState = .encrypted then valid [socket] else []) :
    Polls { daemon with table := table, encSocket := socket, opened := opened } := by
  have before : valid daemon.descriptors = valid (daemon.listeners ++ [daemon.unencSocket]) := by
    rw [valid_descriptors, closed, List.append_nil]
  have more : valid (NcpDaemon.descriptors
      { daemon with table := table, encSocket := socket, opened := opened }) =
        valid daemon.descriptors ++ valid [socket] := by
    rw [valid_descriptors, before]
    rfl
  refine ⟨?_, ?_, ?_⟩
  · have base : daemon.table.sockets.Perm (valid (daemon.listeners ++ [daemon.unencSocket])) := by
      have perm := polls.perm
      by_cases encrypted : daemon.securityState = .encrypted
      · rwa [watched_encrypted encrypted, before] at perm
      · rwa [watched_plain encrypted] at perm
    have now : NcpDaemon.watched
        { daemon with table := table, encSocket := socket, opened := opened } =
          valid (daemon.listeners ++ [daemon.unencSocket]) ++
            if daemon.securityState = .encrypted then valid [socket] else [] := by
      unfold NcpDaemon.watched
      rw [valid_append]
      split <;> rfl
    rw [now]
    refine List.Perm.trans (.of_eq adds) ?_
    exact base.append_right _
  · rw [more]
    refine List.nodup_append.mpr ⟨polls.distinct, ?_, ?_⟩
    · exact (List.nodup_singleton socket).filter _
    · intro fd old other new same
      exact fresh other new (same ▸ polls.openAll fd old)
  · rw [more]
    intro fd member
    rcases List.mem_append.mp member with old | new
    · exact opens fd (.inl (polls.openAll fd old))
    · exact opens fd (.inr new)

/-- A new unencrypted socket, which is polled. -/
theorem Polls.open_unenc {daemon : NcpDaemon Private Key} (polls : Polls daemon)
    (closed : valid [daemon.unencSocket] = []) {socket : Int} {table : PollTable}
    {opened : List Int} (fresh : ∀ fd ∈ valid [socket], fd ∉ daemon.opened)
    (opens : ∀ fd, fd ∈ daemon.opened ∨ fd ∈ valid [socket] → fd ∈ opened)
    (adds : table.sockets = daemon.table.sockets ++ valid [socket]) :
    Polls { daemon with table := table, unencSocket := socket, opened := opened } := by
  have more : (valid (NcpDaemon.descriptors
      { daemon with table := table, unencSocket := socket, opened := opened })).Perm
        (valid daemon.descriptors ++ valid [socket]) := by
    simp only [NcpDaemon.descriptors, valid_append, closed, List.append_assoc]
    exact List.perm_append_comm.append_left _
  refine ⟨?_, ?_, ?_⟩
  · have now : (NcpDaemon.watched
        { daemon with table := table, unencSocket := socket, opened := opened }).Perm
          (daemon.watched ++ valid [socket]) := by
      simp only [NcpDaemon.watched, valid_append, closed, List.append_assoc]
      exact List.perm_append_comm.append_left _
    refine List.Perm.trans (.of_eq adds) ?_
    exact (polls.perm.append_right _).trans now.symm
  · rw [more.nodup_iff]
    refine List.nodup_append.mpr ⟨polls.distinct, ?_, ?_⟩
    · exact (List.nodup_singleton socket).filter _
    · intro fd old other new same
      exact fresh other new (same ▸ polls.openAll fd old)
  · intro fd member
    rcases List.mem_append.mp (more.mem_iff.mp member) with old | new
    · exact opens fd (.inl (polls.openAll fd old))
    · exact opens fd (.inr new)

/-! ## The link becomes encrypted, and ceases to be -/

/-- The link becomes encrypted, and its socket is polled from now on. -/
theorem Polls.encrypt {daemon : NcpDaemon Private Key} (polls : Polls daemon)
    (plain : daemon.securityState ≠ .encrypted) {table : PollTable}
    (adds : table.sockets = daemon.table.sockets ++ valid [daemon.encSocket]) :
    Polls { daemon with table := table, securityState := .encrypted } := by
  refine ⟨?_, polls.distinct, polls.openAll⟩
  have perm := polls.perm
  rw [watched_plain plain] at perm
  have now : NcpDaemon.watched { daemon with table := table, securityState := .encrypted } =
      valid (daemon.listeners ++ [daemon.unencSocket]) ++ valid [daemon.encSocket] := by
    rw [watched_encrypted rfl, valid_descriptors]
    rfl
  rw [now]
  exact List.Perm.trans (.of_eq adds) (perm.append_right _)

/-- The link is no longer encrypted, and its socket is not polled from now on. -/
theorem Polls.expose {daemon : NcpDaemon Private Key} (polls : Polls daemon)
    {state : SecurityState} (plain : state ≠ .encrypted) {table : PollTable}
    (removes : table.sockets = if 0 ≤ daemon.encSocket then
      daemon.table.sockets.erase daemon.encSocket else daemon.table.sockets) :
    Polls { daemon with table := table, securityState := state } := by
  refine ⟨?_, polls.distinct, polls.openAll⟩
  have now : NcpDaemon.watched { daemon with table := table, securityState := state } =
      valid (daemon.listeners ++ [daemon.unencSocket]) := watched_plain plain
  rw [now]
  refine List.Perm.trans (.of_eq removes) ?_
  have perm := polls.perm
  have distinct := polls.distinct
  rw [valid_descriptors] at distinct
  by_cases socket : 0 ≤ daemon.encSocket
  · rw [if_pos socket]
    rw [valid_singleton socket] at distinct
    have apart : daemon.encSocket ∉ valid (daemon.listeners ++ [daemon.unencSocket]) :=
      fun member => (List.nodup_append.mp distinct).2.2 _ member _ (List.mem_singleton.mpr rfl) rfl
    have erased := perm.erase daemon.encSocket
    by_cases encrypted : daemon.securityState = .encrypted
    · rwa [watched_encrypted encrypted, valid_descriptors, valid_singleton socket,
        List.erase_append_right _ apart, List.erase_cons_head, List.append_nil] at erased
    · rwa [watched_plain encrypted, List.erase_of_not_mem apart] at erased
  · rw [if_neg socket]
    have none_ : valid [daemon.encSocket] = [] := by simp [valid, socket]
    by_cases encrypted : daemon.securityState = .encrypted
    · rwa [watched_encrypted encrypted, valid_descriptors, none_, List.append_nil] at perm
    · rwa [watched_plain encrypted] at perm

end Nwmng
