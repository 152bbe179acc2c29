/-
Module: Nwmng.Mng.Commands
Purpose: The commands and the loop steps that write or load the nodes file of a running
manager, and what they keep of the records and the file.
Trusted boundary: none
Main exports:
  NodesHost.nodes, clicbRmall, clicbRmblclr, startSync, NodesSound, NodesSound.write,
  NodesSound.uplNodesetAddr, LoadFrame
-/
import Nwmng.Mng.DdbRuns

namespace Nwmng

open Json Fallible

/-! ## The functions -/

namespace NodesHost

/-- The records, the open file, and the file on the disk. -/
def nodes (host : NodesHost) : NodesState :=
  { db := host.mng.db, nw := host.nw, file := host.file }

def setNodes (host : NodesHost) (nodes : NodesState) : NodesHost :=
  { mng := host.mng.setDb nodes.db, nw := nodes.nw, file := nodes.file }

end NodesHost

/-- What a command finds that writes and loads the nodes file: the clock, twice, the
templates, and the database of the NCP. -/
structure FileInput where
  first : SaveClock
  second : SaveClock
  env : LoadEnv
  inDdb : Uuid → Bool

/-- `clicb_rmall`: the entries are marked in the file, which is then loaded by force, and a
synchronization begins. -/
def clicbRmall (input : FileInput) (host : NodesHost) : Except Abort NodesHost :=
  if host.mng.state.busy then .ok host
  else do
    let (written, nodes) ← host.nodes.nodesRmall input.first
    let host := host.setNodes nodes
    if written then
      let (loaded, host) ← loadCfgFile input.env input.inDdb input.second true host
      .ok (if loaded then { host with mng := host.mng.setState .starting } else host)
    else .ok host

/-- `clicb_rmblclr`. -/
def clicbRmblclr (input : FileInput) (host : NodesHost) : Except Abort NodesHost := do
  let (written, nodes) ← host.nodes.nodesRmblclr input.first
  let host := host.setNodes nodes
  if written then
    let (_, host) ← loadCfgFile input.env input.inDdb input.second true host
    .ok host
  else .ok host

/-- What the main loop does in the state `starting`, before the change of phase; `true` when
the lists were loaded. -/
def startSync (input : FileInput) (host : NodesHost) : Except Abort (Bool × NodesHost) :=
  let host := { host with mng := host.mng.measure fun _ => Stat.zeroed }
  if fileModified host.file host.nw then
    loadCfgFile input.env input.inDdb input.second false host
  else .ok (true, { host with mng := mngLoadLists input.inDdb host.mng })

/-!
## The records and the file

That the records are those of the open file is the ground on which everything else in the manager
stands.  The file may still be closed, but then there are no records.
-/

/-- Every record is registered, and the file is open unless there is no record.  This is what the
commands that edit the file and load it again need and leave, so it carries every invariant of
the manager. -/
structure NodesSound (nodes : NodesState) : Prop where
  registered : Registered nodes.db nodes.file.entries
  file : (nodes.nw.tree = none ∧ ∀ record, ¬ nodes.db.Known record) ∨
    FileOpen nodes nodes.file.entries nodes.file.backlog
  distinct : nodes.file.DistinctKeys
  backlog : ∀ item ∈ nodes.file.backlog, ∀ addr, EntryAddr item addr → addr = 0

/-- The devices of a list with their addresses, as a database of the NCP would have them. -/
def addressedPairs (entries : List Value) : Ddb :=
  entries.filterMap fun entry =>
    match entryUuid entry, memberUint UInt16.ofNat entry strAddr with
    | some uuid, .ok (some addr) => if addr = 0 then none else some (uuid, addr)
    | _, _ => none

theorem mem_addressedPairs {entries : List Value} {uuid : Uuid} {addr : UInt16} :
    (uuid, addr) ∈ addressedPairs entries ↔
      ∃ entry ∈ entries, entryUuid entry = some uuid ∧ EntryAddr entry addr ∧ addr ≠ 0 := by
  unfold addressedPairs
  rw [List.mem_filterMap]
  constructor
  · rintro ⟨entry, inside, pair⟩
    split at pair
    · rename_i device place isUuid isAddr
      split at pair
      · cases pair
      · rename_i addressed
        cases pair
        exact ⟨entry, inside, isUuid, isAddr, addressed⟩
    · cases pair
  · rintro ⟨entry, inside, isUuid, isAddr, addressed⟩
    refine ⟨entry, inside, ?_⟩
    unfold EntryAddr at isAddr
    simp only [isUuid, isAddr, if_neg addressed]

namespace NodesSound

variable {nodes after : NodesState}

/-- The rules for the database of the NCP apply to the addresses that the file gives. -/
theorem invariant (sound : NodesSound nodes) :
    DdbInvariant nodes (addressedPairs nodes.file.entries) [] where
  registered := sound.registered
  file := sound.file
  distinct := sound.distinct
  backlog := sound.backlog
  addrs := by
    intro first second addr one two
    obtain ⟨oneEntry, oneInside, oneUuid, oneAddr, nonzero⟩ := mem_addressedPairs.mp one
    obtain ⟨twoEntry, twoInside, twoUuid, twoAddr, _⟩ := mem_addressedPairs.mp two
    have same := sound.registered.addrs oneEntry oneInside twoEntry twoInside addr nonzero
      oneAddr twoAddr
    rw [oneUuid, twoUuid] at same
    exact (Option.some.inj same).symm
  inStep := by
    intro entry inside uuid addr isUuid isAddr addressed
    exact mem_addressedPairs.mpr ⟨entry, inside, isUuid, isAddr, addressed⟩
  waiting := fun uuid addr impossible => nomatch impossible
  unaddressed := fun report impossible => nomatch impossible
  last := List.Pairwise.nil

theorem of_invariant {ddb : Ddb} {reports : List ProvReport}
    (invariant : DdbInvariant nodes ddb reports) : NodesSound nodes :=
  ⟨invariant.registered, invariant.file, invariant.distinct, invariant.backlog⟩

/-- A function that writes a node, other than `upl_nodeset_addr`. -/
theorem write (sound : NodesSound nodes) {call : NodeCall}
    (other : ∀ uuid addr, call.write ≠ .uplNodesetAddr uuid addr)
    (done : call.run nodes = .ok after) : NodesSound after := by
  have invariant := sound.invariant
  obtain ⟨write, input, second⟩ := call
  cases write with
  | uplNodesetAddr uuid addr => exact absurd rfl (other uuid addr)
  | nodesRm addr =>
      obtain ⟨_, _, _, _, kept⟩ := invariant.nodesRm done
      exact of_invariant kept
  | nodesBl addr => exact of_invariant (invariant.nodesBl done)
  | nodesetErrbits addr err => exact of_invariant (invariant.nodesetErrbits done)
  | nodesetDone addr flag => exact of_invariant (invariant.nodesetDone done)
  | nodesetFunc addr func => exact of_invariant (invariant.nodesetFunc done)

/-- An address that no entry has can be given to any device. -/
theorem invariant_with (sound : NodesSound nodes) {uuid : Uuid} {addr : UInt16}
    (free : ∀ entry ∈ nodes.file.entries, ¬ EntryAddr entry addr) :
    DdbInvariant nodes (addressedPairs nodes.file.entries ++ [(uuid, addr)]) [] := by
  have invariant := sound.invariant
  have unlisted : ∀ device, (device, addr) ∉ addressedPairs nodes.file.entries := by
    intro device member
    obtain ⟨entry, inside, _, isAddr, _⟩ := mem_addressedPairs.mp member
    exact free entry inside isAddr
  refine ⟨invariant.registered, invariant.file, invariant.distinct, invariant.backlog, ?_, ?_,
    fun device place impossible => (nomatch impossible), invariant.unaddressed,
    invariant.last⟩
  · intro first second place one two
    rcases List.mem_append.mp one with one | one
    · rcases List.mem_append.mp two with two | two
      · exact invariant.addrs first second place one two
      · cases List.mem_singleton.mp two
        exact absurd one (unlisted first)
    · cases List.mem_singleton.mp one
      rcases List.mem_append.mp two with two | two
      · exact absurd two (unlisted second)
      · cases List.mem_singleton.mp two
        rfl
  · intro entry inside device place isUuid isAddr addressed
    exact List.mem_append_left _ (invariant.inStep entry inside device place isUuid isAddr
      addressed)

/-- A device gets an address that no entry has: its record is found there, and its entry in
the file has the address too. -/
theorem uplNodesetAddr (sound : NodesSound nodes) {input : WriteInput} {uuid : Uuid}
    {addr : UInt16} (nonzero : addr ≠ 0)
    (free : ∀ entry ∈ nodes.file.entries, ¬ EntryAddr entry addr)
    (done : nodes.uplNodesetAddr input uuid addr = .ok after) :
    NodesSound after ∧
      ∃ record, after.db.get (.nodes addr) = some record ∧
        (after.db.heap record).uuid = uuid ∧ (after.db.heap record).addr = addr ∧
        ∃ entry ∈ after.file.entries, entryUuid entry = some uuid ∧ EntryAddr entry addr := by
  obtain ⟨written, writes, done⟩ := bind_ok.mp done
  obtain ⟨db, addressed, result⟩ := bind_ok.mp done
  cases result
  rw [db_writeField writes] at addressed
  have invariant := @invariant_with _ sound uuid addr free
  have held : (uuid, addr) ∈ addressedPairs nodes.file.entries ++ [(uuid, addr)] :=
    List.mem_append_right _ (List.mem_singleton.mpr rfl)
  have kept : NodesSound { written with db := db } :=
    of_invariant (invariant.onProvSuccess held nonzero (fun report impossible =>
      nomatch impossible) writes addressed)
  have addrFree : Registered.AddrFree nodes.file.entries uuid addr :=
    fun entry inside isAddr => absurd isAddr (free entry inside)
  obtain ⟨record, found, isUuid, moved⟩ :=
    sound.registered.relocated_uplNodesetAddr nonzero addrFree addressed
  have place : db.get (.nodes addr) = some record := by
    rw [moved.get, homeOf, if_pos nonzero, if_pos rfl]
  have newUuid : (db.heap record).uuid = uuid := moved.isUuid.trans isUuid
  refine ⟨kept, record, place, newUuid, moved.isAddr, ?_⟩
  obtain ⟨entry, inside, entryIs, isAddr⟩ := kept.registered.listed record (known_of_nodes place)
  refine ⟨entry, inside, ?_, ?_⟩
  · exact entryIs.trans (congrArg some newUuid)
  · have there : EntryAddr entry (db.heap record).addr := isAddr
    rw [moved.isAddr] at there
    exact there

theorem jsonCfgOpen (sound : NodesSound nodes) {env : LoadEnv} {force loaded : Bool}
    (done : nodes.jsonCfgOpen env force = .ok (loaded, after)) : NodesSound after :=
  of_invariant (sound.invariant.jsonCfgOpen done)

theorem flush (sound : NodesSound nodes) (clock : SaveClock) : NodesSound (nodes.flush clock) :=
  of_invariant (sound.invariant.flush clock)

theorem writeAll (sound : NodesSound nodes) {clock : SaveClock}
    {edit : Value → Except Abort Value} (writes : WritesRmorbl edit) {written : Bool}
    (done : nodes.writeAll clock edit = .ok (written, after)) : NodesSound after :=
  of_invariant (sound.invariant.writeAll writes done)

theorem backlogDev (sound : NodesSound nodes) {clock : SaveClock} {uuid : Uuid}
    (absent : nodes.db.cfgdbBacklogGet uuid = none)
    (done : nodes.backlogDev clock uuid = .ok after) : NodesSound after :=
  of_invariant (sound.invariant.backlogDev absent done)

end NodesSound

/-! ## The commands keep them -/

theorem db_mngLoadLists (inDdb : Uuid → Bool) (mng : Mng) :
    (mngLoadLists inDdb mng).db = mng.db := by
  unfold mngLoadLists
  split
  · rfl
  · rfl
  · rfl

namespace NodesHost

variable {host target : NodesHost}

theorem sound_loadCfgFile (sound : NodesSound host.nodes) {env : LoadEnv}
    {inDdb : Uuid → Bool} {clock : SaveClock} {force loaded : Bool}
    (done : loadCfgFile env inDdb clock force host = .ok (loaded, target)) :
    NodesSound target.nodes := by
  obtain ⟨⟨isLoaded, nw, db⟩, opens, result⟩ := bind_ok.mp done
  have reopened : NodesSound { db := db, nw := nw, file := host.file } := by
    apply @NodesSound.jsonCfgOpen host.nodes _ sound env force isLoaded
    exact bind_ok.mpr ⟨_, opens, rfl⟩
  cases isLoaded with
  | false =>
      cases result
      exact reopened
  | true =>
      cases result
      have saved := reopened.flush clock
      unfold NodesHost.nodes
      rw [db_mngLoadLists]
      exact saved

theorem sound_clicbRmall (sound : NodesSound host.nodes) {input : FileInput}
    (done : clicbRmall input host = .ok target) : NodesSound target.nodes := by
  unfold clicbRmall at done
  split at done
  · cases done
    exact sound
  · obtain ⟨⟨written, nodes⟩, writes, done⟩ := bind_ok.mp done
    have marked : NodesSound (host.setNodes nodes).nodes :=
      sound.writeAll rmallEntry_writes writes
    cases written with
    | false =>
        cases done
        exact marked
    | true =>
        obtain ⟨⟨loaded, last⟩, loads, result⟩ := bind_ok.mp done
        have reloaded := sound_loadCfgFile marked loads
        cases loaded with
        | false =>
            cases result
            exact reloaded
        | true =>
            cases result
            exact reloaded

theorem sound_clicbRmblclr (sound : NodesSound host.nodes) {input : FileInput}
    (done : clicbRmblclr input host = .ok target) : NodesSound target.nodes := by
  obtain ⟨⟨written, nodes⟩, writes, done⟩ := bind_ok.mp done
  have marked : NodesSound (host.setNodes nodes).nodes :=
    sound.writeAll rmblEntry_writes writes
  cases written with
  | false =>
      cases done
      exact marked
  | true =>
      obtain ⟨⟨loaded, last⟩, loads, result⟩ := bind_ok.mp done
      cases result
      exact sound_loadCfgFile marked loads

theorem sound_startSync (sound : NodesSound host.nodes) {input : FileInput} {loaded : Bool}
    (done : startSync input host = .ok (loaded, target)) : NodesSound target.nodes := by
  have reset : NodesSound
      ({ host with mng := host.mng.measure fun _ => Stat.zeroed } : NodesHost).nodes := sound
  unfold startSync at done
  dsimp only at done
  split at done
  · exact sound_loadCfgFile reset done
  · cases done
    unfold NodesHost.nodes
    rw [db_mngLoadLists]
    exact reset

end NodesHost

/-!
## What a load leaves alone

A load writes the records and the lists.  What it leaves alone is said once for all commands, as
a function of the manager that does not depend on either.
-/

/-- What the commands and the loads do not touch: they write the records, the lists and the
statistics. -/
structure LoadFrame {α : Type} (view : Mng → α) : Prop where
  db : ∀ mng db, view (mng.setDb db) = view mng
  lists : ∀ mng lists, view (mng.setLists lists) = view mng
  measure : ∀ mng change, view (mng.measure change) = view mng

namespace LoadFrame

variable {α : Type} {view : Mng → α} {host target : NodesHost}

theorem mngLoadLists (frame : LoadFrame view) (inDdb : Uuid → Bool) (mng : Mng) :
    view (mngLoadLists inDdb mng) = view mng := by
  unfold Nwmng.mngLoadLists
  split
  · rfl
  · rfl
  · exact frame.lists mng _

theorem loadCfgFile (frame : LoadFrame view) {env : LoadEnv} {inDdb : Uuid → Bool}
    {clock : SaveClock} {force loaded : Bool}
    (done : loadCfgFile env inDdb clock force host = .ok (loaded, target)) :
    view target.mng = view host.mng := by
  obtain ⟨⟨isLoaded, nw, db⟩, _, result⟩ := bind_ok.mp done
  cases isLoaded with
  | false =>
      cases result
      exact frame.db host.mng db
  | true =>
      cases result
      exact (frame.mngLoadLists inDdb _).trans (frame.db host.mng db)

theorem startSync (frame : LoadFrame view) {input : FileInput} {loaded : Bool}
    (done : startSync input host = .ok (loaded, target)) : view target.mng = view host.mng := by
  have reset := frame.measure host.mng fun _ => Stat.zeroed
  unfold Nwmng.startSync at done
  dsimp only at done
  split at done
  · exact (frame.loadCfgFile done).trans reset
  · cases done
    exact (frame.mngLoadLists input.inDdb _).trans reset

theorem clicbRmblclr (frame : LoadFrame view) {input : FileInput}
    (done : clicbRmblclr input host = .ok target) : view target.mng = view host.mng := by
  obtain ⟨⟨written, nodes⟩, _, done⟩ := bind_ok.mp done
  have marked := frame.db host.mng nodes.db
  cases written with
  | false =>
      cases done
      exact marked
  | true =>
      obtain ⟨⟨loaded, last⟩, loads, result⟩ := bind_ok.mp done
      cases result
      exact (frame.loadCfgFile loads).trans marked

/-- `rmall` may start a synchronization, when there is none. -/
theorem clicbRmall (frame : LoadFrame view) {input : FileInput}
    (done : clicbRmall input host = .ok target) :
    view target.mng = view host.mng ∨
      (host.mng.state.busy = false ∧ ∃ mng, view mng = view host.mng ∧
        target.mng = mng.setState .starting) := by
  unfold Nwmng.clicbRmall at done
  split at done
  · cases done
    exact .inl rfl
  · rename_i idle
    obtain ⟨⟨written, nodes⟩, _, done⟩ := bind_ok.mp done
    have marked := frame.db host.mng nodes.db
    cases written with
    | false =>
        cases done
        exact .inl marked
    | true =>
        obtain ⟨⟨loaded, last⟩, loads, result⟩ := bind_ok.mp done
        have whole := (frame.loadCfgFile loads).trans marked
        cases loaded with
        | false =>
            cases result
            exact .inl whole
        | true =>
            cases result
            exact .inr ⟨Bool.eq_false_of_not_eq_true idle, last.mng, whole, rfl⟩

end LoadFrame

end Nwmng
