/-
Module: Nwmng.Mng.AddingRuns
Purpose: Every provisioned device gets its record and its entry in the file, as long as the
manager listens when its event is dispensed.
Trusted boundary: none
Main exports:
  AddState.Recorded, AddState.Started, AddOp.Heard, provisioned_recorded_iff
-/
import Nwmng.Cfg.Staying
import Nwmng.Mng.Adding

namespace Nwmng

open Json Fallible Transition

/-!
## What the steps do to the records and the file

Most steps leave the records and the file alone.  Those that write them are `upl_nodeset_addr`,
the backlog, the two marking commands, the start of a synchronization and the writes of the
slots; each is sound by itself.
-/

namespace AddState

variable {state target : AddState}

/-- The records and the file do not depend on the rest of the manager. -/
theorem nodes_setMng {mng : Mng} (sameDb : mng.db = state.mng.db) :
    (state.setMng mng).nodes = state.nodes := by
  unfold AddState.nodes NodesHost.nodes
  have same : (state.setMng mng).host.mng.db = state.host.mng.db := sameDb
  rw [same]
  rfl

theorem nodes_recoverScan (state : AddState) : state.recoverScan.nodes = state.nodes := by
  unfold recoverScan
  split
  · rfl
  · rfl

theorem mng_recoverScan (state : AddState) : state.recoverScan.mng = state.mng := by
  unfold recoverScan
  split
  · rfl
  · rfl

/-- A request changes nothing but the slots of the sessions, the back-off and the scan, and
adds to the requests and, when the NCP takes it, to the sessions.  What any part of the
development needs to know of the rest follows from this. -/
theorem provisionDevice_eq (netkey : UInt16) (id : Fin maxProvSessions) (uuid : Uuid)
    (result : UInt16) (now : Nat) (state : AddState) :
    ∃ add oom expired recover scanning,
      state.provisionDevice netkey id uuid result now =
        { state.setMng { state.mng with add := add, oom := oom, oomExpired := expired } with
          scanNeedRecover := recover
          scanning := scanning
          requests := { netkey := netkey, uuid := uuid } :: state.requests
          sessions :=
            if result = bgErrSuccess then state.sessions ++ [uuid] else state.sessions } := by
  unfold provisionDevice
  dsimp only
  by_cases isOom : result = bgErrOutOfMemory
  · have failed : result ≠ bgErrSuccess := by
      rw [isOom]
      exact of_decide_eq_true rfl
    simp only [if_pos isOom, if_neg failed]
    split
    · exact ⟨_, _, _, _, _, rfl⟩
    · exact ⟨_, _, _, _, _, rfl⟩
  · by_cases success : result = bgErrSuccess
    · simp only [if_neg isOom, if_neg (not_not.mpr success), if_pos success]
      split
      · exact ⟨_, state.mng.oom, state.mng.oomExpired, _, _, rfl⟩
      · exact ⟨_, state.mng.oom, state.mng.oomExpired, _, _, rfl⟩
    · simp only [if_neg isOom, if_pos success, if_neg success]
      exact ⟨state.mng.add, state.mng.oom, state.mng.oomExpired, _, _, rfl⟩

theorem nodes_provisionDevice (netkey : UInt16) (id : Fin maxProvSessions) (uuid : Uuid)
    (result : UInt16) (now : Nat) (state : AddState) :
    (state.provisionDevice netkey id uuid result now).nodes = state.nodes := by
  obtain ⟨_, _, _, _, _, same⟩ := provisionDevice_eq netkey id uuid result now state
  rw [same]
  rfl

/-- A report of success is `upl_nodeset_addr`, as far as the records and the file go. -/
theorem nodes_onProvSuccess {input : WriteInput} {uuid : Uuid} {addr : UInt16}
    (done : state.onProvSuccess input uuid addr = .ok target) :
    state.nodes.uplNodesetAddr input uuid addr = .ok target.nodes := by
  obtain ⟨written, writes, done⟩ := bind_ok.mp done
  obtain ⟨engine, handled, result⟩ := bind_ok.mp done
  cases result
  have addressed := DdbState.db_onProvSuccess handled
  have sameDb : written.db = state.mng.engine.host.db := db_writeField writes
  rw [← sameDb] at addressed
  rw [nodes_recoverScan]
  exact bind_ok.mpr ⟨written, writes, bind_ok.mpr ⟨_, addressed, rfl⟩⟩

theorem nodes_onProvFailed (uuid : Uuid) (reason : UInt8) (state : AddState) :
    (state.onProvFailed uuid reason).nodes = state.nodes := by
  unfold onProvFailed
  split
  · unfold provFailedWa
    dsimp only
    split
    · rfl
    · rfl
  · rw [nodes_recoverScan]
    rfl

theorem nodes_addLoop (now : Nat) (state : AddState) :
    (state.addLoop now).nodes = state.nodes := by
  unfold addLoop
  dsimp only
  split
  · exact nodes_recoverScan (state.setMng { state.mng with oom := false })
  · rfl

theorem nodes_followScan {mng : Mng} (sameDb : mng.db = state.mng.db) :
    (state.followScan mng).nodes = state.nodes := nodes_setMng sameDb

/-- What a beacon can do: nothing, or note an unknown device, or make a request for a record
without a mark, while a slot is free and none is the device's own. -/
inductive BeaconStep (uuid : Uuid) (result : UInt16) (now : Nat) (clock : SaveClock)
    (state : AddState) : AddState → Prop where
  | ignored : BeaconStep uuid result now clock state state
  | noted {nodes : NodesState} (absent : state.nodes.db.cfgdbBacklogGet uuid = none)
      (adds : state.nodes.backlogDev clock uuid = .ok nodes) :
      BeaconStep uuid result now clock state { state with host := state.host.setNodes nodes }
  | requested {record : NodeId} {id : Fin maxProvSessions} (netkey : UInt16)
      (found : state.mng.db.cfgdbUnprovDevGet uuid = some record)
      (unmarked : (state.mng.db.heap record).rmorbl = 0) (free : state.mng.freeId = some id)
      (notCached : state.mng.iscached uuid = none) :
      BeaconStep uuid result now clock state (state.provisionDevice netkey id uuid result now)

theorem onBeaconRecv_step {uuid : Uuid} {gatt : Bool} {result : UInt16} {now : Nat}
    {clock : SaveClock} (done : state.onBeaconRecv uuid gatt result now clock = .ok target) :
    BeaconStep uuid result now clock state target := by
  unfold onBeaconRecv at done
  split at done
  · cases done
    exact .ignored
  · split at done
    · cases done
      exact .ignored
    · rename_i notCached
      have absent := Option.not_isSome_iff_eq_none.mp notCached
      split at done
      · cases done
        exact .ignored
      · rename_i id free
        split at done
        · split at done
          · rename_i unknown
            obtain ⟨nodes, adds, result⟩ := bind_ok.mp done
            cases result
            exact .noted unknown.1 adds
          · cases done
            exact .ignored
        · rename_i record found
          split at done
          · cases done
            exact .ignored
          · rename_i unmarked
            split at done
            · cases done
            · cases done
              exact .requested _ found (Decidable.of_not_not unmarked) free absent

/-- Of the beacons, one of an unknown device may change the backlog. -/
theorem nodes_onBeaconRecv {uuid : Uuid} {gatt : Bool} {result : UInt16} {now : Nat}
    {clock : SaveClock} (done : state.onBeaconRecv uuid gatt result now clock = .ok target) :
    target.nodes = state.nodes ∨
      (state.nodes.db.cfgdbBacklogGet uuid = none ∧
        state.nodes.backlogDev clock uuid = .ok target.nodes) := by
  cases onBeaconRecv_step done with
  | ignored => exact .inl rfl
  | noted absent adds => exact .inr ⟨absent, adds⟩
  | requested _ _ _ _ _ => exact .inl (nodes_provisionDevice _ _ _ _ _ _)

end AddState

/-- `seqset` changes the priorities only. -/
theorem clicbSeqset_eq (seq : List Char) (mng : Mng) :
    ∃ prios, clicbSeqset seq mng = { mng with seq := prios } := by
  unfold clicbSeqset
  split
  · exact ⟨mng.seq, rfl⟩
  · split
    · exact ⟨_, rfl⟩
    · exact ⟨mng.seq, rfl⟩

theorem db_clicbSeqset (seq : List Char) (mng : Mng) : (clicbSeqset seq mng).db = mng.db := by
  obtain ⟨prios, same⟩ := clicbSeqset_eq seq mng
  rw [same]
  rfl

namespace AddOp

variable {source target : AddState} {op : AddOp}

/-- A step keeps the records and the file sound. -/
theorem sound (sound : NodesSound source.nodes) (step : op.Step source target) :
    NodesSound target.nodes := by
  obtain ⟨possible, done⟩ := step
  cases op with
  | event news =>
      cases news with
      | beacon uuid gatt result now clock =>
          simp only [run, AddState.devAddHdr] at done
          split at done
          · rcases AddState.nodes_onBeaconRecv done with same | ⟨absent, adds⟩
            · rw [same]
              exact sound
            · exact sound.backlogDev absent adds
          · cases done
            exact sound
      | provisioned uuid addr input =>
          obtain ⟨_, nonzero, free⟩ := possible
          simp only [run, AddState.devAddHdr] at done
          split at done
          · have writes := AddState.nodes_onProvSuccess done
            exact (sound.uplNodesetAddr nonzero free writes).1
          · cases done
            exact sound
      | failed uuid reason =>
          simp only [run, AddState.devAddHdr] at done
          split at done
          · cases done
            rw [AddState.nodes_onProvFailed]
            exact sound
          · cases done
            exact sound
  | sync start =>
      cases done
      have same : (source.clicbSync start).nodes = source.nodes :=
        AddState.nodes_setMng (DdbState.db_clicbSync start source.mng)
      rw [same]
      exact sound
  | freemode on result =>
      cases done
      have sameDb : (clicbFreemode on result source.mng).db = source.mng.db :=
        phaseFrame_db.clmSetScan _ _ _
      rw [AddState.nodes_followScan sameDb]
      exact sound
  | seqset seq =>
      cases done
      rw [AddState.nodes_setMng (db_clicbSeqset seq source.mng)]
      exact sound
  | rmall input =>
      obtain ⟨host, marks, result⟩ := bind_ok.mp done
      cases result
      exact NodesHost.sound_clicbRmall sound marks
  | rmblclr input =>
      obtain ⟨host, clears, result⟩ := bind_ok.mp done
      cases result
      exact NodesHost.sound_clicbRmblclr sound clears
  | starting input =>
      obtain ⟨⟨loaded, host⟩, loads, result⟩ := bind_ok.mp done
      cases result
      exact NodesHost.sound_startSync sound loads
  | addLoop now =>
      cases done
      rw [AddState.nodes_addLoop]
      exact sound
  | write call =>
      obtain ⟨nodes, writes, result⟩ := bind_ok.mp done
      cases result
      exact sound.write possible writes
  | setMngState input =>
      cases done
      rw [AddState.nodes_followScan (phaseFrame_db.setMngState input source.mng)]
      exact sound
  | work mng =>
      cases done
      rw [AddState.nodes_setMng possible.db]
      exact sound

end AddOp

/-!
## The sessions

A device with a session has a record among the unprovisioned ones, in which its address will be
written.  Every step but the two commands that clear the records keeps it there, including a load
of the file, which finds the record again.
-/

namespace NodesState

variable {nodes after : NodesState}

theorem db_nodesBl {input second : WriteInput} {addr : UInt16}
    (done : nodes.nodesBl input second addr = .ok after) :
    nodes.db.nodesBl addr = .ok after.db := by
  unfold nodesBl at done
  split at done
  · obtain ⟨db, retired, done⟩ := bind_ok.mp done
    obtain ⟨middle, first, written⟩ := bind_ok.mp done
    have one : middle.db = db := db_writeField first
    have two := db_writeField written
    rw [retired, two, one]
  · cases done

/-- The unprovisioned devices stay, and there is still a subnet in the open file.  A device that
is reported later is then still found, in memory and in the file. -/
structure Onward (before after : NodesState) : Prop where
  stays : Stays before.db after.db
  subnet : before.HasSubnet → after.HasSubnet

theorem Onward.refl (nodes : NodesState) : Onward nodes nodes := ⟨Stays.refl _, fun has => has⟩

theorem Onward.flush (onward : Onward nodes after) (clock : SaveClock) :
    Onward nodes (after.flush clock) :=
  ⟨onward.stays, fun has => (onward.subnet has).of_same (subnets_jsonCfgFlush _ _ _)⟩

theorem Onward.onNode {input : WriteInput} {addr : UInt16}
    {change : CfgDb → Except Abort CfgDb} {field : Node → NodeField}
    (stays : ∀ db, change nodes.db = .ok db → Stays nodes.db db)
    (done : nodes.onNode input addr change field = .ok after) : Onward nodes after :=
  ⟨stays _ (db_onNode done), fun has => has.of_same (subnets_onNode done)⟩

/-- A write of the configuration, of the removal or of the blacklisting. -/
theorem Onward.write (sound : NodesSound nodes) {call : NodeCall}
    (other : ∀ uuid addr, call.write ≠ .uplNodesetAddr uuid addr)
    (done : call.run nodes = .ok after) : Onward nodes after := by
  have field : ∀ {db : CfgDb} {addr : UInt16} (change : Node → Node)
      (_ : ∀ node, (change node).uuid = node.uuid) (_ : nodes.db.nodeset addr change = .ok db),
      Stays nodes.db db := by
    intro db addr change sameUuid changed
    exact Stays.of_get fun spot _ => (DdbState.nodeset_frame change sameUuid changed).1 spot
  obtain ⟨write, input, second⟩ := call
  cases write with
  | uplNodesetAddr uuid addr => exact absurd rfl (other uuid addr)
  | nodesRm addr =>
      have written : nodes.nodesRm input addr = .ok after := done
      unfold NodesState.nodesRm at written
      exact Onward.onNode (fun db retired => Stays.nodesRm sound.registered retired) written
  | nodesBl addr =>
      exact ⟨Stays.nodesBl sound.registered (db_nodesBl done),
        fun has => has.of_same (subnets_nodesBl done)⟩
  | nodesetErrbits addr err =>
      have written : nodes.nodesetErrbits input addr err = .ok after := done
      unfold NodesState.nodesetErrbits at written
      exact Onward.onNode
        (fun db => field (fun node => { node with err := err }) fun _ => rfl) written
  | nodesetDone addr flag =>
      have written : nodes.nodesetDone input addr flag = .ok after := done
      unfold NodesState.nodesetDone at written
      exact Onward.onNode
        (fun db => field (fun node => { node with done := flag }) fun _ => rfl) written
  | nodesetFunc addr func =>
      have written : nodes.nodesetFunc input addr func = .ok after := done
      unfold NodesState.nodesetFunc at written
      exact Onward.onNode
        (fun db => field (fun node => { node with func := func }) fun _ => rfl) written

theorem Onward.backlogDev (sound : NodesSound nodes) {clock : SaveClock} {uuid : Uuid}
    (absent : nodes.db.cfgdbBacklogGet uuid = none)
    (done : nodes.backlogDev clock uuid = .ok after) : Onward nodes after := by
  refine ⟨?_, fun has => has.of_same (subnets_backlogDev done)⟩
  rcases sound.file with ⟨closed, _⟩ | isOpen
  · unfold NodesState.backlogDev at done
    rw [closed] at done
    cases done
    exact Stays.refl _
  · rw [(isOpen.backlogDev done).1]
    exact Stays.backlogNodeAdd absent

end NodesState

namespace NodesHost

variable {host target : NodesHost}

/-- The file is loaded without clearing the records. -/
theorem onward_loadCfgFile (sound : NodesSound host.nodes) (has : host.nodes.HasSubnet)
    {env : LoadEnv} {inDdb : Uuid → Bool} {clock : SaveClock} {loaded : Bool}
    (done : loadCfgFile env inDdb clock false host = .ok (loaded, target)) :
    NodesState.Onward host.nodes target.nodes := by
  obtain ⟨⟨isLoaded, nw, db⟩, opens, result⟩ := bind_ok.mp done
  have opened : host.nodes.jsonCfgOpen env false =
      .ok (isLoaded, { host.nodes with nw := nw, db := db }) := bind_ok.mpr ⟨_, opens, rfl⟩
  have subnet := NodesState.hasSubnet_jsonCfgOpen has opened
  have registered : Registered (clearedFor false host.nodes.db) host.nodes.file.entries :=
    sound.registered
  cases isLoaded with
  | false =>
      cases result
      have left := (jsonCfgOpen_result registered sound.backlog sound.distinct opened).fails rfl
      have same : db = host.nodes.db := by
        rcases left with same | same
        · exact same
        · exact same
      refine ⟨?_, fun _ => subnet⟩
      have stays : Stays host.nodes.db db := by
        rw [same]
        exact Stays.refl _
      exact stays
  | true =>
      cases result
      have stays := (Stays.loadKeeps host.nodes.db host.nodes.file.entries).jsonCfgOpen
        registered sound.backlog (Stays.refl _) opened
      have onward : NodesState.Onward host.nodes { host.nodes with nw := nw, db := db } :=
        ⟨stays, fun _ => subnet⟩
      have saved := onward.flush clock
      unfold NodesHost.nodes
      rw [db_mngLoadLists]
      exact saved

/-- The main loop in the state `starting`. -/
theorem onward_startSync (sound : NodesSound host.nodes) (has : host.nodes.HasSubnet)
    {input : FileInput} {loaded : Bool}
    (done : startSync input host = .ok (loaded, target)) :
    NodesState.Onward host.nodes target.nodes := by
  let fresh : NodesHost := { host with mng := host.mng.measure fun _ => Stat.zeroed }
  have reset : NodesSound fresh.nodes := sound
  have sameHas : fresh.nodes.HasSubnet := has
  unfold startSync at done
  dsimp only at done
  split at done
  · have onward := onward_loadCfgFile reset sameHas done
    exact onward
  · cases done
    unfold NodesHost.nodes
    rw [db_mngLoadLists]
    exact NodesState.Onward.refl _

end NodesHost

namespace AddState

variable {state target : AddState}

/-- The NCP has one session for a device, whose record is still among the unprovisioned
ones. -/
structure SessionsHeld (state : AddState) : Prop where
  sound : NodesSound state.nodes
  subnet : state.nodes.HasSubnet
  once : state.sessions.Nodup
  unprov : ∀ uuid ∈ state.sessions, (state.nodes.db.get (.unprovDevs uuid)).isSome = true

/-- A step that opens no session. -/
theorem SessionsHeld.onward (held : state.SessionsHeld) (sound : NodesSound target.nodes)
    (onward : NodesState.Onward state.nodes target.nodes)
    (same : target.sessions = state.sessions) : target.SessionsHeld := by
  refine ⟨sound, onward.subnet held.subnet, ?_, ?_⟩
  · rw [same]
    exact held.once
  · intro uuid member
    rw [same] at member
    exact onward.stays uuid (held.unprov uuid member)

/-- A step that leaves the records, the file and the sessions alone. -/
theorem SessionsHeld.quiet (held : state.SessionsHeld) (nodes : target.nodes = state.nodes)
    (same : target.sessions = state.sessions) : target.SessionsHeld := by
  have sound : NodesSound target.nodes := by
    rw [nodes]
    exact held.sound
  apply held.onward sound _ same
  rw [nodes]
  exact NodesState.Onward.refl _

theorem sessions_recoverScan (state : AddState) :
    state.recoverScan.sessions = state.sessions := by
  unfold recoverScan
  split
  · rfl
  · rfl

theorem sessions_addLoop (now : Nat) (state : AddState) :
    (state.addLoop now).sessions = state.sessions := by
  unfold addLoop
  dsimp only
  split
  · exact sessions_recoverScan _
  · rfl

theorem sessions_provisionDevice (netkey : UInt16) (id : Fin maxProvSessions) (uuid : Uuid)
    (result : UInt16) (now : Nat) (state : AddState) :
    (state.provisionDevice netkey id uuid result now).sessions =
      if result = bgErrSuccess then state.sessions ++ [uuid] else state.sessions := by
  obtain ⟨_, _, _, _, _, same⟩ := provisionDevice_eq netkey id uuid result now state
  rw [same]

/-- A beacon opens a session with an unprovisioned device, or none. -/
theorem sessions_onBeaconRecv {uuid : Uuid} {gatt : Bool} {result : UInt16} {now : Nat}
    {clock : SaveClock} (done : state.onBeaconRecv uuid gatt result now clock = .ok target) :
    target.sessions = state.sessions ∨
      (result = bgErrSuccess ∧ target.sessions = state.sessions ++ [uuid] ∧
        target.nodes = state.nodes ∧
          (state.nodes.db.get (.unprovDevs uuid)).isSome = true) := by
  cases onBeaconRecv_step done with
  | ignored => exact .inl rfl
  | noted _ _ => exact .inl rfl
  | @requested record _ _ found _ _ _ =>
      by_cases success : result = bgErrSuccess
      · right
        refine ⟨success, ?_, nodes_provisionDevice _ _ _ _ _ _, ?_⟩
        · rw [sessions_provisionDevice, if_pos success]
        · have present : state.nodes.db.get (.unprovDevs uuid) = some record := found
          rw [present]
          rfl
      · left
        rw [sessions_provisionDevice, if_neg success]

end AddState

/-- The commands that clear the records and load the file again. -/
def AddOp.Reloads : AddOp → Prop
  | .rmall _ | .rmblclr _ => True
  | _ => False

namespace AddOp

variable {source target : AddState} {op : AddOp}

/-- A session is over, and the others are as before. -/
theorem held_of_erased {uuid : Uuid} (held : source.SessionsHeld)
    (sound : NodesSound target.nodes) (subnet : target.nodes.HasSubnet)
    (erased : target.sessions = source.sessions.erase uuid)
    (stays : ∀ other, other ≠ uuid → (source.nodes.db.get (.unprovDevs other)).isSome = true →
      (target.nodes.db.get (.unprovDevs other)).isSome = true) : target.SessionsHeld := by
  refine ⟨sound, subnet, ?_, ?_⟩
  · rw [erased]
    exact held.once.erase uuid
  · intro other member
    rw [erased] at member
    obtain ⟨different, before⟩ := held.once.mem_erase_iff.mp member
    exact stays other different (held.unprov other before)

/-- A beacon can open a session only with an unprovisioned device that the NCP has none
with. -/
theorem sessionsHeld_beacon {uuid : Uuid} {gatt : Bool} {result : UInt16} {now : Nat}
    {clock : SaveClock} (held : source.SessionsHeld)
    (step : (AddOp.event (.beacon uuid gatt result now clock)).Step source target) :
    target.SessionsHeld := by
  have sound := AddOp.sound held.sound step
  obtain ⟨possible, done⟩ := step
  simp only [run, AddState.devAddHdr] at done
  split at done
  · rcases AddState.sessions_onBeaconRecv done with same | ⟨success, opened, nodes, unprov⟩
    · apply held.onward sound _ same
      rcases AddState.nodes_onBeaconRecv done with sameNodes | ⟨absent, adds⟩
      · rw [sameNodes]
        exact NodesState.Onward.refl _
      · exact NodesState.Onward.backlogDev held.sound absent adds
    · have fresh := possible success
      refine ⟨sound, ?_, ?_, ?_⟩
      · rw [nodes]
        exact held.subnet
      · rw [opened]
        apply held.once.append (List.nodup_singleton uuid)
        intro other member last
        rw [List.mem_singleton.mp last] at member
        exact fresh member
      · intro other member
        rw [opened] at member
        rw [nodes]
        rcases List.mem_append.mp member with older | new
        · exact held.unprov other older
        · rw [List.mem_singleton.mp new]
          exact unprov
  · cases done
    exact held

/-- The report of success ends the session, and takes no other device from the unprovisioned
ones. -/
theorem sessionsHeld_provisioned {uuid : Uuid} {addr : UInt16} {input : WriteInput}
    (held : source.SessionsHeld)
    (step : (AddOp.event (.provisioned uuid addr input)).Step source target) :
    target.SessionsHeld := by
  have sound := AddOp.sound held.sound step
  obtain ⟨⟨_, nonzero, free⟩, done⟩ := step
  simp only [run, AddState.devAddHdr] at done
  split at done
  · have writes := AddState.nodes_onProvSuccess done
    obtain ⟨written, first, addressed⟩ := bind_ok.mp writes
    obtain ⟨db, addressed, result⟩ := bind_ok.mp addressed
    have erased : target.sessions = source.sessions.erase uuid := by
      obtain ⟨_, _, done⟩ := bind_ok.mp done
      obtain ⟨_, _, done⟩ := bind_ok.mp done
      cases done
      exact AddState.sessions_recoverScan _
    rw [db_writeField first] at addressed
    have isNodes := (Except.ok.inj result).symm
    apply held_of_erased held sound _ erased
    · intro other different found
      rw [isNodes]
      exact Stays.uplNodesetAddr held.sound.registered nonzero
        (fun entry inside isAddr => absurd isAddr (free entry inside)) addressed
        different found
    · rw [isNodes]
      have same := NodesState.subnets_writeField first
      exact held.subnet.of_same same
  · cases done
    exact held_of_erased held sound held.subnet rfl fun _ _ found => found

/-- The report of failure ends the session. -/
theorem sessionsHeld_failed {uuid : Uuid} {reason : UInt8} (held : source.SessionsHeld)
    (step : (AddOp.event (.failed uuid reason)).Step source target) :
    target.SessionsHeld := by
  have sound := AddOp.sound held.sound step
  obtain ⟨_, done⟩ := step
  simp only [run, AddState.devAddHdr] at done
  split at done
  · cases done
    have nodes := AddState.nodes_onProvFailed uuid reason (source.endSession uuid)
    apply held_of_erased held sound
    · rw [nodes]
      exact held.subnet
    · unfold AddState.onProvFailed
      split
      · unfold AddState.provFailedWa
        dsimp only
        split
        · rfl
        · rfl
      · exact AddState.sessions_recoverScan _
    · intro other _ found
      rw [nodes]
      exact found
  · cases done
    exact held_of_erased held sound held.subnet rfl fun _ _ found => found

/-- A step that does not clear the records keeps the sessions. -/
theorem sessionsHeld (held : source.SessionsHeld) (keeps : ¬ op.Reloads)
    (step : op.Step source target) : target.SessionsHeld := by
  have whole := step
  have sound := AddOp.sound held.sound step
  obtain ⟨possible, done⟩ := step
  cases op with
  | event news =>
      cases news with
      | beacon uuid gatt result now clock => exact sessionsHeld_beacon held whole
      | provisioned uuid addr input => exact sessionsHeld_provisioned held whole
      | failed uuid reason => exact sessionsHeld_failed held whole
  | sync start =>
      cases done
      exact held.quiet (AddState.nodes_setMng (DdbState.db_clicbSync start source.mng)) rfl
  | freemode on result =>
      cases done
      have sameDb : (clicbFreemode on result source.mng).db = source.mng.db :=
        phaseFrame_db.clmSetScan _ _ _
      exact held.quiet (AddState.nodes_followScan sameDb) rfl
  | seqset seq =>
      cases done
      exact held.quiet (AddState.nodes_setMng (db_clicbSeqset seq source.mng)) rfl
  | rmall input => exact absurd trivial keeps
  | rmblclr input => exact absurd trivial keeps
  | starting input =>
      obtain ⟨⟨loaded, host⟩, loads, result⟩ := bind_ok.mp done
      cases result
      exact held.onward sound (NodesHost.onward_startSync held.sound held.subnet loads) rfl
  | addLoop now =>
      cases done
      exact held.quiet (AddState.nodes_addLoop now source) (AddState.sessions_addLoop now source)
  | write call =>
      obtain ⟨nodes, writes, result⟩ := bind_ok.mp done
      cases result
      exact held.onward sound (NodesState.Onward.write held.sound possible writes) rfl
  | setMngState input =>
      cases done
      exact held.quiet
        (AddState.nodes_followScan (phaseFrame_db.setMngState input source.mng)) rfl
  | work mng =>
      cases done
      exact held.quiet (AddState.nodes_setMng possible.db) rfl

/-- No event of success stops the program. -/
theorem provisioned_total (held : source.SessionsHeld) {uuid : Uuid} {addr : UInt16}
    {input : WriteInput}
    (possible : Possible source (.event (.provisioned uuid addr input))) :
    ∃ target, run source (.event (.provisioned uuid addr input)) = .ok target := by
  obtain ⟨isOpen, nonzero, free⟩ := possible
  simp only [run, AddState.devAddHdr]
  split
  · obtain ⟨record, found⟩ := Option.isSome_iff_exists.mp (held.unprov uuid isOpen)
    have fileOpen : FileOpen source.nodes source.nodes.file.entries
        source.nodes.file.backlog := by
      rcases held.sound.file with ⟨_, unknown⟩ | fileOpen
      · exact absurd (known_of_unprov found) (unknown record)
      · exact fileOpen
    obtain ⟨written, writes⟩ := NodesState.writeField_total held.subnet fileOpen input uuid
      (.addr addr)
    have addressed : ∃ db, source.mng.db.uplNodesetAddr uuid addr = .ok db := by
      have unprov : source.mng.db.cfgdbUnprovDevGet uuid = some record := found
      unfold CfgDb.uplNodesetAddr
      rw [unprov]
      exact ⟨_, rfl⟩
    obtain ⟨db, addressed⟩ := addressed
    have whole : source.nodes.uplNodesetAddr input uuid addr =
        .ok { written with db := db } := by
      have same : written.db = source.mng.db := db_writeField writes
      rw [← same] at addressed
      exact bind_ok.mpr ⟨written, writes, bind_ok.mpr ⟨db, addressed, rfl⟩⟩
    obtain ⟨_, place, isPlace, _⟩ := held.sound.uplNodesetAddr nonzero free whole
    have present : db.cfgdbNodeGet addr = some place := isPlace
    have handled : ∃ engine, source.mng.engine.onProvSuccess uuid addr = .ok engine := by
      have same : source.mng.engine.host.db.uplNodesetAddr uuid addr = .ok db := addressed
      simp only [Engine.onProvSuccess, same, ok_bind, present]
      exact ⟨_, rfl⟩
    obtain ⟨engine, handled⟩ := handled
    exact ⟨_, bind_ok.mpr ⟨written, writes, bind_ok.mpr ⟨engine, handled, rfl⟩⟩⟩
  · exact ⟨_, rfl⟩

end AddOp

/-!
## Every provisioned device

Whether the device gets its record is decided when its event is dispensed, and by nothing but the
state of the manager at that moment.
-/

namespace AddState

/-- The device is a node with the address, in memory and in the file.  It is asked for on the two
sides separately: the tree in memory may be ahead of the file, or behind it. -/
def Recorded (state : AddState) (uuid : Uuid) (addr : UInt16) : Prop :=
  ∃ record, state.nodes.db.get (.nodes addr) = some record ∧
    (state.nodes.db.heap record).uuid = uuid ∧ (state.nodes.db.heap record).addr = addr ∧
    ∃ entry ∈ state.nodes.file.entries, entryUuid entry = some uuid ∧ EntryAddr entry addr

/-- The network was configured, and nothing has been done since; every record is registered,
and the file is open. -/
structure Started (state : AddState) : Prop extends state.Idle where
  sound : NodesSound state.nodes
  subnet : state.nodes.HasSubnet

end AddState

/-- After its event was dispensed, a provisioned device is recorded. -/
def AddOp.Records (move : Move AddState AddOp) : Prop :=
  match move.label with
  | .event (.provisioned uuid addr _) => move.target.Recorded uuid addr
  | _ => True

/-- The manager listens when an event of success is dispensed. -/
def AddOp.Heard (source : AddState) : AddOp → Prop
  | .event (.provisioned _ _ _) => source.Listening
  | _ => True

instance (source : AddState) : (op : AddOp) → Decidable (op.Heard source)
  | .event (.provisioned _ _ _) => inferInstanceAs (Decidable source.Listening)
  | .event (.beacon _ _ _ _ _) => isTrue trivial
  | .event (.failed _ _) => isTrue trivial
  | .sync _ => isTrue trivial
  | .freemode _ _ => isTrue trivial
  | .seqset _ => isTrue trivial
  | .rmall _ => isTrue trivial
  | .rmblclr _ => isTrue trivial
  | .starting _ => isTrue trivial
  | .addLoop _ => isTrue trivial
  | .write _ => isTrue trivial
  | .setMngState _ => isTrue trivial
  | .work _ => isTrue trivial

/-- A provisioned device is recorded exactly when its event is heard. -/
theorem AddOp.records_iff {move : Move AddState AddOp} (sound : NodesSound move.source.nodes)
    (step : AddOp.Step move.source move.label move.target) :
    AddOp.Records move ↔ AddOp.Heard move.source move.label := by
  obtain ⟨source, op, target⟩ := move
  obtain ⟨possible, done⟩ := step
  unfold AddOp.Records AddOp.Heard
  dsimp only at possible done ⊢
  split
  · rename_i uuid addr input
    obtain ⟨_, nonzero, free⟩ := possible
    simp only [AddOp.run, AddState.devAddHdr] at done
    constructor
    · rintro ⟨record, _, _, _, entry, inside, _, isAddr⟩
      by_contra deaf
      rw [if_neg deaf] at done
      cases done
      exact free entry inside isAddr
    · intro listening
      rw [if_pos listening] at done
      have writes := AddState.nodes_onProvSuccess done
      exact (sound.uplNodesetAddr nonzero free writes).2
  · rfl

/-- In every run, all devices that were provisioned are recorded, exactly when the manager
listens whenever such an event is dispensed; and no such event stops the program, unless the
records were cleared.  An event that finds it deaf is dropped for good, so the condition is
necessary. -/
theorem provisioned_recorded_iff {initial final : AddState} {past : List (Move AddState AddOp)}
    (run : AddRun initial past final) (started : initial.Started) :
    ((∀ move ∈ past, AddOp.Records move) ↔ Guarded AddOp.Heard past) ∧
      ((∀ move ∈ past, ¬ move.label.Reloads) →
        ∀ uuid addr input, AddOp.Possible final (.event (.provisioned uuid addr input)) →
          ∃ target, AddOp.run final (.event (.provisioned uuid addr input)) = .ok target) := by
  constructor
  · apply @Execution.good_iff_guarded _ _ _ _ _ _
      (fun state : AddState => NodesSound state.nodes)
    · intro move sound step
      exact AddOp.records_iff sound step
    · intro move sound step _
      exact AddOp.sound sound step
    · exact run
    · exact started.sound
  · intro keeps uuid addr input possible
    have initially : initial.SessionsHeld := by
      refine ⟨started.sound, started.subnet, ?_, ?_⟩
      · rw [started.sessions]
        exact List.nodup_nil
      · intro other member
        rw [started.sessions] at member
        cases member
    have guarded : Guarded (fun _ (op : AddOp) => ¬ op.Reloads) past := keeps
    have held := (run.guarded_invariant
      (fun source op target before keep step => AddOp.sessionsHeld before keep step)
      initially guarded).2
    exact AddOp.provisioned_total held possible

/-! ## Two runs -/

instance (entry : Value) (addr : UInt16) : Decidable (EntryAddr entry addr) :=
  match found : memberUint UInt16.ofNat entry strAddr with
  | .ok (some place) =>
      if same : place = addr then isTrue (by unfold EntryAddr; rw [found, same])
      else isFalse fun isAddr => same (by
        unfold EntryAddr at isAddr
        rw [found] at isAddr
        exact Option.some.inj (Except.ok.inj isAddr))
  | .ok none => isFalse fun isAddr => by
      unfold EntryAddr at isAddr
      rw [found] at isAddr
      cases isAddr
  | .error _ => isFalse fun isAddr => by
      unfold EntryAddr at isAddr
      rw [found] at isAddr
      cases isAddr

/-- A test for the steps of the runs below. -/
def AddOp.admits (source : AddState) : AddOp → Bool
  | .event (.beacon uuid _ result _ _) =>
      decide (result = bgErrSuccess → uuid ∉ source.sessions)
  | .event (.provisioned uuid addr _) =>
      decide (uuid ∈ source.sessions ∧ addr ≠ 0 ∧
        ∀ entry ∈ source.host.file.entries, ¬ EntryAddr entry addr)
  | .event (.failed uuid _) => decide (uuid ∈ source.sessions)
  | .starting _ => decide (source.mng.state = .starting)
  | .addLoop _ => decide (source.mng.state = .addingDevicesEm)
  | .write _ | .work _ => false
  | _ => true

theorem AddOp.possible_of_admits {source : AddState} {op : AddOp}
    (admits : op.admits source = true) : op.Possible source := by
  cases op with
  | event news =>
      cases news with
      | beacon uuid gatt result now clock =>
          have test := @of_decide_eq_true _ (_) admits
          exact test
      | provisioned uuid addr input =>
          have test := @of_decide_eq_true _ (_) admits
          exact test
      | failed uuid reason =>
          have test := @of_decide_eq_true _ (_) admits
          exact test
  | starting input =>
      have test := @of_decide_eq_true _ (_) admits
      exact test
  | addLoop now =>
      have test := @of_decide_eq_true _ (_) admits
      exact test
  | write call => cases admits
  | work mng => cases admits
  | sync start => trivial
  | freemode on result => trivial
  | seqset seq => trivial
  | rmall input => trivial
  | rmblclr input => trivial
  | setMngState input => trivial

theorem addRun_of_replays {initial : AddState} {labels : List AddOp}
    {test : List (Move AddState AddOp) → AddState → Bool}
    (passed : replays AddOp.run initial labels (fun past final =>
      past.all (fun move => move.label.admits move.source) && test past final) = true) :
    ∃ past final, AddRun initial past final ∧ past.map Move.label = labels ∧
      test past final = true := by
  obtain ⟨past, final, run, same, reached⟩ := execution_of_replays passed
  obtain ⟨admits, tested⟩ := Bool.and_eq_true_iff.mp reached
  refine ⟨past, final, run.of_moves fun move member => ?_, same, tested⟩
  exact ⟨AddOp.possible_of_admits (List.all_eq_true.mp admits move member),
    run.steps_taken move member⟩

/-- A manager in front of a file with one device, which it has not opened yet. -/
def NodesHost.sampleClosed : NodesHost where
  mng := Mng.sampleConfigured.setDb .cfgdbInit
  nw := .zeroed
  file := editedFile [unprovObject]

def FileInput.sample : FileInput where
  first := { time := 8, mtime := 8 }
  second := { time := 8, mtime := 8 }
  env := noTemplates
  inDdb := fun _ => false

/-- The manager has loaded the file, and the network is configured. -/
def AddState.sample : AddState where
  host :=
    match loadCfgFile noTemplates (fun _ => false) FileInput.sample.first false
      .sampleClosed with
    | .ok (_, host) => host
    | .error _ => .sampleClosed
  scanNeedRecover := false
  scanning := false
  requests := []
  sessions := []
  cut := true

theorem NodesHost.sampleClosed_sound : NodesSound NodesHost.sampleClosed.nodes :=
  NodesSound.of_invariant DdbState.sample_started.sound.1

theorem NodesHost.sampleClosed_subnet : NodesHost.sampleClosed.nodes.HasSubnet := by
  intro tree held
  cases held

theorem AddState.sample_started : AddState.sample.Started := by
  have opened : NodesSound AddState.sample.nodes ∧ AddState.sample.nodes.HasSubnet := by
    unfold AddState.nodes AddState.sample
    dsimp only
    split
    · rename_i loads
      have onward := NodesHost.onward_loadCfgFile NodesHost.sampleClosed_sound
        NodesHost.sampleClosed_subnet loads
      exact ⟨NodesHost.sound_loadCfgFile NodesHost.sampleClosed_sound loads,
        onward.subnet NodesHost.sampleClosed_subnet⟩
    · exact ⟨NodesHost.sampleClosed_sound, NodesHost.sampleClosed_subnet⟩
  exact
    { sound := opened.1
      subnet := opened.2
      configured := by decide +kernel
      freeMode := by decide +kernel
      oom := by decide +kernel
      slots := by decide +kernel
      scanning := rfl
      sessions := rfl
      cut := rfl }

/-- A synchronization begins, and a session with the device. -/
def addingSample : List AddOp :=
  [.sync true, .starting .sample, .setMngState .sample,
    .event (.beacon sampleUuid false bgErrSuccess 10 { time := 9, mtime := 9 })]

/-- The event of success is heard. -/
theorem provisioned_recorded_iff_heard :
    ∃ past final, AddRun .sample past final ∧ past.length = 5 ∧
      ∀ move ∈ past, AddOp.Records move := by
  have passed : replays AddOp.run .sample
      (addingSample ++ [.event (.provisioned sampleUuid 2 .sample)])
      (fun past final => past.all (fun move => move.label.admits move.source) &&
        decide (Guarded (fun source op => AddOp.Heard source op) past)) = true := by
    decide +kernel
  obtain ⟨past, final, run, labels, shown⟩ := addRun_of_replays passed
  have every := (provisioned_recorded_iff run AddState.sample_started).1.mpr
    (of_decide_eq_true shown)
  refine ⟨past, final, run, ?_, every⟩
  rw [← List.length_map, labels]
  rfl

/-- The user stops the synchronization before the event of success is dispensed. -/
theorem provisioned_device_lost :
    ¬ ∀ (initial final : AddState) (past : List (Move AddState AddOp)),
      AddRun initial past final → initial.Started → ∀ move ∈ past, AddOp.Records move := by
  intro claim
  have passed : replays AddOp.run .sample
      (addingSample ++ [.sync false, .setMngState .sample,
        .event (.provisioned sampleUuid 2 .sample)])
      (fun past final => past.all (fun move => move.label.admits move.source) &&
        past.any fun move => match move.label with
          | .event (.provisioned _ addr _) =>
              (move.target.nodes.db.get (.nodes addr)).isNone
          | _ => false) = true := by
    decide +kernel
  obtain ⟨past, final, run, _, shown⟩ := addRun_of_replays passed
  obtain ⟨move, member, lost⟩ := List.any_eq_true.mp shown
  have records := claim _ _ past run AddState.sample_started move member
  unfold AddOp.Records at records
  split at lost
  · rename_i uuid addr input isLabel
    rw [isLabel] at records
    obtain ⟨record, found, _⟩ := records
    rw [found] at lost
    cases lost
  · cases lost

end Nwmng
