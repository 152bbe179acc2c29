/-
Module: Nwmng.Mng.Ddb
Purpose: The device database of the NCP beside the records and the nodes file of the host:
what adds devices to it and deletes them, and the reports that are still to be handled.
Trusted boundary: an address that the NCP gives is used once in its database
Main exports:
  ProvReport, Ddb, DdbState, DdbOp, DdbRun, loadListsDdb, DdbState.loadLists,
  DdbState.removed, rmendEntry_removed
-/
import Nwmng.Mng.OpenFile

namespace Nwmng

open Json Fallible Transition

/-!
## The NCP

The NCP has a database of its own.  It is changed by provisioning before the host knows of it,
and by the host, which deletes what it takes for stale.
-/

/-- A report of the NCP about a device that was to be provisioned. -/
inductive ProvReport where
  | provisioned (uuid : Uuid) (addr : UInt16)
  | failed (uuid : Uuid) (reason : UInt8)
deriving Repr, DecidableEq

/-- The device that a report is about. -/
def ProvReport.uuid : ProvReport → Uuid
  | .provisioned uuid _ | .failed uuid _ => uuid

/-- The device was provisioned. -/
def ProvReport.succeeds : ProvReport → Bool
  | .provisioned _ _ => true
  | .failed _ _ => false

/-- The device database of the NCP: the devices and their addresses. -/
abbrev Ddb := List (Uuid × UInt16)

namespace Ddb

/-- `gecko_cmd_mesh_prov_ddb_get` succeeds. -/
def has (ddb : Ddb) (uuid : Uuid) : Bool := ddb.any fun device => device.1 = uuid

/-- `gecko_cmd_mesh_prov_ddb_delete`, which may fail. -/
def delete (fails : Uuid → Bool) (uuid : Uuid) (ddb : Ddb) : Ddb :=
  if fails uuid then ddb else ddb.filter fun device => device.1 ≠ uuid

/-- The device is not in the database, and the address can be given to it.  The NCP never gives
the address 0, and no address twice. -/
def CanAdd (ddb : Ddb) (uuid : Uuid) (addr : UInt16) : Prop :=
  ddb.has uuid = false ∧ addr ≠ 0 ∧ addr ∉ ddb.map Prod.snd

instance (ddb : Ddb) (uuid : Uuid) (addr : UInt16) : Decidable (ddb.CanAdd uuid addr) :=
  inferInstanceAs (Decidable (ddb.has uuid = false ∧ addr ≠ 0 ∧ addr ∉ ddb.map Prod.snd))

theorem has_of_mem {ddb : Ddb} {uuid : Uuid} {addr : UInt16} (member : (uuid, addr) ∈ ddb) :
    ddb.has uuid = true :=
  List.any_eq_true.mpr ⟨(uuid, addr), member, decide_eq_true rfl⟩

theorem mem_delete {fails : Uuid → Bool} {uuid other : Uuid} {addr : UInt16} {ddb : Ddb}
    (different : other ≠ uuid) (member : (other, addr) ∈ ddb) :
    (other, addr) ∈ ddb.delete fails uuid := by
  unfold delete
  split
  · exact member
  · exact List.mem_filter.mpr ⟨member, decide_eq_true different⟩

theorem mem_of_mem_delete {fails : Uuid → Bool} {uuid : Uuid} {device : Uuid × UInt16}
    {ddb : Ddb} (member : device ∈ ddb.delete fails uuid) : device ∈ ddb := by
  unfold delete at member
  split at member
  · exact member
  · exact (List.mem_filter.mp member).1

end Ddb

/-! ## The lists -/

/-- One tree of `cfg_load_mnglists`, with what it deletes from the database of the NCP;
`true` when the traversal was stopped. -/
def loadListsDdb (fails : Uuid → Bool) (db : CfgDb) :
    List NodeId → Ddb → Lists → Bool × Ddb × Lists
  | [], ddb, lists => (false, ddb, lists)
  | record :: rest, ddb, lists =>
      let node := db.heap record
      if node.addr = 0 then
        let ddb := if ddb.has node.uuid then ddb.delete fails node.uuid else ddb
        loadListsDdb fails db rest ddb (loadUnprov db record lists)
      else if ddb.has node.uuid then
        loadListsDdb fails db rest ddb (loadNodeLists db record lists)
      else (true, ddb, lists)

/-- Without a stop, the lists are those of `loadLists`. -/
theorem loadListsDdb_lists {fails inDdb : Uuid → Bool} {db : CfgDb} {records : List NodeId}
    {ddb : Ddb} {lists : Lists} (finished : (loadListsDdb fails db records ddb lists).1 = false)
    (inside : ∀ record ∈ records, (db.heap record).addr ≠ 0 →
      inDdb (db.heap record).uuid = true) :
    (loadListsDdb fails db records ddb lists).2.2 = loadLists inDdb db records lists := by
  induction records generalizing ddb lists with
  | nil => rfl
  | cons record rest hypothesis =>
      have later : ∀ other ∈ rest, (db.heap other).addr ≠ 0 →
          inDdb (db.heap other).uuid = true :=
        fun other member => inside other (List.mem_cons_of_mem _ member)
      simp only [loadListsDdb, loadLists] at finished ⊢
      by_cases addressed : (db.heap record).addr = 0
      · rw [if_pos addressed] at finished
        rw [if_pos addressed, if_pos addressed]
        exact hypothesis finished later
      · rw [if_neg addressed] at finished
        rw [if_neg addressed, if_neg addressed,
          if_pos (inside record List.mem_cons_self addressed)]
        by_cases held : ddb.has (db.heap record).uuid = true
        · rw [if_pos held] at finished
          rw [if_pos held]
          exact hypothesis finished later
        · rw [if_neg held] at finished
          cases finished

/-!
## The system

Between the NCP and the host there are reports, in their order.  A report waits until the main
loop comes to it, and the user may have the lists loaded in the meantime.
-/

/-- The host, the database of the NCP, the reports on their way, oldest first, and whether
a traversal was ever stopped by a node that the NCP does not have. -/
structure DdbState where
  host : NodesHost
  ddb : Ddb
  reports : List ProvReport
  outOfSync : Bool

namespace DdbState

/-- The records, the open file, and the file on the disk. -/
def nodes (state : DdbState) : NodesState :=
  { db := state.host.mng.db, nw := state.host.nw, file := state.host.file }

def setNodes (state : DdbState) (nodes : NodesState) : DdbState :=
  { state with host :=
      { mng := state.host.mng.setDb nodes.db, nw := nodes.nw, file := nodes.file } }

/-- `mng_load_lists`: the two trees are traversed one after the other, and a traversal stops
where an assertion about the database of the NCP fails. -/
def loadLists (fails : Uuid → Bool) (state : DdbState) : DdbState :=
  match state.host.mng.state with
  | .nil | .initialized => state
  | _ =>
      let db := state.host.mng.db
      let (stopped, ddb, lists) :=
        loadListsDdb fails db db.unprovDevs.values state.ddb Lists.empty
      let (again, ddb, lists) := loadListsDdb fails db db.nodes.values ddb lists
      { state with
        host := { state.host with mng := state.host.mng.setLists lists }
        ddb := ddb
        outOfSync := state.outOfSync || stopped || again }

/-- `load_cfg_file`, for the nodes file. -/
def load (env : LoadEnv) (force : Bool) (clock : SaveClock) (fails : Uuid → Bool)
    (state : DdbState) : Except Abort (Bool × DdbState) := do
  let (loaded, nodes) ← state.nodes.jsonCfgOpen env force
  let state := state.setNodes nodes
  if loaded then
    let state := state.loadLists fails
    .ok (true, state.setNodes (state.nodes.flush clock))
  else .ok (false, state)

/-- `dev_add_hdr` passes a report on. -/
def Listening (state : DdbState) : Prop :=
  state.host.mng.state = .addingDevicesEm ∨ state.host.mng.freeMode = 2

instance (state : DdbState) : Decidable state.Listening :=
  inferInstanceAs (Decidable (_ ∨ _))

/-- `on_prov_success`: the file, and then the record and the lists. -/
def onProvSuccess (input : WriteInput) (uuid : Uuid) (addr : UInt16) (state : DdbState) :
    Except Abort DdbState := do
  let nodes ← state.nodes.writeField input uuid (.addr addr)
  let engine ← state.host.mng.engine.onProvSuccess uuid addr
  .ok { state with host :=
    { mng := { state.host.mng with engine := engine }, nw := nodes.nw, file := nodes.file } }

/-- `on_prov_failed`: for reason 7, the device is deleted from the database of the NCP. -/
def onProvFailed (fails : Uuid → Bool) (uuid : Uuid) (reason : UInt8) (state : DdbState) :
    DdbState :=
  if reason = 7 then
    let lists := state.host.mng.lists
    let add :=
      match state.host.mng.db.cfgdbUnprovDevGet uuid with
      | some record => lists.add.erase record
      | none => lists.add
    { state with
      host := { state.host with mng := state.host.mng.setLists { lists with add := add } }
      ddb := state.ddb.delete fails uuid }
  else state

/-- The next report is handled, or dropped. -/
def report (input : WriteInput) (fails : Uuid → Bool) (state : DdbState) :
    Except Abort DdbState :=
  match state.reports with
  | [] => .ok state
  | next :: rest =>
      let state := { state with reports := rest }
      if state.Listening then
        match next with
        | .provisioned uuid addr => state.onProvSuccess input uuid addr
        | .failed uuid reason => .ok (state.onProvFailed fails uuid reason)
      else .ok state

/-- The writes of `__on_success` of `rmend_entry`. -/
structure RemovedInput where
  errbits : WriteInput
  done : WriteInput
  func : WriteInput
  addr : WriteInput
deriving Inhabited

/-- `__on_success` of `rmend_entry`, on `cache->node`. -/
def removed (input : RemovedInput) (fails : Uuid → Bool) (record : NodeId)
    (state : DdbState) : Except Abort DdbState := do
  let addr := (state.nodes.db.heap record).addr
  let nodes ← state.nodes.nodesetErrbits input.errbits addr 0
  let nodes ← nodes.nodesetDone input.done addr 0
  let nodes ← nodes.nodesetFunc input.func addr 0
  let nodes ← nodes.nodesRm input.addr addr
  .ok { state.setNodes nodes with ddb := state.ddb.delete fails (nodes.db.heap record).uuid }

/-- `on_beacon_recv`, for a device that is neither in the file nor in the backlog. -/
def beacon (clock : SaveClock) (uuid : Uuid) (state : DdbState) : Except Abort DdbState :=
  let db := state.host.mng.db
  if db.cfgdbUnprovDevGet uuid = none ∧ db.cfgdbBacklogGet uuid = none ∧
      state.host.mng.freeMode = 2 then do
    let nodes ← state.nodes.backlogDev clock uuid
    .ok (state.setNodes nodes)
  else .ok state

/-- `clicb_rmall`. -/
def rmall (first second : SaveClock) (env : LoadEnv) (fails : Uuid → Bool)
    (state : DdbState) : Except Abort DdbState :=
  if state.host.mng.state.busy then .ok state
  else do
    let (written, nodes) ← state.nodes.nodesRmall first
    let state := state.setNodes nodes
    if written then
      let (loaded, state) ← state.load env true second fails
      if loaded then
        .ok { state with host := { state.host with mng := state.host.mng.setState .starting } }
      else .ok state
    else .ok state

/-- `clicb_rmblclr`. -/
def rmblclr (first second : SaveClock) (env : LoadEnv) (fails : Uuid → Bool)
    (state : DdbState) : Except Abort DdbState := do
  let (written, nodes) ← state.nodes.nodesRmblclr first
  let state := state.setNodes nodes
  if written then
    let (_, state) ← state.load env true second fails
    .ok state
  else .ok state

/-- `clr_all`, after the files were loaded: the nodes, and then `erase_all`. -/
def clrAll (first second : SaveClock) (env : LoadEnv) (erased : Bool) (state : DdbState) :
    Except Abort DdbState := do
  let (cleared, nodes) ← state.nodes.nodesClrctl env first second
  let state := state.setNodes nodes
  if cleared && erased then .ok { state with ddb := [] } else .ok state

end DdbState

/-- The steps of the NCP and of the host.  Reports wait in a queue between the two, so the host
may have changed its mind when one arrives. -/
inductive DdbOp where
  /-- the NCP has provisioned a device, and reports it -/
  | provisioned (uuid : Uuid) (addr : UInt16)
  /-- provisioning has failed; the NCP may have added the device all the same -/
  | failed (uuid : Uuid) (reason : UInt8) (added : Option UInt16)
  | report (input : WriteInput) (fails : Uuid → Bool)
  /-- a write of the configuration, or of the blacklisting -/
  | write (call : NodeCall)
  | removed (input : DdbState.RemovedInput) (fails : Uuid → Bool) (record : NodeId)
  | loadLists (fails : Uuid → Bool)
  | load (env : LoadEnv) (force : Bool) (clock : SaveClock) (fails : Uuid → Bool)
  | beacon (clock : SaveClock) (uuid : Uuid)
  | rmall (first second : SaveClock) (env : LoadEnv) (fails : Uuid → Bool)
  | rmblclr (first second : SaveClock) (env : LoadEnv) (fails : Uuid → Bool)
  | clrAll (first second : SaveClock) (env : LoadEnv) (erased : Bool)
  | sync (start : Bool)
  | setMngState (input : PhaseInput)
  /-- whatever else the manager does with its state, its lists and its slots -/
  | manage (mng : Mng)

/-- The functions of the configuration and of the blacklisting that write a node. -/
def NodeWrite.Configures : NodeWrite → Prop
  | .uplNodesetAddr _ _ | .nodesRm _ => False
  | .nodesBl _ | .nodesetErrbits _ _ | .nodesetDone _ _ | .nodesetFunc _ _ => True

instance : (write : NodeWrite) → Decidable write.Configures
  | .uplNodesetAddr _ _ => isFalse id
  | .nodesRm _ => isFalse id
  | .nodesBl _ => isTrue trivial
  | .nodesetErrbits _ _ => isTrue trivial
  | .nodesetDone _ _ => isTrue trivial
  | .nodesetFunc _ _ => isTrue trivial

namespace DdbOp

/-- The NCP adds only devices that it does not have, before it reports them. -/
def Possible (source : DdbState) : DdbOp → Prop
  | .provisioned uuid addr => source.ddb.CanAdd uuid addr
  | .failed uuid _ added =>
      source.ddb.has uuid = false ∧ ∀ addr ∈ added, source.ddb.CanAdd uuid addr
  | .write call => call.write.Configures
  | _ => True

instance (source : DdbState) : (op : DdbOp) → Decidable (op.Possible source)
  | .provisioned uuid addr => inferInstanceAs (Decidable (source.ddb.CanAdd uuid addr))
  | .failed uuid _ added =>
      inferInstanceAs (Decidable (source.ddb.has uuid = false ∧
        ∀ addr ∈ added, source.ddb.CanAdd uuid addr))
  | .write call => inferInstanceAs (Decidable call.write.Configures)
  | .report _ _ => isTrue trivial
  | .removed _ _ _ => isTrue trivial
  | .loadLists _ => isTrue trivial
  | .load _ _ _ _ => isTrue trivial
  | .beacon _ _ => isTrue trivial
  | .rmall _ _ _ _ => isTrue trivial
  | .rmblclr _ _ _ _ => isTrue trivial
  | .clrAll _ _ _ _ => isTrue trivial
  | .sync _ => isTrue trivial
  | .setMngState _ => isTrue trivial
  | .manage _ => isTrue trivial

def run (source : DdbState) : DdbOp → Except Abort DdbState
  | .provisioned uuid addr =>
      .ok { source with
        ddb := source.ddb ++ [(uuid, addr)]
        reports := source.reports ++ [.provisioned uuid addr] }
  | .failed uuid reason added =>
      .ok { source with
        ddb := source.ddb ++ added.toList.map fun addr => (uuid, addr)
        reports := source.reports ++ [.failed uuid reason] }
  | .report input fails => source.report input fails
  | .write call => do
      let nodes ← call.run source.nodes
      .ok (source.setNodes nodes)
  | .removed input fails record => source.removed input fails record
  | .loadLists fails => .ok (source.loadLists fails)
  | .load env force clock fails => do
      let (_, target) ← source.load env force clock fails
      .ok target
  | .beacon clock uuid => source.beacon clock uuid
  | .rmall first second env fails => source.rmall first second env fails
  | .rmblclr first second env fails => source.rmblclr first second env fails
  | .clrAll first second env erased => source.clrAll first second env erased
  | .sync start =>
      .ok { source with host := { source.host with mng := clicbSync start source.host.mng } }
  | .setMngState input =>
      .ok { source with host :=
        { source.host with mng := Nwmng.setMngState input source.host.mng } }
  | .manage mng =>
      .ok { source with host :=
        { source.host with mng := mng.setDb source.host.mng.db } }

def Step (source : DdbState) (op : DdbOp) (target : DdbState) : Prop :=
  op.Possible source ∧ op.run source = .ok target

end DdbOp

abbrev DdbRun := Execution DdbOp.Step

/-! ## The records -/

/-- A write to the file leaves the records. -/
theorem db_writeField {state after : NodesState} {input : WriteInput} {uuid : Uuid}
    {field : NodeField} (done : state.writeField input uuid field = .ok after) :
    after.db = state.db := by
  unfold NodesState.writeField at done
  cases held : state.nw.tree with
  | none =>
      rw [held] at done
      cases done
      rfl
  | some tree =>
      rw [held] at done
      obtain ⟨⟨nw, file⟩, _, result⟩ := bind_ok.mp done
      cases result
      rfl

/-- What a function that finds a node does to the records. -/
theorem db_onNode {state after : NodesState} {input : WriteInput} {addr : UInt16}
    {change : CfgDb → Except Abort CfgDb} {field : Node → NodeField}
    (done : state.onNode input addr change field = .ok after) :
    change state.db = .ok after.db := by
  unfold NodesState.onNode at done
  cases found : state.db.cfgdbNodeGet addr with
  | none =>
      rw [found] at done
      cases done
  | some record =>
      rw [found] at done
      obtain ⟨db, changed, written⟩ := bind_ok.mp done
      rw [changed]
      exact congrArg Except.ok (db_writeField written).symm

/-- The records after a removal, and what is deleted from the database of the NCP. -/
theorem db_removed {state target : DdbState} {input : DdbState.RemovedInput}
    {fails : Uuid → Bool} {record : NodeId}
    (done : state.removed input fails record = .ok target) :
    ∃ first second third, let addr := (state.nodes.db.heap record).addr
      state.nodes.db.nodesetErrbits addr 0 = .ok first ∧
        first.nodesetDone addr 0 = .ok second ∧ second.nodesetFunc addr 0 = .ok third ∧
          third.nodesRm addr = .ok target.nodes.db ∧
            target.ddb = state.ddb.delete fails (target.nodes.db.heap record).uuid := by
  obtain ⟨first, errbits, done⟩ := bind_ok.mp done
  obtain ⟨second, isDone, done⟩ := bind_ok.mp done
  obtain ⟨third, func, done⟩ := bind_ok.mp done
  obtain ⟨last, removes, result⟩ := bind_ok.mp done
  cases result
  exact ⟨first.db, second.db, third.db, db_onNode errbits, db_onNode isDone, db_onNode func,
    db_onNode removes, rfl⟩

/-- `rmend_entry`, without an error of the slot, does to the records what the removal does,
and deletes the same device. -/
theorem rmendEntry_removed {guard : Option GuardFn} {slot : Slot} {answer : CmdRsp}
    {cache : ConfigCache} {host : Host} {outcome : Outcome} {state target : DdbState}
    {input : DdbState.RemovedInput} {fails : Uuid → Bool} {record : NodeId}
    (sameDb : host.db = state.nodes.db) (isNode : cache.node = some record)
    (fine : cache.failed = false)
    (entry : rmendEntry guard slot answer cache host = .ok outcome)
    (done : state.removed input fails record = .ok target) :
    outcome.host.db = target.nodes.db ∧
      outcome.host.log.head? = some (.ddbDelete (target.nodes.db.heap record).uuid) := by
  obtain ⟨first, second, third, errbits, isDone, func, removes, _⟩ := db_removed done
  rw [← sameDb] at errbits isDone func removes
  unfold rmendEntry Host.nodeOf at entry
  simp only [isNode, ok_bind, fine, Bool.false_eq_true, if_false, errbits, isDone, func,
    removes] at entry
  cases entry
  exact ⟨rfl, rfl⟩

end Nwmng
