/-
Module: Nwmng.Mng.Adding
Purpose: The adding of devices in a running manager: beacons, provisioning sessions and
their slots, the scan for beacons, and the commands and loop steps around them.
Trusted boundary: the NCP has one session for a device at a time, and gives a device an
address that no device of the file has
Main exports:
  AddState, ProvEvent, devAddHdr, addLoop, AddOp, AddRun
-/
import Nwmng.Mng.Commands

namespace Nwmng

open Json Fallible Transition

/-! ## The slots -/

namespace Mng

/-- `is_cache_full`. -/
def isCacheFull (mng : Mng) : Bool :=
  (List.finRange maxProvSessions).all fun id => (mng.add id).busy

/-- `iscached`: the busy slot of a device. -/
def iscached (mng : Mng) (uuid : Uuid) : Option (Fin maxProvSessions) :=
  (List.finRange maxProvSessions).find? fun id =>
    (mng.add id).busy && (mng.add id).uuid = uuid

/-- The first free slot that `iscached` passes. -/
def freeId (mng : Mng) : Option (Fin maxProvSessions) :=
  (List.finRange maxProvSessions).find? fun id => !(mng.add id).busy

/-- `rmcached`. -/
def rmcached (uuid : Uuid) (mng : Mng) : Mng :=
  { mng with add := fun id =>
      if (mng.add id).busy && (mng.add id).uuid = uuid then AddCache.zeroed else mng.add id }

/-- A session takes a slot. -/
def occupy (id : Fin maxProvSessions) (expired : Nat) (uuid : Uuid) (mng : Mng) : Mng :=
  let slot : AddCache := { busy := true, expired := expired, uuid := uuid }
  { mng with add := Function.update mng.add id slot }

/-- The loop of `add_loop` over the slots. -/
def clearExpired (now : Nat) (mng : Mng) : Mng :=
  { mng with add := fun id =>
      if (mng.add id).busy && (mng.add id).expired ≤ now then AddCache.zeroed
      else mng.add id }

/-- A slot is free. -/
def HasFree (mng : Mng) : Prop := ∃ id, (mng.add id).busy = false

instance (mng : Mng) : Decidable mng.HasFree := inferInstanceAs (Decidable (∃ _, _))

/-- A session expires when the loop looks at the slots. -/
def Expires (mng : Mng) (now : Nat) : Prop :=
  ∃ id, (mng.add id).busy = true ∧ (mng.add id).expired ≤ now

instance (mng : Mng) (now : Nat) : Decidable (mng.Expires now) :=
  inferInstanceAs (Decidable (∃ _, _))

end Mng

/-!
## The state

Sessions live in the NCP; the slots of the program are only what it believes of them.  A slot
that expires, and a report that nobody listens to, take the two apart, so the model has both.
-/

/-- `gecko_cmd_mesh_prov_provision_device`, with its network key. -/
structure ProvRequest where
  netkey : UInt16
  uuid : Uuid
deriving Repr, DecidableEq

/-- The host, `scan_need_recover`, whether the last command about the scan started it, the
requests to the NCP, newest first, and the devices that the NCP has a session with.  The
last field notes that a device may be missing from the list of devices to add, since the
lists were loaded. -/
structure AddState where
  host : NodesHost
  scanNeedRecover : Bool
  scanning : Bool
  requests : List ProvRequest
  sessions : List Uuid
  cut : Bool

/-- An event of the class that `is_add_events` selects.  A beacon comes with its bearer, the
answer to a request that it may cause, and the clocks. -/
inductive ProvEvent where
  | beacon (uuid : Uuid) (gatt : Bool) (result : UInt16) (now : Nat) (clock : SaveClock)
  | provisioned (uuid : Uuid) (addr : UInt16) (input : WriteInput)
  | failed (uuid : Uuid) (reason : UInt8)

namespace AddState

def mng (state : AddState) : Mng := state.host.mng

def nodes (state : AddState) : NodesState := state.host.nodes

def setMng (state : AddState) (mng : Mng) : AddState :=
  { state with host := { state.host with mng := mng } }

/-- `dev_add_hdr` looks at the events.  Outside the adding phase and the free mode it drops
whatever the NCP reports. -/
def Listening (state : AddState) : Prop :=
  state.mng.state = .addingDevicesEm ∨ state.mng.freeMode = 2

instance (state : AddState) : Decidable state.Listening :=
  inferInstanceAs (Decidable (_ ∨ _))

/-- `OOM_DELAY_TIMEOUT` and `ADD_NO_RSP_TIMEOUT`. -/
def oomDelayTimeout : Nat := 5
def addNoRspTimeout : Nat := 90

/-- `gecko_cmd_mesh_prov_stop_scan_unprov_beacons`, to be taken back. -/
def stopScan (state : AddState) : AddState :=
  { state with scanNeedRecover := true, scanning := false }

/-- `gecko_cmd_mesh_prov_scan_unprov_beacons`, if the scan was stopped to be recovered. -/
def recoverScan (state : AddState) : AddState :=
  if state.scanNeedRecover then { state with scanNeedRecover := false, scanning := true }
  else state

/-- The command of `on_beacon_recv`, and what follows from its result. -/
def provisionDevice (netkey : UInt16) (id : Fin maxProvSessions) (uuid : Uuid)
    (result : UInt16) (now : Nat) (state : AddState) : AddState :=
  let state := { state with requests := { netkey := netkey, uuid := uuid } :: state.requests }
  if result = bgErrOutOfMemory then
    let state := state.setMng
      { state.mng with oom := true, oomExpired := now + oomDelayTimeout }
    if state.scanNeedRecover then state else state.stopScan
  else if result ≠ bgErrSuccess then state
  else
    let state := { state.setMng (state.mng.occupy id (now + addNoRspTimeout) uuid) with
      sessions := state.sessions ++ [uuid] }
    if state.mng.isCacheFull then state.stopScan else state

/-- `on_beacon_recv`: a device that the file does not know is put into the backlog, in the free
mode only; one that it knows is provisioned if a slot is free and nothing marks it. -/
def onBeaconRecv (uuid : Uuid) (gatt : Bool) (result : UInt16) (now : Nat)
    (clock : SaveClock) (state : AddState) : Except Abort AddState :=
  if gatt then .ok state
  else if (state.mng.iscached uuid).isSome then .ok state
  else
    match state.mng.freeId with
    | none => .ok state
    | some id =>
        match state.mng.db.cfgdbUnprovDevGet uuid with
        | none =>
            if state.mng.db.cfgdbBacklogGet uuid = none ∧ state.mng.freeMode = 2 then do
              let nodes ← state.nodes.backlogDev clock uuid
              .ok { state with host := state.host.setNodes nodes }
            else .ok state
        | some record =>
            if (state.mng.db.heap record).rmorbl ≠ 0 then .ok state
            else
              match state.mng.cfg.subnets with
              | [] => .error .outOfBounds
              | subnet :: _ =>
                  .ok (state.provisionDevice subnet.netkey.id id uuid result now)

/-- `on_prov_success`: the address is written to the entry and to the record, the device goes to
the list of the configuration, and its slot is freed. -/
def onProvSuccess (input : WriteInput) (uuid : Uuid) (addr : UInt16) (state : AddState) :
    Except Abort AddState := do
  let nodes ← state.nodes.writeField input uuid (.addr addr)
  let engine ← state.mng.engine.onProvSuccess uuid addr
  let mng := { state.mng with engine := engine }.rmcached uuid
  .ok { state with host := { mng := mng, nw := nodes.nw, file := nodes.file } }.recoverScan

/-- `prov_failed_wa`, as far as the host goes. -/
def provFailedWa (uuid : Uuid) (state : AddState) : AddState :=
  let lists := state.mng.lists
  match state.mng.db.cfgdbUnprovDevGet uuid with
  | some record =>
      { state.setMng (state.mng.setLists { lists with add := lists.add.erase record }) with
        cut := true }
  | none => state

/-- `on_prov_failed`: for reason 7, the slot is not given back. -/
def onProvFailed (uuid : Uuid) (reason : UInt8) (state : AddState) : AddState :=
  if reason = 7 then state.provFailedWa uuid
  else (state.setMng ((state.mng.measure (·.addFailed)).rmcached uuid)).recoverScan

/-- The NCP ends its session before it reports how it went. -/
def endSession (uuid : Uuid) (state : AddState) : AddState :=
  { state with sessions := state.sessions.erase uuid }

/-- `dev_add_hdr`: nothing is done about an event outside the adding phase and the free mode, but
the session of the NCP has ended all the same. -/
def devAddHdr (event : ProvEvent) (state : AddState) : Except Abort AddState :=
  match event with
  | .beacon uuid gatt result now clock =>
      if state.Listening ∧ state.mng.oom = false then
        state.onBeaconRecv uuid gatt result now clock
      else .ok state
  | .provisioned uuid addr input =>
      if state.Listening then (state.endSession uuid).onProvSuccess input uuid addr
      else .ok (state.endSession uuid)
  | .failed uuid reason =>
      if state.Listening then .ok ((state.endSession uuid).onProvFailed uuid reason)
      else .ok (state.endSession uuid)

/-- `add_loop`: the back-off ends first, then expired sessions give up their slots. -/
def addLoop (now : Nat) (state : AddState) : AddState :=
  let state :=
    if state.mng.oom = true ∧ state.mng.oomExpired < now then
      (state.setMng { state.mng with oom := false }).recoverScan
    else state
  state.setMng (state.mng.clearExpired now)

/-- The manager changes `free_mode` by `clm_set_scan`, which sends a command to the NCP when
the scan goes on or off. -/
def followScan (state : AddState) (mng : Mng) : AddState :=
  { state.setMng mng with
    scanning :=
      if state.mng.freeMode = 0 ∧ mng.freeMode ≠ 0 then true
      else if state.mng.freeMode ≠ 0 ∧ mng.freeMode = 0 then false
      else state.scanning }

/-- The main loop in the state `starting`. -/
def starting (input : FileInput) (state : AddState) : Except Abort AddState := do
  let (loaded, host) ← startSync input state.host
  .ok { state with host := host, cut := state.cut && !loaded }

/-- `clicb_sync`, which empties the lists when it stops a synchronization. -/
def clicbSync (start : Bool) (state : AddState) : AddState :=
  { state.setMng (Nwmng.clicbSync start state.mng) with cut := state.cut || !start }

/-- A node that is taken out of the network while nothing marks it becomes a device that can
be added, and that is on no list. -/
def unlists (state : AddState) (call : NodeCall) : Bool :=
  match call.write with
  | .nodesRm addr | .nodesBl addr =>
      match state.mng.db.cfgdbNodeGet addr with
      | some record => (state.mng.db.heap record).rmorbl = 0
      | none => false
  | _ => false

/-- The network was configured, and nothing has been done since.  The list counts as cut, since
no synchronization has made it yet. -/
structure Idle (state : AddState) : Prop where
  configured : state.mng.state = .configured
  freeMode : state.mng.freeMode = 0
  oom : state.mng.oom = false
  slots : ∀ id, (state.mng.add id).busy = false
  scanning : state.scanning = false
  sessions : state.sessions = []
  cut : state.cut = true

end AddState

/-!
## The steps

The steps are those of the NCP, of the user and of the main loop, in any order.  What the NCP can
do depends on its sessions, what the main loop does on the state of the manager.
-/

/-- The steps of the NCP, of the user, and of the main loop.  The user may type a command between
any two of them. -/
inductive AddOp where
  | event (news : ProvEvent)
  | sync (start : Bool)
  | freemode (on : Bool) (result : UInt16)
  | seqset (seq : List Char)
  | rmall (input : FileInput)
  | rmblclr (input : FileInput)
  /-- the main loop in the state `starting` -/
  | starting (input : FileInput)
  | addLoop (now : Nat)
  /-- a write of the configuration, the removal or the blacklisting -/
  | write (call : NodeCall)
  | setMngState (input : PhaseInput)
  /-- whatever else the manager does -/
  | work (mng : Mng)

/-- Everything that the adding of devices works with is as before.  It is what the loops of the
configuration and of the blacklisting leave, whatever they do to their own lists. -/
structure AddFrame (before after : Mng) : Prop where
  state : after.state = before.state
  db : after.db = before.db
  list : after.lists.add = before.lists.add
  slots : after.add = before.add
  freeMode : after.freeMode = before.freeMode
  oom : after.oom = before.oom
  oomExpired : after.oomExpired = before.oomExpired

namespace AddOp

/-- What the NCP and the main loop can do. -/
def Possible (source : AddState) : AddOp → Prop
  | .event (.beacon uuid _ result _ _) => result = bgErrSuccess → uuid ∉ source.sessions
  | .event (.provisioned uuid addr _) =>
      uuid ∈ source.sessions ∧ addr ≠ 0 ∧
        ∀ entry ∈ source.host.file.entries, ¬ EntryAddr entry addr
  | .event (.failed uuid _) => uuid ∈ source.sessions
  | .starting _ => source.mng.state = .starting
  | .addLoop _ => source.mng.state = .addingDevicesEm
  | .write call => ∀ uuid addr, call.write ≠ .uplNodesetAddr uuid addr
  | .work mng => AddFrame source.mng mng
  | _ => True

def run (source : AddState) : AddOp → Except Abort AddState
  | .event news => source.devAddHdr news
  | .sync start => .ok (source.clicbSync start)
  | .freemode on result => .ok (source.followScan (clicbFreemode on result source.mng))
  | .seqset seq => .ok (source.setMng (clicbSeqset seq source.mng))
  | .rmall input => do
      let host ← clicbRmall input source.host
      .ok { source with host := host }
  | .rmblclr input => do
      let host ← clicbRmblclr input source.host
      .ok { source with host := host }
  | .starting input => source.starting input
  | .addLoop now => .ok (source.addLoop now)
  | .write call => do
      let nodes ← call.run source.nodes
      .ok { source with
        host := source.host.setNodes nodes, cut := source.cut || source.unlists call }
  | .setMngState input => .ok (source.followScan (Nwmng.setMngState input source.mng))
  | .work mng => .ok (source.setMng mng)

def Step (source : AddState) (op : AddOp) (target : AddState) : Prop :=
  op.Possible source ∧ op.run source = .ok target

end AddOp

abbrev AddRun := Execution AddOp.Step

end Nwmng
