/-
Module: Nwmng.Mng.Manager
Purpose: The manager of a synchronization: its state, the loading of the work
lists, and the function that moves it from phase to phase.
Trusted boundary: none
Main exports:
  Prio, SeqPrio, BlCache, BlEffect, AddCache, Mng, mngLoadLists, clmSetScan, setMngState,
  clicbSync, clicbSeqset, clicbFreemode
-/
import Nwmng.Config.Engine

namespace Nwmng

/-! ## The state of the manager -/

/-- A character of the priority string. -/
inductive Prio where
  | a
  | r
  | b
  | stop
deriving Repr, DecidableEq, Inhabited

/-- `seqprio_t`: three priorities, and the place of the next one to try.  The characters are
those that `seqset` accepts, so a string with other characters cannot be built. -/
structure SeqPrio where
  offs : Nat
  prios : Vector Prio 3
deriving Repr, DecidableEq

/-- `DEFAULT_SEQ_PRIO`. -/
def defaultSeqPrio : Vector Prio 3 := #v[.a, .r, .b]

/-- The states of the blacklisting.  A batch is pushed in `prepare`, refreshed in `busy`, and
recorded in `done`. -/
inductive BlState where
  | idle
  | prepare
  | starting
  | busy
  | done
deriving Repr, DecidableEq, Inhabited

/-- `bl_cache_t`.  The nodes that remain in the network come with the phase of the
key refresh that they have reached. -/
structure BlCache where
  state : BlState
  offset : Nat
  tail : Nat
  rem : Option (List (NodeId × UInt8))
deriving Repr, DecidableEq

def BlCache.zeroed : BlCache := { state := .idle, offset := 0, tail := 0, rem := none }

/-- What is worth remembering of the blacklisting: when it began, the nodes pushed to
the stack, and the key refreshes that were started and completed. -/
inductive BlEffect where
  | began
  | pushed (record : NodeId)
  | started
  | completed (result : UInt16)
deriving Repr, DecidableEq

/-- `MAX_PROV_SESSIONS`. -/
def maxProvSessions : Nat := 2

structure AddCache where
  busy : Bool
  expired : Nat
  uuid : Uuid
deriving Repr, DecidableEq

def AddCache.zeroed : AddCache :=
  { busy := false, expired := 0, uuid := Vector.replicate 16 0 }

/-- `mng_t`, as far as the synchronization goes.  The slots, the lists, the state and
the shared data are those of the engine.  The history of the blacklisting holds the
newest effect first. -/
structure Mng where
  engine : Engine
  bl : BlCache
  add : Fin maxProvSessions → AddCache
  freeMode : Nat
  oom : Bool
  oomExpired : Nat
  seq : SeqPrio
  history : List BlEffect

namespace Mng

/-- A manager around an engine; everything else is as `mng_init` leaves it. -/
def around (engine : Engine) : Mng where
  engine := engine
  bl := BlCache.zeroed
  add := fun _ => AddCache.zeroed
  freeMode := 0
  oom := false
  oomExpired := 0
  seq := { offs := 0, prios := defaultSeqPrio }
  history := []

def state (mng : Mng) : MngState := mng.engine.state

def lists (mng : Mng) : Lists := mng.engine.lists

def db (mng : Mng) : CfgDb := mng.engine.host.db

def cfg (mng : Mng) : ProvCfg := mng.engine.host.cfg

def setState (mng : Mng) (state : MngState) : Mng :=
  { mng with engine := { mng.engine with state := state } }

def setLists (mng : Mng) (lists : Lists) : Mng :=
  { mng with engine := { mng.engine with lists := lists } }

def setDb (mng : Mng) (db : CfgDb) : Mng :=
  { mng with engine := { mng.engine with host := { mng.engine.host with db := db } } }

def setCfg (mng : Mng) (cfg : ProvCfg) : Mng :=
  { mng with engine := { mng.engine with host := { mng.engine.host with cfg := cfg } } }

/-- Remember an effect of the blacklisting. -/
def remember (mng : Mng) (effect : BlEffect) : Mng :=
  { mng with history := effect :: mng.history }

/-- Change the statistics. -/
def measure (mng : Mng) (change : Stat → Stat) : Mng :=
  { mng with engine := { mng.engine with
      host := { mng.engine.host with stat := change mng.engine.host.stat } } }

end Mng

/-!
## Loading the lists

Each record goes to one list at most.  The tests are made in the order of the source, and a
record that is found to be stale ends the traversal of its tree.
-/

/-- `BL_BITMASK` and `RM_BITMASK`. -/
def blBitmask : UInt8 := 0x01
def rmBitmask : UInt8 := 0x10

def Lists.empty : Lists := { add := [], config := [], bl := [], rm := [], fail := [] }

/-- `load_lists`, for a record that has no address. -/
def loadUnprov (db : CfgDb) (record : NodeId) (lists : Lists) : Lists :=
  if (db.heap record).rmorbl = 0 then { lists with add := lists.add ++ [record] }
  else lists

/-- `load_lists`, for a record with an address: blacklist before remove before
configure.  `LPN_BITOFS` is used as a mask. -/
def loadNodeLists (db : CfgDb) (record : NodeId) (lists : Lists) : Lists :=
  let node := db.heap record
  if node.rmorbl &&& blBitmask != 0 then { lists with bl := lists.bl ++ [record] }
  else if node.rmorbl &&& rmBitmask != 0 then
    if node.config.features.target &&& 3#16 != 0 then
      { lists with rm := record :: lists.rm }
    else { lists with rm := lists.rm ++ [record] }
  else if node.done = 0 then { lists with config := lists.config ++ [record] }
  else lists

/-- One tree of `cfg_load_mnglists`.  The traversal of a tree stops at a record with an
address that the device database of the NCP does not hold. -/
def loadLists (inDdb : Uuid → Bool) (db : CfgDb) : List NodeId → Lists → Lists
  | [], lists => lists
  | record :: rest, lists =>
      let node := db.heap record
      if node.addr = 0 then loadLists inDdb db rest (loadUnprov db record lists)
      else if inDdb node.uuid then
        loadLists inDdb db rest (loadNodeLists db record lists)
      else lists

/-- `mng_load_lists`: the unprovisioned devices first, then the nodes. -/
def mngLoadLists (inDdb : Uuid → Bool) (mng : Mng) : Mng :=
  match mng.state with
  | .nil | .initialized => mng
  | _ =>
      let db := mng.db
      let unprov := loadLists inDdb db db.unprovDevs.values Lists.empty
      mng.setLists (loadLists inDdb db db.nodes.values unprov)

/-!
## Phases

A change of phase looks at the lists of the phase it leaves, and then goes through the priorities
that are left for the first one with work.
-/

/-- `clm_set_scan`, given the result of the command to the NCP. -/
def clmSetScan (status : Nat) (result : UInt16) (mng : Mng) : Mng :=
  if mng.freeMode = status then mng
  else if (mng.freeMode = 0 ∧ status ≠ 0) ∨ (mng.freeMode ≠ 0 ∧ status = 0) then
    if result ≠ bgErrSuccess then mng else { mng with freeMode := status }
  else { mng with freeMode := status }

/-- What the NCP contributes to a change of phase: the results of stopping and
starting the scan. -/
structure PhaseInput where
  now : Nat
  stopScan : UInt16
  startScan : UInt16
deriving Repr, DecidableEq, Inhabited

/-- The end of a synchronization. -/
def finishSync (mng : Mng) : Mng :=
  { mng.setState .configured with seq := { mng.seq with offs := 0 } }

/-- The loop of `set_mng_state` over the priorities that are left. -/
def scanPhases (input : PhaseInput) : List Prio → Mng → Mng
  | [], mng => finishSync mng
  | prio :: rest, mng =>
      let next := { mng with seq := { mng.seq with offs := mng.seq.offs + 1 } }
      match prio with
      | .a =>
          if mng.lists.add ≠ [] then
            let scanning := if next.freeMode = 0 then clmSetScan 1 input.startScan next
              else next
            (scanning.measure (·.addStart input.now)).setState .addingDevicesEm
          else if mng.lists.config ≠ [] then next.setState .configuringDevicesEm
          else scanPhases input rest next
      | .r =>
          if mng.lists.rm = [] then scanPhases input rest next
          else next.setState .removingDevicesEm
      | .b =>
          if mng.lists.bl = [] then scanPhases input rest next
          else next.setState .blacklistingDevicesEm
      | .stop => finishSync mng

/-- The scan starts where the last one ended. -/
def nextPhase (input : PhaseInput) (mng : Mng) : Mng :=
  scanPhases input (mng.seq.prios.toList.drop mng.seq.offs) mng

/-- `set_mng_state`: a phase is left when its list is empty and its slots are idle. -/
def setMngState (input : PhaseInput) (mng : Mng) : Mng :=
  match mng.state with
  | .addingDevicesEm =>
      if mng.lists.add ≠ [] then mng
      else
        let mng := if mng.freeMode < 2 then clmSetScan 0 input.stopScan mng else mng
        let mng := mng.measure (·.addEnd input.now)
        if mng.lists.config ≠ [] ∨ mng.engine.used ≠ 0 then
          mng.setState .configuringDevicesEm
        else nextPhase input mng
  | .configuringDevicesEm =>
      if mng.lists.config ≠ [] ∨ mng.engine.used ≠ 0 then mng
      else nextPhase input (mng.measure (·.configEnd input.now))
  | .removingDevicesEm =>
      if mng.lists.rm ≠ [] ∨ mng.engine.used ≠ 0 then mng
      else nextPhase input (mng.measure (·.rmEnd input.now))
  | .blacklistingDevicesEm =>
      -- the list that is tested is the one of the nodes to remove
      if mng.lists.rm ≠ [] ∨ mng.bl.state ≠ .idle then mng
      else nextPhase input mng
  | .starting => nextPhase input { mng with seq := { mng.seq with offs := 0 } }
  | _ => mng

/-! ## Commands of the user -/

/-- `sync`: start a synchronization, or stop the one that is going on. -/
def clicbSync (start : Bool) (mng : Mng) : Mng :=
  match mng.state with
  | .nil | .initialized | .configured => if start then mng.setState .starting else mng
  | _ =>
      if start then mng
      else { mng.setLists Lists.empty with seq := { mng.seq with offs := 3 } }

/-- `seq_valid`, and the meaning of the characters it lets pass. -/
def Prio.ofChar : Char → Option Prio
  | 'a' => some .a
  | 'r' => some .r
  | 'b' => some .b
  | '-' => some .stop
  | _ => none

/-- The three priorities of a valid argument. -/
def seqValid (seq : List Char) : Option (Vector Prio 3) :=
  match seq.map Prio.ofChar with
  | [some first, some second, some third] => some #v[first, second, third]
  | _ => none

/-- The manager is idle enough for a command that changes what it works with. -/
def MngState.busy : MngState → Bool
  | .nil | .initialized | .configured => false
  | _ => true

/-- `seqset`. -/
def clicbSeqset (seq : List Char) (mng : Mng) : Mng :=
  if mng.state.busy then mng
  else
    match seqValid seq with
    | some prios => { mng with seq := { mng.seq with prios := prios } }
    | none => mng

/-- `freemode`. -/
def clicbFreemode (on : Bool) (result : UInt16) (mng : Mng) : Mng :=
  clmSetScan (if on then 2 else 0) result mng

end Nwmng
