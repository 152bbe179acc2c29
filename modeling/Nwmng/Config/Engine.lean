/-
Module: Nwmng.Config.Engine
Purpose: The configuration engine: loading nodes into slots, the rounds over the
occupied slots, the handling of configuration client events, and the nodes that join.
Trusted boundary: none
Main exports:
  MngState, Lists, Engine, cachesLoad, toNextState, engineSlot, configEngine,
  accPrepare, accLoop, devConfigHdr, Engine.onProvSuccess
-/
import Nwmng.Config.States

namespace Nwmng

/-- `mng_state_t`. -/
inductive MngState where
  | nil
  | initialized
  | configured
  | starting
  | addingDevicesEm
  | configuringDevicesEm
  | removingDevicesEm
  | blacklistingDevicesEm
  | stopping
  | stateReload
deriving Repr, DecidableEq, Inhabited

/-- The work lists of the manager.  A node that waits is in the list of the phase that will take
it up; `fail` collects those whose configuration or removal failed. -/
structure Lists where
  add : List NodeId
  config : List NodeId
  bl : List NodeId
  rm : List NodeId
  fail : List NodeId
deriving Repr, DecidableEq, Inhabited

/-- What the engine works on: the slots, the work lists, the state of the manager
and the data shared with the callbacks. -/
structure Engine where
  host : Host
  state : MngState
  used : BitVec 32
  cache : Slot → ConfigCache
  lists : Lists

namespace Engine

/-- The bit of a slot in the map of used slots. -/
def occupied (engine : Engine) (slot : Slot) : Bool :=
  engine.used.getLsbD slot.val

def setCache (engine : Engine) (slot : Slot) (cache : ConfigCache) : Engine :=
  { engine with cache := Function.update engine.cache slot cache }

end Engine

/-! ## Loading slots -/

inductive LoadType where
  | typeConfig
  | typeRm
deriving Repr, DecidableEq

/-- `__cache_item_load`.  Fields that are not named keep their values. -/
def cacheItemLoad (engine : Engine) (slot : Slot) (node : NodeId) (type : LoadType) :
    Engine :=
  let cache := engine.cache slot
  let cache :=
    match type with
    | .typeConfig =>
        { cache with
          node := some node, state := .provisionedEm, nextState := some .getDcdEm }
    | .typeRm =>
        { cache with node := some node, state := .endEm, nextState := some .rmEm }
  { engine.setCache slot cache with used := bitSet engine.used slot.val }

/-- The list nodes are loaded from. -/
def Lists.pending (lists : Lists) : LoadType → List NodeId
  | .typeConfig => lists.config
  | .typeRm => lists.rm

def Lists.setPending (lists : Lists) (rest : List NodeId) : LoadType → Lists
  | .typeConfig => { lists with config := rest }
  | .typeRm => { lists with rm := rest }

/-- The loop of `__caches_load`: from the head of the list, while there is a slot. -/
def loadSlots (type : LoadType) : List NodeId → Engine → Engine
  | [], engine => engine
  | node :: rest, engine =>
      let slot := utilsFrz engine.used
      if free : slot < maxConcurrentConfigNodes then
        let engine := cacheItemLoad engine ⟨slot, free⟩ node type
        loadSlots type rest
          { engine with lists := engine.lists.setPending rest type }
      else engine

/-- `__caches_load`: as many nodes of the list as there are free slots.  The test by the number
of used slots only saves the search. -/
def cachesLoad (engine : Engine) (type : LoadType) : Engine :=
  if utilsPopcount engine.used = maxConcurrentConfigNodes then engine
  else loadSlots type (engine.lists.pending type) engine

/-!
## Changing the state of a slot

A slot leaves its state for the first later one whose guard is open.  The entry may be refused by
the NCP; then the slot goes on to a final state in the same round, with the error set.
-/

/-- The states to try when a slot leaves its state: from the one it names on, or
from the one behind its own.  Both uses of the own state need it to exist. -/
def leaveTargets (cache : ConfigCache) : Except Abort (List AccStateOps) :=
  let following : Except Abort (List AccStateOps) :=
    match asGet cache.state with
    | [] => .error .stateMissing
    | _ :: rest => .ok rest
  match cache.nextState with
  | none => following
  | some next =>
      match asGet next with
      | [] => following
      | found => .ok found

/-- The entry loop of `to_next_state`.  A state whose entry fails is answered with
the entry of the end state, which always succeeds. -/
def enterStates (slot : Slot) (answer : CmdRsp) :
    List AccStateOps → ConfigCache → Host → Except Abort (Bool × ConfigCache × Host)
  | [], cache, host => .ok (false, cache, host)
  | ops :: rest, cache, host => do
      let out ← ops.entry ops.guard slot answer cache host
      match out.ret with
      | .suc | .oom =>
          .ok (true, { out.cache with state := ops.state, nextState := some ops.state },
            out.host)
      | .tonext => enterStates slot answer rest out.cache out.host
      | _ => do
          let out ← asEnd.entry asEnd.guard slot answer out.cache out.host
          .ok (true, { out.cache with state := .endEm, nextState := some .endEm },
            out.host)

/-- `to_next_state`: the states behind the present one are entered in their order, until one of
them is not skipped. -/
def toNextState (slot : Slot) (answer : CmdRsp) (cache : ConfigCache) (host : Host) :
    Except Abort (Bool × ConfigCache × Host) := do
  let targets ← leaveTargets cache
  enterStates slot answer targets cache host

/-!
## Rounds

`config_engine` gives every used slot one round: a resend if there is something to send again,
then a change of state if the slot has to leave, then the release of a slot that has ended.
-/

/-- What the outside contributes to the round of one slot: the time, and the
answers to the commands the round may send. -/
structure RoundInput where
  now : Nat
  retry : CmdRsp
  entry : CmdRsp
deriving Repr, DecidableEq, Inhabited

/-- `stat_rm_retry` or `stat_config_retry`, by the state of the manager. -/
def countRetry (state : MngState) (host : Host) : Host :=
  if state = .removingDevicesEm then { host with stat := host.stat.rmRetry }
  else { host with stat := host.stat.configRetry }

/-- The guard timer is armed and has expired. -/
def ConfigCache.guardExpired (cache : ConfigCache) (now : Nat) : Bool :=
  cache.expired != 0 && decide (cache.expired < now)

/-- The first half of a round: resend after an expired guard timer, or after the
NCP was out of memory. -/
def retryException (state : MngState) (slot : Slot) (input : RoundInput)
    (cache : ConfigCache) (host : Host) : Except Abort (ConfigCache × Host) :=
  match asGet cache.state with
  | [] =>
      if cache.guardExpired input.now || cache.oom then .error .stateMissing
      else .ok (cache, host)
  | ops :: _ =>
      match ops.retry with
      | none => .ok (cache, host)
      | some retry =>
          if cache.guardExpired input.now then do
            let out ← retry .onGuardTimerExpiredEm slot input.retry cache host
            .ok (out.cache, countRetry state out.host)
          else if cache.oom then
            if cache.waitResponse then .error .waitingWhileOom
            else do
              let out ← retry .onOomEm slot input.retry cache host
              .ok (out.cache, countRetry state out.host)
          else .ok (cache, host)

/-- The slot stays in its state. -/
def ConfigCache.stays (cache : ConfigCache) : Bool :=
  cache.waitResponse || cache.nextState == some cache.state

/-- The slot has reached one of the final states. -/
def ConfigCache.ended (cache : ConfigCache) : Bool :=
  cache.state == .endEm || cache.state == .rmendEm

/-- Free a slot that has ended; a node that failed goes to the fail list. -/
def releaseSlot (engine : Engine) (slot : Slot) (cache : ConfigCache) : Engine :=
  let fail :=
    if cache.failed then engine.lists.fail ++ cache.node.toList else engine.lists.fail
  { engine.setCache slot .reset with
    host := engine.host.record (.released slot)
    used := bitClr engine.used slot.val
    lists := { engine.lists with fail := fail } }

/-- The round of one slot in `config_engine`. -/
def engineSlot (input : RoundInput) (engine : Engine) (slot : Slot) :
    Except Abort Engine := do
  let (cache, host) ←
    retryException engine.state slot input (engine.cache slot) engine.host
  if cache.stays then
    .ok ({ engine with host := host }.setCache slot cache)
  else
    let (_, cache, host) ← toNextState slot input.entry cache host
    let engine := { engine with host := host }
    if cache.ended then .ok (releaseSlot engine slot cache)
    else .ok (engine.setCache slot cache)

/-- The slots of a map of used slots, lowest first. -/
def usedSlots (used : BitVec 32) : List Slot :=
  (List.finRange maxConcurrentConfigNodes).filter fun slot => used.getLsbD slot.val

/-- `config_engine`, over the map of used slots it starts with. -/
def configEngine (input : Slot → RoundInput) (engine : Engine) :
    Except Abort Engine := do
  let after ← (usedSlots engine.used).foldlM
    (fun engine slot => engineSlot (input slot) engine slot) engine
  if engine.used >>> maxConcurrentConfigNodes = 0 then .ok after
  else .error .slotRange

/-- The part of `acc_loop` before the engine runs: load slots and begin to measure.
`none` in the states in which there is nothing to configure or remove. -/
def accPrepare (now : Nat) (engine : Engine) : Option Engine :=
  match engine.state with
  | .removingDevicesEm =>
      let engine := cachesLoad engine .typeRm
      some { engine with
        host := { engine.host with stat := engine.host.stat.rmStart now } }
  | .addingDevicesEm | .configuringDevicesEm =>
      let engine := cachesLoad engine .typeConfig
      let full := utilsPopcount engine.used == maxConcurrentConfigNodes
      let stat := (engine.host.stat.configStart now).configLoadingRecord full now
      some { engine with host := { engine.host with stat := stat } }
  | _ => none

/-- `acc_loop`: slots are loaded according to the state of the manager, and each occupied slot is
given its round. -/
def accLoop (now : Nat) (input : Slot → RoundInput) (engine : Engine) :
    Except Abort Engine :=
  match accPrepare now engine with
  | some prepared => configEngine input prepared
  | none => .ok engine

/-! ## Events -/

/-- The answers to the commands an event may make the program send. -/
structure EventInput where
  inprg : CmdRsp
  retry : CmdRsp
deriving Repr, DecidableEq, Inhabited

/-- The handle of an event; the source stops at events it has no case for. -/
def ConfigEvent.handle? : ConfigEvent → Option UInt32
  | .dcdData handle _ _ _ => some handle
  | .dcdDataEnd handle _ => some handle
  | .status _ handle _ => some handle
  | .other _ => none

/-- `cache_from_cchandle`: the first used slot that stores the handle. -/
def cacheFromCchandle (engine : Engine) (event : ConfigEvent) : Except Abort Slot :=
  match event.handle? with
  | none => .error .eventUnknown
  | some handle =>
      match (usedSlots engine.used).find? fun slot =>
        (engine.cache slot).node.isSome && (engine.cache slot).ccHandle == handle with
      | some slot => .ok slot
      | none =>
          if engine.used >>> maxConcurrentConfigNodes = 0 then .error .eventUnclaimed
          else .error .slotRange

/-- The first half of the event handling: a slot that waits takes the event. -/
def eventInprg (slot : Slot) (event : ConfigEvent) (input : EventInput)
    (ops : AccStateOps) (cache : ConfigCache) (host : Host) : Except Abort Outcome :=
  match ops.inprg with
  | some inprg =>
      if cache.waitResponse then inprg slot event input.inprg cache host
      else .ok { ret := .suc, cache := cache, host := host }
  | none => .ok { ret := .suc, cache := cache, host := host }

/-- The second half: the retry that a timeout event drives. -/
def eventRetry (state : MngState) (slot : Slot) (input : EventInput)
    (ops : AccStateOps) (out : Outcome) : Except Abort (ConfigCache × Host) :=
  match ops.retry with
  | some retry =>
      if out.ret = .suc && !out.cache.waitResponse && out.cache.everRetried then do
        let out ← retry .onTimeoutEm slot input.retry out.cache out.host
        .ok (out.cache, countRetry state out.host)
      else .ok (out.cache, out.host)
  | none => .ok (out.cache, out.host)

/-- `dev_config_hdr`, on an event of the configuration client class. -/
def devConfigHdr (event : ConfigEvent) (input : EventInput) (engine : Engine) :
    Except Abort Engine := do
  let slot ← cacheFromCchandle engine event
  match asGet (engine.cache slot).state with
  | [] => .error .stateMissing
  | ops :: _ => do
      let out ← eventInprg slot event input ops (engine.cache slot) engine.host
      let (cache, host) ← eventRetry engine.state slot input ops out
      .ok ({ engine with host := host }.setCache slot cache)

/-! ## Devices that join

The engine gets its nodes from the provisioner: what a report of success does to the
database, the lists and the statistics. -/

/-- `on_prov_success`, as far as the database, the lists and the statistics go: the
device gets its address and moves from the list of devices to add to the list of
nodes to configure. -/
def Engine.onProvSuccess (uuid : Uuid) (addr : UInt16) (engine : Engine) :
    Except Abort Engine := do
  let db ← engine.host.db.uplNodesetAddr uuid addr
  match db.cfgdbNodeGet addr with
  | some record =>
      let host := { engine.host with db := db, stat := engine.host.stat.addOneDev }
      .ok { engine with
        host := host.record (.addressed uuid addr)
        lists := { engine.lists with
          add := engine.lists.add.erase record
          config := engine.lists.config ++ [record] } }
  | none => .error .recordMissing

end Nwmng
