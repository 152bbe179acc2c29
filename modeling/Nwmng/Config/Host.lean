/-
Module: Nwmng.Config.Host
Purpose: What the state callbacks share: the commands to the NCP and its answers
and events, and the data outside the slots that they read and write.
Trusted boundary: none
Main exports:
  Command, CmdRsp, ConfigEvent, Effect, Host, Outcome
-/
import Nwmng.Cfg.Moves
import Nwmng.Config.Slot
import Nwmng.Mng.Stat

namespace Nwmng

/-- `MAX_CONCURRENT_CONFIG_NODES`. -/
def maxConcurrentConfigNodes : Nat := 2

instance : @NeZero Nat Zero.ofOfNat0 maxConcurrentConfigNodes := ⟨Nat.succ_ne_zero 1⟩

/-- A position in the array of configuration slots. -/
abbrev Slot := Fin maxConcurrentConfigNodes

/-! ## Result codes of the NCP -/

def bgErrSuccess : UInt16 := 0
def bgErrOutOfMemory : UInt16 := 0x182
def bgErrTimeout : UInt16 := 0x185
def bgErrMeshNotInitialized : UInt16 := 0xC07
def bgErrMeshFoundationInsufficientResources : UInt16 := 0xE05

/-! ## Commands, answers and events -/

/-- The configuration client commands, with their parameters.  Each starts with
the network key and the address of the node. -/
inductive Command where
  | getDcd (netkey server : UInt16) (page : UInt8)
  | addAppkey (netkey server appkey appNetkey : UInt16)
  | bindModel (netkey server : UInt16) (element : UInt8) (appkey vendor model : UInt16)
  | setModelPub (netkey server : UInt16) (element : UInt8)
      (vendor model address appkey : UInt16) (credentials ttl : UInt8)
      (period : UInt32) (count : UInt8) (interval : UInt16)
  | setModelSub (netkey server : UInt16) (element : UInt8) (vendor model address : UInt16)
  | addModelSub (netkey server : UInt16) (element : UInt8) (vendor model address : UInt16)
  | setRelay (netkey server : UInt16) (on : Bool) (count : UInt8) (interval : UInt16)
  | setGattProxy (netkey server : UInt16) (on : Bool)
  | setFriend (netkey server : UInt16) (on : Bool)
  | setDefaultTtl (netkey server : UInt16) (ttl : UInt8)
  | setNetworkTransmit (netkey server : UInt16) (count : UInt8) (interval : UInt16)
  | setBeacon (netkey server : UInt16) (on : Bool)
  | resetNode (netkey server : UInt16)
deriving Repr, DecidableEq

/-- The answer to a command, with the time at which the command returned. -/
structure CmdRsp where
  result : UInt16
  handle : UInt32
  time : Nat
deriving Repr, DecidableEq, Inhabited

/-- The status events that carry no more than a handle and a result. -/
inductive StatusKind where
  | appkey
  | binding
  | modelPub
  | modelSub
  | relay
  | friend
  | gattProxy
  | defaultTtl
  | networkTransmit
  | reset
  | beacon
deriving Repr, DecidableEq

/-- The events of the configuration client class.  Each carries the handle of the command that it
answers, except for events that no case names. -/
inductive ConfigEvent where
  | dcdData (handle : UInt32) (page : UInt8) (data : Bytes.Memory) (len : UInt8)
  | dcdDataEnd (handle : UInt32) (result : UInt16)
  | status (kind : StatusKind) (handle : UInt32) (result : UInt16)
  /-- an event that no case of the source names -/
  | other (id : UInt32)

/-! ## Outside the slots -/

/-- What is worth remembering of a run: the commands sent with their answers, the
events that answer them later, the slots that are freed, the states run to
completion and the nodes found configured, both for a device under an address, and
the devices that receive or lose an address. -/
inductive Effect where
  | sent (slot : Slot) (command : Command) (answer : CmdRsp)
  | answered (handle : UInt32)
  | released (slot : Slot)
  | completed (uuid : Uuid) (addr : UInt16) (state : AccState)
  | configured (uuid : Uuid) (addr : UInt16) (config : MeshConfig)
  | addressed (uuid : Uuid) (addr : UInt16)
  | removed (uuid : Uuid) (addr : UInt16)
  | blacklisted (uuid : Uuid) (addr : UInt16)
  | ddbDelete (uuid : Uuid)
deriving Repr, DecidableEq

/-- The data outside the slots.  The log holds the newest effect first.  The log is no part of
the program: it records what was sent, stored and completed, so that a theorem can speak about
it. -/
structure Host where
  db : CfgDb
  cfg : ProvCfg
  stat : Stat
  log : List Effect

namespace Host

def record (host : Host) (effect : Effect) : Host :=
  { host with log := effect :: host.log }

/-- `mng->cfg->subnets[0]`. -/
def subnet (host : Host) : Except Abort Subnet :=
  match host.cfg.subnets with
  | subnet :: _ => .ok subnet
  | [] => .error .fieldMissing

def netkeyId (host : Host) : Except Abort UInt16 := do
  let subnet ← host.subnet
  .ok subnet.netkey.id

/-- The record a slot works on. -/
def nodeOf (host : Host) (cache : ConfigCache) : Except Abort (NodeId × Node) :=
  match cache.node with
  | some id => .ok (id, host.db.heap id)
  | none => .error .fieldMissing

/-- `appkey_by_refid`: the index of a created application key. -/
def appkeyByRefid (host : Host) (refid : UInt16) : Except Abort (Option UInt16) := do
  let subnet ← host.subnet
  .ok (((subnet.appkey.take subnet.activeAppkeyNum.toNat).find?
    fun key => key.refid == refid).map (·.id))

end Host

/-- An optional field of the configuration that is used without a test. -/
def present {α : Type} : Option α → Except Abort α
  | some value => .ok value
  | none => .error .fieldMissing

/-- An element of an array, at an index kept in an `int`. -/
def arrayAt {α : Type} (values : List α) (index : Int) : Except Abort α :=
  if index < 0 then .error .outOfBounds
  else
    match values[index.toNat]? with
    | some value => .ok value
    | none => .error .outOfBounds

/-- What a callback returns, with the slot and the shared data as it leaves them. -/
structure Outcome where
  ret : AccRet
  cache : ConfigCache
  host : Host

end Nwmng
