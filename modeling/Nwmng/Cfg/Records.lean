/-
Module: Nwmng.Cfg.Records
Purpose: The records of the configuration database: nodes with their optional
mesh configuration, and the provisioner's own keys and timeouts.
Trusted boundary: none
Main exports:
  Uuid, NodeId, Node, MeshConfig, Features, ProvCfg
-/
import Mathlib.Data.Vector.Defs

namespace Nwmng

/-!
A field that the source keeps behind a pointer which may be `NULL` is an
`Option`.  Bit maps are bit vectors of the width of their C type; every other
machine integer is the unsigned type of the same width.
-/

/-- Sixteen bytes identifying a device for its whole life. -/
abbrev Uuid := Vector UInt8 16

/-- Identity of a heap record, in the place of the `node_t *` of the source. -/
abbrev NodeId := Nat

structure Txparam where
  cnt : UInt8
  intv : UInt16
deriving Repr, DecidableEq, Inhabited

structure Publication where
  addr : UInt16
  aki : UInt16
  period : UInt32
  ttl : UInt8
  txp : Txparam
deriving Repr, DecidableEq, Inhabited

/-- `uint16list_t`: the announced length is a byte of its own.  The array may be longer than
announced, since the length is cut to a byte when it is stored. -/
structure Uint16List where
  len : UInt8
  data : List UInt16
deriving Repr, DecidableEq, Inhabited

/-- Feature bits: what the files ask for and what the device is known to have.  A feature is
pending where the two differ. -/
structure Features where
  target : BitVec 16
  current : BitVec 16
  relayTxp : Option Txparam
deriving Repr, DecidableEq, Inhabited

structure MeshConfig where
  ttl : Option UInt8
  snb : Option UInt8
  netTxp : Option Txparam
  features : Features
  pub : Option Publication
  bindings : Option Uint16List
  sublist : Option Uint16List
deriving Repr, DecidableEq, Inhabited

/-- The heap cell holding a template id, with its own location: the location is
part of the bytes that follow the address field of a node. -/
structure TmplCell where
  location : UInt64
  value : UInt8
deriving Repr, DecidableEq, Inhabited

/-- `node_t`.  The order of the first fields is the order in memory.  The order matters where a
comparison or a clearing runs over several fields at once. -/
structure Node where
  uuid : Uuid
  addr : UInt16
  done : UInt8
  rmorbl : UInt8
  err : BitVec 32
  tmpl : Option TmplCell
  config : MeshConfig
  func : BitVec 8
deriving Repr, DecidableEq

/-- What `calloc` returns for a node. -/
def Node.zeroed : Node where
  uuid := Vector.replicate 16 0
  addr := 0
  done := 0
  rmorbl := 0
  err := 0
  tmpl := none
  config :=
    { ttl := none, snb := none, netTxp := none
      features := { target := 0, current := 0, relayTxp := none }
      pub := none, bindings := none, sublist := none }
  func := 0

instance : Inhabited Node := ⟨Node.zeroed⟩

/-- `(tmpl) && *(tmpl)`: a template id is present and not zero. -/
def Node.hasTemplate (node : Node) : Bool :=
  match node.tmpl with
  | some cell => cell.value != 0
  | none => false

structure Meshkey where
  refid : UInt16
  id : UInt16
  done : UInt8
  val : Vector UInt8 16
deriving Repr, DecidableEq, Inhabited

structure Subnet where
  appkeyNum : UInt8
  activeAppkeyNum : UInt8
  netkey : Meshkey
  appkey : List Meshkey
deriving Repr, DecidableEq, Inhabited

/-- Configuration client timeouts in milliseconds. -/
structure Timeout where
  normal : UInt32
  lpn : UInt32
deriving Repr, DecidableEq, Inhabited

structure ProvCfg where
  addr : UInt16
  ivi : UInt32
  subnets : List Subnet
  ttl : Option UInt8
  netTxp : Option Txparam
  timeout : Option Timeout
deriving Repr, DecidableEq, Inhabited

end Nwmng
