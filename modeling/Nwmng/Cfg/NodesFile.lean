/-
Module: Nwmng.Cfg.NodesFile
Purpose: The nodes file: opening, loading, closing and saving it, and the functions that
write one field of one node.
Trusted boundary: a saved tree is read back as it was
Main exports:
  NwCfg, SavedFile, openJsonFile, loadNodes, jsonCfgOpen, jsonCfgFlush, findNode,
  modifyNodeField, NodeField, WriteInput, writeNodes
-/
import Nwmng.Lib.JsonPath
import Nwmng.Cfg.NodeLoad

namespace Nwmng

open Json Fallible

def strSyncTime : String := "SyncTime"
def strNodes : String := "Nodes"
def strBacklog : String := "Backlog"

/-!
## The open file

The tree of the open file is a value; the pointers of the source into that tree are places in it.
One of them can outlive the tree: that to the backlog, which `json_cfg_close` does not clear.
-/

/-- What the pointer to the backlog array leads to.  It points into the open tree, and is not
cleared when that tree is freed for the next one. -/
inductive BacklogRef where
  | absent
  /-- the member of the open tree -/
  | member
  /-- a value that was freed with its tree -/
  | freed
deriving Repr, DecidableEq

/-- A tree, and the array of subnets, which is freed with it.  The pointers to the node
arrays lead into the tree; what is kept of them is the number of subnets. -/
structure OpenTree where
  root : Value
  subnets : Option Nat

/-- The part of `json_cfg_t` for the nodes file.  The time of the last synchronization is kept as
the number that the file holds. -/
structure NwCfg where
  tree : Option OpenTree
  synctime : UInt32
  autoflush : Bool
  backlog : BacklogRef

/-- The file on the disk: what it parses to, and the second of its last change.  Whether the file
has changed is decided by whole seconds, as `stat` gives them. -/
structure SavedFile where
  content : Option Value
  mtime : Nat

namespace NwCfg

/-- No file was opened yet. -/
def zeroed : NwCfg :=
  { tree := none, synctime := 0, autoflush := false, backlog := .absent }

/-- `jcfg.nw.gen.root`. -/
def root (nw : NwCfg) : Option Value := nw.tree.map (·.root)

/-- `jcfg.nw.subnets`. -/
def subnets (nw : NwCfg) : Option Nat := nw.tree.bind (·.subnets)

end NwCfg

/-- What becomes of the pointer to the backlog when the tree is freed. -/
def BacklogRef.close : BacklogRef → BacklogRef
  | .absent => .absent
  | .member | .freed => .freed

/-- `json_cfg_close`. -/
def NwCfg.jsonCfgClose (nw : NwCfg) : NwCfg :=
  match nw.tree with
  | none => nw
  | some _ => { nw with tree := none, backlog := nw.backlog.close }

/-! ## Opening -/

/-- The stamp that a file carries; a malformed one is passed over. -/
def loadSynctime (root : Value) (synctime : UInt32) : Except Abort UInt32 :=
  match root.get strSyncTime with
  | some value => do
      let loaded ← uint32Loader value
      .ok (loaded.getD synctime)
  | none => .ok synctime

/-- The reference of a subnet: it is read here, and not used. -/
def readRefid (item : Value) : Except Abort Unit :=
  match item.get strRefid with
  | some value => do
      let _ ← uint16Loader value
      .ok ()
  | none => .ok ()

/-- The subnets in their order, up to the first one without nodes; `false` when there is
one. -/
def openSubnets : List Value → Except Abort Bool
  | [] => .ok true
  | item :: rest => do
      readRefid item
      match item.get strNodes with
      | some _ => openSubnets rest
      | none => .ok false

/-- The members of the root in their order, with the tree and the pointer to the backlog
so far; `false` after an error. -/
def openMembers : List (String × Value) → OpenTree → BacklogRef →
    Except Abort (Bool × OpenTree × BacklogRef)
  | [], tree, backlog => .ok (true, tree, backlog)
  | (key, value) :: rest, tree, backlog =>
      if key = strSubnets then
        match value with
        | .array items => do
            let tree := { tree with subnets := some items.length }
            if ← openSubnets items then openMembers rest tree backlog
            else .ok (false, tree, backlog)
        | _ => .error .jsonType
      else if key = strBacklog then
        match value with
        | .null => openMembers rest tree .absent
        | _ => openMembers rest tree .member
      else openMembers rest tree backlog

/-- `open_json_file`.  A file that cannot be parsed has no root, and the loop over its
members is entered all the same. -/
def openJsonFile (file : SavedFile) (nw : NwCfg) : Except Abort (Bool × NwCfg) :=
  match file.content with
  | some (.object members) => do
      let closed := nw.jsonCfgClose
      let root := .object members
      let synctime ← loadSynctime root closed.synctime
      let (opened, tree, backlog) ←
        openMembers members { root := root, subnets := none } closed.backlog
      let nw :=
        { tree := some tree, synctime := synctime, autoflush := true, backlog := backlog }
      .ok (opened, if opened then nw else nw.jsonCfgClose)
  | _ => .error .jsonType

/-! ## Loading -/

/-- What a load needs besides: the templates, and the places of new cells, for the nodes
and for the backlog. -/
structure LoadEnv where
  templates : Templates
  fresh : Bool → Nat → UInt64

/-- Where the nodes of the first subnet are. -/
def nodesPath : List Step := [.member strSubnets, .item 0, .member strNodes]

/-- `jcfg.nw.subnets[0].nodes`, behind a pointer that is not `NULL`. -/
def NwCfg.firstNodes (nw : NwCfg) : Option Value :=
  match nw.root.bind (·.seek nodesPath) with
  | some .null => none
  | other => other

/-- `__load_node_arr`, on a pointer that may be `NULL`. -/
def loadNodeValue (env : LoadEnv) (backlog : Bool) (value : Option Value) (db : CfgDb) :
    Except Abort CfgDb :=
  match value with
  | none => .ok db
  | some (.array items) => loadNodeArr env.templates (env.fresh backlog) backlog 0 items db
  | some _ => .error .jsonType

/-- The backlog of the open file. -/
def loadBacklog (env : LoadEnv) (nw : NwCfg) (db : CfgDb) : Except Abort CfgDb :=
  match nw.backlog with
  | .absent => .ok db
  | .member => loadNodeValue env true (nw.root.bind (·.get strBacklog)) db
  | .freed => .error .freedJson

/-- `load_nodes`; `false` stands for an error. -/
def loadNodes (env : LoadEnv) (nw : NwCfg) (db : CfgDb) : Except Abort (Bool × CfgDb) :=
  match nw.subnets with
  | none => .ok (false, db)
  | some 0 => .error .outOfBounds
  | some (_ + 1) =>
      match nw.firstNodes with
      | none => .ok (false, db)
      | some nodes => do
          let db ← loadNodeValue env false (some nodes) db
          let db ← loadBacklog env nw db
          .ok (true, db)

/-- `load_json_file`, for the nodes file. -/
def loadJsonFile (env : LoadEnv) (clrdb : Bool) (nw : NwCfg) (db : CfgDb) :
    Except Abort (Bool × CfgDb) :=
  loadNodes env nw
    (if clrdb then db.cfgdbRemoveAllNodes.cfgdbRemoveAllUpl else db)

/-- The part of `json_cfg_open` behind the test of the time stamps. -/
def reloadNodesFile (env : LoadEnv) (force : Bool) (file : SavedFile) (nw : NwCfg)
    (db : CfgDb) : Except Abort (Bool × NwCfg × CfgDb) := do
  let (opened, nw) ← openJsonFile file nw
  if opened then do
    let (loaded, db) ← loadJsonFile env force nw db
    .ok (loaded, if loaded then nw else nw.jsonCfgClose, db)
  else .ok (false, nw.jsonCfgClose, db)

/-- `st_mtim.tv_sec <= gen->synctime`: the tree in memory is taken for the latest. -/
def upToDate (file : SavedFile) (nw : NwCfg) : Bool :=
  nw.synctime != 0 && decide (file.mtime ≤ nw.synctime.toNat)

/-- `json_cfg_open`, on a nodes file that exists. -/
def jsonCfgOpen (env : LoadEnv) (force : Bool) (file : SavedFile) (nw : NwCfg)
    (db : CfgDb) : Except Abort (Bool × NwCfg × CfgDb) :=
  if upToDate file nw && !force then .ok (true, nw, db)
  else reloadNodesFile env force file nw db

/-! ## Saving -/

/-- The clock during a save: `time` is read for the stamp, and the file is changed at
some second from then on. -/
structure SaveClock where
  time : Nat
  mtime : Nat
deriving Repr, DecidableEq, Inhabited

/-- `json_cfg_flush`, for the nodes file. -/
def jsonCfgFlush (clock : SaveClock) (nw : NwCfg) (file : SavedFile) : NwCfg × SavedFile :=
  match nw.tree with
  | none => (nw, file)
  | some tree =>
      let stamp := UInt32.ofNat clock.time
      let stamped := tree.root.set strSyncTime (.string (uint32ToStr stamp))
      ({ nw with tree := some { tree with root := stamped }, synctime := stamp },
        { content := some stamped, mtime := clock.mtime })

/-- Change the tree where it stands. -/
def NwCfg.amend (nw : NwCfg) (path : List Step) (change : Value → Value) : NwCfg :=
  { nw with tree := nw.tree.map fun tree => { tree with root := tree.root.amend path change } }

/-!
## Writing a field

All writes of a field go through one function with the field as a parameter.  The search in front
of it decodes UUIDs to a buffer on the stack whose old content is an input of the model.
-/

/-- `__kv_replace`: `json_object_object_add` writes over the member where there is one. -/
def kvReplace (key : String) (text : List Char) (obj : Value) : Value :=
  obj.set key (.string text)

/-- The loop of `find_node`: the place of the first entry with the UUID.  The buffer that
an entry is decoded to is not cleared. -/
def findEntry (stack : Nat → Uuid) (uuid : Uuid) : Nat → List Value → Option Nat
  | _, [] => none
  | index, item :: rest =>
      if memberUuid (stack index) item = some uuid then some index
      else findEntry stack uuid (index + 1) rest

/-- `find_node`: the entries of the first subnet are compared one by one.  The buffer of the UUID
is declared in the loop and not cleared, which is why the stack is an argument. -/
def findNode (stack : Nat → Uuid) (uuid : Uuid) (nw : NwCfg) : Except Abort (Option Nat) :=
  match nw.subnets with
  | none => .error .fieldMissing
  | some 0 => .error .outOfBounds
  | some (_ + 1) =>
      match nw.firstNodes with
      | none => .ok none
      | some (.array items) => .ok (findEntry stack uuid 0 items)
      | some _ => .error .jsonType

/-- `modify_node_field`; `false` stands for an error. -/
def modifyNodeField (stack : Nat → Uuid) (uuid : Uuid) (key : String) (text : List Char)
    (nw : NwCfg) : Except Abort (Bool × NwCfg) := do
  match ← findNode stack uuid nw with
  | none => .ok (false, nw)
  | some index =>
      .ok (true, nw.amend (nodesPath ++ [.item index]) (·.set key (.string text)))

/-- A field of a node, with the value that is written. -/
inductive NodeField where
  | addr (value : UInt16)
  | errbits (value : UInt32)
  | func (value : UInt8)
  | done (value : UInt8)
deriving Repr, DecidableEq

namespace NodeField

def key : NodeField → String
  | .addr _ => strAddr
  | .errbits _ => strErrbits
  | .func _ => strFunc
  | .done _ => strDone

def text : NodeField → List Char
  | .addr value => uint16ToStr value
  | .errbits value => uint32ToStr value
  | .func value => uint8ToStr value
  | .done value => uint8ToStr value

end NodeField

/-- `set_node_addr`, `set_node_errbits`, `set_node_func` and `set_node_done`. -/
def setNodeField (stack : Nat → Uuid) (uuid : Uuid) (field : NodeField) (nw : NwCfg) :
    Except Abort (Bool × NwCfg) :=
  modifyNodeField stack uuid field.key field.text nw

/-- What a write finds: the buffers on the stack, and the clock.  The search for an entry reads
UUIDs into a buffer that is not cleared, so its first contents are an input. -/
structure WriteInput where
  stack : Nat → Uuid
  clock : SaveClock
deriving Inhabited

/-- `write_nodes`, for a field of a node: a change is saved at once. -/
def writeNodes (input : WriteInput) (uuid : Uuid) (field : NodeField) (nw : NwCfg)
    (file : SavedFile) : Except Abort (NwCfg × SavedFile) := do
  let (found, nw) ← setNodeField input.stack uuid field nw
  if nw.autoflush && found then .ok (jsonCfgFlush input.clock nw file)
  else .ok (nw, file)

end Nwmng
