/-
Module: Nwmng.Mng.Blacklist
Purpose: The blacklisting machine: nodes are pushed to the stack, the network key is
refreshed without them, and the database records that they are gone.
Trusted boundary: none
Main exports:
  BlInput, BlEvent, KeyRsp, pushNodes, blTillOom, loadRemainingNodes, onBlDone,
  blLoop, krFinish, blHdr
-/
import Nwmng.Mng.Manager

namespace Nwmng

/-!
## One call of the loop

The list is worked off in batches.  A batch is what the NCP has memory for; it ends with a key
refresh, and the nodes between the two cursors are recorded as blacklisted when the refresh is
over.
-/

/-- What the outside contributes to one call of `bl_loop`: the time, and the results
of pushing the node at each place of the list and of starting the key refresh. -/
structure BlInput where
  now : Nat
  push : Nat → UInt16
  keyRefresh : UInt16

/-- The loop of `bl_till_oom`, over the nodes from the cursor on. -/
def pushNodes (push : Nat → UInt16) : List NodeId → Mng → Mng
  | [], mng => mng
  | node :: rest, mng =>
      if push mng.bl.offset ≠ bgErrSuccess then mng
      else
        let next := { mng with bl := { mng.bl with offset := mng.bl.offset + 1 } }
        pushNodes push rest (next.remember (.pushed node))

/-- `bl_till_oom`: the number of nodes that were pushed.  The node at the cursor is
read before the cursor is compared with the end of the list. -/
def blTillOom (push : Nat → UInt16) (mng : Mng) : Except Abort (Nat × Mng) :=
  if mng.lists.bl = [] then .ok (0, mng)
  else do
    let _ ← mng.engine.host.netkeyId
    if mng.lists.bl.length ≤ mng.bl.offset then .error .recordMissing
    else
      let after := pushNodes push (mng.lists.bl.drop mng.bl.offset) mng
      .ok (after.bl.offset - mng.bl.offset, after)

/-- `kr_start`, and the assertion behind it. -/
def krStart (result : UInt16) (mng : Mng) : Except Abort Mng := do
  let _ ← mng.engine.host.netkeyId
  if result ≠ bgErrSuccess then .error .todo else .ok (mng.remember .started)

/-- The table of `load_remaining_nodes`, where `num` entries are expected.  The
length of the list of addresses is a byte. -/
def loadRemainingNodes (num : Int) (mng : Mng) :
    Except Abort (Option (List (NodeId × UInt8))) :=
  let nodes := mng.db.nodes.values
  if nodes = [] then .ok none
  else
    let listed := nodes.take (nodes.length % 256)
    let remaining := listed.filter fun node => node ∉ mng.lists.bl
    if num = remaining.length then .ok (some (remaining.map fun node => (node, 0xff)))
    else .error .remainingCount

/-- The nodes between the cursors: those a completed key refresh has covered. -/
def Mng.batch (mng : Mng) : List NodeId :=
  (mng.lists.bl.take mng.bl.offset).drop mng.bl.tail

/-- The loop of `on_bl_done`: each node is looked up under its address. -/
def blacklistNodes (nodes : List NodeId) (db : CfgDb) : Except Abort CfgDb :=
  nodes.foldlM (fun db node => db.nodesBl (db.heap node).addr) db

/-- `on_bl_done`: the batch between the cursors is recorded.  With the last one the list is
cleared, and the cursors with it. -/
def onBlDone (now : Nat) (mng : Mng) : Except Abort Mng := do
  let db ← blacklistNodes mng.batch mng.db
  if mng.bl.tail < mng.bl.offset ∧ mng.lists.bl.length < mng.bl.offset then
    .error .recordMissing
  else
    let mng := mng.setDb db
    if mng.bl.offset ≠ mng.lists.bl.length then
      .ok { mng with bl := { mng.bl with state := .starting, tail := mng.bl.offset } }
    else
      let mng := { mng.setLists { mng.lists with bl := [] } with bl := BlCache.zeroed }
      .ok (mng.measure (·.blEnd now))

def Mng.setBlState (mng : Mng) (state : BlState) : Mng :=
  { mng with bl := { mng.bl with state := state } }

def Mng.setRem (mng : Mng) (rem : Option (List (NodeId × UInt8))) : Mng :=
  { mng with bl := { mng.bl with rem := rem } }

/-- The table of the nodes that remain, if there is none and there are such nodes. -/
def remainingTable (mng : Mng) : Except Abort (Option (List (NodeId × UInt8))) :=
  let num : Int := mng.db.nodes.size - mng.lists.bl.length
  if mng.bl.rem = none ∧ num ≠ 0 then loadRemainingNodes num mng else .ok mng.bl.rem

/-- The first call of `bl_loop` for a list. -/
def blBegin (input : BlInput) (mng : Mng) : Except Abort Mng := do
  let mng := (mng.measure (·.blStart input.now)).remember .began
  let rem ← remainingTable mng
  let (_, mng) ← blTillOom input.push (mng.setRem rem)
  if mng.bl.offset = mng.lists.bl.length then .ok (mng.setBlState .starting)
  else .ok (mng.setBlState .prepare)

/-- `bl_loop`: one step of the machine for each call; in `busy` it waits for an event. -/
def blLoop (input : BlInput) (mng : Mng) : Except Abort Mng :=
  match mng.bl.state with
  | .idle => if mng.lists.bl = [] then .ok mng else blBegin input mng
  | .prepare => do
      let (cnt, mng) ← blTillOom input.push mng
      if cnt = 0 ∨ mng.bl.offset = mng.lists.bl.length then
        .ok (mng.setBlState .starting)
      else .ok mng
  | .starting =>
      if mng.bl.offset = mng.bl.tail then .error .blacklistCursor
      else do
        let mng ← krStart input.keyRefresh mng
        .ok (mng.setBlState .busy)
  | .busy => .ok mng
  | .done => onBlDone input.now mng

/-! ## Events -/

/-- The key refresh events. -/
inductive BlEvent where
  | nodeUpdate (key : UInt16) (phase : UInt8) (uuid : Uuid)
  | phaseUpdate (key : UInt16) (phase : UInt8)
  | complete (key : UInt16) (result : UInt16)
deriving Repr, DecidableEq

/-- The answer to `test_get_key`. -/
structure KeyRsp where
  result : UInt16
  key : Vector UInt8 16
deriving Repr, DecidableEq

/-- Store the phase of the first remaining node with the UUID. -/
def setPhase (db : CfgDb) (uuid : Uuid) (phase : UInt8) :
    List (NodeId × UInt8) → List (NodeId × UInt8)
  | [] => []
  | (node, old) :: rest =>
      if (db.heap node).uuid = uuid then (node, phase) :: rest
      else (node, old) :: setPhase db uuid phase rest

/-- `kr_node_update`. -/
def krNodeUpdate (uuid : Uuid) (phase : UInt8) (mng : Mng) : Mng :=
  { mng with bl := { mng.bl with rem := mng.bl.rem.map (setPhase mng.db uuid phase) } }

/-- `kr_finish`.  The machine goes on whatever the result is. -/
def krFinish (key result : UInt16) (rsp : KeyRsp) (mng : Mng) : Except Abort Mng :=
  let mng := (mng.setBlState .done).remember (.completed result)
  if result ≠ 0 then .ok mng
  else
    match mng.cfg.subnets with
    | [] => .error .fieldMissing
    | subnet :: others =>
        let renamed := { subnet.netkey with id := key }
        let netkey :=
          if rsp.result ≠ bgErrSuccess then renamed else { renamed with val := rsp.key }
        .ok (mng.setCfg
          { mng.cfg with subnets := { subnet with netkey := netkey } :: others })

/-- `__is_bl_active`. -/
def Mng.blActive (mng : Mng) : Bool :=
  !mng.lists.bl.isEmpty || mng.bl.state != .idle

/-- `bl_hdr`, on an event of the key refresh. -/
def blHdr (packet : BlEvent) (rsp : KeyRsp) (mng : Mng) : Except Abort Mng :=
  if mng.blActive then
    match packet with
    | .nodeUpdate _ phase uuid => .ok (krNodeUpdate uuid phase mng)
    | .phaseUpdate _ _ => .ok mng
    | .complete key result => krFinish key result rsp mng
  else .ok mng

end Nwmng
