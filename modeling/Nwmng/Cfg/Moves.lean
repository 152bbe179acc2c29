/-
Module: Nwmng.Cfg.Moves
Purpose: The operations that create device records and move them between the
trees: loading a file entry, the backlog, and the changes of address.
Trusted boundary: none
Main exports:
  Abort, NodeEntry, CfgDb.loadNode, CfgDb.loadNodeArr, CfgDb.backlogNodeAdd,
  CfgDb.uplNodesetAddr, CfgDb.nodesRm, CfgDb.nodesBl, CfgDb.loadRecord, CfgDb.Kept
-/
import Nwmng.Cfg.Cfgdb

namespace Nwmng

/-- The ways in which the program stops in the middle of a function: a failed
assertion, a fatal log, or an access through a pointer that is `NULL`. -/
inductive Abort where
  /-- a record looked up by address or UUID was absent, and then used -/
  | recordMissing
  /-- an optional field of the configuration was absent, and then used -/
  | fieldMissing
  /-- an index left the memory it belongs to -/
  | outOfBounds
  /-- `ASSERT(!WAIT_RESPONSE(cache))` before an out-of-memory retry -/
  | waitingWhileOom
  /-- `ASSERT(OOM(cache))` of a retry -/
  | retryWithoutOom
  /-- `ASSERT(cache->expired)` of a retry -/
  | retryWithoutTimer
  /-- `ASSERT(0)` of a retry whose budget is spent -/
  | retryBudget
  /-- `ASSERT(asr_suc == appkey_by_refid(..))` -/
  | appkeyMissing
  /-- the element count of composition data never leaves the page -/
  | endlessLoop
  /-- no state of the list has the requested code -/
  | stateMissing
  /-- `ASSERT(i < MAX_CONCURRENT_CONFIG_NODES)` -/
  | slotRange
  /-- the fatal log for an event no slot claims -/
  | eventUnclaimed
  /-- the fatal log for an event type that is not handled -/
  | eventUnknown
  /-- `ASSERT(mng->cache.bl.offset != mng->cache.bl.tail)` -/
  | blacklistCursor
  /-- `ASSERT(mng->cache.bl.rem.num == ofs)` -/
  | remainingCount
  /-- a number whose text exceeds 64 bits -/
  | numberRange
  /-- the text of a JSON value that is `null`, or not there -/
  | textMissing
  /-- a JSON value that is no object, or no array, where one is taken for granted -/
  | jsonType
  /-- `ASSERT(0)` in `__copy_tmpl_to_node` -/
  | relayPresent
  /-- a JSON value of a tree that was freed -/
  | freedJson
  /-- an error path that is left to do -/
  | todo
deriving Repr, DecidableEq

/-- What the `Template` member of an entry holds.  A well-formed id comes with
the location `malloc` would give a new cell. -/
inductive TmplField where
  | absent
  | malformed
  | present (fresh : UInt64) (value : UInt8)
deriving Repr, DecidableEq

/-- `_load_tmpl`, as far as the template cell itself is concerned. -/
def TmplField.load : TmplField → Option TmplCell → Option TmplCell
  | .absent, _ => none
  | .malformed, cell => cell
  | .present fresh value, none => some { location := fresh, value := value }
  | .present _ value, some cell => some { cell with value := value }

/-- A valid entry of a node array.  The members that describe the mesh
configuration act on the configuration a record already has. -/
structure NodeEntry where
  uuid : Uuid
  addr : UInt16
  done : UInt8
  rmorbl : UInt8
  err : BitVec 32
  func : BitVec 8
  tmpl : TmplField
  config : MeshConfig → MeshConfig

namespace NodeEntry

/-- `load_to_node_item` followed by the assignments of `__load_node_arr`. -/
def fill (entry : NodeEntry) (node : Node) : Node where
  uuid := entry.uuid
  addr := entry.addr
  done := entry.done
  rmorbl := entry.rmorbl
  err := entry.err
  tmpl := entry.tmpl.load node.tmpl
  config := entry.config node.config
  func := entry.func

/-- The tree an entry is looked up in, and added to when it is new. -/
def treeOf (entry : NodeEntry) (backlog : Bool) : TreeId :=
  if backlog then .backlog
  else if entry.addr ≠ 0 then .nodes
  else .unprovDevs

/-- The place an entry is looked up at. -/
def lookupSpot (entry : NodeEntry) (backlog : Bool) : Spot :=
  if backlog then .backlog entry.uuid
  else if entry.addr ≠ 0 then .nodes entry.addr
  else .unprovDevs entry.uuid

end NodeEntry

namespace CfgDb

/-- One round of `__load_node_arr`. -/
def loadNode (db : CfgDb) (entry : NodeEntry) (backlog : Bool) : CfgDb :=
  match db.get (entry.lookupSpot backlog) with
  | some record => db.update record entry.fill
  | none =>
      let record := db.next
      (db.alloc.update record entry.fill).cfgdbAdd record (entry.treeOf backlog)

/-- `__load_node_arr`, over the entries that pass the validity check. -/
def loadNodeArr (db : CfgDb) (entries : List NodeEntry) (backlog : Bool) : CfgDb :=
  entries.foldl (fun current entry => current.loadNode entry backlog) db

/-- `_backlog_node_add`. -/
def backlogNodeAdd (db : CfgDb) (uuid : Uuid) : CfgDb :=
  let record := db.next
  (db.alloc.update record (fun node => { node with uuid := uuid })).cfgdbAdd
    record .backlog

/-- `upl_nodeset_addr`: the record leaves the tree of the unprovisioned devices before its
address is written, since the address is the key of the tree that it goes to. -/
def uplNodesetAddr (db : CfgDb) (uuid : Uuid) (addr : UInt16) :
    Except Abort CfgDb :=
  match db.cfgdbUnprovDevGet uuid with
  | some record =>
      let removed := db.cfgdbRemove record .unprovDevs
      let addressed := removed.update record fun node => { node with addr := addr }
      .ok (addressed.cfgdbAdd record .nodes)
  | none => .error .recordMissing

/-- `nodes_rm`: the way back of `upl_nodeset_addr`.  The address is cleared between the removal
and the addition. -/
def nodesRm (db : CfgDb) (addr : UInt16) : Except Abort CfgDb :=
  match db.cfgdbNodeGet addr with
  | some record =>
      let removed := db.cfgdbRemove record .nodes
      let cleared := removed.update record fun node => { node with addr := 0 }
      .ok (cleared.cfgdbAdd record .unprovDevs)
  | none => .error .recordMissing

/-- `nodes_bl`: as `nodes_rm`, but the done flag is cleared too. -/
def nodesBl (db : CfgDb) (addr : UInt16) : Except Abort CfgDb :=
  match db.cfgdbNodeGet addr with
  | some record =>
      let removed := db.cfgdbRemove record .nodes
      let cleared := removed.update record fun node =>
        { node with addr := 0, done := 0 }
      .ok (cleared.cfgdbAdd record .unprovDevs)
  | none => .error .recordMissing

/-- The common body of the `nodeset` functions: find by address, write a field. -/
def nodeset (db : CfgDb) (addr : UInt16) (change : Node → Node) :
    Except Abort CfgDb :=
  match db.cfgdbNodeGet addr with
  | some record => .ok (db.update record change)
  | none => .error .recordMissing

/-- `nodeset_errbits`. -/
def nodesetErrbits (db : CfgDb) (addr : UInt16) (err : BitVec 32) :
    Except Abort CfgDb :=
  db.nodeset addr fun node => { node with err := err }

/-- `nodeset_done`. -/
def nodesetDone (db : CfgDb) (addr : UInt16) (done : UInt8) :
    Except Abort CfgDb :=
  db.nodeset addr fun node => { node with done := done }

/-- `nodeset_func`. -/
def nodesetFunc (db : CfgDb) (addr : UInt16) (func : BitVec 8) :
    Except Abort CfgDb :=
  db.nodeset addr fun node => { node with func := func }

/-! What loading an entry writes. -/

/-- The record an entry is loaded into: the one at its place, or a new one. -/
def loadRecord (db : CfgDb) (entry : NodeEntry) (backlog : Bool) : NodeId :=
  (db.get (entry.lookupSpot backlog)).getD db.next

theorem get_cfgdbAdd_self (db : CfgDb) (record : NodeId) (tree : TreeId) :
    (db.cfgdbAdd record tree).get ((db.heap record).spotIn tree) = some record := by
  unfold cfgdbAdd
  dsimp only
  cases found : db.get ((db.heap record).spotIn tree) with
  | none => simp
  | some holder =>
      by_cases same : holder = record
      · simp [same, found]
      · simp [same]

/-- One record is written, every other one is as before. -/
theorem heap_loadNode_of_ne (db : CfgDb) (entry : NodeEntry) (backlog : Bool)
    {record : NodeId} (other : record ≠ db.loadRecord entry backlog) :
    (db.loadNode entry backlog).heap record = db.heap record := by
  unfold loadRecord at other
  unfold loadNode
  cases found : db.get (entry.lookupSpot backlog) with
  | some holder =>
      rw [found] at other
      exact heap_update_of_ne db _ other
  | none =>
      rw [found, Option.getD_none] at other
      simp only [heap_cfgdbAdd]
      rw [heap_update_of_ne _ _ other, heap_alloc_of_ne _ other]

/-- The record that is written is in a tree afterwards. -/
theorem loadRecord_held (db : CfgDb) (entry : NodeEntry) (backlog : Bool) :
    ∃ spot, (db.loadNode entry backlog).get spot = some (db.loadRecord entry backlog) := by
  unfold loadRecord loadNode
  cases found : db.get (entry.lookupSpot backlog) with
  | some holder => exact ⟨_, by rw [get_update, found]; rfl⟩
  | none => exact ⟨_, get_cfgdbAdd_self _ _ _⟩

theorem nodeset_eq {db after : CfgDb} {addr : UInt16} {change : Node → Node}
    (writes : db.nodeset addr change = .ok after) :
    ∃ record, db.cfgdbNodeGet addr = some record ∧ after = db.update record change := by
  unfold nodeset at writes
  cases found : db.cfgdbNodeGet addr with
  | none => simp [found] at writes
  | some record =>
      simp only [found, Except.ok.injEq] at writes
      exact ⟨record, rfl, writes.symm⟩

end CfgDb

/-! ## What every record keeps -/

/-- Every record is kept up to a relation, and no new one is handed out.  The relation says what
a move may change in a record, so that moves can be chained. -/
structure CfgDb.Kept (relation : Node → Node → Prop) (db after : CfgDb) : Prop where
  records : ∀ record, relation (db.heap record) (after.heap record)
  next : after.next = db.next

namespace CfgDb.Kept

variable {relation : Node → Node → Prop} {db after : CfgDb}

theorem refl (same : ∀ node, relation node node) (db : CfgDb) : Kept relation db db :=
  ⟨fun _ => same _, rfl⟩

theorem trans {third : CfgDb}
    (joins : ∀ {first second third}, relation first second → relation second third →
      relation first third)
    (one : Kept relation db after) (two : Kept relation after third) :
    Kept relation db third :=
  ⟨fun record => joins (one.records record) (two.records record), two.next.trans one.next⟩

/-- What a change keeps of every record, its update keeps of all records. -/
theorem update (same : ∀ node, relation node node) {change : Node → Node}
    (changes : ∀ node, relation node (change node)) (db : CfgDb) (changed : NodeId) :
    Kept relation db (db.update changed change) := by
  refine ⟨?_, next_update db changed change⟩
  intro record
  by_cases here : record = changed
  · rw [here, heap_update_self]
    exact changes _
  · rw [heap_update_of_ne db change here]
    exact same _

theorem nodeset (same : ∀ node, relation node node) {change : Node → Node}
    (changes : ∀ node, relation node (change node)) {addr : UInt16}
    (writes : db.nodeset addr change = .ok after) : Kept relation db after := by
  obtain ⟨changed, _, rfl⟩ := nodeset_eq writes
  exact update same changes db changed

/-- So does a move from tree to tree. -/
theorem move (same : ∀ node, relation node node) {change : Node → Node}
    (changes : ∀ node, relation node (change node)) (db : CfgDb) (moved : NodeId)
    (source target : TreeId) :
    Kept relation db
      (((db.cfgdbRemove moved source).update moved change).cfgdbAdd moved target) := by
  have updated := update same changes (db.cfgdbRemove moved source) moved
  refine ⟨?_, ?_⟩
  · intro record
    rw [heap_cfgdbAdd]
    have kept := updated.records record
    rw [cfgdbRemove, heap_erase] at kept
    exact kept
  · rw [next_cfgdbAdd, updated.next, cfgdbRemove, next_erase]

theorem nodesRm (same : ∀ node, relation node node)
    (changes : ∀ node : Node, relation node { node with addr := 0 }) {addr : UInt16}
    (removes : db.nodesRm addr = .ok after) : Kept relation db after := by
  unfold CfgDb.nodesRm at removes
  cases found : db.cfgdbNodeGet addr with
  | none => simp [found] at removes
  | some removed =>
      simp only [found, Except.ok.injEq] at removes
      rw [← removes]
      exact move same changes db removed .nodes .unprovDevs

theorem nodesBl (same : ∀ node, relation node node)
    (changes : ∀ node : Node, relation node { node with addr := 0, done := 0 })
    {addr : UInt16} (removes : db.nodesBl addr = .ok after) : Kept relation db after := by
  unfold CfgDb.nodesBl at removes
  cases found : db.cfgdbNodeGet addr with
  | none => simp [found] at removes
  | some removed =>
      simp only [found, Except.ok.injEq] at removes
      rw [← removes]
      exact move same changes db removed .nodes .unprovDevs

theorem uplNodesetAddr (same : ∀ node, relation node node) {addr : UInt16}
    (changes : ∀ node : Node, relation node { node with addr := addr }) {uuid : Uuid}
    (moves : db.uplNodesetAddr uuid addr = .ok after) : Kept relation db after := by
  unfold CfgDb.uplNodesetAddr at moves
  cases found : db.cfgdbUnprovDevGet uuid with
  | none => simp [found] at moves
  | some moved =>
      simp only [found, Except.ok.injEq] at moves
      rw [← moves]
      exact move same changes db moved .unprovDevs .nodes

end CfgDb.Kept

end Nwmng
