/-
Module: Nwmng.Cfg.Cfgdb
Purpose: The device database: a heap of node records and the three trees that
index them, with the add and remove functions of the source.
Trusted boundary: none
Main exports:
  CfgDb, TreeId, Spot, CfgDb.get, CfgDb.cfgdbAdd, CfgDb.cfgdbRemove,
  CfgDb.get_set, CfgDb.get_erase
-/
import Std.Data.TreeMap.Lemmas
import Nwmng.Cfg.Records

namespace Nwmng

/-- The trees that hold device records.  A device moves from one to another in its life, and
should never be in two of them. -/
inductive TreeId where
  | unprovDevs
  | nodes
  | backlog
deriving Repr, DecidableEq, Inhabited

/-- A place in the database: a tree together with a key of its comparator.  Nodes are compared by
address, the others by UUID. -/
inductive Spot where
  | unprovDevs (uuid : Uuid)
  | nodes (addr : UInt16)
  | backlog (uuid : Uuid)
deriving Repr, DecidableEq

def Spot.tree : Spot → TreeId
  | .unprovDevs _ => .unprovDevs
  | .nodes _ => .nodes
  | .backlog _ => .backlog

namespace Node

/-- The sixteen bytes that start at the address field: the address, the done
and remove bytes, the error mask and the template pointer, all little endian. -/
def bytesFromAddr (node : Node) : Uuid :=
  let pointer : UInt64 := (node.tmpl.map (·.location)).getD 0
  #v[node.addr.toUInt8, (node.addr >>> 8).toUInt8, node.done, node.rmorbl,
    UInt8.ofBitVec (node.err.setWidth 8),
    UInt8.ofBitVec ((node.err >>> 8).setWidth 8),
    UInt8.ofBitVec ((node.err >>> 16).setWidth 8),
    UInt8.ofBitVec ((node.err >>> 24).setWidth 8),
    pointer.toUInt8, (pointer >>> 8).toUInt8, (pointer >>> 16).toUInt8,
    (pointer >>> 24).toUInt8, (pointer >>> 32).toUInt8,
    (pointer >>> 40).toUInt8, (pointer >>> 48).toUInt8,
    (pointer >>> 56).toUInt8]

/-- `G_KEY` read by `uuid_comp`: sixteen bytes at the chosen pointer. -/
def uuidKey (node : Node) : Uuid :=
  if node.addr = 0 then node.uuid else node.bytesFromAddr

/-- `G_KEY` read by `u16_comp`: two bytes at the chosen pointer. -/
def addrKey (node : Node) : UInt16 :=
  if node.addr = 0 then
    node.uuid[0].toUInt16 ||| (node.uuid[1].toUInt16 <<< 8)
  else node.addr

/-- Where `G_KEY` leads in a given tree. -/
def spotIn (node : Node) : TreeId → Spot
  | .unprovDevs => .unprovDevs node.uuidKey
  | .nodes => .nodes node.addrKey
  | .backlog => .backlog node.uuidKey

/-- `G_HTB`: the tree recomputed from the address and template fields. -/
def gHtb (node : Node) : TreeId :=
  if node.addr ≠ 0 then .nodes
  else if node.hasTemplate then .unprovDevs
  else .backlog

/-- Where `__cfgdb_remove` looks for a record, whatever tree it was given. -/
def removalSpot (node : Node) : Spot :=
  node.spotIn node.gHtb

end Node

/-- An initialized database.  `next` is the identity of the next record that
`calloc` hands out. -/
structure CfgDb where
  heap : NodeId → Node
  next : NodeId
  unprovDevs : Std.TreeMap Uuid NodeId
  nodes : Std.TreeMap UInt16 NodeId
  backlog : Std.TreeMap Uuid NodeId

namespace CfgDb

/-- The state `cfgdb_init` leaves. -/
def cfgdbInit : CfgDb where
  heap := fun _ => Node.zeroed
  next := 0
  unprovDevs := ∅
  nodes := ∅
  backlog := ∅

/-- `g_tree_lookup`. -/
def get (db : CfgDb) : Spot → Option NodeId
  | .unprovDevs uuid => db.unprovDevs[uuid]?
  | .nodes addr => db.nodes[addr]?
  | .backlog uuid => db.backlog[uuid]?

/-- `g_tree_insert`, as a lookup sees it.  The tree stores a pointer as the key; which record it
leads into is followed beside the database, by `insertKey`. -/
def set (db : CfgDb) (spot : Spot) (record : NodeId) : CfgDb :=
  match spot with
  | .unprovDevs uuid => { db with unprovDevs := db.unprovDevs.insert uuid record }
  | .nodes addr => { db with nodes := db.nodes.insert addr record }
  | .backlog uuid => { db with backlog := db.backlog.insert uuid record }

/-- `g_tree_remove` and `g_tree_steal`: they differ in the memory they free. -/
def erase (db : CfgDb) : Spot → CfgDb
  | .unprovDevs uuid => { db with unprovDevs := db.unprovDevs.erase uuid }
  | .nodes addr => { db with nodes := db.nodes.erase addr }
  | .backlog uuid => { db with backlog := db.backlog.erase uuid }

/-- Write the fields of one record. -/
def update (db : CfgDb) (record : NodeId) (change : Node → Node) : CfgDb :=
  { db with heap := Function.update db.heap record (change (db.heap record)) }

/-- `calloc` of a node record. -/
def alloc (db : CfgDb) : CfgDb :=
  { db with
    heap := Function.update db.heap db.next Node.zeroed
    next := db.next + 1 }

def cfgdbNodeGet (db : CfgDb) (addr : UInt16) : Option NodeId :=
  db.get (.nodes addr)

def cfgdbUnprovDevGet (db : CfgDb) (uuid : Uuid) : Option NodeId :=
  db.get (.unprovDevs uuid)

def cfgdbBacklogGet (db : CfgDb) (uuid : Uuid) : Option NodeId :=
  db.get (.backlog uuid)

/-- `__cfgdb_remove`.  The tree argument is only tested for `NULL`; the tree and
the key that are used come from the record. -/
def cfgdbRemove (db : CfgDb) (record : NodeId) (_tree : TreeId) : CfgDb :=
  db.erase (db.heap record).removalSpot

/-- `__cfgdb_add`: the key is looked up in the named tree first, and a different record that is
found there is removed, by its own fields, and freed. -/
def cfgdbAdd (db : CfgDb) (record : NodeId) (tree : TreeId) : CfgDb :=
  let spot := (db.heap record).spotIn tree
  match db.get spot with
  | some holder =>
      if holder = record then db
      else (db.cfgdbRemove holder tree).set spot record
  | none => db.set spot record

/-- `cfgdb_remove_all_upl`. -/
def cfgdbRemoveAllUpl (db : CfgDb) : CfgDb :=
  { db with unprovDevs := ∅ }

/-- `cfgdb_remove_all_nodes`. -/
def cfgdbRemoveAllNodes (db : CfgDb) : CfgDb :=
  { db with nodes := ∅ }

/-! What a lookup sees after each elementary change. -/

theorem get_set (db : CfgDb) (spot other : Spot) (record : NodeId) :
    (db.set spot record).get other =
      if spot = other then some record else db.get other := by
  cases spot <;> cases other <;>
    simp [get, set, Std.TreeMap.getElem?_insert,
      Std.LawfulEqCmp.compare_eq_iff_eq]

theorem get_erase (db : CfgDb) (spot other : Spot) :
    (db.erase spot).get other = if spot = other then none else db.get other := by
  cases spot <;> cases other <;>
    simp [get, erase, Std.TreeMap.getElem?_erase,
      Std.LawfulEqCmp.compare_eq_iff_eq]

@[simp] theorem get_set_self (db : CfgDb) (spot : Spot) (record : NodeId) :
    (db.set spot record).get spot = some record := by
  simp [get_set]

theorem get_of_get_erase {db : CfgDb} {spot other : Spot} {record : NodeId}
    (found : (db.erase spot).get other = some record) :
    spot ≠ other ∧ db.get other = some record := by
  rw [get_erase] at found
  by_cases same : spot = other
  · simp [same] at found
  · exact ⟨same, by simpa [same] using found⟩

@[simp] theorem get_update (db : CfgDb) (record : NodeId) (change : Node → Node)
    (spot : Spot) : (db.update record change).get spot = db.get spot := by
  cases spot <;> rfl

@[simp] theorem get_alloc (db : CfgDb) (spot : Spot) :
    db.alloc.get spot = db.get spot := by
  cases spot <;> rfl

@[simp] theorem get_cfgdbInit (spot : Spot) : cfgdbInit.get spot = none := by
  cases spot <;> simp [get, cfgdbInit]

@[simp] theorem heap_set (db : CfgDb) (spot : Spot) (record : NodeId) :
    (db.set spot record).heap = db.heap := by
  cases spot <;> rfl

@[simp] theorem heap_erase (db : CfgDb) (spot : Spot) :
    (db.erase spot).heap = db.heap := by
  cases spot <;> rfl

@[simp] theorem next_set (db : CfgDb) (spot : Spot) (record : NodeId) :
    (db.set spot record).next = db.next := by
  cases spot <;> rfl

@[simp] theorem next_erase (db : CfgDb) (spot : Spot) :
    (db.erase spot).next = db.next := by
  cases spot <;> rfl

@[simp] theorem next_update (db : CfgDb) (record : NodeId)
    (change : Node → Node) : (db.update record change).next = db.next := rfl

@[simp] theorem next_alloc (db : CfgDb) : db.alloc.next = db.next + 1 := rfl

@[simp] theorem heap_update_self (db : CfgDb) (record : NodeId)
    (change : Node → Node) :
    (db.update record change).heap record = change (db.heap record) := by
  simp [update]

theorem heap_update_of_ne (db : CfgDb) {record other : NodeId}
    (change : Node → Node) (different : other ≠ record) :
    (db.update record change).heap other = db.heap other := by
  simp [update, different]

@[simp] theorem heap_alloc_next (db : CfgDb) :
    db.alloc.heap db.next = Node.zeroed := by
  simp [alloc]

theorem heap_alloc_of_ne (db : CfgDb) {other : NodeId}
    (different : other ≠ db.next) : db.alloc.heap other = db.heap other := by
  simp [alloc, different]

/-- No tree holds the record.  In the program such a record is garbage, unless it is about to be
added. -/
def Unheld (db : CfgDb) (record : NodeId) : Prop :=
  ∀ spot, db.get spot ≠ some record

/-- Adding a record no tree holds stores it at its own place, after at most one
removal elsewhere: that of the record which held the place. -/
theorem cfgdbAdd_of_unheld {db : CfgDb} {record : NodeId}
    (unheld : db.Unheld record) (tree : TreeId) :
    let spot := (db.heap record).spotIn tree
    (db.get spot = none ∧ db.cfgdbAdd record tree = db.set spot record) ∨
      ∃ holder, db.get spot = some holder ∧
        db.cfgdbAdd record tree =
          (db.erase (db.heap holder).removalSpot).set spot record := by
  intro spot
  cases found : db.get spot with
  | none =>
      left
      exact ⟨rfl, by simp [cfgdbAdd, spot, found]⟩
  | some holder =>
      right
      have different : holder ≠ record := by
        rintro rfl
        exact unheld spot found
      exact ⟨holder, rfl, by simp [cfgdbAdd, cfgdbRemove, spot, found, different]⟩

/-- An addition stores the record, unless it is there, and may remove another. -/
theorem cfgdbAdd_cases (db : CfgDb) (record : NodeId) (tree : TreeId) :
    db.cfgdbAdd record tree = db ∨
      (∃ spot, db.cfgdbAdd record tree =
        (db.erase spot).set ((db.heap record).spotIn tree) record) ∨
      db.cfgdbAdd record tree = db.set ((db.heap record).spotIn tree) record := by
  unfold cfgdbAdd
  dsimp only
  split
  · split
    · exact .inl rfl
    · exact .inr (.inl ⟨_, rfl⟩)
  · exact .inr (.inr rfl)

theorem heap_cfgdbAdd (db : CfgDb) (record : NodeId) (tree : TreeId) :
    (db.cfgdbAdd record tree).heap = db.heap := by
  rcases db.cfgdbAdd_cases record tree with same | ⟨spot, same⟩ | same <;> rw [same]
  · rw [heap_set, heap_erase]
  · rw [heap_set]

theorem next_cfgdbAdd (db : CfgDb) (record : NodeId) (tree : TreeId) :
    (db.cfgdbAdd record tree).next = db.next := by
  rcases db.cfgdbAdd_cases record tree with same | ⟨spot, same⟩ | same <;> rw [same]
  · rw [next_set, next_erase]
  · rw [next_set]

/-! What a traversal visits. -/

theorem values_eq_toList {Key : Type} {order : Key → Key → Ordering}
    (tree : Std.TreeMap Key NodeId order) : tree.values = tree.toList.map Prod.snd := by
  have values : tree.values = tree.inner.inner.toListModel.map Sigma.snd :=
    Std.DTreeMap.Internal.Impl.values_eq_map_snd
  have pairs : tree.toList = tree.inner.inner.toListModel.map fun pair => (pair.1, pair.2) :=
    Std.DTreeMap.Internal.Impl.Const.toList_eq_toListModel_map
  rw [values, pairs, List.map_map]
  rfl

theorem mem_values {Key : Type} {order : Key → Key → Ordering} [Std.TransCmp order]
    [Std.LawfulEqCmp order] {tree : Std.TreeMap Key NodeId order} {record : NodeId}
    (visited : record ∈ tree.values) : ∃ key : Key, tree[key]? = some record := by
  rw [values_eq_toList] at visited
  obtain ⟨⟨key, held⟩, member, rfl⟩ := List.mem_map.mp visited
  exact ⟨key, Std.TreeMap.mem_toList_iff_getElem?_eq_some.mp member⟩

end CfgDb

end Nwmng
