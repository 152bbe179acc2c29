/-
Module: Nwmng.Cfg.Keyed
Purpose: Which records the trees hold, and under which keys, over whole runs of
database operations.
Trusted boundary: none
Main exports:
  Keyed, KeyInvariant, DbOp, DbOp.run, DbOp.Clean, keyed_iff_clean
-/
import Nwmng.Lib.Execution
import Nwmng.Cfg.Moves

namespace Nwmng

open Transition

/-! ## Records at their own places -/

/-- The place is one of the record's own: a provisioned device under its current
non-zero address, any other device under its UUID. -/
def Spot.Owned (node : Node) : Spot → Prop
  | .unprovDevs uuid => node.uuid = uuid
  | .nodes addr => addr ≠ 0 ∧ node.addr = addr
  | .backlog uuid => node.uuid = uuid

/-- Every record is in one tree at most, and there under its own key.  The trees store pointers,
so a record whose key field is written while it is in a tree can no longer be found. -/
structure Keyed (db : CfgDb) : Prop where
  one_tree : ∀ {first second record}, db.get first = some record →
    db.get second = some record → first.tree = second.tree
  own_key : ∀ {spot record}, db.get spot = some record →
    spot.Owned (db.heap record)

/-- What the operations need besides: identities handed out later are not in use,
and the tree of unprovisioned devices holds no record with an address. -/
structure KeyInvariant (db : CfgDb) : Prop extends Keyed db where
  allocated : ∀ {spot record}, db.get spot = some record → record < db.next
  unaddressed : ∀ {uuid record}, db.get (.unprovDevs uuid) = some record →
    (db.heap record).addr = 0

/-- In one tree, a record owns one place only. -/
theorem Spot.Owned.unique {node : Node} {first second : Spot}
    (one : first.Owned node) (two : second.Owned node)
    (sameTree : first.tree = second.tree) : first = second := by
  cases first <;> cases second <;> simp_all [Spot.Owned, Spot.tree]

theorem Keyed.one_spot {db : CfgDb} (keyed : Keyed db) {first second : Spot}
    {record : NodeId} (one : db.get first = some record)
    (two : db.get second = some record) : first = second :=
  (keyed.own_key one).unique (keyed.own_key two) (keyed.one_tree one two)

/-- Taking a record out of its place leaves it in no tree. -/
theorem Keyed.unheld_of_erase {db : CfgDb} (keyed : Keyed db) {spot : Spot}
    {record : NodeId} (found : db.get spot = some record) :
    (db.erase spot).Unheld record := by
  intro other stillThere
  obtain ⟨different, there⟩ := CfgDb.get_of_get_erase stillThere
  exact different (keyed.one_spot found there)

theorem spotIn_owned_of_addr (node : Node) (addressed : node.addr ≠ 0) :
    node.spotIn .nodes = .nodes node.addr ∧ (node.spotIn .nodes).Owned node := by
  simp [Node.spotIn, Node.addrKey, Spot.Owned, addressed]

theorem spotIn_owned_of_no_addr (node : Node) (noAddress : node.addr = 0) :
    node.spotIn .unprovDevs = .unprovDevs node.uuid ∧
      (node.spotIn .unprovDevs).Owned node := by
  simp [Node.spotIn, Node.uuidKey, Spot.Owned, noAddress]

/-- A provisioned record is looked for where it is stored. -/
theorem removalSpot_of_addr {node : Node} (addressed : node.addr ≠ 0) :
    node.removalSpot = .nodes node.addr := by
  simp [Node.removalSpot, Node.gHtb, Node.spotIn, Node.addrKey, addressed]

/-- A record without address is looked for among the unprovisioned devices only
when it names a template, and in the backlog otherwise. -/
theorem removalSpot_of_no_addr {node : Node} (noAddress : node.addr = 0) :
    node.removalSpot =
      if node.hasTemplate then .unprovDevs node.uuid else .backlog node.uuid := by
  by_cases templated : node.hasTemplate = true <;>
    simp [Node.removalSpot, Node.gHtb, Node.spotIn, Node.uuidKey, noAddress,
      templated]

/-!
## What keeps the invariant

Three kinds of changes are enough for all operations: a record is stored at a place of its own,
its fields are written while it stays at home, and it is taken out.
-/

theorem KeyInvariant.init : KeyInvariant CfgDb.cfgdbInit where
  one_tree := by simp
  own_key := by simp
  allocated := by simp
  unaddressed := by simp

theorem KeyInvariant.erase {db : CfgDb} (inv : KeyInvariant db) (spot : Spot) :
    KeyInvariant (db.erase spot) where
  one_tree := by
    intro first second record one two
    exact inv.one_tree (CfgDb.get_of_get_erase one).2 (CfgDb.get_of_get_erase two).2
  own_key := by
    intro other record found
    simpa using inv.own_key (CfgDb.get_of_get_erase found).2
  allocated := by
    intro other record found
    simpa using inv.allocated (CfgDb.get_of_get_erase found).2
  unaddressed := by
    intro uuid record found
    simpa using inv.unaddressed (CfgDb.get_of_get_erase found).2

/-- A record no tree holds may be stored at a place of its own. -/
theorem KeyInvariant.set {db : CfgDb} (inv : KeyInvariant db) {spot : Spot}
    {record : NodeId} (unheld : db.Unheld record)
    (owned : spot.Owned (db.heap record)) (allocated : record < db.next)
    (unaddressed : spot.tree = .unprovDevs → (db.heap record).addr = 0) :
    KeyInvariant (db.set spot record) := by
  have look : ∀ {other holder}, (db.set spot record).get other = some holder →
      (spot = other ∧ record = holder) ∨ db.get other = some holder := by
    intro other holder found
    rw [CfgDb.get_set] at found
    by_cases same : spot = other
    · simp only [same, if_true, Option.some.injEq] at found
      exact .inl ⟨same, found⟩
    · simp only [same, if_false] at found
      exact .inr found
  constructor
  · constructor
    · intro first second holder one two
      rcases look one with ⟨rfl, rfl⟩ | old
      · rcases look two with ⟨rfl, _⟩ | old
        · rfl
        · exact False.elim (unheld _ old)
      · rcases look two with ⟨rfl, rfl⟩ | other
        · exact False.elim (unheld _ old)
        · exact inv.one_tree old other
    · intro other holder found
      rw [CfgDb.heap_set]
      rcases look found with ⟨rfl, rfl⟩ | old
      · exact owned
      · exact inv.own_key old
  · intro other holder found
    rw [CfgDb.next_set]
    rcases look found with ⟨rfl, rfl⟩ | old
    · exact allocated
    · exact inv.allocated old
  · intro uuid holder found
    rw [CfgDb.heap_set]
    rcases look found with ⟨rfl, rfl⟩ | old
    · exact unaddressed rfl
    · exact inv.unaddressed old

/-- Writing a record keeps the invariant when the record stays at home wherever
it is held. -/
theorem KeyInvariant.update {db : CfgDb} (inv : KeyInvariant db)
    {record : NodeId} {change : Node → Node}
    (stays : ∀ {spot}, db.get spot = some record →
      spot.Owned (change (db.heap record)) ∧
        (spot.tree = .unprovDevs → (change (db.heap record)).addr = 0)) :
    KeyInvariant (db.update record change) := by
  constructor
  · constructor
    · intro first second holder one two
      rw [CfgDb.get_update] at one two
      exact inv.one_tree one two
    · intro spot holder found
      rw [CfgDb.get_update] at found
      by_cases same : holder = record
      · subst same
        rw [CfgDb.heap_update_self]
        exact (stays found).1
      · rw [CfgDb.heap_update_of_ne db change same]
        exact inv.own_key found
  · intro spot holder found
    rw [CfgDb.get_update] at found
    exact inv.allocated found
  · intro uuid holder found
    rw [CfgDb.get_update] at found
    by_cases same : holder = record
    · subst same
      rw [CfgDb.heap_update_self]
      exact (stays found).2 rfl
    · rw [CfgDb.heap_update_of_ne db change same]
      exact inv.unaddressed found

/-- Fields that neither name nor address the device may change freely. -/
theorem KeyInvariant.update_fields {db : CfgDb} (inv : KeyInvariant db)
    (record : NodeId) {change : Node → Node}
    (uuid_same : (change (db.heap record)).uuid = (db.heap record).uuid)
    (addr_same : (change (db.heap record)).addr = (db.heap record).addr) :
    KeyInvariant (db.update record change) := by
  apply inv.update
  intro spot found
  have owned := inv.own_key found
  refine ⟨?_, ?_⟩
  · cases spot <;> simpa [Spot.Owned, uuid_same, addr_same] using owned
  · intro unprovisioned
    cases spot with
    | unprovDevs uuid => rw [addr_same, inv.unaddressed found]
    | nodes addr => cases unprovisioned
    | backlog uuid => cases unprovisioned

theorem KeyInvariant.alloc {db : CfgDb} (inv : KeyInvariant db) :
    KeyInvariant db.alloc := by
  have heap_same : ∀ {spot record}, db.get spot = some record →
      db.alloc.heap record = db.heap record := by
    intro spot record found
    exact CfgDb.heap_alloc_of_ne db (Nat.ne_of_lt (inv.allocated found))
  constructor
  · constructor
    · intro first second record one two
      rw [CfgDb.get_alloc] at one two
      exact inv.one_tree one two
    · intro spot record found
      rw [CfgDb.get_alloc] at found
      rw [heap_same found]
      exact inv.own_key found
  · intro spot record found
    rw [CfgDb.get_alloc] at found
    exact Nat.lt_succ_of_lt (inv.allocated found)
  · intro uuid record found
    rw [CfgDb.get_alloc] at found
    rw [heap_same found]
    exact inv.unaddressed found

/-- Adding a record no tree holds, at a place of its own. -/
theorem KeyInvariant.cfgdbAdd {db : CfgDb} (inv : KeyInvariant db)
    {record : NodeId} {tree : TreeId} (unheld : db.Unheld record)
    (allocated : record < db.next)
    (owned : ((db.heap record).spotIn tree).Owned (db.heap record))
    (unaddressed : tree = .unprovDevs → (db.heap record).addr = 0) :
    KeyInvariant (db.cfgdbAdd record tree) := by
  have inTree : ((db.heap record).spotIn tree).tree = tree := by
    cases tree <;> rfl
  rcases CfgDb.cfgdbAdd_of_unheld unheld tree with ⟨_, added⟩ | ⟨holder, _, added⟩
  · rw [added]
    exact inv.set unheld owned allocated (by simpa [inTree] using unaddressed)
  · rw [added]
    apply (inv.erase (db.heap holder).removalSpot).set
    · intro spot stillThere
      exact unheld spot (CfgDb.get_of_get_erase stillThere).2
    · simpa using owned
    · simpa using allocated
    · simpa [inTree] using unaddressed

/-!
## The operations

An operation is clean when the fields it leaves in a record lead back to where the record is
kept.  Under the invariant this is also necessary: an operation that is not clean leaves a record
under a key that is not its own, or in two trees.
-/

/-- The operations on the device database, with what their callers choose.  These are the loads
of the file, the writes of the fields, the moves between the trees, and their removal. -/
inductive DbOp where
  | loadNode (entry : NodeEntry) (backlog : Bool)
  | backlogNodeAdd (uuid : Uuid)
  | uplNodesetAddr (uuid : Uuid) (addr : UInt16)
  | nodesRm (addr : UInt16)
  | nodesBl (addr : UInt16)
  | nodesetErrbits (addr : UInt16) (err : BitVec 32)
  | nodesetDone (addr : UInt16) (done : UInt8)
  | nodesetFunc (addr : UInt16) (func : BitVec 8)
  | removeAllUpl
  | removeAllNodes

namespace DbOp

def run (db : CfgDb) : DbOp → Except Abort CfgDb
  | .loadNode entry backlog => .ok (db.loadNode entry backlog)
  | .backlogNodeAdd uuid => .ok (db.backlogNodeAdd uuid)
  | .uplNodesetAddr uuid addr => db.uplNodesetAddr uuid addr
  | .nodesRm addr => db.nodesRm addr
  | .nodesBl addr => db.nodesBl addr
  | .nodesetErrbits addr err => db.nodesetErrbits addr err
  | .nodesetDone addr done => db.nodesetDone addr done
  | .nodesetFunc addr func => db.nodesetFunc addr func
  | .removeAllUpl => .ok db.cfgdbRemoveAllUpl
  | .removeAllNodes => .ok db.cfgdbRemoveAllNodes

/-- The condition under which an operation leaves every record under its own key.
A new backlog entry must be read back under its UUID, and a device that receives
an address must receive a non-zero one and name a template. -/
def Clean (db : CfgDb) : DbOp → Prop
  | .loadNode entry true =>
      db.get (.backlog entry.uuid) = none →
        (entry.fill Node.zeroed).uuidKey = entry.uuid
  | .uplNodesetAddr uuid addr =>
      ∀ record, db.get (.unprovDevs uuid) = some record →
        addr ≠ 0 ∧ (db.heap record).hasTemplate = true
  | _ => True

/-- What provisioning is for: the device leaves the unprovisioned ones and is
found under its new address. -/
def Moved : Move CfgDb DbOp → Prop
  | { source, label := .uplNodesetAddr uuid addr, target } =>
      target.get (.unprovDevs uuid) = none ∧
        target.get (.nodes addr) = source.get (.unprovDevs uuid)
  | _ => True

end DbOp

/-- A freshly allocated and filled record is in no tree. -/
theorem KeyInvariant.unheld_fresh {db : CfgDb} (inv : KeyInvariant db)
    (change : Node → Node) : (db.alloc.update db.next change).Unheld db.next := by
  intro spot found
  rw [CfgDb.get_update, CfgDb.get_alloc] at found
  exact Nat.lt_irrefl _ (inv.allocated found)

/-- Allocating a record, filling it and adding it at a place of its own. -/
theorem KeyInvariant.addFresh {db : CfgDb} (inv : KeyInvariant db)
    {change : Node → Node} {tree : TreeId}
    (owned : ((change Node.zeroed).spotIn tree).Owned (change Node.zeroed))
    (unaddressed : tree = .unprovDevs → (change Node.zeroed).addr = 0) :
    KeyInvariant ((db.alloc.update db.next change).cfgdbAdd db.next tree) := by
  have filled : KeyInvariant (db.alloc.update db.next change) := by
    apply inv.alloc.update
    intro spot found
    rw [CfgDb.get_alloc] at found
    exact False.elim (Nat.lt_irrefl _ (inv.allocated found))
  apply filled.cfgdbAdd (inv.unheld_fresh change)
  · simp
  · simpa using owned
  · simpa using unaddressed

theorem KeyInvariant.loadNode {db : CfgDb} (inv : KeyInvariant db)
    {entry : NodeEntry} {backlog : Bool}
    (clean : DbOp.Clean db (.loadNode entry backlog)) :
    KeyInvariant (db.loadNode entry backlog) := by
  unfold CfgDb.loadNode
  cases found : db.get (entry.lookupSpot backlog) with
  | some record =>
      apply inv.update
      intro spot there
      have here := inv.one_spot found there
      subst here
      cases backlog with
      | true => exact ⟨rfl, fun impossible => nomatch impossible⟩
      | false =>
          by_cases addressed : entry.addr = 0
          · simp [NodeEntry.lookupSpot, NodeEntry.fill, Spot.Owned, addressed]
          · simp [NodeEntry.lookupSpot, NodeEntry.fill, Spot.Owned, Spot.tree,
              addressed]
  | none =>
      apply inv.addFresh
      · cases backlog with
        | true => exact (clean found).symm
        | false =>
            by_cases addressed : entry.addr = 0
            · simpa [NodeEntry.treeOf, addressed] using
                (spotIn_owned_of_no_addr (entry.fill Node.zeroed) addressed).2
            · simpa [NodeEntry.treeOf, addressed] using
                (spotIn_owned_of_addr (entry.fill Node.zeroed) addressed).2
      · cases backlog with
        | true => intro impossible; cases impossible
        | false =>
            by_cases addressed : entry.addr = 0
            · simp [NodeEntry.fill, addressed]
            · simp [NodeEntry.treeOf, addressed]

/-- A new backlog entry that is not read back under its UUID is stored under a
key that is not its own. -/
theorem KeyInvariant.loadNode_clean_of_keyed {db : CfgDb} (inv : KeyInvariant db)
    {entry : NodeEntry} {backlog : Bool}
    (keyed : Keyed (db.loadNode entry backlog)) :
    DbOp.Clean db (.loadNode entry backlog) := by
  cases backlog with
  | false => trivial
  | true =>
      intro absent
      let filled := db.alloc.update db.next entry.fill
      have stored : (db.loadNode entry true).get
          (.backlog (entry.fill Node.zeroed).uuidKey) = some db.next ∧
            (db.loadNode entry true).heap db.next = entry.fill Node.zeroed := by
        have loaded : db.loadNode entry true = filled.cfgdbAdd db.next .backlog := by
          simp [CfgDb.loadNode, NodeEntry.lookupSpot, NodeEntry.treeOf, absent, filled]
        rw [loaded]
        rcases CfgDb.cfgdbAdd_of_unheld (inv.unheld_fresh entry.fill) .backlog with
          ⟨_, added⟩ | ⟨holder, _, added⟩
        all_goals
          change filled.cfgdbAdd db.next .backlog = _ at added
          rw [added, CfgDb.heap_set]
          simp [Node.spotIn]
      have owned := keyed.own_key stored.1
      rw [stored.2] at owned
      exact owned.symm

theorem KeyInvariant.backlogNodeAdd {db : CfgDb} (inv : KeyInvariant db)
    (uuid : Uuid) : KeyInvariant (db.backlogNodeAdd uuid) := by
  apply inv.addFresh
  · rfl
  · intro impossible
    cases impossible

/-- Provisioning moves a record that names a template. -/
theorem KeyInvariant.uplNodesetAddr {source target : CfgDb}
    (inv : KeyInvariant source) {uuid : Uuid} {addr : UInt16}
    (clean : DbOp.Clean source (.uplNodesetAddr uuid addr))
    (taken : source.uplNodesetAddr uuid addr = .ok target) :
    KeyInvariant target ∧
      DbOp.Moved ⟨source, .uplNodesetAddr uuid addr, target⟩ := by
  unfold CfgDb.uplNodesetAddr CfgDb.cfgdbUnprovDevGet at taken
  cases found : source.get (.unprovDevs uuid) with
  | none => simp [found] at taken
  | some record =>
      obtain ⟨nonzero, templated⟩ := clean record found
      have named : (source.heap record).uuid = uuid := inv.own_key found
      have place : (source.heap record).removalSpot = .unprovDevs uuid := by
        rw [removalSpot_of_no_addr (inv.unaddressed found), templated, named]
        rfl
      simp only [found, CfgDb.cfgdbRemove, place, Except.ok.injEq] at taken
      have unheld := inv.unheld_of_erase found
      let addressed := (source.erase (.unprovDevs uuid)).update record
        fun node => { node with addr := addr }
      have heldNowhere : addressed.Unheld record := by
        intro spot there
        exact unheld spot (by simpa [addressed] using there)
      have inv' : KeyInvariant addressed := by
        apply (inv.erase _).update
        intro spot there
        exact False.elim (unheld spot there)
      have own : (addressed.heap record).spotIn .nodes = .nodes addr ∧
          ((addressed.heap record).spotIn .nodes).Owned (addressed.heap record) := by
        have atAddr := spotIn_owned_of_addr (addressed.heap record)
        simpa [addressed, nonzero] using atAddr
      refine ⟨?_, ?_⟩
      · rw [← taken]
        apply inv'.cfgdbAdd heldNowhere
        · simpa [addressed] using inv.allocated found
        · exact own.2
        · intro impossible
          cases impossible
      · have gone : addressed.get (.unprovDevs uuid) = none := by
          simp [addressed, CfgDb.get_erase]
        rcases CfgDb.cfgdbAdd_of_unheld heldNowhere .nodes with
          ⟨_, added⟩ | ⟨holder, _, added⟩
        all_goals
          rw [own.1] at added
          change addressed.cfgdbAdd record .nodes = target at taken
          rw [added] at taken
          subst taken
        · simp [DbOp.Moved, CfgDb.get_set, gone, found]
        · simp [DbOp.Moved, CfgDb.get_set, CfgDb.get_erase, gone, found]

/-- A device that receives the address zero, or that names no template, does not
end where it should: its record stays, or is stored under a foreign key. -/
theorem KeyInvariant.uplNodesetAddr_clean_of_moved {source target : CfgDb}
    (inv : KeyInvariant source) {uuid : Uuid} {addr : UInt16}
    (taken : source.uplNodesetAddr uuid addr = .ok target)
    (keyed : Keyed target)
    (moved : DbOp.Moved ⟨source, .uplNodesetAddr uuid addr, target⟩) :
    DbOp.Clean source (.uplNodesetAddr uuid addr) := by
  intro record found
  obtain ⟨gone, arrived⟩ := moved
  rw [found] at arrived
  have nonzero : addr ≠ 0 := (keyed.own_key arrived).1
  refine ⟨nonzero, ?_⟩
  by_contra untemplated
  have noAddress := inv.unaddressed found
  have place : (source.heap record).removalSpot =
      .backlog (source.heap record).uuid := by
    rw [removalSpot_of_no_addr noAddress]
    simp [untemplated]
  simp only [CfgDb.uplNodesetAddr, CfgDb.cfgdbUnprovDevGet, found,
    CfgDb.cfgdbRemove, place, Except.ok.injEq] at taken
  let addressed := (source.erase (.backlog (source.heap record).uuid)).update record
    fun node => { node with addr := addr }
  have own : (addressed.heap record).spotIn .nodes = .nodes addr := by
    have atAddr := spotIn_owned_of_addr (addressed.heap record)
    simpa [addressed, nonzero] using (atAddr (by simpa [addressed] using nonzero)).1
  -- whatever held the address was provisioned, so removing it spares the record
  have spared : target.get (.unprovDevs uuid) = some record := by
    have before : addressed.get (.unprovDevs uuid) = some record := by
      simp [addressed, CfgDb.get_erase, found]
    change addressed.cfgdbAdd record .nodes = target at taken
    unfold CfgDb.cfgdbAdd at taken
    rw [own] at taken
    cases held : addressed.get (.nodes addr) with
    | none =>
        simp only [held] at taken
        rw [← taken, CfgDb.get_set]
        simpa using before
    | some holder =>
        have there : source.get (.nodes addr) = some holder := by
          simpa [addressed, CfgDb.get_erase] using held
        have different : holder ≠ record := by
          rintro rfl
          have sameTree := inv.one_tree there found
          cases sameTree
        have holderAddr : (addressed.heap holder).addr = addr := by
          simpa [addressed, CfgDb.heap_update_of_ne _ _ different] using
            (inv.own_key there).2
        have place' : (addressed.heap holder).removalSpot = .nodes addr := by
          rw [removalSpot_of_addr (by rw [holderAddr]; exact nonzero), holderAddr]
        simp only [held, different, if_false, CfgDb.cfgdbRemove, place'] at taken
        rw [← taken, CfgDb.get_set, CfgDb.get_erase]
        simpa using before
  rw [spared] at gone
  cases gone

/-- Taking a provisioned record out, clearing its address and adding it to the
unprovisioned devices: the common part of `nodes_rm` and `nodes_bl`. -/
theorem KeyInvariant.retire {db : CfgDb} (inv : KeyInvariant db) {addr : UInt16}
    {record : NodeId} (found : db.get (.nodes addr) = some record)
    {change : Node → Node}
    (cleared : ∀ node, (change node).addr = 0) :
    KeyInvariant (((db.cfgdbRemove record .nodes).update record change).cfgdbAdd
      record .unprovDevs) := by
  obtain ⟨nonzero, stored⟩ := inv.own_key found
  have place : (db.heap record).removalSpot = .nodes addr := by
    rw [removalSpot_of_addr (by rw [stored]; exact nonzero), stored]
  rw [CfgDb.cfgdbRemove, place]
  have unheld := inv.unheld_of_erase found
  have inv' : KeyInvariant ((db.erase (.nodes addr)).update record change) := by
    apply (inv.erase _).update
    intro spot there
    exact False.elim (unheld spot there)
  have noAddress : (((db.erase (.nodes addr)).update record change).heap record).addr
      = 0 := by
    rw [CfgDb.heap_update_self, cleared]
  apply inv'.cfgdbAdd
  · intro spot there
    exact unheld spot (by simpa using there)
  · simpa using inv.allocated found
  · exact (spotIn_owned_of_no_addr _ noAddress).2
  · intro _
    exact noAddress

theorem KeyInvariant.nodeset {source target : CfgDb} (inv : KeyInvariant source)
    {addr : UInt16} {change : Node → Node}
    (uuid_same : ∀ node, (change node).uuid = node.uuid)
    (addr_same : ∀ node, (change node).addr = node.addr)
    (taken : source.nodeset addr change = .ok target) : KeyInvariant target := by
  unfold CfgDb.nodeset at taken
  cases found : source.cfgdbNodeGet addr with
  | none => simp [found] at taken
  | some record =>
      simp only [found, Except.ok.injEq] at taken
      rw [← taken]
      exact inv.update_fields record (uuid_same _) (addr_same _)

theorem KeyInvariant.removeAll {db : CfgDb} (inv : KeyInvariant db)
    {emptied : CfgDb} (heap_same : emptied.heap = db.heap)
    (next_same : emptied.next = db.next)
    (fewer : ∀ {spot record}, emptied.get spot = some record →
      db.get spot = some record) : KeyInvariant emptied where
  one_tree one two := inv.one_tree (fewer one) (fewer two)
  own_key found := by rw [heap_same]; exact inv.own_key (fewer found)
  allocated found := by rw [next_same]; exact inv.allocated (fewer found)
  unaddressed found := by rw [heap_same]; exact inv.unaddressed (fewer found)

/-- One clean operation keeps every record under its own key. -/
theorem KeyInvariant.step {source target : CfgDb} {op : DbOp}
    (inv : KeyInvariant source) (clean : op.Clean source)
    (taken : op.run source = .ok target) : KeyInvariant target := by
  cases op with
  | loadNode entry backlog =>
      cases taken
      exact inv.loadNode clean
  | backlogNodeAdd uuid =>
      cases taken
      exact inv.backlogNodeAdd uuid
  | uplNodesetAddr uuid addr => exact (inv.uplNodesetAddr clean taken).1
  | nodesRm addr =>
      unfold DbOp.run CfgDb.nodesRm CfgDb.cfgdbNodeGet at taken
      cases found : source.get (.nodes addr) with
      | none => simp [found] at taken
      | some record =>
          simp only [found, Except.ok.injEq] at taken
          rw [← taken]
          exact inv.retire found fun _ => rfl
  | nodesBl addr =>
      unfold DbOp.run CfgDb.nodesBl CfgDb.cfgdbNodeGet at taken
      cases found : source.get (.nodes addr) with
      | none => simp [found] at taken
      | some record =>
          simp only [found, Except.ok.injEq] at taken
          rw [← taken]
          exact inv.retire found fun _ => rfl
  | nodesetErrbits addr err => refine inv.nodeset ?_ ?_ taken <;> intro node <;> rfl
  | nodesetDone addr done => refine inv.nodeset ?_ ?_ taken <;> intro node <;> rfl
  | nodesetFunc addr func => refine inv.nodeset ?_ ?_ taken <;> intro node <;> rfl
  | removeAllUpl =>
      cases taken
      refine inv.removeAll rfl rfl ?_
      intro spot record found
      cases spot <;> simp_all [CfgDb.get, CfgDb.cfgdbRemoveAllUpl]
  | removeAllNodes =>
      cases taken
      refine inv.removeAll rfl rfl ?_
      intro spot record found
      cases spot <;> simp_all [CfgDb.get, CfgDb.cfgdbRemoveAllNodes]

/-- Under the invariant, an operation is clean exactly when it leaves every record
in one tree at most and under its own key, and completes the move it stands for. -/
theorem KeyInvariant.clean_iff {source target : CfgDb} {op : DbOp}
    (inv : KeyInvariant source) (taken : op.run source = .ok target) :
    Keyed target ∧ DbOp.Moved ⟨source, op, target⟩ ↔ op.Clean source := by
  constructor
  · rintro ⟨keyed, moved⟩
    cases op with
    | loadNode entry backlog =>
        cases taken
        exact inv.loadNode_clean_of_keyed keyed
    | uplNodesetAddr uuid addr =>
        exact inv.uplNodesetAddr_clean_of_moved taken keyed moved
    | _ => trivial
  · intro clean
    refine ⟨(inv.step clean taken).toKeyed, ?_⟩
    cases op with
    | uplNodesetAddr uuid addr => exact (inv.uplNodesetAddr clean taken).2
    | _ => trivial

/-! ## Whole runs -/

/-- A run of database operations. -/
abbrev DbRun := Execution (Succeeds DbOp.run)

/-- In a run from `cfgdb_init`, every operation leaves each record in one tree at most and under
its own key, and every provisioning completes its move, exactly when every operation of the run
is clean.  Two operations can be unclean: the load of a backlog entry with an address, which
`G_KEY` then takes for a key, and the provisioning of a device without a template. -/
theorem keyed_iff_clean {past : List (Move CfgDb DbOp)} {db : CfgDb}
    (run : DbRun CfgDb.cfgdbInit past db) :
    (∀ move ∈ past, Keyed move.target ∧ DbOp.Moved move) ↔
      Guarded (fun source op => DbOp.Clean source op) past := by
  apply run.good_iff_guarded _ _ KeyInvariant.init
  · intro move inv taken
    exact inv.clean_iff taken
  · intro move inv taken good
    exact inv.step ((inv.clean_iff taken).mp good) taken

/-- An entry for an unprovisioned device. -/
def unprovisionedEntry (tmpl : TmplField) : NodeEntry where
  uuid := Vector.replicate 16 1
  addr := 0
  done := 0
  rmorbl := 0
  err := 0
  func := 0
  tmpl := tmpl
  config := id

/-- A device with template 1 is loaded and provisioned: every move is good. -/
theorem keyed_iff_clean_templated :
    ∃ past db, DbRun CfgDb.cfgdbInit past db ∧ past.length = 2 ∧
      ∀ move ∈ past, Keyed move.target ∧ DbOp.Moved move := by
  let entry := unprovisionedEntry (.present 64 1)
  let labels : List DbOp :=
    [.loadNode entry false, .uplNodesetAddr entry.uuid 2]
  have replayed : replays DbOp.run CfgDb.cfgdbInit labels
      (fun past _ => past.all fun move =>
        (move.source.get (.unprovDevs entry.uuid)).all fun record =>
          (move.source.heap record).hasTemplate) = true := by
    decide +kernel
  obtain ⟨past, db, run, same, templated⟩ := execution_of_replays replayed
  refine ⟨past, db, run, by simpa [labels] using congrArg List.length same, ?_⟩
  apply (keyed_iff_clean run).mpr
  intro move member
  have label : move.label ∈ labels := by
    rw [← same]
    exact List.mem_map_of_mem member
  have templatedHere := List.all_eq_true.mp templated move member
  rcases List.mem_cons.mp label with loads | rest
  · rw [loads]
    trivial
  · rw [List.mem_singleton.mp rest]
    intro record found
    exact ⟨by decide, by simpa [found] using templatedHere⟩

/-- A device without template id is loaded and provisioned: its record is then
found under its address and still under its UUID. -/
theorem keyed_fails_untemplated :
    ∃ past db, DbRun CfgDb.cfgdbInit past db ∧
      past.map Move.label =
        [.loadNode (unprovisionedEntry .absent) false,
          .uplNodesetAddr (Vector.replicate 16 1) 2] ∧
      ¬ ∀ move ∈ past, Keyed move.target ∧ DbOp.Moved move := by
  have replayed : replays DbOp.run CfgDb.cfgdbInit
      [.loadNode (unprovisionedEntry .absent) false,
        .uplNodesetAddr (Vector.replicate 16 1) 2]
      (fun past _ => past.any fun move =>
        move.target.get (.unprovDevs (Vector.replicate 16 1)) == some 0 &&
          move.target.get (.nodes 2) == some 0) = true := by
    decide +kernel
  obtain ⟨past, db, run, same, twice⟩ := execution_of_replays replayed
  refine ⟨past, db, run, same, fun every => ?_⟩
  obtain ⟨move, member, both⟩ := List.any_eq_true.mp twice
  simp only [Bool.and_eq_true, beq_iff_eq] at both
  have sameTree := (every move member).1.one_tree both.1 both.2
  cases sameTree

end Nwmng
