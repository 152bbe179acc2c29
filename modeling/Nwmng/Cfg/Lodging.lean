/-
Module: Nwmng.Cfg.Lodging
Purpose: Where the records stand in the trees over every load and every move, and whose place a
record takes when it moves.
Trusted boundary: none
Main exports:
  Node.home, Lodged, CfgDb.Spares, CfgDb.Keeps, Lodged.moved, CfgDb.Keeps.nodesRm,
  CfgDb.Keeps.uplNodesetAddr, Lodged.jsonCfgOpen
-/
import Nwmng.Cfg.FactoryReset

namespace Nwmng

open Json Fallible

/-!
## Records at home

A record that a pointer leads to is safe as long as some tree holds it: the trees own the
records.  A record leaves its tree when it is moved itself, and when another one is added at its
place, which frees it.  To tell the two apart one has to know where the records stand.
-/

/-- Where the fields of a record lead: under its address, or without one under its UUID. -/
def Node.home (node : Node) : Spot := homeOf node.addr node.uuid

/-- Every node and every unprovisioned device stands where its fields lead.  Unlike `Keyed`, it
says nothing of the backlog, and holds after any load. -/
structure Lodged (db : CfgDb) : Prop extends Allotted db where
  home : ∀ spot record, spot.tree ≠ .backlog → db.get spot = some record →
    (db.heap record).home = spot

/-- None of the records is at the place. -/
def CfgDb.Spares (db : CfgDb) (refs : List NodeId) (spot : Spot) : Prop :=
  ∀ holder, db.get spot = some holder → holder ∉ refs

/-- The records stay in the trees, and those stay in order. -/
def CfgDb.Keeps (refs : List NodeId) (db after : CfgDb) : Prop :=
  Lodged db → Lodged after ∧ ∀ record ∈ refs, db.Known record → after.Known record

namespace Lodged

variable {db after : CfgDb}

theorem init : Lodged CfgDb.cfgdbInit where
  toAllotted := Allotted.init
  home := by
    intro spot record _ found
    rw [CfgDb.get_cfgdbInit] at found
    cases found

/-- A record stands at one place. -/
theorem one_spot (lodged : Lodged db) {first second : Spot} {record : NodeId}
    (isFirst : first.tree ≠ .backlog) (isSecond : second.tree ≠ .backlog)
    (one : db.get first = some record) (two : db.get second = some record) : first = second :=
  (lodged.home first record isFirst one).symm.trans (lodged.home second record isSecond two)

/-- A node stands under its address, which is not 0. -/
theorem node (lodged : Lodged db) {addr : UInt16} {record : NodeId}
    (found : db.get (.nodes addr) = some record) :
    (db.heap record).addr = addr ∧ addr ≠ 0 := by
  have home := lodged.home (.nodes addr) record (nomatch ·) found
  unfold Node.home homeOf at home
  split at home
  · rename_i addressed
    cases home
    exact ⟨rfl, addressed⟩
  · cases home

/-- An unprovisioned device stands under its UUID, and has no address. -/
theorem device (lodged : Lodged db) {uuid : Uuid} {record : NodeId}
    (found : db.get (.unprovDevs uuid) = some record) :
    (db.heap record).uuid = uuid ∧ (db.heap record).addr = 0 := by
  have home := lodged.home (.unprovDevs uuid) record (nomatch ·) found
  unfold Node.home homeOf at home
  split at home
  · cases home
  · rename_i unaddressed
    cases home
    exact ⟨rfl, not_not.mp unaddressed⟩

/-- Fields that do not tell where the record stands are written. -/
theorem update (lodged : Lodged db) (record : NodeId) {change : Node → Node}
    (stays : (change (db.heap record)).home = (db.heap record).home) :
    Lodged (db.update record change) where
  toAllotted := by
    apply lodged.toAllotted.shrink
    · intro spot other found
      rwa [CfgDb.get_update] at found
    · rfl
  home := by
    intro spot other notBacklog found
    rw [CfgDb.get_update] at found
    by_cases same : other = record
    · subst same
      rw [CfgDb.heap_update_self, stays]
      exact lodged.home spot other notBacklog found
    · rw [CfgDb.heap_update_of_ne db change same]
      exact lodged.home spot other notBacklog found

/-- What is left among the nodes and the devices is as it was. -/
theorem retained (lodged : Lodged db) (allotted : Allotted after)
    (retained : Retained db after) : Lodged after where
  toAllotted := allotted
  home := by
    intro spot record notBacklog found
    obtain ⟨before, same⟩ := retained spot record notBacklog found
    rw [same]
    exact lodged.home spot record notBacklog before

theorem cleared (lodged : Lodged db) : Lodged db.cfgdbRemoveAllNodes.cfgdbRemoveAllUpl where
  toAllotted := lodged.toAllotted.cleared
  home := by
    intro spot record notBacklog found
    exact absurd ⟨spot, notBacklog, found⟩ known_cleared

end Lodged

/-!
## Loads

A load that clears the trees first frees every record.  It matters then whether it goes on: a
refusal behind the clearing would leave empty trees, and lists that were not made again.
-/

namespace Lodged

variable {db after : CfgDb}

/-- A record that an entry is written into stands where the entry leads. -/
theorem write (lodged : Lodged db) (allotted : Allotted after) {entry : NodeEntry}
    {record : NodeId} (writes : Writes db after entry record)
    (elsewhere : ∀ spot, spot.tree ≠ .backlog → db.get spot = some record →
      homeOf entry.addr entry.uuid = spot) : Lodged after where
  toAllotted := allotted
  home := by
    intro spot other notBacklog found
    rw [writes.get] at found
    have own : ((Function.update db.heap record
        (entry.fill (db.loadTarget entry false))) record).home =
        homeOf entry.addr entry.uuid := by
      rw [Function.update_self]
      rfl
    rw [writes.heap]
    split at found
    · rename_i here
      cases found
      exact own.trans here
    · by_cases same : other = record
      · subst same
        exact own.trans (elsewhere spot notBacklog found)
      · rw [Function.update_of_ne same]
        exact lodged.home spot other notBacklog found

/-- One round of `__load_node_arr`. -/
theorem loadNode (lodged : Lodged db) (entry : NodeEntry) (backlog : Bool) :
    Lodged (db.loadNode entry backlog) := by
  have allotted : Allotted (db.loadNode entry backlog) :=
    @Allotted.run _ _ lodged.toAllotted (.loadNode entry backlog) rfl
  cases backlog with
  | true =>
      exact lodged.retained allotted (loadNode_backlog_retained lodged.toAllotted entry).1
  | false =>
      rcases loadNode_writes lodged.toAllotted entry with ⟨record, held, writes⟩ | ⟨_, writes⟩
      · apply lodged.write allotted writes
        intro spot notBacklog found
        exact lodged.one_spot (homeOf_not_backlog _ _) notBacklog held found
      · apply lodged.write allotted writes
        intro spot _ found
        exact absurd (lodged.allocated spot _ found) (Nat.lt_irrefl _)

theorem jsonCfgOpen {env : LoadEnv} {force loaded : Bool} {file : SavedFile}
    {nw opened : NwCfg} (lodged : Lodged db)
    (opens : Nwmng.jsonCfgOpen env force file nw db = .ok (loaded, opened, after)) :
    Lodged after := by
  have kept : KeptByLoads Lodged := fun db entry backlog holds => holds.loadNode entry backlog
  exact kept.jsonCfgOpen (fun _ holds => holds.cleared) lodged opens

/-- A device that the file does not know gets a record in the backlog. -/
theorem backlogNodeAdd (lodged : Lodged db) {uuid : Uuid}
    (absent : db.cfgdbBacklogGet uuid = none) : Lodged (db.backlogNodeAdd uuid) := by
  apply lodged.retained (lodged.toAllotted.backlogNodeAdd uuid)
  intro spot record notBacklog found
  rw [Registered.get_backlogNodeAdd absent, if_neg] at found
  · have older := Nat.ne_of_lt (lodged.allocated spot record found)
    refine ⟨found, ?_⟩
    rw [Registered.backlogNodeAdd_eq absent, CfgDb.heap_set,
      CfgDb.heap_update_of_ne _ _ older, CfgDb.heap_alloc_of_ne _ older]
  · rintro rfl
    exact notBacklog rfl

end Lodged

theorem openMembers_subnets {members : List (String × Value)} {tree after : OpenTree}
    {backlog seen : BacklogRef}
    (present : tree.subnets.isSome = true ∨ (Value.lookup strSubnets members).isSome = true)
    (done : openMembers members tree backlog = .ok (true, after, seen)) :
    after.subnets.isSome = true := by
  induction members generalizing tree backlog with
  | nil =>
      cases done
      exact present.resolve_right (nomatch ·)
  | cons first rest hypothesis =>
      obtain ⟨key, value⟩ := first
      unfold openMembers at done
      split at done
      · split at done
        · simp only [bind_ok] at done
          obtain ⟨whole, _, done⟩ := done
          split at done
          · exact hypothesis (.inl rfl) done
          · cases done
        · cases done
      · rename_i other
        rw [Value.lookup, if_neg other] at present
        split at done
        · split at done
          · exact hypothesis present done
          · exact hypothesis present done
        · exact hypothesis present done

/-- A file that was opened has subnets in memory, if it has a path to nodes. -/
theorem openJsonFile_subnets {file : SavedFile} {nw after : NwCfg} {root nodes : Value}
    (content : file.content = some root) (seeks : root.seek nodesPath = some nodes)
    (done : openJsonFile file nw = .ok (true, after)) : after.subnets ≠ none := by
  unfold openJsonFile at done
  split at done
  · rename_i members isObject
    simp only [bind_ok] at done
    obtain ⟨synctime, _, ⟨opened, tree, backlog⟩, walked, result⟩ := done
    cases opened with
    | false => cases result
    | true =>
        cases result
        have present : (Value.lookup strSubnets members).isSome = true := by
          rw [content] at isObject
          cases isObject
          cases found : Value.lookup strSubnets members with
          | some _ => rfl
          | none => simp [nodesPath, Value.seek, Value.child, Value.get, found] at seeks
        have counted := openMembers_subnets (.inr present) walked
        intro absent
        change tree.subnets = none at absent
        rw [absent] at counted
        cases counted
  · cases done

/-- What is refused is refused before the first entry is read. -/
theorem loadNodes_refused {env : LoadEnv} {nw : NwCfg} {db after : CfgDb}
    (done : loadNodes env nw db = .ok (false, after)) :
    after = db ∧ (nw.subnets = none ∨ nw.firstNodes = none) := by
  unfold loadNodes at done
  split at done
  · rename_i absent
    cases done
    exact ⟨rfl, .inl absent⟩
  · cases done
  · split at done
    · rename_i missed
      cases done
      exact ⟨rfl, .inr missed⟩
    · simp only [bind_ok] at done
      obtain ⟨_, _, _, _, impossible⟩ := done
      cases impossible

/-- A load that is refused leaves the records, unless it clears them and the file has no nodes. -/
theorem jsonCfgOpen_refused {env : LoadEnv} {force : Bool} {file : SavedFile}
    {nw opened : NwCfg} {db after : CfgDb}
    (nodes : force = true → ∃ root items, file.content = some root ∧
      root.seek nodesPath = some (.array items))
    (opens : jsonCfgOpen env force file nw db = .ok (false, opened, after)) : after = db := by
  unfold jsonCfgOpen at opens
  split at opens
  · cases opens
  · simp only [reloadNodesFile, bind_ok] at opens
    obtain ⟨⟨isOpen, middle⟩, reads, opens⟩ := opens
    cases isOpen with
    | false =>
        cases opens
        rfl
    | true =>
        simp only [if_true, bind_ok] at opens
        obtain ⟨⟨isLoaded, last⟩, loads, result⟩ := opens
        cases result
        obtain ⟨same, missing⟩ := loadNodes_refused loads
        cases force with
        | false => exact same
        | true =>
            obtain ⟨root, items, content, seeks⟩ := nodes rfl
            have present : middle.firstNodes = some (.array items) := by
              unfold NwCfg.firstNodes
              rw [openJsonFile_root reads, content, Option.bind_some, seeks]
            cases missing with
            | inl absent => exact absurd absent (openJsonFile_subnets content seeks reads)
            | inr missed =>
                rw [present] at missed
                cases missed

/-- Behind a write of all nodes that was saved, a load does not leave empty trees. -/
theorem NodesState.refused_after_write {nodes written : NodesState} (held : NodesHeld nodes)
    {clock : SaveClock} {edit : Value → Except Abort Value}
    (done : nodes.writeAll clock edit = .ok (true, written)) {env : LoadEnv} {nw opened : NwCfg}
    {after : CfgDb}
    (opens : Nwmng.jsonCfgOpen env true written.file nw written.db = .ok (false, opened, after)) :
    after = nodes.db := by
  cases isTree : nodes.nw.root with
  | none =>
      have closed : nodes.nw.tree = none := Option.map_eq_none_iff.mp isTree
      unfold writeAll at done
      rw [closed] at done
      cases done
  | some tree =>
      obtain ⟨edited, stamp, _, seeks, content, sameDb⟩ := writeAll_tree held isTree done
      have apart : strSubnets ≠ strSyncTime := of_decide_eq_true rfl
      rw [← sameDb]
      refine jsonCfgOpen_refused (fun _ => ⟨_, edited, content, ?_⟩) opens
      rw [← Value.seek_amend_self seeks fun _ => .array edited]
      simp only [nodesPath, Value.seek, Value.child, Value.get_set_other apart]

/-!
## Moves

A record is taken from its place, gets or loses its address, and is added where it then belongs.
Whoever stood there is removed and freed.  Since every record stands at home, nobody else is.
-/

namespace Lodged

variable {db : CfgDb} {record : NodeId} {addr : UInt16} {change : Node → Node} {tree : TreeId}

/-- The holder of a new place is removed from there, or it is looked for in the backlog. -/
theorem removalSpot_of_home {node : Node} {spot : Spot} (home : node.home = spot) :
    node.removalSpot = spot ∨ node.removalSpot.tree = .backlog := by
  rw [← home, Node.home, homeOf]
  by_cases addressed : node.addr = 0
  · rw [removalSpot_of_no_addr addressed, if_neg (not_not.mpr addressed)]
    split
    · exact .inl rfl
    · exact .inr rfl
  · rw [removalSpot_of_addr addressed, if_pos addressed]
    exact .inl rfl

/-- What stands where after a move. -/
theorem get_moved (lodged : Lodged db)
    (held : db.get (db.heap record).removalSpot = some record)
    (ours : (db.heap record).removalSpot.tree ≠ .backlog)
    (sameUuid : (change (db.heap record)).uuid = (db.heap record).uuid)
    (newAddr : (change (db.heap record)).addr = addr)
    (isTree : tree = if addr ≠ 0 then .nodes else .unprovDevs)
    {spot : Spot} (notBacklog : spot.tree ≠ .backlog) :
    (((db.erase (db.heap record).removalSpot).update record change).cfgdbAdd record tree).get spot =
      if homeOf addr (db.heap record).uuid = spot then some record
      else (db.erase (db.heap record).removalSpot).get spot := by
  let taken := (db.erase (db.heap record).removalSpot).update record change
  have place : (taken.heap record).spotIn tree = homeOf addr (db.heap record).uuid := by
    rw [CfgDb.heap_update_self, CfgDb.heap_erase, isTree]
    by_cases addressed : addr = 0
    · simp [homeOf, addressed, Node.spotIn, Node.uuidKey, newAddr, sameUuid]
    · simp [homeOf, addressed, Node.spotIn, Node.addrKey, newAddr]
  change (taken.cfgdbAdd record tree).get spot = _
  unfold CfgDb.cfgdbAdd
  simp only [place]
  cases found : taken.get (homeOf addr (db.heap record).uuid) with
  | none => simp only [CfgDb.get_set, taken, CfgDb.get_update]
  | some holder =>
      obtain ⟨apart, before⟩ := CfgDb.get_of_get_erase
        (by simpa only [taken, CfgDb.get_update] using found)
      have other : holder ≠ record := by
        rintro rfl
        exact apart (lodged.one_spot ours (homeOf_not_backlog _ _) held before)
      have same : taken.heap holder = db.heap holder := by
        rw [CfgDb.heap_update_of_ne _ _ other, CfgDb.heap_erase]
      simp only [if_neg other, CfgDb.get_set]
      split
      · rfl
      · rename_i elsewhere
        rw [CfgDb.cfgdbRemove, same, CfgDb.get_erase, if_neg, CfgDb.get_update]
        cases removalSpot_of_home (lodged.home _ holder (homeOf_not_backlog _ _) before) with
        | inl here =>
            rw [here]
            exact elsewhere
        | inr backlog =>
            rintro rfl
            exact notBacklog backlog

/-- After a move every record stands at home again. -/
theorem moved (lodged : Lodged db)
    (held : db.get (db.heap record).removalSpot = some record)
    (ours : (db.heap record).removalSpot.tree ≠ .backlog)
    (sameUuid : (change (db.heap record)).uuid = (db.heap record).uuid)
    (newAddr : (change (db.heap record)).addr = addr)
    (isTree : tree = if addr ≠ 0 then .nodes else .unprovDevs) :
    Lodged
      (((db.erase (db.heap record).removalSpot).update record change).cfgdbAdd record tree) where
  toAllotted := by
    apply lodged.toAllotted.move ⟨_, ours, held⟩
    rw [isTree]
    split
    · exact (nomatch ·)
    · exact (nomatch ·)
  home := by
    intro spot other notBacklog found
    rw [lodged.get_moved held ours sameUuid newAddr isTree notBacklog] at found
    rw [CfgDb.heap_cfgdbAdd]
    split at found
    · rename_i here
      cases found
      rw [CfgDb.heap_update_self, CfgDb.heap_erase, Node.home, newAddr, sameUuid]
      exact here
    · obtain ⟨apart, before⟩ := CfgDb.get_of_get_erase found
      have different : other ≠ record := by
        rintro rfl
        exact apart (lodged.one_spot ours notBacklog held before)
      rw [CfgDb.heap_update_of_ne _ _ different, CfgDb.heap_erase]
      exact lodged.home spot other notBacklog before

/-- A move keeps every record but the one that stood at the new place. -/
theorem keeps_moved (lodged : Lodged db) {refs : List NodeId}
    (held : db.get (db.heap record).removalSpot = some record)
    (ours : (db.heap record).removalSpot.tree ≠ .backlog)
    (sameUuid : (change (db.heap record)).uuid = (db.heap record).uuid)
    (newAddr : (change (db.heap record)).addr = addr)
    (isTree : tree = if addr ≠ 0 then .nodes else .unprovDevs)
    (spares : db.Spares refs (homeOf addr (db.heap record).uuid)) :
    CfgDb.Keeps refs db
      (((db.erase (db.heap record).removalSpot).update record change).cfgdbAdd record tree) := by
  have get {place : Spot} (notBacklog : place.tree ≠ .backlog) :=
    lodged.get_moved held ours sameUuid newAddr isTree notBacklog
  intro _
  refine ⟨lodged.moved held ours sameUuid newAddr isTree, ?_⟩
  rintro other referenced ⟨spot, notBacklog, found⟩
  by_cases same : other = record
  · subst same
    refine ⟨homeOf addr (db.heap other).uuid, homeOf_not_backlog _ _, ?_⟩
    rw [get (homeOf_not_backlog _ _), if_pos rfl]
  · refine ⟨spot, notBacklog, ?_⟩
    rw [get notBacklog, if_neg, CfgDb.get_erase, if_neg, found]
    · rintro rfl
      exact same (Option.some.inj (found.symm.trans held))
    · rintro rfl
      exact spares other found referenced

end Lodged

namespace CfgDb.Keeps

variable {refs : List NodeId} {db after : CfgDb}

theorem refl (refs : List NodeId) (db : CfgDb) : Keeps refs db db :=
  fun lodged => ⟨lodged, fun _ _ known => known⟩

theorem trans {third : CfgDb} (one : Keeps refs db after) (two : Keeps refs after third) :
    Keeps refs db third := by
  intro lodged
  obtain ⟨between, first⟩ := one lodged
  obtain ⟨last, second⟩ := two between
  exact ⟨last, fun record member known => second record member (first record member known)⟩

/-- Fields that do not tell where the record stands are written. -/
theorem update (refs : List NodeId) (db : CfgDb) (record : NodeId) {change : Node → Node}
    (stays : ∀ node, (change node).home = node.home) :
    Keeps refs db (db.update record change) := by
  intro lodged
  refine ⟨lodged.update record (stays _), ?_⟩
  rintro other _ ⟨spot, notBacklog, found⟩
  exact ⟨spot, notBacklog, by rwa [CfgDb.get_update]⟩

theorem nodeset (refs : List NodeId) {addr : UInt16} {change : Node → Node}
    (stays : ∀ node, (change node).home = node.home)
    (writes : db.nodeset addr change = .ok after) : Keeps refs db after := by
  obtain ⟨record, _, rfl⟩ := nodeset_eq writes
  exact update refs db record stays

theorem backlogNodeAdd (refs : List NodeId) {uuid : Uuid}
    (absent : db.cfgdbBacklogGet uuid = none) : Keeps refs db (db.backlogNodeAdd uuid) := by
  intro lodged
  refine ⟨lodged.backlogNodeAdd absent, ?_⟩
  rintro record _ ⟨spot, notBacklog, found⟩
  refine ⟨spot, notBacklog, ?_⟩
  rw [Registered.get_backlogNodeAdd absent, if_neg, found]
  rintro rfl
  exact notBacklog rfl

/-- A node loses its address, and goes to the unprovisioned devices. -/
theorem retire {addr : UInt16} {record : NodeId} (found : db.cfgdbNodeGet addr = some record)
    {change : Node → Node} (sameUuid : (change (db.heap record)).uuid = (db.heap record).uuid)
    (cleared : (change (db.heap record)).addr = 0)
    (spares : db.Spares refs (.unprovDevs (db.heap record).uuid)) :
    Keeps refs db
      (((db.cfgdbRemove record .nodes).update record change).cfgdbAdd record .unprovDevs) := by
  intro lodged
  obtain ⟨isAddr, addressed⟩ := lodged.node found
  have removal : (db.heap record).removalSpot = .nodes addr := by
    rw [removalSpot_of_addr (by rwa [isAddr]), isAddr]
  refine lodged.keeps_moved ?_ ?_ sameUuid cleared rfl spares lodged
  · rw [removal]
    exact found
  · rw [removal]
    exact (nomatch ·)

theorem nodesRm {addr : UInt16} (spares : ∀ record, db.cfgdbNodeGet addr = some record →
      db.Spares refs (.unprovDevs (db.heap record).uuid))
    (done : db.nodesRm addr = .ok after) : Keeps refs db after := by
  unfold CfgDb.nodesRm at done
  cases found : db.cfgdbNodeGet addr with
  | none =>
      rw [found] at done
      cases done
  | some record =>
      rw [found] at done
      cases done
      exact retire found rfl rfl (spares record found)

theorem nodesBl {addr : UInt16} (spares : ∀ record, db.cfgdbNodeGet addr = some record →
      db.Spares refs (.unprovDevs (db.heap record).uuid))
    (done : db.nodesBl addr = .ok after) : Keeps refs db after := by
  unfold CfgDb.nodesBl at done
  cases found : db.cfgdbNodeGet addr with
  | none =>
      rw [found] at done
      cases done
  | some record =>
      rw [found] at done
      cases done
      exact retire found rfl rfl (spares record found)

/-- A device gets an address.  Its record is taken out by its own fields, so it leaves the
unprovisioned devices only if it names a template. -/
theorem uplNodesetAddr {uuid : Uuid} {addr : UInt16} (nonzero : addr ≠ 0)
    (templated : ∀ record, db.cfgdbUnprovDevGet uuid = some record →
      (db.heap record).hasTemplate = true)
    (spares : db.Spares refs (.nodes addr))
    (done : db.uplNodesetAddr uuid addr = .ok after) : Keeps refs db after := by
  intro lodged
  unfold CfgDb.uplNodesetAddr at done
  cases found : db.cfgdbUnprovDevGet uuid with
  | none =>
      rw [found] at done
      cases done
  | some record =>
      rw [found] at done
      cases done
      obtain ⟨isUuid, unaddressed⟩ := lodged.device found
      have removal : (db.heap record).removalSpot = .unprovDevs uuid := by
        rw [removalSpot_of_no_addr unaddressed, if_pos (templated record found), isUuid]
      have there : homeOf addr (db.heap record).uuid = .nodes addr := if_pos nonzero
      refine lodged.keeps_moved ?_ ?_ rfl rfl (if_pos nonzero).symm (there ▸ spares) lodged
      · rw [removal]
        exact found
      · rw [removal]
        exact (nomatch ·)

end CfgDb.Keeps

/-- The node that stands under the address is the device that got it. -/
theorem CfgDb.device_of_uplNodesetAddr {db after : CfgDb} {uuid : Uuid} {addr : UInt16}
    {record : NodeId} (nonzero : addr ≠ 0) (moves : db.uplNodesetAddr uuid addr = .ok after)
    (found : after.cfgdbNodeGet addr = some record) : db.cfgdbUnprovDevGet uuid = some record := by
  unfold CfgDb.uplNodesetAddr at moves
  cases device : db.cfgdbUnprovDevGet uuid with
  | none =>
      rw [device] at moves
      cases moves
  | some other =>
      rw [device] at moves
      cases moves
      let taken := (db.cfgdbRemove other .unprovDevs).update other fun node =>
        { node with addr := addr }
      have place : (taken.heap other).spotIn .nodes = .nodes addr := by
        rw [CfgDb.heap_update_self]
        simp [Node.spotIn, Node.addrKey, nonzero]
      have self := CfgDb.get_cfgdbAdd_self taken other .nodes
      rw [place] at self
      exact self.symm.trans found

end Nwmng
