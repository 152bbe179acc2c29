/-
Module: Nwmng.Cfg.Staying
Purpose: Which functions leave every unprovisioned device where it is, and keep the open file
in a state in which a field of a node can be written.
Trusted boundary: none
Main exports:
  Stays, LoadKeeps, LoadKeeps.jsonCfgOpen, NodesState.HasSubnet, NodesState.writeField_total
-/
import Nwmng.Mng.OpenFile

namespace Nwmng

open Json Fallible

/-! ## The records -/

/-- Wherever there was an unprovisioned device, there is one.  It may be another record: a load
may put a new one under the same UUID. -/
def Stays (before after : CfgDb) : Prop :=
  ∀ uuid, (before.get (.unprovDevs uuid)).isSome = true →
    (after.get (.unprovDevs uuid)).isSome = true

namespace Stays

variable {db after : CfgDb} {entries : List Value}

theorem refl (db : CfgDb) : Stays db db := fun _ found => found

theorem trans {middle : CfgDb} (one : Stays db middle) (two : Stays middle after) :
    Stays db after := fun uuid found => two uuid (one uuid found)

/-- Only the backlog differs. -/
theorem of_get (same : ∀ spot, spot.tree ≠ .backlog → after.get spot = db.get spot) :
    Stays db after := by
  intro uuid found
  have notBacklog : (Spot.unprovDevs uuid).tree ≠ .backlog := fun impossible => nomatch impossible
  rw [same _ notBacklog]
  exact found

/-- A node that loses its address joins the unprovisioned devices. -/
theorem relocated {record : NodeId} {addr : UInt16} (moved : Relocated db after record addr)
    (addressed : (db.heap record).addr ≠ 0) : Stays db after := by
  intro uuid found
  rw [moved.get]
  split
  · rfl
  · rw [removalSpot_of_addr addressed, CfgDb.get_erase, if_neg (fun impossible =>
      nomatch impossible)]
    exact found

theorem nodesRm (registered : Registered db entries) {addr : UInt16}
    (done : db.nodesRm addr = .ok after) : Stays db after := by
  obtain ⟨record, found, moved⟩ := registered.relocated_nodesRm done
  obtain ⟨same, nonzero⟩ := registered.nodes addr record found
  apply Stays.relocated moved
  rw [same]
  exact nonzero

theorem nodesBl (registered : Registered db entries) {addr : UInt16}
    (done : db.nodesBl addr = .ok after) : Stays db after := by
  obtain ⟨record, found, moved⟩ := registered.relocated_nodesBl done
  obtain ⟨same, nonzero⟩ := registered.nodes addr record found
  apply Stays.relocated moved
  rw [same]
  exact nonzero

/-- The other devices, when one gets an address. -/
theorem uplNodesetAddr (registered : Registered db entries) {uuid other : Uuid}
    {addr : UInt16} (nonzero : addr ≠ 0) (free : Registered.AddrFree entries uuid addr)
    (done : db.uplNodesetAddr uuid addr = .ok after) (different : other ≠ uuid)
    (found : (db.get (.unprovDevs other)).isSome = true) :
    (after.get (.unprovDevs other)).isSome = true := by
  obtain ⟨record, _, isUuid, moved⟩ := registered.relocated_uplNodesetAddr nonzero free done
  have apart : (db.heap record).removalSpot ≠ .unprovDevs other := by
    by_cases addressed : (db.heap record).addr = 0
    · rw [removalSpot_of_no_addr addressed, isUuid]
      split
      · intro same
        exact different (Spot.unprovDevs.inj same).symm
      · exact fun impossible => nomatch impossible
    · rw [removalSpot_of_addr addressed]
      exact fun impossible => nomatch impossible
  rw [moved.get]
  split
  · rfl
  · rw [CfgDb.get_erase, if_neg apart]
    exact found

theorem backlogNodeAdd {uuid : Uuid} (absent : db.cfgdbBacklogGet uuid = none) :
    Stays db (db.backlogNodeAdd uuid) := by
  apply of_get
  intro spot notBacklog
  rw [Registered.get_backlogNodeAdd absent, if_neg]
  intro same
  exact notBacklog (by rw [← same]; rfl)

/-- An entry of the file is loaded. -/
theorem loadNode (registered : Registered db entries) (entry : NodeEntry) :
    Stays db (db.loadNode entry false) := by
  have writes : ∃ record, Writes db (db.loadNode entry false) entry record := by
    rcases loadNode_writes registered.allotted entry with ⟨record, _, writes⟩ | ⟨_, writes⟩
    · exact ⟨record, writes⟩
    · exact ⟨_, writes⟩
  obtain ⟨record, writes⟩ := writes
  intro uuid found
  rw [writes.get]
  split
  · rfl
  · exact found

/-- An entry of the backlog is loaded, without an address. -/
theorem loadBacklogEntry (db : CfgDb) {entry : NodeEntry} (noAddress : entry.addr = 0) :
    Stays db (db.loadNode entry true) := by
  apply of_get
  intro spot notBacklog
  rw [Registered.get_loadBacklogEntry db noAddress, if_neg]
  intro here
  exact notBacklog (by rw [← here]; rfl)

end Stays

/-!
## A rule for loads

A load is a fold over the entries of the file and of the backlog.  The rule reduces whatever is
claimed of a load to one entry of either kind.
-/

/-- What every entry of the file and of the backlog keeps.  A property with this structure holds
after the load of a whole file if it held before. -/
structure LoadKeeps (holds : CfgDb → Prop) (entries : List Value) : Prop where
  entry : ∀ {db : CfgDb} {item : Value} {entry : NodeEntry}, Registered db entries →
    item ∈ entries → Parsed item entry → holds db → holds (db.loadNode entry false)
  backlog : ∀ {db : CfgDb} {entry : NodeEntry}, Registered db entries → entry.addr = 0 →
    holds db → holds (db.loadNode entry true)

namespace LoadKeeps

variable {holds : CfgDb → Prop} {entries : List Value} {db after : CfgDb}

theorem array (keeps : LoadKeeps holds entries) (registered : Registered db entries)
    (initially : holds db) {templates : Templates} {fresh : Nat → UInt64} {index : Nat}
    {items : List Value} (inside : ∀ item ∈ items, item ∈ entries)
    (loads : loadNodeArr templates fresh false index items db = .ok after) : holds after := by
  induction items generalizing index db with
  | nil =>
      cases loads
      exact initially
  | cons first rest hypothesis =>
      simp only [loadNodeArr, bind_ok] at loads
      obtain ⟨middle, round, later⟩ := loads
      have isFirst := inside first List.mem_cons_self
      have middleHolds : holds middle := by
        rcases loadNodeItem_parsed round with ⟨_, same⟩ | ⟨entry, parsed, same⟩
        · rw [same]
          exact initially
        · rw [same]
          exact keeps.entry registered isFirst parsed initially
      apply hypothesis (registered.item isFirst round) middleHolds _ later
      exact fun item member => inside item (List.mem_cons_of_mem _ member)

theorem backlogArray (keeps : LoadKeeps holds entries) (registered : Registered db entries)
    (initially : holds db) {templates : Templates} {fresh : Nat → UInt64} {index : Nat}
    {items : List Value}
    (noAddress : ∀ item ∈ items, ∀ addr, EntryAddr item addr → addr = 0)
    (loads : loadNodeArr templates fresh true index items db = .ok after) : holds after := by
  induction items generalizing index db with
  | nil =>
      cases loads
      exact initially
  | cons first rest hypothesis =>
      simp only [loadNodeArr, bind_ok] at loads
      obtain ⟨middle, round, later⟩ := loads
      have kept : Registered middle entries ∧ holds middle := by
        rcases loadNodeItem_parsed round with ⟨_, same⟩ | ⟨entry, parsed, same⟩
        · rw [same]
          exact ⟨registered, initially⟩
        · have zero := noAddress first List.mem_cons_self _ parsed.addr
          rw [same]
          exact ⟨registered.loadBacklogEntry zero, keeps.backlog registered zero initially⟩
      apply hypothesis kept.1 kept.2 _ later
      exact fun item member => noAddress item (List.mem_cons_of_mem _ member)

/-- What a load keeps that succeeds. -/
theorem reload {env : LoadEnv} {force : Bool} {file : SavedFile} {nw opened : NwCfg}
    (keeps : LoadKeeps holds file.entries)
    (registered : Registered (clearedFor force db) file.entries)
    (noAddress : ∀ item ∈ file.backlog, ∀ addr, EntryAddr item addr → addr = 0)
    (initially : holds (clearedFor force db))
    (done : reloadNodesFile env force file nw db = .ok (true, opened, after)) : holds after := by
  simp only [reloadNodesFile, bind_ok] at done
  obtain ⟨⟨isOpen, middle⟩, opens, done⟩ := done
  cases isOpen with
  | false => cases done
  | true =>
      have root := openJsonFile_root opens
      simp only [if_true, loadJsonFile, bind_ok] at done
      obtain ⟨⟨isLoaded, last⟩, loads, finish⟩ := done
      cases finish
      unfold loadNodes at loads
      split at loads
      · cases loads
      · cases loads
      · split at loads
        · cases loads
        · rename_i nodes found
          simp only [bind_ok] at loads
          obtain ⟨filled, nodesLoad, final, backlogLoad, result⟩ := loads
          cases result
          have isEntries := entries_of_root root
          unfold NwCfg.entries at isEntries
          rw [found] at isEntries
          have filledKeeps : Registered filled file.entries ∧ holds filled := by
            unfold loadNodeValue at nodesLoad
            split at nodesLoad
            · cases nodesLoad
              exact ⟨registered, initially⟩
            · rename_i items same
              cases same
              have inside : ∀ item ∈ items, item ∈ file.entries := by
                intro item member
                rw [← isEntries]
                exact member
              exact ⟨registered.array inside nodesLoad,
                keeps.array registered initially inside nodesLoad⟩
            · cases nodesLoad
          unfold loadBacklog at backlogLoad
          split at backlogLoad
          · cases backlogLoad
            exact filledKeeps.2
          · unfold loadNodeValue at backlogLoad
            split at backlogLoad
            · cases backlogLoad
              exact filledKeeps.2
            · rename_i items isBacklog
              apply keeps.backlogArray filledKeeps.1 filledKeeps.2 _ backlogLoad
              intro item member
              apply noAddress item
              cases content : file.content with
              | none =>
                  rw [root, content] at isBacklog
                  cases isBacklog
              | some tree =>
                  rw [root, content, Option.bind_some] at isBacklog
                  rw [SavedFile.backlog_eq content]
                  unfold backlogOf
                  rw [isBacklog]
                  exact member
            · cases backlogLoad
          · cases backlogLoad

/-- What opening the file keeps, when it succeeds; nothing is loaded that is up to date. -/
theorem jsonCfgOpen {state opened : NodesState} {env : LoadEnv} {force : Bool}
    (keeps : LoadKeeps holds state.file.entries)
    (registered : Registered (clearedFor force state.db) state.file.entries)
    (noAddress : ∀ item ∈ state.file.backlog, ∀ addr, EntryAddr item addr → addr = 0)
    (initially : holds (clearedFor force state.db))
    (done : state.jsonCfgOpen env force = .ok (true, opened)) : holds opened.db := by
  obtain ⟨⟨isLoaded, nw, db⟩, opens, result⟩ := bind_ok.mp done
  cases result
  unfold Nwmng.jsonCfgOpen at opens
  split at opens
  · rename_i latest
    have notForced : force = false := by
      cases force with
      | false => rfl
      | true => simp at latest
    subst notForced
    cases opens
    exact initially
  · exact keeps.reload registered noAddress initially opens

end LoadKeeps

theorem Stays.loadKeeps (db : CfgDb) (entries : List Value) : LoadKeeps (Stays db) entries where
  entry := fun registered _ _ stays => stays.trans (Stays.loadNode registered _)
  backlog := fun _ noAddress stays => stays.trans (Stays.loadBacklogEntry _ noAddress)

/-! ## The open file -/

namespace NodesState

variable {state after : NodesState}

/-- There is a first subnet in the open file. -/
def HasSubnet (state : NodesState) : Prop :=
  ∀ tree, state.nw.tree = some tree → ∃ others, tree.subnets = some (others + 1)

/-- The trees of two states have as many subnets. -/
theorem HasSubnet.of_same (has : state.HasSubnet)
    (same : after.nw.tree.map (·.subnets) = state.nw.tree.map (·.subnets)) :
    after.HasSubnet := by
  intro tree held
  rw [held] at same
  cases before : state.nw.tree with
  | none =>
      rw [before] at same
      cases same
  | some older =>
      rw [before] at same
      obtain ⟨others, subnets⟩ := has older before
      exact ⟨others, (Option.some.inj same).trans subnets⟩

theorem subnets_amend (nw : NwCfg) (path : List Step) (change : Value → Value) :
    (nw.amend path change).tree.map (·.subnets) = nw.tree.map (·.subnets) := by
  unfold NwCfg.amend
  cases nw.tree with
  | none => rfl
  | some tree => rfl

theorem subnets_jsonCfgFlush (clock : SaveClock) (nw : NwCfg) (file : SavedFile) :
    (jsonCfgFlush clock nw file).1.tree.map (·.subnets) = nw.tree.map (·.subnets) := by
  obtain ⟨tree, synctime, flushes, backlog⟩ := nw
  cases tree with
  | none => rfl
  | some tree => rfl

theorem subnets_autoFlush (clock : SaveClock) (state : NodesState) :
    (state.autoFlush clock).nw.tree.map (·.subnets) = state.nw.tree.map (·.subnets) := by
  unfold autoFlush
  split
  · exact subnets_jsonCfgFlush clock state.nw state.file
  · rfl

theorem subnets_writeField {input : WriteInput} {uuid : Uuid} {field : NodeField}
    (written : state.writeField input uuid field = .ok after) :
    after.nw.tree.map (·.subnets) = state.nw.tree.map (·.subnets) := by
  unfold writeField at written
  split at written
  · cases written
    rfl
  · obtain ⟨⟨nw, file⟩, writes, result⟩ := bind_ok.mp written
    cases result
    obtain ⟨⟨found, changed⟩, modified, saved⟩ := bind_ok.mp writes
    have same : changed.tree.map (·.subnets) = state.nw.tree.map (·.subnets) := by
      obtain ⟨place, _, modified⟩ := bind_ok.mp modified
      cases place with
      | none =>
          cases modified
          rfl
      | some index =>
          cases modified
          exact subnets_amend _ _ _
    dsimp only at saved
    split at saved
    · have isSaved := Except.ok.inj saved
      have flushed := subnets_jsonCfgFlush input.clock changed state.file
      rw [isSaved] at flushed
      exact flushed.trans same
    · cases saved
      exact same

theorem subnets_onNode {input : WriteInput} {addr : UInt16}
    {change : CfgDb → Except Abort CfgDb} {field : Node → NodeField}
    (done : state.onNode input addr change field = .ok after) :
    after.nw.tree.map (·.subnets) = state.nw.tree.map (·.subnets) := by
  unfold onNode at done
  split at done
  · obtain ⟨db, _, written⟩ := bind_ok.mp done
    exact @subnets_writeField { state with db := db } _ _ _ _ written
  · cases done

theorem subnets_nodesBl {input second : WriteInput} {addr : UInt16}
    (done : state.nodesBl input second addr = .ok after) :
    after.nw.tree.map (·.subnets) = state.nw.tree.map (·.subnets) := by
  unfold nodesBl at done
  split at done
  · obtain ⟨db, _, done⟩ := bind_ok.mp done
    obtain ⟨middle, first, written⟩ := bind_ok.mp done
    have one := @subnets_writeField { state with db := db } _ _ _ _ first
    exact (subnets_writeField written).trans one
  · cases done

theorem subnets_backlogDev {clock : SaveClock} {uuid : Uuid}
    (done : state.backlogDev clock uuid = .ok after) :
    after.nw.tree.map (·.subnets) = state.nw.tree.map (·.subnets) := by
  unfold backlogDev at done
  split at done
  · cases done
    rfl
  · cases done
  · cases done
  · dsimp only at done
    split at done
    · cases done
      exact (subnets_autoFlush _ _).trans (subnets_amend _ _ _)
    · cases done

/-- A field of a node can be written whenever the file is open. -/
theorem writeField_total (has : state.HasSubnet) {entries backlog : List Value}
    (isOpen : FileOpen state entries backlog) (input : WriteInput) (uuid : Uuid)
    (field : NodeField) : ∃ after, state.writeField input uuid field = .ok after := by
  have array := isOpen.firstNodes
  unfold writeField
  cases held : state.nw.tree with
  | none => exact absurd held isOpen.tree
  | some tree =>
      obtain ⟨others, subnets⟩ := has tree held
      have counted : state.nw.subnets = some (others + 1) := by
        unfold NwCfg.subnets
        rw [held]
        exact subnets
      have searched : findNode input.stack uuid state.nw =
          .ok (findEntry input.stack uuid 0 entries) := by
        unfold findNode
        rw [counted, array]
      have writes : ∃ saved, writeNodes input uuid field state.nw state.file = .ok saved := by
        simp only [writeNodes, setNodeField, modifyNodeField, searched, ok_bind]
        cases findEntry input.stack uuid 0 entries with
        | none =>
            simp only [ok_bind]
            split
            · exact ⟨_, rfl⟩
            · exact ⟨_, rfl⟩
        | some index =>
            simp only [ok_bind]
            split
            · exact ⟨_, rfl⟩
            · exact ⟨_, rfl⟩
      obtain ⟨⟨nw, file⟩, writes⟩ := writes
      exact ⟨_, bind_ok.mpr ⟨(nw, file), writes, rfl⟩⟩

/-! ### Loading the file -/

/-- An open file that was loaded has a subnet. -/
theorem reload_hasSubnet {env : LoadEnv} {force loaded : Bool} {file : SavedFile}
    {nw opened : NwCfg} {db result : CfgDb}
    (done : reloadNodesFile env force file nw db = .ok (loaded, opened, result)) :
    ∀ tree, opened.tree = some tree → ∃ others, tree.subnets = some (others + 1) := by
  have closed : ∀ nw : NwCfg, ∀ tree, nw.jsonCfgClose.tree = some tree →
      ∃ others, tree.subnets = some (others + 1) := by
    intro nw tree held
    unfold NwCfg.jsonCfgClose at held
    split at held
    · rename_i absent
      rw [absent] at held
      cases held
    · cases held
  simp only [reloadNodesFile, bind_ok] at done
  obtain ⟨⟨isOpen, middle⟩, _, done⟩ := done
  cases isOpen with
  | false =>
      cases done
      exact closed middle
  | true =>
      simp only [if_true, loadJsonFile, bind_ok] at done
      obtain ⟨⟨isLoaded, last⟩, loads, finish⟩ := done
      cases finish
      unfold loadNodes at loads
      split at loads
      · cases loads
        exact closed middle
      · cases loads
      · rename_i others counted
        split at loads
        · cases loads
          exact closed middle
        · simp only [bind_ok] at loads
          obtain ⟨filled, _, final, _, result⟩ := loads
          cases result
          intro tree held
          refine ⟨others, ?_⟩
          unfold NwCfg.subnets at counted
          simp only [if_true] at held
          rw [held] at counted
          exact counted

theorem hasSubnet_jsonCfgOpen (has : state.HasSubnet) {env : LoadEnv} {force loaded : Bool}
    (done : state.jsonCfgOpen env force = .ok (loaded, after)) : after.HasSubnet := by
  obtain ⟨⟨isLoaded, nw, db⟩, opens, result⟩ := bind_ok.mp done
  cases result
  unfold Nwmng.jsonCfgOpen at opens
  split at opens
  · cases opens
    exact has
  · exact reload_hasSubnet opens

end NodesState

end Nwmng
