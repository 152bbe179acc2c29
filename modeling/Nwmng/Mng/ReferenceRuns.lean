/-
Module: Nwmng.Mng.ReferenceRuns
Purpose: Over any run of the commands, the events and the main loop, whether every record that the
manager points to is in the database.
Trusted boundary: a provisioned device has an address
Main exports:
  ReferencesKept, ManagerOp.kept, records_held_guarded, configuring_node_freed
-/
import Nwmng.Mng.ReferenceRounds
import Nwmng.Mng.RemovalMarks

namespace Nwmng

open Fallible Transition Json

/-!
## What is kept

The lists are made anew with the records, the slots and the table are not.  So a load has to find
slots and table empty, and they are outside the phases that use them.
-/

/-- Every pointer leads to a record of the trees, and the slots and the table of the nodes that
remain are in use in their phases only. -/
structure ReferencesKept (host : NodesHost) : Prop where
  held : EngineHeld host.mng.bl.remaining host.mng.engine
  autoflush : host.nw.tree.isSome = true → host.nw.autoflush = true
  vacant : host.mng.state.usesSlots = false → host.mng.engine.used = 0
  table : host.mng.bl.rem ≠ none →
    host.mng.bl.state ≠ .idle ∧ host.mng.state = .blacklistingDevicesEm

/-- A write of all nodes goes to an open file. -/
theorem NodesState.tree_of_writeAll {nodes written : NodesState} {clock : SaveClock}
    {edit : Value → Except Abort Value}
    (writes : nodes.writeAll clock edit = .ok (true, written)) : nodes.nw.tree.isSome = true := by
  unfold writeAll at writes
  split at writes
  · cases writes
  · rename_i isTree
    rw [isTree]
    rfl

/-- A record in the backlog, or none. -/
theorem NodesState.db_backlogDev {nodes after : NodesState} {clock : SaveClock} {uuid : Uuid}
    (done : nodes.backlogDev clock uuid = .ok after) :
    after.db = nodes.db ∨ after.db = nodes.db.backlogNodeAdd uuid := by
  unfold backlogDev at done
  split at done
  · cases done
    exact .inl rfl
  · cases done
  · cases done
  · split at done
    · cases done
      right
      unfold autoFlush
      split
      · rfl
      · rfl
    · cases done

/-- The table has no record that it did not have, and the machine goes on while there is one. -/
structure TableKept (before after : BlCache) : Prop where
  records : after.remaining ⊆ before.remaining
  present : after.rem ≠ none → before.rem ≠ none
  active : before.state ≠ .idle → after.state ≠ .idle

theorem TableKept.refl (bl : BlCache) : TableKept bl bl := ⟨fun _ => id, id, id⟩

theorem CfgDb.Known.holds {db : CfgDb} {record : NodeId} (known : db.Known record) :
    db.Holds record := by
  obtain ⟨spot, _, found⟩ := known
  exact ⟨spot, found⟩

/-- The invariant says what is claimed. -/
theorem ReferencesKept.records {host : NodesHost} (kept : ReferencesKept host) :
    host.mng.RecordsHeld := by
  have known : ∀ record ∈ host.mng.references, host.mng.db.Holds record :=
    fun record member => (kept.held.known record member).holds
  have reference : ∀ {record}, record ∈ host.mng.engine.managed ∨ record ∈ host.mng.lists.add ∨
      record ∈ host.mng.lists.bl ∨ record ∈ host.mng.lists.fail →
      host.mng.db.Holds record :=
    fun member => known _ (List.mem_append_left _ (Engine.mem_references.mpr member))
  refine ⟨?_, ?_, ?_, ?_, ?_, ?_, ?_, ?_⟩
  · intro slot _ record here
    exact reference (.inl (List.mem_append_right _ (Engine.mem_held here)))
  · exact fun record member => reference (.inr (.inl member))
  · exact fun record member =>
      reference (.inl (List.mem_append_left _ (List.mem_append_left _ member)))
  · exact fun record member =>
      reference (.inl (List.mem_append_left _ (List.mem_append_right _ member)))
  · exact fun record member => reference (.inr (.inr (.inl member)))
  · exact fun record member => reference (.inr (.inr (.inr member)))
  · exact fun record member => known record (List.mem_append_right _ member)
  · intro slot _ record here
    have apart := (List.nodup_append.mp kept.held.once).2.2
    have inSlot := Engine.mem_held here
    constructor
    · exact fun member => apart record (List.mem_append_left _ member) record inSlot rfl
    · exact fun member => apart record (List.mem_append_right _ member) record inSlot rfl

/-! ## Loads -/

/-- Empty slots hold no records. -/
theorem Engine.Housed.held_of_unused {engine : Engine} (housed : engine.Housed)
    (unused : engine.used = 0) : engine.held = [] := by
  apply List.filterMap_eq_nil_iff.mpr
  intro slot _
  apply housed.free_of_vacant
  rw [Engine.occupied, unused]
  exact BitVec.getLsbD_zero

/-- A node that stands at home is listed once. -/
theorem Lodged.nodup_listed {db : CfgDb} (lodged : Lodged db) : db.listed.Nodup :=
  CfgDb.nodup_listed fun first second one two => lodged.one_spot first second one two

/-- Lists that are made anew point to the records of the trees. -/
theorem EngineHeld.reloaded {inDdb : Uuid → Bool} {mng : Mng} (housed : mng.engine.Housed)
    (unused : mng.engine.used = 0) (lodged : Lodged mng.db)
    (lists : mng.state.Past ∨ mng.lists = Lists.empty) :
    EngineHeld [] (mngLoadLists inDdb mng).engine := by
  have frame : (mngLoadLists inDdb mng).engine =
      { mng.engine with lists := (mngLoadLists inDdb mng).lists } := by
    unfold mngLoadLists
    split <;> rfl
  have noSlots : ({ mng.engine with lists := (mngLoadLists inDdb mng).lists } : Engine).held = [] :=
    housed.held_of_unused unused
  have taken : ∃ taken : List NodeId, taken.Sublist mng.db.listed ∧
      (mngLoadLists inDdb mng).lists = taken.foldl (loadRecord mng.db) Lists.empty := by
    by_cases past : mng.state.Past
    · exact lists_mngLoadLists past
    · refine ⟨[], List.nil_sublist _, ?_⟩
      have empty := lists.resolve_left past
      have same : mngLoadLists inDdb mng = mng := by
        unfold mngLoadLists
        split
        · rfl
        · rfl
        · rename_i notNil notInitialized
          exact absurd ⟨notNil, notInitialized⟩ past
      rw [same, empty]
      rfl
  obtain ⟨records, sublist, same⟩ := taken
  have once := @nodup_foldl_loadRecord mng.db records (lodged.nodup_listed.sublist sublist)
  rw [← same] at once
  rw [frame]
  refine ⟨housed.around _ _ _, ?_, lodged, ?_⟩
  · rw [Engine.managed, noSlots, List.append_nil]
    have both := (List.nodup_append.mp once)
    have removing := (List.nodup_append.mp both.1).2.1
    refine List.nodup_append.mpr ⟨both.2.1, removing, ?_⟩
    intro record configured other removed equal
    exact both.2.2 other (List.mem_append_right _ removed) record configured equal.symm
  · intro record member
    rw [List.append_nil, Engine.mem_references, Engine.managed, noSlots, List.append_nil] at member
    apply CfgDb.mem_listed.mp
    apply sublist.subset
    apply @mem_of_foldl_loadRecord mng.db records record
    rw [← same]
    simp only [List.mem_append] at member ⊢
    tauto

namespace ReferencesKept

variable {host target : NodesHost}

/-- The lists are made anew, with nothing in the slots and no table. -/
theorem relisted {inDdb : Uuid → Bool} (housed : host.mng.engine.Housed)
    (lodged : Lodged host.mng.db) (reloadable : host.mng.Reloadable)
    (autoflush : host.nw.tree.isSome = true → host.nw.autoflush = true) :
    ReferencesKept { host with mng := mngLoadLists inDdb host.mng } := by
  have noTable : (mngLoadLists inDdb host.mng).bl = host.mng.bl := by
    unfold mngLoadLists
    split <;> rfl
  have slots := loadFrame_slotView.mngLoadLists inDdb host.mng
  have used : (mngLoadLists inDdb host.mng).engine.used = host.mng.engine.used :=
    congrArg (fun view => view.2.1) slots
  refine ⟨?_, autoflush, fun _ => used.trans reloadable.slots, ?_⟩
  · have remaining : (mngLoadLists inDdb host.mng).bl.remaining = [] := by
      rw [noTable, BlCache.remaining, reloadable.rem]
      rfl
    rw [remaining]
    exact .reloaded housed reloadable.slots lodged reloadable.lists
  · intro table
    dsimp only at table
    rw [noTable] at table
    exact absurd reloadable.rem table

theorem nodesHeld (kept : ReferencesKept host) : NodesHeld host.nodes :=
  ⟨kept.autoflush, kept.held.lodged.toAllotted⟩

/-- A load with nothing in the slots and no table. -/
theorem loadCfgFile (kept : ReferencesKept host) {env : LoadEnv} {inDdb : Uuid → Bool}
    {clock : SaveClock} {force loaded : Bool} (reloadable : host.mng.Reloadable)
    (refused : ∀ {nw db}, jsonCfgOpen env force host.file host.nw host.mng.db =
      .ok (false, nw, db) → db = host.mng.db)
    (done : loadCfgFile env inDdb clock force host = .ok (loaded, target)) :
    ReferencesKept target := by
  obtain ⟨⟨isLoaded, nw, db⟩, opens, result⟩ := bind_ok.mp done
  have opened : NodesHeld { db := db, nw := nw, file := host.file } :=
    kept.nodesHeld.jsonCfgOpen (bind_ok.mpr ⟨_, opens, rfl⟩)
  cases isLoaded with
  | false =>
      cases result
      have same := refused opens
      subst same
      exact ⟨kept.held, opened.autoflush, kept.vacant, kept.table⟩
  | true =>
      cases result
      let reopened : NodesHost :=
        { mng := host.mng.setDb db, nw := (jsonCfgFlush clock nw host.file).1
          file := (jsonCfgFlush clock nw host.file).2 }
      exact @relisted reopened inDdb (kept.held.housed.around _ _ _)
        (kept.held.lodged.jsonCfgOpen opens)
        ⟨reloadable.slots, reloadable.rem, reloadable.lists⟩ (opened.flush clock).autoflush

/-- The entries are marked in the file, and the records stay. -/
theorem marked (kept : ReferencesKept host) {clock : SaveClock}
    {edit : Value → Except Abort Value} {written : Bool} {nodes : NodesState}
    (writes : host.nodes.writeAll clock edit = .ok (written, nodes)) :
    ReferencesKept (host.setNodes nodes) := by
  have sameDb : nodes.db = host.mng.db := NodesHost.db_writeAll writes
  have same : host.mng.setDb nodes.db = host.mng := by rw [sameDb]; rfl
  refine ⟨?_, (kept.nodesHeld.writeAll writes).autoflush, ?_, ?_⟩
  · change EngineHeld (host.mng.setDb nodes.db).bl.remaining (host.mng.setDb nodes.db).engine
    rw [same]
    exact kept.held
  · exact kept.vacant
  · exact kept.table

/-- A load by force, behind a write of the entries. -/
theorem markedLoad (kept : ReferencesKept host) (reloadable : host.mng.Reloadable)
    {first second : SaveClock} {edit : Value → Except Abort Value} {nodes : NodesState}
    (writes : host.nodes.writeAll first edit = .ok (true, nodes)) {env : LoadEnv}
    {inDdb : Uuid → Bool} {loaded : Bool}
    (loads : Nwmng.loadCfgFile env inDdb second true (host.setNodes nodes) =
      .ok (loaded, target)) : ReferencesKept target := by
  apply (kept.marked writes).loadCfgFile
    ⟨reloadable.slots, reloadable.rem, reloadable.lists⟩ _ loads
  intro nw db refused
  exact (NodesState.refused_after_write kept.nodesHeld writes refused).trans
    (NodesHost.db_writeAll writes).symm

theorem clicbRmblclr (kept : ReferencesKept host) {input : FileInput}
    (reloadable : host.nw.tree.isSome = true → host.mng.Reloadable)
    (done : clicbRmblclr input host = .ok target) : ReferencesKept target := by
  obtain ⟨⟨written, nodes⟩, writes, done⟩ := bind_ok.mp done
  cases written with
  | false =>
      cases done
      exact kept.marked writes
  | true =>
      obtain ⟨⟨loaded, last⟩, loads, result⟩ := bind_ok.mp done
      cases result
      exact kept.markedLoad (reloadable (NodesState.tree_of_writeAll writes)) writes loads

/-- Outside a synchronization, and at its start, nothing is in the slots, and there is no table. -/
theorem reloadable (kept : ReferencesKept host) (unused : host.mng.state.usesSlots = false)
    (other : host.mng.state ≠ .blacklistingDevicesEm)
    (lists : host.mng.state.Past ∨ host.mng.lists = Lists.empty) : host.mng.Reloadable where
  slots := kept.vacant unused
  rem := by
    by_contra table
    exact other (kept.table table).2
  lists := lists

theorem idle_vacant {state : MngState} (idle : state.busy = false) : state.usesSlots = false := by
  cases state with
  | addingDevicesEm | configuringDevicesEm | removingDevicesEm => cases idle
  | _ => rfl

/-- A synchronization begins. -/
theorem begins (kept : ReferencesKept host) (idle : host.mng.state.busy = false) :
    ReferencesKept { host with mng := host.mng.setState .starting } where
  held := ⟨kept.held.housed.around _ _ _, kept.held.once, kept.held.lodged, kept.held.known⟩
  autoflush := kept.autoflush
  vacant _ := kept.vacant (idle_vacant idle)
  table table := absurd (kept.table table).2 (MngState.ne_blacklisting_of_idle idle)

theorem clicbRmall (kept : ReferencesKept host) {input : FileInput}
    (lists : host.mng.state.busy = false → host.nw.tree.isSome = true →
      host.mng.state.Past ∨ host.mng.lists = Lists.empty)
    (done : clicbRmall input host = .ok target) : ReferencesKept target := by
  unfold Nwmng.clicbRmall at done
  split at done
  · cases done
    exact kept
  · rename_i notBusy
    have idle := Bool.eq_false_of_not_eq_true notBusy
    obtain ⟨⟨written, nodes⟩, writes, done⟩ := bind_ok.mp done
    cases written with
    | false =>
        cases done
        exact kept.marked writes
    | true =>
        obtain ⟨⟨loaded, last⟩, loads, result⟩ := bind_ok.mp done
        have isOpen := NodesState.tree_of_writeAll writes
        have reloadable := kept.reloadable (idle_vacant idle)
          (MngState.ne_blacklisting_of_idle idle) (lists idle isOpen)
        have keptLast := kept.markedLoad reloadable writes loads
        cases loaded with
        | false =>
            cases result
            exact keptLast
        | true =>
            cases result
            have same : last.mng.state = (host.setNodes nodes).mng.state :=
              loadFrame_state.loadCfgFile loads
            apply keptLast.begins
            rw [same]
            exact idle

/-- The main loop in the state `starting`. -/
theorem startSync (kept : ReferencesKept host) (starting : host.mng.state = .starting)
    {input : FileInput} {loaded : Bool} (done : startSync input host = .ok (loaded, target)) :
    ReferencesKept target := by
  let reset : NodesHost := { host with mng := host.mng.measure fun _ => Stat.zeroed }
  have keptReset : ReferencesKept reset :=
    ⟨⟨kept.held.housed.around _ _ _, kept.held.once, kept.held.lodged, kept.held.known⟩,
      kept.autoflush, kept.vacant, kept.table⟩
  have past : reset.mng.state.Past := by
    change host.mng.state.Past
    rw [starting]
    exact ⟨(nomatch ·), (nomatch ·)⟩
  have reloadable : reset.mng.Reloadable := by
    apply keptReset.reloadable _ _ (.inl past)
    · change host.mng.state.usesSlots = false
      rw [starting]
      rfl
    · change host.mng.state ≠ _
      rw [starting]
      exact (nomatch ·)
  unfold Nwmng.startSync at done
  dsimp only at done
  split at done
  · refine keptReset.loadCfgFile reloadable ?_ done
    intro nw db refused
    refine jsonCfgOpen_refused ?_ refused
    exact fun impossible => nomatch impossible
  · cases done
    exact @relisted reset input.inDdb keptReset.held.housed keptReset.held.lodged reloadable
      keptReset.autoflush

/-! ## The other steps -/

/-- The manager changes, but not its slots and records, and its table stays what it is. -/
theorem quiet (kept : ReferencesKept host) {mng : Mng} (db : mng.db = host.mng.db)
    (slots : mng.slotView = host.mng.slotView) (bl : TableKept host.mng.bl mng.bl)
    (thinner : Thinner host.mng.lists mng.lists) :
    ReferencesKept { host with mng := mng } := by
  obtain ⟨state, rest⟩ := Prod.mk.inj slots
  obtain ⟨used, cache⟩ := Prod.mk.inj rest
  refine ⟨?_, kept.autoflush, ?_, ?_⟩
  · apply kept.held.moved _ used cache thinner bl.records
    have sameDb : mng.engine.host.db = host.mng.engine.host.db := db
    rw [sameDb]
    exact .refl _ _
  · intro unused
    dsimp only at unused ⊢
    rw [state] at unused
    exact used.trans (kept.vacant unused)
  · intro table
    obtain ⟨active, phase⟩ := kept.table (bl.present table)
    exact ⟨bl.active active, state.trans phase⟩

/-- The records and the lists change, but not the slots, the state and the table. -/
theorem engine (kept : ReferencesKept host) {engine : Engine}
    (held : EngineHeld host.mng.bl.remaining engine) (state : engine.state = host.mng.state)
    (vacant : engine.state.usesSlots = false → engine.used = host.mng.engine.used) :
    ReferencesKept { host with mng := { host.mng with engine := engine } } where
  held := held
  autoflush := kept.autoflush
  vacant := by
    intro unused
    have before : host.mng.state.usesSlots = false := state ▸ unused
    exact (vacant unused).trans (kept.vacant before)
  table := by
    intro table
    obtain ⟨active, phase⟩ := kept.table table
    exact ⟨active, state.trans phase⟩

/-- A device that nobody knows gets a record in the backlog. -/
theorem backlogDev (kept : ReferencesKept host) {clock : SaveClock} {uuid : Uuid}
    {nodes : NodesState} (absent : host.nodes.db.cfgdbBacklogGet uuid = none)
    (adds : host.nodes.backlogDev clock uuid = .ok nodes) :
    ReferencesKept (host.setNodes nodes) := by
  have keeps : CfgDb.Keeps (host.mng.engine.references ++ host.mng.bl.remaining) host.mng.db
      nodes.db := by
    rcases NodesState.db_backlogDev adds with same | added
    · rw [same]
      exact .refl _ _
    · rw [added]
      exact .backlogNodeAdd _ absent
  refine ⟨?_, (kept.nodesHeld.backlogDev adds).autoflush, kept.vacant, kept.table⟩
  exact @EngineHeld.moved _ _ (host.setNodes nodes).mng.engine kept.held keeps rfl rfl (.refl _) _
    fun _ => id

/-- A change of phase.  The phases that use slots are left with empty slots only, and the
blacklisting when its machine is idle. -/
theorem setMngState (kept : ReferencesKept host) (input : PhaseInput) :
    ReferencesKept { host with mng := Nwmng.setMngState input host.mng } := by
  have used := phaseFrame_used.setMngState input host.mng
  have bl := phaseFrame_bl.setMngState input host.mng
  have lists := phaseFrame_lists.setMngState input host.mng
  have db := phaseFrame_db.setMngState input host.mng
  refine ⟨?_, kept.autoflush, ?_, ?_⟩
  · dsimp only
    rw [bl]
    apply kept.held.moved _ used (phaseFrame_cache.setMngState input host.mng) _ fun _ => id
    · change CfgDb.Keeps _ host.mng.db (Nwmng.setMngState input host.mng).db
      rw [db]
      exact .refl _ _
    · change Thinner host.mng.lists (Nwmng.setMngState input host.mng).lists
      rw [lists]
      exact .refl _
  · intro unused
    exact used.trans (setMngState_vacant unused kept.vacant)
  · intro table
    dsimp only at table ⊢
    rw [bl] at table ⊢
    obtain ⟨active, phase⟩ := kept.table table
    rw [setMngState_blacklisting input phase active]
    exact ⟨active, phase⟩

theorem clicbSync (kept : ReferencesKept host) (start : Bool) :
    ReferencesKept { host with mng := Nwmng.clicbSync start host.mng } := by
  rw [clicbSync_eq]
  cases busy : host.mng.state.busy with
  | true =>
      cases start with
      | true => exact kept
      | false => exact kept.quiet rfl rfl (.refl _) (.empty _)
  | false =>
      cases start with
      | true => exact kept.begins busy
      | false => exact kept

/-- One call of `acc_loop`. -/
theorem accLoop (kept : ReferencesKept host) {now : Nat} {input : Slot → RoundInput}
    {engine : Engine}
    (guarded : ∀ prepared, accPrepare now host.mng.engine = some prepared →
      LoopGuarded (fun engine slot => engine.RemovalSpares host.mng.bl.remaining slot)
        (fun engine slot => engineSlot (input slot) engine slot) prepared
        (usedSlots prepared.used))
    (done : Nwmng.accLoop now input host.mng.engine = .ok engine) :
    ReferencesKept { host with mng := { host.mng with engine := engine } } := by
  have state := accLoop_state done
  apply kept.engine (kept.held.accLoop guarded done) state
  intro unused
  rw [state] at unused
  rw [accLoop_idle unused done]

/-- An event of the configuration client. -/
theorem devConfigHdr (kept : ReferencesKept host) {packet : ConfigEvent} {input : EventInput}
    {engine : Engine} (done : Nwmng.devConfigHdr packet input host.mng.engine = .ok engine) :
    ReferencesKept { host with mng := { host.mng with engine := engine } } := by
  have held := kept.held.devConfigHdr done
  obtain ⟨_, _, _, _, _, rfl⟩ := devConfigHdr_step done
  exact kept.engine held rfl fun _ => rfl

end ReferencesKept

/-! ## The blacklisting -/

theorem setPhase_records (db : CfgDb) (uuid : Uuid) (phase : UInt8)
    (table : List (NodeId × UInt8)) :
    (setPhase db uuid phase table).map Prod.fst = table.map Prod.fst := by
  induction table with
  | nil => rfl
  | cons first rest hypothesis =>
      obtain ⟨node, old⟩ := first
      unfold setPhase
      split
      · rfl
      · exact congrArg (node :: ·) hypothesis

/-- An event of the key refresh notes phases in the table, and lets no record in. -/
theorem blHdr_table {packet : BlEvent} {rsp : KeyRsp} {before after : Mng}
    (handled : blHdr packet rsp before = .ok after) : TableKept before.bl after.bl := by
  unfold blHdr at handled
  split at handled
  · cases packet with
    | nodeUpdate key phase uuid =>
        cases handled
        unfold krNodeUpdate
        refine ⟨?_, ?_, id⟩
        · unfold BlCache.remaining
          cases before.bl.rem with
          | none => exact fun _ => id
          | some table =>
              simp only [Option.map_some, Option.getD_some, setPhase_records]
              exact fun _ => id
        · exact fun some_ absent => some_ (Option.map_eq_none_iff.mpr absent)
    | phaseUpdate key phase =>
        cases handled
        exact .refl _
    | complete key result =>
        simp only [krFinish] at handled
        split at handled
        · cases handled
          refine ⟨fun _ => id, id, ?_⟩
          intro _ idle
          cases idle
        · split at handled
          · cases handled
          · cases handled
            refine ⟨fun _ => id, id, ?_⟩
            intro _ idle
            cases idle
  · cases handled
    exact .refl _

/-- The table of the nodes that remain is made of the records under addresses. -/
theorem remainingTable_records {mng : Mng} {rem : Option (List (NodeId × UInt8))}
    (done : remainingTable mng = .ok rem) :
    ∀ record ∈ (rem.getD []).map Prod.fst, record ∈ mng.bl.remaining ∨ mng.db.Known record := by
  unfold remainingTable at done
  dsimp only at done
  split at done
  · unfold loadRemainingNodes at done
    dsimp only at done
    split at done
    · cases done
      exact fun _ member => nomatch member
    · split at done
      · cases done
        intro record member
        simp only [Option.getD_some, List.map_map, List.mem_map, List.mem_filter] at member
        obtain ⟨other, ⟨listed, _⟩, rfl⟩ := member
        obtain ⟨addr, found⟩ := CfgDb.mem_values (List.mem_of_mem_take listed)
        exact .inr ⟨.nodes addr, (nomatch ·), found⟩
      · cases done
  · cases done
    exact fun record member => .inl member

/-- The table that a call of `bl_loop` leaves. -/
theorem blLoop_records {input : BlInput} {before after : Mng}
    (done : blLoop input before = .ok after) :
    ∀ record ∈ after.bl.remaining, record ∈ before.bl.remaining ∨ before.db.Known record := by
  have same : after.bl.rem = before.bl.rem → ∀ record ∈ after.bl.remaining,
      record ∈ before.bl.remaining ∨ before.db.Known record := by
    intro rem record member
    rw [BlCache.remaining, rem] at member
    exact .inl member
  cases state : before.bl.state with
  | idle =>
      rw [blLoop, state] at done
      dsimp only at done
      split at done
      · cases done
        exact same rfl
      · simp only [blBegin, bind_ok] at done
        obtain ⟨rem, table, ⟨cnt, pushed⟩, pushes, done⟩ := done
        obtain ⟨sent, _, isPushed, _, _⟩ := blTillOom_ok pushes
        have records := remainingTable_records table
        have isRem : after.bl.rem = rem := by
          dsimp only at done
          rw [isPushed] at done
          split at done
          · cases done
            rfl
          · cases done
            rfl
        intro record member
        rw [BlCache.remaining, isRem] at member
        exact records record member
  | prepare | starting | busy | done =>
      cases blLoop_step done with
      | begins _ _ other _ _ _ => rw [state] at other; cases other
      | inactive _ _ => exact same rfl
      | pushes _ _ _ _ => exact same rfl
      | starts _ _ => exact same rfl
      | waits _ => exact same rfl
      | more _ _ _ _ => exact same rfl
      | ends _ _ _ _ =>
          intro _ member
          cases member

namespace ReferencesKept

variable {host target : NodesHost}

/-- The records of the batch lose their addresses, one by one. -/
theorem blacklistNodes_keeps {refs nodes : List NodeId} {db after : CfgDb}
    (guarded : LoopGuarded (fun db node => db.RetireSpares refs (db.heap node).addr)
      (fun db node => db.nodesBl (db.heap node).addr) db nodes)
    (done : blacklistNodes nodes db = .ok after) : CfgDb.Keeps refs db after := by
  refine @foldlM_guarded_invariant _ _ _ (fun _ middle => CfgDb.Keeps refs db middle) _ _ nodes
    ?_ _ _ (.refl refs db) guarded done
  intro middle node rest last keeps spares moves
  exact keeps.trans (.nodesBl spares moves)

/-- One call of `bl_loop`, in its phase. -/
theorem blLoop (kept : ReferencesKept host) {input : BlInput} {mng : Mng}
    (phase : host.mng.state = .blacklistingDevicesEm)
    (guarded : host.mng.bl.state = .done →
      LoopGuarded
        (fun db node => db.RetireSpares host.mng.references (db.heap node).addr)
        (fun db node => db.nodesBl (db.heap node).addr) host.mng.db host.mng.batch)
    (done : Nwmng.blLoop input host.mng = .ok mng) : ReferencesKept { host with mng := mng } := by
  have records := blLoop_records done
  have recorded : ∀ {db}, host.mng.bl.state = .done →
      blacklistNodes host.mng.batch host.mng.db = .ok db →
      CfgDb.Keeps host.mng.references host.mng.db db :=
    fun state blacklists => blacklistNodes_keeps (guarded state) blacklists
  cases blLoop_step done with
  | inactive _ _ => exact kept
  | waits _ => exact kept
  | begins rem sent _ _ _ _ =>
      refine ⟨⟨kept.held.housed.around _ _ _, kept.held.once, kept.held.lodged, ?_⟩,
        kept.autoflush, kept.vacant, fun _ => ⟨?_, phase⟩⟩
      · -- the table may have new records, which stand among the nodes
        intro record member
        rcases List.mem_append.mp member with reference | remaining
        · exact kept.held.known record (List.mem_append_left _ reference)
        · rcases records record remaining with before | stands
          · exact kept.held.known record (List.mem_append_right _ before)
          · exact stands
      · dsimp only [Mng.setBlState]
        split
        · exact (nomatch ·)
        · exact (nomatch ·)
  | pushes sent _ _ _ =>
      refine ⟨⟨kept.held.housed, kept.held.once, kept.held.lodged, kept.held.known⟩,
        kept.autoflush, kept.vacant, fun _ => ⟨?_, phase⟩⟩
      dsimp only [Mng.setBlState]
      split
      · exact (nomatch ·)
      · exact (nomatch ·)
  | starts _ _ =>
      exact ⟨⟨kept.held.housed, kept.held.once, kept.held.lodged, kept.held.known⟩,
        kept.autoflush, kept.vacant, fun _ => ⟨(nomatch ·), phase⟩⟩
  | more db state blacklists _ =>
      refine ⟨?_, kept.autoflush, kept.vacant, fun _ => ⟨(nomatch ·), phase⟩⟩
      exact @EngineHeld.moved _ _ (host.mng.setDb db).engine kept.held (recorded state blacklists)
        rfl rfl (.refl _) _ fun _ => id
  | ends db state blacklists _ =>
      refine ⟨?_, kept.autoflush, kept.vacant, fun table => absurd rfl table⟩
      have thinner : Thinner host.mng.lists { host.mng.lists with bl := [] } :=
        ⟨fun _ => id, .refl _, List.nil_subset _, .refl _, fun _ => id⟩
      let emptied := (host.mng.setDb db).setLists { host.mng.lists with bl := [] }
      exact @EngineHeld.moved _ _ (emptied.measure (·.blEnd input.now)).engine kept.held
        (recorded state blacklists) rfl rfl thinner _ (List.nil_subset _)

end ReferencesKept

/-! ## The events of the provisioner -/

theorem AddState.host_recoverScan (state : AddState) : state.recoverScan.host = state.host := by
  unfold recoverScan
  split
  · rfl
  · rfl

namespace ReferencesKept

variable {source target : AddState}

theorem onBeaconRecv (kept : ReferencesKept source.host) {uuid : Uuid} {gatt : Bool}
    {result : UInt16} {now : Nat} {clock : SaveClock}
    (done : source.onBeaconRecv uuid gatt result now clock = .ok target) :
    ReferencesKept target.host := by
  cases AddState.onBeaconRecv_step done with
  | ignored => exact kept
  | noted absent adds => exact kept.backlogDev absent adds
  | @requested _ id netkey _ _ _ _ =>
      obtain ⟨_, _, _, _, _, same⟩ :=
        AddState.provisionDevice_eq netkey id uuid result now source
      rw [same]
      exact kept.quiet rfl rfl (.refl _) (.refl _)

theorem onProvSuccess (kept : ReferencesKept source.host) {input : WriteInput} {uuid : Uuid}
    {addr : UInt16} (nonzero : addr ≠ 0) (welcome : source.mng.Welcomes uuid addr)
    (done : source.onProvSuccess input uuid addr = .ok target) : ReferencesKept target.host := by
  obtain ⟨nodes, writes, done⟩ := bind_ok.mp done
  obtain ⟨engine, joins, result⟩ := bind_ok.mp done
  cases result
  rw [AddState.host_recoverScan]
  have held := kept.held.onProvSuccess nonzero welcome.templated welcome.unmanaged
    welcome.spares joins
  have frame : engine.state = source.mng.engine.state ∧
      engine.used = source.mng.engine.used := by
    simp only [Engine.onProvSuccess, bind_ok] at joins
    obtain ⟨db, _, joins⟩ := joins
    cases found : db.cfgdbNodeGet addr with
    | none => simp [found] at joins
    | some record =>
        simp only [found, Except.ok.injEq] at joins
        subst joins
        exact ⟨rfl, rfl⟩
  have keptEngine := kept.engine held frame.1 fun _ => frame.2
  exact ⟨keptEngine.held, (kept.nodesHeld.writeField writes).autoflush, keptEngine.vacant,
    keptEngine.table⟩

theorem onProvFailed (kept : ReferencesKept source.host) (uuid : Uuid) (reason : UInt8) :
    ReferencesKept (source.onProvFailed uuid reason).host := by
  unfold AddState.onProvFailed
  split
  · unfold AddState.provFailedWa
    dsimp only
    split
    · exact kept.quiet rfl rfl (.refl _)
        ⟨List.erase_subset, .refl _, fun _ => id, .refl _, fun _ => id⟩
    · exact kept
  · rw [AddState.host_recoverScan]
    exact kept.quiet rfl rfl (.refl _) (.refl _)

theorem devAddHdr (kept : ReferencesKept source.host) {news : ProvEvent}
    (possible : (ManagerOp.event news).Possible source)
    (careful : (ManagerOp.event news).Careful source)
    (done : source.devAddHdr news = .ok target) : ReferencesKept target.host := by
  unfold AddState.devAddHdr at done
  cases news with
  | beacon uuid gatt result now clock =>
      dsimp only at done
      split at done
      · exact kept.onBeaconRecv done
      · cases done
        exact kept
  | provisioned uuid addr input =>
      dsimp only at done
      split at done
      · rename_i listening
        exact @onProvSuccess (source.endSession uuid) target kept input uuid addr possible
          (careful listening) done
      · cases done
        exact kept
  | failed uuid reason =>
      dsimp only at done
      split at done
      · cases done
        exact @onProvFailed (source.endSession uuid) kept uuid reason
      · cases done
        exact kept

theorem addLoop (kept : ReferencesKept source.host) (now : Nat) :
    ReferencesKept (source.addLoop now).host := by
  unfold AddState.addLoop
  dsimp only
  split
  · have awake : ReferencesKept
        (source.setMng { source.mng with oom := false }).recoverScan.host := by
      rw [AddState.host_recoverScan]
      exact kept.quiet rfl rfl (.refl _) (.refl _)
    exact awake.quiet rfl rfl (.refl _) (.refl _)
  · exact kept.quiet rfl rfl (.refl _) (.refl _)

theorem blHdr (kept : ReferencesKept source.host) {packet : BlEvent} {rsp : KeyRsp} {mng : Mng}
    (done : Nwmng.blHdr packet rsp source.mng = .ok mng) :
    ReferencesKept (source.setMng mng).host := by
  have table := blHdr_table done
  rcases blHdr_cases done with ⟨_, rfl⟩ | ⟨_, _, _, _, rfl, _⟩
  · exact kept.quiet rfl rfl table (.refl _)
  · exact kept.quiet rfl rfl table (.refl _)

end ReferencesKept

/-! ## Steps and runs -/

/-- A step that frees no record that is pointed to. -/
theorem ManagerOp.kept {source target : AddState} {op : ManagerOp}
    (kept : ReferencesKept source.host) (careful : op.Careful source)
    (step : op.Step source target) : ReferencesKept target.host := by
  obtain ⟨possible, done⟩ := step
  cases op with
  | event news => exact kept.devAddHdr possible careful done
  | receive packet input =>
      obtain ⟨engine, handles, result⟩ := bind_ok.mp done
      cases result
      exact kept.devConfigHdr handles
  | refresh packet rsp =>
      obtain ⟨mng, handles, result⟩ := bind_ok.mp done
      cases result
      exact kept.blHdr handles
  | sync start =>
      cases done
      exact kept.clicbSync start
  | freemode on result =>
      cases done
      unfold AddState.followScan clicbFreemode
      rw [clmSetScan_eq]
      exact kept.quiet rfl rfl (.refl _) (.refl _)
  | seqset seq =>
      cases done
      obtain ⟨prios, same⟩ := clicbSeqset_eq seq source.mng
      rw [same]
      exact kept.quiet rfl rfl (.refl _) (.refl _)
  | rmall input =>
      obtain ⟨host, removes, result⟩ := bind_ok.mp done
      cases result
      exact kept.clicbRmall careful removes
  | rmblclr input =>
      obtain ⟨host, clears, result⟩ := bind_ok.mp done
      cases result
      exact kept.clicbRmblclr careful clears
  | looksUp =>
      cases done
      exact kept
  | starting input =>
      obtain ⟨⟨loaded, host⟩, starts, result⟩ := bind_ok.mp done
      cases result
      exact kept.startSync possible starts
  | addLoop now =>
      cases done
      exact kept.addLoop now
  | accLoop now input =>
      obtain ⟨engine, loops, result⟩ := bind_ok.mp done
      cases result
      exact kept.accLoop careful loops
  | blLoop input =>
      obtain ⟨mng, loops, result⟩ := bind_ok.mp done
      cases result
      exact kept.blLoop possible careful loops
  | setMngState input =>
      cases done
      exact kept.setMngState input
  | files nw file =>
      cases done
      exact ⟨kept.held, possible, kept.vacant, kept.table⟩

/-! ## The start of the program -/

theorem Lodged.loadCfg {nodes after : NodesState} (lodged : Lodged nodes.db) {env : LoadEnv}
    {force loaded : Bool} {clock : SaveClock}
    (loads : nodes.loadCfg env force clock = .ok (loaded, after)) : Lodged after.db := by
  simp only [NodesState.loadCfg, NodesState.jsonCfgOpen, bind_ok] at loads
  obtain ⟨⟨_, opened⟩, ⟨⟨isLoaded, nw, db⟩, opens, same⟩, result⟩ := loads
  cases same
  have lodgedAfter := lodged.jsonCfgOpen opens
  cases isLoaded with
  | false =>
      cases result
      exact lodgedAfter
  | true =>
      cases result
      exact lodgedAfter

/-- A manager without work keeps no pointer. -/
theorem ReferencesKept.fresh {host : NodesHost} (fresh : host.mng.engine.Fresh)
    (lists : host.mng.lists = Lists.empty) (rem : host.mng.bl.rem = none)
    (lodged : Lodged host.mng.db)
    (autoflush : host.nw.tree.isSome = true → host.nw.autoflush = true) :
    ReferencesKept host := by
  have noSlots := fresh.housed.held_of_unused fresh.1
  have sameLists : host.mng.engine.lists = Lists.empty := lists
  refine ⟨⟨fresh.housed, ?_, lodged, ?_⟩, autoflush, fun _ => fresh.1,
    fun table => absurd rem table⟩
  · rw [Engine.managed, noSlots, sameLists]
    exact List.nodup_nil
  · intro record member
    rw [Engine.references, Engine.managed, noSlots, sameLists, BlCache.remaining, rem] at member
    cases member

theorem ReferencesKept.cliProc {input : NwkInput} {host : NodesHost} {prov : ProvState}
    {nwk : NwkState} (fresh : host.mng.engine.Fresh) (lists : host.mng.lists = Lists.empty)
    (rem : host.mng.bl.rem = none) (lodged : Lodged host.mng.db)
    (autoflush : host.nw.tree.isSome = true → host.nw.autoflush = true)
    (done : cliProc input host prov = .ok nwk) : ReferencesKept nwk.host := by
  obtain ⟨⟨fine, after⟩, starts, result⟩ := bind_ok.mp done
  cases result
  unfold nwkInit at starts
  split at starts
  · cases starts
    exact .fresh fresh lists rem lodged autoflush
  · obtain ⟨⟨fine, prov⟩, _, result⟩ := bind_ok.mp starts
    dsimp only at result
    split at result
    · cases result
      let configured : NodesHost :=
        { host with
          mng := (((host.mng.setState .nil).setState .initialized).setCfg prov.cfg).setState
            .configured }
      have past : configured.mng.state.Past := ⟨(nomatch ·), (nomatch ·)⟩
      exact @relisted configured input.inDdb (fresh.housed.around _ _ _) lodged
        ⟨fresh.1, rem, .inl past⟩ autoflush
    · cases result
      exact .fresh fresh lists rem lodged autoflush

/-- When the program comes to its main loop, the lists are made of the records that were
loaded. -/
theorem startProgram_kept {input : StartInput} {initial : AddState}
    (starts : startProgram input = .ok initial) : ReferencesKept initial.host := by
  obtain ⟨⟨loaded, nodes⟩, loads, starts⟩ := bind_ok.mp starts
  obtain ⟨nwk, runs, result⟩ := bind_ok.mp starts
  cases result
  let empty : NodesState := { db := .cfgdbInit, nw := .zeroed, file := input.file }
  have held : NodesHeld empty := ⟨fun impossible => (nomatch impossible), .init⟩
  have lodged : Lodged empty.db := .init
  refine ReferencesKept.cliProc ⟨rfl, fun _ => rfl⟩ ?_ ?_ ?_ ?_ runs
  · rfl
  · rfl
  · exact lodged.loadCfg loads
  · exact (held.loadCfg loads).autoflush

/-- From the start of the program, over any run of the commands, the events and the main loop,
every record that a slot, a list or the table of the nodes that remain points to is in the
database, and no record is at once in a slot and in a list that slots are loaded from, as long as
no step frees a record that something points to. -/
theorem records_held_guarded {input : StartInput} {initial final : AddState}
    {past : List (Move AddState ManagerOp)} (starts : startProgram input = .ok initial)
    (run : ManagerRun initial past final) (careful : Guarded ManagerOp.Careful past) :
    (∀ move ∈ past, move.source.mng.RecordsHeld ∧ move.target.mng.RecordsHeld) ∧
      final.mng.RecordsHeld := by
  have preserved : ∀ (source : AddState) op target, ReferencesKept source.host →
      ManagerOp.Careful source op → ManagerOp.Step source op target →
      ReferencesKept target.host :=
    fun _ _ _ kept careful step => ManagerOp.kept kept careful step
  obtain ⟨moves, last⟩ := run.guarded_invariant preserved (startProgram_kept starts) careful
  exact ⟨fun move member => ⟨(moves move member).1.records, (moves move member).2.records⟩,
    last.records⟩

/-! ## A synchronization -/

/-- The program is started, goes through the steps, and passes the test. -/
def programShows (input : StartInput) (labels : List ManagerOp)
    (test : List (Move AddState ManagerOp) → AddState → Bool) : Bool :=
  match startProgram input with
  | .ok initial => replays ManagerOp.run initial labels fun past final =>
      decide (Guarded ManagerOp.Possible past) && test past final
  | .error _ => false

theorem managerRun_of_shows {input : StartInput} {labels : List ManagerOp}
    {test : List (Move AddState ManagerOp) → AddState → Bool}
    (passed : programShows input labels test = true) :
    ∃ initial past final, startProgram input = .ok initial ∧ ManagerRun initial past final ∧
      past.map Move.label = labels ∧ test past final = true := by
  unfold programShows at passed
  split at passed
  · rename_i initial starts
    obtain ⟨past, final, run, same, shown⟩ := execution_of_replays passed
    obtain ⟨possible, tested⟩ := Bool.and_eq_true_iff.mp shown
    have admitted := of_decide_eq_true possible
    exact ⟨initial, past, final, starts, run.of_moves fun move member =>
      ⟨admitted move member, run.steps_taken move member⟩, same, tested⟩
  · cases passed

/-- The program finds some entries in the nodes file, and an NCP that has all the devices. -/
def StartInput.sample (entries : List Value) : StartInput where
  file := editedFile entries
  env := noTemplates
  clock := { time := 1, mtime := 1 }
  prov := .sample
  nwk := { NwkInput.sample bgErrSuccess with inDdb := fun _ => true }

/-- A node to configure, one to remove, one for the blacklist, and a device to add. -/
def sampleNetwork : List Value :=
  [markedEntry "00112233445566778899aabbccddeeff" "0x0005" "0x00",
    markedEntry "11112233445566778899aabbccddeeff" "0x0006" "0x10",
    markedEntry "22112233445566778899aabbccddeeff" "0x0007" "0x01",
    (markedEntry "33112233445566778899aabbccddeeff" "0x0000" "0x00").set strTmpl
      (.string "0x01".toList)]

/-- The device to add. -/
def sampleJoining : Uuid :=
  #v[0x33, 0x11, 0x22, 0x33, 0x44, 0x55, 0x66, 0x77, 0x88, 0x99, 0xaa, 0xbb, 0xcc, 0xdd,
    0xee, 0xff]

/-- A whole synchronization: the device is added, the NCP refuses to configure the two nodes, the
third is removed, the fourth goes to the blacklist.  Then the marks are cleared, and a second
synchronization fills the slots. -/
def sampleSyncSteps : List ManagerOp :=
  [.sync true, .starting .sampleSync, .setMngState .sample,
    .event (.beacon sampleJoining false bgErrSuccess 10 { time := 9, mtime := 9 }),
    .event (.provisioned sampleJoining 8 default), .setMngState .sample,
    .accLoop 0 (RoundInput.all 0 (.refused 0) (.refused 0)), .setMngState .sample,
    .accLoop 1 (RoundInput.all 1 (.taken 7 1) (.taken 7 1)),
    .receive (.status .reset 7 bgErrSuccess) ⟨.taken 8 1, .taken 8 1⟩,
    .accLoop 2 (RoundInput.all 2 (.taken 8 2) (.taken 8 2)), .setMngState .sample,
    .blLoop (.all bgErrSuccess), .blLoop (.all bgErrSuccess),
    .refresh (.nodeUpdate 0 1 sampleJoining) .found, .refresh (.complete 0 0) .found,
    .blLoop (.all bgErrSuccess), .setMngState .sample, .looksUp, .rmblclr .sampleSync,
    .sync true, .starting .sampleSync, .setMngState .sample,
    .accLoop 3 (RoundInput.all 3 (.taken 9 3) (.taken 9 3))]

/-- Every list is used on the way, and so are the slots and the table. -/
theorem records_held_guarded_synced :
    ∃ initial past final, startProgram (.sample sampleNetwork) = .ok initial ∧
      ManagerRun initial past final ∧ past.map Move.label = sampleSyncSteps ∧
      final.mng.engine.held = [4, 7] ∧ final.mng.lists.bl = [6] ∧ final.mng.lists.rm = [5] ∧
      (∃ move ∈ past, move.target.mng.bl.remaining = [0, 3] ∧
        move.target.mng.lists.fail = [0, 3]) ∧
      (∀ move ∈ past, move.source.mng.RecordsHeld ∧ move.target.mng.RecordsHeld) ∧
      final.mng.RecordsHeld := by
  have passed : programShows (.sample sampleNetwork) sampleSyncSteps (fun past final =>
      decide (Guarded ManagerOp.Careful past ∧ final.mng.engine.held = [4, 7] ∧
        final.mng.lists.bl = [6] ∧ final.mng.lists.rm = [5] ∧
        ∃ move ∈ past, move.target.mng.bl.remaining = [0, 3] ∧
          move.target.mng.lists.fail = [0, 3])) = true := by
    decide +kernel
  obtain ⟨initial, past, final, starts, run, same, shown⟩ := managerRun_of_shows passed
  obtain ⟨careful, held, black, removing, table⟩ := of_decide_eq_true shown
  exact ⟨initial, past, final, starts, run, same, held, black, removing, table,
    records_held_guarded starts run careful⟩

/-- The removal marks are cleared while a node is configured.  The records are freed and made
again, and the slot goes on with the freed one. -/
theorem configuring_node_freed :
    ¬ ∀ (input : StartInput) (initial final : AddState) (past : List (Move AddState ManagerOp)),
      startProgram input = .ok initial → ManagerRun initial past final →
      (∀ move ∈ past, move.source.mng.RecordsHeld ∧ move.target.mng.RecordsHeld) ∧
        final.mng.RecordsHeld := by
  intro always
  have passed : programShows
      (.sample [markedEntry "00112233445566778899aabbccddeeff" "0x0005" "0x00"])
      [.sync true, .starting .sampleSync, .setMngState .sample,
        .accLoop 0 (RoundInput.all 0 (.taken 1 0) (.taken 1 0)), .rmblclr .sampleSync]
      (fun _ final => decide (final.mng.engine.occupied 0 = true ∧
        (final.mng.engine.cache 0).node = some 0 ∧ ¬ final.mng.db.Holds 0)) = true := by
    decide +kernel
  obtain ⟨initial, past, final, starts, run, _, shown⟩ := managerRun_of_shows passed
  obtain ⟨occupied, here, freed⟩ := of_decide_eq_true shown
  exact freed ((always _ initial final past starts run).2.slots 0 occupied 0 here)

end Nwmng
