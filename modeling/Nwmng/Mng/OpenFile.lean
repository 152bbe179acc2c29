/-
Module: Nwmng.Mng.OpenFile
Purpose: The nodes file that the program has loaded stays open, saved and loadable over
every write and every further load, as long as nobody edits it.
Trusted boundary: no key occurs twice in a JSON object
Main exports:
  Loadable, FileOpen, FileOpen.writeField, FileOpen.writeAll, FileOpen.backlogDev,
  FileOpen.jsonCfgOpen, fileOpen_of_load
-/
import Nwmng.Cfg.NodesWrites
import Nwmng.Mng.LoadFile

namespace Nwmng

open Json Fallible

/-! ## What can be loaded -/

/-- A tree that is not refused: the nodes of its first subnet are an array.  Of the other
subnets, only the reference and the member with the nodes have to be there. -/
structure Loadable (root : Value) : Prop where
  isObject : root.isObject = true
  distinct : root.DistinctKeys
  subnets : ∃ first rest nodes, root.get strSubnets = some (.array (first :: rest)) ∧
    (∀ item ∈ first :: rest, SubnetFine item) ∧ first.get strNodes = some (.array nodes)

namespace Loadable

variable {root : Value}

/-- Where the nodes are. -/
theorem nodes (loadable : Loadable root) :
    root.seek nodesPath = some (.array (nodesOf root)) := by
  obtain ⟨first, rest, nodes, array, _, held⟩ := loadable.subnets
  have path : root.seek nodesPath = some (.array nodes) := by
    simp only [nodesPath, Value.seek, Value.child, array, List.getElem?_cons_zero, held]
  unfold nodesOf
  rw [path]

/-- A member beside the subnets is written. -/
theorem set_other (loadable : Loadable root) {key : String} (other : strSubnets ≠ key)
    (value : Value) : Loadable (root.set key value) := by
  constructor
  · rw [Value.isObject_set]
    exact loadable.isObject
  · exact Value.distinctKeys_set loadable.distinct key value
  · rw [Value.get_set_other other]
    exact loadable.subnets

theorem amend_backlog (loadable : Loadable root) (change : Value → Value) :
    Loadable (root.amend [.member strBacklog] change) := by
  simp only [Value.amend, Value.child]
  cases root.get strBacklog with
  | none => exact loadable
  | some value => exact loadable.set_other (of_decide_eq_true rfl) _

/-- The nodes are changed, and remain an array. -/
theorem amend_nodes (loadable : Loadable root) {more : List Step} {change : Value → Value}
    {nodes : List Value}
    (changed : (Value.array (nodesOf root)).amend more change = .array nodes) :
    Loadable (root.amend (nodesPath ++ more) change) ∧
      nodesOf (root.amend (nodesPath ++ more) change) = nodes := by
  have seeks := loadable.nodes
  obtain ⟨first, rest, held, array, fine, isHeld⟩ := loadable.subnets
  have same : nodesOf root = held := by
    simp only [nodesPath, Value.seek, Value.child, array, List.getElem?_cons_zero, isHeld]
      at seeks
    exact (Value.array.inj (Option.some.inj seeks)).symm
  rw [same] at changed
  have amended : root.amend (nodesPath ++ more) change =
      root.set strSubnets (.array (first.set strNodes (.array nodes) :: rest)) := by
    simp only [nodesPath, List.cons_append, List.nil_append, Value.amend, Value.child, array,
      List.getElem?_cons_zero, isHeld, changed, Value.putChild, List.set_cons_zero]
  have firstObject := Value.isObject_of_get isHeld
  have written : (first.set strNodes (.array nodes)).get strNodes = some (.array nodes) :=
    Value.get_set_self firstObject strNodes _
  have firstFine := fine first List.mem_cons_self
  have loadableAfter :
      Loadable (root.set strSubnets (.array (first.set strNodes (.array nodes) :: rest))) := by
    constructor
    · rw [Value.isObject_set]
      exact loadable.isObject
    · exact Value.distinctKeys_set loadable.distinct _ _
    · refine ⟨_, rest, nodes, Value.get_set_self loadable.isObject _ _, ?_, written⟩
      intro item member
      rcases List.mem_cons.mp member with isFirst | later
      · rw [isFirst]
        refine ⟨?_, _, written⟩
        intro value refid
        rw [Value.get_set_other (of_decide_eq_true rfl)] at refid
        exact firstFine.refid value refid
      · exact fine item (List.mem_cons_of_mem _ later)
  rw [amended]
  refine ⟨loadableAfter, ?_⟩
  have found := loadableAfter.nodes
  simp only [nodesPath, Value.seek, Value.child,
    Value.get_set_self loadable.isObject strSubnets, List.getElem?_cons_zero, written] at found
  exact (Value.array.inj (Option.some.inj found)).symm

end Loadable

/-!
## The open file

The tree in memory, the file on the disk and the pointers into the tree are kept in step by
saving after every write.  A write below the nodes leaves the backlog where it is.
-/

/-- The tree in memory is the content of the file; every write is saved, and the tree can be
loaded again. -/
structure FileOpen (state : NodesState) (entries backlog : List Value) : Prop where
  held : ∃ root, state.nw.root = some root ∧ state.file.content = some root ∧
    Loadable root ∧ nodesOf root = entries ∧ backlogOf root = backlog
  autoflush : state.nw.autoflush = true

namespace FileOpen

variable {state : NodesState} {entries backlog : List Value}

theorem tree (isOpen : FileOpen state entries backlog) : state.nw.tree ≠ none := by
  obtain ⟨root, held, _⟩ := isOpen.held
  intro absent
  rw [NwCfg.root, absent] at held
  cases held

theorem entries_eq (isOpen : FileOpen state entries backlog) : state.file.entries = entries := by
  obtain ⟨root, _, saved, _, same, _⟩ := isOpen.held
  rw [SavedFile.entries_eq saved, same]

theorem backlog_eq (isOpen : FileOpen state entries backlog) : state.file.backlog = backlog := by
  obtain ⟨root, _, saved, _, _, same⟩ := isOpen.held
  rw [SavedFile.backlog_eq saved, same]

/-- The records do not matter. -/
theorem withDb (isOpen : FileOpen state entries backlog) (db : CfgDb) :
    FileOpen { state with db := db } entries backlog := ⟨isOpen.held, isOpen.autoflush⟩

theorem db_flush (clock : SaveClock) (state : NodesState) :
    (state.flush clock).db = state.db := rfl

/-- Saving the tree in memory. -/
theorem of_flush (clock : SaveClock) {root : Value} (held : state.nw.root = some root)
    (loadable : Loadable root) (autoflush : state.nw.autoflush = true) :
    FileOpen (state.flush clock) (nodesOf root) (backlogOf root) := by
  obtain ⟨db, ⟨tree, synctime, flushes, backlog⟩, file⟩ := state
  cases tree with
  | none => cases held
  | some tree =>
      cases held
      cases autoflush
      have stamped := @Loadable.set_other _ loadable strSyncTime (of_decide_eq_true rfl)
        (.string (uint32ToStr (UInt32.ofNat clock.time)))
      exact ⟨⟨_, rfl, rfl, stamped, nodesOf_set (of_decide_eq_true rfl),
        backlogOf_set (of_decide_eq_true rfl)⟩, rfl⟩

/-- Without an open file there is nothing to save. -/
theorem flush_closed {state : NodesState} (closed : state.nw.tree = none) (clock : SaveClock) :
    state.flush clock = state := by
  obtain ⟨db, ⟨tree, synctime, flushes, backlog⟩, file⟩ := state
  cases closed
  rfl

theorem flush (isOpen : FileOpen state entries backlog) (clock : SaveClock) :
    FileOpen (state.flush clock) entries backlog := by
  obtain ⟨⟨root, held, _, loadable, rfl, rfl⟩, autoflush⟩ := isOpen
  exact of_flush clock held loadable autoflush

/-- A change of the tree in memory that is saved at once. -/
theorem of_amend (isOpen : FileOpen state entries backlog) (clock : SaveClock) {root : Value}
    (held : state.nw.root = some root) {path : List Step} {change : Value → Value}
    (loadable : Loadable (root.amend path change)) :
    FileOpen ({ state with nw := state.nw.amend path change }.flush clock)
      (nodesOf (root.amend path change)) (backlogOf (root.amend path change)) := by
  have amended : (state.nw.amend path change).root = some (root.amend path change) := by
    obtain ⟨db, ⟨tree, synctime, flushes, backlog⟩, file⟩ := state
    cases tree with
    | none => cases held
    | some tree =>
        cases held
        rfl
  exact @of_flush { state with nw := state.nw.amend path change } clock _ amended loadable
    isOpen.autoflush

/-- Where the nodes of the open file are found. -/
theorem firstNodes (isOpen : FileOpen state entries backlog) :
    state.nw.firstNodes = some (.array entries) := by
  obtain ⟨root, held, _, loadable, rfl, _⟩ := isOpen.held
  unfold NwCfg.firstNodes
  rw [held, Option.bind_some, loadable.nodes]

/-- A write of one field of a device. -/
theorem writeField (isOpen : FileOpen state entries backlog) (uuids : UuidsDistinct entries)
    {input : WriteInput} {uuid : Uuid} {field : NodeField} {after : NodesState}
    (written : state.writeField input uuid field = .ok after) :
    after.db = state.db ∧
      FileOpen after (entries.map (editEntry uuid field)) backlog := by
  have array := isOpen.firstNodes
  obtain ⟨root, held, _, loadable, rfl, rfl⟩ := isOpen.held
  have search := findEntry_edit uuids input.stack uuid field 0
  cases isTree : state.nw.tree with
  | none => exact absurd isTree isOpen.tree
  | some tree =>
      simp only [NodesState.writeField, isTree, writeNodes, setNodeField, modifyNodeField,
        bind_ok] at written
      obtain ⟨⟨nw, file⟩, ⟨⟨found, changed⟩, ⟨place, searched, modified⟩, saved⟩, result⟩ :=
        written
      have isPlace : place = findEntry input.stack uuid 0 (nodesOf root) := by
        unfold findNode at searched
        rw [array] at searched
        split at searched
        · cases searched
        · cases searched
        · exact (Except.ok.inj searched).symm
      rw [← isPlace] at search
      cases place with
      | none =>
          -- no entry has the UUID
          cases modified
          rw [Bool.and_false] at saved
          cases saved
          cases result
          rw [search]
          exact ⟨rfl, isOpen⟩
      | some index =>
          cases modified
          obtain ⟨offset, isOffset, asMap⟩ := search
          rw [Nat.zero_add] at isOffset
          subst isOffset
          let change : Value → Value := (·.set field.key (.string field.text))
          have edited := loadable.amend_nodes
            (Value.amend_item (nodesOf root) index [] change)
          have sameBacklog := backlogOf_amend_nodes root
            ([Step.item 0, Step.member strNodes] ++ [Step.item index]) change
          have isSaved := isOpen.of_amend input.clock held edited.1
          rw [edited.2] at isSaved
          have flushes : (state.nw.amend (nodesPath ++ [.item index]) change).autoflush = true :=
            isOpen.autoflush
          simp only [change] at flushes
          simp only [flushes, Bool.and_self, if_true] at saved
          have whole : jsonCfgFlush input.clock
              (state.nw.amend (nodesPath ++ [.item index]) change) state.file = (nw, file) :=
            Except.ok.inj saved
          have isAfter : ({ state with
              nw := state.nw.amend (nodesPath ++ [Step.item index]) change }).flush input.clock =
                { state with nw := nw, file := file } := by
            unfold NodesState.flush
            rw [whole]
          cases result
          rw [isAfter] at isSaved
          rw [← asMap, ← sameBacklog]
          exact ⟨rfl, isSaved⟩

/-- A write that goes through all nodes. -/
theorem writeAll (isOpen : FileOpen state entries backlog) {clock : SaveClock}
    {edit : Value → Except Abort Value} {written : Bool} {after : NodesState}
    (done : state.writeAll clock edit = .ok (written, after)) :
    written = true ∧ after.db = state.db ∧ ∃ edited, entries.mapM edit = .ok edited ∧
      FileOpen after edited backlog := by
  have array := isOpen.firstNodes
  obtain ⟨root, held, _, loadable, rfl, rfl⟩ := isOpen.held
  cases isTree : state.nw.tree with
  | none => exact absurd isTree isOpen.tree
  | some tree =>
      simp only [NodesState.writeAll, isTree, NwCfg.editNodes, array, bind_ok] at done
      obtain ⟨nw, changes, result⟩ := done
      split at changes
      · cases changes
      · cases changes
      · obtain ⟨edited, maps, amends⟩ := bind_ok.mp changes
        cases amends
        cases result
        have replaced := loadable.amend_nodes
          (show (Value.array (nodesOf root)).amend [] (fun _ => .array edited) =
            .array edited from rfl)
        have sameBacklog := backlogOf_amend_nodes root
          ([Step.item 0, Step.member strNodes] ++ []) (fun _ => .array edited)
        have isSaved := isOpen.of_amend clock held replaced.1
        rw [replaced.2] at isSaved
        rw [← sameBacklog]
        have flushes : (state.nw.amend nodesPath fun _ => .array edited).autoflush = true :=
          isOpen.autoflush
        refine ⟨rfl, ?_, edited, maps, ?_⟩
        · unfold NodesState.autoFlush
          rw [if_pos flushes]
          rfl
        · unfold NodesState.autoFlush
          rw [if_pos flushes]
          exact isSaved

/-- A new entry of the backlog. -/
theorem backlogDev (isOpen : FileOpen state entries backlog) {clock : SaveClock} {uuid : Uuid}
    {after : NodesState} (done : state.backlogDev clock uuid = .ok after) :
    after.db = state.db.backlogNodeAdd uuid ∧
      FileOpen after entries (backlog ++ [backlogObject uuid]) := by
  obtain ⟨root, held, _, loadable, rfl, rfl⟩ := isOpen.held
  cases isTree : state.nw.tree with
  | none => exact absurd isTree isOpen.tree
  | some tree =>
      have isRoot : tree.root = root := by
        rw [NwCfg.root, isTree] at held
        exact Option.some.inj held
      subst isRoot
      unfold NodesState.backlogDev at done
      rw [isTree] at done
      split at done
      · rename_i impossible
        cases impossible
      · cases done
      · cases done
      · rename_i same _
        cases same
        split at done
        · rename_i items array
          cases done
          have isBacklog : backlogOf tree.root = items := by
            unfold backlogOf
            rw [array]
          have written := loadable.amend_backlog
            fun _ => .array (items ++ [backlogObject uuid])
          have added : backlogOf (tree.root.amend [.member strBacklog]
              fun _ => .array (items ++ [backlogObject uuid])) =
                items ++ [backlogObject uuid] := by
            simp only [Value.amend, Value.child, array, Value.putChild]
            unfold backlogOf
            rw [Value.get_set_self loadable.isObject]
          have isSaved := (isOpen.withDb (state.db.backlogNodeAdd uuid)).of_amend clock held
            written
          rw [nodesOf_amend_backlog, added] at isSaved
          have flushes : (state.nw.amend [.member strBacklog]
              fun _ => .array (items ++ [backlogObject uuid])).autoflush = true :=
            isOpen.autoflush
          unfold NodesState.autoFlush
          rw [if_pos flushes, isBacklog]
          exact ⟨db_flush _ _, isSaved⟩
        · cases done

end FileOpen

/-!
## Loading the file

A file that was accepted once is accepted again after any writes of the program, since these
replace members by values that can be read.
-/

/-- What the backlog leaves registered. -/
theorem loadBacklog_registered {env : LoadEnv} {nw : NwCfg} {db after : CfgDb}
    {entries : List Value} {root : Value} (registered : Registered db entries)
    (held : nw.root = some root)
    (noAddress : ∀ item ∈ backlogOf root, ∀ addr, EntryAddr item addr → addr = 0)
    (loads : loadBacklog env nw db = .ok after) : Registered after entries := by
  unfold loadBacklog at loads
  cases pointer : nw.backlog with
  | absent =>
      rw [pointer] at loads
      cases loads
      exact registered
  | freed =>
      rw [pointer] at loads
      cases loads
  | member =>
      rw [pointer, held] at loads
      simp only [Option.bind_some, loadNodeValue] at loads
      split at loads
      · cases loads
        exact registered
      · rename_i items array
        apply registered.backlogArray _ loads
        intro item member
        apply noAddress item
        unfold backlogOf
        rw [array]
        exact member
      · cases loads

/-- Loading a file that the records do not get in the way of, and what an error leaves. -/
theorem reload_registered {env : LoadEnv} {force loaded : Bool} {file : SavedFile}
    {nw after : NwCfg} {db result : CfgDb}
    (registered : Registered (clearedFor force db) file.entries)
    (noAddress : ∀ item ∈ file.backlog, ∀ addr, EntryAddr item addr → addr = 0)
    (done : reloadNodesFile env force file nw db = .ok (loaded, after, result)) :
    (loaded = true → Registered result file.entries) ∧
      (loaded = false → result = db ∨ result = clearedFor force db) := by
  simp only [reloadNodesFile, bind_ok] at done
  obtain ⟨⟨opened, middle⟩, opens, done⟩ := done
  cases opened with
  | false =>
      cases done
      exact ⟨(by rintro ⟨⟩), fun _ => .inl rfl⟩
  | true =>
      have root := openJsonFile_root opens
      simp only [if_true, loadJsonFile, bind_ok] at done
      obtain ⟨⟨isLoaded, last⟩, loads, finish⟩ := done
      cases finish
      unfold loadNodes at loads
      split at loads
      · cases loads
        exact ⟨(by rintro ⟨⟩), fun _ => .inr rfl⟩
      · cases loads
      · split at loads
        · cases loads
          exact ⟨(by rintro ⟨⟩), fun _ => .inr rfl⟩
        · rename_i nodes found
          simp only [bind_ok] at loads
          obtain ⟨filled, nodesLoad, final, backlogLoad, result⟩ := loads
          cases result
          refine ⟨fun _ => ?_, by rintro ⟨⟩⟩
          have isEntries := entries_of_root root
          unfold NwCfg.entries at isEntries
          rw [found] at isEntries
          have nodesRegistered : Registered filled file.entries := by
            unfold loadNodeValue at nodesLoad
            split at nodesLoad
            · cases nodesLoad
              exact registered
            · rename_i items same
              cases same
              apply registered.array _ nodesLoad
              intro item member
              rw [← isEntries]
              exact member
            · cases nodesLoad
          cases content : file.content with
          | none =>
              have seeks := seek_of_firstNodes found
              rw [root, content] at seeks
              cases seeks
          | some tree =>
              rw [SavedFile.backlog_eq content] at noAddress
              rw [content] at root
              exact loadBacklog_registered nodesRegistered root noAddress backlogLoad

/-- A file that was accepted can be loaded again. -/
theorem loadable_of_accepted {templates : Templates} {nw : NwCfg}
    {members : List (String × Value)} (distinct : (members.map Prod.fst).Nodup)
    (accepted : Accepted templates members nw) : Loadable (.object members) := by
  obtain ⟨first, rest, nodes, subnets, fine, held, _, _⟩ := accepted
  exact ⟨rfl, distinct, first, rest, nodes, subnets, fine, held⟩

/-- A file that can be loaded is not refused. -/
theorem Loadable.not_refused {members visited : List (String × Value)} {clears : Bool}
    (loadable : Loadable (.object members)) : ¬ Refused members visited clears := by
  obtain ⟨first, rest, nodes, subnets, fine, held⟩ := loadable.subnets
  have array : Value.lookup strSubnets members = some (.array (first :: rest)) := subnets
  intro refused
  cases refused with
  | @noNodes before after item same _ _ without =>
      rw [array] at same
      have isItems := Value.array.inj (Option.some.inj same)
      have inside : item ∈ first :: rest := by
        rw [isItems]
        exact List.mem_append_right _ List.mem_cons_self
      obtain ⟨value, present⟩ := (fine item inside).nodes
      rw [without] at present
      cases present
  | noSubnets absent =>
      rw [array] at absent
      cases absent
  | nullNodes same _ null =>
      rw [array] at same
      cases same
      rw [held] at null
      cases null

/-- The keys of the file are distinct. -/
def SavedFile.DistinctKeys (file : SavedFile) : Prop :=
  ∀ root, file.content = some root → root.DistinctKeys

theorem FileOpen.distinct {state : NodesState} {entries backlog : List Value}
    (isOpen : FileOpen state entries backlog) : state.file.DistinctKeys := by
  obtain ⟨root, _, saved, loadable, _⟩ := isOpen.held
  intro other same
  rw [saved] at same
  cases same
  exact loadable.distinct

/-- What a load of the file leaves: the file is open, or there was an error; an open file is
always loaded. -/
structure LoadResult (force : Bool) (state after : NodesState) (loaded : Bool) : Prop where
  file : after.file = state.file
  registered : loaded = true → Registered after.db state.file.entries
  opens : loaded = true → after = state ∨
    FileOpen after state.file.entries state.file.backlog
  fails : loaded = false → after.db = state.db ∨ after.db = clearedFor force state.db
  closed : loaded = false → after.nw.tree = none
  again : ∀ entries backlog, FileOpen state entries backlog → loaded = true

theorem jsonCfgOpen_result {state after : NodesState} {env : LoadEnv} {force loaded : Bool}
    (registered : Registered (clearedFor force state.db) state.file.entries)
    (noAddress : ∀ item ∈ state.file.backlog, ∀ addr, EntryAddr item addr → addr = 0)
    (distinct : state.file.DistinctKeys)
    (done : state.jsonCfgOpen env force = .ok (loaded, after)) :
    LoadResult force state after loaded := by
  obtain ⟨⟨opened, nw, db⟩, opens, result⟩ := bind_ok.mp done
  cases result
  unfold jsonCfgOpen at opens
  split at opens
  · rename_i latest
    have notForced : force = false := by
      cases force with
      | false => rfl
      | true => simp at latest
    subst notForced
    cases opens
    exact ⟨rfl, fun _ => registered, fun _ => .inl rfl, fun impossible => (nomatch impossible),
      fun impossible => (nomatch impossible), fun _ _ _ => rfl⟩
  · obtain ⟨stillRegistered, fails⟩ := reload_registered registered noAddress opens
    obtain ⟨members, content⟩ := reload_object opens
    have keys : (members.map Prod.fst).Nodup := distinct _ content
    obtain ⟨_, outcome⟩ := reload_cases content keys opens
    refine ⟨rfl, stillRegistered, ?_, fails, ?_, ?_⟩
    · intro isLoaded
      right
      subst isLoaded
      rcases outcome with ⟨_, accepted⟩ | ⟨impossible, _⟩
      · obtain ⟨⟨root, held, saved⟩, autoflush⟩ := reload_tree opens
        rw [SavedFile.entries_eq saved, SavedFile.backlog_eq saved]
        rw [content] at saved
        cases saved
        have loadable := loadable_of_accepted keys accepted
        exact ⟨⟨_, held, content, loadable, rfl, rfl⟩, autoflush⟩
      · cases impossible
    · intro notLoaded
      subst notLoaded
      exact reload_tree opens
    · intro entries backlog isOpen
      obtain ⟨root, _, saved, loadable, _⟩ := isOpen.held
      rw [content] at saved
      cases saved
      rcases outcome with ⟨isLoaded, _⟩ | ⟨_, visited, clears, refused⟩
      · exact isLoaded
      · exact absurd refused loadable.not_refused

end Nwmng
