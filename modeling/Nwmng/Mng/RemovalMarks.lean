/-
Module: Nwmng.Mng.RemovalMarks
Purpose: The commands that mark all nodes of the file for removal, or clear the marks of the
devices without an address, against the addresses that the loader reads.
Trusted boundary: no key occurs twice in a JSON object
Main exports:
  removalFlag, RmallAgrees, RmblclrAgrees, ShowsEntries, removal_marks_agree_iff
-/
import Nwmng.Cfg.EntryCheck
import Nwmng.Mng.Commands

namespace Nwmng

open Json Fallible

/-! ## What the commands are to do -/

/-- `RM_Blacklist` of an entry, as the loader reads it. -/
def removalFlag (entry : Value) : Except Abort (Option UInt8) :=
  memberUint UInt8.ofNat entry strRmorbl

/-- An entry before and after `rmall`: a node is to be removed, another device is not.  What is a
node is told by the number that the loader reads, not by the text of the address, at which the
command looks. -/
def RmallAgrees (before after : Value) : Prop :=
  ∀ addr, EntryAddr before addr →
    removalFlag after = if addr = 0 then removalFlag before else .ok (some 0x10)

/-- An entry before and after `clrrb`: a device without an address is neither removed nor
blacklisted, a node is left as it was. -/
def RmblclrAgrees (before after : Value) : Prop :=
  ∀ addr, EntryAddr before addr →
    removalFlag after = if addr = 0 then .ok (some 0) else removalFlag before

/-- A record and an entry have the same UUID, address and flag. -/
def Shows (node : Node) (entry : Value) : Prop :=
  entryUuid entry = some node.uuid ∧ EntryAddr entry node.addr ∧
    removalFlag entry = .ok (some node.rmorbl)

/-- Every record outside of the backlog shows an entry.  After the file was loaded again, what
the commands wrote is what the lists are made from. -/
def ShowsEntries (db : CfgDb) (entries : List Value) : Prop :=
  ∀ record, db.Known record → ∃ entry ∈ entries, Shows (db.heap record) entry

/-- The text that the commands look for. -/
def addrZeroText : List Char := "0x0000".toList

/-- An address that is 0 is spelled as the program spells it, unless the flag has the
given value anyway. -/
def ZeroSpelled (flag : UInt8) (entry : Value) : Prop :=
  EntryAddr entry 0 → memberText entry strAddr = .ok addrZeroText ∨
    removalFlag entry = .ok (some flag)

/-!
## One entry

The commands compare the text of the address, the loader its value.  The two differ for an
address 0 that is spelled in another way than the program spells it.
-/

theorem str2uint_addrZeroText : str2uint addrZeroText = .ok (some 0) := by decide +kernel

theorem EntryAddr.isObject {entry : Value} {addr : UInt16} (reads : EntryAddr entry addr) :
    entry.isObject = true := by
  obtain ⟨text, isText, _⟩ := bind_ok.mp reads
  unfold memberText at isText
  split at isText
  · rename_i value member
    exact Value.isObject_of_get member
  · cases isText

/-- An entry with the fixed spelling has no other address. -/
theorem entryAddr_of_zeroText {entry : Value} (text : memberText entry strAddr = .ok addrZeroText)
    {addr : UInt16} : EntryAddr entry addr ↔ addr = 0 := by
  unfold EntryAddr memberUint
  rw [text, ok_bind, str2uint_addrZeroText, ok_bind]
  constructor
  · intro reads
    cases reads
    rfl
  · rintro rfl
    rfl

theorem removalFlag_write {entry : Value} (object : entry.isObject = true) {text : List Char}
    {flag : Nat} (reads : str2uint text = .ok (some flag)) :
    removalFlag (kvReplace strRmorbl text entry) = .ok (some (UInt8.ofNat flag)) :=
  memberUint_set_self UInt8.ofNat strRmorbl object reads

theorem rmallAgrees_iff {entry after : Value} (done : rmallEntry entry = .ok after) :
    RmallAgrees entry after ↔ ZeroSpelled 0x10 entry := by
  obtain ⟨text, isText, result⟩ := bind_ok.mp done
  have written : (if text = addrZeroText then entry
      else kvReplace strRmorbl "0x10".toList entry) = after := Except.ok.inj result
  by_cases fixed : text = addrZeroText
  · -- the entry is passed over, and it has no address
    rw [if_pos fixed] at written
    rw [fixed] at isText
    subst written
    constructor
    · intro _ _
      exact .inl isText
    · intro _ addr reads
      rw [if_pos ((entryAddr_of_zeroText isText).mp reads)]
  · rw [if_neg fixed] at written
    have other : memberText entry strAddr ≠ .ok addrZeroText := by
      intro same
      exact fixed (Except.ok.inj (isText.symm.trans same))
    have marked : ∀ {addr}, EntryAddr entry addr →
        removalFlag after = .ok (some 0x10) := by
      intro addr reads
      rw [← written]
      exact removalFlag_write reads.isObject (by decide +kernel)
    constructor
    · intro agrees reads
      right
      have same := agrees 0 reads
      rw [if_pos rfl, marked reads] at same
      exact same.symm
    · intro spelled addr reads
      rw [marked reads]
      by_cases zero : addr = 0
      · rw [zero] at reads
        rw [if_pos zero, (spelled reads).resolve_left other]
      · rw [if_neg zero]

theorem rmblclrAgrees_iff {entry after : Value} (done : rmblEntry entry = .ok after) :
    RmblclrAgrees entry after ↔ ZeroSpelled 0 entry := by
  obtain ⟨text, isText, result⟩ := bind_ok.mp done
  have written : (if text = addrZeroText then kvReplace strRmorbl "0x00".toList entry
      else entry) = after := Except.ok.inj result
  by_cases fixed : text = addrZeroText
  · rw [if_pos fixed] at written
    rw [fixed] at isText
    constructor
    · intro _ _
      exact .inl isText
    · intro _ addr reads
      rw [if_pos ((entryAddr_of_zeroText isText).mp reads), ← written]
      exact removalFlag_write reads.isObject (by decide +kernel)
  · -- the entry is passed over, whatever its address is
    rw [if_neg fixed] at written
    subst written
    have other : memberText entry strAddr ≠ .ok addrZeroText := by
      intro same
      exact fixed (Except.ok.inj (isText.symm.trans same))
    constructor
    · intro agrees reads
      right
      exact (agrees 0 reads).trans (if_pos rfl)
    · intro spelled addr reads
      by_cases zero : addr = 0
      · rw [zero] at reads
        rw [if_pos zero, (spelled reads).resolve_left other]
      · rw [if_neg zero]

/-- What is decided for each entry is decided for all of them. -/
theorem agrees_all_iff {edit : Value → Except Abort Value} {agrees : Value → Value → Prop}
    {spelled : Value → Prop}
    (each : ∀ {entry after}, edit entry = .ok after → (agrees entry after ↔ spelled entry))
    {entries edited : List Value} (maps : entries.mapM edit = .ok edited) :
    List.Forall₂ agrees entries edited ↔ ∀ entry ∈ entries, spelled entry := by
  have edits := forall₂_of_mapM maps
  clear maps
  induction edits with
  | nil => simp
  | cons first rest hypothesis =>
      rw [List.forall₂_cons, List.forall_mem_cons]
      exact and_congr (each first) hypothesis

/-! ## The records after a load -/

theorem Shows.fill {entry : NodeEntry} {item : Value} (own : OwnFields item entry)
    (node : Node) : Shows (entry.fill node) item := ⟨own.uuid, own.addr, own.rmorbl⟩

/-- One round of the load, for the nodes. -/
theorem ShowsEntries.item {db after : CfgDb} {entries : List Value}
    (shows_ : ShowsEntries db entries) (allotted : Allotted db) {templates : Templates}
    {fresh : UInt64} {item : Value} (inside : item ∈ entries)
    (round : loadNodeItem templates fresh false item db = .ok after) :
    ShowsEntries after entries ∧ Allotted after := by
  obtain ⟨parsed, parses, load⟩ := bind_ok.mp round
  rcases complete_of_parses parses with ⟨rfl, _⟩ | ⟨entry, rfl, own⟩
  · cases load
    exact ⟨shows_, allotted⟩
  · obtain ⟨loaded, _, result⟩ := bind_ok.mp load
    cases result
    let written : NodeEntry := { entry with config := fun _ => loaded.config }
    have filled : OwnFields item written :=
      ⟨own.addr, own.uuid, own.rmorbl, own.done, own.err, own.func⟩
    have finish : ∀ {record}, Placed db written record →
        Writes db (db.loadNode written false) written record →
        ShowsEntries (db.loadNode written false) entries ∧
          Allotted (db.loadNode written false) := by
      intro record placed writes
      refine ⟨?_, allotted.write writes placed⟩
      intro other known
      by_cases same : other = record
      · rw [same, writes.heap_self]
        exact ⟨item, inside, Shows.fill filled _⟩
      · rw [writes.heap_other same]
        exact shows_ other ((writes.known known).resolve_left same)
    rcases loadNode_writes allotted written with ⟨record, held, writes⟩ | ⟨absent, writes⟩
    · exact finish (.inl held) writes
    · exact finish (.inr ⟨absent, rfl⟩) writes

theorem ShowsEntries.array {entries items : List Value}
    (inside : ∀ item ∈ items, item ∈ entries)
    {templates : Templates} {fresh : Nat → UInt64} {index : Nat} {db after : CfgDb}
    (shows_ : ShowsEntries db entries) (allotted : Allotted db)
    (load : loadNodeArr templates fresh false index items db = .ok after) :
    ShowsEntries after entries ∧ Allotted after := by
  induction items generalizing index db with
  | nil =>
      cases load
      exact ⟨shows_, allotted⟩
  | cons item rest hypothesis =>
      obtain ⟨middle, round, load⟩ := bind_ok.mp load
      obtain ⟨showsAfter, allottedAfter⟩ :=
        shows_.item allotted (inside item List.mem_cons_self) round
      exact hypothesis (fun other member => inside other (List.mem_cons_of_mem _ member))
        showsAfter allottedAfter load

theorem ShowsEntries.retained {db after : CfgDb} {entries : List Value}
    (shows_ : ShowsEntries db entries) (retained : Retained db after) :
    ShowsEntries after entries := by
  rintro record ⟨spot, notBacklog, found⟩
  obtain ⟨held, same⟩ := retained spot record notBacklog found
  rw [same]
  exact shows_ record ⟨spot, notBacklog, held⟩

/-- A forced load of an open file: the file stays open, and every record is one that the
load has written. -/
theorem forced_reload {state : NodesState} {entries backlog : List Value}
    (isOpen : FileOpen state entries backlog) (allotted : Allotted state.db) {env : LoadEnv}
    {loaded : Bool} {nw : NwCfg} {db : CfgDb}
    (done : reloadNodesFile env true state.file state.nw state.db = .ok (loaded, nw, db)) :
    loaded = true ∧ FileOpen { db := db, nw := nw, file := state.file } entries backlog ∧
      ShowsEntries db entries := by
  obtain ⟨root, _, saved, loadable, isEntries, isBacklog⟩ := isOpen.held
  obtain ⟨members, content⟩ := reload_object done
  rw [saved] at content
  cases content
  obtain ⟨_, outcome⟩ := reload_cases saved loadable.distinct done
  rcases outcome with ⟨rfl, _⟩ | ⟨_, visited, clears, refused⟩
  · obtain ⟨⟨after, held, same⟩, autoflush⟩ := reload_tree done
    rw [saved] at same
    cases same
    refine ⟨rfl, ⟨⟨_, held, saved, loadable, isEntries, isBacklog⟩, autoflush⟩, ?_⟩
    simp only [reloadNodesFile, bind_ok] at done
    obtain ⟨⟨opened, middle⟩, opens, done⟩ := done
    cases opened with
    | false => cases done
    | true =>
        simp only [if_true, loadJsonFile, bind_ok] at done
        obtain ⟨⟨isLoaded, last⟩, loads, finish⟩ := done
        cases finish
        have root := openJsonFile_root opens
        have isNodes := entries_of_root root
        rw [isOpen.entries_eq] at isNodes
        have start : ShowsEntries state.db.cfgdbRemoveAllNodes.cfgdbRemoveAllUpl entries :=
          fun record known => absurd known known_cleared
        unfold loadNodes at loads
        split at loads
        · cases loads
        · cases loads
        · split at loads
          · cases loads
          · rename_i nodes found
            obtain ⟨filled, nodesLoad, loads⟩ := bind_ok.mp loads
            obtain ⟨final, backlogLoad, result⟩ := bind_ok.mp loads
            cases result
            unfold NwCfg.entries at isNodes
            rw [found] at isNodes
            unfold loadNodeValue at nodesLoad
            split at nodesLoad
            · cases nodesLoad
              exact start.retained (loadBacklog_retained allotted.cleared backlogLoad)
            · rename_i items same
              cases same
              have isItems : items = entries := isNodes
              rw [isItems] at nodesLoad
              obtain ⟨shown, allottedAfter⟩ :=
                start.array (fun _ member => member) allotted.cleared nodesLoad
              exact shown.retained (loadBacklog_retained allottedAfter backlogLoad)
            · cases nodesLoad
  · exact absurd refused loadable.not_refused

/-! ## The commands -/

/-- A file that is open in memory, whatever became of it on the disk. -/
structure TreeOpen (nw : NwCfg) (root : Value) : Prop where
  held : nw.root = some root
  loadable : Loadable root
  autoflush : nw.autoflush = true

/-- What is on the disk does not matter to a write through all nodes. -/
theorem writeAll_file {state : NodesState} {root : Value} (isOpen : TreeOpen state.nw root)
    {entries : List Value} (array : state.nw.firstNodes = some (.array entries))
    (file : SavedFile) (clock : SaveClock) (edit : Value → Except Abort Value) :
    NodesState.writeAll clock edit { state with file := file } = state.writeAll clock edit := by
  have flushes := isOpen.autoflush
  have held := isOpen.held
  obtain ⟨db, ⟨tree, synctime, autoflush, backlog⟩, old⟩ := state
  cases flushes
  cases tree with
  | none => cases held
  | some tree =>
      simp only [NodesState.writeAll, NwCfg.editNodes, array]
      split
      · rfl
      · rfl
      · cases entries.mapM edit with
        | error abort => rfl
        | ok edited => rfl

/-- A write through all nodes replaces the file on the disk. -/
theorem writeAll_rewrites {state after : NodesState} {root : Value}
    (isOpen : TreeOpen state.nw root) {clock : SaveClock} {edit : Value → Except Abort Value}
    {written : Bool} (done : state.writeAll clock edit = .ok (written, after)) :
    written = true ∧ after.db = state.db ∧ ∃ edited, (nodesOf root).mapM edit = .ok edited ∧
      FileOpen after edited (backlogOf root) := by
  have saved : FileOpen { state with file := { content := some root, mtime := 0 } }
      (nodesOf root) (backlogOf root) :=
    ⟨⟨root, isOpen.held, rfl, isOpen.loadable, rfl, rfl⟩, isOpen.autoflush⟩
  have same := writeAll_file isOpen saved.firstNodes { content := some root, mtime := 0 } clock
    edit
  exact saved.writeAll (same.trans done)

/-- After the write, the forced load: the file has the edited entries, and the records show
them. -/
theorem rewritten_load {host marked after : NodesHost} {root : Value}
    (isOpen : TreeOpen host.nw root) (allotted : Allotted host.mng.db)
    {first second : SaveClock} {env : LoadEnv} {inDdb : Uuid → Bool}
    {edit : Value → Except Abort Value} {written loaded : Bool} {nodes : NodesState}
    (writes : host.nodes.writeAll first edit = .ok (written, nodes))
    (isMarked : marked = host.setNodes nodes)
    (loads : loadCfgFile env inDdb second true marked = .ok (loaded, after)) :
    ∃ edited, (nodesOf root).mapM edit = .ok edited ∧ after.file.entries = edited ∧
      ShowsEntries after.mng.db edited := by
  have opened : TreeOpen host.nodes.nw root := isOpen
  obtain ⟨_, sameDb, edited, maps, fileOpen⟩ := writeAll_rewrites opened writes
  subst isMarked
  obtain ⟨⟨isLoaded, nw, db⟩, opens, result⟩ := bind_ok.mp loads
  have forced : reloadNodesFile env true nodes.file nodes.nw nodes.db =
      .ok (isLoaded, nw, db) := by
    unfold jsonCfgOpen at opens
    rw [Bool.not_true, Bool.and_false, if_neg Bool.false_ne_true] at opens
    exact opens
  have allottedAfter : Allotted nodes.db := by
    rw [sameDb]
    exact allotted
  obtain ⟨rfl, reopened, shown⟩ := forced_reload fileOpen allottedAfter forced
  cases result
  refine ⟨edited, maps, (reopened.flush second).entries_eq, ?_⟩
  rw [db_mngLoadLists]
  exact shown

theorem clicbRmall_rewrites {host after : NodesHost} {root : Value}
    (isOpen : TreeOpen host.nw root) (allotted : Allotted host.mng.db) {input : FileInput}
    (idle : host.mng.state.busy = false) (done : clicbRmall input host = .ok after) :
    ∃ edited, (nodesOf root).mapM rmallEntry = .ok edited ∧ after.file.entries = edited ∧
      ShowsEntries after.mng.db edited := by
  unfold clicbRmall at done
  rw [idle, if_neg Bool.false_ne_true] at done
  obtain ⟨⟨written, nodes⟩, writes, done⟩ := bind_ok.mp done
  have isWritten := (@writeAll_rewrites host.nodes _ _ isOpen _ _ _ writes).1
  subst isWritten
  obtain ⟨⟨loaded, last⟩, loads, result⟩ := bind_ok.mp done
  obtain ⟨edited, maps, entries, shown⟩ := rewritten_load isOpen allotted writes rfl loads
  cases loaded with
  | false =>
      cases result
      exact ⟨edited, maps, entries, shown⟩
  | true =>
      cases result
      exact ⟨edited, maps, entries, shown⟩

theorem clicbRmblclr_rewrites {host after : NodesHost} {root : Value}
    (isOpen : TreeOpen host.nw root) (allotted : Allotted host.mng.db) {input : FileInput}
    (done : clicbRmblclr input host = .ok after) :
    ∃ edited, (nodesOf root).mapM rmblEntry = .ok edited ∧ after.file.entries = edited ∧
      ShowsEntries after.mng.db edited := by
  obtain ⟨⟨written, nodes⟩, writes, done⟩ := bind_ok.mp done
  have isWritten := (@writeAll_rewrites host.nodes _ _ isOpen _ _ _ writes).1
  subst isWritten
  obtain ⟨⟨loaded, last⟩, loads, result⟩ := bind_ok.mp done
  cases result
  exact rewritten_load isOpen allotted writes rfl loads

/-- What a command leaves: each entry of the file as the loader's address asks for, and the
records as the file has them. -/
def LeavesMarks (agrees : Value → Value → Prop) (root : Value) (after : NodesHost) : Prop :=
  List.Forall₂ agrees (nodesOf root) after.file.entries ∧
    ShowsEntries after.mng.db after.file.entries

/-- The two commands take for provisioned what the loader does exactly when every address 0 is
spelled as the program spells it, or has the flag that they write.  They compare the text of the
address with `0x0000`, the loader reads it as a number. -/
theorem removal_marks_agree_iff {host : NodesHost} {root : Value}
    (isOpen : TreeOpen host.nw root) (allotted : Allotted host.mng.db) (input : FileInput) :
    (∀ after, host.mng.state.busy = false → clicbRmall input host = .ok after →
      (LeavesMarks RmallAgrees root after ↔
        ∀ entry ∈ nodesOf root, ZeroSpelled 0x10 entry)) ∧
    (∀ after, clicbRmblclr input host = .ok after →
      (LeavesMarks RmblclrAgrees root after ↔
        ∀ entry ∈ nodesOf root, ZeroSpelled 0 entry)) := by
  constructor
  · intro after idle done
    obtain ⟨edited, maps, entries, shown⟩ := clicbRmall_rewrites isOpen allotted idle done
    unfold LeavesMarks
    rw [entries, ← agrees_all_iff rmallAgrees_iff maps]
    exact and_iff_left shown
  · intro after done
    obtain ⟨edited, maps, entries, shown⟩ := clicbRmblclr_rewrites isOpen allotted done
    unfold LeavesMarks
    rw [entries, ← agrees_all_iff rmblclrAgrees_iff maps]
    exact and_iff_left shown

/-- A device with an address and a flag, which are spelled in some way. -/
def markedEntry (uuid addr flag : String) : Value :=
  (((nodeObject []).set strUuid (.string uuid.toList)).set strAddr
    (.string addr.toList)).set strRmorbl (.string flag.toList)

/-- A manager that has opened a file with some devices. -/
def NodesHost.sampleMarked (entries : List Value) : NodesHost where
  mng := Mng.sampleConfigured.setDb .cfgdbInit
  nw :=
    openedAs [(strSubnets, .array [.object [(strNodes, .array entries)]])] (some 1) 1 .absent
  file := editedFile []

theorem sampleMarked_open (entries : List Value) :
    TreeOpen (NodesHost.sampleMarked entries).nw (nodesContent entries) where
  held := rfl
  loadable :=
    { isObject := rfl
      distinct := by simp [nodesContent, Value.DistinctKeys]
      subnets := by
        refine ⟨_, _, _, rfl, ?_, rfl⟩
        intro item member
        rw [List.mem_singleton.mp member]
        refine ⟨?_, _, rfl⟩
        intro value impossible
        cases impossible }
  autoflush := rfl

/-- What the sample input finds: nothing in the database of the NCP. -/
def FileInput.sampleMarks : FileInput where
  first := { time := 8, mtime := 8 }
  second := { time := 8, mtime := 8 }
  env := noTemplates
  inDdb := fun _ => false

/-- A command ends, and what it leaves passes the test. -/
def commandShows (result : Except Abort NodesHost) (test : NodesHost → Bool) : Bool :=
  match result with
  | .ok after => test after
  | .error _ => false

theorem command_of_shows {result : Except Abort NodesHost} {test : NodesHost → Bool}
    (passed : commandShows result test = true) :
    ∃ after, result = .ok after ∧ test after = true := by
  unfold commandShows at passed
  split at passed
  · exact ⟨_, rfl, passed⟩
  · cases passed

/-- The flags in the file. -/
def shownFlags (host : NodesHost) : List (Option UInt8) :=
  host.file.entries.map fun entry => (removalFlag entry).toOption.join

/-- A node without a mark, a device without an address that has one, and a node that is to be
removed. -/
def markedEntries : List Value :=
  [markedEntry "00112233445566778899aabbccddeeff" "0x0005" "0x00",
    markedEntry "11112233445566778899aabbccddeeff" "0x0000" "0x01",
    markedEntry "22112233445566778899aabbccddeeff" "0x0006" "0x10"]

/-- Both commands do what the loader's addresses ask for: one marks the two nodes, the other
clears the mark of the device. -/
theorem removal_marks_agree_iff_saved :
    ∃ removed cleared,
      clicbRmall .sampleMarks (.sampleMarked markedEntries) = .ok removed ∧
      clicbRmblclr .sampleMarks (.sampleMarked markedEntries) = .ok cleared ∧
      shownFlags removed = [some 0x10, some 0x01, some 0x10] ∧
      shownFlags cleared = [some 0x00, some 0x00, some 0x10] ∧
      LeavesMarks RmallAgrees (nodesContent markedEntries) removed ∧
      LeavesMarks RmblclrAgrees (nodesContent markedEntries) cleared := by
  have allotted : Allotted (NodesHost.sampleMarked markedEntries).mng.db := Allotted.init
  obtain ⟨removed, isRemoved, marked⟩ := @command_of_shows
    (clicbRmall .sampleMarks (.sampleMarked markedEntries))
    (fun after => shownFlags after = [some 0x10, some 0x01, some 0x10]) (by decide +kernel)
  obtain ⟨cleared, isCleared, unmarked⟩ := @command_of_shows
    (clicbRmblclr .sampleMarks (.sampleMarked markedEntries))
    (fun after => shownFlags after = [some 0x00, some 0x00, some 0x10]) (by decide +kernel)
  obtain ⟨rmall, clrrb⟩ :=
    removal_marks_agree_iff (sampleMarked_open markedEntries) allotted .sampleMarks
  have spelled : ∀ flag, ∀ entry ∈ markedEntries, ZeroSpelled flag entry := by
    intro flag entry member isZero
    unfold EntryAddr at isZero
    simp only [markedEntries, List.mem_cons, List.not_mem_nil, or_false] at member
    rcases member with rfl | rfl | rfl
    · exact absurd isZero (by decide +kernel)
    · left
      decide +kernel
    · exact absurd isZero (by decide +kernel)
  exact ⟨removed, cleared, isRemoved, isCleared, of_decide_eq_true marked,
    of_decide_eq_true unmarked, (rmall removed rfl isRemoved).mpr (spelled 0x10),
    (clrrb cleared isCleared).mpr (spelled 0)⟩

/-- A device whose address is written `0x0`. -/
def shortEntry : Value := markedEntry "00112233445566778899aabbccddeeff" "0x0" "0x00"

/-- It is marked for removal by `rmall`. -/
theorem rmall_marks_unprovisioned :
    ¬ ∀ (host after : NodesHost) (root : Value) (input : FileInput), TreeOpen host.nw root →
      Allotted host.mng.db → host.mng.state.busy = false → clicbRmall input host = .ok after →
      LeavesMarks RmallAgrees root after := by
  intro claim
  obtain ⟨after, done, flags⟩ := @command_of_shows
    (clicbRmall .sampleMarks (.sampleMarked [shortEntry]))
    (fun after => shownFlags after = [some 0x10]) (by decide +kernel)
  have allotted : Allotted (NodesHost.sampleMarked [shortEntry]).mng.db := Allotted.init
  obtain ⟨agrees, _⟩ := claim _ after _ _ (sampleMarked_open [shortEntry]) allotted rfl done
  have isNodes : nodesOf (nodesContent [shortEntry]) = [shortEntry] := rfl
  rw [isNodes] at agrees
  obtain ⟨edited, rest, first, _, entries⟩ := List.forall₂_cons_left_iff.mp agrees
  have isZero : EntryAddr shortEntry 0 := by
    unfold EntryAddr
    decide +kernel
  have unchanged : removalFlag shortEntry = .ok (some 0) := by decide +kernel
  have same := first 0 isZero
  rw [if_pos rfl, unchanged] at same
  have shown := of_decide_eq_true flags
  rw [shownFlags, entries, List.map_cons, same] at shown
  cases (List.cons.inj shown).1

end Nwmng
