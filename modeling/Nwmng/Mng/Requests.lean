/-
Module: Nwmng.Mng.Requests
Purpose: Which devices are provisioned: those that wait in the list of devices to add, as
long as nothing but a load changes that list behind the records.
Trusted boundary: none
Main exports:
  Unaddressed, Listed, AddState.OnRequest, AddOp.Asked, requests_asked_guarded,
  free_mode_provisions
-/
import Nwmng.Mng.Scanning

namespace Nwmng

open Json Fallible Transition

/-! ## The list of devices to add -/

/-- No unprovisioned device has an address. -/
def Unaddressed (db : CfgDb) : Prop :=
  ∀ uuid record, db.get (.unprovDevs uuid) = some record → (db.heap record).addr = 0

/-- Every unprovisioned device without a mark waits to be added.  The list is made when a
synchronization starts; later entries of the database come from the backlog, in the free mode. -/
def Listed (db : CfgDb) (add : List NodeId) : Prop :=
  ∀ uuid record, db.get (.unprovDevs uuid) = some record → (db.heap record).rmorbl = 0 →
    record ∈ add

theorem CfgDb.mem_values_of_getElem? {Key : Type} {order : Key → Key → Ordering}
    [Std.TransCmp order] [Std.LawfulEqCmp order] {tree : Std.TreeMap Key NodeId order}
    {key : Key} {record : NodeId} (held : tree[key]? = some record) : record ∈ tree.values := by
  rw [CfgDb.values_eq_toList]
  exact List.mem_map.mpr ⟨(key, record), Std.TreeMap.mem_toList_iff_getElem?_eq_some.mpr held, rfl⟩

theorem mem_loadUnprov {db : CfgDb} {record other : NodeId} {lists : Lists}
    (listed : other ∈ lists.add) : other ∈ (loadUnprov db record lists).add := by
  unfold loadUnprov
  split
  · exact List.mem_append_left _ listed
  · exact listed

theorem add_loadNodeLists (db : CfgDb) (record : NodeId) (lists : Lists) :
    (loadNodeLists db record lists).add = lists.add := by
  unfold loadNodeLists
  dsimp only
  split
  · rfl
  · split
    · split
      · rfl
      · rfl
    · split
      · rfl
      · rfl

/-- A traversal does not take a device off the list. -/
theorem mem_loadLists {inDdb : Uuid → Bool} {db : CfgDb} {records : List NodeId}
    {other : NodeId} {lists : Lists} (listed : other ∈ lists.add) :
    other ∈ (loadLists inDdb db records lists).add := by
  induction records generalizing lists with
  | nil => exact listed
  | cons record rest hypothesis =>
      simp only [loadLists]
      split
      · exact hypothesis (mem_loadUnprov listed)
      · split
        · apply hypothesis
          rw [add_loadNodeLists]
          exact listed
        · exact listed

/-- A traversal of devices without address lists those without a mark. -/
theorem loadLists_lists {inDdb : Uuid → Bool} {db : CfgDb} {records : List NodeId}
    {other : NodeId} {lists : Lists} (noAddress : ∀ record ∈ records, (db.heap record).addr = 0)
    (inside : other ∈ records) (unmarked : (db.heap other).rmorbl = 0) :
    other ∈ (loadLists inDdb db records lists).add := by
  induction records generalizing lists with
  | nil => cases inside
  | cons record rest hypothesis =>
      simp only [loadLists, if_pos (noAddress record List.mem_cons_self)]
      rcases List.mem_cons.mp inside with same | later
      · apply mem_loadLists
        unfold loadUnprov
        rw [← same, if_pos unmarked]
        exact List.mem_append_right _ (List.mem_singleton.mpr rfl)
      · exact hypothesis (fun record member => noAddress record (List.mem_cons_of_mem _ member))
          later

/-- The manager has configured the network. -/
def MngState.Past (state : MngState) : Prop := state ≠ .nil ∧ state ≠ .initialized

/-- Loading the lists, once the network is configured. -/
theorem listed_mngLoadLists {inDdb : Uuid → Bool} {mng : Mng} (past : mng.state.Past)
    (unaddressed : Unaddressed mng.db) :
    Listed (mngLoadLists inDdb mng).db (mngLoadLists inDdb mng).lists.add := by
  have noAddress : ∀ record ∈ mng.db.unprovDevs.values, (mng.db.heap record).addr = 0 := by
    intro record member
    obtain ⟨uuid, held⟩ := CfgDb.mem_values member
    exact unaddressed uuid record held
  rw [db_mngLoadLists]
  intro uuid record held unmarked
  have inside : record ∈ mng.db.unprovDevs.values := CfgDb.mem_values_of_getElem? held
  unfold mngLoadLists
  split
  · rename_i isNil
    exact absurd isNil past.1
  · rename_i isInitialized
    exact absurd isInitialized past.2
  · exact mem_loadLists (loadLists_lists noAddress inside unmarked)

/-! ## Loads -/

/-- An entry is loaded where it belongs. -/
theorem Unaddressed.loadNode {db : CfgDb} {entries : List Value} {item : Value}
    {entry : NodeEntry} (unaddressed : Unaddressed db) (registered : Registered db entries)
    (inside : item ∈ entries) (parsed : Parsed item entry) :
    Unaddressed (db.loadNode entry false) := by
  have addressedAs : ∀ {record}, Writes db (db.loadNode entry false) entry record →
      Placed db entry record → Unaddressed (db.loadNode entry false) := by
    intro record writes placed uuid other found
    rw [writes.get] at found
    have written : ((db.loadNode entry false).heap record).addr = entry.addr := by
      rw [writes.heap_self]
      rfl
    split at found
    · rename_i there
      cases found
      rw [written]
      unfold homeOf at there
      split at there
      · cases there
      · rename_i noAddress
        exact Decidable.of_not_not noAddress
    · by_cases same : other = record
      · rw [same] at found ⊢
        rcases placed with held | ⟨_, fresh⟩
        · rw [written, ← (registered.at_home inside parsed.uuid parsed.addr held).2]
          exact unaddressed uuid record found
        · rw [fresh] at found
          exact absurd (registered.allotted.allocated _ _ found) (Nat.lt_irrefl _)
      · rw [writes.heap_other same]
        exact unaddressed uuid other found
  rcases loadNode_writes registered.allotted entry with ⟨record, held, writes⟩ | ⟨absent, writes⟩
  · exact addressedAs writes (.inl held)
  · exact addressedAs writes (.inr ⟨absent, rfl⟩)

theorem Unaddressed.loadKeeps (entries : List Value) : LoadKeeps Unaddressed entries where
  entry := fun registered inside parsed unaddressed =>
    unaddressed.loadNode registered inside parsed
  backlog := by
    intro db entry registered noAddress unaddressed uuid record found
    have retained := (loadNode_backlog_retained registered.allotted entry).1
    have notBacklog : (Spot.unprovDevs uuid).tree ≠ .backlog :=
      fun impossible => nomatch impossible
    obtain ⟨held, same⟩ := retained _ record notBacklog found
    rw [same]
    exact unaddressed uuid record held

theorem Unaddressed.clearedFor {db : CfgDb} (unaddressed : Unaddressed db) (force : Bool) :
    Unaddressed (clearedFor force db) := by
  intro uuid record found
  rw [heap_clearedFor]
  cases force with
  | false => exact unaddressed uuid record found
  | true =>
      have absent : (Nwmng.clearedFor true db).get (.unprovDevs uuid) = none := by
        simp [Nwmng.clearedFor, CfgDb.get, CfgDb.cfgdbRemoveAllUpl]
      rw [absent] at found
      cases found

theorem Listed.clearedFor {db : CfgDb} {add : List NodeId} (listed : Listed db add)
    (force : Bool) : Listed (clearedFor force db) add := by
  intro uuid record found unmarked
  rw [heap_clearedFor] at unmarked
  cases force with
  | false => exact listed uuid record found unmarked
  | true =>
      have absent : (Nwmng.clearedFor true db).get (.unprovDevs uuid) = none := by
        simp [Nwmng.clearedFor, CfgDb.get, CfgDb.cfgdbRemoveAllUpl]
      rw [absent] at found
      cases found

/-! ## The records and the list -/

/-- No unprovisioned device has an address; and those without a mark wait to be added, if
the list was not cut. -/
structure Waiting (cut : Bool) (db : CfgDb) (add : List NodeId) : Prop where
  unaddressed : Unaddressed db
  listed : cut = false → Listed db add

namespace Waiting

variable {cut : Bool} {db after : CfgDb} {add : List NodeId}

/-- The unprovisioned devices are the same, with the same addresses and marks. -/
theorem congr (waiting : Waiting cut db add)
    (same : ∀ uuid, after.get (.unprovDevs uuid) = db.get (.unprovDevs uuid))
    (heap : ∀ uuid record, db.get (.unprovDevs uuid) = some record →
      (after.heap record).addr = (db.heap record).addr ∧
        (after.heap record).rmorbl = (db.heap record).rmorbl) : Waiting cut after add := by
  constructor
  · intro uuid record found
    rw [same] at found
    rw [(heap uuid record found).1]
    exact waiting.unaddressed uuid record found
  · intro whole uuid record found unmarked
    rw [same] at found
    rw [(heap uuid record found).2] at unmarked
    exact waiting.listed whole uuid record found unmarked

/-- The list is cut. -/
theorem cutOff (waiting : Waiting cut db add) (other : List NodeId) : Waiting true db other :=
  ⟨waiting.unaddressed, fun impossible => nomatch impossible⟩

end Waiting

namespace NodesHost

variable {host target : NodesHost} {cut : Bool}

/-- What a load leaves: new lists, or the old ones, and no device that they miss. -/
theorem waiting_loadCfgFile (sound : NodesSound host.nodes) (past : host.mng.state.Past)
    (waiting : Waiting cut host.mng.db host.mng.lists.add) {env : LoadEnv}
    {inDdb : Uuid → Bool} {clock : SaveClock} {force loaded : Bool}
    (done : loadCfgFile env inDdb clock force host = .ok (loaded, target)) :
    Waiting (cut && !loaded) target.mng.db target.mng.lists.add := by
  have registered := sound.invariant.registered_cleared force
  obtain ⟨⟨isLoaded, nw, db⟩, opens, result⟩ := bind_ok.mp done
  have opened : host.nodes.jsonCfgOpen env force =
      .ok (isLoaded, { host.nodes with nw := nw, db := db }) := bind_ok.mpr ⟨_, opens, rfl⟩
  cases isLoaded with
  | false =>
      cases result
      rw [Bool.not_false, Bool.and_true]
      rcases (jsonCfgOpen_result registered sound.backlog sound.distinct opened).fails rfl with
        same | same
      · have sameDb : db = host.mng.db := same
        rw [sameDb]
        exact waiting
      · have sameDb : db = clearedFor force host.mng.db := same
        rw [sameDb]
        exact ⟨waiting.unaddressed.clearedFor force,
          fun whole => (waiting.listed whole).clearedFor force⟩
  | true =>
      cases result
      have unaddressed : Unaddressed db :=
        (Unaddressed.loadKeeps host.nodes.file.entries).jsonCfgOpen registered sound.backlog
          (waiting.unaddressed.clearedFor force) opened
      have stillPast : (host.mng.setDb db).state.Past := past
      have listed := @listed_mngLoadLists inDdb (host.mng.setDb db) stillPast unaddressed
      refine ⟨?_, fun _ => listed⟩
      have sameDb : (mngLoadLists inDdb (host.mng.setDb db)).db = db := db_mngLoadLists _ _
      rw [sameDb]
      exact unaddressed

theorem waiting_startSync (sound : NodesSound host.nodes) (past : host.mng.state.Past)
    (waiting : Waiting cut host.mng.db host.mng.lists.add) {input : FileInput} {loaded : Bool}
    (done : startSync input host = .ok (loaded, target)) :
    Waiting (cut && !loaded) target.mng.db target.mng.lists.add := by
  let fresh : NodesHost := { host with mng := host.mng.measure fun _ => Stat.zeroed }
  have sameSound : NodesSound fresh.nodes := sound
  have samePast : fresh.mng.state.Past := past
  have same : Waiting cut fresh.mng.db fresh.mng.lists.add := waiting
  unfold startSync at done
  dsimp only at done
  split at done
  · have loads : loadCfgFile input.env input.inDdb input.second false fresh =
        .ok (loaded, target) := done
    exact waiting_loadCfgFile sameSound samePast same loads
  · cases done
    have listed := @listed_mngLoadLists input.inDdb fresh.mng samePast same.unaddressed
    refine ⟨?_, fun _ => listed⟩
    have sameDb : (mngLoadLists input.inDdb fresh.mng).db = host.mng.db := db_mngLoadLists _ _
    have unaddressed := waiting.unaddressed
    rw [← sameDb] at unaddressed
    exact unaddressed

/-- What a load leaves is no worse than what there was. -/
theorem waiting_loaded {loaded : Bool} {db : CfgDb} {add : List NodeId}
    (waiting : Waiting (cut && !loaded) db add) : Waiting cut db add := by
  refine ⟨waiting.unaddressed, fun whole => waiting.listed ?_⟩
  rw [whole]
  exact Bool.false_and _

/-- A write of all entries changes the file only. -/
theorem db_writeAll {nodes after : NodesState} {clock : SaveClock}
    {edit : Value → Except Abort Value} {written : Bool}
    (done : nodes.writeAll clock edit = .ok (written, after)) : after.db = nodes.db := by
  unfold NodesState.writeAll at done
  split at done
  · cases done
    rfl
  · obtain ⟨nw, _, result⟩ := bind_ok.mp done
    cases result
    unfold NodesState.autoFlush
    split
    · rfl
    · rfl

/-- The command has marked the entries, and the list is as before. -/
theorem waiting_marked (waiting : Waiting cut host.mng.db host.mng.lists.add)
    {nodes : NodesState} (sameDb : nodes.db = host.mng.db) :
    Waiting cut (host.setNodes nodes).mng.db (host.setNodes nodes).mng.lists.add := by
  have same : (host.setNodes nodes).mng.db = host.mng.db := sameDb
  rw [same]
  exact waiting

theorem waiting_clicbRmall (sound : NodesSound host.nodes) (past : host.mng.state.Past)
    (waiting : Waiting cut host.mng.db host.mng.lists.add) {input : FileInput}
    (done : clicbRmall input host = .ok target) :
    Waiting cut target.mng.db target.mng.lists.add := by
  unfold clicbRmall at done
  split at done
  · cases done
    exact waiting
  · obtain ⟨⟨written, nodes⟩, writes, done⟩ := bind_ok.mp done
    have marked := waiting_marked waiting (db_writeAll writes)
    have soundMarked : NodesSound (host.setNodes nodes).nodes :=
      sound.writeAll rmallEntry_writes writes
    cases written with
    | false =>
        cases done
        exact marked
    | true =>
        obtain ⟨⟨loaded, last⟩, loads, result⟩ := bind_ok.mp done
        have loadedWaiting := waiting_loaded (waiting_loadCfgFile soundMarked past marked loads)
        cases loaded with
        | false =>
            cases result
            exact loadedWaiting
        | true =>
            cases result
            exact loadedWaiting

theorem waiting_clicbRmblclr (sound : NodesSound host.nodes) (past : host.mng.state.Past)
    (waiting : Waiting cut host.mng.db host.mng.lists.add) {input : FileInput}
    (done : clicbRmblclr input host = .ok target) :
    Waiting cut target.mng.db target.mng.lists.add := by
  obtain ⟨⟨written, nodes⟩, writes, done⟩ := bind_ok.mp done
  have marked := waiting_marked waiting (db_writeAll writes)
  have soundMarked : NodesSound (host.setNodes nodes).nodes :=
    sound.writeAll rmblEntry_writes writes
  cases written with
  | false =>
      cases done
      exact marked
  | true =>
      obtain ⟨⟨loaded, last⟩, loads, result⟩ := bind_ok.mp done
      cases result
      exact waiting_loaded (waiting_loadCfgFile soundMarked past marked loads)

end NodesHost

/-! ## Writes of a node -/

namespace Waiting

variable {cut : Bool} {db after : CfgDb} {add : List NodeId}

/-- A field of a node is written that is neither its address nor its mark. -/
theorem nodeset (waiting : Waiting cut db add) {addr : UInt16} (change : Node → Node)
    (sameAddr : ∀ node, (change node).addr = node.addr)
    (sameMark : ∀ node, (change node).rmorbl = node.rmorbl)
    (done : db.nodeset addr change = .ok after) : Waiting cut after add := by
  unfold CfgDb.nodeset at done
  split at done
  · rename_i record _
    cases done
    apply waiting.congr
    · intro uuid
      exact CfgDb.get_update _ _ _ _
    · intro uuid other _
      by_cases same : other = record
      · rw [same, CfgDb.heap_update_self]
        exact ⟨sameAddr _, sameMark _⟩
      · rw [CfgDb.heap_update_of_ne _ _ same]
        exact ⟨rfl, rfl⟩
  · cases done

/-- A node with a mark becomes an unprovisioned device; or one without, and the list is
cut. -/
theorem retired (waiting : Waiting cut db add) {record : NodeId}
    (moved : Relocated db after record 0) (addressed : (db.heap record).addr ≠ 0)
    (mark : (after.heap record).rmorbl = (db.heap record).rmorbl) :
    Waiting (cut || decide ((db.heap record).rmorbl = 0)) after add := by
  have older : ∀ {uuid : Uuid} {other : NodeId},
      after.get (.unprovDevs uuid) = some other → other ≠ record →
      db.get (.unprovDevs uuid) = some other := by
    intro uuid other found different
    rw [moved.get] at found
    split at found
    · exact absurd (Option.some.inj found).symm different
    · rw [removalSpot_of_addr addressed] at found
      exact (CfgDb.get_of_get_erase found).2
  constructor
  · intro uuid other found
    by_cases same : other = record
    · rw [same]
      exact moved.isAddr
    · rw [moved.heap_other other same]
      exact waiting.unaddressed uuid other (older found same)
  · intro whole uuid other found unmarked
    obtain ⟨notCut, marked⟩ := Bool.or_eq_false_iff.mp whole
    by_cases same : other = record
    · rw [same, mark] at unmarked
      exact absurd unmarked (of_decide_eq_false marked)
    · rw [moved.heap_other other same] at unmarked
      exact waiting.listed notCut uuid other (older found same) unmarked

theorem rmorbl_nodesRm {addr : UInt16} (done : db.nodesRm addr = .ok after) (record : NodeId) :
    (after.heap record).rmorbl = (db.heap record).rmorbl := by
  unfold CfgDb.nodesRm at done
  split at done
  · rename_i holder _
    cases done
    rw [CfgDb.heap_cfgdbAdd]
    by_cases same : record = holder
    · rw [same, CfgDb.heap_update_self]
      exact congrArg (fun heap => (heap holder).rmorbl) (CfgDb.heap_erase _ _)
    · rw [CfgDb.heap_update_of_ne _ _ same]
      exact congrArg (fun heap => (heap record).rmorbl) (CfgDb.heap_erase _ _)
  · cases done

theorem rmorbl_nodesBl {addr : UInt16} (done : db.nodesBl addr = .ok after) (record : NodeId) :
    (after.heap record).rmorbl = (db.heap record).rmorbl := by
  unfold CfgDb.nodesBl at done
  split at done
  · rename_i holder _
    cases done
    rw [CfgDb.heap_cfgdbAdd]
    by_cases same : record = holder
    · rw [same, CfgDb.heap_update_self]
      exact congrArg (fun heap => (heap holder).rmorbl) (CfgDb.heap_erase _ _)
    · rw [CfgDb.heap_update_of_ne _ _ same]
      exact congrArg (fun heap => (heap record).rmorbl) (CfgDb.heap_erase _ _)
  · cases done

/-- A device with a template gets its address, and leaves the list. -/
theorem provisioned {entries : List Value} (waiting : Waiting cut db add)
    (registered : Registered db entries) {uuid : Uuid} {addr : UInt16} (nonzero : addr ≠ 0)
    (free : Registered.AddrFree entries uuid addr)
    (templated : ∀ record, db.cfgdbUnprovDevGet uuid = some record →
      (db.heap record).hasTemplate = true)
    (done : db.uplNodesetAddr uuid addr = .ok after) :
    ∃ record, after.cfgdbNodeGet addr = some record ∧ Waiting cut after (add.erase record) := by
  obtain ⟨record, found, isUuid, moved⟩ :=
    registered.relocated_uplNodesetAddr nonzero free done
  have spot : (db.heap record).removalSpot = .unprovDevs uuid := by
    rw [removalSpot_of_no_addr (waiting.unaddressed uuid record found),
      if_pos (templated record found), isUuid]
  have older : ∀ {device : Uuid} {other : NodeId},
      after.get (.unprovDevs device) = some other →
      db.get (.unprovDevs device) = some other ∧ other ≠ record := by
    intro device other held
    rw [moved.get, homeOf, if_pos nonzero, if_neg (by rintro ⟨⟩), spot] at held
    obtain ⟨apart, before⟩ := CfgDb.get_of_get_erase held
    refine ⟨before, ?_⟩
    intro same
    have own := registered.unprov device other before
    rw [same, isUuid] at own
    exact apart (by rw [own])
  refine ⟨record, ?_, ?_, ?_⟩
  · have place : after.get (.nodes addr) = some record := by
      rw [moved.get, homeOf, if_pos nonzero, if_pos rfl]
    exact place
  · intro device other held
    obtain ⟨before, different⟩ := older held
    rw [moved.heap_other other different]
    exact waiting.unaddressed device other before
  · intro whole device other held unmarked
    obtain ⟨before, different⟩ := older held
    rw [moved.heap_other other different] at unmarked
    have listed := waiting.listed whole device other before unmarked
    exact (List.mem_erase_of_ne different).mpr listed

/-- A new device of the backlog. -/
theorem backlogDev {nodes target : NodesState} (sound : NodesSound nodes)
    (waiting : Waiting cut nodes.db add) {clock : SaveClock} {uuid : Uuid}
    (absent : nodes.db.cfgdbBacklogGet uuid = none)
    (done : nodes.backlogDev clock uuid = .ok target) : Waiting cut target.db add := by
  rcases sound.file with ⟨closed, _⟩ | isOpen
  · unfold NodesState.backlogDev at done
    rw [closed] at done
    cases done
    exact waiting
  · rw [(isOpen.backlogDev done).1]
    apply waiting.congr
    · intro other
      rw [Registered.get_backlogNodeAdd absent, if_neg (fun impossible => nomatch impossible)]
    · intro other record found
      have older := sound.registered.allotted.allocated _ _ found
      rw [Registered.backlogNodeAdd_eq absent, CfgDb.heap_set,
        CfgDb.heap_update_of_ne _ _ (Nat.ne_of_lt older),
        CfgDb.heap_alloc_of_ne _ (Nat.ne_of_lt older)]
      exact ⟨rfl, rfl⟩

end Waiting

/-!
## The requests

A device is asked for when it waits in the list of devices to add in the phase that adds devices.
A request is made from its record, without a look at the list or the phase.
-/

namespace AddState

/-- The device was asked for: it waits in the list of devices to add while devices are
added, a slot is free, and no busy slot is its own. -/
structure OnRequest (state : AddState) (uuid : Uuid) : Prop where
  adding : state.mng.state = .addingDevicesEm
  listed : ∃ record, state.mng.db.cfgdbUnprovDevGet uuid = some record ∧
    record ∈ state.mng.lists.add
  free : state.mng.HasFree
  unheld : ∀ id, (state.mng.add id).busy = true → (state.mng.add id).uuid ≠ uuid

/-- The record of the device is one that could be added. -/
def CanBeAdded (state : AddState) (uuid : Uuid) : Prop :=
  ∃ record, state.mng.db.cfgdbUnprovDevGet uuid = some record ∧
    (state.mng.db.heap record).rmorbl = 0

/-- The record of the device names a template. -/
def Templated (state : AddState) (uuid : Uuid) : Prop :=
  ∀ record, state.mng.db.cfgdbUnprovDevGet uuid = some record →
    (state.mng.db.heap record).hasTemplate = true

end AddState

/-- A step requests only devices that were asked for.  What is asked for is judged before the
step: a device leaves its list when its request goes out. -/
def AddOp.Requests (move : Move AddState AddOp) : Prop :=
  ∀ request, move.target.requests = request :: move.source.requests →
    move.source.OnRequest request.uuid

/-- A beacon that is looked at, of a device that could be added, arrives in an adding phase
whose list was not cut; and a device that is reported to be provisioned names a template. -/
def AddOp.Asked (source : AddState) : AddOp → Prop
  | .event (.beacon uuid _ _ _ _) => source.Listening → source.CanBeAdded uuid →
      source.mng.state = .addingDevicesEm ∧ source.cut = false
  | .event (.provisioned uuid _ _) => source.Listening → source.Templated uuid
  | _ => True

/-- What the requests follow from.  The records are sound, the network is configured, and the
unprovisioned devices are still listed, unless the list was cut. -/
structure RequestsKept (state : AddState) : Prop where
  sound : NodesSound state.nodes
  past : state.mng.state.Past
  waiting : Waiting state.cut state.mng.db state.mng.lists.add

theorem cons_ne_of_same {α : Type} {item : α} {items others : List α} (same : others = items) :
    others ≠ item :: items := by
  rw [same]
  exact (List.cons_ne_self item items).symm

namespace AddState

variable {state target : AddState}

theorem requests_recoverScan (state : AddState) :
    state.recoverScan.requests = state.requests := by
  unfold recoverScan
  split
  · rfl
  · rfl

theorem requests_provisionDevice (netkey : UInt16) (id : Fin maxProvSessions) (uuid : Uuid)
    (result : UInt16) (now : Nat) (state : AddState) :
    (state.provisionDevice netkey id uuid result now).requests =
      { netkey := netkey, uuid := uuid } :: state.requests := by
  obtain ⟨_, _, _, _, _, same⟩ := provisionDevice_eq netkey id uuid result now state
  rw [same]

/-- What a request takes: a record without a mark, a free slot, and none of its own. -/
theorem requests_onBeaconRecv {uuid : Uuid} {gatt : Bool} {result : UInt16} {now : Nat}
    {clock : SaveClock} (done : state.onBeaconRecv uuid gatt result now clock = .ok target) :
    target.requests = state.requests ∨
      ((∃ netkey, target.requests = { netkey := netkey, uuid := uuid } :: state.requests) ∧
        state.CanBeAdded uuid ∧ state.mng.HasFree ∧ state.mng.iscached uuid = none) := by
  cases onBeaconRecv_step done with
  | ignored => exact .inl rfl
  | noted _ _ => exact .inl rfl
  | @requested record _ _ found unmarked free notCached =>
      exact .inr ⟨⟨_, requests_provisionDevice _ _ _ _ _ _⟩, ⟨record, found, unmarked⟩,
        Mng.hasFree_of_freeId free, notCached⟩

/-- A request changes neither the lists nor the phase. -/
theorem frame_provisionDevice (netkey : UInt16) (id : Fin maxProvSessions) (uuid : Uuid)
    (result : UInt16) (now : Nat) (state : AddState) :
    let after := state.provisionDevice netkey id uuid result now
    after.cut = state.cut ∧ after.mng.lists = state.mng.lists ∧
      after.mng.state = state.mng.state := by
  obtain ⟨_, _, _, _, _, same⟩ := provisionDevice_eq netkey id uuid result now state
  rw [same]
  exact ⟨rfl, rfl, rfl⟩

theorem frame_onBeaconRecv {uuid : Uuid} {gatt : Bool} {result : UInt16} {now : Nat}
    {clock : SaveClock} (done : state.onBeaconRecv uuid gatt result now clock = .ok target) :
    target.cut = state.cut ∧ target.mng.lists = state.mng.lists ∧
      target.mng.state = state.mng.state := by
  cases onBeaconRecv_step done with
  | ignored => exact ⟨rfl, rfl, rfl⟩
  | noted _ _ => exact ⟨rfl, rfl, rfl⟩
  | requested _ _ _ _ _ => exact frame_provisionDevice _ _ _ _ _ _

/-- No busy slot holds a device that is not cached. -/
theorem unheld_of_iscached {mng : Mng} {uuid : Uuid} (absent : mng.iscached uuid = none)
    (id : Fin maxProvSessions) (busy : (mng.add id).busy = true) : (mng.add id).uuid ≠ uuid := by
  intro same
  have unmatched := List.find?_eq_none.mp absent id (List.mem_finRange id)
  apply unmatched
  rw [busy, same, Bool.true_and]
  exact decide_eq_true rfl

end AddState

/-- A request under the condition is one for a device that was asked for. -/
theorem AddOp.requests {source target : AddState} {op : AddOp} (kept : RequestsKept source)
    (asked : op.Asked source) (step : op.Step source target) :
    AddOp.Requests ⟨source, op, target⟩ := by
  obtain ⟨possible, done⟩ := step
  intro request issued
  dsimp only at issued ⊢
  cases op with
  | event news =>
      cases news with
      | beacon uuid gatt result now clock =>
          simp only [run, AddState.devAddHdr] at done
          split at done
          · rename_i looks
            rcases AddState.requests_onBeaconRecv done with same |
              ⟨⟨netkey, sent⟩, can, free, absent⟩
            · exact absurd issued (cons_ne_of_same same)
            · rw [sent] at issued
              cases issued
              obtain ⟨adding, whole⟩ := asked looks.1 can
              obtain ⟨record, found, unmarked⟩ := can
              exact ⟨adding, ⟨record, found, kept.waiting.listed whole uuid record found unmarked⟩,
                free, AddState.unheld_of_iscached absent⟩
          · cases done
            exact absurd issued (cons_ne_of_same rfl)
      | provisioned uuid addr input =>
          simp only [run, AddState.devAddHdr] at done
          split at done
          · obtain ⟨_, _, done⟩ := bind_ok.mp done
            obtain ⟨_, _, done⟩ := bind_ok.mp done
            cases done
            exact absurd issued (cons_ne_of_same (AddState.requests_recoverScan _))
          · cases done
            exact absurd issued (cons_ne_of_same rfl)
      | failed uuid reason =>
          simp only [run, AddState.devAddHdr] at done
          split at done
          · cases done
            apply absurd issued (cons_ne_of_same _)
            unfold AddState.onProvFailed
            split
            · unfold AddState.provFailedWa
              dsimp only
              split
              · rfl
              · rfl
            · exact AddState.requests_recoverScan _
          · cases done
            exact absurd issued (cons_ne_of_same rfl)
  | addLoop now =>
      cases done
      apply absurd issued (cons_ne_of_same _)
      unfold AddState.addLoop
      dsimp only
      split
      · exact AddState.requests_recoverScan _
      · rfl
  | sync start =>
      cases done
      exact absurd issued (cons_ne_of_same rfl)
  | freemode on result =>
      cases done
      exact absurd issued (cons_ne_of_same rfl)
  | seqset seq =>
      cases done
      exact absurd issued (cons_ne_of_same rfl)
  | setMngState input =>
      cases done
      exact absurd issued (cons_ne_of_same rfl)
  | work mng =>
      cases done
      exact absurd issued (cons_ne_of_same rfl)
  | rmall input =>
      obtain ⟨host, _, result⟩ := bind_ok.mp done
      cases result
      exact absurd issued (cons_ne_of_same rfl)
  | rmblclr input =>
      obtain ⟨host, _, result⟩ := bind_ok.mp done
      cases result
      exact absurd issued (cons_ne_of_same rfl)
  | starting input =>
      obtain ⟨⟨loaded, host⟩, _, result⟩ := bind_ok.mp done
      cases result
      exact absurd issued (cons_ne_of_same rfl)
  | write call =>
      obtain ⟨nodes, _, result⟩ := bind_ok.mp done
      cases result
      exact absurd issued (cons_ne_of_same rfl)

/-!
## The states

What connects record and list is that an unprovisioned record without a mark is in the list, as
long as the list was not cut.  Each step keeps this, or is noted as a cut.
-/

theorem past_scanPhases (input : PhaseInput) (prios : List Prio) (mng : Mng) :
    (scanPhases input prios mng).state.Past := by
  have finished : ∀ mng : Mng, (finishSync mng).state.Past :=
    fun mng => ⟨(by rintro ⟨⟩), (by rintro ⟨⟩)⟩
  induction prios generalizing mng with
  | nil => exact finished mng
  | cons prio rest hypothesis =>
      cases prio with
      | stop => exact finished mng
      | a =>
          rw [scanPhases]
          split
          · exact ⟨(by rintro ⟨⟩), (by rintro ⟨⟩)⟩
          · split
            · exact ⟨(by rintro ⟨⟩), (by rintro ⟨⟩)⟩
            · exact hypothesis _
      | r =>
          rw [scanPhases]
          split
          · exact hypothesis _
          · exact ⟨(by rintro ⟨⟩), (by rintro ⟨⟩)⟩
      | b =>
          rw [scanPhases]
          split
          · exact hypothesis _
          · exact ⟨(by rintro ⟨⟩), (by rintro ⟨⟩)⟩

theorem past_setMngState (input : PhaseInput) {mng : Mng} (past : mng.state.Past) :
    (setMngState input mng).state.Past := by
  have ends : ∀ other : Mng, (if other.lists.config ≠ [] ∨ other.engine.used ≠ 0 then
      other.setState .configuringDevicesEm else nextPhase input other).state.Past := by
    intro other
    split
    · exact ⟨(nomatch ·), (nomatch ·)⟩
    · exact past_scanPhases _ _ _
  unfold setMngState
  split
  · split
    · exact past
    · dsimp only
      split
      · exact ends _
      · exact ends _
  · split
    · exact past
    · exact past_scanPhases _ _ _
  · split
    · exact past
    · exact past_scanPhases _ _ _
  · split
    · exact past
    · exact past_scanPhases _ _ _
  · exact past_scanPhases _ _ _
  · exact past

theorem phaseFrame_lists : PhaseFrame Mng.lists := ⟨fun _ _ => rfl, fun _ _ => rfl,
  fun _ _ => rfl, fun _ _ => rfl⟩

/-- The start of a synchronization leaves the lists. -/
theorem lists_clicbSync_true (mng : Mng) : (clicbSync true mng).lists = mng.lists := by
  unfold clicbSync
  split
  · rfl
  · rfl
  · rfl
  · rfl

/-- The loop looks at the slots only. -/
theorem AddState.frame_addLoop (now : Nat) (state : AddState) :
    let after := state.addLoop now
    after.mng.state = state.mng.state ∧ after.mng.db = state.mng.db ∧
      after.mng.lists = state.mng.lists ∧ after.cut = state.cut := by
  have recovered : ∀ state : AddState, state.recoverScan.mng = state.mng ∧
      state.recoverScan.cut = state.cut := by
    intro state
    refine ⟨mng_recoverScan state, ?_⟩
    unfold recoverScan
    split
    · rfl
    · rfl
  unfold addLoop
  dsimp only
  split
  · obtain ⟨sameMng, sameCut⟩ := recovered (state.setMng { state.mng with oom := false })
    have sameState := congrArg Mng.state sameMng
    have sameDb := congrArg Mng.db sameMng
    have sameLists := congrArg Mng.lists sameMng
    exact ⟨sameState, sameDb, sameLists, sameCut⟩
  · exact ⟨rfl, rfl, rfl, rfl⟩

namespace RequestsKept

variable {source target : AddState}

/-- A step that leaves the records and the list. -/
theorem congr (kept : RequestsKept source) (sound : NodesSound target.nodes)
    (past : target.mng.state.Past) (db : target.mng.db = source.mng.db)
    (list : target.mng.lists.add = source.mng.lists.add) (cut : target.cut = source.cut) :
    RequestsKept target := by
  refine ⟨sound, past, ?_⟩
  rw [db, list, cut]
  exact kept.waiting

/-- A report of failure, which may take a device off the list. -/
theorem onProvFailed (kept : RequestsKept source) (uuid : Uuid) (reason : UInt8) :
    RequestsKept (source.onProvFailed uuid reason) := by
  have sound : NodesSound (source.onProvFailed uuid reason).nodes := by
    rw [AddState.nodes_onProvFailed]
    exact kept.sound
  unfold AddState.onProvFailed at sound ⊢
  split
  · unfold AddState.provFailedWa
    dsimp only
    split
    · exact ⟨kept.sound, kept.past, kept.waiting.cutOff _⟩
    · exact kept
  · rename_i other
    rw [if_neg other] at sound
    apply kept.congr sound
    · rw [AddState.mng_recoverScan]
      exact kept.past
    · rw [AddState.mng_recoverScan]
      rfl
    · rw [AddState.mng_recoverScan]
      rfl
    · unfold AddState.recoverScan
      split
      · rfl
      · rfl

/-- A report of success takes the device off the list. -/
theorem onProvSuccess (kept : RequestsKept source) {input : WriteInput} {uuid : Uuid}
    {addr : UInt16} (nonzero : addr ≠ 0)
    (free : ∀ entry ∈ source.nodes.file.entries, ¬ EntryAddr entry addr)
    (templated : source.Templated uuid)
    (done : source.onProvSuccess input uuid addr = .ok target) : RequestsKept target := by
  have sound := (kept.sound.uplNodesetAddr nonzero free (AddState.nodes_onProvSuccess done)).1
  obtain ⟨nodes, _, done⟩ := bind_ok.mp done
  obtain ⟨engine, handled, done⟩ := bind_ok.mp done
  have addressed := DdbState.db_onProvSuccess handled
  obtain ⟨record, place, waiting⟩ := kept.waiting.provisioned kept.sound.registered nonzero
    (fun entry inside isAddr => absurd isAddr (free entry inside)) templated addressed
  have lists : engine.lists.add = source.mng.lists.add.erase record := by
    obtain ⟨db, again, result⟩ := bind_ok.mp handled
    rw [addressed] at again
    cases again
    rw [place] at result
    rw [← Except.ok.inj result]
    rfl
  have sameState : engine.state = source.mng.state := ScanKept.frame_onProvSuccess handled
  cases done
  refine ⟨sound, ?_, ?_⟩
  · rw [AddState.mng_recoverScan]
    have stillPast : engine.state.Past := by
      rw [sameState]
      exact kept.past
    exact stillPast
  · rw [AddState.mng_recoverScan]
    have isCut : ∀ state : AddState, state.recoverScan.cut = state.cut := by
      intro state
      unfold AddState.recoverScan
      split
      · rfl
      · rfl
    rw [isCut]
    have whole : Waiting source.cut engine.host.db engine.lists.add := by
      rw [lists]
      exact waiting
    exact whole

theorem event {news : ProvEvent} (kept : RequestsKept source)
    (step : AddOp.Step source (.event news) target)
    (asked : AddOp.Asked source (.event news)) : RequestsKept target := by
  have sound := AddOp.sound kept.sound step
  obtain ⟨possible, done⟩ := step
  have ended : ∀ uuid, RequestsKept (source.endSession uuid) :=
    fun uuid => kept.congr kept.sound kept.past rfl rfl rfl
  cases news with
  | beacon uuid gatt result now clock =>
      simp only [AddOp.run, AddState.devAddHdr] at done
      split at done
      · obtain ⟨cut, lists, sameState⟩ := AddState.frame_onBeaconRecv done
        refine ⟨sound, ?_, ?_⟩
        · rw [sameState]
          exact kept.past
        · rw [cut, lists]
          rcases AddState.nodes_onBeaconRecv done with same | ⟨absent, adds⟩
          · have sameDb : target.mng.db = source.mng.db := congrArg NodesState.db same
            rw [sameDb]
            exact kept.waiting
          · exact Waiting.backlogDev kept.sound kept.waiting absent adds
      · cases done
        exact kept
  | provisioned uuid addr input =>
      obtain ⟨_, nonzero, free⟩ := possible
      simp only [AddOp.run, AddState.devAddHdr] at done
      split at done
      · rename_i listening
        exact (ended uuid).onProvSuccess nonzero free (asked listening) done
      · cases done
        exact ended uuid
  | failed uuid reason =>
      simp only [AddOp.run, AddState.devAddHdr] at done
      split at done
      · cases done
        exact (ended uuid).onProvFailed uuid reason
      · cases done
        exact ended uuid

/-- A write of the configuration, of the removal or of the blacklisting. -/
theorem write {call : NodeCall} (kept : RequestsKept source)
    (step : AddOp.Step source (.write call) target) : RequestsKept target := by
  have sound := AddOp.sound kept.sound step
  obtain ⟨possible, done⟩ := step
  obtain ⟨nodes, writes, result⟩ := bind_ok.mp done
  cases result
  refine ⟨sound, kept.past, ?_⟩
  have waiting : Waiting (source.cut || source.unlists call) nodes.db
      source.mng.lists.add := by
    have others : ∀ {after : CfgDb}, Waiting source.cut after source.mng.lists.add →
        source.unlists call = false →
        Waiting (source.cut || source.unlists call) after source.mng.lists.add := by
      intro after whole unchanged
      rw [unchanged, Bool.or_false]
      exact whole
    obtain ⟨write, input, second⟩ := call
    cases write with
    | uplNodesetAddr uuid addr => exact absurd rfl (possible uuid addr)
    | nodesRm addr =>
        have written : source.nodes.nodesRm input addr = .ok nodes := writes
        unfold NodesState.nodesRm at written
        have retired := db_onNode written
        obtain ⟨record, found, moved⟩ := kept.sound.registered.relocated_nodesRm retired
        obtain ⟨isAddr, nonzero⟩ := kept.sound.registered.nodes addr record found
        rw [← isAddr] at nonzero
        have whole := kept.waiting.retired moved nonzero (Waiting.rmorbl_nodesRm retired record)
        have held : source.mng.db.cfgdbNodeGet addr = some record := found
        simp only [AddState.unlists, held]
        exact whole
    | nodesBl addr =>
        have retired := NodesState.db_nodesBl writes
        obtain ⟨record, found, moved⟩ := kept.sound.registered.relocated_nodesBl retired
        obtain ⟨isAddr, nonzero⟩ := kept.sound.registered.nodes addr record found
        rw [← isAddr] at nonzero
        have whole := kept.waiting.retired moved nonzero (Waiting.rmorbl_nodesBl retired record)
        have held : source.mng.db.cfgdbNodeGet addr = some record := found
        simp only [AddState.unlists, held]
        exact whole
    | nodesetErrbits addr err =>
        have written : source.nodes.nodesetErrbits input addr err = .ok nodes := writes
        unfold NodesState.nodesetErrbits at written
        exact others (kept.waiting.nodeset (fun node => { node with err := err })
          (fun _ => rfl) (fun _ => rfl) (db_onNode written)) rfl
    | nodesetDone addr flag =>
        have written : source.nodes.nodesetDone input addr flag = .ok nodes := writes
        unfold NodesState.nodesetDone at written
        exact others (kept.waiting.nodeset (fun node => { node with done := flag })
          (fun _ => rfl) (fun _ => rfl) (db_onNode written)) rfl
    | nodesetFunc addr func =>
        have written : source.nodes.nodesetFunc input addr func = .ok nodes := writes
        unfold NodesState.nodesetFunc at written
        exact others (kept.waiting.nodeset (fun node => { node with func := func })
          (fun _ => rfl) (fun _ => rfl) (db_onNode written)) rfl
  exact waiting

/-- A step that stays in the phase of the manager. -/
theorem stillPast (kept : RequestsKept source)
    (same : target.mng.state = source.mng.state) : target.mng.state.Past := by
  rw [same]
  exact kept.past

/-- `sync 1` leaves the list as it is; `sync 0` clears it, which is noted. -/
theorem sync (kept : RequestsKept source) (start : Bool)
    (sound : NodesSound (source.clicbSync start).nodes) :
    RequestsKept (source.clicbSync start) := by
  have past : (clicbSync start source.mng).state.Past := by
    rcases clicbSync_cases start source.mng with frame | ⟨_, starts⟩
    · rw [frame.state]
      exact kept.past
    · rw [starts]
      exact ⟨(nomatch ·), (nomatch ·)⟩
  have sameDb : (clicbSync start source.mng).db = source.mng.db :=
    DdbState.db_clicbSync start source.mng
  cases start with
  | true =>
      have list := congrArg Lists.add (lists_clicbSync_true source.mng)
      exact kept.congr sound past sameDb list (Bool.or_false _)
  | false =>
      refine ⟨sound, past, ?_⟩
      have isCut : (source.clicbSync false).cut = true := Bool.or_true _
      have same : (source.clicbSync false).mng.db = source.mng.db := sameDb
      rw [isCut, same]
      exact kept.waiting.cutOff _

theorem freemode (kept : RequestsKept source) (on : Bool) (result : UInt16)
    (sound : NodesSound (source.followScan (clicbFreemode on result source.mng)).nodes) :
    RequestsKept (source.followScan (clicbFreemode on result source.mng)) := by
  apply kept.congr sound
  · exact kept.stillPast (clmSetScan_state _ _ _)
  · exact phaseFrame_db.clmSetScan _ _ _
  · exact congrArg Lists.add (clmSetScan_lists _ _ _)
  · rfl

/-- `rmall`, which may begin a synchronization. -/
theorem rmall (kept : RequestsKept source) {input : FileInput} {host : NodesHost}
    (sound : NodesSound host.nodes) (marks : clicbRmall input source.host = .ok host) :
    RequestsKept { source with host := host } := by
  refine ⟨sound, ?_, NodesHost.waiting_clicbRmall kept.sound kept.past kept.waiting marks⟩
  have past : host.mng.state.Past := by
    rcases NodesHost.scanFrame_clicbRmall marks with frame | ⟨_, mng, _, starts⟩
    · rw [frame.state]
      exact kept.past
    · rw [starts]
      exact ⟨(nomatch ·), (nomatch ·)⟩
  exact past

theorem addLoop (kept : RequestsKept source) (now : Nat)
    (sound : NodesSound (source.addLoop now).nodes) : RequestsKept (source.addLoop now) := by
  obtain ⟨sameState, sameDb, lists, cut⟩ := source.frame_addLoop now
  apply kept.congr sound
  · exact kept.stillPast sameState
  · exact sameDb
  · rw [lists]
  · exact cut

end RequestsKept

/-- A step under the condition keeps what the requests follow from. -/
theorem AddOp.requestsKept {source target : AddState} {op : AddOp} (kept : RequestsKept source)
    (asked : op.Asked source) (step : op.Step source target) : RequestsKept target := by
  have sound := AddOp.sound kept.sound step
  have whole := step
  obtain ⟨possible, done⟩ := step
  cases op with
  | event news => exact kept.event whole asked
  | write call => exact kept.write whole
  | sync start =>
      cases done
      exact kept.sync start sound
  | freemode on result =>
      cases done
      exact kept.freemode on result sound
  | seqset seq =>
      cases done
      obtain ⟨prios, same⟩ := clicbSeqset_eq seq source.mng
      rw [same] at sound ⊢
      exact kept.congr sound kept.past rfl rfl rfl
  | rmall input =>
      obtain ⟨host, marks, result⟩ := bind_ok.mp done
      cases result
      exact kept.rmall sound marks
  | rmblclr input =>
      obtain ⟨host, clears, result⟩ := bind_ok.mp done
      cases result
      have same := (NodesHost.scanFrame_clicbRmblclr clears).state
      exact ⟨sound, kept.stillPast same,
        NodesHost.waiting_clicbRmblclr kept.sound kept.past kept.waiting clears⟩
  | starting input =>
      obtain ⟨⟨loaded, host⟩, loads, result⟩ := bind_ok.mp done
      cases result
      have same := (NodesHost.scanFrame_startSync loads).state
      exact ⟨sound, kept.stillPast same,
        NodesHost.waiting_startSync kept.sound kept.past kept.waiting loads⟩
  | addLoop now =>
      cases done
      exact kept.addLoop now sound
  | setMngState input =>
      cases done
      apply kept.congr sound
      · exact past_setMngState input kept.past
      · exact phaseFrame_db.setMngState input source.mng
      · exact congrArg Lists.add (phaseFrame_lists.setMngState input source.mng)
      · rfl
  | work mng =>
      cases done
      apply kept.congr sound
      · exact kept.stillPast possible.state
      · exact possible.db
      · exact possible.list
      · rfl

/-! ## Every run -/

theorem AddState.Started.requestsKept {state : AddState} (started : state.Started)
    (unaddressed : Unaddressed state.mng.db) : RequestsKept state := by
  refine ⟨started.sound, ?_, unaddressed, ?_⟩
  · rw [started.configured]
    exact ⟨(nomatch ·), (nomatch ·)⟩
  · intro whole
    rw [started.cut] at whole
    cases whole

/-- In every run, devices are provisioned only on request, as long as the beacons of devices that
could be added arrive in an adding phase whose list was not cut, and the devices name templates.
What is requested is judged at the step in which the request goes out. -/
theorem requests_asked_guarded {initial final : AddState} {past : List (Move AddState AddOp)}
    (run : AddRun initial past final) (started : initial.Started)
    (unaddressed : Unaddressed initial.mng.db) (asked : Guarded AddOp.Asked past) :
    ∀ move ∈ past, AddOp.Requests move := by
  have kept := run.guarded_invariant
    (fun source op target before admitted step =>
      AddOp.requestsKept before admitted step) (started.requestsKept unaddressed) asked
  intro move member
  exact AddOp.requests (kept.1 move member).1 (asked move member) (run.steps_taken move member)

/-! ## Two runs -/

instance (state : AddState) (uuid : Uuid) : Decidable (state.CanBeAdded uuid) :=
  match found : state.mng.db.cfgdbUnprovDevGet uuid with
  | none => isFalse fun ⟨record, held, _⟩ => by rw [found] at held; cases held
  | some record =>
      if unmarked : (state.mng.db.heap record).rmorbl = 0 then
        isTrue ⟨record, found, unmarked⟩
      else isFalse fun ⟨other, held, mark⟩ => by
        rw [found] at held
        cases held
        exact unmarked mark

instance (state : AddState) (uuid : Uuid) : Decidable (state.Templated uuid) :=
  match found : state.mng.db.cfgdbUnprovDevGet uuid with
  | none => isTrue fun record held => by rw [found] at held; cases held
  | some record =>
      if named : (state.mng.db.heap record).hasTemplate = true then
        isTrue fun other held => by
          rw [found] at held
          cases held
          exact named
      else isFalse fun every => named (every record found)

instance (source : AddState) : (op : AddOp) → Decidable (op.Asked source)
  | .event (.beacon uuid _ _ _ _) => inferInstanceAs (Decidable (source.Listening →
      source.CanBeAdded uuid → source.mng.state = .addingDevicesEm ∧ source.cut = false))
  | .event (.provisioned uuid _ _) => inferInstanceAs (Decidable (source.Listening →
      source.Templated uuid))
  | .event (.failed _ _) => isTrue trivial
  | .sync _ => isTrue trivial
  | .freemode _ _ => isTrue trivial
  | .seqset _ => isTrue trivial
  | .rmall _ => isTrue trivial
  | .rmblclr _ => isTrue trivial
  | .starting _ => isTrue trivial
  | .addLoop _ => isTrue trivial
  | .write _ => isTrue trivial
  | .setMngState _ => isTrue trivial
  | .work _ => isTrue trivial

theorem AddState.sample_unaddressed : Unaddressed AddState.sample.mng.db := by
  have closed : Waiting true NodesHost.sampleClosed.mng.db
      NodesHost.sampleClosed.mng.lists.add := by
    refine ⟨?_, fun impossible => nomatch impossible⟩
    intro uuid record found
    have absent : NodesHost.sampleClosed.mng.db.get (.unprovDevs uuid) = none :=
      CfgDb.get_cfgdbInit _
    rw [absent] at found
    cases found
  unfold AddState.mng AddState.sample
  dsimp only
  split
  · rename_i loads
    exact (NodesHost.waiting_loadCfgFile NodesHost.sampleClosed_sound
      ⟨(nomatch ·), (nomatch ·)⟩ closed loads).unaddressed
  · exact closed.unaddressed

/-- A device of the list is requested, and provisioned. -/
theorem requests_asked_guarded_listed :
    ∃ past final, AddRun .sample past final ∧ final.requests.length = 1 ∧
      ∀ move ∈ past, AddOp.Requests move := by
  have passed : replays AddOp.run .sample
      (addingSample ++ [.event (.provisioned sampleUuid 2 .sample)])
      (fun past final => past.all (fun move => move.label.admits move.source) &&
        decide (Guarded (fun source op => AddOp.Asked source op) past ∧
          final.requests.length = 1)) = true := by
    decide +kernel
  obtain ⟨past, final, run, _, shown⟩ := addRun_of_replays passed
  obtain ⟨asked, one⟩ := of_decide_eq_true shown
  exact ⟨past, final, run, one, requests_asked_guarded run AddState.sample_started
    AddState.sample_unaddressed asked⟩

/-- In free mode, a device is provisioned although nobody asked for a synchronization. -/
theorem free_mode_provisions :
    ¬ ∀ (initial final : AddState) (past : List (Move AddState AddOp)),
      AddRun initial past final → initial.Started → Unaddressed initial.mng.db →
      ∀ move ∈ past, AddOp.Requests move := by
  intro claim
  have passed : replays AddOp.run .sample
      [.freemode true 0,
        .event (.beacon sampleUuid false bgErrSuccess 10 { time := 9, mtime := 9 })]
      (fun past final => past.all (fun move => move.label.admits move.source) &&
        past.any fun move => match move.target.requests with
          | _ :: older => decide (older = move.source.requests ∧
              move.source.mng.state ≠ .addingDevicesEm)
          | [] => false) = true := by
    decide +kernel
  obtain ⟨past, final, run, _, shown⟩ := addRun_of_replays passed
  obtain ⟨move, member, issued⟩ := List.any_eq_true.mp shown
  have requests := claim _ _ past run AddState.sample_started AddState.sample_unaddressed
    move member
  split at issued
  · rename_i request older isRequest
    obtain ⟨same, other⟩ := of_decide_eq_true issued
    rw [same] at isRequest
    exact other (requests request isRequest).adding
  · cases issued

end Nwmng
