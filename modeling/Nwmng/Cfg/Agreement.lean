/-
Module: Nwmng.Cfg.Agreement
Purpose: The nodes file and the records in memory agree, from a load on and over every
sequence of the functions that write both.
Trusted boundary: none
Main exports:
  UuidsDistinct, EntryAgrees, NodesState, NodeCall, Agree, Settled
-/
import Nwmng.Cfg.NodesFile
import Nwmng.Cfg.Keyed

namespace Nwmng

open Json Fallible Transition

/-! ## Entries -/

/-- The UUID of an entry. -/
def entryUuid (entry : Value) : Option Uuid := memberUuid clearedBuffer entry

/-- The UUID is written with 32 hexadecimal digits.  Shorter texts are read as well, and then
leave bytes of an earlier entry in the buffer. -/
def HexUuid (entry : Value) : Prop :=
  ∃ text, entry.get strUuid = some (.string text) ∧ text.length = 32 ∧
    ∀ char ∈ text, (hexValue char).isSome = true

/-- Every entry has a UUID, and no two have the same one.  Entries are found by their UUID alone,
the first one that matches being taken. -/
structure UuidsDistinct (entries : List Value) : Prop where
  hex : ∀ entry ∈ entries, HexUuid entry
  distinct : entries.Pairwise fun first second => entryUuid first ≠ entryUuid second

/-- The values that an entry yields are those of a record.  The texts may differ from those that
the program would write: `0x01` and `1` are the same address. -/
structure EntryAgrees (entry : Value) (node : Node) : Prop where
  addr : memberUint UInt16.ofNat entry strAddr = .ok (some node.addr)
  err : memberUint (BitVec.ofNat 32) entry strErrbits = .ok (some node.err)
  done : memberUint UInt8.ofNat entry strDone = .ok (some node.done)
  func : memberUint (BitVec.ofNat 8) entry strFunc = .ok (some node.func)

theorem memberUuid_of_hex {entry : Value} (hex : HexUuid entry) (buffer : Uuid) :
    memberUuid buffer entry = entryUuid entry := by
  obtain ⟨text, member, full, _⟩ := hex
  unfold entryUuid memberUuid
  rw [member]
  exact str2cbuf_full full buffer clearedBuffer

/-- A UUID with 32 digits is read. -/
theorem entryUuid_of_hex {entry : Value} (hex : HexUuid entry) :
    ∃ uuid, entryUuid entry = some uuid := by
  obtain ⟨text, member, full, digits⟩ := hex
  have even : text.length % 2 = 0 := by rw [full]
  have fits : ¬ 16 < text.length / 2 := by
    rw [full]
    exact Nat.lt_irrefl 16
  obtain ⟨bytes, pairs⟩ := Option.isSome_iff_exists.mp (hexPairs_isSome even digits)
  unfold entryUuid memberUuid
  rw [member]
  refine ⟨Vector.ofFn fun index => (bytes[index.val]?).getD clearedBuffer[index], ?_⟩
  show str2cbuf text clearedBuffer = _
  unfold str2cbuf
  rw [if_neg fits, pairs]
  rfl

/-- An entry with a UUID determines its place in the list. -/
theorem UuidsDistinct.eq_of_uuid {entries : List Value} (uuids : UuidsDistinct entries)
    {first second : Value} (one : first ∈ entries) (two : second ∈ entries)
    (same : entryUuid first = entryUuid second) : first = second := by
  have distinct := uuids.distinct
  clear uuids
  induction entries with
  | nil => cases one
  | cons head rest hypothesis =>
      obtain ⟨apart, later⟩ := List.pairwise_cons.mp distinct
      rcases List.mem_cons.mp one with isFirst | one
      · rcases List.mem_cons.mp two with isSecond | two
        · rw [isFirst, isSecond]
        · exact absurd (isFirst ▸ same) (apart second two)
      · rcases List.mem_cons.mp two with isSecond | two
        · exact absurd (isSecond ▸ same.symm) (apart first one)
        · exact hypothesis one two later

/-! ## Writing a field of an entry -/

namespace NodeField

theorem key_ne_uuid (field : NodeField) : strUuid ≠ field.key := by
  cases field with
  | addr value => exact of_decide_eq_true rfl
  | errbits value => exact of_decide_eq_true rfl
  | func value => exact of_decide_eq_true rfl
  | done value => exact of_decide_eq_true rfl

end NodeField

/-- What a write does to an entry. -/
def editEntry (uuid : Uuid) (field : NodeField) (entry : Value) : Value :=
  if entryUuid entry = some uuid then entry.set field.key (.string field.text) else entry

theorem get_uuid_editEntry (uuid : Uuid) (field : NodeField) (entry : Value) :
    (editEntry uuid field entry).get strUuid = entry.get strUuid := by
  unfold editEntry
  split
  · exact Value.get_set_other field.key_ne_uuid entry _
  · rfl

theorem entryUuid_congr {first second : Value}
    (same : first.get strUuid = second.get strUuid) : entryUuid first = entryUuid second := by
  unfold entryUuid memberUuid
  rw [same]

@[simp] theorem entryUuid_editEntry (uuid : Uuid) (field : NodeField) (entry : Value) :
    entryUuid (editEntry uuid field entry) = entryUuid entry :=
  entryUuid_congr (get_uuid_editEntry uuid field entry)

theorem editEntry_of_ne {uuid : Uuid} {entry : Value} (other : entryUuid entry ≠ some uuid)
    (field : NodeField) : editEntry uuid field entry = entry := if_neg other

/-- Changes beside the UUID keep the UUIDs distinct. -/
theorem UuidsDistinct.map {entries : List Value} (uuids : UuidsDistinct entries)
    {edit : Value → Value} (beside : ∀ entry, (edit entry).get strUuid = entry.get strUuid) :
    UuidsDistinct (entries.map edit) where
  hex := by
    intro edited member
    obtain ⟨entry, inside, rfl⟩ := List.mem_map.mp member
    obtain ⟨text, same⟩ := uuids.hex entry inside
    exact ⟨text, by rwa [beside]⟩
  distinct := by
    rw [List.pairwise_map]
    apply uuids.distinct.imp
    intro first second apart
    rwa [entryUuid_congr (beside first), entryUuid_congr (beside second)]

/-- The search of `find_node` finds the entry with the UUID, and changing the entry that
was found is changing the entry with the UUID. -/
theorem findEntry_edit {entries : List Value} (uuids : UuidsDistinct entries)
    (stack : Nat → Uuid) (uuid : Uuid) (field : NodeField) (start : Nat) :
    match findEntry stack uuid start entries with
    | none => entries.map (editEntry uuid field) = entries
    | some found => ∃ offset, found = start + offset ∧
        entries.modify offset (·.set field.key (.string field.text)) =
          entries.map (editEntry uuid field) := by
  induction entries generalizing start with
  | nil => rfl
  | cons entry rest hypothesis =>
      have first : memberUuid (stack start) entry = entryUuid entry :=
        memberUuid_of_hex (uuids.hex entry List.mem_cons_self) _
      obtain ⟨apart, distinct⟩ := List.pairwise_cons.mp uuids.distinct
      have later : UuidsDistinct rest :=
        ⟨fun other member => uuids.hex other (List.mem_cons_of_mem _ member), distinct⟩
      rw [findEntry, first]
      by_cases here : entryUuid entry = some uuid
      · rw [if_pos here]
        have others : rest.map (editEntry uuid field) = rest := by
          have kept : rest.map (editEntry uuid field) = rest.map id := by
            apply List.map_congr_left
            intro other member
            apply editEntry_of_ne
            rw [← here]
            exact (apart other member).symm
          rw [kept, List.map_id]
        exact ⟨0, rfl, by simp [editEntry, here, others]⟩
      · rw [if_neg here]
        have tail := hypothesis later (start + 1)
        cases found : findEntry stack uuid (start + 1) rest with
        | none =>
            rw [found] at tail
            rw [List.map_cons, tail, editEntry_of_ne here]
        | some place =>
            rw [found] at tail
            obtain ⟨offset, rfl, modified⟩ := tail
            exact ⟨offset + 1, by omega, by
              rw [List.modify_succ_cons, modified, List.map_cons, editEntry_of_ne here]⟩

/-! ## The open tree -/

namespace NwCfg

/-- The entries of the first subnet. -/
def entries (nw : NwCfg) : List Value :=
  match nw.firstNodes with
  | some (.array items) => items
  | _ => []

/-- A file with a first subnet is open. -/
structure Open (nw : NwCfg) (entries : List Value) : Prop where
  subnets : ∃ others, nw.subnets = some (others + 1)
  nodes : nw.root.bind (·.seek nodesPath) = some (.array entries)

theorem Open.firstNodes {nw : NwCfg} {entries : List Value} (isOpen : nw.Open entries) :
    nw.firstNodes = some (.array entries) := by
  unfold NwCfg.firstNodes
  rw [isOpen.nodes]

theorem Open.entries_eq {nw : NwCfg} {entries : List Value} (isOpen : nw.Open entries) :
    nw.entries = entries := by
  unfold NwCfg.entries
  rw [isOpen.firstNodes]

/-- The stamp of a save is written beside the nodes. -/
theorem Open.flush {nw : NwCfg} {entries : List Value} (isOpen : nw.Open entries)
    (clock : SaveClock) (file : SavedFile) :
    (jsonCfgFlush clock nw file).1.Open entries := by
  obtain ⟨⟨others, subnets⟩, nodes⟩ := isOpen
  obtain ⟨tree, synctime, autoflush, backlog⟩ := nw
  cases tree with
  | none => cases nodes
  | some tree =>
      have before : tree.root.seek nodesPath = some (.array entries) := nodes
      have apart : strSubnets ≠ strSyncTime := of_decide_eq_true rfl
      have stamped : (tree.root.set strSyncTime
          (.string (uint32ToStr (UInt32.ofNat clock.time)))).seek nodesPath =
            tree.root.seek nodesPath := by
        simp only [nodesPath, Value.seek, Value.child, Value.get_set_other apart]
      exact ⟨⟨others, subnets⟩, stamped.trans before⟩

/-- A change of one entry changes no other. -/
theorem Open.amend {nw : NwCfg} {entries : List Value} (isOpen : nw.Open entries)
    (index : Nat) (change : Value → Value) :
    (nw.amend (nodesPath ++ [.item index]) change).Open (entries.modify index change) := by
  obtain ⟨⟨others, subnets⟩, nodes⟩ := isOpen
  obtain ⟨tree, synctime, autoflush, backlog⟩ := nw
  cases tree with
  | none => cases nodes
  | some tree =>
      refine ⟨⟨others, subnets⟩, ?_⟩
      have before : tree.root.seek nodesPath = some (.array entries) := nodes
      have after := Value.seek_amend_prefix tree.root nodesPath [.item index] change
      rw [before, Option.map_some] at after
      refine after.trans ?_
      exact congrArg some (Value.amend_item entries index [] change)

end NwCfg

/-- Writing a field of a device changes the entry with its UUID, if there is one. -/
theorem writeNodes_open {nw after : NwCfg} {file saved : SavedFile} {entries : List Value}
    (isOpen : nw.Open entries) (uuids : UuidsDistinct entries) {input : WriteInput}
    {uuid : Uuid} {field : NodeField}
    (written : writeNodes input uuid field nw file = .ok (after, saved)) :
    after.Open (entries.map (editEntry uuid field)) := by
  have search := findEntry_edit uuids input.stack uuid field 0
  have searched : findNode input.stack uuid nw =
      .ok (findEntry input.stack uuid 0 entries) := by
    obtain ⟨others, subnets⟩ := isOpen.subnets
    unfold findNode
    rw [subnets, isOpen.firstNodes]
  simp only [writeNodes, setNodeField, modifyNodeField, searched] at written
  cases found : findEntry input.stack uuid 0 entries with
  | none =>
      rw [found] at search written
      simp only [ok_bind, Bool.and_false] at written
      cases written
      rw [search]
      exact isOpen
  | some place =>
      rw [found] at search written
      obtain ⟨offset, rfl, modified⟩ := search
      have changed := isOpen.amend (0 + offset) (·.set field.key (.string field.text))
      rw [Nat.zero_add, modified] at changed
      simp only [ok_bind, Bool.and_true] at written
      split at written
      · have result := congrArg Prod.fst (Except.ok.inj written)
        have flushed := changed.flush input.clock file
        rw [Nat.zero_add] at result
        rw [← show _ = after from result]
        exact flushed
      · cases written
        rw [Nat.zero_add]
        exact changed

/-!
## The functions that write both

The functions below change a record and write one field of its entry, in the order of the source.
That order matters where one of them fails: `upl_nodeset_addr` writes the file first, the others
the record.
-/

/-- The records, the open file, and the file on the disk. -/
structure NodesState where
  db : CfgDb
  nw : NwCfg
  file : SavedFile

namespace NodesState

/-- `json_cfg_write`, for a field of a node; without an open tree it is an error, which no
caller looks at. -/
def writeField (input : WriteInput) (uuid : Uuid) (field : NodeField)
    (state : NodesState) : Except Abort NodesState :=
  match state.nw.tree with
  | none => .ok state
  | some _ => do
      let (nw, file) ← writeNodes input uuid field state.nw state.file
      .ok { state with nw := nw, file := file }

/-- `upl_nodeset_addr`: the file before the record. -/
def uplNodesetAddr (input : WriteInput) (uuid : Uuid) (addr : UInt16)
    (state : NodesState) : Except Abort NodesState := do
  let state ← state.writeField input uuid (.addr addr)
  let db ← state.db.uplNodesetAddr uuid addr
  .ok { state with db := db }

/-- The other functions: the record, found by its address, before the file. -/
def onNode (input : WriteInput) (addr : UInt16) (change : CfgDb → Except Abort CfgDb)
    (field : Node → NodeField) (state : NodesState) : Except Abort NodesState :=
  match state.db.cfgdbNodeGet addr with
  | some record => do
      let db ← change state.db
      let node := db.heap record
      { state with db := db }.writeField input node.uuid (field node)
  | none => .error .recordMissing

/-- `nodes_rm`. -/
def nodesRm (input : WriteInput) (addr : UInt16) : NodesState → Except Abort NodesState :=
  onNode input addr (·.nodesRm addr) fun node => .addr node.addr

/-- `nodeset_errbits`. -/
def nodesetErrbits (input : WriteInput) (addr : UInt16) (err : BitVec 32) :
    NodesState → Except Abort NodesState :=
  onNode input addr (·.nodesetErrbits addr err) fun _ => .errbits (UInt32.ofBitVec err)

/-- `nodeset_done`. -/
def nodesetDone (input : WriteInput) (addr : UInt16) (done : UInt8) :
    NodesState → Except Abort NodesState :=
  onNode input addr (·.nodesetDone addr done) fun _ => .done done

/-- `nodeset_func`. -/
def nodesetFunc (input : WriteInput) (addr : UInt16) (func : BitVec 8) :
    NodesState → Except Abort NodesState :=
  onNode input addr (·.nodesetFunc addr func) fun _ => .func (UInt8.ofBitVec func)

/-- `nodes_bl`: the done flag is written before the address. -/
def nodesBl (input second : WriteInput) (addr : UInt16) (state : NodesState) :
    Except Abort NodesState :=
  match state.db.cfgdbNodeGet addr with
  | some record => do
      let db ← state.db.nodesBl addr
      let node := db.heap record
      let state ← { state with db := db }.writeField input node.uuid (.done node.done)
      state.writeField second node.uuid (.addr node.addr)
  | none => .error .recordMissing

end NodesState

/-- The functions that write a field of a node.  Each names the node by its address or by its
UUID, the way its callers know it. -/
inductive NodeWrite where
  | uplNodesetAddr (uuid : Uuid) (addr : UInt16)
  | nodesRm (addr : UInt16)
  | nodesBl (addr : UInt16)
  | nodesetErrbits (addr : UInt16) (err : BitVec 32)
  | nodesetDone (addr : UInt16) (done : UInt8)
  | nodesetFunc (addr : UInt16) (func : BitVec 8)

/-- A call of one of them, with what its writes find. -/
structure NodeCall where
  write : NodeWrite
  input : WriteInput
  second : WriteInput

namespace NodeCall

def run (state : NodesState) (call : NodeCall) : Except Abort NodesState :=
  match call.write with
  | .uplNodesetAddr uuid addr => state.uplNodesetAddr call.input uuid addr
  | .nodesRm addr => state.nodesRm call.input addr
  | .nodesBl addr => state.nodesBl call.input call.second addr
  | .nodesetErrbits addr err => state.nodesetErrbits call.input addr err
  | .nodesetDone addr done => state.nodesetDone call.input addr done
  | .nodesetFunc addr func => state.nodesetFunc call.input addr func

/-- The device a call is about. -/
def target (db : CfgDb) (call : NodeCall) : Option Uuid :=
  match call.write with
  | .uplNodesetAddr uuid _ => some uuid
  | .nodesRm addr | .nodesBl addr | .nodesetErrbits addr _ | .nodesetDone addr _
  | .nodesetFunc addr _ => (db.cfgdbNodeGet addr).map fun record => (db.heap record).uuid

end NodeCall

/-!
## What a call does

A call is described by the fields it writes, on the two sides alike: `NodeField.apply` on the
record, `editAll` on the entry.  That one such write keeps an entry and its record in step is all
that is needed of the texts the fields are written as.
-/

namespace NodeField

/-- The field of the record, written. -/
def apply : NodeField → Node → Node
  | .addr value, node => { node with addr := value }
  | .errbits value, node => { node with err := value.toBitVec }
  | .func value, node => { node with func := value.toBitVec }
  | .done value, node => { node with done := value }

@[simp] theorem apply_uuid (field : NodeField) (node : Node) :
    (field.apply node).uuid = node.uuid := by
  cases field <;> rfl

end NodeField

/-- Several writes to the entry with a UUID. -/
def editAll (uuid : Uuid) (fields : List NodeField) (entry : Value) : Value :=
  fields.foldl (fun entry field => editEntry uuid field entry) entry

/-- Several writes to a record. -/
def applyAll (fields : List NodeField) (node : Node) : Node :=
  fields.foldl (fun node field => field.apply node) node

theorem get_uuid_editAll (uuid : Uuid) (fields : List NodeField) (entry : Value) :
    (editAll uuid fields entry).get strUuid = entry.get strUuid := by
  induction fields generalizing entry with
  | nil => rfl
  | cons field rest hypothesis =>
      exact (hypothesis (editEntry uuid field entry)).trans (get_uuid_editEntry uuid field entry)

@[simp] theorem entryUuid_editAll (uuid : Uuid) (fields : List NodeField) (entry : Value) :
    entryUuid (editAll uuid fields entry) = entryUuid entry :=
  entryUuid_congr (get_uuid_editAll uuid fields entry)

@[simp] theorem applyAll_uuid (fields : List NodeField) (node : Node) :
    (applyAll fields node).uuid = node.uuid := by
  induction fields generalizing node with
  | nil => rfl
  | cons field rest hypothesis =>
      exact (hypothesis (field.apply node)).trans (field.apply_uuid node)

theorem editAll_of_ne {uuid : Uuid} {entry : Value} (other : entryUuid entry ≠ some uuid)
    (fields : List NodeField) : editAll uuid fields entry = entry := by
  induction fields with
  | nil => rfl
  | cons field rest hypothesis =>
      unfold editAll
      rw [List.foldl_cons, editEntry_of_ne other]
      exact hypothesis

theorem isObject_of_entryUuid {entry : Value} {uuid : Uuid}
    (here : entryUuid entry = some uuid) : entry.isObject = true := by
  unfold entryUuid memberUuid at here
  cases found : entry.get strUuid with
  | none =>
      rw [found] at here
      cases here
  | some value => exact Value.isObject_of_get found

/-- One write keeps an entry and its record in step. -/
theorem EntryAgrees.edit {entry : Value} {node : Node} (agrees : EntryAgrees entry node)
    {uuid : Uuid} (here : entryUuid entry = some uuid) (field : NodeField) :
    EntryAgrees (editEntry uuid field entry) (field.apply node) := by
  have object := isObject_of_entryUuid here
  obtain ⟨addr, err, done, func⟩ := agrees
  unfold editEntry
  rw [if_pos here]
  -- the written member is read back, and the other three are other members
  cases field with
  | addr value =>
      have written := memberUint_set_self UInt16.ofNat strAddr object
        (str2uint_uint16ToStr value)
      rw [UInt16.ofNat_toNat] at written
      exact ⟨written, (memberUint_set_other (of_decide_eq_true rfl) entry _).trans err,
        (memberUint_set_other (of_decide_eq_true rfl) entry _).trans done,
        (memberUint_set_other (of_decide_eq_true rfl) entry _).trans func⟩
  | errbits value =>
      have written := memberUint_set_self (BitVec.ofNat 32) strErrbits object
        (str2uint_uint32ToStr value)
      rw [← UInt32.toNat_toBitVec, BitVec.ofNat_toNat, BitVec.setWidth_eq] at written
      exact ⟨(memberUint_set_other (of_decide_eq_true rfl) entry _).trans addr, written,
        (memberUint_set_other (of_decide_eq_true rfl) entry _).trans done,
        (memberUint_set_other (of_decide_eq_true rfl) entry _).trans func⟩
  | func value =>
      have written := memberUint_set_self (BitVec.ofNat 8) strFunc object
        (str2uint_uint8ToStr value)
      rw [← UInt8.toNat_toBitVec, BitVec.ofNat_toNat, BitVec.setWidth_eq] at written
      exact ⟨(memberUint_set_other (of_decide_eq_true rfl) entry _).trans addr,
        (memberUint_set_other (of_decide_eq_true rfl) entry _).trans err,
        (memberUint_set_other (of_decide_eq_true rfl) entry _).trans done, written⟩
  | done value =>
      have written := memberUint_set_self UInt8.ofNat strDone object
        (str2uint_uint8ToStr value)
      rw [UInt8.ofNat_toNat] at written
      exact ⟨(memberUint_set_other (of_decide_eq_true rfl) entry _).trans addr,
        (memberUint_set_other (of_decide_eq_true rfl) entry _).trans err, written,
        (memberUint_set_other (of_decide_eq_true rfl) entry _).trans func⟩

theorem EntryAgrees.editAll {entry : Value} {node : Node} (agrees : EntryAgrees entry node)
    {uuid : Uuid} (here : entryUuid entry = some uuid) (fields : List NodeField) :
    EntryAgrees (editAll uuid fields entry) (applyAll fields node) := by
  induction fields generalizing entry node with
  | nil => exact agrees
  | cons field rest hypothesis =>
      have same : entryUuid (editEntry uuid field entry) = some uuid := by
        rw [entryUuid_editEntry, here]
      exact hypothesis (agrees.edit here field) same

/-! ## What a call does to the records -/

/-- The record is among the nodes or the unprovisioned devices. -/
def CfgDb.Known (db : CfgDb) (record : NodeId) : Prop :=
  ∃ spot, spot.tree ≠ .backlog ∧ db.get spot = some record

/-- Unprovisioned devices are stored under their UUIDs. -/
def UnprovOwn (db : CfgDb) : Prop :=
  ∀ uuid record, db.get (.unprovDevs uuid) = some record → (db.heap record).uuid = uuid

theorem known_of_nodes {db : CfgDb} {addr : UInt16} {record : NodeId}
    (found : db.get (.nodes addr) = some record) : db.Known record :=
  ⟨.nodes addr, (fun impossible => nomatch impossible), found⟩

theorem known_of_unprov {db : CfgDb} {uuid : Uuid} {record : NodeId}
    (found : db.get (.unprovDevs uuid) = some record) : db.Known record :=
  ⟨.unprovDevs uuid, (fun impossible => nomatch impossible), found⟩

theorem known_erase {db : CfgDb} {spot : Spot} {record : NodeId}
    (known : (db.erase spot).Known record) : db.Known record := by
  obtain ⟨place, notBacklog, found⟩ := known
  exact ⟨place, notBacklog, (CfgDb.get_of_get_erase found).2⟩

/-- An addition stores one record more, in one tree. -/
theorem get_cfgdbAdd {db : CfgDb} {record other : NodeId} {tree : TreeId} {spot : Spot}
    (found : (db.cfgdbAdd record tree).get spot = some other) :
    (other = record ∧ spot.tree = tree) ∨ db.get spot = some other := by
  have inTree : ((db.heap record).spotIn tree).tree = tree := by
    cases tree with
    | unprovDevs => rfl
    | nodes => rfl
    | backlog => rfl
  have stored : ∀ {base : CfgDb},
      (base.set ((db.heap record).spotIn tree) record).get spot = some other →
      (other = record ∧ spot.tree = tree) ∨ base.get spot = some other := by
    intro base found
    rw [CfgDb.get_set] at found
    split at found
    · rename_i here
      cases found
      rw [← here, inTree]
      exact .inl ⟨rfl, rfl⟩
    · exact .inr found
  rcases db.cfgdbAdd_cases record tree with same | ⟨place, same⟩ | same
  · rw [same] at found
    exact .inr found
  · rw [same] at found
    rcases stored found with new | older
    · exact .inl new
    · exact .inr (CfgDb.get_of_get_erase older).2
  · rw [same] at found
    exact stored found

theorem known_cfgdbAdd {db : CfgDb} {record other : NodeId} {tree : TreeId}
    (known : (db.cfgdbAdd record tree).Known other) : db.Known other ∨ other = record := by
  obtain ⟨spot, notBacklog, found⟩ := known
  rcases get_cfgdbAdd found with ⟨isRecord, _⟩ | held
  · exact .inr isRecord
  · exact .inl ⟨spot, notBacklog, held⟩

theorem UnprovOwn.erase {db : CfgDb} (own : UnprovOwn db) (spot : Spot) :
    UnprovOwn (db.erase spot) := by
  intro uuid record found
  rw [CfgDb.heap_erase]
  exact own uuid record (CfgDb.get_of_get_erase found).2

theorem UnprovOwn.set {db : CfgDb} (own : UnprovOwn db) {spot : Spot} {record : NodeId}
    (here : ∀ uuid, spot = .unprovDevs uuid → (db.heap record).uuid = uuid) :
    UnprovOwn (db.set spot record) := by
  intro uuid other found
  rw [CfgDb.get_set] at found
  rw [CfgDb.heap_set]
  split at found
  · rename_i same
    cases found
    exact here uuid same
  · exact own uuid other found

theorem UnprovOwn.cfgdbAdd {db : CfgDb} (own : UnprovOwn db) {record : NodeId}
    {tree : TreeId} (noAddress : tree = .unprovDevs → (db.heap record).addr = 0) :
    UnprovOwn (db.cfgdbAdd record tree) := by
  have here : ∀ uuid, (db.heap record).spotIn tree = .unprovDevs uuid →
      (db.heap record).uuid = uuid := by
    intro uuid same
    cases tree with
    | unprovDevs =>
        rw [(spotIn_owned_of_no_addr _ (noAddress rfl)).1] at same
        exact Spot.unprovDevs.inj same
    | nodes => cases same
    | backlog => cases same
  rcases db.cfgdbAdd_cases record tree with same | ⟨spot, same⟩ | same
  · rw [same]
    exact own
  · rw [same]
    apply (own.erase spot).set
    rwa [CfgDb.heap_erase]
  · rw [same]
    exact own.set here

theorem UnprovOwn.update {db : CfgDb} (own : UnprovOwn db) {record : NodeId}
    {change : Node → Node} (same : (change (db.heap record)).uuid = (db.heap record).uuid) :
    UnprovOwn (db.update record change) := by
  intro uuid other found
  rw [CfgDb.get_update] at found
  by_cases isRecord : other = record
  · subst isRecord
    rw [CfgDb.heap_update_self, same]
    exact own uuid _ found
  · rw [CfgDb.heap_update_of_ne db change isRecord]
    exact own uuid other found

/-- The fields of a record are written, and no record becomes known.  All but the written fields
are as before, also those of every other record. -/
structure Rewrites (before after : CfgDb) (record : NodeId) (fields : List NodeField) :
    Prop where
  heap : after.heap = Function.update before.heap record (applyAll fields (before.heap record))
  known : ∀ other, after.Known other → before.Known other
  own : UnprovOwn after

/-- A record that is taken from a place, written and added. -/
theorem Rewrites.of_move {db : CfgDb} (own : UnprovOwn db) {record : NodeId}
    (known : db.Known record) (spot : Spot) (fields : List NodeField) {tree : TreeId}
    (noAddress : tree = .unprovDevs → (applyAll fields (db.heap record)).addr = 0) :
    Rewrites db (((db.erase spot).update record (applyAll fields)).cfgdbAdd record tree)
      record fields where
  heap := by
    rw [CfgDb.heap_cfgdbAdd, CfgDb.update, CfgDb.heap_erase]
  known := by
    intro other present
    rcases known_cfgdbAdd present with before | isRecord
    · obtain ⟨place, notBacklog, found⟩ := before
      rw [CfgDb.get_update] at found
      exact known_erase ⟨place, notBacklog, found⟩
    · rw [isRecord]
      exact known
  own := by
    apply UnprovOwn.cfgdbAdd
    · apply (own.erase spot).update
      rw [CfgDb.heap_erase, applyAll_uuid]
    · intro unprov
      rw [CfgDb.heap_update_self, CfgDb.heap_erase]
      exact noAddress unprov

/-- A record that is written where it is. -/
theorem Rewrites.of_update {db : CfgDb} (own : UnprovOwn db) (record : NodeId)
    (fields : List NodeField) :
    Rewrites db (db.update record (applyAll fields)) record fields where
  heap := rfl
  known := by
    rintro other ⟨place, notBacklog, found⟩
    rw [CfgDb.get_update] at found
    exact ⟨place, notBacklog, found⟩
  own := own.update (applyAll_uuid fields _)

/-!
## Agreement

`Matched` is about the whole file and the whole database: each entry has at most one record, each
known record at most one entry, and where both exist they hold the same values.
-/

/-- What the entries and the records have to do with each other.  Entries without a record and
records without an entry are both allowed; the relation is about the devices that have both. -/
structure Matched (db : CfgDb) (entries : List Value) : Prop where
  uuids : UuidsDistinct entries
  own : UnprovOwn db
  one_record : ∀ first second, db.Known first → db.Known second →
    (db.heap second).uuid = (db.heap first).uuid →
    (∃ entry ∈ entries, entryUuid entry = some (db.heap first).uuid) → second = first
  agrees : ∀ record, db.Known record → ∀ entry ∈ entries,
    entryUuid entry = some (db.heap record).uuid → EntryAgrees entry (db.heap record)

theorem Rewrites.uuid {before after : CfgDb} {record : NodeId} {fields : List NodeField}
    (rewrites : Rewrites before after record fields) (other : NodeId) :
    (after.heap other).uuid = (before.heap other).uuid := by
  rw [rewrites.heap]
  by_cases same : other = record
  · rw [same, Function.update_self, applyAll_uuid]
  · rw [Function.update_of_ne same]

/-- Writing the same fields on both sides keeps them in step. -/
theorem Matched.write {db after : CfgDb} {entries : List Value}
    (matched : Matched db entries) {record : NodeId} (known : db.Known record)
    {fields : List NodeField} (rewrites : Rewrites db after record fields) :
    Matched after (entries.map (editAll (db.heap record).uuid fields)) := by
  obtain ⟨uuids, own, one_record, agrees⟩ := matched
  have entryOf : ∀ {uuid}, (∃ entry ∈ entries.map (editAll (db.heap record).uuid fields),
      entryUuid entry = some uuid) → ∃ entry ∈ entries, entryUuid entry = some uuid := by
    rintro uuid ⟨edited, member, here⟩
    obtain ⟨entry, inside, rfl⟩ := List.mem_map.mp member
    rw [entryUuid_editAll] at here
    exact ⟨entry, inside, here⟩
  constructor
  · exact uuids.map (get_uuid_editAll _ fields)
  · exact rewrites.own
  · intro first second one two same present
    rw [rewrites.uuid, rewrites.uuid] at same
    rw [rewrites.uuid] at present
    exact one_record first second (rewrites.known _ one) (rewrites.known _ two) same
      (entryOf present)
  · intro other present edited member here
    have before := rewrites.known other present
    obtain ⟨entry, inside, rfl⟩ := List.mem_map.mp member
    rw [entryUuid_editAll, rewrites.uuid] at here
    by_cases same : other = record
    · subst same
      rw [rewrites.heap, Function.update_self]
      exact (agrees other before entry inside here).editAll here fields
    · have apart : entryUuid entry ≠ some (db.heap record).uuid := by
        intro both
        have equal : (db.heap other).uuid = (db.heap record).uuid :=
          Option.some.inj (here.symm.trans both)
        exact same (one_record record other known before equal ⟨entry, inside, both⟩)
      rw [editAll_of_ne apart, rewrites.heap, Function.update_of_ne same]
      exact agrees other before entry inside here

/-! ## One call -/

theorem writeField_ok {state after : NodesState} {entries : List Value}
    (isOpen : state.nw.Open entries) (uuids : UuidsDistinct entries) {input : WriteInput}
    {uuid : Uuid} {field : NodeField} (written : state.writeField input uuid field = .ok after) :
    after.db = state.db ∧ after.nw.Open (entries.map (editAll uuid [field])) := by
  unfold NodesState.writeField at written
  cases held : state.nw.tree with
  | none =>
      have nodes := isOpen.nodes
      rw [NwCfg.root, held] at nodes
      cases nodes
  | some tree =>
      simp only [held, bind_ok] at written
      obtain ⟨⟨nw, file⟩, writes, result⟩ := written
      cases result
      exact ⟨rfl, writeNodes_open isOpen uuids writes⟩

/-- What a call does: it writes the same fields of one known record, and of the entry with
its UUID. -/
structure CallWrites (before after : NodesState) (entries : List Value) (call : NodeCall)
    (record : NodeId) (fields : List NodeField) : Prop where
  known : before.db.Known record
  target : call.target before.db = some (before.db.heap record).uuid
  rewrites : Rewrites before.db after.db record fields
  isOpen : after.nw.Open (entries.map (editAll (before.db.heap record).uuid fields))

theorem onNode_ok {state after : NodesState} {entries : List Value}
    (isOpen : state.nw.Open entries) (uuids : UuidsDistinct entries) {input : WriteInput}
    {addr : UInt16} {change : CfgDb → Except Abort CfgDb} {field : Node → NodeField}
    (changes : ∀ {record db}, state.db.cfgdbNodeGet addr = some record →
      change state.db = .ok db → Rewrites state.db db record [field (db.heap record)])
    (done : NodesState.onNode input addr change field state = .ok after) :
    ∃ record written, state.db.cfgdbNodeGet addr = some record ∧
      Rewrites state.db after.db record [written] ∧
      after.nw.Open (entries.map (editAll (state.db.heap record).uuid [written])) := by
  unfold NodesState.onNode at done
  cases found : state.db.cfgdbNodeGet addr with
  | none =>
      rw [found] at done
      cases done
  | some record =>
      simp only [found, bind_ok] at done
      obtain ⟨db, changed, written⟩ := done
      have rewrites := changes found changed
      have changedOpen : ({ state with db := db } : NodesState).nw.Open entries := isOpen
      obtain ⟨same, stillOpen⟩ := writeField_ok changedOpen uuids written
      have same : after.db = db := same
      rw [rewrites.uuid record] at stillOpen
      refine ⟨record, field (db.heap record), rfl, ?_, stillOpen⟩
      rw [same]
      exact rewrites

theorem nodeset_rewrites {db after : CfgDb} (own : UnprovOwn db) {addr : UInt16}
    {record : NodeId} (found : db.cfgdbNodeGet addr = some record) {field : NodeField}
    (changed : db.nodeset addr field.apply = .ok after) : Rewrites db after record [field] := by
  unfold CfgDb.nodeset at changed
  rw [found] at changed
  cases changed
  exact Rewrites.of_update own record [field]

theorem nodesRm_rewrites {db after : CfgDb} (own : UnprovOwn db) {addr : UInt16}
    {record : NodeId} (found : db.cfgdbNodeGet addr = some record)
    (changed : db.nodesRm addr = .ok after) : Rewrites db after record [.addr 0] := by
  unfold CfgDb.nodesRm at changed
  rw [found] at changed
  cases changed
  exact Rewrites.of_move own (known_of_nodes found) _ [.addr 0] fun _ => rfl

theorem nodesBl_rewrites {db after : CfgDb} (own : UnprovOwn db) {addr : UInt16}
    {record : NodeId} (found : db.cfgdbNodeGet addr = some record)
    (changed : db.nodesBl addr = .ok after) :
    Rewrites db after record [.done 0, .addr 0] := by
  unfold CfgDb.nodesBl at changed
  rw [found] at changed
  cases changed
  exact Rewrites.of_move own (known_of_nodes found) _ [.done 0, .addr 0] fun _ => rfl

theorem uplNodesetAddr_rewrites {db after : CfgDb} (own : UnprovOwn db) {uuid : Uuid}
    {addr : UInt16} (changed : db.uplNodesetAddr uuid addr = .ok after) :
    ∃ record, db.Known record ∧ (db.heap record).uuid = uuid ∧
      Rewrites db after record [.addr addr] := by
  unfold CfgDb.uplNodesetAddr at changed
  cases found : db.cfgdbUnprovDevGet uuid with
  | none =>
      rw [found] at changed
      cases changed
  | some record =>
      rw [found] at changed
      cases changed
      have known : db.Known record := known_of_unprov found
      refine ⟨record, known, own uuid record found, ?_⟩
      exact Rewrites.of_move own known _ [.addr addr] fun impossible => nomatch impossible

theorem target_of_found {db : CfgDb} {addr : UInt16} {record : NodeId} {call : NodeCall}
    (found : db.cfgdbNodeGet addr = some record)
    (byAddress : call.target db =
      (db.cfgdbNodeGet addr).map fun record => (db.heap record).uuid) :
    call.target db = some (db.heap record).uuid := by
  rw [byAddress, found]
  rfl

/-- Every call writes on both sides alike. -/
theorem NodeCall.run_ok {state after : NodesState} {entries : List Value}
    (isOpen : state.nw.Open entries) (uuids : UuidsDistinct entries)
    (own : UnprovOwn state.db) {call : NodeCall} (done : call.run state = .ok after) :
    ∃ record fields, CallWrites state after entries call record fields := by
  obtain ⟨write, input, second⟩ := call
  cases write with
  | uplNodesetAddr uuid addr =>
      simp only [NodeCall.run, NodesState.uplNodesetAddr, bind_ok] at done
      obtain ⟨middle, written, db, changed, result⟩ := done
      cases result
      obtain ⟨same, stillOpen⟩ := writeField_ok isOpen uuids written
      rw [same] at changed
      obtain ⟨record, known, isUuid, rewrites⟩ := uplNodesetAddr_rewrites own changed
      rw [← isUuid] at stillOpen
      exact ⟨record, _, known, congrArg some isUuid.symm, rewrites, stillOpen⟩
  | nodesRm addr =>
      have whole : state.nodesRm input addr = .ok after := done
      have changes : ∀ {record db}, state.db.cfgdbNodeGet addr = some record →
          state.db.nodesRm addr = .ok db →
          Rewrites state.db db record [.addr (db.heap record).addr] := by
        intro record db found changed
        have rewrites := nodesRm_rewrites own found changed
        have cleared : (db.heap record).addr = 0 := by
          rw [rewrites.heap, Function.update_self]
          rfl
        rwa [cleared]
      obtain ⟨record, written, found, rewrites, stillOpen⟩ :=
        onNode_ok isOpen uuids changes whole
      exact ⟨record, _, known_of_nodes found, target_of_found found rfl, rewrites, stillOpen⟩
  | nodesBl addr =>
      simp only [NodeCall.run, NodesState.nodesBl] at done
      cases found : state.db.cfgdbNodeGet addr with
      | none =>
          rw [found] at done
          cases done
      | some record =>
          simp only [found, bind_ok] at done
          obtain ⟨db, changed, middle, first, last⟩ := done
          have rewrites := nodesBl_rewrites own found changed
          have cleared : (db.heap record).done = 0 ∧ (db.heap record).addr = 0 := by
            rw [rewrites.heap, Function.update_self]
            exact ⟨rfl, rfl⟩
          rw [cleared.1, rewrites.uuid record] at first
          rw [cleared.2, rewrites.uuid record] at last
          have changedOpen : ({ state with db := db } : NodesState).nw.Open entries := isOpen
          obtain ⟨same, middleOpen⟩ := writeField_ok changedOpen uuids first
          obtain ⟨sameAgain, stillOpen⟩ := writeField_ok middleOpen
            (uuids.map (get_uuid_editAll _ _)) last
          have isDb : after.db = db := sameAgain.trans same
          rw [List.map_map] at stillOpen
          refine ⟨record, [.done 0, .addr 0], known_of_nodes found, target_of_found found rfl,
            ?_, stillOpen⟩
          rw [isDb]
          exact rewrites
  | nodesetErrbits addr err =>
      have whole : state.nodesetErrbits input addr err = .ok after := done
      obtain ⟨record, written, found, rewrites, stillOpen⟩ :=
        onNode_ok isOpen uuids (fun found changed => nodeset_rewrites own found changed) whole
      exact ⟨record, _, known_of_nodes found, target_of_found found rfl, rewrites, stillOpen⟩
  | nodesetDone addr value =>
      have whole : state.nodesetDone input addr value = .ok after := done
      obtain ⟨record, written, found, rewrites, stillOpen⟩ :=
        onNode_ok isOpen uuids (fun found changed => nodeset_rewrites own found changed) whole
      exact ⟨record, _, known_of_nodes found, target_of_found found rfl, rewrites, stillOpen⟩
  | nodesetFunc addr func =>
      have whole : state.nodesetFunc input addr func = .ok after := done
      obtain ⟨record, written, found, rewrites, stillOpen⟩ :=
        onNode_ok isOpen uuids (fun found changed => nodeset_rewrites own found changed) whole
      exact ⟨record, _, known_of_nodes found, target_of_found found rfl, rewrites, stillOpen⟩

/-!
## Runs of calls

The invariant of a run compares entries and records by value.  It says in addition that the
entries of devices that no call was about have not moved, which is what a caller sees of the
file.
-/

/-- Every record of the nodes and the unprovisioned devices that has an entry holds the
values that parsing the entry yields. -/
def Agree (state : NodesState) : Prop :=
  ∀ record, state.db.Known record → ∀ entry ∈ state.nw.entries,
    entryUuid entry = some (state.db.heap record).uuid →
    EntryAgrees entry (state.db.heap record)

/-- The entries of other devices are unchanged, each at its place.  Which device a call is about
is told by the record that its address leads to, before the call. -/
def OthersKept (move : Move NodesState NodeCall) : Prop :=
  ∀ (index : Nat) (entry : Value), move.source.nw.entries[index]? = some entry →
    entryUuid entry ≠ move.label.target move.source.db →
    move.target.nw.entries[index]? = some entry

/-- The file is open, and matches the records. -/
def InStep (state : NodesState) : Prop :=
  ∃ entries, state.nw.Open entries ∧ Matched state.db entries

theorem InStep.agree {state : NodesState} (inStep : InStep state) : Agree state := by
  obtain ⟨entries, isOpen, matched⟩ := inStep
  intro record known entry member here
  rw [isOpen.entries_eq] at member
  exact matched.agrees record known entry member here

theorem InStep.call {state after : NodesState} (inStep : InStep state) {call : NodeCall}
    (done : call.run state = .ok after) : InStep after := by
  obtain ⟨entries, isOpen, matched⟩ := inStep
  obtain ⟨record, fields, writes⟩ := NodeCall.run_ok isOpen matched.uuids matched.own done
  exact ⟨_, writes.isOpen, matched.write writes.known writes.rewrites⟩

theorem InStep.othersKept {state after : NodesState} (inStep : InStep state)
    {call : NodeCall} (done : call.run state = .ok after) :
    OthersKept { source := state, label := call, target := after } := by
  obtain ⟨entries, isOpen, matched⟩ := inStep
  obtain ⟨record, fields, writes⟩ := NodeCall.run_ok isOpen matched.uuids matched.own done
  intro index entry here other
  have apart : entryUuid entry ≠ some (state.db.heap record).uuid := by
    rw [← writes.target]
    exact other
  have before : entries[index]? = some entry := by
    rw [← isOpen.entries_eq]
    exact here
  change after.nw.entries[index]? = some entry
  rw [writes.isOpen.entries_eq, List.getElem?_map, before, Option.map_some,
    editAll_of_ne apart]

end Nwmng
