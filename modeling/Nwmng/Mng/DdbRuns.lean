/-
Module: Nwmng.Mng.DdbRuns
Purpose: Every device that has an address on the host is in the database of the NCP, over
every run in which nothing is deleted there while a report about it is on its way.
Trusted boundary: none
Main exports:
  DdbInvariant, DdbOp.Undisturbed, DdbState.Covered, ddb_covered_guarded
-/
import Nwmng.Mng.Ddb
import Nwmng.Mng.Phases

namespace Nwmng

open Json Fallible Transition

/-!
## What has to hold

An address on the host is worth nothing when the NCP does not have the device.  The other way
round nothing is promised: the NCP may know devices that the host has forgotten.
-/

/-- Every record and every entry with an address has its device in the database of the NCP,
and no traversal was stopped. -/
structure DdbState.Covered (state : DdbState) : Prop where
  memory : ∀ spot record, state.nodes.db.get spot = some record →
    (state.nodes.db.heap record).addr ≠ 0 →
      state.ddb.has (state.nodes.db.heap record).uuid = true
  file : ∀ entry ∈ state.nodes.file.entries ++ state.nodes.file.backlog, ∀ uuid addr,
    entryUuid entry = some uuid → EntryAddr entry addr → addr ≠ 0 → state.ddb.has uuid = true
  inSync : state.outOfSync = false

/-- The file of a program that has not started yet, beside the database of the NCP: it is
well formed, no device of the backlog has an address, and the devices with an address are
in the database, under that address. -/
structure DdbState.Started (state : DdbState) : Prop where
  db : state.nodes.db = .cfgdbInit
  closed : state.nodes.nw.tree = none
  distinct : state.nodes.file.DistinctKeys
  uuids : UuidsDistinct state.nodes.file.entries
  backlog : ∀ item ∈ state.nodes.file.backlog, ∀ addr, EntryAddr item addr → addr = 0
  addrs : ∀ first second addr, (first, addr) ∈ state.ddb → (second, addr) ∈ state.ddb →
    first = second
  inStep : ∀ entry ∈ state.nodes.file.entries, ∀ uuid addr, entryUuid entry = some uuid →
    EntryAddr entry addr → addr ≠ 0 → (uuid, addr) ∈ state.ddb
  reports : state.reports = []
  inSync : state.outOfSync = false

/-- `mng_load_lists` returns at once. -/
def DdbState.Early (state : DdbState) : Prop :=
  state.host.mng.state = .nil ∨ state.host.mng.state = .initialized

instance (state : DdbState) : Decidable state.Early := inferInstanceAs (Decidable (_ ∨ _))

/-- Nothing is deleted from the database of the NCP while a report of success about it is on
its way: when the lists are loaded or everything is erased, there is no such report; when a
failure for reason 7 is handled, there is none about its device; and the record of a node
that was removed is still held. -/
def DdbOp.Undisturbed (source : DdbState) : DdbOp → Prop
  | .report _ _ =>
      match source.reports with
      | .failed uuid reason :: rest =>
          reason = 7 → source.Listening → ∀ report ∈ rest, report.succeeds = true →
            report.uuid ≠ uuid
      | _ => True
  | .removed _ _ record =>
      source.nodes.db.cfgdbNodeGet (source.nodes.db.heap record).addr = some record
  | .rmall _ _ _ _ =>
      source.host.mng.state.busy = false → source.Early ∨
        ∀ report ∈ source.reports, report.succeeds = false
  | .loadLists _ | .load _ _ _ _ | .rmblclr _ _ _ _ =>
      source.Early ∨ ∀ report ∈ source.reports, report.succeeds = false
  | .clrAll _ _ _ erased =>
      erased = true → ∀ report ∈ source.reports, report.succeeds = false
  | _ => True

/-- The guard of a report, for a decision. -/
def undisturbedReport (source : DdbState) : List ProvReport → Bool
  | .failed uuid reason :: rest =>
      decide (reason = 7 → source.Listening → ∀ report ∈ rest, report.succeeds = true →
        report.uuid ≠ uuid)
  | _ => true

theorem undisturbedReport_iff (source : DdbState) (input : WriteInput) (fails : Uuid → Bool) :
    undisturbedReport source source.reports = true ↔
      (DdbOp.report input fails).Undisturbed source := by
  unfold DdbOp.Undisturbed
  cases source.reports with
  | nil => exact ⟨fun _ => trivial, fun _ => rfl⟩
  | cons next rest =>
      cases next with
      | provisioned uuid addr => exact ⟨fun _ => trivial, fun _ => rfl⟩
      | failed uuid reason => exact decide_eq_true_iff

instance (source : DdbState) : (op : DdbOp) → Decidable (op.Undisturbed source)
  | .report input fails => decidable_of_iff _ (undisturbedReport_iff source input fails)
  | .removed _ _ record =>
      inferInstanceAs (Decidable
        (source.nodes.db.cfgdbNodeGet (source.nodes.db.heap record).addr = some record))
  | .rmall _ _ _ _ =>
      inferInstanceAs (Decidable (source.host.mng.state.busy = false → source.Early ∨
        ∀ report ∈ source.reports, report.succeeds = false))
  | .loadLists _ | .load _ _ _ _ | .rmblclr _ _ _ _ =>
      inferInstanceAs (Decidable
        (source.Early ∨ ∀ report ∈ source.reports, report.succeeds = false))
  | .clrAll _ _ _ erased =>
      inferInstanceAs (Decidable
        (erased = true → ∀ report ∈ source.reports, report.succeeds = false))
  | .provisioned _ _ | .failed _ _ _ | .write _ | .beacon _ _ | .sync _ | .setMngState _
  | .manage _ => isTrue trivial

/-!
## The invariant

The records and the entries have the addresses of the database, and a device for which a report
of success is on its way is still there.  The second half is what a deletion in between breaks.
-/

/-- A device with a UUID is listed with an address. -/
def Addressed (entries : List Value) (uuid : Uuid) : Prop :=
  ∃ entry ∈ entries, ∃ addr, entryUuid entry = some uuid ∧ EntryAddr entry addr ∧ addr ≠ 0

/-- The records, the file, the database of the NCP and the reports on their way.  The entries
with an address are in the database of the NCP.  A device in that database without such an entry
is one whose report is still on its way, which is the case that a deletion must not hit. -/
structure DdbInvariant (nodes : NodesState) (ddb : Ddb) (reports : List ProvReport) :
    Prop where
  registered : Registered nodes.db nodes.file.entries
  file : (nodes.nw.tree = none ∧ ∀ record, ¬ nodes.db.Known record) ∨
    FileOpen nodes nodes.file.entries nodes.file.backlog
  distinct : nodes.file.DistinctKeys
  backlog : ∀ item ∈ nodes.file.backlog, ∀ addr, EntryAddr item addr → addr = 0
  addrs : ∀ first second addr, (first, addr) ∈ ddb → (second, addr) ∈ ddb → first = second
  inStep : ∀ entry ∈ nodes.file.entries, ∀ uuid addr, entryUuid entry = some uuid →
    EntryAddr entry addr → addr ≠ 0 → (uuid, addr) ∈ ddb
  waiting : ∀ uuid addr, .provisioned uuid addr ∈ reports → (uuid, addr) ∈ ddb ∧ addr ≠ 0
  unaddressed : ∀ report ∈ reports, ¬ Addressed nodes.file.entries report.uuid
  last : reports.Pairwise fun first second => first.succeeds = true → first.uuid ≠ second.uuid

namespace DdbInvariant

variable {nodes after : NodesState} {ddb : Ddb} {reports : List ProvReport}

/-- The address of a record is the one of its device in the database of the NCP. -/
theorem record_inStep (invariant : DdbInvariant nodes ddb reports) {record : NodeId}
    (known : nodes.db.Known record) (addressed : (nodes.db.heap record).addr ≠ 0) :
    ((nodes.db.heap record).uuid, (nodes.db.heap record).addr) ∈ ddb := by
  obtain ⟨entry, inside, isUuid, isAddr⟩ := invariant.registered.listed record known
  exact invariant.inStep entry inside _ _ isUuid isAddr addressed

/-- The file is open wherever a record is known. -/
theorem isOpen (invariant : DdbInvariant nodes ddb reports) {record : NodeId}
    (known : nodes.db.Known record) :
    FileOpen nodes nodes.file.entries nodes.file.backlog := by
  rcases invariant.file with ⟨_, unknown⟩ | isOpen
  · exact absurd known (unknown record)
  · exact isOpen

theorem covered (invariant : DdbInvariant nodes ddb reports) {state : DdbState}
    (isNodes : state.nodes = nodes) (isDdb : state.ddb = ddb)
    (inSync : state.outOfSync = false) : state.Covered := by
  subst isNodes
  subst isDdb
  refine ⟨?_, ?_, inSync⟩
  · intro spot record found addressed
    have known : state.nodes.db.Known record := by
      refine ⟨spot, ?_, found⟩
      intro isBacklog
      cases spot with
      | backlog uuid => exact addressed (invariant.registered.backlog uuid record found)
      | unprovDevs uuid => cases isBacklog
      | nodes addr => cases isBacklog
    exact Ddb.has_of_mem (invariant.record_inStep known addressed)
  · intro entry member uuid addr isUuid isAddr addressed
    rcases List.mem_append.mp member with inside | inside
    · exact Ddb.has_of_mem (invariant.inStep entry inside uuid addr isUuid isAddr addressed)
    · exact absurd (invariant.backlog entry inside addr isAddr) addressed

/-! ### Changes of the file -/

/-- The entries change beside their UUIDs and addresses. -/
theorem kept (invariant : DdbInvariant nodes ddb reports) {edited : List Value}
    {edit : Value → Value} (isEdited : edited = nodes.file.entries.map edit)
    (beside : ∀ entry, (edit entry).get strUuid = entry.get strUuid)
    (keeps : ∀ entry addr, EntryAddr (edit entry) addr ↔ EntryAddr entry addr)
    (isOpen : FileOpen after edited nodes.file.backlog)
    (registered : Registered after.db edited) : DdbInvariant after ddb reports := by
  have sameEntries := isOpen.entries_eq
  have sameBacklog := isOpen.backlog_eq
  have before : ∀ entry ∈ after.file.entries, ∃ old ∈ nodes.file.entries,
      entryUuid old = entryUuid entry ∧ ∀ addr, EntryAddr entry addr → EntryAddr old addr := by
    intro entry member
    rw [sameEntries, isEdited] at member
    obtain ⟨old, inside, rfl⟩ := List.mem_map.mp member
    exact ⟨old, inside, (entryUuid_congr (beside old)).symm, fun addr => (keeps old addr).mp⟩
  constructor
  · rw [sameEntries]
    exact registered
  · rw [sameEntries, sameBacklog]
    exact .inr isOpen
  · exact isOpen.distinct
  · rw [sameBacklog]
    exact invariant.backlog
  · exact invariant.addrs
  · intro entry member uuid addr isUuid isAddr addressed
    obtain ⟨old, inside, same, reads⟩ := before entry member
    exact invariant.inStep old inside uuid addr (same.trans isUuid) (reads addr isAddr) addressed
  · exact invariant.waiting
  · rintro report member ⟨entry, inside, addr, isUuid, isAddr, addressed⟩
    obtain ⟨old, oldInside, same, reads⟩ := before entry inside
    exact invariant.unaddressed report member
      ⟨old, oldInside, addr, same.trans isUuid, reads addr isAddr, addressed⟩
  · exact invariant.last

/-- A device gets an address, or loses it. -/
theorem moved (invariant : DdbInvariant nodes ddb reports) {uuid : Uuid} {addr : UInt16}
    {edited : List Value} (entriesMoved : EntriesMoved nodes.file.entries edited uuid addr)
    (isOpen : FileOpen after edited nodes.file.backlog)
    (registered : Registered after.db edited)
    (held : addr ≠ 0 → (uuid, addr) ∈ ddb ∧ ∀ report ∈ reports, report.uuid ≠ uuid) :
    DdbInvariant after ddb reports := by
  have sameEntries := isOpen.entries_eq
  have sameBacklog := isOpen.backlog_eq
  obtain ⟨edit, isEdited, beside, own, others⟩ := entriesMoved
  -- an address that is read after the move was read before it, or is the new one
  have before : ∀ entry ∈ after.file.entries, ∀ device place, entryUuid entry = some device →
      EntryAddr entry place →
      (device = uuid ∧ place = addr) ∨ ∃ old ∈ nodes.file.entries,
        entryUuid old = some device ∧ EntryAddr old place := by
    intro entry member device place isUuid isAddr
    rw [sameEntries, isEdited] at member
    obtain ⟨old, inside, rfl⟩ := List.mem_map.mp member
    rw [entryUuid_congr (beside old)] at isUuid
    by_cases here : entryUuid old = some uuid
    · left
      rw [isUuid] at here
      refine ⟨Option.some.inj here, ?_⟩
      rw [← Option.some.inj here] at own
      exact isAddr.unique (own old inside isUuid)
    · right
      exact ⟨old, inside, isUuid, (others old inside here place).mp isAddr⟩
  constructor
  · rw [sameEntries]
    exact registered
  · rw [sameEntries, sameBacklog]
    exact .inr isOpen
  · exact isOpen.distinct
  · rw [sameBacklog]
    exact invariant.backlog
  · exact invariant.addrs
  · intro entry member device place isUuid isAddr addressed
    rcases before entry member device place isUuid isAddr with ⟨rfl, rfl⟩ |
      ⟨old, inside, oldUuid, oldAddr⟩
    · exact (held addressed).1
    · exact invariant.inStep old inside device place oldUuid oldAddr addressed
  · exact invariant.waiting
  · rintro report member ⟨entry, inside, place, isUuid, isAddr, addressed⟩
    rcases before entry inside report.uuid place isUuid isAddr with ⟨same, rfl⟩ |
      ⟨old, oldInside, oldUuid, oldAddr⟩
    · exact (held addressed).2 report member same
    · exact invariant.unaddressed report member
        ⟨old, oldInside, place, oldUuid, oldAddr, addressed⟩
  · exact invariant.last

/-! ### Changes of the database of the NCP, and of the reports -/

/-- A device without an address is deleted, and no report of success about it is on its
way. -/
theorem delete (invariant : DdbInvariant nodes ddb reports) (fails : Uuid → Bool) {uuid : Uuid}
    (unaddressed : ¬ Addressed nodes.file.entries uuid)
    (notWaiting : ∀ report ∈ reports, report.succeeds = true → report.uuid ≠ uuid) :
    DdbInvariant nodes (ddb.delete fails uuid) reports where
  registered := invariant.registered
  file := invariant.file
  distinct := invariant.distinct
  backlog := invariant.backlog
  addrs := by
    intro first second addr one two
    exact invariant.addrs first second addr (Ddb.mem_of_mem_delete one)
      (Ddb.mem_of_mem_delete two)
  inStep := by
    intro entry member device addr isUuid isAddr addressed
    apply Ddb.mem_delete
    · intro same
      subst same
      exact unaddressed ⟨entry, member, addr, isUuid, isAddr, addressed⟩
    · exact invariant.inStep entry member device addr isUuid isAddr addressed
  waiting := by
    intro device addr member
    obtain ⟨inside, nonzero⟩ := invariant.waiting device addr member
    exact ⟨Ddb.mem_delete (notWaiting _ member rfl) inside, nonzero⟩
  unaddressed := invariant.unaddressed
  last := invariant.last

/-- The first report is taken. -/
theorem pop {next : ProvReport} (invariant : DdbInvariant nodes ddb (next :: reports)) :
    DdbInvariant nodes ddb reports where
  registered := invariant.registered
  file := invariant.file
  distinct := invariant.distinct
  backlog := invariant.backlog
  addrs := invariant.addrs
  inStep := invariant.inStep
  waiting := fun uuid addr member =>
    invariant.waiting uuid addr (List.mem_cons_of_mem _ member)
  unaddressed := fun report member =>
    invariant.unaddressed report (List.mem_cons_of_mem _ member)
  last := (List.pairwise_cons.mp invariant.last).2

/-- A report comes in about a device that has no address, and that no report of success on
its way is about. -/
theorem push (invariant : DdbInvariant nodes ddb reports) {more : Ddb} {next : ProvReport}
    (addrs : ∀ first second addr, (first, addr) ∈ ddb ++ more →
      (second, addr) ∈ ddb ++ more → first = second)
    (absent : ddb.has next.uuid = false)
    (added : ∀ uuid addr, next = .provisioned uuid addr → (uuid, addr) ∈ more ∧ addr ≠ 0) :
    DdbInvariant nodes (ddb ++ more) (reports ++ [next]) where
  registered := invariant.registered
  file := invariant.file
  distinct := invariant.distinct
  backlog := invariant.backlog
  addrs := addrs
  inStep := by
    intro entry member device addr isUuid isAddr addressed
    exact List.mem_append_left _
      (invariant.inStep entry member device addr isUuid isAddr addressed)
  waiting := by
    intro uuid addr member
    rcases List.mem_append.mp member with older | new
    · obtain ⟨inside, nonzero⟩ := invariant.waiting uuid addr older
      exact ⟨List.mem_append_left _ inside, nonzero⟩
    · obtain ⟨inside, nonzero⟩ := added uuid addr (List.mem_singleton.mp new).symm
      exact ⟨List.mem_append_right _ inside, nonzero⟩
  unaddressed := by
    intro report member
    rcases List.mem_append.mp member with older | new
    · exact invariant.unaddressed report older
    · rw [List.mem_singleton.mp new]
      rintro ⟨entry, inside, addr, isUuid, isAddr, addressed⟩
      have held := Ddb.has_of_mem
        (invariant.inStep entry inside next.uuid addr isUuid isAddr addressed)
      rw [absent] at held
      cases held
  last := by
    apply List.pairwise_append.mpr
    refine ⟨invariant.last, List.pairwise_singleton _ _, ?_⟩
    intro first older second new succeeds same
    rw [List.mem_singleton.mp new] at same
    cases first with
    | failed uuid reason => cases succeeds
    | provisioned uuid addr =>
        have held := Ddb.has_of_mem (invariant.waiting uuid addr older).1
        have isUuid : uuid = next.uuid := same
        rw [isUuid, absent] at held
        cases held

/-! ### The lists -/

/-- A traversal of known records is not stopped, and deletes only devices without an
address. -/
theorem loadListsDdb (invariant : DdbInvariant nodes ddb reports)
    (quiet : ∀ report ∈ reports, report.succeeds = false) {fails : Uuid → Bool}
    {records : List NodeId} (known : ∀ record ∈ records, nodes.db.Known record)
    (lists : Lists) :
    (Nwmng.loadListsDdb fails nodes.db records ddb lists).1 = false ∧
      DdbInvariant nodes (Nwmng.loadListsDdb fails nodes.db records ddb lists).2.1 reports := by
  induction records generalizing ddb lists with
  | nil => exact ⟨rfl, invariant⟩
  | cons record rest hypothesis =>
      have here := known record List.mem_cons_self
      have later : ∀ other ∈ rest, nodes.db.Known other :=
        fun other member => known other (List.mem_cons_of_mem _ member)
      unfold Nwmng.loadListsDdb
      by_cases addressed : (nodes.db.heap record).addr = 0
      · simp only [if_pos addressed]
        split
        · apply hypothesis _ later
          apply invariant.delete fails
          · -- the entry of the record has no address either
            rintro ⟨entry, inside, addr, isUuid, isAddr, nonzero⟩
            have same := invariant.registered.entry_addr here inside isUuid
            exact nonzero ((isAddr.unique same).trans addressed)
          · intro report member succeeds
            rw [quiet report member] at succeeds
            cases succeeds
        · exact hypothesis invariant later _
      · have held := Ddb.has_of_mem (invariant.record_inStep here addressed)
        simp only [if_neg addressed, if_pos held]
        exact hypothesis invariant later _

/-! ### Writes of a node -/

theorem onNode_ok {state : NodesState} {input : WriteInput} {addr : UInt16}
    {change : CfgDb → Except Abort CfgDb} {field : Node → NodeField}
    (done : state.onNode input addr change field = .ok after) :
    ∃ record db, state.db.cfgdbNodeGet addr = some record ∧ change state.db = .ok db ∧
      { state with db := db }.writeField input (db.heap record).uuid (field (db.heap record)) =
        .ok after := by
  unfold NodesState.onNode at done
  cases found : state.db.cfgdbNodeGet addr with
  | none =>
      rw [found] at done
      cases done
  | some record =>
      rw [found] at done
      obtain ⟨db, changed, written⟩ := bind_ok.mp done
      exact ⟨record, db, rfl, changed, written⟩

/-- The error mask, the done flag or the functions are written. -/
theorem nodeset (invariant : DdbInvariant nodes ddb reports) {input : WriteInput}
    {addr : UInt16} (change : Node → Node) (field : Node → NodeField)
    (sameUuid : ∀ node, (change node).uuid = node.uuid)
    (sameAddr : ∀ node, (change node).addr = node.addr)
    (other : ∀ node, strAddr ≠ (field node).key)
    (done : nodes.onNode input addr (·.nodeset addr change) field = .ok after) :
    DdbInvariant after ddb reports := by
  obtain ⟨record, db, found, changed, written⟩ := onNode_ok done
  have isDb : nodes.db.update record change = db := by
    simp only [CfgDb.nodeset, found] at changed
    exact Except.ok.inj changed
  have isOpen := (invariant.isOpen (known_of_nodes found)).withDb db
  obtain ⟨sameDb, isOpen⟩ := isOpen.writeField invariant.registered.uuids written
  have keeps : ∀ entry place,
      EntryAddr (editEntry (db.heap record).uuid (field (db.heap record)) entry) place ↔
        EntryAddr entry place :=
    fun entry => entryAddr_editEntry_other (other _)
  have beside := get_uuid_editEntry (db.heap record).uuid (field (db.heap record))
  apply invariant.kept rfl beside keeps isOpen
  rw [sameDb]
  show Registered db _
  rw [← isDb] at beside keeps ⊢
  exact invariant.registered.update record sameUuid sameAddr rfl beside keeps

theorem nodesetErrbits (invariant : DdbInvariant nodes ddb reports) {input : WriteInput}
    {addr : UInt16} {err : BitVec 32}
    (done : nodes.nodesetErrbits input addr err = .ok after) :
    DdbInvariant after ddb reports := by
  have apart : strAddr ≠ strErrbits := of_decide_eq_true rfl
  exact invariant.nodeset (fun node => { node with err := err })
    (fun _ => .errbits (UInt32.ofBitVec err)) (fun _ => rfl) (fun _ => rfl) (fun _ => apart) done

theorem nodesetDone (invariant : DdbInvariant nodes ddb reports) {input : WriteInput}
    {addr : UInt16} {flag : UInt8} (done : nodes.nodesetDone input addr flag = .ok after) :
    DdbInvariant after ddb reports := by
  have apart : strAddr ≠ strDone := of_decide_eq_true rfl
  exact invariant.nodeset (fun node => { node with done := flag })
    (fun _ => .done flag) (fun _ => rfl) (fun _ => rfl) (fun _ => apart) done

theorem nodesetFunc (invariant : DdbInvariant nodes ddb reports) {input : WriteInput}
    {addr : UInt16} {func : BitVec 8} (done : nodes.nodesetFunc input addr func = .ok after) :
    DdbInvariant after ddb reports := by
  have apart : strAddr ≠ strFunc := of_decide_eq_true rfl
  exact invariant.nodeset (fun node => { node with func := func })
    (fun _ => .func (UInt8.ofBitVec func)) (fun _ => rfl) (fun _ => rfl) (fun _ => apart) done

/-- Writing the address of a device moves its entry. -/
theorem entriesMoved_editEntry (entries : List Value) (uuid : Uuid) (addr : UInt16) :
    EntriesMoved entries (entries.map (editEntry uuid (.addr addr))) uuid addr := by
  refine ⟨editEntry uuid (.addr addr), rfl, get_uuid_editEntry uuid _, ?_, ?_⟩
  · intro entry _ here
    exact entryAddr_editEntry here
  · intro entry _ apart place
    rw [editEntry_of_ne apart]

/-- `nodes_rm`, which leaves the device without an address. -/
theorem nodesRm (invariant : DdbInvariant nodes ddb reports) {input : WriteInput}
    {addr : UInt16} (done : nodes.nodesRm input addr = .ok after) :
    ∃ record, nodes.db.cfgdbNodeGet addr = some record ∧
      (after.db.heap record).uuid = (nodes.db.heap record).uuid ∧
      ¬ Addressed after.file.entries (nodes.db.heap record).uuid ∧
      DdbInvariant after ddb reports := by
  obtain ⟨record, db, found, changed, written⟩ := onNode_ok done
  obtain ⟨other, otherFound, moved⟩ := invariant.registered.relocated_nodesRm changed
  rw [found] at otherFound
  cases otherFound
  have isOpen := (invariant.isOpen (known_of_nodes found)).withDb db
  obtain ⟨sameDb, isOpen⟩ := isOpen.writeField invariant.registered.uuids written
  rw [moved.isAddr, moved.isUuid] at isOpen
  have entriesMoved := entriesMoved_editEntry nodes.file.entries (nodes.db.heap record).uuid 0
  have allotted : Allotted db :=
    @Allotted.run _ _ invariant.registered.allotted (.nodesRm addr) changed
  have registered := invariant.registered.move moved allotted
    (fun impossible => absurd rfl impossible) entriesMoved
  refine ⟨record, found, ?_, ?_, ?_⟩
  · rw [sameDb]
    exact moved.isUuid
  · rintro ⟨entry, inside, place, isUuid, isAddr, addressed⟩
    rw [isOpen.entries_eq] at inside
    obtain ⟨old, _, rfl⟩ := List.mem_map.mp inside
    rw [entryUuid_editEntry] at isUuid
    exact addressed (isAddr.unique (entryAddr_editEntry isUuid))
  · apply invariant.moved entriesMoved isOpen _ (fun impossible => absurd rfl impossible)
    rw [sameDb]
    exact registered

/-- `nodes_bl`, which writes the done flag and the address. -/
theorem nodesBl (invariant : DdbInvariant nodes ddb reports) {input second : WriteInput}
    {addr : UInt16} (done : nodes.nodesBl input second addr = .ok after) :
    DdbInvariant after ddb reports := by
  unfold NodesState.nodesBl at done
  cases found : nodes.db.cfgdbNodeGet addr with
  | none =>
      rw [found] at done
      cases done
  | some record =>
      rw [found] at done
      simp only [bind_ok] at done
      obtain ⟨db, changed, middle, written, rewritten⟩ := done
      obtain ⟨other, otherFound, moved⟩ := invariant.registered.relocated_nodesBl changed
      rw [found] at otherFound
      cases otherFound
      have isOpen := (invariant.isOpen (known_of_nodes found)).withDb db
      obtain ⟨sameDb, isOpen⟩ := isOpen.writeField invariant.registered.uuids written
      have uuids := invariant.registered.uuids.map
        (get_uuid_editEntry (db.heap record).uuid (.done (db.heap record).done))
      obtain ⟨lastDb, isOpen⟩ := isOpen.writeField uuids rewritten
      rw [List.map_map, moved.isAddr, moved.isUuid] at isOpen
      have apart : strAddr ≠ strDone := of_decide_eq_true rfl
      have entriesMoved : EntriesMoved nodes.file.entries
          (nodes.file.entries.map (editEntry (nodes.db.heap record).uuid (.addr 0) ∘
            editEntry (nodes.db.heap record).uuid (.done (db.heap record).done)))
          (nodes.db.heap record).uuid 0 := by
        refine ⟨_, rfl, ?_, ?_, ?_⟩
        · intro entry
          exact (get_uuid_editEntry _ _ _).trans (get_uuid_editEntry _ _ _)
        · intro entry _ here
          apply entryAddr_editEntry
          rw [entryUuid_editEntry]
          exact here
        · intro entry _ elsewhere place
          rw [Function.comp_apply, editEntry_of_ne, editEntry_of_ne elsewhere]
          rw [entryUuid_editEntry]
          exact elsewhere
      have allotted : Allotted db :=
        @Allotted.run _ _ invariant.registered.allotted (.nodesBl addr) changed
      apply invariant.moved entriesMoved isOpen _ (fun impossible => absurd rfl impossible)
      rw [lastDb, sameDb]
      exact invariant.registered.move moved allotted
        (fun impossible => absurd rfl impossible) entriesMoved

/-- A device that is in the database of the NCP gets its address. -/
theorem onProvSuccess (invariant : DdbInvariant nodes ddb reports) {input : WriteInput}
    {uuid : Uuid} {addr : UInt16} {written : NodesState} {db : CfgDb}
    (held : (uuid, addr) ∈ ddb) (nonzero : addr ≠ 0)
    (later : ∀ report ∈ reports, report.uuid ≠ uuid)
    (writes : nodes.writeField input uuid (.addr addr) = .ok written)
    (addressed : nodes.db.uplNodesetAddr uuid addr = .ok db) :
    DdbInvariant { written with db := db } ddb reports := by
  have free : Registered.AddrFree nodes.file.entries uuid addr := by
    intro entry inside isAddr
    obtain ⟨device, isDevice⟩ := entryUuid_of_hex (invariant.registered.uuids.hex entry inside)
    have listed := invariant.inStep entry inside device addr isDevice isAddr nonzero
    rw [isDevice, invariant.addrs device uuid addr listed held]
  obtain ⟨record, found, isUuid, moved⟩ :=
    invariant.registered.relocated_uplNodesetAddr nonzero free addressed
  have isOpen := invariant.isOpen (known_of_unprov found)
  obtain ⟨sameDb, isOpen⟩ := isOpen.writeField invariant.registered.uuids writes
  have entriesMoved := entriesMoved_editEntry nodes.file.entries uuid addr
  have allotted : Allotted db :=
    @Allotted.run _ _ invariant.registered.allotted (.uplNodesetAddr uuid addr) addressed
  apply invariant.moved entriesMoved (isOpen.withDb db) _ (fun _ => ⟨held, later⟩)
  apply invariant.registered.move moved allotted
  · intro _
    rw [isUuid]
    exact free
  · rw [isUuid]
    exact entriesMoved

/-! ### Loading and saving the file -/

theorem registered_cleared (invariant : DdbInvariant nodes ddb reports) (force : Bool) :
    Registered (clearedFor force nodes.db) nodes.file.entries := by
  cases force with
  | true => exact invariant.registered.cleared
  | false => exact invariant.registered

/-- `json_cfg_open`, which is refused only while no file is open. -/
theorem jsonCfgOpen (invariant : DdbInvariant nodes ddb reports) {env : LoadEnv}
    {force loaded : Bool} (done : nodes.jsonCfgOpen env force = .ok (loaded, after)) :
    DdbInvariant after ddb reports := by
  have result := jsonCfgOpen_result (invariant.registered_cleared force) invariant.backlog
    invariant.distinct done
  have sameFile := result.file
  have registered : Registered after.db nodes.file.entries := by
    cases loaded with
    | true => exact result.registered rfl
    | false =>
        rcases result.fails rfl with same | same
        · rw [same]
          exact invariant.registered
        · rw [same]
          exact invariant.registered_cleared force
  have file : (after.nw.tree = none ∧ ∀ record, ¬ after.db.Known record) ∨
      FileOpen after nodes.file.entries nodes.file.backlog := by
    cases loaded with
    | true =>
        rcases result.opens rfl with same | isOpen
        · rw [same]
          exact invariant.file
        · exact .inr isOpen
    | false =>
        rcases invariant.file with ⟨_, unknown⟩ | isOpen
        · refine .inl ⟨result.closed rfl, ?_⟩
          intro record
          rcases result.fails rfl with same | same
          · rw [same]
            exact unknown record
          · rw [same]
            cases force with
            | true => exact known_cleared
            | false => exact unknown record
        · exact absurd (result.again _ _ isOpen) (fun impossible => nomatch impossible)
  constructor
  · rw [sameFile]
    exact registered
  · rw [sameFile]
    exact file
  · rw [sameFile]
    exact invariant.distinct
  · rw [sameFile]
    exact invariant.backlog
  · exact invariant.addrs
  · rw [sameFile]
    exact invariant.inStep
  · exact invariant.waiting
  · rw [sameFile]
    exact invariant.unaddressed
  · exact invariant.last

theorem flush (invariant : DdbInvariant nodes ddb reports) (clock : SaveClock) :
    DdbInvariant (nodes.flush clock) ddb reports := by
  rcases invariant.file with ⟨closed, _⟩ | isOpen
  · rw [FileOpen.flush_closed closed]
    exact invariant
  · have same : nodes.file.entries = nodes.file.entries.map id := (List.map_id _).symm
    exact invariant.kept same (fun _ => rfl) (fun _ _ => Iff.rfl) (isOpen.flush clock)
      invariant.registered

/-- The flags of the entries are written, and no record. -/
theorem entries (invariant : DdbInvariant nodes ddb reports) {edited : List Value}
    {edit : Value → Value} (isEdited : edited = nodes.file.entries.map edit)
    (beside : ∀ entry, (edit entry).get strUuid = entry.get strUuid)
    (keeps : ∀ entry addr, EntryAddr (edit entry) addr ↔ EntryAddr entry addr)
    (isOpen : FileOpen after edited nodes.file.backlog) (sameDb : after.db = nodes.db) :
    DdbInvariant after ddb reports := by
  apply invariant.kept isEdited beside keeps isOpen
  have untouched : nodes.db.update 0 id = nodes.db := by
    unfold CfgDb.update
    rw [id, Function.update_eq_self]
  rw [sameDb, ← untouched]
  exact invariant.registered.update 0 (fun _ => rfl) (fun _ => rfl) isEdited beside keeps

end DdbInvariant

/-! ## Writes to all entries -/

/-- What a fallible edit makes of an entry. -/
def editOf (edit : Value → Except Abort Value) (entry : Value) : Value :=
  match edit entry with
  | .ok edited => edited
  | .error _ => entry

theorem mapM_editOf {edit : Value → Except Abort Value} {entries edited : List Value}
    (maps : entries.mapM edit = .ok edited) : edited = entries.map (editOf edit) := by
  induction entries generalizing edited with
  | nil =>
      cases maps
      rfl
  | cons entry rest hypothesis =>
      rw [List.mapM_cons] at maps
      simp only [bind_ok] at maps
      obtain ⟨first, isFirst, others, isOthers, result⟩ := maps
      cases result
      rw [List.map_cons, hypothesis isOthers]
      unfold editOf
      rw [isFirst]

theorem mapM_sources {edit : Value → Except Abort Value} {entries edited : List Value}
    (maps : entries.mapM edit = .ok edited) :
    ∀ result ∈ edited, ∃ entry ∈ entries, edit entry = .ok result := by
  induction entries generalizing edited with
  | nil =>
      cases maps
      intro result impossible
      cases impossible
  | cons entry rest hypothesis =>
      rw [List.mapM_cons] at maps
      simp only [bind_ok] at maps
      obtain ⟨first, isFirst, others, isOthers, whole⟩ := maps
      cases whole
      intro result member
      rcases List.mem_cons.mp member with same | later
      · rw [same]
        exact ⟨entry, List.mem_cons_self, isFirst⟩
      · obtain ⟨source, inside, done⟩ := hypothesis isOthers result later
        exact ⟨source, List.mem_cons_of_mem _ inside, done⟩

/-- An edit that writes the flag of the removal, or nothing.  Neither the UUID nor the address of
an entry is touched, so the entries stand for the same devices as before. -/
def WritesRmorbl (edit : Value → Except Abort Value) : Prop :=
  ∀ entry edited, edit entry = .ok edited →
    edited = entry ∨ ∃ text, edited = kvReplace strRmorbl text entry

theorem rmallEntry_writes : WritesRmorbl rmallEntry := by
  intro entry edited done
  obtain ⟨addr, _, result⟩ := bind_ok.mp done
  split at result
  · exact .inl (Except.ok.inj result).symm
  · exact .inr ⟨_, (Except.ok.inj result).symm⟩

theorem rmblEntry_writes : WritesRmorbl rmblEntry := by
  intro entry edited done
  obtain ⟨addr, _, result⟩ := bind_ok.mp done
  split at result
  · exact .inr ⟨_, (Except.ok.inj result).symm⟩
  · exact .inl (Except.ok.inj result).symm

theorem WritesRmorbl.editOf {edit : Value → Except Abort Value} (writes : WritesRmorbl edit)
    (entry : Value) :
    editOf edit entry = entry ∨ ∃ text, editOf edit entry = kvReplace strRmorbl text entry := by
  unfold Nwmng.editOf
  cases done : edit entry with
  | error abort => exact .inl rfl
  | ok edited => exact writes entry edited done

theorem WritesRmorbl.beside {edit : Value → Except Abort Value} (writes : WritesRmorbl edit)
    (entry : Value) : (Nwmng.editOf edit entry).get strUuid = entry.get strUuid := by
  rcases writes.editOf entry with same | ⟨text, same⟩
  · rw [same]
  · rw [same, kvReplace, Value.get_set_other (of_decide_eq_true rfl)]

theorem WritesRmorbl.keeps {edit : Value → Except Abort Value} (writes : WritesRmorbl edit)
    (entry : Value) (addr : UInt16) :
    EntryAddr (Nwmng.editOf edit entry) addr ↔ EntryAddr entry addr := by
  rcases writes.editOf entry with same | ⟨text, same⟩
  · rw [same]
  · unfold EntryAddr
    rw [same, kvReplace, memberUint_set_other (of_decide_eq_true rfl)]

/-- The entries of a file that was cleared. -/
theorem clrctlEntry_ok {entry edited : Value} (done : clrctlEntry entry = .ok edited) :
    edited.get strUuid = entry.get strUuid ∧ EntryAddr edited 0 := by
  unfold clrctlEntry at done
  split at done
  · rename_i isObject
    cases done
    simp only [kvReplace]
    constructor
    · rw [Value.get_set_other (of_decide_eq_true rfl),
        Value.get_set_other (of_decide_eq_true rfl),
        Value.get_set_other (of_decide_eq_true rfl),
        Value.get_set_other (of_decide_eq_true rfl),
        Value.get_set_other (of_decide_eq_true rfl)]
    · unfold EntryAddr
      rw [memberUint_set_other (of_decide_eq_true rfl),
        memberUint_set_other (of_decide_eq_true rfl),
        memberUint_set_other (of_decide_eq_true rfl),
        memberUint_set_other (of_decide_eq_true rfl)]
      have written := memberUint_set_self UInt16.ofNat strAddr isObject
        (str2uint_uint16ToStr 0)
      rw [UInt16.ofNat_toNat] at written
      exact written
  · cases done

theorem clrctlEntry_beside (entry : Value) :
    (editOf clrctlEntry entry).get strUuid = entry.get strUuid := by
  unfold editOf
  cases done : clrctlEntry entry with
  | error abort => rfl
  | ok edited => exact (clrctlEntry_ok done).1

/-- Records that were removed do not get in the way of entries without addresses. -/
theorem registered_over_cleared {db : CfgDb} {entries edited : List Value}
    (registered : Registered db entries) (uuids : UuidsDistinct edited)
    (noAddress : ∀ entry ∈ edited, EntryAddr entry 0) :
    Registered (clearedFor true db) edited where
  uuids := uuids
  addrs := by
    intro first isFirst _ _ addr nonzero isAddr _
    exact absurd (isAddr.unique (noAddress first isFirst)) nonzero
  allotted := registered.cleared.allotted
  listed := fun record known => absurd known known_cleared
  home := fun record known => absurd known known_cleared
  unprov := registered.cleared.unprov
  nodes := registered.cleared.nodes
  backlog := registered.cleared.backlog

namespace DdbInvariant

variable {nodes after : NodesState} {ddb : Ddb} {reports : List ProvReport}

/-- `nodes_rmall` and `nodes_rmblclr`. -/
theorem writeAll (invariant : DdbInvariant nodes ddb reports) {clock : SaveClock}
    {edit : Value → Except Abort Value} (writes : WritesRmorbl edit) {written : Bool}
    (done : nodes.writeAll clock edit = .ok (written, after)) :
    DdbInvariant after ddb reports := by
  rcases invariant.file with ⟨closed, _⟩ | isOpen
  · unfold NodesState.writeAll at done
    rw [closed] at done
    cases done
    exact invariant
  · obtain ⟨_, sameDb, edited, maps, isOpen⟩ := isOpen.writeAll done
    exact invariant.entries (mapM_editOf maps) writes.beside writes.keeps isOpen sameDb

/-- `nodes_clrctl`, after which no device has an address. -/
theorem nodesClrctl (invariant : DdbInvariant nodes ddb reports) {env : LoadEnv}
    {first second : SaveClock} {cleared : Bool}
    (done : nodes.nodesClrctl env first second = .ok (cleared, after)) :
    DdbInvariant after ddb reports ∧
      (cleared = true → ∀ uuid, ¬ Addressed after.file.entries uuid) := by
  obtain ⟨⟨written, middle⟩, writes, done⟩ := bind_ok.mp done
  rcases invariant.file with ⟨closed, _⟩ | isOpen
  · unfold NodesState.writeAll at writes
    rw [closed] at writes
    cases writes
    cases done
    exact ⟨invariant, fun impossible => nomatch impossible⟩
  · obtain ⟨isWritten, sameDb, edited, maps, middleOpen⟩ := isOpen.writeAll writes
    subst isWritten
    simp only [if_true, bind_ok] at done
    obtain ⟨⟨loaded, last⟩, loads, result⟩ := done
    have isEdited := mapM_editOf maps
    have noAddress : ∀ entry ∈ edited, EntryAddr entry 0 := by
      intro entry member
      obtain ⟨source, _, isSource⟩ := mapM_sources maps entry member
      exact (clrctlEntry_ok isSource).2
    have unaddressed : ∀ uuid, ¬ Addressed edited uuid := by
      rintro uuid ⟨entry, inside, addr, _, isAddr, addressed⟩
      exact addressed (isAddr.unique (noAddress entry inside))
    have uuids : UuidsDistinct edited := by
      rw [isEdited]
      exact invariant.registered.uuids.map clrctlEntry_beside
    have fits : Registered (clearedFor true middle.db) middle.file.entries := by
      rw [middleOpen.entries_eq, sameDb]
      exact registered_over_cleared invariant.registered uuids noAddress
    have sameBacklog := middleOpen.backlog_eq
    have outcome := jsonCfgOpen_result fits (by rw [sameBacklog]; exact invariant.backlog)
      middleOpen.distinct loads
    have isLoaded := outcome.again _ _ middleOpen
    subst isLoaded
    have registered := outcome.registered rfl
    rw [middleOpen.entries_eq] at registered
    have lastOpen : FileOpen last edited nodes.file.backlog := by
      rcases outcome.opens rfl with same | isOpen
      · rw [same]
        exact middleOpen
      · rw [middleOpen.entries_eq, sameBacklog] at isOpen
        exact isOpen
    cases result
    have isFlush : last.autoFlush second = last.flush second := if_pos lastOpen.autoflush
    have saved := lastOpen.flush second
    simp only [if_true]
    rw [isFlush, saved.entries_eq]
    refine ⟨?_, fun _ => unaddressed⟩
    constructor
    · rw [saved.entries_eq]
      exact registered
    · rw [saved.entries_eq, saved.backlog_eq]
      exact .inr saved
    · exact saved.distinct
    · rw [saved.backlog_eq]
      exact invariant.backlog
    · exact invariant.addrs
    · intro entry member uuid addr isUuid isAddr addressed
      rw [saved.entries_eq] at member
      exact absurd ⟨entry, member, addr, isUuid, isAddr, addressed⟩ (unaddressed uuid)
    · exact invariant.waiting
    · rw [saved.entries_eq]
      exact fun report _ => unaddressed report.uuid
    · exact invariant.last

theorem backlogObject_addr (uuid : Uuid) : EntryAddr (backlogObject uuid) 0 := by
  have here : (backlogObject uuid).get strAddr = some (.string "0x0000".toList) := by
    show Value.lookup strAddr _ = _
    rw [Value.lookup, if_neg (of_decide_eq_true rfl), Value.lookup, if_pos rfl]
  have reads : str2uint "0x0000".toList = .ok (some 0) := str2uint_uint16ToStr 0
  unfold EntryAddr memberUint memberText
  rw [here]
  simp only [textOf, Value.text_string, ok_bind, reads, Option.map_some]
  exact congrArg Except.ok rfl

/-- A device of the backlog, which has no address. -/
theorem backlogDev (invariant : DdbInvariant nodes ddb reports) {clock : SaveClock}
    {uuid : Uuid} (absent : nodes.db.cfgdbBacklogGet uuid = none)
    (done : nodes.backlogDev clock uuid = .ok after) : DdbInvariant after ddb reports := by
  rcases invariant.file with ⟨closed, _⟩ | isOpen
  · unfold NodesState.backlogDev at done
    rw [closed] at done
    cases done
    exact invariant
  · obtain ⟨sameDb, isOpen⟩ := isOpen.backlogDev done
    have sameEntries := isOpen.entries_eq
    have registered := invariant.registered.backlogNodeAdd absent
    constructor
    · rw [sameEntries, sameDb]
      exact registered
    · rw [sameEntries, isOpen.backlog_eq]
      exact .inr isOpen
    · exact isOpen.distinct
    · rw [isOpen.backlog_eq]
      intro item member addr isAddr
      rcases List.mem_append.mp member with older | new
      · exact invariant.backlog item older addr isAddr
      · rw [List.mem_singleton.mp new] at isAddr
        exact isAddr.unique (backlogObject_addr uuid)
    · exact invariant.addrs
    · rw [sameEntries]
      exact invariant.inStep
    · exact invariant.waiting
    · rw [sameEntries]
      exact invariant.unaddressed
    · exact invariant.last

end DdbInvariant

/-!
## The steps of the system

Each function of the source keeps the invariant under its own condition.  The steps of the system
only say which functions they call.
-/

/-- The invariant of the whole state. -/
def DdbState.Sound (state : DdbState) : Prop :=
  DdbInvariant state.nodes state.ddb state.reports ∧ state.outOfSync = false

namespace DdbState

variable {state target : DdbState}

theorem Sound.setNodes {nodes : NodesState}
    (invariant : DdbInvariant nodes state.ddb state.reports)
    (inSync : state.outOfSync = false) : (state.setNodes nodes).Sound := ⟨invariant, inSync⟩

/-- No report of success is on its way, or the lists are not loaded yet.  It is the condition for
a step that deletes devices from the database of the NCP. -/
def Quiet (state : DdbState) : Prop :=
  state.Early ∨ ∀ report ∈ state.reports, report.succeeds = false

/-- `mng_load_lists` is not stopped. -/
theorem Sound.loadLists (sound : state.Sound) (quiet : state.Quiet) (fails : Uuid → Bool) :
    (state.loadLists fails).Sound := by
  obtain ⟨invariant, inSync⟩ := sound
  unfold DdbState.loadLists
  split
  · exact ⟨invariant, inSync⟩
  · exact ⟨invariant, inSync⟩
  · rename_i notNil notInitialized
    have none : ∀ report ∈ state.reports, report.succeeds = false := by
      rcases quiet with (early | early) | none
      · exact absurd early notNil
      · exact absurd early notInitialized
      · exact none
    have unprovKnown : ∀ record ∈ state.nodes.db.unprovDevs.values,
        state.nodes.db.Known record := by
      intro record member
      obtain ⟨uuid, found⟩ := CfgDb.mem_values member
      exact known_of_unprov found
    have nodesKnown : ∀ record ∈ state.nodes.db.nodes.values,
        state.nodes.db.Known record := by
      intro record member
      obtain ⟨addr, found⟩ := CfgDb.mem_values member
      exact known_of_nodes found
    obtain ⟨first, invariant⟩ :=
      invariant.loadListsDdb none unprovKnown Lists.empty
    obtain ⟨second, invariant⟩ :=
      invariant.loadListsDdb none nodesKnown
        (Nwmng.loadListsDdb fails state.nodes.db state.nodes.db.unprovDevs.values state.ddb
          Lists.empty).2.2
    refine ⟨invariant, ?_⟩
    show (state.outOfSync || _ || _) = false
    rw [inSync, Bool.false_or]
    exact Bool.or_eq_false_iff.mpr ⟨first, second⟩

/-- `load_cfg_file`. -/
theorem Sound.load (sound : state.Sound) (quiet : state.Quiet) {env : LoadEnv} {force : Bool}
    {clock : SaveClock} {fails : Uuid → Bool} {loaded : Bool}
    (done : state.load env force clock fails = .ok (loaded, target)) : target.Sound := by
  obtain ⟨⟨opened, nodes⟩, opens, result⟩ := bind_ok.mp done
  have reopened : (state.setNodes nodes).Sound :=
    Sound.setNodes (sound.1.jsonCfgOpen opens) sound.2
  cases opened with
  | false =>
      cases result
      exact reopened
  | true =>
      cases result
      have listed := reopened.loadLists quiet fails
      exact Sound.setNodes (listed.1.flush clock) listed.2

theorem db_onProvSuccess {engine after : Engine} {uuid : Uuid} {addr : UInt16}
    (done : engine.onProvSuccess uuid addr = .ok after) :
    engine.host.db.uplNodesetAddr uuid addr = .ok after.host.db := by
  obtain ⟨db, addressed, result⟩ := bind_ok.mp done
  split at result
  · cases result
    exact addressed
  · cases result

/-- A report is handled, or dropped. -/
theorem Sound.report (sound : state.Sound) {input : WriteInput} {fails : Uuid → Bool}
    (undisturbed : (DdbOp.report input fails).Undisturbed state)
    (done : state.report input fails = .ok target) : target.Sound := by
  obtain ⟨invariant, inSync⟩ := sound
  unfold DdbOp.Undisturbed at undisturbed
  unfold DdbState.report at done
  cases held : state.reports with
  | nil =>
      rw [held] at done
      cases done
      exact ⟨invariant, inSync⟩
  | cons next rest =>
      rw [held] at done undisturbed invariant
      have popped := invariant.pop
      obtain ⟨later, _⟩ := List.pairwise_cons.mp invariant.last
      by_cases listening : state.Listening
      · have listens : { state with reports := rest }.Listening := listening
        simp only [if_pos listens] at done
        cases next with
        | provisioned uuid addr =>
            obtain ⟨written, writes, engine, handled, result⟩ :
                ∃ written, state.nodes.writeField input uuid (.addr addr) = .ok written ∧
                  ∃ engine, state.host.mng.engine.onProvSuccess uuid addr = .ok engine ∧
                    _ = Except.ok target := by
              obtain ⟨written, writes, done⟩ := bind_ok.mp done
              obtain ⟨engine, handled, done⟩ := bind_ok.mp done
              exact ⟨written, writes, engine, handled, done⟩
            cases result
            obtain ⟨inside, nonzero⟩ := invariant.waiting uuid addr List.mem_cons_self
            have others : ∀ report ∈ rest, report.uuid ≠ uuid :=
              fun report member same => later report member rfl same.symm
            exact ⟨popped.onProvSuccess inside nonzero others writes
              (db_onProvSuccess handled), inSync⟩
        | failed uuid reason =>
            cases done
            unfold onProvFailed
            split
            · rename_i isSeven
              refine ⟨popped.delete fails ?_ ?_, inSync⟩
              · exact invariant.unaddressed (.failed uuid reason) List.mem_cons_self
              · exact undisturbed isSeven listening
            · exact ⟨popped, inSync⟩
      · have deaf : ¬ { state with reports := rest }.Listening := listening
        simp only [if_neg deaf] at done
        cases done
        exact ⟨popped, inSync⟩

/-- A field is written, and no place changes. -/
theorem nodeset_frame {db after : CfgDb} {addr : UInt16} (change : Node → Node)
    (sameUuid : ∀ node, (change node).uuid = node.uuid)
    (done : db.nodeset addr change = .ok after) :
    (∀ spot, after.get spot = db.get spot) ∧
      ∀ record, (after.heap record).uuid = (db.heap record).uuid := by
  unfold CfgDb.nodeset at done
  split at done
  · rename_i record _
    cases done
    refine ⟨fun spot => CfgDb.get_update _ _ _ _, ?_⟩
    intro other
    by_cases same : other = record
    · rw [same, CfgDb.heap_update_self, sameUuid]
    · rw [CfgDb.heap_update_of_ne _ _ same]
  · cases done

/-- A node is removed, and then deleted from the database of the NCP. -/
theorem Sound.removed (sound : state.Sound) {input : RemovedInput} {fails : Uuid → Bool}
    {record : NodeId}
    (held : state.nodes.db.cfgdbNodeGet (state.nodes.db.heap record).addr = some record)
    (done : state.removed input fails record = .ok target) : target.Sound := by
  obtain ⟨invariant, inSync⟩ := sound
  have known := known_of_nodes held
  have addressed : (state.nodes.db.heap record).addr ≠ 0 :=
    (invariant.registered.nodes _ record held).2
  have isAddressed : Addressed state.nodes.file.entries (state.nodes.db.heap record).uuid := by
    obtain ⟨entry, inside, isUuid, isAddr⟩ := invariant.registered.listed record known
    exact ⟨entry, inside, _, isUuid, isAddr, addressed⟩
  obtain ⟨first, errbits, done⟩ := bind_ok.mp done
  obtain ⟨second, isDone, done⟩ := bind_ok.mp done
  obtain ⟨third, func, done⟩ := bind_ok.mp done
  obtain ⟨last, removes, result⟩ := bind_ok.mp done
  cases result
  -- the record stays at its place until `nodes_rm`
  have one := nodeset_frame (fun node => { node with err := 0 }) (fun _ => rfl)
    (db_onNode errbits)
  have two := nodeset_frame (fun node => { node with done := 0 }) (fun _ => rfl)
    (db_onNode isDone)
  have three := nodeset_frame (fun node => { node with func := 0 }) (fun _ => rfl)
    (db_onNode func)
  have found : third.db.cfgdbNodeGet (state.nodes.db.heap record).addr = some record := by
    unfold CfgDb.cfgdbNodeGet
    rw [three.1, two.1, one.1]
    exact held
  have beforeLast := ((invariant.nodesetErrbits errbits).nodesetDone isDone).nodesetFunc func
  obtain ⟨other, otherFound, isUuid, unaddressed, after⟩ := beforeLast.nodesRm removes
  rw [found] at otherFound
  cases otherFound
  rw [three.2, two.2, one.2] at isUuid unaddressed
  refine ⟨?_, inSync⟩
  show DdbInvariant last (state.ddb.delete fails (last.db.heap record).uuid) state.reports
  rw [isUuid]
  apply after.delete fails unaddressed
  intro report member _ same
  rw [← same] at isAddressed
  exact invariant.unaddressed report member isAddressed

/-- A write of the configuration, or of the blacklisting. -/
theorem Sound.write (sound : state.Sound) {call : NodeCall} {nodes : NodesState}
    (configures : call.write.Configures) (done : call.run state.nodes = .ok nodes) :
    (state.setNodes nodes).Sound := by
  obtain ⟨invariant, inSync⟩ := sound
  obtain ⟨write, input, second⟩ := call
  cases write with
  | uplNodesetAddr uuid addr => cases configures
  | nodesRm addr => cases configures
  | nodesBl addr => exact ⟨invariant.nodesBl done, inSync⟩
  | nodesetErrbits addr err => exact ⟨invariant.nodesetErrbits done, inSync⟩
  | nodesetDone addr flag => exact ⟨invariant.nodesetDone done, inSync⟩
  | nodesetFunc addr func => exact ⟨invariant.nodesetFunc done, inSync⟩

theorem Sound.beacon (sound : state.Sound) {clock : SaveClock} {uuid : Uuid}
    (done : state.beacon clock uuid = .ok target) : target.Sound := by
  unfold DdbState.beacon at done
  dsimp only at done
  split at done
  · rename_i isNew
    obtain ⟨nodes, added, result⟩ := bind_ok.mp done
    cases result
    exact Sound.setNodes (sound.1.backlogDev isNew.2.1 added) sound.2
  · cases done
    exact sound

theorem Sound.rmall (sound : state.Sound) {first second : SaveClock} {env : LoadEnv}
    {fails : Uuid → Bool} (quiet : state.host.mng.state.busy = false → state.Quiet)
    (done : state.rmall first second env fails = .ok target) : target.Sound := by
  unfold DdbState.rmall at done
  split at done
  · cases done
    exact sound
  · rename_i notBusy
    obtain ⟨⟨written, nodes⟩, writes, done⟩ := bind_ok.mp done
    have marked : (state.setNodes nodes).Sound :=
      Sound.setNodes (sound.1.writeAll rmallEntry_writes writes) sound.2
    have isQuiet := quiet (Bool.eq_false_iff.mpr notBusy)
    cases written with
    | true =>
        obtain ⟨⟨loaded, last⟩, loads, result⟩ := bind_ok.mp done
        have reloaded := marked.load isQuiet loads
        cases loaded with
        | true =>
            cases result
            exact reloaded
        | false =>
            cases result
            exact reloaded
    | false =>
        cases done
        exact marked

theorem Sound.rmblclr (sound : state.Sound) {first second : SaveClock} {env : LoadEnv}
    {fails : Uuid → Bool} (quiet : state.Quiet)
    (done : state.rmblclr first second env fails = .ok target) : target.Sound := by
  obtain ⟨⟨written, nodes⟩, writes, done⟩ := bind_ok.mp done
  have marked : (state.setNodes nodes).Sound :=
    Sound.setNodes (sound.1.writeAll rmblEntry_writes writes) sound.2
  cases written with
  | true =>
      obtain ⟨⟨loaded, last⟩, loads, result⟩ := bind_ok.mp done
      cases result
      exact marked.load quiet loads
  | false =>
      cases done
      exact marked

/-- Everything is cleared, first on the host and then in the database of the NCP. -/
theorem Sound.clrAll (sound : state.Sound) {first second : SaveClock} {env : LoadEnv}
    {erased : Bool}
    (quiet : erased = true → ∀ report ∈ state.reports, report.succeeds = false)
    (done : state.clrAll first second env erased = .ok target) : target.Sound := by
  obtain ⟨⟨cleared, nodes⟩, clears, result⟩ := bind_ok.mp done
  obtain ⟨invariant, unaddressed⟩ := sound.1.nodesClrctl clears
  cases cleared with
  | false =>
      cases result
      exact ⟨invariant, sound.2⟩
  | true =>
      cases erased with
      | false =>
          cases result
          exact ⟨invariant, sound.2⟩
      | true =>
          cases result
          refine ⟨?_, sound.2⟩
          constructor
          · exact invariant.registered
          · exact invariant.file
          · exact invariant.distinct
          · exact invariant.backlog
          · intro one two addr impossible
            cases impossible
          · intro entry member uuid addr isUuid isAddr addressed
            exact absurd ⟨entry, member, addr, isUuid, isAddr, addressed⟩ (unaddressed rfl uuid)
          · intro uuid addr member
            have impossible := quiet rfl _ member
            cases impossible
          · exact invariant.unaddressed
          · exact invariant.last

/-- The NCP reports. -/
theorem Sound.reported (sound : state.Sound) {more : Ddb} {next : ProvReport}
    (absent : state.ddb.has next.uuid = false)
    (isMore : ∀ device ∈ more, device.1 = next.uuid ∧ state.ddb.CanAdd next.uuid device.2)
    (single : ∀ first ∈ more, ∀ second ∈ more, first.1 = second.1)
    (added : ∀ uuid addr, next = .provisioned uuid addr → (uuid, addr) ∈ more) :
    DdbState.Sound { state with
      ddb := state.ddb ++ more
      reports := state.reports ++ [next] } := by
  obtain ⟨invariant, inSync⟩ := sound
  refine ⟨invariant.push ?_ absent ?_, inSync⟩
  · -- the new address was in no entry of the database
    have fresh : ∀ {one two : Uuid} {addr : UInt16}, (one, addr) ∈ state.ddb →
        (two, addr) ∈ more → False := by
      intro one two addr older new
      obtain ⟨_, _, _, isFresh⟩ := isMore _ new
      exact isFresh (List.mem_map.mpr ⟨_, older, rfl⟩)
    intro one two addr first second
    rcases List.mem_append.mp first with first | first
    · rcases List.mem_append.mp second with second | second
      · exact invariant.addrs one two addr first second
      · exact (fresh first second).elim
    · rcases List.mem_append.mp second with second | second
      · exact (fresh second first).elim
      · exact single _ first _ second
  · intro uuid addr isNext
    have member := added uuid addr isNext
    exact ⟨member, (isMore _ member).2.2.1⟩

theorem db_clicbSync (start : Bool) (mng : Mng) : (clicbSync start mng).db = mng.db := by
  unfold clicbSync
  split
  · split
    · rfl
    · rfl
  · split
    · rfl
    · rfl
  · split
    · rfl
    · rfl
  · split
    · rfl
    · rfl

/-- The manager changes beside its records. -/
theorem Sound.ofMng (sound : state.Sound) {mng : Mng} (sameDb : mng.db = state.host.mng.db) :
    DdbState.Sound { state with host := { state.host with mng := mng } } := by
  obtain ⟨invariant, inSync⟩ := sound
  refine ⟨?_, inSync⟩
  have same : ({ state with host := { state.host with mng := mng } } : DdbState).nodes =
      state.nodes := by
    unfold DdbState.nodes
    rw [sameDb]
  rw [same]
  exact invariant

/-- Every undisturbed step. -/
theorem Sound.step {op : DdbOp} (sound : state.Sound) (undisturbed : op.Undisturbed state)
    (taken : op.Step state target) : target.Sound := by
  obtain ⟨possible, done⟩ := taken
  cases op with
  | provisioned uuid addr =>
      have canAdd : state.ddb.CanAdd uuid addr := possible
      cases done
      apply @Sound.reported state sound [(uuid, addr)] (.provisioned uuid addr) canAdd.1
      · intro device member
        rw [List.mem_singleton.mp member]
        exact ⟨rfl, canAdd⟩
      · intro first one second two
        rw [List.mem_singleton.mp one, List.mem_singleton.mp two]
      · intro device place same
        cases same
        exact List.mem_singleton.mpr rfl
  | failed uuid reason added =>
      obtain ⟨absent, canAdd⟩ := possible
      cases done
      have isMore : ∀ device ∈ added.toList.map (fun addr => (uuid, addr)),
          device.1 = uuid ∧ state.ddb.CanAdd uuid device.2 := by
        intro device member
        obtain ⟨addr, inside, rfl⟩ := List.mem_map.mp member
        exact ⟨rfl, canAdd addr (Option.mem_toList.mp inside)⟩
      apply @Sound.reported state sound _ (.failed uuid reason) absent isMore
      · intro first one second two
        exact (isMore first one).1.trans (isMore second two).1.symm
      · intro device place impossible
        cases impossible
  | report input fails => exact sound.report undisturbed done
  | write call =>
      obtain ⟨nodes, writes, result⟩ := bind_ok.mp done
      cases result
      exact sound.write possible writes
  | removed input fails record => exact sound.removed undisturbed done
  | loadLists fails =>
      cases done
      exact sound.loadLists undisturbed fails
  | load env force clock fails =>
      obtain ⟨⟨loaded, last⟩, loads, result⟩ := bind_ok.mp done
      cases result
      exact sound.load undisturbed loads
  | beacon clock uuid => exact sound.beacon done
  | rmall first second env fails => exact sound.rmall undisturbed done
  | rmblclr first second env fails => exact sound.rmblclr undisturbed done
  | clrAll first second env erased => exact sound.clrAll undisturbed done
  | sync start =>
      cases done
      exact sound.ofMng (db_clicbSync start _)
  | setMngState input =>
      cases done
      exact sound.ofMng (phaseFrame_db.setMngState input _)
  | manage mng =>
      cases done
      exact sound

end DdbState

/-! ## Runs -/

/-- A program that has not started. -/
theorem DdbState.Started.sound {state : DdbState} (started : state.Started) : state.Sound := by
  have unknown : ∀ record, ¬ state.nodes.db.Known record := by
    rintro record ⟨spot, _, found⟩
    rw [started.db, CfgDb.get_cfgdbInit] at found
    cases found
  have empty : ∀ spot record, state.nodes.db.get spot ≠ some record := by
    intro spot record found
    rw [started.db, CfgDb.get_cfgdbInit] at found
    cases found
  refine ⟨?_, started.inSync⟩
  constructor
  · constructor
    · exact started.uuids
    · intro first isFirst second isSecond addr nonzero firstAddr secondAddr
      obtain ⟨one, isOne⟩ := entryUuid_of_hex (started.uuids.hex first isFirst)
      obtain ⟨two, isTwo⟩ := entryUuid_of_hex (started.uuids.hex second isSecond)
      have listedOne := started.inStep first isFirst one addr isOne firstAddr nonzero
      have listedTwo := started.inStep second isSecond two addr isTwo secondAddr nonzero
      rw [isOne, isTwo, started.addrs one two addr listedOne listedTwo]
    · rw [started.db]
      exact Allotted.init
    · exact fun record known => absurd known (unknown record)
    · exact fun record known => absurd known (unknown record)
    · exact fun uuid record found => absurd found (empty _ record)
    · exact fun addr record found => absurd found (empty _ record)
    · exact fun uuid record found => absurd found (empty _ record)
  · exact .inl ⟨started.closed, unknown⟩
  · exact started.distinct
  · exact started.backlog
  · exact started.addrs
  · exact started.inStep
  · rw [started.reports]
    intro uuid addr impossible
    cases impossible
  · rw [started.reports]
    intro report impossible
    cases impossible
  · rw [started.reports]
    exact List.Pairwise.nil

theorem DdbState.Sound.covered {state : DdbState} (sound : state.Sound) : state.Covered :=
  sound.1.covered rfl rfl sound.2

/-- In every run in which nothing is deleted from the database of the NCP while a report of
success about it is on its way, every device with an address is in that database after every
step, and no traversal is stopped.  Until its report is handled, a device that was provisioned is
listed without an address, and looks like one to be deleted. -/
theorem ddb_covered_guarded {initial final : DdbState} {past : List (Move DdbState DdbOp)}
    (run : DdbRun initial past final) (started : initial.Started)
    (undisturbed : Guarded (fun source op => op.Undisturbed source) past) :
    final.Covered ∧ ∀ move ∈ past, move.source.Covered ∧ move.target.Covered := by
  have kept := run.guarded_invariant
    (fun source op target sound admitted taken => sound.step admitted taken) started.sound
    undisturbed
  refine ⟨kept.2.covered, ?_⟩
  intro move member
  obtain ⟨source, target⟩ := kept.1 move member
  exact ⟨source.covered, target.covered⟩

/-! ## Two runs -/

/-- A device that is not provisioned yet. -/
def unprovObject : Value :=
  (nodeObject [(strTmpl, .string "0x01".toList)]).set strAddr (.string (uint16ToStr 0))

/-- A program that is about to load a file with one device. -/
def DdbState.sample : DdbState where
  host :=
    { mng := (Mng.around (Engine.small (Node.plain 2))).setDb .cfgdbInit |>.setState .nil
      nw := .zeroed
      file := editedFile [unprovObject] }
  ddb := []
  reports := []
  outOfSync := false

/-- The same manager, when the network is initialized. -/
def Mng.sampleConfigured : Mng :=
  (Mng.around (Engine.small (Node.plain 2))).setState .configured

theorem DdbState.sample_started : DdbState.sample.Started := by
  have hex : HexUuid unprovObject := by
    apply hexUuid_of_sample
    have apart : strUuid ≠ strAddr := of_decide_eq_true rfl
    rw [unprovObject, Value.get_set_other apart, get_uuid_nodeObject, get_uuid_nodeObject]
  have noAddress : EntryAddr unprovObject 0 := by
    have written := memberUint_set_self UInt16.ofNat strAddr
      (show (nodeObject [(strTmpl, .string "0x01".toList)]).isObject = true from rfl)
      (str2uint_uint16ToStr 0)
    rw [UInt16.ofNat_toNat] at written
    exact written
  have entries : DdbState.sample.nodes.file.entries = [unprovObject] := by
    rw [SavedFile.entries_eq (show DdbState.sample.nodes.file.content =
      some (nodesContent [unprovObject]) from rfl)]
    rfl
  constructor
  · rfl
  · rfl
  · intro root content
    cases content
    exact List.nodup_singleton _
  · rw [entries]
    exact uuidsDistinct_single hex
  · intro item impossible
    cases impossible
  · intro first second addr impossible
    cases impossible
  · rw [entries]
    intro entry member uuid addr _ isAddr addressed
    rw [List.mem_singleton.mp member] at isAddr
    exact absurd (isAddr.unique noAddress) addressed
  · rfl
  · rfl

def WriteInput.sample : WriteInput :=
  { stack := fun _ => clearedBuffer, clock := { time := 9, mtime := 9 } }

def PhaseInput.sample : PhaseInput := { now := 9, stopScan := 0, startScan := 0 }

/-- The program starts a synchronization, and the NCP provisions the device. -/
def provisionSample : List DdbOp :=
  [.load noTemplates false { time := 8, mtime := 8 } (fun _ => false),
    .manage .sampleConfigured, .loadLists (fun _ => false), .sync true,
    .loadLists (fun _ => false), .setMngState .sample, .provisioned sampleUuid 2]

theorem ddbRun_of_replays {initial : DdbState} {labels : List DdbOp}
    {test : List (Move DdbState DdbOp) → DdbState → Bool}
    (passed : replays DdbOp.run initial labels (fun past final =>
      decide (Guarded (fun source op => op.Possible source) past) && test past final) =
        true) :
    ∃ past final, DdbRun initial past final ∧ test past final = true := by
  obtain ⟨past, final, run, _, reached⟩ := execution_of_replays passed
  obtain ⟨possible, tested⟩ := Bool.and_eq_true_iff.mp reached
  refine ⟨past, final, run.of_moves fun move member => ?_, tested⟩
  exact ⟨of_decide_eq_true possible move member, run.steps_taken move member⟩

/-- The report is handled, and the lists are loaded after that. -/
theorem ddb_covered_guarded_handled :
    ∃ past final, DdbRun .sample past final ∧ past.length = 9 ∧ final.Covered ∧
      ∀ move ∈ past, move.source.Covered ∧ move.target.Covered := by
  have passed : replays DdbOp.run .sample
      (provisionSample ++ [.report .sample (fun _ => false), .loadLists (fun _ => false)])
      (fun past final =>
        decide (Guarded (fun source op => op.Possible source) past) &&
          decide (Guarded (fun source op => DdbOp.Undisturbed source op) past ∧
            past.length = 9)) = true := by decide +kernel
  obtain ⟨past, final, run, shown⟩ := ddbRun_of_replays passed
  obtain ⟨undisturbed, nine⟩ := of_decide_eq_true shown
  have covered := ddb_covered_guarded run DdbState.sample_started undisturbed
  exact ⟨past, final, run, nine, covered.1, covered.2⟩

/-- The user stops the synchronization and starts another one before the report is handled:
the lists are loaded, and the device is deleted although it was provisioned. -/
theorem provisioned_device_deleted :
    ¬ ∀ (initial final : DdbState) (past : List (Move DdbState DdbOp)),
      DdbRun initial past final → initial.Started →
      final.Covered ∧ ∀ move ∈ past, move.source.Covered ∧ move.target.Covered := by
  intro claim
  have passed : replays DdbOp.run .sample
      (provisionSample ++ [.sync false, .setMngState .sample, .sync true,
        .loadLists (fun _ => false), .setMngState .sample, .report .sample (fun _ => false)])
      (fun past final =>
        decide (Guarded (fun source op => op.Possible source) past) &&
          (final.nodes.db.get (.nodes 2)).any fun record =>
            decide ((final.nodes.db.heap record).addr ≠ 0) &&
              !final.ddb.has (final.nodes.db.heap record).uuid) = true := by decide +kernel
  obtain ⟨past, final, run, shown⟩ := ddbRun_of_replays passed
  have covered := (claim _ _ past run DdbState.sample_started).1
  obtain ⟨record, found, both⟩ := (Option.any_eq_true _ _).mp shown
  obtain ⟨addressed, gone⟩ := Bool.and_eq_true_iff.mp both
  have held := covered.memory (.nodes 2) record found (of_decide_eq_true addressed)
  rw [held] at gone
  cases gone

end Nwmng
