/-
Module: Nwmng.Config.PromptRun
Purpose: The one run of a slot in which the NCP takes every command and every status is a success.
Trusted boundary: none
Main exports:
  DcdReport, Command.status, SlotState.promptOp, PromptRun, slotEvent_handle, slotEvent_page,
  Restored, storePage_restored
-/
import Nwmng.Config.Phases
import Nwmng.Lib.Determinism

namespace Nwmng

open Transition Fallible

/-!
## The run

What a slot does next, if all goes well, is determined by its state: a slot that waits gets the
answer to its command, any other one has its round.  Composition data come as a page and an end, so
a slot that waits for them is answered twice.
-/

/-- The page 0 that a device reports. -/
structure DcdReport where
  data : Bytes.Memory
  len : UInt8

/-- The status event that answers a command; none for composition data. -/
def Command.kind : Command → Option StatusKind
  | .getDcd .. => none
  | .addAppkey .. => some .appkey
  | .bindModel .. => some .binding
  | .setModelPub .. => some .modelPub
  | .setModelSub .. | .addModelSub .. => some .modelSub
  | .setRelay .. => some .relay
  | .setGattProxy .. => some .gattProxy
  | .setFriend .. => some .friend
  | .setDefaultTtl .. => some .defaultTtl
  | .setNetworkTransmit .. => some .networkTransmit
  | .setBeacon .. => some .beacon
  | .resetNode .. => some .reset

def ConfigEvent.kind : ConfigEvent → Option StatusKind
  | .status kind _ _ => some kind
  | _ => none

/-- The event that ends a command. -/
def Command.status (command : Command) (handle : UInt32) (result : UInt16) : ConfigEvent :=
  match command.kind with
  | some kind => .status kind handle result
  | none => .dcdDataEnd handle result

/-- What a waiting slot is told next: the page it has asked for, and otherwise that its command
has succeeded. -/
def SlotState.promptEvent (report : DcdReport) (slot : Slot) (source : SlotState) : ConfigEvent :=
  if source.cache.state = .getDcdEm ∧ source.cache.dcd.elems.isNone then
    .dcdData 0 0 report.data report.len
  else
    match source.host.lastSentBy slot with
    | some command => command.status 0 bgErrSuccess
    | none => .other 0

/-- The next step of a slot, when nothing is lost and the NCP has memory for each command. -/
def SlotState.promptOp (report : DcdReport) (slot : Slot) (source : SlotState) : SlotOp :=
  if source.cache.waitResponse then
    .event .configuringDevicesEm (source.promptEvent report slot)
      { inprg := .taken 0 0, retry := .taken 0 0 }
  else
    .round .configuringDevicesEm { now := 0, retry := .taken 0 0, entry := .taken 0 0 }

/-- The steps in which all goes well.  The state of the slot alone decides on them. -/
def PromptStep (report : DcdReport) (slot : Slot) (source : SlotState) (op : SlotOp)
    (target : SlotState) : Prop :=
  source.freed = false ∧ op = source.promptOp report slot ∧
    Succeeds (SlotOp.run slot) source op target

abbrev PromptRun (report : DcdReport) (slot : Slot) := Execution (PromptStep report slot)

/-- There is one prompt run: the state of the slot decides on each step. -/
theorem promptStep_functional (report : DcdReport) (slot : Slot) :
    Functional (PromptStep report slot) := by
  intro source op target other after first second
  obtain ⟨_, rfl, taken⟩ := first
  obtain ⟨_, rfl, again⟩ := second
  exact ⟨rfl, Except.ok.inj (taken.symm.trans again)⟩

/-! ## Answers -/

/-- The event that ends a command is the status that its state waits for. -/
theorem ownStatus_status (command : Command) (handle : UInt32) (result : UInt16) :
    ownStatus command.stateOf (command.status handle result) = some result := by
  cases command <;> rfl

/-- A status of the kind of a command is the event that ends it. -/
theorem status_of_ownStatus {command : Command} {packet : ConfigEvent} {result : UInt16}
    (own : ownStatus command.stateOf packet = some result) (kind : packet.kind = command.kind) :
    ∃ handle, packet = command.status handle result := by
  cases packet with
  | dcdData handle page data len => cases command <;> cases own
  | dcdDataEnd handle other =>
      cases command with
      | getDcd netkey server page =>
          cases own
          exact ⟨handle, rfl⟩
      | _ => cases own
  | status heard handle other =>
      refine ⟨handle, ?_⟩
      have same : result = other := by
        cases command <;> cases heard <;> cases own <;> rfl
      have named : command.kind = some heard := kind.symm
      rw [Command.status, named, same]
  | other id => cases command <;> cases own

/-- No callback looks at the handle of the event. -/
theorem slotEvent_handle (manager : MngState) (slot : Slot) (command : Command)
    (handle other : UInt32) (result : UInt16) (input : EventInput) (cache : ConfigCache)
    (host : Host) :
    slotEvent manager slot (command.status handle result) input cache host =
      slotEvent manager slot (command.status other result) input cache host := by
  unfold slotEvent
  cases found : asGet cache.state with
  | nil => rfl
  | cons ops rest =>
      have member := known_of_asGet found
      unfold Command.status
      simp only [accStates, List.mem_cons, List.not_mem_nil, or_false] at member
      cases command.kind with
      | none => rcases member with rfl | rfl | rfl | rfl | rfl | rfl | rfl | rfl | rfl <;> rfl
      | some kind =>
          rcases member with rfl | rfl | rfl | rfl | rfl | rfl | rfl | rfl | rfl
          all_goals cases kind <;> rfl

/-! ## The page -/

section

variable {cache other after : ConfigCache} {host between host' : Host}

/-- Only what is read of a page matters. -/
theorem storePage_congr {data data' : Bytes.Memory} {len len' : UInt8}
    (same : ∀ id, cache.node = some id → dcdStore 256 data len (host.db.heap id).func =
      dcdStore 256 data' len' (host.db.heap id).func) :
    storePage data len cache host = storePage data' len' cache host := by
  cases here : cache.node with
  | none => simp only [storePage, Host.nodeOf, here, error_bind]
  | some id => simp only [storePage, Host.nodeOf, here, ok_bind, same id here]

theorem slotEvent_page {manager : MngState} {slot : Slot} {handle handle' : UInt32}
    {data data' : Bytes.Memory} {len len' : UInt8} {input : EventInput}
    (same : ∀ id, cache.node = some id → dcdStore 256 data len (host.db.heap id).func =
      dcdStore 256 data' len' (host.db.heap id).func) :
    slotEvent manager slot (.dcdData handle 0 data len) input cache host =
      slotEvent manager slot (.dcdData handle' 0 data' len') input cache host := by
  have stored : storePage data len cache.timerClear host =
      storePage data' len' cache.timerClear host := storePage_congr same
  unfold slotEvent
  cases found : asGet cache.state with
  | nil => rfl
  | cons ops rest =>
      have member := known_of_asGet found
      simp only [accStates, List.mem_cons, List.not_mem_nil, or_false] at member
      rcases member with rfl | rfl | rfl | rfl | rfl | rfl | rfl | rfl | rfl
      · simp only [eventInprg, asGetDcd, getdcdInprg, stored]
      all_goals rfl

/-! The bits of the models of a page are added to those that the record has.  A second reading
adds nothing. -/

theorem readSigModels_func (data : Bytes.Memory) (count : Nat) (i : UInt8) (func : BitVec 8) :
    readSigModels data count i func =
      ((readSigModels data count i 0).1, (readSigModels data count i 0).2.1,
        func ||| (readSigModels data count i 0).2.2) := by
  induction count generalizing i func with
  | zero => simp [readSigModels]
  | succ count hypothesis =>
      simp only [readSigModels]
      rw [hypothesis (i + 2) (func ||| _), hypothesis (i + 2) (0 ||| _)]
      simp [BitVec.or_assoc]

theorem readElement_func (data : Bytes.Memory) (i : UInt8) (func : BitVec 8) :
    readElement data i func =
      ((readElement data i 0).1, (readElement data i 0).2.1,
        func ||| (readElement data i 0).2.2) := by
  simp only [readElement]
  rw [readSigModels_func data (data i.toNat).toNat (i + 2) func]

theorem readElements_func (data : Bytes.Memory) (count : Nat) (i : UInt8) (func : BitVec 8) :
    readElements data count i func =
      ((readElements data count i 0).1, (readElements data count i 0).2.1,
        func ||| (readElements data count i 0).2.2) := by
  induction count generalizing i func with
  | zero => simp [readElements]
  | succ count hypothesis =>
      simp only [readElements]
      rw [readElement_func data i func]
      rw [hypothesis _ (func ||| _), hypothesis _ (readElement data i 0).2.2]
      simp [BitVec.or_assoc]

/-- A page that is stored once more is read the same, and adds no bit. -/
theorem dcdStore_again {data : Bytes.Memory} {len : UInt8} {func added : BitVec 8} {dcd : Dcd}
    (stores : dcdStore 256 data len func = some (dcd, added)) :
    dcdStore 256 data len added = some (dcd, added) := by
  unfold dcdStore at stores ⊢
  cases counted : countElements (data 12) (data 13) len 256 14 0 with
  | none => simp [counted] at stores
  | some count =>
      simp only [counted, Option.some.injEq, Prod.mk.injEq] at stores ⊢
      rw [readElements_func] at stores
      obtain ⟨rfl, rfl⟩ := stores
      rw [readElements_func]
      refine ⟨rfl, ?_⟩
      simp [BitVec.or_assoc]

/-- The page of the report has been stored: to store it once more changes nothing. -/
def Restored (report : DcdReport) (cache : ConfigCache) (host : Host) : Prop :=
  ∃ after host', storePage report.data report.len cache host = .ok (after, host') ∧
    Alike cache after host host'

theorem Restored.moved {report : DcdReport} (restored : Restored report cache host)
    (alike : Alike cache other host between) : Restored report other between := by
  obtain ⟨after, host', stores, same⟩ := restored
  obtain ⟨after', between', again, onward⟩ := storePage_alike alike stores
  exact ⟨after', between', again, (alike.symm.trans same).trans onward⟩

theorem update_same (db : CfgDb) (id : NodeId) {change : Node → Node}
    (same : change (db.heap id) = db.heap id) : db.update id change = db := by
  rw [CfgDb.update, same, Function.update_eq_self]

/-- To store a page whose data are there changes nothing. -/
theorem storePage_marked {data : Bytes.Memory} {len : UInt8} {id : NodeId} {func : BitVec 8}
    {dcd : Dcd} {db : CfgDb} (here : cache.node = some id)
    (read : dcdStore 256 data len func = some (dcd, func)) (marked : (db.heap id).func = func)
    (addressed : dcd.elementCnt ≠ 0 → ∃ record,
      db.cfgdbNodeGet (db.heap id).addr = some record ∧ (db.heap record).func = func) :
    storePage data len { cache with dcd := dcd } { host with db := db } =
      .ok ({ cache with dcd := dcd }, { host with db := db }) := by
  have own : (db.update id fun node => { node with func := func }) = db := by
    apply update_same
    rw [← marked]
  have found : Host.nodeOf { host with db := db } { cache with dcd := dcd } =
      .ok (id, db.heap id) := by
    dsimp only [Host.nodeOf]
    rw [here]
  simp only [storePage, found, ok_bind, marked, read, own]
  by_cases empty : dcd.elementCnt = 0
  · simp only [empty, if_true]
  · obtain ⟨record, addressee, same⟩ := addressed empty
    have other : (db.update record fun node => { node with func := func }) = db := by
      apply update_same
      rw [← same]
    simp only [empty, if_false, CfgDb.nodesetFunc, CfgDb.nodeset, addressee, other, ok_bind]

theorem update_func (db : CfgDb) (record other : NodeId) {func : BitVec 8}
    (marked : (db.heap other).func = func) :
    ((db.update record fun node => { node with func := func }).heap other).func = func ∧
      ((db.update record fun node => { node with func := func }).heap other).addr =
        (db.heap other).addr := by
  by_cases same : other = record
  · rw [same, CfgDb.heap_update_self]
    exact ⟨rfl, rfl⟩
  · rw [CfgDb.heap_update_of_ne _ _ same]
    exact ⟨marked, rfl⟩

/-- After the page is stored, it is. -/
theorem storePage_restored {report : DcdReport}
    (stores : storePage report.data report.len cache host = .ok (after, host')) :
    Restored report after host' := by
  refine ⟨after, host', ?_, ⟨rfl, rfl⟩⟩
  simp only [storePage, bind_ok] at stores
  obtain ⟨⟨id, node⟩, found, stores⟩ := stores
  obtain ⟨here, rfl⟩ := nodeOf_eq found
  cases read : dcdStore 256 report.data report.len (host.db.heap id).func with
  | none => simp [read] at stores
  | some pair =>
      obtain ⟨dcd, func⟩ := pair
      have again := dcdStore_again read
      have marked : ((host.db.update id fun node => { node with func := func }).heap id).func =
          func := by rw [CfgDb.heap_update_self]
      simp only [read] at stores
      by_cases empty : dcd.elementCnt = 0
      · simp only [empty, if_true, ok_bind, Except.ok.injEq, Prod.mk.injEq] at stores
        obtain ⟨rfl, rfl⟩ := stores
        exact storePage_marked here again marked fun elements => absurd empty elements
      · simp only [empty, if_false, bind_ok, Except.ok.injEq, Prod.mk.injEq] at stores
        obtain ⟨db, writes, rfl, rfl⟩ := stores
        obtain ⟨record, there, changed⟩ := CfgDb.nodeset_eq writes
        obtain ⟨own, addr⟩ := update_func _ record id marked
        rw [← changed] at own addr
        refine storePage_marked here again own fun _ => ⟨record, ?_, ?_⟩
        · rw [addr, CfgDb.heap_update_self, changed, CfgDb.cfgdbNodeGet, CfgDb.get_update]
          exact there
        · rw [changed, CfgDb.heap_update_self]

end

end Nwmng
