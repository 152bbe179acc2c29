/-
Module: Nwmng.Mng.References
Purpose: The records that the manager points to, from its slots, its lists and the table of the
blacklisting, and every step that may free a record or copy a pointer.
Trusted boundary: a provisioned device has an address
Main exports:
  Engine.references, Mng.references, Mng.RecordsHeld, StartInput, startProgram, ManagerOp,
  ManagerRun, ManagerOp.Careful
-/
import Nwmng.Cfg.Lodging
import Nwmng.Mng.CursorRuns
import Nwmng.Mng.NwkRuns
import Nwmng.Mng.StatRuns
import Nwmng.Mng.WorkLists

namespace Nwmng

open Fallible Transition

/-!
## Who points to records

The database owns the records.  Slots, lists and the table of the nodes that remain hold plain
copies of its pointers, and nothing counts them: a record is freed when its tree lets go of it,
whoever still points to it.
-/

/-- Some tree of the database holds the record. -/
def CfgDb.Holds (db : CfgDb) (record : NodeId) : Prop := ∃ spot, db.get spot = some record

theorem CfgDb.holds_iff {db : CfgDb} {record : NodeId} :
    db.Holds record ↔ record ∈ db.listed ∨ record ∈ db.backlog.values := by
  constructor
  · rintro ⟨spot, found⟩
    cases spot with
    | unprovDevs uuid => exact .inl (CfgDb.mem_listed.mpr ⟨.unprovDevs uuid, (nomatch ·), found⟩)
    | nodes addr => exact .inl (CfgDb.mem_listed.mpr ⟨.nodes addr, (nomatch ·), found⟩)
    | backlog uuid => exact .inr (CfgDb.mem_values_of_getElem? found)
  · rintro (listed | inBacklog)
    · obtain ⟨spot, _, found⟩ := CfgDb.mem_listed.mp listed
      exact ⟨spot, found⟩
    · obtain ⟨uuid, found⟩ := CfgDb.mem_values inBacklog
      exact ⟨.backlog uuid, found⟩

instance (db : CfgDb) (record : NodeId) : Decidable (db.Holds record) :=
  decidable_of_iff _ CfgDb.holds_iff.symm

/-- The records in the slots and in the lists. -/
def Engine.references (engine : Engine) : List NodeId :=
  engine.managed ++ engine.lists.add ++ engine.lists.bl ++ engine.lists.fail

/-- The records in `bl.rem.nodes`. -/
def BlCache.remaining (bl : BlCache) : List NodeId := (bl.rem.getD []).map Prod.fst

/-- All records that the manager points to. -/
def Mng.references (mng : Mng) : List NodeId := mng.engine.references ++ mng.bl.remaining

/-- Every pointer leads to a record of the database, and the record of an occupied slot waits in
neither of the lists that slots are loaded from. -/
structure Mng.RecordsHeld (mng : Mng) : Prop where
  slots : ∀ slot, mng.engine.occupied slot = true →
    ∀ record, (mng.engine.cache slot).node = some record → mng.db.Holds record
  add : ∀ record ∈ mng.lists.add, mng.db.Holds record
  config : ∀ record ∈ mng.lists.config, mng.db.Holds record
  rm : ∀ record ∈ mng.lists.rm, mng.db.Holds record
  bl : ∀ record ∈ mng.lists.bl, mng.db.Holds record
  fail : ∀ record ∈ mng.lists.fail, mng.db.Holds record
  rem : ∀ record ∈ mng.bl.remaining, mng.db.Holds record
  apart : ∀ slot, mng.engine.occupied slot = true →
    ∀ record, (mng.engine.cache slot).node = some record →
      record ∉ mng.lists.config ∧ record ∉ mng.lists.rm

/-! ## The program -/

/-- What the program finds when it is started: the nodes file, with the templates and the clock;
the configuration of the provisioner; and what the NCP answers. -/
structure StartInput where
  file : SavedFile
  env : LoadEnv
  clock : SaveClock
  prov : ProvState
  nwk : NwkInput

/-- The program up to its main loop: `cfg_init` loads the nodes file by force and goes on whatever
comes of it, `mng_init` clears the manager, and `cli_proc` initializes the network. -/
def startProgram (input : StartInput) : Except Abort AddState := do
  let empty : NodesState := { db := .cfgdbInit, nw := .zeroed, file := input.file }
  let (_, nodes) ← empty.loadCfg input.env true input.clock
  let engine : Engine :=
    { host := { db := nodes.db, cfg := input.prov.cfg, stat := Stat.zeroed, log := [] }
      state := .nil, used := 0, cache := fun _ => .reset, lists := Lists.empty }
  let nwk ← cliProc input.nwk
    { mng := Mng.around engine, nw := nodes.nw, file := nodes.file } input.prov
  .ok { host := nwk.host, scanNeedRecover := false, scanning := false, requests := []
        sessions := [], cut := true }

/-- The commands of the user, the events of the NCP and the parts of the main loop, in any
order. -/
inductive ManagerOp where
  /-- `dev_add_hdr` -/
  | event (news : ProvEvent)
  /-- `dev_config_hdr` -/
  | receive (packet : ConfigEvent) (input : EventInput)
  /-- `bl_hdr` -/
  | refresh (packet : BlEvent) (rsp : KeyRsp)
  | sync (start : Bool)
  | freemode (on : Bool) (result : UInt16)
  | seqset (seq : List Char)
  | rmall (input : FileInput)
  | rmblclr (input : FileInput)
  /-- `info` and the commands for lights: they look records up and keep no pointer -/
  | looksUp
  /-- the main loop in the state `starting` -/
  | starting (input : FileInput)
  | addLoop (now : Nat)
  | accLoop (now : Nat) (input : Slot → RoundInput)
  | blLoop (input : BlInput)
  | setMngState (input : PhaseInput)
  /-- what slots and the blacklisting write to the nodes file, and edits of the file -/
  | files (nw : NwCfg) (file : SavedFile)

namespace ManagerOp

/-- The parts of the main loop run in their states, and an open file is saved when it is
written. -/
def Possible (source : AddState) : ManagerOp → Prop
  | .event (.provisioned _ addr _) => addr ≠ 0
  | .starting _ => source.mng.state = .starting
  | .addLoop _ => source.mng.state = .addingDevicesEm
  | .blLoop _ => source.mng.state = .blacklistingDevicesEm
  | .files nw _ => nw.tree.isSome = true → nw.autoflush = true
  | _ => True

instance (source : AddState) : (op : ManagerOp) → Decidable (op.Possible source)
  | .event (.provisioned _ addr _) => inferInstanceAs (Decidable (addr ≠ 0))
  | .event (.beacon ..) => isTrue trivial
  | .event (.failed ..) => isTrue trivial
  | .starting _ => inferInstanceAs (Decidable (source.mng.state = .starting))
  | .addLoop _ => inferInstanceAs (Decidable (source.mng.state = .addingDevicesEm))
  | .blLoop _ => inferInstanceAs (Decidable (source.mng.state = .blacklistingDevicesEm))
  | .files nw _ => inferInstanceAs (Decidable (nw.tree.isSome = true → nw.autoflush = true))
  | .receive .. => isTrue trivial
  | .refresh .. => isTrue trivial
  | .sync _ => isTrue trivial
  | .freemode .. => isTrue trivial
  | .seqset _ => isTrue trivial
  | .rmall _ => isTrue trivial
  | .rmblclr _ => isTrue trivial
  | .looksUp => isTrue trivial
  | .accLoop .. => isTrue trivial
  | .setMngState _ => isTrue trivial

def run (source : AddState) : ManagerOp → Except Abort AddState
  | .event news => source.devAddHdr news
  | .receive packet input => do
      let engine ← devConfigHdr packet input source.mng.engine
      .ok (source.setMng { source.mng with engine := engine })
  | .refresh packet rsp => do
      let mng ← blHdr packet rsp source.mng
      .ok (source.setMng mng)
  | .sync start => .ok (source.clicbSync start)
  | .freemode on result => .ok (source.followScan (clicbFreemode on result source.mng))
  | .seqset seq => .ok (source.setMng (clicbSeqset seq source.mng))
  | .rmall input => do
      let host ← clicbRmall input source.host
      .ok { source with host := host }
  | .rmblclr input => do
      let host ← clicbRmblclr input source.host
      .ok { source with host := host }
  | .looksUp => .ok source
  | .starting input => source.starting input
  | .addLoop now => .ok (source.addLoop now)
  | .accLoop now input => do
      let engine ← Nwmng.accLoop now input source.mng.engine
      .ok (source.setMng { source.mng with engine := engine })
  | .blLoop input => do
      let mng ← Nwmng.blLoop input source.mng
      .ok (source.setMng mng)
  | .setMngState input => .ok (source.followScan (Nwmng.setMngState input source.mng))
  | .files nw file => .ok { source with host := { source.host with nw := nw, file := file } }

def Step (source : AddState) (op : ManagerOp) (target : AddState) : Prop :=
  op.Possible source ∧ Succeeds ManagerOp.run source op target

end ManagerOp

abbrev ManagerRun := Execution ManagerOp.Step

/-!
## Steps that leave no pointer behind

There are two ways to free a record that somebody points to.  A load by force frees all of them,
and only the lists are made again.  And a record that moves from one tree to another frees the
one that stands at its new place.
-/

/-- All pointers there are will be replaced by a load: no slot is occupied, there is no table,
and the lists are empty or will be made again. -/
structure Mng.Reloadable (mng : Mng) : Prop where
  slots : mng.engine.used = 0
  rem : mng.bl.rem = none
  lists : mng.state.Past ∨ mng.lists = Lists.empty

/-- A node that loses its address takes the place of no record that somebody points to. -/
def CfgDb.RetireSpares (db : CfgDb) (refs : List NodeId) (addr : UInt16) : Prop :=
  ∀ record, db.cfgdbNodeGet addr = some record →
    db.Spares refs (.unprovDevs (db.heap record).uuid)

/-- The same for the node of a slot, in the round that removes it. -/
def Engine.RemovalSpares (engine : Engine) (others : List NodeId) (slot : Slot) : Prop :=
  (engine.cache slot).failed = false →
    firstOpen (engine.cache slot) engine.host = some .rmendEm →
    ∀ record, (engine.cache slot).node = some record →
      engine.host.db.RetireSpares (engine.references ++ others) (engine.host.db.heap record).addr

/-- A device that is provisioned names a template, is not managed yet, and takes the place of no
record that somebody points to. -/
structure Mng.Welcomes (mng : Mng) (uuid : Uuid) (addr : UInt16) : Prop where
  templated : ∀ record, mng.db.cfgdbUnprovDevGet uuid = some record →
    (mng.db.heap record).hasTemplate = true
  unmanaged : ∀ record, mng.db.cfgdbUnprovDevGet uuid = some record →
    record ∉ mng.engine.managed
  spares : mng.db.Spares mng.references (.nodes addr)

/-- The steps that leave no pointer to a freed record behind. -/
def ManagerOp.Careful (source : AddState) : ManagerOp → Prop
  | .event (.provisioned uuid addr _) => source.Listening → source.mng.Welcomes uuid addr
  | .rmall _ => source.mng.state.busy = false → source.host.nw.tree.isSome = true →
      source.mng.state.Past ∨ source.mng.lists = Lists.empty
  | .rmblclr _ => source.host.nw.tree.isSome = true → source.mng.Reloadable
  | .accLoop now input =>
      ∀ prepared, accPrepare now source.mng.engine = some prepared →
        LoopGuarded (fun engine slot => engine.RemovalSpares source.mng.bl.remaining slot)
          (fun engine slot => engineSlot (input slot) engine slot) prepared
          (usedSlots prepared.used)
  | .blLoop _ => source.mng.bl.state = .done →
      LoopGuarded
        (fun db node => db.RetireSpares source.mng.references (db.heap node).addr)
        (fun db node => db.nodesBl (db.heap node).addr) source.mng.db source.mng.batch
  | _ => True

instance (db : CfgDb) (refs : List NodeId) (spot : Spot) : Decidable (db.Spares refs spot) :=
  inferInstanceAs (Decidable (∀ holder, db.get spot = some holder → holder ∉ refs))

instance (db : CfgDb) (refs : List NodeId) (addr : UInt16) :
    Decidable (db.RetireSpares refs addr) :=
  inferInstanceAs (Decidable (∀ record, db.cfgdbNodeGet addr = some record →
    db.Spares refs (.unprovDevs (db.heap record).uuid)))

instance (engine : Engine) (others : List NodeId) (slot : Slot) :
    Decidable (engine.RemovalSpares others slot) :=
  inferInstanceAs (Decidable ((engine.cache slot).failed = false →
    firstOpen (engine.cache slot) engine.host = some .rmendEm →
    ∀ record, (engine.cache slot).node = some record →
      engine.host.db.RetireSpares (engine.references ++ others)
        (engine.host.db.heap record).addr))

instance (mng : Mng) : Decidable mng.Reloadable :=
  decidable_of_iff
    (mng.engine.used = 0 ∧ mng.bl.rem = none ∧ (mng.state.Past ∨ mng.lists = Lists.empty))
    ⟨fun ⟨slots, rem, lists⟩ => ⟨slots, rem, lists⟩,
      fun reloadable => ⟨reloadable.slots, reloadable.rem, reloadable.lists⟩⟩

instance (mng : Mng) (uuid : Uuid) (addr : UInt16) : Decidable (mng.Welcomes uuid addr) :=
  decidable_of_iff
    ((∀ record, mng.db.cfgdbUnprovDevGet uuid = some record →
        (mng.db.heap record).hasTemplate = true) ∧
      (∀ record, mng.db.cfgdbUnprovDevGet uuid = some record →
        record ∉ mng.engine.managed) ∧
      mng.db.Spares mng.references (.nodes addr))
    ⟨fun ⟨templated, unmanaged, spares⟩ => ⟨templated, unmanaged, spares⟩,
      fun welcomes => ⟨welcomes.templated, welcomes.unmanaged, welcomes.spares⟩⟩

instance (source : AddState) : (op : ManagerOp) → Decidable (op.Careful source)
  | .event (.provisioned uuid addr _) =>
      inferInstanceAs (Decidable (source.Listening → source.mng.Welcomes uuid addr))
  | .event (.beacon ..) => isTrue trivial
  | .event (.failed ..) => isTrue trivial
  | .rmall _ =>
      inferInstanceAs (Decidable (source.mng.state.busy = false →
        source.host.nw.tree.isSome = true →
        source.mng.state.Past ∨ source.mng.lists = Lists.empty))
  | .rmblclr _ =>
      inferInstanceAs (Decidable (source.host.nw.tree.isSome = true → source.mng.Reloadable))
  | .accLoop now input =>
      inferInstanceAs (Decidable (∀ prepared, accPrepare now source.mng.engine = some prepared →
        LoopGuarded (fun engine slot => engine.RemovalSpares source.mng.bl.remaining slot)
          (fun engine slot => engineSlot (input slot) engine slot) prepared
          (usedSlots prepared.used)))
  | .blLoop _ =>
      inferInstanceAs (Decidable (source.mng.bl.state = .done →
        LoopGuarded
          (fun db node => db.RetireSpares source.mng.references (db.heap node).addr)
          (fun db node => db.nodesBl (db.heap node).addr) source.mng.db source.mng.batch))
  | .receive .. => isTrue trivial
  | .refresh .. => isTrue trivial
  | .sync _ => isTrue trivial
  | .freemode .. => isTrue trivial
  | .seqset _ => isTrue trivial
  | .looksUp => isTrue trivial
  | .starting _ => isTrue trivial
  | .addLoop _ => isTrue trivial
  | .setMngState _ => isTrue trivial
  | .files .. => isTrue trivial

end Nwmng
