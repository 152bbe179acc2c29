/-
Module: Nwmng.Cfg.CfgRuns
Purpose: Whatever the program and the people who edit its files do, a tree in memory is
saved when it is written, the keys of the configuration are those of its tree, and the
records are allotted.
Trusted boundary: none
Main exports:
  CfgOp, CfgOp.run, ProvHeld, NodesHeld, CfgHeld.of_run
-/
import Nwmng.Cfg.Clrctl
import Nwmng.Lib.Execution

namespace Nwmng

open Json Fallible Transition

/-! ## The operations -/

/-- What is done with the two files: by somebody who edits them, and by the program.  The edits
replace the file as a whole, so nothing is assumed about what is in it later. -/
inductive CfgOp where
  | editProv (file : SavedFile)
  | loadProv (force : Bool) (clock : SaveClock)
  | writeProv (clock : SaveClock) (write : ProvWrite)
  | editNodes (file : SavedFile)
  | loadNodes (env : LoadEnv) (force : Bool) (clock : SaveClock)
  | callNode (call : NodeCall)
  | backlogDev (clock : SaveClock) (uuid : Uuid)
  | nodesRmall (clock : SaveClock)
  | nodesRmblclr (clock : SaveClock)
  | cfgClrctl (input : ClrInput)

namespace CfgOp

def onProv (state : CfgState) (step : ProvState → Except Abort (Bool × ProvState)) :
    Except Abort CfgState := do
  let (_, prov) ← step state.prov
  .ok { state with prov := prov }

def onNodes (state : CfgState) (step : NodesState → Except Abort (Bool × NodesState)) :
    Except Abort CfgState := do
  let (_, nodes) ← step state.nodes
  .ok { state with nodes := nodes }

def run (state : CfgState) : CfgOp → Except Abort CfgState
  | .editProv file => .ok { state with prov := { state.prov with file := file } }
  | .loadProv true clock => onProv state (·.loadCfgFile clock)
  | .loadProv false clock => onProv state (·.loadCfg clock)
  | .writeProv clock write => onProv state (·.write clock write)
  | .editNodes file => .ok { state with nodes := { state.nodes with file := file } }
  | .loadNodes env force clock => onNodes state (·.loadCfg env force clock)
  | .callNode call => do
      let nodes ← call.run state.nodes
      .ok { state with nodes := nodes }
  | .backlogDev clock uuid => do
      let nodes ← state.nodes.backlogDev clock uuid
      .ok { state with nodes := nodes }
  | .nodesRmall clock => onNodes state (·.nodesRmall clock)
  | .nodesRmblclr clock => onNodes state (·.nodesRmblclr clock)
  | .cfgClrctl input => do
      let (_, state) ← Nwmng.cfgClrctl input state
      .ok state

end CfgOp

/-- The program before it has opened its files. -/
def CfgState.zeroed (prov nodes : SavedFile) : CfgState where
  prov := .zeroed prov
  nodes := { db := .cfgdbInit, nw := .zeroed, file := nodes }

/-!
## The provisioner

Whoever writes a tree in memory has its save called at once, and both hold the keys of the
configuration.  An edit from outside changes the file only, so it needs no case of its own.
-/

/-- A tree in memory holds the keys of the configuration and is saved when it is
written. -/
structure ProvHeld (prov : ProvState) : Prop where
  keyed : ∀ root, prov.json.root = some root →
    ∃ subnet primary rest items, KeyedTree root prov.cfg subnet primary rest items
  autoflush : prov.json.root.isSome = true → prov.json.autoflush = true

theorem KeyedTree.write {root primary : Value} {cfg : ProvCfg} {subnet : Subnet}
    {rest items : List Value} (tree : KeyedTree root cfg subnet primary rest items)
    (write : ProvWrite) :
    ∃ cfg' root', write.run cfg root = .ok (cfg', root') ∧
      ∃ subnet' primary' rest' items', KeyedTree root' cfg' subnet' primary' rest' items' := by
  have key : ∀ refid (change : Meshkey → Meshkey) (name : String) (text : List Char),
      (∀ obj before, KeyNumbers obj before →
        KeyNumbers (kvReplace name text obj) (change before)) →
      ∃ cfg' root', provselfSetappkey refid change name text cfg root = .ok (cfg', root') ∧
        ∃ subnet' primary' rest' items',
          KeyedTree root' cfg' subnet' primary' rest' items' := by
    intro refid change name text keeps
    cases found : keyPlace refid subnet with
    | some place =>
        obtain ⟨root', run, _, after⟩ := tree.setAppkey found keeps
        exact ⟨_, root', run, _, _, _, _, after⟩
    | none =>
        obtain ⟨tail, isCfg⟩ := List.head?_eq_some_iff.mp tree.held
        unfold keyPlace at found
        refine ⟨cfg, root, ?_, _, _, _, _, tree⟩
        simp only [provselfSetappkey, isCfg, found]
  cases write with
  | addr value =>
      exact ⟨_, _, rfl, _, _, _, _, tree.set_beside (of_decide_eq_true rfl) _ rfl⟩
  | ivi value =>
      exact ⟨_, _, rfl, _, _, _, _, tree.set_beside (of_decide_eq_true rfl) _ rfl⟩
  | netkeyId value =>
      obtain ⟨root', run, _, after⟩ := tree.setNetkey (of_decide_eq_true rfl)
        (fun _ _ numbers => numbers.writeId value)
      exact ⟨_, root', run, _, _, _, _, after⟩
  | netkeyVal value =>
      obtain ⟨root', run, _, after⟩ := tree.setNetkey (of_decide_eq_true rfl)
        (fun _ _ numbers => numbers.writeVal value)
      exact ⟨_, root', run, _, _, _, _, after⟩
  | netkeyDone value =>
      obtain ⟨root', run, _, after⟩ := tree.setNetkey (of_decide_eq_true rfl)
        (fun _ _ numbers => numbers.writeDone value)
      exact ⟨_, root', run, _, _, _, _, after⟩
  | appkeyId refid value => exact key _ _ _ _ fun _ _ numbers => numbers.writeId value
  | appkeyDone refid value => exact key _ _ _ _ fun _ _ numbers => numbers.writeDone value

namespace ProvHeld

variable {prov after : ProvState} {loaded : Bool}

/-- A new tree that holds the keys. -/
theorem flush (held : ProvHeld prov) (clock : SaveClock) :
    ProvHeld (prov.jsonCfgFlush clock) := by
  unfold ProvState.jsonCfgFlush
  cases isRoot : prov.json.root with
  | none => exact held
  | some root =>
      obtain ⟨subnet, primary, rest, items, tree⟩ := held.keyed root isRoot
      constructor
      · intro root' same
        cases same
        exact ⟨subnet, primary, rest, items, tree.set_beside (of_decide_eq_true rfl) _ rfl⟩
      · intro _
        apply held.autoflush
        rw [isRoot]
        rfl

/-- A write of a tree that holds the keys, and its save. -/
theorem written {prov : ProvState} {cfg : ProvCfg} {root : Value} (clock : SaveClock)
    (keyed : ∃ subnet primary rest items, KeyedTree root cfg subnet primary rest items)
    (autoflush : prov.json.autoflush = true) :
    ProvHeld
      (if prov.json.autoflush then
        ({ prov with cfg := cfg, json := { prov.json with root := some root } } :
          ProvState).jsonCfgFlush clock
      else { prov with cfg := cfg, json := { prov.json with root := some root } }) := by
  have changed : ProvHeld
      { prov with cfg := cfg, json := { prov.json with root := some root } } := by
    constructor
    · intro root' same
      cases same
      exact keyed
    · intro _
      exact autoflush
  rw [if_pos autoflush]
  exact changed.flush clock

theorem jsonCfgOpen (opens : prov.jsonCfgOpen = .ok (loaded, after)) : ProvHeld after := by
  have closed : ∀ {cfg : ProvCfg} {file : SavedFile} {stamp : UInt32},
      ProvHeld ⟨cfg, ⟨none, stamp, true⟩, file⟩ := by
    intro cfg file stamp
    constructor
    · intro root impossible
      cases impossible
    · intro _
      rfl
  unfold ProvState.jsonCfgOpen at opens
  split at opens
  · cases opens
    exact closed
  · cases opens
    exact closed
  · simp only [bind_ok] at opens
    obtain ⟨stamp, _, result, loads, opens⟩ := opens
    cases result with
    | none =>
        cases opens
        exact closed
    | some cfg =>
        cases opens
        constructor
        · intro root same
          cases same
          exact keyedTree_of_load loads
        · intro _
          rfl

theorem loadCfgFile {clock : SaveClock} (loads : prov.loadCfgFile clock = .ok (loaded, after)) :
    ProvHeld after := by
  simp only [ProvState.loadCfgFile, bind_ok] at loads
  obtain ⟨⟨isLoaded, opened⟩, opens, result⟩ := loads
  have held := jsonCfgOpen opens
  cases isLoaded with
  | false =>
      cases result
      exact held
  | true =>
      cases result
      exact held.flush clock

theorem loadCfg (held : ProvHeld prov) {clock : SaveClock}
    (loads : prov.loadCfg clock = .ok (loaded, after)) : ProvHeld after := by
  unfold ProvState.loadCfg at loads
  split at loads
  · cases loads
    exact held.flush clock
  · exact loadCfgFile loads

theorem write (held : ProvHeld prov) {clock : SaveClock} {write : ProvWrite}
    (done : prov.write clock write = .ok (loaded, after)) : ProvHeld after := by
  unfold ProvState.write at done
  cases isRoot : prov.json.root with
  | none =>
      rw [isRoot] at done
      cases done
      exact held
  | some root =>
      obtain ⟨subnet, primary, rest, items, tree⟩ := held.keyed root isRoot
      obtain ⟨cfg', root', run, keyed⟩ := tree.write write
      rw [isRoot] at done
      dsimp only at done
      rw [run, ok_bind] at done
      cases done
      exact written clock keyed (held.autoflush (by rw [isRoot]; rfl))

theorem clrctl (held : ProvHeld prov) {clock : SaveClock}
    (done : prov.clrctl clock = .ok (loaded, after)) : ProvHeld after := by
  unfold ProvState.clrctl at done
  cases isRoot : prov.json.root with
  | none =>
      rw [isRoot] at done
      cases done
      exact held
  | some root =>
      obtain ⟨subnet, primary, rest, items, tree⟩ := held.keyed root isRoot
      obtain ⟨cfg', root', run, cleared⟩ := provselfClrctl_spec tree
      obtain ⟨_, primary', items', _, keyed, _⟩ := cleared.keyed
      rw [isRoot] at done
      dsimp only at done
      rw [run, ok_bind] at done
      cases done
      exact written clock ⟨_, _, _, _, keyed⟩ (held.autoflush (by rw [isRoot]; rfl))

end ProvHeld

/-! ## The nodes -/

/-- A property of the database that the load of an entry keeps.  A load of the file is a series
of such loads, so it keeps the property too. -/
def KeptByLoads (property : CfgDb → Prop) : Prop :=
  ∀ db entry backlog, property db → property (db.loadNode entry backlog)

namespace KeptByLoads

variable {property : CfgDb → Prop} {db after : CfgDb}

theorem item (kept : KeptByLoads property) (holds : property db) {templates : Templates}
    {fresh : UInt64} {backlog : Bool} {item : Value}
    (round : loadNodeItem templates fresh backlog item db = .ok after) : property after := by
  rcases loadNodeItem_parsed round with ⟨_, same⟩ | ⟨entry, _, same⟩
  · rw [same]
    exact holds
  · rw [same]
    exact kept db entry backlog holds

theorem array (kept : KeptByLoads property) {templates : Templates} {fresh : Nat → UInt64}
    {backlog : Bool} {items : List Value} {index : Nat} {db after : CfgDb} (holds : property db)
    (done : loadNodeArr templates fresh backlog index items db = .ok after) :
    property after := by
  induction items generalizing index db with
  | nil =>
      cases done
      exact holds
  | cons item rest hypothesis =>
      simp only [loadNodeArr, bind_ok] at done
      obtain ⟨middle, first, later⟩ := done
      exact hypothesis (kept.item holds first) later

theorem value (kept : KeptByLoads property) {env : LoadEnv} {backlog : Bool}
    {value : Option Value} (holds : property db)
    (done : loadNodeValue env backlog value db = .ok after) : property after := by
  unfold loadNodeValue at done
  split at done
  · cases done
    exact holds
  · exact kept.array holds done
  · cases done

theorem nodes (kept : KeptByLoads property) {env : LoadEnv} {nw : NwCfg} {loaded : Bool}
    (holds : property db) (done : loadNodes env nw db = .ok (loaded, after)) :
    property after := by
  unfold loadNodes at done
  split at done
  · cases done
    exact holds
  · cases done
  · cases found : nw.firstNodes with
    | none =>
        rw [found] at done
        cases done
        exact holds
    | some value =>
        rw [found] at done
        simp only [bind_ok] at done
        obtain ⟨middle, first, last, backlog, same⟩ := done
        cases same
        have before := kept.value holds first
        unfold loadBacklog at backlog
        split at backlog
        · cases backlog
          exact before
        · exact kept.value before backlog
        · cases backlog

/-- `json_cfg_open` clears the trees first, when it is told to. -/
theorem jsonCfgOpen (kept : KeptByLoads property)
    (clears : ∀ db, property db → property db.cfgdbRemoveAllNodes.cfgdbRemoveAllUpl)
    {env : LoadEnv} {force loaded : Bool} {file : SavedFile} {nw opened : NwCfg}
    (holds : property db)
    (opens : jsonCfgOpen env force file nw db = .ok (loaded, opened, after)) :
    property after := by
  unfold Nwmng.jsonCfgOpen at opens
  split at opens
  · cases opens
    exact holds
  · simp only [reloadNodesFile, bind_ok] at opens
    obtain ⟨⟨isOpen, middle⟩, _, opens⟩ := opens
    cases isOpen with
    | false =>
        cases opens
        exact holds
    | true =>
        simp only [if_true, bind_ok] at opens
        obtain ⟨⟨isLoaded, last⟩, loads, result⟩ := opens
        cases result
        unfold loadJsonFile at loads
        cases force with
        | true => exact kept.nodes (clears db holds) loads
        | false => exact kept.nodes holds loads

end KeptByLoads

theorem keptByLoads_allotted : KeptByLoads Allotted :=
  fun _ entry backlog allotted => @Allotted.run _ _ allotted (.loadNode entry backlog) rfl

/-- A tree in memory is saved when it is written, and the records are allotted.  Both hold from
the first load on, whatever was loaded. -/
structure NodesHeld (nodes : NodesState) : Prop where
  autoflush : nodes.nw.tree.isSome = true → nodes.nw.autoflush = true
  allotted : Allotted nodes.db

namespace NodesHeld

variable {nodes after : NodesState} {loaded : Bool}

/-- A tree that is written where it stands. -/
theorem amend (held : NodesHeld nodes) (path : List Step) (change : Value → Value) :
    NodesHeld { nodes with nw := nodes.nw.amend path change } where
  autoflush := by
    intro present
    apply held.autoflush
    simpa [NwCfg.amend] using present
  allotted := held.allotted

theorem flush (held : NodesHeld nodes) (clock : SaveClock) : NodesHeld (nodes.flush clock) := by
  obtain ⟨autoflush, allotted⟩ := held
  obtain ⟨db, nw, file⟩ := nodes
  unfold NodesState.flush jsonCfgFlush
  cases isTree : nw.tree with
  | none =>
      constructor
      · exact autoflush
      · exact allotted
  | some tree =>
      constructor
      · intro _
        apply autoflush
        rw [isTree]
        rfl
      · exact allotted

theorem autoFlush (held : NodesHeld nodes) (clock : SaveClock) :
    NodesHeld (nodes.autoFlush clock) := by
  unfold NodesState.autoFlush
  split
  · exact held.flush clock
  · exact held

theorem jsonCfgOpen (held : NodesHeld nodes) {env : LoadEnv} {force : Bool}
    (opens : nodes.jsonCfgOpen env force = .ok (loaded, after)) : NodesHeld after := by
  simp only [NodesState.jsonCfgOpen, bind_ok] at opens
  obtain ⟨⟨isLoaded, nw, db⟩, opens, result⟩ := opens
  cases result
  have allotted := keptByLoads_allotted.jsonCfgOpen (fun _ => Allotted.cleared) held.allotted opens
  unfold Nwmng.jsonCfgOpen at opens
  split at opens
  · cases opens
    exact held
  · refine ⟨?_, allotted⟩
    have tree := reload_tree opens
    intro present
    cases isLoaded with
    | true => exact tree.2
    | false =>
        have absent : nw.tree = none := tree
        rw [absent] at present
        cases present

theorem loadCfg (held : NodesHeld nodes) {env : LoadEnv} {force : Bool} {clock : SaveClock}
    (loads : nodes.loadCfg env force clock = .ok (loaded, after)) : NodesHeld after := by
  simp only [NodesState.loadCfg, bind_ok] at loads
  obtain ⟨⟨isLoaded, opened⟩, opens, result⟩ := loads
  have heldAfter := held.jsonCfgOpen opens
  cases isLoaded with
  | false =>
      cases result
      exact heldAfter
  | true =>
      cases result
      exact heldAfter.flush clock

theorem writeAll (held : NodesHeld nodes) {clock : SaveClock} {edit : Value → Except Abort Value}
    (done : nodes.writeAll clock edit = .ok (loaded, after)) : NodesHeld after := by
  unfold NodesState.writeAll at done
  split at done
  · cases done
    exact held
  · simp only [bind_ok] at done
    obtain ⟨nw, edits, result⟩ := done
    cases result
    unfold NwCfg.editNodes at edits
    split at edits
    · cases edits
    · cases edits
    · split at edits
      · obtain ⟨edited, _, same⟩ := bind_ok.mp edits
        cases same
        exact (held.amend _ _).autoFlush clock
      · cases edits

theorem nodesClrctl (held : NodesHeld nodes) {env : LoadEnv} {first second : SaveClock}
    (done : nodes.nodesClrctl env first second = .ok (loaded, after)) : NodesHeld after := by
  simp only [NodesState.nodesClrctl, bind_ok] at done
  obtain ⟨⟨written, middle⟩, writes, done⟩ := done
  have heldMiddle := held.writeAll writes
  cases written with
  | false =>
      cases done
      exact heldMiddle
  | true =>
      simp only [if_true, bind_ok] at done
      obtain ⟨⟨isLoaded, opened⟩, opens, result⟩ := done
      have heldAfter := heldMiddle.jsonCfgOpen opens
      cases isLoaded with
      | false =>
          cases result
          exact heldAfter
      | true =>
          cases result
          exact heldAfter.autoFlush second

/-- The records may change, as long as they are allotted. -/
theorem onDb (held : NodesHeld nodes) {db : CfgDb} (allotted : Allotted db) :
    NodesHeld { nodes with db := db } where
  autoflush := held.autoflush
  allotted := allotted

theorem backlogDev (held : NodesHeld nodes) {clock : SaveClock} {uuid : Uuid}
    (done : nodes.backlogDev clock uuid = .ok after) : NodesHeld after := by
  unfold NodesState.backlogDev at done
  split at done
  · cases done
    exact held
  · cases done
  · cases done
  · split at done
    · rename_i items _
      have heldAmended := held.amend [.member strBacklog] fun _ =>
        .array (items ++ [backlogObject uuid])
      cases done
      exact (heldAmended.onDb (held.allotted.backlogNodeAdd uuid)).autoFlush clock
    · cases done

theorem writeField (held : NodesHeld nodes) {input : WriteInput} {uuid : Uuid}
    {field : NodeField} (done : nodes.writeField input uuid field = .ok after) :
    NodesHeld after := by
  unfold NodesState.writeField at done
  split at done
  · cases done
    exact held
  · simp only [bind_ok, writeNodes, setNodeField, modifyNodeField] at done
    obtain ⟨⟨nw, file⟩, ⟨⟨found, middle⟩, ⟨place, _, writes⟩, saves⟩, result⟩ := done
    cases result
    have heldMiddle : NodesHeld { nodes with nw := middle } := by
      cases place with
      | none =>
          cases writes
          exact held
      | some index =>
          cases writes
          exact held.amend _ _
    dsimp only at saves
    split at saves
    · have flushed := heldMiddle.flush input.clock
      have same := Except.ok.inj saves
      unfold NodesState.flush at flushed
      rw [same] at flushed
      exact flushed
    · cases saves
      constructor
      · exact heldMiddle.autoflush
      · exact held.allotted

theorem onNode (held : NodesHeld nodes) {input : WriteInput} {addr : UInt16}
    {change : CfgDb → Except Abort CfgDb} {field : Node → NodeField}
    (keeps : ∀ db, change nodes.db = .ok db → Allotted db)
    (done : nodes.onNode input addr change field = .ok after) : NodesHeld after := by
  unfold NodesState.onNode at done
  split at done
  · simp only [bind_ok] at done
    obtain ⟨db, changed, writes⟩ := done
    exact (held.onDb (keeps db changed)).writeField writes
  · cases done

theorem callNode (held : NodesHeld nodes) {call : NodeCall}
    (done : call.run nodes = .ok after) : NodesHeld after := by
  obtain ⟨write, input, second⟩ := call
  cases write with
  | uplNodesetAddr uuid addr =>
      simp only [NodeCall.run, NodesState.uplNodesetAddr, bind_ok] at done
      obtain ⟨middle, writes, db, changed, result⟩ := done
      cases result
      have heldMiddle := held.writeField writes
      exact heldMiddle.onDb (@Allotted.run _ _ heldMiddle.allotted (.uplNodesetAddr uuid addr)
        changed)
  | nodesRm addr =>
      unfold NodeCall.run NodesState.nodesRm at done
      exact held.onNode (fun _ => @Allotted.run _ _ held.allotted (.nodesRm addr)) done
  | nodesBl addr =>
      simp only [NodeCall.run, NodesState.nodesBl] at done
      split at done
      · simp only [bind_ok] at done
        obtain ⟨db, changed, middle, first, last⟩ := done
        have heldDb := held.onDb (@Allotted.run _ _ held.allotted (.nodesBl addr) changed)
        exact (heldDb.writeField first).writeField last
      · cases done
  | nodesetErrbits addr err =>
      unfold NodeCall.run NodesState.nodesetErrbits at done
      exact held.onNode (fun _ => held.allotted.nodeset) done
  | nodesetDone addr value =>
      unfold NodeCall.run NodesState.nodesetDone at done
      exact held.onNode (fun _ => held.allotted.nodeset) done
  | nodesetFunc addr func =>
      unfold NodeCall.run NodesState.nodesetFunc at done
      exact held.onNode (fun _ => held.allotted.nodeset) done

end NodesHeld

/-! ## Both -/

structure CfgHeld (state : CfgState) : Prop where
  prov : ProvHeld state.prov
  nodes : NodesHeld state.nodes

namespace CfgHeld

variable {state after : CfgState}

theorem zeroed (prov nodes : SavedFile) : CfgHeld (.zeroed prov nodes) where
  prov := by
    constructor
    · intro root impossible
      cases impossible
    · intro impossible
      cases impossible
  nodes := by
    constructor
    · intro impossible
      cases impossible
    · exact Allotted.init

theorem onProv (held : CfgHeld state) {step : ProvState → Except Abort (Bool × ProvState)}
    (keeps : ∀ {loaded prov}, step state.prov = .ok (loaded, prov) → ProvHeld prov)
    (done : CfgOp.onProv state step = .ok after) : CfgHeld after := by
  simp only [CfgOp.onProv, bind_ok] at done
  obtain ⟨⟨loaded, prov⟩, steps, result⟩ := done
  cases result
  exact ⟨keeps steps, held.nodes⟩

theorem onNodes (held : CfgHeld state) {step : NodesState → Except Abort (Bool × NodesState)}
    (keeps : ∀ {loaded nodes}, step state.nodes = .ok (loaded, nodes) → NodesHeld nodes)
    (done : CfgOp.onNodes state step = .ok after) : CfgHeld after := by
  simp only [CfgOp.onNodes, bind_ok] at done
  obtain ⟨⟨loaded, nodes⟩, steps, result⟩ := done
  cases result
  exact ⟨held.prov, keeps steps⟩

theorem cfgClrctl (held : CfgHeld state) {input : ClrInput} {cleared : Bool}
    (done : cfgClrctl input state = .ok (cleared, after)) : CfgHeld after := by
  simp only [Nwmng.cfgClrctl, bind_ok] at done
  obtain ⟨⟨loaded, prov⟩, loadsProv, done⟩ := done
  have heldProv := held.prov.loadCfg loadsProv
  cases loaded with
  | false =>
      cases done
      exact ⟨heldProv, held.nodes⟩
  | true =>
      simp only [Bool.not_true, Bool.false_eq_true, if_false, bind_ok] at done
      obtain ⟨⟨loaded, nodes⟩, loadsNodes, done⟩ := done
      have heldNodes := held.nodes.loadCfg loadsNodes
      cases loaded with
      | false =>
          cases done
          exact ⟨heldProv, heldNodes⟩
      | true =>
          simp only [Bool.not_true, Bool.false_eq_true, if_false, bind_ok] at done
          obtain ⟨⟨written, prov'⟩, clearsProv, done⟩ := done
          have clearedProv := heldProv.clrctl clearsProv
          cases written with
          | false =>
              cases done
              exact ⟨clearedProv, heldNodes⟩
          | true =>
              simp only [Bool.not_true, Bool.false_eq_true, if_false, bind_ok] at done
              obtain ⟨⟨written, nodes'⟩, clearsNodes, result⟩ := done
              cases result
              exact ⟨clearedProv, heldNodes.nodesClrctl clearsNodes⟩

theorem step (held : CfgHeld state) {op : CfgOp} (done : op.run state = .ok after) :
    CfgHeld after := by
  cases op with
  | editProv file =>
      cases done
      exact ⟨⟨held.prov.keyed, held.prov.autoflush⟩, held.nodes⟩
  | loadProv force clock =>
      cases force with
      | true => exact held.onProv ProvHeld.loadCfgFile done
      | false => exact held.onProv held.prov.loadCfg done
  | writeProv clock write => exact held.onProv held.prov.write done
  | editNodes file =>
      cases done
      exact ⟨held.prov, ⟨held.nodes.autoflush, held.nodes.allotted⟩⟩
  | loadNodes env force clock => exact held.onNodes held.nodes.loadCfg done
  | callNode call =>
      obtain ⟨nodes, steps, result⟩ := bind_ok.mp done
      cases result
      exact ⟨held.prov, held.nodes.callNode steps⟩
  | backlogDev clock uuid =>
      obtain ⟨nodes, steps, result⟩ := bind_ok.mp done
      cases result
      exact ⟨held.prov, held.nodes.backlogDev steps⟩
  | nodesRmall clock => exact held.onNodes held.nodes.writeAll done
  | nodesRmblclr clock => exact held.onNodes held.nodes.writeAll done
  | cfgClrctl input =>
      obtain ⟨⟨cleared, final⟩, steps, result⟩ := bind_ok.mp done
      cases result
      exact held.cfgClrctl steps

/-- In every run from the start of the program. -/
theorem of_run {prov nodes : SavedFile} {past : List (Move CfgState CfgOp)}
    (run : Execution (Succeeds CfgOp.run) (.zeroed prov nodes) past state) : CfgHeld state := by
  apply (run.invariant _ (zeroed prov nodes)).2
  intro source op target held taken
  exact held.step taken

end CfgHeld

end Nwmng
