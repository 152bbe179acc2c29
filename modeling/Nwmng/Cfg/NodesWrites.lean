/-
Module: Nwmng.Cfg.NodesWrites
Purpose: The writes that go through all nodes of the file, or to its backlog, and where in
the tree the entries are.
Trusted boundary: none
Main exports:
  nodesRmall, nodesRmblclr, nodesClrctl, backlogDev, nodesOf, backlogOf
-/
import Nwmng.Cfg.FileEdits
import Nwmng.Cfg.Registered

namespace Nwmng

open Json Fallible

/-! ## The functions -/

/-- The loops over the nodes of the first subnet, which change each entry. -/
def NwCfg.editNodes (edit : Value → Except Abort Value) (nw : NwCfg) : Except Abort NwCfg :=
  match nw.subnets with
  | none => .error .fieldMissing
  | some 0 => .error .outOfBounds
  | some (_ + 1) =>
      match nw.firstNodes with
      | some (.array items) => do
          let edited ← items.mapM edit
          .ok (nw.amend nodesPath fun _ => .array edited)
      | _ => .error .jsonType

/-- `rmall_nodes`, on one entry: an entry with an address is to be removed. -/
def rmallEntry (entry : Value) : Except Abort Value := do
  let addr ← memberText entry strAddr
  .ok (if addr = "0x0000".toList then entry else kvReplace strRmorbl "0x10".toList entry)

/-- `rmbl_clr`, on one entry: an entry without an address is neither removed nor
blacklisted. -/
def rmblEntry (entry : Value) : Except Abort Value := do
  let addr ← memberText entry strAddr
  .ok (if addr = "0x0000".toList then kvReplace strRmorbl "0x00".toList entry else entry)

/-- `nodes_clrctl`, on one entry. -/
def clrctlEntry (entry : Value) : Except Abort Value :=
  if entry.isObject then
    .ok (kvReplace strDone "0x00".toList (kvReplace strFunc "0x00".toList
      (kvReplace strRmorbl "0x00".toList (kvReplace strErrbits "0x00000000".toList
        (kvReplace strAddr "0x0000".toList entry)))))
  else .error .jsonType

/-- What `_backlog_node_add` adds to the file. -/
def backlogObject (uuid : Uuid) : Value :=
  .object
    [(strUuid, .string (cbuf2str uuid)), (strAddr, .string "0x0000".toList),
      (strErrbits, .string "0x00000000".toList), (strTmpl, .string "0x00".toList),
      (strRmorbl, .string "0x00".toList), (strFunc, .string "0x00".toList),
      (strDone, .string "0x00".toList)]

namespace NodesState

/-- `json_cfg_flush`, where it is wanted. -/
def autoFlush (clock : SaveClock) (state : NodesState) : NodesState :=
  if state.nw.autoflush then state.flush clock else state

/-- A write that goes through all nodes; `false` stands for an error. -/
def writeAll (clock : SaveClock) (edit : Value → Except Abort Value) (state : NodesState) :
    Except Abort (Bool × NodesState) :=
  match state.nw.tree with
  | none => .ok (false, state)
  | some _ => do
      let nw ← state.nw.editNodes edit
      .ok (true, { state with nw := nw }.autoFlush clock)

/-- `nodes_rmall`. -/
def nodesRmall (clock : SaveClock) : NodesState → Except Abort (Bool × NodesState) :=
  writeAll clock rmallEntry

/-- `nodes_rmblclr`. -/
def nodesRmblclr (clock : SaveClock) : NodesState → Except Abort (Bool × NodesState) :=
  writeAll clock rmblEntry

/-- `json_cfg_open`. -/
def jsonCfgOpen (env : LoadEnv) (force : Bool) (state : NodesState) :
    Except Abort (Bool × NodesState) := do
  let (loaded, nw, db) ← Nwmng.jsonCfgOpen env force state.file state.nw state.db
  .ok (loaded, { state with nw := nw, db := db })

/-- `nodes_clrctl`: the file is saved, loaded again, and saved again. -/
def nodesClrctl (env : LoadEnv) (first second : SaveClock) (state : NodesState) :
    Except Abort (Bool × NodesState) := do
  let (written, state) ← state.writeAll first clrctlEntry
  if written then
    let (loaded, state) ← state.jsonCfgOpen env true
    .ok (loaded, if loaded then state.autoFlush second else state)
  else .ok (false, state)

/-- `backlog_dev`: a new entry at the end of the backlog, and its record. -/
def backlogDev (clock : SaveClock) (uuid : Uuid) (state : NodesState) :
    Except Abort NodesState :=
  match state.nw.tree, state.nw.backlog with
  | none, _ => .ok state
  | some _, .absent => .error .jsonType
  | some _, .freed => .error .freedJson
  | some tree, .member =>
      match tree.root.get strBacklog with
      | some (.array items) =>
          let nw := state.nw.amend [.member strBacklog] fun _ =>
            .array (items ++ [backlogObject uuid])
          .ok ({ state with nw := nw, db := state.db.backlogNodeAdd uuid }.autoFlush clock)
      | _ => .error .jsonType

end NodesState

/-! ## The entries of a tree -/

/-- The entries of the first subnet. -/
def nodesOf (root : Value) : List Value :=
  match root.seek nodesPath with
  | some (.array items) => items
  | _ => []

/-- The entries of the backlog. -/
def backlogOf (root : Value) : List Value :=
  match root.get strBacklog with
  | some (.array items) => items
  | _ => []

/-- The entries of the backlog of a file. -/
def SavedFile.backlog (file : SavedFile) : List Value :=
  match file.content with
  | some root => backlogOf root
  | none => []

theorem SavedFile.entries_eq {file : SavedFile} {root : Value}
    (content : file.content = some root) : file.entries = nodesOf root := by
  unfold SavedFile.entries nodesOf
  rw [content]
  rfl

theorem SavedFile.backlog_eq {file : SavedFile} {root : Value}
    (content : file.content = some root) : file.backlog = backlogOf root := by
  unfold SavedFile.backlog
  rw [content]

theorem nodesOf_set {root value : Value} {key : String} (other : strSubnets ≠ key) :
    nodesOf (root.set key value) = nodesOf root := by
  unfold nodesOf
  simp only [nodesPath, Value.seek, Value.child, Value.get_set_other other]

theorem backlogOf_set {root value : Value} {key : String} (other : strBacklog ≠ key) :
    backlogOf (root.set key value) = backlogOf root := by
  unfold backlogOf
  rw [Value.get_set_other other]

/-- A change below the nodes leaves the backlog. -/
theorem backlogOf_amend_nodes (root : Value) (path : List Step) (change : Value → Value) :
    backlogOf (root.amend (.member strSubnets :: path) change) = backlogOf root := by
  have different : (Step.member strSubnets) ≠ .member strBacklog := by
    intro same
    exact absurd (Step.member.inj same) (of_decide_eq_true rfl)
  have apart : Value.Apart (.member strSubnets :: path) [.member strBacklog] :=
    .here different
  have kept := Value.seek_amend_apart apart root change
  have seeks : ∀ tree : Value, tree.seek [.member strBacklog] = tree.get strBacklog := by
    intro tree
    simp only [Value.seek, Value.child]
    cases tree.get strBacklog with
    | none => rfl
    | some value => rfl
  rw [seeks, seeks] at kept
  unfold backlogOf
  rw [kept]

theorem nodesOf_amend_backlog (root : Value) (change : Value → Value) :
    nodesOf (root.amend [.member strBacklog] change) = nodesOf root := by
  have different : (Step.member strBacklog) ≠ .member strSubnets := by
    intro same
    exact absurd (Step.member.inj same) (of_decide_eq_true rfl)
  have apart : Value.Apart [.member strBacklog] nodesPath := .here different
  have kept := Value.seek_amend_apart apart root change
  unfold nodesOf
  rw [kept]

end Nwmng
