/-
Module: Nwmng.Cfg.FileEdits
Purpose: The nodes file under external edits: what the program overwrites, and what a
synchronization works on, over every interleaving.
Trusted boundary: none
Main exports:
  EditState, EditOp, EditRun, EditOp.Good, EditOp.Quiet, edits_kept_guarded
-/
import Nwmng.Cfg.LoadAgreement

namespace Nwmng

open Json Fallible Transition

/-! ## The program and its environment -/

/-- How far a synchronization has come with the nodes file: the file was found modified
and is still to be loaded, or it was loaded and is still to be saved. -/
inductive SyncPc where
  | idle
  | toLoad
  | toFlush
deriving Repr, DecidableEq

/-- The records and the file, the second that it is, and whether the file was edited since
the program loaded it last. -/
structure EditState where
  nodes : NodesState
  pc : SyncPc
  now : Nat
  edited : Bool

/-- The steps: of somebody who edits the file, and of the program.  `load_cfg_file` reads
the file and saves it again, and an edit may come between. -/
inductive EditOp where
  | edit (content : Option Value) (time : Nat)
  | write (uuid : Uuid) (field : NodeField) (input : WriteInput)
  | startSync
  | load (env : LoadEnv)
  | flush (clock : SaveClock)

/-- `file_modified`: the second of the file's last change is compared with the stamp in memory,
so an edit within the second of a save goes unnoticed. -/
def fileModified (file : SavedFile) (nw : NwCfg) : Bool := decide (nw.synctime.toNat < file.mtime)

namespace EditOp

/-- The clock does not go back, and the program does one thing after the other. -/
def Possible (source : EditState) : EditOp → Prop
  | .edit _ time => source.now ≤ time
  | .write _ _ input =>
      source.pc = .idle ∧ source.now ≤ input.clock.time ∧ input.clock.time ≤ input.clock.mtime
  | .startSync => source.pc = .idle
  | .load _ => source.pc = .toLoad
  | .flush clock => source.pc = .toFlush ∧ source.now ≤ clock.time ∧ clock.time ≤ clock.mtime

instance (source : EditState) : (op : EditOp) → Decidable (op.Possible source)
  | .edit _ time => inferInstanceAs (Decidable (source.now ≤ time))
  | .write _ _ input =>
      inferInstanceAs (Decidable (source.pc = .idle ∧ source.now ≤ input.clock.time ∧
        input.clock.time ≤ input.clock.mtime))
  | .startSync => inferInstanceAs (Decidable (source.pc = .idle))
  | .load _ => inferInstanceAs (Decidable (source.pc = .toLoad))
  | .flush clock =>
      inferInstanceAs (Decidable (source.pc = .toFlush ∧ source.now ≤ clock.time ∧
        clock.time ≤ clock.mtime))

def run (source : EditState) : EditOp → Except Abort EditState
  | .edit content time =>
      .ok { source with
        nodes := { source.nodes with file := { content := content, mtime := time } }
        now := time
        edited := true }
  | .write uuid field input => do
      let nodes ← source.nodes.writeField input uuid field
      .ok { source with nodes := nodes, now := input.clock.mtime }
  | .startSync =>
      if fileModified source.nodes.file source.nodes.nw then .ok { source with pc := .toLoad }
      else .ok source
  | .load env => do
      let (loaded, nw, db) ← jsonCfgOpen env false source.nodes.file source.nodes.nw
        source.nodes.db
      .ok { source with
        nodes := { source.nodes with nw := nw, db := db }
        pc := if loaded then .toFlush else .idle
        edited := !loaded }
  | .flush clock =>
      .ok { source with nodes := source.nodes.flush clock, pc := .idle, now := clock.mtime }

def Step (source : EditState) (op : EditOp) (target : EditState) : Prop :=
  op.Possible source ∧ op.run source = .ok target

end EditOp

abbrev EditRun := Execution EditOp.Step

/-!
## What must not be lost

An edit is lost in one of two ways: the program overwrites the file with a tree that it loaded
before the edit, or a synchronization goes on without the edit because the time of the file does
not show it.
-/

/-- The file with a new stamp. -/
def Stamped (before after : Option Value) : Prop :=
  ∃ stamp, after = before.map (·.set strSyncTime (.string stamp))

/-- The file is as before, but for one field of the entry of a device, and the stamp.  An edit is
kept by such a write: the program wrote the tree that it had loaded from the edited file. -/
def WritesOnly (input : WriteInput) (uuid : Uuid) (field : NodeField)
    (before after : Option Value) : Prop :=
  after = before ∨ ∃ root index entry, before = some root ∧
    root.seek (nodesPath ++ [.item index]) = some entry ∧
    memberUuid (input.stack index) entry = some uuid ∧
    Stamped (some (root.amend (nodesPath ++ [.item index])
      (·.set field.key (.string field.text)))) after

namespace EditOp

/-- No edit is lost by a step: a write changes its field only; a synchronization that does
not load the file has its content in memory; a load leaves its content in memory, or
nothing; and the save that follows changes the stamp only. -/
def Good : Move EditState EditOp → Prop
  | { source, label := .write uuid field input, target } =>
      WritesOnly input uuid field source.nodes.file.content target.nodes.file.content
  | { source, label := .startSync, target } =>
      target.pc = .toLoad ∨ source.nodes.nw.root = source.nodes.file.content
  | { source, label := .load _, target } =>
      target.nodes.nw.tree = none ∨ target.nodes.nw.root = source.nodes.file.content
  | { source, label := .flush _, target } =>
      Stamped source.nodes.file.content target.nodes.file.content
  | _ => True

/-- Before a write, and between the load and the save, the file was not edited since it was
loaded; and an edit that a synchronization is to notice came in a second after that of the
stamp in memory. -/
def Quiet (source : EditState) : EditOp → Prop
  | .write _ _ _ => source.edited = false
  | .startSync =>
      source.edited = true → source.nodes.nw.synctime.toNat < source.nodes.file.mtime
  | .flush _ => source.edited = false
  | _ => True

instance (source : EditState) : (op : EditOp) → Decidable (op.Quiet source)
  | .edit _ _ => isTrue trivial
  | .write _ _ _ => inferInstanceAs (Decidable (source.edited = false))
  | .startSync =>
      inferInstanceAs (Decidable (source.edited = true →
        source.nodes.nw.synctime.toNat < source.nodes.file.mtime))
  | .load _ => isTrue trivial
  | .flush _ => inferInstanceAs (Decidable (source.edited = false))

end EditOp

/-!
## What the program keeps

The invariant compares the tree in memory with the file, for as long as nobody has edited it, and
the time of the last save with the time of the file.  One lemma for each step of the program
keeps it.
-/

/-- As long as nobody edits the file, its content is the tree in memory, and every write is
saved; a file that is to be loaded is newer than the stamp in memory. -/
structure EditInvariant (state : EditState) : Prop where
  past : state.nodes.file.mtime ≤ state.now
  inMemory : state.edited = false →
    (∃ root, state.nodes.nw.root = some root ∧ state.nodes.file.content = some root) ∧
      state.nodes.nw.autoflush = true
  newer : state.pc = .toLoad → state.nodes.nw.synctime.toNat < state.nodes.file.mtime

/-- The entry that a search finds. -/
theorem findEntry_found {stack : Nat → Uuid} {uuid : Uuid} {items : List Value}
    {start found : Nat} (search : findEntry stack uuid start items = some found) :
    ∃ offset entry, found = start + offset ∧ items[offset]? = some entry ∧
      memberUuid (stack found) entry = some uuid := by
  induction items generalizing start with
  | nil => cases search
  | cons first rest hypothesis =>
      unfold findEntry at search
      by_cases here : memberUuid (stack start) first = some uuid
      · rw [if_pos here] at search
        cases search
        exact ⟨0, first, rfl, rfl, here⟩
      · rw [if_neg here] at search
        obtain ⟨offset, entry, rfl, inside, isUuid⟩ := hypothesis search
        refine ⟨offset + 1, entry, by omega, inside, ?_⟩
        exact isUuid

theorem findNode_found {stack : Nat → Uuid} {uuid : Uuid} {nw : NwCfg} {root : Value}
    (held : nw.root = some root) {index : Nat}
    (search : findNode stack uuid nw = .ok (some index)) :
    ∃ entry, root.seek (nodesPath ++ [.item index]) = some entry ∧
      memberUuid (stack index) entry = some uuid := by
  unfold findNode at search
  split at search
  · cases search
  · cases search
  · split at search
    · cases search
    · rename_i items isArray
      have found := Except.ok.inj search
      obtain ⟨offset, entry, isIndex, inside, isUuid⟩ := findEntry_found found
      have array := seek_of_firstNodes isArray
      rw [held] at array
      have nodes : root.seek nodesPath = some (.array items) := array
      refine ⟨entry, ?_, isUuid⟩
      rw [isIndex, Nat.zero_add, Value.seek_append, nodes, Option.bind_some]
      simp only [Value.seek, Value.child, inside]
    · cases search

/-- A write to a tree that is in step with the file. -/
theorem writeField_inMemory {before after : NodesState} {root : Value}
    (held : before.nw.root = some root) (saved : before.file.content = some root)
    (autoflush : before.nw.autoflush = true) {input : WriteInput} {uuid : Uuid}
    {field : NodeField} (written : before.writeField input uuid field = .ok after) :
    after = before ∨ ∃ index stamp entry,
      root.seek (nodesPath ++ [.item index]) = some entry ∧
        memberUuid (input.stack index) entry = some uuid ∧
        after.nw.root = some ((root.amend (nodesPath ++ [.item index])
          (·.set field.key (.string field.text))).set strSyncTime (.string stamp)) ∧
        after.file.content = after.nw.root ∧ after.nw.autoflush = true ∧
        after.file.mtime = input.clock.mtime := by
  obtain ⟨db, ⟨tree, synctime, flushes, backlog⟩, file⟩ := before
  cases tree with
  | none => cases held
  | some tree =>
      cases held
      cases autoflush
      simp only [NodesState.writeField, writeNodes, setNodeField, modifyNodeField, bind_ok]
        at written
      obtain ⟨⟨nw, saved⟩, ⟨⟨found, changed⟩, ⟨place, search, modified⟩, flushed⟩, result⟩ :=
        written
      cases place with
      | none =>
          cases modified
          cases flushed
          cases result
          exact .inl rfl
      | some index =>
          cases modified
          cases flushed
          cases result
          obtain ⟨entry, inside, isUuid⟩ := findNode_found rfl search
          exact .inr ⟨index, _, entry, inside, isUuid, rfl, rfl, rfl, rfl⟩

@[simp] theorem jsonCfgClose_tree (nw : NwCfg) : nw.jsonCfgClose.tree = none := by
  unfold NwCfg.jsonCfgClose
  cases held : nw.tree with
  | none => exact held
  | some tree => rfl

/-- A load leaves the content of the file in memory, or nothing. -/
theorem reload_tree {env : LoadEnv} {force loaded : Bool} {file : SavedFile}
    {nw after : NwCfg} {db result : CfgDb}
    (done : reloadNodesFile env force file nw db = .ok (loaded, after, result)) :
    if loaded then
      (∃ root, after.root = some root ∧ file.content = some root) ∧ after.autoflush = true
    else after.tree = none := by
  simp only [reloadNodesFile, bind_ok] at done
  obtain ⟨⟨opened, middle⟩, opens, done⟩ := done
  cases opened with
  | false =>
      cases done
      exact jsonCfgClose_tree middle
  | true =>
      simp only [if_true, bind_ok] at done
      obtain ⟨⟨isLoaded, last⟩, _, result⟩ := done
      have root := openJsonFile_root opens
      cases isLoaded with
      | false =>
          cases result
          exact jsonCfgClose_tree middle
      | true =>
          cases result
          unfold openJsonFile at opens
          split at opens
          · rename_i members content
            simp only [bind_ok] at opens
            obtain ⟨stamp, _, ⟨whole, tree, backlog⟩, _, isOpen⟩ := opens
            cases whole with
            | false => cases isOpen
            | true =>
                cases isOpen
                rw [content] at root
                exact ⟨⟨_, root, content⟩, rfl⟩
          · cases opens

theorem EditInvariant.step {source target : EditState} {op : EditOp}
    (invariant : EditInvariant source) (quiet : op.Quiet source)
    (taken : op.Step source target) :
    EditInvariant target ∧ EditOp.Good { source := source, label := op, target := target } := by
  obtain ⟨past, inMemory, newer⟩ := invariant
  obtain ⟨possible, done⟩ := taken
  cases op with
  | edit content time =>
      cases done
      have later : source.now ≤ time := possible
      refine ⟨⟨Nat.le_refl _, fun impossible => (nomatch impossible), fun toLoad => ?_⟩, trivial⟩
      have before := newer toLoad
      exact Nat.lt_of_lt_of_le before (Nat.le_trans past later)
  | write uuid field input =>
      obtain ⟨nodes, written, result⟩ := bind_ok.mp done
      cases result
      obtain ⟨isIdle, started, ended⟩ := possible
      obtain ⟨⟨root, held, saved⟩, autoflush⟩ := inMemory quiet
      have notLoading : source.pc ≠ .toLoad := by
        rw [isIdle]
        intro impossible
        cases impossible
      rcases writeField_inMemory held saved autoflush written with same |
        ⟨index, stamp, entry, inside, isUuid, after, both, flushes, mtime⟩
      · cases same
        have later := Nat.le_trans past (Nat.le_trans started ended)
        exact ⟨⟨later, inMemory, fun toLoad => absurd toLoad notLoading⟩, .inl rfl⟩
      · refine ⟨⟨Nat.le_of_eq mtime, ?_, fun toLoad => absurd toLoad notLoading⟩, ?_⟩
        · intro _
          exact ⟨⟨_, after, both.trans after⟩, flushes⟩
        · right
          exact ⟨root, index, entry, saved, inside, isUuid, _, both.trans after⟩
  | startSync =>
      have isIdle : source.pc = .idle := possible
      simp only [EditOp.run] at done
      split at done
      · rename_i modified
        cases done
        exact ⟨⟨past, inMemory, fun _ => of_decide_eq_true modified⟩, .inl rfl⟩
      · rename_i unmodified
        cases done
        refine ⟨⟨past, inMemory, newer⟩, .inr ?_⟩
        have notEdited : source.edited = false := by
          cases edited : source.edited with
          | false => rfl
          | true => exact absurd (decide_eq_true (quiet edited)) unmodified
        obtain ⟨⟨root, held, saved⟩, _⟩ := inMemory notEdited
        exact held.trans saved.symm
  | load env =>
      have before := newer possible
      simp only [EditOp.run, bind_ok] at done
      obtain ⟨⟨loaded, nw, db⟩, opens, result⟩ := done
      cases result
      have stale : upToDate source.nodes.file source.nodes.nw = false := by
        have notYet : ¬ source.nodes.file.mtime ≤ source.nodes.nw.synctime.toNat :=
          Nat.not_le_of_lt before
        simp [upToDate, notYet]
      simp only [jsonCfgOpen, stale, Bool.false_and, Bool.false_eq_true, if_false] at opens
      have tree := reload_tree opens
      cases loaded with
      | false =>
          have notLoading : SyncPc.idle ≠ .toLoad := by decide
          exact ⟨⟨past, fun impossible => (nomatch impossible),
            fun toLoad => absurd toLoad notLoading⟩, .inl tree⟩
      | true =>
          have notLoading : SyncPc.toFlush ≠ .toLoad := by decide
          obtain ⟨⟨root, held, saved⟩, autoflush⟩ := tree
          exact ⟨⟨past, fun _ => ⟨⟨root, held, saved⟩, autoflush⟩,
            fun toLoad => absurd toLoad notLoading⟩, .inr (held.trans saved.symm)⟩
  | flush clock =>
      cases done
      obtain ⟨⟨root, held, saved⟩, autoflush⟩ := inMemory quiet
      obtain ⟨⟨db, ⟨tree, synctime, flushes, backlog⟩, file⟩, pc, now, edited⟩ := source
      have notLoading : SyncPc.idle ≠ .toLoad := by decide
      cases tree with
      | none => cases held
      | some tree =>
          cases held
          refine ⟨⟨Nat.le_refl _, fun _ => ⟨⟨_, rfl, rfl⟩, autoflush⟩,
            fun toLoad => absurd toLoad notLoading⟩, ?_⟩
          have before : file.content = some tree.root := saved
          exact ⟨_, by rw [before]; rfl⟩

/-- The program has loaded the file, and nobody has edited it since.  The tree in memory is that
of the file, so that a save writes back what is there. -/
structure EditState.Loaded (state : EditState) : Prop where
  idle : state.pc = .idle
  past : state.nodes.file.mtime ≤ state.now
  inMemory : (∃ root, state.nodes.nw.root = some root ∧ state.nodes.file.content = some root) ∧
    state.nodes.nw.autoflush = true

/-- In every interleaving in which the program writes only what it has loaded last, and every
edit can be told from the stamp, no edit is lost.  Edits may come between any two steps of the
program, also between the reading of a file and its saving. -/
theorem edits_kept_guarded {initial final : EditState} {past : List (Move EditState EditOp)}
    (run : EditRun initial past final) (loaded : initial.Loaded)
    (quiet : Guarded (fun source op => op.Quiet source) past) :
    ∀ move ∈ past, EditOp.Good move := by
  have start : EditInvariant initial := by
    refine ⟨loaded.past, fun _ => loaded.inMemory, fun toLoad => ?_⟩
    rw [loaded.idle] at toLoad
    cases toLoad
  have kept := run.guarded_invariant (fun source op target invariant admitted taken =>
    (invariant.step admitted taken).1) start quiet
  intro move member
  have invariant := (kept.1 move member).1
  exact (invariant.step (quiet move member) (run.steps_taken move member)).2

/-! ## Two runs -/

theorem editRun_of_replays {initial : EditState} {labels : List EditOp}
    {test : List (Move EditState EditOp) → EditState → Bool}
    (passed : replays EditOp.run initial labels (fun past final =>
      decide (Guarded (fun source op => op.Possible source) past) && test past final) =
        true) :
    ∃ past final, EditRun initial past final ∧ past.map Move.label = labels ∧
      test past final = true := by
  obtain ⟨past, final, run, same, reached⟩ := execution_of_replays passed
  obtain ⟨possible, tested⟩ := Bool.and_eq_true_iff.mp reached
  refine ⟨past, final, run.of_moves fun move member => ?_, same, tested⟩
  exact ⟨of_decide_eq_true possible move member, run.steps_taken move member⟩

/-- A file with one node, as the program has loaded it. -/
def EditState.sample : EditState where
  nodes :=
    { db := .cfgdbInit
      nw :=
        { tree := some { root := nodesContent [nodeObject []], subnets := some 1 }
          synctime := 5, autoflush := true, backlog := .absent }
      file := { content := some (nodesContent [nodeObject []]), mtime := 5 } }
  pc := .idle
  now := 5
  edited := false

theorem EditState.sample_loaded : EditState.sample.Loaded :=
  ⟨rfl, Nat.le_refl 5, ⟨_, rfl, rfl⟩, rfl⟩

def WriteInput.at (second : Nat) : WriteInput :=
  { stack := fun _ => clearedBuffer, clock := { time := second, mtime := second } }

/-- An edit, the synchronization that notices it, and a write after that. -/
theorem edits_kept_guarded_noticed :
    ∃ past final, EditRun .sample past final ∧ past.length = 5 ∧
      ∀ move ∈ past, EditOp.Good move := by
  have passed : replays EditOp.run .sample
      [.edit (some (nodesContent [nodeObject [(strTtl, .string "0x05".toList)]])) 7,
        .startSync, .load noTemplates, .flush { time := 8, mtime := 9 },
        .write sampleUuid (.errbits 3) (.at 10)]
      (fun past final =>
        decide (Guarded (fun source op => op.Possible source) past) &&
          decide (Guarded (fun source op => EditOp.Quiet source op) past ∧ past.length = 5)) =
        true := by decide +kernel
  obtain ⟨past, final, run, _, shown⟩ := editRun_of_replays passed
  obtain ⟨quiet, five⟩ := of_decide_eq_true shown
  exact ⟨past, final, run, five, edits_kept_guarded run EditState.sample_loaded quiet⟩

/-- The content is an object without members. -/
def noMembers : Option Value → Bool
  | some (.object []) => true
  | _ => false

theorem eq_of_noMembers {content : Option Value} (empty : noMembers content = true) :
    content = some (.object []) := by
  unfold noMembers at empty
  split at empty
  · rfl
  · cases empty

/-- A write after an edit: the file is again what the program had loaded. -/
theorem write_overwrites_edit :
    ¬ ∀ (initial final : EditState) (past : List (Move EditState EditOp)),
      EditRun initial past final → initial.Loaded → ∀ move ∈ past, EditOp.Good move := by
  intro claim
  have passed : replays EditOp.run .sample
      [.edit (some (.object [])) 7, .write sampleUuid (.errbits 3) (.at 10)]
      (fun past final =>
        decide (Guarded (fun source op => op.Possible source) past) &&
          past.any fun move =>
            match move.label with
            | .write _ _ _ => noMembers move.source.nodes.file.content &&
                !noMembers move.target.nodes.file.content
            | _ => false) = true := by decide +kernel
  obtain ⟨past, final, run, _, shown⟩ := editRun_of_replays passed
  obtain ⟨⟨source, label, target⟩, member, lost⟩ := List.any_eq_true.mp shown
  have good := claim _ _ past run EditState.sample_loaded _ member
  cases label with
  | write uuid field input =>
      obtain ⟨empty, full⟩ := Bool.and_eq_true_iff.mp lost
      have before : source.nodes.file.content = some (.object []) := eq_of_noMembers empty
      rcases good with same | ⟨root, index, entry, isRoot, inside, _⟩
      · rw [same, empty] at full
        cases full
      · rw [before] at isRoot
        cases isRoot
        cases inside
  | _ => cases lost

end Nwmng
