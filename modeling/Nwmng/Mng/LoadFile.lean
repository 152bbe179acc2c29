/-
Module: Nwmng.Mng.LoadFile
Purpose: Loading the nodes file into a running manager, and when a load that fails leaves
everything as it was.
Trusted boundary: no key occurs twice in a JSON object
Main exports:
  NodesHost, loadCfgFile, Unchanged, Accepted, Refused, AtomicWhen, load_atomic_iff
-/
import Nwmng.Cfg.EntryCheck
import Nwmng.Config.EngineRun
import Nwmng.Mng.Manager

namespace Nwmng

open Json Fallible

/-- The manager, the open nodes file, and the file on the disk.  A load writes all but the last,
which it only stamps. -/
structure NodesHost where
  mng : Mng
  nw : NwCfg
  file : SavedFile

/-- `load_cfg_file`, for a nodes file that exists; `false` stands for an error. -/
def loadCfgFile (env : LoadEnv) (inDdb : Uuid → Bool) (clock : SaveClock) (force : Bool)
    (host : NodesHost) : Except Abort (Bool × NodesHost) := do
  let (loaded, nw, db) ← jsonCfgOpen env force host.file host.nw host.mng.db
  let mng := host.mng.setDb db
  if loaded then
    let (nw, file) := jsonCfgFlush clock nw host.file
    .ok (true, { mng := mngLoadLists inDdb mng, nw := nw, file := file })
  else .ok (false, { host with mng := mng, nw := nw })

/-!
## What an error must not touch

A load that reports an error should have changed nothing.  Compared are the trees of the
database, the lists, and the open tree with its pointers.
-/

/-- The trees of the database, the lists of the manager, and the tree in memory with its
pointers are as before. -/
structure Unchanged (before after : NodesHost) : Prop where
  trees : ∀ spot, after.mng.db.get spot = before.mng.db.get spot
  records : after.mng.db.heap = before.mng.db.heap
  lists : after.mng.lists = before.mng.lists
  tree : after.nw.tree = before.nw.tree
  backlog : after.nw.backlog = before.nw.backlog

/-- A load succeeds, or returns an error and has changed nothing; it never stops the
program. -/
def Atomic (before : NodesHost) : Except Abort (Bool × NodesHost) → Prop
  | .ok (true, _) => True
  | .ok (false, after) => Unchanged before after
  | .error _ => False

/-!
## What a file holds

A file is accepted, refused or stops the program, and which of the three can be told from its
members alone.  A refusal may come after members were already taken over.
-/

/-- The reference of a subnet is absent, or can be read. -/
def RefidReadable (item : Value) : Prop :=
  ∀ value, item.get strRefid = some value → ∃ refid, uint16Loader value = .ok refid

/-- A subnet with nodes, which may be `null`.  Only the nodes of the first subnet are loaded; of
the others, the presence of the member is checked. -/
structure SubnetFine (item : Value) : Prop where
  refid : RefidReadable item
  nodes : ∃ nodes, item.get strNodes = some nodes

/-- The stamp is absent, or can be read. -/
def StampReadable (root : Value) : Prop :=
  ∀ value, root.get strSyncTime = some value → ∃ stamp, uint32Loader value = .ok stamp

/-- The database as the entries find it. -/
def clearedFor (force : Bool) (db : CfgDb) : CfgDb :=
  if force then db.cfgdbRemoveAllNodes.cfgdbRemoveAllUpl else db

/-- The backlog does not stop the program: that of the file is an array of entries that can
be read, or `null`; without one, the pointer does not lead into a tree that was freed. -/
def BacklogReadable (templates : Templates) (members : List (String × Value)) (nw : NwCfg) :
    Prop :=
  match Value.lookup strBacklog members with
  | some (.array items) => ∀ item ∈ items, EntryReadable templates item
  | some .null => True
  | some _ => False
  | none => nw.jsonCfgClose.backlog ≠ .freed

/-- The file is loaded: every subnet has nodes, those of the first one are an array of
entries that can be read, and the backlog can be read. -/
def Accepted (templates : Templates) (members : List (String × Value)) (nw : NwCfg) : Prop :=
  ∃ first rest nodes,
    Value.lookup strSubnets members = some (.array (first :: rest)) ∧
      (∀ item ∈ first :: rest, SubnetFine item) ∧
      first.get strNodes = some (.array nodes) ∧
      (∀ item ∈ nodes, EntryReadable templates item) ∧
      BacklogReadable templates members nw

/-- The members before the subnets. -/
def beforeSubnets (members : List (String × Value)) : List (String × Value) :=
  members.takeWhile fun member => member.1 ≠ strSubnets

/-- The file is refused with an error, after some of its members were visited, and before
or after the trees are cleared. -/
inductive Refused (members : List (String × Value)) :
    List (String × Value) → Bool → Prop where
  /-- a subnet without nodes -/
  | noNodes {before after : List Value} {item : Value}
      (subnets : Value.lookup strSubnets members = some (.array (before ++ item :: after)))
      (fine : ∀ other ∈ before, SubnetFine other) (refid : RefidReadable item)
      (without : item.get strNodes = none) :
      Refused members (beforeSubnets members) false
  /-- no subnets -/
  | noSubnets (absent : Value.lookup strSubnets members = none) :
      Refused members members true
  /-- a first subnet whose nodes are `null` -/
  | nullNodes {first : Value} {rest : List Value}
      (subnets : Value.lookup strSubnets members = some (.array (first :: rest)))
      (fine : ∀ item ∈ first :: rest, SubnetFine item)
      (null : first.get strNodes = some .null) : Refused members members true

/-- The pointer to the backlog after the members were visited. -/
def seenBacklog (members : List (String × Value)) (backlog : BacklogRef) : BacklogRef :=
  match Value.lookup strBacklog members with
  | none => backlog
  | some .null => .absent
  | some _ => .member

/-- Nothing can be lost: no tree is open, the pointer to the backlog ends as it is, and
there is no device when the trees are cleared. -/
structure NothingToLose (visited : List (String × Value)) (cleared : Bool)
    (host : NodesHost) : Prop where
  closed : host.nw.tree = none
  backlog : (seenBacklog visited host.nw.backlog).close = host.nw.backlog
  devices : cleared = true → ∀ spot, spot.tree ≠ .backlog → host.mng.db.get spot = none

/-- When a load is atomic: there is nothing to load, the file is accepted, or it is refused
and there is nothing to lose. -/
def AtomicWhen (env : LoadEnv) (force : Bool) (host : NodesHost) : Prop :=
  (upToDate host.file host.nw = true ∧ force = false) ∨
    ∃ members, host.file.content = some (.object members) ∧
      StampReadable (.object members) ∧
      (Accepted env.templates members host.nw ∨
        ∃ visited clears, Refused members visited clears ∧
          NothingToLose visited (clears && force) host)

/-! ## Opening -/

theorem loadSynctime_ok {root : Value} {synctime : UInt32} :
    (∃ stamp, loadSynctime root synctime = .ok stamp) ↔ StampReadable root := by
  unfold loadSynctime StampReadable
  cases found : root.get strSyncTime with
  | none =>
      constructor
      · intro _ value impossible
        cases impossible
      · intro _
        exact ⟨synctime, rfl⟩
  | some value =>
      simp only [bind_ok]
      constructor
      · rintro ⟨stamp, loaded, reads, _⟩ other same
        cases same
        exact ⟨loaded, reads⟩
      · intro readable
        obtain ⟨loaded, reads⟩ := readable value rfl
        exact ⟨_, loaded, reads, rfl⟩

theorem readRefid_ok {item : Value} : readRefid item = .ok () ↔ RefidReadable item := by
  unfold readRefid RefidReadable
  cases item.get strRefid with
  | none =>
      constructor
      · intro _ value impossible
        cases impossible
      · intro _
        rfl
  | some value =>
      constructor
      · intro reads other same
        cases same
        obtain ⟨refid, loaded, _⟩ := bind_ok.mp reads
        exact ⟨refid, loaded⟩
      · intro readable
        obtain ⟨refid, loaded⟩ := readable value rfl
        exact bind_ok.mpr ⟨refid, loaded, rfl⟩

/-- Every subnet has nodes. -/
theorem openSubnets_true {items : List Value} :
    openSubnets items = .ok true ↔ ∀ item ∈ items, SubnetFine item := by
  induction items with
  | nil => simp [openSubnets]
  | cons item rest hypothesis =>
      rw [openSubnets, List.forall_mem_cons, ← hypothesis, bind_ok]
      constructor
      · rintro ⟨_, readable, opened⟩
        cases nodes : item.get strNodes with
        | none =>
            rw [nodes] at opened
            cases opened
        | some value =>
            rw [nodes] at opened
            exact ⟨⟨readRefid_ok.mp readable, value, nodes⟩, opened⟩
      · rintro ⟨⟨readable, value, nodes⟩, opened⟩
        refine ⟨(), readRefid_ok.mpr readable, ?_⟩
        rw [nodes]
        exact opened

/-- There is a first subnet without nodes. -/
theorem openSubnets_false {items : List Value} :
    openSubnets items = .ok false ↔ ∃ before item after, items = before ++ item :: after ∧
      (∀ other ∈ before, SubnetFine other) ∧ RefidReadable item ∧ item.get strNodes = none := by
  induction items with
  | nil =>
      constructor
      · intro impossible
        cases impossible
      · rintro ⟨before, item, after, impossible, _⟩
        simp at impossible
  | cons first rest hypothesis =>
      rw [openSubnets, bind_ok]
      constructor
      · rintro ⟨_, readable, opened⟩
        cases nodes : first.get strNodes with
        | none =>
            have none_before : ∀ other ∈ ([] : List Value), SubnetFine other := by
              intro other member
              cases member
            exact ⟨[], first, rest, rfl, none_before, readRefid_ok.mp readable, nodes⟩
        | some value =>
            rw [nodes] at opened
            obtain ⟨before, item, after, rfl, fine, refid, without⟩ := hypothesis.mp opened
            refine ⟨first :: before, item, after, rfl, ?_, refid, without⟩
            exact List.forall_mem_cons.mpr ⟨⟨readRefid_ok.mp readable, value, nodes⟩, fine⟩
      · rintro ⟨before, item, after, same, fine, refid, without⟩
        cases before with
        | nil =>
            cases same
            refine ⟨(), readRefid_ok.mpr refid, ?_⟩
            rw [without]
        | cons head tail =>
            cases same
            obtain ⟨⟨readable, value, nodes⟩, others⟩ := List.forall_mem_cons.mp fine
            refine ⟨(), readRefid_ok.mpr readable, ?_⟩
            rw [nodes]
            exact hypothesis.mpr ⟨tail, item, after, rfl, others, refid, without⟩

theorem seenBacklog_of_absent {members : List (String × Value)}
    (absent : strBacklog ∉ members.map Prod.fst) (backlog : BacklogRef) :
    seenBacklog members backlog = backlog := by
  unfold seenBacklog
  rw [Value.lookup_eq_none absent]

theorem seenBacklog_skip {key : String} (other : key ≠ strBacklog) (value : Value)
    (rest : List (String × Value)) (backlog : BacklogRef) :
    seenBacklog ((key, value) :: rest) backlog = seenBacklog rest backlog := by
  unfold seenBacklog
  rw [Value.lookup, if_neg other]

/-- The pointer after the first member, and then after the others. -/
theorem seenBacklog_cons {first : String × Value} {rest : List (String × Value)}
    (absent : first.1 ∉ rest.map Prod.fst) (backlog : BacklogRef) :
    seenBacklog (first :: rest) backlog = seenBacklog rest (seenBacklog [first] backlog) := by
  obtain ⟨key, value⟩ := first
  by_cases isBacklog : key = strBacklog
  · have none_left : strBacklog ∉ rest.map Prod.fst := by
      rw [← isBacklog]
      exact absent
    rw [seenBacklog_of_absent none_left]
    unfold seenBacklog
    simp only [Value.lookup, if_pos isBacklog]
  · rw [seenBacklog_skip isBacklog, seenBacklog_skip isBacklog]
    rfl

/-- A member that is not the subnets only moves the pointer. -/
theorem openMembers_other {key : String} (other : key ≠ strSubnets) (value : Value)
    (rest : List (String × Value)) (tree : OpenTree) (backlog : BacklogRef) :
    openMembers ((key, value) :: rest) tree backlog =
      openMembers rest tree (seenBacklog [(key, value)] backlog) := by
  conv_lhs => unfold openMembers
  rw [if_neg other]
  unfold seenBacklog
  by_cases isBacklog : key = strBacklog
  · simp only [if_pos isBacklog, Value.lookup]
    cases value <;> rfl
  · simp only [if_neg isBacklog, Value.lookup]

theorem beforeSubnets_skip {key : String} (other : key ≠ strSubnets) (value : Value)
    (rest : List (String × Value)) :
    beforeSubnets ((key, value) :: rest) = (key, value) :: beforeSubnets rest := by
  unfold beforeSubnets
  rw [List.takeWhile_cons_of_pos]
  exact decide_eq_true other

/-- What the loop over the members comes to. -/
theorem openMembers_eq {members : List (String × Value)}
    (distinct : (members.map Prod.fst).Nodup) (tree : OpenTree) (backlog : BacklogRef) :
    openMembers members tree backlog =
      match Value.lookup strSubnets members with
      | none => .ok (true, tree, seenBacklog members backlog)
      | some (.array items) =>
          openSubnets items >>= fun whole =>
            .ok (whole, { tree with subnets := some items.length },
              seenBacklog (if whole then members else beforeSubnets members) backlog)
      | some _ => .error .jsonType := by
  induction members generalizing tree backlog with
  | nil => rfl
  | cons first rest hypothesis =>
      obtain ⟨key, value⟩ := first
      obtain ⟨absent, later⟩ := List.nodup_cons.mp distinct
      have apart : strSubnets ≠ strBacklog := of_decide_eq_true rfl
      by_cases isSubnets : key = strSubnets
      · unfold openMembers
        rw [if_pos isSubnets, Value.lookup, if_pos isSubnets]
        have none_left : Value.lookup strSubnets rest = none := by
          apply Value.lookup_eq_none
          rw [← isSubnets]
          exact absent
        have visited : beforeSubnets ((key, value) :: rest) = [] := by
          unfold beforeSubnets
          rw [List.takeWhile_cons_of_neg]
          simp [isSubnets]
        cases value with
        | array items =>
            apply bind_congr
            intro whole
            cases whole with
            | true =>
                simp only [if_true]
                rw [hypothesis later, none_left, seenBacklog_skip (isSubnets ▸ apart)]
            | false =>
                simp only [Bool.false_eq_true, if_false]
                rw [visited]
                rfl
        | _ => rfl
      · rw [openMembers_other isSubnets, hypothesis later, Value.lookup, if_neg isSubnets,
          beforeSubnets_skip isSubnets, seenBacklog_cons absent]
        have absentBefore : (key, value).1 ∉ (beforeSubnets rest).map Prod.fst := by
          intro member
          apply absent
          exact (List.takeWhile_sublist _).map Prod.fst |>.subset member
        cases Value.lookup strSubnets rest with
        | none => rfl
        | some found =>
            cases found with
            | array items =>
                apply bind_congr
                intro whole
                cases whole with
                | true => simp only [if_true, seenBacklog_cons absent]
                | false =>
                    simp only [Bool.false_eq_true, if_false, seenBacklog_cons absentBefore]
            | _ => rfl

/-! ## Loading -/

/-- The pointer to the first node array. -/
theorem firstNodes_eq {members : List (String × Value)} {first : Value} {rest : List Value}
    (subnets : Value.lookup strSubnets members = some (.array (first :: rest)))
    {nw : NwCfg} (root : nw.root = some (.object members)) :
    nw.firstNodes =
      match first.get strNodes with
      | some .null => none
      | other => other := by
  have path : (Value.object members).seek nodesPath = first.get strNodes := by
    have array : (Value.object members).get strSubnets = some (.array (first :: rest)) := subnets
    simp only [nodesPath, Value.seek, Value.child, array, List.getElem?_cons_zero]
    cases first.get strNodes with
    | none => rfl
    | some value => rfl
  unfold NwCfg.firstNodes
  cases found : first.get strNodes with
  | none => simp only [root, Option.bind_some, path, found]
  | some value => cases value <;> simp only [root, Option.bind_some, path, found]

/-- An opened file, before its nodes are loaded. -/
def openedAs (members : List (String × Value)) (subnets : Option Nat) (stamp : UInt32)
    (backlog : BacklogRef) : NwCfg :=
  { tree := some { root := .object members, subnets := subnets }
    synctime := stamp
    autoflush := true
    backlog := backlog }

theorem openJsonFile_object {file : SavedFile} {members : List (String × Value)}
    (content : file.content = some (.object members))
    (distinct : (members.map Prod.fst).Nodup) (nw : NwCfg) :
    openJsonFile file nw =
      loadSynctime (.object members) nw.jsonCfgClose.synctime >>= fun stamp =>
        match Value.lookup strSubnets members with
        | none => .ok (true,
            openedAs members none stamp (seenBacklog members nw.jsonCfgClose.backlog))
        | some (.array items) =>
            openSubnets items >>= fun whole =>
              let opened := openedAs members (some items.length) stamp
                (seenBacklog (if whole then members else beforeSubnets members)
                  nw.jsonCfgClose.backlog)
              .ok (whole, if whole then opened else opened.jsonCfgClose)
        | some _ => .error .jsonType := by
  unfold openJsonFile
  rw [content]
  apply bind_congr
  intro stamp
  rw [openMembers_eq distinct]
  cases Value.lookup strSubnets members with
  | none => rfl
  | some subnets =>
      cases subnets with
      | array items =>
          dsimp only
          cases openSubnets items with
          | error abort => rfl
          | ok whole => rfl
      | _ => rfl

theorem loadBacklog_ok {env : LoadEnv} {members : List (String × Value)} {nw : NwCfg}
    (subnets : Option Nat) (stamp : UInt32) (db : CfgDb) :
    (∃ loaded, loadBacklog env (openedAs members subnets stamp
      (seenBacklog members nw.jsonCfgClose.backlog)) db = .ok loaded) ↔
      BacklogReadable env.templates members nw := by
  have held : ∀ backlog, (openedAs members subnets stamp backlog).root.bind (·.get strBacklog) =
      Value.lookup strBacklog members := fun _ => rfl
  unfold loadBacklog BacklogReadable
  rw [held]
  unfold seenBacklog
  cases Value.lookup strBacklog members with
  | none =>
      simp only [openedAs]
      cases nw.jsonCfgClose.backlog with
      | absent => simp
      | member => simp [loadNodeValue]
      | freed => simp
  | some value =>
      cases value with
      | array items => exact loadNodeArr_ok_iff env.templates (env.fresh true) true items 0 db
      | null => simp [openedAs]
      | _ => simp [openedAs, loadNodeValue]

/-- Loading the nodes of an opened file. -/
theorem loadNodes_opened {env : LoadEnv} {members : List (String × Value)} {first : Value}
    {rest : List Value}
    (subnets : Value.lookup strSubnets members = some (.array (first :: rest)))
    (stamp : UInt32) (backlog : BacklogRef) (db : CfgDb) :
    loadNodes env (openedAs members (some (first :: rest).length) stamp backlog) db =
      match first.get strNodes with
      | none | some .null => .ok (false, db)
      | some (.array items) =>
          loadNodeArr env.templates (env.fresh false) false 0 items db >>= fun middle =>
            loadBacklog env (openedAs members (some (first :: rest).length) stamp backlog)
              middle >>= fun last => .ok (true, last)
      | some _ => .error .jsonType := by
  have root : (openedAs members (some (first :: rest).length) stamp backlog).root =
      some (.object members) := rfl
  have counted : (openedAs members (some (first :: rest).length) stamp backlog).subnets =
      some (rest.length + 1) := rfl
  unfold loadNodes
  rw [counted, firstNodes_eq subnets root]
  cases first.get strNodes with
  | none => rfl
  | some nodes =>
      cases nodes with
      | _ => rfl

/-- Only an object does not stop the program. -/
theorem reload_object {env : LoadEnv} {force : Bool} {file : SavedFile} {nw : NwCfg}
    {db : CfgDb} {outcome : Bool × NwCfg × CfgDb}
    (done : reloadNodesFile env force file nw db = .ok outcome) :
    ∃ members, file.content = some (.object members) := by
  obtain ⟨_, opens, _⟩ := bind_ok.mp done
  unfold openJsonFile at opens
  split at opens
  · rename_i members content
    exact ⟨members, content⟩
  · cases opens

/-- Every file is loaded, refused, or stops the program. -/
theorem reload_cases {env : LoadEnv} {force loaded : Bool} {file : SavedFile}
    {nw after : NwCfg} {db result : CfgDb} {members : List (String × Value)}
    (content : file.content = some (.object members))
    (distinct : (members.map Prod.fst).Nodup)
    (done : reloadNodesFile env force file nw db = .ok (loaded, after, result)) :
    StampReadable (.object members) ∧
      ((loaded = true ∧ Accepted env.templates members nw) ∨
        (loaded = false ∧ ∃ visited clears, Refused members visited clears)) := by
  simp only [reloadNodesFile, openJsonFile_object content distinct, bind_ok] at done
  obtain ⟨⟨opened, middle⟩, ⟨stamp, stamped, opens⟩, done⟩ := done
  refine ⟨loadSynctime_ok.mp ⟨stamp, stamped⟩, ?_⟩
  cases subnets : Value.lookup strSubnets members with
  | none =>
      rw [subnets] at opens
      cases opens
      simp only [if_true, loadJsonFile, bind_ok] at done
      obtain ⟨⟨isLoaded, last⟩, loads, result⟩ := done
      cases loads
      cases result
      exact .inr ⟨rfl, members, true, .noSubnets subnets⟩
  | some value =>
      rw [subnets] at opens
      cases value with
      | array items =>
          simp only [bind_ok] at opens
          obtain ⟨whole, subnetsOpen, opens⟩ := opens
          cases whole with
          | false =>
              cases opens
              cases done
              obtain ⟨before, item, after, rfl, fine, refid, without⟩ :=
                openSubnets_false.mp subnetsOpen
              exact .inr ⟨rfl, _, false, .noNodes subnets fine refid without⟩
          | true =>
              cases opens
              have fine := openSubnets_true.mp subnetsOpen
              simp only [if_true, loadJsonFile, bind_ok] at done
              obtain ⟨⟨isLoaded, last⟩, loads, result⟩ := done
              cases items with
              | nil => cases loads
              | cons first rest =>
                  obtain ⟨nodes, held⟩ := (fine first List.mem_cons_self).nodes
                  rw [loadNodes_opened subnets, held] at loads
                  cases nodes with
                  | null =>
                      cases loads
                      cases result
                      exact .inr ⟨rfl, members, true, .nullNodes subnets fine held⟩
                  | array nodes =>
                      simp only [bind_ok] at loads
                      obtain ⟨filled, nodesLoad, finished, backlogLoads, loads⟩ := loads
                      have backlog := (loadBacklog_ok _ _ _).mp ⟨finished, backlogLoads⟩
                      have entries := (loadNodeArr_ok_iff _ _ _ _ _ _).mp ⟨filled, nodesLoad⟩
                      cases loads
                      cases result
                      exact .inl ⟨rfl, first, rest, nodes, subnets, fine, held, entries,
                        backlog⟩
                  | _ => cases loads
      | _ => cases opens

/-- An accepted file is loaded. -/
theorem reload_accepted {env : LoadEnv} {force : Bool} {file : SavedFile} {nw : NwCfg}
    {db : CfgDb} {members : List (String × Value)}
    (content : file.content = some (.object members))
    (distinct : (members.map Prod.fst).Nodup) (stamped : StampReadable (.object members))
    (accepted : Accepted env.templates members nw) :
    ∃ after result, reloadNodesFile env force file nw db = .ok (true, after, result) := by
  obtain ⟨stamp, reads⟩ : ∃ stamp,
      loadSynctime (.object members) nw.jsonCfgClose.synctime = .ok stamp :=
    loadSynctime_ok.mpr stamped
  obtain ⟨first, rest, nodes, subnets, fine, held, entries, backlogReads⟩ := accepted
  have opened := openSubnets_true.mpr fine
  obtain ⟨filled, nodesLoad⟩ := (loadNodeArr_ok_iff env.templates (env.fresh false) false nodes
    0 (clearedFor force db)).mpr entries
  obtain ⟨finished, backlog⟩ := (loadBacklog_ok (some (first :: rest).length) stamp filled).mpr
    backlogReads
  have loads : loadNodeArr env.templates (env.fresh false) false 0 nodes
      (if force then db.cfgdbRemoveAllNodes.cfgdbRemoveAllUpl else db) = .ok filled := nodesLoad
  simp only [reloadNodesFile, openJsonFile_object content distinct, reads, ok_bind, subnets,
    opened, if_true, loadJsonFile, loadNodes_opened subnets, held, loads, backlog]
  exact ⟨_, _, rfl⟩

/-- A refused file leaves no tree, and the trees of devices may be empty. -/
theorem reload_refused {env : LoadEnv} {force : Bool} {file : SavedFile} {nw : NwCfg}
    {db : CfgDb} {members visited : List (String × Value)} {clears : Bool}
    (content : file.content = some (.object members))
    (distinct : (members.map Prod.fst).Nodup) (stamped : StampReadable (.object members))
    (refused : Refused members visited clears) :
    ∃ stamp, reloadNodesFile env force file nw db =
      .ok (false, { tree := none, synctime := stamp, autoflush := true,
                    backlog := (seenBacklog visited nw.jsonCfgClose.backlog).close },
        clearedFor (clears && force) db) := by
  obtain ⟨stamp, reads⟩ : ∃ stamp,
      loadSynctime (.object members) nw.jsonCfgClose.synctime = .ok stamp :=
    loadSynctime_ok.mpr stamped
  refine ⟨stamp, ?_⟩
  simp only [reloadNodesFile, openJsonFile_object content distinct, reads, ok_bind]
  cases refused with
  | @noNodes before after item subnets fine refid without =>
      have opened : openSubnets (before ++ item :: after) = .ok false :=
        openSubnets_false.mpr ⟨before, item, after, rfl, fine, refid, without⟩
      simp only [subnets, opened, ok_bind]
      rfl
  | noSubnets absent =>
      simp only [absent, ok_bind, if_true]
      rfl
  | nullNodes subnets fine null =>
      have opened := openSubnets_true.mpr fine
      simp only [subnets, opened, ok_bind, if_true, loadJsonFile,
        loadNodes_opened subnets, null]
      rfl

/-!
## The whole load

The tree in memory is closed before the new one is looked at.  So a refusal is harmless only
where there was nothing to lose.
-/

theorem clearedFor_get {cleared : Bool} {db : CfgDb} :
    (∀ spot, (clearedFor cleared db).get spot = db.get spot) ↔
      (cleared = true → ∀ spot, spot.tree ≠ .backlog → db.get spot = none) := by
  cases cleared with
  | false => simp [clearedFor]
  | true =>
      have unprov : ∀ uuid,
          db.cfgdbRemoveAllNodes.cfgdbRemoveAllUpl.get (.unprovDevs uuid) = none := by
        intro uuid
        simp [CfgDb.get, CfgDb.cfgdbRemoveAllUpl]
      have nodes : ∀ addr,
          db.cfgdbRemoveAllNodes.cfgdbRemoveAllUpl.get (.nodes addr) = none := by
        intro addr
        simp [CfgDb.get, CfgDb.cfgdbRemoveAllUpl, CfgDb.cfgdbRemoveAllNodes]
      constructor
      · intro same _ spot notBacklog
        rw [← same spot]
        cases spot with
        | unprovDevs uuid => exact unprov uuid
        | nodes addr => exact nodes addr
        | backlog uuid => exact absurd rfl notBacklog
      · intro empty spot
        cases spot with
        | unprovDevs uuid =>
            rw [empty rfl (.unprovDevs uuid) (by rintro ⟨⟩)]
            exact unprov uuid
        | nodes addr =>
            rw [empty rfl (.nodes addr) (by rintro ⟨⟩)]
            exact nodes addr
        | backlog uuid => rfl

theorem heap_clearedFor (cleared : Bool) (db : CfgDb) :
    (clearedFor cleared db).heap = db.heap := by
  cases cleared <;> rfl

/-- A refusal changes nothing exactly when there is nothing to lose. -/
theorem unchanged_iff {host : NodesHost} {visited : List (String × Value)} {cleared : Bool}
    {stamp : UInt32} :
    Unchanged host
        { host with
          mng := host.mng.setDb (clearedFor cleared host.mng.db)
          nw := { tree := none, synctime := stamp, autoflush := true,
                  backlog := (seenBacklog visited host.nw.jsonCfgClose.backlog).close } } ↔
      NothingToLose visited cleared host := by
  have untouched : host.nw.tree = none → host.nw.jsonCfgClose = host.nw := by
    intro closed
    unfold NwCfg.jsonCfgClose
    rw [closed]
  constructor
  · intro unchanged
    have closed : host.nw.tree = none := unchanged.tree.symm
    have backlog := unchanged.backlog
    rw [untouched closed] at backlog
    exact ⟨closed, backlog, clearedFor_get.mp unchanged.trees⟩
  · rintro ⟨closed, backlog, devices⟩
    rw [← untouched closed] at backlog
    exact
      { trees := clearedFor_get.mpr devices
        records := heap_clearedFor cleared host.mng.db
        lists := rfl
        tree := closed.symm
        backlog := by rw [backlog, untouched closed] }

/-- What follows the opening of the file. -/
def afterOpen (inDdb : Uuid → Bool) (clock : SaveClock) (host : NodesHost) :
    Bool × NwCfg × CfgDb → Except Abort (Bool × NodesHost)
  | (true, nw, db) =>
      let (nw, file) := jsonCfgFlush clock nw host.file
      .ok (true, { mng := mngLoadLists inDdb (host.mng.setDb db), nw := nw, file := file })
  | (false, nw, db) => .ok (false, { host with mng := host.mng.setDb db, nw := nw })

theorem loadCfgFile_eq (env : LoadEnv) (inDdb : Uuid → Bool) (clock : SaveClock)
    (force : Bool) (host : NodesHost) :
    loadCfgFile env inDdb clock force host =
      (if upToDate host.file host.nw && !force then .ok (true, host.nw, host.mng.db)
        else reloadNodesFile env force host.file host.nw host.mng.db) >>=
          afterOpen inDdb clock host := by
  apply bind_congr
  rintro ⟨loaded, nw, db⟩
  cases loaded with
  | true => rfl
  | false => rfl

/-- A load is atomic exactly when there is nothing to load, the file is accepted, or it is
refused and there is nothing to lose.  A refused file has replaced the open tree by then, and the
records of the old one may be gone. -/
theorem load_atomic_iff {env : LoadEnv} {inDdb : Uuid → Bool} {clock : SaveClock}
    {force : Bool} {host : NodesHost}
    (distinct : ∀ members, host.file.content = some (.object members) →
      (members.map Prod.fst).Nodup) :
    Atomic host (loadCfgFile env inDdb clock force host) ↔ AtomicWhen env force host := by
  rw [loadCfgFile_eq]
  by_cases current : upToDate host.file host.nw = true ∧ force = false
  · have nothing : (upToDate host.file host.nw && !force) = true := by
      rw [current.1, current.2]
      rfl
    rw [if_pos nothing]
    constructor
    · intro _
      exact .inl current
    · intro _
      trivial
  · have stale : ¬ (upToDate host.file host.nw && !force) = true := by
      intro nothing
      apply current
      cases force with
      | true => simp at nothing
      | false => simpa using nothing
    rw [if_neg stale]
    constructor
    · intro atomic
      cases done : reloadNodesFile env force host.file host.nw host.mng.db with
      | error abort =>
          rw [done] at atomic
          cases atomic
      | ok outcome =>
          obtain ⟨loaded, after, result⟩ := outcome
          rw [done] at atomic
          obtain ⟨members, content⟩ := reload_object done
          obtain ⟨stamped, outcome⟩ := reload_cases content (distinct members content) done
          refine .inr ⟨members, content, stamped, ?_⟩
          rcases outcome with ⟨_, accepted⟩ | ⟨isRefused, visited, clears, refused⟩
          · exact .inl accepted
          · obtain ⟨stamp, refuses⟩ := reload_refused content (distinct members content)
              stamped refused
            rw [done] at refuses
            cases refuses
            exact .inr ⟨visited, clears, refused, unchanged_iff.mp atomic⟩
    · rintro (impossible | ⟨members, content, stamped, accepted | refused⟩)
      · exact absurd impossible current
      · obtain ⟨after, result, loads⟩ := reload_accepted content (distinct members content)
          stamped accepted
        rw [loads]
        trivial
      · obtain ⟨visited, clears, refusal, nothing⟩ := refused
        obtain ⟨stamp, refuses⟩ := reload_refused content (distinct members content)
          stamped refusal
        rw [refuses]
        exact unchanged_iff.mpr nothing

/-- A manager with one node, with a file on the disk and another one in memory. -/
def NodesHost.sample (nw : NwCfg) (content : Value) : NodesHost :=
  { mng := .around (Engine.small (Node.plain 2)), nw := nw
    file := { content := some content, mtime := 5 } }

/-- The load ends, with or without an error, and what it leaves passes the test. -/
def loadEnds (loaded : Bool) (result : Except Abort (Bool × NodesHost))
    (test : NodesHost → Bool) : Bool :=
  match result with
  | .ok (outcome, after) => outcome == loaded && test after
  | .error _ => false

theorem ends_of_loadEnds {loaded : Bool} {result : Except Abort (Bool × NodesHost)}
    {test : NodesHost → Bool} (passed : loadEnds loaded result test = true) :
    ∃ after, result = .ok (loaded, after) ∧ test after = true := by
  unfold loadEnds at passed
  split at passed
  · rw [Bool.and_eq_true, beq_iff_eq] at passed
    rw [passed.1]
    exact ⟨_, rfl, passed.2⟩
  · cases passed

/-- An entry with a setting, one with a publication that is malformed, and one that is not
complete. -/
def sampleEntries : List Value :=
  [nodeObject [(strTtl, .string "0x05".toList)],
    nodeObject [(strPub, .object [(strPeriod, .string "often".toList), (strTtl, .null)])],
    .object [(strUuid, .string "00112233445566778899aabbccddeeff".toList)]]

def sampleContent : List (String × Value) :=
  [(strSubnets, .array [.object [(strNodes, .array sampleEntries)]]),
    (strBacklog, .array [nodeObject [(strAddr, .string "0x0000".toList)]])]

/-- A host without devices, that has read no file. -/
def NodesHost.bare (content : Value) : NodesHost :=
  { mng := (NodesHost.sample .zeroed content).mng.setDb .cfgdbInit, nw := .zeroed
    file := { content := some content, mtime := 5 } }

theorem sampleEntries_readable :
    ∀ item ∈ sampleEntries, EntryReadable noTemplates.templates item := by
  apply (loadNodeArr_ok_iff _ (noTemplates.fresh false) false _ 0 .cfgdbInit).mp
  have runs : (loadNodeArr noTemplates.templates (noTemplates.fresh false) false 0
      sampleEntries .cfgdbInit).toOption.isSome = true := by decide +kernel
  obtain ⟨after, computed⟩ := Option.isSome_iff_exists.mp runs
  exact ⟨after, ok_of_toOption computed⟩

theorem sampleBacklog_readable :
    BacklogReadable noTemplates.templates sampleContent .zeroed := by
  change ∀ item ∈ [nodeObject [(strAddr, .string "0x0000".toList)]], _
  apply (loadNodeArr_ok_iff _ (noTemplates.fresh true) true _ 0 .cfgdbInit).mp
  have runs : (loadNodeArr noTemplates.templates (noTemplates.fresh true) true 0
      [nodeObject [(strAddr, .string "0x0000".toList)]] .cfgdbInit).toOption.isSome = true := by
    decide +kernel
  obtain ⟨after, computed⟩ := Option.isSome_iff_exists.mp runs
  exact ⟨after, ok_of_toOption computed⟩

/-- The first load of a file with entries and a backlog; and a forced load of a file without
subnets, into a host that has nothing to lose. -/
theorem load_atomic_iff_first :
    Atomic (.sample .zeroed (.object sampleContent))
      (loadCfgFile noTemplates (fun _ => false) { time := 8, mtime := 8 } false
        (.sample .zeroed (.object sampleContent))) ∧
    ∃ after, loadCfgFile noTemplates (fun _ => false) { time := 8, mtime := 8 } true
        (.bare (.object [])) = .ok (false, after) ∧
      Unchanged (.bare (.object [])) after := by
  constructor
  · have distinct : ∀ members,
        (NodesHost.sample .zeroed (.object sampleContent)).file.content =
          some (.object members) → (members.map Prod.fst).Nodup := by
      intro members content
      cases content
      decide
    have fine : ∀ item ∈ [Value.object [(strNodes, .array sampleEntries)]],
        SubnetFine item := by
      intro item member
      rw [List.mem_singleton.mp member]
      refine ⟨?_, _, rfl⟩
      intro value impossible
      cases impossible
    have stamped : StampReadable (.object sampleContent) := by
      intro value impossible
      cases impossible
    have accepted : AtomicWhen noTemplates false (.sample .zeroed (.object sampleContent)) :=
      .inr ⟨sampleContent, rfl, stamped, .inl ⟨_, [], sampleEntries, rfl, fine, rfl,
        sampleEntries_readable, sampleBacklog_readable⟩⟩
    rw [load_atomic_iff distinct]
    exact accepted
  · have distinct : ∀ members, (NodesHost.bare (.object [])).file.content =
        some (.object members) → (members.map Prod.fst).Nodup := by
      intro members content
      cases content
      exact List.nodup_nil
    have stamped : StampReadable (.object []) := by
      intro value impossible
      cases impossible
    have nothing : NothingToLose [] (true && true) (.bare (.object [])) :=
      { closed := rfl
        backlog := rfl
        devices := by
          intro _ spot _
          exact CfgDb.get_cfgdbInit spot }
    have refused : AtomicWhen noTemplates true (.bare (.object [])) :=
      .inr ⟨[], rfl, stamped, .inr ⟨[], true, .noSubnets rfl, nothing⟩⟩
    have atomic := (@load_atomic_iff noTemplates (fun _ => false) { time := 8, mtime := 8 }
      true (.bare (.object [])) distinct).mpr refused
    have shown : loadEnds false (loadCfgFile noTemplates (fun _ => false)
        { time := 8, mtime := 8 } true (.bare (.object []))) (fun _ => true) = true := by
      decide +kernel
    obtain ⟨after, ends, _⟩ := ends_of_loadEnds shown
    rw [ends] at atomic
    exact ⟨after, ends, atomic⟩

/-- A forced load of a file without subnets: after the error the node is gone from the
database, while a list of the manager still holds it. -/
theorem load_loses_devices :
    ¬ ∀ (env : LoadEnv) (inDdb : Uuid → Bool) (clock : SaveClock) (force : Bool)
      (host : NodesHost),
      (∀ members, host.file.content = some (.object members) →
        (members.map Prod.fst).Nodup) →
      Atomic host (loadCfgFile env inDdb clock force host) := by
  intro claim
  let host := NodesHost.sample (openedAs [] none 1 .absent) (.object [])
  have distinct : ∀ members, host.file.content = some (.object members) →
      (members.map Prod.fst).Nodup := by
    intro members content
    cases content
    exact List.nodup_nil
  have shown : loadEnds false
      (loadCfgFile noTemplates (fun _ => false) { time := 8, mtime := 8 } true host)
      (fun after => (after.mng.db.get (.nodes 2)).isNone && after.mng.lists.config == [0] &&
        host.mng.db.get (.nodes 2) == some 0) = true := by decide +kernel
  obtain ⟨after, refused, lost⟩ := ends_of_loadEnds shown
  have atomic := claim noTemplates (fun _ => false) { time := 8, mtime := 8 } true host distinct
  rw [refused] at atomic
  have same := atomic.trees (.nodes 2)
  simp only [Bool.and_eq_true, Option.isNone_iff_eq_none, beq_iff_eq] at lost
  rw [lost.1.1, lost.2] at same
  cases same

end Nwmng
