/-
Module: Nwmng.Config.DoneSound
Purpose: A node that is found configured has completed every state it has to since it last
received its address, over attempts, removals, blacklistings, new addresses and loads of the
nodes file.
Trusted boundary: none
Main exports:
  Behind, Host.Sound, FileLoad, LifeOp, LifeOp.run, LifeRun, LifeOp.Admitted,
  done_sound_guarded, blacklisted_node_skips
-/
import Nwmng.Cfg.NodesFile
import Nwmng.Config.ErrorMask
import Nwmng.Config.Progress

namespace Nwmng

open Transition Fallible Json

/-! ## Resuming -/

/-- The states before this one have been completed, as far as the configuration of the node asks
for them. -/
def Behind (host : Host) (id : NodeId) (state : AccState) : Prop :=
  ∀ earlier : AccState, earlier.code < state.code →
    (host.db.heap id).config.asksFor earlier = true →
      completedSince (host.db.heap id).uuid earlier host.log = true

/-- No mask leads past a state that has not been completed.  A configuration that failed is
resumed at the state its error mask names.  Every state before that one is skipped, so it must
have been completed since the device was given its address. -/
def Host.ResumeSound (host : Host) : Prop :=
  ∀ id < host.db.next, ∀ state, resumesAt (host.db.heap id).err = some state →
    Behind host id state

/-- What has been found configured was, and what the masks skip has been done.  The two facts are
kept together, because `Done` is set by a slot that may have started from a mask. -/
structure Host.Sound (host : Host) : Prop where
  done : DoneSound host.log
  resume : host.ResumeSound

/-! ## The life of a device

The slots configure devices while the main loop goes on around them: devices are provisioned,
removed and blacklisted, the program is restarted, and the nodes file, which may have been
edited, is loaded at the start of a sync and by the commands that edit it. -/

/-- A call of `load_cfg_file` for the nodes file, with what it finds: the templates, the file,
and the tree in memory. -/
structure FileLoad where
  env : LoadEnv
  force : Bool
  file : SavedFile
  nw : NwCfg

/-- The records that a load leaves. -/
def FileLoad.run (load : FileLoad) (db : CfgDb) : Except Abort CfgDb := do
  let (_, _, db) ← jsonCfgOpen load.env load.force load.file load.nw db
  .ok db

/-- What happens to the devices of a network.  Besides the functions that move nodes, a run edits
the file, loads it again and restarts the program: these are the places where a record comes to
hold a mask that the running program has not computed. -/
inductive LifeOp where
  /-- one call of `acc_loop` -/
  | iterate (now : Nat) (input : Slot → RoundInput)
  /-- one call of `dev_config_hdr` -/
  | receive (packet : ConfigEvent) (input : EventInput)
  /-- one call of `on_prov_success`, which calls `upl_nodeset_addr` -/
  | provisioned (uuid : Uuid) (addr : UInt16)
  /-- one call of `nodes_bl` -/
  | blacklisted (addr : UInt16)
  /-- a command, or another part of the main loop: it leaves the slots and the records -/
  | outside (cfg : ProvCfg) (stat : Stat) (lists : Lists) (state : MngState)
  /-- a load of the nodes file, after which the lists are made anew -/
  | loaded (load : FileLoad) (lists : Lists)
  /-- the program ends and starts again, with the records that it has stored; what has been
  edited in the file meanwhile is a load that follows -/
  | restarted (lists : Lists) (state : MngState)

def LifeOp.run (engine : Engine) : LifeOp → Except Abort Engine
  | .iterate now input => accLoop now input engine
  | .receive packet input => devConfigHdr packet input engine
  | .provisioned uuid addr => engine.onProvSuccess uuid addr
  | .blacklisted addr => do
      let db ← engine.host.db.nodesBl addr
      .ok { engine with host := { engine.host with db := db } }
  | .outside cfg stat lists state =>
      .ok { engine with
        host := { engine.host with cfg := cfg, stat := stat }, lists := lists, state := state }
  | .loaded load lists => do
      let db ← load.run engine.host.db
      .ok { engine with host := { engine.host with db := db }, lists := lists }
  | .restarted lists state =>
      .ok { engine with used := 0, cache := fun _ => .reset, lists := lists, state := state }

/-- The record of a slot is one of the database, filed under its address. -/
def Engine.Filed (engine : Engine) (slot : Slot) : Prop :=
  ∀ id ∈ (engine.cache slot).node, id < engine.host.db.next ∧
    engine.host.db.cfgdbNodeGet (engine.host.db.heap id).addr = some id

instance (engine : Engine) (slot : Slot) : Decidable (engine.Filed slot) :=
  inferInstanceAs (Decidable (∀ id ∈ (engine.cache slot).node, id < engine.host.db.next ∧
    engine.host.db.cfgdbNodeGet (engine.host.db.heap id).addr = some id))

/-- The configuration asks for a state before this one. -/
def MeshConfig.asksBefore (config : MeshConfig) (state : AccState) : Bool :=
  [AccState.addappkeyEm, .bindappkeyEm, .setpubEm, .addsubEm, .setconfigEm].any fun earlier =>
    earlier.code < state.code && config.asksFor earlier

/-- A device without an address has nothing behind it: the mask stored for it skips no state that
its configuration asks for, and no slot works on it. -/
def Engine.StartsOver (engine : Engine) (uuid : Uuid) : Prop :=
  (∀ id < engine.host.db.next, (engine.host.db.heap id).uuid = uuid →
    (resumesAt (engine.host.db.heap id).err).any
      (engine.host.db.heap id).config.asksBefore = false) ∧
  ∀ slot, engine.occupied slot = true → ∀ id ∈ (engine.cache slot).node,
    (engine.host.db.heap id).uuid ≠ uuid

instance (engine : Engine) (uuid : Uuid) : Decidable (engine.StartsOver uuid) :=
  inferInstanceAs (Decidable (_ ∧ ∀ slot, engine.occupied slot = true →
    ∀ id ∈ (engine.cache slot).node, (engine.host.db.heap id).uuid ≠ uuid))

/-- A device of the database had this mask, and its configuration asked for the state.  It is
what a load must respect: an entry whose mask is kept may not ask for a state that the mask skips
and that nobody had asked for before. -/
def CfgDb.Asked (db : CfgDb) (node : Node) (state : AccState) : Prop :=
  ∃ id < db.next, (db.heap id).uuid = node.uuid ∧ (db.heap id).err = node.err ∧
    (db.heap id).config.asksFor state = true

instance askedDecidable (db : CfgDb) (node : Node) (state : AccState) :
    Decidable (db.Asked node state) :=
  inferInstanceAs (Decidable (∃ id < db.next, _))

/-- The states that a mask leads past, as far as a configuration asks for them, were asked for
with the same mask before. -/
def Node.AskedBefore (node : Node) (db : CfgDb) : Prop :=
  ∀ earlier ∈ [AccState.addappkeyEm, .bindappkeyEm, .setpubEm, .addsubEm, .setconfigEm],
    (resumesAt node.err).any (fun state => decide (earlier.code < state.code)) = true →
      node.config.asksFor earlier = true → db.Asked node earlier

instance (node : Node) (db : CfgDb) : Decidable (node.AskedBefore db) :=
  inferInstanceAs (Decidable (∀ earlier ∈ _, _ → _ → db.Asked node earlier))

/-- A load of the nodes file asks for nothing new that the masks of its entries skip, and
leaves the nodes that the slots work on with their devices and their tasks. -/
def Engine.LoadsInStep (engine : Engine) (db : CfgDb) : Prop :=
  (∀ id < db.next, (db.heap id).AskedBefore engine.host.db) ∧
    ∀ slot, engine.occupied slot = true → ∀ id ∈ (engine.cache slot).node,
      (engine.host.db.heap id).SameTask (db.heap id)

instance (engine : Engine) (db : CfgDb) : Decidable (engine.LoadsInStep db) :=
  inferInstanceAs (Decidable (_ ∧ ∀ slot, engine.occupied slot = true →
    ∀ id ∈ (engine.cache slot).node, (engine.host.db.heap id).SameTask (db.heap id)))

/-- The condition on a step: a slot that takes a turn works on a record of the database, a
device that gets an address starts over, and a load of the file stays in step with what was
asked for before. -/
def LifeOp.Admitted (engine : Engine) : LifeOp → Prop
  | .iterate now input =>
      EngineOp.Guards (fun _ engine slot => engine.Filed slot)
        (fun _ _ engine slot => engine.Filed slot) engine (.iterate now input)
  | .receive packet input =>
      EngineOp.Guards (fun _ engine slot => engine.Filed slot)
        (fun _ _ engine slot => engine.Filed slot) engine (.receive packet input)
  | .provisioned uuid _ => engine.StartsOver uuid
  | .loaded load _ => ∀ db, load.run engine.host.db = .ok db → engine.LoadsInStep db
  | _ => True

instance (engine : Engine) : (op : LifeOp) → Decidable (op.Admitted engine)
  | .iterate now input =>
      inferInstanceAs (Decidable (EngineOp.Guards (fun _ engine slot => engine.Filed slot)
        (fun _ _ engine slot => engine.Filed slot) engine (.iterate now input)))
  | .receive packet input =>
      inferInstanceAs (Decidable (EngineOp.Guards (fun _ engine slot => engine.Filed slot)
        (fun _ _ engine slot => engine.Filed slot) engine (.receive packet input)))
  | .provisioned uuid _ => inferInstanceAs (Decidable (engine.StartsOver uuid))
  | .blacklisted .. => isTrue trivial
  | .outside .. => isTrue trivial
  | .loaded load _ =>
      inferInstanceAs (Decidable (∀ db, load.run engine.host.db = .ok db →
        engine.LoadsInStep db))
  | .restarted .. => isTrue trivial

/-! ## Masks and guards -/

theorem resumesAt_errorBit (state : AccState) :
    resumesAt state.errorBit = if state.resumable then some state else none := by
  cases state <;> rfl

theorem resumesAt_resumable {err : BitVec 32} {state : AccState}
    (resumes : resumesAt err = some state) : state.resumable = true := by
  unfold resumesAt at resumes
  split at resumes
  · have member := List.mem_of_find?_eq_some resumes
    simp only [List.mem_cons, List.not_mem_nil, or_false] at member
    rcases member with rfl | rfl | rfl | rfl | rfl <;> rfl
  · cases resumes

/-- What composition data lead to: behind the own state, to where the mask leads, or nowhere. -/
theorem afterDcd_cases (err : BitVec 32) (cache : ConfigCache) :
    (afterDcd err cache).nextState = none ∨
      (∃ state, resumesAt err = some state ∧ (afterDcd err cache).nextState = some state) ∨
      afterDcd err cache = cache := by
  unfold afterDcd resumesAt
  split
  · cases found : resumeState err with
    | none => exact .inr (.inr rfl)
    | some state => exact .inr (.inl ⟨state, rfl, rfl⟩)
  · exact .inl rfl

theorem AccState.resumable_early {state : AccState} (resumable : state.resumable = true) :
    AccState.getDcdEm.code < state.code ∧ state.code < AccState.endEm.code := by
  cases state <;> first
    | decide
    | cases resumable

/-- A configuration asks for states that can be resumed from only. -/
theorem MeshConfig.asksFor_resumable {config : MeshConfig} {state : AccState}
    (asks : config.asksFor state = true) : state.resumable = true := by
  cases state <;> first
    | rfl
    | cases asks

theorem MeshConfig.asksFor_guard {node : Node} {state : AccState}
    (asks : node.config.asksFor state = true) : guardHolds state node = true := by
  cases state <;> first
    | exact asks
    | cases asks

theorem MeshConfig.asksBefore_false {config : MeshConfig} {state earlier : AccState}
    (none_ : config.asksBefore state = false) (before : earlier.code < state.code) :
    config.asksFor earlier = false := by
  by_contra asks
  have asked : config.asksFor earlier = true := by simpa using asks
  have found : config.asksBefore state = true := by
    unfold MeshConfig.asksBefore
    rw [List.any_eq_true]
    refine ⟨earlier, ?_, by simp [before, asked]⟩
    have resumable := MeshConfig.asksFor_resumable asked
    cases earlier <;> first
      | decide
      | cases resumable
  rw [none_] at found
  cases found

/-! ## The order of the states -/

theorem asGet_ordered (state : AccState) :
    ((asGet state).map AccStateOps.state).Pairwise fun early late => early.code < late.code := by
  cases state <;> decide

theorem mem_asGet {start state : AccState} (known : AccState.getDcdEm.code ≤ start.code)
    (later : start.code ≤ state.code) : state ∈ (asGet start).map AccStateOps.state := by
  revert known later
  cases start <;> cases state <;> decide

/-- The states between two of the list are in between. -/
theorem asGet_between {start between : AccState} {before after : List AccStateOps}
    {ops : AccStateOps} (split : asGet start = before ++ ops :: after)
    (known : AccState.getDcdEm.code ≤ start.code) (later : start.code ≤ between.code)
    (earlier : between.code < ops.state.code) :
    ∃ other ∈ before, other.state = between := by
  have member := mem_asGet known later
  have ordered := asGet_ordered start
  rw [split, List.map_append, List.map_cons] at member ordered
  rcases List.mem_append.mp member with found | found
  · exact List.mem_map.mp found
  · have behind := (List.pairwise_append.mp ordered).2.1
    rcases List.mem_cons.mp found with rfl | last
    · exact absurd earlier (Nat.lt_irrefl _)
    · have above := (List.pairwise_cons.mp behind).1 between last
      omega

/-!
## Where a slot stands

A slot has brought its node to some state: everything before it is completed, in this life of the
device, as far as the configuration asks for it.  The mask that is stored at the end must not say
more than that.
-/

theorem Behind.early (host : Host) (id : NodeId) {state : AccState}
    (early : state.code ≤ AccState.addappkeyEm.code) : Behind host id state := by
  intro earlier before asks
  have resumable := MeshConfig.asksFor_resumable asks
  cases earlier <;> first
    | exact absurd (Nat.lt_of_lt_of_le before early) (by decide)
    | cases resumable

/-- What has been completed for a record stays completed, and the record keeps its task.
Completions are looked for in the log since the last assignment of an address, so only a new
assignment can undo one. -/
structure Carries (host after : Host) (id : NodeId) : Prop where
  task : (host.db.heap id).SameTask (after.db.heap id)
  completed : ∀ state, completedSince (host.db.heap id).uuid state host.log = true →
    completedSince (host.db.heap id).uuid state after.log = true

theorem Continues.carries {slot : Slot} {host after : Host} (continues : Continues slot host after)
    (id : NodeId) : Carries host after id :=
  ⟨continues.records.records id, fun _ => continues.completed⟩

theorem Behind.kept {host after : Host} {id : NodeId} {state : AccState}
    (behind : Behind host id state) (carries : Carries host after id)
    (early : state.code < AccState.endEm.code) : Behind after id state := by
  intro earlier before asks
  have other : earlier ≠ .setconfigEm := by
    rintro rfl
    exact absurd before (Nat.not_lt.mpr (Nat.le_of_lt_succ early))
  rw [carries.task.asks earlier other] at asks
  rw [carries.task.uuid]
  exact carries.completed earlier (behind earlier before asks)

/-- How far a slot has brought its node.  Whatever lies behind the state of the slot has been
completed, and so has whatever lies behind the state it goes to next, unless it is on its way
out. -/
structure Brought (host : Host) (id : NodeId) (cache : ConfigCache) : Prop where
  behind : cache.state.code < AccState.endEm.code → Behind host id cache.state
  next : ∀ state, cache.nextState = some state → state.code < AccState.endEm.code →
    Behind host id state
  passed : cache.nextState = none → cache.state.resumable = true →
    completedSince (host.db.heap id).uuid cache.state host.log = true
  heads : cache.failed = false → cache.nextState ≠ some .endEm

theorem Brought.kept {host after : Host} {id : NodeId} {cache : ConfigCache}
    (placed : Brought host id cache) (carries : Carries host after id) :
    Brought after id cache where
  behind early := (placed.behind early).kept carries early
  next state same early := (placed.next state same early).kept carries early
  passed none_ resumable := by
    rw [carries.task.uuid]
    exact carries.completed cache.state (placed.passed none_ resumable)
  heads := placed.heads

/-- Work that does not change where the slot goes. -/
theorem Brought.same {host : Host} {id : NodeId} {cache after : ConfigCache}
    (placed : Brought host id cache) (state : after.state = cache.state)
    (next : after.nextState = cache.nextState) (errors : after.errCache = cache.errCache) :
    Brought host id after where
  behind early := by
    rw [state] at early ⊢
    exact placed.behind early
  next other same early := placed.next other (next ▸ same) early
  passed none_ resumable := by
    rw [state] at resumable ⊢
    exact placed.passed (next ▸ none_) resumable
  heads clean := by
    rw [next]
    apply placed.heads
    simpa [ConfigCache.failed, errors] using clean

/-- A command that fails sends the slot to a final state. -/
theorem Brought.fails {host : Host} {id : NodeId} {cache : ConfigCache}
    (placed : Brought host id cache) (state : AccState) (code : UInt16) (origin : BgerrType) :
    Brought host id (cache.errSetTo (finalOf state) code origin) where
  behind early := by
    rw [ConfigCache.errSetTo_state] at early ⊢
    exact placed.behind early
  next other same early := by
    cases same
    rcases finalOf_final state with final | final
    · rw [final] at early
      exact absurd early (by decide)
    · rw [final] at early
      exact absurd early (by decide)
  passed none_ := by cases none_
  heads clean := by
    rw [ConfigCache.errSetTo_failed] at clean
    cases clean

/-- A slot that removes its node has no place among the states that configure it. -/
theorem Brought.of_removing {host : Host} {id : NodeId} {cache : ConfigCache}
    (removes : cache.state = .rmEm) (next : cache.nextState = none) : Brought host id cache where
  behind early := by
    rw [removes] at early
    exact absurd early (by decide)
  next state same := by
    rw [next] at same
    cases same
  passed _ resumable := by
    rw [removes] at resumable
    cases resumable
  heads _ := by
    rw [next]
    intro impossible
    cases impossible

section

variable {slot : Slot} {cache after : ConfigCache} {host host' : Host} {id : NodeId}
  {out : Outcome}

theorem Attempt.placed {state : AccState} {answer : CmdRsp}
    (attempt : Attempt state slot answer cache host out) (placed : Brought host id cache) :
    Brought out.host id out.cache := by
  have moved := placed.kept (attempt.work.onlyWorks.carries id)
  cases attempt with
  | accepted _ _ _ _ _ => exact moved.same rfl rfl rfl
  | outOfMemory _ _ _ _ _ => exact moved.same rfl rfl rfl
  | refused _ vnm _ _ _ =>
      have noted : Brought _ id { cache with vnm := vnm } := moved.same rfl rfl rfl
      exact noted.fails state answer.result .bgapiEm
  | unknown _ => exact placed

theorem AfterResend.placed {reason : RetryReason} (finishes : AfterResend reason cache after)
    (placed : Brought host id cache) : Brought host id after := by
  cases reason with
  | onTimeoutEm =>
      obtain ⟨_, _, rfl⟩ := finishes
      exact placed.same rfl rfl rfl
  | onOomEm =>
      obtain ⟨_, rfl⟩ := finishes
      exact placed.same rfl rfl rfl
  | onGuardTimerExpiredEm =>
      obtain ⟨_, rfl⟩ := finishes
      exact placed.same rfl rfl rfl

theorem Retried.placed {state : AccState} {reason : RetryReason} {answer : CmdRsp}
    (retried : Retried state reason slot answer cache host out) (placed : Brought host id cache) :
    Brought out.host id out.cache := by
  cases retried with
  | unsent attempt _ => exact attempt.placed placed
  | resent attempt _ finishes => exact finishes.placed (attempt.placed placed)

theorem ExceptionStep.placed {manager : MngState} {input : RoundInput}
    (exception : ExceptionStep manager slot input cache host after host')
    (placed : Brought host id cache) : Brought host' id after := by
  cases exception with
  | quiet _ => exact placed
  | @expired out _ _ retried =>
      have counted := (work_countRetry manager slot out.host).onlyWorks.carries id
      exact (retried.placed placed).kept counted
  | @memory out _ _ _ _ retried =>
      have counted := (work_countRetry manager slot out.host).onlyWorks.carries id
      exact (retried.placed placed).kept counted

/-! ## Events -/

theorem afterDcd_state (err : BitVec 32) (cache : ConfigCache) :
    (afterDcd err cache).state = cache.state := by
  unfold afterDcd
  split
  · split <;> rfl
  · rfl

/-- A mask that skips nothing undone leads the slot to a place that it has reached. -/
theorem Brought.resumed (placed : Brought host id cache) (reads : cache.state = .getDcdEm)
    (sound : host.ResumeSound) (inside : id < host.db.next) :
    Brought host id (afterDcd (host.db.heap id).err cache) := by
  have state := afterDcd_state (host.db.heap id).err cache
  have early : ∀ other : AccState, other = .getDcdEm → Behind host id other := by
    rintro other rfl
    exact .early host id (by decide)
  have start : Behind host id (afterDcd (host.db.heap id).err cache).state :=
    early _ (state.trans reads)
  have plain : (afterDcd (host.db.heap id).err cache).state.resumable = false := by
    rw [state, reads]
    rfl
  rcases afterDcd_cases (host.db.heap id).err cache with onward | ⟨later, leads, onward⟩ | stuck
  · refine ⟨fun _ => start, ?_, ?_, ?_⟩
    · intro next same
      rw [onward] at same
      cases same
    · intro _ resumable
      rw [plain] at resumable
      cases resumable
    · intro _
      rw [onward]
      intro impossible
      cases impossible
  · refine ⟨fun _ => start, ?_, ?_, ?_⟩
    · intro next same _
      rw [onward] at same
      cases same
      exact sound id inside later leads
    · intro none_
      rw [onward] at none_
      cases none_
    · intro _
      rw [onward]
      intro final
      cases final
      have resumable := resumesAt_resumable leads
      cases resumable
  · rw [stuck]
    exact placed

/-- A state that has done all it had to do is behind its slot. -/
theorem Brought.finished (placed : Brought host id cache) (next : after.nextState = none)
    (state : after.state = cache.state) :
    Brought
      (host.record (.completed (host.db.heap id).uuid (host.db.heap id).addr cache.state)) id
      after where
  behind early := by
    rw [state] at early ⊢
    have recorded : OnlyWorks 0 host
        (host.record (.completed (host.db.heap id).uuid (host.db.heap id).addr cache.state)) :=
      .logged host trivial rfl
    exact (placed.behind early).kept (recorded.carries id) early
  next other same := by
    rw [next] at same
    cases same
  passed _ _ := by
    rw [state]
    simp [Host.record, completedSince]
  heads _ := by
    rw [next]
    intro impossible
    cases impossible

theorem timedOut_placed (placed : Brought host id cache) :
    Brought host id
      (timedOut (retryTimesOf cache.state) (giveUpOf cache.state) cache.answered) := by
  rcases timedOut_cases (retryTimesOf cache.state) (giveUpOf cache.state) cache.answered with
    ⟨_, same⟩ | ⟨_, _, same⟩ | ⟨_, _, same⟩
  · rw [same]
    exact placed.same rfl rfl rfl
  · rw [same]
    unfold giveUpOf
    by_cases removes : cache.state = .rmEm
    · rw [if_pos removes]
      exact .of_removing removes rfl
    · rw [if_neg removes]
      have cleared : Brought host id cache.answered.retryClear := placed.same rfl rfl rfl
      exact cleared.fails .endEm bgErrTimeout .bgeventEm
  · rw [same]
    exact placed.same rfl rfl rfl

theorem Handled.placed {packet : ConfigEvent} {answer : CmdRsp}
    (handled : Handled cache.state slot packet answer cache host out)
    (placed : Brought host id cache) (here : cache.node = some id) (sound : host.ResumeSound)
    (inside : id < host.db.next) : Brought out.host id out.cache := by
  have answered : Brought host id cache.answered := placed.same rfl rfl rfl
  cases handled with
  | unexpected _ _ => exact placed.same rfl rfl rfl
  | otherPage _ => exact placed.same rfl rfl rfl
  | page _ _ stored =>
      have stays := (storePage_work slot stored).onlyWorks.carries id
      rw [storePage_eq stored]
      exact (placed.kept stays).same rfl rfl rfl
  | timeout _ => exact timedOut_placed placed
  | failed code _ _ => exact answered.fails cache.state code .bgeventEm
  | @resumed other reads there _ =>
      cases Option.some.inj (here.symm.trans there)
      have cleared : Brought host id cache.answered.retryClear := placed.same rfl rfl rfl
      exact cleared.resumed reads sound inside
  | removed removes _ => exact .of_removing removes rfl
  | @finished _ other between _ _ _ _ _ there features _ _ =>
      cases Option.some.inj (here.symm.trans there)
      have stays := (features.work slot).onlyWorks.carries id
      exact @Brought.finished cache _ between id (placed.kept stays) rfl rfl
  | @continued _ between _ iterators ever remaining _ _ features _ attempt _ =>
      have stays := (features.work slot).onlyWorks.carries id
      have going : Brought between id (cache.going iterators ever remaining) :=
        (placed.kept stays).same rfl rfl rfl
      exact attempt.placed going

theorem EventStep.placed {manager : MngState} {packet : ConfigEvent} {input : EventInput}
    (step : EventStep manager slot packet input cache host after host')
    (placed : Brought host id cache) (here : cache.node = some id) (sound : host.ResumeSound)
    (inside : id < host.db.next) : Brought host' id after := by
  have taken : ∀ {out : Outcome}, TakesEvent slot packet input.inprg cache host out →
      Brought out.host id out.cache := by
    intro out takes
    cases takes with
    | ignored _ => exact placed
    | handled _ _ handled => exact handled.placed placed here sound inside
  cases step with
  | settled takes _ => exact taken takes
  | @resent out last takes _ _ _ _ retried =>
      have counted := (work_countRetry manager slot last.host).onlyWorks.carries id
      exact (retried.placed (taken takes)).kept counted

/-! ## Arriving -/

theorem asGet_known {state : AccState} {own : AccStateOps} {rest : List AccStateOps}
    (found : asGet state = own :: rest) : AccState.getDcdEm.code ≤ state.code := by
  cases state <;> first
    | decide
    | cases found

theorem leaveTargets_own {targets : List AccStateOps} (next : cache.nextState = none)
    (leads : leaveTargets cache = .ok targets) : ∃ own, asGet cache.state = own :: targets := by
  rcases leaveTargets_cases leads with behind | ⟨state, same, _⟩
  · exact behind
  · rw [next] at same
    cases same

theorem leaveTargets_next {targets : List AccStateOps} {state : AccState}
    (next : cache.nextState = some state) (forward : cache.Forward)
    (leads : leaveTargets cache = .ok targets) :
    asGet state = targets ∧ AccState.getDcdEm.code ≤ state.code := by
  have known : AccState.getDcdEm.code ≤ state.code := by
    rcases leaveTargets_cases leads with ⟨own, found⟩ | ⟨other, same, found, some⟩
    · exact (asGet_known found).trans (forward state next)
    · cases Option.some.inj (same.symm.trans next)
      obtain ⟨own, rest, split⟩ := List.exists_cons_of_ne_nil some
      exact asGet_known (found.trans split)
  refine ⟨?_, known⟩
  unfold leaveTargets at leads
  simp only [next] at leads
  cases found : asGet state with
  | nil =>
      have member := mem_asGet known (Nat.le_refl _)
      rw [found] at member
      cases member
  | cons own rest =>
      rw [found] at leads
      exact Except.ok.inj leads

/-- A slot without an error has behind it what lies before the state that it enters. -/
theorem Brought.reaches (placed : Brought host id cache) (own : Unfailed slot cache host)
    (here : cache.node = some id) (leaving : cache.stays = false)
    {targets before behind : List AccStateOps} {ops : AccStateOps}
    (leads : leaveTargets cache = .ok targets) (split : targets = before ++ ops :: behind)
    (skipped : ∀ other ∈ before, ∀ id, cache.node = some id →
      guardHolds other.state (host.db.heap id) = false)
    (configures : ops.state.code ≤ AccState.endEm.code) : Behind host id ops.state := by
  intro earlier lower asks
  have above : cache.state.code < ops.state.code :=
    own.forward.leaves leaving leads ops (by simp [split])
  -- the guard of a state that is asked for is open
  have open_ : ∀ other ∈ before, other.state ≠ earlier := by
    rintro other member rfl
    have closed := skipped other member id here
    rw [MeshConfig.asksFor_guard asks] at closed
    cases closed
  cases next : cache.nextState with
  | none =>
      obtain ⟨ownOps, found⟩ := leaveTargets_own next leads
      by_cases past : earlier.code ≤ cache.state.code
      · rcases Nat.lt_or_eq_of_le past with less | same
        · exact placed.behind (Nat.lt_of_lt_of_le above configures) earlier less asks
        · cases AccState.code_inj same
          exact placed.passed next (MeshConfig.asksFor_resumable asks)
      · have between := Nat.lt_of_not_le past
        rw [split] at found
        obtain ⟨other, member, same⟩ :=
          @asGet_between _ earlier (ownOps :: before) behind ops found (asGet_known found)
            (Nat.le_of_lt between) lower
        rcases List.mem_cons.mp member with rfl | skips
        · rw [← same, (asGet_cons found).1] at between
          exact absurd between (Nat.lt_irrefl _)
        · exact absurd same (open_ other skips)
  | some start =>
      obtain ⟨found, known⟩ := leaveTargets_next next own.forward leads
      by_cases past : earlier.code < start.code
      · have reached : start.code ≤ ops.state.code := by
          apply asGet_later
          rw [found, split]
          simp
        have early : start.code < AccState.endEm.code := by
          apply Nat.lt_of_le_of_ne (reached.trans configures)
          intro last
          rw [AccState.code_inj last] at next
          exact placed.heads own.failed next
        exact placed.next start next early earlier past asks
      · rw [split] at found
        obtain ⟨other, member, same⟩ :=
          asGet_between found known (Nat.le_of_not_lt past) lower
        exact absurd same (open_ other member)

/-- A slot in a state that it has just entered. -/
theorem Brought.entered {state : AccState} (behind : state.code < AccState.endEm.code →
      Behind host id state) (other : state ≠ .endEm) :
    Brought host id { cache with state := state, nextState := some state } where
  behind := behind
  next next same early := by
    cases same
    exact behind early
  passed none_ := by cases none_
  heads _ same := other (Option.some.inj same)

/-!
## What the end of a slot leaves

A slot ends in one of two ways.  Either its node is found configured, and all states lie behind
the end; or the mask is stored, which names a state that the slot has reached and no later one.
-/

/-- Masks that stay, or that lead nowhere, skip nothing undone. -/
theorem Host.ResumeSound.kept (sound : host.ResumeSound) (continues : Continues slot host host')
    (masks : ∀ record, (host'.db.heap record).err = (host.db.heap record).err ∨
      resumesAt (host'.db.heap record).err = none) : host'.ResumeSound := by
  intro record inside state resumes
  rw [continues.records.next] at inside
  rcases masks record with same | nowhere
  · rw [same] at resumes
    have early := (AccState.resumable_early (resumesAt_resumable resumes)).2
    exact (sound record inside state resumes).kept (continues.carries record) early
  · rw [nowhere] at resumes
    cases resumes

theorem OnlyWorks.sound (works : OnlyWorks slot host host') (sound : host.Sound) :
    host'.Sound :=
  ⟨works.done sound.done, sound.resume.kept works.toContinues works.masks⟩

/-- What the end of a slot leaves of the shared data.  A slot ends in a final state, which writes
`Done` or an error mask: the mask must be sound again behind it. -/
structure Concluded (slot : Slot) (host host' : Host) : Prop where
  continues : Continues slot host host'
  sound : host'.Sound

theorem OnlyWorks.concluded (works : OnlyWorks slot host host') (sound : host.Sound) :
    Concluded slot host host' :=
  ⟨works.toContinues, works.sound sound⟩

/-- A mask that skips nothing undone is stored in the record of the node. -/
theorem concluded_of_stored (sound : host.Sound) (log : host'.log = host.log)
    (filed : host.db.cfgdbNodeGet (host.db.heap id).addr = some id) {err : BitVec 32}
    (stored : host.db.nodesetErrbits (host.db.heap id).addr err = .ok host'.db)
    (skips : ∀ state, resumesAt err = some state → Behind host id state) :
    Concluded slot host host' := by
  obtain ⟨record, found, changed⟩ := CfgDb.nodeset_eq stored
  cases Option.some.inj (filed.symm.trans found)
  have kept : host.db.Kept Node.SameTask host'.db := by
    have stores : ∀ node : Node, node.SameTask { node with err := err } :=
      fun _ => .of_config rfl rfl
    rw [changed]
    exact .update Node.SameTask.refl stores host.db id
  have continues : Continues slot host host' := ⟨⟨[], by simp, log⟩, kept⟩
  refine ⟨continues, by rw [log]; exact sound.done, ?_⟩
  intro other inside state resumes
  have early := (AccState.resumable_early (resumesAt_resumable resumes)).2
  by_cases same : other = id
  · subst same
    rw [changed, CfgDb.heap_update_self] at resumes
    exact (skips state resumes).kept (continues.carries other) early
  · rw [changed, CfgDb.heap_update_of_ne _ _ same] at resumes
    rw [kept.next] at inside
    exact (sound.resume other inside state resumes).kept (continues.carries other) early

/-- A node is found configured. -/
theorem endEntry_concludes {guard : Option GuardFn} {answer : CmdRsp} (sound : host.Sound)
    (clean : cache.failed = false) (here : cache.node = some id)
    (behind : Behind host id .endEm)
    (entered : endEntry guard slot answer cache host = .ok out) :
    Concluded slot host out.host := by
  obtain ⟨other, record, there, _, result⟩ := endEntry_host entered
  cases Option.some.inj (here.symm.trans there)
  rw [clean] at result
  simp only [Bool.false_eq_true, if_false] at result
  rw [result]
  let cleared : CfgDb := host.db.update record fun node => { node with err := 0 }
  have clears : ∀ node : Node, node.Steady { node with err := 0 } :=
    fun _ => .of_fields rfl rfl (.inr rfl)
  have marks : ∀ node : Node, node.Steady { node with done := 1 } :=
    fun _ => .of_fields rfl rfl (.inl rfl)
  have first : host.db.Kept Node.Steady cleared := .update Node.Steady.refl clears host.db record
  have second : cleared.Kept Node.Steady
      (cleared.update record fun node => { node with done := 1 }) :=
    .update Node.Steady.refl marks cleared record
  have kept : host.db.Kept Node.Steady
      (cleared.update record fun node => { node with done := 1 }) :=
    first.trans Node.Steady.trans second
  have continues : Continues slot host out.host := by
    rw [result]
    exact ⟨⟨[_], by simp [Effect.OfTurn], rfl⟩,
      fun other => (kept.records other).toSameTask, kept.next⟩
  rw [result] at continues
  refine ⟨continues, ⟨?_, sound.done⟩, ?_⟩
  · intro state asks
    have early := (AccState.resumable_early (MeshConfig.asksFor_resumable asks)).2
    exact behind state early asks
  · exact sound.resume.kept continues fun other => (kept.records other).err

theorem ConfigCache.errSetTo_errBits_or (final : AccState) (cache : ConfigCache) (code : UInt16)
    (origin : BgerrType) :
    (errSetTo final cache code origin).errBits = cache.errBits ||| cache.state.errorBit := by
  have small : cache.state.errorBit &&& 0x7FFFFFFF#32 = cache.state.errorBit := by
    cases cache.state <;> decide
  cases origin with
  | bgapiEm =>
      simp only [errSetTo, errSet, clrCacheCtl, errBits]
      rw [← BitVec.or_assoc, BitVec.and_or_distrib_right, small]
  | bgeventEm =>
      simp only [errSetTo, errSet, clrCacheCtl, errBits]
      rw [BitVec.or_assoc, BitVec.or_comm cache.state.errorBit, ← BitVec.or_assoc,
        BitVec.and_or_distrib_right, small]

/-- The mask of a slot skips only what is behind it. -/
theorem Brought.skips (placed : Brought host id cache) {state : AccState}
    (resumes : resumesAt cache.state.errorBit = some state) : Behind host id state := by
  rw [resumesAt_errorBit] at resumes
  split at resumes
  · rename_i resumable
    cases resumes
    exact placed.behind (AccState.resumable_early resumable).2
  · cases resumes

/-- A slot with an error has the bit of its state in its mask, and no other. -/
theorem errBits_of_named (own : Unfailed slot cache host ∨ Failing slot cache host)
    (failed : cache.failed = true) : cache.errBits = cache.state.errorBit := by
  rcases own with unfailed | failing
  · rw [unfailed.failed] at failed
    cases failed
  · exact failing.bits

/-- A slot that does not end where it arrives had no error, and has none; one with an error
arrives in a final state. -/
theorem Arrived.unfailed_of_working {targets : List AccStateOps} {answer : CmdRsp}
    (arrived : Arrived targets slot answer cache host after host')
    (leads : leaveTargets cache = .ok targets) (leaving : cache.stays = false)
    (own : Unfailed slot cache host ∨ Failing slot cache host) (working : after.ended = false) :
    Unfailed slot cache host ∧ Unfailed slot after host' := by
  rcases own with unfailed | failing
  · rcases arrived.of_unfailed leads leaving unfailed with ⟨_, onward⟩ | ⟨_, ended, _⟩
    · exact ⟨unfailed, onward⟩
    · rw [working] at ended
      cases ended
  · have ended := (arrived.of_failing leads failing).1
    rw [working] at ended
    cases ended

/-- The end of a slot: its mask is stored when it has an error, else the node is found
configured. -/
theorem Concluded.of_endEntry {answer : CmdRsp}
    (own : Unfailed slot cache host ∨ Failing slot cache host) (placed : Brought host id cache)
    (here : cache.node = some id) (sound : host.Sound)
    (filed : host.db.cfgdbNodeGet (host.db.heap id).addr = some id)
    (reaches : Unfailed slot cache host → Behind host id .endEm)
    (entered : endEntry none slot answer cache host = .ok out) :
    Concluded slot host out.host := by
  by_cases failed : cache.failed = true
  · obtain ⟨log, other, there, stored⟩ := endEntry_persists failed entered
    cases Option.some.inj (here.symm.trans there)
    rw [errBits_of_named own failed] at stored
    exact concluded_of_stored sound log filed stored fun _ => placed.skips
  · have clean : cache.failed = false := by simpa using failed
    have unfailed : Unfailed slot cache host := by
      rcases own with unfailed | failing
      · exact unfailed
      · exact absurd failing.failed failed
    exact endEntry_concludes sound clean here (reaches unfailed) entered

/-- The end of a removal: the mask is stored when it failed, else the node leaves. -/
theorem Concluded.of_rmendEntry {answer : CmdRsp}
    (own : Unfailed slot cache host ∨ Failing slot cache host) (placed : Brought host id cache)
    (here : cache.node = some id) (sound : host.Sound)
    (filed : host.db.cfgdbNodeGet (host.db.heap id).addr = some id)
    (entered : rmendEntry none slot answer cache host = .ok out) :
    Concluded slot host out.host := by
  by_cases failed : cache.failed = true
  · obtain ⟨log, other, there, stored⟩ := rmendEntry_persists failed entered
    cases Option.some.inj (here.symm.trans there)
    rw [errBits_of_named own failed] at stored
    exact concluded_of_stored sound log filed stored fun _ => placed.skips
  · have clean : cache.failed = false := by simpa using failed
    exact (rmendEntry_onlyWorks clean entered).concluded sound

/-- A command that the entry of a state cannot send adds the bit of the state that the slot
comes from, which the mask has if it has any. -/
theorem refused_errBits (own : Unfailed slot cache host ∨ Failing slot cache host)
    (final : AccState) (vnm : Vnm) (code : UInt16) :
    (ConfigCache.errSetTo final { cache with vnm := vnm } code .bgapiEm).errBits =
      cache.state.errorBit := by
  rw [ConfigCache.errSetTo_errBits_or]
  change cache.errBits ||| cache.state.errorBit = cache.state.errorBit
  by_cases failed : cache.failed = true
  · rw [errBits_of_named own failed, BitVec.or_self]
  · have clean : cache.errCache.bgcall = 0 ∧ cache.errCache.bgevt = 0 := by
      simpa [ConfigCache.failed] using failed
    simp [ConfigCache.errBits, clean.1, clean.2]

/-- A slot whose command is refused at the entry of a state ends there. -/
theorem Attempt.refused_concluded {state : AccState} {answer : CmdRsp} {last : Host}
    (attempt : Attempt state slot answer cache host out) (ret : out.ret = .bgapi)
    (own : Unfailed slot cache host ∨ Failing slot cache host) (placed : Brought host id cache)
    (here : cache.node = some id) (sound : host.Sound)
    (filed : host.db.cfgdbNodeGet (host.db.heap id).addr = some id)
    (conclusion : endEntry none slot answer out.cache out.host =
      .ok { ret := .suc, cache := out.cache, host := last }) :
    Concluded slot host last := by
  have works := attempt.work.onlyWorks
  cases attempt with
  | refused command vnm _ _ _ =>
      obtain ⟨log, other, there, stored⟩ :=
        endEntry_persists (ConfigCache.errSetTo_failed _ _ _ _) conclusion
      cases Option.some.inj (here.symm.trans there)
      rw [refused_errBits own (finalOf state) vnm answer.result] at stored
      have sent := placed.kept (works.carries id)
      have concluded : Concluded slot (host.record (.sent slot command answer)) last :=
        concluded_of_stored (works.sound sound) log filed stored fun _ => sent.skips
      exact ⟨works.toContinues.trans concluded.continues, concluded.sound⟩
  | _ => cases ret

/-- Where a slot arrives, the history stays sound; if it does not end there, what it has behind it
has been completed. -/
theorem Arrived.concluded_life {targets : List AccStateOps} {answer : CmdRsp}
    (arrived : Arrived targets slot answer cache host after host')
    (leads : leaveTargets cache = .ok targets) (leaving : cache.stays = false)
    (own : Unfailed slot cache host ∨ Failing slot cache host) (placed : Brought host id cache)
    (here : cache.node = some id) (sound : host.Sound)
    (filed : host.db.cfgdbNodeGet (host.db.heap id).addr = some id) :
    Concluded slot host host' ∧
      (after.ended = false → Brought host' id after ∧
        (Unfailed slot after host' ∨ Failing slot after host')) := by
  have named := arrived.unfailed_of_working leads leaving own
  cases arrived with
  | nowhere skipped =>
      exact ⟨(OnlyWorks.refl slot host).concluded sound, fun _ => ⟨placed, own⟩⟩
  | @entered before behind ops out split skipped entry ret =>
      have reaches : Unfailed slot cache host → ops.state.code ≤ AccState.endEm.code →
          Behind host id ops.state := fun unfailed =>
        placed.reaches unfailed here leaving leads split skipped
      -- a slot that goes on is placed where it arrives
      have onward : Continues slot host out.host →
          ({ out.cache with state := ops.state, nextState := some ops.state } :
            ConfigCache).ended = false →
          Brought out.host id
            { out.cache with state := ops.state, nextState := some ops.state } := by
        intro continues working
        apply Brought.entered
        · intro early
          exact (reaches (named working).1 (Nat.le_of_lt early)).kept (continues.carries id) early
        · intro last
          rw [last] at working
          cases working
      cases entry with
      | skipped _ => rcases ret with impossible | impossible <;> cases impossible
      | attempted _ _ _ attempt _ =>
          have works := attempt.work.onlyWorks
          exact ⟨works.concluded sound, fun working =>
            ⟨onward works.toContinues working, .inl (named working).2⟩⟩
      | noCommand _ _ _ =>
          have works := OnlyWorks.refl slot host
          exact ⟨works.concluded sound, fun working =>
            ⟨onward works.toContinues working, .inl (named working).2⟩⟩
      | ended final conclusion =>
          rw [final] at reaches
          have concluded := Concluded.of_endEntry own placed here sound filed
            (fun unfailed => reaches unfailed (Nat.le_refl _)) conclusion
          exact ⟨concluded, fun working => by simp [ConfigCache.ended, final] at working⟩
      | removed final conclusion =>
          have concluded := Concluded.of_rmendEntry own placed here sound filed conclusion
          exact ⟨concluded, fun working => by simp [ConfigCache.ended, final] at working⟩
  | @refused before behind ops out last split skipped entry ret conclusion =>
      refine ⟨?_, fun working => by cases working⟩
      cases entry with
      | attempted _ _ _ attempt _ =>
          exact attempt.refused_concluded ret own placed here sound filed conclusion
      | _ => cases ret

end

/-! ## The engine -/

/-- A slot at work: it has a node, and has brought it somewhere.  A slot whose command failed
keeps what it has brought, since the mask it is about to store is the bit of the state that
failed. -/
def AtWork (engine : Engine) (slot : Slot) : Prop :=
  ∃ id, (engine.cache slot).node = some id ∧ Brought engine.host id (engine.cache slot) ∧
    (Unfailed slot (engine.cache slot) engine.host ∨
      Failing slot (engine.cache slot) engine.host)

/-- What holds between the steps of a run.  Free slots are reset, so that the loading of a node
needs no case of its own. -/
structure LifeInvariant (engine : Engine) : Prop where
  sound : engine.host.Sound
  working : ∀ slot, engine.occupied slot = true → AtWork engine slot
  free : ∀ slot, engine.occupied slot = false → engine.cache slot = .reset

/-- A slot that is left alone. -/
theorem AtWork.kept {engine after : Engine} {slot : Slot} (work : AtWork engine slot)
    (cache : after.cache slot = engine.cache slot)
    (last : after.host.lastSentBy slot = engine.host.lastSentBy slot)
    (carries : ∀ id ∈ (engine.cache slot).node, Carries engine.host after.host id) :
    AtWork after slot := by
  obtain ⟨id, here, placed, named⟩ := work
  refine ⟨id, by rw [cache, here], ?_, ?_⟩
  · rw [cache]
    exact placed.kept (carries id here)
  · rw [cache]
    exact named_of_lastSent last named

/-- A turn of a slot that leaves it at work or frees it. -/
theorem LifeInvariant.turn {engine after : Engine} {slot : Slot} (inv : LifeInvariant engine)
    (concluded : Concluded slot engine.host after.host)
    (others : ∀ other, other ≠ slot → after.cache other = engine.cache other ∧
      after.occupied other = engine.occupied other)
    (own : after.occupied slot = true → AtWork after slot)
    (freed : after.occupied slot = false → after.cache slot = .reset) :
    LifeInvariant after where
  sound := concluded.sound
  working other occupied := by
    by_cases same : other = slot
    · subst same
      exact own occupied
    · obtain ⟨cache, still⟩ := others other same
      rw [still] at occupied
      exact (inv.working other occupied).kept cache (concluded.continues.lastSentBy same)
        fun id _ => concluded.continues.carries id
  free other vacant := by
    by_cases same : other = slot
    · subst same
      exact freed vacant
    · obtain ⟨cache, still⟩ := others other same
      rw [still] at vacant
      rw [cache]
      exact inv.free other vacant

/-- A round of a slot whose record is filed. -/
theorem LifeInvariant.round {input : RoundInput} {engine after : Engine} {slot : Slot}
    (inv : LifeInvariant engine) (occupied : engine.occupied slot = true)
    (filed : engine.Filed slot) (step : RoundStep input engine slot after) :
    LifeInvariant after := by
  obtain ⟨id, here, placed, named⟩ := inv.working slot occupied
  have place := (filed id here).2
  have others : ∀ other, other ≠ slot → after.cache other = engine.cache other ∧
      after.occupied other = engine.occupied other := fun other different => step.other different
  cases step with
  | @stays cache host exception still =>
      have works := exception.work.onlyWorks
      refine inv.turn (works.concluded inv.sound) others (fun _ => ?_) (fun vacant => ?_)
      · have self := Engine.setCache_self { engine with host := host } slot cache
        refine ⟨id, ?_, ?_, ?_⟩
        · rw [self, exception.sameWork.2, here]
        · rw [self]
          exact exception.placed placed
        · rw [self]
          exact exception.named named
      · change engine.occupied slot = false at vacant
        rw [occupied] at vacant
        cases vacant
  | @moves middle cache between host targets exception leaving leads arrived working =>
      have works := exception.work.onlyWorks
      have there : middle.node = some id := exception.sameWork.2.trans here
      have filedThere : between.db.cfgdbNodeGet (between.db.heap id).addr = some id := by
        rw [exception.db_eq]
        exact place
      obtain ⟨concluded, onward⟩ := arrived.concluded_life leads leaving
        (exception.named named) (exception.placed placed) there (works.sound inv.sound)
        filedThere
      obtain ⟨placedThere, namedThere⟩ := onward working
      refine inv.turn ⟨works.toContinues.trans concluded.continues, concluded.sound⟩ others
        (fun _ => ?_) (fun vacant => ?_)
      · have self := Engine.setCache_self { engine with host := host } slot cache
        refine ⟨id, ?_, ?_, ?_⟩
        · rw [self, arrived.sameNode, there]
        · rw [self]
          exact placedThere
        · rw [self]
          exact namedThere
      · change engine.occupied slot = false at vacant
        rw [occupied] at vacant
        cases vacant
  | @ends middle cache between host targets exception leaving leads arrived done =>
      have works := exception.work.onlyWorks
      have there : middle.node = some id := exception.sameWork.2.trans here
      have filedThere : between.db.cfgdbNodeGet (between.db.heap id).addr = some id := by
        rw [exception.db_eq]
        exact place
      obtain ⟨concluded, _⟩ := arrived.concluded_life leads leaving
        (exception.named named) (exception.placed placed) there (works.sound inv.sound)
        filedThere
      have released : OnlyWorks slot host (host.record (.released slot)) :=
        .logged host trivial rfl
      have whole := works.toContinues.trans concluded.continues
      refine inv.turn ⟨whole.trans released.toContinues, released.sound concluded.sound⟩ others
        (fun still => ?_) (fun _ => ?_)
      · simp [releaseSlot, Engine.occupied, Engine.setCache] at still
      · exact Engine.setCache_self { engine with host := host } slot .reset

theorem Brought.loaded (host : Host) (node : NodeId) (type : LoadType) :
    Brought host node (ConfigCache.reset.loaded node type) := by
  have provisioned : AccState.provisionedEm.code ≤ AccState.addappkeyEm.code := by decide
  have getDcd : AccState.getDcdEm.code ≤ AccState.addappkeyEm.code := by decide
  cases type with
  | typeConfig =>
      refine ⟨fun _ => .early host node provisioned, ?_, ?_, ?_⟩
      · intro state same _
        cases same
        exact .early host node getDcd
      · intro none_
        cases none_
      · intro _ impossible
        cases impossible
  | typeRm =>
      have removing : ¬ AccState.rmEm.code < AccState.endEm.code := by decide
      refine ⟨fun early => absurd early (Nat.lt_irrefl _), ?_, ?_, ?_⟩
      · intro state same early
        cases same
        exact absurd early removing
      · intro none_
        cases none_
      · intro _ impossible
        cases impossible

/-- A slot that a node is loaded into. -/
theorem LifeInvariant.load {engine : Engine} (inv : LifeInvariant engine) (type : LoadType)
    (node : NodeId) (rest : List NodeId) {slot : Slot} (vacant : engine.occupied slot = false) :
    LifeInvariant { cacheItemLoad engine slot node type with
      lists := engine.lists.setPending rest type } := by
  have host : (cacheItemLoad engine slot node type).host = engine.host := by
    rw [cacheItemLoad_eq]
    rfl
  have own := cache_load_self engine slot node type (engine.lists.setPending rest type)
  rw [inv.free slot vacant] at own
  have placed := Brought.loaded engine.host node type
  have steady := OnlyWorks.refl slot engine.host
  have concluded := steady.concluded inv.sound
  apply @LifeInvariant.turn engine _ slot inv
  · change Concluded slot engine.host (cacheItemLoad engine slot node type).host
    rw [host]
    exact concluded
  · intro other different
    refine ⟨cache_load_other engine different node type _, ?_⟩
    rw [occupied_load]
    simp [different]
  · intro _
    refine ⟨node, ?_, ?_, ?_⟩
    · rw [own]
      cases type <;> rfl
    · rw [own]
      change Brought (cacheItemLoad engine slot node type).host node _
      rw [host]
      exact placed
    · rw [own]
      change Unfailed slot _ (cacheItemLoad engine slot node type).host ∨
        Failing slot _ (cacheItemLoad engine slot node type).host
      rw [host]
      exact (SlotState.loaded_sound slot node type engine.host).1 rfl
  · intro free
    rw [occupied_load] at free
    simp at free

/-- An event for a slot whose record is filed. -/
theorem LifeInvariant.event {packet : ConfigEvent} {input : EventInput} {engine : Engine}
    {slot : Slot} {cache : ConfigCache} {host : Host} (inv : LifeInvariant engine)
    (routed : cacheFromCchandle engine packet = .ok slot) (filed : engine.Filed slot)
    (step : EventStep engine.state slot packet input (engine.cache slot) engine.host cache host) :
    LifeInvariant ({ engine with host := host }.setCache slot cache) := by
  obtain ⟨_, _, occupied, _⟩ := cacheFromCchandle_eq routed
  obtain ⟨id, here, placed, named⟩ := inv.working slot occupied
  have works := step.work.onlyWorks
  have self := Engine.setCache_self { engine with host := host } slot cache
  refine inv.turn (works.concluded inv.sound) ?_ (fun _ => ?_) (fun vacant => ?_)
  · intro other different
    exact ⟨Engine.setCache_other _ cache different, rfl⟩
  · refine ⟨id, ?_, ?_, ?_⟩
    · rw [self, step.sameNode, here]
    · rw [self]
      exact step.placed placed here inv.sound.resume (filed id here).1
    · rw [self]
      exact step.named named
  · change engine.occupied slot = false at vacant
    rw [occupied] at vacant
    cases vacant

/-!
## The rest of the program

Between the turns, addresses come and go and the file is loaded.  Neither touches the history;
what may go wrong is that a mask from an earlier life, or from an earlier file, is taken for one
of this life.
-/

/-- Steps that leave the slots, the history and the tasks of the records. -/
theorem LifeInvariant.around {engine : Engine} (inv : LifeInvariant engine) {host : Host}
    (lists : Lists) (state : MngState) (log : host.log = engine.host.log)
    (kept : engine.host.db.Kept Node.Steady host.db) :
    LifeInvariant { engine with host := host, lists := lists, state := state } := by
  have works : OnlyWorks 0 engine.host host :=
    { log := ⟨[], by simp, log⟩
      records := ⟨fun record => (kept.records record).toSameTask, kept.next⟩
      done := fun sound => by rw [log]; exact sound
      masks := fun record => (kept.records record).err }
  refine ⟨works.sound inv.sound, ?_, inv.free⟩
  intro slot occupied
  exact (inv.working slot occupied).kept rfl (Host.lastSentBy_congr slot log)
    fun id _ => works.carries id

/-- A device that starts over gets an address. -/
theorem LifeInvariant.provisioned {engine after : Engine} {uuid : Uuid} {addr : UInt16}
    (inv : LifeInvariant engine) (fresh : engine.StartsOver uuid)
    (taken : engine.onProvSuccess uuid addr = .ok after) : LifeInvariant after := by
  simp only [Engine.onProvSuccess, bind_ok] at taken
  obtain ⟨db, moves, taken⟩ := taken
  have addressed : ∀ node : Node, node.Steady { node with addr := addr } :=
    fun _ => .of_fields rfl rfl (.inl rfl)
  have kept := CfgDb.Kept.uplNodesetAddr Node.Steady.refl addressed moves
  cases found : db.cfgdbNodeGet addr with
  | none => simp [found] at taken
  | some record =>
      simp only [found, Except.ok.injEq] at taken
      subst taken
      let moved : Host :=
        { engine.host with db := db, stat := engine.host.stat.addOneDev }
      -- the other devices keep what they have completed
      have carries : ∀ id, (engine.host.db.heap id).uuid ≠ uuid →
          Carries engine.host (moved.record (.addressed uuid addr)) id := by
        intro id other
        refine ⟨(kept.records id).toSameTask, ?_⟩
        intro state completed
        have apart : uuid ≠ (engine.host.db.heap id).uuid := fun same => other same.symm
        simpa [moved, Host.record, completedSince, apart] using completed
      refine ⟨⟨⟨trivial, inv.sound.done⟩, ?_⟩, ?_, inv.free⟩
      · intro id inside state resumes
        change id < db.next at inside
        rw [kept.next] at inside
        change resumesAt (db.heap id).err = some state at resumes
        rcases (kept.records id).err with same | nowhere
        · rw [same] at resumes
          have early := (AccState.resumable_early (resumesAt_resumable resumes)).2
          by_cases own : (engine.host.db.heap id).uuid = uuid
          · have skipped := fresh.1 id inside own
            rw [resumes, Option.any_some] at skipped
            intro earlier before asks
            have asked : (engine.host.db.heap id).config.asksFor earlier = true := by
              have other : earlier ≠ .setconfigEm := by
                rintro rfl
                exact absurd before (Nat.not_lt.mpr (Nat.le_of_lt_succ early))
              rw [← (kept.records id).asks earlier other]
              exact asks
            rw [MeshConfig.asksBefore_false skipped before] at asked
            cases asked
          · exact (inv.sound.resume id inside state resumes).kept (carries id own) early
        · rw [nowhere] at resumes
          cases resumes
      · intro slot occupied
        refine (inv.working slot occupied).kept rfl ?_ ?_
        · exact Host.lastSentBy_record moved rfl
        · intro id here
          exact carries id (fresh.2 slot occupied id here)

/-- A load that asks for nothing new behind the masks. -/
theorem LifeInvariant.loaded {engine : Engine} (inv : LifeInvariant engine) {db : CfgDb}
    (inStep : engine.LoadsInStep db) (lists : Lists) :
    LifeInvariant { engine with host := { engine.host with db := db }, lists := lists } := by
  refine ⟨⟨inv.sound.done, ?_⟩, ?_, inv.free⟩
  · intro id inside state resumes earlier before asks
    have known : earlier ∈
        [AccState.addappkeyEm, .bindappkeyEm, .setpubEm, .addsubEm, .setconfigEm] := by
      have resumable := MeshConfig.asksFor_resumable asks
      cases earlier <;> first
        | decide
        | cases resumable
    have led : (resumesAt (db.heap id).err).any
        (fun state => decide (earlier.code < state.code)) = true := by
      have same : resumesAt (db.heap id).err = some state := resumes
      rw [same, Option.any_some, decide_eq_true before]
    obtain ⟨prior, held, uuid, err, asked⟩ := inStep.1 id inside earlier known led asks
    rw [← err] at resumes
    have completed := inv.sound.resume prior held state resumes earlier before asked
    rw [uuid] at completed
    exact completed
  · intro slot occupied
    refine (inv.working slot occupied).kept rfl rfl fun id here => ?_
    exact ⟨inStep.2 slot occupied id here, fun _ completed => completed⟩

/-- Every admitted step keeps the invariant. -/
theorem LifeOp.keeps {source target : Engine} {op : LifeOp} (inv : LifeInvariant source)
    (admitted : op.Admitted source) (taken : op.run source = .ok target) :
    LifeInvariant target := by
  cases op with
  | iterate now input =>
      refine @accLoop_guarded LifeInvariant (fun _ engine slot => engine.Filed slot) ?_ ?_ ?_
        source target now input inv admitted taken
      · intro _ engine slot after holds occupied filed step
        exact holds.round occupied filed step
      · intro engine type node rest slot holds _ vacant
        exact holds.load type node rest vacant
      · intro engine stat holds
        exact holds.around engine.lists engine.state rfl (.refl Node.Steady.refl engine.host.db)
  | receive packet input =>
      obtain ⟨slot, cache, host, route, step, rfl⟩ := devConfigHdr_step taken
      exact inv.event route (admitted slot route) step
  | provisioned uuid addr => exact inv.provisioned admitted taken
  | blacklisted addr =>
      simp only [LifeOp.run, bind_ok, Except.ok.injEq] at taken
      obtain ⟨db, moves, rfl⟩ := taken
      have cleared : ∀ node : Node, node.Steady { node with addr := 0, done := 0 } :=
        fun _ => .of_fields rfl rfl (.inl rfl)
      exact inv.around source.lists source.state rfl
        (.nodesBl Node.Steady.refl cleared moves)
  | outside cfg stat lists state =>
      cases taken
      exact inv.around lists state rfl (.refl Node.Steady.refl source.host.db)
  | loaded load lists =>
      simp only [LifeOp.run, bind_ok, Except.ok.injEq] at taken
      obtain ⟨db, loads, rfl⟩ := taken
      exact inv.loaded (admitted db loads) lists
  | restarted lists state =>
      cases taken
      refine ⟨inv.sound, ?_, fun _ _ => rfl⟩
      intro slot occupied
      simp [Engine.occupied] at occupied

/-- A device whose configuration has one binding. -/
def Node.bound : Node :=
  { Node.plain 2 with
    config := { Node.zeroed.config with bindings := some { len := 1, data := [1] } } }

/-- One call of `acc_loop` in which every command gets the same answer. -/
def LifeOp.answered (answer : CmdRsp) : LifeOp :=
  .iterate answer.time (RoundInput.all answer.time answer answer)

/-- An event, and the answer to the command that it may make the program send. -/
def LifeOp.told (packet : ConfigEvent) (answer : CmdRsp) : LifeOp :=
  .receive packet { inprg := answer, retry := answer }

/-- A slot sends a command, and gets its status. -/
def LifeOp.exchange (kind : StatusKind) (handle : UInt32) (result : UInt16) : List LifeOp :=
  [.answered (.taken handle 0), .told (.status kind handle result) (.taken handle 0)]

end Nwmng
