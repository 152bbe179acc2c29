/-
Module: Nwmng.Mng.StatRuns
Purpose: The statistics of a synchronization as a whole: its runs beside a tally of what
happened, and when the counters tell the tally.
Trusted boundary: none
Main exports:
  SyncedState, SyncedOp, SyncedRun, SyncedOp.Guard, AddOp.outside, StatRight, sync_stats_exact
-/
import Mathlib
import Nwmng.Config.Tasks
import Nwmng.Mng.Phases
import Nwmng.Mng.Cursors
import Nwmng.Mng.AddingRuns
import Nwmng.Mng.StatOps

namespace Nwmng

open Fallible Transition

/-!
## What is counted

The tally counts from outside: events as they are handled, and slots as they are freed, each for
the task it was loaded for.
-/

/-- An event of the adding phase, as `dev_add_hdr` finds it. -/
def Tally.hear (tally : Tally) (state : AddState) : ProvEvent → Tally
  | .beacon .. => tally
  | .provisioned .. =>
      if state.Listening then { tally with provisioned := tally.provisioned + 1 } else tally
  | .failed _ reason =>
      if state.Listening ∧ reason ≠ 7 then { tally with failed := tally.failed + 1 } else tally

/-- A slot that was loaded for a task has finished. -/
def Tally.finish (tally : Tally) : LoadType → Tally
  | .typeConfig => { tally with configured := tally.configured + 1 }
  | .typeRm => { tally with removed := tally.removed + 1 }

/-- What `acc_loop` loads slots for. -/
def MngState.loads : MngState → LoadType
  | .removingDevicesEm => .typeRm
  | _ => .typeConfig

/-- What the slots are loaded for, once `acc_loop` has loaded free ones. -/
def loadedNow (loadedAs : Slot → LoadType) (engine : Engine) (slot : Slot) : LoadType :=
  if engine.occupied slot then loadedAs slot else engine.state.loads

/-- The slots among those given that are free afterwards have finished. -/
def Tally.finishAll (loadedAs : Slot → LoadType) (after : Engine) (slots : List Slot)
    (tally : Tally) : Tally :=
  slots.foldl
    (fun tally slot => if after.occupied slot then tally else tally.finish (loadedAs slot)) tally

/-! ## The system -/

/-- The program, what each of its slots was loaded for, and the tally since the start of the
synchronization. -/
structure SyncedState where
  add : AddState
  loadedAs : Slot → LoadType
  tally : Tally

namespace SyncedState

def mng (state : SyncedState) : Mng := state.add.mng

def engine (state : SyncedState) : Engine := state.mng.engine

def stat (state : SyncedState) : Stat := state.engine.host.stat

def setMng (state : SyncedState) (mng : Mng) : SyncedState :=
  { state with add := state.add.setMng mng }

def setEngine (state : SyncedState) (engine : Engine) : SyncedState :=
  state.setMng { state.mng with engine := engine }

def account (state : SyncedState) : Account := { stat := state.stat, tally := state.tally }

end SyncedState

/-- The state of the manager and the slots are as before.  It is the frame of the adding phase
and of the blacklisting, which have no slot of the engine. -/
structure SlotFrame (before after : Mng) : Prop where
  state : after.state = before.state
  used : after.engine.used = before.engine.used
  cache : after.engine.cache = before.engine.cache

/-- The statistics are as before, too. -/
structure StatFrame (before after : Mng) : Prop extends SlotFrame before after where
  stat : after.engine.host.stat = before.engine.host.stat

/-- The phase that `set_mng_state` may end. -/
def Mng.MayEnd (mng : Mng) : StatPhase → Prop
  | .add => mng.state = .addingDevicesEm
  | .config => mng.state = .configuringDevicesEm
  | .rm => mng.state = .removingDevicesEm
  | .bl => False

/-- The steps of the main loop, and the events, in any order.  They are the steps of one
synchronization: it ends when the manager leaves its phases. -/
inductive SyncedOp where
  /-- `dev_add_hdr` -/
  | event (news : ProvEvent)
  /-- `dev_config_hdr` -/
  | receive (packet : ConfigEvent) (input : EventInput)
  /-- `bl_hdr` -/
  | refresh (packet : BlEvent) (rsp : KeyRsp)
  | addLoop (now : Nat)
  | accLoop (now : Nat) (input : Slot → RoundInput)
  | blLoop (input : BlInput)
  | setMngState (input : PhaseInput)
  /-- the commands of the user, and whatever else the program does -/
  | outside (add : AddState)

namespace SyncedOp

def Possible (source : SyncedState) : SyncedOp → Prop
  | .outside add => StatFrame source.mng add.mng
  | _ => True

def run (source : SyncedState) : SyncedOp → Except Abort SyncedState
  | .event news => do
      let add ← source.add.devAddHdr news
      .ok { source with add := add, tally := source.tally.hear source.add news }
  | .receive packet input => do
      let engine ← devConfigHdr packet input source.engine
      .ok (source.setEngine engine)
  | .refresh packet rsp => do
      let mng ← blHdr packet rsp source.mng
      .ok (source.setMng mng)
  | .addLoop now => .ok { source with add := source.add.addLoop now }
  | .accLoop now input => do
      let engine ← Nwmng.accLoop now input source.engine
      let prepared := (accPrepare now source.engine).getD source.engine
      let loadedAs := loadedNow source.loadedAs source.engine
      .ok { source.setEngine engine with
        loadedAs := loadedAs
        tally := source.tally.finishAll loadedAs engine (usedSlots prepared.used) }
  | .blLoop input => do
      let mng ← Nwmng.blLoop input source.mng
      .ok (source.setMng mng)
  | .setMngState input =>
      .ok { source with add := source.add.followScan (Nwmng.setMngState input source.mng) }
  | .outside add => .ok { source with add := add }

def Step (source : SyncedState) (op : SyncedOp) (target : SyncedState) : Prop :=
  op.Possible source ∧ op.run source = .ok target

/-- The phases that a step may end. -/
def Ends (source : SyncedState) (op : SyncedOp) (phase : StatPhase) : Prop :=
  match op with
  | .setMngState _ => source.mng.MayEnd phase
  | .blLoop _ => phase = .bl ∧ source.mng.bl.state = .done
  | _ => False

/-- The steps whose counts are kept: the first reset command of no removal is refused, the
adding phase begins before anything is counted in it, and the blacklisting begins for the
first time before the adding phase, and before anything is counted in it. -/
def Guard (source : SyncedState) : SyncedOp → Prop
  | .accLoop now input =>
      ∀ prepared, accPrepare now source.engine = some prepared →
        LoopGuarded (fun engine slot => RemovalAccepted (input slot) engine slot)
          (fun engine slot => engineSlot (input slot) engine slot) prepared
          (usedSlots prepared.used)
  | .setMngState input =>
      source.mng.state ≠ .addingDevicesEm →
        (Nwmng.setMngState input source.mng).state = .addingDevicesEm →
        source.stat.add.time.state = .idle → source.account.NothingAdded
  | .blLoop _ =>
      source.mng.bl.state = .idle → source.mng.lists.bl ≠ [] → source.stat.bl.state = .idle →
        source.stat.add.time.state = .idle ∧ source.account.NothingAdded
  | _ => True

end SyncedOp

abbrev SyncedRun := Execution SyncedOp.Step

/-- A synchronization begins: the lists were loaded, and no slot was in use.  The statistics were
reset by the command that starts it, so the tally begins at zero. -/
structure SyncBegins (source : AddState) (start : SyncedState) : Prop where
  starting : source.mng.state = .starting
  vacant : source.mng.engine.used = 0
  loads : ∃ input loaded, startSync input source.host = .ok (loaded, start.add.host)
  tally : start.tally = .zero

/-!
## The slots

That a slot is on its task connects the two counts.  The statistics are written by the entry of
the final state, so it has to be the final state of the task.
-/

/-- The phase that a task belongs to. -/
def LoadType.phase : LoadType → StatPhase
  | .typeConfig => .config
  | .typeRm => .rm

/-- The call that counts a slot that has finished. -/
def Stat.finish (stat : Stat) : LoadType → Stat
  | .typeConfig => stat.configOneDev
  | .typeRm => stat.rmOneDev

/-- Every occupied slot is on the task it was loaded for, and its phase has begun.  The lists are
worked on in the order that the user gave, so that a slot may be on another task than the phase
the manager is in. -/
structure TasksKept (loadedAs : Slot → LoadType) (engine : Engine) : Prop where
  onTask : ∀ slot, engine.occupied slot = true → (engine.cache slot).OnTask (loadedAs slot)
  here : ∀ slot, engine.occupied slot = true → (engine.cache slot).node.isSome = true
  begun : ∀ slot, engine.occupied slot = true →
    (engine.host.stat.time (loadedAs slot).phase).state ≠ .idle

/-- The calls of a step that ends no phase. -/
abbrev PlainBooks := Books fun _ => False

theorem LoadType.phase_ne (type : LoadType) : type.phase ≠ .add := by
  cases type with
  | typeConfig => exact fun impossible => nomatch impossible
  | typeRm => exact fun impossible => nomatch impossible

section

variable {loadedAs : Slot → LoadType} {engine after : Engine} {tally : Tally}

theorem plainBooks_call {account : Account} (op : StatOp) (fits : op.Fits account)
    (open_ : op.ends = false) : PlainBooks account (account.call op) := by
  apply Books.call op fits
  intro closes
  rw [open_] at closes
  cases closes

theorem books_countRetry (state : MngState) (host : Host) (tally : Tally) :
    PlainBooks ⟨host.stat, tally⟩ ⟨(countRetry state host).stat, tally⟩ := by
  unfold countRetry
  split
  · exact plainBooks_call .rmRetry trivial rfl
  · exact plainBooks_call .configRetry trivial rfl

theorem ExceptionStep.books {state : MngState} {slot : Slot} {input : RoundInput}
    {cache next : ConfigCache} {host host' : Host}
    (exception : ExceptionStep state slot input cache host next host') (tally : Tally) :
    PlainBooks ⟨host.stat, tally⟩ ⟨host'.stat, tally⟩ := by
  cases exception with
  | quiet _ => exact .refl
  | @expired out _ _ retried =>
      have counted := books_countRetry state out.host tally
      rw [retried.stat_eq] at counted
      exact counted
  | @memory out _ _ _ _ retried =>
      have counted := books_countRetry state out.host tally
      rw [retried.stat_eq] at counted
      exact counted

theorem EventStep.books {state : MngState} {slot : Slot} {packet : ConfigEvent}
    {input : EventInput} {cache next : ConfigCache} {host host' : Host}
    (step : EventStep state slot packet input cache host next host') (tally : Tally) :
    PlainBooks ⟨host.stat, tally⟩ ⟨host'.stat, tally⟩ := by
  cases step with
  | settled takes _ =>
      rw [takes.stat_eq]
  | @resent out last takes _ _ _ _ retried =>
      have counted := books_countRetry state last.host tally
      rw [retried.stat_eq, takes.stat_eq] at counted
      exact counted

/-- A turn that leaves the slot on its task. -/
theorem TasksKept.turn (kept : TasksKept loadedAs engine) {slot : Slot} {cache : ConfigCache}
    {host : Host} (task : cache.OnTask (loadedAs slot)) (here : cache.node.isSome = true)
    (books : PlainBooks ⟨engine.host.stat, tally⟩ ⟨host.stat, tally⟩) :
    TasksKept loadedAs ({ engine with host := host }.setCache slot cache) where
  onTask := by
    intro other occupied
    by_cases same : other = slot
    · subst same
      rw [Engine.setCache_self]
      exact task
    · rw [Engine.setCache_other _ _ same]
      exact kept.onTask other occupied
  here := by
    intro other occupied
    by_cases same : other = slot
    · subst same
      rw [Engine.setCache_self]
      exact here
    · rw [Engine.setCache_other _ _ same]
      exact kept.here other occupied
  begun := by
    intro other occupied
    exact books.begun (LoadType.phase_ne _) (kept.begun other occupied)

/-- A slot that is freed takes nothing from the others. -/
theorem TasksKept.release (kept : TasksKept loadedAs engine) {slot : Slot} {cache : ConfigCache}
    {host : Host} (begun : ∀ other, engine.occupied other = true →
      (host.stat.time (loadedAs other).phase).state ≠ .idle) :
    TasksKept loadedAs (releaseSlot { engine with host := host } slot cache) := by
  have others : ∀ other, (releaseSlot { engine with host := host } slot cache).occupied other =
      true → other ≠ slot ∧ engine.occupied other = true := by
    intro other occupied
    simp only [releaseSlot, Engine.occupied, Engine.setCache, getLsbD_bitClr, Bool.and_eq_true,
      Bool.not_eq_true', decide_eq_false_iff_not] at occupied
    exact ⟨fun same => occupied.2 (congrArg Fin.val same).symm, occupied.1⟩
  have cacheOf : ∀ other, other ≠ slot →
      (releaseSlot { engine with host := host } slot cache).cache other = engine.cache other :=
    fun other different => Engine.setCache_other _ _ different
  constructor
  · intro other occupied
    obtain ⟨different, before⟩ := others other occupied
    rw [cacheOf other different]
    exact kept.onTask other before
  · intro other occupied
    obtain ⟨different, before⟩ := others other occupied
    rw [cacheOf other different]
    exact kept.here other before
  · intro other occupied
    exact begun other (others other occupied).2

/-- A slot that has finished is counted in the phase of its task. -/
theorem books_finish {stat : Stat} (type : LoadType)
    (begun : (stat.time type.phase).state ≠ .idle) :
    PlainBooks ⟨stat, tally⟩ ⟨stat.finish type, tally.finish type⟩ := by
  cases type with
  | typeConfig => exact plainBooks_call .configOneDev begun rfl
  | typeRm => exact plainBooks_call .rmOneDev begun rfl

/-- The round of a slot that removes nothing whose command is refused. -/
theorem TasksKept.round {input : RoundInput} {slot : Slot} (kept : TasksKept loadedAs engine)
    (occupied : engine.occupied slot = true) (accepted : RemovalAccepted input engine slot)
    (step : RoundStep input engine slot after) :
    TasksKept loadedAs after ∧
      PlainBooks ⟨engine.host.stat, tally⟩
        ⟨after.host.stat,
          if after.occupied slot then tally else tally.finish (loadedAs slot)⟩ := by
  have task := kept.onTask slot occupied
  have hereSlot := kept.here slot occupied
  obtain ⟨id, isId⟩ := Option.isSome_iff_exists.mp hereSlot
  have arrives : ∀ {middle cache : ConfigCache} {between host : Host}
      {targets : List AccStateOps},
      ExceptionStep engine.state slot input (engine.cache slot) engine.host middle between →
      middle.stays = false → leaveTargets middle = .ok targets →
      Arrived targets slot input.entry middle between cache host →
      (cache.OnTask (loadedAs slot) ∧ cache.ended = false ∧ host.stat = between.stat) ∨
        (cache.ended = true ∧ host.stat = between.stat.finish (loadedAs slot)) := by
    intro middle cache between host targets exception leaving leads arrived
    have goes := exception.onTask task
    have isHere : middle.node = some id := exception.sameWork.2.trans isId
    cases type : loadedAs slot with
    | typeConfig =>
        rw [type] at goes
        exact arrived.configuring goes isHere leads
    | typeRm =>
        rw [type] at goes
        apply arrived.removing goes isHere leaving leads
        intro fresh way
        have state := exception.sameWork.1.symm.trans fresh
        obtain ⟨rfl, rfl⟩ := exception.fresh state
        exact accepted state way
  cases step with
  | @stays cache host exception _ =>
      have books := exception.books tally
      have here : cache.node.isSome = true := by
        rw [exception.sameWork.2]
        exact hereSlot
      have still : ({ engine with host := host }.setCache slot cache).occupied slot = true :=
        occupied
      rw [if_pos still]
      exact ⟨kept.turn (exception.onTask task) here books, books⟩
  | @moves middle cache between host targets exception leaving leads arrived working =>
      have books := exception.books tally
      have here : cache.node.isSome = true := by
        rw [arrived.sameNode, exception.sameWork.2]
        exact hereSlot
      have still : ({ engine with host := host }.setCache slot cache).occupied slot = true :=
        occupied
      rcases arrives exception leaving leads arrived with ⟨goes, _, stat⟩ | ⟨ended, _⟩
      · rw [← stat] at books
        rw [if_pos still]
        exact ⟨kept.turn goes here books, books⟩
      · cases working.symm.trans ended
  | @ends middle cache between host targets exception leaving leads arrived done =>
      have books := exception.books tally
      have freed : (releaseSlot { engine with host := host } slot cache).occupied slot = false := by
        simp [releaseSlot, Engine.occupied, Engine.setCache]
      have begunBetween : ∀ other, engine.occupied other = true →
          (between.stat.time (loadedAs other).phase).state ≠ .idle :=
        fun other used => books.begun (LoadType.phase_ne _) (kept.begun other used)
      rcases arrives exception leaving leads arrived with ⟨_, working, _⟩ | ⟨_, stat⟩
      · cases working.symm.trans done
      · have counted : PlainBooks ⟨between.stat, tally⟩
            ⟨between.stat.finish (loadedAs slot), tally.finish (loadedAs slot)⟩ :=
          books_finish (loadedAs slot) (begunBetween slot occupied)
        rw [← stat] at counted
        rw [freed]
        refine ⟨kept.release ?_, books.trans counted⟩
        intro other used
        exact counted.begun (LoadType.phase_ne _) (begunBetween other used)

/-- Rounds of other slots leave a slot occupied or free. -/
theorem occupied_rounds {input : Slot → RoundInput} {slots : List Slot} {slot : Slot}
    (other : slot ∉ slots)
    (done : slots.foldlM (fun engine slot => engineSlot (input slot) engine slot) engine =
      .ok after) : after.occupied slot = engine.occupied slot := by
  induction slots generalizing engine with
  | nil =>
      cases done
      rfl
  | cons first rest hypothesis =>
      rw [List.foldlM_cons] at done
      obtain ⟨middle, turn, rounds⟩ := bind_ok.mp done
      have different : slot ≠ first := fun same => other (same ▸ List.mem_cons_self)
      have elsewhere : slot ∉ rest := fun member => other (List.mem_cons_of_mem first member)
      exact (hypothesis elsewhere rounds).trans ((engineSlot_step turn).other different).2

/-- The rounds of a list of occupied slots: those that are free afterwards have finished, and
are counted. -/
theorem TasksKept.rounds {input : Slot → RoundInput} {slots : List Slot}
    (kept : TasksKept loadedAs engine) (nodup : slots.Nodup)
    (used : ∀ slot ∈ slots, engine.occupied slot = true)
    (guarded : LoopGuarded (fun engine slot => RemovalAccepted (input slot) engine slot)
      (fun engine slot => engineSlot (input slot) engine slot) engine slots)
    (done : slots.foldlM (fun engine slot => engineSlot (input slot) engine slot) engine =
      .ok after) :
    TasksKept loadedAs after ∧
      PlainBooks ⟨engine.host.stat, tally⟩
        ⟨after.host.stat, tally.finishAll loadedAs after slots⟩ := by
  induction slots generalizing engine tally with
  | nil =>
      cases done
      exact ⟨kept, .refl⟩
  | cons slot rest hypothesis =>
      rw [List.foldlM_cons] at done
      obtain ⟨middle, turn, rounds⟩ := bind_ok.mp done
      obtain ⟨fresh, distinct⟩ := List.nodup_cons.mp nodup
      have step := engineSlot_step turn
      have occupied := used slot List.mem_cons_self
      obtain ⟨keptMiddle, first⟩ := @kept.round _ _ _ tally _ _ occupied guarded.1 step
      have usedMiddle : ∀ other ∈ rest, middle.occupied other = true := by
        intro other member
        have different : other ≠ slot := fun same => fresh (same ▸ member)
        rw [(step.other different).2]
        exact used other (List.mem_cons_of_mem slot member)
      obtain ⟨keptAfter, later⟩ :=
        hypothesis keptMiddle distinct usedMiddle (guarded.2 middle turn) rounds
      refine ⟨keptAfter, first.trans ?_⟩
      rw [← occupied_rounds fresh rounds]
      exact later

/-- The slots while they are being loaded. -/
structure TasksLoaded (loadedAs : Slot → LoadType) (engine loaded : Engine) : Prop where
  host : loaded.host = engine.host
  used : ∀ slot, engine.occupied slot = true → loaded.occupied slot = true
  onTask : ∀ slot, loaded.occupied slot = true →
    (loaded.cache slot).OnTask (loadedNow loadedAs engine slot)
  here : ∀ slot, loaded.occupied slot = true → (loaded.cache slot).node.isSome = true

theorem TasksKept.load (kept : TasksKept loadedAs engine) :
    TasksLoaded loadedAs engine (cachesLoad engine engine.state.loads) := by
  have start : TasksLoaded loadedAs engine engine := by
    refine ⟨rfl, fun _ used => used, ?_, kept.here⟩
    intro slot occupied
    rw [loadedNow, if_pos occupied]
    exact kept.onTask slot occupied
  apply cachesLoad_invariant _ start
  intro loaded node rest slot held _ free
  have before : engine.occupied slot = false := by
    by_contra used
    rw [held.used slot (by simpa using used)] at free
    cases free
  constructor
  · rw [cacheItemLoad_eq]
    exact held.host
  · intro other used
    rw [occupied_load, held.used other used, Bool.or_true]
  · intro other occupied
    by_cases same : other = slot
    · subst same
      rw [cache_load_self, loadedNow, before]
      exact ConfigCache.loaded_onTask _ _ _
    · rw [occupied_load, decide_eq_false same, Bool.false_or] at occupied
      rw [cache_load_other _ same]
      exact held.onTask other occupied
  · intro other occupied
    by_cases same : other = slot
    · subst same
      rw [cache_load_self]
      cases engine.state.loads with
      | typeConfig => rfl
      | typeRm => rfl
    · rw [occupied_load, decide_eq_false same, Bool.false_or] at occupied
      rw [cache_load_other _ same]
      exact held.here other occupied

theorem Stat.configStart_begun (stat : Stat) (now : Nat) :
    (stat.configStart now).config.time.state ≠ .idle := by
  unfold configStart
  split
  · assumption
  · exact fun impossible => nomatch impossible

theorem Stat.rmStart_begun (stat : Stat) (now : Nat) :
    (stat.rmStart now).rm.time.state ≠ .idle := by
  unfold rmStart
  split
  · assumption
  · exact fun impossible => nomatch impossible

/-- The slots are loaded, and the phase they are loaded for has begun. -/
theorem TasksKept.prepare {now : Nat} {prepared : Engine} (kept : TasksKept loadedAs engine)
    (prepares : accPrepare now engine = some prepared) :
    TasksKept (loadedNow loadedAs engine) prepared ∧
      PlainBooks ⟨engine.host.stat, tally⟩ ⟨prepared.host.stat, tally⟩ := by
  have loaded := kept.load
  -- the statistics after the calls, and the phase that they begin
  have finish : ∀ stat : Stat, prepared = { cachesLoad engine engine.state.loads with
        host := { (cachesLoad engine engine.state.loads).host with stat := stat } } →
      PlainBooks ⟨engine.host.stat, tally⟩ ⟨stat, tally⟩ →
      (stat.time engine.state.loads.phase).state ≠ .idle →
      TasksKept (loadedNow loadedAs engine) prepared ∧
        PlainBooks ⟨engine.host.stat, tally⟩ ⟨prepared.host.stat, tally⟩ := by
    intro stat same books begun
    subst same
    refine ⟨⟨loaded.onTask, loaded.here, ?_⟩, books⟩
    intro slot _
    unfold loadedNow
    split
    · rename_i before
      exact books.begun (LoadType.phase_ne _) (kept.begun slot before)
    · exact begun
  unfold accPrepare at prepares
  cases state : engine.state with
  | removingDevicesEm =>
      simp only [state, Option.some.injEq] at prepares
      have type : engine.state.loads = .typeRm := by rw [state]; rfl
      rw [type] at finish loaded
      apply finish (engine.host.stat.rmStart now)
      · rw [← prepares, loaded.host]
      · exact plainBooks_call (.rmStart now) trivial rfl
      · exact Stat.rmStart_begun _ now
  | addingDevicesEm | configuringDevicesEm =>
      simp only [state, Option.some.injEq] at prepares
      have type : engine.state.loads = .typeConfig := by rw [state]; rfl
      rw [type] at finish loaded
      let full :=
        utilsPopcount (cachesLoad engine .typeConfig).used == maxConcurrentConfigNodes
      have begins : PlainBooks ⟨engine.host.stat, tally⟩
          ⟨engine.host.stat.configStart now, tally⟩ :=
        plainBooks_call (.configStart now) trivial rfl
      have measures : PlainBooks ⟨engine.host.stat.configStart now, tally⟩
          ⟨(engine.host.stat.configStart now).configLoadingRecord full now, tally⟩ :=
        plainBooks_call (.configLoadingRecord full now) trivial rfl
      apply finish ((engine.host.stat.configStart now).configLoadingRecord full now)
      · rw [← prepares, loaded.host]
      · exact begins.trans measures
      · exact measures.begun (fun impossible => nomatch impossible)
          (Stat.configStart_begun engine.host.stat now)
  | _ => simp only [state, reduceCtorEq] at prepares

theorem Tally.finishAll_used {slots : List Slot}
    (still : ∀ slot ∈ slots, after.occupied slot = true) :
    tally.finishAll loadedAs after slots = tally := by
  unfold finishAll
  induction slots with
  | nil => rfl
  | cons slot rest hypothesis =>
      rw [List.foldl_cons, if_pos (still slot List.mem_cons_self)]
      exact hypothesis fun other member => still other (List.mem_cons_of_mem slot member)

/-- One call of `acc_loop`. -/
theorem TasksKept.accLoop {now : Nat} {input : Slot → RoundInput}
    (kept : TasksKept loadedAs engine)
    (guarded : ∀ prepared, accPrepare now engine = some prepared →
      LoopGuarded (fun engine slot => RemovalAccepted (input slot) engine slot)
        (fun engine slot => engineSlot (input slot) engine slot) prepared
        (usedSlots prepared.used))
    (done : accLoop now input engine = .ok after) :
    TasksKept (loadedNow loadedAs engine) after ∧
      PlainBooks ⟨engine.host.stat, tally⟩
        ⟨after.host.stat, tally.finishAll (loadedNow loadedAs engine) after
          (usedSlots ((accPrepare now engine).getD engine).used)⟩ := by
  unfold Nwmng.accLoop at done
  cases prepares : accPrepare now engine with
  | none =>
      simp only [prepares, Except.ok.injEq] at done
      subst done
      have still : ∀ slot ∈ usedSlots engine.used, engine.occupied slot = true :=
        fun slot member => mem_usedSlots.mp member
      rw [Option.getD_none, Tally.finishAll_used still]
      refine ⟨⟨?_, kept.here, ?_⟩, .refl⟩
      · intro slot occupied
        rw [loadedNow, if_pos occupied]
        exact kept.onTask slot occupied
      · intro slot occupied
        rw [loadedNow, if_pos occupied]
        exact kept.begun slot occupied
  | some prepared =>
      simp only [prepares] at done
      obtain ⟨ready, begins⟩ := @kept.prepare _ _ tally _ _ prepares
      simp only [configEngine, bind_ok] at done
      obtain ⟨last, rounds, narrow⟩ := done
      have same : after = last := by
        split at narrow
        · exact (Except.ok.inj narrow).symm
        · cases narrow
      subst same
      obtain ⟨keptAfter, turns⟩ := @ready.rounds _ _ _ tally _ _ nodup_usedSlots
        (fun slot member => mem_usedSlots.mp member) (guarded prepared prepares) rounds
      exact ⟨keptAfter, begins.trans turns⟩

end

/-!
## The phases

The start of a phase clears its record.  What was counted before is lost, so nothing may have
been counted by then.
-/

/-- The loop over the priorities begins the adding phase, or calls nothing. -/
theorem scanPhases_stat (input : PhaseInput) (prios : List Prio) (mng : Mng) :
    (scanPhases input prios mng).engine.host.stat = mng.engine.host.stat ∨
      (mng.lists.add ≠ [] ∧ (scanPhases input prios mng).state = .addingDevicesEm ∧
        (scanPhases input prios mng).engine.host.stat =
          mng.engine.host.stat.addStart input.now) := by
  induction prios generalizing mng with
  | nil => exact .inl rfl
  | cons prio rest hypothesis =>
      have later := hypothesis { mng with seq := { mng.seq with offs := mng.seq.offs + 1 } }
      cases prio with
      | stop => exact .inl rfl
      | a =>
          rw [scanPhases]
          split
          · rename_i adds
            refine .inr ⟨adds, rfl, ?_⟩
            split
            · rw [clmSetScan_eq]
              rfl
            · rfl
          · split
            · exact .inl rfl
            · exact later
      | r =>
          rw [scanPhases]
          split
          · exact later
          · exact .inl rfl
      | b =>
          rw [scanPhases]
          split
          · exact later
          · exact .inl rfl

theorem books_nextPhase {ends : StatPhase → Prop} {input : PhaseInput} {mng : Mng}
    {tally : Tally} (fits : mng.lists.add ≠ [] →
      (nextPhase input mng).state = .addingDevicesEm →
      (StatOp.addStart input.now).Fits ⟨mng.engine.host.stat, tally⟩) :
    Books ends ⟨mng.engine.host.stat, tally⟩
      ⟨(nextPhase input mng).engine.host.stat, tally⟩ := by
  rcases scanPhases_stat input (mng.seq.prios.toList.drop mng.seq.offs) mng with
    same | ⟨adds, state, begins⟩
  · rw [nextPhase, same]
  · rw [nextPhase, begins]
    exact .call (.addStart input.now) (fits adds state) (fun impossible => by cases impossible)

theorem Mng.addEnded_stat (input : PhaseInput) (mng : Mng) :
    (mng.addEnded input).engine.host.stat = mng.engine.host.stat.addEnd input.now := by
  unfold addEnded
  split
  · rw [clmSetScan_eq]
    rfl
  · rfl

/-- `set_mng_state` ends the phase it leaves, and may begin the adding phase. -/
theorem books_setMngState {input : PhaseInput} {mng : Mng} {tally : Tally}
    (fits : mng.state ≠ .addingDevicesEm → (setMngState input mng).state = .addingDevicesEm →
      (StatOp.addStart input.now).Fits ⟨mng.engine.host.stat, tally⟩) :
    Books mng.MayEnd ⟨mng.engine.host.stat, tally⟩
      ⟨(setMngState input mng).engine.host.stat, tally⟩ := by
  cases state : mng.state with
  | addingDevicesEm =>
      by_cases added : mng.lists.add = []
      · obtain ⟨lists, _, _⟩ := mng.addEnded_kept input
        have ended : Books mng.MayEnd ⟨mng.engine.host.stat, tally⟩
            ⟨(mng.addEnded input).engine.host.stat, tally⟩ := by
          rw [Mng.addEnded_stat]
          exact .call (.addEnd input.now) trivial fun _ => state
        rw [setMngState_adding input state added]
        split
        · exact ended
        · refine ended.trans (books_nextPhase ?_)
          intro adds _
          rw [lists] at adds
          exact absurd added adds
      · rw [setMngState, state]
        simp only [ne_eq, added, not_false_eq_true, if_true]
        exact .refl
  | configuringDevicesEm =>
      have other : mng.state ≠ .addingDevicesEm := by rw [state]; decide
      have goes := fits other
      rw [setMngState, state] at goes ⊢
      dsimp only at goes ⊢
      split
      · exact .refl
      · rename_i done
        rw [if_neg done] at goes
        have ended : Books mng.MayEnd ⟨mng.engine.host.stat, tally⟩
            ⟨(mng.measure (·.configEnd input.now)).engine.host.stat, tally⟩ :=
          .call (.configEnd input.now) trivial fun _ => state
        exact ended.trans (books_nextPhase fun _ adding => goes adding)
  | removingDevicesEm =>
      have other : mng.state ≠ .addingDevicesEm := by rw [state]; decide
      have goes := fits other
      rw [setMngState, state] at goes ⊢
      dsimp only at goes ⊢
      split
      · exact .refl
      · rename_i done
        rw [if_neg done] at goes
        have ended : Books mng.MayEnd ⟨mng.engine.host.stat, tally⟩
            ⟨(mng.measure (·.rmEnd input.now)).engine.host.stat, tally⟩ :=
          .call (.rmEnd input.now) trivial fun _ => state
        exact ended.trans (books_nextPhase fun _ adding => goes adding)
  | blacklistingDevicesEm =>
      have other : mng.state ≠ .addingDevicesEm := by rw [state]; decide
      have goes := fits other
      rw [setMngState, state] at goes ⊢
      dsimp only at goes ⊢
      split
      · exact .refl
      · rename_i done
        rw [if_neg done] at goes
        exact books_nextPhase fun _ adding => goes adding
  | starting =>
      have other : mng.state ≠ .addingDevicesEm := by rw [state]; decide
      have goes := fits other
      rw [setMngState, state] at goes ⊢
      exact @books_nextPhase _ _ { mng with seq := { mng.seq with offs := 0 } } _
        fun _ adding => goes adding
  | _ => rw [setMngState, state]

/-- The states in which slots are in use. -/
def MngState.usesSlots : MngState → Bool
  | .addingDevicesEm | .configuringDevicesEm | .removingDevicesEm => true
  | _ => false

/-- A phase that uses slots is left for one that does not when they are free. -/
theorem setMngState_vacant {input : PhaseInput} {mng : Mng}
    (left : (setMngState input mng).state.usesSlots = false)
    (before : mng.state.usesSlots = false → mng.engine.used = 0) : mng.engine.used = 0 := by
  by_contra occupied
  have busy : mng.state.usesSlots = true := by
    by_contra idle
    exact occupied (before (by simpa using idle))
  cases state : mng.state with
  | addingDevicesEm =>
      by_cases added : mng.lists.add = []
      · rw [setMngState_adding input state added, if_pos (.inr occupied)] at left
        cases left
      · rw [setMngState, state] at left
        simp only [ne_eq, added, not_false_eq_true, if_true, state] at left
        cases left
  | configuringDevicesEm | removingDevicesEm =>
      rw [setMngState, state] at left
      dsimp only at left
      rw [if_pos (.inr occupied), state] at left
      cases left
  | _ =>
      rw [state] at busy
      cases busy

/-! ## The other steps -/

theorem SlotFrame.refl (mng : Mng) : SlotFrame mng mng := ⟨rfl, rfl, rfl⟩

theorem StatFrame.refl (mng : Mng) : StatFrame mng mng := ⟨.refl mng, rfl⟩

/-- `bl_loop` begins and ends its own phase. -/
theorem books_blLoop {input : BlInput} {mng after : Mng} {tally : Tally}
    (fits : mng.bl.state = .idle → mng.lists.bl ≠ [] →
      (StatOp.blStart input.now).Fits ⟨mng.engine.host.stat, tally⟩)
    (done : blLoop input mng = .ok after) :
    Books (fun phase => phase = .bl ∧ mng.bl.state = .done) ⟨mng.engine.host.stat, tally⟩
        ⟨after.engine.host.stat, tally⟩ ∧ SlotFrame mng after := by
  cases blLoop_step done with
  | inactive _ _ => exact ⟨.refl, .refl mng⟩
  | begins rem sent state some_ _ _ =>
      refine ⟨?_, rfl, rfl, rfl⟩
      exact .call (.blStart input.now) (fits state some_) (fun impossible => nomatch impossible)
  | pushes _ _ _ _ => exact ⟨.refl, rfl, rfl, rfl⟩
  | starts _ _ => exact ⟨.refl, rfl, rfl, rfl⟩
  | waits _ => exact ⟨.refl, .refl mng⟩
  | more _ _ _ _ => exact ⟨.refl, rfl, rfl, rfl⟩
  | ends _ state _ _ =>
      refine ⟨?_, rfl, rfl, rfl⟩
      exact .call (.blEnd input.now) trivial fun _ => ⟨rfl, state⟩

theorem statFrame_blHdr {packet : BlEvent} {rsp : KeyRsp} {mng after : Mng}
    (done : blHdr packet rsp mng = .ok after) : StatFrame mng after := by
  rcases blHdr_cases done with ⟨rem, rfl⟩ | ⟨_, _, cfg, _, rfl, _⟩
  · exact ⟨⟨rfl, rfl, rfl⟩, rfl⟩
  · exact ⟨⟨rfl, rfl, rfl⟩, rfl⟩

section

variable {state target : AddState} {tally : Tally}

theorem statFrame_recoverScan (state : AddState) : StatFrame state.mng state.recoverScan.mng := by
  rw [AddState.mng_recoverScan]
  exact .refl _

theorem statFrame_provisionDevice (netkey : UInt16) (id : Fin maxProvSessions) (uuid : Uuid)
    (result : UInt16) (now : Nat) (state : AddState) :
    StatFrame state.mng (state.provisionDevice netkey id uuid result now).mng := by
  obtain ⟨_, _, _, _, _, same⟩ :=
    AddState.provisionDevice_eq netkey id uuid result now state
  rw [same]
  exact ⟨⟨rfl, rfl, rfl⟩, rfl⟩

theorem statFrame_onBeaconRecv {uuid : Uuid} {gatt : Bool} {result : UInt16} {now : Nat}
    {clock : SaveClock} (done : state.onBeaconRecv uuid gatt result now clock = .ok target) :
    StatFrame state.mng target.mng := by
  cases AddState.onBeaconRecv_step done with
  | ignored => exact .refl _
  | noted _ _ => exact ⟨⟨rfl, rfl, rfl⟩, rfl⟩
  | requested _ _ _ _ _ => exact statFrame_provisionDevice _ _ _ _ _ _

theorem statFrame_addLoop (now : Nat) (state : AddState) :
    StatFrame state.mng (state.addLoop now).mng := by
  have cleared : ∀ other : AddState, StatFrame other.mng
      (other.setMng (other.mng.clearExpired now)).mng := fun other => ⟨⟨rfl, rfl, rfl⟩, rfl⟩
  unfold AddState.addLoop
  dsimp only
  split
  · have found := statFrame_recoverScan (state.setMng { state.mng with oom := false })
    obtain ⟨⟨state_, used, cache⟩, stat⟩ := cleared
      (state.setMng { state.mng with oom := false }).recoverScan
    exact ⟨⟨state_.trans found.state, used.trans found.used, cache.trans found.cache⟩,
      stat.trans found.stat⟩
  · exact cleared state

/-- A device that is reported provisioned is counted. -/
theorem books_onProvSuccess {input : WriteInput} {uuid : Uuid} {addr : UInt16}
    (done : state.onProvSuccess input uuid addr = .ok target) :
    SlotFrame state.mng target.mng ∧
      target.mng.engine.host.stat = state.mng.engine.host.stat.addOneDev := by
  obtain ⟨nodes, _, done⟩ := bind_ok.mp done
  obtain ⟨engine, counts, result⟩ := bind_ok.mp done
  obtain ⟨db, _, counts⟩ := bind_ok.mp counts
  cases result
  rw [AddState.mng_recoverScan]
  split at counts
  · cases counts
    exact ⟨⟨rfl, rfl, rfl⟩, rfl⟩
  · cases counts

/-- The events of the adding phase. -/
theorem books_devAddHdr {news : ProvEvent} (done : state.devAddHdr news = .ok target) :
    SlotFrame state.mng target.mng ∧
      PlainBooks ⟨state.mng.engine.host.stat, tally⟩
        ⟨target.mng.engine.host.stat, tally.hear state news⟩ := by
  cases news with
  | beacon uuid gatt result now clock =>
      simp only [AddState.devAddHdr] at done
      split at done
      · have frame := statFrame_onBeaconRecv done
        refine ⟨frame.toSlotFrame, ?_⟩
        rw [frame.stat]
        exact .refl
      · cases done
        exact ⟨.refl _, .refl⟩
  | provisioned uuid addr input =>
      simp only [AddState.devAddHdr] at done
      split at done
      · rename_i listening
        obtain ⟨frame, stat⟩ := books_onProvSuccess done
        refine ⟨⟨frame.state, frame.used, frame.cache⟩, ?_⟩
        rw [stat, Tally.hear, if_pos listening]
        exact plainBooks_call .addOneDev trivial rfl
      · rename_i deaf
        cases done
        rw [Tally.hear, if_neg deaf]
        exact ⟨⟨rfl, rfl, rfl⟩, .refl⟩
  | failed uuid reason =>
      simp only [AddState.devAddHdr] at done
      split at done
      · rename_i listening
        cases done
        unfold AddState.onProvFailed
        split
        · rename_i lost
          rw [Tally.hear, if_neg fun counted => counted.2 lost]
          unfold AddState.provFailedWa
          dsimp only
          split
          · exact ⟨⟨rfl, rfl, rfl⟩, .refl⟩
          · exact ⟨⟨rfl, rfl, rfl⟩, .refl⟩
        · rename_i counted
          rw [AddState.mng_recoverScan, Tally.hear, if_pos ⟨listening, counted⟩]
          exact ⟨⟨rfl, rfl, rfl⟩, plainBooks_call .addFailed trivial rfl⟩
      · rename_i deaf
        cases done
        rw [Tally.hear, if_neg fun counted => deaf counted.1]
        exact ⟨⟨rfl, rfl, rfl⟩, .refl⟩

end

/-! ## Commands of the user -/

section

variable {source target : AddState}

theorem stat_mngLoadLists (inDdb : Uuid → Bool) (mng : Mng) :
    (mngLoadLists inDdb mng).engine.host.stat = mng.engine.host.stat := by
  unfold mngLoadLists
  split
  · rfl
  · rfl
  · rfl

theorem stat_loadCfgFile {env : LoadEnv} {inDdb : Uuid → Bool} {clock : SaveClock}
    {force loaded : Bool} {before after : NodesHost}
    (done : loadCfgFile env inDdb clock force before = .ok (loaded, after)) :
    after.mng.engine.host.stat = before.mng.engine.host.stat := by
  obtain ⟨⟨isLoaded, nw, db⟩, _, result⟩ := bind_ok.mp done
  cases isLoaded with
  | false =>
      cases result
      rfl
  | true =>
      cases result
      exact stat_mngLoadLists inDdb _

/-- The slots, for the rules about what loading a file leaves alone. -/
def Mng.slotView (mng : Mng) : MngState × BitVec 32 × (Slot → ConfigCache) :=
  (mng.state, mng.engine.used, mng.engine.cache)

theorem loadFrame_slotView : LoadFrame Mng.slotView :=
  ⟨fun _ _ => rfl, fun _ _ => rfl, fun _ _ => rfl⟩

theorem SlotFrame.of_view {before after : Mng} (same : after.slotView = before.slotView) :
    SlotFrame before after := by
  simp only [Mng.slotView, Prod.mk.injEq] at same
  exact ⟨same.1, same.2.1, same.2.2⟩

theorem statFrame_clicbRmblclr {input : FileInput} {before after : NodesHost}
    (done : clicbRmblclr input before = .ok after) : StatFrame before.mng after.mng := by
  refine ⟨.of_view (loadFrame_slotView.clicbRmblclr done), ?_⟩
  obtain ⟨⟨written, nodes⟩, _, done⟩ := bind_ok.mp done
  cases written with
  | false =>
      cases done
      rfl
  | true =>
      obtain ⟨⟨loaded, last⟩, loads, result⟩ := bind_ok.mp done
      cases result
      exact (stat_loadCfgFile loads).trans rfl

theorem clicbSync_statFrame (start : Bool) {mng : Mng} (busy : mng.state.busy = true) :
    StatFrame mng (clicbSync start mng) := by
  unfold clicbSync
  split
  · rename_i idle
    rw [idle] at busy
    cases busy
  · rename_i idle
    rw [idle] at busy
    cases busy
  · rename_i idle
    rw [idle] at busy
    cases busy
  · split
    · exact .refl mng
    · exact ⟨⟨rfl, rfl, rfl⟩, rfl⟩

/-- The commands that a synchronization can be given, and the writes of the nodes file, leave
the statistics and the slots alone. -/
theorem AddOp.outside {op : AddOp} (busy : source.mng.state.busy = true)
    (command : match op with
      | .sync _ | .freemode _ _ | .seqset _ | .rmall _ | .rmblclr _ | .write _ => True
      | _ => False)
    (done : op.run source = .ok target) : StatFrame source.mng target.mng := by
  cases op with
  | sync start =>
      cases done
      exact clicbSync_statFrame start busy
  | freemode on result =>
      cases done
      unfold AddState.followScan clicbFreemode
      rw [clmSetScan_eq]
      exact ⟨⟨rfl, rfl, rfl⟩, rfl⟩
  | seqset seq =>
      cases done
      obtain ⟨prios, same⟩ := clicbSeqset_eq seq source.mng
      rw [same]
      exact ⟨⟨rfl, rfl, rfl⟩, rfl⟩
  | rmall input =>
      obtain ⟨host, removes, result⟩ := bind_ok.mp done
      cases result
      unfold clicbRmall at removes
      have working : source.host.mng.state.busy = true := busy
      rw [if_pos working] at removes
      cases removes
      exact .refl _
  | rmblclr input =>
      obtain ⟨host, clears, result⟩ := bind_ok.mp done
      cases result
      exact statFrame_clicbRmblclr clears
  | write call =>
      obtain ⟨nodes, _, result⟩ := bind_ok.mp done
      cases result
      exact ⟨⟨rfl, rfl, rfl⟩, rfl⟩
  | _ => exact command.elim

end

/-! ## Runs -/

/-- The counters tell the tally, each slot is on its task, and the slots are in use in the
phases that use them only. -/
structure SyncKept (state : SyncedState) : Prop where
  exact_ : state.account.Exact
  tasks : TasksKept state.loadedAs state.engine
  vacant : state.mng.state.usesSlots = false → state.engine.used = 0

/-- What is neither loaded nor taken a turn keeps its task. -/
theorem TasksKept.frame {loadedAs : Slot → LoadType} {before after : Engine} {tally later : Tally}
    {ends : StatPhase → Prop} (kept : TasksKept loadedAs before) (used : after.used = before.used)
    (cache : after.cache = before.cache)
    (books : Books ends ⟨before.host.stat, tally⟩ ⟨after.host.stat, later⟩) :
    TasksKept loadedAs after := by
  have occupied : ∀ slot, after.occupied slot = before.occupied slot := by
    intro slot
    simp only [Engine.occupied, used]
  constructor
  · intro slot here
    rw [cache]
    exact kept.onTask slot ((occupied slot).symm.trans here)
  · intro slot here
    rw [cache]
    exact kept.here slot ((occupied slot).symm.trans here)
  · intro slot here
    exact books.begun (LoadType.phase_ne _) (kept.begun slot ((occupied slot).symm.trans here))

/-- A step that leaves the slots alone. -/
theorem SyncKept.frame {source target : SyncedState} {ends : StatPhase → Prop}
    (kept : SyncKept source) (frame : SlotFrame source.mng target.mng)
    (loadedAs : target.loadedAs = source.loadedAs)
    (books : Books ends source.account target.account) : SyncKept target where
  exact_ := (books.exact_ kept.exact_).1
  tasks := by
    rw [loadedAs]
    exact kept.tasks.frame frame.used frame.cache books
  vacant := by
    intro idle
    rw [frame.state] at idle
    exact frame.used.trans (kept.vacant idle)

theorem accLoop_state {now : Nat} {input : Slot → RoundInput} {engine after : Engine}
    (done : accLoop now input engine = .ok after) : after.state = engine.state := by
  refine @accLoop_invariant (fun other => other.state = engine.state) ?_ ?_ ?_ _ _ _ _ rfl done
  · intro input middle slot last same _ step
    cases step with
    | stays _ _ => exact same
    | moves _ _ _ _ _ => exact same
    | ends _ _ _ _ _ => exact same
  · intro middle type node rest slot same _ _
    rw [cacheItemLoad_eq]
    exact same
  · intro middle stat same
    exact same

theorem phaseFrame_used : PhaseFrame fun mng : Mng => mng.engine.used :=
  ⟨fun _ _ => rfl, fun _ _ => rfl, fun _ _ => rfl, fun _ _ => rfl⟩

theorem phaseFrame_cache : PhaseFrame fun mng : Mng => mng.engine.cache :=
  ⟨fun _ _ => rfl, fun _ _ => rfl, fun _ _ => rfl, fun _ _ => rfl⟩

/-- No slot is loaded in a state without slots. -/
theorem accLoop_idle {now : Nat} {input : Slot → RoundInput} {engine after : Engine}
    (idle : engine.state.usesSlots = false) (done : accLoop now input engine = .ok after) :
    after = engine := by
  unfold accLoop at done
  have nothing : accPrepare now engine = none := by
    unfold accPrepare
    cases state : engine.state with
    | addingDevicesEm | configuringDevicesEm | removingDevicesEm =>
        rw [state] at idle
        cases idle
    | _ => rfl
  rw [nothing] at done
  exact (Except.ok.inj done).symm

/-- A step under the condition keeps the statistics, by calls that end no other phase than
its own. -/
theorem SyncedOp.kept {source target : SyncedState} {op : SyncedOp} (kept : SyncKept source)
    (guard : op.Guard source) (step : op.Step source target) :
    SyncKept target ∧ Books (op.Ends source) source.account target.account := by
  obtain ⟨possible, done⟩ := step
  cases op with
  | event news =>
      obtain ⟨add, handled, result⟩ := bind_ok.mp done
      cases result
      obtain ⟨frame, books⟩ := @books_devAddHdr _ _ source.tally _ handled
      exact ⟨kept.frame frame rfl books, books⟩
  | receive packet input =>
      obtain ⟨engine, handled, result⟩ := bind_ok.mp done
      cases result
      obtain ⟨slot, cache, host, routed, step, rfl⟩ := devConfigHdr_step handled
      obtain ⟨_, _, occupied, here, _⟩ := cacheFromCchandle_eq routed
      have books := step.books source.tally
      have hereStill : cache.node.isSome = true := by
        rw [step.sameNode]
        exact here
      have tasks := kept.tasks.turn (step.onTask (kept.tasks.onTask slot occupied)) hereStill books
      exact ⟨⟨(books.exact_ kept.exact_).1, tasks, kept.vacant⟩, books⟩
  | refresh packet rsp =>
      obtain ⟨mng, handled, result⟩ := bind_ok.mp done
      cases result
      have frame := statFrame_blHdr handled
      have same : (source.setMng mng).account = source.account :=
        congrArg (Account.mk · source.tally) frame.stat
      have books : Books (SyncedOp.Ends source (.refresh packet rsp)) source.account
          (source.setMng mng).account := by
        rw [same]
      exact ⟨kept.frame frame.toSlotFrame rfl books, books⟩
  | addLoop now =>
      cases done
      have frame := statFrame_addLoop now source.add
      have books : Books (SyncedOp.Ends source (.addLoop now)) source.account
          { source with add := source.add.addLoop now : SyncedState }.account := by
        have same : { source with add := source.add.addLoop now : SyncedState }.account =
            source.account := congrArg (Account.mk · source.tally) frame.stat
        rw [same]
      exact ⟨kept.frame frame.toSlotFrame rfl books, books⟩
  | accLoop now input =>
      obtain ⟨engine, loops, result⟩ := bind_ok.mp done
      cases result
      obtain ⟨tasks, books⟩ := @kept.tasks.accLoop _ _ _ source.tally _ _ guard loops
      refine ⟨⟨(books.exact_ kept.exact_).1, tasks, ?_⟩, books⟩
      intro idle
      have before : source.engine.state.usesSlots = false := by
        rw [← accLoop_state loops]
        exact idle
      have same : engine = source.engine := accLoop_idle before loops
      subst same
      exact kept.vacant before
  | blLoop input =>
      obtain ⟨mng, loops, result⟩ := bind_ok.mp done
      cases result
      obtain ⟨books, frame⟩ := @books_blLoop _ _ _ source.tally
        (fun idle some_ fresh => guard idle some_ fresh) loops
      exact ⟨kept.frame frame rfl books, books⟩
  | setMngState input =>
      cases done
      have books : Books source.mng.MayEnd source.account
          ⟨(Nwmng.setMngState input source.mng).engine.host.stat, source.tally⟩ :=
        books_setMngState fun other adding idle => guard other adding idle
      have used : (Nwmng.setMngState input source.mng).engine.used = source.engine.used :=
        phaseFrame_used.setMngState input source.mng
      have cache : (Nwmng.setMngState input source.mng).engine.cache = source.engine.cache :=
        phaseFrame_cache.setMngState input source.mng
      refine ⟨⟨(books.exact_ kept.exact_).1, kept.tasks.frame used cache books, ?_⟩, books⟩
      intro idle
      exact used.trans (setMngState_vacant idle kept.vacant)
  | outside add =>
      cases done
      have books : Books (SyncedOp.Ends source (.outside add)) source.account
          { source with add := add : SyncedState }.account := by
        have same : { source with add := add : SyncedState }.account = source.account :=
          congrArg (Account.mk · source.tally) possible.stat
        rw [same]
      exact ⟨kept.frame possible.toSlotFrame rfl books, books⟩

/-- What a step has to leave: the counters tell the tally, exactly as long as its counts fit into
them, every call has changed the record of its own phase only, and the phases that have ended keep
their times, but for the end of a phase that ends again. -/
structure StatRight (move : Move SyncedState SyncedOp) : Prop where
  tells : move.target.stat.Tells move.target.tally ↔ move.target.tally.Bounded
  own : OwnCalls move.source.account move.target.account
  ended : ∀ phase, (move.source.stat.time phase).KeepsEnd (move.label.Ends move.source phase)
    (move.target.stat.time phase)

/-- A synchronization begins with empty statistics, and without slots. -/
theorem SyncBegins.kept {source : AddState} {start : SyncedState}
    (begins : SyncBegins source start) : SyncKept start := by
  obtain ⟨_, vacant, ⟨input, loaded, loads⟩, tally⟩ := begins
  have used : start.engine.used = 0 := by
    have same := loadFrame_slotView.startSync loads
    exact (SlotFrame.of_view same).used.trans vacant
  have stat : start.stat = Stat.zeroed := by
    unfold startSync at loads
    dsimp only at loads
    split at loads
    · exact stat_loadCfgFile loads
    · have same : start.add.host.mng = mngLoadLists input.inDdb
          (source.host.mng.measure fun _ => Stat.zeroed) :=
        congrArg NodesHost.mng (Prod.mk.inj (Except.ok.inj loads)).2.symm
      change start.add.host.mng.engine.host.stat = Stat.zeroed
      rw [same, stat_mngLoadLists]
      rfl
  have free : ∀ slot, start.engine.occupied slot = false := by
    intro slot
    simp [Engine.occupied, used]
  have account : start.account = ⟨Stat.zeroed, .zero⟩ := by
    unfold SyncedState.account
    rw [stat, tally]
  refine ⟨?_, ?_, fun _ => used⟩
  · rw [account]
    exact ⟨⟨rfl, rfl, rfl, rfl⟩, fun _ => rfl, fun _ => rfl, fun _ => rfl⟩
  · have none_ : ∀ slot, start.engine.occupied slot ≠ true := by
      intro slot
      rw [free slot]
      exact Bool.false_ne_true
    exact ⟨fun slot here => absurd here (none_ slot), fun slot here => absurd here (none_ slot),
      fun slot here => absurd here (none_ slot)⟩

/-- In every synchronization all of whose steps meet the condition, the statistics are exact
after every step, as long as no more is counted than an `unsigned` can hold; when it is done, no
slot is still at work.  The tally is kept beside the program and counts each outcome once. -/
theorem sync_stats_exact {source : AddState} {initial final : SyncedState}
    {past : List (Move SyncedState SyncedOp)} (begins : SyncBegins source initial)
    (run : SyncedRun initial past final)
    (guarded : Guarded (fun state op => SyncedOp.Guard state op) past) :
    (final.stat.Tells final.tally ↔ final.tally.Bounded) ∧ (∀ move ∈ past, StatRight move) ∧
      (final.mng.state = .configured → final.engine.used = 0) := by
  have preserved : ∀ source op target, SyncKept source → SyncedOp.Guard source op →
      SyncedOp.Step source op target → SyncKept target :=
    fun source op target before admitted step => (SyncedOp.kept before admitted step).1
  have kept := run.guarded_invariant preserved begins.kept guarded
  refine ⟨kept.2.exact_.wraps.tells_iff, ?_, fun done => kept.2.vacant (by rw [done]; rfl)⟩
  intro move member
  obtain ⟨before, after⟩ := kept.1 move member
  have books := (SyncedOp.kept before (guarded move member) (run.steps_taken move member)).2
  exact ⟨after.exact_.wraps.tells_iff, (books.exact_ before.exact_).2, books.keepsEnd⟩

/-! ## Two runs -/

instance (input : RoundInput) (engine : Engine) (slot : Slot) :
    Decidable (RemovalAccepted input engine slot) :=
  inferInstanceAs (Decidable (_ → _ → _))

instance (account : Account) : Decidable account.NothingAdded :=
  inferInstanceAs (Decidable (_ ∧ _))

instance (source : SyncedState) : (op : SyncedOp) → Decidable (op.Guard source)
  | .accLoop now input =>
      inferInstanceAs (Decidable (∀ prepared, accPrepare now source.engine = some prepared →
        LoopGuarded (fun engine slot => RemovalAccepted (input slot) engine slot)
          (fun engine slot => engineSlot (input slot) engine slot) prepared
          (usedSlots prepared.used)))
  | .setMngState _ => inferInstanceAs (Decidable (_ → _ → _ → _))
  | .blLoop _ => inferInstanceAs (Decidable (_ → _ → _ → _))
  | .event _ => isTrue trivial
  | .receive _ _ => isTrue trivial
  | .refresh _ _ => isTrue trivial
  | .addLoop _ => isTrue trivial
  | .outside _ => isTrue trivial

/-- A node that is marked for removal, in a network that is about to be synchronized. -/
def AddState.sampleRemoval : AddState where
  host :=
    { mng := (Mng.around (Engine.small { Node.plain 2 with rmorbl := 0x10 })).setState .starting
      nw := .zeroed
      file := { content := none, mtime := 0 } }
  scanNeedRecover := false
  scanning := false
  requests := []
  sessions := []
  cut := true

/-- What the start of a synchronization finds: the NCP has every device. -/
def FileInput.sampleSync : FileInput := { FileInput.sample with inDdb := fun _ => true }

/-- The synchronization has begun, and nothing was done yet. -/
def SyncedState.sample : SyncedState where
  add :=
    { AddState.sampleRemoval with
      host :=
        { AddState.sampleRemoval.host with
          mng := mngLoadLists FileInput.sampleSync.inDdb
            (AddState.sampleRemoval.mng.measure fun _ => Stat.zeroed) } }
  loadedAs := fun _ => .typeConfig
  tally := .zero

theorem SyncedState.sample_begins : SyncBegins AddState.sampleRemoval SyncedState.sample where
  starting := rfl
  vacant := rfl
  loads := ⟨FileInput.sampleSync, true, rfl⟩
  tally := rfl

/-- Nothing but the steps of the main loop and the events. -/
def SyncedOp.own : SyncedOp → Bool
  | .outside _ => false
  | _ => true

theorem syncedRun_of_replays {initial : SyncedState} {labels : List SyncedOp}
    {test : List (Move SyncedState SyncedOp) → SyncedState → Bool}
    (passed : replays SyncedOp.run initial labels (fun past final =>
      past.all (fun move => move.label.own) && test past final) = true) :
    ∃ past final, SyncedRun initial past final ∧ test past final = true := by
  obtain ⟨past, final, run, _, reached⟩ := execution_of_replays passed
  obtain ⟨own, tested⟩ := Bool.and_eq_true_iff.mp reached
  refine ⟨past, final, run.of_moves fun move member => ⟨?_, run.steps_taken move member⟩, tested⟩
  have inside := List.all_eq_true.mp own move member
  cases label : move.label with
  | outside add =>
      rw [label] at inside
      cases inside
  | _ => trivial

/-- The removal of the node is asked for, with a given answer. -/
def removalSample (answer : CmdRsp) : List SyncedOp :=
  [.setMngState .sample, .accLoop 1 (RoundInput.all 1 answer answer)]

/-- The node is removed, and the synchronization is done. -/
theorem sync_stats_exact_removed :
    ∃ past final, SyncedRun SyncedState.sample past final ∧ final.mng.state = .configured ∧
      final.stat.rm.devCnt.toNat = 1 ∧ final.stat.config.devCnt.toNat = 0 := by
  have passed : replays SyncedOp.run .sample
      (removalSample (.taken 7 1) ++
        [.receive (.status .reset 7 bgErrSuccess) ⟨.taken 8 1, .taken 8 1⟩,
          .accLoop 2 (RoundInput.all 2 (.taken 8 2) (.taken 8 2)), .setMngState .sample])
      (fun past final => past.all (fun move => move.label.own) &&
        decide (Guarded (fun state op => SyncedOp.Guard state op) past ∧
          final.mng.state = .configured ∧
          final.tally = { provisioned := 0, failed := 0, configured := 0, removed := 1 })) =
        true := by
    decide +kernel
  obtain ⟨past, final, run, shown⟩ := syncedRun_of_replays passed
  obtain ⟨guarded, finished, tally⟩ := of_decide_eq_true shown
  have exact_ := (sync_stats_exact SyncedState.sample_begins run guarded).1
  rw [tally] at exact_
  have tells := exact_.mpr ⟨by decide, by decide, by decide, by decide⟩
  exact ⟨past, final, run, finished, tells.removed, tells.configured⟩

/-- A reset command that the NCP refuses counts the node among those configured; and
`stat_bl_start` clears the record of the adding phase. -/
theorem sync_stats_miscount :
    (¬ ∀ (source : AddState) (initial final : SyncedState)
        (past : List (Move SyncedState SyncedOp)), SyncBegins source initial →
        SyncedRun initial past final → final.mng.state = .configured →
        final.stat.Tells final.tally) ∧
      ¬ ∀ (op : StatOp) (stat : Stat), op.OwnRecord stat := by
  constructor
  · intro claim
    have passed : replays SyncedOp.run .sample
        (removalSample { result := 0x181, handle := 0, time := 1 } ++ [.setMngState .sample])
        (fun past final => past.all (fun move => move.label.own) &&
          decide (final.mng.state = .configured ∧ final.stat.config.devCnt = 1 ∧
            final.tally = { provisioned := 0, failed := 0, configured := 0, removed := 1 })) =
          true := by
      decide +kernel
    obtain ⟨past, final, run, shown⟩ := syncedRun_of_replays passed
    obtain ⟨finished, counted, tally⟩ := of_decide_eq_true shown
    have tells := claim _ _ final past SyncedState.sample_begins run finished
    rw [tally] at tells
    have none_ := tells.configured
    rw [counted] at none_
    cases none_
  · intro claim
    have kept := claim (.blStart 5) (Stat.zeroed.addStart 3).addOneDev
    have clear := (StatOp.ownRecord_iff _ _).mp kept rfl
    cases clear.devCnt

end Nwmng
