/-
Module: Nwmng.Config.EngineRun
Purpose: Runs of the configuration engine, in an environment that may change
everything but the slots between two steps.
Trusted boundary: none
Main exports:
  EngineOp, EngineOp.run, EngineRun, EngineOp.Guards, accLoop_guarded,
  EngineOp.guarded_step, Engine.small
-/
import Nwmng.Lib.Execution
import Nwmng.Config.Rounds

namespace Nwmng

open Transition Fallible

/-- A step of the engine or of its environment.  Rounds, events and everything else may come in
any order: the main loop polls, and the user types when he likes. -/
inductive EngineOp where
  /-- one call of `acc_loop` -/
  | iterate (now : Nat) (input : Slot → RoundInput)
  /-- one call of `dev_config_hdr` -/
  | receive (packet : ConfigEvent) (input : EventInput)
  /-- anything else the program does: it does not touch the slots -/
  | outside (host : Host) (lists : Lists) (state : MngState)

def EngineOp.run (engine : Engine) : EngineOp → Except Abort Engine
  | .iterate now input => accLoop now input engine
  | .receive packet input => devConfigHdr packet input engine
  | .outside host lists state =>
      .ok { engine with host := host, lists := lists, state := state }

abbrev EngineRun := Execution (Succeeds EngineOp.run)

/-- The slots as `acc_init` leaves them. -/
def Engine.Fresh (engine : Engine) : Prop :=
  engine.used = 0 ∧ ∀ slot, engine.cache slot = ConfigCache.reset

theorem Engine.Fresh.vacant {engine : Engine} (fresh : engine.Fresh) (slot : Slot) :
    engine.occupied slot = false := by
  simp [occupied, fresh.1]

/-- A condition on the rounds and one on the events make a condition on steps: the
rounds of one call start in the states that the rounds before them leave. -/
def EngineOp.Guards (round : (Slot → RoundInput) → Engine → Slot → Prop)
    (routed : ConfigEvent → EventInput → Engine → Slot → Prop) (engine : Engine) :
    EngineOp → Prop
  | .iterate now input =>
      ∀ prepared, accPrepare now engine = some prepared →
        LoopGuarded (round input) (fun engine slot => engineSlot (input slot) engine slot)
          prepared (usedSlots prepared.used)
  | .receive packet input =>
      ∀ slot, cacheFromCchandle engine packet = .ok slot → routed packet input engine slot
  | .outside .. => True

instance {round : (Slot → RoundInput) → Engine → Slot → Prop}
    {routed : ConfigEvent → EventInput → Engine → Slot → Prop}
    [∀ input engine slot, Decidable (round input engine slot)]
    [∀ packet input engine slot, Decidable (routed packet input engine slot)]
    (engine : Engine) : (op : EngineOp) → Decidable (op.Guards round routed engine)
  | .iterate now input =>
      inferInstanceAs (Decidable (∀ prepared, accPrepare now engine = some prepared →
        LoopGuarded (round input) (fun engine slot => engineSlot (input slot) engine slot)
          prepared (usedSlots prepared.used)))
  | .receive packet input =>
      inferInstanceAs (Decidable (∀ slot, cacheFromCchandle engine packet = .ok slot →
        routed packet input engine slot))
  | .outside .. => isTrue trivial

/-- Loading one node puts a freshly loaded cache into a free slot. -/
def ConfigCache.loaded (cache : ConfigCache) (node : NodeId) : LoadType → ConfigCache
  | .typeConfig =>
      { cache with
        node := some node, state := .provisionedEm, nextState := some .getDcdEm }
  | .typeRm =>
      { cache with node := some node, state := .endEm, nextState := some .rmEm }

theorem cacheItemLoad_eq (engine : Engine) (slot : Slot) (node : NodeId)
    (type : LoadType) :
    cacheItemLoad engine slot node type =
      { engine.setCache slot ((engine.cache slot).loaded node type) with
        used := bitSet engine.used slot.val } := by
  cases type <;> rfl

/-- Loading a node occupies its slot and no other. -/
theorem occupied_load (engine : Engine) (slot other : Slot) (node : NodeId)
    (type : LoadType) (lists : Lists) :
    ({ cacheItemLoad engine slot node type with lists := lists } : Engine).occupied other =
      (decide (other = slot) || engine.occupied other) := by
  rw [cacheItemLoad_eq]
  have inRange : other.val < 32 := Nat.lt_trans other.isLt (by decide)
  by_cases same : other = slot
  · subst same
    simp [Engine.occupied, inRange]
  · have apart : slot.val ≠ other.val := fun equal => same (Fin.ext equal.symm)
    simp [Engine.occupied, same, apart]

theorem cache_load_self (engine : Engine) (slot : Slot) (node : NodeId) (type : LoadType)
    (lists : Lists) :
    ({ cacheItemLoad engine slot node type with lists := lists } : Engine).cache slot =
      (engine.cache slot).loaded node type := by
  rw [cacheItemLoad_eq]
  exact Engine.setCache_self engine slot _

theorem cache_load_other (engine : Engine) {slot other : Slot} (different : other ≠ slot)
    (node : NodeId) (type : LoadType) (lists : Lists) :
    ({ cacheItemLoad engine slot node type with lists := lists } : Engine).cache other =
      engine.cache other := by
  rw [cacheItemLoad_eq]
  exact Engine.setCache_other engine _ different

/-- The preparation of a call of `acc_loop` is a series of loads. -/
theorem accPrepare_invariant {property : Engine → Prop} {now : Nat}
    (load : ∀ engine type node rest slot, property engine →
      engine.lists.pending type = node :: rest → engine.occupied slot = false →
      property { cacheItemLoad engine slot node type with
        lists := engine.lists.setPending rest type })
    (measure : ∀ engine stat, property engine →
      property { engine with host := { engine.host with stat := stat } })
    {engine prepared : Engine} (holds : property engine)
    (prepares : accPrepare now engine = some prepared) : property prepared := by
  have loaded : ∀ type, property (cachesLoad engine type) := by
    intro type
    apply cachesLoad_invariant _ holds
    intro engine node rest slot
    exact load engine type node rest slot
  unfold accPrepare at prepares
  cases state : engine.state <;>
    simp only [state, Option.some.injEq, reduceCtorEq] at prepares
  all_goals
    rw [← prepares]
    exact measure _ _ (loaded _)

/-- A property in the middle of a call of the engine: the rounds that remain are
those of occupied slots, one for each. -/
structure Scheduled (property : Engine → Prop) (rest : List Slot) (engine : Engine) :
    Prop where
  holds : property engine
  nodup : rest.Nodup
  used : ∀ slot ∈ rest, engine.occupied slot = true

theorem Scheduled.occupied {property : Engine → Prop} {slot : Slot} {rest : List Slot}
    {engine : Engine} (scheduled : Scheduled property (slot :: rest) engine) :
    engine.occupied slot = true :=
  scheduled.used slot List.mem_cons_self

/-- The round of a slot leaves the others occupied. -/
theorem Scheduled.round {property : Engine → Prop} {input : RoundInput} {slot : Slot}
    {rest : List Slot} {engine after : Engine}
    (scheduled : Scheduled property (slot :: rest) engine)
    (step : RoundStep input engine slot after) (holds : property after) :
    Scheduled property rest after := by
  obtain ⟨fresh, nodup⟩ := List.nodup_cons.mp scheduled.nodup
  refine ⟨holds, nodup, ?_⟩
  intro other member
  have different : other ≠ slot := fun same => fresh (same ▸ member)
  rw [(step.other different).2]
  exact scheduled.used other (List.mem_cons_of_mem slot member)

/-- The rule for one call of `config_engine`: what its admitted rounds preserve, it
preserves. -/
theorem configEngine_guarded {property : Engine → Prop}
    {round : (Slot → RoundInput) → Engine → Slot → Prop}
    (rounds : ∀ input engine slot after, property engine →
      engine.occupied slot = true → round input engine slot →
      RoundStep (input slot) engine slot after → property after)
    {source target : Engine} {input : Slot → RoundInput} (holds : property source)
    (guarded : LoopGuarded (round input)
      (fun engine slot => engineSlot (input slot) engine slot) source (usedSlots source.used))
    (taken : configEngine input source = .ok target) : property target := by
  simp only [configEngine, bind_ok] at taken
  obtain ⟨after, rounds_, narrow⟩ := taken
  have same : target = after := by
    split at narrow <;> simp_all
  subst same
  have start : Scheduled property (usedSlots source.used) source :=
    ⟨holds, nodup_usedSlots, fun slot member => mem_usedSlots.mp member⟩
  refine (foldlM_guarded_invariant ?_ start guarded rounds_).holds
  intro before slot rest after scheduled admitted step
  exact scheduled.round (engineSlot_step step)
    (rounds input before slot after scheduled.holds scheduled.occupied admitted
      (engineSlot_step step))

/-- The rule for one call of `acc_loop`: what its loads, its measuring and its
admitted rounds preserve, it preserves. -/
theorem accLoop_guarded {property : Engine → Prop}
    {round : (Slot → RoundInput) → Engine → Slot → Prop}
    (rounds : ∀ input engine slot after, property engine →
      engine.occupied slot = true → round input engine slot →
      RoundStep (input slot) engine slot after → property after)
    (load : ∀ engine type node rest slot, property engine →
      engine.lists.pending type = node :: rest → engine.occupied slot = false →
      property { cacheItemLoad engine slot node type with
        lists := engine.lists.setPending rest type })
    (measure : ∀ engine stat, property engine →
      property { engine with host := { engine.host with stat := stat } })
    {source target : Engine} {now : Nat} {input : Slot → RoundInput}
    (holds : property source)
    (guarded : ∀ prepared, accPrepare now source = some prepared →
      LoopGuarded (round input) (fun engine slot => engineSlot (input slot) engine slot)
        prepared (usedSlots prepared.used))
    (taken : accLoop now input source = .ok target) : property target := by
  unfold accLoop at taken
  cases prepares : accPrepare now source with
  | none =>
      simp only [prepares, Except.ok.injEq] at taken
      rw [← taken]
      exact holds
  | some prepared =>
      simp only [prepares] at taken
      have ready : property prepared := accPrepare_invariant load measure holds prepares
      exact configEngine_guarded rounds ready (guarded prepared prepares) taken

/-- The rule without a condition on the rounds. -/
theorem accLoop_invariant {property : Engine → Prop}
    (rounds : ∀ input engine slot after, property engine →
      engine.occupied slot = true → RoundStep input engine slot after → property after)
    (load : ∀ engine type node rest slot, property engine →
      engine.lists.pending type = node :: rest → engine.occupied slot = false →
      property { cacheItemLoad engine slot node type with
        lists := engine.lists.setPending rest type })
    (measure : ∀ engine stat, property engine →
      property { engine with host := { engine.host with stat := stat } })
    {source target : Engine} {now : Nat} {input : Slot → RoundInput}
    (holds : property source) (taken : accLoop now input source = .ok target) :
    property target := by
  have admitted : ∀ (input : Slot → RoundInput) engine slot after, property engine →
      engine.occupied slot = true → True → RoundStep (input slot) engine slot after →
      property after := by
    intro input engine slot after kept occupied _ step
    exact rounds (input slot) engine slot after kept occupied step
  exact accLoop_guarded admitted load measure holds
    (fun prepared _ => loopGuarded_trivial prepared _) taken

/-- The rule for one step: what loads, admitted rounds, admitted events and the
environment preserve, every admitted step preserves. -/
theorem EngineOp.guarded_step {property : Engine → Prop}
    {round : (Slot → RoundInput) → Engine → Slot → Prop}
    {routed : ConfigEvent → EventInput → Engine → Slot → Prop}
    (rounds : ∀ input engine slot after, property engine →
      engine.occupied slot = true → round input engine slot →
      RoundStep (input slot) engine slot after → property after)
    (events : ∀ packet input engine slot cache host, property engine →
      cacheFromCchandle engine packet = .ok slot → routed packet input engine slot →
      EventStep engine.state slot packet input (engine.cache slot) engine.host cache host →
      property ({ engine with host := host }.setCache slot cache))
    (load : ∀ engine type node rest slot, property engine →
      engine.lists.pending type = node :: rest → engine.occupied slot = false →
      property { cacheItemLoad engine slot node type with
        lists := engine.lists.setPending rest type })
    (environment : ∀ engine host lists state, property engine →
      property { engine with host := host, lists := lists, state := state })
    {source target : Engine} {op : EngineOp} (holds : property source)
    (guarded : op.Guards round routed source) (taken : op.run source = .ok target) :
    property target := by
  cases op with
  | iterate now input =>
      refine accLoop_guarded rounds load ?_ holds guarded taken
      intro engine stat kept
      exact environment engine _ engine.lists engine.state kept
  | receive packet input =>
      obtain ⟨slot, cache, host, route, step, rfl⟩ := devConfigHdr_step taken
      exact events packet input source slot cache host holds route (guarded slot route) step
  | outside host lists state =>
      cases taken
      exact environment source host lists state holds

/-!
## A small network

The sample runs of this directory start from one network, with one key and one device, and from
answers that are the same for every slot.
-/

/-- A provisioned device without anything to configure. -/
def Node.plain (addr : UInt16) : Node :=
  { Node.zeroed with
    uuid := Vector.replicate 16 1, addr := addr
    tmpl := some { location := 64, value := 1 } }

/-- A network with one application key and at most one device, which waits for
its configuration. -/
def Engine.small (node : Node) : Engine where
  host :=
    { db :=
        { CfgDb.cfgdbInit with
          heap := fun _ => node, next := 1
          nodes := (∅ : Std.TreeMap UInt16 NodeId).insert node.addr 0 }
      cfg :=
        { addr := 1, ivi := 0
          subnets :=
            [{ appkeyNum := 1, activeAppkeyNum := 1
               netkey := { refid := 0, id := 0, done := 1, val := Vector.replicate 16 0 }
               appkey :=
                 [{ refid := 1, id := 7, done := 1, val := Vector.replicate 16 0 }] }]
          ttl := none, netTxp := none, timeout := none }
      stat := Stat.zeroed
      log := [] }
  state := .configuringDevicesEm
  used := 0
  cache := fun _ => .reset
  lists := { add := [], config := [0], bl := [], rm := [], fail := [] }

theorem Engine.small_fresh (node : Node) : (Engine.small node).Fresh :=
  ⟨rfl, fun _ => rfl⟩

/-- Composition data of one element with the model of a generic on/off server. -/
def onOffPage : Bytes.Memory := fun place =>
  if place = 12 then 1 else if place = 15 then 0x10 else 0

/-- The same input for every slot. -/
def RoundInput.all (now : Nat) (retry entry : CmdRsp) : Slot → RoundInput :=
  fun _ => { now := now, retry := retry, entry := entry }

/-- The NCP takes a command, and returns a handle for it. -/
def CmdRsp.taken (handle : UInt32) (time : Nat) : CmdRsp :=
  { result := bgErrSuccess, handle := handle, time := time }

/-- The NCP has no memory for a command. -/
def CmdRsp.outOfMemory (time : Nat) : CmdRsp :=
  { result := bgErrOutOfMemory, handle := 0, time := time }

end Nwmng
