/-
Module: Nwmng.Config.Conservation
Purpose: No node is lost or duplicated between the pending lists, the slots and the
two ways out of a slot.
Trusted boundary: none
Main exports:
  Engine.managed, Engine.Housed, Departure, Conserves, WorkOp, WorkRun,
  WorkOp.conserves, nodes_conserved
-/
import Mathlib.Data.List.Perm.Basic
import Nwmng.Lib.Occupancy
import Nwmng.Config.HostChanges

namespace Nwmng

open Transition Fallible Occupancy

/-! ## Where nodes are -/

namespace Engine

/-- The nodes in the slots, lowest slot first. -/
def held (engine : Engine) : List NodeId :=
  occupants (List.finRange maxConcurrentConfigNodes) fun slot => (engine.cache slot).node

/-- The nodes that wait for a slot or have one. -/
def managed (engine : Engine) : List NodeId :=
  engine.lists.config ++ engine.lists.rm ++ engine.held

/-- The map of used slots tells which slots hold a node, and no slot rests in the
state that removed its node. -/
structure Housed (engine : Engine) : Prop where
  bits : ∀ i, engine.used.getLsbD i = true ↔
    ∃ inside : i < maxConcurrentConfigNodes, (engine.cache ⟨i, inside⟩).node.isSome = true
  working : ∀ slot, engine.occupied slot = true → (engine.cache slot).state ≠ .rmendEm

/-- The device a record stands for. -/
def uuidOf (engine : Engine) (record : NodeId) : Uuid :=
  (engine.host.db.heap record).uuid

end Engine

/-!
## How nodes leave

A departure is a slot that is freed together with what the slot held at that moment.  The log and
the lists have to show the same departures, each once: a node that failed is put on the fail
list, any other was reported by its final state.
-/

/-- What ends the work on a node: its slot is freed, and it is reported to be in a
final state. -/
inductive Closing where
  | released (slot : Slot)
  | reported (uuid : Uuid) (state : AccState)
deriving Repr, DecidableEq

/-- The effects that end the work on a node. -/
def Effect.closing? : Effect → Option Closing
  | .released slot => some (.released slot)
  | .configured uuid _ _ => some (.reported uuid .endEm)
  | .removed uuid _ => some (.reported uuid .rmendEm)
  | _ => none

def Host.closings (host : Host) : List Closing :=
  host.log.filterMap Effect.closing?

/-- A node on its way out: the slot it leaves, with its content at that moment.  Only a slot
whose final state has been entered lets go of its node, so a departure carries the proof that the
work on the node had ended. -/
structure Departure where
  slot : Slot
  node : NodeId
  cache : ConfigCache
  holds : cache.node = some node
  ended : cache.ended = true

/-- What a departure leaves in the log: the slot is freed, and without a recorded
error the node has been reported. -/
def Departure.closings (uuidOf : NodeId → Uuid) (departure : Departure) : List Closing :=
  if departure.cache.failed then [.released departure.slot]
  else
    [.released departure.slot,
      .reported (uuidOf departure.node) departure.cache.state]

/-- The nodes that departed with an error, first departure first. -/
def failures (departures : List Departure) : List NodeId :=
  (departures.reverse.filter (·.cache.failed)).map (·.node)

/-- The account of a piece of work.  Nodes that arrive by provisioning and nodes that
were there are, one by one, those still there and those that departed, newest first;
those with an error are appended to the fail list, the others reported. -/
structure Conserves (before : Engine) (arrivals : List NodeId)
    (departures : List Departure) (after : Engine) : Prop where
  nodes : (before.managed ++ arrivals).Perm (after.managed ++ departures.map (·.node))
  fail : after.lists.fail = before.lists.fail ++ failures departures
  closings : after.host.closings =
    departures.flatMap (·.closings before.uuidOf) ++ before.host.closings
  uuids : after.uuidOf = before.uuidOf

theorem Conserves.refl (engine : Engine) : Conserves engine [] [] engine where
  nodes := .refl _
  fail := by simp [failures]
  closings := by simp
  uuids := rfl

theorem failures_append (later earlier : List Departure) :
    failures (later ++ earlier) = failures earlier ++ failures later := by
  simp [failures]

/-- Accounts add up. -/
theorem Conserves.trans {first second third : Engine} {early late : List NodeId}
    {before after : List Departure} (one : Conserves first early before second)
    (two : Conserves second late after third) :
    Conserves first (early ++ late) (after ++ before) third where
  nodes := by
    have start : (first.managed ++ (early ++ late)).Perm
        (second.managed ++ before.map (·.node) ++ late) := by
      rw [← List.append_assoc]
      exact one.nodes.append_right late
    have swap : (second.managed ++ before.map (·.node) ++ late).Perm
        (second.managed ++ late ++ before.map (·.node)) := by
      rw [List.append_assoc, List.append_assoc]
      exact List.perm_append_comm.append_left _
    have finish : (second.managed ++ late ++ before.map (·.node)).Perm
        (third.managed ++ (after ++ before).map (·.node)) := by
      rw [List.map_append, ← List.append_assoc]
      exact two.nodes.append_right _
    exact (start.trans swap).trans finish
  fail := by rw [two.fail, one.fail, failures_append, List.append_assoc]
  closings := by
    rw [two.closings, one.closings, one.uuids, List.flatMap_append, List.append_assoc]
  uuids := two.uuids.trans one.uuids

/-! ## What the callbacks leave alone -/

/-- The record of a device goes on to stand for it. -/
def Node.SameUuid (node after : Node) : Prop :=
  after.uuid = node.uuid

theorem Node.SameUuid.refl (node : Node) : node.SameUuid node := rfl

/-- No closing is logged, and every record stands for the device it stood for.  This is the frame
of everything a slot does before its final state: the ledger of departures is untouched, and
records can be told by their UUIDs throughout. -/
structure Host.Quiet (before after : Host) : Prop where
  closings : after.closings = before.closings
  uuids : ∀ record, (after.db.heap record).uuid = (before.db.heap record).uuid

theorem Host.Quiet.refl (host : Host) : host.Quiet host where
  closings := rfl
  uuids _ := rfl

theorem Host.Quiet.trans {first second third : Host} (one : first.Quiet second)
    (two : second.Quiet third) : first.Quiet third where
  closings := two.closings.trans one.closings
  uuids record := (two.uuids record).trans (one.uuids record)

/-- Logging something else. -/
theorem Host.quiet_record (host : Host) {effect : Effect} (other : effect.closing? = none) :
    host.Quiet (host.record effect) where
  closings := by simp [closings, record, other]
  uuids _ := rfl

theorem HostChange.quiet {slot : Slot} {host next : Host} (change : HostChange slot host next) :
    host.Quiet next := by
  cases change with
  | counted stat => exact ⟨rfl, fun _ => rfl⟩
  | logged own =>
      apply host.quiet_record
      cases own <;> rfl
  | written record worked =>
      cases worked with
      | func func =>
          have kept : ∀ node : Node, node.SameUuid { node with func := func } := fun _ => rfl
          exact ⟨rfl, (CfgDb.Kept.update Node.SameUuid.refl kept host.db record).records⟩
      | feature which =>
          have kept : ∀ node : Node, node.SameUuid (onFeatureConfigured which node) :=
            fun _ => rfl
          exact ⟨rfl, (CfgDb.Kept.update Node.SameUuid.refl kept host.db record).records⟩

/-- The work of a slot reports nothing. -/
theorem HostWork.quiet {slot : Slot} {before after : Host}
    (work : HostWork slot before after) :
    before.Quiet after :=
  work.of_changes Host.Quiet.refl Host.Quiet.trans HostChange.quiet

/-! ## What the final states report -/

/-- The closings of a node that reaches a final state. -/
def finalClosings (host : Host) (cache : ConfigCache) (node : NodeId)
    (state : AccState) : List Closing :=
  if cache.failed then []
  else [.reported (host.db.heap node).uuid state]

/-- A final state reports its node unless an error was recorded.  The report is the one closing
that is added to the log; it names the device and the final state. -/
structure Host.Concluded (before : Host) (cache : ConfigCache) (node : NodeId)
    (state : AccState) (after : Host) : Prop where
  closings : after.closings = finalClosings before cache node state ++ before.closings
  uuids : ∀ record, (after.db.heap record).uuid = (before.db.heap record).uuid

/-- Nothing happened before the conclusion that counts. -/
theorem Host.Quiet.concluded {first second third : Host} {cache : ConfigCache}
    {node : NodeId} {state : AccState} (quiet : first.Quiet second)
    (concluded : second.Concluded cache node state third) :
    first.Concluded cache node state third where
  closings := by
    rw [concluded.closings, quiet.closings, finalClosings, finalClosings, quiet.uuids]
  uuids record := (concluded.uuids record).trans (quiet.uuids record)

theorem endEntry_concluded {guard : Option GuardFn} {slot : Slot} {answer : CmdRsp}
    {cache : ConfigCache} {host : Host} {out : Outcome} {id : NodeId}
    (here : cache.node = some id)
    (entered : endEntry guard slot answer cache host = .ok out) :
    host.Concluded cache id .endEm out.host := by
  obtain ⟨other, record, there, _, result⟩ := endEntry_host entered
  cases Option.some.inj (here.symm.trans there)
  rw [result]
  by_cases failed : cache.failed = true
  · rw [if_pos failed]
    refine ⟨by simp [finalClosings, failed, Host.closings], ?_⟩
    have stored : ∀ node : Node, node.SameUuid { node with err := cache.errBits } :=
      fun _ => rfl
    exact (CfgDb.Kept.update Node.SameUuid.refl stored host.db record).records
  · rw [if_neg failed]
    refine ⟨by simp [finalClosings, failed, Host.closings, Host.record, Effect.closing?], ?_⟩
    have cleared : ∀ node : Node, node.SameUuid { node with err := 0 } := fun _ => rfl
    have done : ∀ node : Node, node.SameUuid { node with done := 1 } := fun _ => rfl
    have first := CfgDb.Kept.update Node.SameUuid.refl cleared host.db record
    have second := CfgDb.Kept.update Node.SameUuid.refl done
      (host.db.update record fun node => { node with err := 0 }) record
    exact fun other => (second.records other).trans (first.records other)

theorem rmendEntry_concluded {guard : Option GuardFn} {slot : Slot} {answer : CmdRsp}
    {cache : ConfigCache} {host : Host} {out : Outcome} {id : NodeId}
    (here : cache.node = some id)
    (entered : rmendEntry guard slot answer cache host = .ok out) :
    host.Concluded cache id .rmendEm out.host := by
  have kept : host.db.Kept Node.SameUuid out.host.db :=
    rmendEntry_kept Node.SameUuid.refl (fun one two => two.trans one) (fun _ _ => rfl)
      (fun _ => rfl) (fun _ => rfl) (fun _ => rfl) (fun _ => rfl) entered
  refine ⟨?_, kept.records⟩
  simp only [rmendEntry, bind_ok] at entered
  obtain ⟨⟨id', node⟩, found, entered⟩ := entered
  obtain ⟨there, rfl⟩ := nodeOf_eq found
  cases Option.some.inj (here.symm.trans there)
  by_cases failed : cache.failed = true
  · simp only [failed, if_true, bind_ok, Except.ok.injEq] at entered
    obtain ⟨db, writes, rfl⟩ := entered
    simp [finalClosings, failed, Host.closings]
  · simp only [failed, bind_ok, Bool.false_eq_true, if_false, Except.ok.injEq] at entered
    obtain ⟨first, clears, second, undone, third, forgets, db, removes, rfl⟩ := entered
    simp [finalClosings, failed, Host.closings, Host.record, List.filterMap_cons,
      Effect.closing?]

/-! ## Arriving -/

/-- A slot always has somewhere to go: the last state of the list is open to all. -/
theorem leaveTargets_removes {cache : ConfigCache} {targets : List AccStateOps}
    (leaves : leaveTargets cache = .ok targets) (working : cache.state ≠ .rmendEm) :
    asRmend ∈ targets := by
  have every : ∀ state, state ≠ .rmendEm → ∀ ops rest, asGet state = ops :: rest →
      asRmend ∈ rest := by
    intro state other ops rest found
    cases state <;> cases found <;> first
      | exact False.elim (other rfl)
      | simp [asAddappkey, asBindappkey, asSetpub, asAddsub, asSetconfig, asEnd, asRm,
          asRmend]
  rcases leaveTargets_cases leaves with ⟨own, found⟩ | ⟨state, _, found, some⟩
  · exact every cache.state working own targets found
  · by_cases last : state = .rmendEm
    · subst last
      rw [← found]
      exact List.mem_cons_self
    · obtain ⟨ops, rest, same⟩ := List.exists_cons_of_ne_nil some
      rw [same]
      exact List.mem_cons_of_mem ops (every state last ops rest (found.trans same))

/-- Arriving in a final state reports the node unless an error was recorded; arriving
elsewhere reports nothing. -/
theorem Arrived.concluded {targets : List AccStateOps} {slot : Slot} {answer : CmdRsp}
    {cache after : ConfigCache} {host host' : Host} {id : NodeId}
    (arrived : Arrived targets slot answer cache host after host')
    (leaves : leaveTargets cache = .ok targets) (here : cache.node = some id)
    (working : cache.state ≠ .rmendEm) :
    (after.ended = true → host.Concluded after id after.state host') ∧
      (after.ended = false → host.Quiet host') := by
  cases arrived with
  | nowhere skipped =>
      have closed := skipped asRmend (leaveTargets_removes leaves working) id here
      cases closed
  | @entered _ _ ops out split skipped entry ret =>
      cases entry with
      | skipped _ => rcases ret with ret | ret <;> cases ret
      | attempted commands _ _ attempt _ =>
          refine ⟨fun ended => ?_, fun _ => attempt.work.quiet⟩
          exfalso
          cases state : ops.state <;> simp_all [ConfigCache.ended, isCommandState]
      | noCommand _ _ none_left =>
          have setting := none_left.1
          refine ⟨fun ended => ?_, fun _ => .refl host⟩
          simp [ConfigCache.ended, setting] at ended
      | ended final conclusion =>
          have concluded := endEntry_concluded here conclusion
          refine ⟨fun _ => ⟨?_, concluded.uuids⟩, fun working => ?_⟩
          · rw [concluded.closings, final]
            rfl
          · simp [ConfigCache.ended, final] at working
      | removed final conclusion =>
          have concluded := rmendEntry_concluded here conclusion
          refine ⟨fun _ => ⟨?_, concluded.uuids⟩, fun working => ?_⟩
          · rw [concluded.closings, final]
            rfl
          · simp [ConfigCache.ended, final] at working
  | @refused _ _ _ out last split skipped entry ret conclusion =>
      refine ⟨fun _ => ?_, fun working => by cases working⟩
      cases entry with
      | attempted _ _ _ attempt _ =>
          have there : out.cache.node = some id := attempt.sameWork.2.trans here
          have concluded := attempt.work.quiet.concluded (endEntry_concluded there conclusion)
          exact ⟨concluded.closings, concluded.uuids⟩
      | _ => cases ret

theorem EventStep.sameState {state : MngState} {slot : Slot} {packet : ConfigEvent}
    {input : EventInput} {cache after : ConfigCache} {host host' : Host}
    (step : EventStep state slot packet input cache host after host') :
    after.state = cache.state := by
  cases step with
  | settled takes _ => exact takes.sameWork.1
  | resent takes _ _ _ _ retried => exact retried.sameWork.1.trans takes.sameWork.1

/-! ## Slots -/

/-- What each slot holds. -/
def Engine.content (engine : Engine) : Slot → Option NodeId :=
  fun slot => (engine.cache slot).node

theorem Engine.content_setCache (engine : Engine) (slot : Slot) (cache : ConfigCache) :
    (engine.setCache slot cache).content =
      Function.update engine.content slot cache.node := by
  funext other
  by_cases same : other = slot
  · subst same
    simp [content, Engine.setCache_self]
  · simp [content, Engine.setCache_other engine cache same, same]

/-- Work on a slot that goes on with its node. -/
theorem Engine.held_of_sameNode (engine : Engine) {slot : Slot} {cache : ConfigCache}
    (same : cache.node = (engine.cache slot).node) :
    (engine.setCache slot cache).held = engine.held := by
  change occupants _ (engine.setCache slot cache).content = occupants _ engine.content
  rw [Engine.content_setCache, same]
  exact congrArg _ (Function.update_eq_self slot engine.content)

/-- A slot that gets a node. -/
theorem Engine.held_of_free (engine : Engine) {slot : Slot} {cache : ConfigCache}
    {node : NodeId} (free : (engine.cache slot).node = none)
    (loaded : cache.node = some node) :
    (engine.setCache slot cache).held.Perm (node :: engine.held) := by
  change (occupants _ (engine.setCache slot cache).content).Perm
    (node :: occupants _ engine.content)
  rw [Engine.content_setCache, loaded]
  exact occupants_move_in (List.nodup_finRange _) (List.mem_finRange slot) free

/-- A slot that loses its node. -/
theorem Engine.held_of_freed (engine : Engine) {slot : Slot} {cache : ConfigCache}
    {node : NodeId} (holds : (engine.cache slot).node = some node)
    (freed : cache.node = none) :
    engine.held.Perm (node :: (engine.setCache slot cache).held) := by
  change (occupants _ engine.content).Perm
    (node :: occupants _ (engine.setCache slot cache).content)
  rw [Engine.content_setCache, freed]
  exact occupants_move_out (List.nodup_finRange _) (List.mem_finRange slot) holds

namespace Engine

variable {engine : Engine} {slot : Slot} {cache : ConfigCache}

/-- The bit of a slot. -/
theorem Housed.occupied_iff (housed : engine.Housed) (slot : Slot) :
    engine.occupied slot = true ↔ (engine.cache slot).node.isSome = true := by
  unfold Engine.occupied
  rw [housed.bits]
  exact ⟨fun ⟨_, holds⟩ => holds, fun holds => ⟨slot.isLt, holds⟩⟩

theorem Housed.node_of_occupied (housed : engine.Housed)
    (occupied : engine.occupied slot = true) :
    ∃ node, (engine.cache slot).node = some node :=
  Option.isSome_iff_exists.mp ((housed.occupied_iff slot).mp occupied)

theorem Housed.free_of_vacant (housed : engine.Housed)
    (vacant : engine.occupied slot = false) : (engine.cache slot).node = none := by
  rw [← Option.not_isSome_iff_eq_none, ← housed.occupied_iff, vacant]
  exact Bool.false_ne_true

/-- Work on a slot that goes on with its node. -/
theorem Housed.work (housed : engine.Housed) (host : Host)
    (node : cache.node = (engine.cache slot).node) (state : cache.state ≠ .rmendEm) :
    ({ engine with host := host }.setCache slot cache).Housed where
  bits i := by
    refine (housed.bits i).trans (exists_congr fun inside => ?_)
    by_cases same : (⟨i, inside⟩ : Slot) = slot
    · rw [same, Engine.setCache_self, node]
    · rw [Engine.setCache_other _ cache same]
  working other occupied := by
    by_cases same : other = slot
    · rw [same, Engine.setCache_self]
      exact state
    · rw [Engine.setCache_other _ cache same]
      exact housed.working other occupied

/-- A slot that is freed. -/
theorem Housed.release (housed : engine.Housed) :
    (releaseSlot engine slot cache).Housed where
  bits i := by
    have cleared : (releaseSlot engine slot cache).used = bitClr engine.used slot.val := rfl
    have caches : (releaseSlot engine slot cache).cache =
        (engine.setCache slot .reset).cache := rfl
    rw [cleared, getLsbD_bitClr, caches]
    by_cases here : slot.val = i
    · subst here
      simp [Engine.setCache_self, ConfigCache.reset]
    · have other : ∀ inside, (⟨i, inside⟩ : Slot) ≠ slot := by
        intro inside same
        exact here (congrArg Fin.val same).symm
      rw [decide_eq_false here, Bool.not_false, Bool.and_true]
      refine (housed.bits i).trans (exists_congr fun inside => ?_)
      rw [Engine.setCache_other engine _ (other inside)]
  working other occupied := by
    have caches : (releaseSlot engine slot cache).cache =
        (engine.setCache slot .reset).cache := rfl
    rw [caches]
    by_cases same : other = slot
    · rw [same, Engine.setCache_self]
      decide
    · rw [Engine.setCache_other engine _ same]
      apply housed.working other
      have used : (bitClr engine.used slot.val).getLsbD other.val = true := occupied
      rw [getLsbD_bitClr, Bool.and_eq_true] at used
      exact used.1

/-- A node that is loaded into a free slot. -/
theorem Housed.load (housed : engine.Housed) (node : NodeId) (type : LoadType)
    (lists : Lists) :
    ({ cacheItemLoad engine slot node type with lists := lists } : Engine).Housed where
  bits i := by
    rw [cacheItemLoad_eq]
    change (bitSet engine.used slot.val).getLsbD i = true ↔ ∃ inside,
      ((engine.setCache slot ((engine.cache slot).loaded node type)).cache
        ⟨i, inside⟩).node.isSome = true
    rw [getLsbD_bitSet]
    by_cases here : slot.val = i
    · subst here
      have wide : slot.val < 32 := Nat.lt_trans slot.isLt (by decide)
      have holds : ((engine.cache slot).loaded node type).node.isSome = true := by
        cases type <;> rfl
      simp [Engine.setCache_self, holds, wide]
    · have other : ∀ inside, (⟨i, inside⟩ : Slot) ≠ slot := by
        intro inside same
        exact here (congrArg Fin.val same).symm
      rw [decide_eq_false here, Bool.false_and, Bool.or_false]
      refine (housed.bits i).trans (exists_congr fun inside => ?_)
      rw [Engine.setCache_other engine _ (other inside)]
  working other occupied := by
    rw [cacheItemLoad_eq]
    change ((engine.setCache slot ((engine.cache slot).loaded node type)).cache other).state
      ≠ .rmendEm
    by_cases same : other = slot
    · rw [same, Engine.setCache_self]
      cases type with
      | typeConfig => exact (nofun : AccState.provisionedEm ≠ .rmendEm)
      | typeRm => exact (nofun : AccState.endEm ≠ .rmendEm)
    · rw [Engine.setCache_other engine _ same]
      apply housed.working other
      rw [occupied_load, decide_eq_false same, Bool.false_or] at occupied
      exact occupied

/-- Everything but the slots may change. -/
theorem Housed.around (housed : engine.Housed) (host : Host) (lists : Lists)
    (state : MngState) :
    ({ engine with host := host, lists := lists, state := state } : Engine).Housed where
  bits := housed.bits
  working := housed.working

theorem Fresh.housed (fresh : engine.Fresh) : engine.Housed where
  bits i := by
    simp [fresh.1, fresh.2, ConfigCache.reset]
  working slot occupied := by
    rw [fresh.vacant] at occupied
    cases occupied

end Engine

/-!
## The account of each step

Accounts add up, so a run is accounted for step by step.  Within a step every slot gets its own
account, since a call of the engine makes the rounds of all slots in turn.
-/

/-- Work that keeps the nodes where they are. -/
theorem Conserves.work {engine : Engine} {slot : Slot} {cache : ConfigCache} {host : Host}
    (node : cache.node = (engine.cache slot).node) (quiet : engine.host.Quiet host) :
    Conserves engine [] [] ({ engine with host := host }.setCache slot cache) where
  nodes := by
    have same : ({ engine with host := host }.setCache slot cache).held = engine.held :=
      Engine.held_of_sameNode { engine with host := host } node
    simp only [List.append_nil, List.map_nil, Engine.managed]
    rw [same]
    exact .refl _
  fail := by simp [Engine.setCache, failures]
  closings := quiet.closings
  uuids := funext quiet.uuids

/-- A node that moves from its list to a free slot. -/
theorem Conserves.load {engine : Engine} {slot : Slot} {node : NodeId}
    {rest : List NodeId} {type : LoadType} (housed : engine.Housed)
    (pending : engine.lists.pending type = node :: rest)
    (vacant : engine.occupied slot = false) :
    Conserves engine [] [] { cacheItemLoad engine slot node type with
      lists := engine.lists.setPending rest type } where
  nodes := by
    have loaded : ((engine.cache slot).loaded node type).node = some node := by
      cases type <;> rfl
    have moves := engine.held_of_free (housed.free_of_vacant vacant) loaded
    rw [cacheItemLoad_eq]
    simp only [List.append_nil, List.map_nil]
    change (engine.lists.config ++ engine.lists.rm ++ engine.held).Perm
      ((engine.lists.setPending rest type).config ++ (engine.lists.setPending rest type).rm ++
        (engine.setCache slot ((engine.cache slot).loaded node type)).held)
    refine List.Perm.trans ?_ (moves.symm.append_left _)
    cases type with
    | typeConfig =>
        have config : engine.lists.config = node :: rest := pending
        rw [config]
        exact List.perm_middle.symm
    | typeRm =>
        have rm : engine.lists.rm = node :: rest := pending
        rw [rm]
        have middle : (engine.lists.config ++ node :: rest).Perm
            (node :: (engine.lists.config ++ rest)) := List.perm_middle
        exact (middle.append_right _).trans List.perm_middle.symm
  fail := by cases type <;> simp [Lists.setPending, failures]
  closings := by cases type <;> rfl
  uuids := by cases type <;> rfl

/-- A node that leaves its slot. -/
theorem Conserves.release {engine : Engine} {slot : Slot} {cache : ConfigCache}
    {host : Host} {node : NodeId} (holds : (engine.cache slot).node = some node)
    (same : cache.node = some node) (ended : cache.ended = true)
    (concluded : engine.host.Concluded cache node cache.state host) :
    Conserves engine [] [⟨slot, node, cache, same, ended⟩]
      (releaseSlot { engine with host := host } slot cache) where
  nodes := by
    have leaves : engine.held.Perm (node :: (engine.setCache slot .reset).held) :=
      engine.held_of_freed holds rfl
    simp only [List.append_nil, List.map_cons, List.map_nil]
    change (engine.lists.config ++ engine.lists.rm ++ engine.held).Perm
      (engine.lists.config ++ engine.lists.rm ++ (engine.setCache slot .reset).held ++ [node])
    refine (leaves.append_left _).trans ?_
    rw [List.append_assoc (engine.lists.config ++ engine.lists.rm)]
    exact (List.perm_append_singleton node _).symm.append_left _
  fail := by
    cases failed : cache.failed <;>
      simp [releaseSlot, failures, failed, same, Engine.setCache]
  closings := by
    have logged : (releaseSlot { engine with host := host } slot cache).host.closings =
        .released slot :: host.closings := rfl
    rw [logged, concluded.closings]
    cases failed : cache.failed <;>
      simp [Departure.closings, finalClosings, failed, Engine.uuidOf]
  uuids := funext concluded.uuids

theorem RoundStep.conserves {input : RoundInput} {engine after : Engine} {slot : Slot}
    (step : RoundStep input engine slot after) (housed : engine.Housed)
    (occupied : engine.occupied slot = true) :
    after.Housed ∧ ∃ departures, Conserves engine [] departures after := by
  obtain ⟨node, holds⟩ := housed.node_of_occupied occupied
  have working := housed.working slot occupied
  cases step with
  | @stays _ host exception _ =>
      obtain ⟨state, same⟩ := exception.sameWork
      have kept := housed.work host same (by rw [state]; exact working)
      exact ⟨kept, [], .work same exception.work.quiet⟩
  | @moves middle cache between host _ exception _ leaves arrived open_ =>
      obtain ⟨state, same⟩ := exception.sameWork
      have here : middle.node = some node := same.trans holds
      have there : cache.node = (engine.cache slot).node := arrived.sameNode.trans same
      have notRemoved : cache.state ≠ .rmendEm := by
        intro removed
        simp [ConfigCache.ended, removed] at open_
      have quiet := (arrived.concluded leaves here (by rw [state]; exact working)).2 open_
      exact ⟨housed.work _ there notRemoved, [],
        .work there (exception.work.quiet.trans quiet)⟩
  | @ends middle cache between host _ exception _ leaves arrived done =>
      obtain ⟨state, same⟩ := exception.sameWork
      have here : middle.node = some node := same.trans holds
      have there : cache.node = some node := arrived.sameNode.trans here
      have concluded :=
        (arrived.concluded leaves here (by rw [state]; exact working)).1 done
      exact ⟨(housed.around _ _ _).release, _,
        .release holds there done (exception.work.quiet.concluded concluded)⟩

/-! ## Runs -/

/-- A step of the functions that move nodes, or a change of phase.  These are the functions that
write the work lists and the map of used slots; a run puts them in any order. -/
inductive WorkOp where
  /-- one call of `acc_loop` -/
  | iterate (now : Nat) (input : Slot → RoundInput)
  /-- one call of `config_engine` -/
  | engine (input : Slot → RoundInput)
  /-- one call of `dev_config_hdr` -/
  | receive (packet : ConfigEvent) (input : EventInput)
  /-- one call of `on_prov_success` -/
  | provisioned (uuid : Uuid) (addr : UInt16)
  /-- the manager goes to another state -/
  | phase (state : MngState)

def WorkOp.run (engine : Engine) : WorkOp → Except Abort Engine
  | .iterate now input => accLoop now input engine
  | .engine input => configEngine input engine
  | .receive packet input => devConfigHdr packet input engine
  | .provisioned uuid addr => engine.onProvSuccess uuid addr
  | .phase state => .ok { engine with state := state }

abbrev WorkRun := Execution (Succeeds WorkOp.run)

/-- The records of the devices that a step reports provisioned. -/
def WorkOp.arrivals (engine : Engine) : WorkOp → List NodeId
  | .provisioned uuid addr =>
      match engine.host.db.uplNodesetAddr uuid addr with
      | .ok db => (db.cfgdbNodeGet addr).toList
      | .error _ => []
  | _ => []

/-- The records of the devices that a run reports provisioned. -/
def arrivals (past : List (Move Engine WorkOp)) : List NodeId :=
  past.flatMap fun move => move.label.arrivals move.source

/-- Work done so far from a state on, with nobody arriving.  The arrivals of a step are those of
`on_prov_success` alone, so everything else is proved once with an empty list of arrivals. -/
def Settled (source engine : Engine) : Prop :=
  engine.Housed ∧ ∃ departures, Conserves source [] departures engine

theorem Settled.extend {source engine after : Engine} (settled : Settled source engine)
    (step : after.Housed ∧ ∃ departures, Conserves engine [] departures after) :
    Settled source after := by
  obtain ⟨_, earlier, account⟩ := settled
  obtain ⟨housed, later, more⟩ := step
  exact ⟨housed, later ++ earlier, account.trans more⟩

theorem Settled.refl {engine : Engine} (housed : engine.Housed) : Settled engine engine :=
  ⟨housed, [], .refl engine⟩

theorem accLoop_settled {now : Nat} {input : Slot → RoundInput} {source target : Engine}
    (housed : source.Housed) (taken : accLoop now input source = .ok target) :
    Settled source target := by
  refine accLoop_invariant ?_ ?_ ?_ (Settled.refl housed) taken
  · intro input engine slot after settled occupied step
    exact settled.extend (step.conserves settled.1 occupied)
  · intro engine type node rest slot settled pending vacant
    exact settled.extend
      ⟨settled.1.load node type _, [], .load settled.1 pending vacant⟩
  · intro engine stat settled
    obtain ⟨inHouse, departures, account⟩ := settled
    exact ⟨inHouse.around _ _ _, departures,
      ⟨account.nodes, account.fail, account.closings, account.uuids⟩⟩

theorem configEngine_settled {input : Slot → RoundInput} {source target : Engine}
    (housed : source.Housed) (taken : configEngine input source = .ok target) :
    Settled source target := by
  have rounds : ∀ (input : Slot → RoundInput) engine slot after, Settled source engine →
      engine.occupied slot = true → True → RoundStep (input slot) engine slot after →
      Settled source after := by
    intro input engine slot after settled occupied _ step
    exact settled.extend (step.conserves settled.1 occupied)
  exact configEngine_guarded rounds (Settled.refl housed) (loopGuarded_trivial source _) taken

theorem devConfigHdr_settled {packet : ConfigEvent} {input : EventInput}
    {source target : Engine} (housed : source.Housed)
    (taken : devConfigHdr packet input source = .ok target) : Settled source target := by
  obtain ⟨slot, cache, host, routed, step, rfl⟩ := devConfigHdr_step taken
  obtain ⟨_, _, occupied, _⟩ := cacheFromCchandle_eq routed
  have working : cache.state ≠ .rmendEm := by
    rw [step.sameState]
    exact housed.working slot occupied
  exact ⟨housed.work host step.sameNode working, [], .work step.sameNode step.work.quiet⟩

/-- A device that is reported provisioned is appended to the nodes to configure. -/
theorem onProvSuccess_conserves {uuid : Uuid} {addr : UInt16} {source target : Engine}
    (housed : source.Housed) (taken : source.onProvSuccess uuid addr = .ok target) :
    target.Housed ∧
      Conserves source ((WorkOp.provisioned uuid addr).arrivals source) [] target := by
  simp only [Engine.onProvSuccess, bind_ok] at taken
  obtain ⟨db, moves, taken⟩ := taken
  cases found : db.cfgdbNodeGet addr with
  | none => simp [found] at taken
  | some record =>
      simp only [found, Except.ok.injEq] at taken
      subst taken
      refine ⟨housed.around _ _ _, ?_, ?_, ?_, ?_⟩
      · have reported : (WorkOp.provisioned uuid addr).arrivals source = [record] := by
          simp [WorkOp.arrivals, moves, found]
        rw [reported]
        change (source.lists.config ++ source.lists.rm ++ source.held ++ [record]).Perm
          (source.lists.config ++ [record] ++ source.lists.rm ++ source.held ++ [])
        rw [List.append_nil, List.append_assoc source.lists.config,
          List.append_assoc source.lists.config, List.append_assoc source.lists.config,
          List.append_assoc source.lists.config]
        apply List.Perm.append_left
        exact List.perm_append_comm
      · simp [failures]
      · rfl
      · have addressed : ∀ node : Node, node.SameUuid { node with addr := addr } :=
          fun _ => rfl
        exact funext (CfgDb.Kept.uplNodesetAddr Node.SameUuid.refl addressed moves).records

/-- Every step accounts for the nodes.  The step lemma: one case for each function that moves
nodes. -/
theorem WorkOp.conserves {source target : Engine} {op : WorkOp} (housed : source.Housed)
    (taken : op.run source = .ok target) :
    target.Housed ∧ ∃ departures, Conserves source (op.arrivals source) departures target := by
  cases op with
  | iterate now input => exact accLoop_settled housed taken
  | engine input => exact configEngine_settled housed taken
  | receive packet input => exact devConfigHdr_settled housed taken
  | provisioned uuid addr =>
      obtain ⟨kept, account⟩ := onProvSuccess_conserves housed taken
      exact ⟨kept, [], account⟩
  | phase state =>
      cases taken
      exact ⟨housed.around _ _ _, [], (Conserves.refl source).nodes, (Conserves.refl source).fail,
        (Conserves.refl source).closings, rfl⟩

/-- So does every run.  The run lemma, by induction on the run; the arrivals add up. -/
theorem WorkRun.conserves {initial final : Engine} {past : List (Move Engine WorkOp)}
    (run : WorkRun initial past final) (housed : initial.Housed) :
    final.Housed ∧ ∃ departures, Conserves initial (arrivals past) departures final := by
  induction run with
  | start => exact ⟨housed, [], .refl initial⟩
  | @extend current following op past earlier taken hypothesis =>
      obtain ⟨inHouse, before, account⟩ := hypothesis
      obtain ⟨kept, after, more⟩ := WorkOp.conserves inHouse taken
      refine ⟨kept, after ++ before, ?_⟩
      have whole := account.trans more
      have reported : arrivals (past ++ [⟨current, op, following⟩]) =
          arrivals past ++ op.arrivals current := by
        simp [arrivals]
      rw [reported]
      exact whole

/-- Node conservation.  When no node is pending or held twice and no device is reported
provisioned again, the map of used slots tells in every state reached which slots hold
a node, no node is in two places, and each node that the engine took is either still
there or has departed once. -/
theorem nodes_conserved {initial final : Engine} {past : List (Move Engine WorkOp)}
    (run : WorkRun initial past final) (housed : initial.Housed)
    (once : (initial.managed ++ arrivals past).Nodup) :
    final.Housed ∧ final.managed.Nodup ∧
      ∃ departures, Conserves initial (arrivals past) departures final ∧
        (final.managed ++ departures.map (·.node)).Nodup := by
  obtain ⟨kept, departures, account⟩ := run.conserves housed
  have distinct : (final.managed ++ departures.map (·.node)).Nodup :=
    account.nodes.nodup_iff.mp once
  exact ⟨kept, (List.nodup_append.mp distinct).1, departures, account, distinct⟩

/-- The NCP refuses a command. -/
def CmdRsp.refused (time : Nat) : CmdRsp :=
  { result := bgErrTimeout, handle := 0, time := time }

/-- A network of two nodes and a device that is provisioned later.  The first node waits for
its configuration, the second to be removed. -/
def Engine.trio : Engine :=
  let small := Engine.small (Node.plain 5)
  { small with
    host := { small.host with db := { small.host.db with
      heap := fun id =>
        if id = 0 then Node.plain 5
        else if id = 1 then { Node.plain 6 with uuid := Vector.replicate 16 2, rmorbl := 1 }
        else { Node.plain 0 with uuid := Vector.replicate 16 3 }
      next := 3
      nodes := ((∅ : Std.TreeMap UInt16 NodeId).insert 5 0).insert 6 1
      unprovDevs := (∅ : Std.TreeMap Uuid NodeId).insert (Vector.replicate 16 3) 2 } }
    lists := { add := [], config := [0], bl := [], rm := [1], fail := [] } }

/-- The first command to the first node is refused.  The device is provisioned and configured,
then the second node is removed. -/
def trioSteps : List WorkOp :=
  [.iterate 0 (RoundInput.all 0 (.taken 1 0) (.refused 0)),
    .provisioned (Vector.replicate 16 3) 7,
    .iterate 0 (RoundInput.all 0 (.taken 1 0) (.taken 1 0)),
    .receive (.dcdData 1 0 onOffPage 16) { inprg := .taken 1 0, retry := .taken 1 0 },
    .receive (.dcdDataEnd 1 bgErrSuccess) { inprg := .taken 1 0, retry := .taken 1 0 },
    .iterate 0 (RoundInput.all 0 (.taken 2 0) (.taken 2 0)),
    .phase .removingDevicesEm,
    .iterate 0 (RoundInput.all 0 (.taken 3 0) (.taken 3 0)),
    .receive (.status .reset 3 bgErrSuccess) { inprg := .taken 3 0, retry := .taken 3 0 },
    .iterate 0 (RoundInput.all 0 (.taken 4 0) (.taken 4 0))]

/-- Each of the three departs in its own way, once. -/
theorem nodes_conserved_trio :
    ∃ past final, WorkRun Engine.trio past final ∧
      final.lists.fail = [0] ∧
      final.host.closings =
        [.released 0, .reported (Vector.replicate 16 2) .rmendEm,
          .released 0, .reported (Vector.replicate 16 3) .endEm,
          .released 0] ∧
      final.Housed ∧ final.managed.Nodup ∧
      ∃ departures, Conserves Engine.trio (arrivals past) departures final ∧
        (final.managed ++ departures.map (·.node)).Nodup := by
  have replay : replays WorkOp.run Engine.trio trioSteps
      (fun past final =>
        decide ((Engine.trio.managed ++ arrivals past).Nodup) &&
          (decide (final.lists.fail = [0]) && decide (final.host.closings =
            [.released 0, .reported (Vector.replicate 16 2) .rmendEm,
              .released 0, .reported (Vector.replicate 16 3) .endEm,
              .released 0]))) = true := by
    decide +kernel
  obtain ⟨past, final, run, _, tested⟩ := execution_of_replays replay
  obtain ⟨once, observed⟩ := Bool.and_eq_true_iff.mp tested
  obtain ⟨failed, closings⟩ := Bool.and_eq_true_iff.mp observed
  have fresh : Engine.trio.Fresh := ⟨rfl, fun _ => rfl⟩
  exact ⟨past, final, run, of_decide_eq_true failed, of_decide_eq_true closings,
    nodes_conserved run fresh.housed (of_decide_eq_true once)⟩

end Nwmng
