/-
Module: Nwmng.Config.SlotRun
Purpose: Runs of one configuration slot, from the load of its node until it is free again, among
arbitrary steps of the rest of the program.
Trusted boundary: none
Main exports:
  SlotState, SlotOp, SlotOp.run, SlotRun, SlotState.loaded, SlotMove, slotOp_move,
  engineSlot_run, devConfigHdr_run
-/
import Nwmng.Config.EngineRun

/-!
A single slot among everything else.  What other slots and the rest of the program do to the data
that it shares with them is one step, which may change these data in any way.
-/

namespace Nwmng

open Transition Fallible

/-- A slot with the data that it shares with the rest of the program.  The other slots appear as
part of the rest: what they do to the shared data is an `outside` step. -/
structure SlotState where
  cache : ConfigCache
  host : Host
  /-- the timeouts reported so far for the command that the slot works on -/
  spent : Nat
  /-- the slot has come to its end, and is free -/
  freed : Bool

/-- The turns of a slot, and what the rest of the program does between them.  A turn is the round
of the main loop for this slot, or an event that is routed to it. -/
inductive SlotOp where
  | round (manager : MngState) (input : RoundInput)
  | event (manager : MngState) (packet : ConfigEvent) (input : EventInput)
  | outside (db : CfgDb) (cfg : ProvCfg) (stat : Stat) (effects : List Effect)

/-- The commands that a slot has sent. -/
def Effect.sentBy (slot : Slot) : Effect → Option Command
  | .sent sender command _ => if sender = slot then some command else none
  | _ => none

/-- The command that a slot has sent last. -/
def Host.lastSentBy (host : Host) (slot : Slot) : Option Command :=
  host.log.findSome? (Effect.sentBy slot)

theorem Host.lastSentBy_sent (host : Host) (slot : Slot) (command : Command) (answer : CmdRsp) :
    (host.record (.sent slot command answer)).lastSentBy slot = some command := by
  simp [lastSentBy, record, Effect.sentBy]

theorem Host.lastSentBy_record (host : Host) {slot : Slot} {effect : Effect}
    (foreign : effect.sentBy slot = none) :
    (host.record effect).lastSentBy slot = host.lastSentBy slot := by
  simp [lastSentBy, record, foreign]

theorem Host.lastSentBy_others {db : CfgDb} {cfg : ProvCfg} {stat : Stat} {host : Host}
    {slot : Slot} {others : List Effect} (foreign : ∀ effect ∈ others, effect.sentBy slot = none) :
    ({ db := db, cfg := cfg, stat := stat, log := others ++ host.log } : Host).lastSentBy slot =
      host.lastSentBy slot := by
  have none_ : others.findSome? (Effect.sentBy slot) = none := by
    rw [List.findSome?_eq_none_iff]
    exact foreign
  simp [lastSentBy, List.findSome?_append, none_]

theorem Host.lastSentBy_congr {host other : Host} (slot : Slot) (log : other.log = host.log) :
    other.lastSentBy slot = host.lastSentBy slot := by
  rw [lastSentBy, lastSentBy, log]

/-- The timeouts reported for the command of a slot: a timeout status is one more, any other
status that the slot waits for is the last one of its command. -/
def tally (cache : ConfigCache) (packet : ConfigEvent) (spent : Nat) : Nat :=
  if cache.waitResponse then
    match ownStatus cache.state packet with
    | some result => if result = bgErrTimeout then spent + 1 else 0
    | none => spent
  else spent

/-- One step in the run of a slot.  A slot that is free takes no turns. -/
def SlotOp.run (slot : Slot) (source : SlotState) (op : SlotOp) : Except Abort SlotState :=
  if source.freed then .ok source
  else
    match op with
    | .round manager input => do
        let (left, cache, host) ← slotRound manager slot input source.cache source.host
        .ok { cache := cache, host := host
              spent := if left then 0 else source.spent
              freed := left && cache.ended }
    | .event manager packet input => do
        let (cache, host) ← slotEvent manager slot packet input source.cache source.host
        .ok { cache := cache, host := host
              spent := tally source.cache packet source.spent
              freed := false }
    | .outside db cfg stat effects =>
        let others := effects.filter fun effect => (effect.sentBy slot).isNone
        .ok { source with
              host := { db := db, cfg := cfg, stat := stat, log := others ++ source.host.log } }

abbrev SlotRun (slot : Slot) := Execution (Succeeds (SlotOp.run slot))

/-- A slot that a node has just been loaded into. -/
def SlotState.loaded (node : NodeId) (type : LoadType) (host : Host) : SlotState where
  cache := ConfigCache.reset.loaded node type
  host := host
  spent := 0
  freed := false

/-- What a step can do to a slot.  It is read off the rounds and the events once, and each
property of a slot's run is then proved by one case for each constructor. -/
inductive SlotMove (slot : Slot) (source : SlotState) : SlotOp → SlotState → Prop where
  | free {op : SlotOp} (freed : source.freed = true) : SlotMove slot source op source
  | stays {manager : MngState} {input : RoundInput} {cache : ConfigCache} {host : Host}
      (working : source.freed = false)
      (resent : retryException manager slot input source.cache source.host = .ok (cache, host))
      (still : cache.stays = true) :
      SlotMove slot source (.round manager input)
        { cache := cache, host := host, spent := source.spent, freed := false }
  | leaves {manager : MngState} {input : RoundInput} {middle cache : ConfigCache}
      {between host : Host} {targets : List AccStateOps} (working : source.freed = false)
      (resent : retryException manager slot input source.cache source.host =
        .ok (middle, between))
      (leaving : middle.stays = false) (leads : leaveTargets middle = .ok targets)
      (arrived : Arrived targets slot input.entry middle between cache host) :
      SlotMove slot source (.round manager input)
        { cache := cache, host := host, spent := 0, freed := cache.ended }
  | event {manager : MngState} {packet : ConfigEvent} {input : EventInput}
      {cache : ConfigCache} {host : Host} (working : source.freed = false)
      (step : EventStep manager slot packet input source.cache source.host cache host) :
      SlotMove slot source (.event manager packet input)
        { cache := cache, host := host
          spent := tally source.cache packet source.spent, freed := false }
  | outside {db : CfgDb} {cfg : ProvCfg} {stat : Stat} {effects : List Effect}
      (others : List Effect) (working : source.freed = false)
      (foreign : ∀ effect ∈ others, effect.sentBy slot = none) :
      SlotMove slot source (.outside db cfg stat effects)
        { source with
          host := { db := db, cfg := cfg, stat := stat, log := others ++ source.host.log } }

theorem slotOp_move {slot : Slot} {source target : SlotState} {op : SlotOp}
    (taken : op.run slot source = .ok target) : SlotMove slot source op target := by
  unfold SlotOp.run at taken
  by_cases freed : source.freed = true
  · rw [if_pos freed, Except.ok.injEq] at taken
    rw [← taken]
    exact .free freed
  · have working : source.freed = false := by simpa using freed
    rw [if_neg freed] at taken
    cases op with
    | round manager input =>
        simp only [bind_ok, Except.ok.injEq] at taken
        obtain ⟨⟨left, cache, host⟩, round, rfl⟩ := taken
        cases slotRound_step round with
        | stays resent still => exact .stays working resent still
        | leaves resent leaving leads arrived =>
            exact .leaves working resent leaving leads arrived
    | event manager packet input =>
        simp only [bind_ok, Except.ok.injEq] at taken
        obtain ⟨⟨cache, host⟩, handled, rfl⟩ := taken
        exact .event working (slotEvent_step handled)
    | outside db cfg stat effects =>
        simp only [Except.ok.injEq] at taken
        rw [← taken]
        apply SlotMove.outside _ working
        intro effect member
        simpa using (List.mem_filter.mp member).2

/-- The round of a slot that works is its turn in a call of `config_engine`.  The other slots of
the call appear as steps from outside. -/
theorem engineSlot_run {input : RoundInput} {engine after : Engine} {slot : Slot}
    (spent : Nat) (taken : engineSlot input engine slot = .ok after) :
    ∃ target,
      (SlotOp.round engine.state input).run slot
        { cache := engine.cache slot, host := engine.host, spent := spent, freed := false } =
        .ok target ∧
      after =
        if target.freed then releaseSlot { engine with host := target.host } slot target.cache
        else { engine with host := target.host }.setCache slot target.cache := by
  rw [engineSlot_eq] at taken
  simp only [bind_ok] at taken
  obtain ⟨⟨left, cache, host⟩, round, taken⟩ := taken
  refine ⟨_, by simp only [SlotOp.run, Bool.false_eq_true, if_false, round, ok_bind]; rfl, ?_⟩
  by_cases ends : (left && cache.ended) = true
  · simpa [ends] using taken.symm
  · rw [if_neg ends, Except.ok.injEq] at taken
    rw [if_neg ends]
    exact taken.symm

/-- The event that is routed to a slot is its turn in `dev_config_hdr`.  For the slots that it is
not routed to, nothing happens. -/
theorem devConfigHdr_run {packet : ConfigEvent} {input : EventInput}
    {engine after : Engine} (spent : Nat)
    (taken : devConfigHdr packet input engine = .ok after) :
    ∃ slot target, cacheFromCchandle engine packet = .ok slot ∧
      (SlotOp.event engine.state packet input).run slot
        { cache := engine.cache slot, host := engine.host, spent := spent, freed := false } =
        .ok target ∧
      after = { engine with host := target.host }.setCache slot target.cache := by
  rw [devConfigHdr_eq] at taken
  simp only [bind_ok, Except.ok.injEq] at taken
  obtain ⟨slot, routed, ⟨cache, host⟩, handled, rfl⟩ := taken
  refine ⟨slot,
    { cache := cache, host := host, freed := false
      spent := tally (engine.cache slot) packet spent }, routed, ?_, rfl⟩
  simp only [SlotOp.run, Bool.false_eq_true, if_false, handled, ok_bind]

end Nwmng
