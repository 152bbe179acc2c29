/-
Module: Nwmng.Config.Routing
Purpose: When every event of the configuration client reaches the slot whose
outstanding command it answers, and no other.
Trusted boundary: none
Main exports:
  Host.ledger, LinkRun, EventRouted, Claimable, events_routed_guarded,
  late_answer_aborts
-/
import Nwmng.Lib.Ledger
import Nwmng.Config.EngineRun

namespace Nwmng

open Transition Fallible Ledger

/-! ## The NCP -/

/-- An effect as an entry of the ledger of commands. -/
def Effect.entry? : Effect → Option (Entry Slot Command UInt32)
  | .sent slot command answer =>
      if answer.result = bgErrSuccess then some (.taken slot command answer.handle) else none
  | .answered handle => some (.answered handle)
  | .released slot => some (.released slot)
  | _ => none

/-- The commands the NCP took, the answers it gave and the slots that were freed. -/
def Host.ledger (host : Host) : List (Entry Slot Command UInt32) :=
  host.log.filterMap Effect.entry?

/-- The status event that answers a command, for those that have one. -/
def Command.statusKind : Command → Option StatusKind
  | .getDcd .. => none
  | .addAppkey .. => some .appkey
  | .bindModel .. => some .binding
  | .setModelPub .. => some .modelPub
  | .setModelSub .. | .addModelSub .. => some .modelSub
  | .setRelay .. => some .relay
  | .setGattProxy .. => some .gattProxy
  | .setFriend .. => some .friend
  | .setDefaultTtl .. => some .defaultTtl
  | .setNetworkTransmit .. => some .networkTransmit
  | .setBeacon .. => some .beacon
  | .resetNode .. => some .reset

/-- The events the NCP sends for a command. -/
def Command.answeredBy (command : Command) : ConfigEvent → Bool
  | .dcdData .. | .dcdDataEnd .. => command.stateOf == .getDcdEm
  | .status kind _ _ => command.statusKind == some kind
  | .other _ => false

/-- The event is the last one for its command: only composition data is followed by
another event. -/
def ConfigEvent.final : ConfigEvent → Bool
  | .dcdData .. => false
  | _ => true

/-- The answer that an event gives is put down before the program handles it. -/
def Engine.noteAnswer (engine : Engine) (packet : ConfigEvent) : Engine :=
  match packet.handle? with
  | some handle =>
      if packet.final then
        { engine with host := engine.host.record (.answered handle) }
      else engine
  | none => engine

/-- A step of the engine, with the answers put down. -/
def linkRun (engine : Engine) : EngineOp → Except Abort Engine
  | .receive packet input => devConfigHdr packet input (engine.noteAnswer packet)
  | op => op.run engine

/-- The NCP sends events only for commands it has not answered yet, and the rest of
the program uses no configuration client command. -/
def NcpSends (engine : Engine) : EngineOp → Prop
  | .iterate .. => True
  | .receive packet _ =>
      ∃ taken ∈ unanswered engine.host.ledger,
        packet.handle? = some taken.handle ∧ taken.request.answeredBy packet = true
  | .outside host .. => host.log = engine.host.log

instance (engine : Engine) : (op : EngineOp) → Decidable (NcpSends engine op)
  | .iterate .. => isTrue trivial
  | .receive packet _ =>
      inferInstanceAs (Decidable (∃ taken ∈ unanswered engine.host.ledger,
        packet.handle? = some taken.handle ∧ taken.request.answeredBy packet = true))
  | .outside host .. => inferInstanceAs (Decidable (host.log = engine.host.log))

/-- A step with an NCP that keeps the handles of unanswered commands apart.  The program stores
one handle for each slot and looks an event up by it, so nothing can be said of an NCP that
returns a handle twice. -/
structure LinkStep (source : Engine) (op : EngineOp) (target : Engine) : Prop where
  taken : linkRun source op = .ok target
  sends : NcpSends source op
  distinct : DistinctHandles target.host.ledger

abbrev LinkRun := Execution LinkStep

/-! ## Routing -/

/-- The slot has a command outstanding that returned the handle of the event.  Ownership is a
matter of the ledger alone: it does not look at what the slot has stored. -/
def Engine.Owns (engine : Engine) (packet : ConfigEvent) (slot : Slot) : Prop :=
  ∃ command handle, packet.handle? = some handle ∧
    outstanding slot engine.host.ledger = some (command, handle)

/-- An event is handled as it should be: it is claimed by a slot, by the one that owns
it where there is one, and changes no slot that does not own it. -/
structure EventRouted (engine : Engine) (packet : ConfigEvent) (input : EventInput) :
    Prop where
  claimed : ∃ slot, cacheFromCchandle engine packet = .ok slot
  owner : ∀ slot, engine.Owns packet slot → cacheFromCchandle engine packet = .ok slot
  others : ∀ target slot, linkRun engine (.receive packet input) = .ok target →
    ¬ engine.Owns packet slot → target.cache slot = engine.cache slot

/-- The lowest occupied slot that stores a handle.  `cache_from_cchandle` goes through the slots
from the lowest one on, and a slot stores the handle of its last command even when it waits no
longer. -/
def Engine.StoresFirst (engine : Engine) (handle : UInt32) (slot : Slot) : Prop :=
  engine.occupied slot = true ∧ (engine.cache slot).ccHandle = handle ∧
    ∀ lower < slot, engine.occupied lower = true → (engine.cache lower).ccHandle ≠ handle

/-- The lowest occupied slot that stores the handle of the event waits for an answer;
or no slot that waits stores the handle, and that slot has no retry to drive. -/
def Claimable (engine : Engine) (packet : ConfigEvent) : Prop :=
  ∃ handle, packet.handle? = some handle ∧ ∃ slot, engine.StoresFirst handle slot ∧
    ((engine.cache slot).waitResponse = true ∨
      ((isCommandState (engine.cache slot).state = true →
          (engine.cache slot).everRetried = false) ∧
        ∀ other, engine.occupied other = true →
          (engine.cache other).waitResponse = true →
            (engine.cache other).ccHandle ≠ handle))

instance (engine : Engine) (packet : ConfigEvent) : Decidable (Claimable engine packet) := by
  unfold Claimable Engine.StoresFirst
  infer_instance

/-- The condition on a step: only events have one. -/
def EngineOp.Claims (engine : Engine) : EngineOp → Prop
  | .receive packet _ => Claimable engine packet
  | _ => True

instance (engine : Engine) : (op : EngineOp) → Decidable (op.Claims engine)
  | .iterate .. => isTrue trivial
  | .receive packet _ => inferInstanceAs (Decidable (Claimable engine packet))
  | .outside .. => isTrue trivial

/-! ## The ledger of a host -/

@[simp] theorem ledger_taken {host : Host} {slot : Slot} {command : Command}
    {answer : CmdRsp} (success : answer.result = bgErrSuccess) :
    (host.record (.sent slot command answer)).ledger =
      .taken slot command answer.handle :: host.ledger := by
  simp [Host.ledger, Host.record, Effect.entry?, success]

@[simp] theorem ledger_untaken {host : Host} {slot : Slot} {command : Command}
    {answer : CmdRsp} (failure : answer.result ≠ bgErrSuccess) :
    (host.record (.sent slot command answer)).ledger = host.ledger := by
  simp [Host.ledger, Host.record, Effect.entry?, failure]

@[simp] theorem ledger_released {host : Host} {slot : Slot} :
    (host.record (.released slot)).ledger = .released slot :: host.ledger := by
  simp [Host.ledger, Host.record, Effect.entry?]

@[simp] theorem ledger_answered {host : Host} {handle : UInt32} :
    (host.record (.answered handle)).ledger = .answered handle :: host.ledger := by
  simp [Host.ledger, Host.record, Effect.entry?]

/-- An effect that is no entry of the ledger. -/
theorem ledger_other {host : Host} {effect : Effect} (other : effect.entry? = none) :
    (host.record effect).ledger = host.ledger := by
  simp [Host.ledger, Host.record, other]

theorem ledger_of_log {host other : Host} (same : other.log = host.log) :
    other.ledger = host.ledger := by
  simp [Host.ledger, same]

theorem endEntry_ledger {guard : Option GuardFn} {slot : Slot} {answer : CmdRsp}
    {cache : ConfigCache} {host : Host} {out : Outcome}
    (entered : endEntry guard slot answer cache host = .ok out) :
    out.host.ledger = host.ledger := by
  simp only [endEntry, bind_ok] at entered
  obtain ⟨_, _, entered⟩ := entered
  by_cases failed : cache.failed = true
  · simp only [failed, if_true, bind_ok, Except.ok.injEq] at entered
    obtain ⟨_, _, rfl⟩ := entered
    rfl
  · simp only [failed, bind_ok, Bool.false_eq_true, if_false, Except.ok.injEq] at entered
    obtain ⟨_, _, _, _, rfl⟩ := entered
    exact ledger_other rfl

theorem rmendEntry_ledger {guard : Option GuardFn} {slot : Slot} {answer : CmdRsp}
    {cache : ConfigCache} {host : Host} {out : Outcome}
    (entered : rmendEntry guard slot answer cache host = .ok out) :
    out.host.ledger = host.ledger := by
  simp only [rmendEntry, bind_ok] at entered
  obtain ⟨_, _, entered⟩ := entered
  by_cases failed : cache.failed = true
  · simp only [failed, if_true, bind_ok, Except.ok.injEq] at entered
    obtain ⟨_, _, rfl⟩ := entered
    rfl
  · simp only [failed, bind_ok, Bool.false_eq_true, if_false, Except.ok.injEq] at entered
    obtain ⟨_, _, _, _, _, _, _, _, rfl⟩ := entered
    rw [ledger_other rfl, ledger_other rfl]
    rfl

/-!
## Slots and their commands

A slot is linked to its command when it waits exactly while the command is outstanding, and under
the handle that was returned for it.  The handle that a slot stores may outlive its command,
which is what makes routing a matter of order.
-/

/-- A slot waits exactly for the command it has outstanding.  The waiting flag, the stored handle
and the state agree with the ledger, on which the routing of events is decided. -/
def Linked (cache : ConfigCache) (slot : Slot) (ledger : List (Entry Slot Command UInt32)) :
    Prop :=
  match outstanding slot ledger with
  | some (command, handle) =>
      cache.waitResponse = true ∧ cache.ccHandle = handle ∧ command.stateOf = cache.state
  | none => cache.waitResponse = false

/-- The ledger grew by entries of one slot only.  With it, what was outstanding for all other
slots is as before the step. -/
def OnlyFor (slot : Slot) (older newer : List (Entry Slot Command UInt32)) : Prop :=
  ∀ other ≠ slot, outstanding other newer = outstanding other older

theorem OnlyFor.refl (slot : Slot) (ledger : List (Entry Slot Command UInt32)) :
    OnlyFor slot ledger ledger := fun _ _ => rfl

theorem OnlyFor.trans {slot : Slot} {first second third : List (Entry Slot Command UInt32)}
    (before : OnlyFor slot first second) (after : OnlyFor slot second third) :
    OnlyFor slot first third :=
  fun other different => (after other different).trans (before other different)

theorem Linked.idle {cache : ConfigCache} {slot : Slot}
    {ledger : List (Entry Slot Command UInt32)} (linked : Linked cache slot ledger)
    (idle : cache.waitResponse = false) : outstanding slot ledger = none := by
  unfold Linked at linked
  cases latest : outstanding slot ledger with
  | none => rfl
  | some pair =>
      simp only [latest] at linked
      rw [idle] at linked
      cases linked.1

theorem Linked.waiting {cache : ConfigCache} {slot : Slot}
    {ledger : List (Entry Slot Command UInt32)} (linked : Linked cache slot ledger)
    (waits : cache.waitResponse = true) :
    ∃ command, outstanding slot ledger = some (command, cache.ccHandle) ∧
      command.stateOf = cache.state := by
  unfold Linked at linked
  cases latest : outstanding slot ledger with
  | none =>
      simp only [latest] at linked
      rw [waits] at linked
      cases linked
  | some pair =>
      simp only [latest] at linked
      exact ⟨pair.1, by rw [linked.2.1], linked.2.2⟩

theorem linked_of_none {cache : ConfigCache} {slot : Slot}
    {ledger : List (Entry Slot Command UInt32)} (none_ : outstanding slot ledger = none)
    (idle : cache.waitResponse = false) : Linked cache slot ledger := by
  simp [Linked, none_, idle]

theorem linked_of_some {cache : ConfigCache} {slot : Slot} {command : Command}
    {ledger : List (Entry Slot Command UInt32)}
    (latest : outstanding slot ledger = some (command, cache.ccHandle))
    (waits : cache.waitResponse = true) (belongs : command.stateOf = cache.state) :
    Linked cache slot ledger := by
  simp [Linked, latest, waits, belongs]

/-- Being linked depends on the state, the flag and the handle of a slot only. -/
theorem Linked.congr {cache other : ConfigCache} {slot : Slot}
    {ledger : List (Entry Slot Command UInt32)} (linked : Linked cache slot ledger)
    (state : other.state = cache.state) (waits : other.waitResponse = cache.waitResponse)
    (handle : other.ccHandle = cache.ccHandle) : Linked other slot ledger := by
  unfold Linked at linked ⊢
  rw [state, waits, handle]
  exact linked

/-- What an attempt does to the ledger, and to a slot that does not wait. -/
theorem Attempt.linked {state : AccState} {slot : Slot} {answer : CmdRsp}
    {cache : ConfigCache} {host : Host} {out : Outcome}
    (attempt : Attempt state slot answer cache host out) (own : cache.state = state)
    (linked : Linked cache slot host.ledger) :
    OnlyFor slot host.ledger out.host.ledger ∧
      (Linked out.cache slot out.host.ledger ∨
        out.ret = .bgapi ∧ out.cache.waitResponse = false ∧
          out.cache.nextState = some (finalOf state) ∧ cache.waitResponse = true) := by
  cases attempt with
  | accepted command vnm success _ belongs =>
      rw [ledger_taken success]
      refine ⟨fun other different => outstanding_taken_other different, .inl ?_⟩
      exact linked_of_some outstanding_taken_self rfl (belongs.trans own.symm)
  | outOfMemory command vnm full _ =>
      have untaken : answer.result ≠ bgErrSuccess := by
        rw [full]
        decide
      rw [ledger_untaken untaken]
      exact ⟨OnlyFor.refl _ _, .inl (linked.congr rfl rfl rfl)⟩
  | refused command vnm error =>
      rw [ledger_untaken error.1]
      refine ⟨OnlyFor.refl _ _, ?_⟩
      cases waits : cache.waitResponse with
      | false => exact .inl (linked_of_none (linked.idle waits) rfl)
      | true => exact .inr ⟨rfl, rfl, rfl, rfl⟩
  | unknown _ => exact ⟨OnlyFor.refl _ _, .inl linked⟩

/-- So does a resend. -/
theorem Retried.linked {state : AccState} {reason : RetryReason} {slot : Slot}
    {answer : CmdRsp} {cache : ConfigCache} {host : Host} {out : Outcome}
    (retried : Retried state reason slot answer cache host out) (own : cache.state = state)
    (linked : Linked cache slot host.ledger) :
    OnlyFor slot host.ledger out.host.ledger ∧
      (Linked out.cache slot out.host.ledger ∨
        out.cache.waitResponse = false ∧
          out.cache.nextState = some (finalOf state) ∧ cache.waitResponse = true) := by
  cases retried with
  | unsent attempt failed =>
      obtain ⟨only, here | ⟨_, idle, next, waited⟩⟩ := attempt.linked own linked
      · exact ⟨only, .inl here⟩
      · exact ⟨only, .inr ⟨idle, next, waited⟩⟩
  | resent attempt sent finishes =>
      obtain ⟨only, here | ⟨refused, _⟩⟩ := attempt.linked own linked
      · refine ⟨only, .inl ?_⟩
        cases reason with
        | onTimeoutEm =>
            obtain ⟨_, _, rfl⟩ := finishes
            exact here.congr rfl rfl rfl
        | onOomEm =>
            obtain ⟨_, rfl⟩ := finishes
            exact here.congr rfl rfl rfl
        | onGuardTimerExpiredEm =>
            obtain ⟨_, rfl⟩ := finishes
            exact here.congr rfl rfl rfl
      · rw [sent] at refused
        cases refused

/-! ## Rounds -/

theorem ExceptionStep.linked {state : MngState} {slot : Slot} {input : RoundInput}
    {cache after : ConfigCache} {host host' : Host}
    (exception : ExceptionStep state slot input cache host after host')
    (linked : Linked cache slot host.ledger) :
    OnlyFor slot host.ledger host'.ledger ∧
      (Linked after slot host'.ledger ∨
        after.waitResponse = false ∧ after.nextState = some (finalOf cache.state) ∧
          isCommandState cache.state = true) := by
  have retries : ∀ {reason out}, isCommandState cache.state = true →
      Retried cache.state reason slot input.retry cache host out →
      OnlyFor slot host.ledger (countRetry state out.host).ledger ∧
        (Linked out.cache slot (countRetry state out.host).ledger ∨
          out.cache.waitResponse = false ∧
            out.cache.nextState = some (finalOf cache.state) ∧
            isCommandState cache.state = true) := by
    intro reason out commands retried
    obtain ⟨only, here | ⟨idle, next, _⟩⟩ := retried.linked rfl linked
    · rw [ledger_of_log (countRetry_log state out.host)]
      exact ⟨only, .inl here⟩
    · rw [ledger_of_log (countRetry_log state out.host)]
      exact ⟨only, .inr ⟨idle, next, commands⟩⟩
  cases exception with
  | quiet _ => exact ⟨OnlyFor.refl _ _, .inl linked⟩
  | expired commands _ retried => exact retries commands retried
  | memory commands _ _ _ retried => exact retries commands retried

/-- A slot on its way to a final state ends there. -/
theorem Arrived.final {targets : List AccStateOps} {slot : Slot} {answer : CmdRsp}
    {cache after : ConfigCache} {host host' : Host} {final : AccState} {id : NodeId}
    (arrived : Arrived targets slot answer cache host after host')
    (leaves : leaveTargets cache = .ok targets) (here : cache.node = some id)
    (next : cache.nextState = some final) (isFinal : final = .endEm ∨ final = .rmendEm) :
    after.ended = true := by
  have first : ∃ ops rest, targets = ops :: rest ∧
      (ops.state = .endEm ∨ ops.state = .rmendEm) ∧
      ∀ node, guardHolds ops.state node = true := by
    unfold leaveTargets at leaves
    rcases isFinal with rfl | rfl
    · rw [next] at leaves
      cases leaves
      exact ⟨asEnd, _, rfl, .inl rfl, fun _ => rfl⟩
    · rw [next] at leaves
      cases leaves
      exact ⟨asRmend, _, rfl, .inr rfl, fun _ => rfl⟩
  obtain ⟨ops, rest, rfl, isEnd, opened⟩ := first
  cases arrived with
  | nowhere skipped =>
      have closed := skipped ops List.mem_cons_self id here
      rw [opened] at closed
      cases closed
  | refused _ _ _ _ _ => rfl
  | @entered before _ other out split skipped entry ret =>
      cases before with
      | nil =>
          cases split
          rcases isEnd with same | same
          · simp [ConfigCache.ended, same]
          · simp [ConfigCache.ended, same]
      | cons head tail =>
          cases split
          have closed := skipped ops List.mem_cons_self id here
          rw [opened] at closed
          cases closed

/-- What arriving does to the ledger, and to a slot with no command outstanding. -/
theorem Arrived.linked {targets : List AccStateOps} {slot : Slot} {answer : CmdRsp}
    {cache after : ConfigCache} {host host' : Host}
    (arrived : Arrived targets slot answer cache host after host')
    (idle : cache.waitResponse = false) :
    OnlyFor slot host.ledger host'.ledger ∧
      (outstanding slot host.ledger = none → Linked after slot host'.ledger) := by
  cases arrived with
  | nowhere _ => exact ⟨OnlyFor.refl _ _, fun none_ => linked_of_none none_ idle⟩
  | entered split skipped entry ret =>
      cases entry with
      | skipped _ => rcases ret with ret | ret <;> cases ret
      | attempted commands here opened attempt _ =>
          cases attempt with
          | accepted command vnm success _ belongs =>
              rw [ledger_taken success]
              refine ⟨fun other different => outstanding_taken_other different, fun _ => ?_⟩
              exact linked_of_some outstanding_taken_self rfl belongs
          | outOfMemory command vnm full _ =>
              have untaken : answer.result ≠ bgErrSuccess := by
                rw [full]
                decide
              rw [ledger_untaken untaken]
              exact ⟨OnlyFor.refl _ _, fun none_ => linked_of_none none_ idle⟩
          | refused _ _ _ => rcases ret with ret | ret <;> cases ret
          | unknown _ => rcases ret with ret | ret <;> cases ret
      | noCommand here opened none_left =>
          exact ⟨OnlyFor.refl _ _, fun none_ => linked_of_none none_ idle⟩
      | ended final conclusion =>
          have same := endEntry_ledger conclusion
          rw [same]
          exact ⟨OnlyFor.refl _ _, fun none_ => linked_of_none none_ idle⟩
      | removed final conclusion =>
          have same := rmendEntry_ledger conclusion
          rw [same]
          exact ⟨OnlyFor.refl _ _, fun none_ => linked_of_none none_ idle⟩
  | refused split skipped entry ret conclusion =>
      have same := endEntry_ledger conclusion
      simp only at same
      rw [same]
      cases entry with
      | attempted commands here opened attempt _ =>
          cases attempt with
          | refused command vnm error =>
              rw [ledger_untaken error.1]
              exact ⟨OnlyFor.refl _ _, fun none_ => linked_of_none none_ rfl⟩
          | _ => cases ret
      | _ => cases ret

/-- Every occupied slot has a node and waits for the command it has outstanding;
vacant slots have none. -/
structure Engine.Linked (engine : Engine) : Prop where
  used : ∀ slot, engine.occupied slot = true →
    Nwmng.Linked (engine.cache slot) slot engine.host.ledger
  nodes : ∀ slot, engine.occupied slot = true → (engine.cache slot).node.isSome = true
  vacant : ∀ slot, engine.occupied slot = false →
    outstanding slot engine.host.ledger = none ∧
      (engine.cache slot).waitResponse = false

/-- Writing the cache of an occupied slot, with a ledger that grew for it only. -/
theorem Engine.Linked.setCache {engine : Engine} (linked : engine.Linked) {slot : Slot}
    (occupied : engine.occupied slot = true) {cache : ConfigCache} {host : Host}
    (only : OnlyFor slot engine.host.ledger host.ledger)
    (here : Nwmng.Linked cache slot host.ledger) (node : cache.node.isSome = true) :
    (({ engine with host := host }).setCache slot cache).Linked where
  used other usedOther := by
    by_cases same : other = slot
    · subst same
      rw [Engine.setCache_self]
      exact here
    · rw [Engine.setCache_other _ _ same]
      have kept := linked.used other usedOther
      unfold Nwmng.Linked at kept ⊢
      change match outstanding other host.ledger with
        | some (_, _) => _
        | none => _
      rw [only other same]
      exact kept
  nodes other usedOther := by
    by_cases same : other = slot
    · subst same
      rw [Engine.setCache_self]
      exact node
    · rw [Engine.setCache_other _ _ same]
      exact linked.nodes other usedOther
  vacant other empty := by
    have different : other ≠ slot := by
      rintro rfl
      have used : engine.occupied other = false := empty
      rw [occupied] at used
      cases used
    rw [Engine.setCache_other _ _ different]
    obtain ⟨none_, idle⟩ := linked.vacant other empty
    exact ⟨(only other different).trans none_, idle⟩

/-- Freeing a slot. -/
theorem Engine.Linked.release {engine : Engine} (linked : engine.Linked) {slot : Slot}
    {cache : ConfigCache} {host : Host}
    (only : OnlyFor slot engine.host.ledger host.ledger) :
    (releaseSlot { engine with host := host } slot cache).Linked := by
  have bits : ∀ other, (releaseSlot { engine with host := host } slot cache).occupied other =
      (!decide (other = slot) && engine.occupied other) := by
    intro other
    by_cases same : other = slot
    · subst same
      simp [releaseSlot, Engine.occupied, Engine.setCache]
    · have apart : slot.val ≠ other.val := fun equal => same (Fin.ext equal.symm)
      simp [releaseSlot, Engine.occupied, Engine.setCache, apart, same]
  have caches : ∀ other ≠ slot,
      (releaseSlot { engine with host := host } slot cache).cache other =
        engine.cache other :=
    fun other different => Engine.setCache_other engine _ different
  have grown : (releaseSlot { engine with host := host } slot cache).host.ledger =
      .released slot :: host.ledger := ledger_released
  constructor
  · intro other usedOther
    rw [bits, Bool.and_eq_true, Bool.not_eq_true', decide_eq_false_iff_not] at usedOther
    have kept := linked.used other usedOther.2
    unfold Nwmng.Linked at kept ⊢
    rw [grown, outstanding_released_other usedOther.1, only other usedOther.1,
      caches other usedOther.1]
    exact kept
  · intro other usedOther
    rw [bits, Bool.and_eq_true, Bool.not_eq_true', decide_eq_false_iff_not] at usedOther
    rw [caches other usedOther.1]
    exact linked.nodes other usedOther.2
  · intro other empty
    rw [grown]
    by_cases same : other = slot
    · subst same
      refine ⟨outstanding_released_self, ?_⟩
      change ((engine.setCache other .reset).cache other).waitResponse = false
      rw [Engine.setCache_self]
      rfl
    · rw [outstanding_released_other same, caches other same, only other same]
      apply linked.vacant other
      simpa [bits, same] using empty

/-- Loading a node into a vacant slot. -/
theorem Engine.Linked.load {engine : Engine} (linked : engine.Linked) {slot : Slot}
    (free : engine.occupied slot = false) (node : NodeId) (type : LoadType)
    (lists : Lists) :
    ({ cacheItemLoad engine slot node type with lists := lists } : Engine).Linked where
  used other usedOther := by
    by_cases same : other = slot
    · subst same
      rw [cache_load_self]
      obtain ⟨none_, idle⟩ := linked.vacant other free
      apply linked_of_none none_
      cases type <;> exact idle
    · rw [cache_load_other engine same]
      rw [occupied_load, decide_eq_false same, Bool.false_or] at usedOther
      exact linked.used other usedOther
  nodes other usedOther := by
    by_cases same : other = slot
    · subst same
      rw [cache_load_self]
      cases type <;> rfl
    · rw [cache_load_other engine same]
      rw [occupied_load, decide_eq_false same, Bool.false_or] at usedOther
      exact linked.nodes other usedOther
  vacant other empty := by
    rw [occupied_load, Bool.or_eq_false_iff, decide_eq_false_iff_not] at empty
    rw [cache_load_other engine empty.1]
    exact linked.vacant other empty.2

/-- A round keeps slots and commands linked. -/
theorem RoundStep.linked {input : RoundInput} {engine after : Engine} {slot : Slot}
    (step : RoundStep input engine slot after) (linked : engine.Linked)
    (occupied : engine.occupied slot = true) : after.Linked := by
  have own := linked.used slot occupied
  obtain ⟨id, here⟩ := Option.isSome_iff_exists.mp (linked.nodes slot occupied)
  cases step with
  | @stays cache host exception still =>
      obtain ⟨only, kept | ⟨idle, next, commands⟩⟩ := exception.linked own
      · apply linked.setCache occupied only kept
        rw [exception.sameWork.2, here]
        rfl
      · -- a slot that gave up its command does not stay
        simp only [ConfigCache.stays, idle, next, exception.sameWork.1, Bool.false_or,
          beq_iff_eq, Option.some.injEq] at still
        exact False.elim (finalOf_ne commands still)
  | @moves middle cache between host targets exception leaving leaves arrived working =>
      have node : middle.node = some id := exception.sameWork.2.trans here
      have idle : middle.waitResponse = false := by
        simp only [ConfigCache.stays, Bool.or_eq_false_iff] at leaving
        exact leaving.1
      obtain ⟨onlyEntry, entered⟩ := arrived.linked idle
      obtain ⟨only, kept | ⟨_, next, _⟩⟩ := exception.linked own
      · apply linked.setCache occupied (only.trans onlyEntry) (entered (kept.idle idle))
        rw [arrived.sameNode, node]
        rfl
      · rw [arrived.final leaves node next (finalOf_final _)] at working
        cases working
  | @ends middle cache between host targets exception leaving leaves arrived done =>
      have idle : middle.waitResponse = false := by
        simp only [ConfigCache.stays, Bool.or_eq_false_iff] at leaving
        exact leaving.1
      exact linked.release ((exception.linked own).1.trans (arrived.linked idle).1)

/-!
## Events

The first occupied slot that stores the handle claims an event.  If it waits, the handle is that
of its own outstanding command, and handles of outstanding commands are distinct.
-/

section

variable (engine : Engine) (packet : ConfigEvent)

@[simp] theorem noteAnswer_used : (engine.noteAnswer packet).used = engine.used := by
  unfold Engine.noteAnswer
  split
  · split <;> rfl
  · rfl

@[simp] theorem noteAnswer_cache : (engine.noteAnswer packet).cache = engine.cache := by
  unfold Engine.noteAnswer
  split
  · split <;> rfl
  · rfl

@[simp] theorem noteAnswer_occupied (slot : Slot) :
    (engine.noteAnswer packet).occupied slot = engine.occupied slot := by
  simp [Engine.occupied]

theorem noteAnswer_host (host : Host) :
    ({ engine.noteAnswer packet with host := host } : Engine) =
      { engine with host := host } := by
  unfold Engine.noteAnswer
  split
  · split <;> rfl
  · rfl

/-- Putting an answer down does not change who claims an event. -/
@[simp] theorem cacheFromCchandle_noteAnswer (other : ConfigEvent) :
    cacheFromCchandle (engine.noteAnswer packet) other = cacheFromCchandle engine other := by
  simp [cacheFromCchandle]

end

/-- The answer an event gives settles the command with its handle, and no other. -/
theorem noteAnswer_outstanding {engine : Engine} {packet : ConfigEvent} {handle : UInt32}
    (under : packet.handle? = some handle) {other : Slot}
    (apart : ∀ command, outstanding other engine.host.ledger ≠ some (command, handle)) :
    outstanding other (engine.noteAnswer packet).host.ledger =
      outstanding other engine.host.ledger := by
  unfold Engine.noteAnswer
  simp only [under]
  split
  · rw [ledger_answered]
    exact outstanding_answered_other apart
  · rfl

theorem noteAnswer_final {engine : Engine} {packet : ConfigEvent} {handle : UInt32}
    (under : packet.handle? = some handle) (last : packet.final = true) :
    (engine.noteAnswer packet).host.ledger = .answered handle :: engine.host.ledger := by
  unfold Engine.noteAnswer
  simp [under, last]

theorem noteAnswer_page {engine : Engine} {packet : ConfigEvent}
    (more : packet.final = false) : engine.noteAnswer packet = engine := by
  unfold Engine.noteAnswer
  split
  · simp [more]
  · rfl

/-- The lowest occupied slot that stores the handle claims the event. -/
theorem Engine.StoresFirst.claims {engine : Engine} {handle : UInt32} {slot : Slot}
    (first : engine.StoresFirst handle slot)
    (nodes : ∀ slot, engine.occupied slot = true →
      (engine.cache slot).node.isSome = true)
    {packet : ConfigEvent} (under : packet.handle? = some handle) :
    cacheFromCchandle engine packet = .ok slot := by
  obtain ⟨occupied, stores, lowest⟩ := first
  have found : (usedSlots engine.used).find? (fun slot =>
      (engine.cache slot).node.isSome && (engine.cache slot).ccHandle == handle) =
        some slot := by
    rw [List.find?_eq_some_iff_append]
    refine ⟨by simp [nodes slot occupied, stores], ?_⟩
    obtain ⟨before, after, split⟩ := List.append_of_mem (mem_usedSlots.mpr occupied)
    refine ⟨before, after, split, fun lower member => ?_⟩
    have sorted : (usedSlots engine.used).Pairwise (· < ·) :=
      (List.pairwise_lt_finRange _).filter _
    have used : engine.occupied lower = true := by
      apply mem_usedSlots.mp
      rw [split]
      exact List.mem_append_left _ member
    rw [split] at sorted
    have below := (List.pairwise_append.mp sorted).2.2 lower member slot List.mem_cons_self
    simp [lowest lower below used]
  simp [cacheFromCchandle, under, found]

/-- A final event for the outstanding command of a slot is its own status. -/
theorem ownStatus_of_answeredBy {command : Command} {packet : ConfigEvent}
    (answers : command.answeredBy packet = true) (last : packet.final = true) :
    ∃ result, ownStatus command.stateOf packet = some result := by
  cases packet with
  | dcdData _ _ _ _ => cases last
  | dcdDataEnd handle result =>
      simp only [Command.answeredBy, beq_iff_eq] at answers
      exact ⟨result, by rw [answers]; rfl⟩
  | other _ => cases answers
  | status kind handle result =>
      refine ⟨result, ?_⟩
      cases command <;> simp_all [Command.answeredBy, Command.statusKind] <;>
        subst answers <;> rfl

theorem commands_of_ownStatus {state : AccState} {packet : ConfigEvent} {result : UInt16}
    (own : ownStatus state packet = some result) : isCommandState state = true := by
  cases state <;> first | rfl | (cases packet <;> cases own)

/-- A slot takes the final event for its outstanding command: it is then linked to the
next command it sent, or to none. -/
theorem Handled.linked {slot : Slot} {packet : ConfigEvent} {answer : CmdRsp}
    {cache : ConfigCache} {host : Host} {out : Outcome}
    (handled : Handled cache.state slot packet answer cache host out)
    (settled : outstanding slot host.ledger = none)
    (own : ∃ result, ownStatus cache.state packet = some result) :
    OnlyFor slot host.ledger out.host.ledger ∧ Linked out.cache slot out.host.ledger := by
  obtain ⟨value, isOwn⟩ := own
  have quiet : ∀ after : ConfigCache, after.waitResponse = false →
      OnlyFor slot host.ledger host.ledger ∧ Linked after slot host.ledger :=
    fun after idle => ⟨OnlyFor.refl _ _, linked_of_none settled idle⟩
  cases handled with
  | unexpected foreign _ =>
      rw [foreign] at isOwn
      cases isOwn
  | page reads first _ =>
      rw [reads, first] at isOwn
      cases isOwn
  | otherPage page =>
      cases state : cache.state <;> cases packet <;> simp_all [isPageFor, ownStatus]
  | timeout _ =>
      apply quiet
      rcases timedOut_cases (retryTimesOf cache.state) (giveUpOf cache.state)
        cache.answered with ⟨_, eq⟩ | ⟨_, _, eq⟩ | ⟨_, _, eq⟩
      · rw [eq]
        rfl
      · rw [eq]
        unfold giveUpOf
        split <;> rfl
      · rw [eq]
        rfl
  | failed _ _ _ => exact quiet _ rfl
  | resumed _ _ _ =>
      apply quiet
      unfold afterDcd
      split
      · split <;> rfl
      · rfl
  | removed _ _ => exact quiet _ rfl
  | @finished result id after iterators ever remaining _ _ _ features _ _ =>
      have same : after.ledger = host.ledger := by
        rcases features with rfl | ⟨_, _, _, _, rfl⟩
        · rfl
        · rfl
      rw [ledger_other rfl, same]
      exact quiet _ rfl
  | @continued result after out iterators ever remaining _ _ features _ attempt _ =>
      have same : after.ledger = host.ledger := by
        rcases features with rfl | ⟨_, _, _, _, rfl⟩
        · rfl
        · rfl
      have before : Linked (cache.going iterators ever remaining) slot after.ledger := by
        apply linked_of_none _ rfl
        rw [same]
        exact settled
      obtain ⟨only, here | ⟨_, _, _, waited⟩⟩ := attempt.linked rfl before
      · rw [same] at only
        exact ⟨only, here⟩
      · cases waited

/-- Composition data leaves the flags, the handle and the ledger alone. -/
theorem Handled.page_kept {slot : Slot} {packet : ConfigEvent} {answer : CmdRsp}
    {cache : ConfigCache} {host : Host} {out : Outcome}
    (handled : Handled cache.state slot packet answer cache host out)
    (more : packet.final = false) :
    out.host.ledger = host.ledger ∧ out.cache.waitResponse = cache.waitResponse ∧
      out.cache.ccHandle = cache.ccHandle := by
  have foreign : ownStatus cache.state packet = none := by
    cases packet with
    | dcdData _ _ _ _ => cases cache.state <;> rfl
    | _ => cases more
  have clash : ∀ {value}, ownStatus cache.state packet = some value → False := by
    intro value own
    rw [foreign] at own
    cases own
  cases handled with
  | unexpected _ _ => exact ⟨rfl, rfl, rfl⟩
  | page _ _ stored =>
      rw [ledger_of_log (storePage_log stored), storePage_eq stored]
      exact ⟨rfl, rfl, rfl⟩
  | otherPage _ => exact ⟨rfl, rfl, rfl⟩
  | timeout own => exact (clash own).elim
  | failed _ own _ => exact (clash own).elim
  | resumed _ _ own => exact (clash own).elim
  | removed _ own => exact (clash own).elim
  | finished _ _ _ own _ _ _ _ _ => exact (clash own).elim
  | continued _ _ _ own _ _ _ _ _ => exact (clash own).elim

/-- An event for the outstanding command of a waiting slot keeps slots and commands
linked. -/
theorem EventStep.linked {state : MngState} {slot : Slot} {packet : ConfigEvent}
    {input : EventInput} {cache after : ConfigCache} {host host' : Host}
    (step : EventStep state slot packet input cache host after host')
    (waits : cache.waitResponse = true)
    (final : packet.final = true → outstanding slot host.ledger = none ∧
      ∃ result, ownStatus cache.state packet = some result)
    (page : packet.final = false → Linked cache slot host.ledger) :
    OnlyFor slot host.ledger host'.ledger ∧ Linked after slot host'.ledger := by
  have takes : ∀ {out}, TakesEvent slot packet input.inprg cache host out →
      isCommandState cache.state = true →
      OnlyFor slot host.ledger out.host.ledger ∧ Linked out.cache slot out.host.ledger := by
    intro out takes commands
    cases takes with
    | ignored idle =>
        rw [idle commands] at waits
        cases waits
    | handled _ _ handled =>
        cases last : packet.final with
        | true => exact handled.linked (final last).1 (final last).2
        | false =>
            obtain ⟨log, wait, handle⟩ := handled.page_kept last
            rw [log]
            exact ⟨OnlyFor.refl _ _, (page last).congr handled.sameWork.1 wait handle⟩
  cases step with
  | settled taken calm =>
      cases taken with
      | handled commands waiting handled => exact takes (.handled commands waiting handled) commands
      | ignored idle =>
          cases last : packet.final with
          | true =>
              obtain ⟨result, own⟩ := (final last).2
              rw [idle (commands_of_ownStatus own)] at waits
              cases waits
          | false => exact ⟨OnlyFor.refl _ _, page last⟩
  | @resent out last taken commands ret idle ever retried =>
      obtain ⟨only, here⟩ := takes taken commands
      obtain ⟨onlyLast, kept | ⟨_, _, waited⟩⟩ := retried.linked taken.sameWork.1 here
      · rw [ledger_of_log (countRetry_log state last.host)]
        exact ⟨only.trans onlyLast, kept⟩
      · rw [idle] at waited
        cases waited

/-! ## Runs -/

/-- The invariant of a run: slots and commands are linked, and the handles of
unanswered commands are apart. -/
structure Engine.InTouch (engine : Engine) : Prop where
  linked : engine.Linked
  distinct : DistinctHandles engine.host.ledger

/-- An occupied slot that waits owns the events with its handle. -/
theorem Engine.Linked.owns {engine : Engine} (linked : engine.Linked) {slot : Slot}
    (occupied : engine.occupied slot = true)
    (waits : (engine.cache slot).waitResponse = true) {packet : ConfigEvent}
    (under : packet.handle? = some (engine.cache slot).ccHandle) :
    engine.Owns packet slot := by
  obtain ⟨command, latest, _⟩ := (linked.used slot occupied).waiting waits
  exact ⟨command, _, under, latest⟩

/-- The owner of an event is an occupied slot that waits under its handle. -/
theorem Engine.Linked.owner {engine : Engine} (linked : engine.Linked) {slot : Slot}
    {packet : ConfigEvent} {handle : UInt32} (under : packet.handle? = some handle)
    (owns : engine.Owns packet slot) :
    engine.occupied slot = true ∧ (engine.cache slot).waitResponse = true ∧
      (engine.cache slot).ccHandle = handle := by
  obtain ⟨command, other, same, latest⟩ := owns
  rw [under] at same
  cases same
  have occupied : engine.occupied slot = true := by
    by_contra empty
    have none_ := (linked.vacant slot (by simpa using empty)).1
    rw [latest] at none_
    cases none_
  have here := linked.used slot occupied
  unfold Nwmng.Linked at here
  simp only [latest] at here
  exact ⟨occupied, here.1, here.2.1⟩

/-- No two slots own an event. -/
theorem Engine.InTouch.owner_unique {engine : Engine} (inTouch : engine.InTouch)
    {packet : ConfigEvent} {slot other : Slot} (first : engine.Owns packet slot)
    (second : engine.Owns packet other) : slot = other := by
  obtain ⟨_, handle, under, latest⟩ := first
  obtain ⟨_, same, underToo, latestToo⟩ := second
  rw [under] at underToo
  cases underToo
  exact outstanding_owner inTouch.distinct latest latestToo

/-- The slot that claims a claimable event: it owns the event and waits, or nobody
owns the event and the slot does nothing with it. -/
theorem Claimable.cases {engine : Engine} {packet : ConfigEvent}
    (claimable : Claimable engine packet) (linked : engine.Linked) :
    ∃ slot handle, packet.handle? = some handle ∧ engine.occupied slot = true ∧
      (engine.cache slot).ccHandle = handle ∧
      cacheFromCchandle engine packet = .ok slot ∧
      (((engine.cache slot).waitResponse = true ∧ engine.Owns packet slot) ∨
        ((engine.cache slot).waitResponse = false ∧
          (isCommandState (engine.cache slot).state = true →
            (engine.cache slot).everRetried = false) ∧
          ∀ other, ¬ engine.Owns packet other)) := by
  obtain ⟨handle, under, slot, first, fits⟩ := claimable
  refine ⟨slot, handle, under, first.1, first.2.1, first.claims linked.nodes under, ?_⟩
  have stores : packet.handle? = some (engine.cache slot).ccHandle := by
    rw [first.2.1]
    exact under
  cases waits : (engine.cache slot).waitResponse with
  | true => exact .inl ⟨rfl, linked.owns first.1 waits stores⟩
  | false =>
      rcases fits with waiting | ⟨calm, nobody⟩
      · rw [waits] at waiting
        cases waiting
      · refine .inr ⟨rfl, calm, fun other owns => ?_⟩
        obtain ⟨occupied, waiting, same⟩ := linked.owner under owns
        exact nobody other occupied waiting same

/-- A slot that does not wait and has no retry to drive does nothing with an event. -/
theorem EventStep.ignored {state : MngState} {slot : Slot} {packet : ConfigEvent}
    {input : EventInput} {cache after : ConfigCache} {host host' : Host}
    (step : EventStep state slot packet input cache host after host')
    (idle : cache.waitResponse = false)
    (calm : isCommandState cache.state = true → cache.everRetried = false) :
    after = cache ∧ host' = host := by
  have clash : ∀ {out}, TakesEvent slot packet input.inprg cache host out →
      out.cache = cache ∧ out.host = host := by
    intro out takes
    cases takes with
    | ignored _ => exact ⟨rfl, rfl⟩
    | handled _ waiting _ =>
        rw [idle] at waiting
        cases waiting
  cases step with
  | settled takes _ => exact clash takes
  | resent takes commands ret idle ever retried =>
      rw [(clash takes).1, calm commands] at ever
      cases ever

/-- A claimable event is routed as it should be. -/
theorem Engine.InTouch.routed {engine : Engine} (inTouch : engine.InTouch)
    {packet : ConfigEvent} (claimable : Claimable engine packet) (input : EventInput) :
    EventRouted engine packet input := by
  obtain ⟨slot, handle, under, occupied, stores, claims, fits⟩ :=
    claimable.cases inTouch.linked
  refine ⟨⟨slot, claims⟩, fun other owns => ?_, fun target other taken foreign => ?_⟩
  · rcases fits with ⟨_, owner⟩ | ⟨_, _, nobody⟩
    · rw [inTouch.owner_unique owns owner]
      exact claims
    · exact False.elim (nobody other owns)
  · obtain ⟨routed, cache, host, claimed, step, rfl⟩ := devConfigHdr_step taken
    rw [cacheFromCchandle_noteAnswer, claims] at claimed
    cases claimed
    by_cases same : other = slot
    · subst same
      rw [Engine.setCache_self]
      rcases fits with ⟨_, owner⟩ | ⟨idle, calm, _⟩
      · exact False.elim (foreign owner)
      · rw [noteAnswer_cache] at step
        exact (step.ignored idle calm).1
    · rw [Engine.setCache_other _ _ same]
      simp

/-- A claimable event keeps slots and commands linked. -/
theorem Engine.InTouch.receive {engine target : Engine} (inTouch : engine.InTouch)
    {packet : ConfigEvent} {input : EventInput} (claimable : Claimable engine packet)
    (sends : NcpSends engine (.receive packet input))
    (taken : linkRun engine (.receive packet input) = .ok target) : target.Linked := by
  have linked := inTouch.linked
  obtain ⟨slot, handle, under, occupied, stores, claims, fits⟩ := claimable.cases linked
  obtain ⟨routed, cache, host, claimed, step, rfl⟩ := devConfigHdr_step taken
  rw [cacheFromCchandle_noteAnswer, claims] at claimed
  cases claimed
  rw [noteAnswer_cache] at step
  have apart : ∀ other, ¬ engine.Owns packet other →
      outstanding other (engine.noteAnswer packet).host.ledger =
        outstanding other engine.host.ledger := by
    intro other foreign
    apply noteAnswer_outstanding under
    intro command latest
    exact foreign ⟨command, handle, under, latest⟩
  have others : OnlyFor slot engine.host.ledger (engine.noteAnswer packet).host.ledger := by
    intro other different
    apply apart
    intro owns
    rcases fits with ⟨_, owner⟩ | ⟨_, _, nobody⟩
    · exact different (inTouch.owner_unique owns owner)
    · exact nobody other owns
  have own := linked.used slot occupied
  have node := linked.nodes slot occupied
  have same : ∀ host, ({ engine.noteAnswer packet with host := host } : Engine) =
      { engine with host := host } := noteAnswer_host engine packet
  rw [same]
  rcases fits with ⟨waits, owner⟩ | ⟨idle, calm, nobody⟩
  · obtain ⟨command, latest, belongs⟩ := own.waiting waits
    -- the event answers the command that the slot has outstanding
    have answers : command.answeredBy packet = true := by
      obtain ⟨entry, member, entryUnder, entryAnswers⟩ := sends
      have here := outstanding_mem latest
      rw [under] at entryUnder
      have key := Option.some.inj entryUnder
      rw [stores] at here
      have unique := distinctHandles_unique inTouch.distinct here member key
      rw [← unique] at entryAnswers
      exact entryAnswers
    rw [stores] at latest
    have kept := step.linked waits ?_ ?_
    · apply linked.setCache occupied (others.trans kept.1) kept.2
      rw [step.sameNode]
      exact node
    · intro last
      rw [noteAnswer_final under last]
      obtain ⟨result, ownStatus⟩ := ownStatus_of_answeredBy answers last
      exact ⟨outstanding_answered_self latest, result, by rw [← belongs]; exact ownStatus⟩
    · intro more
      rw [noteAnswer_page more]
      exact own
  · obtain ⟨sameCache, sameHost⟩ := step.ignored idle calm
    rw [sameCache, sameHost]
    apply linked.setCache occupied others _ node
    apply linked_of_none _ idle
    rw [apart slot (nobody slot)]
    exact own.idle idle

/-- Steps keep the invariant, if the events are claimable. -/
theorem LinkStep.inTouch {source target : Engine} {op : EngineOp}
    (step : LinkStep source op target) (inTouch : source.InTouch)
    (claims : op.Claims source) : target.InTouch := by
  refine ⟨?_, step.distinct⟩
  cases op with
  | iterate now input =>
      refine accLoop_invariant ?_ ?_ ?_ inTouch.linked step.taken
      · intro input engine slot after linked occupied round
        exact round.linked linked occupied
      · intro engine type node rest slot linked _ free
        exact linked.load free node type _
      · intro engine stat linked
        exact ⟨linked.used, linked.nodes, linked.vacant⟩
  | receive packet input => exact inTouch.receive claims step.sends step.taken
  | outside host lists state =>
      have same : target = { source with host := host, lists := lists, state := state } := by
        have taken := step.taken
        cases taken
        rfl
      have log : host.ledger = source.host.ledger := ledger_of_log step.sends
      rw [same]
      refine ⟨fun slot used => ?_, inTouch.linked.nodes, fun slot empty => ?_⟩
      · change Nwmng.Linked _ slot host.ledger
        rw [log]
        exact inTouch.linked.used slot used
      · change outstanding slot host.ledger = none ∧ _
        rw [log]
        exact inTouch.linked.vacant slot empty

/-- **Events reach their owners** in every run with an NCP that keeps handles apart, if every
event meets the condition where it arrives.  A slot keeps the handle of its last command after
the answer, so the search may come to a slot that waits for nothing. -/
theorem events_routed_guarded {initial final : Engine} {past : List (Move Engine EngineOp)}
    (fresh : initial.Fresh) (unused : initial.host.log = [])
    (run : LinkRun initial past final) (guarded : Guarded EngineOp.Claims past) :
    (∀ move ∈ past, ∀ packet input, move.label = .receive packet input →
      EventRouted move.source packet input) ∧
    ∀ packet input, Claimable final packet → EventRouted final packet input := by
  have start : initial.InTouch := by
    have empty : initial.host.ledger = [] := by simp [Host.ledger, unused]
    refine ⟨⟨fun slot used => ?_, fun slot used => ?_, fun slot _ => ?_⟩, ?_⟩
    · rw [fresh.vacant slot] at used
      cases used
    · rw [fresh.vacant slot] at used
      cases used
    · rw [empty, fresh.2 slot]
      exact ⟨rfl, rfl⟩
    · rw [empty]
      trivial
  obtain ⟨sides, last⟩ := run.guarded_invariant
    (fun _ _ _ inTouch claims step => step.inTouch inTouch claims) start guarded
  refine ⟨fun move member packet input label => ?_, fun packet input claimable => ?_⟩
  · have claims := guarded move member
    rw [label] at claims
    exact (sides move member).1.routed claims input
  · exact last.routed claimable input

/-- The labels of a replay make a run with an NCP that keeps its handles apart, if they
do so at every move. -/
theorem linkRun_of_replays {initial : Engine} {labels : List EngineOp}
    {test : List (Move Engine EngineOp) → Engine → Bool}
    (passed : replays linkRun initial labels (fun past final =>
      past.all (fun move => decide (NcpSends move.source move.label) &&
        decide (DistinctHandles move.target.host.ledger)) && test past final) = true) :
    ∃ past final, LinkRun initial past final ∧ past.map Move.label = labels ∧
      test past final = true := by
  obtain ⟨past, final, run, same, both⟩ := execution_of_replays passed
  simp only [Bool.and_eq_true, List.all_eq_true, decide_eq_true_eq] at both
  refine ⟨past, final, run.of_moves fun move member => ?_, same, both.2⟩
  obtain ⟨sends, distinct⟩ := both.1 move member
  exact ⟨run.steps_taken move member, sends, distinct⟩

/-- A device is asked for its composition data and answers. -/
theorem events_routed_guarded_answer :
    ∃ past final, LinkRun (Engine.small (Node.plain 2)) past final ∧ past.length = 2 ∧
      ∀ move ∈ past, ∀ packet input, move.label = .receive packet input →
        EventRouted move.source packet input := by
  let labels : List EngineOp :=
    [.iterate 0 (RoundInput.all 0 (.taken 5 0) (.taken 5 0)),
      .receive (.dcdDataEnd 5 bgErrSuccess) { inprg := .taken 6 1, retry := .taken 6 1 }]
  have replayed : replays linkRun (Engine.small (Node.plain 2)) labels (fun past final =>
      past.all (fun move => decide (NcpSends move.source move.label) &&
        decide (DistinctHandles move.target.host.ledger)) &&
      decide (Guarded EngineOp.Claims past)) = true := by
    decide +kernel
  obtain ⟨past, final, run, same, guarded⟩ := linkRun_of_replays replayed
  refine ⟨past, final, run, by simpa [labels] using congrArg List.length same, ?_⟩
  exact (events_routed_guarded (Engine.small_fresh _) rfl run
    (of_decide_eq_true guarded)).1

/-- A device answers after the guard timer made the engine ask again: its answer has
the handle of the first request, which no slot stores any more, and the program
aborts. -/
theorem late_answer_aborts :
    ∃ past final, (Engine.small (Node.plain 2)).Fresh ∧
      LinkRun (Engine.small (Node.plain 2)) past final ∧
      past.map Move.label =
        [.iterate 0 (RoundInput.all 0 (.taken 5 0) (.taken 5 0)),
          .iterate 1000 (RoundInput.all 1000 (.taken 6 1000) (.taken 6 1000))] ∧
      ∀ input, NcpSends final (.receive (.dcdDataEnd 5 bgErrSuccess) input) ∧
        devConfigHdr (.dcdDataEnd 5 bgErrSuccess) input final = .error .eventUnclaimed ∧
        ¬ EventRouted final (.dcdDataEnd 5 bgErrSuccess) input := by
  have replayed : replays linkRun (Engine.small (Node.plain 2))
      [.iterate 0 (RoundInput.all 0 (.taken 5 0) (.taken 5 0)),
        .iterate 1000 (RoundInput.all 1000 (.taken 6 1000) (.taken 6 1000))]
      (fun past final =>
        past.all (fun move => decide (NcpSends move.source move.label) &&
          decide (DistinctHandles move.target.host.ledger)) &&
        (decide (NcpSends final (.receive (.dcdDataEnd 5 bgErrSuccess) default)) &&
          match cacheFromCchandle final (.dcdDataEnd 5 bgErrSuccess) with
          | .error failure => decide (failure = .eventUnclaimed)
          | .ok _ => false)) = true := by
    decide +kernel
  obtain ⟨past, final, run, same, late⟩ := linkRun_of_replays replayed
  simp only [Bool.and_eq_true, decide_eq_true_eq] at late
  obtain ⟨sends, aborts⟩ := late
  have unclaimed : cacheFromCchandle final (.dcdDataEnd 5 bgErrSuccess) =
      .error .eventUnclaimed := by
    split at aborts
    · rename_i failure fails
      rw [fails, of_decide_eq_true aborts]
    · cases aborts
  refine ⟨past, final, Engine.small_fresh _, run, same, fun input => ⟨sends, ?_, ?_⟩⟩
  · simp only [devConfigHdr, unclaimed]
    rfl
  · intro routed
    obtain ⟨slot, claimed⟩ := routed.claimed
    rw [unclaimed] at claimed
    cases claimed

end Nwmng
