/-
Module: Nwmng.Config.Flags
Purpose: When no configuration slot is out of memory while it waits, so that the
assertions about the two flags hold.
Trusted boundary: none
Main exports:
  ConfigCache.FlagsApart, RoundApart, EventApart, flags_apart_guarded,
  flags_clash_after_resend
-/
import Nwmng.Config.Asserts
import Nwmng.Config.EngineRun

namespace Nwmng

open Transition Fallible

/-- The flags of a slot: out of memory excludes waiting, an armed timer means
waiting, and only a state that sends commands runs out of memory. -/
structure ConfigCache.FlagsApart (cache : ConfigCache) : Prop where
  apart : cache.oom = true → cache.waitResponse = false
  armed : cache.expired ≠ 0 → cache.waitResponse = true
  commands : cache.oom = true → isCommandState cache.state = true

/-- Every slot keeps its flags apart, and vacant slots are reset.  The flags of a single slot are
kept apart by every callback; that vacant slots are reset is what a slot starts from when it is
loaded. -/
structure Engine.FlagsApart (engine : Engine) : Prop where
  flags : ∀ slot, (engine.cache slot).FlagsApart
  vacant : ∀ slot, engine.occupied slot = false → engine.cache slot = .reset

/-!
## The conditions

The conditions are about the answers of the NCP at a few moments, and about events that reach a
slot without a command.  Each of them can be read off the state before the step and its inputs.
-/

/-- A round keeps the flags of its slot apart: the NCP has memory for the command that
is resent after the guard timer expired; and where the retry for lack of memory of a
slot that is to leave its state finds no memory, or nothing to send, the NCP does not
take the first command of the state the slot then enters. -/
def RoundApart (input : Slot → RoundInput) (engine : Engine) (slot : Slot) : Prop :=
  let cache := engine.cache slot
  let host := engine.host
  (cache.guardExpired (input slot).now = true → isCommandState cache.state = true →
    (input slot).retry.result = bgErrOutOfMemory → NoCommand cache.state cache host) ∧
  (cache.oom = true → cache.waitResponse = false → cache.nextState ≠ some cache.state →
    ((input slot).retry.result = bgErrOutOfMemory ∨ NoCommand cache.state cache host) →
    ∀ state, firstOpen cache host = some state → isCommandState state = true →
      (input slot).entry.result = bgErrSuccess → NoCommand state cache host)

instance (input : Slot → RoundInput) (engine : Engine) (slot : Slot) :
    Decidable (RoundApart input engine slot) := by
  unfold RoundApart
  infer_instance

/-- An event keeps the flags of its slot apart: a slot that does not wait, was
retried and is out of memory is not resent with success. -/
def EventApart (_packet : ConfigEvent) (input : EventInput) (engine : Engine)
    (slot : Slot) : Prop :=
  let cache := engine.cache slot
  isCommandState cache.state = true → cache.waitResponse = false →
    cache.everRetried = true → cache.oom = true →
    input.retry.result = bgErrSuccess → NoCommand cache.state cache engine.host

instance (packet : ConfigEvent) (input : EventInput) (engine : Engine) (slot : Slot) :
    Decidable (EventApart packet input engine slot) := by
  unfold EventApart
  infer_instance

/-! ## Sending -/

theorem ConfigCache.FlagsApart.cleared {cache : ConfigCache} (oom : cache.oom = false)
    (disarmed : cache.expired = 0) : cache.FlagsApart where
  apart memory := by rw [oom] at memory; cases memory
  armed armed := False.elim (armed disarmed)
  commands memory := by rw [oom] at memory; cases memory

theorem ConfigCache.FlagsApart.waiting {cache : ConfigCache} (oom : cache.oom = false)
    (waits : cache.waitResponse = true) : cache.FlagsApart where
  apart memory := by rw [oom] at memory; cases memory
  armed _ := waits
  commands memory := by rw [oom] at memory; cases memory

/-- A slot that does not wait has no armed timer. -/
theorem ConfigCache.FlagsApart.disarmed {cache : ConfigCache} (own : cache.FlagsApart)
    (idle : cache.waitResponse = false) : cache.expired = 0 := by
  by_contra armed
  rw [own.armed armed] at idle
  cases idle

theorem ConfigCache.errSetTo_apart (final : AccState) (cache : ConfigCache)
    (errcode : UInt16) (errType : BgerrType) :
    (cache.errSetTo final errcode errType).FlagsApart := by
  cases errType <;> exact .cleared rfl rfl

/-- An attempt for a slot that does not wait keeps its flags apart, if the command is
not taken while the slot is out of memory. -/
theorem Attempt.apart {state : AccState} {slot : Slot} {answer : CmdRsp}
    {cache : ConfigCache} {host : Host} {out : Outcome}
    (attempt : Attempt state slot answer cache host out) (own : cache.FlagsApart)
    (idle : cache.waitResponse = false) (commands : isCommandState cache.state = true)
    (free : answer.result = bgErrSuccess → ¬ NoCommand state cache host →
      cache.oom = false) : out.cache.FlagsApart := by
  cases attempt with
  | accepted command vnm success exists_one _ =>
      exact .waiting (free success exists_one) rfl
  | outOfMemory command vnm full _ =>
      exact ⟨fun _ => idle, own.armed, fun _ => commands⟩
  | refused command vnm error => exact ConfigCache.errSetTo_apart _ _ _ _
  | unknown _ => exact own

/-- What a resend does to the flags, for each of its reasons. -/
theorem Retried.apart {state : AccState} {reason : RetryReason} {slot : Slot}
    {answer : CmdRsp} {cache : ConfigCache} {host : Host} {out : Outcome}
    (retried : Retried state reason slot answer cache host out) (own : cache.FlagsApart)
    (commands : isCommandState cache.state = true)
    (timeout : reason = .onTimeoutEm → cache.waitResponse = false ∧
      (answer.result = bgErrSuccess → ¬ NoCommand state cache host → cache.oom = false))
    (memory : reason = .onOomEm → cache.waitResponse = false)
    (expired : reason = .onGuardTimerExpiredEm → cache.waitResponse = true ∧
      (answer.result = bgErrOutOfMemory → NoCommand state cache host)) :
    out.cache.FlagsApart := by
  cases retried with
  | unsent attempt failed =>
      cases attempt with
      | accepted _ _ _ _ _ => exact False.elim (failed rfl)
      | outOfMemory command vnm full exists_one =>
          have idle : cache.waitResponse = false := by
            cases reason with
            | onTimeoutEm => exact (timeout rfl).1
            | onOomEm => exact memory rfl
            | onGuardTimerExpiredEm =>
                exact False.elim (exists_one ((expired rfl).2 full))
          exact ⟨fun _ => idle, own.armed, fun _ => commands⟩
      | refused command vnm error => exact ConfigCache.errSetTo_apart _ _ _ _
      | unknown _ => exact own
  | resent attempt sent finishes =>
      cases attempt with
      | accepted command vnm success exists_one _ =>
          cases reason with
          | onTimeoutEm =>
              obtain ⟨_, _, rfl⟩ := finishes
              exact .waiting ((timeout rfl).2 success exists_one) rfl
          | onOomEm =>
              obtain ⟨_, rfl⟩ := finishes
              exact .waiting rfl rfl
          | onGuardTimerExpiredEm =>
              obtain ⟨_, rfl⟩ := finishes
              have free : cache.oom = false := by
                by_contra oom
                have idle := own.apart (by simpa using oom)
                rw [(expired rfl).1] at idle
                cases idle
              exact .cleared free rfl
      | _ => cases sent

/-!
## Rounds

The first half of a round may set the flag for missing memory again.  The second half must then
not be reached, or it must not wait: this is where a resend out of memory goes wrong.
-/

/-- The first half of a round keeps the flags apart. -/
theorem ExceptionStep.apart {state : MngState} {slot : Slot} {input : RoundInput}
    {cache after : ConfigCache} {host host' : Host}
    (exception : ExceptionStep state slot input cache host after host')
    (own : cache.FlagsApart)
    (resend : cache.guardExpired input.now = true → isCommandState cache.state = true →
      input.retry.result = bgErrOutOfMemory → NoCommand cache.state cache host) :
    after.FlagsApart := by
  cases exception with
  | quiet _ => exact own
  | memory commands _ oom idle retried =>
      exact retried.apart own commands (by simp) (fun _ => idle) (by simp)
  | expired commands late retried =>
      have armed : cache.expired ≠ 0 := by
        simp only [ConfigCache.guardExpired, Bool.and_eq_true, bne_iff_ne] at late
        exact late.1
      apply retried.apart own commands (by simp) (by simp)
      exact fun _ => ⟨own.armed armed, resend late commands⟩

/-- A slot that leaves its state out of memory has failed to resend for that
reason. -/
theorem ExceptionStep.short {state : MngState} {slot : Slot} {input : RoundInput}
    {cache after : ConfigCache} {host host' : Host}
    (exception : ExceptionStep state slot input cache host after host')
    (own : cache.FlagsApart) (leaving : after.stays = false) (oom : after.oom = true)
    (resend : cache.guardExpired input.now = true → isCommandState cache.state = true →
      input.retry.result = bgErrOutOfMemory → NoCommand cache.state cache host) :
    cache.oom = true ∧ cache.waitResponse = false ∧
      cache.nextState ≠ some cache.state ∧ after.nextState = cache.nextState ∧
      (input.retry.result = bgErrOutOfMemory ∨ NoCommand cache.state cache host) := by
  simp only [ConfigCache.stays, Bool.or_eq_false_iff, beq_eq_false_iff_ne] at leaving
  cases exception with
  | quiet calm =>
      have quiet := (calm (.inl (own.commands oom))).2
      rw [oom] at quiet
      cases quiet
  | expired commands late retried =>
      have armed : cache.expired ≠ 0 := by
        simp only [ConfigCache.guardExpired, Bool.and_eq_true, bne_iff_ne] at late
        exact late.1
      have waits := own.armed armed
      cases retried with
      | unsent attempt failed =>
          cases attempt with
          | accepted _ _ _ _ _ => exact False.elim (failed rfl)
          | outOfMemory _ _ full exists_one =>
              exact False.elim (exists_one (resend late commands full))
          | refused _ _ _ => cases oom
          | unknown _ =>
              rw [waits] at leaving
              cases leaving.1
      | resent attempt sent finishes =>
          obtain ⟨_, rfl⟩ := finishes
          cases attempt with
          | accepted _ _ _ _ _ => cases leaving.1
          | _ => cases sent
  | memory commands inTime memory idle retried =>
      cases retried with
      | unsent attempt failed =>
          cases attempt with
          | accepted _ _ _ _ _ => exact False.elim (failed rfl)
          | outOfMemory _ _ full _ => exact ⟨memory, idle, leaving.2, rfl, .inl full⟩
          | refused _ _ _ => cases oom
          | unknown none_left => exact ⟨memory, idle, leaving.2, rfl, .inr none_left⟩
      | resent attempt sent finishes =>
          obtain ⟨_, rfl⟩ := finishes
          cases oom

/-- Arriving in a state that goes on keeps the flags apart. -/
theorem Arrived.apart {targets : List AccStateOps} {slot : Slot} {answer : CmdRsp}
    {cache after : ConfigCache} {host host' : Host}
    (arrived : Arrived targets slot answer cache host after host')
    (own : cache.FlagsApart) (leaving : cache.stays = false)
    (leaves : leaveTargets cache = .ok targets)
    (free : ∀ state, firstOpen cache host = some state → isCommandState state = true →
      answer.result = bgErrSuccess → ¬ NoCommand state cache host → cache.oom = false)
    (working : after.ended = false) : after.FlagsApart := by
  simp only [ConfigCache.stays, Bool.or_eq_false_iff] at leaving
  cases arrived with
  | nowhere _ => exact own
  | refused split skipped entry ret conclusion => cases working
  | entered split skipped entry ret =>
      cases entry with
      | skipped _ => rcases ret with ret | ret <;> cases ret
      | attempted commands here opened attempt _ =>
          have first := firstOpen_of_skipped leaves here split skipped opened
          cases attempt with
          | accepted command vnm success exists_one _ =>
              exact .waiting (free _ first commands success exists_one) rfl
          | outOfMemory command vnm full _ =>
              exact ⟨fun _ => leaving.1, own.armed, fun _ => commands⟩
          | refused _ _ _ => rcases ret with ret | ret <;> cases ret
          | unknown _ => rcases ret with ret | ret <;> cases ret
      | noCommand here opened none_left =>
          refine ⟨own.apart, own.armed, fun _ => ?_⟩
          rw [none_left.1]
          rfl
      | ended final _ =>
          rw [final] at working
          cases working
      | removed final _ =>
          rw [final] at working
          cases working

theorem ConfigCache.reset_apart : ConfigCache.reset.FlagsApart := .cleared rfl rfl

/-- Writing the cache of an occupied slot. -/
theorem Engine.FlagsApart.setCache {engine : Engine} (apart : engine.FlagsApart)
    {slot : Slot} (occupied : engine.occupied slot = true) {cache : ConfigCache}
    (kept : cache.FlagsApart) (host : Host) :
    (({ engine with host := host }).setCache slot cache).FlagsApart where
  flags other := by
    by_cases same : other = slot
    · rw [same, Engine.setCache_self]
      exact kept
    · rw [Engine.setCache_other _ _ same]
      exact apart.flags other
  vacant other empty := by
    have different : other ≠ slot := by
      rintro rfl
      have used : engine.occupied other = false := empty
      rw [occupied] at used
      cases used
    rw [Engine.setCache_other _ _ different]
    exact apart.vacant other empty

/-- A round under its condition keeps the flags of every slot apart. -/
theorem RoundStep.apart {input : Slot → RoundInput} {engine after : Engine} {slot : Slot}
    (step : RoundStep (input slot) engine slot after) (before : engine.FlagsApart)
    (occupied : engine.occupied slot = true) (admitted : RoundApart input engine slot) :
    after.FlagsApart := by
  obtain ⟨resend, entry⟩ := admitted
  have own := before.flags slot
  cases step with
  | stays exception still => exact before.setCache occupied (exception.apart own resend) _
  | @moves middle cache between host targets exception leaving leaves arrived working =>
      apply before.setCache occupied
      have middleApart := exception.apart own resend
      apply arrived.apart middleApart leaving leaves _ working
      intro state first commands success exists_one
      by_contra oom
      have memory : middle.oom = true := by simpa using oom
      obtain ⟨was, idle, moves, next, short⟩ :=
        exception.short own leaving memory resend
      rw [firstOpen_congr exception.sameWork next exception.db_eq] at first
      have none_left := entry was idle moves short state first commands success
      exact exists_one (none_left.of_same exception.sameWork.2 exception.db_eq)
  | @ends middle cache between host targets exception leaving leaves arrived done =>
      constructor
      · intro other
        by_cases same : other = slot
        · rw [same]
          change ((engine.setCache slot .reset).cache slot).FlagsApart
          rw [Engine.setCache_self]
          exact ConfigCache.reset_apart
        · change ((engine.setCache slot .reset).cache other).FlagsApart
          rw [Engine.setCache_other _ _ same]
          exact before.flags other
      · intro other empty
        by_cases same : other = slot
        · rw [same]
          exact Engine.setCache_self engine slot .reset
        · change (engine.setCache slot .reset).cache other = .reset
          rw [Engine.setCache_other _ _ same]
          apply before.vacant
          have apart : slot.val ≠ other.val := fun equal => same (Fin.ext equal.symm)
          simpa [releaseSlot, Engine.occupied, Engine.setCache, apart] using empty

/-! ## Events -/

/-- A slot that waits and takes an event keeps its flags apart; it is not out of
memory, unless it waits for nothing. -/
theorem Handled.apart {slot : Slot} {packet : ConfigEvent} {answer : CmdRsp}
    {cache : ConfigCache} {host : Host} {out : Outcome}
    (handled : Handled cache.state slot packet answer cache host out)
    (own : cache.FlagsApart) (waiting : cache.waitResponse = true)
    (commands : isCommandState cache.state = true) :
    out.cache.FlagsApart ∧ (out.ret = .suc → out.cache.oom = false) := by
  have free : cache.oom = false := by
    by_contra oom
    have idle := own.apart (by simpa using oom)
    rw [waiting] at idle
    cases idle
  have calm : ∀ after : ConfigCache, after.oom = false → after.expired = 0 →
      after.FlagsApart ∧ (AccRet.suc = AccRet.suc → after.oom = false) :=
    fun after oom disarmed => ⟨.cleared oom disarmed, fun _ => oom⟩
  cases handled with
  | unexpected _ _ => exact ⟨.cleared free rfl, fun _ => free⟩
  | page _ _ stored =>
      rw [storePage_eq stored]
      exact calm _ free rfl
  | otherPage _ => exact calm _ free rfl
  | timeout own =>
      rcases timedOut_cases (retryTimesOf cache.state) (giveUpOf cache.state)
        cache.answered with ⟨_, eq⟩ | ⟨_, _, eq⟩ | ⟨_, _, eq⟩
      · rw [eq]
        exact calm _ free rfl
      · rw [eq]
        unfold giveUpOf
        split
        · exact calm _ free rfl
        · exact calm _ rfl rfl
      · rw [eq]
        exact calm _ free rfl
  | failed code own error => exact calm _ rfl rfl
  | resumed reads here own =>
      unfold afterDcd
      split
      · split <;> exact calm _ free rfl
      · exact calm _ free rfl
  | removed _ _ => exact calm _ free rfl
  | finished _ _ _ _ _ _ _ _ _ => exact calm _ free rfl
  | continued iterators ever remaining _ _ _ _ attempt _ =>
      have kept : (cache.going iterators ever remaining).FlagsApart := .cleared free rfl
      refine ⟨attempt.apart kept rfl commands fun _ _ => free, fun ret => ?_⟩
      cases attempt with
      | accepted _ _ _ _ _ => exact free
      | outOfMemory _ _ _ _ => cases ret
      | refused _ _ _ => cases ret
      | unknown _ => cases ret

/-- An event under its condition keeps the flags of its slot apart. -/
theorem EventStep.apart {state : MngState} {slot : Slot} {packet : ConfigEvent}
    {input : EventInput} {cache after : ConfigCache} {host host' : Host}
    (step : EventStep state slot packet input cache host after host')
    (own : cache.FlagsApart)
    (admitted : isCommandState cache.state = true → cache.waitResponse = false →
      cache.everRetried = true → cache.oom = true →
      input.retry.result = bgErrSuccess → NoCommand cache.state cache host) :
    after.FlagsApart := by
  cases step with
  | settled takes calm =>
      cases takes with
      | ignored _ => exact own
      | handled commands waiting handled => exact (handled.apart own waiting commands).1
  | @resent out last takes commands ret idle ever retried =>
      have work := takes.sameWork
      have lastCommands : isCommandState out.cache.state = true := by
        rw [work.1]
        exact commands
      cases takes with
      | ignored _ =>
          apply retried.apart own commands _ (by simp) (by simp)
          intro _
          refine ⟨idle, fun success exists_one => ?_⟩
          by_contra oom
          exact exists_one (admitted commands idle ever (by simpa using oom) success)
      | handled _ waiting handled =>
          obtain ⟨kept, free⟩ := handled.apart own waiting commands
          apply retried.apart kept lastCommands _ (by simp) (by simp)
          exact fun _ => ⟨idle, fun _ _ => free ret⟩

/-! ## Runs -/

/-- No slot is out of memory while it waits.  It is the part of the invariant that the two
assertions of the retry paths rest on. -/
def Engine.FlagsExclusive (engine : Engine) : Prop :=
  ∀ slot, ¬ ((engine.cache slot).oom = true ∧ (engine.cache slot).waitResponse = true)

theorem Engine.FlagsApart.exclusive {engine : Engine} (apart : engine.FlagsApart) :
    engine.FlagsExclusive := by
  rintro slot ⟨oom, waits⟩
  rw [(apart.flags slot).apart oom] at waits
  cases waits

theorem Engine.Fresh.apart {engine : Engine} (fresh : engine.Fresh) :
    engine.FlagsApart where
  flags slot := by
    rw [fresh.2 slot]
    exact ConfigCache.reset_apart
  vacant slot _ := fresh.2 slot

/-- Loading a node into a vacant slot keeps the flags apart. -/
theorem Engine.FlagsApart.load {engine : Engine} (apart : engine.FlagsApart)
    {slot : Slot} (free : engine.occupied slot = false) (node : NodeId) (type : LoadType)
    (lists : Lists) :
    ({ cacheItemLoad engine slot node type with lists := lists } : Engine).FlagsApart where
  flags other := by
    by_cases same : other = slot
    · rw [same, cache_load_self, apart.vacant slot free]
      cases type <;> exact .cleared rfl rfl
    · rw [cache_load_other engine same]
      exact apart.flags other
  vacant other empty := by
    rw [occupied_load, Bool.or_eq_false_iff, decide_eq_false_iff_not] at empty
    rw [cache_load_other engine empty.1]
    exact apart.vacant other empty.2

/-- A round in the middle of a call of the engine keeps the flags apart. -/
theorem engineSlot_apart {input : Slot → RoundInput} {before after : Engine}
    {slot : Slot} {rest : List Slot}
    (scheduled : Scheduled Engine.FlagsApart (slot :: rest) before)
    (admitted : RoundApart input before slot)
    (step : engineSlot (input slot) before slot = .ok after) :
    Scheduled Engine.FlagsApart rest after := by
  have kept := (engineSlot_step step).apart scheduled.holds scheduled.occupied admitted
  exact scheduled.round (engineSlot_step step) kept

theorem EngineOp.apart {source target : Engine} {op : EngineOp}
    (apart : source.FlagsApart) (guards : op.Guards RoundApart EventApart source)
    (taken : op.run source = .ok target) : target.FlagsApart := by
  refine EngineOp.guarded_step ?_ ?_ ?_ ?_ apart guards taken
  · intro input engine slot after apart occupied admitted step
    exact step.apart apart occupied admitted
  · intro packet input engine slot cache host apart routed admitted step
    obtain ⟨_, _, occupied, _⟩ := cacheFromCchandle_eq routed
    exact apart.setCache occupied (step.apart (apart.flags slot) admitted) host
  · intro engine type node rest slot apart _ free
    exact apart.load free node type _
  · intro engine host lists state apart
    exact ⟨apart.flags, apart.vacant⟩

/-- A step under its condition does not fail the assertions about the flags. -/
theorem EngineOp.steady {source : Engine} {op : EngineOp} (apart : source.FlagsApart)
    (guards : op.Guards RoundApart EventApart source) : Steady (op.run source) := by
  cases op with
  | iterate now input =>
      simp only [run, accLoop]
      cases prepares : accPrepare now source with
      | none => simp
      | some prepared =>
          have ready : prepared.FlagsApart := by
            refine accPrepare_invariant ?_ ?_ apart prepares
            · intro engine type node rest slot apart _ free
              exact apart.load free node type _
            · intro engine stat apart
              exact ⟨apart.flags, apart.vacant⟩
          simp only [configEngine, failsOnly_bind, failsOnly_ite, failsOnly_ok,
            failsOnly_error, implies_true, true_and]
          refine ⟨fun failure fails => ?_, fun _ _ _ => by decide⟩
          have start : Scheduled Engine.FlagsApart (usedSlots prepared.used) prepared :=
            ⟨ready, nodup_usedSlots, fun slot member => mem_usedSlots.mp member⟩
          obtain ⟨before, slot, rest, scheduled, _, failed⟩ :=
            foldlM_guarded_error (fun _ _ _ _ => engineSlot_apart) start
              (guards prepared prepares) fails
          exact engineSlot_steady (input slot) (scheduled.holds.flags slot).apart failure failed
  | receive packet input => exact devConfigHdr_steady packet input source
  | outside host lists state => simp [run]

/-- **The flags stay apart** in a run under the conditions, and the next step under its condition
fails neither `ASSERT(!WAIT_RESPONSE(cache))` nor `ASSERT(OOM(cache))`.  The conditions are about
commands that are sent again and find the NCP without memory once more. -/
theorem flags_apart_guarded {initial final : Engine} {past : List (Move Engine EngineOp)}
    (fresh : initial.Fresh) (run : EngineRun initial past final)
    (guarded : Guarded (EngineOp.Guards RoundApart EventApart) past) :
    (∀ move ∈ past, move.source.FlagsExclusive ∧ move.target.FlagsExclusive) ∧
      final.FlagsExclusive ∧
      ∀ op : EngineOp, op.Guards RoundApart EventApart final →
        op.run final ≠ .error .waitingWhileOom ∧ op.run final ≠ .error .retryWithoutOom := by
  have carried := run.guarded_invariant
    (fun _ _ _ apart guards taken => EngineOp.apart apart guards taken) fresh.apart guarded
  obtain ⟨sides, last⟩ := carried
  refine ⟨fun move member => ?_, last.exclusive, fun op guards => ?_⟩
  · have both := sides move member
    exact ⟨both.1.exclusive, both.2.exclusive⟩
  · have steady := EngineOp.steady last guards
    constructor
    · intro fails
      exact (steady _ fails).1 rfl
    · intro fails
      exact (steady _ fails).2 rfl

/-- The NCP has no memory when a device is asked, and has some a round later. -/
theorem flags_apart_guarded_memory :
    ∃ past final, EngineRun (Engine.small (Node.plain 2)) past final ∧
      past.length = 2 ∧
      (∀ move ∈ past, move.source.FlagsExclusive ∧ move.target.FlagsExclusive) ∧
      final.FlagsExclusive := by
  let labels : List EngineOp :=
    [.iterate 0 (RoundInput.all 0 (.outOfMemory 0) (.outOfMemory 0)),
      .iterate 1 (RoundInput.all 1 (.taken 5 1) (.taken 6 1))]
  have replayed : replays EngineOp.run (Engine.small (Node.plain 2)) labels
      (fun past _ => decide (Guarded (EngineOp.Guards RoundApart EventApart) past)) =
      true := by
    decide +kernel
  obtain ⟨past, final, run, same, guarded⟩ := execution_of_replays replayed
  refine ⟨past, final, run, by simpa [labels] using congrArg List.length same, ?_⟩
  have both :=
    flags_apart_guarded (Engine.small_fresh _) run (of_decide_eq_true guarded)
  exact ⟨both.1, both.2.1⟩

/-- The answer of a device is lost, and the NCP has no memory when the request is sent
again: the slot waits and is out of memory, and the next round fails its assertion. -/
theorem flags_clash_after_resend :
    ∃ past final, (Engine.small (Node.plain 2)).Fresh ∧
      EngineRun (Engine.small (Node.plain 2)) past final ∧
      past.map Move.label =
        [.iterate 0 (RoundInput.all 0 (.taken 5 0) (.taken 5 0)),
          .iterate 1000 (RoundInput.all 1000 (.outOfMemory 1000) (.outOfMemory 1000)),
          .receive (.dcdData 5 1 (fun _ => 0) 0)
            { inprg := .taken 5 1000, retry := .taken 5 1000 }] ∧
      ¬ final.FlagsExclusive ∧
      (EngineOp.iterate 1001 (RoundInput.all 1001 (.taken 6 1001) (.taken 6 1001))).run final
        = .error .waitingWhileOom := by
  have replayed : replays EngineOp.run (Engine.small (Node.plain 2))
      [.iterate 0 (RoundInput.all 0 (.taken 5 0) (.taken 5 0)),
        .iterate 1000 (RoundInput.all 1000 (.outOfMemory 1000) (.outOfMemory 1000)),
        .receive (.dcdData 5 1 (fun _ => 0) 0)
          { inprg := .taken 5 1000, retry := .taken 5 1000 }]
      (fun _ final => (final.cache 0).oom && (final.cache 0).waitResponse &&
        match (EngineOp.iterate 1001
          (RoundInput.all 1001 (.taken 6 1001) (.taken 6 1001))).run final with
        | .error failure => decide (failure = .waitingWhileOom)
        | .ok _ => false) = true := by
    decide +kernel
  obtain ⟨past, final, run, same, clash⟩ := execution_of_replays replayed
  simp only [Bool.and_eq_true] at clash
  obtain ⟨both, aborts⟩ := clash
  refine ⟨past, final, Engine.small_fresh _, run, same, fun apart => apart 0 both, ?_⟩
  split at aborts
  · rename_i failure fails
    rw [fails, of_decide_eq_true aborts]
  · cases aborts

end Nwmng
