/-
Module: Nwmng.Config.Liveness
Purpose: When no configuration slot is ever dead: every occupied slot waits under
an armed guard timer, is to be retried, or is to leave its state.
Trusted boundary: none
Main exports:
  ConfigCache.Alive, RoundRevives, EventRevives, slots_alive_guarded,
  slots_die_after_resend
-/
import Nwmng.Config.EngineRun

namespace Nwmng

open Transition Fallible

/-- The next round of the engine does something for the slot.  It sends the command again that
the NCP had no memory for, or it enters the state that the slot was left to go to. -/
def ConfigCache.Pending (cache : ConfigCache) : Prop :=
  cache.oom = true ∨ cache.nextState ≠ some cache.state

instance (cache : ConfigCache) : Decidable cache.Pending :=
  inferInstanceAs (Decidable (_ ∨ _))

/-- Something will revive the slot: its guard timer, or the next round.  A slot without either is
dead: no event belongs to it and no timer runs, so it keeps its node for good. -/
def ConfigCache.Alive (cache : ConfigCache) : Prop :=
  (cache.waitResponse = true ∧ cache.expired ≠ 0) ∨ cache.Pending

def Engine.Alive (engine : Engine) : Prop :=
  ∀ slot, engine.occupied slot = true → (engine.cache slot).Alive

/-!
## The conditions

A slot dies when the last thing that would revive it is taken away and nothing takes its place.
The conditions name the moments at which the program takes it away: a timer that is cleared
behind a resend, and an event that disarms it.
-/

/-- A round revives its slot.  A resend that succeeds after the guard timer expired
disarms the timer again, so only a slot with more to do survives it; and no slot
may enter the setting of features without a command for its node. -/
def RoundRevives (input : Slot → RoundInput) (engine : Engine) (slot : Slot) : Prop :=
  let cache := engine.cache slot
  (cache.guardExpired (input slot).now = true → isCommandState cache.state = true →
    (input slot).retry.result = bgErrSuccess →
      NoCommand cache.state cache engine.host ∨ cache.Pending) ∧
  (cache.stays = false → firstOpen cache engine.host = some .setconfigEm →
    NoCommand .setconfigEm cache engine.host → cache.oom = true)

instance (input : Slot → RoundInput) (engine : Engine) (slot : Slot) :
    Decidable (RoundRevives input engine slot) := by
  unfold RoundRevives
  infer_instance

/-- The values of `Err` from which a node with composition data neither resumes
nor goes on. -/
def StuckErr (err : BitVec 32) : Prop :=
  AccState.getDcdEm.errorBit < err ∧ err < AccState.addappkeyEm.errorBit

instance (err : BitVec 32) : Decidable (StuckErr err) :=
  inferInstanceAs (Decidable (_ ∧ _))

/-- An event revives the slot it is routed to.  The guard timer is disarmed by every
event, so one that is not the answer kills a slot that has nothing else to do; so
do a success for a node with a stuck error, and a timeout with nothing to resend. -/
def EventRevives (packet : ConfigEvent) (_input : EventInput) (engine : Engine)
    (slot : Slot) : Prop :=
  let cache := engine.cache slot
  isCommandState cache.state = true → cache.waitResponse = true →
    (ownStatus cache.state packet = none → cache.Pending) ∧
    (cache.state = .getDcdEm → ownStatus cache.state packet = some bgErrSuccess →
      (∃ id, cache.node = some id ∧ StuckErr (engine.host.db.heap id).err) →
      cache.Pending) ∧
    (ownStatus cache.state packet = some bgErrTimeout →
      NoCommand cache.state cache engine.host →
      (cache.everRetried = false ∨ cache.remainingRetry ≠ 0) → cache.Pending)

instance (packet : ConfigEvent) (input : EventInput) (engine : Engine) (slot : Slot) :
    Decidable (EventRevives packet input engine slot) := by
  unfold EventRevives
  infer_instance

/-! ## What revives -/

/-- Setting the guard timer arms it. -/
theorem ConfigCache.timerSet_armed (cache : ConfigCache) (timeout : Option Timeout)
    (now : Nat) : (cache.timerSet timeout now).expired ≠ 0 := by
  simp only [timerSet, configNoRspTimeout]
  omega

/-- After an error the slot leaves for another state. -/
theorem ConfigCache.errSetTo_alive {final : AccState} {cache : ConfigCache}
    {errcode : UInt16} {errType : BgerrType} (other : final ≠ cache.state) :
    (cache.errSetTo final errcode errType).Alive := by
  refine .inr (.inr ?_)
  cases errType <;>
  · intro same
    exact other (Option.some.inj same)

/-- An attempt revives the slot, unless there was nothing to attempt. -/
theorem Attempt.alive {state : AccState} {slot : Slot} {answer : CmdRsp}
    {cache : ConfigCache} {host : Host} {out : Outcome}
    (attempt : Attempt state slot answer cache host out)
    (commands : isCommandState state = true) (own : cache.state = state)
    (known : out.ret ≠ .notfnd) : out.cache.Alive := by
  cases attempt with
  | accepted command vnm success _ _ => exact .inl ⟨rfl, ConfigCache.timerSet_armed _ _ _⟩
  | outOfMemory command vnm full => exact .inr (.inl rfl)
  | refused command vnm error =>
      apply ConfigCache.errSetTo_alive
      change finalOf state ≠ cache.state
      rw [own]
      exact finalOf_ne commands
  | unknown _ => exact False.elim (known rfl)

/-- A resend for a timeout or for lack of memory revives the slot, unless there was
nothing to resend. -/
theorem Retried.alive {state : AccState} {reason : RetryReason} {slot : Slot}
    {answer : CmdRsp} {cache : ConfigCache} {host : Host} {out : Outcome}
    (retried : Retried state reason slot answer cache host out)
    (commands : isCommandState state = true) (own : cache.state = state)
    (inTime : reason ≠ .onGuardTimerExpiredEm) (known : out.ret ≠ .notfnd) :
    out.cache.Alive := by
  cases retried with
  | unsent attempt _ => exact attempt.alive commands own known
  | resent attempt sent finishes =>
      cases attempt with
      | accepted command vnm success _ _ =>
          have armed : ∀ cache : ConfigCache, cache.waitResponse = true →
              cache.expired ≠ 0 → cache.Alive := fun _ waits armed => .inl ⟨waits, armed⟩
          cases reason with
          | onTimeoutEm =>
              obtain ⟨_, _, rfl⟩ := finishes
              exact armed _ rfl (ConfigCache.timerSet_armed _ _ _)
          | onOomEm =>
              obtain ⟨_, rfl⟩ := finishes
              exact armed _ rfl (ConfigCache.timerSet_armed _ _ _)
          | onGuardTimerExpiredEm => exact False.elim (inTime rfl)
      | _ => cases sent

/-!
## Rounds

A slot that has changed its state sent a command on entry, was refused one, or has ended.  In all
three cases something is there to revive it in the next round.
-/

/-- The first half of a round keeps the slot alive. -/
theorem ExceptionStep.alive {state : MngState} {slot : Slot} {input : RoundInput}
    {cache after : ConfigCache} {host host' : Host}
    (exception : ExceptionStep state slot input cache host after host')
    (alive : cache.Alive)
    (revives : cache.guardExpired input.now = true → isCommandState cache.state = true →
      input.retry.result = bgErrSuccess →
        NoCommand cache.state cache host ∨ cache.Pending) : after.Alive := by
  cases exception with
  | quiet _ => exact alive
  | @memory out commands _ _ _ retried =>
      by_cases unknown : out.ret = .notfnd
      · rw [(retried.unknown unknown).1]
        exact alive
      · exact retried.alive commands rfl (by simp) unknown
  | @expired out commands late retried =>
      by_cases unknown : out.ret = .notfnd
      · rw [(retried.unknown unknown).1]
        exact alive
      · cases retried with
        | unsent attempt _ => exact attempt.alive commands rfl unknown
        | resent attempt sent finishes =>
            cases attempt with
            | accepted command vnm success exists_one _ =>
                obtain ⟨_, rfl⟩ := finishes
                -- the timer has been disarmed: the slot needs something else to do
                rcases revives late commands success with none_left | pending
                · exact False.elim (exists_one none_left)
                · exact .inr pending
            | _ => cases sent

/-- A slot that arrives in a state that goes on is alive there. -/
theorem Arrived.alive {targets : List AccStateOps} {slot : Slot} {answer : CmdRsp}
    {cache after : ConfigCache} {host host' : Host}
    (arrived : Arrived targets slot answer cache host after host')
    (leaving : cache.stays = false) (leaves : leaveTargets cache = .ok targets)
    (known : firstOpen cache host = some .setconfigEm →
      NoCommand .setconfigEm cache host → cache.oom = true)
    (working : after.ended = false) : after.Alive := by
  cases arrived with
  | nowhere _ =>
      simp only [ConfigCache.stays, Bool.or_eq_false_iff, beq_eq_false_iff_ne] at leaving
      exact .inr (.inr leaving.2)
  | refused split skipped entry ret conclusion => cases working
  | entered split skipped entry ret =>
      cases entry with
      | skipped _ => rcases ret with ret | ret <;> cases ret
      | attempted commands here opened attempt _ =>
          cases attempt with
          | accepted command vnm success _ _ =>
              exact .inl ⟨rfl, ConfigCache.timerSet_armed _ _ _⟩
          | outOfMemory command vnm full => exact .inr (.inl rfl)
          | refused _ _ _ => rcases ret with ret | ret <;> cases ret
          | unknown _ => rcases ret with ret | ret <;> cases ret
      | noCommand here opened none_left =>
          have first := firstOpen_of_skipped leaves here split skipped opened
          rw [none_left.1] at first
          have memory := known first ⟨rfl, none_left.2⟩
          exact .inr (.inl memory)
      | ended final _ =>
          rw [final] at working
          cases working
      | removed final _ =>
          rw [final] at working
          cases working

/-- A round that revives its slot keeps it alive. -/
theorem RoundStep.alive {input : Slot → RoundInput} {engine after : Engine} {slot : Slot}
    (step : RoundStep (input slot) engine slot after) (alive : engine.Alive)
    (revives : RoundRevives input engine slot) : after.Alive := by
  obtain ⟨resend, entry⟩ := revives
  intro other used
  by_cases same : other = slot
  · subst same
    cases step with
    | stays exception still =>
        rw [Engine.setCache_self]
        exact exception.alive (alive other used) resend
    | @moves middle cache between host targets exception leaving leaves arrived working =>
        rw [Engine.setCache_self]
        apply arrived.alive leaving leaves _ working
        intro first none_left
        rcases exception.leaving leaving with rfl | ⟨memory, _⟩ | ⟨final, isFinal, next, _⟩
        · have back : between.db = engine.host.db := exception.db_eq
          rw [firstOpen_congr ⟨rfl, rfl⟩ rfl back] at first
          exact entry leaving first (none_left.of_same rfl back.symm)
        · exact memory
        · exact False.elim (firstOpen_final next isFinal first)
    | ends exception leaving leaves arrived done =>
        simp [releaseSlot, Engine.occupied, Engine.setCache] at used
  · obtain ⟨cache, bit⟩ := step.other same
    rw [cache]
    rw [bit] at used
    exact alive other used

/-! ## Events -/

/-- The errors from which there is neither a way to resume nor a way on. -/
theorem stuckErr_of_unresumable {err : BitVec 32}
    (some_ : AccState.getDcdEm.errorBit < err) (low : err < AccState.endEm.errorBit)
    (unresumable : resumeState err = none) : StuckErr err := by
  refine ⟨some_, ?_⟩
  have small : err.toNat < 256 := by
    simpa [AccState.errorBit, AccState.code] using BitVec.lt_def.mp low
  have few : ∀ value < 256, resumeState (BitVec.ofNat 32 value) = none → value < 8 := by
    decide +kernel
  have back : err = BitVec.ofNat 32 err.toNat := by simp
  have least := few err.toNat small (by rw [← back]; exact unresumable)
  simpa [AccState.errorBit, AccState.code, BitVec.lt_def] using least

/-- A slot that has read composition data goes on, unless its error is stuck. -/
theorem afterDcd_alive {err : BitVec 32} {cache : ConfigCache}
    (reads : cache.state = .getDcdEm) (revives : StuckErr err → cache.Pending) :
    (afterDcd err cache).Alive := by
  unfold afterDcd
  by_cases resumes : (decide (AccState.getDcdEm.errorBit < err) &&
      decide (err < AccState.endEm.errorBit)) = true
  · rw [if_pos resumes]
    simp only [Bool.and_eq_true, decide_eq_true_eq] at resumes
    cases found : resumeState err with
    | none => exact .inr (revives (stuckErr_of_unresumable resumes.1 resumes.2 found))
    | some state =>
        refine .inr (.inr ?_)
        change some state ≠ some cache.state
        rw [reads]
        intro same
        have member := List.mem_of_find?_eq_some found
        simp only [Option.some.inj same, List.mem_cons, List.not_mem_nil, or_false,
          reduceCtorEq] at member
  · rw [if_neg resumes]
    exact .inr (.inr (by simp))

/-- A slot that waits and takes an event is alive afterwards, or has a timeout to
resend for. -/
theorem Handled.alive {slot : Slot} {packet : ConfigEvent} {answer : CmdRsp}
    {cache : ConfigCache} {host : Host} {out : Outcome}
    (handled : Handled cache.state slot packet answer cache host out)
    (commands : isCommandState cache.state = true)
    (foreign : ownStatus cache.state packet = none → cache.Pending)
    (stuck : cache.state = .getDcdEm →
      ownStatus cache.state packet = some bgErrSuccess →
      (∃ id, cache.node = some id ∧ StuckErr (host.db.heap id).err) → cache.Pending)
    (calm : out.ret = .suc → out.cache.waitResponse = false →
      out.cache.everRetried = false) : out.cache.Alive := by
  cases handled with
  | unexpected none_ _ => exact .inr (foreign none_)
  | page reads first stored =>
      have pending := foreign (by rw [reads, first]; rfl)
      rw [storePage_eq stored]
      exact .inr pending
  | otherPage page =>
      apply (foreign _).elim (fun memory => .inr (.inl memory)) fun next => .inr (.inr next)
      cases state : cache.state <;> cases packet <;> simp_all [isPageFor, ownStatus]
  | timeout own =>
      have quiet := calm rfl
      rcases timedOut_cases (retryTimesOf cache.state) (giveUpOf cache.state)
        cache.answered with ⟨_, eq⟩ | ⟨_, _, eq⟩ | ⟨ever, _, eq⟩
      · simp only [eq] at quiet
        exact absurd (quiet rfl) (by simp)
      · have other := (giveUpOf_eq commands cache.answered).1
        have work := (giveUpOf_eq commands cache.answered).2.2
        rw [eq]
        refine .inr (.inr ?_)
        rw [work.1]
        exact other
      · simp only [eq] at quiet
        rw [quiet rfl] at ever
        cases ever
  | failed code own error =>
      apply ConfigCache.errSetTo_alive
      exact finalOf_ne commands
  | resumed reads here own =>
      refine afterDcd_alive ?_ ?_
      · exact reads
      intro isStuck
      exact stuck reads own ⟨_, here, isStuck⟩
  | removed removes own => exact .inr (.inr (by simp))
  | finished _ _ _ _ _ _ _ _ _ => exact .inr (.inr (by simp))
  | continued _ _ _ _ _ _ _ attempt known => exact attempt.alive commands rfl known

/-- A slot with nothing to resend for a timeout has something else to do. -/
theorem Handled.pending {slot : Slot} {packet : ConfigEvent} {answer : CmdRsp}
    {cache : ConfigCache} {host : Host} {out : Outcome}
    (handled : Handled cache.state slot packet answer cache host out)
    (commands : isCommandState cache.state = true)
    (ret : out.ret = .suc) (idle : out.cache.waitResponse = false)
    (none_left : NoCommand cache.state out.cache out.host)
    (revives : ownStatus cache.state packet = some bgErrTimeout →
      NoCommand cache.state cache host →
      (cache.everRetried = false ∨ cache.remainingRetry ≠ 0) → cache.Pending) :
    out.cache.Pending := by
  have setting := none_left.1
  have work := handled.sameWork
  cases handled with
  | unexpected _ _ => cases ret
  | page reads _ _ =>
      rw [reads] at setting
      cases setting
  | otherPage page =>
      rw [setting] at page
      cases packet <;> cases page
  | timeout own =>
      obtain ⟨_, id, here, left⟩ := none_left
      have before : NoCommand cache.state cache host :=
        ⟨setting, id, work.2.symm.trans here, left⟩
      have revived := revives own before
      rcases timedOut_cases (retryTimesOf cache.state) (giveUpOf cache.state)
        cache.answered with ⟨ever, eq⟩ | ⟨_, _, eq⟩ | ⟨_, left, eq⟩
      · rw [eq]
        exact revived (.inl ever)
      · rw [eq] at work ⊢
        have other := (giveUpOf_eq commands cache.answered).1
        exact .inr (by rw [work.1]; exact other)
      · rw [eq]
        exact revived (.inr left)
  | failed code own error =>
      refine .inr ?_
      intro same
      exact finalOf_ne commands (Option.some.inj same)
  | resumed reads _ _ =>
      rw [reads] at setting
      cases setting
  | removed removes _ =>
      rw [removes] at setting
      cases setting
  | finished _ _ _ _ _ _ _ _ _ => exact .inr (by simp)
  | continued _ _ _ _ _ _ _ attempt _ =>
      cases attempt with
      | accepted _ _ _ _ _ => cases idle
      | outOfMemory _ _ _ => cases ret
      | refused _ _ _ => cases ret
      | unknown _ => cases ret

/-- An event that revives its slot keeps it alive. -/
theorem EventStep.alive {state : MngState} {slot : Slot} {packet : ConfigEvent}
    {input : EventInput} {cache after : ConfigCache} {host host' : Host}
    (step : EventStep state slot packet input cache host after host')
    (alive : cache.Alive)
    (revives : isCommandState cache.state = true → cache.waitResponse = true →
      (ownStatus cache.state packet = none → cache.Pending) ∧
      (cache.state = .getDcdEm → ownStatus cache.state packet = some bgErrSuccess →
        (∃ id, cache.node = some id ∧ StuckErr (host.db.heap id).err) →
        cache.Pending) ∧
      (ownStatus cache.state packet = some bgErrTimeout →
        NoCommand cache.state cache host →
        (cache.everRetried = false ∨ cache.remainingRetry ≠ 0) → cache.Pending)) :
    after.Alive := by
  cases step with
  | settled takes calm =>
      cases takes with
      | ignored _ => exact alive
      | handled commands waiting handled =>
          obtain ⟨foreign, stuck, _⟩ := revives commands waiting
          exact handled.alive commands foreign stuck (calm commands)
  | @resent out last takes commands ret idle ever retried =>
      have work := takes.sameWork
      by_cases unknown : last.ret = .notfnd
      · obtain ⟨same, none_left⟩ := retried.unknown unknown
        rw [same]
        cases takes with
        | ignored _ => exact alive
        | handled _ waiting handled =>
            exact .inr (handled.pending commands ret idle none_left
              (revives commands waiting).2.2)
      · exact retried.alive commands work.1 (by simp) unknown

/-! ## Runs -/

/-- A freshly loaded slot is to leave its state. -/
theorem ConfigCache.loaded_alive (cache : ConfigCache) (node : NodeId) (type : LoadType) :
    (cache.loaded node type).Alive := by
  refine .inr (.inr ?_)
  cases type <;> simp [loaded]

theorem Engine.Fresh.alive {engine : Engine} (fresh : engine.Fresh) : engine.Alive := by
  intro slot used
  rw [fresh.vacant slot] at used
  cases used

/-- **No slot is ever dead** in a run whose rounds and events revive their slots.  The condition
is asked of each step separately; without it a slot can come to wait without a timer, and keeps
its node for good. -/
theorem slots_alive_guarded {initial final : Engine} {past : List (Move Engine EngineOp)}
    (fresh : initial.Fresh) (run : EngineRun initial past final)
    (guarded : Guarded (EngineOp.Guards RoundRevives EventRevives) past) :
    (∀ move ∈ past, move.source.Alive ∧ move.target.Alive) ∧ final.Alive := by
  refine run.guarded_invariant ?_ fresh.alive guarded
  intro source op target alive guards taken
  refine EngineOp.guarded_step ?_ ?_ ?_ ?_ alive guards taken
  · intro input engine slot after alive _ revives step
    exact step.alive alive revives
  · intro packet input engine slot cache host alive routed revives step other used
    by_cases same : other = slot
    · subst same
      rw [Engine.setCache_self]
      exact step.alive (alive other used) revives
    · rw [Engine.setCache_other _ _ same]
      exact alive other used
  · intro engine type node rest slot alive _ _ other used
    by_cases same : other = slot
    · rw [same, cache_load_self]
      exact ConfigCache.loaded_alive _ _ _
    · rw [cache_load_other engine same]
      rw [occupied_load, decide_eq_false same, Bool.false_or] at used
      exact alive other used
  · intro engine host lists state alive
    exact alive

/-- A device is configured: its composition data is read, and the sync ends. -/
theorem slots_alive_guarded_plain :
    ∃ past final, EngineRun (Engine.small (Node.plain 2)) past final ∧
      past.length = 3 ∧
      (∀ move ∈ past, move.source.Alive ∧ move.target.Alive) ∧ final.Alive := by
  let answer := CmdRsp.taken 5 0
  let labels : List EngineOp :=
    [.iterate 0 (RoundInput.all 0 answer answer),
      .receive (.dcdDataEnd 5 bgErrSuccess) { inprg := answer, retry := answer },
      .iterate 1 (RoundInput.all 1 answer answer)]
  have replayed : replays EngineOp.run (Engine.small (Node.plain 2)) labels
      (fun past _ => decide (Guarded (EngineOp.Guards RoundRevives EventRevives) past)) =
      true := by
    decide +kernel
  obtain ⟨past, final, run, same, guarded⟩ := execution_of_replays replayed
  refine ⟨past, final, run, by simpa [labels] using congrArg List.length same, ?_⟩
  exact slots_alive_guarded (Engine.small_fresh _) run (of_decide_eq_true guarded)

/-- The answer to the request for composition data is lost.  The guard timer expires,
and the request is sent again with success: the slot then waits without a timer. -/
theorem slots_die_after_resend :
    ∃ past final, (Engine.small (Node.plain 2)).Fresh ∧
      EngineRun (Engine.small (Node.plain 2)) past final ∧
      past.map Move.label =
        [.iterate 0 (RoundInput.all 0 (.taken 5 0) (.taken 5 0)),
          .iterate 1000 (RoundInput.all 1000 (.taken 6 1000) (.taken 6 1000))] ∧
      ¬ final.Alive := by
  have replayed : replays EngineOp.run (Engine.small (Node.plain 2))
      [.iterate 0 (RoundInput.all 0 (.taken 5 0) (.taken 5 0)),
        .iterate 1000 (RoundInput.all 1000 (.taken 6 1000) (.taken 6 1000))]
      (fun _ final => final.occupied 0 && (final.cache 0).expired == 0 &&
        !(final.cache 0).oom && (final.cache 0).nextState == some (final.cache 0).state) =
      true := by
    decide +kernel
  obtain ⟨past, final, run, same, dead⟩ := execution_of_replays replayed
  refine ⟨past, final, Engine.small_fresh _, run, same, fun alive => ?_⟩
  simp only [Bool.and_eq_true, beq_iff_eq, Bool.not_eq_true'] at dead
  rcases alive 0 dead.1.1.1 with ⟨_, armed⟩ | oom | moves
  · exact armed dead.1.1.2
  · rw [dead.1.2] at oom
    cases oom
  · exact moves dead.2

end Nwmng
