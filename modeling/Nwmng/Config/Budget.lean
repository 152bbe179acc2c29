/-
Module: Nwmng.Config.Budget
Purpose: The retry budget of the commands of a slot: how many timeouts a command survives, what a
retry for a timeout follows, and when its assertion holds.
Trusted boundary: none
Main exports:
  ConfigCache.InBudget, TimeoutCharged, retry_budget_guarded, full_model_takes_budget
-/
import Nwmng.Config.Asserts
import Nwmng.Config.SlotRun

namespace Nwmng

open Transition Fallible

/-- The slot has given its command up: it neither waits nor resends, and leaves its state for the
final one with an error, or for the end of a removal. -/
structure ConfigCache.GivenUp (cache : ConfigCache) : Prop where
  idle : cache.waitResponse = false
  fresh : cache.everRetried = false
  memory : cache.oom = false
  disarmed : cache.expired = 0
  leads : (cache.state = .rmEm ∧ cache.nextState = none) ∨
    (cache.nextState = some (finalOf cache.state) ∧ cache.failed = true)

/-- The timeouts of a command and what is left of its budget make up the whole budget, for as
long as the slot waits; a command without timeouts has not touched it. -/
structure ConfigCache.InBudget (cache : ConfigCache) (spent : Nat) : Prop where
  retrying : cache.everRetried = true → cache.waitResponse = true ∧
    isCommandState cache.state = true ∧
    cache.remainingRetry.toNat + spent = (retryTimesOf cache.state).toNat
  fresh : cache.everRetried = false → spent = 0 ∨
    (spent ≤ (retryTimesOf cache.state).toNat + 1 ∧ cache.GivenUp)

/-- A status that a waiting slot takes charges its own command: after a timeout that is not the
last one the command is sent again, and the NCP has memory for it; the last timeout of a removal
meets a slot that is not out of memory; and a model without room for more addresses has had no
timeout. -/
def TimeoutCharged (packet : ConfigEvent) (input : EventInput) (cache : ConfigCache)
    (host : Host) : Prop :=
  cache.waitResponse = true →
    (ownStatus cache.state packet = some bgErrTimeout →
      if cache.everRetried = true ∧ cache.remainingRetry = 0 then
        cache.state = .rmEm → cache.oom = false
      else input.retry.result ≠ bgErrOutOfMemory ∧ ¬ NoCommand cache.state cache host) ∧
    (cache.state = .addsubEm →
      ownStatus cache.state packet = some bgErrMeshFoundationInsufficientResources →
      cache.everRetried = false)

instance timeoutChargedDecidable (packet : ConfigEvent) (input : EventInput)
    (cache : ConfigCache) (host : Host) : Decidable (TimeoutCharged packet input cache host) := by
  unfold TimeoutCharged
  infer_instance

/-- The condition on a step of the run of a slot. -/
def SlotOp.Charged (source : SlotState) : SlotOp → Prop
  | .event _ packet input =>
      source.freed = false → TimeoutCharged packet input source.cache source.host
  | _ => True

instance slotOpChargedDecidable (source : SlotState) :
    (op : SlotOp) → Decidable (op.Charged source)
  | .event _ packet input =>
      inferInstanceAs (Decidable
        (source.freed = false → TimeoutCharged packet input source.cache source.host))
  | .round .. => isTrue trivial
  | .outside .. => isTrue trivial

/-- The event makes `dev_config_hdr` call the retry function for a timeout. -/
def retriesOnTimeout (slot : Slot) (packet : ConfigEvent) (input : EventInput)
    (cache : ConfigCache) (host : Host) : Bool :=
  match asGet cache.state with
  | [] => false
  | ops :: _ =>
      match eventInprg slot packet input ops cache host with
      | .ok out =>
          ops.retry.isSome && (decide (out.ret = .suc) && !out.cache.waitResponse &&
            out.cache.everRetried)
      | .error _ => false

/-!
## Keeping the account

The timeouts of a command and what is left of its budget add up to the whole budget.  The sum is
kept by everything that leaves the two alone, and by a resend, which moves one from the second to
the first.
-/

section

variable {cache after : ConfigCache} {host host' : Host} {spent : Nat}

theorem ConfigCache.InBudget.zero (fresh : cache.everRetried = false) : cache.InBudget 0 where
  retrying ever := by rw [fresh] at ever; cases ever
  fresh _ := .inl rfl

theorem ConfigCache.GivenUp.inBudget (gone : cache.GivenUp)
    (within : spent ≤ (retryTimesOf cache.state).toNat + 1) : cache.InBudget spent where
  retrying ever := by rw [gone.fresh] at ever; cases ever
  fresh _ := .inr ⟨within, gone⟩

theorem ConfigCache.InBudget.within (own : cache.InBudget spent) :
    spent ≤ (retryTimesOf cache.state).toNat + 1 := by
  cases ever : cache.everRetried with
  | false =>
      rcases own.fresh ever with none_ | ⟨within, _⟩
      · omega
      · exact within
  | true =>
      have whole := (own.retrying ever).2.2
      omega

/-- A slot that is armed, waits or is out of memory has not given up. -/
theorem ConfigCache.InBudget.untouched (own : cache.InBudget spent)
    (busy : cache.waitResponse = true ∨ cache.oom = true ∨ cache.expired ≠ 0)
    (fresh : cache.everRetried = false) : spent = 0 := by
  rcases own.fresh fresh with none_ | ⟨_, gone⟩
  · exact none_
  · rcases busy with waits | memory | armed
    · rw [gone.idle] at waits
      cases waits
    · rw [gone.memory] at memory
      cases memory
    · exact (armed gone.disarmed).elim

/-- What leaves state, budget and waiting as they are, keeps the account. -/
theorem ConfigCache.InBudget.kept (own : cache.InBudget spent)
    (busy : cache.waitResponse = true ∨ cache.oom = true ∨ cache.expired ≠ 0)
    (state : after.state = cache.state) (ever : after.everRetried = cache.everRetried)
    (remaining : after.remainingRetry = cache.remainingRetry)
    (waits : cache.waitResponse = true → after.waitResponse = true) : after.InBudget spent where
  retrying retried := by
    rw [ever] at retried
    have before := own.retrying retried
    rw [state, remaining]
    exact ⟨waits before.1, before.2⟩
  fresh fresh := .inl (own.untouched busy (ever ▸ fresh))

/-! ## Sending -/

/-- Recording an error gives the command up. -/
theorem ConfigCache.errSetTo_givenUp (cache : ConfigCache) (code : UInt16)
    (origin : BgerrType) : (errSetTo (finalOf cache.state) cache code origin).GivenUp where
  idle := rfl
  fresh := rfl
  memory := rfl
  disarmed := by cases origin <;> rfl
  leads := by
    rw [errSetTo_state]
    exact .inr ⟨rfl, errSetTo_failed _ cache code origin⟩

/-- An attempt touches no budget, unless it gives the command up. -/
theorem Attempt.budget {slot : Slot} {answer : CmdRsp} {out : Outcome}
    (attempt : Attempt cache.state slot answer cache host out) :
    (out.ret = .bgapi ∧ out.cache.GivenUp) ∨
      (out.cache.everRetried = cache.everRetried ∧
        out.cache.remainingRetry = cache.remainingRetry ∧
        (cache.waitResponse = true → out.cache.waitResponse = true)) := by
  cases attempt with
  | accepted command vnm _ _ _ => exact .inr ⟨rfl, rfl, fun _ => rfl⟩
  | outOfMemory command vnm _ _ _ => exact .inr ⟨rfl, rfl, id⟩
  | refused command vnm _ _ =>
      exact .inl ⟨rfl, ConfigCache.errSetTo_givenUp { cache with vnm := vnm } _ _⟩
  | unknown _ => exact .inr ⟨rfl, rfl, id⟩

theorem Attempt.ever {state : AccState} {slot : Slot} {answer : CmdRsp} {out : Outcome}
    (attempt : Attempt state slot answer cache host out) (fresh : cache.everRetried = false) :
    out.cache.everRetried = false := by
  cases attempt with
  | refused _ _ _ _ => rfl
  | _ => exact fresh

/-! ## Rounds -/

/-- A slot that was retried keeps waiting. -/
theorem ConfigCache.InBudget.idle_fresh (own : cache.InBudget spent)
    (idle : cache.waitResponse = false) : cache.everRetried = false := by
  cases ever : cache.everRetried with
  | false => rfl
  | true =>
      have waits := (own.retrying ever).1
      rw [idle] at waits
      cases waits

/-- A resend that no timeout drives keeps the account. -/
theorem Retried.inBudget {reason : RetryReason} {slot : Slot} {answer : CmdRsp} {out : Outcome}
    (retried : Retried cache.state reason slot answer cache host out)
    (untimed : reason ≠ .onTimeoutEm)
    (busy : cache.waitResponse = true ∨ cache.oom = true ∨ cache.expired ≠ 0)
    (own : cache.InBudget spent) : out.cache.InBudget spent := by
  have same := retried.sameWork.1
  cases retried with
  | unsent attempt failed =>
      rcases attempt.budget with ⟨_, gone⟩ | ⟨ever, remaining, waits⟩
      · apply gone.inBudget
        rw [same]
        exact own.within
      · exact own.kept busy same ever remaining waits
  | resent attempt sent finishes =>
      cases attempt with
      | accepted command vnm _ _ _ =>
          cases reason with
          | onTimeoutEm => exact (untimed rfl).elim
          | onOomEm =>
              obtain ⟨_, rfl⟩ := finishes
              exact own.kept busy rfl rfl rfl fun _ => rfl
          | onGuardTimerExpiredEm =>
              obtain ⟨_, rfl⟩ := finishes
              exact own.kept busy rfl rfl rfl fun _ => rfl
      | _ => cases sent

theorem ExceptionStep.inBudget {manager : MngState} {slot : Slot} {input : RoundInput}
    (exception : ExceptionStep manager slot input cache host after host')
    (own : cache.InBudget spent) : after.InBudget spent := by
  cases exception with
  | quiet _ => exact own
  | expired _ late retried =>
      have armed : cache.expired ≠ 0 := by
        intro disarmed
        simp [ConfigCache.guardExpired, disarmed] at late
      exact retried.inBudget (by decide) (.inr (.inr armed)) own
  | memory _ _ memory _ retried =>
      exact retried.inBudget (by decide) (.inr (.inl memory)) own

/-- A slot without a timeout enters a state without one. -/
theorem Arrived.fresh {targets : List AccStateOps} {slot : Slot} {answer : CmdRsp}
    (arrived : Arrived targets slot answer cache host after host')
    (fresh : cache.everRetried = false) : after.everRetried = false := by
  have enters : ∀ {ops : AccStateOps} {out : Outcome},
      Entered ops.state slot answer cache host out → out.cache.everRetried = false := by
    intro ops out entry
    cases entry with
    | attempted _ _ _ attempt _ => exact attempt.ever fresh
    | _ => exact fresh
  cases arrived with
  | nowhere _ => exact fresh
  | entered _ _ entry _ => exact enters entry
  | refused _ _ entry _ _ => exact enters entry

/-!
## Events

Only a timeout is charged.  It either drives a retry while there is some budget, or it is the
last one and the slot gives its command up; one status breaks the account, that of a model
without room, which ends the command but not its budget.
-/

/-- A timeout that leaves the command some budget.  The budget that is left and the timeouts that
were spent add up to the number of retries of the state: the equation that the induction over a
run carries. -/
structure TimeoutDriven (packet : ConfigEvent) (input : EventInput) (cache : ConfigCache)
    (host : Host) (spent : Nat) (out : Outcome) : Prop where
  waits : cache.waitResponse = true
  timeout : ownStatus cache.state packet = some bgErrTimeout
  same : cache.SameWork out.cache
  frame : out.host = host
  ret : out.ret = .suc
  idle : out.cache.waitResponse = false
  ever : out.cache.everRetried = true
  left : out.cache.remainingRetry ≠ 0
  whole : out.cache.remainingRetry.toNat + spent = (retryTimesOf cache.state).toNat
  memory : input.retry.result ≠ bgErrOutOfMemory
  known : ¬ NoCommand cache.state cache host

theorem tally_timeout {packet : ConfigEvent} (waits : cache.waitResponse = true)
    (timeout : ownStatus cache.state packet = some bgErrTimeout) :
    tally cache packet spent = spent + 1 := by
  simp [tally, waits, timeout]

theorem tally_other {packet : ConfigEvent} {result : UInt16} (waits : cache.waitResponse = true)
    (own : ownStatus cache.state packet = some result) (fine : result ≠ bgErrTimeout) :
    tally cache packet spent = 0 := by
  simp [tally, waits, own, fine]

theorem tally_foreign {packet : ConfigEvent} (foreign : ownStatus cache.state packet = none) :
    tally cache packet spent = spent := by
  simp [tally, foreign]

theorem ownStatus_page {state : AccState} {packet : ConfigEvent}
    (page : isPageFor state packet = true) : ownStatus state packet = none := by
  cases state <;> cases packet <;> first | rfl | cases page

/-- Only the states that send commands wait for a status. -/
theorem ownStatus_commands {state : AccState} {packet : ConfigEvent} {result : UInt16}
    (status : ownStatus state packet = some result) : isCommandState state = true := by
  revert status
  cases state <;> simp [ownStatus, isCommandState]

/-- The next command of a state starts without a timeout, if a model without room for more
addresses has had none. -/
theorem BudgetStep.fresh {state : AccState} {packet : ConfigEvent} {result : UInt16} {ever : Bool}
    {remaining : UInt8} (budget : BudgetStep state result cache ever remaining)
    (status : ownStatus state packet = some result)
    (passes : state = .addsubEm →
      ownStatus state packet = some bgErrMeshFoundationInsufficientResources →
      cache.everRetried = false) : ever = false := by
  rcases budget with ⟨fresh, _⟩ | ⟨subscribes, full, same, _⟩
  · exact fresh
  · rw [same]
    exact passes subscribes (full ▸ status)

/-- A timeout either drives a retry, or is the last one. -/
theorem timedOut_budget {packet : ConfigEvent} {input : EventInput}
    (commands : isCommandState cache.state = true) (waits : cache.waitResponse = true)
    (timeout : ownStatus cache.state packet = some bgErrTimeout) (own : cache.InBudget spent)
    (charged : TimeoutCharged packet input cache host) :
    let out : Outcome :=
      { ret := .suc
        cache := timedOut (retryTimesOf cache.state) (giveUpOf cache.state) cache.answered
        host := host }
    TimeoutDriven packet input cache host spent out ∨
      (out.cache.InBudget (spent + 1) ∧ out.cache.everRetried = false) := by
  have charge := (charged waits).1 timeout
  rcases timedOut_cases (retryTimesOf cache.state) (giveUpOf cache.state) cache.answered with
    ⟨fresh, same⟩ | ⟨ever, empty, same⟩ | ⟨ever, left, same⟩
  · -- the first timeout: the whole budget is left
    have none_ : spent = 0 := own.untouched (.inl waits) fresh
    have first : cache.everRetried = false := fresh
    rw [if_neg (by simp [first])] at charge
    have positive : retryTimesOf cache.state ≠ 0 := by
      unfold retryTimesOf
      split <;> decide
    dsimp only
    rw [same]
    exact .inl ⟨waits, timeout, ⟨rfl, rfl⟩, rfl, rfl, rfl, rfl, positive, by simp [none_],
      charge.1, charge.2⟩
  · -- the last one: the slot gives up
    have whole := (own.retrying ever).2.2
    have spentAll : cache.remainingRetry = 0 := empty
    rw [if_pos ⟨ever, empty⟩] at charge
    rw [spentAll] at whole
    have gone : (giveUpOf cache.state cache.answered.retryClear).GivenUp := by
      unfold giveUpOf
      by_cases removes : cache.state = .rmEm
      · rw [if_pos removes]
        exact ⟨rfl, rfl, charge removes, rfl, .inl ⟨removes, rfl⟩⟩
      · rw [if_neg removes]
        have final : finalOf cache.answered.retryClear.state = .endEm := by
          change finalOf cache.state = .endEm
          simp [finalOf, removes]
        have recorded := ConfigCache.errSetTo_givenUp cache.answered.retryClear bgErrTimeout
          .bgeventEm
        rw [final] at recorded
        exact recorded
    have sameState : (giveUpOf cache.state cache.answered.retryClear).state = cache.state :=
      (giveUpOf_eq commands cache.answered).2.2.1
    dsimp only
    rw [same]
    refine .inr ⟨gone.inBudget ?_, gone.fresh⟩
    rw [sameState]
    have nothing : (0 : UInt8).toNat = 0 := rfl
    omega
  · have whole := (own.retrying ever).2.2
    have enough : cache.remainingRetry ≠ 0 := left
    rw [if_neg (by simp [enough])] at charge
    dsimp only
    rw [same]
    exact .inl ⟨waits, timeout, ⟨rfl, rfl⟩, rfl, rfl, rfl, ever, left, whole, charge.1,
      charge.2⟩

/-- What an event makes of the account, before the retry that it may drive. -/
theorem TakesEvent.budget {slot : Slot} {packet : ConfigEvent} {input : EventInput}
    {out : Outcome} (takes : TakesEvent slot packet input.inprg cache host out)
    (own : cache.InBudget spent) (charged : TimeoutCharged packet input cache host) :
    TimeoutDriven packet input cache host spent out ∨
      (out.cache.InBudget (tally cache packet spent) ∧
        (out.ret = .suc → out.cache.waitResponse = false → out.cache.everRetried = false)) := by
  cases takes with
  | ignored idle =>
      refine .inr ⟨?_, fun _ free => own.idle_fresh free⟩
      unfold tally
      by_cases waits : cache.waitResponse = true
      · have foreign : ownStatus cache.state packet = none := by
          cases status : ownStatus cache.state packet with
          | none => rfl
          | some result =>
              rw [idle (ownStatus_commands status)] at waits
              cases waits
        simpa [waits, foreign] using own
      · simpa [waits] using own
  | handled commands waits handled =>
      have quiet : ∀ {after : ConfigCache}, after.state = cache.state →
          after.everRetried = cache.everRetried → after.remainingRetry = cache.remainingRetry →
          after.waitResponse = cache.waitResponse → ownStatus cache.state packet = none →
          after.InBudget (tally cache packet spent) := by
        intro after state ever remaining waiting foreign
        rw [tally_foreign foreign]
        exact own.kept (.inl waits) state ever remaining fun _ => waiting ▸ waits
      cases handled with
      | unexpected foreign _ =>
          exact .inr ⟨quiet rfl rfl rfl rfl foreign, fun ret => nomatch ret⟩
      | page reads first stored =>
          have foreign : ownStatus cache.state packet = none := by rw [reads, first]; rfl
          have same := storePage_eq stored
          refine .inr ⟨?_, fun _ idle => ?_⟩
          · rw [same]
            exact quiet rfl rfl rfl rfl foreign
          · rw [same] at idle
            change cache.waitResponse = false at idle
            rw [waits] at idle
            cases idle
      | otherPage page =>
          refine .inr ⟨quiet rfl rfl rfl rfl (ownStatus_page page), fun _ idle => ?_⟩
          change cache.waitResponse = false at idle
          rw [waits] at idle
          cases idle
      | timeout timeout =>
          rw [tally_timeout waits timeout]
          rcases timedOut_budget commands waits timeout own charged with driven | ⟨kept, fresh⟩
          · exact .inl driven
          · exact .inr ⟨kept, fun _ _ => fresh⟩
      | @failed result code status error =>
          rw [tally_other waits status error.2]
          exact .inr ⟨.zero rfl, fun _ _ => rfl⟩
      | @resumed id _ _ status =>
          rw [tally_other waits status (by decide)]
          have fresh : (afterDcd (host.db.heap id).err cache.answered.retryClear).everRetried =
              false := by
            unfold afterDcd
            split
            · split <;> rfl
            · rfl
          exact .inr ⟨.zero fresh, fun _ _ => fresh⟩
      | removed _ status =>
          rw [tally_other waits status (by decide)]
          exact .inr ⟨.zero rfl, fun _ _ => rfl⟩
      | finished iterators ever remaining status fine _ _ budget _ =>
          rw [tally_other waits status fine]
          have fresh := budget.fresh status (charged waits).2
          exact .inr ⟨.zero fresh, fun _ _ => fresh⟩
      | continued iterators ever remaining status fine _ budget attempt _ =>
          rw [tally_other waits status fine]
          have fresh := budget.fresh status (charged waits).2
          have later := attempt.ever fresh
          exact .inr ⟨.zero later, fun _ _ => later⟩

/-- An event keeps the account. -/
theorem EventStep.inBudget {manager : MngState} {slot : Slot} {packet : ConfigEvent}
    {input : EventInput} (step : EventStep manager slot packet input cache host after host')
    (own : cache.InBudget spent) (charged : TimeoutCharged packet input cache host) :
    after.InBudget (tally cache packet spent) := by
  cases step with
  | settled takes calm =>
      rcases takes.budget own charged with driven | ⟨kept, _⟩
      · have quiet := calm (ownStatus_commands driven.timeout) driven.ret driven.idle
        rw [driven.ever] at quiet
        cases quiet
      · exact kept
  | @resent out last takes commands ret idle ever retried =>
      rcases takes.budget own charged with driven | ⟨_, fresh⟩
      · rw [tally_timeout driven.waits driven.timeout]
        have same := driven.same.1
        have left := driven.left
        have whole := driven.whole
        have state := retried.sameWork.1
        rw [← same] at retried
        cases retried with
        | unsent attempt failed =>
            cases attempt with
            | accepted _ _ _ _ _ => exact (failed rfl).elim
            | outOfMemory _ _ full _ _ => exact (driven.memory full).elim
            | refused command vnm _ _ =>
                apply (ConfigCache.errSetTo_givenUp { out.cache with vnm := vnm } _ _).inBudget
                rw [ConfigCache.errSetTo_state]
                change spent + 1 ≤ (retryTimesOf out.cache.state).toNat + 1
                rw [same]
                omega
            | unknown none_left =>
                rw [same, driven.frame] at none_left
                have here := driven.same.2
                exact (driven.known (none_left.of_same here.symm rfl)).elim
        | resent attempt sent finishes =>
            cases attempt with
            | accepted command vnm _ _ _ =>
                obtain ⟨_, _, rfl⟩ := finishes
                refine ⟨fun _ => ⟨rfl, ?_, ?_⟩, fun fresh => ?_⟩
                · change isCommandState out.cache.state = true
                  rw [same]
                  exact commands
                · change (out.cache.remainingRetry - 1).toNat + (spent + 1) =
                    (retryTimesOf out.cache.state).toNat
                  rw [same]
                  have one : (1 : UInt8).toNat = 1 := rfl
                  have positive : out.cache.remainingRetry.toNat ≠ 0 :=
                    fun none_ => left (UInt8.toNat_inj.mp none_)
                  have some_ : (1 : UInt8) ≤ out.cache.remainingRetry := by
                    rw [UInt8.le_iff_toNat_le]
                    omega
                  rw [UInt8.toNat_sub_of_le _ _ some_]
                  omega
                · have retriedOnce : out.cache.everRetried = false := fresh
                  rw [ever] at retriedOnce
                  cases retriedOnce
            | _ => cases sent
      · rw [fresh ret idle] at ever
        cases ever

end

/-! ## Runs -/

theorem SlotMove.inBudget {slot : Slot} {source target : SlotState} {op : SlotOp}
    (move : SlotMove slot source op target) (own : source.cache.InBudget source.spent)
    (charged : op.Charged source) : target.cache.InBudget target.spent := by
  cases move with
  | free _ => exact own
  | stays _ resent _ => exact (retryException_step resent).inBudget own
  | leaves _ resent leaving _ arrived =>
      have middle := (retryException_step resent).inBudget own
      simp only [ConfigCache.stays, Bool.or_eq_false_iff] at leaving
      exact .zero (arrived.fresh (middle.idle_fresh leaving.1))
  | event working step => exact step.inBudget own (charged working)
  | outside _ _ _ => exact own

/-- An event that charges its command fails no assertion about the budget, and drives a retry
only by a timeout of that command. -/
theorem drives_of_timeout {slot : Slot} {packet : ConfigEvent} {input : EventInput}
    {cache : ConfigCache} {host : Host} {spent : Nat} {out : Outcome}
    (own : cache.InBudget spent) (charged : TimeoutCharged packet input cache host)
    (takes : TakesEvent slot packet input.inprg cache host out) (ret : out.ret = .suc)
    (idle : out.cache.waitResponse = false) (ever : out.cache.everRetried = true) :
    TimeoutDriven packet input cache host spent out := by
  rcases takes.budget own charged with driven | ⟨_, fresh⟩
  · exact driven
  · rw [fresh ret idle] at ever
    cases ever

theorem SlotOp.run_budgeted {slot : Slot} {source : SlotState} {op : SlotOp}
    (own : source.cache.InBudget source.spent) (charged : op.Charged source) :
    op.run slot source ≠ .error .retryBudget := by
  intro fails
  unfold SlotOp.run at fails
  by_cases freed : source.freed = true
  · simp [freed] at fails
  · have working : source.freed = false := by simpa using freed
    rw [if_neg freed] at fails
    cases op with
    | round manager input =>
        rcases bind_error.mp fails with round | ⟨_, _, impossible⟩
        · rcases slotRound_fails manager slot input _ _ _ round with work | ⟨other, _⟩
          · exact work.2 rfl
          · cases other
        · cases impossible
    | event manager packet input =>
        rcases bind_error.mp fails with handled | ⟨_, _, impossible⟩
        · rcases slotEvent_fails manager slot packet input _ _ _ handled with
            work | ⟨_, out, takes, ret, idle, ever, empty⟩
          · exact work.2 rfl
          · exact (drives_of_timeout own (charged working) takes ret idle ever).left empty
        · cases impossible
    | outside db cfg stat effects => cases fails

theorem retriesOnTimeout_of_budget {slot : Slot} {packet : ConfigEvent} {input : EventInput}
    {cache : ConfigCache} {host : Host} {spent : Nat} (own : cache.InBudget spent)
    (charged : TimeoutCharged packet input cache host)
    (retries : retriesOnTimeout slot packet input cache host = true) :
    cache.waitResponse = true ∧ ownStatus cache.state packet = some bgErrTimeout := by
  unfold retriesOnTimeout at retries
  cases found : asGet cache.state with
  | nil => simp [found] at retries
  | cons ops rest =>
      obtain ⟨same, lawful⟩ := asGet_cons found
      simp only [found] at retries
      cases handled : eventInprg slot packet input ops cache host with
      | error failure => simp [handled] at retries
      | ok out =>
          simp only [handled, Bool.and_eq_true, decide_eq_true_eq, Bool.not_eq_true']
            at retries
          obtain ⟨_, ⟨ret, idle⟩, ever⟩ := retries
          have driven := drives_of_timeout own charged
            (eventInprg_takes lawful same handled) ret idle ever
          exact ⟨driven.waits, driven.timeout⟩

/-- **Each command has its own budget** in a run whose timeouts are charged: it takes at most one
timeout more than `RETRY_TIMES`, with the last one the slot gives it up, the next step does not
fail the assertion of an exhausted budget, and only a timeout status that the slot waits for is
followed by a retry for a timeout. -/
theorem retry_budget_guarded {slot : Slot} {node : NodeId} {type : LoadType} {host : Host}
    {past : List (Move SlotState SlotOp)} {final : SlotState}
    (run : SlotRun slot (.loaded node type host) past final)
    (guarded : Guarded SlotOp.Charged past) :
    final.spent ≤ (retryTimesOf final.cache.state).toNat + 1 ∧
      (final.spent = (retryTimesOf final.cache.state).toNat + 1 → final.cache.GivenUp) ∧
      ∀ op : SlotOp, op.Charged final →
        op.run slot final ≠ .error .retryBudget ∧
          ∀ manager packet input, op = .event manager packet input → final.freed = false →
            retriesOnTimeout slot packet input final.cache final.host = true →
            final.cache.waitResponse = true ∧
              ownStatus final.cache.state packet = some bgErrTimeout := by
  have start : (SlotState.loaded node type host).cache.InBudget 0 := by
    cases type <;> exact .zero rfl
  have step : ∀ source op target, source.cache.InBudget source.spent →
      SlotOp.Charged source op → Succeeds (SlotOp.run slot) source op target →
      target.cache.InBudget target.spent := by
    intro source op target own charged taken
    exact (slotOp_move taken).inBudget own charged
  have own := (run.guarded_invariant step start guarded).2
  refine ⟨own.within, fun all => ?_, fun op charged => ⟨SlotOp.run_budgeted own charged, ?_⟩⟩
  · cases ever : final.cache.everRetried with
    | false =>
        rcases own.fresh ever with none_ | ⟨_, gone⟩
        · omega
        · exact gone
    | true =>
        have whole := (own.retrying ever).2.2
        omega
  · rintro manager packet input rfl working retries
    exact retriesOnTimeout_of_budget own (charged working) retries

/-- A device is asked for its composition data twice, since the first answer is lost. -/
theorem retry_budget_guarded_lost :
    ∃ past final,
      SlotRun 0 (.loaded 0 .typeConfig (Engine.small (Node.plain 2)).host) past final ∧
      past.map Move.label =
        [.round .configuringDevicesEm
            { now := 0, retry := .taken 1 0, entry := .taken 1 0 },
          .event .configuringDevicesEm (.dcdDataEnd 1 bgErrTimeout)
            { inprg := .taken 1 0, retry := .taken 1 0 }] ∧
      final.spent = 1 ∧
      final.spent ≤ (retryTimesOf final.cache.state).toNat + 1 ∧
      (final.spent = (retryTimesOf final.cache.state).toNat + 1 → final.cache.GivenUp) := by
  have replayed : replays (SlotOp.run 0)
      (.loaded 0 .typeConfig (Engine.small (Node.plain 2)).host)
      [.round .configuringDevicesEm
          { now := 0, retry := .taken 1 0, entry := .taken 1 0 },
        .event .configuringDevicesEm (.dcdDataEnd 1 bgErrTimeout)
          { inprg := .taken 1 0, retry := .taken 1 0 }]
      (fun past final => decide (Guarded SlotOp.Charged past) && final.spent == 1) = true := by
    decide +kernel
  obtain ⟨past, final, run, same, tested⟩ := execution_of_replays replayed
  simp only [Bool.and_eq_true, decide_eq_true_eq, beq_iff_eq] at tested
  have kept := retry_budget_guarded run tested.1
  exact ⟨past, final, run, same, tested.2, kept.1, kept.2.1⟩

/-- A device that is to subscribe to one group. -/
def Node.subscriber (addr : UInt16) : Node :=
  { Node.plain addr with config := { (Node.plain addr).config with
      sublist := some { len := 1, data := [0xC001] } } }

/-- The only model of a device answers at the sixth attempt that it has no room for the group.
Its state is completed, and all the same its command is sent once more, on a spent budget. -/
theorem full_model_takes_budget :
    ∃ past final,
      SlotRun 0 (.loaded 0 .typeConfig (Engine.small (Node.subscriber 2)).host) past final ∧
      past.map Move.label =
        [.round .configuringDevicesEm
            { now := 0, retry := .taken 1 0, entry := .taken 1 0 },
          .event .configuringDevicesEm (.dcdData 1 0 onOffPage 16)
            { inprg := .taken 1 0, retry := .taken 1 0 },
          .event .configuringDevicesEm (.dcdDataEnd 1 bgErrSuccess)
            { inprg := .taken 1 0, retry := .taken 1 0 },
          .round .configuringDevicesEm
            { now := 0, retry := .taken 2 0, entry := .taken 2 0 }] ++
        List.replicate 5 (.event .configuringDevicesEm (.status .modelSub 2 bgErrTimeout)
          { inprg := .taken 2 0, retry := .taken 2 0 }) ∧
      (SlotOp.event .configuringDevicesEm
          (.status .modelSub 2 bgErrMeshFoundationInsufficientResources)
          { inprg := .taken 2 0, retry := .taken 2 0 }).run 0 final =
        .error .retryBudget := by
  have replayed : replays (SlotOp.run 0)
      (.loaded 0 .typeConfig (Engine.small (Node.subscriber 2)).host)
      ([.round .configuringDevicesEm
          { now := 0, retry := .taken 1 0, entry := .taken 1 0 },
        .event .configuringDevicesEm (.dcdData 1 0 onOffPage 16)
          { inprg := .taken 1 0, retry := .taken 1 0 },
        .event .configuringDevicesEm (.dcdDataEnd 1 bgErrSuccess)
          { inprg := .taken 1 0, retry := .taken 1 0 },
        .round .configuringDevicesEm
          { now := 0, retry := .taken 2 0, entry := .taken 2 0 }] ++
        List.replicate 5 (.event .configuringDevicesEm (.status .modelSub 2 bgErrTimeout)
          { inprg := .taken 2 0, retry := .taken 2 0 }))
      (fun _ final =>
        match (SlotOp.event .configuringDevicesEm
            (.status .modelSub 2 bgErrMeshFoundationInsufficientResources)
            { inprg := .taken 2 0, retry := .taken 2 0 }).run 0 final with
        | .error failure => decide (failure = .retryBudget)
        | .ok _ => false) = true := by
    decide +kernel
  obtain ⟨past, final, run, same, aborts⟩ := execution_of_replays replayed
  refine ⟨past, final, run, same, ?_⟩
  split at aborts
  · rename_i failure fails
    rw [fails, of_decide_eq_true aborts]
  · cases aborts

end Nwmng
