/-
Module: Nwmng.Config.Rounds
Purpose: What one round of the engine and one event can do, as case analyses that
the invariants of the engine are proved by.
Trusted boundary: none
Main exports:
  ExceptionStep, Arrived, slotRound, SlotRoundStep, RoundStep, engineSlot_step, EventStep,
  slotEvent, slotEvent_step, devConfigHdr_step, firstOpen, ExceptionStep.leaving,
  cachesLoad_invariant
-/
import Nwmng.Config.Lawful

namespace Nwmng

open Fallible

/-!
## Rounds

Each case analysis says all that a step can do, with the tests that were made on the way.  Every
invariant of the engine is a case analysis on these, and none unfolds the engine.
-/

/-- What the first half of a round can do.  A command is sent again for one of two reasons: its
guard timer has expired, or the NCP had no memory for it.  The timer is looked at first. -/
inductive ExceptionStep (state : MngState) (slot : Slot) (input : RoundInput)
    (cache : ConfigCache) (host : Host) : ConfigCache → Host → Prop where
  | quiet (calm : (isCommandState cache.state = true ∨ asGet cache.state = []) →
        cache.guardExpired input.now = false ∧ cache.oom = false) :
      ExceptionStep state slot input cache host cache host
  | expired {out : Outcome} (commands : isCommandState cache.state = true)
      (late : cache.guardExpired input.now = true)
      (retried : Retried cache.state .onGuardTimerExpiredEm slot input.retry cache host
        out) :
      ExceptionStep state slot input cache host out.cache (countRetry state out.host)
  | memory {out : Outcome} (commands : isCommandState cache.state = true)
      (inTime : cache.guardExpired input.now = false) (oom : cache.oom = true)
      (idle : cache.waitResponse = false)
      (retried : Retried cache.state .onOomEm slot input.retry cache host out) :
      ExceptionStep state slot input cache host out.cache (countRetry state out.host)

theorem retryException_step {state : MngState} {slot : Slot} {input : RoundInput}
    {cache after : ConfigCache} {host host' : Host}
    (taken : retryException state slot input cache host = .ok (after, host')) :
    ExceptionStep state slot input cache host after host' := by
  unfold retryException at taken
  cases found : asGet cache.state with
  | nil =>
      simp only [found] at taken
      by_cases exception : (cache.guardExpired input.now || cache.oom) = true
      · simp [exception] at taken
      · rw [if_neg exception] at taken
        simp only [Except.ok.injEq, Prod.mk.injEq] at taken
        obtain ⟨rfl, rfl⟩ := taken
        apply ExceptionStep.quiet
        intro _
        simpa using exception
  | cons ops rest =>
      obtain ⟨same, lawful⟩ := asGet_cons found
      simp only [found] at taken
      cases resends : ops.retry with
      | none =>
          simp only [resends, Except.ok.injEq, Prod.mk.injEq] at taken
          obtain ⟨rfl, rfl⟩ := taken
          apply ExceptionStep.quiet
          rintro (commands | absent)
          · have none_ := lawful.resends
            rw [same, commands, resends] at none_
            cases none_
          · rw [found] at absent
            cases absent
      | some retry =>
          have commands : isCommandState cache.state = true := by
            have some_ := lawful.resends
            rw [same, resends] at some_
            exact some_.symm
          simp only [resends] at taken
          by_cases late : cache.guardExpired input.now = true
          · simp only [late, if_true, bind_ok, Except.ok.injEq, Prod.mk.injEq] at taken
            obtain ⟨out, retried, rfl, rfl⟩ := taken
            have step := lawful.retry resends retried
            rw [same] at step
            exact .expired commands late step
          · have inTime : cache.guardExpired input.now = false := by simpa using late
            by_cases oom : cache.oom = true
            · by_cases waiting : cache.waitResponse = true
              · simp [inTime, oom, waiting] at taken
              · simp only [inTime, oom, waiting, Bool.false_eq_true, if_true, if_false,
                  bind_ok, Except.ok.injEq, Prod.mk.injEq] at taken
                obtain ⟨out, retried, rfl, rfl⟩ := taken
                have step := lawful.retry resends retried
                rw [same] at step
                exact .memory commands inTime oom (by simpa using waiting) step
            · simp only [inTime, oom, Bool.false_eq_true, if_false, Except.ok.injEq,
                Prod.mk.injEq] at taken
              obtain ⟨rfl, rfl⟩ := taken
              apply ExceptionStep.quiet
              intro _
              exact ⟨inTime, by simpa using oom⟩

/-- Where a slot that leaves its state can arrive.  The states before the one it
enters are closed to its node. -/
inductive Arrived (targets : List AccStateOps) (slot : Slot) (answer : CmdRsp)
    (cache : ConfigCache) (host : Host) : ConfigCache → Host → Prop where
  | nowhere (skipped : ∀ ops ∈ targets, ∀ id, cache.node = some id →
        guardHolds ops.state (host.db.heap id) = false) :
      Arrived targets slot answer cache host cache host
  | entered {before after : List AccStateOps} {ops : AccStateOps} {out : Outcome}
      (split : targets = before ++ ops :: after)
      (skipped : ∀ other ∈ before, ∀ id, cache.node = some id →
        guardHolds other.state (host.db.heap id) = false)
      (entry : Entered ops.state slot answer cache host out)
      (ret : out.ret = .suc ∨ out.ret = .oom) :
      Arrived targets slot answer cache host
        { out.cache with state := ops.state, nextState := some ops.state } out.host
  | refused {before after : List AccStateOps} {ops : AccStateOps} {out : Outcome}
      {last : Host} (split : targets = before ++ ops :: after)
      (skipped : ∀ other ∈ before, ∀ id, cache.node = some id →
        guardHolds other.state (host.db.heap id) = false)
      (entry : Entered ops.state slot answer cache host out)
      (ret : out.ret = .bgapi)
      (conclusion : endEntry none slot answer out.cache out.host =
        .ok { ret := .suc, cache := out.cache, host := last }) :
      Arrived targets slot answer cache host
        { out.cache with state := .endEm, nextState := some .endEm } last

theorem enterStates_arrived {targets : List AccStateOps}
    (lawful : ∀ ops ∈ targets, ops.Lawful) {slot : Slot} {answer : CmdRsp}
    {cache after : ConfigCache} {host host' : Host} {moved : Bool}
    (taken : enterStates slot answer targets cache host = .ok (moved, after, host')) :
    Arrived targets slot answer cache host after host' := by
  induction targets with
  | nil =>
      simp only [enterStates, Except.ok.injEq, Prod.mk.injEq] at taken
      obtain ⟨_, rfl, rfl⟩ := taken
      exact .nowhere (by simp)
  | cons ops rest hypothesis =>
      simp only [enterStates, bind_ok] at taken
      obtain ⟨out, entry, taken⟩ := taken
      have step := (lawful ops List.mem_cons_self).entry entry
      have arrives : out.ret = .suc ∨ out.ret = .oom →
          (.ok (true, { out.cache with state := ops.state, nextState := some ops.state },
            out.host) : Except Abort _) = .ok (moved, after, host') →
          Arrived (ops :: rest) slot answer cache host after host' := by
        intro ret same
        simp only [Except.ok.injEq, Prod.mk.injEq] at same
        obtain ⟨_, rfl, rfl⟩ := same
        exact .entered (List.nil_append _).symm (by simp) step ret
      cases ret : out.ret with
      | suc =>
          simp only [ret] at taken
          exact arrives (.inl ret) taken
      | oom =>
          simp only [ret] at taken
          exact arrives (.inr ret) taken
      | tonext =>
          simp only [ret] at taken
          cases step with
          | skipped closed =>
              have later := hypothesis
                (fun other member => lawful other (List.mem_cons_of_mem ops member)) taken
              -- the skipped state comes before whatever is found later
              have front : ∀ {before : List AccStateOps},
                  (∀ other ∈ before, ∀ id, cache.node = some id →
                    guardHolds other.state (host.db.heap id) = false) →
                  ∀ other ∈ ops :: before, ∀ id, cache.node = some id →
                    guardHolds other.state (host.db.heap id) = false := by
                intro before skipped other member
                rcases List.mem_cons.mp member with rfl | deeper
                · exact closed
                · exact skipped other deeper
              cases later with
              | nowhere skipped => exact .nowhere (front skipped)
              | entered split skipped entry ret =>
                  exact .entered (by rw [split]; rfl) (front skipped) entry ret
              | refused split skipped entry ret conclusion =>
                  exact .refused (by rw [split]; rfl) (front skipped) entry ret conclusion
          | attempted _ _ _ attempt _ =>
              cases attempt <;> cases ret
          | _ => cases ret
      | bgapi =>
          simp only [ret, bind_ok, Except.ok.injEq, Prod.mk.injEq] at taken
          obtain ⟨last, conclusion, _, rfl, rfl⟩ := taken
          change endEntry none slot answer out.cache out.host = .ok last at conclusion
          have same := endEntry_shape conclusion
          have cacheSame := congrArg Outcome.cache same
          simp only at cacheSame
          rw [cacheSame]
          apply Arrived.refused (List.nil_append _).symm (by simp) step ret
          rw [same] at conclusion
          exact conclusion
      | unspec =>
          cases step with
          | attempted _ _ _ attempt _ => cases attempt <;> cases ret
          | _ => cases ret
      | notfnd =>
          cases step with
          | attempted _ _ _ _ known => exact False.elim (known ret)
          | _ => cases ret

/-- What the round of a slot does to the slot itself; the first component of the result
tells whether the slot has left its state. -/
def slotRound (state : MngState) (slot : Slot) (input : RoundInput) (cache : ConfigCache)
    (host : Host) : Except Abort (Bool × ConfigCache × Host) := do
  let (cache, host) ← retryException state slot input cache host
  if cache.stays then .ok (false, cache, host)
  else
    let (_, cache, host) ← toNextState slot input.entry cache host
    .ok (true, cache, host)

theorem engineSlot_eq (input : RoundInput) (engine : Engine) (slot : Slot) :
    engineSlot input engine slot = (do
      let (left, cache, host) ←
        slotRound engine.state slot input (engine.cache slot) engine.host
      let engine := { engine with host := host }
      if left && cache.ended then .ok (releaseSlot engine slot cache)
      else .ok (engine.setCache slot cache)) := by
  unfold engineSlot slotRound
  cases retryException engine.state slot input (engine.cache slot) engine.host with
  | error failure => rfl
  | ok resent =>
      simp only [ok_bind]
      by_cases still : resent.1.stays = true
      · simp only [still, if_true, ok_bind, Bool.false_and, Bool.false_eq_true, if_false]
      · simp only [still]
        cases toNextState slot input.entry resent.1 resent.2 with
        | error failure => rfl
        | ok entered => rfl

/-- What the round of a slot can do to the slot.  A slot stays in its state, or leaves it and is
led by `to_next_state` to the one in which it stops. -/
inductive SlotRoundStep (state : MngState) (slot : Slot) (input : RoundInput)
    (cache : ConfigCache) (host : Host) : Bool → ConfigCache → Host → Prop where
  | stays {after : ConfigCache} {host' : Host}
      (resent : retryException state slot input cache host = .ok (after, host'))
      (still : after.stays = true) :
      SlotRoundStep state slot input cache host false after host'
  | leaves {middle after : ConfigCache} {between host' : Host}
      {targets : List AccStateOps}
      (resent : retryException state slot input cache host = .ok (middle, between))
      (leaving : middle.stays = false) (leads : leaveTargets middle = .ok targets)
      (arrived : Arrived targets slot input.entry middle between after host') :
      SlotRoundStep state slot input cache host true after host'

theorem slotRound_step {state : MngState} {slot : Slot} {input : RoundInput}
    {cache after : ConfigCache} {host host' : Host} {left : Bool}
    (taken : slotRound state slot input cache host = .ok (left, after, host')) :
    SlotRoundStep state slot input cache host left after host' := by
  simp only [slotRound, bind_ok] at taken
  obtain ⟨⟨middle, between⟩, resent, taken⟩ := taken
  by_cases still : middle.stays = true
  · simp only [still, if_true, Except.ok.injEq, Prod.mk.injEq] at taken
    obtain ⟨rfl, rfl, rfl⟩ := taken
    exact .stays resent still
  · have leaving : middle.stays = false := by simpa using still
    simp only [leaving, Bool.false_eq_true, if_false, bind_ok, toNextState,
      Except.ok.injEq, Prod.mk.injEq] at taken
    obtain ⟨⟨moved, last, final⟩, ⟨targets, leads, enters⟩, rfl, rfl, rfl⟩ := taken
    exact .leaves resent leaving leads
      (enterStates_arrived (leaveTargets_lawful leads) enters)

/-- What the round of one slot can do to the engine.  The round of a slot changes the slot itself
and the shared data; where it ends in a final state, the node leaves the slot. -/
inductive RoundStep (input : RoundInput) (engine : Engine) (slot : Slot) :
    Engine → Prop where
  | stays {cache : ConfigCache} {host : Host}
      (exception : ExceptionStep engine.state slot input (engine.cache slot) engine.host
        cache host)
      (still : cache.stays = true) :
      RoundStep input engine slot ({ engine with host := host }.setCache slot cache)
  | moves {middle cache : ConfigCache} {between host : Host}
      {targets : List AccStateOps}
      (exception : ExceptionStep engine.state slot input (engine.cache slot) engine.host
        middle between)
      (leaving : middle.stays = false) (leaves : leaveTargets middle = .ok targets)
      (arrived : Arrived targets slot input.entry middle between cache host)
      (working : cache.ended = false) :
      RoundStep input engine slot ({ engine with host := host }.setCache slot cache)
  | ends {middle cache : ConfigCache} {between host : Host}
      {targets : List AccStateOps}
      (exception : ExceptionStep engine.state slot input (engine.cache slot) engine.host
        middle between)
      (leaving : middle.stays = false) (leaves : leaveTargets middle = .ok targets)
      (arrived : Arrived targets slot input.entry middle between cache host)
      (done : cache.ended = true) :
      RoundStep input engine slot (releaseSlot { engine with host := host } slot cache)

theorem engineSlot_step {input : RoundInput} {engine after : Engine} {slot : Slot}
    (taken : engineSlot input engine slot = .ok after) :
    RoundStep input engine slot after := by
  rw [engineSlot_eq] at taken
  simp only [bind_ok] at taken
  obtain ⟨⟨left, cache, host⟩, round, taken⟩ := taken
  cases slotRound_step round with
  | stays resent still =>
      simp only [Bool.false_and, Bool.false_eq_true, if_false, Except.ok.injEq] at taken
      rw [← taken]
      exact .stays (retryException_step resent) still
  | leaves resent leaving leads arrived =>
      have exception := retryException_step resent
      by_cases done : cache.ended = true
      · simp only [done, Bool.and_self, if_true, Except.ok.injEq] at taken
        rw [← taken]
        exact .ends exception leaving leads arrived done
      · have working : cache.ended = false := by simpa using done
        simp only [working, Bool.and_false, Bool.false_eq_true, if_false,
          Except.ok.injEq] at taken
        rw [← taken]
        exact .moves exception leaving leads arrived working

/-! ## Events -/

/-- How a slot takes an event that is routed to it.  An event that comes while the slot does not
wait is ignored, whatever it is. -/
inductive TakesEvent (slot : Slot) (event : ConfigEvent) (answer : CmdRsp)
    (cache : ConfigCache) (host : Host) : Outcome → Prop where
  | handled {out : Outcome} (commands : isCommandState cache.state = true)
      (waiting : cache.waitResponse = true)
      (handled : Handled cache.state slot event answer cache host out) :
      TakesEvent slot event answer cache host out
  | ignored (idle : isCommandState cache.state = true → cache.waitResponse = false) :
      TakesEvent slot event answer cache host
        { ret := .suc, cache := cache, host := host }

/-- What an event can do to the slot it is routed to.  After a timeout the command is sent again
at once, in the same call. -/
inductive EventStep (state : MngState) (slot : Slot) (event : ConfigEvent)
    (input : EventInput) (cache : ConfigCache) (host : Host) :
    ConfigCache → Host → Prop where
  | settled {out : Outcome} (takes : TakesEvent slot event input.inprg cache host out)
      (calm : isCommandState cache.state = true → out.ret = .suc →
        out.cache.waitResponse = false → out.cache.everRetried = false) :
      EventStep state slot event input cache host out.cache out.host
  | resent {out last : Outcome} (takes : TakesEvent slot event input.inprg cache host out)
      (commands : isCommandState cache.state = true) (ret : out.ret = .suc)
      (idle : out.cache.waitResponse = false) (ever : out.cache.everRetried = true)
      (retried : Retried cache.state .onTimeoutEm slot input.retry out.cache out.host
        last) :
      EventStep state slot event input cache host last.cache (countRetry state last.host)

theorem eventInprg_takes {slot : Slot} {event : ConfigEvent} {input : EventInput}
    {ops : AccStateOps} {cache : ConfigCache} {host : Host} {out : Outcome}
    (lawful : ops.Lawful) (same : ops.state = cache.state)
    (taken : eventInprg slot event input ops cache host = .ok out) :
    TakesEvent slot event input.inprg cache host out := by
  unfold eventInprg at taken
  have waits := lawful.waits
  rw [same] at waits
  cases inprg : ops.inprg with
  | none =>
      simp only [inprg, Except.ok.injEq] at taken
      rw [← taken]
      apply TakesEvent.ignored
      intro commands
      rw [inprg, commands] at waits
      cases waits
  | some callback =>
      simp only [inprg] at taken
      by_cases waiting : cache.waitResponse = true
      · simp only [waiting, if_true] at taken
        have step := lawful.inprg inprg taken
        rw [same] at step
        refine .handled ?_ waiting step
        rw [← waits, inprg]
        rfl
      · rw [if_neg waiting, Except.ok.injEq] at taken
        rw [← taken]
        exact .ignored fun _ => by simpa using waiting

/-- The used slots are those whose bit is set. -/
@[simp] theorem mem_usedSlots {used : BitVec 32} {slot : Slot} :
    slot ∈ usedSlots used ↔ used.getLsbD slot.val = true := by
  simp [usedSlots]

theorem nodup_usedSlots {used : BitVec 32} : (usedSlots used).Nodup :=
  (List.nodup_finRange _).filter _

/-- An event is routed to an occupied slot that stores its handle. -/
theorem cacheFromCchandle_eq {engine : Engine} {event : ConfigEvent} {slot : Slot}
    (routed : cacheFromCchandle engine event = .ok slot) :
    ∃ handle, event.handle? = some handle ∧ engine.occupied slot = true ∧
      (engine.cache slot).node.isSome = true ∧
      (engine.cache slot).ccHandle = handle ∧
      (usedSlots engine.used).find? (fun slot =>
        (engine.cache slot).node.isSome && (engine.cache slot).ccHandle == handle) =
          some slot := by
  unfold cacheFromCchandle at routed
  cases handle : event.handle? with
  | none => simp [handle] at routed
  | some value =>
      simp only [handle] at routed
      cases found : (usedSlots engine.used).find? (fun slot =>
          (engine.cache slot).node.isSome && (engine.cache slot).ccHandle == value) with
      | none =>
          simp only [found] at routed
          split at routed <;> cases routed
      | some first =>
          simp only [found, Except.ok.injEq] at routed
          subst routed
          have stores := List.find?_some found
          have member := List.mem_of_find?_eq_some found
          simp only [Bool.and_eq_true, beq_iff_eq] at stores
          exact ⟨value, rfl, mem_usedSlots.mp member, stores.1, stores.2, found⟩

/-- What `dev_config_hdr` does once it has found the slot of an event. -/
def slotEvent (state : MngState) (slot : Slot) (event : ConfigEvent) (input : EventInput)
    (cache : ConfigCache) (host : Host) : Except Abort (ConfigCache × Host) :=
  match asGet cache.state with
  | [] => .error .stateMissing
  | ops :: _ => do
      let out ← eventInprg slot event input ops cache host
      eventRetry state slot input ops out

theorem devConfigHdr_eq (event : ConfigEvent) (input : EventInput) (engine : Engine) :
    devConfigHdr event input engine = (do
      let slot ← cacheFromCchandle engine event
      let (cache, host) ←
        slotEvent engine.state slot event input (engine.cache slot) engine.host
      .ok ({ engine with host := host }.setCache slot cache)) := by
  unfold devConfigHdr slotEvent
  cases cacheFromCchandle engine event with
  | error failure => rfl
  | ok slot =>
      simp only [ok_bind]
      cases asGet (engine.cache slot).state with
      | nil => rfl
      | cons ops rest =>
          dsimp only
          cases eventInprg slot event input ops (engine.cache slot) engine.host with
          | error failure => rfl
          | ok out => rfl

theorem slotEvent_step {state : MngState} {slot : Slot} {event : ConfigEvent}
    {input : EventInput} {cache after : ConfigCache} {host host' : Host}
    (taken : slotEvent state slot event input cache host = .ok (after, host')) :
    EventStep state slot event input cache host after host' := by
  unfold slotEvent at taken
  cases found : asGet cache.state with
  | nil => simp [found] at taken
  | cons ops rest =>
      obtain ⟨same, lawful⟩ := asGet_cons found
      simp only [found, bind_ok] at taken
      obtain ⟨out, takes, resends⟩ := taken
      have first := eventInprg_takes lawful same takes
      have waits := lawful.resends
      rw [same] at waits
      unfold eventRetry at resends
      cases retry : ops.retry with
      | none =>
          simp only [retry, Except.ok.injEq, Prod.mk.injEq] at resends
          obtain ⟨rfl, rfl⟩ := resends
          apply EventStep.settled first
          intro commands
          rw [retry, commands] at waits
          cases waits
      | some callback =>
          simp only [retry] at resends
          by_cases drives : (decide (out.ret = .suc) && !out.cache.waitResponse &&
              out.cache.everRetried) = true
          · simp only [drives, if_true, bind_ok, Except.ok.injEq, Prod.mk.injEq]
              at resends
            obtain ⟨last, retried, rfl, rfl⟩ := resends
            have step := lawful.retry retry retried
            rw [same] at step
            simp only [Bool.and_eq_true, decide_eq_true_eq, Bool.not_eq_true'] at drives
            refine .resent first ?_ drives.1.1 drives.1.2 drives.2 step
            rw [← waits, retry]
            rfl
          · rw [if_neg drives] at resends
            simp only [Except.ok.injEq, Prod.mk.injEq] at resends
            obtain ⟨rfl, rfl⟩ := resends
            apply EventStep.settled first
            intro _ ret idle
            by_contra ever
            exact drives (by simp [ret, idle, ever])

theorem devConfigHdr_step {event : ConfigEvent} {input : EventInput}
    {engine after : Engine} (taken : devConfigHdr event input engine = .ok after) :
    ∃ slot cache host, cacheFromCchandle engine event = .ok slot ∧
      EventStep engine.state slot event input (engine.cache slot) engine.host cache host ∧
      after = { engine with host := host }.setCache slot cache := by
  rw [devConfigHdr_eq] at taken
  simp only [bind_ok, Except.ok.injEq] at taken
  obtain ⟨slot, routed, ⟨cache, host⟩, handled, rfl⟩ := taken
  exact ⟨slot, cache, host, routed, slotEvent_step handled, rfl⟩

/-!
## Frames

What a step leaves alone is said beside: other slots, the node and the state of the slot, and the
records that the work of a slot does not reach.
-/

/-- Neither an attempt nor an event moves a slot to another state or node.  Only the second half
of a round does. -/
def ConfigCache.SameWork (cache after : ConfigCache) : Prop :=
  after.state = cache.state ∧ after.node = cache.node

theorem Attempt.sameWork {state : AccState} {slot : Slot} {answer : CmdRsp}
    {cache : ConfigCache} {host : Host} {out : Outcome}
    (attempt : Attempt state slot answer cache host out) :
    cache.SameWork out.cache := by
  cases attempt <;> exact ⟨rfl, rfl⟩

/-- An attempt changes no record. -/
theorem Attempt.db_eq {state : AccState} {slot : Slot} {answer : CmdRsp}
    {cache : ConfigCache} {host : Host} {out : Outcome}
    (attempt : Attempt state slot answer cache host out) : out.host.db = host.db := by
  cases attempt <;> rfl

theorem AfterResend.sameWork {reason : RetryReason} {sent after : ConfigCache}
    (finishes : AfterResend reason sent after) : sent.SameWork after := by
  cases reason with
  | onTimeoutEm =>
      obtain ⟨_, _, rfl⟩ := finishes
      exact ⟨rfl, rfl⟩
  | onOomEm =>
      obtain ⟨_, rfl⟩ := finishes
      exact ⟨rfl, rfl⟩
  | onGuardTimerExpiredEm =>
      obtain ⟨_, rfl⟩ := finishes
      exact ⟨rfl, rfl⟩

theorem Retried.sameWork {state : AccState} {reason : RetryReason} {slot : Slot}
    {answer : CmdRsp} {cache : ConfigCache} {host : Host} {out : Outcome}
    (retried : Retried state reason slot answer cache host out) :
    cache.SameWork out.cache := by
  cases retried with
  | unsent attempt _ => exact attempt.sameWork
  | resent attempt _ finishes =>
      have first := attempt.sameWork
      have last := finishes.sameWork
      exact ⟨last.1.trans first.1, last.2.trans first.2⟩

theorem Retried.db_eq {state : AccState} {reason : RetryReason} {slot : Slot}
    {answer : CmdRsp} {cache : ConfigCache} {host : Host} {out : Outcome}
    (retried : Retried state reason slot answer cache host out) :
    out.host.db = host.db := by
  cases retried with
  | unsent attempt _ => exact attempt.db_eq
  | resent attempt _ _ => exact attempt.db_eq

@[simp] theorem countRetry_db (state : MngState) (host : Host) :
    (countRetry state host).db = host.db := by
  unfold countRetry
  split <;> rfl

theorem ExceptionStep.sameWork {state : MngState} {slot : Slot} {input : RoundInput}
    {cache after : ConfigCache} {host host' : Host}
    (exception : ExceptionStep state slot input cache host after host') :
    cache.SameWork after := by
  cases exception with
  | quiet _ => exact ⟨rfl, rfl⟩
  | expired _ _ retried => exact retried.sameWork
  | memory _ _ _ _ retried => exact retried.sameWork

theorem ExceptionStep.db_eq {state : MngState} {slot : Slot} {input : RoundInput}
    {cache after : ConfigCache} {host host' : Host}
    (exception : ExceptionStep state slot input cache host after host') :
    host'.db = host.db := by
  cases exception with
  | quiet _ => rfl
  | expired _ _ retried => rw [countRetry_db, retried.db_eq]
  | memory _ _ _ _ retried => rw [countRetry_db, retried.db_eq]

/-- Composition data changes the page of the slot only. -/
theorem storePage_eq {data : Bytes.Memory} {len : UInt8} {cache after : ConfigCache}
    {host host' : Host} (stored : storePage data len cache host = .ok (after, host')) :
    after = { cache with dcd := after.dcd } := by
  simp only [storePage, bind_ok] at stored
  obtain ⟨⟨id, node⟩, _, stored⟩ := stored
  cases decoded : dcdStore 256 data len node.func with
  | none => simp [decoded] at stored
  | some read =>
      simp only [decoded] at stored
      by_cases empty : read.1.elementCnt = 0
      · simp only [empty, if_true, bind_ok, Except.ok.injEq, Prod.mk.injEq] at stored
        obtain ⟨_, _, rfl, _⟩ := stored
        rfl
      · simp only [empty, if_false, bind_ok, Except.ok.injEq, Prod.mk.injEq] at stored
        obtain ⟨_, _, rfl, _⟩ := stored
        rfl

theorem countRetry_log (state : MngState) (host : Host) :
    (countRetry state host).log = host.log := by
  unfold countRetry
  split <;> rfl

theorem storePage_log {data : Bytes.Memory} {len : UInt8} {cache after : ConfigCache}
    {host host' : Host} (stored : storePage data len cache host = .ok (after, host')) :
    host'.log = host.log := by
  simp only [storePage, bind_ok] at stored
  obtain ⟨⟨id, node⟩, _, stored⟩ := stored
  cases decoded : dcdStore 256 data len node.func with
  | none => simp [decoded] at stored
  | some read =>
      simp only [decoded] at stored
      by_cases empty : read.1.elementCnt = 0
      · simp only [empty, if_true, bind_ok, Except.ok.injEq, Prod.mk.injEq] at stored
        obtain ⟨_, _, _, rfl⟩ := stored
        rfl
      · simp only [empty, if_false, bind_ok, Except.ok.injEq, Prod.mk.injEq] at stored
        obtain ⟨_, _, _, rfl⟩ := stored
        rfl

/-- What a reported timeout does, by what is left of the retry budget. -/
theorem timedOut_cases (retryTimes : UInt8) (giveUp : ConfigCache → ConfigCache)
    (cache : ConfigCache) :
    (cache.everRetried = false ∧ timedOut retryTimes giveUp cache =
        { cache with remainingRetry := retryTimes, everRetried := true }) ∨
      (cache.everRetried = true ∧ cache.remainingRetry = 0 ∧
        timedOut retryTimes giveUp cache = giveUp cache.retryClear) ∨
      (cache.everRetried = true ∧ cache.remainingRetry ≠ 0 ∧
        timedOut retryTimes giveUp cache = cache) := by
  unfold timedOut
  cases ever : cache.everRetried with
  | false => exact .inl ⟨rfl, by simp⟩
  | true =>
      by_cases spent : cache.remainingRetry = 0
      · exact .inr (.inl ⟨rfl, spent, by simp [spent]⟩)
      · exact .inr (.inr ⟨rfl, spent, by simp [spent]⟩)

/-- Giving up leads to another state, and clears the retry budget. -/
theorem giveUpOf_eq {state : AccState} (commands : isCommandState state = true)
    (cache : ConfigCache) :
    (giveUpOf state cache.retryClear).nextState ≠ some state ∧
      (giveUpOf state cache.retryClear).everRetried = false ∧
      cache.SameWork (giveUpOf state cache.retryClear) := by
  unfold giveUpOf
  by_cases removes : state = .rmEm
  · rw [if_pos removes]
    exact ⟨by simp [giveUpRemoving], rfl, rfl, rfl⟩
  · rw [if_neg removes]
    refine ⟨?_, rfl, rfl, rfl⟩
    intro same
    have final : AccState.endEm = state := Option.some.inj same
    rw [← final] at commands
    cases commands

theorem Handled.sameWork {state : AccState} {slot : Slot} {event : ConfigEvent}
    {answer : CmdRsp} {cache : ConfigCache} {host : Host} {out : Outcome}
    (handled : Handled state slot event answer cache host out) :
    cache.SameWork out.cache := by
  cases handled with
  | page _ _ stored =>
      rw [storePage_eq stored]
      exact ⟨rfl, rfl⟩
  | timeout _ =>
      unfold timedOut giveUpOf
      split
      · exact ⟨rfl, rfl⟩
      · split
        · split <;> exact ⟨rfl, rfl⟩
        · exact ⟨rfl, rfl⟩
  | resumed _ _ _ =>
      unfold afterDcd
      split
      · split <;> exact ⟨rfl, rfl⟩
      · exact ⟨rfl, rfl⟩
  | continued _ _ _ _ _ _ _ attempt _ => exact attempt.sameWork
  | _ => exact ⟨rfl, rfl⟩

theorem TakesEvent.sameWork {slot : Slot} {event : ConfigEvent} {answer : CmdRsp}
    {cache : ConfigCache} {host : Host} {out : Outcome}
    (takes : TakesEvent slot event answer cache host out) :
    cache.SameWork out.cache := by
  cases takes with
  | handled _ _ handled => exact handled.sameWork
  | ignored _ => exact ⟨rfl, rfl⟩

theorem Arrived.sameNode {targets : List AccStateOps} {slot : Slot} {answer : CmdRsp}
    {cache after : ConfigCache} {host host' : Host}
    (arrived : Arrived targets slot answer cache host after host') :
    after.node = cache.node := by
  cases arrived with
  | nowhere _ => rfl
  | entered _ _ entry _ =>
      cases entry with
      | attempted _ _ _ attempt _ => exact attempt.sameWork.2
      | _ => rfl
  | refused _ _ entry _ _ =>
      cases entry with
      | attempted _ _ _ attempt _ => exact attempt.sameWork.2
      | _ => rfl

theorem EventStep.sameNode {state : MngState} {slot : Slot} {packet : ConfigEvent}
    {input : EventInput} {cache after : ConfigCache} {host host' : Host}
    (step : EventStep state slot packet input cache host after host') :
    after.node = cache.node := by
  cases step with
  | settled takes _ => exact takes.sameWork.2
  | resent takes _ _ _ _ retried => exact retried.sameWork.2.trans takes.sameWork.2

/-- The state that a slot which leaves its state would enter: the first one on
its way that is open to its node. -/
def firstOpen (cache : ConfigCache) (host : Host) : Option AccState :=
  match leaveTargets cache, cache.node with
  | .ok targets, some id =>
      (targets.find? fun ops => guardHolds ops.state (host.db.heap id)).map (·.state)
  | _, _ => none

theorem firstOpen_of_skipped {targets before after : List AccStateOps}
    {ops : AccStateOps} {cache : ConfigCache} {host : Host} {id : NodeId}
    (leaves : leaveTargets cache = .ok targets) (here : cache.node = some id)
    (split : targets = before ++ ops :: after)
    (skipped : ∀ other ∈ before, ∀ id, cache.node = some id →
      guardHolds other.state (host.db.heap id) = false)
    (opened : guardHolds ops.state (host.db.heap id) = true) :
    firstOpen cache host = some ops.state := by
  have closed : before.find? (fun ops => guardHolds ops.state (host.db.heap id)) = none := by
    rw [List.find?_eq_none]
    intro other member
    simp [skipped other member id here]
  simp [firstOpen, leaves, here, split, List.find?_append, closed, opened]

/-- A slot on its way to a final state enters that state. -/
theorem firstOpen_of_final {final : AccState} {cache : ConfigCache} {host : Host} {id : NodeId}
    (here : cache.node = some id) (next : cache.nextState = some final)
    (isFinal : final = .endEm ∨ final = .rmendEm) : firstOpen cache host = some final := by
  have first : ∃ ops rest, asGet final = ops :: rest ∧ ops.state = final ∧
      ∀ node, guardHolds final node = true := by
    rcases isFinal with rfl | rfl
    · exact ⟨asEnd, [asRm, asRmend], rfl, rfl, fun _ => rfl⟩
    · exact ⟨asRmend, [], rfl, rfl, fun _ => rfl⟩
  obtain ⟨ops, rest, found, same, opened⟩ := first
  simp [firstOpen, leaveTargets, here, next, found, same, opened]

theorem firstOpen_final {final : AccState} {cache : ConfigCache} {host : Host}
    (next : cache.nextState = some final) (isFinal : final = .endEm ∨ final = .rmendEm) :
    firstOpen cache host ≠ some .setconfigEm := by
  cases here : cache.node with
  | none => simp [firstOpen, here]
  | some id =>
      rw [firstOpen_of_final here next isFinal]
      rcases isFinal with rfl | rfl <;> decide

theorem NoCommand.of_same {state : AccState} {cache other : ConfigCache}
    {host between : Host} (node : other.node = cache.node)
    (db : between.db = host.db) (none_left : NoCommand state cache host) :
    NoCommand state other between := by
  obtain ⟨setting, id, here, left⟩ := none_left
  exact ⟨setting, id, node.trans here, by rw [db]; exact left⟩

/-- Which state a slot would enter depends on its states, its node and the records. -/
theorem firstOpen_congr {cache other : ConfigCache} {host between : Host}
    (work : cache.SameWork other) (next : other.nextState = cache.nextState)
    (db : between.db = host.db) : firstOpen other between = firstOpen cache host := by
  unfold firstOpen leaveTargets
  rw [work.1, work.2, next, db]

theorem finalOf_ne {state : AccState} (commands : isCommandState state = true) :
    finalOf state ≠ state := by
  cases state <;> simp_all [finalOf, isCommandState]

/-- A retry that found nothing to resend leaves the slot alone. -/
theorem Retried.unknown {state : AccState} {reason : RetryReason} {slot : Slot}
    {answer : CmdRsp} {cache : ConfigCache} {host : Host} {out : Outcome}
    (retried : Retried state reason slot answer cache host out)
    (unknown : out.ret = .notfnd) :
    out.cache = cache ∧ NoCommand state cache host := by
  cases retried with
  | unsent attempt _ =>
      cases attempt with
      | unknown none_left => exact ⟨rfl, none_left⟩
      | _ => cases unknown
  | resent attempt sent _ =>
      change _ = AccRet.notfnd at unknown
      rw [sent] at unknown
      cases unknown

theorem finalOf_final (state : AccState) :
    finalOf state = .endEm ∨ finalOf state = .rmendEm := by
  unfold finalOf
  split
  · exact .inr rfl
  · exact .inl rfl

/-- A resend that lets its slot leave has done nothing, has found no memory, or has
failed for good. -/
theorem ExceptionStep.leaving {state : MngState} {slot : Slot} {input : RoundInput}
    {cache after : ConfigCache} {host host' : Host}
    (exception : ExceptionStep state slot input cache host after host')
    (leaves : after.stays = false) :
    after = cache ∨ (after.oom = true ∧ after.waitResponse = false) ∨
      ∃ final, (final = .endEm ∨ final = .rmendEm) ∧ after.nextState = some final ∧
        after.oom = false := by
  have idle : after.waitResponse = false := by
    simp only [ConfigCache.stays, Bool.or_eq_false_iff] at leaves
    exact leaves.1
  have retries : ∀ {reason out}, Retried cache.state reason slot input.retry cache host out →
      out.cache = after → after = cache ∨ (after.oom = true ∧ after.waitResponse = false) ∨
      ∃ final, (final = .endEm ∨ final = .rmendEm) ∧ after.nextState = some final ∧
        after.oom = false := by
    intro reason out retried same
    cases retried with
    | unsent attempt failed =>
        cases attempt with
        | accepted _ _ _ _ _ => exact False.elim (failed rfl)
        | outOfMemory command vnm full =>
            have memory : after.oom = true := by rw [← same]
            exact .inr (.inl ⟨memory, idle⟩)
        | refused command vnm error =>
            refine .inr (.inr ⟨finalOf cache.state, finalOf_final _, ?_, ?_⟩)
            · rw [← same]
              rfl
            · rw [← same]
              rfl
        | unknown _ => exact .inl same.symm
    | resent attempt sent finishes =>
        -- a slot whose command was resent waits
        cases attempt with
        | accepted command vnm success _ _ =>
            rw [← same] at idle
            cases reason with
            | onTimeoutEm =>
                obtain ⟨_, _, rfl⟩ := finishes
                cases idle
            | onOomEm =>
                obtain ⟨_, rfl⟩ := finishes
                cases idle
            | onGuardTimerExpiredEm =>
                obtain ⟨_, rfl⟩ := finishes
                cases idle
        | _ => cases sent
  cases exception with
  | quiet _ => exact .inl rfl
  | expired _ _ retried => exact retries retried rfl
  | memory _ _ _ _ retried => exact retries retried rfl

theorem Engine.setCache_self (engine : Engine) (slot : Slot) (cache : ConfigCache) :
    (engine.setCache slot cache).cache slot = cache := by
  simp [setCache]

theorem Engine.setCache_other (engine : Engine) {slot other : Slot}
    (cache : ConfigCache) (different : other ≠ slot) :
    (engine.setCache slot cache).cache other = engine.cache other := by
  simp [setCache, different]

/-- A round leaves the other slots alone. -/
theorem RoundStep.other {input : RoundInput} {engine after : Engine} {slot other : Slot}
    (step : RoundStep input engine slot after) (different : other ≠ slot) :
    after.cache other = engine.cache other ∧
      after.occupied other = engine.occupied other := by
  cases step with
  | stays => exact ⟨Engine.setCache_other _ _ different, rfl⟩
  | moves => exact ⟨Engine.setCache_other _ _ different, rfl⟩
  | ends =>
      refine ⟨Engine.setCache_other _ _ different, ?_⟩
      have apart : slot.val ≠ other.val := fun same => different (Fin.ext same.symm)
      simp [releaseSlot, Engine.occupied, Engine.setCache, apart]

/-- A property that loading one node into a free slot preserves, `__caches_load`
preserves. -/
theorem loadSlots_invariant {type : LoadType} {property : Engine → Prop}
    (load : ∀ engine node rest slot, property engine →
      engine.lists.pending type = node :: rest → engine.occupied slot = false →
      property { cacheItemLoad engine slot node type with
        lists := engine.lists.setPending rest type })
    {engine : Engine} (holds : property engine) :
    property (loadSlots type (engine.lists.pending type) engine) := by
  generalize pending : engine.lists.pending type = list
  induction list generalizing engine with
  | nil => exact holds
  | cons node rest hypothesis =>
      unfold loadSlots
      by_cases free : utilsFrz engine.used < maxConcurrentConfigNodes
      · simp only [free, dite_true]
        have clear : engine.occupied ⟨utilsFrz engine.used, free⟩ = false := by
          apply utilsFrz_clear
          exact Nat.lt_trans free (by decide)
        apply hypothesis (load engine node rest _ holds pending clear)
        cases type <;> rfl
      · simp only [free, dite_false]
        exact holds

theorem cachesLoad_invariant {type : LoadType} {property : Engine → Prop}
    (load : ∀ engine node rest slot, property engine →
      engine.lists.pending type = node :: rest → engine.occupied slot = false →
      property { cacheItemLoad engine slot node type with
        lists := engine.lists.setPending rest type })
    {engine : Engine} (holds : property engine) : property (cachesLoad engine type) := by
  unfold cachesLoad
  by_cases full : utilsPopcount engine.used = maxConcurrentConfigNodes
  · simpa [full] using holds
  · simp only [full, if_false]
    exact loadSlots_invariant load holds

end Nwmng
