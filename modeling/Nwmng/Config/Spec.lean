/-
Module: Nwmng.Config.Spec
Purpose: What each callback of the configuration states can do to its slot, said
once, for every state.
Trusted boundary: none
Main exports:
  finalOf, guardHolds, Attempt, Retried, Handled, Entered, Lawful,
  accStates_lawful
-/
import Nwmng.Lib.Fallible
import Nwmng.Config.Engine

namespace Nwmng

open Fallible

/-!
## The states by their properties

The list of states is a list of functions in the source.  The properties below are what the rest
of the development knows of a state: its guard, its command, the status it waits for, its budget.
-/

/-- The state an error leads to. -/
def finalOf (state : AccState) : AccState :=
  if state = .rmEm then .rmendEm else .endEm

/-- The guard of a state, as a property of the node record. -/
def guardHolds (state : AccState) (node : Node) : Bool :=
  match state with
  | .getDcdEm | .rmEm => node.addr != 0
  | .addappkeyEm | .bindappkeyEm => hasBindings node.config
  | .setpubEm => publishesBoundKey node.config
  | .addsubEm => hasSublist node.config
  | .setconfigEm => featuresDiffer node.config
  | _ => true

/-- The states that send commands and wait for their status. -/
def isCommandState : AccState → Bool
  | .getDcdEm | .addappkeyEm | .bindappkeyEm | .setpubEm | .addsubEm | .setconfigEm
  | .rmEm => true
  | _ => false

/-- The result in the status event that a state waits for; `none` when the event
is not the one. -/
def ownStatus (state : AccState) (event : ConfigEvent) : Option UInt16 :=
  match state, event with
  | .getDcdEm, .dcdDataEnd _ result => some result
  | .addappkeyEm, .status .appkey _ result => some result
  | .bindappkeyEm, .status .binding _ result => some result
  | .setpubEm, .status .modelPub _ result => some result
  | .addsubEm, .status .modelSub _ result => some result
  | .setconfigEm, .status kind _ result => (featureOf kind).map fun _ => result
  | .rmEm, .status .reset _ result => some result
  | _, _ => none

/-- Composition data, for a slot that reads it. -/
def isPageFor (state : AccState) (event : ConfigEvent) : Bool :=
  match state, event with
  | .getDcdEm, .dcdData .. => true
  | _, _ => false

/-- The budget a state gives a command. -/
def retryTimesOf (state : AccState) : UInt8 :=
  if state = .rmEm then removeNodeRetryTimes else 5

/-- How a state gives up. -/
def giveUpOf (state : AccState) : ConfigCache → ConfigCache :=
  if state = .rmEm then giveUpRemoving else giveUpToEnd

/-- The lowest feature to change has no command. -/
def noFeatureCommand (node : Node) : Bool :=
  match nextConfigItem node.config.features with
  | some which => !knownFeature which
  | none => true

/-- The state has no command for the node of the slot: only setting features can
be in that situation. -/
def NoCommand (state : AccState) (cache : ConfigCache) (host : Host) : Prop :=
  state = .setconfigEm ∧
    ∃ id, cache.node = some id ∧ noFeatureCommand (host.db.heap id) = true

/-- The state that sends a command. -/
def Command.stateOf : Command → AccState
  | .getDcd .. => .getDcdEm
  | .addAppkey .. => .addappkeyEm
  | .bindModel .. => .bindappkeyEm
  | .setModelPub .. => .setpubEm
  | .setModelSub .. | .addModelSub .. => .addsubEm
  | .setRelay .. | .setGattProxy .. | .setFriend .. | .setDefaultTtl ..
  | .setNetworkTransmit .. | .setBeacon .. => .setconfigEm
  | .resetNode .. => .rmEm

/-! ## Sending -/

/-- The outcomes of an attempt to send a command for a slot.  The NCP accepts the command, has no
memory for it, or refuses it; or there is no command to be sent.  Every state shares these
outcomes, and later proofs read them instead of the callbacks. -/
inductive Attempt (state : AccState) (slot : Slot) (answer : CmdRsp)
    (cache : ConfigCache) (host : Host) : Outcome → Prop where
  | accepted (command : Command) (vnm : Vnm)
      (success : answer.result = bgErrSuccess) (exists_one : ¬ NoCommand state cache host)
      (belongs : command.stateOf = state) :
      Attempt state slot answer cache host
        { ret := .suc
          cache := ConfigCache.timerSet
            { cache with
              vnm := vnm, waitResponse := true, ccHandle := answer.handle }
            host.cfg.timeout answer.time
          host := host.record (.sent slot command answer) }
  | outOfMemory (command : Command) (vnm : Vnm) (full : answer.result = bgErrOutOfMemory)
      (exists_one : ¬ NoCommand state cache host)
      (belongs : command.stateOf = state) :
      Attempt state slot answer cache host
        { ret := .oom
          cache := { cache with vnm := vnm, oom := true }
          host := host.record (.sent slot command answer) }
  | refused (command : Command) (vnm : Vnm)
      (error : answer.result ≠ bgErrSuccess ∧ answer.result ≠ bgErrOutOfMemory)
      (exists_one : ¬ NoCommand state cache host)
      (belongs : command.stateOf = state) :
      Attempt state slot answer cache host
        { ret := .bgapi
          cache := ConfigCache.errSetTo (finalOf state) { cache with vnm := vnm }
            answer.result .bgapiEm
          host := host.record (.sent slot command answer) }
  | unknown (none_left : NoCommand state cache host) :
      Attempt state slot answer cache host
        { ret := .notfnd, cache := cache, host := host }

theorem send_attempt {state : AccState} {slot : Slot} {command : Command}
    {answer : CmdRsp} {cache : ConfigCache} {host : Host} (vnm : Vnm)
    (exists_one : ¬ NoCommand state cache host) (belongs : command.stateOf = state) :
    Attempt state slot answer cache host
      (send (finalOf state) slot command answer { cache with vnm := vnm } host) := by
  unfold send
  by_cases success : answer.result = bgErrSuccess
  · simp only [success, ne_eq, not_true, if_false]
    exact .accepted command vnm success exists_one belongs
  · by_cases full : answer.result = bgErrOutOfMemory
    · simp only [full, ne_eq, if_true]
      exact .outOfMemory command vnm full exists_one belongs
    · simp only [success, full, ne_eq, not_false_eq_true, if_true, if_false]
      exact .refused command vnm ⟨success, full⟩ exists_one belongs

instance (state : AccState) (cache : ConfigCache) (host : Host) :
    Decidable (NoCommand state cache host) :=
  inferInstanceAs (Decidable (_ ∧ ∃ id, cache.node = some id ∧ _))

/-- All other states always have a command. -/
theorem noCommand_setconfig {state : AccState} {cache : ConfigCache} {host : Host}
    (other : state ≠ .setconfigEm) : ¬ NoCommand state cache host :=
  fun none_left => other none_left.1

/-- The sending function of a state makes attempts of that state. -/
def SendsFor (state : AccState) (once : SendFn) : Prop :=
  ∀ {slot answer cache host out}, once slot answer cache host = .ok out →
    Attempt state slot answer cache host out

theorem dcdGet_sends : SendsFor .getDcdEm dcdGet := by
  intro slot answer cache host out sent
  simp only [dcdGet, bind_ok, Except.ok.injEq] at sent
  obtain ⟨netkey, _, _, _, rfl⟩ := sent
  exact send_attempt cache.vnm (noCommand_setconfig (by decide)) rfl

theorem addAppkey_sends : SendsFor .addappkeyEm addAppkey := by
  intro slot answer cache host out sent
  simp only [addAppkey, bind_ok, Except.ok.injEq] at sent
  obtain ⟨_, _, _, _, _, _, _, _, rfl⟩ := sent
  exact send_attempt cache.vnm (noCommand_setconfig (by decide)) rfl

/-- Noting the model changes nothing else. -/
theorem noteModel_eq {cache noted : ConfigCache} (noting : noteModel cache = .ok noted) :
    noted = { cache with vnm := noted.vnm } := by
  simp only [noteModel, bind_ok, Except.ok.injEq] at noting
  obtain ⟨_, _, _, _, rfl⟩ := noting
  rfl

theorem bindAppkey_sends : SendsFor .bindappkeyEm bindAppkey := by
  intro slot answer cache host out sent
  simp only [bindAppkey, bind_ok, Except.ok.injEq] at sent
  obtain ⟨noted, noting, _, _, _, _, _, _, _, _, rfl⟩ := sent
  rw [noteModel_eq noting]
  exact send_attempt noted.vnm (noCommand_setconfig (by decide)) rfl

theorem setpub_sends : SendsFor .setpubEm setpub := by
  intro slot answer cache host out sent
  simp only [setpub, bind_ok, Except.ok.injEq] at sent
  obtain ⟨noted, noting, _, _, _, _, _, _, _, _, rfl⟩ := sent
  rw [noteModel_eq noting]
  exact send_attempt noted.vnm (noCommand_setconfig (by decide)) rfl

theorem addsub_sends : SendsFor .addsubEm addsub := by
  intro slot answer cache host out sent
  simp only [addsub, bind_ok, Except.ok.injEq] at sent
  obtain ⟨noted, noting, _, _, _, _, _, _, _, _, rfl⟩ := sent
  rw [noteModel_eq noting]
  exact send_attempt noted.vnm (noCommand_setconfig (by decide)) (by split <;> rfl)

theorem rm_sends : SendsFor .rmEm rm := by
  intro slot answer cache host out sent
  simp only [rm, bind_ok, Except.ok.injEq] at sent
  obtain ⟨netkey, _, _, _, rfl⟩ := sent
  exact send_attempt cache.vnm (noCommand_setconfig (by decide)) rfl

theorem nodeOf_eq {host : Host} {cache : ConfigCache} {id : NodeId} {node : Node}
    (found : host.nodeOf cache = .ok (id, node)) :
    cache.node = some id ∧ node = host.db.heap id := by
  unfold Host.nodeOf at found
  cases here : cache.node with
  | none => simp [here] at found
  | some other =>
      simp only [here, Except.ok.injEq, Prod.mk.injEq] at found
      obtain ⟨rfl, rfl⟩ := found
      exact ⟨rfl, rfl⟩

/-- There is a command exactly for the known features. -/
theorem setconfigCommand_none {netkey : UInt16} {node : Node}
    (none_left : setconfigCommand netkey node (nextConfigItem node.config.features)
      = .ok none) : noFeatureCommand node = true := by
  unfold noFeatureCommand
  cases item : nextConfigItem node.config.features with
  | none => rfl
  | some which =>
      by_contra known
      simp only [knownFeature, Bool.not_eq_true', Bool.not_eq_false,
        List.contains_eq_mem, List.mem_cons, List.not_mem_nil, or_false,
        decide_eq_true_eq] at known
      rw [item] at none_left
      rcases known with rfl | rfl | rfl | rfl | rfl | rfl <;>
        simp [setconfigCommand, relayBitofs, proxyBitofs, friendBitofs, ttlBitofs,
          nettxBitofs, snbBitofs, bind_ok] at none_left

theorem setconfigCommand_some {netkey : UInt16} {node : Node} {command : Command}
    (chosen : setconfigCommand netkey node (nextConfigItem node.config.features)
      = .ok (some command)) :
    noFeatureCommand node = false ∧ command.stateOf = .setconfigEm := by
  unfold noFeatureCommand
  cases item : nextConfigItem node.config.features with
  | none =>
      rw [item] at chosen
      simp [setconfigCommand] at chosen
  | some which =>
      rw [item] at chosen
      constructor
      · by_contra unknown
        simp only [knownFeature, Bool.not_eq_false, Bool.not_eq_true',
          List.contains_eq_mem, List.mem_cons, List.not_mem_nil, or_false,
          decide_eq_false_iff_not, not_or] at unknown
        simp [setconfigCommand, unknown] at chosen
      · unfold setconfigCommand at chosen
        repeat' split at chosen
        all_goals first
          | (simp only [bind_ok, Except.ok.injEq, Option.some.injEq] at chosen
             obtain ⟨_, _, rfl⟩ := chosen
             rfl)
          | cases chosen

theorem setconfig_sends : SendsFor .setconfigEm setconfig := by
  intro slot answer cache host out sent
  simp only [setconfig, bind_ok] at sent
  obtain ⟨netkey, _, ⟨id, node⟩, found, command, chosen, sent⟩ := sent
  obtain ⟨here, rfl⟩ := nodeOf_eq found
  cases command with
  | some command =>
      simp only [Except.ok.injEq] at sent
      rw [← sent]
      refine send_attempt cache.vnm ?_ (setconfigCommand_some chosen).2
      rintro ⟨_, other, there, none_left⟩
      rw [here] at there
      cases there
      rw [(setconfigCommand_some chosen).1] at none_left
      cases none_left
  | none =>
      simp only [Except.ok.injEq] at sent
      rw [← sent]
      exact .unknown ⟨rfl, id, here, setconfigCommand_none chosen⟩

/-! ## Resending -/

/-- What a successful resend leaves, by its reason. -/
def AfterResend (reason : RetryReason) (sent after : ConfigCache) : Prop :=
  match reason with
  | .onTimeoutEm =>
      sent.everRetried = true ∧ sent.remainingRetry ≠ 0 ∧
        after = { sent with remainingRetry := sent.remainingRetry - 1 }
  | .onOomEm => sent.oom = true ∧ after = { sent with oom := false }
  | .onGuardTimerExpiredEm => sent.expired ≠ 0 ∧ after = { sent with expired := 0 }

/-- The outcomes of a retry.  A retry is an attempt, and where the command went out, the flag of
the reason for the retry is put right afterwards. -/
inductive Retried (state : AccState) (reason : RetryReason) (slot : Slot)
    (answer : CmdRsp) (cache : ConfigCache) (host : Host) : Outcome → Prop where
  | unsent {out : Outcome} (attempt : Attempt state slot answer cache host out)
      (failed : out.ret ≠ .suc) : Retried state reason slot answer cache host out
  | resent {out : Outcome} {after : ConfigCache}
      (attempt : Attempt state slot answer cache host out) (sent : out.ret = .suc)
      (finishes : AfterResend reason out.cache after) :
      Retried state reason slot answer cache host { out with cache := after }

theorem afterResend_eq {reason : RetryReason} {sent out : Outcome}
    (finishes : afterResend reason sent = .ok out) :
    ∃ after, AfterResend reason sent.cache after ∧ out = { sent with cache := after } := by
  unfold afterResend at finishes
  cases reason with
  | onTimeoutEm =>
      by_cases spent : sent.cache.everRetried = false ∨ sent.cache.remainingRetry = 0
      · simp [spent] at finishes
      · simp only [spent, if_false, Except.ok.injEq] at finishes
        simp only [not_or, Bool.not_eq_false] at spent
        exact ⟨_, ⟨spent.1, spent.2, rfl⟩, finishes.symm⟩
  | onOomEm =>
      by_cases memory : sent.cache.oom = false
      · simp [memory] at finishes
      · rw [if_neg memory, Except.ok.injEq] at finishes
        exact ⟨_, ⟨by simpa using memory, rfl⟩, finishes.symm⟩
  | onGuardTimerExpiredEm =>
      by_cases disarmed : sent.cache.expired = 0
      · simp [disarmed] at finishes
      · simp only [disarmed, if_false, Except.ok.injEq] at finishes
        exact ⟨_, ⟨disarmed, rfl⟩, finishes.symm⟩

theorem retryWith_retried {state : AccState} {once : SendFn} (sends : SendsFor state once)
    {reason : RetryReason} {slot : Slot} {answer : CmdRsp} {cache : ConfigCache}
    {host : Host} {out : Outcome}
    (retried : retryWith once reason slot answer cache host = .ok out) :
    Retried state reason slot answer cache host out := by
  simp only [retryWith, bind_ok] at retried
  obtain ⟨middle, sent, retried⟩ := retried
  by_cases success : middle.ret = .suc
  · simp only [success, ne_eq, not_true, if_false] at retried
    obtain ⟨after, finishes, rfl⟩ := afterResend_eq retried
    exact .resent (sends sent) success finishes
  · simp only [success, ne_eq, not_false_eq_true, if_true, Except.ok.injEq] at retried
    rw [← retried]
    exact .unsent (sends sent) success

/-!
## Events

A waiting slot takes its own status, a page of composition data, or an event that it does not
know.  Everything that may follow is one of a few outcomes, whatever the state.
-/

/-- The shared data before and after a success: only setting a feature changes
anything, in the record of the node. -/
def FeatureStep (state : AccState) (cache : ConfigCache) (host after : Host) : Prop :=
  after = host ∨
    state = .setconfigEm ∧ ∃ id which, cache.node = some id ∧
      after = { host with db := host.db.update id (onFeatureConfigured which) }

/-- The retry budget after an accepted status: cleared, except when a model has
no room for more subscriptions. -/
def BudgetStep (state : AccState) (result : UInt16) (cache : ConfigCache) (ever : Bool)
    (remaining : UInt8) : Prop :=
  (ever = false ∧ remaining = 0) ∨
    (state = .addsubEm ∧ result = bgErrMeshFoundationInsufficientResources ∧
      ever = cache.everRetried ∧ remaining = cache.remainingRetry)

/-- A slot that takes its status event: the timer is cleared, and it no longer
waits. -/
def ConfigCache.answered (cache : ConfigCache) : ConfigCache :=
  { cache.timerClear with waitResponse := false }

/-- The slot goes on with its list of commands. -/
def ConfigCache.going (cache : ConfigCache) (iterators : Iterators) (ever : Bool)
    (remaining : UInt8) : ConfigCache :=
  { cache.answered with
    iterators := iterators, everRetried := ever, remainingRetry := remaining }

/-- What an event can do to a slot that waits.  The event is foreign to the state, brings
composition data, or is the status that the slot waits for.  The timer is cleared in each of the
cases. -/
inductive Handled (state : AccState) (slot : Slot) (event : ConfigEvent)
    (answer : CmdRsp) (cache : ConfigCache) (host : Host) : Outcome → Prop where
  | unexpected (foreign : ownStatus state event = none)
      (noPage : isPageFor state event = false) :
      Handled state slot event answer cache host
        { ret := .unspec, cache := cache.timerClear, host := host }
  | page {handle : UInt32} {data : Bytes.Memory} {len : UInt8} {after : ConfigCache}
      {host' : Host} (reads : state = .getDcdEm)
      (first : event = .dcdData handle 0 data len)
      (stored : storePage data len cache.timerClear host = .ok (after, host')) :
      Handled state slot event answer cache host
        { ret := .suc, cache := after, host := host' }
  | otherPage (page : isPageFor state event = true) :
      Handled state slot event answer cache host
        { ret := .suc, cache := cache.timerClear, host := host }
  | timeout (own : ownStatus state event = some bgErrTimeout) :
      Handled state slot event answer cache host
        { ret := .suc
          cache := timedOut (retryTimesOf state) (giveUpOf state) cache.answered
          host := host }
  | failed {result : UInt16} (code : UInt16)
      (own : ownStatus state event = some result)
      (error : result ≠ bgErrSuccess ∧ result ≠ bgErrTimeout) :
      Handled state slot event answer cache host
        { ret := .suc
          cache := cache.answered.errSetTo (finalOf state) code .bgeventEm
          host := host }
  | resumed {id : NodeId} (reads : state = .getDcdEm) (here : cache.node = some id)
      (own : ownStatus state event = some bgErrSuccess) :
      Handled state slot event answer cache host
        { ret := .suc
          cache := afterDcd (host.db.heap id).err cache.answered.retryClear
          host := host }
  | removed (removes : state = .rmEm)
      (own : ownStatus state event = some bgErrSuccess) :
      Handled state slot event answer cache host
        { ret := .suc
          cache := { cache.answered.retryClear with nextState := none }
          host := host }
  | finished {result : UInt16} {id : NodeId} {after : Host} (iterators : Iterators)
      (ever : Bool) (remaining : UInt8)
      (own : ownStatus state event = some result) (fine : result ≠ bgErrTimeout)
      (here : cache.node = some id) (features : FeatureStep state cache host after)
      (budget : BudgetStep state result cache ever remaining)
      (configures : state ≠ .getDcdEm ∧ state ≠ .rmEm) :
      Handled state slot event answer cache host
        { ret := .suc
          cache := { cache.going iterators ever remaining with nextState := none }
          host := after.record
            (.completed (after.db.heap id).uuid (after.db.heap id).addr cache.state) }
  | continued {result : UInt16} {after : Host} {out : Outcome} (iterators : Iterators)
      (ever : Bool) (remaining : UInt8)
      (own : ownStatus state event = some result) (fine : result ≠ bgErrTimeout)
      (features : FeatureStep state cache host after)
      (budget : BudgetStep state result cache ever remaining)
      (attempt : Attempt state slot answer (cache.going iterators ever remaining) after
        out)
      (known : out.ret ≠ .notfnd) :
      Handled state slot event answer cache host out

/-- Finishing marks the state as completed. -/
theorem finish_eq {cache : ConfigCache} {host : Host} {out : Outcome}
    (finished : finish cache host = .ok out) :
    ∃ id, cache.node = some id ∧
      out = { ret := .suc
              cache := { cache with nextState := none }
              host := host.record
                (.completed (host.db.heap id).uuid (host.db.heap id).addr cache.state) } := by
  simp only [finish, bind_ok, Except.ok.injEq] at finished
  obtain ⟨⟨id, node⟩, found, rfl⟩ := finished
  obtain ⟨here, rfl⟩ := nodeOf_eq found
  exact ⟨id, here, rfl⟩

/-- An attempt of a state other than setting features always has a command. -/
theorem Attempt.known {state : AccState} {slot : Slot} {answer : CmdRsp}
    {cache : ConfigCache} {host : Host} {out : Outcome}
    (attempt : Attempt state slot answer cache host out) (other : state ≠ .setconfigEm) :
    out.ret ≠ .notfnd := by
  cases attempt with
  | accepted => intro impossible; cases impossible
  | outOfMemory => intro impossible; cases impossible
  | refused => intro impossible; cases impossible
  | unknown none_left => exact False.elim (other none_left.1)

/-- What the states that share the status handling have in common.  The states that iterate over
lists differ in the kind of their status, in what they accept and in how they find their next
command, and in nothing else. -/
structure StatusOps.Lawful (ops : StatusOps) (state : AccState) : Prop where
  own : ∀ handle result, ownStatus state (.status ops.kind handle result) = some result
  foreign : ∀ event, (∀ handle result, event ≠ .status ops.kind handle result) →
    ownStatus state event = none ∧ isPageFor state event = false
  iterates : state ≠ .getDcdEm ∧ state ≠ .rmEm ∧ state ≠ .setconfigEm
  budget : ops.retryTimes = 5
  accepts : ∀ {result cache host after}, ops.accept result cache host = .ok (some after) →
    result ≠ bgErrTimeout ∧ ∃ iterators ever remaining,
      after = { cache with
        iterators := iterators, everRetried := ever, remainingRetry := remaining } ∧
      BudgetStep state result cache ever remaining
  rejects : ∀ {cache host}, ops.accept bgErrSuccess cache host ≠ .ok none
  iter : ∀ {cache host finished after}, ops.iter cache host = .ok (finished, after) →
    after = { cache with iterators := after.iterators }
  sends : SendsFor state ops.once

theorem statusInprg_handled {ops : StatusOps} {state : AccState}
    (lawful : ops.Lawful state) {slot : Slot} {event : ConfigEvent} {answer : CmdRsp}
    {cache : ConfigCache} {host : Host} {out : Outcome}
    (handled : statusInprg ops slot event answer cache host = .ok out) :
    Handled state slot event answer cache host out := by
  have final : finalOf state = .endEm := by simp [finalOf, lawful.iterates.2.1]
  have giveUp : giveUpOf state = giveUpToEnd := by simp [giveUpOf, lawful.iterates.2.1]
  have times : retryTimesOf state = ops.retryTimes := by
    simp [retryTimesOf, lawful.iterates.2.1, lawful.budget]
  -- every event but the state's own status is unexpected
  have unexpected : (∀ handle result, event ≠ .status ops.kind handle result) →
      out = { ret := .unspec, cache := cache.timerClear, host := host } →
      Handled state slot event answer cache host out := by
    rintro foreign rfl
    exact .unexpected (lawful.foreign event foreign).1 (lawful.foreign event foreign).2
  cases event with
  | dcdData handle page data len =>
      simp only [statusInprg, Except.ok.injEq] at handled
      exact unexpected (by simp) handled.symm
  | dcdDataEnd handle result =>
      simp only [statusInprg, Except.ok.injEq] at handled
      exact unexpected (by simp) handled.symm
  | other id =>
      simp only [statusInprg, Except.ok.injEq] at handled
      exact unexpected (by simp) handled.symm
  | status kind handle result =>
      by_cases same : kind = ops.kind
      · subst same
        have own := lawful.own handle result
        simp only [statusInprg, ne_eq, not_true, if_false, bind_ok] at handled
        obtain ⟨accepted, accepts, handled⟩ := handled
        cases accepted with
        | some after =>
            obtain ⟨fine, iterators, ever, remaining, rfl, budget⟩ :=
              lawful.accepts accepts
            simp only [bind_ok] at handled
            obtain ⟨⟨finished, iterated⟩, iterates, handled⟩ := handled
            have advanced := lawful.iter iterates
            rw [advanced] at handled
            by_cases done : finished = true
            · simp only [done, if_true] at handled
              obtain ⟨id, here, rfl⟩ := finish_eq handled
              exact .finished iterated.iterators ever remaining own fine here (.inl rfl)
                budget ⟨lawful.iterates.1, lawful.iterates.2.1⟩
            · simp only [done] at handled
              have attempt := lawful.sends handled
              exact .continued iterated.iterators ever remaining own fine (.inl rfl)
                budget attempt (attempt.known lawful.iterates.2.2)
        | none =>
            by_cases timeout : result = bgErrTimeout
            · subst timeout
              simp only [if_true, Except.ok.injEq] at handled
              rw [← handled, ← times, ← giveUp]
              exact .timeout own
            · simp only [timeout, if_false, bind_ok, Except.ok.injEq] at handled
              obtain ⟨_, _, rfl⟩ := handled
              have error : result ≠ bgErrSuccess := by
                rintro rfl
                exact lawful.rejects accepts
              have outcome : Handled state slot _ answer cache host _ :=
                .failed (ops.errcode result) own ⟨error, timeout⟩
              rw [final] at outcome
              exact outcome
      · simp only [statusInprg, same, ne_eq, not_false_eq_true, if_true,
          Except.ok.injEq] at handled
        apply unexpected _ handled.symm
        intro handle' result' impossible
        exact same (ConfigEvent.status.inj impossible).1

end Nwmng
