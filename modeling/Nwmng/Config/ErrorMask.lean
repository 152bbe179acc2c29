/-
Module: Nwmng.Config.ErrorMask
Purpose: The error mask that the end of a failed slot leaves in the node record, and the state
whose command failed.
Trusted boundary: none
Main exports:
  SlotState.ErrorNamed, SlotOp.EntryTaken, error_named_iff, refused_entry_misnamed
-/
import Nwmng.Config.SlotRun

namespace Nwmng

open Transition Fallible

/-- The states that a configuration can be resumed from. -/
def AccState.resumable : AccState → Bool
  | .addappkeyEm | .bindappkeyEm | .setpubEm | .addsubEm | .setconfigEm => true
  | _ => false

/-- The mask that the slot has left in the node record is the bit of the state whose command it
has sent last, and a configuration with this mask goes on from that state, if it is one to resume
from. -/
def SlotState.ErrorNamed (slot : Slot) (final : SlotState) : Prop :=
  ∃ (command : Command) (before : CfgDb) (id : NodeId),
    final.host.lastSentBy slot = some command ∧
    final.cache.errBits = command.stateOf.errorBit ∧
    final.cache.node = some id ∧
    before.nodesetErrbits (before.heap id).addr command.stateOf.errorBit =
      .ok final.host.db ∧
    ∀ cache, (afterDcd command.stateOf.errorBit cache).nextState =
      if command.stateOf.resumable then some command.stateOf else none

/-- The API refuses the command of the state that a slot enters.  The slot has not moved at that
moment: it still is in the state that it leaves, whose bit is therefore stored. -/
def RefusedAtEntry (answer : CmdRsp) (cache : ConfigCache) (host : Host) : Prop :=
  (answer.result ≠ bgErrSuccess ∧ answer.result ≠ bgErrOutOfMemory) ∧
    ∃ state ∈ firstOpen cache host, isCommandState state = true ∧ ¬ NoCommand state cache host

instance refusedAtEntryDecidable (answer : CmdRsp) (cache : ConfigCache) (host : Host) :
    Decidable (RefusedAtEntry answer cache host) := by
  unfold RefusedAtEntry
  infer_instance

/-- A slot that leaves its state after this resend is not refused the command of the next one. -/
def LeavesUnrefused (answer : CmdRsp) : Except Abort (ConfigCache × Host) → Prop
  | .ok (cache, host) => cache.stays = false → ¬ RefusedAtEntry answer cache host
  | .error _ => True

instance leavesUnrefusedDecidable (answer : CmdRsp) :
    (resent : Except Abort (ConfigCache × Host)) → Decidable (LeavesUnrefused answer resent)
  | .ok (cache, host) =>
      inferInstanceAs (Decidable (cache.stays = false → ¬ RefusedAtEntry answer cache host))
  | .error _ => isTrue trivial

/-- The condition on a step of the run of a slot. -/
def SlotOp.EntryTaken (slot : Slot) (source : SlotState) : SlotOp → Prop
  | .round manager input =>
      source.freed = false →
        LeavesUnrefused input.entry
          (retryException manager slot input source.cache source.host)
  | _ => True

instance entryTakenDecidable (slot : Slot) (source : SlotState) :
    (op : SlotOp) → Decidable (op.EntryTaken slot source)
  | .round manager input =>
      inferInstanceAs (Decidable (source.freed = false →
        LeavesUnrefused input.entry
          (retryException manager slot input source.cache source.host)))
  | .event .. => isTrue trivial
  | .outside .. => isTrue trivial

/-! ## Masks -/

theorem AccState.errorBit_inj {state other : AccState}
    (same : state.errorBit = other.errorBit) : state = other := by
  revert same
  cases state <;> cases other <;> decide

theorem AccState.code_inj {state other : AccState} (same : state.code = other.code) :
    state = other := by
  revert same
  cases state <;> cases other <;> decide

theorem Command.stateOf_commands (command : Command) :
    isCommandState command.stateOf = true := by
  cases command <;> rfl

/-- The mask of one state leads back to this state. -/
theorem afterDcd_named (state : AccState) (cache : ConfigCache) :
    (afterDcd state.errorBit cache).nextState =
      if state.resumable then some state else none := by
  cases state <;> rfl

/-- An error that is the first one leaves the bit of the state it is recorded in. -/
theorem ConfigCache.errSetTo_errBits (final : AccState) {cache : ConfigCache} (code : UInt16)
    (origin : BgerrType) (clean : cache.errCache.bgcall = 0 ∧ cache.errCache.bgevt = 0) :
    (errSetTo final cache code origin).errBits = cache.state.errorBit := by
  have small : cache.state.errorBit &&& 0x7FFFFFFF#32 = cache.state.errorBit := by
    cases cache.state <;> decide
  cases origin with
  | bgapiEm => simp [errSetTo, errSet, clrCacheCtl, errBits, clean.1, clean.2, small]
  | bgeventEm => simp [errSetTo, errSet, clrCacheCtl, errBits, clean.1, clean.2, small]

/-!
## A slot without an error, and one with an error

The mask of a slot is that of its last command, until a command fails; from then on nothing is
sent any more.  The one exception is a command that is refused while a state is entered: the bit
is set before the slot has changed its state.
-/

/-- The state a slot is on its way to does not lie before its own.  The states are numbered in
the order in which they are gone through, and no callback goes back. -/
def ConfigCache.Forward (cache : ConfigCache) : Prop :=
  ∀ next, cache.nextState = some next → cache.state.code ≤ next.code

/-- The slot has sent a command of its state last. -/
def AsksOwn (slot : Slot) (cache : ConfigCache) (host : Host) : Prop :=
  ∃ command, host.lastSentBy slot = some command ∧ command.stateOf = cache.state

/-- A slot without an error.  The command it waits for is one of the state it is in, so that an
error reported by an event names this state. -/
structure Unfailed (slot : Slot) (cache : ConfigCache) (host : Host) : Prop where
  here : cache.node.isSome = true
  forward : cache.Forward
  asks : cache.waitResponse = true → AsksOwn slot cache host
  clean : cache.errCache.bgcall = 0 ∧ cache.errCache.bgevt = 0

/-- A slot whose command has failed: it does nothing more, and goes to its final state.  From
here on neither an event nor a round changes the error that was recorded. -/
structure Failing (slot : Slot) (cache : ConfigCache) (host : Host) : Prop where
  here : cache.node.isSome = true
  asked : AsksOwn slot cache host
  bits : cache.errBits = cache.state.errorBit
  failed : cache.failed = true
  idle : cache.waitResponse = false
  fresh : cache.everRetried = false
  memory : cache.oom = false
  disarmed : cache.expired = 0
  leads : cache.nextState = some (finalOf cache.state)

/-- The mask that is left is that of the slot, and is that of its last command.  As long as the
slot holds its node, it is either without an error or failing; once it is free, what was stored
names the failing state. -/
def SlotState.Sound (slot : Slot) (state : SlotState) : Prop :=
  (state.freed = false → Unfailed slot state.cache state.host ∨
      Failing slot state.cache state.host) ∧
    (state.freed = true → state.cache.failed = true → state.ErrorNamed slot)

/-- The mask that is left names another state than that of the last command. -/
def SlotState.Misnamed (slot : Slot) (state : SlotState) : Prop :=
  state.freed = true ∧ ∃ command other, state.host.lastSentBy slot = some command ∧
    state.cache.errBits = AccState.errorBit other ∧ other ≠ command.stateOf

section

variable {slot : Slot} {cache after : ConfigCache} {host host' : Host}

theorem Unfailed.of (own : Unfailed slot cache host) (node : after.node = cache.node)
    (errors : after.errCache = cache.errCache) (forward : after.Forward)
    (asks : after.waitResponse = true → AsksOwn slot after host') :
    Unfailed slot after host' where
  here := node ▸ own.here
  forward := forward
  asks := asks
  clean := errors ▸ own.clean

theorem Unfailed.failed (own : Unfailed slot cache host) : cache.failed = false := by
  simp [ConfigCache.failed, own.clean.1, own.clean.2]

/-- The first error of a slot names its state. -/
theorem Unfailed.fails (own : Unfailed slot cache host) (asked : AsksOwn slot cache host')
    (code : UInt16) (origin : BgerrType) :
    Failing slot (cache.errSetTo (finalOf cache.state) code origin) host' where
  here := by cases origin <;> exact own.here
  asked := by
    obtain ⟨command, last, belongs⟩ := asked
    exact ⟨command, last, belongs.trans (ConfigCache.errSetTo_state _ cache code origin).symm⟩
  bits := by
    rw [ConfigCache.errSetTo_state]
    exact ConfigCache.errSetTo_errBits _ code origin own.clean
  failed := ConfigCache.errSetTo_failed _ cache code origin
  idle := rfl
  fresh := rfl
  memory := rfl
  disarmed := by cases origin <;> rfl
  leads := by
    rw [ConfigCache.errSetTo_state]
    rfl

theorem AsksOwn.commands (asked : AsksOwn slot cache host) :
    isCommandState cache.state = true := by
  obtain ⟨command, _, belongs⟩ := asked
  rw [← belongs]
  exact command.stateOf_commands

/-- A slot whose command has failed leaves its state. -/
theorem Failing.leaves (own : Failing slot cache host) : cache.stays = false := by
  have other := finalOf_ne own.asked.commands
  simp [ConfigCache.stays, own.idle, own.leads, other]

/-- Outside the slot only the command that it has sent last matters. -/
theorem named_of_lastSent (last : host'.lastSentBy slot = host.lastSentBy slot)
    (own : Unfailed slot cache host ∨ Failing slot cache host) :
    Unfailed slot cache host' ∨ Failing slot cache host' := by
  have asks : AsksOwn slot cache host → AsksOwn slot cache host' := by
    rintro ⟨command, sent, belongs⟩
    exact ⟨command, last.trans sent, belongs⟩
  rcases own with unfailed | failing
  · exact .inl (unfailed.of rfl rfl unfailed.forward fun waits => asks (unfailed.asks waits))
  · exact .inr { failing with asked := asks failing.asked }

/-! ## Attempts -/

/-- An attempt of the own state leaves the slot without an error, or with the right one. -/
theorem Attempt.named {answer : CmdRsp} {out : Outcome}
    (attempt : Attempt cache.state slot answer cache host out)
    (own : Unfailed slot cache host) :
    Unfailed slot out.cache out.host ∨ Failing slot out.cache out.host := by
  cases attempt with
  | accepted command vnm _ _ belongs =>
      exact .inl (own.of rfl rfl own.forward fun _ =>
        ⟨command, host.lastSentBy_sent slot command answer, belongs⟩)
  | outOfMemory command vnm _ _ belongs =>
      exact .inl (own.of rfl rfl own.forward fun _ =>
        ⟨command, host.lastSentBy_sent slot command answer, belongs⟩)
  | refused command vnm _ _ belongs =>
      have noted : Unfailed slot { cache with vnm := vnm } host :=
        own.of rfl rfl own.forward own.asks
      exact .inr (noted.fails
        ⟨command, host.lastSentBy_sent slot command answer, belongs⟩ answer.result .bgapiEm)
  | unknown _ => exact .inl own

theorem AfterResend.unfailed {reason : RetryReason} (finishes : AfterResend reason cache after)
    (own : Unfailed slot cache host) : Unfailed slot after host := by
  cases reason with
  | onTimeoutEm =>
      obtain ⟨_, _, rfl⟩ := finishes
      exact own.of rfl rfl own.forward own.asks
  | onOomEm =>
      obtain ⟨_, rfl⟩ := finishes
      exact own.of rfl rfl own.forward own.asks
  | onGuardTimerExpiredEm =>
      obtain ⟨_, rfl⟩ := finishes
      exact own.of rfl rfl own.forward own.asks

theorem Retried.named {reason : RetryReason} {answer : CmdRsp} {out : Outcome}
    (retried : Retried cache.state reason slot answer cache host out)
    (own : Unfailed slot cache host) :
    Unfailed slot out.cache out.host ∨ Failing slot out.cache out.host := by
  cases retried with
  | unsent attempt _ => exact attempt.named own
  | @resent middle after attempt sent finishes =>
      rcases attempt.named own with unfailed | failing
      · exact .inl (finishes.unfailed unfailed)
      · cases attempt with
        | accepted _ _ _ _ _ =>
            have waits := failing.idle
            cases waits
        | _ => cases sent

/-! ## Events -/

theorem AsksOwn.kept (asked : AsksOwn slot cache host) (state : after.state = cache.state)
    (last : host'.lastSentBy slot = host.lastSentBy slot) : AsksOwn slot after host' := by
  obtain ⟨command, sent, belongs⟩ := asked
  exact ⟨command, last.trans sent, belongs.trans state.symm⟩

theorem resumeState_later {err : BitVec 32} {state : AccState}
    (found : resumeState err = some state) : AccState.getDcdEm.code ≤ state.code := by
  have member := List.mem_of_find?_eq_some found
  simp only [List.mem_cons, List.not_mem_nil, or_false] at member
  rcases member with rfl | rfl | rfl | rfl | rfl <;> decide

/-- What composition data lead to does not lie before its state. -/
theorem afterDcd_forward {err : BitVec 32} (reads : cache.state = .getDcdEm)
    (forward : cache.Forward) : (afterDcd err cache).Forward := by
  unfold afterDcd
  by_cases failed : (decide (AccState.getDcdEm.errorBit < err) &&
      decide (err < AccState.endEm.errorBit)) = true
  · rw [if_pos failed]
    cases found : resumeState err with
    | none => exact forward
    | some state =>
        intro next same
        cases same
        change cache.state.code ≤ state.code
        rw [reads]
        exact resumeState_later found
  · rw [if_neg failed]
    intro next impossible
    cases impossible

theorem afterDcd_errCache (err : BitVec 32) (cache : ConfigCache) :
    (afterDcd err cache).errCache = cache.errCache ∧ (afterDcd err cache).node = cache.node ∧
      (afterDcd err cache).waitResponse = cache.waitResponse := by
  unfold afterDcd
  split
  · split <;> exact ⟨rfl, rfl, rfl⟩
  · exact ⟨rfl, rfl, rfl⟩

/-- A timeout leaves the slot without an error, or with the right one. -/
theorem timedOut_named (own : Unfailed slot cache host) (asked : AsksOwn slot cache host) :
    Unfailed slot (timedOut (retryTimesOf cache.state) (giveUpOf cache.state) cache.answered)
        host ∨
      Failing slot (timedOut (retryTimesOf cache.state) (giveUpOf cache.state) cache.answered)
        host := by
  have answered : Unfailed slot cache.answered host :=
    own.of rfl rfl own.forward fun waits => nomatch waits
  rcases timedOut_cases (retryTimesOf cache.state) (giveUpOf cache.state) cache.answered with
    ⟨_, same⟩ | ⟨_, _, same⟩ | ⟨_, _, same⟩
  · rw [same]
    exact .inl (answered.of rfl rfl answered.forward fun waits => nomatch waits)
  · rw [same]
    unfold giveUpOf
    by_cases removes : cache.state = .rmEm
    · rw [if_pos removes]
      exact .inl (answered.of rfl rfl (fun next impossible => nomatch impossible)
        fun waits => nomatch waits)
    · rw [if_neg removes]
      have cleared : Unfailed slot cache.answered.retryClear host :=
        answered.of rfl rfl answered.forward fun waits => nomatch waits
      have recorded := cleared.fails (asked.kept rfl rfl) bgErrTimeout .bgeventEm
      have final : finalOf cache.answered.retryClear.state = .endEm := by
        change finalOf cache.state = .endEm
        simp [finalOf, removes]
      rw [final] at recorded
      exact .inr recorded
  · rw [same]
    exact .inl answered

/-- An event that a waiting slot takes leaves it without an error, or with the right one. -/
theorem Handled.named {packet : ConfigEvent} {answer : CmdRsp} {out : Outcome}
    (handled : Handled cache.state slot packet answer cache host out)
    (own : Unfailed slot cache host) (asked : AsksOwn slot cache host) :
    Unfailed slot out.cache out.host ∨ Failing slot out.cache out.host := by
  have answered : Unfailed slot cache.answered host :=
    own.of rfl rfl own.forward fun waits => nomatch waits
  cases handled with
  | unexpected _ _ => exact .inl (own.of rfl rfl own.forward fun _ => asked.kept rfl rfl)
  | page _ _ stored =>
      have same := storePage_eq stored
      have log := storePage_log stored
      rw [same]
      exact .inl (own.of rfl rfl own.forward fun _ =>
        asked.kept rfl (Host.lastSentBy_congr slot log))
  | otherPage _ => exact .inl (own.of rfl rfl own.forward fun _ => asked.kept rfl rfl)
  | timeout _ => exact timedOut_named own asked
  | failed code _ _ => exact .inr (answered.fails (asked.kept rfl rfl) code .bgeventEm)
  | @resumed id reads _ _ =>
      have cleared : Unfailed slot cache.answered.retryClear host :=
        answered.of rfl rfl answered.forward fun waits => nomatch waits
      obtain ⟨errors, node, waits⟩ :=
        afterDcd_errCache (host.db.heap id).err cache.answered.retryClear
      refine .inl (cleared.of node errors (afterDcd_forward reads cleared.forward) ?_)
      intro waiting
      rw [waits] at waiting
      cases waiting
  | removed _ _ =>
      exact .inl (answered.of rfl rfl (fun next impossible => nomatch impossible)
        fun waits => nomatch waits)
  | finished _ _ _ _ _ _ _ _ _ =>
      exact .inl (answered.of rfl rfl (fun next impossible => nomatch impossible)
        fun waits => nomatch waits)
  | @continued _ between _ iterators ever remaining _ _ _ _ attempt _ =>
      have going : Unfailed slot (cache.going iterators ever remaining) between :=
        answered.of rfl rfl answered.forward fun waits => nomatch waits
      exact attempt.named going

/-- A slot whose command has failed takes no more events. -/
theorem TakesEvent.named {packet : ConfigEvent} {answer : CmdRsp} {out : Outcome}
    (takes : TakesEvent slot packet answer cache host out)
    (own : Unfailed slot cache host ∨ Failing slot cache host) :
    Unfailed slot out.cache out.host ∨ Failing slot out.cache out.host := by
  cases takes with
  | ignored _ => exact own
  | handled _ waits handled =>
      rcases own with unfailed | failing
      · exact handled.named unfailed (unfailed.asks waits)
      · rw [failing.idle] at waits
        cases waits

theorem EventStep.named {manager : MngState} {packet : ConfigEvent} {input : EventInput}
    (step : EventStep manager slot packet input cache host after host')
    (own : Unfailed slot cache host ∨ Failing slot cache host) :
    Unfailed slot after host' ∨ Failing slot after host' := by
  cases step with
  | settled takes _ => exact takes.named own
  | @resent out last takes _ _ _ ever retried =>
      rw [← takes.sameWork.1] at retried
      have log := Host.lastSentBy_congr slot (countRetry_log manager last.host)
      have counted : Unfailed slot last.cache last.host ∨ Failing slot last.cache last.host := by
        rcases takes.named own with unfailed | failing
        · exact retried.named unfailed
        · rw [failing.fresh] at ever
          cases ever
      exact named_of_lastSent log counted

/-!
## Rounds

A slot that leaves its state goes through the entries of several states in one round.  The
induction is on the list of states it may enter, with the last command sent as the invariant.
-/

theorem ExceptionStep.named {manager : MngState} {input : RoundInput}
    (exception : ExceptionStep manager slot input cache host after host')
    (own : Unfailed slot cache host ∨ Failing slot cache host) :
    Unfailed slot after host' ∨ Failing slot after host' := by
  cases exception with
  | quiet _ => exact own
  | @expired out _ late retried =>
      have log := Host.lastSentBy_congr slot (countRetry_log manager out.host)
      rcases own with unfailed | failing
      · exact named_of_lastSent log (retried.named unfailed)
      · simp [ConfigCache.guardExpired, failing.disarmed] at late
  | @memory out _ _ memory _ retried =>
      have log := Host.lastSentBy_congr slot (countRetry_log manager out.host)
      rcases own with unfailed | failing
      · exact named_of_lastSent log (retried.named unfailed)
      · rw [failing.memory] at memory
        cases memory

/-- The end of a failed slot stores its mask. -/
theorem endEntry_persists {guard : Option GuardFn} {answer : CmdRsp} {out : Outcome}
    (failed : cache.failed = true)
    (entered : endEntry guard slot answer cache host = .ok out) :
    out.host.log = host.log ∧ ∃ id, cache.node = some id ∧
      host.db.nodesetErrbits (host.db.heap id).addr cache.errBits = .ok out.host.db := by
  simp only [endEntry, bind_ok, failed, if_true, Except.ok.injEq] at entered
  obtain ⟨⟨id, node⟩, found, db, stored, rfl⟩ := entered
  obtain ⟨here, rfl⟩ := nodeOf_eq found
  exact ⟨rfl, id, here, stored⟩

theorem rmendEntry_persists {guard : Option GuardFn} {answer : CmdRsp} {out : Outcome}
    (failed : cache.failed = true)
    (entered : rmendEntry guard slot answer cache host = .ok out) :
    out.host.log = host.log ∧ ∃ id, cache.node = some id ∧
      host.db.nodesetErrbits (host.db.heap id).addr cache.errBits = .ok out.host.db := by
  simp only [rmendEntry, bind_ok, failed, if_true, Except.ok.injEq] at entered
  obtain ⟨⟨id, node⟩, found, db, stored, rfl⟩ := entered
  obtain ⟨here, rfl⟩ := nodeOf_eq found
  exact ⟨rfl, id, here, stored⟩

/-- The states behind the head of the list found for a state come later. -/
theorem asGet_tail_later (state : AccState) :
    ∀ ops ∈ (asGet state).tail, state.code < ops.state.code := by
  have codes : ∀ later ∈ (asGet state).tail.map AccStateOps.state, state.code < later.code := by
    cases state <;> decide
  intro ops member
  exact codes ops.state (List.mem_map_of_mem member)

theorem asGet_later {state : AccState} {ops : AccStateOps} (member : ops ∈ asGet state) :
    state.code ≤ ops.state.code := by
  cases found : asGet state with
  | nil => simp [found] at member
  | cons head rest =>
      rw [found] at member
      rcases List.mem_cons.mp member with rfl | behind
      · rw [(asGet_cons found).1]
      · apply Nat.le_of_lt
        apply asGet_tail_later
        rw [found]
        exact behind

/-- A slot leaves its state for later ones. -/
theorem ConfigCache.Forward.leaves {targets : List AccStateOps} (forward : cache.Forward)
    (leaving : cache.stays = false) (leads : leaveTargets cache = .ok targets) :
    ∀ ops ∈ targets, cache.state.code < ops.state.code := by
  rcases leaveTargets_cases leads with ⟨own, found⟩ | ⟨state, next, found, _⟩
  · have later := asGet_tail_later cache.state
    rw [found, List.tail_cons] at later
    exact later
  · have other : state ≠ cache.state := by
      rintro rfl
      simp [stays, next] at leaving
    have before := forward state next
    intro ops member
    have behind : state.code ≤ ops.state.code := by
      apply asGet_later
      rw [found]
      exact member
    have apart : cache.state.code ≠ state.code := fun same =>
      other (AccState.code_inj same).symm
    omega

/-- A slot whose command has failed ends, and leaves the bit of the command. -/
theorem Arrived.of_failing {targets : List AccStateOps} {answer : CmdRsp}
    (arrived : Arrived targets slot answer cache host after host')
    (leads : leaveTargets cache = .ok targets) (own : Failing slot cache host) :
    after.ended = true ∧
      ∀ spent freed, ({ cache := after, host := host', spent := spent, freed := freed } :
        SlotState).ErrorNamed slot := by
  obtain ⟨command, sent, belongs⟩ := own.asked
  obtain ⟨id, here⟩ := Option.isSome_iff_exists.mp own.here
  -- the way leads to the final state, whose guard is open
  obtain ⟨head, rest, found, same⟩ :
      ∃ head rest, targets = head :: rest ∧ head.state = finalOf cache.state := by
    unfold leaveTargets at leads
    simp only [own.leads] at leads
    rcases finalOf_final cache.state with final | final
    · rw [final] at leads ⊢
      cases leads
      exact ⟨asEnd, _, rfl, rfl⟩
    · rw [final] at leads ⊢
      cases leads
      exact ⟨asRmend, _, rfl, rfl⟩
  have opened : guardHolds head.state (host.db.heap id) = true := by
    rw [same]
    rcases finalOf_final cache.state with final | final <;> rw [final] <;> rfl
  have passive : isCommandState head.state = false := by
    rw [same]
    rcases finalOf_final cache.state with final | final <;> rw [final] <;> rfl
  have first : ∀ {before behind : List AccStateOps} {ops : AccStateOps},
      targets = before ++ ops :: behind →
      (∀ other ∈ before, ∀ id, cache.node = some id →
        guardHolds other.state (host.db.heap id) = false) → ops = head := by
    intro before behind ops split skipped
    cases before with
    | nil =>
        rw [found] at split
        exact (List.cons.inj split).1.symm
    | cons other before =>
        rw [found] at split
        have closed := skipped other List.mem_cons_self id here
        rw [← (List.cons.inj split).1, opened] at closed
        cases closed
  cases arrived with
  | nowhere skipped =>
      have closed := skipped head (found ▸ List.mem_cons_self) id here
      rw [opened] at closed
      cases closed
  | @entered before behind ops out split skipped entry ret =>
      cases first split skipped
      have named : ∀ {last : Host}, last.log = host.log →
          (∃ id, cache.node = some id ∧
            host.db.nodesetErrbits (host.db.heap id).addr cache.errBits = .ok last.db) →
          ∀ spent freed,
            ({ cache := { cache with state := head.state, nextState := some head.state }
               host := last, spent := spent, freed := freed } : SlotState).ErrorNamed slot := by
        rintro last log ⟨id, here, stored⟩ spent freed
        have bits : cache.errBits = command.stateOf.errorBit := by rw [own.bits, belongs]
        rw [bits] at stored
        exact ⟨command, host.db, id, (Host.lastSentBy_congr slot log).trans sent, bits, here,
          stored, afterDcd_named command.stateOf⟩
      cases entry with
      | skipped _ => rcases ret with impossible | impossible <;> cases impossible
      | attempted commands _ _ _ _ =>
          rw [passive] at commands
          cases commands
      | noCommand _ _ none_left =>
          rw [none_left.1] at passive
          cases passive
      | ended final conclusion =>
          obtain ⟨log, stored⟩ := endEntry_persists own.failed conclusion
          exact ⟨by simp [ConfigCache.ended, final], named log stored⟩
      | removed final conclusion =>
          obtain ⟨log, stored⟩ := rmendEntry_persists own.failed conclusion
          exact ⟨by simp [ConfigCache.ended, final], named log stored⟩
  | @refused before behind ops out last split skipped entry ret conclusion =>
      cases first split skipped
      cases entry with
      | attempted commands _ _ _ _ =>
          rw [passive] at commands
          cases commands
      | _ => cases ret

/-- A slot without an error enters the next state without one, unless the API refuses the
command of that state: then it ends, and leaves the bit of the state before. -/
theorem Arrived.of_unfailed {targets : List AccStateOps} {answer : CmdRsp}
    (arrived : Arrived targets slot answer cache host after host')
    (leads : leaveTargets cache = .ok targets) (leaving : cache.stays = false)
    (own : Unfailed slot cache host) :
    (¬ RefusedAtEntry answer cache host ∧ Unfailed slot after host') ∨
      (RefusedAtEntry answer cache host ∧ after.ended = true ∧
        ∃ command other, host'.lastSentBy slot = some command ∧
          after.errBits = AccState.errorBit other ∧ other ≠ command.stateOf) := by
  obtain ⟨id, here⟩ := Option.isSome_iff_exists.mp own.here
  have idle : cache.waitResponse = false := by
    simp only [ConfigCache.stays, Bool.or_eq_false_iff] at leaving
    exact leaving.1
  cases arrived with
  | nowhere skipped =>
      refine .inl ⟨?_, own⟩
      rintro ⟨_, state, first, _, _⟩
      have none_ : firstOpen cache host = none := by
        have closed : targets.find? (fun ops => guardHolds ops.state (host.db.heap id)) =
            none := by
          rw [List.find?_eq_none]
          intro ops member
          simp [skipped ops member id here]
        simp [firstOpen, leads, here, closed]
      rw [none_] at first
      cases first
  | @entered before behind ops out split skipped entry ret =>
      have first : guardHolds ops.state (host.db.heap id) = true →
          firstOpen cache host = some ops.state := fun opened =>
        firstOpen_of_skipped leads here split skipped opened
      have arrives : ∀ {cache' : ConfigCache} {last : Host}, cache'.node = cache.node →
          cache'.errCache = cache.errCache →
          (cache'.waitResponse = true → ∃ command, last.lastSentBy slot = some command ∧
            command.stateOf = ops.state) →
          Unfailed slot { cache' with state := ops.state, nextState := some ops.state }
            last := by
        intro cache' last node errors asks
        refine own.of node errors ?_ asks
        intro next same
        cases same
        exact Nat.le_refl _
      cases entry with
      | skipped _ => rcases ret with impossible | impossible <;> cases impossible
      | attempted _ _ _ attempt known =>
          cases attempt with
          | accepted command vnm success _ belongs =>
              exact .inl ⟨fun refused => refused.1.1 success, arrives rfl rfl fun _ =>
                ⟨command, host.lastSentBy_sent slot command answer, belongs⟩⟩
          | outOfMemory command vnm full _ belongs =>
              exact .inl ⟨fun refused => refused.1.2 full, arrives rfl rfl fun _ =>
                ⟨command, host.lastSentBy_sent slot command answer, belongs⟩⟩
          | refused _ _ _ _ _ => rcases ret with impossible | impossible <;> cases impossible
          | unknown _ => exact (known rfl).elim
      | @noCommand id' there opened none_left =>
          have same : id' = id := Option.some.inj (there.symm.trans here)
          subst same
          refine .inl ⟨?_, arrives rfl rfl fun waits => ?_⟩
          · rintro ⟨_, state, member, _, exists_one⟩
            rw [first opened] at member
            cases member
            exact exists_one none_left
          · rw [idle] at waits
            cases waits
      | ended final _ =>
          refine .inl ⟨?_, arrives rfl rfl fun waits => ?_⟩
          · rintro ⟨_, state, member, commands, _⟩
            rw [first (by rw [final]; rfl)] at member
            cases member
            rw [final] at commands
            cases commands
          · rw [idle] at waits
            cases waits
      | removed final _ =>
          refine .inl ⟨?_, arrives rfl rfl fun waits => ?_⟩
          · rintro ⟨_, state, member, commands, _⟩
            rw [first (by rw [final]; rfl)] at member
            cases member
            rw [final] at commands
            cases commands
          · rw [idle] at waits
            cases waits
  | @refused before behind ops out last split skipped entry ret conclusion =>
      cases entry with
      | @attempted id' _ commands there opened attempt known =>
          have same : id' = id := Option.some.inj (there.symm.trans here)
          subst same
          cases attempt with
          | refused command vnm error exists_one belongs =>
              have first := firstOpen_of_skipped leads here split skipped opened
              refine .inr ⟨⟨error, ops.state, first, commands, exists_one⟩, rfl, command,
                cache.state, ?_, ?_, ?_⟩
              · have log := (endEntry_persists (ConfigCache.errSetTo_failed _ _ _ _)
                  conclusion).1
                exact (Host.lastSentBy_congr slot log).trans
                  (host.lastSentBy_sent slot command answer)
              · exact @ConfigCache.errSetTo_errBits (finalOf ops.state)
                  { cache with vnm := vnm } answer.result .bgapiEm own.clean
              · intro same
                have later := own.forward.leaves leaving leads ops
                  (by rw [split]; simp)
                rw [same, belongs] at later
                exact Nat.lt_irrefl _ later
          | _ => cases ret
      | _ => cases ret

end

/-! ## Runs -/

/-- A step under its condition keeps the masks right; any other step ends the slot with a wrong
one. -/
theorem SlotMove.named {slot : Slot} {source target : SlotState} {op : SlotOp}
    (move : SlotMove slot source op target) (own : source.Sound slot) :
    (op.EntryTaken slot source ∧ target.Sound slot) ∨
      (¬ op.EntryTaken slot source ∧ target.Misnamed slot) := by
  cases move with
  | free freed =>
      refine .inl ⟨?_, own⟩
      cases op with
      | round manager input =>
          intro working
          rw [freed] at working
          cases working
      | _ => trivial
  | @stays manager input cache host working resent still =>
      have after := (retryException_step resent).named (own.1 working)
      refine .inl ⟨fun _ => ?_, fun _ => after, fun freed => nomatch freed⟩
      rw [resent]
      intro leaving
      rw [still] at leaving
      cases leaving
  | @leaves manager input middle cache between host targets working resent leaving leads
      arrived =>
      have taken : (SlotOp.round manager input).EntryTaken slot source ↔
          ¬ RefusedAtEntry input.entry middle between := by
        simp only [SlotOp.EntryTaken, resent, LeavesUnrefused, working, leaving, true_imp_iff]
      rw [taken]
      rcases (retryException_step resent).named (own.1 working) with unfailed | failing
      · rcases arrived.of_unfailed leads leaving unfailed with
          ⟨accepted, after⟩ | ⟨refused, ended, misnamed⟩
        · refine .inl ⟨accepted, fun _ => .inl after, fun _ failed => ?_⟩
          rw [after.failed] at failed
          cases failed
        · exact .inr ⟨not_not.mpr refused, ended, misnamed⟩
      · obtain ⟨ended, named⟩ := arrived.of_failing leads failing
        refine .inl ⟨?_, fun freed => ?_, fun _ _ => named 0 _⟩
        · -- the entry of a final state sends nothing
          rintro ⟨_, state, first, commands, _⟩
          obtain ⟨id, here⟩ := Option.isSome_iff_exists.mp failing.here
          rw [firstOpen_of_final here failing.leads (finalOf_final _)] at first
          cases first
          rcases finalOf_final middle.state with same | same <;> rw [same] at commands <;>
            cases commands
        · rw [ended] at freed
          cases freed
  | event working step =>
      exact .inl ⟨trivial, fun _ => step.named (own.1 working), fun freed => nomatch freed⟩
  | @outside db cfg stat effects others working foreign =>
      refine .inl ⟨trivial, fun _ => ?_, fun freed => ?_⟩
      · have last := @Host.lastSentBy_others db cfg stat source.host slot others foreign
        exact named_of_lastSent last (own.1 working)
      · rw [working] at freed
        cases freed

/-- A slot that is free stays as it is. -/
theorem SlotMove.of_freed {slot : Slot} {source target : SlotState} {op : SlotOp}
    (move : SlotMove slot source op target) (freed : source.freed = true) : target = source := by
  cases move with
  | free _ => rfl
  | _ => simp_all

theorem named_run {slot : Slot} {initial final : SlotState} {past : List (Move SlotState SlotOp)}
    (run : SlotRun slot initial past final) (start : initial.Sound slot) :
    (Guarded (SlotOp.EntryTaken slot) past ∧ final.Sound slot) ∨
      (¬ Guarded (SlotOp.EntryTaken slot) past ∧ final.Misnamed slot) := by
  induction run with
  | start => exact .inl ⟨guarded_nil _, start⟩
  | extend earlier taken hypothesis =>
      rw [guarded_snoc]
      have move := slotOp_move taken
      rcases hypothesis with ⟨guarded, sound⟩ | ⟨unguarded, misnamed⟩
      · rcases move.named sound with ⟨admitted, after⟩ | ⟨refused, after⟩
        · exact .inl ⟨⟨guarded, admitted⟩, after⟩
        · exact .inr ⟨fun both => refused both.2, after⟩
      · rw [move.of_freed misnamed.1]
        exact .inr ⟨fun both => unguarded both.1, misnamed⟩

theorem SlotState.Misnamed.not_named {slot : Slot} {state : SlotState}
    (misnamed : state.Misnamed slot) : ¬ state.ErrorNamed slot := by
  obtain ⟨_, command, other, last, bits, apart⟩ := misnamed
  rintro ⟨named, _, _, sent, right, _⟩
  have same : named = command := Option.some.inj (sent.symm.trans last)
  rw [bits, same] at right
  exact apart (AccState.errorBit_inj right)

theorem SlotState.loaded_sound (slot : Slot) (node : NodeId) (type : LoadType) (host : Host) :
    (SlotState.loaded node type host).Sound slot := by
  refine ⟨fun _ => .inl ?_, fun freed => nomatch freed⟩
  refine ⟨?_, ?_, fun waits => ?_, ?_⟩
  · cases type <;> rfl
  · intro next same
    cases type with
    | typeConfig =>
        cases same
        exact Nat.le_succ 1
    | typeRm =>
        cases same
        exact Nat.le_succ 8
  · cases type <;> cases waits
  · cases type <;> exact ⟨rfl, rfl⟩

/-- **The mask names the failing state**: what the end of a failed slot stores is the bit of the
state whose command failed, and leads a later configuration back to it, exactly when no command
was refused at the entry of its state.  A refused command is reported with the state that the
slot was leaving, since the new one is set behind the call. -/
theorem error_named_iff {slot : Slot} {node : NodeId} {type : LoadType} {host : Host}
    {past : List (Move SlotState SlotOp)} {final : SlotState}
    (run : SlotRun slot (.loaded node type host) past final) (freed : final.freed = true)
    (failed : final.cache.failed = true) :
    Guarded (SlotOp.EntryTaken slot) past ↔ final.ErrorNamed slot := by
  rcases named_run run (SlotState.loaded_sound slot node type host) with
    ⟨guarded, sound⟩ | ⟨unguarded, misnamed⟩
  · exact iff_of_true guarded (sound.2 freed failed)
  · exact iff_of_false unguarded misnamed.not_named

/-- A device answers the request for its composition data with an error. -/
theorem error_named_iff_status :
    ∃ past final,
      SlotRun 0 (.loaded 0 .typeConfig (Engine.small (Node.plain 2)).host) past final ∧
      past.map Move.label =
        [.round .configuringDevicesEm
            { now := 0, retry := .taken 1 0, entry := .taken 1 0 },
          .event .configuringDevicesEm (.dcdDataEnd 1 0x0502)
            { inprg := .taken 1 0, retry := .taken 1 0 },
          .round .configuringDevicesEm
            { now := 1, retry := .taken 2 1, entry := .taken 2 1 }] ∧
      final.cache.errBits = AccState.getDcdEm.errorBit ∧ final.ErrorNamed 0 := by
  have replayed : replays (SlotOp.run 0)
      (.loaded 0 .typeConfig (Engine.small (Node.plain 2)).host)
      [.round .configuringDevicesEm
          { now := 0, retry := .taken 1 0, entry := .taken 1 0 },
        .event .configuringDevicesEm (.dcdDataEnd 1 0x0502)
          { inprg := .taken 1 0, retry := .taken 1 0 },
        .round .configuringDevicesEm
          { now := 1, retry := .taken 2 1, entry := .taken 2 1 }]
      (fun past final => decide (Guarded (SlotOp.EntryTaken 0) past) && final.freed &&
        final.cache.failed && final.cache.errBits == AccState.getDcdEm.errorBit) = true := by
    decide +kernel
  obtain ⟨past, final, run, same, tested⟩ := execution_of_replays replayed
  simp only [Bool.and_eq_true, decide_eq_true_eq, beq_iff_eq] at tested
  obtain ⟨⟨⟨guarded, freed⟩, failed⟩, bits⟩ := tested
  exact ⟨past, final, run, same, bits, (error_named_iff run freed failed).mp guarded⟩

/-- The API refuses the first command of a slot: the mask has the bit of the state that the slot
was loaded in, not the one of the state whose command failed. -/
theorem refused_entry_misnamed :
    ∃ past final,
      SlotRun 0 (.loaded 0 .typeConfig (Engine.small (Node.plain 2)).host) past final ∧
      past.map Move.label =
        [.round .configuringDevicesEm
            { now := 0, retry := .taken 1 0,
              entry := { result := 0x181, handle := 0, time := 0 } }] ∧
      final.freed = true ∧ final.cache.failed = true ∧
      final.host.lastSentBy 0 = some (.getDcd 0 2 0) ∧
      final.cache.errBits = AccState.provisionedEm.errorBit ∧ ¬ final.ErrorNamed 0 := by
  have replayed : replays (SlotOp.run 0)
      (.loaded 0 .typeConfig (Engine.small (Node.plain 2)).host)
      [.round .configuringDevicesEm
          { now := 0, retry := .taken 1 0, entry := { result := 0x181, handle := 0, time := 0 } }]
      (fun _ final => final.freed && final.cache.failed &&
        final.host.lastSentBy 0 == some (.getDcd 0 2 0) &&
        final.cache.errBits == AccState.provisionedEm.errorBit) = true := by
    decide +kernel
  obtain ⟨past, final, run, same, tested⟩ := execution_of_replays replayed
  simp only [Bool.and_eq_true, beq_iff_eq] at tested
  obtain ⟨⟨⟨freed, failed⟩, last⟩, bits⟩ := tested
  have misnamed : final.Misnamed 0 := ⟨freed, _, .provisionedEm, last, bits, by decide⟩
  exact ⟨past, final, run, same, freed, failed, last, bits, misnamed.not_named⟩

end Nwmng
