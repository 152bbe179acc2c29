/-
Module: Nwmng.Config.Callbacks
Purpose: The bodies that the state modules repeat: sending a command, entering
under a guard, resending for a reason, and handling a status event.
Trusted boundary: none
Main exports:
  SendFn, send, entryWith, retryWith, timedOut, StatusOps, statusInprg
-/
import Nwmng.Config.Host

/-!
The states of the engine are much alike.  What their callbacks repeat is written once with
parameters here, and each state names its own parameters in the modules behind.
-/

namespace Nwmng

/-- The functions that send the command of a state for a slot. -/
abbrev SendFn := Slot → CmdRsp → ConfigCache → Host → Except Abort Outcome

/-- The end of every sending function: what the answer to the command means for
the slot.  `final` is the state an error leads to. -/
def send (final : AccState) (slot : Slot) (command : Command) (answer : CmdRsp)
    (cache : ConfigCache) (host : Host) : Outcome :=
  let host := host.record (.sent slot command answer)
  if answer.result ≠ bgErrSuccess then
    if answer.result = bgErrOutOfMemory then
      { ret := .oom, cache := { cache with oom := true }, host := host }
    else
      { ret := .bgapi
        cache := cache.errSetTo final answer.result .bgapiEm
        host := host }
  else
    let waiting := { cache with waitResponse := true, ccHandle := answer.handle }
    { ret := .suc
      cache := waiting.timerSet host.cfg.timeout answer.time
      host := host }

/-- The guard of a state, over the record the slot works on. -/
abbrev GuardFn := ConfigCache → Host → Except Abort Bool

/-- The common body of the entry functions, which are given the guard. -/
def entryWith (once : SendFn) (guard : Option GuardFn) : SendFn :=
  fun slot answer cache host =>
    match guard with
    | none => once slot answer cache host
    | some guard => do
        if ← guard cache host then once slot answer cache host
        else .ok { ret := .tonext, cache := cache, host := host }

/-- After a resend that succeeded: spend the budget, or clear what caused it. -/
def afterResend (reason : RetryReason) (out : Outcome) : Except Abort Outcome :=
  match reason with
  | .onTimeoutEm =>
      if out.cache.everRetried = false ∨ out.cache.remainingRetry = 0 then
        .error .retryBudget
      else
        .ok { out with cache := { out.cache with
                remainingRetry := out.cache.remainingRetry - 1 } }
  | .onOomEm =>
      if out.cache.oom = false then .error .retryWithoutOom
      else .ok { out with cache := { out.cache with oom := false } }
  | .onGuardTimerExpiredEm =>
      if out.cache.expired = 0 then .error .retryWithoutTimer
      else .ok { out with cache := { out.cache with expired := 0 } }

/-- The common body of the retry functions: resend, and on success do what the
reason asks for. -/
def retryWith (once : SendFn) (reason : RetryReason) : SendFn :=
  fun slot answer cache host => do
    let out ← once slot answer cache host
    if out.ret ≠ .suc then .ok out else afterResend reason out

/-- A timeout reported by the stack: begin a retry budget, give up when it is
spent, or go on with what remains of it. -/
def timedOut (retryTimes : UInt8) (giveUp : ConfigCache → ConfigCache)
    (cache : ConfigCache) : ConfigCache :=
  if !cache.everRetried then
    { cache with remainingRetry := retryTimes, everRetried := true }
  else if cache.remainingRetry = 0 then giveUp cache.retryClear
  else cache

/-- The usual way to give up: an error event, and on to the end. -/
def giveUpToEnd (cache : ConfigCache) : ConfigCache :=
  cache.errSetToEnd bgErrTimeout .bgeventEm

/-- The state has done all it had to do. -/
def finish (cache : ConfigCache) (host : Host) : Except Abort Outcome := do
  let (_, node) ← host.nodeOf cache
  .ok { ret := .suc
        cache := { cache with nextState := none }
        host := host.record (.completed node.uuid node.addr cache.state) }

/-- What tells apart the states that iterate over a list of commands. -/
structure StatusOps where
  /-- the status event of the command -/
  kind : StatusKind
  retryTimes : UInt8
  /-- the results after which the iteration goes on, and what they change -/
  accept : UInt16 → ConfigCache → Host → Except Abort (Option ConfigCache)
  /-- what the message about a failure reads -/
  failure : ConfigCache → Host → Except Abort Unit
  /-- the code an error result is recorded with -/
  errcode : UInt16 → UInt16
  /-- advance the iterators; `true` when the last command has been done -/
  iter : ConfigCache → Host → Except Abort (Bool × ConfigCache)
  once : SendFn

/-- The common body of the functions that handle the events of such a state.
The guard timer is cleared before the event is looked at. -/
def statusInprg (ops : StatusOps) (slot : Slot) (event : ConfigEvent)
    (answer : CmdRsp) (cache : ConfigCache) (host : Host) : Except Abort Outcome :=
  let cache := cache.timerClear
  match event with
  | .status kind _ result =>
      if kind ≠ ops.kind then
        .ok { ret := .unspec, cache := cache, host := host }
      else do
        let cache := { cache with waitResponse := false }
        match ← ops.accept result cache host with
        | some cache =>
            let (finished, cache) ← ops.iter cache host
            if finished then finish cache host
            else ops.once slot answer cache host
        | none =>
            if result = bgErrTimeout then
              .ok { ret := .suc
                    cache := timedOut ops.retryTimes giveUpToEnd cache
                    host := host }
            else do
              ops.failure cache host
              .ok { ret := .suc
                    cache := cache.errSetToEnd (ops.errcode result) .bgeventEm
                    host := host }
  | _ => .ok { ret := .unspec, cache := cache, host := host }

end Nwmng
