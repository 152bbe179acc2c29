/-
Module: Nwmng.Config.Phases
Purpose: A slot that meets with full memory and timeouts stands where one that does not stands: it
works on the same command, or both have nothing to wait for.
Trusted boundary: none
Main exports:
  Asking, Phase, Landed, Turned.lands, enterStates_mirrored, retryException_asking,
  slotEvent_succeeds, slotEvent_timesOut, slotEvent_foreign, slotEvent_paged
-/
import Mathlib
import Nwmng.Config.Budget
import Nwmng.Config.Exchange
import Nwmng.Config.HostChanges
import Nwmng.Config.Turns

namespace Nwmng

open Fallible

section

variable {slot : Slot} {state : AccState} {answer easy : CmdRsp} {manager : MngState}
variable {cache other after : ConfigCache} {host between host' : Host} {command : Command}

/-! ## Sending under a rough answer -/

/-- A command that is sent is accepted, or kept for later. -/
theorem send_fine (fine : answer.Fine) (slot : Slot) (command : Command) (final : AccState)
    (cache : ConfigCache) (host : Host) :
    (answer.result = bgErrSuccess ∧ ∃ waiting : ConfigCache,
      send final slot command answer cache host =
        { ret := .suc, cache := waiting, host := host.record (.sent slot command answer) } ∧
      waiting.bare = cache.bare ∧ waiting.waitResponse = true ∧ waiting.oom = cache.oom ∧
      waiting.everRetried = cache.everRetried) ∨
    (answer.result = bgErrOutOfMemory ∧ send final slot command answer cache host =
      { ret := .oom, cache := { cache with oom := true }
        host := host.record (.sent slot command answer) }) := by
  rcases fine with success | full
  · refine .inl ⟨success, ConfigCache.timerSet
      { cache with waitResponse := true, ccHandle := answer.handle } host.cfg.timeout answer.time,
      ?_, rfl, rfl, rfl, rfl⟩
    unfold send
    rw [if_neg (not_not.mpr success)]
    rfl
  · refine .inr ⟨full, ?_⟩
    have error : answer.result ≠ bgErrSuccess := by
      rw [full]
      decide
    unfold send
    rw [if_pos error, if_pos full]

theorem Alike.nextState (alike : Alike cache other host between) :
    other.nextState = cache.nextState :=
  @Alike.reads _ _ _ _ _ alike (fun cache _ => cache.nextState) fun _ _ => rfl

/-!
## Where two runs stand

One slot meets with full memory and timeouts, the other with success only.  In between they are
in step: both work on the same command, or both have left it for the same place.
-/

/-- A slot works on a command: it waits for the status, or for memory to send it again.  The
command is the one that the slot would send from its present position, so a retry repeats it. -/
structure Asking (slot : Slot) (command : Command) (cache : ConfigCache) (host : Host) : Prop where
  asks : requestOf cache.state cache host = .ok (some command)
  here : cache.nextState = some cache.state
  once : cache.waitResponse = !cache.oom
  sent : host.lastSentBy slot = some command

/-- Both slots work on the same command, and the second one waits for its status; or both have
nothing to wait for. -/
inductive Phase (slot : Slot) (cache other : ConfigCache) (host between : Host) : Prop where
  | asked {command : Command} (asking : Asking slot command cache host)
      (asking' : Asking slot command other between) (memory : other.oom = false)
      (fresh : other.everRetried = false)
  | silent (calm : cache.Calm) (calm' : other.Calm)

theorem commandState_of_request (asks : requestOf state cache host = .ok (some command)) :
    isCommandState state = true := by
  cases state <;> first | rfl | cases asks

/-- A slot that has done the same work goes on asking. -/
theorem Asking.moved (alike : Alike cache after host host')
    (asks : requestOf cache.state cache host = .ok (some command))
    (here : cache.nextState = some cache.state) (once : after.waitResponse = !after.oom)
    (sent : host'.lastSentBy slot = some command) : Asking slot command after host' where
  asks := by rw [alike.state, alike.request, asks]
  here := by rw [alike.nextState, alike.state, here]
  once := once
  sent := sent

/-- Where a turn leads two slots.  Either both stand at the same command, and the one without
retries waits for it, or both are calm. -/
structure Landed (state : AccState) (slot : Slot) (before : ConfigCache) (out out' : Outcome) :
    Prop where
  alike : Alike out.cache out'.cache out.host out'.host
  ret : out.ret = .suc ∨ out.ret = .oom
  ret' : out'.ret = .suc
  fresh : out.cache.everRetried = false
  fresh' : out'.cache.everRetried = false
  stands : (∃ command, requestOf state out.cache out.host = .ok (some command) ∧
      out.cache.state = before.state ∧ out.cache.nextState = before.nextState ∧
      out.cache.waitResponse = (!out.cache.oom) ∧ out'.cache.waitResponse = true ∧
      out'.cache.oom = false ∧ out.host.lastSentBy slot = some command ∧
      out'.host.lastSentBy slot = some command) ∨ (out.cache.Calm ∧ out'.cache.Calm)

theorem Turned.lands {before : ConfigCache} {out out' : Outcome}
    (turned : Turned state slot before answer easy out out') (fine : answer.Fine)
    (eased : easy.result = bgErrSuccess) : Landed state slot before out out' := by
  cases turned with
  | @asks command cache other host between vnm vnm' alike request calm calm' same next =>
      have smooth := send_fine (.inl eased) slot command (finalOf state) { other with vnm := vnm' }
        between
      rcases smooth with ⟨_, waiting', second, bare', waits', memory', ever'⟩ | ⟨full, _⟩
      · have told' := Host.lastSentBy_sent between slot command easy
        have told := Host.lastSentBy_sent host slot command answer
        rw [second]
        rcases send_fine fine slot command (finalOf state) { cache with vnm := vnm } host with
          ⟨_, waiting, first, bare, waits, memory, ever⟩ | ⟨_, first⟩
        · have own : Alike cache waiting host (host.record (.sent slot command answer)) :=
            ⟨bare, rfl⟩
          rw [first]
          refine ⟨⟨bare'.trans (alike.slot.trans bare.symm), alike.shared⟩, .inl rfl, rfl,
            ever.trans calm.fresh, ever'.trans calm'.fresh, .inl ⟨command, ?_, ?_, ?_, ?_, waits',
            memory'.trans calm'.memory, told, told'⟩⟩
          · exact (own.request state).trans request
          · exact own.state.trans same
          · exact own.nextState.trans next
          · rw [waits, memory]
            exact congrArg not calm.memory.symm
        · rw [first]
          have own : Alike cache { cache with vnm := vnm, oom := true } host
              (host.record (.sent slot command answer)) := ⟨rfl, rfl⟩
          refine ⟨⟨bare'.trans alike.slot, alike.shared⟩, .inr rfl, rfl, calm.fresh,
            ever'.trans calm'.fresh, .inl ⟨command, ?_, same, next, calm.idle, waits',
            memory'.trans calm'.memory, told, told'⟩⟩
          exact (own.request state).trans request
      · rw [eased] at full
        exact absurd full (by decide)
  | silent alike calm calm' =>
      exact ⟨alike, .inl rfl, rfl, calm.fresh, calm'.fresh, .inr ⟨calm, calm'⟩⟩

/-- A turn within a state keeps two slots in step. -/
theorem Landed.phase {before : ConfigCache} {out out' : Outcome}
    (landed : Landed state slot before out out') (same : state = before.state)
    (here : before.nextState = some before.state) :
    Phase slot out.cache out'.cache out.host out'.host := by
  rcases landed.stands with
    ⟨command, asks, stays, next, once, waits', memory', sent, sent'⟩ | ⟨calm, calm'⟩
  · have own : requestOf out.cache.state out.cache out.host = .ok (some command) := by
      rw [stays, ← same, asks]
    have target : out.cache.nextState = some out.cache.state := by rw [next, stays, here]
    refine .asked ⟨own, target, once, sent⟩ ?_ memory' landed.fresh'
    exact .moved landed.alike own target (by rw [waits', memory']; rfl) sent'
  · exact .silent calm calm'

theorem requestOf_entered (cache : ConfigCache) (host : Host) (state here : AccState)
    (next : Option AccState) :
    requestOf state { cache with state := here, nextState := next } host =
      requestOf state cache host := by
  cases state <;> rfl

/-- The slot after the entry of a state. -/
def ConfigCache.entered (cache : ConfigCache) (state : AccState) : ConfigCache :=
  { cache with state := state, nextState := some state }

/-- So does the entry of a state. -/
theorem Landed.entered {before : ConfigCache} {out out' : Outcome}
    (landed : Landed state slot before out out') :
    Alike (out.cache.entered state) (out'.cache.entered state) out.host out'.host ∧
      Phase slot (out.cache.entered state) (out'.cache.entered state) out.host out'.host := by
  have alike : Alike (out.cache.entered state) (out'.cache.entered state) out.host out'.host :=
    ⟨congrArg (fun slot : ConfigCache => slot.entered state) landed.alike.slot,
      landed.alike.shared⟩
  refine ⟨alike, ?_⟩
  rcases landed.stands with
    ⟨command, asks, _, _, once, waits', memory', sent, sent'⟩ | ⟨calm, calm'⟩
  · have own : requestOf state (out.cache.entered state) out.host = .ok (some command) :=
      (requestOf_entered out.cache out.host state state (some state)).trans asks
    refine .asked ⟨own, rfl, once, sent⟩ ?_ memory' landed.fresh'
    exact .moved alike own rfl
      (show out'.cache.waitResponse = !out'.cache.oom by rw [waits', memory']; rfl) sent'
  · exact .silent ⟨calm.idle, calm.fresh, calm.memory⟩ ⟨calm'.idle, calm'.fresh, calm'.memory⟩

/-- Two slots that leave the same state enter the same one.  Whether a state is skipped depends
on what both have in common. -/
theorem enterStates_mirrored {targets : List AccStateOps}
    (known : ∀ ops ∈ targets, ops ∈ accStates) (fine : answer.Fine)
    (eased : easy.result = bgErrSuccess) (alike : Alike cache other host between)
    (calm : cache.Calm) (calm' : other.Calm) {found : Bool}
    (taken : enterStates slot answer targets cache host = .ok (found, after, host')) :
    ∃ after' between', enterStates slot easy targets other between = .ok (found, after', between') ∧
      Alike after after' host' between' ∧ Phase slot after after' host' between' := by
  induction targets with
  | nil =>
      cases taken
      exact ⟨other, between, rfl, alike, .silent calm calm'⟩
  | cons ops rest hypothesis =>
      rw [enterStates] at taken
      obtain ⟨out, first, taken⟩ := bind_ok.mp taken
      have entry : ∃ out', ops.entry ops.guard slot easy other between = .ok out' ∧
          Entering ops.state slot answer easy cache other host between out out' :=
        entry_entering (known ops List.mem_cons_self) alike calm calm' first
      obtain ⟨out', second, entering⟩ := entry
      rw [enterStates, second, ok_bind]
      cases entering with
      | skipped =>
          exact hypothesis (fun other member => known other (List.mem_cons_of_mem _ member)) taken
      | turned turned =>
          have landed := turned.lands fine eased
          have done : found = true ∧ after = out.cache.entered ops.state ∧ host' = out.host := by
            rcases landed.ret with ret | ret
            · simp only [ret, Except.ok.injEq, Prod.mk.injEq] at taken
              exact ⟨taken.1.symm, taken.2.1.symm, taken.2.2.symm⟩
            · simp only [ret, Except.ok.injEq, Prod.mk.injEq] at taken
              exact ⟨taken.1.symm, taken.2.1.symm, taken.2.2.symm⟩
          obtain ⟨rfl, rfl, rfl⟩ := done
          refine ⟨out'.cache.entered ops.state, out'.host, ?_, landed.entered⟩
          simp only [landed.ret']
          rfl

/-! ## Resending -/

/-- The functions that send again. -/
theorem retry_accStates {ops : AccStateOps} (member : ops ∈ accStates)
    {retry : RetryReason → SendFn} (again : ops.retry = some retry) :
    retry = retryWith (onceOf ops.state) := by
  simp only [accStates, List.mem_cons, List.not_mem_nil, or_false] at member
  rcases member with rfl | rfl | rfl | rfl | rfl | rfl | rfl | rfl | rfl
  all_goals
    cases again
    try rfl

/-- A command that is sent again is the same, and the slot waits for it or for memory. -/
theorem retryWith_asking {reason : RetryReason} {out : Outcome}
    (asks : requestOf cache.state cache host = .ok (some command))
    (here : cache.nextState = some cache.state) (idle : cache.waitResponse = false)
    (cause : (reason = .onOomEm ∧ cache.oom = true) ∨
      (reason = .onTimeoutEm ∧ cache.oom = false)) (fine : answer.Fine)
    (resent : retryWith (onceOf cache.state) reason slot answer cache host = .ok out) :
    Alike cache out.cache host out.host ∧ Asking slot command out.cache out.host := by
  obtain ⟨vnm, sends⟩ := once_asks asks slot answer
  have told := Host.lastSentBy_sent host slot command answer
  rw [retryWith, sends, ok_bind] at resent
  rcases send_fine fine slot command (finalOf cache.state) { cache with vnm := vnm } host with
    ⟨_, waiting, first, bare, waits, memory, _⟩ | ⟨_, first⟩
  · rw [first] at resent
    rw [if_neg (not_not.mpr rfl)] at resent
    rcases cause with ⟨rfl, full⟩ | ⟨rfl, room⟩
    · have spent : ¬ waiting.oom = false := by
        rw [memory]
        exact ne_of_eq_of_ne full (by decide)
      simp only [afterResend, spent, reduceCtorEq, if_false, Except.ok.injEq] at resent
      rw [← resent]
      have own : Alike cache { waiting with oom := false } host
          (host.record (.sent slot command answer)) := ⟨bare, rfl⟩
      exact ⟨own, .moved own asks here waits told⟩
    · simp only [afterResend] at resent
      split at resent
      · cases resent
      · cases resent
        have own : Alike cache { waiting with remainingRetry := waiting.remainingRetry - 1 } host
            (host.record (.sent slot command answer)) := ⟨bare, rfl⟩
        refine ⟨own, .moved own asks here ?_ told⟩
        dsimp only
        rw [waits, memory]
        exact congrArg not room.symm
  · rw [first] at resent
    have unsent : AccRet.oom ≠ AccRet.suc := by decide
    dsimp only at resent
    rw [if_pos unsent] at resent
    cases resent
    have own : Alike cache { cache with vnm := vnm, oom := true } host
        (host.record (.sent slot command answer)) := ⟨rfl, rfl⟩
    exact ⟨own, .moved own asks here idle told⟩

theorem alike_countRetry (manager : MngState) (cache : ConfigCache) (host : Host) :
    Alike cache cache host (countRetry manager host) := by
  unfold countRetry
  split
  · exact ⟨rfl, rfl⟩
  · exact ⟨rfl, rfl⟩

theorem Alike.trans {third : ConfigCache} {last : Host} (first : Alike cache other host between)
    (second : Alike other third between last) : Alike cache third host last :=
  ⟨second.slot.trans first.slot, second.shared.trans first.shared⟩

theorem Alike.symm (alike : Alike cache other host between) : Alike other cache between host :=
  ⟨alike.slot.symm, alike.shared.symm⟩

/-- A retry, and its count. -/
theorem Asking.counted (manager : MngState) (asking : Asking slot command cache host) :
    Asking slot command cache (countRetry manager host) :=
  .moved (alike_countRetry manager cache host) asking.asks asking.here asking.once
    ((Host.lastSentBy_congr slot (countRetry_log manager host)).trans asking.sent)

/-- The first half of a round leaves a slot with its command.  It is sent again, or still waits
for memory. -/
theorem retryException_asking {input : RoundInput} (asking : Asking slot command cache host)
    (fine : input.retry.Fine) (timely : cache.guardExpired input.now = false)
    (taken : retryException manager slot input cache host = .ok (after, host')) :
    Alike cache after host host' ∧ Asking slot command after host' := by
  have unchanged : cache = after ∧ host = host' →
      Alike cache after host host' ∧ Asking slot command after host' := by
    rintro ⟨rfl, rfl⟩
    exact ⟨⟨rfl, rfl⟩, asking⟩
  unfold retryException at taken
  by_cases memory : cache.oom = true
  · have idle : cache.waitResponse = false := by rw [asking.once, memory]; rfl
    cases found : asGet cache.state with
    | nil =>
        simp only [found, memory, Bool.or_true, if_true, reduceCtorEq] at taken
    | cons ops rest =>
        obtain ⟨same, _⟩ := asGet_cons found
        have member : ops ∈ accStates := by
          apply @mem_accStates_of_asGet cache.state
          rw [found]
          exact List.mem_cons_self
        cases again : ops.retry with
        | none =>
            simp only [found, again, Except.ok.injEq, Prod.mk.injEq] at taken
            exact unchanged taken
        | some retry =>
            simp only [found, again, timely, memory, idle, Bool.false_eq_true, if_false, if_true]
              at taken
            obtain ⟨out, resent, counted⟩ := bind_ok.mp taken
            cases counted
            rw [retry_accStates member again, same] at resent
            obtain ⟨alike, asks⟩ := retryWith_asking asking.asks asking.here idle
              (.inl ⟨rfl, memory⟩) fine resent
            exact ⟨alike.trans (alike_countRetry manager _ _), asks.counted manager⟩
  · have room : cache.oom = false := by simpa using memory
    cases found : asGet cache.state with
    | nil =>
        simp only [found, timely, room, Bool.or_self, Bool.false_eq_true, if_false,
          Except.ok.injEq, Prod.mk.injEq] at taken
        exact unchanged taken
    | cons ops rest =>
        cases again : ops.retry with
        | none =>
            simp only [found, again, Except.ok.injEq, Prod.mk.injEq] at taken
            exact unchanged taken
        | some retry =>
            simp only [found, again, timely, room, Bool.false_eq_true, if_false, Except.ok.injEq,
              Prod.mk.injEq] at taken
            exact unchanged taken

/-- A slot that asks stays in its state. -/
theorem Asking.stays (asking : Asking slot command cache host) : cache.stays = true := by
  simp [ConfigCache.stays, asking.here]

theorem retryException_calm {input : RoundInput} (room : cache.oom = false)
    (timely : cache.guardExpired input.now = false) :
    retryException manager slot input cache host = .ok (cache, host) := by
  unfold retryException
  cases asGet cache.state with
  | nil => simp only [timely, room, Bool.or_self, Bool.false_eq_true, if_false]
  | cons ops rest =>
      cases again : ops.retry with
      | none => simp only [again]
      | some retry => simp only [again, timely, room, Bool.false_eq_true, if_false]

/-!
## Events

A success takes both slots on.  A timeout, and an event that is no status of the command, keeps
the first one waiting, and the second one takes no step.
-/

/-- A slot that waits has a function for events. -/
theorem slotEvent_handled {packet : ConfigEvent} {input : EventInput}
    (commands : isCommandState cache.state = true) (waits : cache.waitResponse = true)
    (taken : slotEvent manager slot packet input cache host = .ok (after, host')) :
    ∃ ops rest inprg out, asGet cache.state = ops :: rest ∧ ops.inprg = some inprg ∧
      inprg slot packet input.inprg cache host = .ok out ∧
      eventRetry manager slot input ops out = .ok (after, host') := by
  unfold slotEvent at taken
  cases found : asGet cache.state with
  | nil =>
      rw [found] at taken
      cases taken
  | cons ops rest =>
      rw [found] at taken
      obtain ⟨out, handled, retried⟩ := bind_ok.mp taken
      obtain ⟨same, lawful⟩ := asGet_cons found
      have defined := lawful.waits
      rw [same, commands] at defined
      obtain ⟨inprg, callback⟩ := Option.isSome_iff_exists.mp defined
      refine ⟨ops, rest, inprg, out, rfl, callback, ?_, retried⟩
      simpa only [eventInprg, callback, waits, if_true] using handled

/-- What the function leads to, where no retry follows. -/
theorem slotEvent_settled {packet : ConfigEvent} {input : EventInput} {ops : AccStateOps}
    {rest : List AccStateOps} {out : Outcome}
    {inprg : Slot → ConfigEvent → CmdRsp → ConfigCache → Host → Except Abort Outcome}
    (found : asGet cache.state = ops :: rest) (callback : ops.inprg = some inprg)
    (waits : cache.waitResponse = true)
    (handled : inprg slot packet input.inprg cache host = .ok out)
    (quiet : out.cache.waitResponse = true ∨ out.cache.everRetried = false) :
    slotEvent manager slot packet input cache host = .ok (out.cache, out.host) := by
  unfold slotEvent
  rw [found]
  simp only [eventInprg, callback, waits, if_true, handled, ok_bind]
  exact eventRetry_quiet slot manager input quiet

theorem known_of_asGet {ops : AccStateOps} {rest : List AccStateOps}
    (found : asGet state = ops :: rest) : ops ∈ accStates := by
  apply @mem_accStates_of_asGet state
  rw [found]
  exact List.mem_cons_self

/-- The success of a command takes both slots to the same place.  For the slot with the retries
it may be the status of a repeated command. -/
theorem slotEvent_succeeds {packet : ConfigEvent} {input smooth : EventInput}
    (manager' : MngState)
    (alike : Alike cache other host between) (asking : Asking slot command cache host)
    (waits : cache.waitResponse = true) (waits' : other.waitResponse = true)
    (memory : cache.oom = false) (memory' : other.oom = false)
    (own : ownStatus cache.state packet = some bgErrSuccess) (fine : input.inprg.Fine)
    (eased : smooth.inprg.result = bgErrSuccess)
    (taken : slotEvent manager slot packet input cache host = .ok (after, host')) :
    ∃ after' between',
      slotEvent manager' slot packet smooth other between = .ok (after', between') ∧
        Alike after after' host' between' ∧ Phase slot after after' host' between' := by
  obtain ⟨ops, rest, inprg, out, found, callback, handled, retried⟩ :=
    slotEvent_handled (commandState_of_request asking.asks) waits taken
  obtain ⟨same, _⟩ := asGet_cons found
  have turn : ∃ out', inprg slot packet smooth.inprg other between = .ok out' ∧
      Turned ops.state slot cache input.inprg smooth.inprg out out' :=
    inprg_turned (known_of_asGet found) callback (by rw [same, own]) alike memory memory' handled
  obtain ⟨out', handledToo, turned⟩ := turn
  have landed := turned.lands fine eased
  rw [eventRetry_quiet slot manager input (.inr landed.fresh)] at retried
  cases retried
  exact ⟨out'.cache, out'.host,
    slotEvent_settled (alike.state ▸ found) callback waits' handledToo (.inr landed.fresh'),
    landed.alike, landed.phase same asking.here⟩

/-- What a timeout leads to. -/
theorem Handled.of_timeout {packet : ConfigEvent} {out : Outcome}
    (handled : Handled state slot packet answer cache host out)
    (own : ownStatus state packet = some bgErrTimeout) :
    out = { ret := .suc, host := host
            cache := timedOut (retryTimesOf state) (giveUpOf state) cache.answered } := by
  have apart : bgErrTimeout ≠ bgErrSuccess := by decide
  cases handled with
  | timeout _ => rfl
  | unexpected foreign _ =>
      rw [own] at foreign
      cases foreign
  | page reads sent _ =>
      rw [reads, sent] at own
      cases own
  | otherPage page =>
      rw [ownStatus_page page] at own
      cases own
  | failed code another error =>
      rw [own, Option.some.injEq] at another
      exact absurd another.symm error.2
  | resumed reads here another =>
      rw [own, Option.some.injEq] at another
      exact absurd another apart
  | removed removes another =>
      rw [own, Option.some.injEq] at another
      exact absurd another apart
  | finished iterators ever remaining another fine =>
      rw [own, Option.some.injEq] at another
      exact absurd another.symm fine
  | continued iterators ever remaining another fine =>
      rw [own, Option.some.injEq] at another
      exact absurd another.symm fine

/-- What an event leads to that is no status of the command: it is not expected, or a page. -/
theorem Handled.of_foreign {packet : ConfigEvent} {out : Outcome}
    (handled : Handled state slot packet answer cache host out)
    (foreign : ownStatus state packet = none) :
    (isPageFor state packet = false ∧
      out = { ret := .unspec, cache := cache.timerClear, host := host }) ∨
    (isPageFor state packet = true ∧
      (out = { ret := .suc, cache := cache.timerClear, host := host } ∨
        ∃ handle data len after host', state = .getDcdEm ∧ packet = .dcdData handle 0 data len ∧
          storePage data len cache.timerClear host = .ok (after, host') ∧
          out = { ret := .suc, cache := after, host := host' })) := by
  cases handled with
  | unexpected _ noPage => exact .inl ⟨noPage, rfl⟩
  | page reads sent stored =>
      refine .inr ⟨?_, .inr ⟨_, _, _, _, _, reads, sent, stored, rfl⟩⟩
      rw [reads, sent]
      rfl
  | otherPage page => exact .inr ⟨page, .inl rfl⟩
  | timeout own =>
      rw [own] at foreign
      cases foreign
  | failed code own error =>
      rw [own] at foreign
      cases foreign
  | resumed reads here own =>
      rw [own] at foreign
      cases foreign
  | removed removes own =>
      rw [own] at foreign
      cases foreign
  | finished iterators ever remaining own =>
      rw [own] at foreign
      cases foreign
  | continued iterators ever remaining own =>
      rw [own] at foreign
      cases foreign

/-- A timeout that is not the last one prepares a retry. -/
theorem timedOut_retries (retryTimes : UInt8) (giveUp : ConfigCache → ConfigCache)
    (left : cache.everRetried = true → cache.remainingRetry ≠ 0) :
    (timedOut retryTimes giveUp cache).bare = cache.bare ∧
      (timedOut retryTimes giveUp cache).waitResponse = cache.waitResponse ∧
      (timedOut retryTimes giveUp cache).oom = cache.oom ∧
      (timedOut retryTimes giveUp cache).everRetried = true := by
  rcases timedOut_cases retryTimes giveUp cache with ⟨_, is⟩ | ⟨ever, spent, _⟩ | ⟨ever, _, is⟩
  · rw [is]
    exact ⟨rfl, rfl, rfl, rfl⟩
  · exact absurd spent (left ever)
  · rw [is]
    exact ⟨rfl, rfl, rfl, ever⟩

/-- After a timeout the same command is sent again, or is to be sent when there is memory. -/
theorem slotEvent_timesOut {packet : ConfigEvent} {input : EventInput}
    (asking : Asking slot command cache host) (waits : cache.waitResponse = true)
    (memory : cache.oom = false) (own : ownStatus cache.state packet = some bgErrTimeout)
    (left : cache.everRetried = true → cache.remainingRetry ≠ 0) (fine : input.retry.Fine)
    (taken : slotEvent manager slot packet input cache host = .ok (after, host')) :
    Alike cache after host host' ∧ Asking slot command after host' := by
  have commands := commandState_of_request asking.asks
  obtain ⟨ops, rest, inprg, out, found, callback, first, retried⟩ :=
    slotEvent_handled commands waits taken
  obtain ⟨same, lawful⟩ := asGet_cons found
  have handled := lawful.inprg callback first
  rw [same] at handled
  rw [handled.of_timeout own] at retried
  obtain ⟨bare, idle, room, ever⟩ :=
    @timedOut_retries cache.answered (retryTimesOf cache.state) (giveUpOf cache.state) left
  generalize timedOut (retryTimesOf cache.state) (giveUpOf cache.state) cache.answered = middle
    at retried bare idle room ever
  have alike : Alike cache middle host host := ⟨bare, rfl⟩
  have resends := lawful.resends
  rw [same, commands] at resends
  obtain ⟨retry, again⟩ := Option.isSome_iff_exists.mp resends
  have notWaiting : middle.waitResponse = false := idle
  unfold eventRetry at retried
  simp only [again, notWaiting, ever, decide_true, Bool.not_false, Bool.and_self, if_true]
    at retried
  obtain ⟨last, resent, counted⟩ := bind_ok.mp retried
  cases counted
  rw [retry_accStates (known_of_asGet found) again, same, ← alike.state] at resent
  obtain ⟨onward, asks⟩ := retryWith_asking
    (by rw [alike.state, alike.request, asking.asks])
    (by rw [alike.nextState, alike.state, asking.here]) notWaiting
    (.inr ⟨rfl, room.trans memory⟩) fine resent
  exact ⟨(alike.trans onward).trans (alike_countRetry manager _ _), asks.counted manager⟩

theorem Asking.timerClear (asking : Asking slot command cache host) :
    Asking slot command cache.timerClear host :=
  .moved ⟨rfl, rfl⟩ asking.asks asking.here asking.once asking.sent

/-- Other events leave the slot waiting, and so does a page that it has not asked for. -/
theorem slotEvent_foreign {packet : ConfigEvent} {input : EventInput}
    (asking : Asking slot command cache host) (waits : cache.waitResponse = true)
    (foreign : ownStatus cache.state packet = none)
    (noPage : cache.state = .getDcdEm → ∀ handle data len, packet ≠ .dcdData handle 0 data len)
    (taken : slotEvent manager slot packet input cache host = .ok (after, host')) :
    Alike cache after host host' ∧ Asking slot command after host' := by
  obtain ⟨ops, rest, inprg, out, found, callback, first, retried⟩ :=
    slotEvent_handled (commandState_of_request asking.asks) waits taken
  obtain ⟨same, lawful⟩ := asGet_cons found
  have handled := lawful.inprg callback first
  rw [same] at handled
  have cleared : ∀ ret, out = { ret := ret, cache := cache.timerClear, host := host } →
      Alike cache after host host' ∧ Asking slot command after host' := by
    rintro ret rfl
    rw [eventRetry_quiet slot manager input (.inl waits)] at retried
    cases retried
    exact ⟨⟨rfl, rfl⟩, asking.timerClear⟩
  rcases handled.of_foreign foreign with
    ⟨_, is⟩ | ⟨_, is | ⟨handle, data, len, _, _, reads, sent, _⟩⟩
  · exact cleared _ is
  · exact cleared _ is
  · exact absurd sent (noPage reads handle data len)

/-! ## Composition data -/

/-- The work on a node keeps its address, and the keys. -/
theorem HostWork.addresses (work : HostWork slot host host') :
    host'.cfg = host.cfg ∧ ∀ id, (host'.db.heap id).addr = (host.db.heap id).addr := by
  refine @HostWork.of_changes slot
    (fun before after => after.cfg = before.cfg ∧
      ∀ id, (after.db.heap id).addr = (before.db.heap id).addr) _ _ work
    (fun _ => ⟨rfl, fun _ => rfl⟩) ?_ ?_
  · rintro first second third ⟨keys, addrs⟩ ⟨keys', addrs'⟩
    exact ⟨keys'.trans keys, fun id => (addrs' id).trans (addrs id)⟩
  · intro before next change
    cases change with
    | counted stat => exact ⟨rfl, fun _ => rfl⟩
    | logged own => exact ⟨rfl, fun _ => rfl⟩
    | written record worked =>
        refine ⟨rfl, fun id => ?_⟩
        by_cases same : id = record
        · rw [same]
          dsimp only
          rw [CfgDb.heap_update_self]
          cases worked <;> rfl
        · dsimp only
          rw [CfgDb.heap_update_of_ne _ _ same]

/-- The request for composition data depends on the keys and the address of the node. -/
theorem requestOf_addresses (keys : host'.cfg = host.cfg)
    (addrs : ∀ id, (host'.db.heap id).addr = (host.db.heap id).addr)
    (node : after.node = cache.node) :
    requestOf .getDcdEm after host' = requestOf .getDcdEm cache host := by
  have netkey : host'.netkeyId = host.netkeyId := by
    rw [Host.netkeyId, Host.netkeyId, Host.subnet, Host.subnet, keys]
  simp only [requestOf, Host.nodeOf, netkey, node]
  cases cache.node with
  | none => rfl
  | some id => simp only [ok_bind, addrs]

/-- A page of composition data leaves the slot waiting for the rest. -/
theorem Handled.asking_page {packet : ConfigEvent} {out : Outcome}
    (handled : Handled cache.state slot packet answer cache host out)
    (page : isPageFor cache.state packet = true) (asking : Asking slot command cache host) :
    Asking slot command out.cache out.host ∧ out.cache.waitResponse = cache.waitResponse ∧
      out.cache.oom = cache.oom ∧ out.cache.everRetried = cache.everRetried := by
  rcases handled.of_foreign (ownStatus_page page) with
    ⟨noPage, _⟩ | ⟨_, rfl | ⟨_, data, len, after, host', reads, _, stored, rfl⟩⟩
  · rw [page] at noPage
    cases noPage
  · exact ⟨asking.timerClear, rfl, rfl, rfl⟩
  · have is := storePage_eq stored
    obtain ⟨keys, addrs⟩ := (storePage_work slot stored).addresses
    have node : after.node = cache.node := by rw [is]; rfl
    have state : after.state = cache.state := by rw [is]; rfl
    refine ⟨⟨?_, ?_, ?_, ?_⟩, by rw [is]; rfl, by rw [is]; rfl, by rw [is]; rfl⟩
    · have asks := asking.asks
      rw [reads] at asks
      dsimp only
      rw [state, reads, requestOf_addresses keys addrs node, asks]
    · dsimp only
      rw [state, ← asking.here, is]
      rfl
    · dsimp only
      rw [is]
      exact asking.once
    · exact (Host.lastSentBy_congr slot (storePage_log stored)).trans asking.sent

theorem storePage_alike {data : Bytes.Memory} {len : UInt8}
    (alike : Alike cache other host between)
    (stored : storePage data len cache host = .ok (after, host')) :
    ∃ after' between', storePage data len other between = .ok (after', between') ∧
      Alike after after' host' between' := by
  simp only [storePage, bind_ok] at stored
  obtain ⟨⟨id, node⟩, found, stored⟩ := stored
  cases decoded : dcdStore 256 data len node.func with
  | none =>
      rw [decoded] at stored
      cases stored
  | some read =>
      have landed : ∀ db : CfgDb, Alike { cache with dcd := read.1 } { other with dcd := read.1 }
          { host with db := db } { between with db := db } := fun db =>
        ⟨congrArg (fun slot : ConfigCache => { slot with dcd := read.1 }) alike.slot,
          congrArg (fun shared : Host => { shared with db := db }) alike.shared⟩
      simp only [decoded] at stored
      simp only [storePage, alike.nodeOf, found, ok_bind, decoded, alike.db]
      by_cases empty : read.1.elementCnt = 0
      · simp only [empty, if_true, ok_bind, Except.ok.injEq, Prod.mk.injEq] at stored ⊢
        obtain ⟨rfl, rfl⟩ := stored
        exact ⟨_, _, ⟨rfl, rfl⟩, landed _⟩
      · simp only [empty, if_false, bind_ok, Except.ok.injEq, Prod.mk.injEq] at stored ⊢
        obtain ⟨db, writes, rfl, rfl⟩ := stored
        exact ⟨_, _, ⟨db, writes, rfl, rfl⟩, landed db⟩

/-- Both slots take the same page. -/
theorem slotEvent_paged {packet : ConfigEvent} {input smooth : EventInput} (manager' : MngState)
    (alike : Alike cache other host between) (asking : Asking slot command cache host)
    (asking' : Asking slot command other between) (waits : cache.waitResponse = true)
    (waits' : other.waitResponse = true) (memory' : other.oom = false)
    (fresh' : other.everRetried = false) (page : isPageFor cache.state packet = true)
    (taken : slotEvent manager slot packet input cache host = .ok (after, host')) :
    ∃ after' between',
      slotEvent manager' slot packet smooth other between = .ok (after', between') ∧
        Alike after after' host' between' ∧ Phase slot after after' host' between' := by
  obtain ⟨ops, rest, inprg, out, found, callback, first, retried⟩ :=
    slotEvent_handled (commandState_of_request asking.asks) waits taken
  obtain ⟨same, lawful⟩ := asGet_cons found
  have handled := lawful.inprg callback first
  rw [same] at handled
  obtain ⟨onward, waiting, _, _⟩ := handled.asking_page page asking
  rw [eventRetry_quiet slot manager input (.inl (waiting.trans waits))] at retried
  cases retried
  have second : ∃ out', inprg slot packet smooth.inprg other between = .ok out' ∧
      Alike out.cache out'.cache out.host out'.host := by
    cases state_ : cache.state with
    | getDcdEm =>
        rw [state_] at found page
        cases found
        cases callback
        cases packet with
        | dcdData handle number data len =>
            by_cases zeroth : number = 0
            · simp only [getdcdInprg, zeroth, if_true, bind_ok, Except.ok.injEq] at first
              obtain ⟨⟨stored, shared⟩, stores, rfl⟩ := first
              have cleared : Alike cache.timerClear other.timerClear host between :=
                ⟨alike.slot, alike.shared⟩
              obtain ⟨after', between', storesToo, again⟩ := storePage_alike cleared stores
              refine ⟨{ ret := .suc, cache := after', host := between' }, ?_, again⟩
              simp only [getdcdInprg, zeroth, if_true, storesToo, ok_bind]
            · simp only [getdcdInprg, zeroth, if_false, Except.ok.injEq] at first
              rw [← first]
              refine ⟨{ ret := .suc, cache := other.timerClear, host := between }, ?_,
                alike.slot, alike.shared⟩
              simp only [getdcdInprg, zeroth, if_false]
        | _ => cases page
    | _ =>
        rw [state_] at page
        cases packet <;> cases page
  obtain ⟨out', handledToo, again⟩ := second
  have handled' := lawful.inprg callback handledToo
  rw [same, ← alike.state] at handled'
  obtain ⟨onward', waiting', room', fresh⟩ := handled'.asking_page (alike.state ▸ page) asking'
  exact ⟨out'.cache, out'.host,
    slotEvent_settled (alike.state ▸ found) callback waits' handledToo
      (.inl (waiting'.trans waits')), again,
    .asked onward onward' (room'.trans memory') (fresh.trans fresh')⟩

end

end Nwmng
