/-
Module: Nwmng.Config.Unhindered
Purpose: A scheduled step of a slot does not abort where the next step of the prompt run does not.
Trusted boundary: none
Main exports:
  retryException_runs, slotEvent_timesOut_runs, slotEvent_foreign_runs, enterStates_runs,
  Trails.runs
-/
import Mathlib
import Nwmng.Config.Following

namespace Nwmng

open Transition Fallible

section

variable {report : DcdReport} {slot : Slot} {manager : MngState} {command : Command}
variable {cache other after : ConfigCache} {host between host' : Host} {answer easy : CmdRsp}

/-!
## Sending again

A command that has been sent can be sent again: its record and its place are there.  What is left
are the assertions about the cause of the retry.
-/

theorem retryWith_runs {reason : RetryReason}
    (asks : requestOf cache.state cache host = .ok (some command)) (fine : answer.Fine)
    (cause : (reason = .onOomEm ∧ cache.oom = true) ∨
      (reason = .onTimeoutEm ∧ cache.everRetried = true ∧ cache.remainingRetry ≠ 0)) :
    ∃ out, retryWith (onceOf cache.state) reason slot answer cache host = .ok out ∧
      (answer.result = bgErrSuccess → out.cache.waitResponse = true) := by
  obtain ⟨vnm, sends⟩ := once_asks asks slot answer
  rw [retryWith, sends, ok_bind]
  rcases fine with success | full
  · unfold send
    rw [if_neg (not_not.mpr success)]
    dsimp only
    rw [if_neg (not_not.mpr rfl)]
    rcases cause with ⟨rfl, memory⟩ | ⟨rfl, ever, left⟩
    · have full : ¬ cache.oom = false := by
        rw [memory]
        decide
      exact ⟨_, if_neg full, fun _ => rfl⟩
    · have budget : ¬ (cache.everRetried = false ∨ cache.remainingRetry = 0) := by
        rintro (fresh | none_)
        · exact absurd (ever.symm.trans fresh) (by decide)
        · exact left none_
      exact ⟨_, if_neg budget, fun _ => rfl⟩
  · have error : answer.result ≠ bgErrSuccess := by
      rw [full]
      decide
    unfold send
    rw [if_pos error, if_pos full]
    have unsent : AccRet.oom ≠ AccRet.suc := by decide
    exact ⟨_, if_pos unsent, fun success => absurd success error⟩

/-- A state with commands is in the table, with the function that sends them again. -/
theorem asGet_of_commands {state : AccState} (commands : isCommandState state = true) :
    ∃ ops rest inprg, asGet state = ops :: rest ∧ ops.state = state ∧ ops.inprg = some inprg ∧
      ops.retry = some (retryWith (onceOf state)) := by
  cases state with
  | getDcdEm => exact ⟨_, _, _, rfl, rfl, rfl, rfl⟩
  | addappkeyEm => exact ⟨_, _, _, rfl, rfl, rfl, rfl⟩
  | bindappkeyEm => exact ⟨_, _, _, rfl, rfl, rfl, rfl⟩
  | setpubEm => exact ⟨_, _, _, rfl, rfl, rfl, rfl⟩
  | addsubEm => exact ⟨_, _, _, rfl, rfl, rfl, rfl⟩
  | setconfigEm => exact ⟨_, _, _, rfl, rfl, rfl, rfl⟩
  | rmEm => exact ⟨_, _, _, rfl, rfl, rfl, rfl⟩
  | _ => cases commands

/-- The first half of a round, for a slot with a command. -/
theorem retryException_runs {input : RoundInput} (asking : Asking slot command cache host)
    (fine : input.retry.Fine) (timely : cache.guardExpired input.now = false) :
    ∃ after host', retryException manager slot input cache host = .ok (after, host') ∧
      (input.retry.result = bgErrSuccess → after.waitResponse = true) := by
  cases memory : cache.oom with
  | false =>
      have waits : cache.waitResponse = true := by
        rw [asking.once, memory]
        rfl
      exact ⟨cache, host, retryException_calm memory timely, fun _ => waits⟩
  | true =>
      have idle : cache.waitResponse = false := by
        rw [asking.once, memory]
        rfl
      obtain ⟨ops, rest, _, found, _, _, again⟩ :=
        asGet_of_commands (commandState_of_request asking.asks)
      have resends : ∃ out, retryWith (onceOf cache.state) .onOomEm slot input.retry cache host =
          .ok out ∧ (input.retry.result = bgErrSuccess → out.cache.waitResponse = true) :=
        retryWith_runs asking.asks fine (.inl ⟨rfl, memory⟩)
      obtain ⟨out, resent, waits⟩ := resends
      refine ⟨out.cache, countRetry manager out.host, ?_, waits⟩
      unfold retryException
      simp only [found, again, timely, memory, idle, Bool.false_eq_true, if_false, if_true, resent,
        ok_bind]

/-! ## Events -/

/-- A slot that sends a command holds a node. -/
theorem nodeOf_of_request {state : AccState}
    (asks : requestOf state cache host = .ok (some command)) :
    ∃ id node, host.nodeOf cache = .ok (id, node) := by
  cases state with
  | getDcdEm =>
      simp only [requestOf, bind_ok] at asks
      obtain ⟨_, _, ⟨id, node⟩, found, _⟩ := asks
      exact ⟨id, node, found⟩
  | addappkeyEm =>
      simp only [requestOf, bind_ok] at asks
      obtain ⟨⟨id, node⟩, found, _⟩ := asks
      exact ⟨id, node, found⟩
  | bindappkeyEm =>
      simp only [requestOf, bind_ok] at asks
      obtain ⟨_, _, _, _, ⟨id, node⟩, found, _⟩ := asks
      exact ⟨id, node, found⟩
  | setpubEm =>
      simp only [requestOf, bind_ok] at asks
      obtain ⟨_, _, _, _, ⟨id, node⟩, found, _⟩ := asks
      exact ⟨id, node, found⟩
  | addsubEm =>
      simp only [requestOf, bind_ok] at asks
      obtain ⟨_, _, _, _, ⟨id, node⟩, found, _⟩ := asks
      exact ⟨id, node, found⟩
  | setconfigEm =>
      simp only [requestOf, bind_ok] at asks
      obtain ⟨_, _, ⟨id, node⟩, found, _⟩ := asks
      exact ⟨id, node, found⟩
  | rmEm =>
      simp only [requestOf, bind_ok] at asks
      obtain ⟨_, _, ⟨id, node⟩, found, _⟩ := asks
      exact ⟨id, node, found⟩
  | _ => cases asks

/-- A timeout in a state that goes through a list. -/
theorem statusInprg_timesOut {ops : StatusOps} {state : AccState} (lawful : ops.Lawful state)
    {packet : ConfigEvent} (own : ownStatus state packet = some bgErrTimeout)
    (rejects : ∀ cache host, ops.accept bgErrTimeout cache host = .ok none) :
    ∃ out, statusInprg ops slot packet answer cache host = .ok out := by
  obtain ⟨handle, rfl⟩ := lawful.packet own
  simp only [statusInprg, ne_eq, not_true, if_false, rejects, ok_bind, if_true]
  exact ⟨_, rfl⟩

/-- Whatever the state, a timeout can be handled.  One case for each state of the table. -/
theorem inprg_timesOut {ops : AccStateOps} (member : ops ∈ accStates)
    {inprg : Slot → ConfigEvent → CmdRsp → ConfigCache → Host → Except Abort Outcome}
    (callback : ops.inprg = some inprg) {packet : ConfigEvent}
    (own : ownStatus ops.state packet = some bgErrTimeout)
    (here : ∃ id node, host.nodeOf cache = .ok (id, node)) :
    ∃ out, inprg slot packet answer cache host = .ok out := by
  simp only [accStates, List.mem_cons, List.not_mem_nil, or_false] at member
  rcases member with rfl | rfl | rfl | rfl | rfl | rfl | rfl | rfl | rfl
  · cases callback
    cases packet with
    | dcdDataEnd handle result =>
        cases own
        exact ⟨_, rfl⟩
    | _ => cases own
  · cases callback
    exact statusInprg_timesOut addappkeyOps_lawful own fun _ _ => rfl
  · cases callback
    exact statusInprg_timesOut bindappkeyOps_lawful own fun _ _ => rfl
  · cases callback
    exact statusInprg_timesOut setpubOps_lawful own fun _ _ => rfl
  · cases callback
    exact statusInprg_timesOut addsubOps_lawful own fun _ _ => rfl
  · cases callback
    cases packet with
    | status kind handle result =>
        change (featureOf kind).map (fun _ => result) = some bgErrTimeout at own
        cases speaks : featureOf kind with
        | none =>
            rw [speaks] at own
            cases own
        | some which =>
            rw [speaks] at own
            cases own
            obtain ⟨id, node, found⟩ := here
            have foundToo : host.nodeOf { cache.timerClear with waitResponse := false } =
                .ok (id, node) := found
            simp only [setconfigInprg, speaks, foundToo, ok_bind]
            exact ⟨_, rfl⟩
    | _ => cases own
  · cases callback
  · cases callback
    cases packet with
    | status kind handle result =>
        cases kind <;> cases own
        exact ⟨_, rfl⟩
    | _ => cases own
  · cases callback

/-- A status that a state of the usual kind does not wait for. -/
theorem statusInprg_foreign {ops : StatusOps} {state : AccState} (lawful : ops.Lawful state)
    {packet : ConfigEvent} (foreign : ownStatus state packet = none) :
    ∃ out, statusInprg ops slot packet answer cache host = .ok out := by
  cases packet with
  | status kind handle result =>
      by_cases own : kind = ops.kind
      · rw [own, lawful.own handle result] at foreign
        cases foreign
      · exact ⟨_, if_pos own⟩
  | _ => exact ⟨_, rfl⟩

/-- So can an event be that is no status of the command, nor a page that it has asked for. -/
theorem inprg_foreign {ops : AccStateOps} (member : ops ∈ accStates)
    {inprg : Slot → ConfigEvent → CmdRsp → ConfigCache → Host → Except Abort Outcome}
    (callback : ops.inprg = some inprg) {packet : ConfigEvent}
    (foreign : ownStatus ops.state packet = none)
    (noPage : ops.state = .getDcdEm → ∀ handle data len, packet ≠ .dcdData handle 0 data len) :
    ∃ out, inprg slot packet answer cache host = .ok out := by
  simp only [accStates, List.mem_cons, List.not_mem_nil, or_false] at member
  rcases member with rfl | rfl | rfl | rfl | rfl | rfl | rfl | rfl | rfl
  · cases callback
    cases packet with
    | dcdData handle page data len =>
        have other : page ≠ 0 := by
          rintro rfl
          exact noPage rfl handle data len rfl
        exact ⟨_, if_neg other⟩
    | dcdDataEnd handle result => cases foreign
    | _ => exact ⟨_, rfl⟩
  · cases callback
    exact statusInprg_foreign addappkeyOps_lawful foreign
  · cases callback
    exact statusInprg_foreign bindappkeyOps_lawful foreign
  · cases callback
    exact statusInprg_foreign setpubOps_lawful foreign
  · cases callback
    exact statusInprg_foreign addsubOps_lawful foreign
  · cases callback
    cases packet with
    | status kind handle result =>
        change (featureOf kind).map (fun _ => result) = none at foreign
        cases speaks : featureOf kind with
        | none =>
            simp only [setconfigInprg, speaks]
            exact ⟨_, rfl⟩
        | some which =>
            rw [speaks] at foreign
            cases foreign
    | _ => exact ⟨_, rfl⟩
  · cases callback
  · cases callback
    cases packet with
    | status kind handle result =>
        cases kind
        case reset => cases foreign
        all_goals exact ⟨_, rfl⟩
    | _ => exact ⟨_, rfl⟩
  · cases callback

theorem retryTimesOf_ne (state : AccState) : retryTimesOf state ≠ 0 := by
  cases state <;> decide

/-- A timeout that is not the last one is handled, and its retry is sent. -/
theorem slotEvent_timesOut_runs {packet : ConfigEvent} {input : EventInput}
    (asking : Asking slot command cache host) (waits : cache.waitResponse = true)
    (own : ownStatus cache.state packet = some bgErrTimeout)
    (left : cache.everRetried = true → cache.remainingRetry ≠ 0) (fine : input.retry.Fine) :
    ∃ after host', slotEvent manager slot packet input cache host = .ok (after, host') := by
  have commands := commandState_of_request asking.asks
  obtain ⟨ops, rest, inprg, found, same, callback, again⟩ := asGet_of_commands commands
  have handles : ∃ out, inprg slot packet input.inprg cache host = .ok out :=
    inprg_timesOut (known_of_asGet found) callback (by rw [same, own])
      (nodeOf_of_request asking.asks)
  obtain ⟨out, first⟩ := handles
  have handled := (asGet_cons found).2.inprg callback first
  rw [same] at handled
  have is := handled.of_timeout own
  have ready : out.cache.waitResponse = false ∧ out.cache.everRetried = true ∧
      out.cache.remainingRetry ≠ 0 ∧ out.cache.bare = cache.bare ∧ out.host = host := by
    rw [is]
    rcases timedOut_cases (retryTimesOf cache.state) (giveUpOf cache.state) cache.answered with
      ⟨_, same⟩ | ⟨ever, spent, _⟩ | ⟨ever, some_, same⟩
    · dsimp only
      rw [same]
      exact ⟨rfl, rfl, retryTimesOf_ne cache.state, rfl, rfl⟩
    · exact absurd spent (left ever)
    · dsimp only
      rw [same]
      exact ⟨rfl, ever, some_, rfl, rfl⟩
  obtain ⟨idle, ever, some_, bare, shared⟩ := ready
  have alike : Alike cache out.cache host out.host := ⟨bare, by rw [shared]⟩
  have asks : requestOf out.cache.state out.cache out.host = .ok (some command) := by
    rw [alike.state, alike.request, asking.asks]
  have resends : ∃ last, retryWith (onceOf out.cache.state) .onTimeoutEm slot input.retry out.cache
      out.host = .ok last ∧ (input.retry.result = bgErrSuccess → last.cache.waitResponse = true) :=
    retryWith_runs asks fine (.inr ⟨rfl, ever, some_⟩)
  obtain ⟨last, resent, _⟩ := resends
  rw [alike.state] at resent
  have success : out.ret = .suc := by rw [is]
  unfold slotEvent
  simp only [found, eventInprg, callback, waits, if_true, first, ok_bind, eventRetry, again,
    success, idle, ever, decide_true, Bool.not_false, Bool.and_self, resent]
  exact ⟨_, _, rfl⟩

/-- Other events. -/
theorem slotEvent_foreign_runs {packet : ConfigEvent} {input : EventInput}
    (asking : Asking slot command cache host) (waits : cache.waitResponse = true)
    (foreign : ownStatus cache.state packet = none)
    (noPage : cache.state = .getDcdEm → ∀ handle data len, packet ≠ .dcdData handle 0 data len) :
    ∃ after host', slotEvent manager slot packet input cache host = .ok (after, host') := by
  obtain ⟨ops, rest, inprg, found, same, callback, again⟩ :=
    asGet_of_commands (commandState_of_request asking.asks)
  have handles : ∃ out, inprg slot packet input.inprg cache host = .ok out :=
    inprg_foreign (known_of_asGet found) callback (by rw [same, foreign])
      (by rw [same]; exact noPage)
  obtain ⟨out, first⟩ := handles
  have handled := (asGet_cons found).2.inprg callback first
  rw [same] at handled
  have waiting : out.cache.waitResponse = true := by
    rcases handled.of_foreign foreign with
      ⟨_, is⟩ | ⟨_, is | ⟨handle, data, len, _, _, reads, sent, _⟩⟩
    · rw [is]
      exact waits
    · rw [is]
      exact waits
    · exact absurd sent (noPage reads handle data len)
  exact ⟨_, _, slotEvent_settled found callback waits first (.inl waiting)⟩

/-- A success is handled, if it is by the slot without retries. -/
theorem slotEvent_succeeds_runs {manager' : MngState} {packet : ConfigEvent}
    {input smooth : EventInput} {after' : ConfigCache} {between' : Host}
    (alike : Alike cache other host between) (asking : Asking slot command cache host)
    (waits : cache.waitResponse = true) (waits' : other.waitResponse = true)
    (memory : cache.oom = false) (memory' : other.oom = false)
    (own : ownStatus cache.state packet = some bgErrSuccess) (fine : input.inprg.Fine)
    (eased : smooth.inprg.result = bgErrSuccess)
    (taken : slotEvent manager' slot packet smooth other between = .ok (after', between')) :
    ∃ after host', slotEvent manager slot packet input cache host = .ok (after, host') := by
  have commands := commandState_of_request asking.asks
  have commands' : isCommandState other.state = true := by rw [alike.state, commands]
  obtain ⟨ops, rest, inprg, out', found', callback, second, _⟩ :=
    slotEvent_handled commands' waits' taken
  have found : asGet cache.state = ops :: rest := alike.state ▸ found'
  have same := (asGet_cons found).1
  have own' : ownStatus ops.state packet = some bgErrSuccess := by rw [same, own]
  have backward : ∃ out, inprg slot packet input.inprg cache host = .ok out ∧
      Turned ops.state slot other smooth.inprg input.inprg out' out :=
    inprg_turned (known_of_asGet found) callback own' alike.symm memory' memory second
  obtain ⟨out, first, _⟩ := backward
  -- the turn is taken forward once more, since only the answers of the second slot are successes
  have turn : ∃ out', inprg slot packet smooth.inprg other between = .ok out' ∧
      Turned ops.state slot cache input.inprg smooth.inprg out out' :=
    inprg_turned (known_of_asGet found) callback own' alike memory memory' first
  obtain ⟨_, _, turned⟩ := turn
  exact ⟨_, _, slotEvent_settled found callback waits first (.inr (turned.lands fine eased).fresh)⟩

/-- A page that can be stored is. -/
theorem slotEvent_page_runs {handle : UInt32} {data : Bytes.Memory} {len : UInt8}
    {input : EventInput} {stored : ConfigCache} {shared : Host}
    (waits : cache.waitResponse = true) (reads : cache.state = .getDcdEm)
    (stores : storePage data len cache.timerClear host = .ok (stored, shared)) :
    ∃ after host', slotEvent manager slot (.dcdData handle 0 data len) input cache host =
      .ok (after, host') := by
  have found : asGet cache.state = asGetDcd :: (accStates.drop 1) := by
    rw [reads]
    rfl
  have first : getdcdInprg slot (.dcdData handle 0 data len) input.inprg cache host =
      .ok { ret := .suc, cache := stored, host := shared } := by
    simp only [getdcdInprg, if_true, stores, ok_bind]
  have waiting : stored.waitResponse = true := by
    rw [storePage_eq stores]
    exact waits
  exact ⟨_, _, slotEvent_settled found rfl waits first (.inl waiting)⟩

/-! ## Rounds -/

/-- The states are entered, if they are by the slot without retries. -/
theorem enterStates_runs {targets : List AccStateOps} {found' : Bool} {after' : ConfigCache}
    {between' : Host} (known : ∀ ops ∈ targets, ops ∈ accStates) (fine : answer.Fine)
    (eased : easy.result = bgErrSuccess) (alike : Alike cache other host between)
    (calm : cache.Calm) (calm' : other.Calm)
    (taken : enterStates slot easy targets other between = .ok (found', after', between')) :
    ∃ found after host', enterStates slot answer targets cache host =
      .ok (found, after, host') := by
  induction targets with
  | nil => exact ⟨_, _, _, rfl⟩
  | cons ops rest hypothesis =>
      rw [enterStates] at taken
      obtain ⟨out', second, taken⟩ := bind_ok.mp taken
      have member := known ops List.mem_cons_self
      have backward : ∃ out, ops.entry ops.guard slot answer cache host = .ok out ∧
          Entering ops.state slot easy answer other cache between host out' out :=
        entry_entering member alike.symm calm' calm second
      obtain ⟨out, first, _⟩ := backward
      have forward : ∃ out', ops.entry ops.guard slot easy other between = .ok out' ∧
          Entering ops.state slot answer easy cache other host between out out' :=
        entry_entering member alike calm calm' first
      obtain ⟨_, again, entering⟩ := forward
      rw [second] at again
      cases again
      rw [enterStates, first, ok_bind]
      cases entering with
      | skipped =>
          exact hypothesis (fun other member => known other (List.mem_cons_of_mem _ member)) taken
      | turned turned =>
          rcases (turned.lands fine eased).ret with ret | ret
          · simp only [ret]
            exact ⟨_, _, _, rfl⟩
          · simp only [ret]
            exact ⟨_, _, _, rfl⟩

end

/-! ## Steps -/

section

variable {report : DcdReport} {slot : Slot} {manager : MngState} {source shadow : SlotState}

/-- A round, for a slot that another one mirrors. -/
theorem Mirrors.round_runs {input smooth : RoundInput} {manager' : MngState}
    {following : SlotState} (mirrors : Mirrors slot source shadow) (working : source.freed = false)
    (timely : source.cache.guardExpired input.now = false) (fine : input.entry.Fine)
    (fineRetry : input.retry.Fine) (eased : smooth.entry.result = bgErrSuccess)
    (timely' : shadow.cache.guardExpired smooth.now = false)
    (smoothly : shadow.cache.waitResponse = false →
      (SlotOp.round manager' smooth).run slot shadow = .ok following) :
    ∃ target, (SlotOp.round manager input).run slot source = .ok target := by
  have working' : shadow.freed = false := mirrors.freed.trans working
  cases mirrors.phase working with
  | asked asking asking' memory' fresh' =>
      have resends : ∃ after host',
          retryException manager slot input source.cache source.host = .ok (after, host') ∧
            (input.retry.result = bgErrSuccess → after.waitResponse = true) :=
        retryException_runs asking fineRetry timely
      obtain ⟨after, host', resent, _⟩ := resends
      have still := (retryException_asking asking fineRetry timely resent).2.stays
      simp only [SlotOp.run, working, Bool.false_eq_true, if_false, slotRound, resent, ok_bind,
        still, if_true]
      exact ⟨_, rfl⟩
  | silent calm calm' =>
      have exception : retryException manager slot input source.cache source.host =
          .ok (source.cache, source.host) := retryException_calm calm.memory timely
      have exception' : retryException manager' slot smooth shadow.cache shadow.host =
          .ok (shadow.cache, shadow.host) := retryException_calm calm'.memory timely'
      simp only [SlotOp.run, working, Bool.false_eq_true, if_false, slotRound, exception, ok_bind]
      by_cases stays : source.cache.stays = true
      · simp only [stays, if_true, ok_bind]
        exact ⟨_, rfl⟩
      · have stays' : ¬ shadow.cache.stays = true := by
          rw [ConfigCache.stays, calm'.idle, mirrors.alike.state, mirrors.alike.nextState]
          rw [ConfigCache.stays, calm.idle] at stays
          exact stays
        have taken := smoothly calm'.idle
        simp only [SlotOp.run, working', Bool.false_eq_true, if_false, slotRound, exception',
          ok_bind, stays'] at taken
        obtain ⟨_, leaves, _⟩ := bind_ok.mp taken
        obtain ⟨⟨found', after', between'⟩, leaves, _⟩ := bind_ok.mp leaves
        obtain ⟨targets, leads', enters'⟩ := bind_ok.mp leaves
        have leads : leaveTargets source.cache = .ok targets :=
          (@Alike.reads _ _ _ _ _ mirrors.alike.symm (fun cache _ => leaveTargets cache)
            fun _ _ => rfl).trans leads'
        have enters : ∃ found after host',
            enterStates slot input.entry targets source.cache source.host =
              .ok (found, after, host') :=
          enterStates_runs (known_of_leaveTargets leads) fine eased mirrors.alike calm calm' enters'
        obtain ⟨found, after, host', enters⟩ := enters
        simp only [stays, Bool.false_eq_true, if_false, toNextState, leads, enters, ok_bind]
        exact ⟨_, rfl⟩

/-- An event, for a slot that waits. -/
theorem Trails.event_runs {packet : ConfigEvent} {input : EventInput} {following : SlotState}
    (trails : Trails report slot source shadow) (working : source.freed = false)
    (scheduled : (SlotOp.event manager packet input).Scheduled report slot source)
    (smoothly : (shadow.promptOp report slot).run slot shadow = .ok following) :
    ∃ target, (SlotOp.event manager packet input).run slot source = .ok target := by
  obtain ⟨waits, fine, fineRetry, reports, answers⟩ := scheduled working
  have mirrors := trails.mirrors
  have working' : shadow.freed = false := mirrors.freed.trans working
  suffices handles : ∃ after host', slotEvent manager slot packet input source.cache source.host =
      .ok (after, host') by
    obtain ⟨after, host', handled⟩ := handles
    exact ⟨_, run_event working handled⟩
  cases mirrors.phase working with
  | silent calm calm' =>
      rw [calm.idle] at waits
      cases waits
  | @asked command asking asking' memory' fresh' =>
      have memory : source.cache.oom = false := by
        have once := asking.once
        rw [waits] at once
        simpa using once
      have waits' : shadow.cache.waitResponse = true := by
        rw [asking'.once, memory']
        rfl
      rw [promptOp_event waits'] at smoothly
      simp only [SlotOp.run, working', Bool.false_eq_true, if_false] at smoothly
      obtain ⟨⟨after', between'⟩, handledToo, _⟩ := bind_ok.mp smoothly
      cases own : ownStatus source.cache.state packet with
      | none =>
          by_cases page : source.cache.state = .getDcdEm ∧
              ∃ handle data len, packet = .dcdData handle 0 data len
          · obtain ⟨reads, handle, data, len, rfl⟩ := page
            suffices stores : ∃ after host',
                storePage report.data report.len source.cache.timerClear source.host =
                  .ok (after, host') by
              obtain ⟨after, host', stores⟩ := stores
              rw [← Reports.stores reports] at stores
              exact slotEvent_page_runs waits reads stores
            cases elems : source.cache.dcd.elems with
            | none =>
                rw [mirrors.told_page reads elems] at handledToo
                obtain ⟨storesToo, _⟩ :=
                  slotEvent_stored asking' waits' (mirrors.alike.state.trans reads) handledToo
                have cleared : Alike shadow.cache.timerClear source.cache.timerClear shadow.host
                    source.host := ⟨mirrors.alike.symm.slot, mirrors.alike.symm.shared⟩
                obtain ⟨after, host', stores, _⟩ := storePage_alike cleared storesToo
                exact ⟨after, host', stores⟩
            | some list =>
                have there : source.cache.dcd.elems ≠ none := by
                  rw [elems]
                  exact Option.some_ne_none list
                obtain ⟨after, host', stores, _⟩ := trails.course.stores_again asking reads there
                exact ⟨after, host', stores⟩
          · exact slotEvent_foreign_runs asking waits own
              fun reads handle data len same => page ⟨reads, handle, data, len, same⟩
      | some result =>
          obtain ⟨kind, ⟨rfl, there⟩ | ⟨rfl, within⟩⟩ := answers result own
          · obtain ⟨_, ⟨handle, rfl⟩, told⟩ :=
              trails.told_success asking asking' waits own (kind command asking.sent) there
            rw [told, ← slotEvent_handle _ slot command handle 0] at handledToo
            exact slotEvent_succeeds_runs mirrors.alike asking waits waits' memory memory' own fine
              rfl handledToo
          · exact slotEvent_timesOut_runs asking waits own (trails.course.left within) fineRetry

/-- A scheduled step does not abort, where the next step of the prompt run does not. -/
theorem Trails.runs {op : SlotOp} {following : SlotState}
    (trails : Trails report slot source shadow) (scheduled : op.Scheduled report slot source)
    (smoothly : (shadow.promptOp report slot).run slot shadow = .ok following) :
    ∃ target, op.run slot source = .ok target := by
  cases freed : source.freed with
  | true => exact ⟨source, by simp only [SlotOp.run, freed, if_true]⟩
  | false =>
      cases op with
      | round manager input =>
          obtain ⟨timely, fine, fineRetry⟩ := scheduled freed
          let smooth : RoundInput := { now := 0, retry := .taken 0 0, entry := .taken 0 0 }
          have timely' : shadow.cache.guardExpired smooth.now = false := by
            simp [smooth, ConfigCache.guardExpired]
          have eased : smooth.entry.result = bgErrSuccess := rfl
          have next : shadow.cache.waitResponse = false →
              (SlotOp.round .configuringDevicesEm smooth).run slot shadow = .ok following := by
            intro idle
            rw [← smoothly, promptOp_round idle]
          exact trails.mirrors.round_runs freed timely fine fineRetry eased timely' next
      | event manager packet input => exact trails.event_runs freed scheduled smoothly
      | outside db cfg stat effects =>
          simp only [SlotOp.run, freed, Bool.false_eq_true, if_false]
          exact ⟨_, rfl⟩

end

end Nwmng
