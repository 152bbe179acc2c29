/-
Module: Nwmng.Config.Scheduled
Purpose: Runs of a slot in which commands meet with full memory and answers are lost, but no
command runs out of retries; and what such a run keeps of the slot.
Trusted boundary: none
Main exports:
  Answers, SlotOp.Scheduled, SlotOp.Alone, OnCourse, OnCourse.step
-/
import Nwmng.Config.DoneSound
import Nwmng.Config.PromptRun

namespace Nwmng

open Transition Fallible

/-!
## Schedules

A schedule says for each command whether the NCP has memory for it, and for each answer whether it
arrives or times out.  It may hold up to `RETRY_TIMES` timeouts for a command.
-/

/-- A page 0 that a device sends is read like the one it reports. -/
def Reports (report : DcdReport) (source : SlotState) : ConfigEvent → Prop
  | .dcdData _ page data len => page = 0 → ∀ id ∈ source.cache.node,
      dcdStore 256 data len (source.host.db.heap id).func =
        dcdStore 256 report.data report.len (source.host.db.heap id).func
  | _ => True

instance reportsDecidable (report : DcdReport) (source : SlotState) :
    (packet : ConfigEvent) → Decidable (Reports report source packet)
  | .dcdData _ page data len =>
      (inferInstance : Decidable (page = 0 → ∀ id ∈ source.cache.node,
        dcdStore 256 data len (source.host.db.heap id).func =
          dcdStore 256 report.data report.len (source.host.db.heap id).func))
  | .dcdDataEnd _ _ => isTrue trivial
  | .status _ _ _ => isTrue trivial
  | .other _ => isTrue trivial

/-- A status answers the command that the slot has sent last.  It is a success, for composition
data once their page is there, or one of the timeouts that the command survives. -/
def Answers (slot : Slot) (source : SlotState) (packet : ConfigEvent) : Prop :=
  ∀ result ∈ ownStatus source.cache.state packet,
    (∀ command ∈ source.host.lastSentBy slot, packet.kind = command.kind) ∧
      ((result = bgErrSuccess ∧
          (source.cache.state = .getDcdEm → source.cache.dcd.elems.isSome = true)) ∨
        (result = bgErrTimeout ∧ source.spent < (retryTimesOf source.cache.state).toNat))

instance answersDecidable (slot : Slot) (source : SlotState) (packet : ConfigEvent) :
    Decidable (Answers slot source packet) :=
  @decidableForallSome _ (ownStatus source.cache.state packet) _ fun result =>
    (inferInstance : Decidable
      ((∀ command ∈ source.host.lastSentBy slot, packet.kind = command.kind) ∧
        ((result = bgErrSuccess ∧
            (source.cache.state = .getDcdEm → source.cache.dcd.elems.isSome = true)) ∨
          (result = bgErrTimeout ∧ source.spent < (retryTimesOf source.cache.state).toNat))))

/-- The NCP takes each command of the step or has no memory for it, no guard timer has expired,
and events come for a command that waits for them. -/
def SlotOp.Scheduled (report : DcdReport) (slot : Slot) (source : SlotState) : SlotOp → Prop
  | .round _ input => source.freed = false →
      source.cache.guardExpired input.now = false ∧ input.entry.Fine ∧ input.retry.Fine
  | .event _ packet input => source.freed = false →
      source.cache.waitResponse = true ∧ input.inprg.Fine ∧ input.retry.Fine ∧
        Reports report source packet ∧ Answers slot source packet
  | .outside .. => True

instance scheduledDecidable (report : DcdReport) (slot : Slot) (source : SlotState) :
    (op : SlotOp) → Decidable (op.Scheduled report slot source)
  | .round _ input =>
      (inferInstance : Decidable (source.freed = false →
        source.cache.guardExpired input.now = false ∧ input.entry.Fine ∧ input.retry.Fine))
  | .event _ packet input =>
      (inferInstance : Decidable (source.freed = false →
        source.cache.waitResponse = true ∧ input.inprg.Fine ∧ input.retry.Fine ∧
          Reports report source packet ∧ Answers slot source packet))
  | .outside .. => isTrue trivial

/-- The rest of the program leaves the records and the keys alone.  It may count, and send
commands of its own. -/
def SlotOp.Alone (source : SlotState) : SlotOp → Prop
  | .outside db cfg _ _ => db = source.host.db ∧ cfg = source.host.cfg
  | _ => True

/-- The slot is in a state that configures its node, and goes on to such a state or, in the order
of the states, behind its own. -/
structure ConfigCache.Configures (cache : ConfigCache) : Prop where
  here : cache.state.code < AccState.endEm.code
  next : ∀ state, cache.nextState = some state → state.code < AccState.endEm.code

/-- The record that the address of a node leads to says that it is configured: `Done` is set, and
no bit of the error mask. -/
def CfgDb.Configured (db : CfgDb) (node : NodeId) : Prop :=
  ∃ record, db.cfgdbNodeGet (db.heap node).addr = some record ∧
    (db.heap record).done = 1 ∧ (db.heap record).err = 0

/-- What a scheduled run keeps of a slot: it has met no error, the timeouts of its command are
within the budget, and composition data that it reads are those of the report. -/
structure OnCourse (report : DcdReport) (slot : Slot) (source : SlotState) : Prop where
  unfailed : Unfailed slot source.cache source.host
  configures : source.freed = false → source.cache.Configures
  configured : source.freed = true → ∀ node, source.cache.node = some node →
    source.host.db.Configured node
  fresh : source.cache.everRetried = false → source.spent = 0
  budget : source.cache.everRetried = true → (retryTimesOf source.cache.state).toNat ≤
    source.cache.remainingRetry.toNat + source.spent
  early : source.cache.state.code < AccState.getDcdEm.code → source.cache.dcd.elems = none
  reported : source.cache.state = .getDcdEm → source.cache.nextState = some .getDcdEm →
    source.cache.dcd.elems ≠ none → Restored report source.cache source.host

section

variable {report : DcdReport} {slot : Slot} {manager : MngState} {cache after : ConfigCache}
variable {host host' : Host} {command : Command} {spent : Nat}

/-! ## What keeps the course -/

theorem ConfigCache.Configures.of_alike (configures : cache.Configures)
    (alike : Alike cache after host host') : after.Configures where
  here := alike.state ▸ configures.here
  next state next := configures.next state (alike.nextState ▸ next)

/-- A slot that has done the same work, and has the same budget. -/
theorem OnCourse.moved {freed : Bool}
    (course : OnCourse report slot { cache := cache, host := host, spent := spent, freed := freed })
    (working : freed = false) (alike : Alike cache after host host')
    (unfailed : Unfailed slot after host')
    (ever : after.everRetried = cache.everRetried)
    (remaining : after.remainingRetry = cache.remainingRetry) :
    OnCourse report slot { cache := after, host := host', spent := spent, freed := false } where
  unfailed := unfailed
  configures _ := (course.configures working).of_alike alike
  configured ended := by cases ended
  fresh fresh := course.fresh (ever.symm.trans fresh)
  budget retried := by
    dsimp only
    rw [alike.state, remaining]
    exact course.budget (ever.symm.trans retried)
  early before := by
    dsimp only at before ⊢
    rw [alike.dcd]
    exact course.early (alike.state ▸ before)
  reported reads next there := by
    dsimp only at reads next there
    rw [alike.dcd] at there
    exact (course.reported (alike.state.symm.trans reads) (alike.nextState.symm.trans next)
      there).moved alike

/-- A slot without an error that has done the same work has none. -/
theorem Unfailed.of_alike (own : Unfailed slot cache host) (alike : Alike cache after host host')
    (sound : Unfailed slot after host' ∨ Failing slot after host') : Unfailed slot after host' := by
  rcases sound with unfailed | failing
  · exact unfailed
  · have failed := failing.failed
    rw [alike.failed, own.failed] at failed
    cases failed

theorem CmdRsp.Fine.known {answer : CmdRsp} (fine : answer.Fine) :
    ¬ (answer.result ≠ bgErrSuccess ∧ answer.result ≠ bgErrOutOfMemory) := by
  rintro ⟨success, full⟩
  rcases fine with fine | fine
  · exact success fine
  · exact full fine

/-- A retry under a fine answer: only one for a timeout takes from the budget. -/
theorem Retried.fine {state : AccState} {reason : RetryReason} {answer : CmdRsp} {out : Outcome}
    (retried : Retried state reason slot answer cache host out) (fine : answer.Fine) :
    out.cache.everRetried = cache.everRetried ∧
      (out.cache.remainingRetry = cache.remainingRetry ∨
        (reason = .onTimeoutEm ∧ cache.remainingRetry ≠ 0 ∧
          out.cache.remainingRetry = cache.remainingRetry - 1)) := by
  cases retried with
  | unsent attempt _ =>
      cases attempt with
      | accepted command vnm _ _ _ => exact ⟨rfl, .inl rfl⟩
      | outOfMemory command vnm _ _ _ => exact ⟨rfl, .inl rfl⟩
      | refused command vnm error _ _ => exact (fine.known error).elim
      | unknown _ => exact ⟨rfl, .inl rfl⟩
  | resent attempt sent finishes =>
      cases attempt with
      | accepted command vnm _ _ _ =>
          cases reason with
          | onTimeoutEm =>
              obtain ⟨_, left, rfl⟩ := finishes
              exact ⟨rfl, .inr ⟨rfl, left, rfl⟩⟩
          | onOomEm =>
              obtain ⟨_, rfl⟩ := finishes
              exact ⟨rfl, .inl rfl⟩
          | onGuardTimerExpiredEm =>
              obtain ⟨_, rfl⟩ := finishes
              exact ⟨rfl, .inl rfl⟩
      | _ => cases sent

/-- So the first half of a round takes nothing from the budget. -/
theorem ExceptionStep.fine {input : RoundInput}
    (exception : ExceptionStep manager slot input cache host after host')
    (fine : input.retry.Fine) : after.everRetried = cache.everRetried ∧
      after.remainingRetry = cache.remainingRetry := by
  cases exception with
  | quiet _ => exact ⟨rfl, rfl⟩
  | expired _ _ retried =>
      obtain ⟨ever, same | ⟨impossible, _⟩⟩ := retried.fine fine
      · exact ⟨ever, same⟩
      · cases impossible
  | memory _ _ _ _ retried =>
      obtain ⟨ever, same | ⟨impossible, _⟩⟩ := retried.fine fine
      · exact ⟨ever, same⟩
      · cases impossible

theorem Arrived.dcd {targets : List AccStateOps} {answer : CmdRsp}
    (arrived : Arrived targets slot answer cache host after host') : after.dcd = cache.dcd := by
  cases arrived with
  | nowhere _ => rfl
  | entered _ _ entry _ => exact entry.frame.2.1
  | refused _ _ entry _ _ => exact entry.frame.2.1

/-! ## Rounds -/

/-- Where a slot comes that configures its node and leaves its state: to a later state that
configures it, or to the end. -/
structure ComesTo (slot : Slot) (answer : CmdRsp) (cache after : ConfigCache) (host host' : Host) :
    Prop where
  later : cache.state.code < after.state.code
  next : after.nextState = some after.state
  place : after.state.code < AccState.endEm.code ∨ (after.state = .endEm ∧
    endEntry none slot answer cache host =
      .ok { ret := .suc, cache := cache, host := host' })

/-- Under a fine answer a slot that leaves its state gets to a later one, or stays.  It cannot
pass the end, which has no guard. -/
theorem Arrived.onward {targets : List AccStateOps} {answer : CmdRsp}
    (arrived : Arrived targets slot answer cache host after host') (fine : answer.Fine)
    (own : Unfailed slot cache host) (leaving : cache.stays = false)
    (leads : leaveTargets cache = .ok targets) (configures : cache.Configures) :
    (after = cache ∧ host' = host) ∨ ComesTo slot answer cache after host host' := by
  cases arrived with
  | nowhere _ => exact .inl ⟨rfl, rfl⟩
  | @entered before behind ops out split skipped entry ret =>
      refine .inr ⟨own.forward.leaves leaving leads ops (by rw [split]; simp), rfl, ?_⟩
      dsimp only
      rcases Nat.lt_trichotomy ops.state.code AccState.endEm.code with early | last | passed
      · exact .inl early
      · have ends : ops.state = .endEm := AccState.code_inj last
        refine .inr ⟨ends, ?_⟩
        cases entry with
        | skipped _ => rcases ret with impossible | impossible <;> cases impossible
        | attempted commands _ _ _ _ =>
            rw [ends] at commands
            cases commands
        | noCommand _ _ none_left =>
            have setting := none_left.1
            rw [ends] at setting
            cases setting
        | ended _ conclusion => exact conclusion
        | removed removes _ =>
            rw [ends] at removes
            cases removes
      · obtain ⟨id, here⟩ := Option.isSome_iff_exists.mp own.here
        obtain ⟨other, member, ends⟩ : ∃ other ∈ before, other.state = .endEm := by
          cases next : cache.nextState with
          | none =>
              obtain ⟨ownOps, found⟩ := leaveTargets_own next leads
              rw [split] at found
              obtain ⟨other, member, ends⟩ :=
                @asGet_between _ .endEm (ownOps :: before) behind ops found (asGet_known found)
                  (Nat.le_of_lt configures.here) passed
              rcases List.mem_cons.mp member with rfl | skips
              · have here := configures.here
                rw [← (asGet_cons found).1, ends] at here
                exact absurd here (Nat.lt_irrefl _)
              · exact ⟨other, skips, ends⟩
          | some start =>
              obtain ⟨found, known⟩ := leaveTargets_next next own.forward leads
              rw [split] at found
              exact asGet_between found known (Nat.le_of_lt (configures.next start next)) passed
        have closed := skipped other member id here
        rw [ends] at closed
        cases closed
  | refused split skipped entry ret conclusion =>
      cases entry with
      | attempted _ _ _ attempt _ =>
          cases attempt with
          | refused _ _ error _ _ => exact (fine.known error).elim
          | _ => cases ret
      | _ => cases ret

/-- A slot that comes to the end without an error leaves its node configured. -/
theorem endEntry_configured {answer : CmdRsp} {node : NodeId} (clean : cache.failed = false)
    (here : cache.node = some node)
    (entered : endEntry none slot answer cache host =
      .ok { ret := .suc, cache := cache, host := host' }) : host'.db.Configured node := by
  obtain ⟨id, record, there, filed, changed⟩ := endEntry_host entered
  cases Option.some.inj (there.symm.trans here)
  rw [clean] at changed
  simp only [Bool.false_eq_true, if_false] at changed
  rw [changed]
  refine ⟨record, ?_, ?_, ?_⟩
  · have addr : ((((host.db.update record fun node => { node with err := 0 }).update record
        fun node => { node with done := 1 }).heap node).addr) = (host.db.heap node).addr := by
      by_cases same : node = record
      · rw [same, CfgDb.heap_update_self, CfgDb.heap_update_self]
      · rw [CfgDb.heap_update_of_ne _ _ same, CfgDb.heap_update_of_ne _ _ same]
    rw [CfgDb.cfgdbNodeGet] at filed ⊢
    dsimp only [Host.record]
    rw [addr, CfgDb.get_update, CfgDb.get_update]
    exact filed
  · dsimp only [Host.record]
    rw [CfgDb.heap_update_self]
  · dsimp only [Host.record]
    rw [CfgDb.heap_update_self, CfgDb.heap_update_self]

theorem ConfigCache.Configures.unended (configures : cache.Configures) : cache.ended = false := by
  have here := configures.here
  revert here
  rw [ConfigCache.ended]
  cases cache.state <;> decide

/-- A slot that has come to a later state. -/
theorem OnCourse.entered {freed : Bool} (unfailed : Unfailed slot after host')
    (configures : freed = false → after.Configures)
    (configured : freed = true → ∀ node, after.node = some node → host'.db.Configured node)
    (ever : after.everRetried = false) (dcd : after.dcd = cache.dcd)
    (later : cache.state.code < after.state.code)
    (early : cache.state.code < AccState.getDcdEm.code → cache.dcd.elems = none) :
    OnCourse report slot { cache := after, host := host', spent := 0, freed := freed } where
  unfailed := unfailed
  configures := configures
  configured := configured
  fresh _ := rfl
  budget retried := absurd (ever.symm.trans retried) (by decide)
  early before := by
    dsimp only at before ⊢
    rw [dcd]
    exact early (later.trans before)
  reported reads _ there := by
    dsimp only at reads there
    rw [reads] at later
    rw [dcd] at there
    exact absurd (early later) there

/-- A round, for a slot with a command or without. -/
theorem OnCourse.round {source target : SlotState} {input : RoundInput}
    (course : OnCourse report slot source) (working : source.freed = false)
    (stands : (∃ command, Asking slot command source.cache source.host) ∨ source.cache.Calm)
    (timely : source.cache.guardExpired input.now = false) (fine : input.entry.Fine)
    (fineRetry : input.retry.Fine)
    (taken : (SlotOp.round manager input).run slot source = .ok target) :
    OnCourse report slot target := by
  obtain ⟨cache, host, spent, freed⟩ := source
  cases slotOp_move taken with
  | free freed =>
      rw [working] at freed
      cases freed
  | @stays _ _ after host' _ resent still =>
      have exception := retryException_step resent
      obtain ⟨ever, remaining⟩ := exception.fine fineRetry
      have alike : Alike cache after host host' := by
        rcases stands with ⟨command, asking⟩ | calm
        · exact (retryException_asking asking fineRetry timely resent).1
        · rw [retryException_calm calm.memory timely] at resent
          cases resent
          exact ⟨rfl, rfl⟩
      have unfailed := course.unfailed.of_alike alike (exception.named (.inl course.unfailed))
      exact course.moved working alike unfailed ever remaining
  | @leaves _ _ middle after between host' targets _ resent leaving leads arrived =>
      rcases stands with ⟨command, asking⟩ | calm
      · have still := (retryException_asking asking fineRetry timely resent).2.stays
        rw [leaving] at still
        cases still
      · rw [retryException_calm calm.memory timely] at resent
        cases resent
        have unfailed : Unfailed slot after host' := by
          rcases arrived.of_unfailed leads leaving course.unfailed with
            ⟨_, unfailed⟩ | ⟨refused, _⟩
          · exact unfailed
          · exact (fine.known refused.1).elim
        have configures := course.configures working
        rcases arrived.onward fine course.unfailed leaving leads configures with
          ⟨rfl, rfl⟩ | comes
        · refine ⟨unfailed, fun _ => configures, fun ended => ?_, fun _ => rfl, fun retried => ?_,
            course.early, course.reported⟩
          · exact absurd (configures.unended.symm.trans ended) (by decide)
          · exact absurd (calm.fresh.symm.trans retried) (by decide)
        · have onward' : after.state.code < AccState.endEm.code → after.Configures := by
            refine fun before => ⟨before, fun state next => ?_⟩
            rw [comes.next] at next
            cases next
            exact before
          have onward : after.ended = false → after.Configures := by
            intro unended
            rcases comes.place with before | ⟨ends, _⟩
            · exact onward' before
            · rw [ConfigCache.ended, ends] at unended
              cases unended
          have configured : after.ended = true →
              ∀ node, after.node = some node → host'.db.Configured node := by
            intro ended node here
            rcases comes.place with before | ⟨_, entered⟩
            · exact absurd ((onward' before).unended.symm.trans ended) (by decide)
            · exact endEntry_configured course.unfailed.failed (arrived.sameNode.symm.trans here)
                entered
          exact .entered unfailed onward configured (arrived.fresh calm.fresh) arrived.dcd
            comes.later course.early

/-! ## Events -/

theorem afterDcd_eq (err : BitVec 32) (cache : ConfigCache) :
    afterDcd err cache = { cache with nextState := (afterDcd err cache).nextState } := by
  unfold afterDcd
  split
  · split
    · rfl
    · rfl
  · rfl

/-- A slot that reads on after composition data has nothing to resume. -/
theorem afterDcd_stays {err : BitVec 32} (next : (afterDcd err cache).nextState = some .getDcdEm) :
    afterDcd err cache = cache := by
  unfold afterDcd at next ⊢
  by_cases failed : (decide (AccState.getDcdEm.errorBit < err) &&
      decide (err < AccState.endEm.errorBit)) = true
  · rw [if_pos failed] at next ⊢
    cases found : resumeState err with
    | none => rfl
    | some state =>
        rw [found] at next
        have member := List.mem_of_find?_eq_some found
        cases next
        simp at member
  · rw [if_neg failed] at next
    cases next

/-- Where a success leads. -/
theorem Handled.of_success {packet : ConfigEvent} {answer : CmdRsp} {out : Outcome}
    (handled : Handled cache.state slot packet answer cache host out)
    (own : ownStatus cache.state packet = some bgErrSuccess) (fine : answer.Fine) :
    out.cache.errCache = cache.errCache ∧ out.cache.everRetried = false ∧
      out.cache.state = cache.state ∧ out.cache.dcd = cache.dcd ∧
      ∀ next, out.cache.nextState = some next →
        cache.nextState = some next ∨ next.code < AccState.endEm.code := by
  have once : ∀ {result : UInt16}, ownStatus cache.state packet = some result →
      result = bgErrSuccess := fun another => Option.some.inj (another.symm.trans own)
  have spent : ∀ {result : UInt16} {ever : Bool} {remaining : UInt8},
      ownStatus cache.state packet = some result →
      BudgetStep cache.state result cache ever remaining → ever = false := by
    intro result ever remaining another budget
    rcases budget with ⟨fresh, _⟩ | ⟨_, full, _⟩
    · exact fresh
    · rw [once another] at full
      cases full
  cases handled with
  | unexpected foreign _ =>
      rw [own] at foreign
      cases foreign
  | page reads sent _ =>
      rw [reads, sent] at own
      cases own
  | otherPage page =>
      rw [ownStatus_page page] at own
      cases own
  | timeout another => exact absurd (once another) (by decide)
  | failed code another error => exact absurd (once another) error.1
  | @resumed id reads here another =>
      have onward : ∀ next,
          (afterDcd (host.db.heap id).err cache.answered.retryClear).nextState = some next →
            cache.nextState = some next ∨ next.code < AccState.endEm.code := by
        intro next leads
        rcases afterDcd_cases (host.db.heap id).err cache.answered.retryClear with
          none_ | ⟨state, resumes, same⟩ | stays
        · rw [none_] at leads
          cases leads
        · cases Option.some.inj (same.symm.trans leads)
          exact .inr (AccState.resumable_early (resumesAt_resumable resumes)).2
        · rw [stays] at leads
          exact .inl leads
      rw [afterDcd_eq]
      exact ⟨rfl, rfl, rfl, rfl, onward⟩
  | removed removes another => exact ⟨rfl, rfl, rfl, rfl, fun next leads => by cases leads⟩
  | finished iterators ever remaining another _ here features budget configures =>
      exact ⟨rfl, spent another budget, rfl, rfl, fun next leads => by cases leads⟩
  | continued iterators ever remaining another _ features budget attempt known =>
      have fresh := spent another budget
      cases attempt with
      | accepted command vnm _ _ _ => exact ⟨rfl, fresh, rfl, rfl, fun next leads => .inl leads⟩
      | outOfMemory command vnm _ _ _ => exact ⟨rfl, fresh, rfl, rfl, fun next leads => .inl leads⟩
      | refused command vnm error _ _ => exact (fine.known error).elim
      | unknown _ => exact ⟨rfl, fresh, rfl, rfl, fun next leads => .inl leads⟩

/-- The end of composition data, for a slot that has asked for them. -/
theorem slotEvent_read {packet : ConfigEvent} {input : EventInput}
    (reads : cache.state = .getDcdEm) (waits : cache.waitResponse = true)
    (own : ownStatus cache.state packet = some bgErrSuccess)
    (taken : slotEvent manager slot packet input cache host = .ok (after, host')) :
    host' = host ∧ ∃ err, after = afterDcd err cache.answered.retryClear := by
  obtain ⟨ops, rest, inprg, out, found, callback, first, retried⟩ :=
    slotEvent_handled (by rw [reads]; rfl) waits taken
  rw [reads] at found own
  cases found
  cases callback
  cases packet with
  | dcdDataEnd handle result =>
      cases own
      simp only [getdcdInprg, if_true, bind_ok, Except.ok.injEq] at first
      obtain ⟨⟨id, node⟩, there, rfl⟩ := first
      have fresh : (afterDcd node.err cache.answered.retryClear).everRetried = false := by
        rw [afterDcd_eq]
        rfl
      rw [eventRetry_quiet slot manager input (.inr fresh)] at retried
      cases retried
      exact ⟨rfl, node.err, rfl⟩
  | _ => cases own

/-- The budget after a timeout that the command survives, and a retry for it: both together take
one from it at most. -/
theorem EventStep.of_timeout {packet : ConfigEvent} {input : EventInput}
    (step : EventStep manager slot packet input cache host after host')
    (commands : isCommandState cache.state = true) (waits : cache.waitResponse = true)
    (own : ownStatus cache.state packet = some bgErrTimeout)
    (left : cache.everRetried = true → cache.remainingRetry ≠ 0) (fine : input.retry.Fine) :
    after.everRetried = true ∧
      (cache.everRetried = false →
        (retryTimesOf cache.state).toNat ≤ after.remainingRetry.toNat + 1) ∧
      (cache.everRetried = true →
        cache.remainingRetry.toNat ≤ after.remainingRetry.toNat + 1) := by
  have less : ∀ {before after : UInt8}, before ≠ 0 → after = before - 1 →
      before.toNat ≤ after.toNat + 1 := by
    rintro before after positive rfl
    have some_ : (1 : UInt8) ≤ before := by
      rw [UInt8.le_iff_toNat_le]
      have : before.toNat ≠ 0 := fun none_ => positive (UInt8.toNat_inj.mp none_)
      change 1 ≤ before.toNat
      omega
    rw [UInt8.toNat_sub_of_le _ _ some_]
    change before.toNat ≤ before.toNat - 1 + 1
    omega
  have handled : ∀ {answer : CmdRsp} {out : Outcome}, TakesEvent slot packet answer cache host out →
      out = { ret := .suc, host := host
              cache := Nwmng.timedOut (retryTimesOf cache.state) (giveUpOf cache.state)
                cache.answered } := by
    intro answer out takes
    cases takes with
    | handled _ _ handled => exact handled.of_timeout own
    | ignored idle =>
        rw [idle commands] at waits
        cases waits
  obtain ⟨_, idle, _, ever⟩ :=
    @timedOut_retries cache.answered (retryTimesOf cache.state) (giveUpOf cache.state) left
  cases step with
  | settled takes calm =>
      rw [handled takes] at calm
      have fresh := calm commands rfl idle
      rw [ever] at fresh
      cases fresh
  | @resent out last takes _ _ _ again retried =>
      rw [handled takes] at retried
      obtain ⟨same, remaining⟩ := retried.fine fine
      refine ⟨same.trans ever, ?_⟩
      rcases timedOut_cases (retryTimesOf cache.state) (giveUpOf cache.state) cache.answered with
        ⟨fresh, is⟩ | ⟨spent, none_, _⟩ | ⟨spent, some_, is⟩
      · dsimp only at remaining
        rw [is] at remaining
        refine ⟨fun _ => ?_, fun retried => absurd (fresh.symm.trans retried) (by decide)⟩
        rcases remaining with kept | ⟨_, positive, taken⟩
        · rw [kept]
          exact Nat.le_succ _
        · exact less positive taken
      · exact absurd none_ (left spent)
      · dsimp only at remaining
        rw [is] at remaining
        refine ⟨fun fresh => absurd (fresh.symm.trans spent) (by decide), fun _ => ?_⟩
        rcases remaining with kept | ⟨_, positive, taken⟩
        · rw [kept]
          exact Nat.le_succ _
        · exact less positive taken

/-- A budget that is not spent has a retry left. -/
theorem OnCourse.left {source : SlotState} (course : OnCourse report slot source)
    (within : source.spent < (retryTimesOf source.cache.state).toNat)
    (retried : source.cache.everRetried = true) : source.cache.remainingRetry ≠ 0 := by
  intro spent
  have whole := course.budget retried
  rw [spent] at whole
  change _ ≤ 0 + source.spent at whole
  omega

/-- A timeout that the command survives. -/
theorem OnCourse.timedOut {source : SlotState} {packet : ConfigEvent} {input : EventInput}
    (course : OnCourse report slot source) (working : source.freed = false)
    (asking : Asking slot command source.cache source.host)
    (waits : source.cache.waitResponse = true) (memory : source.cache.oom = false)
    (own : ownStatus source.cache.state packet = some bgErrTimeout)
    (within : source.spent < (retryTimesOf source.cache.state).toNat) (fine : input.retry.Fine)
    (taken : slotEvent manager slot packet input source.cache source.host = .ok (after, host')) :
    OnCourse report slot
      { cache := after, host := host', spent := source.spent + 1, freed := false } := by
  have step := slotEvent_step taken
  obtain ⟨alike, _⟩ :=
    slotEvent_timesOut asking waits memory own (course.left within) fine taken
  have unfailed := course.unfailed.of_alike alike (step.named (.inl course.unfailed))
  obtain ⟨ever, first, later⟩ := step.of_timeout (commandState_of_request asking.asks) waits own
    (course.left within) fine
  refine ⟨unfailed, fun _ => (course.configures working).of_alike alike,
    (fun ended => by cases ended), fun fresh => absurd (ever.symm.trans fresh) (by decide),
    fun _ => ?_, ?_, ?_⟩
  · dsimp only
    rw [alike.state]
    cases retried : source.cache.everRetried with
    | false =>
        have whole := first retried
        omega
    | true =>
        have whole := course.budget retried
        have less := later retried
        omega
  · dsimp only
    rw [alike.state, alike.dcd]
    exact course.early
  · dsimp only
    rw [alike.state, alike.nextState, alike.dcd]
    intro reads next there
    exact (course.reported reads next there).moved alike

/-- An event that is no status leaves the slot waiting; after a page the report is stored. -/
theorem OnCourse.foreign {source : SlotState} {packet : ConfigEvent} {input : EventInput}
    (course : OnCourse report slot source) (working : source.freed = false)
    (asking : Asking slot command source.cache source.host)
    (waits : source.cache.waitResponse = true)
    (own : ownStatus source.cache.state packet = none) (reports : Reports report source packet)
    (taken : slotEvent manager slot packet input source.cache source.host = .ok (after, host')) :
    OnCourse report slot
      { cache := after, host := host', spent := source.spent, freed := false } := by
  have sound := (slotEvent_step taken).named (.inl course.unfailed)
  obtain ⟨ops, rest, inprg, out, found, callback, first, retried⟩ :=
    slotEvent_handled (commandState_of_request asking.asks) waits taken
  obtain ⟨same, lawful⟩ := asGet_cons found
  have handled := lawful.inprg callback first
  rw [same] at handled
  have cleared : ∀ ret,
      out = { ret := ret, cache := source.cache.timerClear, host := source.host } →
      OnCourse report slot
        { cache := after, host := host', spent := source.spent, freed := false } := by
    rintro ret rfl
    rw [eventRetry_quiet slot manager input (.inl waits)] at retried
    cases retried
    exact course.moved working ⟨rfl, rfl⟩ (course.unfailed.of_alike ⟨rfl, rfl⟩ sound) rfl rfl
  rcases handled.of_foreign own with
    ⟨_, is⟩ | ⟨_, is | ⟨handle, data, len, stored, shared, reads, rfl, stores, rfl⟩⟩
  · exact cleared _ is
  · exact cleared _ is
  · have shape := storePage_eq stores
    have waiting : stored.waitResponse = true := by
      rw [shape]
      exact waits
    rw [eventRetry_quiet slot manager input (.inl waiting)] at retried
    cases retried
    have again : storePage report.data report.len source.cache.timerClear source.host =
        .ok (stored, shared) := by
      rw [← stores]
      apply Eq.symm
      exact @storePage_congr source.cache.timerClear source.host _ _ _ _ (reports rfl)
    have state : stored.state = source.cache.state := by rw [shape]; rfl
    refine ⟨?_, ?_, (fun ended => by cases ended), ?_, ?_, ?_,
      fun _ _ _ => storePage_restored again⟩
    · rcases sound with unfailed | failing
      · exact unfailed
      · have failed := failing.failed
        have same : stored.failed = source.cache.failed := by rw [shape]; rfl
        rw [same, course.unfailed.failed] at failed
        cases failed
    · intro _
      dsimp only
      rw [shape]
      exact ⟨(course.configures working).here, (course.configures working).next⟩
    · dsimp only
      rw [shape]
      exact course.fresh
    · dsimp only
      rw [shape]
      exact course.budget
    · dsimp only
      rw [state, reads]
      intro before
      exact absurd before (Nat.lt_irrefl _)

/-- A success ends the command. -/
theorem OnCourse.succeeded {source : SlotState} {packet : ConfigEvent} {input : EventInput}
    (course : OnCourse report slot source) (working : source.freed = false)
    (waits : source.cache.waitResponse = true)
    (own : ownStatus source.cache.state packet = some bgErrSuccess) (fine : input.inprg.Fine)
    (taken : slotEvent manager slot packet input source.cache source.host = .ok (after, host')) :
    OnCourse report slot { cache := after, host := host', spent := 0, freed := false } := by
  have step := slotEvent_step taken
  have sound := step.named (.inl course.unfailed)
  have commands := ownStatus_commands own
  have ended : after.errCache = source.cache.errCache ∧ after.everRetried = false ∧
      after.state = source.cache.state ∧ after.dcd = source.cache.dcd ∧
      ∀ next, after.nextState = some next →
        source.cache.nextState = some next ∨ next.code < AccState.endEm.code := by
    have takes : ∀ {out : Outcome},
        TakesEvent slot packet input.inprg source.cache source.host out →
        out.cache.errCache = source.cache.errCache ∧ out.cache.everRetried = false ∧
          out.cache.state = source.cache.state ∧ out.cache.dcd = source.cache.dcd ∧
          ∀ next, out.cache.nextState = some next →
            source.cache.nextState = some next ∨ next.code < AccState.endEm.code := by
      intro out takes
      cases takes with
      | handled _ _ handled => exact handled.of_success own fine
      | ignored idle =>
          rw [idle commands] at waits
          cases waits
    cases step with
    | settled done _ => exact takes done
    | resent done _ _ _ ever _ =>
        rw [(takes done).2.1] at ever
        cases ever
  obtain ⟨errors, fresh, state, dcd, onward⟩ := ended
  have configures := course.configures working
  refine ⟨?_, fun _ => ⟨?_, ?_⟩, (fun ended => by cases ended), fun _ => rfl,
    fun retried => absurd (fresh.symm.trans retried) (by decide), ?_, ?_⟩
  · rcases sound with unfailed | failing
    · exact unfailed
    · have failed := failing.failed
      have clean := course.unfailed.failed
      rw [ConfigCache.failed, ← errors] at clean
      rw [ConfigCache.failed, clean] at failed
      cases failed
  · dsimp only
    rw [state]
    exact configures.here
  · intro next leads
    rcases onward next leads with same | early
    · exact configures.next next same
    · exact early
  · dsimp only
    rw [state, dcd]
    exact course.early
  · dsimp only
    rw [state, dcd]
    intro reads next there
    obtain ⟨rfl, err, rfl⟩ := slotEvent_read reads waits own taken
    have stays := afterDcd_stays next
    rw [stays] at next ⊢
    exact (course.reported reads next there).moved ⟨rfl, rfl⟩

/-- An event, for a slot that waits. -/
theorem OnCourse.event {source target : SlotState} {packet : ConfigEvent} {input : EventInput}
    (course : OnCourse report slot source) (working : source.freed = false)
    (asking : Asking slot command source.cache source.host)
    (waits : source.cache.waitResponse = true) (fine : input.inprg.Fine)
    (fineRetry : input.retry.Fine) (reports : Reports report source packet)
    (answers : Answers slot source packet)
    (taken : (SlotOp.event manager packet input).run slot source = .ok target) :
    OnCourse report slot target := by
  simp only [SlotOp.run, working, Bool.false_eq_true, if_false] at taken
  obtain ⟨⟨after, host'⟩, handled, made⟩ := bind_ok.mp taken
  cases made
  have memory : source.cache.oom = false := by
    have once := asking.once
    rw [waits] at once
    simpa using once
  have sound := (slotEvent_step handled).named (.inl course.unfailed)
  cases own : ownStatus source.cache.state packet with
  | none =>
      rw [tally_foreign own]
      exact course.foreign working asking waits own reports handled
  | some result =>
      obtain ⟨_, ⟨rfl, there⟩ | ⟨rfl, within⟩⟩ := answers result own
      · rw [tally_other waits own (by decide)]
        exact course.succeeded working waits own fine handled
      · rw [tally_timeout waits own]
        exact course.timedOut working asking waits memory own within fineRetry handled

/-- What others do leaves the records and the keys alone. -/
theorem OnCourse.outside {source : SlotState} {db : CfgDb} {cfg : ProvCfg} {stat : Stat}
    {effects : List Effect} (course : OnCourse report slot source)
    (working : source.freed = false) (alone : db = source.host.db ∧ cfg = source.host.cfg)
    (foreign : ∀ effect ∈ effects, effect.sentBy slot = none) :
    OnCourse report slot
      { cache := source.cache, spent := source.spent, freed := false
        host := { db := db, cfg := cfg, stat := stat, log := effects ++ source.host.log } } := by
  obtain ⟨rfl, rfl⟩ := alone
  have last := @Host.lastSentBy_others source.host.db source.host.cfg stat source.host slot effects
    foreign
  have unfailed : Unfailed slot source.cache
      { source.host with stat := stat, log := effects ++ source.host.log } := by
    apply course.unfailed.of rfl rfl course.unfailed.forward
    intro waits
    exact (course.unfailed.asks waits).kept rfl last
  have configures := course.configures working
  exact ⟨unfailed, fun _ => configures, (fun ended => by cases ended), course.fresh,
    course.budget, course.early, fun reads next there => (course.reported reads next there).moved ⟨rfl, rfl⟩⟩

/-- A scheduled step keeps the course, for a slot that works on a command or on none. -/
theorem OnCourse.step {source target : SlotState} {op : SlotOp}
    (course : OnCourse report slot source)
    (stands : source.freed = false →
      (∃ command, Asking slot command source.cache source.host) ∨ source.cache.Calm)
    (alone : op.Alone source) (scheduled : op.Scheduled report slot source)
    (taken : op.run slot source = .ok target) : OnCourse report slot target := by
  cases working : source.freed with
  | true =>
      simp only [SlotOp.run, working, if_true, Except.ok.injEq] at taken
      rw [← taken]
      exact course
  | false =>
      cases op with
      | round manager input =>
          obtain ⟨timely, fine, fineRetry⟩ := scheduled working
          exact course.round working (stands working) timely fine fineRetry taken
      | event manager packet input =>
          obtain ⟨waits, fine, fineRetry, reports, answers⟩ := scheduled working
          rcases stands working with ⟨command, asking⟩ | calm
          · exact course.event working asking waits fine fineRetry reports answers taken
          · rw [calm.idle] at waits
            cases waits
      | outside db cfg stat effects =>
          simp only [SlotOp.run, working, Bool.false_eq_true, if_false, Except.ok.injEq] at taken
          rw [← taken]
          apply course.outside working alone
          intro effect member
          simpa using (List.mem_filter.mp member).2

end

end Nwmng
