/-
Module: Nwmng.Config.Tasks
Purpose: What a slot was loaded for, as an invariant of its states, and what its turns and its
end do to the statistics.
Trusted boundary: none
Main exports:
  LeadsOn, ConfigCache.OnTask, Retried.stat_eq, Handled.stat_eq, RemovalAccepted,
  Arrived.configuring, Arrived.removing
-/
import Mathlib
import Nwmng.Config.Conservation
import Nwmng.Config.DoneSound

namespace Nwmng

open Fallible

section

variable {state : AccState} {slot : Slot} {cache after : ConfigCache} {host host' : Host}

/-! ## The statistics while a slot works -/

theorem Attempt.stat_eq {answer : CmdRsp} {out : Outcome}
    (attempt : Attempt state slot answer cache host out) : out.host.stat = host.stat := by
  cases attempt with
  | accepted _ _ _ _ _ => rfl
  | outOfMemory _ _ _ _ _ => rfl
  | refused _ _ _ _ _ => rfl
  | unknown _ => rfl

theorem Retried.stat_eq {reason : RetryReason} {answer : CmdRsp} {out : Outcome}
    (retried : Retried state reason slot answer cache host out) : out.host.stat = host.stat := by
  cases retried with
  | unsent attempt _ => exact attempt.stat_eq
  | resent attempt _ _ => exact attempt.stat_eq

theorem FeatureStep.stat_eq (features : FeatureStep state cache host host') :
    host'.stat = host.stat := by
  rcases features with rfl | ⟨_, id, which, _, rfl⟩
  · rfl
  · rfl

theorem storePage_stat {data : Bytes.Memory} {len : UInt8}
    (stored : storePage data len cache host = .ok (after, host')) : host'.stat = host.stat := by
  simp only [storePage, bind_ok] at stored
  obtain ⟨⟨id, node⟩, _, stored⟩ := stored
  cases decoded : dcdStore 256 data len node.func with
  | none => simp [decoded] at stored
  | some read =>
      simp only [decoded] at stored
      split at stored
      · simp only [bind_ok, Except.ok.injEq, Prod.mk.injEq] at stored
        obtain ⟨_, _, _, rfl⟩ := stored
        rfl
      · simp only [bind_ok, Except.ok.injEq, Prod.mk.injEq] at stored
        obtain ⟨_, _, _, rfl⟩ := stored
        rfl

theorem Handled.stat_eq {event : ConfigEvent} {answer : CmdRsp} {out : Outcome}
    (handled : Handled state slot event answer cache host out) : out.host.stat = host.stat := by
  cases handled with
  | page _ _ stored => exact storePage_stat stored
  | finished _ _ _ _ _ _ features _ _ => exact features.stat_eq
  | continued _ _ _ _ _ features _ attempt _ => exact attempt.stat_eq.trans features.stat_eq
  | _ => rfl

theorem TakesEvent.stat_eq {event : ConfigEvent} {answer : CmdRsp} {out : Outcome}
    (takes : TakesEvent slot event answer cache host out) : out.host.stat = host.stat := by
  cases takes with
  | handled _ _ handled => exact handled.stat_eq
  | ignored _ => rfl

/-! ## Where a slot is led -/

/-- What the work in a state may do to the state the slot goes to next.  Only the composition
data leads elsewhere than onward or to the end: there a configuration is resumed where its error
mask says. -/
inductive LeadsOn (state : AccState) (cache after : ConfigCache) : Prop where
  | same (next : after.nextState = cache.nextState) : LeadsOn state cache after
  | open_ (next : after.nextState = none) : LeadsOn state cache after
  | final (next : after.nextState = some (finalOf state)) : LeadsOn state cache after
  | resumes {later : AccState} (reads : state = .getDcdEm)
      (next : after.nextState = some later)
      (known : AccState.getDcdEm.code ≤ later.code ∧ later.code ≤ AccState.endEm.code) :
      LeadsOn state cache after

theorem LeadsOn.trans {last : ConfigCache} (one : LeadsOn state cache after)
    (two : LeadsOn state after last) : LeadsOn state cache last := by
  cases two with
  | same next =>
      cases one with
      | same earlier => exact .same (next.trans earlier)
      | open_ earlier => exact .open_ (next.trans earlier)
      | final earlier => exact .final (next.trans earlier)
      | resumes reads earlier known => exact .resumes reads (next.trans earlier) known
  | open_ next => exact .open_ next
  | final next => exact .final next
  | resumes reads next known => exact .resumes reads next known

theorem Attempt.leadsOn {answer : CmdRsp} {out : Outcome}
    (attempt : Attempt state slot answer cache host out) : LeadsOn state cache out.cache := by
  cases attempt with
  | accepted _ _ _ _ _ => exact .same rfl
  | outOfMemory _ _ _ _ _ => exact .same rfl
  | refused _ _ _ _ _ => exact .final rfl
  | unknown _ => exact .same rfl

theorem Retried.leadsOn {reason : RetryReason} {answer : CmdRsp} {out : Outcome}
    (retried : Retried state reason slot answer cache host out) :
    LeadsOn state cache out.cache := by
  cases retried with
  | unsent attempt _ => exact attempt.leadsOn
  | resent attempt _ finishes =>
      apply attempt.leadsOn.trans
      cases reason with
      | onTimeoutEm =>
          obtain ⟨_, _, rfl⟩ := finishes
          exact .same rfl
      | onOomEm =>
          obtain ⟨_, rfl⟩ := finishes
          exact .same rfl
      | onGuardTimerExpiredEm =>
          obtain ⟨_, rfl⟩ := finishes
          exact .same rfl

theorem resumeState_early {err : BitVec 32} {later : AccState}
    (found : resumeState err = some later) : later.code ≤ AccState.endEm.code := by
  have member := List.mem_of_find?_eq_some found
  simp only [List.mem_cons, List.not_mem_nil, or_false] at member
  rcases member with rfl | rfl | rfl | rfl | rfl <;> decide

theorem afterDcd_leadsOn (err : BitVec 32) : LeadsOn .getDcdEm cache (afterDcd err cache) := by
  unfold afterDcd
  split
  · cases found : resumeState err with
    | none => exact .same rfl
    | some later =>
        exact .resumes rfl rfl ⟨resumeState_later found, resumeState_early found⟩
  · exact .open_ rfl

theorem timedOut_leadsOn (state : AccState) :
    LeadsOn state cache (timedOut (retryTimesOf state) (giveUpOf state) cache.answered) := by
  rcases timedOut_cases (retryTimesOf state) (giveUpOf state) cache.answered with
    ⟨_, same⟩ | ⟨_, _, same⟩ | ⟨_, _, same⟩
  · rw [same]
    exact .same rfl
  · rw [same]
    unfold giveUpOf
    split
    · exact .open_ rfl
    · rename_i configures
      apply LeadsOn.final
      unfold finalOf
      rw [if_neg configures]
      rfl
  · rw [same]
    exact .same rfl

theorem Handled.leadsOn {event : ConfigEvent} {answer : CmdRsp} {out : Outcome}
    (handled : Handled state slot event answer cache host out) :
    LeadsOn state cache out.cache := by
  cases handled with
  | unexpected _ _ => exact .same rfl
  | page _ _ stored =>
      apply LeadsOn.same
      rw [storePage_eq stored]
      rfl
  | otherPage _ => exact .same rfl
  | timeout _ => exact timedOut_leadsOn state
  | failed _ _ _ => exact .final rfl
  | @resumed id reads _ _ =>
      subst reads
      have answered : LeadsOn .getDcdEm cache cache.answered.retryClear := .same rfl
      exact answered.trans (afterDcd_leadsOn _)
  | removed _ _ => exact .open_ rfl
  | finished _ _ _ _ _ _ _ _ _ => exact .open_ rfl
  | continued iterators ever remaining _ _ _ _ attempt _ =>
      have going : LeadsOn state cache (cache.going iterators ever remaining) := .same rfl
      exact going.trans attempt.leadsOn

theorem TakesEvent.leadsOn {event : ConfigEvent} {answer : CmdRsp} {out : Outcome}
    (takes : TakesEvent slot event answer cache host out) :
    LeadsOn cache.state cache out.cache := by
  cases takes with
  | handled _ _ handled => exact handled.leadsOn
  | ignored _ => exact .same rfl

theorem ExceptionStep.leadsOn {manager : MngState} {input : RoundInput}
    (exception : ExceptionStep manager slot input cache host after host') :
    LeadsOn cache.state cache after := by
  cases exception with
  | quiet _ => exact .same rfl
  | expired _ _ retried => exact retried.leadsOn
  | memory _ _ _ _ retried => exact retried.leadsOn

theorem EventStep.leadsOn {manager : MngState} {event : ConfigEvent} {input : EventInput}
    (step : EventStep manager slot event input cache host after host') :
    LeadsOn cache.state cache after := by
  cases step with
  | settled takes _ => exact takes.leadsOn
  | resent takes _ _ _ _ retried => exact takes.leadsOn.trans retried.leadsOn

/-!
## The task of a slot

What a slot was loaded for is not stored in it.  It can be read off its states: a slot that
removes its node never comes to a state that configures, and the other way round only through a
reset command that is refused at once.
-/

/-- The states of a slot that was loaded to configure or to remove its node, while it has not
ended. -/
def ConfigCache.OnTask (cache : ConfigCache) : LoadType → Prop
  | .typeConfig => cache.state.code < AccState.endEm.code ∧
      ∀ next, cache.nextState = some next →
        AccState.getDcdEm.code ≤ next.code ∧ next.code ≤ AccState.endEm.code
  | .typeRm =>
      (cache.state = .endEm ∧ cache.nextState = some .rmEm) ∨
        (cache.state = .rmEm ∧ ∀ next, cache.nextState = some next →
          next = .rmEm ∨ next = .rmendEm)

theorem ConfigCache.loaded_onTask (cache : ConfigCache) (node : NodeId) (type : LoadType) :
    (cache.loaded node type).OnTask type := by
  cases type with
  | typeConfig =>
      have early : AccState.provisionedEm.code < AccState.endEm.code := by decide
      refine ⟨early, ?_⟩
      intro next same
      cases same
      exact ⟨by decide, by decide⟩
  | typeRm => exact .inl ⟨rfl, rfl⟩

/-- Work in a state keeps a slot on its task. -/
theorem ConfigCache.OnTask.kept {type : LoadType} (task : cache.OnTask type)
    (state : after.state = cache.state) (leads : LeadsOn cache.state cache after)
    (working : cache.state = .endEm → after.nextState = cache.nextState) :
    after.OnTask type := by
  cases type with
  | typeConfig =>
      obtain ⟨early, known⟩ := task
      refine ⟨by rw [state]; exact early, ?_⟩
      intro next isNext
      cases leads with
      | same same => exact known next (same.symm.trans isNext)
      | open_ none_ => cases none_.symm.trans isNext
      | final some_ =>
          cases some_.symm.trans isNext
          have configures : cache.state ≠ .rmEm := by
            intro removes
            rw [removes] at early
            exact absurd early (by decide)
          unfold finalOf
          rw [if_neg configures]
          exact ⟨by decide, by decide⟩
      | resumes _ some_ between =>
          cases some_.symm.trans isNext
          exact between
  | typeRm =>
      rcases task with ⟨fresh, next⟩ | ⟨removes, known⟩
      · exact .inl ⟨state.trans fresh, (working fresh).trans next⟩
      · refine .inr ⟨state.trans removes, ?_⟩
        intro next isNext
        cases leads with
        | same same => exact known next (same.symm.trans isNext)
        | open_ none_ => cases none_.symm.trans isNext
        | final some_ =>
            cases some_.symm.trans isNext
            rw [removes]
            exact .inr rfl
        | resumes reads _ _ =>
            rw [removes] at reads
            cases reads

/-- A slot that has not begun to remove its node does nothing but begin. -/
theorem ExceptionStep.fresh {manager : MngState} {input : RoundInput}
    (exception : ExceptionStep manager slot input cache host after host')
    (fresh : cache.state = .endEm) : after = cache ∧ host' = host := by
  cases exception with
  | quiet _ => exact ⟨rfl, rfl⟩
  | expired commands _ _ =>
      rw [fresh] at commands
      cases commands
  | memory commands _ _ _ _ =>
      rw [fresh] at commands
      cases commands

theorem EventStep.fresh {manager : MngState} {event : ConfigEvent} {input : EventInput}
    (step : EventStep manager slot event input cache host after host')
    (fresh : cache.state = .endEm) : after = cache ∧ host' = host := by
  have idle : isCommandState cache.state = false := by rw [fresh]; rfl
  cases step with
  | settled takes _ =>
      cases takes with
      | handled commands _ _ => cases idle.symm.trans commands
      | ignored _ => exact ⟨rfl, rfl⟩
  | resent _ commands _ _ _ _ => cases idle.symm.trans commands

theorem ExceptionStep.onTask {manager : MngState} {input : RoundInput} {type : LoadType}
    (exception : ExceptionStep manager slot input cache host after host')
    (task : cache.OnTask type) : after.OnTask type :=
  task.kept exception.sameWork.1 exception.leadsOn
    fun fresh => congrArg ConfigCache.nextState (exception.fresh fresh).1

theorem EventStep.onTask {manager : MngState} {event : ConfigEvent} {input : EventInput}
    {type : LoadType} (step : EventStep manager slot event input cache host after host')
    (task : cache.OnTask type) : after.OnTask type :=
  task.kept step.sameState step.leadsOn
    fun fresh => congrArg ConfigCache.nextState (step.fresh fresh).1

/-- A configuration that is on its task has not ended. -/
theorem ConfigCache.OnTask.working (task : cache.OnTask .typeConfig) : cache.state ≠ .rmendEm := by
  intro ended
  have early := task.1
  rw [ended] at early
  exact absurd early (by decide)

/-! ## Arriving -/

/-- The first turn of a slot that removes its node: the reset command is taken, or finds no
memory. -/
def RemovalAccepted (input : RoundInput) (engine : Engine) (slot : Slot) : Prop :=
  (engine.cache slot).state = .endEm → firstOpen (engine.cache slot) engine.host = some .rmEm →
    input.entry.result = bgErrSuccess ∨ input.entry.result = bgErrOutOfMemory

theorem endEntry_stat {guard : Option GuardFn} {answer : CmdRsp} {out : Outcome}
    (entered : endEntry guard slot answer cache host = .ok out) :
    out.host.stat = host.stat.configOneDev := by
  obtain ⟨_, _, _, _, same⟩ := endEntry_host entered
  rw [same]
  split
  · rfl
  · rfl

theorem rmendEntry_stat {guard : Option GuardFn} {answer : CmdRsp} {out : Outcome}
    (entered : rmendEntry guard slot answer cache host = .ok out) :
    out.host.stat = host.stat.rmOneDev := by
  simp only [rmendEntry, bind_ok] at entered
  obtain ⟨⟨id, node⟩, _, entered⟩ := entered
  split at entered
  · simp only [bind_ok, Except.ok.injEq] at entered
    obtain ⟨_, _, rfl⟩ := entered
    rfl
  · simp only [bind_ok, Except.ok.injEq] at entered
    obtain ⟨_, _, _, _, _, _, _, _, rfl⟩ := entered
    rfl

/-- A configuration that leaves a state finds the end before the removal. -/
theorem ConfigCache.OnTask.configTargets {targets : List AccStateOps}
    (task : cache.OnTask .typeConfig) (leads : leaveTargets cache = .ok targets) :
    ∀ before after : List AccStateOps, ∀ ops, targets = before ++ ops :: after →
      AccState.endEm.code < ops.state.code → ∃ other ∈ before, other.state = .endEm := by
  intro before after ops split behind
  rcases leaveTargets_cases leads with ⟨own, found⟩ | ⟨next, isNext, found, _⟩
  · have whole : asGet cache.state = (own :: before) ++ ops :: after := by
      rw [found, split]
      rfl
    have known := asGet_known found
    obtain ⟨other, member, ends⟩ := asGet_between whole known (Nat.le_of_lt task.1) behind
    rcases List.mem_cons.mp member with rfl | inside
    · have early := task.1
      rw [← (asGet_cons found).1, ends] at early
      exact absurd early (Nat.lt_irrefl _)
    · exact ⟨other, inside, ends⟩
  · obtain ⟨known, notLater⟩ := task.2 next isNext
    rw [split] at found
    exact asGet_between found known notLater behind

theorem mem_accStates_known {ops : AccStateOps} (member : ops ∈ accStates) :
    AccState.getDcdEm.code ≤ ops.state.code := by
  simp only [accStates, List.mem_cons, List.not_mem_nil, or_false] at member
  rcases member with rfl | rfl | rfl | rfl | rfl | rfl | rfl | rfl | rfl <;> decide

/-- Only the entry of the end counts a configuration, and only that of the end of a removal
counts a removal. -/
theorem Entered.stat_eq {answer : CmdRsp} {out : Outcome}
    (entry : Entered state slot answer cache host out)
    (ret : out.ret = .suc ∨ out.ret = .oom) :
    (state = .endEm ∧ out.host.stat = host.stat.configOneDev) ∨
      (state = .rmendEm ∧ out.host.stat = host.stat.rmOneDev) ∨
      ((state ≠ .endEm ∧ state ≠ .rmendEm) ∧ out.host.stat = host.stat) := by
  cases entry with
  | skipped _ => rcases ret with ret | ret <;> cases ret
  | attempted commands _ _ attempt _ =>
      refine .inr (.inr ⟨⟨?_, ?_⟩, attempt.stat_eq⟩)
      · rintro rfl
        cases commands
      · rintro rfl
        cases commands
  | noCommand _ _ none_left =>
      refine .inr (.inr ⟨?_, rfl⟩)
      rw [none_left.1]
      exact ⟨by decide, by decide⟩
  | ended final conclusion => exact .inl ⟨final, endEntry_stat conclusion⟩
  | removed final conclusion => exact .inr (.inl ⟨final, rmendEntry_stat conclusion⟩)

theorem Entered.refused_stat {answer : CmdRsp} {out : Outcome}
    (entry : Entered state slot answer cache host out) (ret : out.ret = .bgapi) :
    isCommandState state = true ∧ out.host.stat = host.stat ∧
      answer.result ≠ bgErrSuccess ∧ answer.result ≠ bgErrOutOfMemory := by
  cases entry with
  | attempted commands _ _ attempt _ =>
      cases attempt with
      | refused _ _ error _ _ => exact ⟨commands, rfl, error⟩
      | _ => cases ret
  | _ => cases ret

/-- Where a configuration arrives: in another of its states, or at the end, where it is
counted. -/
theorem Arrived.configuring {targets : List AccStateOps} {answer : CmdRsp} {id : NodeId}
    (arrived : Arrived targets slot answer cache host after host')
    (task : cache.OnTask .typeConfig) (here : cache.node = some id)
    (leads : leaveTargets cache = .ok targets) :
    (after.OnTask .typeConfig ∧ after.ended = false ∧ host'.stat = host.stat) ∨
      (after.ended = true ∧ host'.stat = host.stat.configOneDev) := by
  have working : cache.state ≠ .rmendEm := ConfigCache.OnTask.working task
  cases arrived with
  | nowhere skipped =>
      have closed := skipped asRmend (leaveTargets_removes leads working) id here
      cases closed
  | @entered before behind ops out split skipped entry ret =>
      have notBehind : ¬ AccState.endEm.code < ops.state.code := by
        intro later
        obtain ⟨other, member, ends⟩ := task.configTargets leads before behind ops split later
        have closed := skipped other member id here
        rw [ends] at closed
        cases closed
      rcases entry.stat_eq ret with ⟨final, stat⟩ | ⟨final, _⟩ | ⟨⟨notEnd, notRemoved⟩, stat⟩
      · refine .inr ⟨?_, stat⟩
        simp [ConfigCache.ended, final]
      · rw [final] at notBehind
        exact absurd (by decide) notBehind
      · have known : AccState.getDcdEm.code ≤ ops.state.code := by
          apply mem_accStates_known (leaveTargets_mem leads ops _)
          rw [split]
          exact List.mem_append_right _ List.mem_cons_self
        have early : ops.state.code < AccState.endEm.code := by
          have other : ops.state.code ≠ AccState.endEm.code :=
            fun same => notEnd (AccState.code_inj same)
          omega
        refine .inl ⟨⟨early, ?_⟩, ?_, stat⟩
        · intro next same
          cases same
          exact ⟨known, Nat.le_of_lt early⟩
        · simp [ConfigCache.ended, notEnd, notRemoved]
  | refused _ _ entry ret conclusion =>
      obtain ⟨_, stat, _⟩ := entry.refused_stat ret
      refine .inr ⟨rfl, ?_⟩
      rw [endEntry_stat conclusion, stat]

/-- The first state on the way is entered, refuses, or is passed by. -/
theorem Arrived.cons_cases {ops : AccStateOps} {rest : List AccStateOps} {answer : CmdRsp}
    (arrived : Arrived (ops :: rest) slot answer cache host after host') :
    (∃ out : Outcome, Entered ops.state slot answer cache host out ∧
        (out.ret = .suc ∨ out.ret = .oom) ∧ host' = out.host ∧
        after = { out.cache with state := ops.state, nextState := some ops.state }) ∨
      (∃ out : Outcome, Entered ops.state slot answer cache host out ∧ out.ret = .bgapi) ∨
      ((∀ id, cache.node = some id → guardHolds ops.state (host.db.heap id) = false) ∧
        Arrived rest slot answer cache host after host') := by
  cases arrived with
  | nowhere skipped =>
      exact .inr (.inr ⟨skipped ops List.mem_cons_self,
        .nowhere fun other member => skipped other (List.mem_cons_of_mem ops member)⟩)
  | @entered before _ _ out split skipped entry ret =>
      cases before with
      | nil =>
          obtain ⟨rfl, _⟩ := List.cons.inj split
          exact .inl ⟨out, entry, ret, rfl, rfl⟩
      | cons head between =>
          obtain ⟨rfl, behind⟩ := List.cons.inj split
          exact .inr (.inr ⟨skipped ops List.mem_cons_self, .entered behind
            (fun other member => skipped other (List.mem_cons_of_mem ops member)) entry ret⟩)
  | @refused before _ _ out _ split skipped entry ret conclusion =>
      cases before with
      | nil =>
          obtain ⟨rfl, _⟩ := List.cons.inj split
          exact .inr (.inl ⟨out, entry, ret⟩)
      | cons head between =>
          obtain ⟨rfl, behind⟩ := List.cons.inj split
          exact .inr (.inr ⟨skipped ops List.mem_cons_self, .refused behind
            (fun other member => skipped other (List.mem_cons_of_mem ops member)) entry ret
            conclusion⟩)

/-- Where a removal arrives that has only its last state before it: there, where it is
counted. -/
theorem Arrived.atRmend {answer : CmdRsp} {id : NodeId}
    (arrived : Arrived [asRmend] slot answer cache host after host')
    (here : cache.node = some id) :
    after.ended = true ∧ host'.stat = host.stat.rmOneDev := by
  rcases arrived.cons_cases with ⟨out, entry, ret, rfl, rfl⟩ | ⟨out, entry, ret⟩ | ⟨closed, _⟩
  · rcases entry.stat_eq ret with ⟨final, _⟩ | ⟨_, stat⟩ | ⟨⟨_, notRemoved⟩, _⟩
    · cases final
    · exact ⟨rfl, stat⟩
    · exact absurd rfl notRemoved
  · cases (entry.refused_stat ret).1
  · cases closed id here

/-- Where a removal arrives whose reset command is not refused: in its working state, or at
its end, where it is counted. -/
theorem Arrived.removing {targets : List AccStateOps} {answer : CmdRsp} {id : NodeId}
    (arrived : Arrived targets slot answer cache host after host')
    (task : cache.OnTask .typeRm) (here : cache.node = some id) (leaving : cache.stays = false)
    (leads : leaveTargets cache = .ok targets)
    (accepted : cache.state = .endEm → firstOpen cache host = some .rmEm →
      answer.result = bgErrSuccess ∨ answer.result = bgErrOutOfMemory) :
    (after.OnTask .typeRm ∧ after.ended = false ∧ host'.stat = host.stat) ∨
      (after.ended = true ∧ host'.stat = host.stat.rmOneDev) := by
  rcases task with ⟨fresh, next⟩ | ⟨removes, known⟩
  · have first : targets = [asRm, asRmend] := by
      simp only [leaveTargets, next] at leads
      exact (Except.ok.inj leads).symm
    subst first
    rcases arrived.cons_cases with ⟨out, entry, ret, rfl, rfl⟩ | ⟨out, entry, ret⟩ | ⟨_, later⟩
    · rcases entry.stat_eq ret with ⟨final, _⟩ | ⟨final, _⟩ | ⟨_, stat⟩
      · cases final
      · cases final
      · refine .inl ⟨.inr ⟨rfl, ?_⟩, rfl, stat⟩
        intro other same
        exact .inl (Option.some.inj same).symm
    · obtain ⟨_, _, notSuccess, notMemory⟩ := entry.refused_stat ret
      cases entry with
      | @attempted found _ _ isFound opened _ _ =>
          have way : firstOpen cache host = some .rmEm :=
            firstOpen_of_skipped leads isFound (List.nil_append _).symm
              (fun other member => absurd member List.not_mem_nil) opened
          rcases accepted fresh way with success | memory
          · exact absurd success notSuccess
          · exact absurd memory notMemory
      | _ => cases ret
    · exact .inr (later.atRmend here)
  · have last : targets = [asRmend] := by
      cases next : cache.nextState with
      | none =>
          simp only [leaveTargets, next, removes] at leads
          exact (Except.ok.inj leads).symm
      | some state =>
          rcases known state next with rfl | rfl
          · simp [ConfigCache.stays, next, removes] at leaving
          · simp only [leaveTargets, next] at leads
            exact (Except.ok.inj leads).symm
    subst last
    exact .inr (arrived.atRmend here)

end

end Nwmng
