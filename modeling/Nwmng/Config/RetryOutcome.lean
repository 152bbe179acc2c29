/-
Module: Nwmng.Config.RetryOutcome
Purpose: Retries are transparent, whatever the schedule: what is acknowledged and the outcome are
those of the one run in which every command and every status succeeds at once.
Trusted boundary: none
Main exports:
  promptOp_scheduled, Trails.catches_up, Trails.completes, retries_same_outcome
-/
import Mathlib
import Nwmng.Config.Unhindered

namespace Nwmng

open Transition Fallible

section

variable {report : DcdReport} {slot : Slot} {source target shadow following : SlotState}
variable {op : SlotOp}

/-! ## Prompt steps

The step that a slot takes if all goes well is one that a schedule may contain.  So a scheduled run
can be completed by a prompt one.
-/

theorem Command.status_kind (command : Command) (handle : UInt32) (result : UInt16) :
    (command.status handle result).kind = command.kind := by
  cases command <;> rfl

theorem Command.status_reports (command : Command) (handle : UInt32) (result : UInt16) :
    Reports report source (command.status handle result) := by
  cases command <;> trivial

theorem promptOp_alone : (source.promptOp report slot).Alone source := by
  unfold SlotState.promptOp
  split
  · trivial
  · trivial

/-- What a slot with a command is told next. -/
theorem promptEvent_cases {command : Command} (sent : source.host.lastSentBy slot = some command) :
    (source.cache.state = .getDcdEm ∧ source.cache.dcd.elems = none ∧
      source.promptEvent report slot = .dcdData 0 0 report.data report.len) ∨
    ((source.cache.state = .getDcdEm → source.cache.dcd.elems.isSome = true) ∧
      source.promptEvent report slot = command.status 0 bgErrSuccess) := by
  by_cases page : source.cache.state = .getDcdEm ∧ source.cache.dcd.elems.isNone = true
  · exact .inl ⟨page.1, Option.isNone_iff_eq_none.mp page.2, if_pos page⟩
  · refine .inr ⟨fun reads => ?_, ?_⟩
    · exact Option.isSome_iff_ne_none.mpr fun none_ =>
        page ⟨reads, Option.isNone_iff_eq_none.mpr none_⟩
    · rw [SlotState.promptEvent, if_neg page, sent]

/-- The next step of a prompt run may be in a schedule. -/
theorem promptOp_scheduled (trails : Trails report slot source shadow) :
    (source.promptOp report slot).Scheduled report slot source := by
  cases waits : source.cache.waitResponse with
  | false =>
      rw [promptOp_round waits]
      intro _
      refine ⟨?_, .inl rfl, .inl rfl⟩
      simp [ConfigCache.guardExpired]
  | true =>
      rw [promptOp_event waits]
      intro _
      refine ⟨waits, .inl rfl, .inl rfl, ?_⟩
      obtain ⟨command, sent, belongs⟩ := trails.course.unfailed.asks waits
      rcases @promptEvent_cases report slot source command sent with
        ⟨reads, _, told⟩ | ⟨there, told⟩
      · rw [told]
        refine ⟨fun _ _ _ => rfl, fun result own => ?_⟩
        rw [reads] at own
        cases own
      · rw [told]
        refine ⟨command.status_reports 0 bgErrSuccess,
          fun result own => ⟨fun other heard => ?_, ?_⟩⟩
        · cases Option.some.inj (sent.symm.trans heard)
          exact command.status_kind 0 bgErrSuccess
        · rw [← belongs, ownStatus_status] at own
          cases own
          exact .inl ⟨rfl, there⟩

/-! ## Catching up -/

/-- A slot that waits follows the next step of the prompt run by its own. -/
theorem Trails.catches_event (trails : Trails report slot source shadow)
    (waits : source.cache.waitResponse = true) (step : PromptStep report slot shadow op following) :
    ∃ target, PromptStep report slot source (source.promptOp report slot) target ∧
      Trails report slot target following ∧
      acknowledged slot source (source.promptOp report slot) = acknowledged slot shadow op := by
  obtain ⟨working', rfl, ran⟩ := step
  have mirrors := trails.mirrors
  have working : source.freed = false := mirrors.freed.symm.trans working'
  have scheduled := promptOp_scheduled trails
  obtain ⟨target, taken⟩ := trails.runs scheduled ran
  have course := trails.onward promptOp_alone scheduled taken
  suffices proceeds : Proceeds report slot source (source.promptOp report slot) target shadow by
    obtain ⟨other, stepped, same, again⟩ := proceeds
    cases (promptStep_functional report slot stepped ⟨working', rfl, ran⟩).2
    exact ⟨target, ⟨working, rfl, taken⟩, ⟨again, course⟩, same.symm⟩
  rw [promptOp_event waits] at scheduled taken ⊢
  obtain ⟨_, _, _, reports, _⟩ := scheduled working
  cases mirrors.phase working with
  | silent calm calm' =>
      rw [calm.idle] at waits
      cases waits
  | @asked command asking asking' memory' fresh' =>
      have memory : source.cache.oom = false := by
        have once := asking.once
        rw [waits] at once
        simpa using once
      rcases @promptEvent_cases report slot source command asking.sent with
        ⟨reads, none_, told⟩ | ⟨there, told⟩
      · rw [told] at reports taken ⊢
        exact proceeds_page mirrors working asking asking' waits memory' fresh' reads none_ reports
          taken
      · obtain ⟨_, sent, belongs⟩ := trails.course.unfailed.asks waits
        cases Option.some.inj (asking.sent.symm.trans sent)
        have own : ownStatus source.cache.state (command.status 0 bgErrSuccess) =
            some bgErrSuccess := by
          rw [← belongs]
          exact ownStatus_status command 0 bgErrSuccess
        rw [told] at taken ⊢
        exact proceeds_success trails working asking asking' waits memory memory' (.inl rfl) own
          (command.status_kind 0 bgErrSuccess) there taken

/-- A slot that has nothing to wait for takes the round of the prompt run. -/
theorem Trails.catches_round (trails : Trails report slot source shadow)
    (calm : source.cache.Calm) (calm' : shadow.cache.Calm)
    (step : PromptStep report slot shadow op following) :
    ∃ past target, PromptRun report slot source past target ∧
      Trails report slot target following ∧ Acks slot past = acknowledged slot shadow op := by
  have whole := step
  obtain ⟨working', rfl, ran⟩ := step
  have mirrors := trails.mirrors
  have working : source.freed = false := mirrors.freed.symm.trans working'
  have scheduled := promptOp_scheduled trails
  obtain ⟨target, taken⟩ := trails.runs scheduled ran
  have course := trails.onward promptOp_alone scheduled taken
  have first : PromptStep report slot source (source.promptOp report slot) target :=
    ⟨working, rfl, taken⟩
  rw [promptOp_round calm.idle] at scheduled taken
  obtain ⟨timely, fine, fineRetry⟩ := scheduled working
  rcases @proceeds_round report slot source target shadow _ _ mirrors working timely fine fineRetry
    taken with ⟨stays, _⟩ | ⟨other, stepped, same, again⟩
  · -- the prompt slot stays as well, so its round has changed nothing
    have stays' : shadow.cache.stays = true := by
      rw [ConfigCache.stays, calm.idle] at stays
      rw [ConfigCache.stays, calm'.idle, mirrors.alike.state, mirrors.alike.nextState]
      exact stays
    let smooth : RoundInput := { now := 0, retry := .taken 0 0, entry := .taken 0 0 }
    have timely' : shadow.cache.guardExpired smooth.now = false := by
      simp [smooth, ConfigCache.guardExpired]
    have exception : retryException .configuringDevicesEm slot smooth shadow.cache shadow.host =
        .ok (shadow.cache, shadow.host) := retryException_calm calm'.memory timely'
    rw [promptOp_round calm'.idle] at ran
    change (SlotOp.round .configuringDevicesEm smooth).run slot shadow = .ok following at ran
    simp only [SlotOp.run, working', Bool.false_eq_true, if_false, slotRound, exception, ok_bind,
      stays', if_true, Except.ok.injEq] at ran
    rw [← ran]
    have silent : acknowledged slot shadow (shadow.promptOp report slot) = [] := by
      rw [promptOp_round calm'.idle]
      rfl
    exact ⟨[], source, .start, ⟨⟨mirrors.alike, working.symm, fun _ => .silent calm calm'⟩,
      trails.course⟩, silent.symm⟩
  · cases (promptStep_functional report slot stepped whole).2
    refine ⟨_, target, Execution.start.extend first, ⟨again, course⟩, ?_⟩
    rw [acks_snoc, same, promptOp_round calm.idle]
    rfl

/-- Whatever a scheduled slot waits for, it follows the next step of the prompt run by steps in
which all goes well. -/
theorem Trails.catches_up (trails : Trails report slot source shadow)
    (step : PromptStep report slot shadow op following) :
    ∃ past target, PromptRun report slot source past target ∧
      Trails report slot target following ∧ Acks slot past = acknowledged slot shadow op := by
  have mirrors := trails.mirrors
  have working : source.freed = false := mirrors.freed.symm.trans step.1
  cases mirrors.phase working with
  | silent calm calm' => exact trails.catches_round calm calm' step
  | @asked command asking asking' memory' fresh' =>
      cases waits : source.cache.waitResponse with
      | true =>
          obtain ⟨target, taken, again, same⟩ := trails.catches_event waits step
          refine ⟨_, target, Execution.start.extend taken, again, ?_⟩
          rw [acks_snoc]
          exact same
      | false =>
          -- the command is sent once more, and then the slot waits
          let smooth : RoundInput := { now := 0, retry := .taken 0 0, entry := .taken 0 0 }
          have timely : source.cache.guardExpired smooth.now = false := by
            simp [smooth, ConfigCache.guardExpired]
          have resends : ∃ after host',
              retryException .configuringDevicesEm slot smooth source.cache source.host =
                .ok (after, host') ∧
                (smooth.retry.result = bgErrSuccess → after.waitResponse = true) :=
            retryException_runs asking (.inl rfl) timely
          obtain ⟨after, host', resent, waiting⟩ := resends
          have onward := (retryException_asking asking (.inl rfl) timely resent).2
          have taken : (source.promptOp report slot).run slot source =
              .ok { cache := after, host := host', spent := source.spent, freed := false } := by
            rw [promptOp_round waits]
            change (SlotOp.round .configuringDevicesEm smooth).run slot source = _
            simp only [SlotOp.run, working, Bool.false_eq_true, if_false, slotRound, resent,
              ok_bind, onward.stays, if_true, Bool.false_and]
          have course := trails.onward promptOp_alone (promptOp_scheduled trails) taken
          have still : Trails report slot
              { cache := after, host := host', spent := source.spent, freed := false } shadow := by
            have alike := (retryException_asking asking (.inl rfl) timely resent).1
            exact ⟨⟨alike.symm.trans mirrors.alike, step.1,
              fun _ => .asked onward asking' memory' fresh'⟩, course⟩
          obtain ⟨target, second, again, same⟩ := still.catches_event (waiting rfl) step
          refine ⟨_, target, (Execution.start.extend ⟨working, rfl, taken⟩).extend second, again,
            ?_⟩
          have silent : acknowledged slot source (source.promptOp report slot) = [] := by
            rw [promptOp_round waits]
            rfl
          rw [acks_snoc, acks_snoc, silent]
          exact same

/-! ## Runs -/

/-- A slot comes where the prompt run comes, by a prompt run of its own with the same commands. -/
theorem Trails.completes {rest : List (Move SlotState SlotOp)} {last : SlotState}
    (trails : Trails report slot source shadow)
    (smooth : PromptRun report slot shadow rest last) :
    ∃ past final, PromptRun report slot source past final ∧ Trails report slot final last ∧
      Acks slot past = Acks slot rest := by
  induction rest generalizing source shadow with
  | nil =>
      rw [smooth.eq_of_nil]
      exact ⟨[], source, .start, trails, rfl⟩
  | cons move rest hypothesis =>
      obtain ⟨here, step, onward⟩ := smooth.uncons
      obtain ⟨first, middle, begins, again, same⟩ := trails.catches_up step
      obtain ⟨second, final, ends, reached, others⟩ := hypothesis again onward
      refine ⟨first ++ second, final, begins.append ends, reached, ?_⟩
      have split : Acks slot (move :: rest) =
          acknowledged slot move.source move.label ++ Acks slot rest := List.flatMap_cons
      rw [acks_append, split, same, others, here]

/-- A slot that is free takes no more steps. -/
theorem PromptRun.eq_of_freed {past : List (Move SlotState SlotOp)}
    (run : PromptRun report slot source past target) (freed : source.freed = true) :
    past = [] ∧ target = source := by
  cases past with
  | nil => exact ⟨rfl, run.eq_of_nil⟩
  | cons move rest =>
      obtain ⟨_, step, _⟩ := run.uncons
      rw [step.1] at freed
      cases freed

/-- The work of two slots has come to the same: both are free or none is, and they leave the same
records. -/
structure SameOutcome (final last : SlotState) : Prop where
  freed : last.freed = final.freed
  work : last.cache.bare = final.cache.bare
  records : last.host.db = final.host.db

theorem Trails.outcome (trails : Trails report slot source shadow) :
    SameOutcome source shadow :=
  ⟨trails.mirrors.freed, trails.mirrors.alike.slot, trails.mirrors.alike.db⟩

/-- A prompt run that reaches the end goes on from where a scheduled run has come to. -/
theorem PromptRun.onward {initial last : SlotState} {begun prompt : List (Move SlotState SlotOp)}
    (run : PromptRun report slot initial begun shadow)
    (smooth : PromptRun report slot initial prompt last) (ended : last.freed = true) :
    ∃ rest, prompt = begun ++ rest ∧ PromptRun report slot shadow rest last := by
  rcases Execution.comparable (promptStep_functional report slot) run smooth with
    onward | ⟨rest, rfl, behind⟩
  · exact onward
  · obtain ⟨rfl, rfl⟩ := PromptRun.eq_of_freed behind ended
    exact ⟨[], by rw [List.append_nil, List.append_nil], .start⟩

end

end Nwmng
