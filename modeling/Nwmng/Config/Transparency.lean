/-
Module: Nwmng.Config.Transparency
Purpose: Retries are transparent: full memory, timeouts and resends change neither the commands
that are acknowledged nor what a slot leaves behind.
Trusted boundary: none
Main exports:
  SlotOp.Rough, SlotOp.Smooth, acknowledged, Mirrors, retries_transparent
-/
import Mathlib
import Nwmng.Config.Phases
import Nwmng.Lib.Simulation

namespace Nwmng

open Transition Fallible

/-!
## Runs

The run with retries is matched step by step by a run without: a step that sends again or waits
is matched by no step, any other by the same step under the answers of an NCP that has memory and
loses nothing.
-/

/-- The NCP takes every command of the step or has no memory for it, no guard timer has expired,
every status for a slot that waits is a success or a timeout that leaves it a retry, and nothing
outside changes the command that a slot works on. -/
def SlotOp.Rough (source : SlotState) : SlotOp → Prop
  | .round _ input =>
      source.freed = false →
        source.cache.guardExpired input.now = false ∧ input.entry.Fine ∧ input.retry.Fine
  | .event _ packet input =>
      source.freed = false →
        source.cache.waitResponse = true ∧ input.inprg.Fine ∧ input.retry.Fine ∧
        ∀ result ∈ ownStatus source.cache.state packet, result = bgErrSuccess ∨
          (result = bgErrTimeout ∧
            (source.cache.everRetried = true → source.cache.remainingRetry ≠ 0))
  | .outside db cfg stat _ =>
      source.freed = false →
        (source.cache.waitResponse = true ∨ source.cache.oom = true) →
        requestOf source.cache.state source.cache
            { db := db, cfg := cfg, stat := stat, log := [] } =
          requestOf source.cache.state source.cache source.host

instance roughDecidable (source : SlotState) : (op : SlotOp) → Decidable (op.Rough source)
  | .round _ input =>
      inferInstanceAs (Decidable (source.freed = false →
        source.cache.guardExpired input.now = false ∧ input.entry.Fine ∧ input.retry.Fine))
  | .event _ packet input =>
      inferInstanceAs (Decidable (source.freed = false →
        source.cache.waitResponse = true ∧ input.inprg.Fine ∧ input.retry.Fine ∧
        ∀ result ∈ ownStatus source.cache.state packet, result = bgErrSuccess ∨
          (result = bgErrTimeout ∧
            (source.cache.everRetried = true → source.cache.remainingRetry ≠ 0))))
  | .outside db cfg stat _ =>
      inferInstanceAs (Decidable (source.freed = false →
        (source.cache.waitResponse = true ∨ source.cache.oom = true) →
        requestOf source.cache.state source.cache
            { db := db, cfg := cfg, stat := stat, log := [] } =
          requestOf source.cache.state source.cache source.host))

/-- Every command of the step is accepted at once, and every status is a success. -/
def SlotOp.Smooth (source : SlotState) : SlotOp → Prop
  | .round _ input =>
      source.cache.guardExpired input.now = false ∧ source.cache.oom = false ∧
        input.entry.result = bgErrSuccess
  | .event _ packet input =>
      source.cache.waitResponse = true ∧ input.inprg.result = bgErrSuccess ∧
        ∀ result ∈ ownStatus source.cache.state packet, result = bgErrSuccess
  | .outside .. => True

/-- The command whose success a step reports. -/
def acknowledged (slot : Slot) (source : SlotState) : SlotOp → List Command
  | .event _ packet _ =>
      if source.freed = false ∧ ownStatus source.cache.state packet = some bgErrSuccess then
        (source.host.lastSentBy slot).toList
      else []
  | _ => []

/-- The second slot does the same work, without retries.  It is the simulation: the two agree on
the work and the records, and they have come to the same phase of it. -/
structure Mirrors (slot : Slot) (source shadow : SlotState) : Prop where
  alike : Alike source.cache shadow.cache source.host shadow.host
  freed : shadow.freed = source.freed
  phase : source.freed = false →
    Phase slot source.cache shadow.cache source.host shadow.host

/-- The steps of the second slot. -/
abbrev SmoothStep (slot : Slot) (source : SlotState) (op : SlotOp) (target : SlotState) : Prop :=
  op.Smooth source ∧ Succeeds (SlotOp.run slot) source op target

/-- A step of a slot is matched by one of the slot without retries, or by none. -/
abbrev Mirrored (slot : Slot) (source : SlotState) (op : SlotOp) (target shadow : SlotState) :
    Prop :=
  Matches (Mirrors slot) (SmoothStep slot)
    (fun move : Move SlotState SlotOp => acknowledged slot move.source move.label)
    (fun move : Move SlotState SlotOp => acknowledged slot move.source move.label)
    ⟨source, op, target⟩ shadow

section

variable {slot : Slot} {source target shadow : SlotState} {manager : MngState}

/-- The answer of an NCP that has memory. -/
def CmdRsp.eased (answer : CmdRsp) : CmdRsp :=
  { answer with result := bgErrSuccess }

theorem known_of_leaveTargets {cache : ConfigCache} {targets : List AccStateOps}
    (leads : leaveTargets cache = .ok targets) : ∀ ops ∈ targets, ops ∈ accStates := by
  intro ops member
  rcases leaveTargets_cases leads with ⟨own, found⟩ | ⟨state, _, found, _⟩
  · apply @mem_accStates_of_asGet cache.state
    rw [found]
    exact List.mem_cons_of_mem _ member
  · apply @mem_accStates_of_asGet state
    rwa [found]

/-- A round sends again or waits, and then the slot stays where it is; or it leaves the state, and
the other slot follows it there in a round in which the first command is taken. -/
theorem Mirrors.round {input smooth : RoundInput} (manager' : MngState)
    (mirrors : Mirrors slot source shadow) (working : source.freed = false)
    (timely : source.cache.guardExpired input.now = false) (fine : input.entry.Fine)
    (fineRetry : input.retry.Fine) (eased : smooth.entry.result = bgErrSuccess)
    (timely' : shadow.cache.guardExpired smooth.now = false)
    (taken : (SlotOp.round manager input).run slot source = .ok target) :
    (source.cache.stays = true ∧ Mirrors slot target shadow) ∨
      (shadow.cache.oom = false ∧ shadow.cache.waitResponse = false ∧
        ∃ following, (SlotOp.round manager' smooth).run slot shadow = .ok following ∧
          Mirrors slot target following) := by
  have working' : shadow.freed = false := mirrors.freed.trans working
  simp only [SlotOp.run, working, Bool.false_eq_true, if_false] at taken
  obtain ⟨⟨left, cache, host⟩, round, made⟩ := bind_ok.mp taken
  cases made
  unfold slotRound at round
  obtain ⟨⟨middle, between⟩, resent, round⟩ := bind_ok.mp round
  dsimp only at round
  cases mirrors.phase working with
  | asked asking asking' memory' fresh' =>
      obtain ⟨onward, again⟩ := retryException_asking asking fineRetry timely resent
      rw [if_pos again.stays] at round
      cases round
      exact .inl ⟨asking.stays, onward.symm.trans mirrors.alike, working',
        fun _ => .asked again asking' memory' fresh'⟩
  | silent calm calm' =>
      rw [retryException_calm calm.memory timely] at resent
      cases resent
      by_cases stays : source.cache.stays = true
      · rw [if_pos stays] at round
        cases round
        exact .inl ⟨stays, mirrors.alike, working', fun _ => .silent calm calm'⟩
      · rw [if_neg stays] at round
        obtain ⟨⟨found, entered, shared⟩, leaves, made⟩ := bind_ok.mp round
        cases made
        obtain ⟨targets, leads, enters⟩ := bind_ok.mp leaves
        obtain ⟨after', between', entersToo, alike, phase⟩ :=
          enterStates_mirrored (known_of_leaveTargets leads) fine eased mirrors.alike calm calm'
            enters
        have leadsToo : leaveTargets shadow.cache = .ok targets :=
          (@Alike.reads _ _ _ _ _ mirrors.alike (fun cache _ => leaveTargets cache)
            fun _ _ => rfl).trans leads
        have stays' : ¬ shadow.cache.stays = true := by
          rw [ConfigCache.stays, calm'.idle, mirrors.alike.state, mirrors.alike.nextState]
          rw [ConfigCache.stays, calm.idle] at stays
          exact stays
        have same : entered.ended = after'.ended := by
          rw [ConfigCache.ended, ConfigCache.ended, alike.state]
        have exception : retryException manager' slot smooth shadow.cache shadow.host =
            .ok (shadow.cache, shadow.host) := retryException_calm calm'.memory timely'
        refine .inr ⟨calm'.memory, calm'.idle,
          { cache := after', host := between', spent := 0, freed := after'.ended }, ?_,
          alike, ?_, fun _ => phase⟩
        · simp only [SlotOp.run, working', Bool.false_eq_true, if_false, slotRound,
            exception, ok_bind, stays', toNextState, leadsToo]
          rw [entersToo]
          rfl
        · change after'.ended = (true && entered.ended)
          rw [same, Bool.true_and]

theorem mirrored_round {input : RoundInput} (mirrors : Mirrors slot source shadow)
    (working : source.freed = false) (timely : source.cache.guardExpired input.now = false)
    (fine : input.entry.Fine) (fineRetry : input.retry.Fine)
    (taken : (SlotOp.round manager input).run slot source = .ok target) :
    Mirrored slot source (.round manager input) target shadow := by
  let smooth : RoundInput := { now := 0, retry := input.entry.eased, entry := input.entry.eased }
  have timely' : shadow.cache.guardExpired smooth.now = false := by
    simp [smooth, ConfigCache.guardExpired]
  have eased : smooth.entry.result = bgErrSuccess := rfl
  rcases mirrors.round manager working timely fine fineRetry eased timely' taken with
    ⟨_, still⟩ | ⟨memory', _, following, taken', again⟩
  · exact .stutters rfl still
  · exact .moves (.round manager smooth) following ⟨⟨timely', memory', eased⟩, taken'⟩ rfl again

/-- The turn of a slot that takes an event. -/
theorem run_event {packet : ConfigEvent} {input : EventInput} {cache : ConfigCache} {host : Host}
    (working : shadow.freed = false)
    (handled : slotEvent manager slot packet input shadow.cache shadow.host = .ok (cache, host)) :
    (SlotOp.event manager packet input).run slot shadow =
      .ok { cache := cache, host := host, freed := false
            spent := tally shadow.cache packet shadow.spent } := by
  simp only [SlotOp.run, working, Bool.false_eq_true, if_false, handled, ok_bind]

/-- Only a success is acknowledged. -/
theorem acknowledged_other {packet : ConfigEvent} {input : EventInput}
    (other : ownStatus source.cache.state packet ≠ some bgErrSuccess) :
    acknowledged slot source (.event manager packet input) = [] :=
  if_neg fun both => other both.2

/-- A status, a page or another event for a slot that waits. -/
theorem mirrored_event {packet : ConfigEvent} {input : EventInput}
    (mirrors : Mirrors slot source shadow) (working : source.freed = false)
    (rough : (SlotOp.event manager packet input).Rough source)
    (taken : (SlotOp.event manager packet input).run slot source = .ok target) :
    Mirrored slot source (.event manager packet input) target shadow := by
  have working' : shadow.freed = false := mirrors.freed.trans working
  obtain ⟨waits, fine, fineRetry, statuses⟩ := rough working
  simp only [SlotOp.run, working, Bool.false_eq_true, if_false] at taken
  obtain ⟨⟨cache, host⟩, handled, made⟩ := bind_ok.mp taken
  cases made
  have state : shadow.cache.state = source.cache.state := mirrors.alike.state
  cases mirrors.phase working with
  | silent calm calm' =>
      rw [calm.idle] at waits
      cases waits
  | @asked command asking asking' memory' fresh' =>
      have memory : source.cache.oom = false := by
        have once := asking.once
        rw [waits] at once
        simpa using once
      have waits' : shadow.cache.waitResponse = true := by
        rw [asking'.once, memory']
        rfl
      let smooth : EventInput := { inprg := input.inprg.eased, retry := input.inprg.eased }
      cases own : ownStatus source.cache.state packet with
      | none =>
          have silent : acknowledged slot source (.event manager packet input) = [] :=
            acknowledged_other (by rw [own]; decide)
          have silent' : acknowledged slot shadow (.event manager packet smooth) = [] :=
            acknowledged_other (by rw [state, own]; decide)
          cases page : isPageFor source.cache.state packet with
          | false =>
              have noPage : source.cache.state = .getDcdEm →
                  ∀ handle data len, packet ≠ .dcdData handle 0 data len := by
                rintro reads handle data len rfl
                rw [reads] at page
                cases page
              obtain ⟨onward, again⟩ := slotEvent_foreign asking waits own noPage handled
              exact .stutters silent ⟨onward.symm.trans mirrors.alike, working',
                fun _ => .asked again asking' memory' fresh'⟩
          | true =>
              obtain ⟨after', between', handledToo, alike, phase⟩ :=
                @slotEvent_paged _ _ _ _ _ _ _ _ _ _ input smooth manager mirrors.alike asking
                  asking' waits waits' memory' fresh' page handled
              refine .moves (.event manager packet smooth) _
                ⟨⟨waits', rfl, ?_⟩, run_event working' handledToo⟩
                (silent'.trans silent.symm) ⟨alike, rfl, fun _ => phase⟩
              intro result listed
              rw [state, own] at listed
              cases listed
      | some result =>
          rcases statuses result own with rfl | ⟨rfl, left⟩
          · obtain ⟨after', between', handledToo, alike, phase⟩ :=
              @slotEvent_succeeds _ _ _ _ _ _ _ _ _ _ input smooth manager mirrors.alike asking
                waits waits' memory memory' own fine rfl handled
            refine .moves (.event manager packet smooth) _
                ⟨⟨waits', rfl, ?_⟩, run_event working' handledToo⟩ ?_
              ⟨alike, rfl, fun _ => phase⟩
            · intro result listed
              rw [state, own] at listed
              cases listed
              rfl
            · simp only [acknowledged, working, working', state, own, and_self, if_true,
                asking.sent, asking'.sent]
          · have silent : acknowledged slot source (.event manager packet input) = [] :=
              acknowledged_other (by rw [own]; decide)
            obtain ⟨onward, again⟩ :=
              slotEvent_timesOut asking waits memory own left fineRetry handled
            exact .stutters silent ⟨onward.symm.trans mirrors.alike, working',
              fun _ => .asked again asking' memory' fresh'⟩

/-- What others do meets both slots. -/
theorem mirrored_outside {db : CfgDb} {cfg : ProvCfg} {stat : Stat} {effects : List Effect}
    (mirrors : Mirrors slot source shadow) (working : source.freed = false)
    (rough : (SlotOp.outside db cfg stat effects).Rough source)
    (taken : (SlotOp.outside db cfg stat effects).run slot source = .ok target) :
    Mirrored slot source (.outside db cfg stat effects) target shadow := by
  have working' : shadow.freed = false := mirrors.freed.trans working
  simp only [SlotOp.run, working, Bool.false_eq_true, if_false, Except.ok.injEq] at taken
  rw [← taken]
  let others := effects.filter fun effect => (effect.sentBy slot).isNone
  have foreign : ∀ effect ∈ others, effect.sentBy slot = none := by
    intro effect member
    simpa using (List.mem_filter.mp member).2
  have alike : Alike source.cache shadow.cache
      { db := db, cfg := cfg, stat := stat, log := others ++ source.host.log }
      { db := db, cfg := cfg, stat := stat, log := others ++ shadow.host.log } :=
    ⟨mirrors.alike.slot, rfl⟩
  refine .moves (.outside db cfg stat effects)
    { shadow with
      host := { db := db, cfg := cfg, stat := stat, log := others ++ shadow.host.log } }
    ⟨trivial, ?_⟩ rfl ⟨alike, working', fun _ => ?_⟩
  · simp only [Succeeds, SlotOp.run, working', Bool.false_eq_true, if_false]
    rfl
  · cases mirrors.phase working with
    | silent calm calm' => exact .silent calm calm'
    | @asked command asking asking' memory' fresh' =>
        have busy : source.cache.waitResponse = true ∨ source.cache.oom = true := by
          cases memory : source.cache.oom with
          | true => exact .inr rfl
          | false => exact .inl (by rw [asking.once, memory]; rfl)
        have logless : Alike source.cache source.cache
            { db := db, cfg := cfg, stat := stat, log := [] }
            { db := db, cfg := cfg, stat := stat, log := others ++ source.host.log } := ⟨rfl, rfl⟩
        have asks : requestOf source.cache.state source.cache
            { db := db, cfg := cfg, stat := stat, log := others ++ source.host.log } =
              .ok (some command) := by
          rw [logless.request, rough working busy, asking.asks]
        refine .asked ⟨asks, asking.here, asking.once,
          (Host.lastSentBy_others foreign).trans asking.sent⟩ ?_ memory' fresh'
        exact .moved alike asks asking.here asking'.once
          ((Host.lastSentBy_others foreign).trans asking'.sent)

/-- Every rough step is matched. -/
theorem mirrored_step {op : SlotOp} (mirrors : Mirrors slot source shadow)
    (rough : op.Rough source) (taken : Succeeds (SlotOp.run slot) source op target) :
    Mirrored slot source op target shadow := by
  cases freed : source.freed with
  | true =>
      simp only [Succeeds, SlotOp.run, freed, if_true, Except.ok.injEq] at taken
      rw [← taken]
      refine .stutters ?_ mirrors
      cases op with
      | event manager packet input => simp [acknowledged, freed]
      | _ => rfl
  | false =>
      cases op with
      | round manager input =>
          obtain ⟨timely, fine, fineRetry⟩ := rough freed
          exact mirrored_round mirrors freed timely fine fineRetry taken
      | event manager packet input => exact mirrored_event mirrors freed rough taken
      | outside db cfg stat effects => exact mirrored_outside mirrors freed rough taken

/-- **Retries are transparent**: whatever memory the NCP has, and however many answers are lost
as long as no command runs out of retries, there is a run of the same slot in which every command
is accepted at once and every status is a success, with the same acknowledged commands, the same
state of the work and the same records at the end.  The other run takes fewer steps: a retry has
no counterpart in it. -/
theorem retries_transparent {node : NodeId} {type : LoadType} {host : Host}
    {past : List (Move SlotState SlotOp)} {final : SlotState}
    (run : SlotRun slot (.loaded node type host) past final)
    (rough : Guarded SlotOp.Rough past) :
    ∃ smooth last, SlotRun slot (.loaded node type host) smooth last ∧
      Guarded SlotOp.Smooth smooth ∧
      Observed (fun move => acknowledged slot move.source move.label) smooth =
        Observed (fun move => acknowledged slot move.source move.label) past ∧
      last.freed = final.freed ∧ last.cache.bare = final.cache.bare ∧
      last.host.db = final.host.db := by
  have start : Mirrors slot (.loaded node type host) (.loaded node type host) :=
    ⟨⟨rfl, rfl⟩, rfl, fun _ => .silent (by cases type <;> exact ⟨rfl, rfl, rfl⟩)
      (by cases type <;> exact ⟨rfl, rfl, rfl⟩)⟩
  have matching : ∀ source op target shadow, Mirrors slot source shadow → op.Rough source →
      Succeeds (SlotOp.run slot) source op target → Mirrored slot source op target shadow :=
    fun source op target shadow mirrors rough taken => mirrored_step mirrors rough taken
  obtain ⟨smooth, last, shadowRun, mirrors, same⟩ := run.matched matching rough start
  obtain ⟨steps, guarded⟩ := shadowRun.split
  exact ⟨smooth, last, steps, guarded, same, mirrors.freed, mirrors.alike.slot, mirrors.alike.db⟩

/-- A device that is to subscribe to one group is configured while the NCP is out of memory twice
and two answers are lost. -/
def roughSteps : List SlotOp :=
  [.round .configuringDevicesEm { now := 0, retry := .outOfMemory 0, entry := .outOfMemory 0 },
    .round .configuringDevicesEm { now := 0, retry := .taken 1 0, entry := .taken 1 0 },
    .event .configuringDevicesEm (.dcdDataEnd 1 bgErrTimeout)
      { inprg := .taken 1 0, retry := .outOfMemory 0 },
    .round .configuringDevicesEm { now := 0, retry := .taken 1 0, entry := .taken 1 0 },
    .event .configuringDevicesEm (.dcdData 1 0 onOffPage 16)
      { inprg := .taken 1 0, retry := .taken 1 0 },
    .event .configuringDevicesEm (.dcdDataEnd 1 bgErrSuccess)
      { inprg := .taken 1 0, retry := .taken 1 0 },
    .round .configuringDevicesEm { now := 0, retry := .taken 2 0, entry := .taken 2 0 },
    .event .configuringDevicesEm (.status .modelSub 2 bgErrTimeout)
      { inprg := .taken 2 0, retry := .taken 2 0 },
    .event .configuringDevicesEm (.status .modelSub 2 bgErrSuccess)
      { inprg := .taken 2 0, retry := .taken 2 0 },
    .round .configuringDevicesEm { now := 0, retry := .taken 2 0, entry := .taken 2 0 }]

/-- Its two commands are those of a run in which nothing is lost. -/
theorem retries_transparent_subscriber : ∃ smooth last,
    SlotRun 0 (.loaded 0 .typeConfig (Engine.small (Node.subscriber 2)).host) smooth last ∧
      Guarded SlotOp.Smooth smooth ∧
      Observed (fun move => acknowledged 0 move.source move.label) smooth =
        [.getDcd 0 2 0, .setModelSub 0 2 0 0xFFFF 0x1000 0xC001] ∧
      last.freed = true := by
  have replayed : replays (SlotOp.run 0)
      (.loaded 0 .typeConfig (Engine.small (Node.subscriber 2)).host) roughSteps
      (fun past final => decide (Guarded SlotOp.Rough past) && final.freed &&
        decide (Observed (fun move => acknowledged 0 move.source move.label) past =
          [.getDcd 0 2 0, .setModelSub 0 2 0 0xFFFF 0x1000 0xC001])) = true := by
    decide +kernel
  obtain ⟨past, final, run, _, tested⟩ := execution_of_replays replayed
  simp only [Bool.and_eq_true, decide_eq_true_eq] at tested
  obtain ⟨⟨rough, freed⟩, commands⟩ := tested
  obtain ⟨smooth, last, steps, guarded, same, ends, _, _⟩ := retries_transparent run rough
  exact ⟨smooth, last, steps, guarded, same.trans commands, ends.trans freed⟩

end

end Nwmng
