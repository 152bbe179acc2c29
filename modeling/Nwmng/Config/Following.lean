/-
Module: Nwmng.Config.Following
Purpose: A slot whose commands meet with full memory and timeouts follows the prompt run: each of
its steps is matched by the next one of that run, or by none.
Trusted boundary: none
Main exports:
  Trails, Acks, Proceeds, Prompted, prompted_step, Trails.onward
-/
import Mathlib
import Nwmng.Config.Scheduled
import Nwmng.Config.Transparency

namespace Nwmng

open Transition Fallible

/-!
## The step

A scheduled step is matched by the next step of the prompt run, or by none.  The simulation is that
of the transparent retries; here the step of the second slot is the one that its state determines.
-/

/-- A scheduled slot, and the prompt one that has done the same work. -/
structure Trails (report : DcdReport) (slot : Slot) (source shadow : SlotState) : Prop where
  mirrors : Mirrors slot source shadow
  course : OnCourse report slot source

/-- The commands whose success a run reports, in their order. -/
abbrev Acks (slot : Slot) (past : List (Move SlotState SlotOp)) : List Command :=
  Observed (fun move => acknowledged slot move.source move.label) past

theorem acks_snoc (slot : Slot) (past : List (Move SlotState SlotOp))
    (move : Move SlotState SlotOp) :
    Acks slot (past ++ [move]) = Acks slot past ++ acknowledged slot move.source move.label :=
  observed_snoc _ past move

theorem acks_append (slot : Slot) (past rest : List (Move SlotState SlotOp)) :
    Acks slot (past ++ rest) = Acks slot past ++ Acks slot rest :=
  List.flatMap_append

/-- The prompt slot takes its next step, which is observed like the step of the other one. -/
def Proceeds (report : DcdReport) (slot : Slot) (source : SlotState) (op : SlotOp)
    (target shadow : SlotState) : Prop :=
  ∃ following, PromptStep report slot shadow (shadow.promptOp report slot) following ∧
    acknowledged slot shadow (shadow.promptOp report slot) = acknowledged slot source op ∧
    Mirrors slot target following

section

variable {report : DcdReport} {slot : Slot} {source target shadow : SlotState}
variable {manager : MngState} {command : Command}

/-- The answers in a prompt run. -/
abbrev promptInput : EventInput := { inprg := .taken 0 0, retry := .taken 0 0 }

theorem promptOp_event (waits : source.cache.waitResponse = true) :
    source.promptOp report slot =
      .event .configuringDevicesEm (source.promptEvent report slot) promptInput :=
  if_pos waits

theorem promptOp_round (idle : source.cache.waitResponse = false) :
    source.promptOp report slot =
      .round .configuringDevicesEm { now := 0, retry := .taken 0 0, entry := .taken 0 0 } := by
  rw [SlotState.promptOp, if_neg]
  rw [idle]
  decide

/-- A success is acknowledged with the command that was sent last. -/
theorem acknowledged_success {packet : ConfigEvent} {input : EventInput}
    (working : source.freed = false) (own : ownStatus source.cache.state packet = some bgErrSuccess)
    (sent : source.host.lastSentBy slot = some command) :
    acknowledged slot source (.event manager packet input) = [command] := by
  simp only [acknowledged, working, own, and_self, if_true, sent, Option.toList_some]

/-- A round.  The slot stays where it is, or both go on. -/
theorem proceeds_round {input : RoundInput} (mirrors : Mirrors slot source shadow)
    (working : source.freed = false) (timely : source.cache.guardExpired input.now = false)
    (fine : input.entry.Fine) (fineRetry : input.retry.Fine)
    (taken : (SlotOp.round manager input).run slot source = .ok target) :
    (source.cache.stays = true ∧ Mirrors slot target shadow) ∨
      Proceeds report slot source (.round manager input) target shadow := by
  have working' : shadow.freed = false := mirrors.freed.trans working
  let smooth : RoundInput := { now := 0, retry := .taken 0 0, entry := .taken 0 0 }
  have timely' : shadow.cache.guardExpired smooth.now = false := by
    simp [smooth, ConfigCache.guardExpired]
  have eased : smooth.entry.result = bgErrSuccess := rfl
  rcases mirrors.round .configuringDevicesEm working timely fine fineRetry eased timely' taken with
    still | ⟨_, idle, following, taken', again⟩
  · exact .inl still
  · have next := @promptOp_round report slot shadow idle
    refine .inr ⟨following, ⟨working', rfl, ?_⟩, ?_, again⟩
    · rw [next]
      exact taken'
    · rw [next]
      rfl

/-! A slot that waits is answered in the prompt run by the success of its command, or by the
page. -/

/-- The success that a scheduled slot is told of is the answer that the other one gets, up to the
handle. -/
theorem Trails.told_success {packet : ConfigEvent} (trails : Trails report slot source shadow)
    (asking : Asking slot command source.cache source.host)
    (asking' : Asking slot command shadow.cache shadow.host)
    (waits : source.cache.waitResponse = true)
    (own : ownStatus source.cache.state packet = some bgErrSuccess)
    (kind : packet.kind = command.kind)
    (there : source.cache.state = .getDcdEm → source.cache.dcd.elems.isSome = true) :
    command.stateOf = source.cache.state ∧
      (∃ handle, packet = command.status handle bgErrSuccess) ∧
      shadow.promptEvent report slot = command.status 0 bgErrSuccess := by
  obtain ⟨mirrors, course⟩ := trails
  obtain ⟨_, sent, belongs⟩ := course.unfailed.asks waits
  cases Option.some.inj (asking.sent.symm.trans sent)
  refine ⟨belongs, status_of_ownStatus (belongs ▸ own) kind, ?_⟩
  have read : ¬ (shadow.cache.state = .getDcdEm ∧ shadow.cache.dcd.elems.isNone = true) := by
    rintro ⟨reads, none_⟩
    have some_ := there (mirrors.alike.state.symm.trans reads)
    rw [mirrors.alike.dcd] at none_
    rw [Option.isNone_iff_eq_none.mp none_] at some_
    cases some_
  rw [SlotState.promptEvent, if_neg read, asking'.sent]

/-- A slot without composition data gets the page. -/
theorem Mirrors.told_page (mirrors : Mirrors slot source shadow)
    (reads : source.cache.state = .getDcdEm) (none_ : source.cache.dcd.elems = none) :
    shadow.promptEvent report slot = .dcdData 0 0 report.data report.len := by
  rw [SlotState.promptEvent, if_pos]
  rw [mirrors.alike.state, mirrors.alike.dcd, none_]
  exact ⟨reads, rfl⟩

/-- A page that a device sends is stored like the one it reports. -/
theorem Reports.stores {handle : UInt32} {data : Bytes.Memory} {len : UInt8}
    (reports : Reports report source (.dcdData handle 0 data len)) :
    storePage data len source.cache.timerClear source.host =
      storePage report.data report.len source.cache.timerClear source.host :=
  @storePage_congr source.cache.timerClear source.host _ _ _ _ (reports rfl)

/-- Once the page is there, to store it again changes nothing. -/
theorem OnCourse.stores_again (course : OnCourse report slot source)
    (asking : Asking slot command source.cache source.host)
    (reads : source.cache.state = .getDcdEm) (there : source.cache.dcd.elems ≠ none) :
    ∃ after host',
      storePage report.data report.len source.cache.timerClear source.host = .ok (after, host') ∧
        Alike source.cache after source.host host' := by
  have next : source.cache.nextState = some .getDcdEm := by rw [asking.here, reads]
  obtain ⟨stored, shared, before, kept⟩ := course.reported reads next there
  have cleared : Alike source.cache source.cache.timerClear source.host source.host := ⟨rfl, rfl⟩
  obtain ⟨after, host', repeats, same⟩ := storePage_alike cleared before
  exact ⟨after, host', repeats, kept.trans same⟩

/-- A page for a slot that has asked for it is stored. -/
theorem slotEvent_stored {cache after : ConfigCache} {host host' : Host} {handle : UInt32}
    {data : Bytes.Memory} {len : UInt8} {input : EventInput}
    (asking : Asking slot command cache host) (waits : cache.waitResponse = true)
    (reads : cache.state = .getDcdEm)
    (taken : slotEvent manager slot (.dcdData handle 0 data len) input cache host =
      .ok (after, host')) :
    storePage data len cache.timerClear host = .ok (after, host') ∧
      Asking slot command after host' := by
  obtain ⟨ops, rest, inprg, out, found, callback, first, retried⟩ :=
    slotEvent_handled (commandState_of_request asking.asks) waits taken
  obtain ⟨same, lawful⟩ := asGet_cons found
  have handled := lawful.inprg callback first
  rw [same] at handled
  have page : isPageFor cache.state (.dcdData handle 0 data len) = true := by
    rw [reads]
    rfl
  obtain ⟨onward, waiting, _, _⟩ := handled.asking_page page asking
  rw [eventRetry_quiet slot manager input (.inl (waiting.trans waits))] at retried
  cases retried
  rw [reads] at found
  cases found
  cases callback
  simp only [getdcdInprg, if_true, bind_ok, Except.ok.injEq] at first
  obtain ⟨⟨stored, shared⟩, stores, rfl⟩ := first
  exact ⟨stores, onward⟩

/-- The success of the command.  It may be the status of a command that was sent several times. -/
theorem proceeds_success {packet : ConfigEvent} {input : EventInput}
    (trails : Trails report slot source shadow) (working : source.freed = false)
    (asking : Asking slot command source.cache source.host)
    (asking' : Asking slot command shadow.cache shadow.host)
    (waits : source.cache.waitResponse = true) (memory : source.cache.oom = false)
    (memory' : shadow.cache.oom = false) (fine : input.inprg.Fine)
    (own : ownStatus source.cache.state packet = some bgErrSuccess)
    (kind : packet.kind = command.kind)
    (there : source.cache.state = .getDcdEm → source.cache.dcd.elems.isSome = true)
    (taken : (SlotOp.event manager packet input).run slot source = .ok target) :
    Proceeds report slot source (.event manager packet input) target shadow := by
  have mirrors := trails.mirrors
  have working' : shadow.freed = false := mirrors.freed.trans working
  have waits' : shadow.cache.waitResponse = true := by
    rw [asking'.once, memory']
    rfl
  obtain ⟨belongs, ⟨handle, rfl⟩, told⟩ := trails.told_success asking asking' waits own kind there
  have own' : ownStatus shadow.cache.state (command.status 0 bgErrSuccess) =
      some bgErrSuccess := by
    rw [mirrors.alike.state, ← belongs]
    exact ownStatus_status command 0 bgErrSuccess
  simp only [SlotOp.run, working, Bool.false_eq_true, if_false] at taken
  obtain ⟨⟨cache, host⟩, handled, made⟩ := bind_ok.mp taken
  cases made
  obtain ⟨after', between', handledToo, alike, phase⟩ :=
    @slotEvent_succeeds _ _ _ _ _ _ _ _ _ _ input promptInput .configuringDevicesEm mirrors.alike
      asking waits waits' memory memory' own fine rfl handled
  rw [slotEvent_handle _ slot command handle 0] at handledToo
  have next := @promptOp_event report slot shadow waits'
  rw [told] at next
  have ran := run_event working' handledToo
  rw [← next] at ran
  refine ⟨_, ⟨working', rfl, ran⟩, ?_, alike, rfl, fun _ => phase⟩
  rw [next]
  exact (acknowledged_success working' own' asking'.sent).trans
    (acknowledged_success working own asking.sent).symm

/-- A page is not acknowledged. -/
theorem acknowledged_page {handle : UInt32} {page : UInt8} {data : Bytes.Memory} {len : UInt8}
    {input : EventInput} :
    acknowledged slot source (.event manager (.dcdData handle page data len) input) = [] := by
  apply acknowledged_other
  cases source.cache.state <;> intro impossible <;> cases impossible

/-- The first page is stored by both slots. -/
theorem proceeds_page {input : EventInput} {handle : UInt32} {data : Bytes.Memory} {len : UInt8}
    (mirrors : Mirrors slot source shadow) (working : source.freed = false)
    (asking : Asking slot command source.cache source.host)
    (asking' : Asking slot command shadow.cache shadow.host)
    (waits : source.cache.waitResponse = true) (memory' : shadow.cache.oom = false)
    (fresh' : shadow.cache.everRetried = false) (reads : source.cache.state = .getDcdEm)
    (none_ : source.cache.dcd.elems = none)
    (reports : Reports report source (.dcdData handle 0 data len))
    (taken : (SlotOp.event manager (.dcdData handle 0 data len) input).run slot source =
      .ok target) :
    Proceeds report slot source (.event manager (.dcdData handle 0 data len) input) target
      shadow := by
  have working' : shadow.freed = false := mirrors.freed.trans working
  have waits' : shadow.cache.waitResponse = true := by
    rw [asking'.once, memory']
    rfl
  have page : isPageFor source.cache.state (.dcdData handle 0 data len) = true := by
    rw [reads]
    rfl
  simp only [SlotOp.run, working, Bool.false_eq_true, if_false] at taken
  obtain ⟨⟨cache, host⟩, handled, made⟩ := bind_ok.mp taken
  cases made
  obtain ⟨after', between', handledToo, alike, phase⟩ :=
    @slotEvent_paged _ _ _ _ _ _ _ _ _ _ input promptInput .configuringDevicesEm mirrors.alike
      asking asking' waits waits' memory' fresh' page handled
  have same : slotEvent .configuringDevicesEm slot (.dcdData handle 0 data len) promptInput
      shadow.cache shadow.host =
        slotEvent .configuringDevicesEm slot (.dcdData 0 0 report.data report.len) promptInput
          shadow.cache shadow.host := by
    apply slotEvent_page
    intro id here
    have node : shadow.cache.node = source.cache.node :=
      @Alike.reads _ _ _ _ _ mirrors.alike (fun cache _ => cache.node) fun _ _ => rfl
    rw [mirrors.alike.db]
    exact reports rfl id (node.symm.trans here)
  rw [same] at handledToo
  have next := @promptOp_event report slot shadow waits'
  rw [mirrors.told_page reads none_] at next
  have ran := run_event working' handledToo
  rw [← next] at ran
  refine ⟨_, ⟨working', rfl, ran⟩, ?_, alike, rfl, fun _ => phase⟩
  rw [next]
  exact acknowledged_page.trans acknowledged_page.symm

/-- A scheduled step keeps the course of a slot that another one mirrors. -/
theorem Trails.onward {op : SlotOp} (trails : Trails report slot source shadow)
    (alone : op.Alone source) (scheduled : op.Scheduled report slot source)
    (taken : Succeeds (SlotOp.run slot) source op target) : OnCourse report slot target := by
  apply trails.course.step _ alone scheduled taken
  intro working
  cases trails.mirrors.phase working with
  | silent calm calm' => exact .inr calm
  | asked asking asking' memory' fresh' => exact .inl ⟨_, asking⟩

end

end Nwmng
