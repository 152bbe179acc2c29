/-
Module: Nwmng.Mng.Scanning
Purpose: When the scan for beacons is on: it follows the phase, the slots and the back-off,
unless a session expires while the scan waits to be recovered.
Trusted boundary: the commands about the scan succeed
Main exports:
  AddState.ScanRight, AddOp.Recovers, scanning_right_guarded, scan_left_off
-/
import Nwmng.Mng.AddingRuns

namespace Nwmng

open Json Fallible Transition

namespace AddState

/-- While devices are added, the scan is on whenever a session could begin; and it is off
when nothing is done. -/
structure ScanRight (state : AddState) : Prop where
  adding : state.mng.state = .addingDevicesEm → state.mng.oom = false → state.mng.HasFree →
    state.scanning = true ∧ state.scanNeedRecover = false
  configured : state.mng.state = .configured → state.mng.freeMode = 0 → state.scanning = false

end AddState

/-- There is no command about the free mode, and the commands about the scan succeed. -/
def AddOp.ScansSucceed : AddOp → Prop
  | .freemode _ _ => False
  | .setMngState input => input.stopScan = bgErrSuccess ∧ input.startScan = bgErrSuccess
  | _ => True

/-- No session expires while the scan waits for the end of one. -/
def AddOp.Recovers (source : AddState) : AddOp → Prop
  | .addLoop now => source.scanNeedRecover = true → source.mng.oom = false →
      ¬ source.mng.Expires now
  | _ => True

/-!
## The invariant

The scan follows the mode, and the mode the phase.  In between the scan may be stopped to be
recovered, and something must then be left that recovers it.
-/

/-- The mode of the scan follows the phase.  `free_mode` is 1 in the adding phase and 0 in all
others; 2, the free mode itself, is set by a command only. -/
structure ScanMode (mng : Mng) : Prop where
  adding : mng.state = .addingDevicesEm → mng.freeMode = 1
  other : mng.state ≠ .addingDevicesEm → mng.freeMode = 0

/-- The mode follows the phase, and the scan the mode, except where it was stopped to be
recovered; that happens in a back-off, or when no slot is free. -/
structure ScanKept (state : AddState) : Prop where
  mode : ScanMode state.mng
  scans : state.mng.state = .addingDevicesEm → state.scanNeedRecover = false →
    state.scanning = true
  rests : state.mng.state ≠ .addingDevicesEm → state.scanning = false
  waits : state.scanNeedRecover = true → state.mng.oom = true ∨ ¬ state.mng.HasFree

/-- What the scan depends on is as before. -/
structure ScanFrame (before after : Mng) : Prop where
  state : after.state = before.state
  freeMode : after.freeMode = before.freeMode
  oom : after.oom = before.oom
  slots : after.add = before.add

theorem ScanFrame.hasFree {before after : Mng} (frame : ScanFrame before after) :
    after.HasFree ↔ before.HasFree := by
  unfold Mng.HasFree
  rw [frame.slots]

namespace ScanKept

variable {state target : AddState}

theorem right (kept : ScanKept state) : state.ScanRight := by
  constructor
  · intro adding notOom free
    have recovered : state.scanNeedRecover = false := by
      by_contra waiting
      rcases kept.waits (Bool.eq_true_of_not_eq_false waiting) with oom | full
      · rw [oom] at notOom
        cases notOom
      · exact full free
    exact ⟨kept.scans adding recovered, recovered⟩
  · intro configured _
    apply kept.rests
    rw [configured]
    exact fun impossible => nomatch impossible

/-- A step that changes nothing of this. -/
theorem congr (kept : ScanKept state) (frame : ScanFrame state.mng target.mng)
    (recover : target.scanNeedRecover = state.scanNeedRecover)
    (scanning : target.scanning = state.scanning) : ScanKept target := by
  constructor
  · constructor
    · rw [frame.state, frame.freeMode]
      exact kept.mode.adding
    · rw [frame.state, frame.freeMode]
      exact kept.mode.other
  · rw [frame.state, recover, scanning]
    exact kept.scans
  · rw [frame.state, scanning]
    exact kept.rests
  · rw [recover, frame.oom, frame.hasFree]
    exact kept.waits

/-- Outside the phase, the state may change. -/
theorem outside (kept : ScanKept state) (before : state.mng.state ≠ .addingDevicesEm)
    (after : target.mng.state ≠ .addingDevicesEm)
    (freeMode : target.mng.freeMode = state.mng.freeMode)
    (oom : target.mng.oom = state.mng.oom) (slots : target.mng.add = state.mng.add)
    (recover : target.scanNeedRecover = state.scanNeedRecover)
    (scanning : target.scanning = state.scanning) : ScanKept target := by
  constructor
  · refine ⟨fun impossible => absurd impossible after, fun _ => ?_⟩
    rw [freeMode]
    exact kept.mode.other before
  · exact fun impossible => absurd impossible after
  · intro _
    rw [scanning]
    exact kept.rests before
  · have free : target.mng.HasFree ↔ state.mng.HasFree := by
      unfold Mng.HasFree
      rw [slots]
    rw [recover, oom, free]
    exact kept.waits

end ScanKept

/-! ## A change of phase -/

/-- The phase that is entered sets the mode. -/
theorem scanMode_scanPhases {input : PhaseInput} (starts : input.startScan = bgErrSuccess)
    (prios : List Prio) {mng : Mng} (off : mng.freeMode = 0) :
    ScanMode (scanPhases input prios mng) := by
  have finished : ∀ mng : Mng, mng.freeMode = 0 → ScanMode (finishSync mng) := by
    intro mng off
    exact ⟨by rintro ⟨⟩, fun _ => off⟩
  have entered : ∀ (mng : Mng) (phase : MngState), mng.freeMode = 0 →
      phase ≠ .addingDevicesEm → ScanMode (mng.setState phase) := by
    intro mng phase off other
    exact ⟨fun impossible => absurd impossible other, fun _ => off⟩
  induction prios generalizing mng with
  | nil => exact finished mng off
  | cons prio rest hypothesis =>
      have later := @hypothesis
        { mng with seq := { mng.seq with offs := mng.seq.offs + 1 } } off
      cases prio with
      | stop => exact finished mng off
      | a =>
          rw [scanPhases]
          split
          · have on : (clmSetScan 1 input.startScan { mng with seq := { mng.seq with
                offs := mng.seq.offs + 1 } }).freeMode = 1 := by
              simp [clmSetScan, off, starts]
            refine ⟨fun _ => ?_, fun impossible => absurd rfl impossible⟩
            exact on
          · split
            · exact entered _ _ off (by rintro ⟨⟩)
            · exact later
      | r =>
          rw [scanPhases]
          split
          · exact later
          · exact entered _ _ off (by rintro ⟨⟩)
      | b =>
          rw [scanPhases]
          split
          · exact later
          · exact entered _ _ off (by rintro ⟨⟩)

theorem scanMode_setMngState {input : PhaseInput} {mng : Mng} (mode : ScanMode mng)
    (stops : input.stopScan = bgErrSuccess) (starts : input.startScan = bgErrSuccess) :
    ScanMode (setMngState input mng) := by
  have next : ∀ mng : Mng, mng.freeMode = 0 → ScanMode (nextPhase input mng) :=
    fun mng off => scanMode_scanPhases starts _ off
  unfold setMngState
  split
  · rename_i adding
    split
    · exact mode
    · have on := mode.adding adding
      have off : (clmSetScan 0 input.stopScan mng).freeMode = 0 := by
        simp [clmSetScan, on, stops]
      have small : mng.freeMode < 2 := by omega
      dsimp only
      rw [if_pos small]
      split
      · exact ⟨fun impossible => (nomatch impossible), fun _ => off⟩
      · exact next _ off
  · rename_i configuring
    split
    · exact mode
    · exact next _ (mode.other (by rw [configuring]; exact fun impossible => nomatch impossible))
  · rename_i removing
    split
    · exact mode
    · exact next _ (mode.other (by rw [removing]; exact fun impossible => nomatch impossible))
  · rename_i blacklisting
    split
    · exact mode
    · exact next _
        (mode.other (by rw [blacklisting]; exact fun impossible => nomatch impossible))
  · rename_i starting
    exact next _ (mode.other (by rw [starting]; exact fun impossible => nomatch impossible))
  · exact mode

theorem phaseFrame_add : PhaseFrame Mng.add := ⟨fun _ _ => rfl, fun _ _ => rfl, fun _ _ => rfl,
  fun _ _ => rfl⟩

theorem phaseFrame_oom : PhaseFrame Mng.oom := ⟨fun _ _ => rfl, fun _ _ => rfl, fun _ _ => rfl,
  fun _ _ => rfl⟩

namespace ScanKept

variable {state target : AddState}

/-- A change of phase turns the scan on and off. -/
theorem setMngState (kept : ScanKept state) {input : PhaseInput}
    (stops : input.stopScan = bgErrSuccess) (starts : input.startScan = bgErrSuccess) :
    ScanKept (state.followScan (Nwmng.setMngState input state.mng)) := by
  have mode := scanMode_setMngState kept.mode stops starts
  constructor
  · exact mode
  · intro adding recovered
    have on := mode.adding adding
    by_cases before : state.mng.state = .addingDevicesEm
    · have was := kept.mode.adding before
      have scanning := kept.scans before recovered
      simp [AddState.followScan, on, was, scanning]
    · have was := kept.mode.other before
      simp [AddState.followScan, on, was]
  · intro other
    have off := mode.other other
    by_cases before : state.mng.state = .addingDevicesEm
    · have was := kept.mode.adding before
      simp [AddState.followScan, off, was]
    · have was := kept.mode.other before
      have scanning := kept.rests before
      simp [AddState.followScan, off, was, scanning]
  · intro waiting
    have frees : (Nwmng.setMngState input state.mng).HasFree ↔ state.mng.HasFree := by
      unfold Mng.HasFree
      rw [phaseFrame_add.setMngState]
    have oom := phaseFrame_oom.setMngState input state.mng
    rcases kept.waits waiting with isOom | full
    · exact .inl (oom.trans isOom)
    · exact .inr fun free => full (frees.mp free)

end ScanKept

/-!
## Events

A session that ends gives its slot back and recovers the scan.  A session that expires gives only
the slot back.
-/

theorem Mng.isCacheFull_iff (mng : Mng) : mng.isCacheFull = true ↔ ¬ mng.HasFree := by
  unfold Mng.isCacheFull Mng.HasFree
  simp

theorem Mng.hasFree_of_freeId {mng : Mng} {id : Fin maxProvSessions}
    (found : mng.freeId = some id) : mng.HasFree := by
  have free := List.find?_some found
  exact ⟨id, by simpa using free⟩

namespace ScanKept

variable {state target : AddState}

/-- Devices are added whenever the events are looked at. -/
theorem adding_of_listening (kept : ScanKept state) (listening : state.Listening) :
    state.mng.state = .addingDevicesEm := by
  by_contra other
  have off := kept.mode.other other
  rcases listening with adding | free
  · exact other adding
  · rw [off] at free
    cases free

/-- Where the scan is not on the way to be recovered, it is on. -/
theorem of_recovered (mode : ScanMode target.mng)
    (adding : target.mng.state = .addingDevicesEm) (recover : target.scanNeedRecover = false)
    (scanning : target.scanning = true) : ScanKept target := by
  refine ⟨mode, fun _ _ => scanning, fun other => absurd adding other, fun waiting => ?_⟩
  rw [recover] at waiting
  cases waiting

/-- The scan is stopped in a back-off, or when the last slot is taken. -/
theorem of_stopped (mode : ScanMode state.mng) (adding : state.mng.state = .addingDevicesEm)
    (waits : state.mng.oom = true ∨ ¬ state.mng.HasFree) : ScanKept state.stopScan :=
  ⟨mode, fun _ impossible => (nomatch impossible), fun other => absurd adding other,
    fun _ => waits⟩

/-- The scan is started again at the end of a session, or of a back-off. -/
theorem recoverScan (mode : ScanMode state.mng) (adding : state.mng.state = .addingDevicesEm)
    (scans : state.scanNeedRecover = false → state.scanning = true) :
    ScanKept state.recoverScan := by
  unfold AddState.recoverScan
  split
  · exact of_recovered mode adding rfl rfl
  · rename_i recovered
    have recover := Bool.eq_false_of_not_eq_true recovered
    exact of_recovered mode adding recover (scans recover)

theorem provisionDevice (kept : ScanKept state) (adding : state.mng.state = .addingDevicesEm)
    (notOom : state.mng.oom = false) (free : state.mng.HasFree) (netkey : UInt16)
    (id : Fin maxProvSessions) (uuid : Uuid) (result : UInt16) (now : Nat) :
    ScanKept (state.provisionDevice netkey id uuid result now) := by
  obtain ⟨scanning, recover⟩ := kept.right.adding adding notOom free
  have on := kept.mode.adding adding
  have same : ∀ target : AddState, target.mng.state = state.mng.state →
      target.mng.freeMode = state.mng.freeMode →
      ScanMode target.mng ∧ target.mng.state = .addingDevicesEm := by
    intro target sameState sameMode
    refine ⟨⟨fun _ => sameMode.trans on, ?_⟩, sameState.trans adding⟩
    exact fun other => absurd (sameState.trans adding) other
  unfold AddState.provisionDevice
  dsimp only
  split
  · split
    · rename_i waiting
      have impossible : state.scanNeedRecover = true := waiting
      rw [recover] at impossible
      cases impossible
    · obtain ⟨mode, stillAdding⟩ := same (state.setMng { state.mng with
        oom := true, oomExpired := now + AddState.oomDelayTimeout }) rfl rfl
      exact of_stopped mode stillAdding (.inl rfl)
  · split
    · exact kept.congr ⟨rfl, rfl, rfl, rfl⟩ rfl rfl
    · obtain ⟨mode, stillAdding⟩ := same
        (state.setMng (state.mng.occupy id (now + AddState.addNoRspTimeout) uuid)) rfl rfl
      split
      · rename_i full
        exact of_stopped mode stillAdding (.inr ((Mng.isCacheFull_iff _).mp full))
      · exact of_recovered mode stillAdding recover scanning

theorem onBeaconRecv (kept : ScanKept state) (adding : state.mng.state = .addingDevicesEm)
    (notOom : state.mng.oom = false) {uuid : Uuid} {gatt : Bool} {result : UInt16} {now : Nat}
    {clock : SaveClock} (done : state.onBeaconRecv uuid gatt result now clock = .ok target) :
    ScanKept target := by
  cases AddState.onBeaconRecv_step done with
  | ignored => exact kept
  | noted _ _ => exact kept.congr ⟨rfl, rfl, rfl, rfl⟩ rfl rfl
  | requested _ _ _ free _ =>
      exact kept.provisionDevice adding notOom (Mng.hasFree_of_freeId free) _ _ _ _ _

/-- A session has ended, and its slot is given back. -/
theorem ended (kept : ScanKept state) (adding : state.mng.state = .addingDevicesEm)
    (sameState : target.mng.state = state.mng.state)
    (sameMode : target.mng.freeMode = state.mng.freeMode)
    (recover : target.scanNeedRecover = state.scanNeedRecover)
    (scanning : target.scanning = state.scanning) : ScanKept target.recoverScan := by
  have on := kept.mode.adding adding
  have stillAdding := sameState.trans adding
  apply recoverScan
  · exact ⟨fun _ => sameMode.trans on, fun other => absurd stillAdding other⟩
  · exact stillAdding
  · intro recovered
    rw [recover] at recovered
    rw [scanning]
    exact kept.scans adding recovered

/-- A report of success handles the records, and none of this. -/
theorem frame_onProvSuccess {engine after : Engine} {uuid : Uuid} {addr : UInt16}
    (done : engine.onProvSuccess uuid addr = .ok after) : after.state = engine.state := by
  obtain ⟨db, _, result⟩ := bind_ok.mp done
  split at result
  · cases result
    rfl
  · cases result

theorem devAddHdr (kept : ScanKept state) {news : ProvEvent}
    (done : state.devAddHdr news = .ok target) : ScanKept target := by
  have endSession : ∀ uuid, ScanKept (state.endSession uuid) :=
    fun uuid => kept.congr ⟨rfl, rfl, rfl, rfl⟩ rfl rfl
  cases news with
  | beacon uuid gatt result now clock =>
      simp only [AddState.devAddHdr] at done
      split at done
      · rename_i looks
        exact kept.onBeaconRecv (kept.adding_of_listening looks.1) looks.2 done
      · cases done
        exact kept
  | provisioned uuid addr input =>
      simp only [AddState.devAddHdr] at done
      split at done
      · rename_i listening
        have adding := kept.adding_of_listening listening
        obtain ⟨nodes, _, done⟩ := bind_ok.mp done
        obtain ⟨engine, handled, done⟩ := bind_ok.mp done
        cases done
        exact kept.ended adding (frame_onProvSuccess handled) rfl rfl rfl
      · cases done
        exact endSession uuid
  | failed uuid reason =>
      simp only [AddState.devAddHdr] at done
      split at done
      · rename_i listening
        have adding := kept.adding_of_listening listening
        cases done
        unfold AddState.onProvFailed
        split
        · unfold AddState.provFailedWa
          dsimp only
          split
          · exact kept.congr ⟨rfl, rfl, rfl, rfl⟩ rfl rfl
          · exact endSession uuid
        · exact kept.ended adding rfl rfl rfl rfl
      · cases done
        exact endSession uuid

theorem scanNeedRecover_recoverScan (state : AddState) :
    state.recoverScan.scanNeedRecover = false := by
  unfold AddState.recoverScan
  split
  · rfl
  · rename_i recovered
    exact Bool.eq_false_of_not_eq_true recovered

/-- Slots are given back while the scan is on. -/
theorem clearExpired (kept : ScanKept state) (adding : state.mng.state = .addingDevicesEm)
    (recover : state.scanNeedRecover = false) (now : Nat) :
    ScanKept (state.setMng (state.mng.clearExpired now)) := by
  have on := kept.mode.adding adding
  apply of_recovered
  · exact ⟨fun _ => on, fun other => absurd adding other⟩
  · exact adding
  · exact recover
  · exact kept.scans adding recover

theorem clearExpired_of_not_expires {mng : Mng} {now : Nat} (timely : ¬ mng.Expires now) :
    (mng.clearExpired now).add = mng.add := by
  funext id
  unfold Mng.clearExpired
  dsimp only
  split
  · rename_i passed
    obtain ⟨busy, expired⟩ := Bool.and_eq_true_iff.mp passed
    exact absurd ⟨id, busy, of_decide_eq_true expired⟩ timely
  · rfl

/-- The loop gives back the slots of the sessions that expired. -/
theorem addLoop (kept : ScanKept state) (adding : state.mng.state = .addingDevicesEm)
    {now : Nat} (recovers : AddOp.Recovers state (.addLoop now)) :
    ScanKept (state.addLoop now) := by
  unfold AddState.addLoop
  dsimp only
  split
  · -- the back-off is over, and the scan goes on with it
    let rested := state.setMng { state.mng with oom := false }
    have started : ScanKept rested.recoverScan := kept.ended adding rfl rfl rfl rfl
    have stillAdding : rested.recoverScan.mng.state = .addingDevicesEm := by
      rw [AddState.mng_recoverScan]
      exact adding
    exact started.clearExpired stillAdding (scanNeedRecover_recoverScan rested) now
  · cases recover : state.scanNeedRecover with
    | false => exact kept.clearExpired adding recover now
    | true =>
        have on := kept.mode.adding adding
        cases isOom : state.mng.oom with
        | true =>
            exact ⟨⟨fun _ => on, fun other => absurd adding other⟩,
              fun _ recovered => absurd (recover.symm.trans recovered) (nomatch ·),
              fun other => absurd adding other, fun _ => .inl isOom⟩
        | false =>
            have same := clearExpired_of_not_expires (recovers recover isOom)
            exact kept.congr ⟨rfl, rfl, rfl, same⟩ rfl rfl

end ScanKept

/-! ## Commands and loads -/

theorem ScanFrame.refl (mng : Mng) : ScanFrame mng mng := ⟨rfl, rfl, rfl, rfl⟩

/-- What the scan depends on. -/
def Mng.scanView (mng : Mng) : MngState × Nat × Bool × (Fin maxProvSessions → AddCache) :=
  (mng.state, mng.freeMode, mng.oom, mng.add)

theorem loadFrame_scanView : LoadFrame Mng.scanView :=
  ⟨fun _ _ => rfl, fun _ _ => rfl, fun _ _ => rfl⟩

theorem ScanFrame.of_view {before after : Mng} (same : after.scanView = before.scanView) :
    ScanFrame before after := by
  obtain ⟨state, rest⟩ := Prod.mk.inj same
  obtain ⟨freeMode, rest⟩ := Prod.mk.inj rest
  obtain ⟨oom, slots⟩ := Prod.mk.inj rest
  exact ⟨state, freeMode, oom, slots⟩

namespace NodesHost

variable {host target : NodesHost}

theorem scanFrame_startSync {input : FileInput} {loaded : Bool}
    (done : startSync input host = .ok (loaded, target)) : ScanFrame host.mng target.mng :=
  .of_view (loadFrame_scanView.startSync done)

theorem scanFrame_clicbRmblclr {input : FileInput} (done : clicbRmblclr input host = .ok target) :
    ScanFrame host.mng target.mng :=
  .of_view (loadFrame_scanView.clicbRmblclr done)

/-- `rmall` may start a synchronization, when there is none. -/
theorem scanFrame_clicbRmall {input : FileInput} (done : clicbRmall input host = .ok target) :
    ScanFrame host.mng target.mng ∨
      (host.mng.state.busy = false ∧ ∃ mng, ScanFrame host.mng mng ∧
        target.mng = mng.setState .starting) := by
  rcases loadFrame_scanView.clicbRmall done with same | ⟨idle, mng, same, starts⟩
  · exact .inl (.of_view same)
  · exact .inr ⟨idle, mng, .of_view same, starts⟩

end NodesHost

theorem not_adding_of_idle {state : MngState} (idle : state.busy = false) :
    state ≠ .addingDevicesEm := by
  intro adding
  rw [adding] at idle
  cases idle

/-- `sync` in one look at the state. -/
theorem clicbSync_eq (start : Bool) (mng : Mng) :
    clicbSync start mng =
      if mng.state.busy then
        if start then mng
        else { mng.setLists Lists.empty with seq := { mng.seq with offs := 3 } }
      else if start then mng.setState .starting else mng := by
  unfold clicbSync
  cases mng.state with
  | nil => rfl
  | initialized => rfl
  | configured => rfl
  | _ => rfl

/-- `sync` changes the state outside the phases, or the lists. -/
theorem clicbSync_cases (start : Bool) (mng : Mng) :
    ScanFrame mng (clicbSync start mng) ∨
      (mng.state.busy = false ∧ clicbSync start mng = mng.setState .starting) := by
  rw [clicbSync_eq]
  split
  · split
    · exact .inl (ScanFrame.refl mng)
    · exact .inl ⟨rfl, rfl, rfl, rfl⟩
  · rename_i idle
    split
    · exact .inr ⟨Bool.eq_false_of_not_eq_true idle, rfl⟩
    · exact .inl (ScanFrame.refl mng)

theorem scanFrame_clicbSeqset (seq : List Char) (mng : Mng) :
    ScanFrame mng (clicbSeqset seq mng) := by
  obtain ⟨prios, same⟩ := clicbSeqset_eq seq mng
  rw [same]
  exact ⟨rfl, rfl, rfl, rfl⟩

/-- A step in which no session expires unduly keeps the scan. -/
theorem AddOp.scanKept {source target : AddState} {op : AddOp} (kept : ScanKept source)
    (succeed : op.ScansSucceed) (recovers : op.Recovers source)
    (step : op.Step source target) : ScanKept target := by
  obtain ⟨possible, done⟩ := step
  cases op with
  | event news => exact kept.devAddHdr done
  | freemode on result => exact absurd succeed id
  | addLoop now =>
      cases done
      exact kept.addLoop possible recovers
  | setMngState input =>
      cases done
      exact kept.setMngState succeed.1 succeed.2
  | sync start =>
      cases done
      rcases clicbSync_cases start source.mng with frame | ⟨idle, starts⟩
      · exact kept.congr frame rfl rfl
      · have isMng : (source.clicbSync start).mng = source.mng.setState .starting := starts
        apply kept.outside (not_adding_of_idle idle)
        · rw [isMng]
          exact fun impossible => nomatch impossible
        · rw [isMng]
          rfl
        · rw [isMng]
          rfl
        · rw [isMng]
          rfl
        · rfl
        · rfl
  | seqset seq =>
      cases done
      exact kept.congr (scanFrame_clicbSeqset seq source.mng) rfl rfl
  | rmall input =>
      obtain ⟨host, marks, result⟩ := bind_ok.mp done
      cases result
      rcases NodesHost.scanFrame_clicbRmall marks with frame | ⟨idle, mng, frame, starts⟩
      · exact kept.congr frame rfl rfl
      · apply kept.outside (not_adding_of_idle idle)
        · have isState : host.mng.state = .starting := by rw [starts]; rfl
          have same : ({ source with host := host } : AddState).mng.state = .starting := isState
          rw [same]
          exact fun impossible => nomatch impossible
        · exact (congrArg Mng.freeMode starts).trans frame.freeMode
        · exact (congrArg Mng.oom starts).trans frame.oom
        · exact (congrArg Mng.add starts).trans frame.slots
        · rfl
        · rfl
  | rmblclr input =>
      obtain ⟨host, clears, result⟩ := bind_ok.mp done
      cases result
      exact kept.congr (NodesHost.scanFrame_clicbRmblclr clears) rfl rfl
  | starting input =>
      obtain ⟨⟨loaded, host⟩, loads, result⟩ := bind_ok.mp done
      cases result
      exact kept.congr (NodesHost.scanFrame_startSync loads) rfl rfl
  | write call =>
      obtain ⟨nodes, _, result⟩ := bind_ok.mp done
      cases result
      exact kept.congr ⟨rfl, rfl, rfl, rfl⟩ rfl rfl
  | work mng =>
      cases done
      exact kept.congr ⟨possible.state, possible.freeMode, possible.oom, possible.slots⟩ rfl rfl

/-! ## Every run -/

/-- Nothing waits for the scan when the network was configured. -/
theorem AddState.Idle.scanKept {state : AddState} (idle : state.Idle)
    (recovered : state.scanNeedRecover = false) : ScanKept state := by
  have other : state.mng.state ≠ .addingDevicesEm := by
    rw [idle.configured]
    exact fun impossible => nomatch impossible
  refine ⟨⟨fun adding => absurd adding other, fun _ => idle.freeMode⟩,
    fun adding => absurd adding other, fun _ => idle.scanning, fun waiting => ?_⟩
  rw [recovered] at waiting
  cases waiting

/-- In every run without a command about the free mode, from a start at which nothing waits for
the scan, the scan is right in every state, as long as no session expires while the scan waits
for the end of one.  An expired session frees its slot without a look at the flag that asks for
the scan. -/
theorem scanning_right_guarded {initial final : AddState} {past : List (Move AddState AddOp)}
    (run : AddRun initial past final) (idle : initial.Idle)
    (recovered : initial.scanNeedRecover = false)
    (succeed : ∀ move ∈ past, move.label.ScansSucceed) (recovers : Guarded AddOp.Recovers past) :
    final.ScanRight ∧ ∀ move ∈ past, move.source.ScanRight ∧ move.target.ScanRight := by
  have guarded : Guarded (fun source (op : AddOp) => op.ScansSucceed ∧ op.Recovers source) past :=
    fun move member => ⟨succeed move member, recovers move member⟩
  have kept := run.guarded_invariant
    (fun source op target before admitted step =>
      AddOp.scanKept before admitted.1 admitted.2 step) (idle.scanKept recovered) guarded
  refine ⟨kept.2.right, ?_⟩
  intro move member
  obtain ⟨source, target⟩ := kept.1 move member
  exact ⟨source.right, target.right⟩

/-! ## Two runs -/

def secondUuid : Uuid := Vector.replicate 16 0x5a

/-- A second device that is not provisioned yet. -/
def secondObject : Value := unprovObject.set strUuid (.string (cbuf2str secondUuid))

/-- As the sample above, with two devices in the file. -/
def AddState.sampleTwo : AddState :=
  { AddState.sample with
    host :=
      match loadCfgFile noTemplates (fun _ => false) FileInput.sample.first false
        { NodesHost.sampleClosed with file := editedFile [unprovObject, secondObject] } with
      | .ok (_, host) => host
      | .error _ => .sampleClosed }

theorem AddState.sampleTwo_idle : AddState.sampleTwo.Idle where
  configured := by decide +kernel
  freeMode := by decide +kernel
  oom := by decide +kernel
  slots := by decide +kernel
  scanning := rfl
  sessions := rfl
  cut := rfl

/-- Sessions with both devices begin, and the scan is stopped. -/
def fullSample : List AddOp :=
  addingSample ++
    [.event (.beacon secondUuid false bgErrSuccess 10 { time := 9, mtime := 9 })]

instance (source : AddState) : (op : AddOp) → Decidable (op.Recovers source)
  | .addLoop now => inferInstanceAs (Decidable (source.scanNeedRecover = true →
      source.mng.oom = false → ¬ source.mng.Expires now))
  | .event _ => isTrue trivial
  | .sync _ => isTrue trivial
  | .freemode _ _ => isTrue trivial
  | .seqset _ => isTrue trivial
  | .rmall _ => isTrue trivial
  | .rmblclr _ => isTrue trivial
  | .starting _ => isTrue trivial
  | .write _ => isTrue trivial
  | .setMngState _ => isTrue trivial
  | .work _ => isTrue trivial

instance : (op : AddOp) → Decidable op.ScansSucceed
  | .freemode _ _ => isFalse id
  | .setMngState _ => inferInstanceAs (Decidable (_ ∧ _))
  | .event _ => isTrue trivial
  | .sync _ => isTrue trivial
  | .seqset _ => isTrue trivial
  | .rmall _ => isTrue trivial
  | .rmblclr _ => isTrue trivial
  | .starting _ => isTrue trivial
  | .addLoop _ => isTrue trivial
  | .write _ => isTrue trivial
  | .work _ => isTrue trivial

/-- One of the sessions fails, and the scan goes on. -/
theorem scanning_right_guarded_failed :
    ∃ past final, AddRun .sampleTwo past final ∧ final.mng.state = .addingDevicesEm ∧
      final.mng.oom = false ∧ final.mng.HasFree ∧ final.scanning = true := by
  have passed : replays AddOp.run .sampleTwo
      (fullSample ++ [.event (.failed secondUuid 1), .addLoop 20, .setMngState .sample])
      (fun past final => past.all (fun move => move.label.admits move.source) &&
        decide ((∀ move ∈ past, move.label.ScansSucceed) ∧
          Guarded (fun source op => AddOp.Recovers source op) past ∧
          final.mng.state = .addingDevicesEm ∧ final.mng.oom = false ∧
          final.mng.HasFree)) = true := by
    decide +kernel
  obtain ⟨past, final, run, _, shown⟩ := addRun_of_replays passed
  obtain ⟨succeed, recovers, adding, notOom, free⟩ := of_decide_eq_true shown
  have right := (scanning_right_guarded run AddState.sampleTwo_idle rfl succeed recovers).1
  exact ⟨past, final, run, adding, notOom, free, (right.adding adding notOom free).1⟩

/-- Both sessions expire, and nothing starts the scan again. -/
theorem scan_left_off :
    ¬ ∀ (initial final : AddState) (past : List (Move AddState AddOp)),
      AddRun initial past final → initial.Idle → initial.scanNeedRecover = false →
      (∀ move ∈ past, move.label.ScansSucceed) → final.ScanRight := by
  intro claim
  have passed : replays AddOp.run .sampleTwo
      (fullSample ++ [.addLoop 100, .setMngState .sample])
      (fun past final => past.all (fun move => move.label.admits move.source) &&
        decide ((∀ move ∈ past, move.label.ScansSucceed) ∧
          final.mng.state = .addingDevicesEm ∧ final.mng.oom = false ∧
          final.mng.HasFree ∧ final.scanning = false)) = true := by
    decide +kernel
  obtain ⟨past, final, run, _, shown⟩ := addRun_of_replays passed
  obtain ⟨succeed, adding, notOom, free, off⟩ := of_decide_eq_true shown
  have right := claim _ _ past run AddState.sampleTwo_idle rfl succeed
  rw [(right.adding adding notOom free).1] at off
  cases off

end Nwmng
