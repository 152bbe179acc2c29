/-
Module: Nwmng.Mng.NwkRuns
Purpose: What the commands start after an initialization of the network that may have failed.
Trusted boundary: none
Main exports:
  NwkInput, NwkState, nwkInit, cliProc, NwkOp, NwkRun, NwkOp.Right, NwkOp.Ready,
  joined_before_active_iff, sync_after_failure
-/
import Nwmng.Mng.Nwk
import Nwmng.Mng.Requests

namespace Nwmng

open Transition Fallible

/-! ## The start of the program -/

/-- What the NCP answers during `nwk_init`: to its initialization, with the event that follows,
and to the initialization of each client model. -/
structure NwkInput where
  provInit : UInt16
  initialized : InitInput
  models : List UInt16
  inDdb : Uuid → Bool

/-- The manager with the nodes file and the provisioner's configuration; `joined` records that
`on_initialized_config` has returned success since the program was started. -/
structure NwkState where
  host : NodesHost
  prov : ProvState
  joined : Bool

namespace NwkState

def state (nwk : NwkState) : MngState := nwk.host.mng.state

def setMng (nwk : NwkState) (mng : Mng) : NwkState :=
  { nwk with host := { nwk.host with mng := mng } }

end NwkState

/-- `nwk_init`, with its return value; `false` stands for an error. -/
def nwkInit (input : NwkInput) (nwk : NwkState) : Except Abort (Bool × NwkState) :=
  if input.provInit ≠ bgErrSuccess then .ok (false, nwk)
  else do
    let (fine, prov) ← onInitializedConfig input.initialized nwk.prov
    let mng := (nwk.host.mng.setState .initialized).setCfg prov.cfg
    if fine then
      let loaded := mngLoadLists input.inDdb (mng.setState .configured)
      -- a client model that cannot be initialized leaves the network configured
      .ok (input.models.all (· = bgErrSuccess),
        { nwk.setMng loaded with prov := prov, joined := true })
    else .ok (false, { nwk.setMng mng with prov := prov })

/-- `cli_proc`, up to the main loop: whatever the initialization functions leave, the state is
`nil`, and an error of `nwk_init` is logged only. -/
def cliProc (input : NwkInput) (host : NodesHost) (prov : ProvState) : Except Abort NwkState := do
  let started : NwkState :=
    { host := { host with mng := host.mng.setState .nil }, prov := prov, joined := false }
  let (_, nwk) ← nwkInit input started
  .ok nwk

/-! ## Commands and steps behind it -/

/-- A start of the program, a command, or a step of the main loop.  The commands are those that
look at the state of the network, or write it. -/
inductive NwkOp where
  | cliProc (input : NwkInput) (host : NodesHost) (prov : ProvState)
  | sync (start : Bool)
  | seqset (seq : List Char)
  | freemode (on : Bool) (result : UInt16)
  | rmall (input : FileInput)
  | rmblclr (input : FileInput)
  | starting (input : FileInput)
  | setMngState (input : PhaseInput)
  /-- anything else: the other loops, the events, and the other commands -/
  | work (outcome : NwkState)

def NwkOp.run (nwk : NwkState) : NwkOp → Except Abort NwkState
  | .cliProc input host prov => Nwmng.cliProc input host prov
  | .sync start => .ok (nwk.setMng (clicbSync start nwk.host.mng))
  | .seqset seq => .ok (nwk.setMng (clicbSeqset seq nwk.host.mng))
  | .freemode on result => .ok (nwk.setMng (clicbFreemode on result nwk.host.mng))
  | .rmall input => do
      let host ← clicbRmall input nwk.host
      .ok { nwk with host := host }
  | .rmblclr input => do
      let host ← clicbRmblclr input nwk.host
      .ok { nwk with host := host }
  | .starting input => do
      let (_, host) ← startSync input nwk.host
      .ok { nwk with host := host }
  | .setMngState input => .ok (nwk.setMng (Nwmng.setMngState input nwk.host.mng))
  | .work outcome => .ok outcome

/-- Nothing else writes the state of the manager. -/
def NwkOp.Possible (nwk : NwkState) : NwkOp → Prop
  | .starting _ => nwk.state = .starting
  | .work outcome => outcome.state = nwk.state ∧ outcome.joined = nwk.joined
  | _ => True

def NwkOp.Step (source : NwkState) (op : NwkOp) (target : NwkState) : Prop :=
  op.Possible source ∧ Succeeds NwkOp.run source op target

abbrev NwkRun := Execution NwkOp.Step

/-- A synchronization is entered from `configured` only, and goes on only in a network that was
initialized with success. -/
structure NwkOp.Right (move : Move NwkState NwkOp) : Prop where
  entered : move.source.state.busy = false → move.target.state.busy = true →
    move.source.state = .configured
  joined : move.target.state.busy = true → move.target.joined = true

/-- The nodes file can be marked, and loaded again. -/
def NodesHost.fileLoads (input : FileInput) (host : NodesHost) : Bool :=
  match host.nodes.nodesRmall input.first with
  | .ok (true, nodes) =>
      match loadCfgFile input.env input.inDdb input.second true (host.setNodes nodes) with
      | .ok (loaded, _) => loaded
      | .error _ => false
  | _ => false

/-- No command that starts a synchronization comes before the network is configured, or the
nodes file keeps it from doing so. -/
def NwkOp.Ready (source : NwkState) : NwkOp → Prop
  | .sync start => start = true → source.state.Past
  | .rmall input => source.host.fileLoads input = true → source.state.Past
  | _ => True

/-!
## What each step does to the state

Only few steps enter a synchronization, and not all of them ask whether the network was ever
configured.
-/

/-- Behind `configured` there is a network. -/
def NwkState.Joined (nwk : NwkState) : Prop := nwk.state.Past → nwk.joined = true

theorem MngState.past_of_busy {state : MngState} (busy : state.busy = true) : state.Past := by
  constructor
  · intro isNil
    rw [isNil] at busy
    cases busy
  · intro isInitialized
    rw [isInitialized] at busy
    cases busy

theorem MngState.configured_of_past {state : MngState} (past : state.Past)
    (idle : state.busy = false) : state = .configured := by
  cases state with
  | nil => exact absurd rfl past.1
  | initialized => exact absurd rfl past.2
  | configured => rfl
  | _ => cases idle

theorem loadFrame_state : LoadFrame Mng.state :=
  ⟨fun _ _ => rfl, fun _ _ => rfl, fun _ _ => rfl⟩

/-- A start of the program leaves the manager idle. -/
theorem cliProc_idle {input : NwkInput} {host : NodesHost} {prov : ProvState}
    {target : NwkState} (done : cliProc input host prov = .ok target) :
    target.state.busy = false ∧ target.Joined := by
  obtain ⟨⟨fine, nwk⟩, starts, result⟩ := bind_ok.mp done
  cases result
  unfold nwkInit at starts
  split at starts
  · cases starts
    exact ⟨rfl, fun past => absurd rfl past.1⟩
  · obtain ⟨⟨fine, prov⟩, checks, result⟩ := bind_ok.mp starts
    dsimp only at result
    split at result
    · cases result
      refine ⟨?_, fun _ => rfl⟩
      change (mngLoadLists _ _).state.busy = false
      rw [loadFrame_state.mngLoadLists]
      rfl
    · cases result
      exact ⟨rfl, fun past => absurd rfl past.2⟩

/-- `rmall` starts a synchronization exactly when none is going on and the file loads. -/
theorem state_clicbRmall {input : FileInput} {host target : NodesHost}
    (done : clicbRmall input host = .ok target) :
    target.mng.state =
      if host.mng.state.busy = false ∧ host.fileLoads input = true then .starting
      else host.mng.state := by
  unfold clicbRmall at done
  split at done
  · rename_i busy
    cases done
    rw [if_neg fun both => absurd (both.1.symm.trans busy) (nomatch ·)]
  · rename_i notBusy
    have idle := Bool.eq_false_of_not_eq_true notBusy
    obtain ⟨⟨written, nodes⟩, writes, done⟩ := bind_ok.mp done
    cases written with
    | false =>
        have isFalse : host.fileLoads input = false := by
          rw [NodesHost.fileLoads, writes]
        cases done
        rw [isFalse, if_neg fun both => (nomatch both.2)]
        rfl
    | true =>
        obtain ⟨⟨loaded, last⟩, loads, result⟩ := bind_ok.mp done
        have same : last.mng.state = (host.setNodes nodes).mng.state :=
          loadFrame_state.loadCfgFile loads
        have isLoaded : host.fileLoads input = loaded := by
          rw [NodesHost.fileLoads, writes]
          dsimp only
          rw [loads]
        rw [isLoaded]
        cases loaded with
        | false =>
            cases result
            exact same.trans (if_neg fun both => (nomatch both.2)).symm
        | true =>
            cases result
            exact (if_pos ⟨idle, rfl⟩).symm

/-- `sync` starts a synchronization exactly when none is going on. -/
theorem state_clicbSync (start : Bool) (mng : Mng) :
    (clicbSync start mng).state =
      if mng.state.busy = false ∧ start = true then .starting else mng.state := by
  rw [clicbSync_eq]
  cases mng.state.busy with
  | false =>
      cases start with
      | false => rfl
      | true => rfl
  | true =>
      cases start with
      | false => rfl
      | true => rfl

/-- Outside a synchronization there is no change of phase. -/
theorem setMngState_idle (input : PhaseInput) {mng : Mng} (idle : mng.state.busy = false) :
    setMngState input mng = mng := by
  unfold setMngState
  cases state : mng.state with
  | nil | initialized | configured | stopping | stateReload => rfl
  | _ =>
      rw [state] at idle
      cases idle

namespace NwkOp

variable {source target : NwkState}

/-- A step that leaves the state. -/
theorem right_of_same {op : NwkOp} (joined : source.Joined) (state : target.state = source.state)
    (same : target.joined = source.joined) : Right ⟨source, op, target⟩ ∧ target.Joined := by
  have stays : target.Joined := by
    intro past
    rw [state] at past
    rw [same]
    exact joined past
  refine ⟨⟨fun idle busy => ?_, fun busy => stays (MngState.past_of_busy busy)⟩, stays⟩
  have contrary : target.state.busy = true := busy
  rw [state] at contrary
  exact absurd (idle.symm.trans contrary) (nomatch ·)

/-- A step that starts a synchronization, or leaves the state. -/
theorem right_iff_past {op : NwkOp} {starts : Prop} [Decidable starts] (joined : source.Joined)
    (state : target.state =
      if source.state.busy = false ∧ starts then .starting else source.state)
    (same : target.joined = source.joined) :
    (Right ⟨source, op, target⟩ ↔ (starts → source.state.Past)) ∧
      ((starts → source.state.Past) → target.Joined) := by
  by_cases start : source.state.busy = false ∧ starts
  · rw [if_pos start] at state
    obtain ⟨idle, asked⟩ := start
    have busy : target.state.busy = true := by rw [state]; rfl
    constructor
    · constructor
      · intro right _
        have configured := right.entered idle busy
        rw [configured]
        exact ⟨(nomatch ·), (nomatch ·)⟩
      · intro ready
        have past := ready asked
        refine ⟨fun _ _ => MngState.configured_of_past past idle, fun _ => ?_⟩
        exact same.trans (joined past)
    · exact fun ready _ => same.trans (joined (ready asked))
  · rw [if_neg start] at state
    obtain ⟨right, stays⟩ := @right_of_same source target op joined state same
    refine ⟨iff_of_true right fun asked => ?_, fun _ => stays⟩
    cases busy : source.state.busy with
    | true => exact MngState.past_of_busy busy
    | false => exact absurd ⟨busy, asked⟩ start

/-- A step is right exactly when it is ready, and then keeps the network joined. -/
theorem right_iff {op : NwkOp} (joined : source.Joined) (step : op.Step source target) :
    (Right ⟨source, op, target⟩ ↔ op.Ready source) ∧ (op.Ready source → target.Joined) := by
  obtain ⟨possible, done⟩ := step
  have settled : Right ⟨source, op, target⟩ ∧ target.Joined → op.Ready source →
      (Right ⟨source, op, target⟩ ↔ op.Ready source) ∧
        (op.Ready source → target.Joined) :=
    fun both ready => ⟨iff_of_true both.1 ready, fun _ => both.2⟩
  cases op with
  | cliProc input host prov =>
      obtain ⟨idle, joined⟩ := cliProc_idle done
      refine settled ⟨⟨fun _ busy => ?_, fun busy => ?_⟩, joined⟩ trivial
      · exact absurd (idle.symm.trans busy) (nomatch ·)
      · exact absurd (idle.symm.trans busy) (nomatch ·)
  | sync start =>
      cases done
      apply right_iff_past joined
      · exact state_clicbSync start source.host.mng
      · rfl
  | seqset seq =>
      cases done
      refine settled (right_of_same joined ?_ rfl) trivial
      obtain ⟨prios, same⟩ := clicbSeqset_eq seq source.host.mng
      change (clicbSeqset seq source.host.mng).state = _
      rw [same]
      rfl
  | freemode on result =>
      cases done
      exact settled (right_of_same joined (clmSetScan_state _ _ _) rfl) trivial
  | rmall input =>
      obtain ⟨host, marks, result⟩ := bind_ok.mp done
      cases result
      exact right_iff_past joined (state_clicbRmall marks) rfl
  | rmblclr input =>
      obtain ⟨host, clears, result⟩ := bind_ok.mp done
      cases result
      exact settled (right_of_same joined (loadFrame_state.clicbRmblclr clears) rfl) trivial
  | starting input =>
      obtain ⟨⟨loaded, host⟩, loads, result⟩ := bind_ok.mp done
      cases result
      exact settled (right_of_same joined (loadFrame_state.startSync loads) rfl) trivial
  | setMngState input =>
      cases done
      cases busy : source.state.busy with
      | false =>
          have stays := setMngState_idle input busy
          refine settled (right_of_same joined ?_ rfl) trivial
          change (Nwmng.setMngState input source.host.mng).state = _
          rw [stays]
          rfl
      | true =>
          have held := joined (MngState.past_of_busy busy)
          refine settled ⟨⟨fun idle => ?_, fun _ => held⟩, fun _ => held⟩ trivial
          exact absurd (busy.symm.trans idle) (nomatch ·)
  | work outcome =>
      cases done
      exact settled (right_of_same joined possible.1 possible.2) trivial

end NwkOp

/-!
## Every run

Being past `configured` implies having joined a network, as long as no command jumps ahead.  A
step that does is wrong at once, which gives the other direction.
-/

/-- In every run, synchronizations are entered from `configured` in a network that was
initialized with success, exactly when the commands that start one wait for that.  They are
accepted in the states before `configured` as well, and lead straight to `starting`. -/
theorem joined_before_active_iff {initial final : NwkState} {past : List (Move NwkState NwkOp)}
    (run : NwkRun initial past final) (unstarted : initial.state = .nil) :
    (∀ move ∈ past, NwkOp.Right move) ↔ Guarded NwkOp.Ready past := by
  have start : initial.Joined := fun begun => absurd unstarted begun.1
  refine run.good_iff_guarded ?_ ?_ start
  · intro move joined step
    exact (NwkOp.right_iff joined step).1
  · intro move joined step right
    obtain ⟨same, stays⟩ := NwkOp.right_iff joined step
    exact stays (same.mp right)

instance MngState.decidablePast (state : MngState) : Decidable state.Past :=
  inferInstanceAs (Decidable (state ≠ .nil ∧ state ≠ .initialized))

instance NwkOp.decidableReady (source : NwkState) : (op : NwkOp) → Decidable (op.Ready source)
  | .sync start => inferInstanceAs (Decidable (start = true → source.state.Past))
  | .rmall input => inferInstanceAs
      (Decidable (source.host.fileLoads input = true → source.state.Past))
  | .cliProc _ _ _ => isTrue trivial
  | .seqset _ => isTrue trivial
  | .freemode _ _ => isTrue trivial
  | .rmblclr _ => isTrue trivial
  | .starting _ => isTrue trivial
  | .setMngState _ => isTrue trivial
  | .work _ => isTrue trivial

instance NwkOp.decidablePossible (nwk : NwkState) : (op : NwkOp) → Decidable (op.Possible nwk)
  | .starting _ => inferInstanceAs (Decidable (nwk.state = .starting))
  | .work outcome => inferInstanceAs
      (Decidable (outcome.state = nwk.state ∧ outcome.joined = nwk.joined))
  | .cliProc _ _ _ => isTrue trivial
  | .sync _ => isTrue trivial
  | .seqset _ => isTrue trivial
  | .freemode _ _ => isTrue trivial
  | .rmall _ => isTrue trivial
  | .rmblclr _ => isTrue trivial
  | .setMngState _ => isTrue trivial

/-- A replay in which every step is possible is a run. -/
theorem nwkRun_of_replays {initial : NwkState} {labels : List NwkOp}
    {test : List (Move NwkState NwkOp) → NwkState → Bool}
    (passed : replays NwkOp.run initial labels (fun past final =>
      decide (Guarded (fun source op => op.Possible source) past) && test past final) =
        true) :
    ∃ past final, NwkRun initial past final ∧ test past final = true := by
  obtain ⟨past, final, run, _, reached⟩ := execution_of_replays passed
  obtain ⟨possible, tested⟩ := Bool.and_eq_true_iff.mp reached
  refine ⟨past, final, run.of_moves fun move member => ?_, tested⟩
  exact ⟨of_decide_eq_true possible move member, run.steps_taken move member⟩

/-- The program before it is started, with the files of the other samples. -/
def NwkState.sample : NwkState where
  host := { AddState.sample.host with mng := AddState.sample.host.mng.setState .nil }
  prov := ProvState.zeroed { content := some newProvFile, mtime := 0 }
  joined := false

/-- The provisioner's configuration, when its file has been loaded. -/
def ProvState.sample : ProvState :=
  match NwkState.sample.prov.loadCfgFile ⟨1, 1⟩ with
  | .ok (_, prov) => prov
  | .error _ => NwkState.sample.prov

/-- The NCP has no network, and creates one. -/
def NwkInput.sample (provInit : UInt16) : NwkInput where
  provInit := provInit
  initialized :=
    { networks := 0, address := 0, ivi := 0, created := bgErrSuccess,
      netkey := { result := bgErrSuccess, index := 0 },
      appkey := fun _ => { result := bgErrSuccess, index := 0 },
      eventClock := fun _ => ⟨2, 2⟩, netkeyClock := fun _ => ⟨2, 2⟩,
      appkeyClock := fun _ _ => ⟨2, 2⟩ }
  models := [bgErrSuccess, bgErrSuccess]
  inDdb := fun _ => false

/-- The network is initialized, a synchronization starts, and adds devices. -/
theorem joined_before_active_iff_configured :
    ∃ past final, NwkRun .sample past final ∧ final.state = .addingDevicesEm ∧
      ∀ move ∈ past, NwkOp.Right move := by
  have passed : replays NwkOp.run .sample
      [.cliProc (.sample bgErrSuccess) NwkState.sample.host .sample, .sync true,
        .starting .sample, .setMngState .sample]
      (fun past final =>
        decide (Guarded (fun source op => NwkOp.Possible source op) past) &&
          decide (Guarded (fun source op => NwkOp.Ready source op) past ∧
            final.state = .addingDevicesEm)) = true := by
    decide +kernel
  obtain ⟨past, final, run, shown⟩ := nwkRun_of_replays passed
  obtain ⟨ready, adding⟩ := of_decide_eq_true shown
  exact ⟨past, final, run, adding, (joined_before_active_iff run rfl).mpr ready⟩

/-- The NCP refuses to be initialized, and the user starts a synchronization all the same. -/
theorem sync_after_failure :
    ¬ ∀ (initial final : NwkState) (past : List (Move NwkState NwkOp)),
      NwkRun initial past final → initial.state = .nil → ∀ move ∈ past, NwkOp.Right move := by
  intro claim
  have passed : replays NwkOp.run .sample
      [.cliProc (.sample 1) NwkState.sample.host .sample, .sync true, .starting .sample,
        .setMngState .sample]
      (fun past final =>
        decide (Guarded (fun source op => NwkOp.Possible source op) past) &&
          past.any fun move => decide (move.target.state = .addingDevicesEm ∧
            move.target.joined = false)) = true := by
    decide +kernel
  obtain ⟨past, final, run, shown⟩ := nwkRun_of_replays passed
  obtain ⟨move, member, adds⟩ := List.any_eq_true.mp shown
  obtain ⟨adding, apart⟩ := of_decide_eq_true adds
  have busy : move.target.state.busy = true := by rw [adding]; rfl
  have joined := (claim _ _ past run rfl move member).joined busy
  exact absurd (apart.symm.trans joined) (nomatch ·)

end Nwmng
