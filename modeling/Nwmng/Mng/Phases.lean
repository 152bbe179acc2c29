/-
Module: Nwmng.Mng.Phases
Purpose: The phases of a synchronization: what moving from phase to phase should do,
and when the function of the source does it.
Trusted boundary: none
Main exports:
  Mng.OwnDone, Mng.entered, Advances, PhaseRight, phaseRight_iff, SyncRun,
  phases_right_iff, blacklisting_never_ends, PhaseFrame
-/
import Nwmng.Config.EngineRun
import Nwmng.Mng.Manager

namespace Nwmng

open Transition

/-!
## What a change of phase should do

What should happen is stated from the lists and the queue of priorities alone: stay while there
is work, else go to the first phase in the queue that has some, else end.
-/

/-- The states in which nodes are added, configured, removed or blacklisted. -/
def MngState.isPhase : MngState → Bool
  | .addingDevicesEm | .configuringDevicesEm | .removingDevicesEm
  | .blacklistingDevicesEm => true
  | _ => false

namespace Mng

/-- The list of the phase itself is empty, and its own caches are idle. -/
def OwnDone (mng : Mng) : Prop :=
  match mng.state with
  | .addingDevicesEm =>
      mng.lists.add = [] ∧ ∀ session, (mng.add session).busy = false
  | .configuringDevicesEm => mng.lists.config = [] ∧ mng.engine.used = 0
  | .removingDevicesEm => mng.lists.rm = [] ∧ mng.engine.used = 0
  | .blacklistingDevicesEm => mng.lists.bl = [] ∧ mng.bl.state = .idle
  | _ => False

/-- Devices were added: their configuration follows at once.  This is the one place where the
order given by the user is left: the configuration of new devices does not wait for its turn. -/
def MoreToConfigure (mng : Mng) : Prop :=
  mng.state = .addingDevicesEm ∧ (mng.lists.config ≠ [] ∨ mng.engine.used ≠ 0)

/-- The phase a priority leads to at this moment, if there is work for it. -/
def entered (mng : Mng) : Prio → Option MngState
  | .a =>
      if mng.lists.add ≠ [] then some .addingDevicesEm
      else if mng.lists.config ≠ [] then some .configuringDevicesEm
      else none
  | .r => if mng.lists.rm ≠ [] then some .removingDevicesEm else none
  | .b => if mng.lists.bl ≠ [] then some .blacklistingDevicesEm else none
  | .stop => none

/-- The priorities in a string up to its first stop. -/
def upToStop (prios : List Prio) : List Prio :=
  prios.takeWhile (· ≠ .stop)

/-- The priorities that have not been tried yet. -/
def remaining (mng : Mng) : List Prio :=
  upToStop (mng.seq.prios.toList.drop mng.seq.offs)

end Mng

/-- The next phase is the first one in the queue that has work, and those behind it
remain; without any, the synchronization is over. -/
inductive Advances (mng : Mng) : List Prio → Mng → Prop where
  | finished {after : Mng} (state : after.state = .configured) : Advances mng [] after
  | enters {rest : List Prio} {prio : Prio} {phase : MngState} {after : Mng}
      (work : mng.entered prio = some phase) (state : after.state = phase)
      (left : after.remaining = rest) : Advances mng (prio :: rest) after
  | skips {rest : List Prio} {prio : Prio} {after : Mng}
      (empty : mng.entered prio = none) (later : Advances mng rest after) :
      Advances mng (prio :: rest) after

/-- What one change of phase should do.  The definition is written from the purpose of the
sequence: wait until the phase is done, then go on to the next list that is not empty, in the
order of the priorities. -/
inductive PhaseRight (before after : Mng) : Prop where
  /-- there is no synchronization to advance -/
  | inactive (passive : before.state.isPhase = false) (other : before.state ≠ .starting)
      (same : after = before)
  | starts (starting : before.state = .starting)
      (advances : Advances before (Mng.upToStop before.seq.prios.toList) after)
  | waits (active : before.state.isPhase = true) (undone : ¬ before.OwnDone)
      (state : after.state = before.state) (seq : after.seq = before.seq)
  | switches (done : before.OwnDone) (more : before.MoreToConfigure)
      (state : after.state = .configuringDevicesEm) (seq : after.seq = before.seq)
  | leaves (active : before.state.isPhase = true) (done : before.OwnDone)
      (less : ¬ before.MoreToConfigure)
      (advances : Advances before before.remaining after)

/-! ## What it does -/

@[simp] theorem Mng.setState_state (mng : Mng) (state : MngState) :
    (mng.setState state).state = state := rfl

@[simp] theorem Mng.setState_seq (mng : Mng) (state : MngState) :
    (mng.setState state).seq = mng.seq := rfl

@[simp] theorem Mng.measure_state (mng : Mng) (change : Stat → Stat) :
    (mng.measure change).state = mng.state := rfl

@[simp] theorem Mng.measure_seq (mng : Mng) (change : Stat → Stat) :
    (mng.measure change).seq = mng.seq := rfl

@[simp] theorem Mng.measure_lists (mng : Mng) (change : Stat → Stat) :
    (mng.measure change).lists = mng.lists := rfl

/-- Scanning for beacons changes the mode only. -/
theorem clmSetScan_eq (status : Nat) (result : UInt16) (mng : Mng) :
    clmSetScan status result mng =
      { mng with freeMode := (clmSetScan status result mng).freeMode } := by
  unfold clmSetScan
  split
  · rfl
  · split
    · split <;> rfl
    · rfl

theorem clmSetScan_state (status : Nat) (result : UInt16) (mng : Mng) :
    (clmSetScan status result mng).state = mng.state := by
  rw [clmSetScan_eq]
  rfl

theorem clmSetScan_seq (status : Nat) (result : UInt16) (mng : Mng) :
    (clmSetScan status result mng).seq = mng.seq := by
  rw [clmSetScan_eq]

theorem clmSetScan_lists (status : Nat) (result : UInt16) (mng : Mng) :
    (clmSetScan status result mng).lists = mng.lists := by
  rw [clmSetScan_eq]
  rfl

/-- What a change of phase does not touch: it writes the state, the place in the priorities,
the mode of the scan and the statistics. -/
structure PhaseFrame {α : Type} (view : Mng → α) : Prop where
  state : ∀ mng state, view (mng.setState state) = view mng
  seq : ∀ mng seq, view { mng with seq := seq } = view mng
  freeMode : ∀ mng mode, view { mng with freeMode := mode } = view mng
  measure : ∀ mng change, view (mng.measure change) = view mng

namespace PhaseFrame

variable {α : Type} {view : Mng → α}

theorem clmSetScan (frame : PhaseFrame view) (status : Nat) (result : UInt16) (mng : Mng) :
    view (clmSetScan status result mng) = view mng := by
  rw [clmSetScan_eq]
  exact frame.freeMode mng _

theorem scanPhases (frame : PhaseFrame view) (input : PhaseInput) (prios : List Prio)
    (mng : Mng) : view (scanPhases input prios mng) = view mng := by
  have finish : ∀ mng, view (finishSync mng) = view mng := by
    intro mng
    exact (frame.seq (mng.setState .configured) _).trans (frame.state mng _)
  induction prios generalizing mng with
  | nil => exact finish mng
  | cons prio rest hypothesis =>
      have next := frame.seq mng { mng.seq with offs := mng.seq.offs + 1 }
      have later := (hypothesis _).trans next
      cases prio with
      | stop => exact finish mng
      | a =>
          rw [Nwmng.scanPhases]
          split
          · rw [frame.state, frame.measure]
            split
            · rw [frame.clmSetScan]
              exact next
            · exact next
          · split
            · rw [frame.state]
              exact next
            · exact later
      | r =>
          rw [Nwmng.scanPhases]
          split
          · exact later
          · rw [frame.state]
            exact next
      | b =>
          rw [Nwmng.scanPhases]
          split
          · exact later
          · rw [frame.state]
            exact next

theorem nextPhase (frame : PhaseFrame view) (input : PhaseInput) (mng : Mng) :
    view (nextPhase input mng) = view mng := frame.scanPhases input _ mng

theorem setMngState (frame : PhaseFrame view) (input : PhaseInput) (mng : Mng) :
    view (setMngState input mng) = view mng := by
  unfold Nwmng.setMngState
  split
  · split
    · rfl
    · have ends : ∀ other : Mng, view
          (if other.lists.config ≠ [] ∨ other.engine.used ≠ 0 then
            other.setState .configuringDevicesEm
          else Nwmng.nextPhase input other) = view other := by
        intro other
        split
        · exact frame.state other _
        · exact frame.nextPhase input other
      dsimp only
      split
      · exact (ends _).trans ((frame.measure _ _).trans (frame.clmSetScan _ _ _))
      · exact (ends _).trans (frame.measure _ _)
  · split
    · rfl
    · rw [frame.nextPhase, frame.measure]
  · split
    · rfl
    · rw [frame.nextPhase, frame.measure]
  · split
    · rfl
    · exact frame.nextPhase input mng
  · rw [frame.nextPhase]
    exact frame.seq mng _
  · rfl

end PhaseFrame

theorem phaseFrame_db : PhaseFrame Mng.db := ⟨fun _ _ => rfl, fun _ _ => rfl, fun _ _ => rfl,
  fun _ _ => rfl⟩

/-- Advancing depends on the lists only. -/
theorem Advances.congr {mng other after : Mng} {queue : List Prio}
    (advances : Advances mng queue after) (lists : other.lists = mng.lists) :
    Advances other queue after := by
  have same : other.entered = mng.entered := by
    funext prio
    cases prio <;> simp [Mng.entered, lists]
  induction advances with
  | finished state => exact .finished state
  | enters work state left => exact .enters (by rw [same]; exact work) state left
  | skips empty _ hypothesis => exact .skips (by rw [same]; exact empty) hypothesis

theorem Mng.upToStop_cons {prio : Prio} (rest : List Prio) (goes : prio ≠ .stop) :
    Mng.upToStop (prio :: rest) = prio :: Mng.upToStop rest := by
  simp [Mng.upToStop, goes]

/-- The loop over the priorities enters the first phase that has work. -/
theorem scanPhases_advances (input : PhaseInput) {prios : List Prio} {mng : Mng}
    (here : mng.seq.prios.toList.drop mng.seq.offs = prios) :
    Advances mng (Mng.upToStop prios) (scanPhases input prios mng) := by
  induction prios generalizing mng with
  | nil => exact .finished rfl
  | cons prio rest hypothesis =>
      let next := { mng with seq := { mng.seq with offs := mng.seq.offs + 1 } }
      have behind : next.seq.prios.toList.drop next.seq.offs = rest := by
        have tail := congrArg List.tail here
        rw [List.tail_drop] at tail
        exact tail
      have later : Advances mng (Mng.upToStop rest) (scanPhases input rest next) :=
        (hypothesis behind).congr rfl
      have left : ∀ after : Mng, after.seq = next.seq →
          after.remaining = Mng.upToStop rest := by
        intro after same
        rw [Mng.remaining, same, behind]
      cases prio with
      | stop => exact .finished rfl
      | a =>
          rw [Mng.upToStop_cons rest (by decide), scanPhases]
          split
          case isTrue adds =>
            have work : mng.entered .a = some .addingDevicesEm := if_pos adds
            apply Advances.enters work
            · rfl
            · apply left
              dsimp only
              split
              · exact clmSetScan_seq ..
              · rfl
          case isFalse none_ =>
            split
            case isTrue configures =>
              have work : mng.entered .a = some .configuringDevicesEm := by
                rw [Mng.entered, if_neg none_, if_pos configures]
              exact .enters work rfl (left _ rfl)
            case isFalse neither =>
              exact .skips (by rw [Mng.entered, if_neg none_, if_neg neither]) later
      | r =>
          rw [Mng.upToStop_cons rest (by decide), scanPhases]
          split
          case isTrue empty => exact .skips (by simp [Mng.entered, empty]) later
          case isFalse some_ =>
            have work : mng.entered .r = some .removingDevicesEm := if_pos some_
            exact .enters work rfl (left _ rfl)
      | b =>
          rw [Mng.upToStop_cons rest (by decide), scanPhases]
          split
          case isTrue empty => exact .skips (by simp [Mng.entered, empty]) later
          case isFalse some_ =>
            have work : mng.entered .b = some .blacklistingDevicesEm := if_pos some_
            exact .enters work rfl (left _ rfl)

/-- Advancing ends the synchronization, or uses up priorities. -/
theorem Advances.shorter {mng after : Mng} {queue : List Prio}
    (advances : Advances mng queue after) :
    after.state = .configured ∨ after.remaining.length < queue.length := by
  induction advances with
  | finished state => exact .inl state
  | enters _ _ left =>
      right
      rw [left]
      exact Nat.lt_succ_self _
  | skips _ _ hypothesis =>
      rcases hypothesis with ends | fewer
      · exact .inl ends
      · exact .inr (Nat.lt_succ_of_lt fewer)

/-- The next phase, chosen after the scan and the statistics have changed. -/
theorem nextPhase_advances (input : PhaseInput) {before mng : Mng}
    (lists : before.lists = mng.lists) (seq : before.seq = mng.seq) :
    Advances before before.remaining (nextPhase input mng) := by
  have same : before.remaining = mng.remaining := by
    rw [Mng.remaining, seq]
    rfl
  rw [same]
  exact (scanPhases_advances input rfl).congr lists

/-- Going through the priorities is not waiting. -/
theorem nextPhase_leaves (input : PhaseInput) {before mng : Mng}
    (active : before.state.isPhase = true)
    (lists : before.lists = mng.lists) (seq : before.seq = mng.seq)
    (state : (nextPhase input mng).state = before.state)
    (same : (nextPhase input mng).seq = before.seq) : False := by
  rcases (nextPhase_advances input lists seq).shorter with ends | fewer
  · rw [← state, ends] at active
    cases active
  · have equal : (nextPhase input mng).remaining = before.remaining := by
      rw [Mng.remaining, same]
      rfl
    rw [equal] at fewer
    exact Nat.lt_irrefl _ fewer

/-!
## When it is right

Each phase tests in its own way whether it is done.  Not every one of these tests looks at the
work that is left, so there are states in which a phase is left too early or not at all.
-/

/-- The state fits the test of the phase: a device that leaves the list of those to
add has left its session too, and the list of the nodes to remove, which the
blacklisting looks at, tells about its own. -/
structure Mng.Fitting (mng : Mng) : Prop where
  adding : mng.state = .addingDevicesEm → mng.lists.add = [] →
    ∀ session, (mng.add session).busy = false
  blacklisting : mng.state = .blacklistingDevicesEm → mng.bl.state = .idle →
    (mng.lists.rm = [] ↔ mng.lists.bl = [])

theorem starting_right (input : PhaseInput) {mng : Mng} (state : mng.state = .starting) :
    PhaseRight mng (setMngState input mng) := by
  refine .starts state ?_
  let reset : Mng := { mng with seq := { mng.seq with offs := 0 } }
  have taken : setMngState input mng = nextPhase input reset := by
    rw [setMngState, state]
  have whole : reset.seq.prios.toList.drop reset.seq.offs = mng.seq.prios.toList :=
    List.drop_zero
  rw [taken, nextPhase, whole]
  exact (scanPhases_advances input whole).congr rfl

/-- Stopping the scan and closing the measurement, before the next phase. -/
def Mng.addEnded (input : PhaseInput) (mng : Mng) : Mng :=
  (if mng.freeMode < 2 then clmSetScan 0 input.stopScan mng else mng).measure
    (·.addEnd input.now)

theorem Mng.addEnded_kept (input : PhaseInput) (mng : Mng) :
    (mng.addEnded input).lists = mng.lists ∧ (mng.addEnded input).seq = mng.seq ∧
      (mng.addEnded input).engine.used = mng.engine.used := by
  unfold addEnded
  split
  · rw [clmSetScan_eq]
    exact ⟨rfl, rfl, rfl⟩
  · exact ⟨rfl, rfl, rfl⟩

theorem setMngState_adding (input : PhaseInput) {mng : Mng}
    (state : mng.state = .addingDevicesEm) (added : mng.lists.add = []) :
    setMngState input mng =
      if mng.lists.config ≠ [] ∨ mng.engine.used ≠ 0 then
        (mng.addEnded input).setState .configuringDevicesEm
      else nextPhase input (mng.addEnded input) := by
  obtain ⟨lists, -, used⟩ := mng.addEnded_kept input
  rw [← lists, ← used, setMngState, state]
  simp only [added, ne_eq, not_true_eq_false, if_false]
  rfl

theorem adding_right (input : PhaseInput) {mng : Mng} (fits : mng.Fitting)
    (state : mng.state = .addingDevicesEm) : PhaseRight mng (setMngState input mng) := by
  have active : mng.state.isPhase = true := by rw [state]; rfl
  by_cases added : mng.lists.add = []
  · have done : mng.OwnDone := by
      rw [Mng.OwnDone, state]
      exact ⟨added, fits.adding state added⟩
    obtain ⟨lists, seq, -⟩ := mng.addEnded_kept input
    rw [setMngState_adding input state added]
    split
    case isTrue more => exact .switches done ⟨state, more⟩ rfl seq
    case isFalse less =>
      exact .leaves active done (fun more => less more.2)
        (nextPhase_advances input lists.symm seq.symm)
  · have waits : setMngState input mng = mng := by
      rw [setMngState, state]
      exact if_pos added
    rw [waits]
    refine .waits active ?_ rfl rfl
    rw [Mng.OwnDone, state]
    exact fun done => added done.1

/-- The phases that work with the slots: their test is the right one. -/
theorem slots_right (input : PhaseInput) {mng : Mng} (change : Stat → Stat)
    (own : List NodeId) (active : mng.state.isPhase = true)
    (less : ¬ mng.MoreToConfigure)
    (test : setMngState input mng =
      if own ≠ [] ∨ mng.engine.used ≠ 0 then mng
      else nextPhase input (mng.measure change))
    (done : mng.OwnDone ↔ own = [] ∧ mng.engine.used = 0) :
    PhaseRight mng (setMngState input mng) := by
  rw [test]
  split
  case isTrue undone =>
    refine .waits active ?_ rfl rfl
    rw [done]
    rintro ⟨empty, free⟩
    rcases undone with some_ | used
    · exact some_ empty
    · exact used free
  case isFalse finished =>
    refine .leaves active ?_ less (nextPhase_advances input rfl rfl)
    rw [done]
    exact ⟨not_not.mp fun some_ => finished (.inl some_),
      not_not.mp fun used => finished (.inr used)⟩

theorem blacklisting_right (input : PhaseInput) {mng : Mng} (fits : mng.Fitting)
    (state : mng.state = .blacklistingDevicesEm) :
    PhaseRight mng (setMngState input mng) := by
  have active : mng.state.isPhase = true := by rw [state]; rfl
  have done : mng.OwnDone ↔ mng.lists.bl = [] ∧ mng.bl.state = .idle := by
    rw [Mng.OwnDone, state]
  rw [setMngState, state]
  dsimp only
  split
  case isTrue undone =>
    refine .waits active ?_ rfl rfl
    rw [done]
    rintro ⟨empty, idle⟩
    rcases undone with some_ | working
    · exact some_ ((fits.blacklisting state idle).mpr empty)
    · exact working idle
  case isFalse finished =>
    obtain ⟨empty, idle⟩ := not_or.mp finished
    have idle := not_not.mp idle
    refine .leaves active ?_ (fun more => ?_) (nextPhase_advances input rfl rfl)
    · exact done.mpr ⟨(fits.blacklisting state idle).mp (not_not.mp empty), idle⟩
    · have other := more.1
      rw [state] at other
      cases other

/-- A state that fits is advanced as it should be. -/
theorem setMngState_right (input : PhaseInput) {mng : Mng} (fits : mng.Fitting) :
    PhaseRight mng (setMngState input mng) := by
  cases state : mng.state with
  | starting => exact starting_right input state
  | addingDevicesEm => exact adding_right input fits state
  | configuringDevicesEm =>
      apply slots_right input (·.configEnd input.now) mng.lists.config
      · rw [state]; rfl
      · intro more
        have other := more.1
        rw [state] at other
        cases other
      · rw [setMngState, state]
      · rw [Mng.OwnDone, state]
  | removingDevicesEm =>
      apply slots_right input (·.rmEnd input.now) mng.lists.rm
      · rw [state]; rfl
      · intro more
        have other := more.1
        rw [state] at other
        cases other
      · rw [setMngState, state]
      · rw [Mng.OwnDone, state]
  | blacklistingDevicesEm => exact blacklisting_right input fits state
  | nil | initialized | configured | stopping | stateReload =>
      refine .inactive ?_ ?_ ?_
      · rw [state]; rfl
      · rw [state]; decide
      · rw [setMngState, state]

/-- Where the addition of devices is left, their sessions are over. -/
theorem PhaseRight.adding {input : PhaseInput} {mng : Mng}
    (right : PhaseRight mng (setMngState input mng)) (state : mng.state = .addingDevicesEm)
    (added : mng.lists.add = []) : mng.OwnDone := by
  have active : mng.state.isPhase = true := by rw [state]; rfl
  cases right with
  | inactive passive => rw [active] at passive; cases passive
  | starts starting => rw [state] at starting; cases starting
  | switches done => exact done
  | leaves _ done => exact done
  | waits _ _ same seq =>
      exfalso
      obtain ⟨lists, kept, -⟩ := mng.addEnded_kept input
      rw [setMngState_adding input state added] at same seq
      split at same
      case isTrue more =>
        rw [state] at same
        cases same
      case isFalse less =>
        rw [if_neg less] at seq
        exact nextPhase_leaves input active lists.symm kept.symm same seq

/-- Where the blacklisting is advanced as it should be, both lists agree. -/
theorem PhaseRight.blacklisting {input : PhaseInput} {mng : Mng}
    (right : PhaseRight mng (setMngState input mng))
    (state : mng.state = .blacklistingDevicesEm) (idle : mng.bl.state = .idle) :
    mng.lists.rm = [] ↔ mng.lists.bl = [] := by
  have active : mng.state.isPhase = true := by rw [state]; rfl
  have done : mng.OwnDone ↔ mng.lists.bl = [] := by
    rw [Mng.OwnDone, state]
    exact and_iff_left idle
  have waiting : mng.lists.rm ≠ [] → setMngState input mng = mng := by
    intro some_
    rw [setMngState, state]
    exact if_pos (.inl some_)
  have going : mng.lists.rm = [] → setMngState input mng = nextPhase input mng := by
    intro empty
    rw [setMngState, state]
    exact if_neg (not_or.mpr ⟨not_not.mpr empty, not_not.mpr idle⟩)
  cases right with
  | inactive passive => rw [active] at passive; cases passive
  | starts starting => rw [state] at starting; cases starting
  | switches _ more =>
      have other := more.1
      rw [state] at other
      cases other
  | waits _ undone same seq =>
      refine ⟨fun empty => ?_, fun empty => absurd (done.mpr empty) undone⟩
      rw [going empty] at same seq
      exact absurd (nextPhase_leaves input active rfl rfl same seq) id
  | leaves _ through _ advances =>
      refine ⟨fun _ => done.mp through, fun _ => ?_⟩
      by_contra some_
      rw [waiting some_] at advances
      rcases advances.shorter with ends | fewer
      · rw [state] at ends
        cases ends
      · exact Nat.lt_irrefl _ fewer

/-- One change of phase is right exactly in a state that fits.  One case for each state of the
manager. -/
theorem phaseRight_iff (input : PhaseInput) (mng : Mng) :
    PhaseRight mng (setMngState input mng) ↔ mng.Fitting := by
  refine ⟨fun right => ⟨fun state added => ?_, right.blacklisting⟩, setMngState_right input⟩
  have done := right.adding state added
  rw [Mng.OwnDone, state] at done
  exact done.2

instance (mng : Mng) : Decidable mng.Fitting :=
  decidable_of_iff
    ((mng.state = .addingDevicesEm → mng.lists.add = [] →
        ∀ session, (mng.add session).busy = false) ∧
      (mng.state = .blacklistingDevicesEm → mng.bl.state = .idle →
        (mng.lists.rm = [] ↔ mng.lists.bl = [])))
    ⟨fun fits => ⟨fits.1, fits.2⟩, fun fits => ⟨fits.adding, fits.blacklisting⟩⟩

/-! ## Runs -/

/-- A step of a synchronization: a change of phase, or any work between two of them.
The work changes neither the state of the manager nor the priorities. -/
inductive SyncOp where
  | work (outcome : Mng)
  | advance (input : PhaseInput)

def SyncOp.run (mng : Mng) : SyncOp → Except Abort Mng
  | .work outcome => .ok { outcome.setState mng.state with seq := mng.seq }
  | .advance input => .ok (setMngState input mng)

abbrev SyncRun := Execution (Succeeds SyncOp.run)

/-- The changes of phase in a run do what they should do. -/
def SyncOp.Right (move : Move Mng SyncOp) : Prop :=
  match move.label with
  | .work _ => True
  | .advance _ => PhaseRight move.source move.target

/-- The changes of phase happen in states that fit. -/
def SyncOp.Fitting (source : Mng) : SyncOp → Prop
  | .work _ => True
  | .advance _ => source.Fitting

instance (source : Mng) : (op : SyncOp) → Decidable (op.Fitting source)
  | .work _ => isTrue trivial
  | .advance _ => inferInstanceAs (Decidable source.Fitting)

theorem SyncOp.right_iff (move : Move Mng SyncOp)
    (taken : Succeeds SyncOp.run move.source move.label move.target) :
    SyncOp.Right move ↔ move.label.Fitting move.source := by
  obtain ⟨source, label, target⟩ := move
  cases label with
  | work outcome => exact Iff.rfl
  | advance input =>
      have same : setMngState input source = target := Except.ok.inj taken
      rw [← same]
      exact phaseRight_iff input source

/-- A synchronization goes through its phases as it should, exactly when each change of phase
happens in a state that fits.  The two directions are proved for one change and lifted to runs,
because a change that goes wrong can be seen at once. -/
theorem phases_right_iff {initial final : Mng} {past : List (Move Mng SyncOp)}
    (run : SyncRun initial past final) :
    (∀ move ∈ past, SyncOp.Right move) ↔ Guarded (fun source op => op.Fitting source) past := by
  let anything : Mng → Prop := fun _ => True
  have start : anything initial := trivial
  refine run.good_iff_guarded ?_ ?_ start
  · intro move _ taken
    exact SyncOp.right_iff move taken
  · intro move _ _ _
    exact trivial

/-- A synchronization that is about to begin, with one node to blacklist before one
to remove. -/
def Mng.beginning : Mng :=
  { Mng.around
      { Engine.small (Node.plain 2) with
        state := .starting
        lists := { Lists.empty with bl := [0], rm := [1] } } with
    seq := { offs := 0, prios := #v[.b, .r, .a] } }

/-- The lists after some work, with idle caches. -/
def Mng.worked (lists : Lists) : Mng := Mng.beginning.setLists lists

/-- With removing first, the synchronization goes through both phases. -/
theorem phases_right_removing :
    ∃ past final,
      SyncRun { Mng.beginning with seq := { offs := 0, prios := #v[.r, .b, .stop] } }
        past final ∧ final.state = .configured ∧ ∀ move ∈ past, SyncOp.Right move := by
  have passed : replays SyncOp.run
      { Mng.beginning with seq := { offs := 0, prios := #v[.r, .b, .stop] } }
      [.advance default, .work (Mng.worked { Lists.empty with bl := [0] }),
        .advance default, .work (Mng.worked Lists.empty), .advance default]
      (fun past final =>
        decide (Guarded (fun source op => SyncOp.Fitting source op) past ∧
          final.state = .configured)) = true := by
    decide +kernel
  obtain ⟨past, final, run, -, reached⟩ := execution_of_replays passed
  obtain ⟨guarded, ended⟩ := of_decide_eq_true reached
  exact ⟨past, final, run, ended, (phases_right_iff run).mpr guarded⟩

/-- With blacklisting first, the node that waits to be removed holds it up: its list
is empty, its cache is idle, and the synchronization does not go on. -/
theorem blacklisting_never_ends :
    ∃ past final, SyncRun Mng.beginning past final ∧
      final.state = .blacklistingDevicesEm ∧ final.OwnDone ∧
      ¬ ∀ move ∈ past, SyncOp.Right move := by
  have passed : replays SyncOp.run Mng.beginning
      [.advance default, .work (Mng.worked { Lists.empty with rm := [1] }), .advance default]
      (fun past final =>
        decide (final.state = .blacklistingDevicesEm ∧ final.lists.bl = [] ∧
          final.bl.state = .idle ∧
          ∃ move ∈ past, ¬ SyncOp.Fitting move.source move.label)) = true := by
    decide +kernel
  obtain ⟨past, final, run, -, reached⟩ := execution_of_replays passed
  obtain ⟨state, empty, idle, move, member, unfit⟩ := of_decide_eq_true reached
  refine ⟨past, final, run, state, ?_, ?_⟩
  · rw [Mng.OwnDone, state]
    exact ⟨empty, idle⟩
  · intro every
    exact unfit ((SyncOp.right_iff move (run.steps_taken move member)).mp (every move member))

end Nwmng
