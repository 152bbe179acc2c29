/-
Module: Nwmng.Mng.Cursors
Purpose: The cursors of the blacklisting over whole runs: what lies between them in
every state, and what has happened to the nodes they have passed.
Trusted boundary: the NCP completes a key refresh only while one is running
Main exports:
  BlStep, blLoop_step, procedure, Covered, Stage, BlOp, BlRun, BlOp.Even,
  cursors_apart_iff, empty_batch_aborts
-/
import Nwmng.Config.EngineRun
import Nwmng.Mng.Blacklist

namespace Nwmng

open Transition Fallible

/-! ## What one call of the loop can do -/

/-- The state behind some nodes that were pushed. -/
def Mng.pushed (mng : Mng) (sent : List NodeId) : Mng :=
  { mng with
    bl := { mng.bl with offset := mng.bl.offset + sent.length }
    history := (sent.map BlEffect.pushed).reverse ++ mng.history }

/-- The nodes that are pushed come first in what is left of the list; none is pushed
only if there is none, or the NCP refuses the first. -/
theorem pushNodes_spec (push : Nat → UInt16) (rest : List NodeId) (mng : Mng) :
    ∃ sent, sent <+: rest ∧ pushNodes push rest mng = mng.pushed sent ∧
      (sent = [] ↔ rest = [] ∨ push mng.bl.offset ≠ bgErrSuccess) := by
  induction rest generalizing mng with
  | nil => exact ⟨[], List.prefix_refl [], rfl, by simp⟩
  | cons node rest hypothesis =>
      rw [pushNodes]
      split
      case isTrue refused => exact ⟨[], List.nil_prefix, rfl, by simp [refused]⟩
      case isFalse taken =>
        obtain ⟨sent, listed, after, -⟩ := hypothesis
          (Mng.remember { mng with bl := { mng.bl with offset := mng.bl.offset + 1 } }
            (.pushed node))
        refine ⟨node :: sent, ?_, ?_, by simp [taken]⟩
        · exact (List.prefix_cons_inj node).mpr listed
        · rw [after]
          simp [Mng.pushed, Mng.remember, Nat.add_comm, Nat.add_left_comm]

theorem blTillOom_ok {push : Nat → UInt16} {mng after : Mng} {cnt : Nat}
    (pushes : blTillOom push mng = .ok (cnt, after)) :
    ∃ sent, sent <+: mng.lists.bl.drop mng.bl.offset ∧ after = mng.pushed sent ∧
      cnt = sent.length ∧
      (mng.lists.bl ≠ [] → (sent = [] ↔ push mng.bl.offset ≠ bgErrSuccess)) := by
  unfold blTillOom at pushes
  split at pushes
  case isTrue empty =>
    cases pushes
    exact ⟨[], List.nil_prefix, rfl, rfl, fun some_ => absurd empty some_⟩
  case isFalse some_ =>
    obtain ⟨_, -, pushes⟩ := bind_ok.mp pushes
    split at pushes
    case isTrue => cases pushes
    case isFalse inside =>
      cases pushes
      obtain ⟨sent, listed, reached, first⟩ :=
        pushNodes_spec push (mng.lists.bl.drop mng.bl.offset) mng
      refine ⟨sent, listed, reached, ?_, fun _ => ?_⟩
      · rw [reached]
        exact Nat.add_sub_cancel_left ..
      · rw [first, List.drop_eq_nil_iff]
        exact or_iff_right inside

/-- What a call of `bl_loop` can do, if it returns.  The lists are cut in batches: `offset` is
behind what was pushed to the NCP, `tail` behind what has been refreshed. -/
inductive BlStep (input : BlInput) (before : Mng) : Mng → Prop where
  | inactive (state : before.bl.state = .idle) (empty : before.lists.bl = []) :
      BlStep input before before
  | begins (rem : Option (List (NodeId × UInt8))) (sent : List NodeId)
      (state : before.bl.state = .idle) (some_ : before.lists.bl ≠ [])
      (listed : sent <+: before.lists.bl.drop before.bl.offset)
      (first : sent = [] ↔ input.push before.bl.offset ≠ bgErrSuccess) :
      BlStep input before
        (((((before.measure (·.blStart input.now)).remember .began).setRem rem).pushed
          sent).setBlState
            (if before.bl.offset + sent.length = before.lists.bl.length then .starting
              else .prepare))
  | pushes (sent : List NodeId) (state : before.bl.state = .prepare)
      (listed : sent <+: before.lists.bl.drop before.bl.offset)
      (first : before.lists.bl ≠ [] →
        (sent = [] ↔ input.push before.bl.offset ≠ bgErrSuccess)) :
      BlStep input before
        ((before.pushed sent).setBlState
          (if sent = [] ∨ before.bl.offset + sent.length = before.lists.bl.length then
              .starting
            else .prepare))
  | starts (state : before.bl.state = .starting)
      (apart : before.bl.offset ≠ before.bl.tail) :
      BlStep input before ((before.remember .started).setBlState .busy)
  | waits (state : before.bl.state = .busy) : BlStep input before before
  | more (db : CfgDb) (state : before.bl.state = .done)
      (blacklists : blacklistNodes before.batch before.db = .ok db)
      (left : before.bl.offset ≠ before.lists.bl.length) :
      BlStep input before
        { before.setDb db with
          bl := { before.bl with state := .starting, tail := before.bl.offset } }
  | ends (db : CfgDb) (state : before.bl.state = .done)
      (blacklists : blacklistNodes before.batch before.db = .ok db)
      (whole : before.bl.offset = before.lists.bl.length) :
      BlStep input before
        (Mng.measure
          { (before.setDb db).setLists { before.lists with bl := [] } with
            bl := BlCache.zeroed }
          (·.blEnd input.now))

theorem blBegin_step {input : BlInput} {before after : Mng}
    (state : before.bl.state = .idle) (some_ : before.lists.bl ≠ [])
    (begins : blBegin input before = .ok after) : BlStep input before after := by
  simp only [blBegin, bind_ok] at begins
  obtain ⟨rem, -, ⟨cnt, pushed⟩, pushes, sets⟩ := begins
  obtain ⟨sent, listed, rfl, -, first⟩ := blTillOom_ok pushes
  have step := BlStep.begins rem sent state some_ listed (first some_)
  split at sets
  case isTrue whole =>
    cases sets
    change before.bl.offset + sent.length = before.lists.bl.length at whole
    rwa [if_pos whole] at step
  case isFalse part =>
    cases sets
    change ¬ before.bl.offset + sent.length = before.lists.bl.length at part
    rwa [if_neg part] at step

theorem onBlDone_step {input : BlInput} {before after : Mng}
    (state : before.bl.state = .done)
    (ends : onBlDone input.now before = .ok after) : BlStep input before after := by
  simp only [onBlDone, bind_ok] at ends
  obtain ⟨db, blacklists, ends⟩ := ends
  split at ends
  case isTrue => cases ends
  case isFalse =>
    split at ends
    case isTrue left =>
      cases ends
      exact .more db state blacklists left
    case isFalse whole =>
      cases ends
      exact .ends db state blacklists (not_not.mp whole)

/-- Every call of `bl_loop` that returns is one of these steps.  It is the inversion from which
every invariant of the machine is derived. -/
theorem blLoop_step {input : BlInput} {before after : Mng}
    (loops : blLoop input before = .ok after) : BlStep input before after := by
  unfold blLoop at loops
  cases state : before.bl.state with
  | idle =>
      simp only [state] at loops
      split at loops
      case isTrue empty =>
        cases loops
        exact .inactive state empty
      case isFalse some_ => exact blBegin_step state some_ loops
  | prepare =>
      simp only [state, bind_ok] at loops
      obtain ⟨⟨cnt, pushed⟩, pushes, sets⟩ := loops
      obtain ⟨sent, listed, rfl, rfl, first⟩ := blTillOom_ok pushes
      have step := BlStep.pushes sent state listed first
      have kept : (before.pushed sent).setBlState .prepare = before.pushed sent := by
        rw [← state]
        rfl
      split at sets
      case isTrue through =>
        cases sets
        change sent.length = 0 ∨ before.bl.offset + sent.length = before.lists.bl.length
          at through
        rw [List.length_eq_zero_iff] at through
        rwa [if_pos through] at step
      case isFalse goes =>
        cases sets
        change ¬ (sent.length = 0 ∨
          before.bl.offset + sent.length = before.lists.bl.length) at goes
        rw [List.length_eq_zero_iff] at goes
        rwa [if_neg goes, kept] at step
  | starting =>
      simp only [state] at loops
      split at loops
      case isTrue => cases loops
      case isFalse apart =>
        obtain ⟨started, starts, sets⟩ := bind_ok.mp loops
        unfold krStart at starts
        obtain ⟨_, -, starts⟩ := bind_ok.mp starts
        split at starts
        case isTrue => cases starts
        case isFalse =>
          cases starts
          cases sets
          exact .starts state apart
  | busy =>
      simp only [state, Except.ok.injEq] at loops
      rw [← loops]
      exact .waits state
  | done =>
      simp only [state] at loops
      exact onBlDone_step state loops

/-!
## The history of a procedure

The effects since the blacklisting began say which nodes were pushed and which key refreshes were
started and completed.  The cursors are compared with this history, not with each other.
-/

/-- What has happened since the blacklisting began, newest first. -/
def procedure (history : List BlEffect) : List BlEffect :=
  history.takeWhile (· ≠ .began)

/-- In this procedure the node was pushed, and a key refresh that was started behind
the push has completed. -/
def Covered (history : List BlEffect) (result : UInt16) (node : NodeId) : Prop :=
  [.completed result, .started, .pushed node].Sublist (procedure history)

/-- A key refresh that was started has not completed yet. -/
def refreshing : List BlEffect → Bool
  | [] => false
  | .started :: _ => true
  | .completed _ :: _ => false
  | _ :: rest => refreshing rest

/-- The pushes of the nodes before the cursor, newest first. -/
def Mng.passed (mng : Mng) : List BlEffect :=
  ((mng.lists.bl.take mng.bl.offset).map BlEffect.pushed).reverse

theorem procedure_pushed (sent : List NodeId) (history : List BlEffect) :
    procedure ((sent.map BlEffect.pushed).reverse ++ history) =
      (sent.map BlEffect.pushed).reverse ++ procedure history := by
  apply List.takeWhile_append_of_pos
  intro effect member
  obtain ⟨node, -, rfl⟩ := List.mem_map.mp (List.mem_reverse.mp member)
  rfl

theorem refreshing_pushed (sent : List NodeId) (history : List BlEffect) :
    refreshing ((sent.map BlEffect.pushed).reverse ++ history) = refreshing history := by
  induction sent generalizing history with
  | nil => rfl
  | cons node rest hypothesis =>
      rw [List.map_cons, List.reverse_cons, List.append_assoc, hypothesis]
      rfl

/-- The cursor passes the nodes that are pushed. -/
theorem Mng.passed_pushed {mng : Mng} {sent : List NodeId}
    (listed : sent <+: mng.lists.bl.drop mng.bl.offset) :
    (mng.pushed sent).passed = (sent.map BlEffect.pushed).reverse ++ mng.passed := by
  have taken : mng.lists.bl.take (mng.bl.offset + sent.length) =
      mng.lists.bl.take mng.bl.offset ++ sent := by
    rw [List.take_add, ← List.prefix_iff_eq_take.mp listed]
  change ((mng.lists.bl.take (mng.bl.offset + sent.length)).map BlEffect.pushed).reverse = _
  rw [taken, List.map_append, List.reverse_append]
  rfl

theorem Mng.offset_pushed {mng : Mng} {sent : List NodeId}
    (listed : sent <+: mng.lists.bl.drop mng.bl.offset)
    (within : mng.bl.offset ≤ mng.lists.bl.length) :
    mng.bl.offset + sent.length ≤ mng.lists.bl.length := by
  have short := listed.length_le
  rw [List.length_drop] at short
  omega

/-! ## What lies between the cursors -/

/-- The cursors and the history in each state of the machine.  Behind a batch that was
not the whole list the machine is about to start without a node. -/
def Stage (mng : Mng) : Prop :=
  match mng.bl.state with
  | .idle => mng.bl.offset = 0 ∧ mng.bl.tail = 0
  | .prepare =>
      mng.bl.tail = 0 ∧ mng.bl.offset < mng.lists.bl.length ∧
        procedure mng.history = mng.passed
  | .starting =>
      mng.bl.offset = mng.bl.tail ∨
        (mng.bl.tail = 0 ∧ mng.bl.offset ≤ mng.lists.bl.length ∧
          procedure mng.history = mng.passed)
  | .busy =>
      mng.bl.tail = 0 ∧ 0 < mng.bl.offset ∧ mng.bl.offset ≤ mng.lists.bl.length ∧
        procedure mng.history = .started :: mng.passed
  | .done =>
      mng.bl.tail = 0 ∧ 0 < mng.bl.offset ∧ mng.bl.offset ≤ mng.lists.bl.length ∧
        ∃ result, procedure mng.history = .completed result :: .started :: mng.passed

/-- The invariant of the machine: its stage, and that a key refresh runs only while
the machine waits for it. -/
structure BlInvariant (mng : Mng) : Prop where
  stage : Stage mng
  quiet : mng.bl.state ≠ .busy → refreshing mng.history = false

/-- Behind some pushes, the machine is ready for more, or to start. -/
theorem Stage.behind_pushes {mng : Mng} {sent : List NodeId} (tail : mng.bl.tail = 0)
    (within : mng.bl.offset ≤ mng.lists.bl.length)
    (listed : sent <+: mng.lists.bl.drop mng.bl.offset)
    (history : procedure mng.history = mng.passed) (through : Prop) [Decidable through]
    (whole : mng.bl.offset + sent.length = mng.lists.bl.length → through) :
    Stage ((mng.pushed sent).setBlState (if through then .starting else .prepare)) := by
  have bound := Mng.offset_pushed listed within
  have after : procedure (mng.pushed sent).history = (mng.pushed sent).passed := by
    rw [Mng.passed_pushed listed, ← history]
    exact procedure_pushed sent mng.history
  split
  case isTrue => exact .inr ⟨tail, bound, after⟩
  case isFalse goes =>
    have part := fun equal => goes (whole equal)
    exact ⟨tail, Nat.lt_of_le_of_ne bound part, after⟩

theorem Stage.iterate {input : BlInput} {before after : Mng} (stage : Stage before)
    (step : BlStep input before after) : Stage after := by
  cases step with
  | inactive state => exact stage
  | waits state => exact stage
  | begins rem sent state some_ listed first =>
      simp only [Stage, state] at stage
      obtain ⟨offset, tail⟩ := stage
      let begun := ((before.measure (·.blStart input.now)).remember .began).setRem rem
      have within : begun.bl.offset ≤ begun.lists.bl.length := by
        change before.bl.offset ≤ _
        rw [offset]
        exact Nat.zero_le _
      have history : procedure begun.history = begun.passed := by
        change [] = ((before.lists.bl.take before.bl.offset).map BlEffect.pushed).reverse
        rw [offset]
        rfl
      have still : begun.bl.tail = 0 := tail
      have ahead : sent <+: begun.lists.bl.drop begun.bl.offset := listed
      exact Stage.behind_pushes still within ahead history _ (fun whole => whole)
  | pushes sent state listed first =>
      simp only [Stage, state] at stage
      obtain ⟨tail, behind, history⟩ := stage
      exact Stage.behind_pushes tail (Nat.le_of_lt behind) listed history _ .inr
  | starts state apart =>
      simp only [Stage, state] at stage
      rcases stage with equal | ⟨tail, within, history⟩
      · exact absurd equal apart
      · have some_ : 0 < before.bl.offset := by
          rw [tail] at apart
          exact Nat.pos_of_ne_zero apart
        refine ⟨tail, some_, within, ?_⟩
        change BlEffect.started :: procedure before.history = _
        rw [history]
        rfl
  | more db state blacklists left => exact .inl rfl
  | ends db state blacklists whole => exact ⟨rfl, rfl⟩

/-- A call of the loop keeps the invariant. -/
theorem BlInvariant.iterate {input : BlInput} {before after : Mng}
    (inv : BlInvariant before) (step : BlStep input before after) : BlInvariant after := by
  refine ⟨inv.stage.iterate step, fun idle => ?_⟩
  cases step with
  | inactive state => exact inv.quiet idle
  | waits state => exact absurd state idle
  | begins rem sent state some_ listed first =>
      refine (refreshing_pushed sent _).trans ?_
      apply inv.quiet
      rw [state]
      decide
  | pushes sent state listed first =>
      refine (refreshing_pushed sent _).trans ?_
      apply inv.quiet
      rw [state]
      decide
  | starts state apart => exact absurd rfl idle
  | more db state blacklists left =>
      apply inv.quiet
      rw [state]
      decide
  | ends db state blacklists whole =>
      apply inv.quiet
      rw [state]
      decide

/-! ## Runs -/

/-- A step of the machine, or of the rest of the program.  The rest leaves the list and the
machine alone; what it may do besides is arbitrary. -/
inductive BlOp where
  /-- one call of `bl_loop` -/
  | iterate (input : BlInput)
  /-- one call of `bl_hdr` -/
  | receive (packet : BlEvent) (rsp : KeyRsp)
  /-- anything else the program does between two steps -/
  | outside (outcome : Mng)

def BlOp.run (mng : Mng) : BlOp → Except Abort Mng
  | .iterate input => blLoop input mng
  | .receive packet rsp => blHdr packet rsp mng
  | .outside outcome => .ok outcome

/-- What can happen in a state: the NCP completes a key refresh only while one is
running, and the rest of the program leaves the machine alone, and the list it works
on. -/
def BlOp.Possible (mng : Mng) : BlOp → Prop
  | .iterate _ => True
  | .receive (.complete _ _) _ => refreshing mng.history = true
  | .receive _ _ => True
  | .outside outcome =>
      outcome.bl = mng.bl ∧ outcome.history = mng.history ∧
        (mng.bl.state ≠ .idle → outcome.lists.bl = mng.lists.bl)

def BlOp.Step (source : Mng) (op : BlOp) (target : Mng) : Prop :=
  op.Possible source ∧ Succeeds BlOp.run source op target

abbrev BlRun := Execution BlOp.Step

/-- The machine as `mng_init` leaves it. -/
def Mng.BlFresh (mng : Mng) : Prop := mng.bl = BlCache.zeroed ∧ mng.history = []

theorem Mng.BlFresh.invariant {mng : Mng} (fresh : mng.BlFresh) : BlInvariant mng where
  stage := by
    rw [Stage, fresh.1]
    exact ⟨rfl, rfl⟩
  quiet := by
    intro _
    rw [fresh.2]
    rfl

/-- What an event can do: note the phase of a node, or the end of a key refresh. -/
theorem blHdr_cases {packet : BlEvent} {rsp : KeyRsp} {before after : Mng}
    (handled : blHdr packet rsp before = .ok after) :
    (∃ rem, after = before.setRem rem) ∨
      ∃ key result cfg, packet = .complete key result ∧
        after = ((before.setBlState .done).remember (.completed result)).setCfg cfg ∧
        (result ≠ 0 → cfg = before.cfg) := by
  unfold blHdr at handled
  split at handled
  case isFalse =>
    cases handled
    exact .inl ⟨before.bl.rem, rfl⟩
  case isTrue active =>
    cases packet with
    | nodeUpdate key phase uuid =>
        cases handled
        exact .inl ⟨_, rfl⟩
    | phaseUpdate key phase =>
        cases handled
        exact .inl ⟨before.bl.rem, rfl⟩
    | complete key result =>
        right
        simp only [krFinish] at handled
        split at handled
        case isTrue failed =>
          cases handled
          exact ⟨key, result, before.cfg, rfl, rfl, fun _ => rfl⟩
        case isFalse succeeded =>
          split at handled
          · cases handled
          · cases handled
            exact ⟨key, result, _, rfl, rfl, fun failed => absurd failed succeeded⟩

theorem BlInvariant.receive {packet : BlEvent} {rsp : KeyRsp} {before after : Mng}
    (inv : BlInvariant before) (possible : (BlOp.receive packet rsp).Possible before)
    (handled : blHdr packet rsp before = .ok after) : BlInvariant after := by
  rcases blHdr_cases handled with ⟨rem, rfl⟩ | ⟨key, result, cfg, rfl, rfl, -⟩
  · exact ⟨inv.stage, inv.quiet⟩
  · have running : refreshing before.history = true := possible
    have state : before.bl.state = .busy := by
      by_contra other
      rw [inv.quiet other] at running
      cases running
    have stage := inv.stage
    simp only [Stage, state] at stage
    obtain ⟨tail, some_, within, history⟩ := stage
    refine ⟨⟨tail, some_, within, result, ?_⟩, fun _ => rfl⟩
    change BlEffect.completed result :: procedure before.history = _
    rw [history]
    rfl

/-- Every step keeps the invariant. -/
theorem BlInvariant.step {before after : Mng} {op : BlOp} (inv : BlInvariant before)
    (taken : op.Step before after) : BlInvariant after := by
  obtain ⟨possible, runs⟩ := taken
  cases op with
  | iterate input => exact inv.iterate (blLoop_step runs)
  | receive packet rsp => exact inv.receive possible runs
  | outside outcome =>
      cases runs
      obtain ⟨machine, history, listed⟩ := possible
      refine ⟨?_, ?_⟩
      · have stage := inv.stage
        by_cases idle : before.bl.state = .idle
        · simp only [Stage, idle] at stage
          rw [Stage, machine, idle]
          exact stage
        · rw [Stage, Mng.passed, machine, history, listed idle]
          exact stage
      · rw [machine, history]
        exact inv.quiet

/-!
## When the cursors stay apart

The assertion of the starting state wants a node between the cursors.  It fails when a batch ends
before a node was taken, which takes two refusals in a row.
-/

/-- The assertion of the starting state holds.  A key refresh is started only for a batch in
which there is something. -/
def Mng.Ready (mng : Mng) : Prop :=
  mng.bl.state = .starting → mng.bl.tail < mng.bl.offset

/-- A move leaves a node between the cursors for the start of a key refresh, and where
it ends the procedure, every node of the list is covered by a key refresh. -/
structure BlOp.Apart (move : Move Mng BlOp) : Prop where
  cursors : move.target.bl.state = .starting →
    move.target.bl.tail < move.target.bl.offset ∧
      move.target.bl.offset ≤ move.target.lists.bl.length
  asserted : move.target.bl.state = .starting →
    ∀ input, blLoop input move.target ≠ .error .blacklistCursor
  covered : move.source.bl.state ≠ .idle → move.target.bl.state = .idle →
    ∀ node ∈ move.source.lists.bl, ∃ result, Covered move.source.history result node

/-- The NCP takes at least one node before it refuses one twice in a row, and a key
refresh ends only when the whole list was pushed. -/
def BlOp.Even (mng : Mng) : BlOp → Prop
  | .iterate input =>
      (mng.bl.state = .prepare → mng.bl.offset = 0 → input.push 0 = bgErrSuccess) ∧
        (mng.bl.state = .done → mng.bl.offset = mng.lists.bl.length)
  | _ => True

instance (mng : Mng) : (op : BlOp) → Decidable (op.Even mng)
  | .iterate input =>
      inferInstanceAs (Decidable
        ((mng.bl.state = .prepare → mng.bl.offset = 0 → input.push 0 = bgErrSuccess) ∧
          (mng.bl.state = .done → mng.bl.offset = mng.lists.bl.length)))
  | .receive .. => isTrue trivial
  | .outside .. => isTrue trivial

/-- In a state that is ready, the assertion is not what a call can fail with. -/
theorem blLoop_asserted {mng : Mng} (ready : mng.Ready) (state : mng.bl.state = .starting)
    (input : BlInput) : blLoop input mng ≠ .error .blacklistCursor := by
  have apart : mng.bl.offset ≠ mng.bl.tail := Nat.ne_of_gt (ready state)
  have read : FailsOnly (· ≠ .blacklistCursor) mng.engine.host.netkeyId := by
    rw [Host.netkeyId, failsOnly_bind, Host.subnet]
    cases mng.engine.host.cfg.subnets <;> simp
  have only : FailsOnly (· ≠ .blacklistCursor) (blLoop input mng) := by
    unfold blLoop
    rw [state]
    simp [apart, krStart, failsOnly_bind, failsOnly_ite, read]
  intro fails
  exact only _ fails rfl

theorem BlInvariant.within {mng : Mng} (inv : BlInvariant mng) (ready : mng.Ready)
    (state : mng.bl.state = .starting) : mng.bl.offset ≤ mng.lists.bl.length := by
  have stage := inv.stage
  simp only [Stage, state] at stage
  rcases stage with equal | ⟨-, within, -⟩
  · have apart := ready state
    rw [equal] at apart
    exact absurd apart (Nat.lt_irrefl _)
  · exact within

/-- Pushing leads to a state that is ready, exactly when the NCP takes a node that is
the first of the list. -/
theorem ready_pushes {mng : Mng} {sent : List NodeId} {result : UInt16}
    (tail : mng.bl.tail = 0) (first : sent = [] ↔ result ≠ bgErrSuccess) :
    ((mng.pushed sent).setBlState
      (if sent = [] ∨ mng.bl.offset + sent.length = mng.lists.bl.length then .starting
        else .prepare)).Ready ↔ (mng.bl.offset = 0 → result = bgErrSuccess) := by
  by_cases refused : sent = []
  · have through : sent = [] ∨ mng.bl.offset + sent.length = mng.lists.bl.length := .inl refused
    have failed := first.mp refused
    rw [if_pos through]
    constructor
    · intro ready zero
      have apart : mng.bl.tail < mng.bl.offset + sent.length := ready rfl
      rw [tail, zero, refused] at apart
      exact absurd apart (Nat.lt_irrefl 0)
    · intro even _
      have later : mng.bl.offset ≠ 0 := fun zero => failed (even zero)
      change mng.bl.tail < mng.bl.offset + sent.length
      rw [tail, refused]
      exact Nat.pos_of_ne_zero later
  · have taken : result = bgErrSuccess := by
      by_contra failed
      exact refused (first.mpr failed)
    have grown : 0 < sent.length := List.length_pos_iff.mpr refused
    refine ⟨fun _ _ => taken, fun _ _ => ?_⟩
    change mng.bl.tail < mng.bl.offset + sent.length
    rw [tail]
    exact Nat.add_pos_right _ grown

/-- A call of the loop leads to a state that is ready, exactly when it is even. -/
theorem ready_iff_even {input : BlInput} {before after : Mng} (inv : BlInvariant before)
    (ready : before.Ready) (step : BlStep input before after) :
    after.Ready ↔ (BlOp.iterate input).Even before := by
  have stage := inv.stage
  cases step with
  | inactive state =>
      exact iff_of_true ready ⟨by simp [state], by simp [state]⟩
  | waits state =>
      exact iff_of_true ready ⟨by simp [state], by simp [state]⟩
  | begins rem sent state some_ listed first =>
      refine iff_of_true (fun starts => ?_) ⟨by simp [state], by simp [state]⟩
      simp only [Stage, state] at stage
      obtain ⟨offset, tail⟩ := stage
      have whole : before.bl.offset + sent.length = before.lists.bl.length := by
        by_contra part
        simp [Mng.setBlState, part] at starts
      change before.bl.tail < before.bl.offset + sent.length
      rw [tail, whole]
      exact List.length_pos_iff.mpr some_
  | pushes sent state listed first =>
      simp only [Stage, state] at stage
      obtain ⟨tail, behind, -⟩ := stage
      have some_ : 0 < before.lists.bl.length := Nat.zero_lt_of_lt behind
      rw [ready_pushes tail (first (List.length_pos_iff.mp some_)), BlOp.Even]
      constructor
      · intro even
        exact ⟨fun _ zero => zero ▸ even zero, by simp [state]⟩
      · intro even zero
        rw [zero]
        exact even.1 state zero
  | starts state apart =>
      exact iff_of_true (fun starts => by cases starts) ⟨by simp [state], by simp [state]⟩
  | more db state blacklists left =>
      refine iff_of_false (fun ready => ?_) (fun even => left (even.2 state))
      exact Nat.lt_irrefl _ (ready rfl)
  | ends db state blacklists whole =>
      exact iff_of_true (fun starts => by cases starts) ⟨by simp [state], fun _ => whole⟩

/-- Where a call ends the procedure, the key refresh has covered the whole list. -/
theorem Stage.covered {input : BlInput} {before after : Mng} (stage : Stage before)
    (step : BlStep input before after) (works : before.bl.state ≠ .idle)
    (idle : after.bl.state = .idle) :
    ∀ node ∈ before.lists.bl, ∃ result, Covered before.history result node := by
  cases step with
  | inactive state => exact absurd state works
  | begins rem sent state => exact absurd state works
  | waits state => exact absurd idle works
  | starts => cases idle
  | more => cases idle
  | pushes sent state =>
      simp only [Mng.setBlState] at idle
      split at idle <;> cases idle
  | ends db state blacklists whole =>
      simp only [Stage, state] at stage
      obtain ⟨-, -, -, result, history⟩ := stage
      intro node member
      refine ⟨result, ?_⟩
      rw [Covered, history, Mng.passed, whole, List.take_length]
      have push : BlEffect.pushed node ∈ (before.lists.bl.map BlEffect.pushed).reverse := by
        rw [List.mem_reverse]
        exact List.mem_map_of_mem member
      exact ((List.singleton_sublist.mpr push).cons_cons _).cons_cons _

/-- An event leads to a state that is ready, and ends no procedure. -/
theorem receive_ready {packet : BlEvent} {rsp : KeyRsp} {before after : Mng}
    (ready : before.Ready) (handled : blHdr packet rsp before = .ok after) :
    after.Ready ∧ (after.bl.state = .idle → before.bl.state = .idle) := by
  rcases blHdr_cases handled with ⟨rem, rfl⟩ | ⟨key, result, cfg, -, rfl, -⟩
  · exact ⟨ready, id⟩
  · exact ⟨fun starts => (by cases starts), fun idle => (by cases idle)⟩

theorem BlOp.ready_iff {before after : Mng} {op : BlOp} (inv : BlInvariant before)
    (ready : before.Ready) (taken : op.Step before after) :
    after.Ready ↔ op.Even before := by
  obtain ⟨possible, runs⟩ := taken
  cases op with
  | iterate input => exact ready_iff_even inv ready (blLoop_step runs)
  | receive packet rsp => exact iff_of_true (receive_ready ready runs).1 trivial
  | outside outcome =>
      cases runs
      refine iff_of_true ?_ trivial
      rw [Mng.Ready, possible.1]
      exact ready

/-- A step that ends the procedure ends it with the whole list covered. -/
theorem BlOp.Step.covered {before after : Mng} {op : BlOp} (inv : BlInvariant before)
    (ready : before.Ready) (taken : op.Step before after)
    (works : before.bl.state ≠ .idle) (idle : after.bl.state = .idle) :
    ∀ node ∈ before.lists.bl, ∃ result, Covered before.history result node := by
  obtain ⟨possible, runs⟩ := taken
  cases op with
  | iterate input => exact inv.stage.covered (blLoop_step runs) works idle
  | receive packet rsp => exact absurd ((receive_ready ready runs).2 idle) works
  | outside outcome =>
      cases runs
      rw [possible.1] at idle
      exact absurd idle works

theorem BlOp.apart_iff (move : Move Mng BlOp) (inv : BlInvariant move.source)
    (ready : move.source.Ready) (taken : move.label.Step move.source move.target) :
    BlOp.Apart move ↔ move.label.Even move.source := by
  rw [← BlOp.ready_iff inv ready taken]
  constructor
  · intro apart state
    exact (apart.cursors state).1
  · intro following
    refine ⟨fun state => ?_, blLoop_asserted following, taken.covered inv ready⟩
    exact ⟨following state, (inv.step taken).within following state⟩

/-! ## Replays -/

instance (mng : Mng) : (op : BlOp) → Decidable (op.Possible mng)
  | .iterate _ => isTrue trivial
  | .receive (.complete _ _) _ =>
      inferInstanceAs (Decidable (refreshing mng.history = true))
  | .receive (.nodeUpdate ..) _ => isTrue trivial
  | .receive (.phaseUpdate ..) _ => isTrue trivial
  | .outside outcome =>
      inferInstanceAs (Decidable (outcome.bl = mng.bl ∧ outcome.history = mng.history ∧
        (mng.bl.state ≠ .idle → outcome.lists.bl = mng.lists.bl)))

/-- A replay in which every step is possible is a run of the machine. -/
theorem blRun_of_replays {initial : Mng} {labels : List BlOp}
    {test : List (Move Mng BlOp) → Mng → Bool}
    (passed : replays BlOp.run initial labels (fun past final =>
      decide (Guarded (fun source op => op.Possible source) past) && test past final) =
        true) :
    ∃ past final, BlRun initial past final ∧ past.map Move.label = labels ∧
      test past final = true := by
  obtain ⟨past, final, run, same, reached⟩ := execution_of_replays passed
  obtain ⟨possible, tested⟩ := Bool.and_eq_true_iff.mp reached
  refine ⟨past, final, run.of_moves fun move member => ?_, same, tested⟩
  exact ⟨of_decide_eq_true possible move member, run.steps_taken move member⟩

/-- A manager that is about to blacklist the only node of its network. -/
def Mng.listing : Mng :=
  Mng.around
    { Engine.small (Node.plain 2) with
      state := .blacklistingDevicesEm
      lists := { Lists.empty with bl := [0] } }

theorem Mng.listing_fresh : Mng.listing.BlFresh := ⟨rfl, rfl⟩

/-- The NCP gives the same answer to every push, and starts the key refresh. -/
def BlInput.all (push : UInt16) : BlInput :=
  { now := 0, push := fun _ => push, keyRefresh := bgErrSuccess }

/-- The network key that the NCP reports. -/
def KeyRsp.found : KeyRsp := { result := bgErrSuccess, key := Vector.replicate 16 7 }

/-- The cursors of the blacklisting stay apart, and a procedure that ends has covered its list,
exactly when the answers of the NCP do not split the list.  An NCP without memory ends a batch
early: nothing may have been pushed then, or only a part of the list. -/
theorem cursors_apart_iff {initial final : Mng} {past : List (Move Mng BlOp)}
    (run : BlRun initial past final) (fresh : initial.BlFresh) :
    (∀ move ∈ past, BlOp.Apart move) ↔ Guarded (fun source op => op.Even source) past := by
  let kept : Mng → Prop := fun mng => BlInvariant mng ∧ mng.Ready
  have start : kept initial := by
    refine ⟨fresh.invariant, fun state => ?_⟩
    rw [fresh.1] at state
    cases state
  refine run.good_iff_guarded ?_ ?_ start
  · intro move holds taken
    exact BlOp.apart_iff move holds.1 holds.2 taken
  · intro move holds taken apart
    exact ⟨holds.1.step taken, fun state => (apart.cursors state).1⟩

/-- A node that is pushed at once is covered by one key refresh. -/
theorem cursors_apart_at_once :
    ∃ past final, BlRun Mng.listing past final ∧ final.bl.state = .idle ∧
      final.lists.bl = [] ∧ ∀ move ∈ past, BlOp.Apart move := by
  have passed : replays BlOp.run Mng.listing
      [.iterate (.all bgErrSuccess), .iterate (.all bgErrSuccess),
        .receive (.complete 1 0) .found, .iterate (.all bgErrSuccess)]
      (fun past final =>
        decide (Guarded (fun source op => BlOp.Possible source op) past) &&
          decide (Guarded (fun source op => BlOp.Even source op) past ∧
            final.bl.state = .idle ∧ final.lists.bl = [])) = true := by
    decide +kernel
  obtain ⟨past, final, run, -, reached⟩ := blRun_of_replays passed
  obtain ⟨even, idle, empty⟩ := of_decide_eq_true reached
  exact ⟨past, final, run, idle, empty,
    (cursors_apart_iff run Mng.listing_fresh).mpr even⟩

/-- When the NCP has no memory twice before it has taken a node, the machine is to
start a key refresh for none, and the assertion stops the program. -/
theorem empty_batch_aborts :
    ∃ past final, BlRun Mng.listing past final ∧ final.bl.state = .starting ∧
      final.bl.offset = final.bl.tail ∧
      (∀ input, blLoop input final = .error .blacklistCursor) ∧
      ¬ ∀ move ∈ past, BlOp.Apart move := by
  have passed : replays BlOp.run Mng.listing
      [.iterate (.all bgErrOutOfMemory), .iterate (.all bgErrOutOfMemory)]
      (fun past final =>
        decide (Guarded (fun source op => BlOp.Possible source op) past) &&
          decide (final.bl.state = .starting ∧ final.bl.offset = final.bl.tail ∧
            ∃ move ∈ past, move.target.bl.state = .starting ∧
              ¬ move.target.bl.tail < move.target.bl.offset)) = true := by
    decide +kernel
  obtain ⟨past, final, run, -, reached⟩ := blRun_of_replays passed
  obtain ⟨state, equal, move, member, starts, together⟩ := of_decide_eq_true reached
  refine ⟨past, final, run, state, equal, fun input => ?_, fun every => ?_⟩
  · rw [blLoop, state]
    exact if_pos equal
  · exact together ((every move member).cursors starts).1

end Nwmng
