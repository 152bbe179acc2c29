/-
Module: Nwmng.Lib.Execution
Purpose: Finite executions of a labelled, possibly failing transition system,
with the rules that carry a property of one move to a property of every move.
Trusted boundary: none
Main exports:
  Move, Execution, Guarded, Execution.invariant, Execution.guarded_invariant,
  Execution.good_iff_guarded, execution_of_replays
-/
import Mathlib.Logic.Basic
import Mathlib.Data.List.Basic

namespace Transition

universe u v w

variable {State : Type u} {Label : Type v} {Failure : Type w}

/-- One move of a system, with the states on both sides of it. -/
structure Move (State : Type u) (Label : Type v) where
  source : State
  label : Label
  target : State

/-- The moves a fallible step function can make: those that do not fail. -/
def Succeeds (next : State → Label → Except Failure State) :
    State → Label → State → Prop :=
  fun source label target => next source label = .ok target

/-- A finite execution, recorded oldest move first.  The record keeps the states on both sides of
each move, so a property of runs can refer to any step of the past. -/
inductive Execution (step : State → Label → State → Prop) (initial : State) :
    List (Move State Label) → State → Prop where
  | start : Execution step initial [] initial
  | extend {current following : State} {label : Label}
      {past : List (Move State Label)}
      (earlier : Execution step initial past current)
      (taken : step current label following) :
      Execution step initial
        (past ++ [{ source := current, label := label, target := following }])
        following

/-- Every move of the record starts where its label is admitted.  It is the form of a condition
on runs: the condition is asked before the step, in the state it is taken from. -/
def Guarded (admitted : State → Label → Prop)
    (past : List (Move State Label)) : Prop :=
  ∀ move ∈ past, admitted move.source move.label

@[simp] theorem guarded_nil (admitted : State → Label → Prop) :
    Guarded admitted ([] : List (Move State Label)) := by
  intro move member
  cases member

theorem guarded_snoc {admitted : State → Label → Prop}
    {past : List (Move State Label)} {move : Move State Label} :
    Guarded admitted (past ++ [move]) ↔
      Guarded admitted past ∧ admitted move.source move.label := by
  simp only [Guarded, List.mem_append, List.mem_singleton]
  constructor
  · intro every
    exact ⟨fun earlier member => every earlier (.inl member), every move (.inr rfl)⟩
  · rintro ⟨before, last⟩ earlier (member | rfl)
    · exact before earlier member
    · exact last

instance {admitted : State → Label → Prop}
    [∀ source label, Decidable (admitted source label)]
    (past : List (Move State Label)) : Decidable (Guarded admitted past) :=
  inferInstanceAs (Decidable (∀ move ∈ past, admitted move.source move.label))

namespace Execution

variable {step : State → Label → State → Prop}
variable {initial final : State} {past : List (Move State Label)}

/-- Each recorded move is a step of the system. -/
theorem steps_taken (run : Execution step initial past final) :
    ∀ move ∈ past, step move.source move.label move.target := by
  induction run with
  | start => intro move member; cases member
  | extend earlier taken steps =>
      intro move member
      rcases List.mem_append.mp member with old | new
      · exact steps move old
      · cases List.mem_singleton.mp new
        exact taken

/-- An execution whose recorded moves are steps of another system is one of it. -/
theorem of_moves {other : State → Label → State → Prop}
    (run : Execution step initial past final)
    (moves : ∀ move ∈ past, other move.source move.label move.target) :
    Execution other initial past final := by
  induction run with
  | start => exact .start
  | extend earlier taken hypothesis =>
      have before := hypothesis fun move member => moves move (List.mem_append_left _ member)
      have last := moves _ (List.mem_append_right _ List.mem_cons_self)
      exact before.extend last

/-- The invariant rule: what holds initially and survives every admitted step
holds on both sides of every move of a guarded execution, and at its end. -/
theorem guarded_invariant {invariant : State → Prop}
    {admitted : State → Label → Prop}
    (preserved : ∀ source label target, invariant source →
      admitted source label → step source label target → invariant target)
    (run : Execution step initial past final) (holds : invariant initial)
    (guarded : Guarded admitted past) :
    (∀ move ∈ past, invariant move.source ∧ invariant move.target) ∧
      invariant final := by
  induction run with
  | start => exact ⟨(fun move member => nomatch member), holds⟩
  | extend earlier taken hypothesis =>
      obtain ⟨before, admittedLast⟩ := guarded_snoc.mp guarded
      obtain ⟨sides, current⟩ := hypothesis before
      have following := preserved _ _ _ current admittedLast taken
      refine ⟨fun move member => ?_, following⟩
      rcases List.mem_append.mp member with old | new
      · exact sides move old
      · cases List.mem_singleton.mp new
        exact ⟨current, following⟩

/-- The invariant rule without a guard. -/
theorem invariant {invariant : State → Prop}
    (preserved : ∀ source label target, invariant source →
      step source label target → invariant target)
    (run : Execution step initial past final) (holds : invariant initial) :
    (∀ move ∈ past, invariant move.source ∧ invariant move.target) ∧
      invariant final := by
  have guarded : Guarded (fun _ _ => True) past := fun _ _ => trivial
  apply run.guarded_invariant _ holds guarded
  intro source label target before _ taken
  exact preserved source label target before taken

/-- The exactness rule.  When, under the invariant, a move is good exactly when
its label was admitted at its source, and good moves keep the invariant, then an
execution consists of good moves exactly when it is guarded. -/
theorem good_iff_guarded {invariant : State → Prop}
    {admitted : State → Label → Prop} {good : Move State Label → Prop}
    (exact_guard : ∀ move, invariant move.source →
      step move.source move.label move.target →
      (good move ↔ admitted move.source move.label))
    (preserved : ∀ move, invariant move.source →
      step move.source move.label move.target → good move →
      invariant move.target)
    (run : Execution step initial past final) (holds : invariant initial) :
    (∀ move ∈ past, good move) ↔ Guarded admitted past := by
  suffices both : ((∀ move ∈ past, good move) ↔ Guarded admitted past) ∧
      ((∀ move ∈ past, good move) → invariant final) from both.1
  induction run with
  | start => exact ⟨by simp, fun _ => holds⟩
  | @extend current following label past earlier taken hypothesis =>
      obtain ⟨iff_before, carried⟩ := hypothesis
      have split : (∀ move ∈ past ++ [⟨current, label, following⟩], good move) ↔
          (∀ move ∈ past, good move) ∧ good ⟨current, label, following⟩ := by
        simp only [List.mem_append, List.mem_singleton, or_imp, forall_and,
          forall_eq]
      refine ⟨?_, fun every => ?_⟩
      · rw [split, guarded_snoc, ← iff_before]
        refine and_congr_right fun goodBefore => ?_
        exact exact_guard ⟨current, label, following⟩ (carried goodBefore) taken
      · obtain ⟨goodBefore, goodLast⟩ := split.mp every
        exact preserved ⟨current, label, following⟩ (carried goodBefore) taken goodLast

end Execution

/-!
## Replaying labels

A concrete execution is found by computation: its labels are replayed, and a test is made at the
end.  The result is an execution in the sense above, so every rule applies to it.
-/

/-- Follow a list of labels, extending a record; `none` when a step fails. -/
def replayFrom (next : State → Label → Except Failure State) :
    State → List (Move State Label) → List Label →
      Option (List (Move State Label) × State)
  | current, past, [] => some (past, current)
  | current, past, label :: labels =>
      match next current label with
      | .ok following =>
          replayFrom next following
            (past ++ [{ source := current, label := label, target := following }])
            labels
      | .error _ => none

/-- Does the execution that follows the labels exist and pass the test? -/
def replays (next : State → Label → Except Failure State) (initial : State)
    (labels : List Label) (test : List (Move State Label) → State → Bool) : Bool :=
  match replayFrom next initial [] labels with
  | some (past, final) => test past final
  | none => false

theorem replayFrom_execution {next : State → Label → Except Failure State}
    {initial current final : State} {past whole : List (Move State Label)}
    {labels : List Label}
    (earlier : Execution (Succeeds next) initial past current)
    (replayed : replayFrom next current past labels = some (whole, final)) :
    Execution (Succeeds next) initial whole final ∧
      whole.map Move.label = past.map Move.label ++ labels := by
  induction labels generalizing current past with
  | nil =>
      simp only [replayFrom, Option.some.injEq, Prod.mk.injEq] at replayed
      obtain ⟨rfl, rfl⟩ := replayed
      exact ⟨earlier, by simp⟩
  | cons label labels hypothesis =>
      cases taken : next current label with
      | error failure => simp [replayFrom, taken] at replayed
      | ok following =>
          simp only [replayFrom, taken] at replayed
          obtain ⟨run, same⟩ := hypothesis (earlier.extend taken) replayed
          exact ⟨run, by simpa using same⟩

/-- A replay that passes its test is an execution with those labels.  With it, a run on concrete
inputs is found by evaluation. -/
theorem execution_of_replays {next : State → Label → Except Failure State}
    {initial : State} {labels : List Label}
    {test : List (Move State Label) → State → Bool}
    (passed : replays next initial labels test = true) :
    ∃ past final, Execution (Succeeds next) initial past final ∧
      past.map Move.label = labels ∧ test past final = true := by
  unfold replays at passed
  cases replayed : replayFrom next initial [] labels with
  | none => simp [replayed] at passed
  | some reached =>
      obtain ⟨past, final⟩ := reached
      simp only [replayed] at passed
      obtain ⟨run, same⟩ := replayFrom_execution .start replayed
      exact ⟨past, final, run, by simpa using same, passed⟩

end Transition
