/-
Module: Nwmng.Lib.Simulation
Purpose: Executions that are matched move by move, where a move may also be matched by none, and
what can be observed of them.
Trusted boundary: none
Main exports:
  Observed, Matches, Execution.matched, Execution.split
-/
import Mathlib
import Nwmng.Lib.Execution

/-!
A forward simulation between two systems in which a move of the first may be matched by none of
the second.  What is observed has to be the same on both sides, in the same order.
-/

namespace Transition

universe u v w x y

variable {State : Type u} {Label : Type v} {Shadow : Type w} {ShadowLabel : Type x}
variable {Observation : Type y}

/-- What is observed of an execution: the observations of its moves, in their order. -/
def Observed (observe : Move State Label → List Observation) (past : List (Move State Label)) :
    List Observation :=
  past.flatMap observe

@[simp] theorem observed_nil (observe : Move State Label → List Observation) :
    Observed observe [] = [] := rfl

@[simp] theorem observed_snoc (observe : Move State Label → List Observation)
    (past : List (Move State Label)) (move : Move State Label) :
    Observed observe (past ++ [move]) = Observed observe past ++ observe move := by
  rw [Observed, Observed, List.flatMap_append, List.flatMap_singleton]

/-- A move of the shadow with the same observation, or none when there is nothing to observe.
The stuttering case is what lets a shadow take fewer steps than the run it follows. -/
inductive Matches (related : State → Shadow → Prop) (step : Shadow → ShadowLabel → Shadow → Prop)
    (observe : Move State Label → List Observation)
    (observeShadow : Move Shadow ShadowLabel → List Observation) (move : Move State Label)
    (shadow : Shadow) : Prop where
  | stutters (silent : observe move = []) (still : related move.target shadow) :
      Matches related step observe observeShadow move shadow
  | moves (label : ShadowLabel) (following : Shadow) (taken : step shadow label following)
      (same : observeShadow ⟨shadow, label, following⟩ = observe move)
      (again : related move.target following) :
      Matches related step observe observeShadow move shadow

/-- Executions whose moves are admitted are guarded executions.  A condition in the step becomes
one beside the run. -/
theorem Execution.split {step : State → Label → State → Prop} {admitted : State → Label → Prop}
    {initial final : State} {past : List (Move State Label)}
    (run : Execution (fun source label target => admitted source label ∧ step source label target)
      initial past final) : Execution step initial past final ∧ Guarded admitted past := by
  induction run with
  | start => exact ⟨.start, guarded_nil admitted⟩
  | extend earlier taken hypothesis =>
      exact ⟨hypothesis.1.extend taken.2, guarded_snoc.mpr ⟨hypothesis.2, taken.1⟩⟩

/-- Forward simulation with observations: an execution whose admitted moves are all matched has
a shadow of which the same is observed.  By induction on the execution. -/
theorem Execution.matched {step : State → Label → State → Prop}
    {shadowStep : Shadow → ShadowLabel → Shadow → Prop} {related : State → Shadow → Prop}
    {admitted : State → Label → Prop} {observe : Move State Label → List Observation}
    {observeShadow : Move Shadow ShadowLabel → List Observation}
    (matching : ∀ source label target shadow, related source shadow → admitted source label →
      step source label target →
      Matches related shadowStep observe observeShadow ⟨source, label, target⟩ shadow)
    {initial final : State} {past : List (Move State Label)}
    (run : Execution step initial past final) (guarded : Guarded admitted past)
    {shadow : Shadow} (start : related initial shadow) :
    ∃ shadowPast last, Execution shadowStep shadow shadowPast last ∧ related final last ∧
      Observed observeShadow shadowPast = Observed observe past := by
  induction run with
  | start => exact ⟨[], shadow, .start, start, rfl⟩
  | @extend current following label past earlier taken hypothesis =>
      obtain ⟨before, admittedLast⟩ := guarded_snoc.mp guarded
      obtain ⟨shadowPast, reached, shadowRun, here, same⟩ := hypothesis before
      rw [observed_snoc]
      cases matching current label following reached here admittedLast taken with
      | stutters silent still =>
          exact ⟨shadowPast, reached, shadowRun, still, by rw [same, silent, List.append_nil]⟩
      | moves other next moved alike again =>
          exact ⟨_, next, shadowRun.extend moved, again, by rw [observed_snoc, same, alike]⟩

end Transition
