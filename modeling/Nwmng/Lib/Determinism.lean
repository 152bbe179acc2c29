/-
Module: Nwmng.Lib.Determinism
Purpose: Executions of a step relation that allows at most one step from each state: of two that
start in the same state, one goes on where the other one ends.
Trusted boundary: none
Main exports:
  Functional, Execution.append, Execution.uncons, Execution.comparable
-/
import Nwmng.Lib.Execution

/-!
The record of an execution grows at its end, and two executions are compared from their start.
So executions are composed first, and their first step is split off.
-/

namespace Transition

universe u v

variable {State : Type u} {Label : Type v}

/-- There is at most one step from each state. -/
def Functional (step : State → Label → State → Prop) : Prop :=
  ∀ ⦃source label target other after⦄, step source label target → step source other after →
    label = other ∧ target = after

namespace Execution

variable {step : State → Label → State → Prop} {initial middle final last : State}
variable {past rest : List (Move State Label)}

/-- An execution, and one that goes on where it ends. -/
theorem append (run : Execution step initial past middle)
    (onward : Execution step middle rest final) : Execution step initial (past ++ rest) final := by
  induction onward with
  | start => simpa using run
  | extend _ taken hypothesis =>
      rw [← List.append_assoc]
      exact hypothesis.extend taken

/-- An execution that records nothing has not moved. -/
theorem eq_of_nil (run : Execution step initial [] final) : final = initial := by
  generalize none_ : ([] : List (Move State Label)) = record at run
  cases run with
  | start => rfl
  | extend _ _ => simp at none_

/-- The first step of an execution.  By induction on the execution: it is the last one of a
record of one move, and else that of the execution before. -/
theorem uncons {move : Move State Label} (run : Execution step initial (move :: rest) final) :
    move.source = initial ∧ step initial move.label move.target ∧
      Execution step move.target rest final := by
  generalize whole : move :: rest = record at run
  induction run generalizing rest with
  | start => cases whole
  | @extend current following label past earlier taken hypothesis =>
      cases past with
      | nil =>
          have here := earlier.eq_of_nil
          simp only [List.nil_append, List.cons.injEq] at whole
          obtain ⟨rfl, rfl⟩ := whole
          rw [here] at taken
          exact ⟨here, taken, .start⟩
      | cons first others =>
          simp only [List.cons_append, List.cons.injEq] at whole
          obtain ⟨rfl, rfl⟩ := whole
          obtain ⟨here, begins, onward⟩ := hypothesis rfl
          exact ⟨here, begins, onward.extend taken⟩

/-- Of two executions from one state, one is the beginning of the other.  By induction on the
second one: its last step is the next one of the first, or goes on behind it. -/
theorem comparable (functional : Functional step) {other : List (Move State Label)}
    (run : Execution step initial past final) (second : Execution step initial other last) :
    (∃ rest, other = past ++ rest ∧ Execution step final rest last) ∨
      (∃ rest, past = other ++ rest ∧ Execution step last rest final) := by
  induction second with
  | start => exact .inr ⟨past, rfl, run⟩
  | @extend current following label before earlier taken hypothesis =>
      rcases hypothesis with ⟨rest, rfl, onward⟩ | ⟨rest, rfl, onward⟩
      · exact .inl ⟨rest ++ [⟨current, label, following⟩], by rw [List.append_assoc],
          onward.extend taken⟩
      · cases rest with
        | nil =>
            have here := onward.eq_of_nil
            rw [here]
            refine .inl ⟨[⟨current, label, following⟩], by rw [List.append_nil], ?_⟩
            exact Execution.start.extend taken
        | cons move others =>
            obtain ⟨source, begins, further⟩ := onward.uncons
            obtain ⟨same, reached⟩ := functional taken begins
            refine .inr ⟨others, ?_, reached ▸ further⟩
            rw [List.append_assoc, List.singleton_append]
            obtain ⟨from_, by_, to_⟩ := move
            cases source
            cases same
            cases reached
            rfl

end Execution

end Transition
