/-
Module: Nwmng.Cli.Commands
Purpose: The lines of the shell: which command a line calls, which commands are called at once,
and the queue between the thread of the shell and the thread of the manager.
Trusted boundary: `wordexp` is a parameter; `malloc` returns memory that was free
Main exports:
  stripwhite, ShellCommand, commands, findCmdIndex, findCmdIndex_iff, CliState, CliOp, CliRun,
  commands_in_order
-/
import Mathlib
import Nwmng.Lib.Execution
import Nwmng.Lib.LinkedQueue
import Nwmng.Utils.Startup

namespace Nwmng

open Transition Queues

/-! ## Lines -/

/-- The white space of the shell. -/
def isWhitespace (char : Char) : Bool := char = ' ' || char = '\t'

/-- `stripwhite`; the search from the end stops at the first character. -/
def stripwhite (line : List Char) : List Char :=
  let s := line.dropWhile isWhitespace
  s.take 1 ++ (s.drop 1).rdropWhile isWhitespace

/-- What completes the arguments of a command: the choices of its usage, the arguments of
`seqset`, or addresses. -/
inductive Completer where
  | usage
  | seqset
  | addrs
  | lights (type : UInt8)
deriving Repr, DecidableEq

/-- `command_t`, without its documentation. -/
structure ShellCommand where
  name : List Char
  arg : Option (List Char)
  completer : Completer
deriving Repr, DecidableEq

def commands : List ShellCommand := [
  -- CLI local commands
  { name := "reset".toList, arg := some "<1/0>".toList, completer := .usage },
  { name := "q".toList, arg := none, completer := .usage },
  { name := "help".toList, arg := none, completer := .usage },
  -- commands that are handled by mng
  { name := "sync".toList, arg := some "[1/0]".toList, completer := .usage },
  { name := "list".toList, arg := none, completer := .usage },
  { name := "info".toList, arg := some "[all/addr...]".toList, completer := .addrs },
  { name := "freemode".toList, arg := some "[on/off]".toList, completer := .usage },
  { name := "rmall".toList, arg := none, completer := .usage },
  { name := "clrrb".toList, arg := none, completer := .usage },
  { name := "seqset".toList, arg := some "[arb-]".toList, completer := .seqset },
  { name := "loglvlset".toList, arg := some "[e/w/m/d/v] [1/0]".toList, completer := .usage },
  -- light control commands
  { name := "onoff".toList, arg := some "[on/off] [addr...]".toList, completer := .lights 0x01 },
  { name := "lightness".toList, arg := some "[pecentage] [addr...]".toList,
    completer := .lights 0x02 },
  { name := "colortemp".toList, arg := some "[pecentage] [addr...]".toList,
    completer := .lights 0x04 },
  -- debug commands
  { name := "status".toList, arg := none, completer := .usage },
  { name := "demo".toList, arg := some "[on/off]".toList, completer := .usage }]

/-- `find_cmd_index`: the first command whose name leads the line. -/
def findCmdIndex (cmd : List Char) : Option Nat :=
  commands.findIdx? fun command => command.name.isPrefixOf cmd

/-!
## The shell and the manager

The two threads are one step relation: a line that is typed, or one turn of the manager.  The
queue between them is linked through its cells, which the model allocates and frees.
-/

/-- A command that is to be called: its place in the table, and its words. -/
structure Call where
  offs : Nat
  words : List (List Char)
deriving Repr, DecidableEq

/-- The queue, and what was done: the calls of the manager and those of the shell, the lines
without a command, the restarts with the flag for a factory reset, and the end of the program. -/
structure CliState where
  cmdq : LinkedQueue Call
  polled : List Call
  called : List Call
  refused : List (List (List Char))
  restarts : List Bool
  exited : Bool

def CliState.start : CliState :=
  { cmdq := .empty, polled := [], called := [], refused := [], restarts := [], exited := false }

/-- Why a step does not happen: a cell is read that is not allocated, the program ended, the
memory is in use, or a number is no `int`. -/
inductive CliFault where
  | dangling
  | ended
  | taken
  | numberRange
deriving Repr, DecidableEq

/-- What the two threads do: a line of the shell, with the memory for its cell, and a turn of the
manager. -/
inductive CliOp where
  | line (text : Option (List Char)) (address : Nat)
  | poll

/-- `cmd_enq`, on the words of the line. -/
def cmdEnq (call : Call) (address : Nat) (state : CliState) : Except CliFault CliState :=
  if (state.cmdq.heap address).isSome then .error .taken
  else match enqueue state.cmdq address call with
    | none => .error .dangling
    | some cmdq => .ok { state with cmdq := cmdq }

/-- `clicb_reset` and the restart behind it. -/
def clicbReset (words : List (List Char)) (state : CliState) : Except CliFault CliState :=
  match words with
  | _ :: arg :: _ =>
      match atoi arg with
      | .error _ => .error .numberRange
      | .ok r =>
          if r + 1 = 0 then .ok state
          else .ok { state with restarts := state.restarts ++ [decide (r + 1 = 2)] }
  | _ => .ok { state with restarts := state.restarts ++ [false] }

/-- A command of the shell: `reset`, `q` or `help`. -/
def callLocal (call : Call) (state : CliState) : Except CliFault CliState :=
  let state := { state with called := state.called ++ [call] }
  if call.offs = 0 then clicbReset call.words state
  else if call.offs = 1 then .ok { state with exited := true }
  else .ok state

/-- The call that a line asks for: none without words, nor for a line without a command. -/
def callOf (wordexp : List Char → Option (List (List Char))) (text : List Char) : Option Call :=
  let str := stripwhite text
  match wordexp str, findCmdIndex str with
  | some words, some offs => if str = [] then none else some { offs := offs, words := words }
  | _, _ => none

/-- One turn of `cli_mainloop`. -/
def cliLine (wordexp : List Char → Option (List (List Char))) (text : Option (List Char))
    (address : Nat) (state : CliState) : Except CliFault CliState :=
  match text with
  | none => .ok state
  | some text =>
      let str := stripwhite text
      match wordexp str with
      | none => .ok state
      | some words =>
          if str = [] then .ok state
          else match findCmdIndex str with
            | none => .ok { state with refused := state.refused ++ [words] }
            | some ret =>
                if ret < 3 then callLocal { offs := ret, words := words } state
                else cmdEnq { offs := ret, words := words } address state

/-- `poll_cmd`: the manager takes one command in each turn of its loop. -/
def pollCmd (state : CliState) : Except CliFault CliState :=
  match dequeue state.cmdq with
  | none => .error .dangling
  | some (none, _) => .ok state
  | some (some call, cmdq) => .ok { state with cmdq := cmdq, polled := state.polled ++ [call] }

def CliOp.run (wordexp : List Char → Option (List (List Char))) (state : CliState) :
    CliOp → Except CliFault CliState
  | .line text address =>
      if state.exited then .error .ended else cliLine wordexp text address state
  | .poll => if state.exited then .error .ended else pollCmd state

abbrev CliRun (wordexp : List Char → Option (List (List Char))) :=
  Execution (Succeeds (CliOp.run wordexp)) CliState.start

/-! ## The command of a line -/

/-- No name leads another one. -/
theorem names_apart : commands.Pairwise fun first second =>
    first.name.isPrefixOf second.name = false ∧ second.name.isPrefixOf first.name = false := by
  decide +kernel

/-- Two names that lead one line are at one place. -/
theorem leading_unique {text : List Char} {first second : Nat} {one two : ShellCommand}
    (isFirst : commands[first]? = some one) (isSecond : commands[second]? = some two)
    (leadsOne : one.name <+: text) (leadsTwo : two.name <+: text) : first = second := by
  obtain ⟨boundOne, isOne⟩ := List.getElem?_eq_some_iff.mp isFirst
  obtain ⟨boundTwo, isTwo⟩ := List.getElem?_eq_some_iff.mp isSecond
  have apart := List.pairwise_iff_getElem.mp names_apart
  have comparable : one.name.isPrefixOf two.name = true ∨ two.name.isPrefixOf one.name = true := by
    rw [List.isPrefixOf_iff_prefix, List.isPrefixOf_iff_prefix]
    exact List.prefix_or_prefix_of_prefix leadsOne leadsTwo
  rcases Nat.lt_trichotomy first second with before | same | behind
  · obtain ⟨no, neither⟩ := apart first second boundOne boundTwo before
    rw [isOne, isTwo] at no neither
    rw [no, neither] at comparable
    simp at comparable
  · exact same
  · obtain ⟨no, neither⟩ := apart second first boundTwo boundOne behind
    rw [isOne, isTwo] at no neither
    rw [no, neither] at comparable
    simp at comparable

/-- A line calls the command whose name leads it, which is one at most.  The table is searched
from its start, but no name of it leads another, so the order does not matter. -/
theorem findCmdIndex_iff (text : List Char) (offs : Nat) :
    findCmdIndex text = some offs ↔
      ∃ command, commands[offs]? = some command ∧ command.name <+: text := by
  rw [findCmdIndex, List.findIdx?_eq_some_iff_getElem]
  constructor
  · rintro ⟨bound, leads, _⟩
    exact ⟨_, List.getElem?_eq_getElem bound, List.isPrefixOf_iff_prefix.mp leads⟩
  · rintro ⟨command, found, leads⟩
    obtain ⟨bound, isCommand⟩ := List.getElem?_eq_some_iff.mp found
    refine ⟨bound, List.isPrefixOf_iff_prefix.mpr (isCommand ▸ leads), fun earlier before => ?_⟩
    intro also
    have inside := Nat.lt_trans before bound
    have same := leading_unique (List.getElem?_eq_getElem inside) found
      (List.isPrefixOf_iff_prefix.mp also) leads
    omega

/-!
## The queue between the threads

The invariant follows every call from its line to the turn that makes it.  The cells of the queue
are at the same time the allocated ones, so no cell is lost and none is used twice.
-/

variable {wordexp : List Char → Option (List (List Char))}

/-- The call that a step hands to the manager. -/
def CliOp.queues (wordexp : List Char → Option (List (List Char))) : CliOp → Option Call
  | .line (some text) _ => (callOf wordexp text).filter fun call => 3 ≤ call.offs
  | _ => none

/-- The call that the shell makes itself. -/
def CliOp.calls (wordexp : List Char → Option (List (List Char))) : CliOp → Option Call
  | .line (some text) _ => (callOf wordexp text).filter fun call => call.offs < 3
  | _ => none

def queuedCalls (wordexp : List Char → Option (List (List Char)))
    (past : List (Move CliState CliOp)) : List Call :=
  past.filterMap fun move => move.label.queues wordexp

def localCalls (wordexp : List Char → Option (List (List Char)))
    (past : List (Move CliState CliOp)) : List Call :=
  past.filterMap fun move => move.label.calls wordexp

/-- A line does nothing to the calls, or it makes its call, or it hands it over. -/
theorem cliLine_cases {text : List Char} {address : Nat} {before after : CliState}
    (taken : cliLine wordexp (some text) address before = .ok after) :
    (callOf wordexp text = none ∧ after.cmdq = before.cmdq ∧ after.polled = before.polled ∧
      after.called = before.called) ∨
    ∃ call, callOf wordexp text = some call ∧
      (if call.offs < 3 then callLocal call before else cmdEnq call address before) =
        .ok after := by
  unfold cliLine at taken
  unfold callOf
  dsimp only at taken ⊢
  cases expands : wordexp (stripwhite text) with
  | none =>
      rw [expands] at taken
      cases taken
      exact .inl ⟨rfl, rfl, rfl, rfl⟩
  | some words =>
      rw [expands] at taken
      dsimp only at taken
      by_cases empty : stripwhite text = []
      · rw [if_pos empty] at taken
        cases taken
        refine .inl ⟨?_, rfl, rfl, rfl⟩
        cases findCmdIndex (stripwhite text) with
        | none => rfl
        | some offs => exact if_pos empty
      · rw [if_neg empty] at taken
        cases found : findCmdIndex (stripwhite text) with
        | none =>
            rw [found] at taken
            cases taken
            exact .inl ⟨rfl, rfl, rfl, rfl⟩
        | some offs =>
            rw [found] at taken
            exact .inr ⟨_, if_neg empty, taken⟩

theorem callLocal_effect {call : Call} {before after : CliState}
    (taken : callLocal call before = .ok after) :
    after.cmdq = before.cmdq ∧ after.polled = before.polled ∧
      after.called = before.called ++ [call] := by
  unfold callLocal at taken
  dsimp only at taken
  split at taken
  · unfold clicbReset at taken
    split at taken
    · split at taken
      · cases taken
      · split at taken
        · cases taken
          exact ⟨rfl, rfl, rfl⟩
        · cases taken
          exact ⟨rfl, rfl, rfl⟩
    · cases taken
      exact ⟨rfl, rfl, rfl⟩
  · split at taken
    · cases taken
      exact ⟨rfl, rfl, rfl⟩
    · cases taken
      exact ⟨rfl, rfl, rfl⟩

/-- A call that is handed over joins the queue. -/
theorem cmdEnq_effect {call : Call} {address : Nat} {before after : CliState}
    (taken : cmdEnq call address before = .ok after) {cells : List (Nat × Call)}
    (represents : Represents before.cmdq cells) :
    Represents after.cmdq (cells ++ [(address, call)]) ∧ after.polled = before.polled ∧
      after.called = before.called := by
  unfold cmdEnq at taken
  split at taken
  · cases taken
  · next free =>
      have unused : before.cmdq.heap address = none := by simpa using free
      obtain ⟨grown, enqueued, now⟩ := represents_enqueue represents unused call
      rw [enqueued] at taken
      cases taken
      exact ⟨now, rfl, rfl⟩

/-- What the commands of a run and the cells of the queue have to do with each other.  The calls
that were made and those that wait are, in this order, the calls that the lines of the run asked
for; so none is lost, doubled or overtaken. -/
structure QueueHolds (wordexp : List Char → Option (List (List Char)))
    (past : List (Move CliState CliOp)) (state : CliState) (cells : List (Nat × Call)) : Prop where
  represents : Represents state.cmdq cells
  queued : state.polled ++ cells.map Prod.snd = queuedCalls wordexp past
  calls : state.called = localCalls wordexp past

theorem filterMap_snoc {α β : Type} (change : α → Option β) (front : List α) (last : α) :
    (front ++ [last]).filterMap change = front.filterMap change ++ (change last).toList := by
  rw [List.filterMap_append]
  cases changed : change last with
  | none => simp [changed]
  | some result => simp [changed]

theorem QueueHolds.line {past : List (Move CliState CliOp)} {before after : CliState}
    {cells : List (Nat × Call)} (holds : QueueHolds wordexp past before cells)
    {text : Option (List Char)} {address : Nat}
    (taken : cliLine wordexp text address before = .ok after) :
    ∃ cells, QueueHolds wordexp (past ++ [⟨before, .line text address, after⟩]) after cells := by
  have queuedMore : queuedCalls wordexp (past ++ [⟨before, .line text address, after⟩]) =
      queuedCalls wordexp past ++ ((CliOp.line text address).queues wordexp).toList :=
    filterMap_snoc _ _ _
  have callsMore : localCalls wordexp (past ++ [⟨before, .line text address, after⟩]) =
      localCalls wordexp past ++ ((CliOp.line text address).calls wordexp).toList :=
    filterMap_snoc _ _ _
  have idle : (CliOp.line text address).queues wordexp = none →
      (CliOp.line text address).calls wordexp = none → after.cmdq = before.cmdq →
      after.polled = before.polled → after.called = before.called →
      ∃ cells, QueueHolds wordexp (past ++ [⟨before, .line text address, after⟩]) after cells := by
    intro noQueue noCall sameQueue samePolled sameCalled
    refine ⟨cells, sameQueue ▸ holds.represents, ?_, ?_⟩
    · rw [queuedMore, noQueue, samePolled, holds.queued]
      exact (List.append_nil _).symm
    · rw [callsMore, noCall, sameCalled, holds.calls]
      exact (List.append_nil _).symm
  cases text with
  | none =>
      cases taken
      exact idle rfl rfl rfl rfl rfl
  | some text =>
      rcases cliLine_cases taken with ⟨nothing, queue, polled, called⟩ | ⟨call, asked, acts⟩
      · exact idle (by rw [CliOp.queues, nothing]; rfl) (by rw [CliOp.calls, nothing]; rfl)
          queue polled called
      · by_cases here : call.offs < 3
        · rw [if_pos here] at acts
          obtain ⟨queue, polled, called⟩ := callLocal_effect acts
          have noQueue : (CliOp.line (some text) address).queues wordexp = none := by
            rw [CliOp.queues, asked, Option.filter_some, if_neg (by simpa using here)]
          have isCall : (CliOp.line (some text) address).calls wordexp = some call := by
            rw [CliOp.calls, asked, Option.filter_some, if_pos (by simpa using here)]
          refine ⟨cells, queue ▸ holds.represents, ?_, ?_⟩
          · rw [queuedMore, noQueue, polled, holds.queued]
            exact (List.append_nil _).symm
          · rw [callsMore, isCall, called, holds.calls]
            rfl
        · rw [if_neg here] at acts
          obtain ⟨now, polled, called⟩ := cmdEnq_effect acts holds.represents
          have isQueued : (CliOp.line (some text) address).queues wordexp = some call := by
            rw [CliOp.queues, asked, Option.filter_some, if_pos (by simpa using here)]
          have noCall : (CliOp.line (some text) address).calls wordexp = none := by
            rw [CliOp.calls, asked, Option.filter_some, if_neg (by simpa using here)]
          refine ⟨_, now, ?_, ?_⟩
          · rw [queuedMore, isQueued, polled, List.map_append, ← List.append_assoc, holds.queued]
            rfl
          · rw [callsMore, noCall, called, holds.calls]
            exact (List.append_nil _).symm

/-- A turn of the manager calls the first command that waits. -/
theorem pollCmd_eq {state : CliState} {cells : List (Nat × Call)}
    (represents : Represents state.cmdq cells) :
    ∃ after, pollCmd state = .ok after ∧ Represents after.cmdq (cells.drop 1) ∧
      after.polled = state.polled ++ (cells.take 1).map Prod.snd ∧ after.called = state.called ∧
      after.exited = state.exited := by
  unfold pollCmd
  cases cells with
  | nil =>
      rw [dequeue_empty represents]
      exact ⟨state, rfl, represents, (List.append_nil _).symm, rfl, rfl⟩
  | cons cell cells =>
      obtain ⟨address, call⟩ := cell
      obtain ⟨rest, taken, now⟩ := represents_dequeue represents
      rw [taken]
      exact ⟨_, rfl, now, rfl, rfl, rfl⟩

theorem QueueHolds.poll {past : List (Move CliState CliOp)} {before after : CliState}
    {cells : List (Nat × Call)} (holds : QueueHolds wordexp past before cells)
    (taken : pollCmd before = .ok after) :
    QueueHolds wordexp (past ++ [⟨before, .poll, after⟩]) after (cells.drop 1) := by
  obtain ⟨same, polls, represents, polled, called, _⟩ := pollCmd_eq holds.represents
  rw [taken] at polls
  cases polls
  refine ⟨represents, ?_, ?_⟩
  · rw [polled, List.append_assoc, ← List.map_append, List.take_append_drop, holds.queued,
      queuedCalls, queuedCalls, List.filterMap_append]
    exact (List.append_nil _).symm
  · rw [called, holds.calls, localCalls, localCalls, List.filterMap_append]
    exact (List.append_nil _).symm

/-- Turns of the manager, one after the other. -/
def pollTimes : Nat → CliState → Except CliFault CliState
  | 0, state => .ok state
  | turns + 1, state =>
      match pollCmd state with
      | .error fault => .error fault
      | .ok state => pollTimes turns state

theorem pollTimes_eq (turns : Nat) {state : CliState} {cells : List (Nat × Call)}
    (represents : Represents state.cmdq cells) :
    ∃ after, pollTimes turns state = .ok after ∧
      after.polled = state.polled ++ (cells.take turns).map Prod.snd := by
  induction turns generalizing state cells with
  | zero => exact ⟨state, rfl, (List.append_nil _).symm⟩
  | succ turns hypothesis =>
      obtain ⟨next, polls, now, polled, _, _⟩ := pollCmd_eq represents
      obtain ⟨after, later, rest⟩ := hypothesis now
      refine ⟨after, ?_, ?_⟩
      · rw [pollTimes, polls]
        exact later
      · rw [rest, polled, List.append_assoc, ← List.map_append]
        cases cells with
        | nil => simp
        | cons cell cells => simp

/-- However the lines of the shell and the turns of the manager alternate: the shell makes the
calls of `reset`, `q` and `help` itself, and every other call is made by the manager once, in the
order of the lines; the cells that are allocated are those of the calls that wait, and as many
turns of the manager as there are cells make all of them. -/
theorem commands_in_order {past : List (Move CliState CliOp)} {final : CliState}
    (run : CliRun wordexp past final) :
    ∃ cells : List (Nat × Call),
      (∀ address, final.cmdq.heap address ≠ none ↔ address ∈ cells.map Prod.fst) ∧
      final.polled ++ cells.map Prod.snd = queuedCalls wordexp past ∧
      final.called = localCalls wordexp past ∧
      ∃ after, pollTimes cells.length final = .ok after ∧
        after.polled = queuedCalls wordexp past := by
  have holds : ∃ cells, QueueHolds wordexp past final cells := by
    induction run with
    | start => exact ⟨[], represents_empty, rfl, rfl⟩
    | @extend current following label past earlier taken hypothesis =>
        obtain ⟨cells, holds⟩ := hypothesis
        cases label with
        | line text address =>
            simp only [Succeeds, CliOp.run] at taken
            split at taken
            · cases taken
            · exact holds.line taken
        | poll =>
            simp only [Succeeds, CliOp.run] at taken
            split at taken
            · cases taken
            · exact ⟨_, holds.poll taken⟩
  obtain ⟨cells, holds⟩ := holds
  obtain ⟨after, polls, polled⟩ := pollTimes_eq cells.length holds.represents
  refine ⟨cells, fun address => allocated_iff holds.represents, holds.queued, holds.calls, after,
    polls, ?_⟩
  rw [polled, List.take_length, holds.queued]

/-- Two lines and a turn of the manager. -/
theorem commands_in_order_sample : ∃ past final,
    CliRun (fun text => some [text]) past final ∧ final.polled = [⟨4, ["list".toList]⟩] ∧
      final.polled ⊆ queuedCalls (fun text => some [text]) past := by
  have passed : replays (CliOp.run fun text => some [text]) CliState.start
      [.line (some " list ".toList) 7, .line (some "help".toList) 8, .poll]
      (fun _ final => final.polled == [⟨4, ["list".toList]⟩]) = true := by decide +kernel
  obtain ⟨past, final, run, _, polled⟩ := execution_of_replays passed
  obtain ⟨cells, _, queued, _⟩ := commands_in_order run
  refine ⟨past, final, run, by simpa using polled, ?_⟩
  rw [← queued]
  exact List.subset_append_left _ _

end Nwmng
