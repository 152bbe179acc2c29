/-
Module: Nwmng.Config.Exchange
Purpose: What a slot sends in one state while every command is accepted and every status is a
success, for the states that go through a list of commands.
Trusted boundary: none
Main exports:
  Exchange, converse, Completes, Work, StatusOps.Enumerates,
  completes_iff
-/
import Nwmng.Lib.Enumeration
import Nwmng.Config.EngineRun

namespace Nwmng

open Fallible Enumeration

/-! ## Conversations -/

/-- What the rest of the program and the NCP contribute to the work of a slot: the state of the
manager, the answers to the commands, and what happens outside before each of its turns. -/
structure Exchange where
  manager : MngState
  answer : Nat → CmdRsp
  between : Nat → Host → Host

/-- The command sent last. -/
def Host.lastSent (host : Host) : Option Command :=
  match host.log with
  | .sent _ command _ :: _ => some command
  | _ => none

/-- A slot that waits gets a success for every command, until it waits no longer.  The result
lists the commands it waited for, with the iterators it had then. -/
def converse (kind : StatusKind) (slot : Slot) (exchange : Exchange) :
    Nat → Nat → ConfigCache → Host →
      Except Abort (Option (List (Iterators × Command) × ConfigCache × Host))
  | 0, _, _, _ => .ok none
  | fuel + 1, turn, cache, host =>
      if cache.waitResponse then
        match host.lastSent with
        | none => .ok none
        | some command => do
            let event := ConfigEvent.status kind cache.ccHandle bgErrSuccess
            let input : EventInput :=
              { inprg := exchange.answer turn, retry := exchange.answer turn }
            let (after, host) ←
              slotEvent exchange.manager slot event input cache (exchange.between turn host)
            match ← converse kind slot exchange fuel (turn + 1) after host with
            | none => .ok none
            | some (rest, last) => .ok (some ((cache.iterators, command) :: rest, last))
      else .ok (some ([], cache, host))

/-- The iterators as every state finds them and leaves them. -/
def Iterators.home : Iterators := { zero := 0, one := 0, two := 0 }

/-- The slot is through with a state, and leaves it in the next round.  The iterators are back
home, where the next state expects them: the states share them. -/
structure Through (state : AccState) (cache : ConfigCache) : Prop where
  state : cache.state = state
  next : cache.nextState = none
  idle : cache.waitResponse = false
  home : cache.iterators = Iterators.home

theorem Through.leaves {state : AccState} {cache : ConfigCache} (through : Through state cache) :
    cache.stays = false := by
  simp [ConfigCache.stays, through.idle, through.next]

/-- A slot that leaves its state enters the given one, sends the listed commands there, one
after the success of the other, and is through with it. -/
def Completes (state : AccState) (kind : StatusKind) (slot : Slot) (exchange : Exchange)
    (cache : ConfigCache) (host : Host) (sendings : List (Iterators × Command))
    (last : ConfigCache) (final : Host) : Prop :=
  ∃ first begun fuel,
    toNextState slot (exchange.answer 0) cache (exchange.between 0 host) =
        .ok (true, first, begun) ∧
      first.state = state ∧ first.waitResponse = true ∧
      converse kind slot exchange fuel 1 first begun = .ok (some (sendings, last, final)) ∧
      Through state last

/-!
## The work of a slot

The states that go through keys, models or addresses differ in their iterators only.
`Enumerates` says what such a state does at a position, so that what it sends can be compared
with what a reader of the positions visits.
-/

/-- What the commands of a slot are made from.  The record of the node, its composition data and
the configuration of the network determine every command, and none of them changes while the slot
is at work. -/
structure Work where
  id : NodeId
  node : Node
  dcd : Dcd
  cfg : ProvCfg

/-- The slot does this work. -/
structure Work.At (work : Work) (cache : ConfigCache) (host : Host) : Prop where
  here : cache.node = some work.id
  record : host.db.heap work.id = work.node
  page : cache.dcd = work.dcd
  network : host.cfg = work.cfg

theorem Work.At.nodeOf {work : Work} {cache : ConfigCache} {host : Host}
    (own : work.At cache host) : host.nodeOf cache = .ok (work.id, work.node) := by
  simp only [Host.nodeOf, own.here, own.record]

/-- Every command is accepted, and nothing outside touches the work of the slot.  It is the
course of an exchange that the claims about the content of the commands are about; what happens
otherwise is a matter of the retries. -/
structure Exchange.Smooth (exchange : Exchange) (work : Work) : Prop where
  accepted : ∀ turn, (exchange.answer turn).result = bgErrSuccess
  record : ∀ turn host, (exchange.between turn host).db.heap work.id = host.db.heap work.id
  network : ∀ turn host, (exchange.between turn host).cfg = host.cfg

theorem Work.At.between {work : Work} {cache : ConfigCache} {host : Host} {exchange : Exchange}
    (own : work.At cache host) (smooth : exchange.Smooth work) (turn : Nat) :
    work.At cache (exchange.between turn host) where
  here := own.here
  record := (smooth.record turn host).trans own.record
  page := own.page
  network := (smooth.network turn host).trans own.network

/-- The result of an iteration: the slot stands at the next position, or has done the last one
and is back where it began. -/
def ConfigCache.moved {Position : Type} (cache : ConfigCache) (place : Position → Iterators) :
    Option Position → Bool × ConfigCache
  | some after => (false, { cache with iterators := place after })
  | none => (true, { cache with iterators := Iterators.home })

/-- A state goes through positions of its iterators: at a position it sends what is read there,
and a success takes it to the next one. -/
structure StatusOps.Enumerates (ops : StatusOps) (work : Work) {Position : Type}
    (place : Position → Iterators) (valid : Position → Prop)
    (read : Position → Option Command) (next : Position → Option Position) : Prop where
  sends : ∀ {position command} slot answer {cache host}, valid position →
    read position = some command → work.At cache host → cache.iterators = place position →
    ∃ vnm, ops.once slot answer cache host =
      .ok (send .endEm slot command answer { cache with vnm := vnm } host)
  stops : ∀ {position} slot answer {cache host}, valid position → read position = none →
    work.At cache host → cache.iterators = place position →
    ∃ failure, ops.once slot answer cache host = .error failure
  advances : ∀ {position command cache host}, valid position →
    read position = some command → work.At cache host → cache.iterators = place position →
    ops.iter cache host = .ok (cache.moved place (next position))
  inside : ∀ {position command after}, valid position → read position = some command →
    next position = some after → valid after
  accepts : ∀ {cache host}, work.At cache host →
    ops.accept bgErrSuccess cache host = .ok (some cache.retryClear)

/-- A state of the usual kind, as the list of states holds it. -/
def StatusOps.toState (ops : StatusOps) (state : AccState) (guard : GuardFn) : AccStateOps :=
  ⟨state, some guard, entryWith ops.once, some (statusInprg ops), some (retryWith ops.once)⟩

/-- The slot waits for the status of a command that it sent at a position.  The position is kept
in the iterators, which are moved only when the status has come. -/
structure Asked (work : Work) (state : AccState) (iterators : Iterators) (command : Command)
    (cache : ConfigCache) (host : Host) : Prop where
  own : work.At cache host
  state : cache.state = state
  iterators : cache.iterators = iterators
  waits : cache.waitResponse = true
  asked : host.lastSent = some command

section

variable {ops : StatusOps} {work : Work} {Position : Type} {place : Position → Iterators}
variable {valid : Position → Prop} {read : Position → Option Command}
variable {next : Position → Option Position} {state : AccState} {guard : GuardFn}
variable {rest : List AccStateOps} (slot : Slot) {cache : ConfigCache} {host : Host}

/-- An accepted command makes its slot wait for the status. -/
theorem send_asked (command : Command) {answer : CmdRsp} {iterators : Iterators} (vnm : Vnm)
    (accepted : answer.result = bgErrSuccess) (own : work.At cache host)
    (same : cache.state = state) (here : cache.iterators = iterators) :
    ∃ after, send .endEm slot command answer { cache with vnm := vnm } host =
        { ret := .suc, cache := after, host := host.record (.sent slot command answer) } ∧
      Asked work state iterators command after (host.record (.sent slot command answer)) := by
  refine ⟨ConfigCache.timerSet
    { cache with vnm := vnm, waitResponse := true, ccHandle := answer.handle }
    host.cfg.timeout answer.time, ?_, ?_⟩
  · unfold send
    rw [if_neg (not_not.mpr accepted)]
    rfl
  · exact ⟨⟨own.here, own.record, own.page, own.network⟩, same, here, rfl, rfl⟩

/-- No retry follows while the slot waits, or without a budget. -/
theorem eventRetry_quiet (manager : MngState) (input : EventInput) {own : AccStateOps}
    {out : Outcome} (calm : out.cache.waitResponse = true ∨ out.cache.everRetried = false) :
    eventRetry manager slot input own out = .ok (out.cache, out.host) := by
  have quiet : (decide (out.ret = .suc) && !out.cache.waitResponse && out.cache.everRetried)
      = false := by
    rcases calm with waits | fresh
    · simp [waits]
    · simp [fresh]
  unfold eventRetry
  cases own.retry with
  | none => rfl
  | some retry =>
      dsimp only
      rw [quiet]
      rfl

/-! ## Entering the state -/

variable (enumerates : ops.Enumerates work place valid read next)

include enumerates

/-- The round that enters the state sends the command of the first position. -/
theorem toNextState_begins {exchange : Exchange} (smooth : exchange.Smooth work)
    {targets : List AccStateOps} {position : Position} {command : Command}
    (leaves : leaveTargets cache = .ok (ops.toState state guard :: targets))
    (opened : ∀ cache host, work.At cache host → guard cache host = .ok true)
    (own : work.At cache host) (inside : valid position) (here : cache.iterators = place position)
    (reads : read position = some command) :
    ∃ first begun,
      toNextState slot (exchange.answer 0) cache (exchange.between 0 host) =
        .ok (true, first, begun) ∧
      Asked work state (place position) command first begun := by
  have before := own.between smooth 0
  obtain ⟨vnm, sent⟩ := enumerates.sends slot (exchange.answer 0) inside reads before here
  obtain ⟨later, sends, asked⟩ := send_asked slot command vnm (smooth.accepted 0) before rfl here
  refine ⟨{ later with state := state, nextState := some state }, _, ?_,
    ⟨asked.own.here, asked.own.record, asked.own.page, asked.own.network⟩, rfl,
    asked.iterators, asked.waits, asked.asked⟩
  rw [toNextState, leaves, ok_bind, enterStates, StatusOps.toState]
  simp only [entryWith, opened _ _ before, ok_bind, if_true, sent, sends]

/-- If nothing can be read at the first position, the program stops. -/
theorem toNextState_stuck {exchange : Exchange} (smooth : exchange.Smooth work)
    {targets : List AccStateOps} {position : Position}
    (leaves : leaveTargets cache = .ok (ops.toState state guard :: targets))
    (opened : ∀ cache host, work.At cache host → guard cache host = .ok true)
    (own : work.At cache host) (inside : valid position) (here : cache.iterators = place position)
    (nothing : read position = none) :
    ∃ failure, toNextState slot (exchange.answer 0) cache (exchange.between 0 host) =
      .error failure := by
  have before := own.between smooth 0
  obtain ⟨failure, fails⟩ := enumerates.stops slot (exchange.answer 0) inside nothing before here
  refine ⟨failure, ?_⟩
  rw [toNextState, leaves, ok_bind, enterStates, StatusOps.toState]
  simp only [entryWith, opened _ _ before, ok_bind, if_true, fails, error_bind]

/-! ## One turn -/

variable (found : asGet state = ops.toState state guard :: rest)

include found

/-- The success for a command takes its slot to the next position. -/
theorem slotEvent_eq (manager : MngState) (handle : UInt32) (input : EventInput)
    {position : Position} {command : Command} (inside : valid position)
    (reads : read position = some command) (own : work.At cache host)
    (same : cache.state = state) (here : cache.iterators = place position)
    (waits : cache.waitResponse = true) :
    slotEvent manager slot (.status ops.kind handle bgErrSuccess) input cache host = (do
      let out ← match next position with
        | some after =>
            ops.once slot input.inprg
              { cache.answered.retryClear with iterators := place after } host
        | none =>
            .ok { ret := .suc
                  cache := { cache.answered.retryClear with
                    iterators := Iterators.home, nextState := none }
                  host := host.record (.completed work.node.uuid work.node.addr state) }
      eventRetry manager slot input (ops.toState state guard) out) := by
  have answered : work.At cache.answered host := ⟨own.here, own.record, own.page, own.network⟩
  have cleared : work.At cache.answered.retryClear host :=
    ⟨own.here, own.record, own.page, own.network⟩
  have accept := enumerates.accepts answered
  have iter := enumerates.advances inside reads cleared here
  unfold slotEvent
  rw [same, found]
  simp only [eventInprg, StatusOps.toState, waits, if_true, statusInprg, ne_eq, not_true_eq_false,
    if_false]
  change (do
    let out ← (do
      let accepted ← ops.accept bgErrSuccess cache.answered host
      _)
    _) = _
  rw [accept, ok_bind]
  dsimp only
  rw [iter, ok_bind]
  cases next position with
  | some after => rfl
  | none =>
      have ended : work.At { cache.answered.retryClear with iterators := Iterators.home } host :=
        ⟨own.here, own.record, own.page, own.network⟩
      rw [ConfigCache.moved]
      dsimp only
      rw [if_pos rfl, finish, ended.nodeOf, ok_bind]
      change _ = ((.ok _ : Except Abort Outcome) >>= _)
      rw [ok_bind, ok_bind, ← same]
      rfl

/-- Behind the last position the slot is through. -/
theorem slotEvent_last (manager : MngState) (handle : UInt32) (input : EventInput)
    {position : Position} {command : Command} (inside : valid position)
    (reads : read position = some command) (ends : next position = none)
    (own : work.At cache host) (same : cache.state = state)
    (here : cache.iterators = place position) (waits : cache.waitResponse = true) :
    ∃ last final,
      slotEvent manager slot (.status ops.kind handle bgErrSuccess) input cache host =
        .ok (last, final) ∧ Through state last ∧ work.At last final := by
  have turn := slotEvent_eq slot enumerates found manager handle input inside reads own same here
    waits
  rw [ends] at turn
  dsimp only at turn
  rw [ok_bind, eventRetry_quiet slot manager input (.inr rfl)] at turn
  exact ⟨_, _, turn, ⟨same, rfl, rfl, rfl⟩, own.here, own.record, own.page, own.network⟩

/-- At every other position the slot asks for the command that is read at the next one. -/
theorem slotEvent_more (manager : MngState) (handle : UInt32) (input : EventInput)
    {position after : Position} {command following : Command} (inside : valid position)
    (reads : read position = some command) (advances : next position = some after)
    (own : work.At cache host) (same : cache.state = state)
    (here : cache.iterators = place position) (waits : cache.waitResponse = true)
    (accepted : input.inprg.result = bgErrSuccess) (readsNext : read after = some following) :
    ∃ later shared,
      slotEvent manager slot (.status ops.kind handle bgErrSuccess) input cache host =
        .ok (later, shared) ∧ Asked work state (place after) following later shared := by
  have turn := slotEvent_eq slot enumerates found manager handle input inside reads own same here
    waits
  have moved : work.At { cache.answered.retryClear with iterators := place after } host :=
    ⟨own.here, own.record, own.page, own.network⟩
  obtain ⟨vnm, sent⟩ := enumerates.sends slot input.inprg
    (enumerates.inside inside reads advances) readsNext moved rfl
  obtain ⟨later, sends, asked⟩ := send_asked slot following vnm accepted moved same rfl
  rw [advances] at turn
  dsimp only at turn
  rw [sent, sends, ok_bind, eventRetry_quiet slot manager input (.inl asked.waits)] at turn
  exact ⟨_, _, turn, asked⟩

/-- Where nothing can be read, the program stops. -/
theorem slotEvent_stuck (manager : MngState) (handle : UInt32) (input : EventInput)
    {position after : Position} {command : Command} (inside : valid position)
    (reads : read position = some command) (advances : next position = some after)
    (own : work.At cache host) (same : cache.state = state)
    (here : cache.iterators = place position) (waits : cache.waitResponse = true)
    (nothing : read after = none) :
    ∃ failure, slotEvent manager slot (.status ops.kind handle bgErrSuccess) input cache host =
      .error failure := by
  have turn := slotEvent_eq slot enumerates found manager handle input inside reads own same here
    waits
  have moved : work.At { cache.answered.retryClear with iterators := place after } host :=
    ⟨own.here, own.record, own.page, own.network⟩
  obtain ⟨failure, fails⟩ := enumerates.stops slot input.inprg
    (enumerates.inside inside reads advances) nothing moved rfl
  rw [advances] at turn
  dsimp only at turn
  rw [fails, error_bind] at turn
  exact ⟨failure, turn⟩

/-!
## Whole conversations

Both directions are inductions on the number of commands: what the reader visits the slot sends,
and what the slot sends until it waits no longer the reader visits.
-/

/-- What a reader of the positions visits, the slot sends. -/
theorem converse_of_visits {exchange : Exchange} (smooth : exchange.Smooth work)
    {position : Position} {visited : List (Position × Command)}
    (visits : Visits read next position visited) {command : Command} (turn : Nat)
    (inside : valid position) (reads : read position = some command)
    (asked : Asked work state (place position) command cache host) :
    ∃ fuel last final,
      converse ops.kind slot exchange fuel turn cache host =
        .ok (some (visited.map fun sending => (place sending.1, sending.2), last, final)) := by
  induction visits generalizing command turn cache host with
  | last reads' ends =>
      cases reads.symm.trans reads'
      obtain ⟨last, final, done, through, _⟩ := slotEvent_last slot enumerates found
        exchange.manager cache.ccHandle
        { inprg := exchange.answer turn, retry := exchange.answer turn } inside reads ends
        (asked.own.between smooth turn) asked.state asked.iterators asked.waits
      refine ⟨2, last, final, ?_⟩
      simp only [converse, asked.waits, if_true, asked.asked, done, ok_bind, through.idle,
        Bool.false_eq_true, if_false, asked.iterators, List.map_cons, List.map_nil]
  | more reads' advances visitsLater hypothesis =>
      cases reads.symm.trans reads'
      obtain ⟨following, readsNext⟩ := visitsLater.reads
      obtain ⟨later, shared, done, again⟩ := slotEvent_more slot enumerates found
        exchange.manager cache.ccHandle
        { inprg := exchange.answer turn, retry := exchange.answer turn } inside reads advances
        (asked.own.between smooth turn) asked.state asked.iterators
        asked.waits (smooth.accepted turn) readsNext
      obtain ⟨fuel, last, final, rest⟩ := hypothesis (turn + 1)
        (enumerates.inside inside reads advances) readsNext again
      refine ⟨fuel + 1, last, final, ?_⟩
      simp only [converse, asked.waits, if_true, asked.asked, done, ok_bind, rest,
        asked.iterators, List.map_cons]

/-- What the slot sends until it waits no longer, a reader of the positions visits. -/
theorem visits_of_converse {exchange : Exchange} (smooth : exchange.Smooth work)
    {fuel turn : Nat} {position : Position} {command : Command}
    {sendings : List (Iterators × Command)} {last : ConfigCache} {final : Host}
    (inside : valid position) (reads : read position = some command)
    (asked : Asked work state (place position) command cache host)
    (conversed : converse ops.kind slot exchange fuel turn cache host =
      .ok (some (sendings, last, final))) :
    ∃ visited, Visits read next position visited ∧
      sendings = visited.map (fun sending => (place sending.1, sending.2)) ∧
      Through state last ∧ work.At last final := by
  induction fuel generalizing turn position command cache host sendings with
  | zero => cases conversed
  | succ fuel hypothesis =>
      simp only [converse, asked.waits, if_true, asked.asked] at conversed
      cases advances : next position with
      | none =>
          obtain ⟨ended, shared, done, through, own⟩ := slotEvent_last slot enumerates found
            exchange.manager cache.ccHandle
            { inprg := exchange.answer turn, retry := exchange.answer turn } inside reads
            advances (asked.own.between smooth turn) asked.state asked.iterators
            asked.waits
          rw [done, ok_bind] at conversed
          dsimp only at conversed
          cases fuel with
          | zero => cases conversed
          | succ fuel =>
              simp only [converse, through.idle, Bool.false_eq_true, if_false, ok_bind,
                Except.ok.injEq, Option.some.injEq, Prod.mk.injEq] at conversed
              obtain ⟨rfl, rfl, rfl⟩ := conversed
              exact ⟨_, .last reads advances, by rw [asked.iterators]; rfl, through, own⟩
      | some after =>
          cases readsNext : read after with
          | none =>
              obtain ⟨failure, stuck⟩ := slotEvent_stuck slot enumerates found
                exchange.manager cache.ccHandle
                { inprg := exchange.answer turn, retry := exchange.answer turn } inside reads
                advances (asked.own.between smooth turn) asked.state
                asked.iterators asked.waits readsNext
              rw [stuck, error_bind] at conversed
              cases conversed
          | some following =>
              obtain ⟨later, shared, done, again⟩ := slotEvent_more slot enumerates found
                exchange.manager cache.ccHandle
                { inprg := exchange.answer turn, retry := exchange.answer turn } inside reads
                advances (asked.own.between smooth turn)
                asked.state asked.iterators asked.waits (smooth.accepted turn) readsNext
              rw [done, ok_bind] at conversed
              dsimp only at conversed
              obtain ⟨result, rest, conversed⟩ := bind_ok.mp conversed
              cases result with
              | none => cases conversed
              | some result =>
                  obtain ⟨others, ended, shared'⟩ := result
                  simp only [Except.ok.injEq, Option.some.injEq, Prod.mk.injEq] at conversed
                  obtain ⟨rfl, rfl, rfl⟩ := conversed
                  obtain ⟨visited, visits, rfl, through, own⟩ := hypothesis
                    (enumerates.inside inside reads advances) readsNext again rest
                  exact ⟨_, .more reads advances visits, by rw [asked.iterators]; rfl, through,
                    own⟩

/-! ## The commands of a state -/

/-- A slot completes the state with some commands exactly when a reader of the positions visits
them. -/
theorem completes_iff {exchange : Exchange} (smooth : exchange.Smooth work)
    {targets : List AccStateOps} {position : Position}
    (leaves : leaveTargets cache = .ok (ops.toState state guard :: targets))
    (opened : ∀ cache host, work.At cache host → guard cache host = .ok true)
    (own : work.At cache host) (inside : valid position) (here : cache.iterators = place position)
    {sendings : List (Iterators × Command)} :
    (∃ last final, Completes state ops.kind slot exchange cache host sendings last final) ↔
      ∃ visited, Visits read next position visited ∧
        sendings = visited.map fun sending => (place sending.1, sending.2) := by
  constructor
  · rintro ⟨last, final, first, begun, fuel, enters, _, _, conversed, _⟩
    cases reads : read position with
    | none =>
        obtain ⟨failure, fails⟩ :=
          toNextState_stuck slot enumerates smooth leaves opened own inside here
          reads
        cases fails.symm.trans enters
    | some command =>
        obtain ⟨first', begun', enters', asked⟩ :=
          toNextState_begins slot enumerates smooth leaves opened own
          inside here reads
        cases enters'.symm.trans enters
        obtain ⟨visited, visits, same, _⟩ := visits_of_converse slot enumerates found smooth inside
          reads asked conversed
        exact ⟨visited, visits, same⟩
  · rintro ⟨visited, visits, rfl⟩
    obtain ⟨command, reads⟩ := visits.reads
    obtain ⟨first, begun, enters, asked⟩ :=
      toNextState_begins slot enumerates smooth leaves opened own
          inside here reads
    obtain ⟨fuel, last, final, conversed⟩ :=
      converse_of_visits slot enumerates found smooth visits 1 inside reads
      asked
    obtain ⟨_, _, _, through, _⟩ :=
      visits_of_converse slot enumerates found smooth inside reads asked
      conversed
    exact ⟨last, final, first, begun, fuel, enters, asked.state, asked.waits, conversed,
      through⟩

/-- A slot that completes the state does the same work afterwards. -/
theorem Completes.own {exchange : Exchange} (smooth : exchange.Smooth work)
    {targets : List AccStateOps} {position : Position}
    (leaves : leaveTargets cache = .ok (ops.toState state guard :: targets))
    (opened : ∀ cache host, work.At cache host → guard cache host = .ok true)
    (own : work.At cache host) (inside : valid position) (here : cache.iterators = place position)
    {sendings : List (Iterators × Command)} {last : ConfigCache} {final : Host}
    (completes : Completes state ops.kind slot exchange cache host sendings last final) :
    work.At last final := by
  obtain ⟨first, begun, fuel, enters, _, _, conversed, _⟩ := completes
  cases reads : read position with
  | none =>
      obtain ⟨failure, fails⟩ :=
        toNextState_stuck slot enumerates smooth leaves opened own inside here
          reads
      cases fails.symm.trans enters
  | some command =>
      obtain ⟨first', begun', enters', asked⟩ :=
        toNextState_begins slot enumerates smooth leaves opened own
          inside here reads
      cases enters'.symm.trans enters
      obtain ⟨_, _, _, _, after⟩ :=
        visits_of_converse slot enumerates found smooth inside reads asked
        conversed
      exact after

end

end Nwmng
