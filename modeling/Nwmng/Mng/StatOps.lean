/-
Module: Nwmng.Mng.StatOps
Purpose: The functions of the statistics as operations on one record, what each of them may
change, and the tally of events that the counters have to agree with.
Trusted boundary: none
Main exports:
  StatOp, StatOp.OwnRecord, StatOp.ownRecord_iff, Tally, Account, Account.Exact,
  StatOp.Fits, Books, OwnCalls, Books.exact_, Books.keepsEnd
-/
import Mathlib.Logic.Relation
import Nwmng.Mng.Stat

namespace Nwmng

/-! ## The operations -/

/-- The phases that have a record of their own. -/
inductive StatPhase where
  | add
  | rm
  | bl
  | config
deriving Repr, DecidableEq

/-- The functions `stat_*` that a synchronization calls after `stat_reset`.  They all write one
global record, in which each phase has a part. -/
inductive StatOp where
  | addStart (now : Nat)
  | addEnd (now : Nat)
  | addOneDev
  | addFailed
  | configStart (now : Nat)
  | configEnd (now : Nat)
  | configOneDev
  | configRetry
  | configLoadingRecord (full : Bool) (now : Nat)
  | blStart (now : Nat)
  | blEnd (now : Nat)
  | rmStart (now : Nat)
  | rmEnd (now : Nat)
  | rmOneDev
  | rmRetry

namespace StatOp

def run (stat : Stat) : StatOp → Stat
  | .addStart now => stat.addStart now
  | .addEnd now => stat.addEnd now
  | .addOneDev => stat.addOneDev
  | .addFailed => stat.addFailed
  | .configStart now => stat.configStart now
  | .configEnd now => stat.configEnd now
  | .configOneDev => stat.configOneDev
  | .configRetry => stat.configRetry
  | .configLoadingRecord full now => stat.configLoadingRecord full now
  | .blStart now => stat.blStart now
  | .blEnd now => stat.blEnd now
  | .rmStart now => stat.rmStart now
  | .rmEnd now => stat.rmEnd now
  | .rmOneDev => stat.rmOneDev
  | .rmRetry => stat.rmRetry

/-- The phase an operation is named after. -/
def phase : StatOp → StatPhase
  | .addStart _ | .addEnd _ | .addOneDev | .addFailed => .add
  | .configStart _ | .configEnd _ | .configOneDev | .configRetry
  | .configLoadingRecord .. => .config
  | .blStart _ | .blEnd _ => .bl
  | .rmStart _ | .rmEnd _ | .rmOneDev | .rmRetry => .rm

/-- The operations that close the record of their phase. -/
def ends : StatOp → Bool
  | .addEnd _ | .configEnd _ | .blEnd _ | .rmEnd _ => true
  | _ => false

end StatOp

/-- The time record of a phase. -/
def Stat.time (stat : Stat) : StatPhase → MeasureTime
  | .add => stat.add.time
  | .rm => stat.rm.time
  | .bl => stat.bl
  | .config => stat.config.time

/-- The records of all other phases are as before. -/
structure Stat.SameElsewhere (phase : StatPhase) (before after : Stat) : Prop where
  add : phase ≠ .add → after.add = before.add
  rm : phase ≠ .rm → after.rm = before.rm
  bl : phase ≠ .bl → after.bl = before.bl
  config : phase ≠ .config → after.config = before.config

theorem Stat.SameElsewhere.refl (phase : StatPhase) (stat : Stat) :
    stat.SameElsewhere phase stat :=
  ⟨fun _ => rfl, fun _ => rfl, fun _ => rfl, fun _ => rfl⟩

/-- The operation changes the record of its own phase only. -/
def StatOp.OwnRecord (op : StatOp) (stat : Stat) : Prop :=
  stat.SameElsewhere op.phase (op.run stat)

/-- The part of the adding record that `stat_bl_start` clears is clear already.  The function
clears as many bytes as the record of the blacklisting has, but from the start of the adding
record. -/
structure AddStat.HeadClear (add : AddStat) : Prop where
  devCnt : add.devCnt = 0
  failTimes : add.failTimes = 0
  state : add.time.state = .idle
  start : add.time.start = 0

theorem AddStat.HeadClear.eq {add : AddStat} (clear : add.HeadClear) :
    add = { devCnt := 0, failTimes := 0
            time := { state := .idle, start := 0, end_ := add.time.end_ } } := by
  obtain ⟨devCnt, failTimes, state, start, end_⟩ := add
  obtain ⟨noDevice, noFailure, idle, never⟩ := clear
  dsimp only at noDevice noFailure idle never
  rw [noDevice, noFailure, idle, never]

/-- The operation is not the first `stat_bl_start`, or there is nothing it can clear. -/
def StatOp.Spares (stat : Stat) : StatOp → Prop
  | .blStart _ => stat.bl.state = .idle → stat.add.HeadClear
  | _ => True

/-- Measuring the load changes what was measured, and nothing else. -/
theorem configLoadingRecord_eq (stat : Stat) (full : Bool) (now : Nat) :
    ∃ time meas, stat.configLoadingRecord full now =
      { stat with config := { stat.config with
          fullLoadingTime := time, fullLoadingMeas := meas } } := by
  unfold Stat.configLoadingRecord
  dsimp only
  split
  · split
    · exact ⟨_, _, rfl⟩
    · exact ⟨_, _, rfl⟩
  · split
    · exact ⟨_, _, rfl⟩
    · exact ⟨_, _, rfl⟩

/-- Every operation but the first `stat_bl_start` changes its own record only, and that one
does so exactly when the adding record is still clear. -/
theorem StatOp.ownRecord_iff (op : StatOp) (stat : Stat) : op.OwnRecord stat ↔ op.Spares stat := by
  unfold OwnRecord
  cases op with
  | blStart now =>
      simp only [Spares, phase]
      by_cases fresh : stat.bl.state = .idle
      · have cleared : ((StatOp.blStart now).run stat).add =
            { devCnt := 0, failTimes := 0
              time := { state := .idle, start := 0, end_ := stat.add.time.end_ } } := by
          simp [run, Stat.blStart, fresh]
        constructor
        · intro same _
          have head := cleared.symm.trans (same.add (nomatch ·))
          rw [← head]
          exact ⟨rfl, rfl, rfl, rfl⟩
        · intro clear
          refine ⟨fun _ => cleared.trans (clear fresh).eq.symm, ?_,
            fun other => absurd rfl other, ?_⟩
          · intro _
            simp [run, Stat.blStart, fresh]
          · intro _
            simp [run, Stat.blStart, fresh]
      · have quiet : (StatOp.blStart now).run stat = stat := by
          simp [run, Stat.blStart, fresh]
        rw [quiet]
        exact ⟨fun _ idle => absurd idle fresh, fun _ => .refl _ stat⟩
  | addStart now =>
      refine ⟨fun _ => trivial, fun _ => ?_⟩
      simp only [run, Stat.addStart]
      split
      · exact .refl _ stat
      · exact ⟨fun other => absurd rfl other, fun _ => rfl, fun _ => rfl, fun _ => rfl⟩
  | configStart now =>
      refine ⟨fun _ => trivial, fun _ => ?_⟩
      simp only [run, Stat.configStart]
      split
      · exact .refl _ stat
      · exact ⟨fun _ => rfl, fun _ => rfl, fun _ => rfl, fun other => absurd rfl other⟩
  | rmStart now =>
      refine ⟨fun _ => trivial, fun _ => ?_⟩
      simp only [run, Stat.rmStart]
      split
      · exact .refl _ stat
      · exact ⟨fun _ => rfl, fun other => absurd rfl other, fun _ => rfl, fun _ => rfl⟩
  | configLoadingRecord full now =>
      refine ⟨fun _ => trivial, fun _ => ?_⟩
      obtain ⟨time, meas, same⟩ := configLoadingRecord_eq stat full now
      simp only [run, same]
      exact ⟨fun _ => rfl, fun _ => rfl, fun _ => rfl, fun other => absurd rfl other⟩
  | addEnd _ | addOneDev | addFailed =>
      exact ⟨fun _ => trivial,
        fun _ => ⟨fun other => absurd rfl other, fun _ => rfl, fun _ => rfl, fun _ => rfl⟩⟩
  | configEnd _ | configOneDev | configRetry =>
      exact ⟨fun _ => trivial,
        fun _ => ⟨fun _ => rfl, fun _ => rfl, fun _ => rfl, fun other => absurd rfl other⟩⟩
  | rmEnd _ | rmOneDev | rmRetry =>
      exact ⟨fun _ => trivial,
        fun _ => ⟨fun _ => rfl, fun other => absurd rfl other, fun _ => rfl, fun _ => rfl⟩⟩
  | blEnd _ =>
      exact ⟨fun _ => trivial,
        fun _ => ⟨fun _ => rfl, fun _ => rfl, fun other => absurd rfl other, fun _ => rfl⟩⟩

/-!
## The tally

The counters are cleared when their phase begins, and raised from callbacks that may run before
or after it.  Beside them runs a tally that nothing clears: it counts the events and the slots
themselves.  The two agree as long as every clearing call comes before the first count of its
phase, and as long as the counts fit into an `unsigned`.
-/

/-- What the counters of the statistics should tell: the devices provisioned, the failures
counted, and the slots that finished a configuration or a removal. -/
structure Tally where
  provisioned : Nat
  failed : Nat
  configured : Nat
  removed : Nat
deriving Repr, DecidableEq

def Tally.zero : Tally := { provisioned := 0, failed := 0, configured := 0, removed := 0 }

/-- What an operation stands for. -/
def StatOp.count (tally : Tally) : StatOp → Tally
  | .addOneDev => { tally with provisioned := tally.provisioned + 1 }
  | .addFailed => { tally with failed := tally.failed + 1 }
  | .configOneDev => { tally with configured := tally.configured + 1 }
  | .rmOneDev => { tally with removed := tally.removed + 1 }
  | _ => tally

/-- The statistics tell the tally.  The tally is counted beside the program, in numbers without a
bound, from the events and not from what the program writes. -/
structure Stat.Tells (stat : Stat) (tally : Tally) : Prop where
  provisioned : stat.add.devCnt.toNat = tally.provisioned
  failed : stat.add.failTimes.toNat = tally.failed
  configured : stat.config.devCnt.toNat = tally.configured
  removed : stat.rm.devCnt.toNat = tally.removed

/-- No count is beyond what an `unsigned` can hold.  The counters of the source wrap around
there; the claim about them ends with this bound. -/
structure Tally.Bounded (tally : Tally) : Prop where
  provisioned : tally.provisioned < UInt32.size
  failed : tally.failed < UInt32.size
  configured : tally.configured < UInt32.size
  removed : tally.removed < UInt32.size

/-- The counters are the counts of the tally, as far as they fit: this is what each operation
keeps, also when a counter wraps. -/
structure Stat.Wraps (stat : Stat) (tally : Tally) : Prop where
  provisioned : stat.add.devCnt = UInt32.ofNat tally.provisioned
  failed : stat.add.failTimes = UInt32.ofNat tally.failed
  configured : stat.config.devCnt = UInt32.ofNat tally.configured
  removed : stat.rm.devCnt = UInt32.ofNat tally.removed

theorem toNat_wrapped_iff {counter : UInt32} {count : Nat} (wraps : counter = UInt32.ofNat count) :
    counter.toNat = count ↔ count < UInt32.size := by
  rw [wraps, UInt32.toNat_ofNat']
  constructor
  · intro same
    rw [← same]
    exact Nat.mod_lt _ (by decide)
  · exact Nat.mod_eq_of_lt

/-- Counters that only wrap tell the tally exactly as long as the counts fit. -/
theorem Stat.Wraps.tells_iff {stat : Stat} {tally : Tally} (wraps : stat.Wraps tally) :
    stat.Tells tally ↔ tally.Bounded := by
  constructor
  · intro tells
    exact ⟨(toNat_wrapped_iff wraps.provisioned).mp tells.provisioned,
      (toNat_wrapped_iff wraps.failed).mp tells.failed,
      (toNat_wrapped_iff wraps.configured).mp tells.configured,
      (toNat_wrapped_iff wraps.removed).mp tells.removed⟩
  · intro bounded
    exact ⟨(toNat_wrapped_iff wraps.provisioned).mpr bounded.provisioned,
      (toNat_wrapped_iff wraps.failed).mpr bounded.failed,
      (toNat_wrapped_iff wraps.configured).mpr bounded.configured,
      (toNat_wrapped_iff wraps.removed).mpr bounded.removed⟩

/-- One more is counted. -/
theorem wraps_succ {counter : UInt32} {count : Nat} (wraps : counter = UInt32.ofNat count) :
    counter + 1 = UInt32.ofNat (count + 1) := by
  rw [wraps, UInt32.ofNat_add]
  rfl

/-- A counter that was cleared before anything was counted. -/
theorem wraps_zero {count : Nat} (nothing : count = 0) : (0 : UInt32) = UInt32.ofNat count := by
  rw [nothing]
  rfl

/-- The statistics beside the tally. -/
structure Account where
  stat : Stat
  tally : Tally

namespace Account

def call (account : Account) (op : StatOp) : Account :=
  { stat := op.run account.stat, tally := op.count account.tally }

/-- The counters follow the tally, and a phase whose record is still idle has counted nothing
that its start would clear. -/
structure Exact (account : Account) : Prop where
  wraps : account.stat.Wraps account.tally
  config : account.stat.config.time.state = .idle → account.tally.configured = 0
  rm : account.stat.rm.time.state = .idle → account.tally.removed = 0
  start : account.stat.add.time.state = .idle → account.stat.add.time.start = 0

/-- Nothing of the adding phase has been counted. -/
def NothingAdded (account : Account) : Prop :=
  account.tally.provisioned = 0 ∧ account.tally.failed = 0

end Account

/-- When an operation is called as it should be: the two starts that clear the counters of the
adding phase find nothing in them, and a slot finishes in a phase that has begun. -/
def StatOp.Fits (account : Account) : StatOp → Prop
  | .addStart _ => account.stat.add.time.state = .idle → account.NothingAdded
  | .blStart _ => account.stat.bl.state = .idle →
      account.stat.add.time.state = .idle ∧ account.NothingAdded
  | .configOneDev => account.stat.config.time.state ≠ .idle
  | .rmOneDev => account.stat.rm.time.state ≠ .idle
  | _ => True

theorem MeasureTime.ended_idle (time : MeasureTime) (now : Nat) :
    (time.ended now).state = .idle ↔ time.state = .idle := by
  unfold ended
  split
  · rfl
  · rename_i started
    exact ⟨fun impossible => (nomatch impossible), fun idle => absurd idle started⟩

theorem MeasureTime.ended_start (time : MeasureTime) (now : Nat) :
    (time.ended now).start = time.start := by
  unfold ended
  split
  · rfl
  · rfl

namespace Account.Exact

variable {account : Account} {op : StatOp}

/-- An operation that is called as it should be keeps the statistics exact. -/
theorem call (exact_ : account.Exact) (fits : op.Fits account) : (account.call op).Exact := by
  obtain ⟨⟨provisioned, failed, configured, removed⟩, config, rm, start⟩ := exact_
  cases op with
  | addStart now =>
      by_cases fresh : account.stat.add.time.state = .idle
      · obtain ⟨noDevice, noFailure⟩ := fits fresh
        have after : account.call (.addStart now) =
            { account with stat := { account.stat with
                add := { devCnt := 0, failTimes := 0, time := .begun now } } } := by
          simp [Account.call, StatOp.run, StatOp.count, Stat.addStart, fresh]
        rw [after]
        exact ⟨⟨wraps_zero noDevice, wraps_zero noFailure, configured, removed⟩, config, rm,
          fun idle => (nomatch idle)⟩
      · have quiet : account.call (.addStart now) = account := by
          simp [Account.call, StatOp.run, StatOp.count, Stat.addStart, fresh]
        rw [quiet]
        exact ⟨⟨provisioned, failed, configured, removed⟩, config, rm, start⟩
  | blStart now =>
      by_cases fresh : account.stat.bl.state = .idle
      · obtain ⟨idle, noDevice, noFailure⟩ := fits fresh
        have after : account.call (.blStart now) =
            { account with stat := { account.stat with
                add :=
                  { devCnt := 0, failTimes := 0
                    time := { state := .idle, start := 0, end_ := account.stat.add.time.end_ } }
                bl := { account.stat.bl with state := .start, start := now } } } := by
          simp [Account.call, StatOp.run, StatOp.count, Stat.blStart, fresh]
        rw [after]
        exact ⟨⟨wraps_zero noDevice, wraps_zero noFailure, configured, removed⟩, config, rm,
          fun _ => rfl⟩
      · have quiet : account.call (.blStart now) = account := by
          simp [Account.call, StatOp.run, StatOp.count, Stat.blStart, fresh]
        rw [quiet]
        exact ⟨⟨provisioned, failed, configured, removed⟩, config, rm, start⟩
  | configStart now =>
      by_cases fresh : account.stat.config.time.state = .idle
      · have nothing := config fresh
        have after : account.call (.configStart now) =
            { account with stat := { account.stat with
                config :=
                  { devCnt := 0, retryTimes := 0, time := .begun now
                    fullLoadingTime := 0, fullLoadingMeas := .zeroed } } } := by
          simp [Account.call, StatOp.run, StatOp.count, Stat.configStart, fresh]
        rw [after]
        exact ⟨⟨provisioned, failed, wraps_zero nothing, removed⟩, fun idle => (nomatch idle), rm,
          start⟩
      · have quiet : account.call (.configStart now) = account := by
          simp [Account.call, StatOp.run, StatOp.count, Stat.configStart, fresh]
        rw [quiet]
        exact ⟨⟨provisioned, failed, configured, removed⟩, config, rm, start⟩
  | rmStart now =>
      by_cases fresh : account.stat.rm.time.state = .idle
      · have nothing := rm fresh
        have after : account.call (.rmStart now) =
            { account with stat := { account.stat with
                rm := { devCnt := 0, retryTimes := 0, time := .begun now } } } := by
          simp [Account.call, StatOp.run, StatOp.count, Stat.rmStart, fresh]
        rw [after]
        exact ⟨⟨provisioned, failed, configured, wraps_zero nothing⟩, config,
          fun idle => (nomatch idle),
          start⟩
      · have quiet : account.call (.rmStart now) = account := by
          simp [Account.call, StatOp.run, StatOp.count, Stat.rmStart, fresh]
        rw [quiet]
        exact ⟨⟨provisioned, failed, configured, removed⟩, config, rm, start⟩
  | configOneDev =>
      refine ⟨⟨provisioned, failed, wraps_succ configured, removed⟩, ?_, rm, start⟩
      intro idle
      exact absurd idle fits
  | rmOneDev =>
      refine ⟨⟨provisioned, failed, configured, wraps_succ removed⟩, config, ?_, start⟩
      intro idle
      exact absurd idle fits
  | addOneDev =>
      exact ⟨⟨wraps_succ provisioned, failed, configured, removed⟩, config, rm, start⟩
  | addFailed =>
      exact ⟨⟨provisioned, wraps_succ failed, configured, removed⟩, config, rm, start⟩
  | addEnd now =>
      refine ⟨⟨provisioned, failed, configured, removed⟩, config, rm, ?_⟩
      intro idle
      exact (MeasureTime.ended_start _ now).trans
        (start ((MeasureTime.ended_idle _ now).mp idle))
  | configEnd now =>
      refine ⟨⟨provisioned, failed, configured, removed⟩, ?_, rm, start⟩
      intro idle
      exact config ((MeasureTime.ended_idle _ now).mp idle)
  | rmEnd now =>
      refine ⟨⟨provisioned, failed, configured, removed⟩, config, ?_, start⟩
      intro idle
      exact rm ((MeasureTime.ended_idle _ now).mp idle)
  | configLoadingRecord full now =>
      obtain ⟨time, meas, same⟩ := configLoadingRecord_eq account.stat full now
      have after : account.call (.configLoadingRecord full now) =
          { account with stat := { account.stat with config := { account.stat.config with
              fullLoadingTime := time, fullLoadingMeas := meas } } } := by
        simp only [Account.call, StatOp.run, same, StatOp.count]
      rw [after]
      exact ⟨⟨provisioned, failed, configured, removed⟩, config, rm, start⟩
  | configRetry | rmRetry | blEnd now =>
      exact ⟨⟨provisioned, failed, configured, removed⟩, config, rm, start⟩

/-- An operation that is called as it should be changes its own record only. -/
theorem ownRecord (exact_ : account.Exact) (fits : op.Fits account) :
    op.OwnRecord account.stat := by
  rw [StatOp.ownRecord_iff]
  cases op with
  | blStart now =>
      intro fresh
      obtain ⟨idle, noDevice, noFailure⟩ := fits fresh
      exact ⟨exact_.wraps.provisioned.trans (wraps_zero noDevice).symm,
        exact_.wraps.failed.trans (wraps_zero noFailure).symm, idle, exact_.start idle⟩
  | _ => trivial

end Account.Exact

/-!
## Ended phases

The final print reads the times of phases that may have ended long before.  A phase can end more
than once, each time with a new end time; nothing else may touch a record that has ended.
-/

/-- A record that has ended stays so and keeps its start; its end time is another one only
where the phase may have ended again. -/
def MeasureTime.KeepsEnd (again : Prop) (before after : MeasureTime) : Prop :=
  before.state = .end_ → after.state = .end_ ∧ after.start = before.start ∧
    (after.end_ = before.end_ ∨ again)

theorem MeasureTime.KeepsEnd.refl (again : Prop) (time : MeasureTime) :
    time.KeepsEnd again time := fun ended => ⟨ended, rfl, .inl rfl⟩

theorem MeasureTime.KeepsEnd.trans {again : Prop} {first second third : MeasureTime}
    (one : first.KeepsEnd again second) (two : second.KeepsEnd again third) :
    first.KeepsEnd again third := by
  intro ended
  obtain ⟨state, start, end_⟩ := one ended
  obtain ⟨lastState, lastStart, lastEnd⟩ := two state
  refine ⟨lastState, lastStart.trans start, ?_⟩
  rcases end_ with same | repeated
  · rcases lastEnd with sameAgain | repeated
    · exact .inl (sameAgain.trans same)
    · exact .inr repeated
  · exact .inr repeated

theorem MeasureTime.keepsEnd_ended {again : Prop} (time : MeasureTime) (now : Nat)
    (here : again) : time.KeepsEnd again (time.ended now) := by
  intro ended
  unfold MeasureTime.ended
  rw [if_neg (by rw [ended]; decide)]
  exact ⟨rfl, rfl, .inr here⟩

/-- An operation keeps the ended records, but for the end time of the phase it ends. -/
theorem StatOp.Fits.keepsEnd {account : Account} {op : StatOp} (fits : op.Fits account)
    (phase : StatPhase) :
    (account.stat.time phase).KeepsEnd (op.ends = true ∧ op.phase = phase)
      ((op.run account.stat).time phase) := by
  have same : ∀ {again : Prop} {after : MeasureTime}, after = account.stat.time phase →
      (account.stat.time phase).KeepsEnd again after := by
    intro again after equal
    rw [equal]
    exact .refl _ _
  -- a phase that begins was idle
  have begun : ∀ {again : Prop} {after : MeasureTime}, (account.stat.time phase).state = .idle →
      (account.stat.time phase).KeepsEnd again after := by
    intro again after idle ended
    rw [idle] at ended
    cases ended
  cases op with
  | addStart now =>
      simp only [run, Stat.addStart]
      split
      · exact .refl _ _
      · rename_i fresh
        cases phase with
        | add => exact begun (Decidable.of_not_not fresh)
        | _ => exact same rfl
  | configStart now =>
      simp only [run, Stat.configStart]
      split
      · exact .refl _ _
      · rename_i fresh
        cases phase with
        | config => exact begun (Decidable.of_not_not fresh)
        | _ => exact same rfl
  | rmStart now =>
      simp only [run, Stat.rmStart]
      split
      · exact .refl _ _
      · rename_i fresh
        cases phase with
        | rm => exact begun (Decidable.of_not_not fresh)
        | _ => exact same rfl
  | blStart now =>
      simp only [run, Stat.blStart]
      split
      · exact .refl _ _
      · rename_i fresh
        have idle := Decidable.of_not_not fresh
        cases phase with
        | bl => exact begun idle
        | add => exact begun (fits idle).1
        | _ => exact same rfl
  | addEnd now =>
      cases phase with
      | add => exact MeasureTime.keepsEnd_ended _ now ⟨rfl, rfl⟩
      | _ => exact same rfl
  | configEnd now =>
      cases phase with
      | config => exact MeasureTime.keepsEnd_ended _ now ⟨rfl, rfl⟩
      | _ => exact same rfl
  | rmEnd now =>
      cases phase with
      | rm => exact MeasureTime.keepsEnd_ended _ now ⟨rfl, rfl⟩
      | _ => exact same rfl
  | blEnd now =>
      cases phase with
      | bl => exact MeasureTime.keepsEnd_ended _ now ⟨rfl, rfl⟩
      | _ => exact same rfl
  | configLoadingRecord full now =>
      obtain ⟨time, meas, shape⟩ := configLoadingRecord_eq account.stat full now
      apply same
      simp only [run, shape]
      cases phase <;> rfl
  | _ => exact same (by cases phase <;> rfl)

/-- A phase that has begun stays so, but for the adding phase, which `stat_bl_start` can
undo. -/
theorem StatOp.begun_run {stat : Stat} {phase : StatPhase} (op : StatOp) (other : phase ≠ .add)
    (begun : (stat.time phase).state ≠ .idle) : ((op.run stat).time phase).state ≠ .idle := by
  have same : ∀ {after : MeasureTime}, after = stat.time phase → after.state ≠ .idle := by
    intro after equal
    rw [equal]
    exact begun
  have ended : ∀ now, ((stat.time phase).ended now).state ≠ .idle := by
    intro now
    rw [ne_eq, MeasureTime.ended_idle]
    exact begun
  cases op with
  | addStart now =>
      simp only [run, Stat.addStart]
      split
      · exact begun
      · cases phase with
        | add => exact absurd rfl other
        | _ => exact begun
  | configStart now =>
      simp only [run, Stat.configStart]
      split
      · exact begun
      · cases phase with
        | config => exact fun idle => (nomatch idle)
        | _ => exact begun
  | rmStart now =>
      simp only [run, Stat.rmStart]
      split
      · exact begun
      · cases phase with
        | rm => exact fun idle => (nomatch idle)
        | _ => exact begun
  | blStart now =>
      simp only [run, Stat.blStart]
      split
      · exact begun
      · cases phase with
        | bl => exact fun idle => (nomatch idle)
        | add => exact absurd rfl other
        | _ => exact begun
  | configEnd now =>
      cases phase with
      | config => exact ended now
      | _ => exact begun
  | rmEnd now =>
      cases phase with
      | rm => exact ended now
      | _ => exact begun
  | blEnd now =>
      cases phase with
      | bl => exact ended now
      | _ => exact begun
  | addEnd now =>
      cases phase with
      | add => exact absurd rfl other
      | _ => exact begun
  | configLoadingRecord full now =>
      obtain ⟨time, meas, shape⟩ := configLoadingRecord_eq stat full now
      apply same
      simp only [run, shape]
      cases phase <;> rfl
  | _ => exact same (by cases phase <;> rfl)

/-! ## Sequences of calls -/

/-- One call of an operation, as it should be; `ends` tells which phases may end.  Every step of
a synchronization is shown to be a chain of such calls, and the statistics are judged on the
chains. -/
inductive BookStep (ends : StatPhase → Prop) (account : Account) : Account → Prop where
  | call (op : StatOp) (fits : op.Fits account) (ending : op.ends = true → ends op.phase) :
      BookStep ends account (account.call op)

/-- The calls of one step of the program. -/
abbrev Books (ends : StatPhase → Prop) := Relation.ReflTransGen (BookStep ends)

/-- Calls that change the record of their own phase only. -/
abbrev OwnCalls :=
  Relation.ReflTransGen fun first second : Account =>
    ∃ op : StatOp, second = first.call op ∧ op.OwnRecord first.stat

namespace Books

variable {ends : StatPhase → Prop} {before after : Account}

theorem call (op : StatOp) (fits : op.Fits before) (ending : op.ends = true → ends op.phase) :
    Books ends before (before.call op) := .single (.call op fits ending)

theorem exact_ (books : Books ends before after) (start : before.Exact) :
    after.Exact ∧ OwnCalls before after := by
  induction books with
  | refl => exact ⟨start, .refl⟩
  | tail _ last hypothesis =>
      obtain ⟨here, calls⟩ := hypothesis
      cases last with
      | call op fits _ => exact ⟨here.call fits, calls.tail ⟨op, rfl, here.ownRecord fits⟩⟩

theorem begun (books : Books ends before after) {phase : StatPhase} (other : phase ≠ .add)
    (started : (before.stat.time phase).state ≠ .idle) :
    (after.stat.time phase).state ≠ .idle := by
  induction books with
  | refl => exact started
  | tail _ last hypothesis =>
      cases last with
      | call op _ _ => exact op.begun_run other hypothesis

theorem keepsEnd (books : Books ends before after) (phase : StatPhase) :
    (before.stat.time phase).KeepsEnd (ends phase) (after.stat.time phase) := by
  induction books with
  | refl => exact .refl _ _
  | tail _ last hypothesis =>
      cases last with
      | call op fits ending =>
          refine hypothesis.trans ?_
          intro ended
          obtain ⟨state, start, end_⟩ := fits.keepsEnd phase ended
          refine ⟨state, start, end_.imp_right ?_⟩
          rintro ⟨closes, rfl⟩
          exact ending closes

end Books

end Nwmng
