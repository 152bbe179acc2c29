/-
Module: Nwmng.Mng.Stat
Purpose: The statistics of a synchronization, kept per phase.
Trusted boundary: none
Main exports:
  RecordState, MeasureTime, Stat
-/
import Mathlib.Logic.Basic

/-!
Each function of the statistics writes one record, with the time as its argument.  They are
called from all phases, and trust their callers to come in the right order.
-/

namespace Nwmng

/-- `rc_idle`, `rc_start` and `rc_end`. -/
inductive RecordState where
  | idle
  | start
  | end_
deriving Repr, DecidableEq, Inhabited

structure MeasureTime where
  state : RecordState
  start : Nat
  end_ : Nat
deriving Repr, DecidableEq, Inhabited

def MeasureTime.zeroed : MeasureTime := { state := .idle, start := 0, end_ := 0 }

/-- Begin measuring, unless a measurement was begun before. -/
def MeasureTime.begun (now : Nat) : MeasureTime :=
  { state := .start, start := now, end_ := 0 }

/-- End a measurement that was begun. -/
def MeasureTime.ended (time : MeasureTime) (now : Nat) : MeasureTime :=
  if time.state = .idle then time else { time with state := .end_, end_ := now }

structure AddStat where
  devCnt : UInt32
  failTimes : UInt32
  time : MeasureTime
deriving Repr, DecidableEq, Inhabited

structure RmStat where
  devCnt : UInt32
  retryTimes : UInt32
  time : MeasureTime
deriving Repr, DecidableEq, Inhabited

structure ConfigStat where
  devCnt : UInt32
  retryTimes : UInt32
  time : MeasureTime
  fullLoadingTime : Nat
  fullLoadingMeas : MeasureTime
deriving Repr, DecidableEq, Inhabited

structure Stat where
  add : AddStat
  rm : RmStat
  bl : MeasureTime
  config : ConfigStat
deriving Repr, DecidableEq, Inhabited

namespace Stat

def zeroed : Stat where
  add := { devCnt := 0, failTimes := 0, time := .zeroed }
  rm := { devCnt := 0, retryTimes := 0, time := .zeroed }
  bl := .zeroed
  config :=
    { devCnt := 0, retryTimes := 0, time := .zeroed
      fullLoadingTime := 0, fullLoadingMeas := .zeroed }

def addStart (stat : Stat) (now : Nat) : Stat :=
  if stat.add.time.state ≠ .idle then stat
  else { stat with add := { devCnt := 0, failTimes := 0, time := .begun now } }

def addEnd (stat : Stat) (now : Nat) : Stat :=
  { stat with add := { stat.add with time := stat.add.time.ended now } }

def addOneDev (stat : Stat) : Stat :=
  { stat with add := { stat.add with devCnt := stat.add.devCnt + 1 } }

def addFailed (stat : Stat) : Stat :=
  { stat with add := { stat.add with failTimes := stat.add.failTimes + 1 } }

def configStart (stat : Stat) (now : Nat) : Stat :=
  if stat.config.time.state ≠ .idle then stat
  else
    { stat with
      config := { devCnt := 0, retryTimes := 0, time := .begun now
                  fullLoadingTime := 0, fullLoadingMeas := .zeroed } }

def configEnd (stat : Stat) (now : Nat) : Stat :=
  { stat with config := { stat.config with time := stat.config.time.ended now } }

def configOneDev (stat : Stat) : Stat :=
  { stat with config := { stat.config with devCnt := stat.config.devCnt + 1 } }

def configRetry (stat : Stat) : Stat :=
  { stat with config := { stat.config with retryTimes := stat.config.retryTimes + 1 } }

/-- `stat_config_loading_record`, in a state that configures: all slots busy or
not. -/
def configLoadingRecord (stat : Stat) (full : Bool) (now : Nat) : Stat :=
  let meas := stat.config.fullLoadingMeas
  if full then
    if meas.state = .start then stat
    else
      { stat with config := { stat.config with
          fullLoadingMeas := { meas with state := .start, start := now } } }
  else if meas.state = .start then
    { stat with config := { stat.config with
        fullLoadingTime := stat.config.fullLoadingTime + (now - meas.start)
        fullLoadingMeas := { meas with state := .end_ } } }
  else stat

/-- `stat_bl_start`.  The `memset` starts at the whole record and is as long as
the blacklisting part: it clears the head of the adding part, up to the start
time, and leaves its end time. -/
def blStart (stat : Stat) (now : Nat) : Stat :=
  if stat.bl.state ≠ .idle then stat
  else
    { stat with
      add := { devCnt := 0, failTimes := 0
               time := { state := .idle, start := 0, end_ := stat.add.time.end_ } }
      bl := { stat.bl with state := .start, start := now } }

def blEnd (stat : Stat) (now : Nat) : Stat :=
  { stat with bl := stat.bl.ended now }

def rmStart (stat : Stat) (now : Nat) : Stat :=
  if stat.rm.time.state ≠ .idle then stat
  else { stat with rm := { devCnt := 0, retryTimes := 0, time := .begun now } }

def rmEnd (stat : Stat) (now : Nat) : Stat :=
  { stat with rm := { stat.rm with time := stat.rm.time.ended now } }

def rmOneDev (stat : Stat) : Stat :=
  { stat with rm := { stat.rm with devCnt := stat.rm.devCnt + 1 } }

def rmRetry (stat : Stat) : Stat :=
  { stat with rm := { stat.rm with retryTimes := stat.rm.retryTimes + 1 } }

end Stat

end Nwmng
