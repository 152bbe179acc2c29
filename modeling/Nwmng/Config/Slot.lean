/-
Module: Nwmng.Config.Slot
Purpose: The state of one configuration slot, and the small operations that the
state modules share.
Trusted boundary: none
Main exports:
  AccState, ErrCache, ConfigCache, ConfigCache.timerSet, ConfigCache.errSetToEnd,
  AccRet, RetryReason
-/
import Nwmng.Cfg.Records
import Nwmng.Config.Dcd

namespace Nwmng

/-- `acc_state_emt`.  The value `to_next_state_em` of the source, which only a
next state takes, is `none` of an optional state. -/
inductive AccState where
  | provisioningEm
  | provisionedEm
  | getDcdEm
  | addappkeyEm
  | bindappkeyEm
  | setpubEm
  | addsubEm
  | setconfigEm
  | endEm
  | rmEm
  | rmendEm
deriving Repr, DecidableEq, Inhabited

namespace AccState

/-- The number of a state, which is also the number of its error bit. -/
def code : AccState → Nat
  | provisioningEm => 0
  | provisionedEm => 1
  | getDcdEm => 2
  | addappkeyEm => 3
  | bindappkeyEm => 4
  | setpubEm => 5
  | addsubEm => 6
  | setconfigEm => 7
  | endEm => 8
  | rmEm => 9
  | rmendEm => 10

/-- `ERROR_BIT`. -/
def errorBit (state : AccState) : BitVec 32 := 1#32 <<< state.code

end AccState

/-- The results of the state callbacks.  `tonext` skips the state, `notfnd` says that there is no
command for the position, and `oom` that the NCP has no memory for it. -/
inductive AccRet where
  | suc
  | oom
  | tonext
  | bgapi
  | unspec
  | notfnd
deriving Repr, DecidableEq, Inhabited

inductive RetryReason where
  | onTimeoutEm
  | onOomEm
  | onGuardTimerExpiredEm
deriving Repr, DecidableEq, Inhabited

/-- Where an error came from: the return value of a call, or an event. -/
inductive BgerrType where
  | bgapiEm
  | bgeventEm
deriving Repr, DecidableEq, Inhabited

structure ErrCache where
  bgcall : BitVec 32
  bgevt : BitVec 32
  general : UInt16
deriving Repr, DecidableEq, Inhabited

/-- The vendor and model id of the model last worked on. -/
structure Vnm where
  vd : UInt16
  md : UInt16
deriving Repr, DecidableEq, Inhabited

/-- The three shared iterators, under the numbers the states use for them.  Each state that
iterates uses some of them, and leaves them at zero for the next. -/
structure Iterators where
  zero : Int
  one : Int
  two : Int
deriving Repr, DecidableEq, Inhabited

/-- `config_cache_t`.  The three flag bits in use are Booleans; `expired` is 0
while the guard timer is not armed. -/
structure ConfigCache where
  state : AccState
  nextState : Option AccState
  node : Option NodeId
  expired : Nat
  waitResponse : Bool
  everRetried : Bool
  oom : Bool
  remainingRetry : UInt8
  errCache : ErrCache
  dcd : Dcd
  ccHandle : UInt32
  vnm : Vnm
  iterators : Iterators
deriving Repr, DecidableEq, Inhabited

namespace ConfigCache

/-- `__cache_reset`. -/
def reset : ConfigCache where
  state := .provisionedEm
  nextState := some .getDcdEm
  node := none
  expired := 0
  waitResponse := false
  everRetried := false
  oom := false
  remainingRetry := 0
  errCache := { bgcall := 0, bgevt := 0, general := 0 }
  dcd := Dcd.zeroed
  ccHandle := 0
  vnm := { vd := 0, md := 0 }
  iterators := { zero := 0, one := 0, two := 0 }

/-- `RETRY_CLEAR`. -/
def retryClear (cache : ConfigCache) : ConfigCache :=
  { cache with everRetried := false, remainingRetry := 0 }

/-- `clr_cache_ctl`. -/
def clrCacheCtl (cache : ConfigCache) : ConfigCache :=
  { cache with expired := 0, waitResponse := false, everRetried := false, oom := false }

/-- `err_set`: the bit is that of the state the slot is in. -/
def errSet (cache : ConfigCache) (errcode : UInt16) : BgerrType → ConfigCache
  | .bgapiEm =>
      { cache with errCache := { cache.errCache with
          bgcall := cache.errCache.bgcall ||| cache.state.errorBit
          general := errcode } }
  | .bgeventEm =>
      { cache with errCache := { cache.errCache with
          bgevt := cache.errCache.bgevt ||| cache.state.errorBit
          general := errcode } }

/-- The common body of `err_set_to_end` and `err_set_to_rm_end`. -/
def errSetTo (final : AccState) (cache : ConfigCache) (errcode : UInt16)
    (errType : BgerrType) : ConfigCache :=
  { (cache.errSet errcode errType).clrCacheCtl with nextState := some final }

def errSetToEnd : ConfigCache → UInt16 → BgerrType → ConfigCache :=
  errSetTo .endEm

def errSetToRmEnd : ConfigCache → UInt16 → BgerrType → ConfigCache :=
  errSetTo .rmendEm

/-- `LPN_BITOFS`, used by `timer_set` as a mask. -/
def lpnBitofs : UInt16 := 3

/-- `CONFIG_NO_RSP_TIMEOUT`. -/
def configNoRspTimeout : Nat := 3

/-- `timer_set(cache, 0)`. -/
def timerClear (cache : ConfigCache) : ConfigCache :=
  { cache with expired := 0 }

/-- `timer_set(cache, 1)` at a given time. -/
def timerSet (cache : ConfigCache) (timeout : Option Timeout) (now : Nat) :
    ConfigCache :=
  let extra : Nat :=
    if cache.dcd.elems.isNone || cache.dcd.feature &&& lpnBitofs != 0 then
      match timeout with
      | some timeout => ((timeout.lpn + 999) / 1000).toNat
      | none => 120
    else
      match timeout with
      | some timeout => ((timeout.normal + 999) / 1000).toNat
      | none => 5
  { cache with expired := now + configNoRspTimeout + extra }

/-- Some error was recorded. -/
def failed (cache : ConfigCache) : Bool :=
  cache.errCache.bgcall != 0 || cache.errCache.bgevt != 0

/-- What `__on_failed` stores: the recorded bits without the user's. -/
def errBits (cache : ConfigCache) : BitVec 32 :=
  (cache.errCache.bgevt ||| cache.errCache.bgcall) &&& 0x7FFFFFFF#32

end ConfigCache

/-! ## Recorded errors -/

theorem AccState.errorBit_ne (state : AccState) : state.errorBit ≠ 0#32 := by
  cases state <;> decide

theorem ConfigCache.errSetTo_state (final : AccState) (cache : ConfigCache) (code : UInt16)
    (origin : BgerrType) : (errSetTo final cache code origin).state = cache.state := by
  cases origin <;> rfl

theorem ConfigCache.errSetTo_failed (final : AccState) (cache : ConfigCache) (code : UInt16)
    (origin : BgerrType) : (errSetTo final cache code origin).failed = true := by
  have bit := cache.state.errorBit_ne
  cases origin with
  | bgapiEm => simp [errSetTo, errSet, clrCacheCtl, failed, bit]
  | bgeventEm => simp [errSetTo, errSet, clrCacheCtl, failed, bit]

end Nwmng
