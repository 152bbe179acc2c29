/-
Module: Nwmng.Config.GuardTimer
Purpose: The guard timer of a slot against the timeout of the stack that it guards.
Trusted boundary: none
Main exports:
  Dcd.lowPower, stackTimeout, TimerWaits, WaitsLongEnough, guard_timer_iff
-/
import Mathlib
import Nwmng.Config.Slot

namespace Nwmng

open ConfigCache (lpnBitofs configNoRspTimeout)

/-!
## What the timer is to wait for

The program adds a guard time to the timeout of the stack and rounds to seconds, all of it
unsigned.  The deadline is compared with what the comment in front of the computation says.
-/

/-- The bit at the position `LPN_BITOFS` of the features. -/
def Dcd.lowPower (dcd : Dcd) : Bool := dcd.feature &&& ((1 : UInt16) <<< 3) != 0

/-- The bits of `LPN_BITOFS` taken for a mask: those of relay and proxy. -/
def Dcd.relayOrProxy (dcd : Dcd) : Bool := dcd.feature &&& lpnBitofs != 0

/-- The timeout of the stack, in milliseconds: the one of Low Power nodes, as long as the
composition data is not known. -/
def stackTimeout (dcd : Dcd) (timeout : Timeout) : UInt32 :=
  if dcd.elems.isNone || dcd.lowPower then timeout.lpn else timeout.normal

/-- Whole seconds, rounded up. -/
def seconds (milliseconds : UInt32) : Nat := (milliseconds.toNat + 999) / 1000

/-- The deadline is not before the timeout of the stack and the guard time, and that of a
node known not to be a Low Power node does not depend on their timeout. -/
structure TimerWaits (cache : ConfigCache) (timeout : Timeout) (now : Nat) : Prop where
  late : now + configNoRspTimeout + seconds (stackTimeout cache.dcd timeout) ≤
    (cache.timerSet (some timeout) now).expired
  normal : cache.dcd.elems.isNone = false → cache.dcd.lowPower = false → ∀ lpn,
    (cache.timerSet (some { timeout with lpn := lpn }) now).expired =
      (cache.timerSet (some timeout) now).expired

/-- The addition of the rounding stays within 32 bits.  Beyond it the sum wraps around, and the
guard timer is set to hardly any time at all. -/
def Roundable (milliseconds : UInt32) : Prop := milliseconds.toNat + 999 < 2 ^ 32

/-- When the timer waits long enough: the features tell what the two other bits tell, or the
other timeout is long enough too. -/
inductive WaitsLongEnough (dcd : Dcd) (timeout : Timeout) : Prop where
  | unknown (isNone : dcd.elems.isNone = true) (fits : Roundable timeout.lpn)
  | lowPower (known : dcd.elems.isNone = false) (low : dcd.lowPower = true)
      (taken : dcd.relayOrProxy = true) (fits : Roundable timeout.lpn)
  | shorter (known : dcd.elems.isNone = false) (low : dcd.lowPower = true)
      (taken : dcd.relayOrProxy = false)
      (enough : timeout.lpn = 0 ∨
        Roundable timeout.normal ∧ seconds timeout.lpn ≤ seconds timeout.normal)
  | other (known : dcd.elems.isNone = false) (low : dcd.lowPower = false)
      (taken : dcd.relayOrProxy = false) (fits : Roundable timeout.normal)

/-! ## The timer -/

/-- The seconds that the timer adds. -/
def addedSeconds (milliseconds : UInt32) : Nat := ((milliseconds + 999) / 1000).toNat

theorem expired_timerSet (cache : ConfigCache) (timeout : Timeout) (now : Nat) :
    (cache.timerSet (some timeout) now).expired = now + configNoRspTimeout +
      addedSeconds (if cache.dcd.elems.isNone || cache.dcd.relayOrProxy
        then timeout.lpn else timeout.normal) := by
  unfold ConfigCache.timerSet Dcd.relayOrProxy addedSeconds
  split
  · rfl
  · rfl

theorem addedSeconds_eq (milliseconds : UInt32) :
    addedSeconds milliseconds = (milliseconds.toNat + 999) % 2 ^ 32 / 1000 := by
  unfold addedSeconds
  rw [UInt32.toNat_div, UInt32.toNat_add]
  rfl

theorem addedSeconds_of_roundable {milliseconds : UInt32} (fits : Roundable milliseconds) :
    addedSeconds milliseconds = seconds milliseconds := by
  rw [addedSeconds_eq, Nat.mod_eq_of_lt fits]
  rfl

/-- Where the addition overflows, nothing is added. -/
theorem addedSeconds_of_wraps {milliseconds : UInt32} (wraps : ¬ Roundable milliseconds) :
    addedSeconds milliseconds = 0 := by
  have wide := milliseconds.toNat_lt
  unfold Roundable at wraps
  rw [addedSeconds_eq]
  omega

theorem seconds_eq_zero {milliseconds : UInt32} : seconds milliseconds = 0 ↔ milliseconds = 0 := by
  unfold seconds
  constructor
  · intro zero
    apply UInt32.toNat_inj.mp
    rw [UInt32.toNat_zero]
    omega
  · rintro rfl
    rfl

/-- A timeout is waited for when it is roundable; one of 0 in any case. -/
theorem waits_own {milliseconds : UInt32} :
    seconds milliseconds ≤ addedSeconds milliseconds ↔ Roundable milliseconds := by
  by_cases fits : Roundable milliseconds
  · rw [addedSeconds_of_roundable fits]
    exact iff_of_true (Nat.le_refl _) fits
  · rw [addedSeconds_of_wraps fits]
    refine iff_of_false ?_ fits
    intro none_
    apply fits
    rw [seconds_eq_zero.mp (Nat.le_zero.mp none_)]
    unfold Roundable
    decide

theorem waits_other {wanted used : UInt32} :
    seconds wanted ≤ addedSeconds used ↔
      wanted = 0 ∨ Roundable used ∧ seconds wanted ≤ seconds used := by
  by_cases fits : Roundable used
  · rw [addedSeconds_of_roundable fits, and_iff_right fits]
    constructor
    · exact .inr
    · rintro (rfl | enough)
      · exact Nat.zero_le _
      · exact enough
  · rw [addedSeconds_of_wraps fits, Nat.le_zero, seconds_eq_zero]
    constructor
    · exact .inl
    · rintro (zero | ⟨impossible, _⟩)
      · exact zero
      · exact absurd impossible fits

/-- Two timeouts that are told apart by the deadline. -/
theorem addedSeconds_differs : addedSeconds 0 ≠ addedSeconds 1000 := by decide

/-- The guard timer never fires before the timeout of the stack, and keeps to the normal one for
a node known not to be a Low Power node, exactly under the condition.  The feature is tested with
the number of its bit instead of the bit, so relay and proxy nodes are taken for Low Power nodes. -/
theorem guard_timer_iff (cache : ConfigCache) (timeout : Timeout) (now : Nat) :
    TimerWaits cache timeout now ↔ WaitsLongEnough cache.dcd timeout := by
  have late_iff : now + configNoRspTimeout + seconds (stackTimeout cache.dcd timeout) ≤
      (cache.timerSet (some timeout) now).expired ↔
      seconds (stackTimeout cache.dcd timeout) ≤ addedSeconds
        (if cache.dcd.elems.isNone || cache.dcd.relayOrProxy
          then timeout.lpn else timeout.normal) := by
    rw [expired_timerSet]
    exact Nat.add_le_add_iff_left
  constructor
  · rintro ⟨late, normal⟩
    have waits := late_iff.mp late
    unfold stackTimeout at waits
    cases known : cache.dcd.elems.isNone with
    | true =>
        rw [known, Bool.true_or, Bool.true_or, if_pos rfl] at waits
        exact .unknown known (waits_own.mp waits)
    | false =>
        rw [known, Bool.false_or, Bool.false_or] at waits
        cases low : cache.dcd.lowPower with
        | true =>
            rw [low, if_pos rfl] at waits
            cases taken : cache.dcd.relayOrProxy with
            | true =>
                rw [taken, if_pos rfl] at waits
                exact .lowPower known low taken (waits_own.mp waits)
            | false =>
                rw [taken, if_neg Bool.false_ne_true] at waits
                exact .shorter known low taken (waits_other.mp waits)
        | false =>
            rw [low, if_neg Bool.false_ne_true] at waits
            cases taken : cache.dcd.relayOrProxy with
            | true =>
                -- two timeouts of the Low Power nodes lead to two deadlines
                have zero := normal known low 0
                have second := normal known low 1000
                rw [expired_timerSet, taken, Bool.or_true, if_pos rfl] at zero second
                have same := Nat.add_left_cancel (zero.trans second.symm)
                exact absurd same addedSeconds_differs
            | false =>
                rw [taken, if_neg Bool.false_ne_true] at waits
                exact .other known low taken (waits_own.mp waits)
  · intro enough
    constructor
    · apply late_iff.mpr
      unfold stackTimeout
      cases enough with
      | unknown isNone fits =>
          rw [isNone, Bool.true_or, Bool.true_or, if_pos rfl]
          exact waits_own.mpr fits
      | lowPower known low taken fits =>
          rw [known, low, taken, Bool.false_or, if_pos rfl]
          exact waits_own.mpr fits
      | shorter known low taken enough =>
          rw [known, low, taken, Bool.false_or, Bool.false_or, if_pos rfl,
            if_neg Bool.false_ne_true]
          exact waits_other.mpr enough
      | other known low taken fits =>
          rw [known, low, taken, Bool.false_or, if_neg Bool.false_ne_true]
          exact waits_own.mpr fits
    · intro known low lpn
      have untaken : cache.dcd.relayOrProxy = false := by
        cases enough with
        | unknown isNone _ =>
            rw [isNone] at known
            cases known
        | lowPower _ isLow _ _ =>
            rw [low] at isLow
            cases isLow
        | shorter _ isLow _ _ =>
            rw [low] at isLow
            cases isLow
        | other _ _ taken _ => exact taken
      rw [expired_timerSet, expired_timerSet, known, untaken]
      rfl

/-- The composition data of a Low Power node that is neither relay nor proxy. -/
def Dcd.sleeping : Dcd := { Dcd.zeroed with elems := some [], feature := 8 }

/-- A Low Power node gets the normal timeout: the timer fires 15 seconds too early. -/
theorem guard_timer_early : ¬ ∀ (cache : ConfigCache) (timeout : Timeout) (now : Nat),
    TimerWaits cache timeout now := by
  intro claim
  have late := (claim { ConfigCache.reset with dcd := Dcd.sleeping }
    { normal := 5000, lpn := 20000 } 0).late
  exact absurd late (by decide)

end Nwmng
